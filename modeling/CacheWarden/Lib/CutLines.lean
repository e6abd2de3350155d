import Mathlib.Data.List.Basic
import Mathlib.Data.List.Infix

/-!
# Lines that are cut off

A writer puts lines on a stream, and may give one up in the middle: what it wrote stays,
and the next line follows on it without a newline between the two. A reader takes what
stands before the next newline, and may lose what it has taken. With a codec in which no
piece of a line reads as anything, what is read is a line that was written whole.
-/

set_option autoImplicit false

namespace CutLines

abbrev Text := List UInt8

def newline : UInt8 := 10

structure Codec (α : Type*) where
  line : α → Text
  read : Text → Option α

variable {α : Type*} {c : Codec α}

/-- What is left on the stream of a line that was given up. -/
def Codec.Cut (c : Codec α) (P : α → Prop) (piece : Text) : Prop :=
  piece ≠ [] ∧ ∃ a, P a ∧ piece <+: c.line a

/-- A line reads as what was written, and nothing else that comes of lines reads: not the
starts of several one after the other, and no part of one. -/
structure Codec.Lawful (c : Codec α) : Prop where
  read_line : ∀ a, c.read (c.line a) = some a
  plain : ∀ a, newline ∉ c.line a
  nonempty : ∀ a, c.line a ≠ []
  cut : ∀ pieces b, (∀ p ∈ pieces, c.Cut (fun _ => True) p) → c.read pieces.flatten = some b →
    pieces = [c.line b]
  part : ∀ a piece b, piece <:+: c.line a → c.read piece = some b → piece = c.line a

/-- A line with what was cut off before it. -/
structure Frame (α : Type*) where
  cuts : List Text
  said : α

def Frame.bytes (c : Codec α) (f : Frame α) : Text :=
  f.cuts.flatten ++ c.line f.said ++ [newline]

/-- The stream holds lines that say what `P` allows, with cuts that `Q` allows before each,
then cuts, and then the piece that is being written. -/
def Carries (c : Codec α) (P : α → Prop) (Q : Text → Prop) (bytes : Text) (cuts : List Text)
    (piece : Text) : Prop :=
  ∃ frames : List (Frame α),
    bytes = frames.flatMap (Frame.bytes c) ++ cuts.flatten ++ piece ∧
      (∀ f ∈ frames, P f.said ∧ ∀ p ∈ f.cuts, Q p) ∧ ∀ p ∈ cuts, Q p

variable {P P' : α → Prop} {Q Q' : Text → Prop} {bytes taken rest piece : Text}
  {cuts : List Text} {a b : α}

theorem Codec.Cut.mono (h : c.Cut P piece) (hp : ∀ a, P a → P' a) : c.Cut P' piece := by
  obtain ⟨hne, a, ha, hpre⟩ := h
  exact ⟨hne, a, hp a ha, hpre⟩

theorem Codec.Lawful.line_inj (hc : c.Lawful) (h : c.line a = c.line b) : a = b := by
  have hread := hc.read_line a
  rw [h, hc.read_line b] at hread
  exact (Option.some.inj hread).symm

theorem Codec.Lawful.read_part (hc : c.Lawful) (h : piece <:+: c.line a)
    (hread : c.read piece = some b) : piece = c.line a ∧ b = a := by
  have hpiece := hc.part a piece b h hread
  rw [hpiece, hc.read_line a] at hread
  exact ⟨hpiece, (Option.some.inj hread).symm⟩

theorem Codec.Cut.plain (hc : c.Lawful) (h : c.Cut P piece) : newline ∉ piece := by
  obtain ⟨_, a, _, hpre⟩ := h
  exact fun hmem => hc.plain a (hpre.subset hmem)

theorem carries_nil : Carries c P Q [] [] [] := ⟨[], rfl, by simp, by simp⟩

theorem Carries.mono (h : Carries c P Q bytes cuts piece) (hp : ∀ a, P a → P' a)
    (hq : ∀ p, Q p → Q' p) : Carries c P' Q' bytes cuts piece := by
  obtain ⟨frames, hbytes, hframes, hcuts⟩ := h
  refine ⟨frames, hbytes, fun f hf => ?_, fun p hmem => hq p (hcuts p hmem)⟩
  exact ⟨hp _ (hframes f hf).1, fun p hmem => hq p ((hframes f hf).2 p hmem)⟩

theorem Carries.write (h : Carries c P Q bytes cuts piece) (byte : UInt8) :
    Carries c P Q (bytes ++ [byte]) cuts (piece ++ [byte]) := by
  obtain ⟨frames, hbytes, hframes, hcuts⟩ := h
  exact ⟨frames, by simp [hbytes], hframes, hcuts⟩

theorem Carries.finish (h : Carries c P Q bytes cuts (c.line a)) (ha : P a) :
    Carries c P Q (bytes ++ [newline]) [] [] := by
  obtain ⟨frames, hbytes, hframes, hcuts⟩ := h
  refine ⟨frames ++ [⟨cuts, a⟩], by simp [hbytes, Frame.bytes], fun f hf => ?_, by simp⟩
  rcases List.mem_append.mp hf with hold | hnew
  · exact hframes f hold
  · cases List.mem_singleton.mp hnew
    exact ⟨ha, hcuts⟩

/-- How far the line has come that is being written. -/
def Writing (c : Codec α) (P : α → Prop) (piece : Text) : Option (α × Text) → Prop
  | none => piece = []
  | some (a, rest) => P a ∧ rest ≠ [] ∧ piece ++ rest = c.line a ++ [newline]

theorem writing_start (ha : P a) : Writing c P [] (some (a, c.line a ++ [newline])) :=
  ⟨ha, by simp, rfl⟩

theorem Writing.mono {saying : Option (α × Text)} (h : Writing c P piece saying)
    (hp : ∀ a, P a → P' a) : Writing c P' piece saying := by
  cases saying with
  | none => exact h
  | some x => exact ⟨hp _ h.1, h.2⟩

theorem Writing.begins (h : Writing c P piece (some (a, rest))) : piece <+: c.line a := by
  obtain ⟨_, hrest, hsplit⟩ := h
  have hlast := congrArg List.dropLast hsplit
  rw [List.dropLast_append_of_ne_nil hrest, List.dropLast_concat] at hlast
  exact ⟨rest.dropLast, hlast⟩

theorem Writing.plain {saying : Option (α × Text)} (hc : c.Lawful)
    (h : Writing c P piece saying) : newline ∉ piece := by
  cases saying with
  | none =>
    rw [show piece = [] from h]
    simp
  | some x => exact fun hmem => hc.plain x.1 ((Writing.begins h).subset hmem)

/-- One byte more, the last of the line or another. -/
theorem Carries.say {byte : UInt8} (h : Carries c P Q bytes cuts piece)
    (hwriting : Writing c P piece (some (a, byte :: rest))) :
    ∃ piece', Carries c P Q (bytes ++ [byte]) (if rest = [] then [] else cuts) piece' ∧
      Writing c P piece' (if rest = [] then none else some (a, rest)) := by
  obtain ⟨ha, _, hsplit⟩ := hwriting
  by_cases hlast : rest = []
  · simp only [hlast, if_true]
    rw [hlast] at hsplit
    obtain ⟨hpiece, hbyte⟩ := List.append_inj' hsplit rfl
    cases hbyte
    rw [hpiece] at h
    exact ⟨[], h.finish ha, rfl⟩
  · simp only [hlast, if_false]
    exact ⟨piece ++ [byte], h.write byte, ha, hlast, by simpa using hsplit⟩

/-- A writer that gives up leaves what it has written. -/
theorem Carries.giveUp {saying : Option (α × Text)} (h : Carries c P (c.Cut P) bytes cuts piece)
    (hwriting : Writing c P piece saying) : ∃ cuts', Carries c P (c.Cut P) bytes cuts' [] := by
  cases saying with
  | none =>
    rw [show piece = [] from hwriting] at h
    exact ⟨cuts, h⟩
  | some x =>
    obtain ⟨frames, hbytes, hframes, hcuts⟩ := h
    by_cases hnil : piece = []
    · exact ⟨cuts, frames, by simp [hbytes, hnil], hframes, hcuts⟩
    · refine ⟨cuts ++ [piece], frames, by simp [hbytes], hframes, fun p hmem => ?_⟩
      rcases List.mem_append.mp hmem with hold | hnew
      · exact hcuts p hold
      · cases List.mem_singleton.mp hnew
        exact ⟨hnil, x.1, hwriting.1, hwriting.begins⟩

/-- What stands before the first newline. -/
theorem before_newline {taken' rest' : Text} (htaken : newline ∉ taken) (htaken' : newline ∉ taken')
    (h : taken ++ newline :: rest = taken' ++ newline :: rest') : taken = taken' ∧ rest = rest' := by
  induction taken generalizing taken' with
  | nil =>
    cases taken' with
    | nil => simpa using h
    | cons byte taken' =>
      simp only [List.nil_append, List.cons_append, List.cons.injEq] at h
      simp [h.1] at htaken'
  | cons byte taken ih =>
    cases taken' with
    | nil =>
      simp only [List.nil_append, List.cons_append, List.cons.injEq] at h
      simp [h.1] at htaken
    | cons byte' taken' =>
      simp only [List.cons_append, List.cons.injEq] at h
      simp only [List.mem_cons, not_or] at htaken htaken'
      obtain ⟨heq, hrest⟩ := ih htaken.2 htaken'.2 h.2
      exact ⟨by rw [h.1, heq], hrest⟩

theorem plain_flatten (hq : ∀ p, Q p → newline ∉ p) (hcuts : ∀ p ∈ cuts, Q p) :
    newline ∉ cuts.flatten := by
  intro hmem
  obtain ⟨p, hp, hin⟩ := List.mem_flatten.mp hmem
  exact hq p (hcuts p hp) hin

/-- The first line of the stream, with the cuts before it. -/
theorem Carries.first (hc : c.Lawful) (hq : ∀ p, Q p → newline ∉ p) (hpiece : newline ∉ piece)
    (h : Carries c P Q (taken ++ newline :: rest) cuts piece) (htaken : newline ∉ taken) :
    ∃ f : Frame α, taken = f.cuts.flatten ++ c.line f.said ∧ P f.said ∧ (∀ p ∈ f.cuts, Q p) ∧
      Carries c P Q rest cuts piece := by
  obtain ⟨frames, hbytes, hframes, hcuts⟩ := h
  cases frames with
  | nil =>
    have hmem : newline ∈ cuts.flatten ++ piece := by
      have hsame : cuts.flatten ++ piece = taken ++ newline :: rest := by simpa using hbytes.symm
      rw [hsame]
      simp
    rcases List.mem_append.mp hmem with hin | hin
    · exact absurd hin (plain_flatten hq hcuts)
    · exact absurd hin hpiece
  | cons f frames =>
    obtain ⟨hsaid, hfcuts⟩ := hframes f (by simp)
    have hplain : newline ∉ f.cuts.flatten ++ c.line f.said := by
      intro hmem
      rcases List.mem_append.mp hmem with hin | hin
      · exact plain_flatten hq hfcuts hin
      · exact hc.plain _ hin
    have hsplit : taken ++ newline :: rest = (f.cuts.flatten ++ c.line f.said) ++
        newline :: (frames.flatMap (Frame.bytes c) ++ cuts.flatten ++ piece) := by
      rw [hbytes]
      simp [Frame.bytes]
    obtain ⟨htakes, hrest⟩ := before_newline htaken hplain hsplit
    exact ⟨f, htakes, hsaid, hfcuts, frames, hrest,
      fun g hg => hframes g (List.mem_cons_of_mem f hg), hcuts⟩

/-- A stream without a newline holds no whole line. -/
theorem Carries.only (h : Carries c P Q bytes cuts piece) (hbytes : newline ∉ bytes) :
    bytes = cuts.flatten ++ piece ∧ ∀ p ∈ cuts, Q p := by
  obtain ⟨frames, hsplit, _, hcuts⟩ := h
  cases frames with
  | nil => exact ⟨by simpa using hsplit, hcuts⟩
  | cons f frames =>
    rw [hsplit] at hbytes
    simp [Frame.bytes] at hbytes

theorem Codec.Lawful.read_cuts (hc : c.Lawful) (hcuts : ∀ p ∈ cuts, c.Cut P p)
    (hread : c.read cuts.flatten = some b) : cuts = [c.line b] ∧ P b := by
  have hpieces := hc.cut cuts b (fun p hp => (hcuts p hp).mono fun _ _ => trivial) hread
  obtain ⟨_, a, ha, hpre⟩ := hcuts (c.line b) (by rw [hpieces]; simp)
  have hline := hc.part a (c.line b) b hpre.isInfix (hc.read_line b)
  rw [hc.line_inj hline]
  exact ⟨by rw [hpieces, hline], ha⟩

/-- What reads, of a stream with cuts in it, was said. -/
theorem Carries.heard (hc : c.Lawful) (hpiece : newline ∉ piece)
    (h : Carries c P (c.Cut P) (taken ++ newline :: rest) cuts piece) (htaken : newline ∉ taken) :
    Carries c P (c.Cut P) rest cuts piece ∧ ∀ b, c.read taken = some b → P b := by
  obtain ⟨f, htakes, hsaid, hcuts, hrest⟩ := h.first hc (fun p hp => hp.plain hc) hpiece htaken
  refine ⟨hrest, fun b hread => ?_⟩
  have hall : ∀ p ∈ f.cuts ++ [c.line f.said], c.Cut P p := by
    intro p hp
    rcases List.mem_append.mp hp with hold | hnew
    · exact hcuts p hold
    · cases List.mem_singleton.mp hnew
      exact ⟨hc.nonempty _, f.said, hsaid, List.prefix_refl _⟩
  refine (hc.read_cuts hall ?_).2
  rw [← hread, htakes]
  simp

/-- The same of a stream that ends without a newline. -/
theorem Carries.heard_last {saying : Option (α × Text)} (hc : c.Lawful)
    (h : Carries c P (c.Cut P) taken cuts piece) (htaken : newline ∉ taken)
    (hwriting : Writing c P piece saying) (hread : c.read taken = some b) : P b := by
  obtain ⟨cuts', hcarries⟩ := h.giveUp hwriting
  obtain ⟨hsplit, hcuts⟩ := hcarries.only htaken
  rw [hsplit, List.append_nil] at hread
  exact (hc.read_cuts hcuts hread).2

theorem carries_whole (h : Carries c P (fun _ => False) bytes cuts piece) : cuts = [] := by
  obtain ⟨_, _, _, hcuts⟩ := h
  exact List.eq_nil_iff_forall_not_mem.mpr hcuts

/-- What reads, of a stream of whole lines, was said, also where the reader has lost what
stood before it. -/
theorem Carries.heard_late {lost : Text} (hc : c.Lawful) (hpiece : newline ∉ piece)
    (h : Carries c P (fun _ => False) (lost ++ taken ++ newline :: rest) cuts piece)
    (htaken : newline ∉ lost ++ taken) :
    Carries c P (fun _ => False) rest cuts piece ∧ ∀ b, c.read taken = some b → P b := by
  obtain ⟨f, htakes, hsaid, hcuts, hrest⟩ := h.first hc (fun p hp => hp.elim) hpiece htaken
  refine ⟨hrest, fun b hread => ?_⟩
  rw [List.eq_nil_iff_forall_not_mem.mpr hcuts, List.flatten_nil, List.nil_append] at htakes
  have hwithin : taken <:+: c.line f.said := ⟨lost, [], by rw [← htakes]; simp⟩
  rw [(hc.read_part hwithin hread).2]
  exact hsaid

theorem Carries.heard_late_last {lost : Text} {saying : Option (α × Text)} (hc : c.Lawful)
    (h : Carries c P (fun _ => False) (lost ++ taken) cuts piece)
    (htaken : newline ∉ lost ++ taken) (hwriting : Writing c P piece saying)
    (hsome : taken ≠ []) (hread : c.read taken = some b) : P b := by
  obtain ⟨hsplit, _⟩ := h.only htaken
  rw [carries_whole h, List.flatten_nil, List.nil_append] at hsplit
  cases saying with
  | none =>
    rw [show piece = [] from hwriting] at hsplit
    exact absurd (List.append_eq_nil_iff.mp hsplit).2 hsome
  | some x =>
    obtain ⟨tail, htail⟩ := hwriting.begins
    have hwithin : taken <:+: c.line x.1 := ⟨lost, tail, by rw [← htail, ← hsplit]⟩
    rw [(hc.read_part hwithin hread).2]
    exact hwriting.1

/-- Lines between two marks that occur nowhere else. -/
def bracketed (encode : α → Text) (decode : Text → Option α) : Codec α where
  line a := 1 :: (encode a ++ [2])
  read text :=
    match text with
    | [] => none
    | mark :: rest =>
      if mark = 1 ∧ rest.getLast? = some 2 ∧ 1 ∉ rest ∧ 2 ∉ rest.dropLast then
        decode rest.dropLast
      else none

variable {encode : α → Text} {decode : Text → Option α}

theorem bracketed_read {text : Text} (h : (bracketed encode decode).read text = some b) :
    ∃ body, text = 1 :: (body ++ [2]) ∧ 1 ∉ body ∧ 2 ∉ body ∧ decode body = some b := by
  cases text with
  | nil => cases h
  | cons mark rest =>
    simp only [bracketed] at h
    split at h
    · rename_i hmarks
      obtain ⟨rfl, hlast, hone, htwo⟩ := hmarks
      have hrest := List.dropLast_append_getLast? 2 hlast
      refine ⟨rest.dropLast, by rw [hrest], ?_, htwo, h⟩
      exact fun hmem => hone (List.mem_of_mem_dropLast hmem)
    · cases h

/-- What such a codec needs of the text between the marks. -/
structure Brackets (encode : α → Text) (decode : Text → Option α) : Prop where
  decode_encode : ∀ a, decode (encode a) = some a
  free : ∀ a, ∀ byte ∈ encode a, byte ≠ 1 ∧ byte ≠ 2 ∧ byte ≠ newline

theorem bracketed_read_line (h : Brackets encode decode) (a : α) :
    (bracketed encode decode).read ((bracketed encode decode).line a) = some a := by
  have hone : (1 : UInt8) ∉ encode a := fun hmem => (h.free a 1 hmem).1 rfl
  have htwo : (2 : UInt8) ∉ encode a := fun hmem => (h.free a 2 hmem).2.1 rfl
  simp [bracketed, hone, htwo, h.decode_encode]

theorem bracketed_part (h : Brackets encode decode) {text : Text}
    (hwithin : text <:+: (bracketed encode decode).line a)
    (hread : (bracketed encode decode).read text = some b) :
    text = (bracketed encode decode).line a := by
  obtain ⟨body, rfl, _, _, _⟩ := bracketed_read hread
  obtain ⟨before, after, hsplit⟩ := hwithin
  simp only [bracketed] at hsplit ⊢
  cases before with
  | cons mark before =>
    have hmem : (1 : UInt8) ∈ encode a ++ [2] := by
      rw [← (List.cons.inj hsplit).2]
      simp
    rcases List.mem_append.mp hmem with hin | hin
    · exact absurd rfl (h.free a 1 hin).1
    · simp at hin
  | nil =>
    rcases List.eq_nil_or_concat after with rfl | ⟨after', mark, rfl⟩
    · simpa using hsplit
    · have hmem : (2 : UInt8) ∈ encode a := by
        have htail : (body ++ [2]) ++ after' ++ [mark] = encode a ++ [2] := by
          simpa [List.concat_eq_append] using hsplit
        have hbefore := (List.append_inj' htail rfl).1
        rw [← hbefore]
        simp
      exact absurd rfl (h.free a 2 hmem).2.1

theorem bracketed_lawful (h : Brackets encode decode) : (bracketed encode decode).Lawful where
  read_line := bracketed_read_line h
  plain a hmem := by
    simp only [bracketed, List.mem_cons, List.mem_append] at hmem
    rcases hmem with hmark | hmem | hmark | hmark
    · exact absurd hmark (by decide)
    · exact (h.free a newline hmem).2.2 rfl
    · exact absurd hmark (by decide)
    · cases hmark
  nonempty a := by simp [bracketed]
  part a piece b hwithin hread := bracketed_part h hwithin hread
  cut pieces b hpieces hread := by
    obtain ⟨body, htext, hone, _, _⟩ := bracketed_read hread
    have hstarts : ∀ p ∈ pieces, ∃ rest, p = 1 :: rest := by
      intro p hp
      obtain ⟨hne, a, _, hpre⟩ := hpieces p hp
      cases p with
      | nil => exact absurd rfl hne
      | cons mark rest =>
        obtain ⟨tail, htail⟩ := hpre
        exact ⟨rest, by rw [(List.cons.inj htail).1]⟩
    cases pieces with
    | nil => cases htext
    | cons p pieces =>
      obtain ⟨rest, rfl⟩ := hstarts p (by simp)
      cases pieces with
      | cons q pieces =>
        obtain ⟨rest', rfl⟩ := hstarts q (by simp)
        have hmem : (1 : UInt8) ∈ body ++ [2] := by
          rw [List.flatten_cons] at htext
          rw [← (List.cons.inj htext).2]
          simp
        rcases List.mem_append.mp hmem with hin | hin
        · exact absurd hin hone
        · simp at hin
      | nil =>
        obtain ⟨_, a, _, hpre⟩ := hpieces (1 :: rest) (by simp)
        rw [List.flatten_cons, List.flatten_nil, List.append_nil] at hread
        have hwhole := bracketed_part h hpre.isInfix hread
        rw [hwhole, bracketed_read_line h] at hread
        cases hread
        rw [hwhole]

end CutLines
