import CacheWarden.Lib.Toml
import Mathlib.Data.List.TakeDrop

/-!
# A reader of documents

The reader takes the texts of documents apart again, front to back. `Takes` says
what it makes of one piece, whatever follows: the piece, if it is clean, and
nothing otherwise.
-/

set_option autoImplicit false

namespace Toml

namespace Reader

/-- The piece is taken off the front when it is clean, and nothing is otherwise. -/
structure Takes {α : Type} (read : List Char → Option (α × List Char)) (text : List Char) (a : α)
    (clean : Prop) (rest : List Char) : Prop where
  whole : clean → read (text ++ rest) = some (a, rest)
  nothing : ¬ clean → read (text ++ rest) = none

def expect (text cs : List Char) : Option (List Char) :=
  if text.isPrefixOf cs then some (cs.drop text.length) else none

/-- The pieces up to where they stop. -/
def many {α : Type} (stop : List Char → Bool) (read : List Char → Option (α × List Char)) :
    ℕ → List Char → Option (List α × List Char)
  | 0, _ => none
  | fuel + 1, cs =>
    if stop cs then some ([], cs)
    else do
      let (a, cs) ← read cs
      let (as, cs) ← many stop read fuel cs
      some (a :: as, cs)

/-- What is left of a string after its opening quote, or after a backslash in
it. -/
def basic : Bool → List Char → Option (List Char × List Char)
  | _, [] => none
  | true, c :: rest =>
    if c = '\\' || c = '"' then (basic false rest).map fun p => (c :: p.1, p.2) else none
  | false, c :: rest =>
    if c = '"' then some ([], rest)
    else if c = '\\' then basic true rest
    else if isControl c then none
    else (basic false rest).map fun p => (c :: p.1, p.2)

def quoted : List Char → Option (String × List Char)
  | [] => none
  | c :: rest =>
    if c = '"' then (basic false rest).map fun p => (String.ofList p.1, p.2) else none

def key (cs : List Char) : Option (String × List Char) :=
  if cs.head? = some '"' then quoted cs
  else
    let p := cs.span isBare
    if p.1.isEmpty then none else some (String.ofList p.1, p.2)

def dotted (cs : List Char) : Option (String × List Char) := (expect ['.'] cs).bind key

def path (cs : List Char) : Option (List String × List Char) := do
  let (k, cs) ← key cs
  let (ks, cs) ← many (·.head? ≠ some '.') dotted (cs.length + 1) cs
  some (k :: ks, cs)

def listed (cs : List Char) : Option (String × List Char) := (expect [',', ' '] cs).bind quoted

def items (cs : List Char) : Option (List String × List Char) :=
  if cs.head? = some ']' then some ([], cs)
  else do
    let (s, cs) ← quoted cs
    let (ss, cs) ← many (·.head? ≠ some ',') listed (cs.length + 1) cs
    some (s :: ss, cs)

def digits (cs : List Char) : Option (ℕ × List Char) :=
  let p := cs.span Char.isDigit
  if p.1.isEmpty then none else some (Nat.ofDigitChars 10 p.1 0, p.2)

def scalar (cs : List Char) : Option (Scalar × List Char) :=
  if cs.head? = some '"' then (quoted cs).map fun p => (.string p.1, p.2)
  else if cs.head? = some '[' then do
    let (ss, cs) ← items cs.tail
    let cs ← expect [']'] cs
    some (.strings ss, cs)
  else (digits cs).bind fun p => if p.1 < 2 ^ 63 then some (.integer p.1, p.2) else none

def assignment (cs : List Char) : Option (Assignment × List Char) := do
  let (path, cs) ← path cs
  let cs ← expect [' ', '=', ' '] cs
  let (scalar, cs) ← scalar cs
  let cs ← expect ['\n'] cs
  some (⟨path, scalar⟩, cs)

def section' (cs : List Char) : Option (Section × List Char) := do
  let cs ← expect ['['] cs
  let (header, cs) ← path cs
  let cs ← expect [']', '\n'] cs
  let (body, cs) ← many (fun cs => cs.isEmpty || cs.head? = some '\n') assignment (cs.length + 1) cs
  some (⟨header, body⟩, cs)

def spaced (cs : List Char) : Option (Section × List Char) := (expect ['\n'] cs).bind section'

def doc (cs : List Char) : Option (Doc × List Char) :=
  if cs.isEmpty then some ([], cs)
  else do
    let (s, cs) ← section' cs
    let (ss, cs) ← many List.isEmpty spaced (cs.length + 1) cs
    some (s :: ss, cs)

def read (text : String) : Except String Table :=
  match doc text.toList with
  | some (doc, []) => .ok doc.tree
  | _ => .error "expected a document"

section Pieces

theorem expect_append (text rest : List Char) : expect text (text ++ rest) = some rest := by
  unfold expect
  rw [if_pos (by simp), List.drop_left]

/-- Pieces that are taken one by one are taken together. -/
theorem takes_many {α : Type} {stop : List Char → Bool} {read : List Char → Option (α × List Char)}
    {text : α → List Char} {clean : α → Prop} (follows : List Char → Prop) {as : List α}
    {rest : List Char} (hstop : stop rest = true) (hrest : follows rest)
    (hfollows : ∀ a ∈ as, ∀ rest, follows (text a ++ rest))
    (hgo : ∀ a ∈ as, ∀ rest, stop (text a ++ rest) = false)
    (hread : ∀ a ∈ as, ∀ rest, follows rest → Takes read (text a) a (clean a) rest) {fuel : ℕ}
    (hfuel : as.length < fuel) :
    Takes (many stop read fuel) (as.flatMap text) as (∀ a ∈ as, clean a) rest := by
  induction as generalizing fuel with
  | nil =>
    obtain ⟨fuel, rfl⟩ := Nat.exists_eq_succ_of_ne_zero (Nat.ne_of_gt hfuel)
    constructor
    · intro hclean
      simp [many, hstop]
    · intro hdirty
      exact absurd (fun a ha => (by cases ha)) hdirty
  | cons a as ih =>
    obtain ⟨fuel, rfl⟩ := Nat.exists_eq_succ_of_ne_zero (Nat.ne_of_gt (Nat.zero_lt_of_lt hfuel))
    have hnext : follows (as.flatMap text ++ rest) := by
      cases as with
      | nil => exact hrest
      | cons b as =>
        rw [List.flatMap_cons, List.append_assoc]
        exact hfollows b (List.mem_cons_of_mem _ List.mem_cons_self) _
    have hfirst := hread a List.mem_cons_self _ hnext
    have hothers := ih (fun b hb => hfollows b (List.mem_cons_of_mem _ hb))
      (fun b hb => hgo b (List.mem_cons_of_mem _ hb))
      (fun b hb => hread b (List.mem_cons_of_mem _ hb)) (Nat.lt_of_succ_lt_succ hfuel)
    have hmany : many stop read (fuel + 1) ((a :: as).flatMap text ++ rest) =
        (read (text a ++ (as.flatMap text ++ rest))).bind fun p =>
          (many stop read fuel p.2).bind fun q => some (p.1 :: q.1, q.2) := by
      rw [List.flatMap_cons, List.append_assoc, many, if_neg]
      · rfl
      · rw [hgo a List.mem_cons_self]
        exact Bool.false_ne_true
    constructor
    · intro hclean
      rw [hmany, hfirst.whole (hclean a List.mem_cons_self), Option.bind_some,
        hothers.whole fun b hb => hclean b (List.mem_cons_of_mem _ hb)]
      rfl
    · intro hdirty
      rw [hmany]
      by_cases ha : clean a
      · rw [hfirst.whole ha, Option.bind_some, hothers.nothing]
        · rfl
        · intro hall
          apply hdirty
          intro b hb
          rcases List.mem_cons.mp hb with rfl | hb
          · exact ha
          · exact hall b hb
      · rw [hfirst.nothing ha]
        rfl

theorem length_flatMap_le {α : Type} {text : α → List Char} {as : List α}
    (h : ∀ a ∈ as, text a ≠ []) : as.length ≤ (as.flatMap text).length := by
  induction as with
  | nil => simp
  | cons a as ih =>
    have hne := List.length_pos_of_ne_nil (h a List.mem_cons_self)
    have hothers := ih fun b hb => h b (List.mem_cons_of_mem _ hb)
    rw [List.flatMap_cons, List.length_append, List.length_cons]
    omega

theorem basic_escapeChar (c : Char) (rest : List Char) :
    basic false (escapeChar c ++ rest) =
      if isControl c then none else (basic false rest).map fun p => (c :: p.1, p.2) := by
  unfold escapeChar
  by_cases hslash : c = '\\'
  · subst hslash
    simp [basic, isControl]
  · by_cases hquote : c = '"'
    · subst hquote
      simp [basic, isControl]
    · simp [basic, hslash, hquote]

theorem basic_escaped (s rest : List Char) :
    Takes (basic false) (s.flatMap escapeChar ++ ['"']) s (∀ c ∈ s, isControl c = false) rest := by
  induction s with
  | nil =>
    constructor
    · intro hclean
      rfl
    · intro hdirty
      exact absurd (fun c hc => (by cases hc)) hdirty
  | cons c s ih =>
    have hread : basic false ((c :: s).flatMap escapeChar ++ ['"'] ++ rest) =
        if isControl c then none
        else (basic false (s.flatMap escapeChar ++ ['"'] ++ rest)).map fun p =>
          (c :: p.1, p.2) := by
      rw [List.flatMap_cons, List.append_assoc, List.append_assoc, basic_escapeChar,
        List.append_assoc]
    constructor
    · intro hclean
      rw [hread, hclean c List.mem_cons_self,
        ih.whole fun d hd => hclean d (List.mem_cons_of_mem _ hd)]
      rfl
    · intro hdirty
      rw [hread]
      by_cases hc : isControl c = true
      · rw [if_pos hc]
      · rw [if_neg hc, ih.nothing]
        · rfl
        · intro hall
          apply hdirty
          intro d hd
          rcases List.mem_cons.mp hd with rfl | hd
          · simpa using hc
          · exact hall d hd

theorem quoted_basicText (s : String) (rest : List Char) :
    Takes quoted (basicText s) s (CleanString s) rest := by
  have hbasic := basic_escaped s.toList rest
  have hread : quoted (basicText s ++ rest) =
      (basic false (s.toList.flatMap escapeChar ++ ['"'] ++ rest)).map fun p =>
        (String.ofList p.1, p.2) := rfl
  constructor
  · intro hclean
    rw [hread, hbasic.whole hclean, Option.map_some, String.ofList_toList]
  · intro hdirty
    rw [hread, hbasic.nothing hdirty]
    rfl

/-- Nothing that would be a part of a bare key comes first. -/
def Ends (rest : List Char) : Prop := ∀ c ∈ rest.head?, isBare c = false

theorem not_isControl_of_isBare {c : Char} (h : isBare c = true) : isControl c = false := by
  by_contra hcontrol
  rw [Bool.not_eq_false] at hcontrol
  unfold isControl at hcontrol
  have hsmall : c.toNat < 32 ∨ c.toNat = 127 := by
    rcases Bool.or_eq_true_iff.mp hcontrol with hlow | hdel
    · exact Or.inl (of_decide_eq_true (Bool.and_eq_true_iff.mp hlow).1)
    · exact Or.inr (of_decide_eq_true hdel)
  have hrange : 45 ≤ c.toNat ∧ c.toNat ≤ 122 := by
    simp only [isBare, Bool.or_eq_true, Bool.and_eq_true, decide_eq_true_eq, beq_iff_eq] at h
    rcases h with (((⟨hlo, hhi⟩ | ⟨hlo, hhi⟩) | ⟨hlo, hhi⟩) | rfl) | rfl
    · have h1 := UInt32.le_iff_toNat_le.mp hlo
      have h2 := UInt32.le_iff_toNat_le.mp hhi
      simp only [Char.toNat]
      simp at h1 h2
      omega
    · have h1 := UInt32.le_iff_toNat_le.mp hlo
      have h2 := UInt32.le_iff_toNat_le.mp hhi
      simp only [Char.toNat]
      simp at h1 h2
      omega
    · have h1 := UInt32.le_iff_toNat_le.mp hlo
      have h2 := UInt32.le_iff_toNat_le.mp hhi
      simp only [Char.toNat]
      simp at h1 h2
      omega
    · decide
    · decide
  omega

theorem span_all {p : Char → Bool} {cs rest : List Char} (hcs : ∀ c ∈ cs, p c = true)
    (hrest : ∀ c ∈ rest.head?, p c = false) : (cs ++ rest).span p = (cs, rest) := by
  rw [List.span_eq_takeWhile_dropWhile, List.takeWhile_append_of_pos hcs,
    List.dropWhile_append_of_pos hcs]
  cases rest with
  | nil => simp
  | cons c rest => simp [hrest c rfl]

theorem key_keyText (k : String) {rest : List Char} (hrest : Ends rest) :
    Takes key (keyText k) k (CleanString k) rest := by
  unfold keyText
  by_cases hbare : (!k.toList.isEmpty && k.toList.all isBare) = true
  · rw [if_pos hbare]
    obtain ⟨hne, hall⟩ := Bool.and_eq_true_iff.mp hbare
    have hchars : ∀ c ∈ k.toList, isBare c = true := List.all_eq_true.mp hall
    have hread : key (k.toList ++ rest) = some (k, rest) := by
      have hquote : (k.toList ++ rest).head? ≠ some '"' := by
        cases hk : k.toList with
        | nil => simp [hk] at hne
        | cons c cs =>
          intro hhead
          have hc := hchars c (by rw [hk]; exact List.mem_cons_self)
          rw [List.cons_append, List.head?_cons] at hhead
          rw [Option.some.inj hhead] at hc
          revert hc
          decide
      unfold key
      rw [if_neg hquote, span_all hchars hrest]
      simp only [String.ofList_toList]
      rw [if_neg (by simpa using hne)]
    constructor
    · exact fun _ => hread
    · intro hdirty
      exact absurd (fun c hc => not_isControl_of_isBare (hchars c hc)) hdirty
  · rw [if_neg hbare]
    have hquoted := quoted_basicText k rest
    have hread : key (basicText k ++ rest) = quoted (basicText k ++ rest) := if_pos rfl
    exact ⟨fun h => hread.trans (hquoted.whole h), fun h => hread.trans (hquoted.nothing h)⟩

theorem keyText_ne_nil (k : String) : keyText k ≠ [] := by
  unfold keyText
  split
  · rename_i h
    intro hnil
    rw [hnil] at h
    cases h
  · intro hnil
    cases hnil

/-- A piece that follows some text of its own. -/
theorem takes_after {α : Type} {read : List Char → Option (α × List Char)} {text mark : List Char}
    {a : α} {clean : Prop} {rest : List Char} (h : Takes read text a clean rest) :
    Takes (fun cs => (expect mark cs).bind read) (mark ++ text) a clean rest := by
  have hread : (expect mark (mark ++ text ++ rest)).bind read = read (text ++ rest) := by
    rw [List.append_assoc, expect_append, Option.bind_some]
  exact ⟨fun hc => hread.trans (h.whole hc), fun hc => hread.trans (h.nothing hc)⟩

/-- One piece, and more of them after it. -/
theorem takes_first {α : Type} {first more : List Char → Option (α × List Char)}
    {stop : List Char → Bool} {text text' : α → List Char} {clean : α → Prop} {a : α} {as : List α}
    {rest : List Char}
    (hfirst : Takes first (text a) a (clean a) (as.flatMap text' ++ rest))
    (hne : ∀ b ∈ as, text' b ≠ [])
    (hmore : ∀ fuel, as.length < fuel →
      Takes (many stop more fuel) (as.flatMap text') as (∀ b ∈ as, clean b) rest) :
    Takes (fun cs => do
      let (a, cs) ← first cs
      let (as, cs) ← many stop more (cs.length + 1) cs
      some (a :: as, cs)) (text a ++ as.flatMap text') (a :: as) (∀ b ∈ a :: as, clean b) rest := by
  have hlength := length_flatMap_le hne
  have hothers := hmore ((as.flatMap text' ++ rest).length + 1) (by
    rw [List.length_append]
    omega)
  constructor
  · intro hclean
    simp only [List.append_assoc]
    rw [hfirst.whole (hclean a List.mem_cons_self)]
    simp only [Option.bind_eq_bind, Option.bind_some]
    rw [hothers.whole fun b hb => hclean b (List.mem_cons_of_mem _ hb)]
    rfl
  · intro hdirty
    simp only [List.append_assoc]
    by_cases ha : clean a
    · rw [hfirst.whole ha]
      simp only [Option.bind_eq_bind, Option.bind_some]
      rw [hothers.nothing]
      · rfl
      · intro hall
        apply hdirty
        intro b hb
        rcases List.mem_cons.mp hb with rfl | hb
        · exact ha
        · exact hall b hb
    · rw [hfirst.nothing ha]
      rfl

theorem path_pathText {path : List String} (hne : path ≠ []) {rest : List Char} (hrest : Ends rest)
    (hdot : rest.head? ≠ some '.') :
    Takes Reader.path (pathText path) path (∀ k ∈ path, CleanString k) rest := by
  cases path with
  | nil => exact absurd rfl hne
  | cons k path =>
    have hnext : Ends (path.flatMap (fun a => '.' :: keyText a) ++ rest) := by
      cases path with
      | nil => exact hrest
      | cons a path => exact fun c hc => by cases hc; decide
    apply takes_first (key_keyText k hnext) (fun b _ h => (by cases h))
    intro fuel hfuel
    apply takes_many Ends _ hrest _ _ _ hfuel
    · simpa using hdot
    · exact fun a _ rest c hc => by cases hc; decide
    · exact fun a _ rest => rfl
    · exact fun a _ rest hrest => takes_after (key_keyText a hrest)

theorem items_itemsText (ss : List String) (rest : List Char) :
    Takes items (itemsText ss) ss (∀ s ∈ ss, CleanString s) (']' :: rest) := by
  cases ss with
  | nil =>
    constructor
    · exact fun _ => rfl
    · intro hdirty
      exact absurd (fun s hs => (by cases hs)) hdirty
  | cons s ss =>
    have htakes := @takes_first String quoted listed (·.head? ≠ some ',') basicText
      (fun a => ',' :: ' ' :: basicText a) CleanString s ss (']' :: rest) (quoted_basicText s _)
      (fun b _ h => (by cases h)) (by
        intro fuel hfuel
        apply takes_many (fun _ => True) _ trivial _ _ _ hfuel
        · rfl
        · exact fun _ _ _ => trivial
        · exact fun a _ rest => rfl
        · exact fun a _ rest _ => takes_after (quoted_basicText a rest))
    exact ⟨htakes.whole, htakes.nothing⟩

theorem digits_toDigits (n : ℕ) (rest : List Char) :
    digits (Nat.toDigits 10 n ++ '\n' :: rest) = some (n, '\n' :: rest) := by
  have hdigits : ∀ c ∈ Nat.toDigits 10 n, c.isDigit = true :=
    fun c hc => Nat.isDigit_of_mem_toDigits (by decide) (by decide) hc
  unfold digits
  rw [span_all hdigits (by simp [Char.isDigit])]
  simp only [Nat.ofDigitChars_ten_toDigits]
  rw [if_neg (by simp [Nat.toDigits_ne_nil])]

theorem scalar_text (self : Scalar) (rest : List Char) :
    Takes scalar self.text self self.Clean ('\n' :: rest) := by
  cases self with
  | string s =>
    have hquoted := quoted_basicText s ('\n' :: rest)
    have hread : scalar (basicText s ++ '\n' :: rest) =
        (quoted (basicText s ++ '\n' :: rest)).map fun p => (.string p.1, p.2) := if_pos rfl
    constructor
    · intro hclean
      exact hread.trans (by rw [hquoted.whole hclean]; rfl)
    · intro hdirty
      exact hread.trans (by rw [hquoted.nothing hdirty]; rfl)
  | strings ss =>
    have hitems := items_itemsText ss ('\n' :: rest)
    have hread : scalar ((Scalar.strings ss).text ++ '\n' :: rest) =
        (items (itemsText ss ++ ']' :: '\n' :: rest)).bind fun p =>
          (expect [']'] p.2).bind fun cs => some (.strings p.1, cs) := by
      unfold scalar Scalar.text
      rw [if_neg (by simp), if_pos (by rfl), List.append_assoc]
      rfl
    constructor
    · intro hclean
      rw [hread, hitems.whole hclean]
      rfl
    · intro hdirty
      rw [hread, hitems.nothing hdirty]
      rfl
  | integer n =>
    have hhead : ∀ c, (Nat.toDigits 10 n ++ '\n' :: rest).head? = some c → c.isDigit = true := by
      intro c hc
      cases htext : Nat.toDigits 10 n with
      | nil => exact absurd htext Nat.toDigits_ne_nil
      | cons d ds =>
        rw [htext] at hc
        cases hc
        apply Nat.isDigit_of_mem_toDigits (b := 10) (n := n) (by decide) (by decide)
        rw [htext]
        exact List.mem_cons_self
    have hread : scalar (Nat.toDigits 10 n ++ '\n' :: rest) =
        if n < 2 ^ 63 then some (.integer n, '\n' :: rest) else none := by
      unfold scalar
      rw [if_neg fun h => absurd (hhead _ h) (by decide),
        if_neg fun h => absurd (hhead _ h) (by decide), digits_toDigits]
      rfl
    constructor
    · intro hclean
      exact hread.trans (if_pos hclean)
    · intro hdirty
      exact hread.trans (if_neg hdirty)

theorem assignment_text {self : Assignment} (hne : self.path ≠ []) (rest : List Char) :
    Takes assignment self.text self self.Clean rest := by
  obtain ⟨names, value⟩ := self
  have hpath := @path_pathText names hne (' ' :: '=' :: ' ' :: (value.text ++ '\n' :: rest))
    (fun c hc => by cases hc; decide) (by simp)
  have hscalar := scalar_text value rest
  have hread : assignment (Assignment.text ⟨names, value⟩ ++ rest) =
      (Reader.path (pathText names ++ ' ' :: '=' :: ' ' :: (value.text ++ '\n' :: rest))).bind
        fun p => (expect [' ', '=', ' '] p.2).bind fun cs => (scalar cs).bind fun q =>
          (expect ['\n'] q.2).bind fun cs => some (⟨p.1, q.1⟩, cs) := by
    unfold Assignment.text
    rw [List.append_assoc, List.append_assoc]
    rfl
  have hafter : expect [' ', '=', ' '] (' ' :: '=' :: ' ' :: (value.text ++ '\n' :: rest)) =
      some (value.text ++ '\n' :: rest) := expect_append [' ', '=', ' '] _
  constructor
  · intro hclean
    rw [hread, hpath.whole hclean.1, Option.bind_some, hafter, Option.bind_some,
      hscalar.whole hclean.2]
    rfl
  · intro hdirty
    rw [hread]
    by_cases hnames : ∀ k ∈ names, CleanString k
    · rw [hpath.whole hnames, Option.bind_some, hafter, Option.bind_some,
        hscalar.nothing fun h => hdirty ⟨hnames, h⟩]
      rfl
    · rw [hpath.nothing hnames]
      rfl

theorem pathText_head {path : List String} (hne : path ≠ []) (rest : List Char) :
    ∃ c cs, pathText path ++ rest = c :: cs ∧ c ≠ '\n' := by
  cases path with
  | nil => exact absurd rfl hne
  | cons k path =>
    cases hk : keyText k with
    | nil => exact absurd hk (keyText_ne_nil k)
    | cons c cs =>
      refine ⟨c, cs ++ (path.flatMap (fun a => '.' :: keyText a) ++ rest), ?_, ?_⟩
      · simp [pathText, hk]
      · rintro rfl
        unfold keyText at hk
        split at hk
        · rename_i hbare
          rw [hk] at hbare
          revert hbare
          simp [show isBare '\n' = false from rfl]
        · cases hk

theorem section_text {self : Section} (hheader : self.header ≠ [])
    (hbody : ∀ a ∈ self.body, a.path ≠ []) {rest : List Char}
    (hrest : rest = [] ∨ rest.head? = some '\n') :
    Takes section' self.text self self.Clean rest := by
  obtain ⟨header, body⟩ := self
  have hpath := @path_pathText header hheader
    (']' :: '\n' :: (body.flatMap Assignment.text ++ rest)) (fun c hc => by cases hc; decide)
    (by simp)
  have hmany := @takes_many Assignment (fun cs => cs.isEmpty || cs.head? = some '\n') assignment
    Assignment.text Assignment.Clean (fun _ => True) body rest
    (by rcases hrest with rfl | h <;> simp [*]) trivial (fun _ _ _ => trivial)
    (by
      intro a ha rest
      obtain ⟨c, cs, htext, hc⟩ := pathText_head (hbody a ha)
        (' ' :: '=' :: ' ' :: a.scalar.text ++ ['\n'] ++ rest)
      have htext : a.text ++ rest = c :: cs := by
        rw [← htext]
        simp [Assignment.text]
      simp [htext, hc])
    (fun a ha rest _ => assignment_text (hbody a ha) rest)
    ((body.flatMap Assignment.text ++ rest).length + 1)
    (by
      have hlength := @length_flatMap_le Assignment Assignment.text body
        (fun a _ => by simp [Assignment.text])
      rw [List.length_append]
      omega)
  have hread : section' (Section.text ⟨header, body⟩ ++ rest) =
      (Reader.path (pathText header ++ ']' :: '\n' :: (body.flatMap Assignment.text ++ rest))).bind
        fun p => (expect [']', '\n'] p.2).bind fun cs =>
          (many (fun cs => cs.isEmpty || cs.head? = some '\n') assignment (cs.length + 1) cs).bind
            fun q => some (⟨p.1, q.1⟩, q.2) := by
    unfold Section.text
    rw [List.append_assoc]
    rfl
  have hafter : expect [']', '\n'] (']' :: '\n' :: (body.flatMap Assignment.text ++ rest)) =
      some (body.flatMap Assignment.text ++ rest) := expect_append [']', '\n'] _
  constructor
  · intro hclean
    rw [hread, hpath.whole hclean.1, Option.bind_some, hafter, Option.bind_some,
      hmany.whole hclean.2]
    rfl
  · intro hdirty
    rw [hread]
    by_cases hnames : ∀ k ∈ header, CleanString k
    · rw [hpath.whole hnames, Option.bind_some, hafter, Option.bind_some,
        hmany.nothing fun h => hdirty ⟨hnames, h⟩]
      rfl
    · rw [hpath.nothing hnames]
      rfl

theorem doc_text {doc : Doc} (hheader : ∀ s ∈ doc, s.header ≠ [])
    (hbody : ∀ s ∈ doc, ∀ a ∈ s.body, a.path ≠ []) :
    Takes Reader.doc doc.text doc doc.Clean [] := by
  cases doc with
  | nil =>
    constructor
    · exact fun _ => rfl
    · intro hdirty
      exact absurd (fun s hs => (by cases hs)) hdirty
  | cons s doc =>
    have hline : doc.flatMap (fun s : Section => '\n' :: s.text) ++ [] = [] ∨
        (doc.flatMap (fun s : Section => '\n' :: s.text) ++ []).head? = some '\n' := by
      cases doc with
      | nil => exact Or.inl rfl
      | cons s doc => exact Or.inr rfl
    have htakes := @takes_first Section section' spaced List.isEmpty Section.text
      (fun s => '\n' :: s.text) Section.Clean s doc []
      (section_text (hheader s List.mem_cons_self) (hbody s List.mem_cons_self) hline)
      (fun b _ h => (by cases h)) (by
        intro fuel hfuel
        apply takes_many (fun rest => rest = [] ∨ rest.head? = some '\n') rfl (Or.inl rfl) _ _ _
          hfuel
        · exact fun _ _ _ => Or.inr rfl
        · exact fun _ _ _ => rfl
        · intro b hb rest hrest
          exact takes_after (section_text (hheader b (List.mem_cons_of_mem _ hb))
            (hbody b (List.mem_cons_of_mem _ hb)) hrest))
    have hread : Reader.doc (Doc.text (s :: doc) ++ []) =
        (section' (s.text ++ (doc.flatMap (fun s => '\n' :: s.text)) ++ [])).bind fun p =>
          (many List.isEmpty spaced (p.2.length + 1) p.2).bind fun q =>
            some (p.1 :: q.1, q.2) := rfl
    exact ⟨fun h => hread.trans (htakes.whole h), fun h => hread.trans (htakes.nothing h)⟩

end Pieces

/-- The reader does what TOML 1.0 asks for. -/
theorem read_implements : Implements read := by
  have htakes : ∀ doc : Doc, doc.WellFormed → Takes Reader.doc doc.text doc doc.Clean [] := by
    intro doc h
    obtain ⟨n, hn, hlength⟩ := h.headers
    apply doc_text _ h.named
    intro s hs hnil
    have hzero := hlength s hs
    rw [hnil] at hzero
    exact absurd hzero (by simpa using Nat.ne_of_lt hn)
  constructor
  · intro doc h hclean
    have hdoc := (htakes doc h).whole hclean
    rw [List.append_nil] at hdoc
    unfold read
    rw [String.toList_ofList, hdoc]
  · intro doc h hdirty
    have hdoc := (htakes doc h).nothing hdirty
    rw [List.append_nil] at hdoc
    unfold read
    rw [String.toList_ofList, hdoc]
    exact ⟨_, rfl⟩

end Reader

end Toml
