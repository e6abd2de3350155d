import CacheWarden.Lib.KeyMap
import Mathlib.Tactic.Ring

/-!
# Records as JSON

A record is written as the members of an object, and read from an object by the names of its
members, whatever else the object has. A codec carries the proof that it reads what it writes,
so one that is put together of codecs does. This is what serde documents of its attributes for
tags, defaults and members left out; a record that is written as an array is not read here.
-/

set_option autoImplicit false

namespace JsonRecord

inductive Json where
  | null
  | bool (b : Bool)
  | int (n : ℤ)
  | decimal (text : String)
  | str (s : String)
  | arr (items : List Json)
  | obj (members : List (String × Json))

abbrev Members := List (String × Json)

inductive Found where
  | absent
  | once (value : Json)
  | many

/-- A name that comes twice is neither of the two. -/
def find (name : String) : Members → Found
  | [] => .absent
  | member :: rest =>
    if member.1 = name then
      match find name rest with
      | .absent => .once member.2
      | _ => .many
    else find name rest

section Find

variable {name : String} {ms ms' : Members}

theorem find_absent (h : ∀ m ∈ ms, m.1 ≠ name) : find name ms = .absent := by
  induction ms with
  | nil => rfl
  | cons m ms ih =>
    rw [find, if_neg (h m List.mem_cons_self),
      ih fun m' hm' => h m' (List.mem_cons_of_mem _ hm')]

theorem mem_of_find (h : find name ms ≠ .absent) : ∃ m ∈ ms, m.1 = name := by
  by_contra hnone
  exact h (find_absent fun m hm hname => hnone ⟨m, hm, hname⟩)

theorem find_append_right (h : ∀ m ∈ ms', m.1 ≠ name) : find name (ms ++ ms') = find name ms := by
  induction ms with
  | nil => exact find_absent h
  | cons m ms ih => rw [List.cons_append, find, find, ih]

theorem find_append_left (h : ∀ m ∈ ms, m.1 ≠ name) : find name (ms ++ ms') = find name ms' := by
  induction ms with
  | nil => rfl
  | cons m ms ih =>
    rw [List.cons_append, find, if_neg (h m List.mem_cons_self),
      ih fun m' hm' => h m' (List.mem_cons_of_mem _ hm')]

theorem find_cons_self (value : Json) (h : ∀ m ∈ ms, m.1 ≠ name) :
    find name ((name, value) :: ms) = .once value := by
  rw [find, if_pos rfl, find_absent h]

/-- What is found is what the members of the name come to. -/
def foundIn : List Json → Found
  | [] => .absent
  | [value] => .once value
  | _ => .many

def valuesOf (name : String) (ms : Members) : List Json :=
  (ms.filter fun m => m.1 = name).map Prod.snd

theorem find_eq_foundIn (name : String) (ms : Members) :
    find name ms = foundIn (valuesOf name ms) := by
  induction ms with
  | nil => rfl
  | cons m ms ih =>
    by_cases h : m.1 = name
    · have hvalues : valuesOf name (m :: ms) = m.2 :: valuesOf name ms := by
        simp [valuesOf, h]
      rw [find, if_pos h, ih, hvalues]
      match valuesOf name ms with
      | [] => rfl
      | [_] => rfl
      | _ :: _ :: _ => rfl
    · have hvalues : valuesOf name (m :: ms) = valuesOf name ms := by
        simp [valuesOf, h]
      rw [find, if_neg h, ih, hvalues]

/-- The order of the members does not matter. -/
theorem find_perm (name : String) {ms ms' : Members} (h : ms.Perm ms') :
    find name ms = find name ms' := by
  have hvalues : (valuesOf name ms).Perm (valuesOf name ms') := (h.filter _).map _
  rw [find_eq_foundIn, find_eq_foundIn]
  match hleft : valuesOf name ms, hright : valuesOf name ms' with
  | [], right =>
    rw [hleft, hright] at hvalues
    rw [hvalues.nil_eq]
  | [value], right =>
    rw [hleft, hright] at hvalues
    rw [List.singleton_perm.mp hvalues]
  | a :: b :: left, [] =>
    rw [hleft, hright] at hvalues
    cases hvalues.eq_nil
  | a :: b :: left, [value] =>
    rw [hleft, hright] at hvalues
    cases List.perm_singleton.mp hvalues
  | a :: b :: left, c :: d :: right => rfl

end Find

/-- A value of its own. -/
structure Codec (α : Type) where
  write : α → Json
  read : Json → Option α
  read_write : ∀ a, read (write a) = some a

/-- Some of the members of an object. It writes only names of its own, looks at no others, and
reads nothing where the names of none of the lists in `needs` are all there. -/
structure Fields (α : Type) where
  names : List String
  needs : List (List String)
  write : α → Members
  read : Members → Option α
  own : ∀ a, ∀ m ∈ write a, m.1 ∈ names
  looks : ∀ ms ms', (∀ n ∈ names, find n ms = find n ms') → read ms = read ms'
  needed : ∀ ms a, read ms = some a → ∃ ns ∈ needs, ∀ n ∈ ns, find n ms ≠ .absent
  read_write : ∀ a, read (write a) = some a

section Values

theorem read_write_bool (b : Bool) : (some b : Option Bool) = some b := rfl

def bool : Codec Bool where
  write := .bool
  read
    | .bool b => some b
    | _ => none
  read_write := read_write_bool

def str : Codec String where
  write := .str
  read
    | .str s => some s
    | _ => none
  read_write := fun _ => rfl

/-- An integer that is in the range of a type. -/
def readInt (bound : ℕ) : Json → Option ℕ
  | .int n => if 0 ≤ n ∧ n.toNat < bound then some n.toNat else none
  | _ => none

theorem readInt_ofNat {bound n : ℕ} (h : n < bound) : readInt bound (.int n) = some n := by
  simp [readInt, h]

theorem read_write_u32 (n : UInt32) :
    (readInt (2 ^ 32) (.int n.toNat)).map UInt32.ofNat = some n := by
  rw [readInt_ofNat n.toNat_lt, Option.map_some, UInt32.ofNat_toNat]

def u32 : Codec UInt32 where
  write n := .int n.toNat
  read j := (readInt (2 ^ 32) j).map UInt32.ofNat
  read_write := read_write_u32

theorem read_write_u64 (n : UInt64) :
    (readInt (2 ^ 64) (.int n.toNat)).map UInt64.ofNat = some n := by
  rw [readInt_ofNat n.toNat_lt, Option.map_some, UInt64.ofNat_toNat]

def u64 : Codec UInt64 where
  write n := .int n.toNat
  read j := (readInt (2 ^ 64) j).map UInt64.ofNat
  read_write := read_write_u64

variable {α : Type}

/-- Constants that are written as their labels. -/
def oneOf (all : List α) (label : α → String)
    (h : ∀ a, all.find? (fun b => label b = label a) = some a) : Codec α where
  write a := .str (label a)
  read
    | .str s => all.find? fun b => label b = s
    | _ => none
  read_write := h

/-- `null` stands for nothing. -/
def nullable (c : Codec α) (h : ∀ a, c.write a ≠ .null) : Codec (Option α) where
  write
    | none => .null
    | some a => c.write a
  read
    | .null => some none
    | j => (c.read j).map some
  read_write
    | none => rfl
    | some a => by
      split
      · rename_i hnull
        exact absurd hnull (h a)
      · rw [c.read_write]
        rfl

theorem mapM_read_write (c : Codec α) (as : List α) :
    (as.map c.write).mapM c.read = some as := by
  induction as with
  | nil => rfl
  | cons a as ih => simp [c.read_write, ih]

def list (c : Codec α) : Codec (List α) where
  write as := .arr (as.map c.write)
  read
    | .arr items => items.mapM c.read
    | _ => none
  read_write := mapM_read_write c

/-- Of the members of one name the last counts. -/
def readMap (c : Codec α) (ms : Members) : Option (KeyMap α) :=
  (ms.mapM fun m => (c.read m.2).map fun a => (m.1, a)).map fun pairs =>
    pairs.foldl (fun m p => m.insert p.1 p.2) ∅

theorem readMap_toList (c : Codec α) (m : KeyMap α) :
    readMap c (m.toList.map fun p => (p.1, c.write p.2)) = some m := by
  have hpairs : ∀ pairs : List (String × α),
      ((pairs.map fun p => (p.1, c.write p.2)).mapM fun m => (c.read m.2).map fun a => (m.1, a)) =
        some pairs := by
    intro pairs
    induction pairs with
    | nil => rfl
    | cons p pairs ih => simp [c.read_write, ih]
  rw [readMap, hpairs, Option.map_some, KeyMap.foldl_insert_toList]

def map (c : Codec α) : Codec (KeyMap α) where
  write m := .obj (m.toList.map fun p => (p.1, c.write p.2))
  read
    | .obj ms => readMap c ms
    | _ => none
  read_write := readMap_toList c

end Values

theorem str_ne_null (s : String) : str.write s ≠ .null := fun h => by cases h

theorem bool_ne_null (b : Bool) : bool.write b ≠ .null := fun h => by cases h

theorem u64_ne_null (n : UInt64) : u64.write n ≠ .null := fun h => by cases h

theorem list_ne_null {α : Type} (c : Codec α) (as : List α) : (list c).write as ≠ .null :=
  fun h => by cases h

theorem oneOf_ne_null {α : Type} {all : List α} {label : α → String}
    (h : ∀ a, all.find? (fun b => label b = label a) = some a) (a : α) :
    (oneOf all label h).write a ≠ .null := fun hnull => by cases hnull

namespace Fields

variable {α β : Type}

/-- An object of its own. -/
def codec (f : Fields α) : Codec α where
  write a := .obj (f.write a)
  read
    | .obj ms => f.read ms
    | _ => none
  read_write := f.read_write

theorem codec_ne_null (f : Fields α) (a : α) : f.codec.write a ≠ .null := fun h => by cases h

/-- No member at all. -/
def none : Fields Unit where
  names := []
  needs := [[]]
  write _ := []
  read _ := some ()
  own := fun _ _ hm => absurd hm List.not_mem_nil
  looks := fun _ _ _ => rfl
  needed := fun _ _ _ => ⟨[], List.mem_singleton.mpr rfl, fun _ hn => absurd hn List.not_mem_nil⟩
  read_write := fun _ => rfl

/-- One member. It may be left out where its value is the one it has when it is absent. -/
def field (name : String) (c : Codec α) (skip : α → Bool) (absent : Option α)
    (h : ∀ a, skip a = true → absent = some a) : Fields α where
  names := [name]
  needs := if absent.isSome then [[]] else [[name]]
  write a := if skip a then [] else [(name, c.write a)]
  read ms :=
    match find name ms with
    | .absent => absent
    | .once value => c.read value
    | .many => Option.none
  own := by
    intro a m hm
    split at hm
    · exact absurd hm List.not_mem_nil
    · rw [List.mem_singleton.mp hm]
      exact List.mem_singleton.mpr rfl
  looks := by
    intro ms ms' hsame
    rw [hsame name (List.mem_singleton.mpr rfl)]
  needed := by
    intro ms a hread
    cases absent with
    | some d => exact ⟨[], by simp, fun n hn => absurd hn List.not_mem_nil⟩
    | none =>
      refine ⟨[name], by simp, fun n hn hnone => ?_⟩
      rw [List.mem_singleton.mp hn] at hnone
      rw [hnone] at hread
      cases hread
  read_write := by
    intro a
    by_cases hskip : skip a = true
    · rw [if_pos hskip]
      exact h a hskip
    · rw [if_neg hskip, find_cons_self _ fun m hm => absurd hm List.not_mem_nil]
      exact c.read_write a

theorem never_skipped (absent : Option α) (a : α) (h : (fun _ => false : α → Bool) a = true) :
    absent = some a := by
  cases h

/-- A member that is always there. -/
def required (name : String) (c : Codec α) : Fields α :=
  field name c (fun _ => false) Option.none (never_skipped Option.none)

/-- A member that is always written, and has a value of its own where it is absent. -/
def defaulted (name : String) (c : Codec α) (d : α) : Fields α :=
  field name c (fun _ => false) (some d) (never_skipped (some d))

theorem none_skipped (a : Option α) (h : a.isNone = true) : some Option.none = some a := by
  cases a with
  | none => rfl
  | some a => cases h

/-- A member that is there or not. -/
def optional (name : String) (c : Codec α) (h : ∀ a, c.write a ≠ .null) : Fields (Option α) :=
  field name (nullable c h) Option.isNone (some Option.none) none_skipped

/-- The members of one and of the other. -/
def and (f : Fields α) (g : Fields β) (h : ∀ n ∈ f.names, n ∉ g.names) : Fields (α × β) where
  names := f.names ++ g.names
  needs := f.needs.flatMap fun ns => g.needs.map fun ns' => ns ++ ns'
  write a := f.write a.1 ++ g.write a.2
  read ms := (f.read ms).bind fun a => (g.read ms).map fun b => (a, b)
  own := by
    intro a m hm
    rcases List.mem_append.mp hm with hm | hm
    · exact List.mem_append_left _ (f.own _ m hm)
    · exact List.mem_append_right _ (g.own _ m hm)
  looks := by
    intro ms ms' hsame
    rw [f.looks ms ms' fun n hn => hsame n (List.mem_append_left _ hn),
      g.looks ms ms' fun n hn => hsame n (List.mem_append_right _ hn)]
  needed := by
    intro ms a hread
    rw [Option.bind_eq_some_iff] at hread
    obtain ⟨b, hf, hread⟩ := hread
    rw [Option.map_eq_some_iff] at hread
    obtain ⟨b', hg, -⟩ := hread
    obtain ⟨ns, hns, hthere⟩ := f.needed ms b hf
    obtain ⟨ns', hns', hthere'⟩ := g.needed ms b' hg
    refine ⟨ns ++ ns', List.mem_flatMap.mpr ⟨ns, hns, List.mem_map.mpr ⟨ns', hns', rfl⟩⟩, ?_⟩
    intro n hn
    rcases List.mem_append.mp hn with hn | hn
    · exact hthere n hn
    · exact hthere' n hn
  read_write := by
    intro a
    have hf : f.read (f.write a.1 ++ g.write a.2) = some a.1 := by
      rw [← f.read_write a.1]
      apply f.looks
      intro n hn
      apply find_append_right
      intro m hm hname
      exact h n hn (hname ▸ g.own _ m hm)
    have hg : g.read (f.write a.1 ++ g.write a.2) = some a.2 := by
      rw [← g.read_write a.2]
      apply g.looks
      intro n hn
      apply find_append_left
      intro m hm hname
      exact h n (hname ▸ f.own _ m hm) hn
    rw [hf, hg]
    rfl

/-- The same members for another type. -/
def as (f : Fields α) (into : α → β) (parts : β → α) (h : ∀ b, into (parts b) = b) :
    Fields β where
  names := f.names
  needs := f.needs
  write b := f.write (parts b)
  read ms := (f.read ms).map into
  own := fun b => f.own (parts b)
  looks := fun ms ms' hsame => congrArg (Option.map into) (f.looks ms ms' hsame)
  needed := by
    intro ms b hread
    rw [Option.map_eq_some_iff] at hread
    obtain ⟨a, ha, -⟩ := hread
    exact f.needed ms a ha
  read_write := by
    intro b
    rw [f.read_write, Option.map_some, h]

end Fields

/-- Members in any order, among others of other names. -/
theorem Fields.read_among {α : Type} (f : Fields α) (a : α) {ms others : Members}
    (hperm : ms.Perm (f.write a ++ others)) (hothers : ∀ m ∈ others, m.1 ∉ f.names) :
    f.read ms = some a := by
  rw [← f.read_write a]
  apply f.looks
  intro n hn
  rw [find_perm n hperm]
  apply find_append_right
  intro m hm hname
  exact hothers m hm (hname ▸ hn)

/-- One of the alternatives of a type. -/
structure Variant (α : Type) where
  label : String
  names : List String
  needs : List (List String)
  write : α → Option Members
  read : Members → Option α
  own : ∀ a ms, write a = some ms → ∀ m ∈ ms, m.1 ∈ names
  looks : ∀ ms ms', (∀ n ∈ names, find n ms = find n ms') → read ms = read ms'
  needed : ∀ ms a, read ms = some a → ∃ ns ∈ needs, ∀ n ∈ ns, find n ms ≠ .absent
  read_write : ∀ a ms, write a = some ms → read ms = some a

def Fields.variant {α β : Type} (f : Fields β) (label : String) (into : β → α)
    (parts : α → Option β) (h : ∀ a b, parts a = some b → into b = a) : Variant α where
  label := label
  names := f.names
  needs := f.needs
  write a := (parts a).map f.write
  read ms := (f.read ms).map into
  own := by
    intro a ms hwrite
    rw [Option.map_eq_some_iff] at hwrite
    obtain ⟨b, -, hms⟩ := hwrite
    rw [← hms]
    exact f.own b
  looks := fun ms ms' hsame => congrArg (Option.map into) (f.looks ms ms' hsame)
  needed := by
    intro ms a hread
    rw [Option.map_eq_some_iff] at hread
    obtain ⟨b, hb, -⟩ := hread
    exact f.needed ms b hb
  read_write := by
    intro a ms hwrite
    rw [Option.map_eq_some_iff] at hwrite
    obtain ⟨b, hb, hms⟩ := hwrite
    rw [← hms, f.read_write, Option.map_some, h a b hb]

section Alternatives

variable {α : Type}

/-- Every value is of one of the alternatives. -/
def Covers (vs : List (Variant α)) : Prop := ∀ a, ∃ v ∈ vs, (v.write a).isSome = true

theorem covers_of_any {vs : List (Variant α)}
    (h : ∀ a, (vs.any fun v => (v.write a).isSome) = true) : Covers vs := by
  intro a
  exact List.any_eq_true.mp (h a)

def writeTagged (tag : String) (vs : List (Variant α)) (a : α) : Members :=
  (vs.findSome? fun v => (v.write a).map fun ms => (tag, Json.str v.label) :: ms).getD []

def readTagged (tag : String) (vs : List (Variant α)) (ms : Members) : Option α :=
  match find tag ms with
  | .once (.str label) => (vs.find? fun v => v.label = label).bind fun v => v.read ms
  | _ => none

theorem exists_written {vs : List (Variant α)} (hcovers : Covers vs) (tag : String) (a : α) :
    ∃ v ∈ vs, ∃ ms, v.write a = some ms ∧
      writeTagged tag vs a = (tag, Json.str v.label) :: ms := by
  obtain ⟨v, hv, hsome⟩ := hcovers a
  have hany : (vs.findSome? fun v => (v.write a).map fun ms =>
      (tag, Json.str v.label) :: ms).isSome = true := by
    rw [List.findSome?_isSome_iff]
    exact ⟨v, hv, by simpa using hsome⟩
  obtain ⟨out, hout⟩ := Option.isSome_iff_exists.mp hany
  obtain ⟨u, hu, hwritten⟩ := List.exists_of_findSome?_eq_some hout
  rw [Option.map_eq_some_iff] at hwritten
  obtain ⟨ms, hms, hout'⟩ := hwritten
  exact ⟨u, hu, ms, hms, by rw [writeTagged, hout, Option.getD_some, hout']⟩

theorem find_label {vs : List (Variant α)} (hlabels : (vs.map Variant.label).Nodup)
    {v : Variant α} (hv : v ∈ vs) : (vs.find? fun u => u.label = v.label) = some v := by
  induction vs with
  | nil => exact absurd hv List.not_mem_nil
  | cons u vs ih =>
    rw [List.map_cons, List.nodup_cons] at hlabels
    rcases List.mem_cons.mp hv with hv | hv
    · rw [hv]
      simp
    · have hne : u.label ≠ v.label := fun heq =>
        hlabels.1 (heq ▸ List.mem_map_of_mem hv)
      rw [List.find?_cons_of_neg (by simpa using hne), ih hlabels.2 hv]

theorem readTagged_writeTagged {tag : String} {vs : List (Variant α)} (hcovers : Covers vs)
    (hlabels : (vs.map Variant.label).Nodup) (htag : ∀ v ∈ vs, tag ∉ v.names) (a : α) :
    readTagged tag vs (writeTagged tag vs a) = some a := by
  obtain ⟨v, hv, ms, hms, hwritten⟩ := exists_written hcovers tag a
  have hother : ∀ m ∈ ms, m.1 ≠ tag := fun m hm hname =>
    htag v hv (hname ▸ v.own a ms hms m hm)
  have hsame : v.read ((tag, Json.str v.label) :: ms) = v.read ms := by
    apply v.looks
    intro n hn
    have hne : tag ≠ n := by
      rintro rfl
      exact htag v hv hn
    rw [find, if_neg hne]
  rw [hwritten, readTagged, find_cons_self _ hother]
  simp only [find_label hlabels hv, Option.bind_some, hsame, v.read_write a ms hms]

/-- An alternative is told by the label under the tag. -/
def tagged (tag : String) (vs : List (Variant α)) (hcovers : Covers vs)
    (hlabels : (vs.map Variant.label).Nodup) (htag : ∀ v ∈ vs, tag ∉ v.names) : Fields α where
  names := tag :: vs.flatMap Variant.names
  needs := [[tag]]
  write := writeTagged tag vs
  read := readTagged tag vs
  own := by
    intro a m hm
    obtain ⟨v, hv, ms, hms, hwritten⟩ := exists_written hcovers tag a
    rw [hwritten] at hm
    rcases List.mem_cons.mp hm with hm | hm
    · rw [hm]
      exact List.mem_cons_self
    · exact List.mem_cons_of_mem _ (List.mem_flatMap.mpr ⟨v, hv, v.own a ms hms m hm⟩)
  looks := by
    intro ms ms' hsame
    unfold readTagged
    rw [hsame tag List.mem_cons_self]
    split
    · rename_i label _
      cases hfind : vs.find? fun v => v.label = label with
      | none => rfl
      | some v =>
        apply v.looks
        intro n hn
        exact hsame n (List.mem_cons_of_mem _
          (List.mem_flatMap.mpr ⟨v, List.mem_of_find?_eq_some hfind, hn⟩))
    · rfl
  needed := by
    intro ms a hread
    refine ⟨[tag], List.mem_singleton.mpr rfl, fun n hn hnone => ?_⟩
    rw [List.mem_singleton.mp hn] at hnone
    rw [readTagged, hnone] at hread
    cases hread
  read_write := readTagged_writeTagged hcovers hlabels htag

/-- What one alternative writes lacks something that each of those before it needs. -/
def Distinct (vs : List (Variant α)) : Prop :=
  vs.Pairwise fun u v => ∀ ns ∈ u.needs, ∃ n ∈ ns, n ∉ v.names

instance (vs : List (Variant α)) : Decidable (Distinct vs) :=
  inferInstanceAs
    (Decidable (vs.Pairwise fun u v => ∀ ns ∈ u.needs, ∃ n ∈ ns, n ∉ v.names))

theorem findSome_read_write {vs : List (Variant α)} (hdistinct : Distinct vs) {a : α}
    {ms : Members} (h : vs.findSome? (fun v => v.write a) = some ms) :
    vs.findSome? (fun v => v.read ms) = some a := by
  induction vs with
  | nil => cases h
  | cons u vs ih =>
    rw [Distinct, List.pairwise_cons] at hdistinct
    cases hu : u.write a with
    | some out =>
      rw [List.findSome?_cons, hu] at h
      cases h
      rw [List.findSome?_cons, u.read_write a ms hu]
    | none =>
      rw [List.findSome?_cons, hu] at h
      have hnone : u.read ms = none := by
        cases hread : u.read ms with
        | none => rfl
        | some b =>
          obtain ⟨v, hv, hwrite⟩ := List.exists_of_findSome?_eq_some h
          obtain ⟨ns, hns, hthere⟩ := u.needed ms b hread
          obtain ⟨n, hn, hnot⟩ := hdistinct.1 v hv ns hns
          obtain ⟨m, hm, hname⟩ := mem_of_find (hthere n hn)
          exact absurd (hname ▸ v.own a ms hwrite m hm) hnot
      rw [List.findSome?_cons, hnone]
      exact ih hdistinct.2 h

theorem findSome_congr {β : Type} {vs : List (Variant α)} {f g : Variant α → Option β}
    (h : ∀ v ∈ vs, f v = g v) : vs.findSome? f = vs.findSome? g := by
  induction vs with
  | nil => rfl
  | cons v vs ih =>
    rw [List.findSome?_cons, List.findSome?_cons, h v List.mem_cons_self,
      ih fun u hu => h u (List.mem_cons_of_mem _ hu)]

/-- The first alternative that can be read. -/
def untagged (vs : List (Variant α)) (hcovers : Covers vs) (hdistinct : Distinct vs) :
    Fields α where
  names := vs.flatMap Variant.names
  needs := vs.flatMap Variant.needs
  write a := (vs.findSome? fun v => v.write a).getD []
  read ms := vs.findSome? fun v => v.read ms
  own := by
    intro a m hm
    cases hwrite : vs.findSome? fun v => v.write a with
    | none =>
      rw [hwrite] at hm
      exact absurd hm List.not_mem_nil
    | some ms =>
      rw [hwrite] at hm
      obtain ⟨v, hv, hms⟩ := List.exists_of_findSome?_eq_some hwrite
      exact List.mem_flatMap.mpr ⟨v, hv, v.own a ms hms m hm⟩
  looks := by
    intro ms ms' hsame
    apply findSome_congr
    intro v hv
    exact v.looks ms ms' fun n hn => hsame n (List.mem_flatMap.mpr ⟨v, hv, hn⟩)
  needed := by
    intro ms a hread
    obtain ⟨v, hv, hvread⟩ := List.exists_of_findSome?_eq_some hread
    obtain ⟨ns, hns, hthere⟩ := v.needed ms a hvread
    exact ⟨ns, List.mem_flatMap.mpr ⟨v, hv, hns⟩, hthere⟩
  read_write := by
    intro a
    obtain ⟨v, hv, hsome⟩ := hcovers a
    have hany : (vs.findSome? fun v => v.write a).isSome = true := by
      rw [List.findSome?_isSome_iff]
      exact ⟨v, hv, hsome⟩
    obtain ⟨ms, hms⟩ := Option.isSome_iff_exists.mp hany
    rw [hms, Option.getD_some]
    exact findSome_read_write hdistinct hms

end Alternatives

end JsonRecord
