import Mathlib.Data.List.Basic
import Mathlib.Data.List.Nodup
import Mathlib.Tactic.Ring

/-!
# TOML documents

A document is a list of tables, each with a header and with values assigned to
dotted paths. Its text denotes a tree of tables, unless a string in it holds a
control character as it is, which TOML wants escaped, all but the tab, or an
integer in it does not fit in 64 bits.
-/

set_option autoImplicit false

namespace Toml

inductive Value where
  | string (s : String)
  | integer (n : Int64)
  | float (text : String)
  | boolean (b : Bool)
  | datetime (text : String)
  | array (items : List Value)
  | table (fields : List (String × Value))

abbrev Table := List (String × Value)

namespace Table

def get (fields : Table) (k : String) : Option Value := (fields.find? (·.1 = k)).map Prod.snd

def alter (k : String) (f : Option Value → Value) : Table → Table
  | [] => [(k, f none)]
  | (a, v) :: fields => if a = k then (k, f (some v)) :: fields else (a, v) :: alter k f fields

end Table

def fieldsOf : Option Value → Table
  | some (.table fields) => fields
  | _ => []

/-- Assign a value to a path, in tables that come to be on the way. -/
def insertAt : List String → Value → Table → Table
  | [], _, fields => fields
  | [k], v, fields => fields.alter k fun _ => v
  | k :: a :: path, v, fields =>
    fields.alter k fun old => .table (insertAt (a :: path) v (fieldsOf old))

def insertAll (assigned : List (List String × Value)) (fields : Table) : Table :=
  assigned.foldl (fun fields p => insertAt p.1 p.2 fields) fields

/-- The assignments whose path starts with the key, without it. -/
def under (k : String) (assigned : List (List String × Value)) : List (List String × Value) :=
  assigned.filterMap fun p =>
    match p.1 with
    | [] => none
    | a :: path => if a = k then some (path, p.2) else none

inductive Scalar where
  | string (s : String)
  | strings (items : List String)
  | integer (n : ℕ)
  deriving DecidableEq

def Scalar.value : Scalar → Value
  | .string s => .string s
  | .strings items => .array (items.map .string)
  | .integer n => .integer (Int64.ofNat n)

structure Assignment where
  path : List String
  scalar : Scalar
  deriving DecidableEq

structure Section where
  header : List String
  body : List Assignment
  deriving DecidableEq

abbrev Doc := List Section

def Section.tree (self : Section) : Table :=
  insertAll (self.body.map fun a => (a.path, a.scalar.value)) []

/-- The tables that the document denotes. -/
def Doc.tree (doc : Doc) : Table :=
  insertAll (doc.map fun s => (s.header, .table s.tree)) []

section Text

def isBare (c : Char) : Bool :=
  ('a' ≤ c && c ≤ 'z') || ('A' ≤ c && c ≤ 'Z') || ('0' ≤ c && c ≤ '9') || c == '_' || c == '-'

/-- A character that may not stand in a string as it is. -/
def isControl (c : Char) : Bool := (c.toNat < 32 && c ≠ '\t') || c.toNat = 127

def escapeChar (c : Char) : List Char :=
  if c = '\\' then ['\\', '\\'] else if c = '"' then ['\\', '"'] else [c]

def basicText (s : String) : List Char := '"' :: s.toList.flatMap escapeChar ++ ['"']

def keyText (k : String) : List Char :=
  if !k.toList.isEmpty && k.toList.all isBare then k.toList else basicText k

def pathText : List String → List Char
  | [] => []
  | k :: path => keyText k ++ path.flatMap fun a => '.' :: keyText a

def itemsText : List String → List Char
  | [] => []
  | s :: items => basicText s ++ items.flatMap fun a => ',' :: ' ' :: basicText a

def Scalar.text : Scalar → List Char
  | .string s => basicText s
  | .strings items => '[' :: itemsText items ++ [']']
  | .integer n => Nat.toDigits 10 n

def Assignment.text (self : Assignment) : List Char :=
  pathText self.path ++ ' ' :: '=' :: ' ' :: self.scalar.text ++ ['\n']

def Section.text (self : Section) : List Char :=
  '[' :: pathText self.header ++ ']' :: '\n' :: self.body.flatMap Assignment.text

def Doc.text : Doc → List Char
  | [] => []
  | s :: doc => s.text ++ doc.flatMap fun s => '\n' :: s.text

end Text

section Clean

def CleanString (s : String) : Prop := ∀ c ∈ s.toList, isControl c = false

def Scalar.Clean : Scalar → Prop
  | .string s => CleanString s
  | .strings items => ∀ s ∈ items, CleanString s
  | .integer n => n < 2 ^ 63

def Assignment.Clean (self : Assignment) : Prop :=
  (∀ k ∈ self.path, CleanString k) ∧ self.scalar.Clean

def Section.Clean (self : Section) : Prop :=
  (∀ k ∈ self.header, CleanString k) ∧ ∀ a ∈ self.body, a.Clean

def Doc.Clean (doc : Doc) : Prop := ∀ s ∈ doc, s.Clean

end Clean

/-- No table is defined twice, and no path is assigned twice or through a value. -/
structure Doc.WellFormed (doc : Doc) : Prop where
  headers : ∃ n, 0 < n ∧ ∀ s ∈ doc, s.header.length = n
  distinct : (doc.map Section.header).Nodup
  paths : ∀ s ∈ doc, s.body.Pairwise fun a b => ¬ a.path <+: b.path ∧ ¬ b.path <+: a.path
  named : ∀ s ∈ doc, ∀ a ∈ s.body, a.path ≠ []

/-- What TOML 1.0 says of the text of a document. -/
structure Implements (parse : String → Except String Table) : Prop where
  reads : ∀ doc : Doc, doc.WellFormed → doc.Clean → parse (String.ofList doc.text) = .ok doc.tree
  rejects : ∀ doc : Doc, doc.WellFormed → ¬ doc.Clean →
    ∃ e, parse (String.ofList doc.text) = .error e

section Tree

variable {fields : Table} {k a : String} {v : Value}

theorem get_cons (p : String × Value) :
    Table.get (p :: fields) k = if p.1 = k then some p.2 else fields.get k := by
  unfold Table.get
  rw [List.find?_cons]
  by_cases h : p.1 = k <;> simp [h]

theorem get_alter (f : Option Value → Value) :
    (fields.alter k f).get a = if k = a then some (f (fields.get k)) else fields.get a := by
  induction fields with
  | nil => simp [Table.alter, Table.get]
  | cons p fields ih =>
    obtain ⟨b, v⟩ := p
    unfold Table.alter
    by_cases hb : b = k
    · subst hb
      by_cases ha : b = a
      · simp [get_cons, ha]
      · simp [get_cons, ha]
    · rw [if_neg hb, get_cons, get_cons, get_cons, ih]
      by_cases ha : b = a
      · subst ha
        simp [Ne.symm hb]
      · simp [ha, hb]

theorem names_alter (f : Option Value → Value) :
    (fields.alter k f).map Prod.fst =
      if k ∈ fields.map Prod.fst then fields.map Prod.fst else fields.map Prod.fst ++ [k] := by
  induction fields with
  | nil => simp [Table.alter]
  | cons p fields ih =>
    obtain ⟨b, v⟩ := p
    unfold Table.alter
    by_cases hb : b = k
    · simp [hb]
    · rw [if_neg hb, List.map_cons, ih]
      by_cases hmem : k ∈ fields.map Prod.fst
      · simp [hmem]
      · simp [hmem, Ne.symm hb]

theorem mem_iff_get (hnodup : (fields.map Prod.fst).Nodup) :
    (k, v) ∈ fields ↔ fields.get k = some v := by
  induction fields with
  | nil => simp [Table.get]
  | cons p fields ih =>
    obtain ⟨b, w⟩ := p
    rw [List.map_cons, List.nodup_cons] at hnodup
    rw [get_cons, List.mem_cons, ih hnodup.2]
    by_cases hb : b = k
    · subst hb
      have hnot : Table.get fields b ≠ some v := by
        intro hget
        exact hnodup.1 (List.mem_map.mpr ⟨(b, v), (ih hnodup.2).mpr hget, rfl⟩)
      simp [hnot, eq_comm]
    · simp [hb, Ne.symm hb]

/-- The value that one more assignment leaves under its first key. -/
def assign (old : Option Value) (p : List String × Value) : Option Value :=
  match p.1 with
  | [] => some p.2
  | _ :: _ => some (.table (insertAt p.1 p.2 (fieldsOf old)))

theorem get_insertAt (path : List String) :
    (insertAt (k :: path) v fields).get a =
      if k = a then assign (fields.get k) (path, v) else fields.get a := by
  cases path with
  | nil => exact get_alter _
  | cons b path => exact get_alter _

theorem get_insertAll (assigned : List (List String × Value)) :
    (insertAll assigned fields).get k = (under k assigned).foldl assign (fields.get k) := by
  induction assigned generalizing fields with
  | nil => rfl
  | cons p assigned ih =>
    obtain ⟨path, v⟩ := p
    rw [insertAll, List.foldl_cons, ← insertAll, ih]
    cases path with
    | nil => rfl
    | cons a path =>
      rw [get_insertAt]
      by_cases ha : a = k
      · subst ha
        simp [under]
      · simp [under, ha]

theorem nodup_insertAll (assigned : List (List String × Value))
    (h : (fields.map Prod.fst).Nodup) : ((insertAll assigned fields).map Prod.fst).Nodup := by
  induction assigned generalizing fields with
  | nil => exact h
  | cons p assigned ih =>
    have halter : ∀ k f, ((fields.alter k f).map Prod.fst).Nodup := by
      intro k f
      rw [names_alter]
      split
      · exact h
      · rename_i hk
        refine List.nodup_append.mpr ⟨h, List.nodup_singleton k, ?_⟩
        intro a ha b hb hab
        rw [List.mem_singleton.mp hb] at hab
        exact hk (hab ▸ ha)
    obtain ⟨path, v⟩ := p
    rw [insertAll, List.foldl_cons, ← insertAll]
    apply ih
    cases path with
    | nil => exact h
    | cons a path => cases path <;> exact halter _ _

/-- Assignments below a key build up its table. -/
theorem foldl_assign_table (below : List (List String × Value)) (h : ∀ p ∈ below, p.1 ≠ []) :
    below.foldl assign (some (.table fields)) = some (.table (insertAll below fields)) := by
  induction below generalizing fields with
  | nil => rfl
  | cons p below ih =>
    obtain ⟨path, v⟩ := p
    have hpath := h _ List.mem_cons_self
    cases path with
    | nil => exact absurd rfl hpath
    | cons a path => exact ih fun p hp => h p (List.mem_cons_of_mem _ hp)

variable {assigned : List (List String × Value)}

theorem get_absent (h : under k assigned = []) : (insertAll assigned []).get k = none := by
  rw [get_insertAll, h]
  rfl

theorem get_leaf (h : under k assigned = [([], v)]) : (insertAll assigned []).get k = some v := by
  rw [get_insertAll, h]
  rfl

theorem get_table {below : List (List String × Value)} (h : under k assigned = below)
    (hne : below ≠ []) (hpaths : ∀ p ∈ below, p.1 ≠ []) :
    (insertAll assigned []).get k = some (.table (insertAll below [])) := by
  rw [get_insertAll, h]
  cases below with
  | nil => exact absurd rfl hne
  | cons p below =>
    obtain ⟨path, v⟩ := p
    have hpath := hpaths _ List.mem_cons_self
    cases path with
    | nil => exact absurd rfl hpath
    | cons a path =>
      exact foldl_assign_table below fun p hp => hpaths p (List.mem_cons_of_mem _ hp)

theorem under_append (assigned rest : List (List String × Value)) :
    under k (assigned ++ rest) = under k assigned ++ under k rest := List.filterMap_append

end Tree

end Toml
