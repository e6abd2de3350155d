import Mathlib.Data.List.Basic

/-!
# Paths of a Unix system

A path is a text of bytes, and is compared by its components: slashes that
repeat or trail and dots that say nothing make no difference. A name put behind
a directory is the last component of the path that this gives.
-/

set_option autoImplicit false

namespace UnixPath

abbrev slash : UInt8 := 47

abbrev dot : UInt8 := 46

inductive Component where
  | rootDir
  | curDir
  | parentDir
  | normal (name : List UInt8)
  deriving DecidableEq

/-- The pieces between the slashes. -/
def split : List UInt8 → List (List UInt8)
  | [] => [[]]
  | b :: rest =>
    if b = slash then [] :: split rest
    else
      match split rest with
      | [] => [[b]]
      | piece :: pieces => (b :: piece) :: pieces

def component (piece : List UInt8) : Option Component :=
  if piece = [] ∨ piece = [dot] then none
  else if piece = [dot, dot] then some .parentDir
  else some (.normal piece)

/-- A dot in front of a relative path is kept. -/
def components (path : List UInt8) : List Component :=
  (if path.head? = some slash then [.rootDir]
    else if (split path).head? = some [dot] then [.curDir]
    else []) ++ (split path).filterMap component

/-- Two texts of one path. -/
def Same (path path' : List UInt8) : Prop := components path = components path'

instance (path path' : List UInt8) : Decidable (Same path path') :=
  inferInstanceAs (Decidable (components path = components path'))

theorem Same.refl (path : List UInt8) : Same path path := rfl

theorem Same.symm {path path' : List UInt8} (h : Same path path') : Same path' path := Eq.symm h

theorem Same.trans {a b c : List UInt8} (h : Same a b) (h' : Same b c) : Same a c := Eq.trans h h'

def fileName (path : List UInt8) : Option (List UInt8) :=
  match (components path).getLast? with
  | some (.normal name) => some name
  | _ => none

/-- A path put behind another; an absolute one takes its place. -/
def join (path rest : List UInt8) : List UInt8 :=
  if rest.head? = some slash then rest
  else if path.getLast?.any (· ≠ slash) then path ++ slash :: rest
  else path ++ rest

section Names

/-- What can stand as a component of its own. -/
structure Name (name : List UInt8) : Prop where
  whole : slash ∉ name
  nonempty : name ≠ []
  notDot : name ≠ [dot]
  notDots : name ≠ [dot, dot]

theorem split_ne_nil (path : List UInt8) : split path ≠ [] := by
  cases path with
  | nil => simp [split]
  | cons b rest =>
    unfold split
    split
    · simp
    · split <;> simp

theorem split_cons {b : UInt8} (hb : b ≠ slash) (rest : List UInt8) :
    ∃ piece pieces, split rest = piece :: pieces ∧ split (b :: rest) = (b :: piece) :: pieces := by
  cases hsplit : split rest with
  | nil => exact absurd hsplit (split_ne_nil rest)
  | cons piece pieces =>
    refine ⟨piece, pieces, rfl, ?_⟩
    rw [split, if_neg hb, hsplit]

theorem split_append_slash (path rest : List UInt8) :
    split (path ++ slash :: rest) = split path ++ split rest := by
  induction path with
  | nil => simp [split]
  | cons b path ih =>
    by_cases hb : b = slash
    · rw [List.cons_append, split, if_pos hb, ih, split, if_pos hb, List.cons_append]
    · obtain ⟨piece, pieces, hpath, hcons⟩ := split_cons hb path
      rw [hcons, List.cons_append, split, if_neg hb, ih, hpath]
      rfl

theorem split_of_not_mem {name : List UInt8} (h : slash ∉ name) : split name = [name] := by
  induction name with
  | nil => rfl
  | cons b name ih =>
    rw [List.mem_cons, not_or] at h
    rw [split, if_neg (Ne.symm h.1), ih h.2]

theorem component_of_name {name : List UInt8} (h : Name name) :
    component name = some (.normal name) := by
  unfold component
  rw [if_neg (by simp [h.nonempty, h.notDot]), if_neg h.notDots]

/-- A name behind a directory is the last component. -/
theorem components_name (dir : List UInt8) {name : List UInt8} (h : Name name) :
    ∃ front, components (dir ++ slash :: name) = front ++ [.normal name] := by
  unfold components
  rw [split_append_slash, split_of_not_mem h.whole, List.filterMap_append]
  simp only [List.filterMap_cons, component_of_name h, List.filterMap_nil]
  exact ⟨_, (List.append_assoc _ _ _).symm⟩

/-- Behind one directory, different names are different paths. -/
theorem name_of_same {dir name name' : List UInt8} (h : Name name) (h' : Name name')
    (hsame : Same (dir ++ slash :: name) (dir ++ slash :: name')) : name = name' := by
  obtain ⟨front, hfront⟩ := components_name dir h
  obtain ⟨front', hfront'⟩ := components_name dir h'
  unfold Same at hsame
  rw [hfront, hfront'] at hsame
  have hlast := (List.append_inj' hsame rfl).2
  cases hlast
  rfl

end Names

end UnixPath
