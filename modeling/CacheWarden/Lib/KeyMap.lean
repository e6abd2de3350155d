import Mathlib.Tactic.Common
import Std.Data.ExtTreeMap
import Std.Data.ExtTreeSet

/-!
# Ordered maps keyed by strings

The `BTreeMap<String, _>` of the source is the extensional tree map of the
standard library. Lookups after an update are stated over equality of keys, and
the sorted union of several key lists is the list without repetition.
-/

set_option autoImplicit false

abbrev KeyMap (α : Type) := Std.ExtTreeMap String α

namespace KeyMap

variable {α β : Type}

@[simp] theorem get_empty (k : String) : (∅ : KeyMap α)[k]? = none :=
  Std.ExtTreeMap.getElem?_empty

theorem get_insert (m : KeyMap α) (k a : String) (v : α) :
    (m.insert k v)[a]? = if k = a then some v else m[a]? := by
  simp [Std.ExtTreeMap.getElem?_insert]

@[simp] theorem get_insert_self (m : KeyMap α) (k : String) (v : α) :
    (m.insert k v)[k]? = some v := by
  simp

theorem get_insert_of_ne (m : KeyMap α) {k a : String} (v : α) (h : k ≠ a) :
    (m.insert k v)[a]? = m[a]? := by
  simp [get_insert, h]

theorem get_erase (m : KeyMap α) (k a : String) :
    (m.erase k)[a]? = if k = a then none else m[a]? := by
  simp [Std.ExtTreeMap.getElem?_erase]

theorem get_of_erase {m : KeyMap α} {k a : String} {v : α} (h : (m.erase k)[a]? = some v) :
    m[a]? = some v := by
  rw [get_erase] at h
  split at h
  · cases h
  · exact h

@[simp] theorem get_erase_self (m : KeyMap α) (k : String) : (m.erase k)[k]? = none := by
  simp

theorem get_erase_of_ne (m : KeyMap α) {k a : String} (h : k ≠ a) :
    (m.erase k)[a]? = m[a]? := by
  simp [get_erase, h]

/-- `if let Some(v) = value { map.insert(key, v); }`. -/
def insertOpt (m : KeyMap α) (k : String) : Option α → KeyMap α
  | none => m
  | some v => m.insert k v

theorem get_insertOpt (m : KeyMap α) (k a : String) (v : Option α) :
    (insertOpt m k v)[a]? = if k = a then v.or m[a]? else m[a]? := by
  cases v with
  | none => simp [insertOpt]
  | some v => simp [insertOpt, get_insert]

theorem ext_get {m n : KeyMap α} (h : ∀ k : String, m[k]? = n[k]?) : m = n :=
  Std.ExtTreeMap.ext_getElem? h

theorem mem_keys_iff (m : KeyMap α) (k : String) : k ∈ m.keys ↔ m[k]?.isSome := by
  rw [Std.ExtTreeMap.mem_keys, Std.ExtTreeMap.mem_iff_isSome_getElem?]

theorem nodup_keys (m : KeyMap α) : m.keys.Nodup := by
  have h := m.distinct_keys
  exact h.imp fun hne heq => hne (by simp [heq])

theorem erase_of_none {m : KeyMap α} {k : String} (h : m[k]? = none) : m.erase k = m := by
  apply ext_get
  intro a
  rw [get_erase]
  by_cases ha : k = a
  · rw [if_pos ha, ← ha, h]
  · rw [if_neg ha]

theorem mem_toList (m : KeyMap α) (k : String) (v : α) : (k, v) ∈ m.toList ↔ m[k]? = some v :=
  Std.ExtTreeMap.mem_toList_iff_getElem?_eq_some

theorem nodup_toList (m : KeyMap α) : (m.toList.map Prod.fst).Nodup := by
  have h := nodup_keys m
  rw [← Std.ExtTreeMap.map_fst_toList_eq_keys] at h
  exact h

theorem get_foldl_insert {pairs : List (String × α)} (hnodup : (pairs.map Prod.fst).Nodup)
    (m : KeyMap α) (k : String) (v : α) :
    (pairs.foldl (fun m p => m.insert p.1 p.2) m)[k]? = some v ↔
      (k, v) ∈ pairs ∨ (k ∉ pairs.map Prod.fst ∧ m[k]? = some v) := by
  induction pairs generalizing m with
  | nil => simp
  | cons p pairs ih =>
    obtain ⟨a, w⟩ := p
    rw [List.map_cons, List.nodup_cons] at hnodup
    rw [List.foldl_cons, ih hnodup.2, get_insert]
    by_cases ha : a = k
    · subst ha
      have hnot : ∀ v, (a, v) ∉ pairs := by
        intro v hv
        exact hnodup.1 (List.mem_map.mpr ⟨(a, v), hv, rfl⟩)
      simp [hnot, hnodup.1, eq_comm]
    · simp [ha, Ne.symm ha]

theorem foldl_insert_toList (m : KeyMap α) :
    m.toList.foldl (fun m p => m.insert p.1 p.2) ∅ = m := by
  apply ext_get
  intro k
  apply Option.ext
  intro v
  rw [get_foldl_insert (nodup_toList m), mem_toList]
  simp

/-- The values, in the order of their keys. -/
def values (m : KeyMap α) : List α := m.keys.filterMap (m[·]?)

theorem mem_values {m : KeyMap α} {v : α} : v ∈ values m ↔ ∃ k : String, m[k]? = some v := by
  simp only [values, List.mem_filterMap]
  constructor
  · rintro ⟨k, -, hk⟩
    exact ⟨k, hk⟩
  · rintro ⟨k, hk⟩
    exact ⟨k, by rw [mem_keys_iff, hk]; rfl, hk⟩

/-- Where a value names its own key, the values name each key once. -/
theorem nodup_map_values {m : KeyMap α} {name : α → String}
    (h : ∀ (k : String) v, m[k]? = some v → name v = k) : ((values m).map name).Nodup := by
  have hsub : ∀ keys : List String,
      ((keys.filterMap (m[·]?)).map name).Sublist keys := by
    intro keys
    induction keys with
    | nil => simp
    | cons k keys ih =>
      rcases hk : m[k]? with _ | v
      · simpa [List.filterMap_cons, hk] using ih.cons k
      · simpa [List.filterMap_cons, hk, h k v hk] using ih
  exact (hsub m.keys).nodup (nodup_keys m)

/-- `keys.sort(); keys.dedup()`. -/
def sortDedup (keys : List String) : List String :=
  (Std.ExtTreeSet.ofList keys).toList

theorem mem_sortDedup {keys : List String} {k : String} : k ∈ sortDedup keys ↔ k ∈ keys := by
  simp [sortDedup, Std.ExtTreeSet.mem_toList, Std.ExtTreeSet.mem_ofList]

theorem nodup_sortDedup (keys : List String) : (sortDedup keys).Nodup := by
  refine (Std.ExtTreeSet.distinct_toList (t := Std.ExtTreeSet.ofList keys)).imp ?_
  intro a b h hab
  exact h (by simp [hab])

end KeyMap
