import Mathlib.Data.List.Nodup

/-!
# The first element under each key

A list is read from the front, and an element is kept unless its key has been
seen before.
-/

set_option autoImplicit false

namespace Firsts

variable {α β : Type*} [DecidableEq β] (key : α → β)

def firsts (seen : List β) : List α → List α
  | [] => []
  | a :: rest =>
    if key a ∈ seen then firsts seen rest else a :: firsts (key a :: seen) rest

variable {key} {a : α} {seen : List β} {l : List α}

theorem mem_of_mem_firsts (h : a ∈ firsts key seen l) : a ∈ l ∧ key a ∉ seen := by
  induction l generalizing seen with
  | nil => cases h
  | cons b l ih =>
    rw [firsts] at h
    by_cases hb : key b ∈ seen
    · rw [if_pos hb] at h
      exact ⟨List.mem_cons_of_mem _ (ih h).1, (ih h).2⟩
    · rw [if_neg hb] at h
      rcases List.mem_cons.mp h with rfl | h
      · exact ⟨List.mem_cons_self, hb⟩
      · have hrest := ih h
        rw [List.mem_cons, not_or] at hrest
        exact ⟨List.mem_cons_of_mem _ hrest.1, hrest.2.2⟩

/-- Under every key that is in the list an element is kept. -/
theorem exists_mem_firsts (h : a ∈ l) (hseen : key a ∉ seen) :
    ∃ b ∈ firsts key seen l, key b = key a := by
  induction l generalizing seen with
  | nil => cases h
  | cons b l ih =>
    rw [firsts]
    by_cases hb : key b ∈ seen
    · rw [if_pos hb]
      rcases List.mem_cons.mp h with rfl | h
      · exact absurd hb hseen
      · exact ih h hseen
    · rw [if_neg hb]
      by_cases heq : key b = key a
      · exact ⟨b, List.mem_cons_self, heq⟩
      · rcases List.mem_cons.mp h with rfl | h
        · exact absurd rfl heq
        · have hnext : key a ∉ key b :: seen := by
            rw [List.mem_cons, not_or]
            exact ⟨Ne.symm heq, hseen⟩
          obtain ⟨c, hc, hkey⟩ := ih h hnext
          exact ⟨c, List.mem_cons_of_mem _ hc, hkey⟩

theorem nodup_firsts : ((firsts key seen l).map key).Nodup := by
  induction l generalizing seen with
  | nil => exact List.nodup_nil
  | cons b l ih =>
    rw [firsts]
    by_cases hb : key b ∈ seen
    · rw [if_pos hb]
      exact ih
    · rw [if_neg hb, List.map_cons, List.nodup_cons]
      refine ⟨?_, ih⟩
      intro hmem
      obtain ⟨a, ha, hkey⟩ := List.mem_map.mp hmem
      exact (mem_of_mem_firsts ha).2 (by rw [hkey]; exact List.mem_cons_self)

/-- Where no key is there twice, every element is kept. -/
theorem firsts_eq_self (h : (l.map key).Nodup) (hseen : ∀ a ∈ l, key a ∉ seen) :
    firsts key seen l = l := by
  induction l generalizing seen with
  | nil => rfl
  | cons b l ih =>
    rw [List.map_cons, List.nodup_cons] at h
    rw [firsts, if_neg (hseen b List.mem_cons_self), ih h.2]
    intro a ha
    rw [List.mem_cons, not_or]
    refine ⟨?_, hseen a (List.mem_cons_of_mem _ ha)⟩
    intro heq
    exact h.1 (heq ▸ List.mem_map_of_mem ha)

end Firsts
