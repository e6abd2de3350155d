import CacheWarden.Daemon.ApproverClient
import Mathlib.Data.Finset.Card

/-!
# The queue of the approver client

A request learns its depth when it reserves its slot and is let in only up to the
cap. The requests that are past the cap are then among the first places of the
order in which the pending ones came, since a place only ever gets smaller.
-/

set_option autoImplicit false

namespace CacheWarden

namespace Daemon

open Transition

namespace RequestPhase

/-- Past the cap on the queue: the request may reach the helper, or waits to. -/
def queued : RequestPhase → Bool
  | .admitted => true
  | .waiting => true
  | .inside _ => true
  | _ => false

/-- The request counts among the pending. -/
def slotted : RequestPhase → Bool
  | .entered _ => true
  | .leaving _ => true
  | phase => phase.queued

/-- A request may stand at this place of the order of arrival. -/
def within (place : ℕ) : RequestPhase → Prop
  | .entered depth => place < depth
  | phase => phase.queued = true → place < maxPendingRequests

theorem within_mono {place place' : ℕ} {phase : RequestPhase} (hle : place' ≤ place)
    (h : phase.within place) : phase.within place' := by
  cases phase with
  | entered depth => exact lt_of_le_of_lt hle h
  | _ => exact fun hq => lt_of_le_of_lt hle (h hq)

end RequestPhase

/-- The pending requests, in the order in which they came, each at a place its
depth allows. -/
def Ranked (s : ApproverClient) : ℕ → List ℕ → Prop
  | _, [] => True
  | place, id :: order => (s.request id).within place ∧ Ranked s (place + 1) order

structure Counted (s : ApproverClient) (order : List ℕ) : Prop where
  nodup : order.Nodup
  mem : ∀ id, id ∈ order ↔ (s.request id).slotted = true
  pending : s.pending = order.length
  ranked : Ranked s 0 order

section Ranked

variable {s s' : ApproverClient} {order : List ℕ} {place : ℕ}

theorem ranked_mono {place' : ℕ} (hle : place' ≤ place) (h : Ranked s place order) :
    Ranked s place' order := by
  induction order generalizing place place' with
  | nil => trivial
  | cons id order ih =>
    exact ⟨RequestPhase.within_mono hle h.1, ih (by omega) h.2⟩

theorem ranked_congr (h : Ranked s place order)
    (hsame : ∀ id ∈ order, ∀ place, (s.request id).within place → (s'.request id).within place) :
    Ranked s' place order := by
  induction order generalizing place with
  | nil => trivial
  | cons id order ih =>
    exact ⟨hsame id List.mem_cons_self place h.1,
      ih h.2 fun a ha => hsame a (List.mem_cons_of_mem _ ha)⟩

theorem ranked_erase (id : ℕ) (h : Ranked s place order) : Ranked s place (order.erase id) := by
  induction order generalizing place with
  | nil => trivial
  | cons a order ih =>
    by_cases ha : a = id
    · subst ha
      rw [List.erase_cons_head]
      exact ranked_mono (by omega) h.2
    · rw [List.erase_cons_tail (by simpa using ha)]
      exact ⟨h.1, ih h.2⟩

theorem ranked_append (id : ℕ) (h : Ranked s place order)
    (hid : (s.request id).within (place + order.length)) : Ranked s place (order ++ [id]) := by
  induction order generalizing place with
  | nil => exact ⟨by simpa using hid, trivial⟩
  | cons a order ih =>
    refine ⟨h.1, ih h.2 ?_⟩
    rwa [List.length_cons, ← Nat.add_assoc, Nat.add_right_comm] at hid

/-- No more requests are past the cap than the cap. -/
theorem ranked_count (h : Ranked s place order) :
    (order.filter fun id => (s.request id).queued).length ≤ maxPendingRequests - place := by
  induction order generalizing place with
  | nil => simp
  | cons id order ih =>
    have hrest := ih h.2
    by_cases hq : (s.request id).queued = true
    · have hplace : place < maxPendingRequests := by
        have hwithin := h.1
        cases hphase : s.request id <;> simp_all [RequestPhase.within, RequestPhase.queued]
      simp only [List.filter_cons, hq, if_true, List.length_cons]
      omega
    · simp only [List.filter_cons, hq, Bool.false_eq_true, if_false]
      omega

end Ranked

section Counted

variable {s s' : ApproverClient} {e : ClientEvent} {order : List ℕ}

theorem counted_started (helper : ℕ) : Counted (ApproverClient.started helper) [] :=
  ⟨List.nodup_nil, fun _ => by simp [ApproverClient.started, RequestPhase.slotted,
    RequestPhase.queued], rfl, trivial⟩

/-- A step that reserves no slot and gives none back. -/
theorem counted_same (h : Counted s order) (hpending : s'.pending = s.pending)
    (hslotted : ∀ id, (s'.request id).slotted = (s.request id).slotted)
    (hwithin : ∀ id place, (s.request id).within place → (s'.request id).within place) :
    Counted s' order where
  nodup := h.nodup
  mem id := by rw [h.mem, hslotted]
  pending := hpending.trans h.pending
  ranked := ranked_congr h.ranked fun id _ place => hwithin id place

theorem counted_begun (h : Counted s order) {id : ℕ} (hid : s.request id = .absent) :
    Counted { s.move id (.entered (s.pending + 1)) with pending := s.pending + 1 }
      (order ++ [id]) := by
  have hnew : id ∉ order := by
    rw [h.mem, hid]
    simp [RequestPhase.slotted, RequestPhase.queued]
  constructor
  · simpa [List.concat_eq_append] using h.nodup.concat hnew
  · intro a
    by_cases ha : a = id
    · simp [ha, RequestPhase.slotted]
    · simp [ha, h.mem]
  · simp [h.pending]
  · apply ranked_append
    · apply ranked_congr h.ranked
      intro a ha place hwithin
      have hne : a ≠ id := fun heq => hnew (heq ▸ ha)
      simpa [hne] using hwithin
    · simp [RequestPhase.within, h.pending]

theorem counted_left (h : Counted s order) {id : ℕ} {result : Except RequestError WireOutcome}
    (hid : s.request id = .leaving result) :
    Counted { s.move id (.done result) with pending := s.pending - 1 } (order.erase id) := by
  have hmem : id ∈ order := by
    rw [h.mem, hid]
    rfl
  constructor
  · exact h.nodup.erase id
  · intro a
    rw [h.nodup.mem_erase_iff]
    by_cases ha : a = id
    · simp [ha, RequestPhase.slotted, RequestPhase.queued]
    · simp [ha, h.mem]
  · rw [List.length_erase_of_mem hmem, ← h.pending]
  · apply ranked_congr (ranked_erase id h.ranked)
    intro a ha place hwithin
    have hne : a ≠ id := (h.nodup.mem_erase_iff.mp ha).1
    simpa [hne] using hwithin

theorem counted_step (h : Counted s order) (hs : Steps s e s') : ∃ order', Counted s' order' := by
  cases hs with
  | begun id hid => exact ⟨_, counted_begun h hid⟩
  | left id result hid => exact ⟨_, counted_left h hid⟩
  | _ =>
    refine ⟨order, counted_same h rfl ?_ ?_⟩
    · grind -ring -linarith [RequestPhase.slotted, RequestPhase.queued]
    · grind -ring -linarith [RequestPhase.within, RequestPhase.queued]

theorem counted_run (helper : ℕ) (es : List ClientEvent) :
    ∃ order, Counted (run ApproverClient.step (ApproverClient.started helper) es) order :=
  run_invariant (P := fun _ _ => True) (I := fun s => ∃ order, Counted s order)
    ApproverClient.step (fun s e ⟨_, h⟩ _ => counted_step h (step_steps s e)) _ es
    (along_of_forall _ (fun _ _ => trivial) _ es) ⟨[], counted_started helper⟩

/-- However many requests there are, at most the cap are past it. -/
theorem Counted.bounded (h : Counted s order) (requests : Finset ℕ)
    (hqueued : ∀ id ∈ requests, (s.request id).queued = true) :
    requests.card ≤ maxPendingRequests := by
  have hsub : requests ⊆ (order.filter fun id => (s.request id).queued).toFinset := by
    intro id hid
    have hq := hqueued id hid
    have hslotted : (s.request id).slotted = true := by
      cases hphase : s.request id <;> simp_all [RequestPhase.slotted, RequestPhase.queued]
    simp [h.mem, hq, hslotted]
  calc
    requests.card ≤ (order.filter fun id => (s.request id).queued).toFinset.card :=
      Finset.card_le_card hsub
    _ ≤ (order.filter fun id => (s.request id).queued).length := List.toFinset_card_le _
    _ ≤ maxPendingRequests - 0 := ranked_count h.ranked

theorem Counted.drained (h : Counted s order) (hnone : ∀ id, (s.request id).slotted = false) :
    s.pending = 0 := by
  rw [h.pending, List.length_eq_zero_iff]
  apply List.eq_nil_iff_forall_not_mem.mpr
  intro id hid
  rw [h.mem, hnone] at hid
  cases hid

end Counted

end Daemon

end CacheWarden
