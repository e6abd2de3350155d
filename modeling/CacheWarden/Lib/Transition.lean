import Mathlib.Order.Basic
import Mathlib.Data.Nat.Basic

/-!
# Runs of a step function

A component is a step function that takes a state and an event to the next
state. This module gives the rules by which a fact about one step becomes a
fact about every run, and the counting rule for a compare-and-swap counter.
-/

set_option autoImplicit false

namespace Transition

variable {σ ε : Type*} (step : σ → ε → σ)

def run (s : σ) : List ε → σ
  | [] => s
  | e :: es => run (step s e) es

@[simp] theorem run_nil (s : σ) : run step s [] = s := rfl

@[simp] theorem run_cons (s : σ) (e : ε) (es : List ε) :
    run step s (e :: es) = run step (step s e) es := rfl

theorem run_append (s : σ) (es rest : List ε) :
    run step s (es ++ rest) = run step (run step s es) rest := by
  induction es generalizing s with
  | nil => rfl
  | cons e es ih => exact ih _

/-- The condition `P` holds of every step the run takes, at the state in which
it is taken. -/
def Along (P : σ → ε → Prop) (s : σ) : List ε → Prop
  | [] => True
  | e :: es => P s e ∧ Along P (step s e) es

instance decidableAlong (P : σ → ε → Prop) [∀ s e, Decidable (P s e)] :
    ∀ (s : σ) (es : List ε), Decidable (Along step P s es)
  | _, [] => isTrue trivial
  | s, e :: es =>
    have := decidableAlong P (step s e) es
    inferInstanceAs (Decidable (P s e ∧ Along step P (step s e) es))

theorem along_append (P : σ → ε → Prop) (s : σ) (es rest : List ε) :
    Along step P s (es ++ rest) ↔ Along step P s es ∧ Along step P (run step s es) rest := by
  induction es generalizing s with
  | nil => simp [Along]
  | cons e es ih => simp [Along, ih, and_assoc]

theorem along_and {P Q : σ → ε → Prop} (s : σ) (es : List ε) (hp : Along step P s es)
    (hq : Along step Q s es) : Along step (fun s e => P s e ∧ Q s e) s es := by
  induction es generalizing s with
  | nil => trivial
  | cons e es ih => exact ⟨⟨hp.1, hq.1⟩, ih _ hp.2 hq.2⟩

theorem along_of_forall {P : σ → ε → Prop} (hp : ∀ s e, P s e) (s : σ) (es : List ε) :
    Along step P s es := by
  induction es generalizing s with
  | nil => trivial
  | cons e es ih => exact ⟨hp s e, ih _⟩

theorem along_of_mem {P : ε → Prop} (s : σ) (es : List ε) (hp : ∀ e ∈ es, P e) :
    Along step (fun _ e => P e) s es := by
  induction es generalizing s with
  | nil => trivial
  | cons e es ih =>
    exact ⟨hp e List.mem_cons_self, ih _ fun e' he' => hp e' (List.mem_cons_of_mem _ he')⟩

/-- An invariant that every permitted step keeps holds at the end of every run
of permitted steps. -/
theorem run_invariant {P : σ → ε → Prop} {I : σ → Prop}
    (hstep : ∀ s e, I s → P s e → I (step s e)) (s : σ) (es : List ε)
    (hp : Along step P s es) (hs : I s) : I (run step s es) := by
  induction es generalizing s with
  | nil => exact hs
  | cons e es ih => exact ih _ hp.2 (hstep s e hs hp.1)

/-- What a permitted step does where the invariant holds, every step of a run
does. -/
theorem along_of_invariant {P Q : σ → ε → Prop} {I : σ → Prop}
    (hstep : ∀ s e, I s → P s e → I (step s e)) (hq : ∀ s e, I s → P s e → Q s e) (s : σ)
    (es : List ε) (hp : Along step P s es) (hs : I s) : Along step Q s es := by
  induction es generalizing s with
  | nil => trivial
  | cons e es ih => exact ⟨hq s e hs hp.1, ih _ hp.2 (hstep s e hs hp.1)⟩

/-- The relational form: a transitive relation between the two ends of each
permitted step relates the two ends of a run, while an invariant holds. -/
theorem run_relation {P : σ → ε → Prop} {I : σ → Prop} {R : σ → σ → Prop}
    (hrefl : ∀ s, R s s) (htrans : ∀ a b c, R a b → R b c → R a c)
    (hinv : ∀ s e, I s → P s e → I (step s e))
    (hstep : ∀ s e, I s → P s e → R s (step s e)) (s : σ) (es : List ε)
    (hp : Along step P s es) (hs : I s) : R s (run step s es) := by
  induction es generalizing s with
  | nil => exact hrefl s
  | cons e es ih =>
    exact htrans _ _ _ (hstep s e hs hp.1) (ih _ hp.2 (hinv s e hs hp.1))

/-- How many steps of the run meet the test. -/
def tally (test : σ → ε → Bool) (s : σ) : List ε → ℕ
  | [] => 0
  | e :: es => (if test s e then 1 else 0) + tally test (step s e) es

/-- A counter that each permitted step raises by one where the test holds, and
leaves alone elsewhere, counts those steps. -/
theorem run_tally {P : σ → ε → Prop} (counter : σ → ℕ) (test : σ → ε → Bool)
    (hstep : ∀ s e, P s e → counter (step s e) = counter s + if test s e then 1 else 0) (s : σ)
    (es : List ε) (hp : Along step P s es) :
    counter (run step s es) = counter s + tally step test s es := by
  induction es generalizing s with
  | nil => rfl
  | cons e es ih =>
    rw [run_cons, ih _ hp.2, hstep s e hp.1, tally, Nat.add_assoc]

section Counter

variable {P : σ → ε → Prop} {I : σ → Prop} {α : Type*} [PartialOrder α]
  (counter : σ → α) (test : σ → ε → Bool) (v : α)

theorem tally_eq_zero_of_lt
    (hinv : ∀ s e, I s → P s e → I (step s e))
    (hmono : ∀ s e, I s → P s e → counter s ≤ counter (step s e))
    (hread : ∀ s e, I s → P s e → test s e = true → counter s = v)
    (s : σ) (es : List ε) (hp : Along step P s es) (hs : I s) (hlt : v < counter s) :
    tally step test s es = 0 := by
  induction es generalizing s with
  | nil => rfl
  | cons e es ih =>
    have hfalse : test s e = false := by
      by_contra h
      exact hlt.ne' (hread s e hs hp.1 (by simpa using h))
    have hnext : v < counter (step s e) := hlt.trans_le (hmono s e hs hp.1)
    simp [tally, hfalse, ih _ hp.2 (hinv s e hs hp.1) hnext]

/-- The lost-update rule. A counter that never falls, and that a step reading it
at `v` must raise, is read at `v` by at most one such step of a run. -/
theorem tally_le_one
    (hinv : ∀ s e, I s → P s e → I (step s e))
    (hmono : ∀ s e, I s → P s e → counter s ≤ counter (step s e))
    (hread : ∀ s e, I s → P s e → test s e = true → counter s = v)
    (hraise : ∀ s e, I s → P s e → test s e = true → counter s < counter (step s e))
    (s : σ) (es : List ε) (hp : Along step P s es) (hs : I s) :
    tally step test s es ≤ 1 := by
  induction es generalizing s with
  | nil => simp [tally]
  | cons e es ih =>
    have hs' := hinv s e hs hp.1
    cases ht : test s e with
    | false => simpa [tally, ht] using ih _ hp.2 hs'
    | true =>
      have hlt : v < counter (step s e) := by
        rw [← hread s e hs hp.1 ht]
        exact hraise s e hs hp.1 ht
      simp [tally, ht, tally_eq_zero_of_lt step counter test v hinv hmono hread _ es hp.2 hs' hlt]

end Counter

/-- Each event of a history was permitted by what had happened before it. -/
def Checked {ε : Type*} (P : List ε → ε → Prop) (history : List ε) : Prop :=
  ∀ pre e post, history = pre ++ e :: post → P pre e

section Checked

variable {ε : Type*} {P : List ε → ε → Prop}

theorem checked_nil : Checked P [] := by
  intro pre e post h
  simp at h

theorem checked_concat {history : List ε} {e : ε} (h : Checked P history) (he : P history e) :
    Checked P (history ++ [e]) := by
  intro pre a post heq
  rcases List.eq_nil_or_concat post with rfl | ⟨post, b, rfl⟩
  · obtain ⟨rfl, hlast⟩ := List.append_inj' heq rfl
    cases hlast
    exact he
  · have hassoc : history ++ [e] = (pre ++ a :: post) ++ [b] := by simpa using heq
    obtain ⟨rfl, -⟩ := List.append_inj' hassoc rfl
    exact h pre a post rfl

end Checked

end Transition
