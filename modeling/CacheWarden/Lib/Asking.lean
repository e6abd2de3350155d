import Mathlib.Tactic.Common

/-!
# Computations that ask

A computation has its result, or it asks a question and goes on with the answer.
A table of answers gives it a result and the list of the questions it asked, in
their order. No other answer of the table makes a difference.
-/

set_option autoImplicit false

universe u v w

inductive Asking {Q : Type u} (A : Q → Type v) (R : Type w) where
  | done (result : R)
  | ask (question : Q) (next : A question → Asking A R)

namespace Asking

variable {Q : Type u} {A : Q → Type v} {R : Type w}

def answer (table : ∀ q, A q) : Asking A R → R
  | .done result => result
  | .ask q next => (next (table q)).answer table

def asked (table : ∀ q, A q) : Asking A R → List Q
  | .done _ => []
  | .ask q next => q :: (next (table q)).asked table

variable {table table' : ∀ q, A q}

@[simp] theorem answer_done (result : R) : (done result : Asking A R).answer table = result := rfl

@[simp] theorem answer_ask (q : Q) (next : A q → Asking A R) :
    (ask q next).answer table = (next (table q)).answer table := rfl

@[simp] theorem asked_done (result : R) : (done result : Asking A R).asked table = [] := rfl

@[simp] theorem asked_ask (q : Q) (next : A q → Asking A R) :
    (ask q next).asked table = q :: (next (table q)).asked table := rfl

/-- Two tables that agree on what was asked give the same result. -/
theorem answer_congr (c : Asking A R) (h : ∀ q ∈ c.asked table, table q = table' q) :
    c.answer table = c.answer table' := by
  induction c with
  | done result => rfl
  | ask q next ih =>
    rw [asked_ask] at h
    rw [answer_ask, answer_ask, ← h q List.mem_cons_self]
    exact ih _ fun q' hq' => h q' (List.mem_cons_of_mem _ hq')

end Asking
