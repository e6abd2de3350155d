import Mathlib.Data.List.Basic

/-!
# Reading until enough has come

What a peer sends comes in pieces. A reader appends each piece to what it holds until that
answers its question, or is too much, or nothing more comes.
-/

set_option autoImplicit false

namespace Gathering

variable {α β : Type}

inductive Gathered (α β : Type) where
  | found (answer : α) (held : List β) (rest : List (List β))
  | tooMuch
  | short
  deriving DecidableEq

def gather (ask : List β → Option α) (full : List β → Bool) :
    List β → List (List β) → Gathered α β
  | held, [] =>
    match ask held with
    | some a => .found a held []
    | none => if full held then .tooMuch else .short
  | held, piece :: rest =>
    match ask held with
    | some a => .found a held (piece :: rest)
    | none => if full held then .tooMuch else gather ask full (held ++ piece) rest

/-- An answer that more of the input does not change. -/
def Lasting (ask : List β → Option α) : Prop :=
  ∀ s t a, ask s = some a → ask (s ++ t) = some a

/-- What is too much stays too much. -/
def Growing (full : List β → Bool) : Prop :=
  ∀ s t, full s = true → full (s ++ t) = true

variable {ask : List β → Option α} {full : List β → Bool} {held : List β}
  {pieces : List (List β)} {a : α}

theorem Lasting.none_of_append {s t : List β} (h : Lasting ask) (hnone : ask (s ++ t) = none) :
    ask s = none := by
  cases hs : ask s with
  | none => rfl
  | some a => rw [h s t a hs] at hnone; cases hnone

theorem gather_found_now (rest : List (List β)) (h : ask held = some a) :
    gather ask full held rest = .found a held rest := by
  cases rest <;> simp only [gather, h]

theorem gather_full_now (rest : List (List β)) (h : ask held = none) (hfull : full held = true) :
    gather ask full held rest = .tooMuch := by
  cases rest <;> simp only [gather, h, hfull, if_true]

theorem gather_more (piece : List β) (rest : List (List β)) (h : ask held = none)
    (hfull : full held = false) :
    gather ask full held (piece :: rest) = gather ask full (held ++ piece) rest := by
  simp [gather, h, hfull]

/-- Whatever was found, nothing of the input is lost. -/
theorem gather_found {b : List β} {rest : List (List β)} (pieces : List (List β)) :
    ∀ held, gather ask full held pieces = .found a b rest →
      ask b = some a ∧ b ++ rest.flatten = held ++ pieces.flatten := by
  induction pieces with
  | nil =>
    intro held h
    cases hask : ask held with
    | some a' =>
      rw [gather_found_now [] hask] at h
      cases h
      exact ⟨hask, rfl⟩
    | none =>
      simp only [gather, hask] at h
      split at h <;> cases h
  | cons piece rest' ih =>
    intro held h
    cases hask : ask held with
    | some a' =>
      rw [gather_found_now _ hask] at h
      cases h
      exact ⟨hask, rfl⟩
    | none =>
      by_cases hfull : full held = true
      · rw [gather_full_now _ hask hfull] at h
        cases h
      · rw [gather_more _ _ hask (by simpa using hfull)] at h
        have hrest := ih _ h
        exact ⟨hrest.1, by rw [hrest.2, List.flatten_cons, List.append_assoc]⟩

/-- Only a question that the whole input leaves open goes unanswered to its end. -/
theorem gather_short (pieces : List (List β)) :
    ∀ held, gather ask full held pieces = .short → ask (held ++ pieces.flatten) = none := by
  induction pieces with
  | nil =>
    intro held h
    rw [List.flatten_nil, List.append_nil]
    cases hask : ask held with
    | some a' => rw [gather_found_now [] hask] at h; cases h
    | none => rfl
  | cons piece rest ih =>
    intro held h
    rw [List.flatten_cons, ← List.append_assoc]
    cases hask : ask held with
    | some a' => rw [gather_found_now _ hask] at h; cases h
    | none =>
      by_cases hfull : full held = true
      · rw [gather_full_now _ hask hfull] at h
        cases h
      · rw [gather_more _ _ hask (by simpa using hfull)] at h
        exact ih _ h

/-- A question that the whole input answers is answered however it comes, with that answer,
where nothing that leaves it open is too much. -/
theorem gather_of_answer (full : List β → Bool) (hlasting : Lasting ask) (pieces : List (List β)) :
    ∀ held, ask (held ++ pieces.flatten) = some a →
      (∀ b, b <+: held ++ pieces.flatten → ask b = none → full b = false) →
      ∃ b rest, gather ask full held pieces = .found a b rest ∧
        b ++ rest.flatten = held ++ pieces.flatten := by
  induction pieces with
  | nil =>
    intro held h _
    rw [List.flatten_nil, List.append_nil] at h
    exact ⟨held, [], gather_found_now [] h, rfl⟩
  | cons piece rest ih =>
    intro held h hopen
    cases hask : ask held with
    | some a' =>
      rw [hlasting held _ a' hask] at h
      cases h
      exact ⟨held, piece :: rest, gather_found_now _ hask, rfl⟩
    | none =>
      rw [List.flatten_cons, ← List.append_assoc] at h hopen
      rw [gather_more _ _ hask (hopen held ⟨_, (List.append_assoc _ _ _).symm⟩ hask),
        List.flatten_cons, ← List.append_assoc]
      exact ih _ h hopen

/-- A question that the whole input leaves open is not answered. -/
theorem gather_of_open (full : List β → Bool) (hlasting : Lasting ask) (hgrowing : Growing full)
    (pieces : List (List β)) :
    ∀ held, ask (held ++ pieces.flatten) = none →
      gather ask full held pieces =
        if full (held ++ pieces.flatten) then .tooMuch else .short := by
  induction pieces with
  | nil =>
    intro held h
    rw [List.flatten_nil, List.append_nil] at h ⊢
    simp [gather, h]
  | cons piece rest ih =>
    intro held h
    have hask : ask held = none := hlasting.none_of_append h
    by_cases hfull : full held = true
    · rw [gather_full_now _ hask hfull, if_pos (hgrowing _ _ hfull)]
    · rw [List.flatten_cons, ← List.append_assoc] at h ⊢
      rw [gather_more _ _ hask (by simpa using hfull), ih _ h]

/-- Pieces that leave the question open, and are not too much, are all taken. -/
theorem gather_append (more : List (List β)) (pieces : List (List β)) :
    ∀ held, (∀ b, b <+: held ++ pieces.flatten → ask b = none ∧ full b = false) →
      gather ask full held (pieces ++ more) = gather ask full (held ++ pieces.flatten) more := by
  induction pieces with
  | nil =>
    intro held _
    rw [List.flatten_nil, List.append_nil, List.nil_append]
  | cons piece rest ih =>
    intro held h
    obtain ⟨hask, hfull⟩ := h held ⟨_, rfl⟩
    rw [List.flatten_cons, ← List.append_assoc] at h ⊢
    rw [List.cons_append, gather_more _ _ hask hfull]
    exact ih _ h

/-- Pieces of at most `m` do not step over the `m` lengths above a limit. -/
theorem gather_over {n m : ℕ} (hfull : ∀ b, full b = decide (n < b.length))
    (pieces : List (List β)) (hpieces : ∀ piece ∈ pieces, piece.length ≤ m) :
    ∀ held, held.length ≤ n → n < (held ++ pieces.flatten).length →
      (∀ b, b <+: held ++ pieces.flatten → b.length ≤ n + m → ask b = none) →
      gather ask full held pieces = .tooMuch := by
  induction pieces with
  | nil =>
    intro held hheld hlong _
    rw [List.flatten_nil, List.append_nil] at hlong
    omega
  | cons piece rest ih =>
    intro held hheld hlong hopen
    have hask : ask held = none := hopen held ⟨_, rfl⟩ (by omega)
    rw [gather_more _ _ hask (by rw [hfull]; simpa using hheld)]
    rw [List.flatten_cons, ← List.append_assoc] at hlong hopen
    have hpiece := hpieces piece List.mem_cons_self
    by_cases hover : (held ++ piece).length ≤ n
    · exact ih (fun q hq => hpieces q (List.mem_cons_of_mem _ hq)) _ hover hlong hopen
    · have hnone : ask (held ++ piece) = none :=
        hopen _ ⟨_, rfl⟩ (by rw [List.length_append]; omega)
      exact gather_full_now _ hnone (by rw [hfull]; simpa using hover)

end Gathering
