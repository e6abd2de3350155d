import CacheWarden.Lib.Wire

/-!
# A byte stream that arrives in pieces

The bytes of a peer come in pieces of any size, an empty one being no arrival.
A read of `n` bytes goes on from piece to piece until it has them or the stream
ends, and takes what a cursor over all the bytes would take.
-/

set_option autoImplicit false

namespace Arrivals

abbrev Stream := List (List UInt8)

/-- The reads of one buffer of `n` bytes, until it is full or the stream ends. -/
def fill (n : ℕ) : Stream → List UInt8 × Stream
  | [] => ([], [])
  | piece :: rest =>
    if n ≤ piece.length then (piece.take n, piece.drop n :: rest)
    else
      let more := fill (n - piece.length) rest
      (piece ++ more.1, more.2)

/-- `read_exact`, with `none` for a stream that ends first. -/
def readExact (n : ℕ) (stream : Stream) : Option (List UInt8) × Stream :=
  let filled := fill n stream
  (if filled.1.length < n then none else some filled.1, filled.2)

theorem fill_bytes (n : ℕ) (stream : Stream) :
    (fill n stream).1 = stream.flatten.take n ∧
      (fill n stream).2.flatten = stream.flatten.drop n := by
  induction stream generalizing n with
  | nil => simp [fill]
  | cons piece rest ih =>
    unfold fill
    by_cases hn : n ≤ piece.length
    · rw [if_pos hn, List.flatten_cons, List.take_append_of_le_length hn,
        List.drop_append_of_le_length hn]
      exact ⟨rfl, rfl⟩
    · obtain ⟨htake, hdrop⟩ := ih (n - piece.length)
      have hle : piece.length ≤ n := by omega
      rw [if_neg hn, List.flatten_cons, List.take_append, List.drop_append,
        List.take_of_length_le hle, List.drop_of_length_le hle]
      exact ⟨congrArg (piece ++ ·) htake, hdrop⟩

variable {n : ℕ} {stream : Stream}

theorem readExact_append {head tail : List UInt8} (h : stream.flatten = head ++ tail)
    (hlength : head.length = n) :
    (readExact n stream).1 = some head ∧ (readExact n stream).2.flatten = tail := by
  obtain ⟨htake, hdrop⟩ := fill_bytes n stream
  have hhead : (fill n stream).1 = head := by
    rw [htake, h, ← hlength, List.take_left]
  unfold readExact
  simp only [hhead]
  rw [if_neg (by omega), hdrop, h, ← hlength, List.drop_left]
  exact ⟨rfl, rfl⟩

theorem readExact_short (h : stream.flatten.length < n) :
    (readExact n stream).1 = none ∧ (readExact n stream).2.flatten = [] := by
  obtain ⟨htake, hdrop⟩ := fill_bytes n stream
  unfold readExact
  simp only [htake, hdrop]
  rw [List.take_of_length_le (by omega), if_pos h, List.drop_of_length_le (by omega)]
  exact ⟨rfl, rfl⟩

/-- However the bytes are cut, a read takes what a cursor would take. -/
theorem readExact_cases (n : ℕ) (stream : Stream) :
    (∃ head, (readExact n stream).1 = some head ∧ head.length = n ∧
      stream.flatten = head ++ (readExact n stream).2.flatten) ∨
    ((readExact n stream).1 = none ∧ stream.flatten.length < n ∧
      (readExact n stream).2.flatten = []) := by
  by_cases hshort : stream.flatten.length < n
  · obtain ⟨hnone, hrest⟩ := readExact_short hshort
    exact Or.inr ⟨hnone, hshort, hrest⟩
  · have hlength : (stream.flatten.take n).length = n := by
      rw [List.length_take]
      omega
    obtain ⟨hsome, hrest⟩ := readExact_append (List.take_append_drop n stream.flatten).symm hlength
    refine Or.inl ⟨stream.flatten.take n, hsome, hlength, ?_⟩
    rw [hrest, List.take_append_drop]

end Arrivals
