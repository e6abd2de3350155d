import CacheWarden.Lib.Wire

/-!
# Readers over a cursor, and the encodings they undo

A reader takes a value off the front of a cursor or fails. `Reads` says that it
takes exactly the given bytes; `Canonical` that whatever it accepts is the
encoding of what it returns. Both compose along the sequence of a reader.
-/

set_option autoImplicit false

namespace Wire

abbrev Reader (ε α : Type) := StateT (List UInt8) (Except ε) α

namespace Reader

variable {ε α β : Type}

theorem run_bind_ok {r : Reader ε α} {f : α → Reader ε β} {cursor rest : List UInt8} {b : β} :
    (r >>= f).run cursor = .ok (b, rest) ↔
      ∃ a mid, r.run cursor = .ok (a, mid) ∧ (f a).run mid = .ok (b, rest) := by
  rw [StateT.run_bind]
  rcases r.run cursor with e | ⟨a, mid⟩
  · simp [bind, Except.bind]
  · simp [bind, Except.bind]

theorem run_pure_ok {a b : α} {cursor rest : List UInt8} :
    (pure a : Reader ε α).run cursor = .ok (b, rest) ↔ a = b ∧ cursor = rest := by
  rw [StateT.run_pure]
  simp [pure, Except.pure]

/-- The reader takes `bytes`, whatever follows them, and returns `a`. -/
def Reads (r : Reader ε α) (bytes : List UInt8) (a : α) : Prop :=
  ∀ rest, r.run (bytes ++ rest) = .ok (a, rest)

theorem reads_pure (a : α) : Reads (pure a : Reader ε α) [] a := fun _ => rfl

theorem reads_bind {r : Reader ε α} {f : α → Reader ε β} {bytes bytes' : List UInt8} {a : α} {b : β}
    (h : Reads r bytes a) (h' : Reads (f a) bytes' b) : Reads (r >>= f) (bytes ++ bytes') b := by
  intro rest
  rw [run_bind_ok]
  exact ⟨a, bytes' ++ rest, by rw [List.append_assoc]; exact h _, h' rest⟩

theorem reads_of_pure_bind {r : Reader ε α} {f : α → β} {bytes : List UInt8} {a : α}
    (h : Reads r bytes a) : Reads (r >>= fun x => pure (f x)) bytes (f a) := by
  have hb := reads_bind (f := fun x => pure (f x)) h (reads_pure (f a))
  rwa [List.append_nil] at hb

/-- What the reader accepts is the encoding of what it returns, and meets `p`. -/
def Canonical (r : Reader ε α) (encode : α → List UInt8) (p : α → Prop) : Prop :=
  ∀ cursor a rest, r.run cursor = .ok (a, rest) → cursor = encode a ++ rest ∧ p a

/-- A check that takes nothing off the cursor. -/
def ofExcept (x : Except ε α) : Reader ε α := fun cursor =>
  match x with
  | .error e => .error e
  | .ok a => .ok (a, cursor)

theorem run_ofExcept_ok {x : Except ε α} {cursor rest : List UInt8} {a : α} :
    (ofExcept x).run cursor = .ok (a, rest) ↔ x = .ok a ∧ cursor = rest := by
  unfold ofExcept StateT.run
  cases x <;> simp

theorem reads_ofExcept {x : Except ε α} {a : α} (h : x = .ok a) : Reads (ofExcept x) [] a := by
  intro rest
  rw [run_ofExcept_ok]
  exact ⟨h, rfl⟩

/-- A sequence whose first reader takes nothing. -/
theorem reads_bind_nil {r : Reader ε α} {f : α → Reader ε β} {bytes : List UInt8} {a : α} {b : β}
    (h : Reads r [] a) (h' : Reads (f a) bytes b) : Reads (r >>= f) bytes b :=
  reads_bind h h'

/-- Take `n` bytes, or fail with `e`. -/
def bytes (e : ε) (n : ℕ) : Reader ε (List UInt8) := fun cursor =>
  match take n cursor with
  | none => .error e
  | some taken => .ok taken

theorem run_bytes_ok {e : ε} {n : ℕ} {cursor head rest : List UInt8} :
    (bytes e n).run cursor = .ok (head, rest) ↔ cursor = head ++ rest ∧ head.length = n := by
  simp only [bytes, StateT.run]
  constructor
  · intro h
    split at h
    · cases h
    · rename_i taken htake
      cases h
      exact take_some htake
  · rintro ⟨rfl, hlen⟩
    rw [take_append hlen]

theorem reads_bytes (e : ε) {n : ℕ} {head : List UInt8} (h : head.length = n) :
    Reads (bytes e n) head head := by
  intro rest
  rw [run_bytes_ok]
  exact ⟨rfl, h⟩

/-- Read `n` values in a row. -/
def replicate (r : Reader ε α) : ℕ → Reader ε (List α)
  | 0 => pure []
  | n + 1 => do
    let a ← r
    let as ← replicate r n
    return a :: as

theorem reads_replicate {r : Reader ε α} {encode : α → List UInt8} {as : List α}
    (h : ∀ a ∈ as, Reads r (encode a) a) :
    Reads (replicate r as.length) (as.flatMap encode) as := by
  induction as with
  | nil => exact reads_pure []
  | cons a as ih =>
    have htail := ih fun b hb => h b (by simp [hb])
    exact reads_bind (h a (by simp)) (reads_of_pure_bind htail)

theorem canonical_replicate {r : Reader ε α} {encode : α → List UInt8} {p : α → Prop}
    (h : Canonical r encode p) (n : ℕ) :
    Canonical (replicate r n) (·.flatMap encode) fun as => as.length = n ∧ ∀ a ∈ as, p a := by
  induction n with
  | zero =>
    intro cursor as rest hrun
    obtain ⟨rfl, rfl⟩ := run_pure_ok.mp hrun
    simp
  | succ n ih =>
    intro cursor as rest hrun
    obtain ⟨a, mid, ha, hrest⟩ := run_bind_ok.mp hrun
    obtain ⟨as', mid', has, hpure⟩ := run_bind_ok.mp hrest
    obtain ⟨rfl, rfl⟩ := run_pure_ok.mp hpure
    obtain ⟨rfl, hpa⟩ := h _ _ _ ha
    obtain ⟨rfl, hlen, hpas⟩ := ih _ _ _ has
    refine ⟨by simp, by simp [hlen], ?_⟩
    intro b hb
    rcases List.mem_cons.mp hb with rfl | hb
    · exact hpa
    · exact hpas b hb

end Reader

end Wire
