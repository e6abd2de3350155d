import Mathlib.Tactic.Common
import Mathlib.Tactic.Ring

/-!
# Big-endian words and length-prefixed fields

A reader is a cursor over the bytes left. Each writer is proved to be undone
by its reader, with whatever follows left on the cursor.
-/

set_option autoImplicit false

namespace Wire

/-- The low `width` bytes of `n`, most significant first. -/
def beBytes : ℕ → ℕ → List UInt8
  | 0, _ => []
  | width + 1, n => UInt8.ofNat (n / 256 ^ width) :: beBytes width n

def ofBe (bytes : List UInt8) : ℕ :=
  bytes.foldl (fun acc b => acc * 256 + b.toNat) 0

@[simp] theorem length_beBytes (width n : ℕ) : (beBytes width n).length = width := by
  induction width with
  | zero => rfl
  | succ width ih => simp [beBytes, ih]

theorem foldl_beBytes (width n acc : ℕ) :
    (beBytes width n).foldl (fun acc b => acc * 256 + b.toNat) acc =
      acc * 256 ^ width + n % 256 ^ width := by
  induction width generalizing acc with
  | zero => simp [beBytes, Nat.mod_one]
  | succ width ih =>
    have hbyte : (UInt8.ofNat (n / 256 ^ width)).toNat = n / 256 ^ width % 256 := by
      simp [UInt8.toNat_ofNat']
    have hsplit : n % 256 ^ (width + 1) = 256 ^ width * (n / 256 ^ width % 256) + n % 256 ^ width := by
      rw [pow_succ, Nat.mod_mul, Nat.add_comm]
    rw [beBytes, List.foldl_cons, ih, hbyte, hsplit]
    ring

theorem ofBe_beBytes (width n : ℕ) : ofBe (beBytes width n) = n % 256 ^ width := by
  rw [ofBe, foldl_beBytes]
  simp

theorem ofBe_beBytes_of_lt {width n : ℕ} (h : n < 256 ^ width) : ofBe (beBytes width n) = n := by
  rw [ofBe_beBytes, Nat.mod_eq_of_lt h]

/-- A word in front of other bytes can be read off. -/
theorem beBytes_append_inj {width m n : ℕ} {bytes bytes' : List UInt8} (hm : m < 256 ^ width)
    (hn : n < 256 ^ width) (h : beBytes width m ++ bytes = beBytes width n ++ bytes') :
    m = n ∧ bytes = bytes' := by
  obtain ⟨hword, hrest⟩ := List.append_inj h (by rw [length_beBytes, length_beBytes])
  refine ⟨?_, hrest⟩
  rw [← ofBe_beBytes_of_lt hm, hword, ofBe_beBytes_of_lt hn]

theorem foldl_eq_add (bytes : List UInt8) (acc : ℕ) :
    bytes.foldl (fun acc b => acc * 256 + b.toNat) acc = acc * 256 ^ bytes.length + ofBe bytes := by
  induction bytes generalizing acc with
  | nil => simp [ofBe]
  | cons b bytes ih =>
    have hzero : ofBe (b :: bytes) = b.toNat * 256 ^ bytes.length + ofBe bytes := by
      rw [ofBe, List.foldl_cons, ih]
      ring
    rw [List.foldl_cons, ih, hzero, List.length_cons]
    ring

theorem ofBe_cons (b : UInt8) (bytes : List UInt8) :
    ofBe (b :: bytes) = b.toNat * 256 ^ bytes.length + ofBe bytes := by
  rw [ofBe, List.foldl_cons, foldl_eq_add]
  ring

theorem ofBe_lt (bytes : List UInt8) : ofBe bytes < 256 ^ bytes.length := by
  induction bytes with
  | nil => simp [ofBe]
  | cons b bytes ih =>
    have hb : b.toNat < 256 := b.toNat_lt
    have hmul : b.toNat * 256 ^ bytes.length ≤ 255 * 256 ^ bytes.length :=
      Nat.mul_le_mul_right _ (by omega)
    rw [ofBe_cons, List.length_cons, pow_succ]
    omega

/-- Only the low bytes of a number are written. -/
theorem beBytes_mul_add (width b m : ℕ) :
    beBytes width (b * 256 ^ width + m) = beBytes width m := by
  induction width generalizing b with
  | zero => rfl
  | succ width ih =>
    have hpow : 0 < 256 ^ width := Nat.pow_pos (by omega)
    have hsplit : b * 256 ^ (width + 1) + m = b * 256 * 256 ^ width + m := by ring
    have hdiv : (b * 256 * 256 ^ width + m) / 256 ^ width = b * 256 + m / 256 ^ width := by
      rw [Nat.add_comm, Nat.add_mul_div_right _ _ hpow, Nat.add_comm]
    rw [beBytes, beBytes, hsplit, ih, hdiv]
    congr 1
    apply UInt8.toNat_inj.mp
    simp only [UInt8.toNat_ofNat']
    omega

theorem beBytes_ofBe (bytes : List UInt8) : beBytes bytes.length (ofBe bytes) = bytes := by
  induction bytes with
  | nil => rfl
  | cons b bytes ih =>
    have hpow : 0 < 256 ^ bytes.length := Nat.pow_pos (by omega)
    have hhead : ofBe (b :: bytes) / 256 ^ bytes.length = b.toNat := by
      rw [ofBe_cons, Nat.add_comm, Nat.add_mul_div_right _ _ hpow, Nat.div_eq_of_lt (ofBe_lt bytes),
        Nat.zero_add]
    rw [List.length_cons, beBytes, hhead, UInt8.ofNat_toNat, ofBe_cons, beBytes_mul_add, ih]

/-- Take `n` bytes off the cursor. -/
def take (n : ℕ) (cursor : List UInt8) : Option (List UInt8 × List UInt8) :=
  if cursor.length < n then none else some (cursor.splitAt n)

theorem take_append {n : ℕ} {bytes : List UInt8} (h : bytes.length = n) (rest : List UInt8) :
    take n (bytes ++ rest) = some (bytes, rest) := by
  subst h
  simp [take, List.splitAt_eq]

theorem take_some {n : ℕ} {cursor head tail : List UInt8} (h : take n cursor = some (head, tail)) :
    cursor = head ++ tail ∧ head.length = n := by
  unfold take at h
  split at h
  · cases h
  · rename_i hlen
    rw [List.splitAt_eq, Option.some.injEq, Prod.mk.injEq] at h
    obtain ⟨rfl, rfl⟩ := h
    exact ⟨(List.take_append_drop n cursor).symm, by rw [List.length_take]; omega⟩

theorem take_beBytes (width n : ℕ) (rest : List UInt8) :
    take width (beBytes width n ++ rest) = some (beBytes width n, rest) :=
  take_append (length_beBytes width n) rest

end Wire
