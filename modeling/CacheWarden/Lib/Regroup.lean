import Mathlib.Data.List.Induction
import Mathlib.Data.Nat.Digits.Defs
import Mathlib.Tactic.Ring

/-!
# Regrouping bits

Digits of `k` bits are taken into a word one by one, and a digit of `m` bits is
taken out whenever the word holds as many. The bits not yet taken out are the low
bits of the word; those above them are left over and count for nothing.
-/

set_option autoImplicit false

namespace Regroup

/-- The number that digits of `k` bits stand for, the most significant first. -/
def value (k : ℕ) (digits : List ℕ) : ℕ := digits.foldl (fun n d => n * 2 ^ k + d) 0

@[simp] theorem value_nil (k : ℕ) : value k [] = 0 := rfl

@[simp] theorem value_append_singleton (k : ℕ) (digits : List ℕ) (d : ℕ) :
    value k (digits ++ [d]) = value k digits * 2 ^ k + d := by
  rw [value, value, List.foldl_append]
  rfl

theorem value_eq_ofDigits (k : ℕ) (digits : List ℕ) :
    value k digits = Nat.ofDigits (2 ^ k) digits.reverse := by
  induction digits using List.reverseRecOn with
  | nil => rfl
  | append_singleton digits d ih =>
    rw [value_append_singleton, ih, List.reverse_append, List.reverse_singleton,
      List.singleton_append, Nat.ofDigits_cons]
    ring

/-- Digits are determined by their number and their count. -/
theorem value_injective {k : ℕ} {a b : List ℕ} (hk : 0 < k) (hlength : a.length = b.length)
    (ha : ∀ d ∈ a, d < 2 ^ k) (hb : ∀ d ∈ b, d < 2 ^ k) (h : value k a = value k b) : a = b := by
  rw [value_eq_ofDigits, value_eq_ofDigits] at h
  have hreverse : a.reverse = b.reverse := by
    apply Nat.ofDigits_inj_of_len_eq (Nat.one_lt_two_pow hk.ne')
    · rw [List.length_reverse, List.length_reverse, hlength]
    · exact fun d hd => ha d (List.mem_reverse.mp hd)
    · exact fun d hd => hb d (List.mem_reverse.mp hd)
    · exact h
  exact List.reverse_inj.mp hreverse

theorem value_lt {k : ℕ} {digits : List ℕ} (h : ∀ d ∈ digits, d < 2 ^ k) :
    value k digits < 2 ^ (k * digits.length) := by
  induction digits using List.reverseRecOn with
  | nil => exact Nat.one_pos
  | append_singleton digits d ih =>
    have hfirst := ih fun e he => h e (List.mem_append_left _ he)
    have hd := h d (List.mem_append_right _ (List.mem_singleton.mpr rfl))
    rw [value_append_singleton, List.length_append, List.length_singleton, Nat.mul_add, pow_add,
      Nat.mul_one]
    calc value k digits * 2 ^ k + d < value k digits * 2 ^ k + 2 ^ k := by omega
      _ = (value k digits + 1) * 2 ^ k := by ring
      _ ≤ 2 ^ (k * digits.length) * 2 ^ k := Nat.mul_le_mul_right _ hfirst

/-- The low `count` digits of a number. -/
def digits (k : ℕ) : ℕ → ℕ → List ℕ
  | 0, _ => []
  | count + 1, n => digits k count (n / 2 ^ k) ++ [n % 2 ^ k]

@[simp] theorem length_digits (k count n : ℕ) : (digits k count n).length = count := by
  induction count generalizing n with
  | zero => rfl
  | succ count ih => rw [digits, List.length_append, ih, List.length_singleton]

theorem digits_lt {k count n : ℕ} : ∀ d ∈ digits k count n, d < 2 ^ k := by
  induction count generalizing n with
  | zero =>
    intro d hd
    cases hd
  | succ count ih =>
    intro d hd
    rcases List.mem_append.mp hd with hd | hd
    · exact ih d hd
    · rw [List.mem_singleton] at hd
      rw [hd]
      exact Nat.mod_lt _ (by positivity)

theorem value_digits {k count n : ℕ} (h : n < 2 ^ (k * count)) :
    value k (digits k count n) = n := by
  induction count generalizing n with
  | zero =>
    rw [Nat.mul_zero, pow_zero, Nat.lt_one_iff] at h
    exact h.symm
  | succ count ih =>
    have hhigh : n / 2 ^ k < 2 ^ (k * count) := by
      apply Nat.div_lt_of_lt_mul
      rw [← pow_add, Nat.add_comm, ← Nat.mul_succ]
      exact h
    rw [digits, value_append_singleton, ih hhigh]
    exact Nat.div_add_mod' n (2 ^ k)

/-- The word has taken in `ds`, given out `out`, and still holds `bits` bits. -/
structure Carries (k m : ℕ) (ds : List ℕ) (acc bits : ℕ) (out : List ℕ) : Prop where
  value_eq : value k ds = value m out * 2 ^ bits + acc % 2 ^ bits
  length_eq : k * ds.length = m * out.length + bits
  digit : ∀ d ∈ out, d < 2 ^ m

section Carries

variable {k m w : ℕ} {ds out : List ℕ} {acc bits d : ℕ}

theorem carries_start (k m : ℕ) : Carries k m [] 0 0 [] where
  value_eq := by simp [Nat.mod_one]
  length_eq := rfl
  digit _ hd := by cases hd

/-- The shift keeps the bits that are still held as long as the word has room. -/
theorem Carries.push (h : Carries k m ds acc bits out) (hd : d < 2 ^ k) (hw : bits + k ≤ w) :
    Carries k m (ds ++ [d]) ((acc <<< k ||| d) % 2 ^ w) (bits + k) out where
  value_eq := by
    have hmod : (acc * 2 ^ k + d) % 2 ^ (bits + k) = acc % 2 ^ bits * 2 ^ k + d := by
      have hlow : (acc * 2 ^ k + d) % 2 ^ k = d := by
        rw [Nat.mul_add_mod_self_right, Nat.mod_eq_of_lt hd]
      have hhigh : (acc * 2 ^ k + d) / 2 ^ k = acc := by
        rw [Nat.mul_comm, Nat.mul_add_div (by positivity), Nat.div_eq_of_lt hd, Nat.add_zero]
      rw [Nat.add_comm bits k, pow_add, Nat.mod_mul, hlow, hhigh]
      ring
    rw [← Nat.shiftLeft_add_eq_or_of_lt hd, Nat.shiftLeft_eq,
      Nat.mod_mod_of_dvd _ (pow_dvd_pow 2 hw), hmod, value_append_singleton, h.value_eq, pow_add]
    ring
  length_eq := by
    rw [List.length_append, List.length_singleton, Nat.mul_add, h.length_eq]
    ring
  digit := h.digit

theorem Carries.emit (h : Carries k m ds acc bits out) (hm : m ≤ bits) :
    Carries k m ds acc (bits - m) (out ++ [(acc >>> (bits - m)) % 2 ^ m]) where
  value_eq := by
    have hsplit : 2 ^ bits = 2 ^ (bits - m) * 2 ^ m := by
      rw [← pow_add, Nat.sub_add_cancel hm]
    rw [value_append_singleton, h.value_eq, hsplit, Nat.mod_mul, Nat.shiftRight_eq_div_pow]
    ring
  length_eq := by
    rw [List.length_append, List.length_singleton, Nat.mul_add, h.length_eq]
    omega
  digit e he := by
    rcases List.mem_append.mp he with he | he
    · exact h.digit e he
    · rw [List.mem_singleton] at he
      rw [he]
      exact Nat.mod_lt _ (by positivity)

/-- What has been given out is the number without the bits still held. -/
theorem Carries.value_out (h : Carries k m ds acc bits out) :
    value m out = value k ds / 2 ^ bits := by
  rw [h.value_eq, Nat.add_comm, Nat.add_mul_div_right _ _ (by positivity),
    Nat.div_eq_of_lt (Nat.mod_lt _ (by positivity)), Nat.zero_add]

theorem Carries.held (h : Carries k m ds acc bits out) :
    acc % 2 ^ bits = value k ds % 2 ^ bits := by
  rw [h.value_eq, Nat.add_comm, Nat.add_mul_mod_self_right, Nat.mod_mod]

/-- Where less than a digit is held, the counts are a quotient and a remainder. -/
theorem Carries.counts (h : Carries k m ds acc bits out) (hbits : bits < m) :
    out.length = k * ds.length / m ∧ bits = k * ds.length % m := by
  have hm : 0 < m := Nat.zero_lt_of_lt hbits
  rw [h.length_eq]
  constructor
  · rw [Nat.mul_add_div hm, Nat.div_eq_of_lt hbits, Nat.add_zero]
  · rw [Nat.mul_add_mod, Nat.mod_eq_of_lt hbits]

end Carries

section Bytes

theorem toNat_lt_of_mem {bytes : List UInt8} {n : ℕ} (h : n ∈ bytes.map UInt8.toNat) :
    n < 2 ^ 8 := by
  obtain ⟨b, -, rfl⟩ := List.mem_map.mp h
  exact b.toNat_lt

theorem map_toNat_ofNat {digits : List ℕ} (h : ∀ d ∈ digits, d < 2 ^ 8) :
    (digits.map UInt8.ofNat).map UInt8.toNat = digits := by
  rw [List.map_map]
  conv_rhs => rw [← List.map_id digits]
  apply List.map_congr_left
  intro d hd
  have hbound := h d hd
  simp only [Function.comp_apply, id_eq, UInt8.toNat_ofNat']
  omega

/-- Bytes are determined by their number and their count. -/
theorem bytes_injective {a b : List UInt8} (hlength : a.length = b.length)
    (h : value 8 (a.map UInt8.toNat) = value 8 (b.map UInt8.toNat)) : a = b := by
  have hmap : a.map UInt8.toNat = b.map UInt8.toNat := by
    apply value_injective (by decide) _ (fun _ => toNat_lt_of_mem) (fun _ => toNat_lt_of_mem) h
    rw [List.length_map, List.length_map, hlength]
  exact (List.map_inj_right fun _ _ => UInt8.toNat_inj.mp).mp hmap

end Bytes

end Regroup
