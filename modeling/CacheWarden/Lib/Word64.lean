import Mathlib.Data.UInt

/-!
# Saturating and truncating 64-bit arithmetic

The unsigned words of the source are `UInt64`. Its `+` wraps, as the source's
does in a release build; the saturating operations are defined here, each with
the natural number it denotes.
-/

set_option autoImplicit false

namespace Word64

def maxValue : UInt64 := 0xFFFFFFFFFFFFFFFF

def saturatingAdd (a b : UInt64) : UInt64 :=
  if a + b < a then maxValue else a + b

def saturatingSub (a b : UInt64) : UInt64 :=
  if a < b then 0 else a - b

/-- A wider count narrowed to 64 bits, clamped at the largest word. -/
def ofNatSaturating (n : ℕ) : UInt64 :=
  if n < 2 ^ 64 then UInt64.ofNat n else maxValue

def saturatingMul (a b : UInt64) : UInt64 := ofNatSaturating (a.toNat * b.toNat)

theorem toNat_lt (a : UInt64) : a.toNat < 18446744073709551616 := UInt64.toNat_lt a

@[simp] theorem toNat_maxValue : maxValue.toNat = 18446744073709551615 := rfl

theorem toNat_saturatingAdd (a b : UInt64) :
    (saturatingAdd a b).toNat = min (a.toNat + b.toNat) 18446744073709551615 := by
  have ha := toNat_lt a
  have hb := toNat_lt b
  have hsum : (a + b).toNat = (a.toNat + b.toNat) % 18446744073709551616 := UInt64.toNat_add a b
  unfold saturatingAdd
  split
  · rename_i h
    rw [UInt64.lt_iff_toNat_lt] at h
    rw [toNat_maxValue]
    omega
  · rename_i h
    rw [UInt64.lt_iff_toNat_lt] at h
    omega

theorem toNat_sub_of_le {a b : UInt64} (h : b.toNat ≤ a.toNat) :
    (a - b).toNat = a.toNat - b.toNat :=
  UInt64.toNat_sub_of_le _ _ (UInt64.le_iff_toNat_le.mpr h)

theorem toNat_saturatingSub (a b : UInt64) :
    (saturatingSub a b).toNat = a.toNat - b.toNat := by
  unfold saturatingSub
  split
  · rename_i h
    rw [UInt64.lt_iff_toNat_lt] at h
    simp only [UInt64.toNat_zero]
    omega
  · rename_i h
    rw [UInt64.lt_iff_toNat_lt] at h
    exact toNat_sub_of_le (by omega)

theorem toNat_ofNatSaturating (n : ℕ) :
    (ofNatSaturating n).toNat = min n 18446744073709551615 := by
  unfold ofNatSaturating
  split
  · rename_i h
    rw [UInt64.toNat_ofNat_of_lt' h]
    omega
  · rw [toNat_maxValue]
    omega

theorem toNat_ofNat (n : ℕ) : (UInt64.ofNat n).toNat = n % 18446744073709551616 :=
  UInt64.toNat_ofNat'

theorem lt_saturatingAdd_one {a : UInt64} (h : a < maxValue) : a < saturatingAdd a 1 := by
  rw [UInt64.lt_iff_toNat_lt, toNat_maxValue] at h
  rw [UInt64.lt_iff_toNat_lt, toNat_saturatingAdd]
  simp only [UInt64.toNat_one]
  omega

theorem le_saturatingAdd (a b : UInt64) : a ≤ saturatingAdd a b := by
  have ha := toNat_lt a
  rw [UInt64.le_iff_toNat_le, toNat_saturatingAdd]
  omega

theorem left_le_max (a b : UInt64) : a ≤ max a b := by
  rw [UInt64.le_iff_toNat_le]
  have h : max a b = if a ≤ b then b else a := rfl
  rw [h]
  split
  · rename_i hle
    exact UInt64.le_iff_toNat_le.mp hle
  · exact Nat.le_refl _

theorem right_le_max (a b : UInt64) : b ≤ max a b := by
  have h : max a b = if a ≤ b then b else a := rfl
  rw [h]
  split
  · exact UInt64.le_refl b
  · rename_i hlt
    exact UInt64.le_of_lt (UInt64.not_le.mp hlt)

theorem max_eq_of_le {a b : UInt64} (h : a ≤ b) : max a b = b := if_pos h

end Word64
