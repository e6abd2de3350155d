import CacheWarden.Lib.Wire

/-!
# Multiple precision integers on the wire

An `mpint` is a string that holds an integer in two's complement, the most
significant byte first, with no byte in front that says nothing; zero is the
empty string. What makes one unique is that the digits of a number without
leading zeros are.
-/

set_option autoImplicit false

namespace Mpint

open Wire

/-- The two's complement value of the bytes. -/
def signedValue (bytes : List UInt8) : ℤ :=
  match bytes with
  | [] => 0
  | b :: _ =>
    if 128 ≤ b.toNat then (ofBe bytes : ℤ) - 256 ^ bytes.length else ofBe bytes

/-- No leading byte only repeats the sign. -/
def Minimal : List UInt8 → Prop
  | [] => True
  | [b] => b ≠ 0
  | b :: b' :: _ => (b = 0 → 128 ≤ b'.toNat) ∧ (b = 255 → b'.toNat < 128)

/-- The wire is the one `mpint` and nothing else. A string's length is a word of
32 bits. -/
def Encodes (wire : List UInt8) (n : ℤ) : Prop :=
  ∃ payload, wire = beBytes 4 payload.length ++ payload ∧ payload.length < 2 ^ 32 ∧
    Minimal payload ∧ signedValue payload = n

section Digits

/-- The bytes from the first that is not zero. -/
def significant (bytes : List UInt8) : List UInt8 := bytes.dropWhile (· = 0)

/-- Nothing, or a digit that counts in front. -/
def Leading (bytes : List UInt8) : Prop := ∀ b ∈ bytes.head?, b ≠ 0

theorem ofBe_zero_cons (bytes : List UInt8) : ofBe (0 :: bytes) = ofBe bytes := by
  rw [ofBe_cons]
  simp

theorem significant_cons_zero (bytes : List UInt8) :
    significant (0 :: bytes) = significant bytes := by
  simp [significant]

theorem significant_of_leading {bytes : List UInt8} (h : Leading bytes) :
    significant bytes = bytes := by
  cases bytes with
  | nil => rfl
  | cons b bytes =>
    have hb : b ≠ 0 := h b rfl
    simp [significant, hb]

theorem leading_significant (bytes : List UInt8) : Leading (significant bytes) := by
  induction bytes with
  | nil =>
    intro b hb
    cases hb
  | cons b bytes ih =>
    by_cases hzero : b = 0
    · rw [hzero, significant_cons_zero]
      exact ih
    · intro b' hb'
      simp [significant, hzero] at hb'
      rw [← hb']
      exact hzero

@[simp] theorem ofBe_significant (bytes : List UInt8) : ofBe (significant bytes) = ofBe bytes := by
  induction bytes with
  | nil => rfl
  | cons b bytes ih =>
    by_cases hzero : b = 0
    · rw [hzero, significant_cons_zero, ofBe_zero_cons, ih]
    · rw [significant_of_leading]
      intro b' hb'
      cases hb'
      exact hzero

theorem significant_length_le (bytes : List UInt8) : (significant bytes).length ≤ bytes.length :=
  (List.dropWhile_sublist _).length_le

theorem pow_le_ofBe {bytes : List UInt8} (h : Leading bytes) (hne : bytes ≠ []) :
    256 ^ (bytes.length - 1) ≤ ofBe bytes := by
  cases bytes with
  | nil => exact absurd rfl hne
  | cons b bytes =>
    have hb : b ≠ 0 := h b rfl
    have hpos : 1 ≤ b.toNat := by
      rw [Nat.one_le_iff_ne_zero]
      intro hzero
      exact hb (UInt8.toNat_inj.mp hzero)
    have hmul : 1 * 256 ^ bytes.length ≤ b.toNat * 256 ^ bytes.length :=
      Nat.mul_le_mul_right _ hpos
    rw [ofBe_cons, List.length_cons, Nat.add_sub_cancel]
    omega

/-- The number of digits says how large a number is. -/
theorem length_le_iff {bytes : List UInt8} (h : Leading bytes) (width : ℕ) :
    bytes.length ≤ width ↔ ofBe bytes < 256 ^ width := by
  constructor
  · intro hle
    exact Nat.lt_of_lt_of_le (ofBe_lt bytes) (Nat.pow_le_pow_right (by omega) hle)
  · intro hlt
    by_contra hlong
    have hne : bytes ≠ [] := by
      intro hnil
      rw [hnil] at hlong
      exact hlong (Nat.zero_le width)
    have hpow : 256 ^ width ≤ 256 ^ (bytes.length - 1) :=
      Nat.pow_le_pow_right (by omega) (by omega)
    have hlow := pow_le_ofBe h hne
    omega

theorem eq_of_ofBe {bytes bytes' : List UInt8} (h : Leading bytes) (h' : Leading bytes')
    (heq : ofBe bytes = ofBe bytes') : bytes = bytes' := by
  have hle : bytes.length ≤ bytes'.length := by
    rw [length_le_iff h, heq]
    exact ofBe_lt bytes'
  have hge : bytes'.length ≤ bytes.length := by
    rw [length_le_iff h', ← heq]
    exact ofBe_lt bytes
  rw [← beBytes_ofBe bytes, ← beBytes_ofBe bytes', heq, Nat.le_antisymm hle hge]

/-- The digits that count are those of the value. -/
theorem significant_eq_iff (bytes bytes' : List UInt8) :
    significant bytes = significant bytes' ↔ ofBe bytes = ofBe bytes' := by
  constructor
  · intro h
    rw [← ofBe_significant bytes, h, ofBe_significant]
  · intro h
    apply eq_of_ofBe (leading_significant bytes) (leading_significant bytes')
    rw [ofBe_significant, ofBe_significant, h]

/-- Zeros in front bring digits to a fixed width. -/
theorem replicate_append_eq {bytes : List UInt8} {width : ℕ} (h : bytes.length ≤ width) :
    List.replicate (width - bytes.length) 0 ++ bytes = beBytes width (ofBe bytes) := by
  have hvalue : ∀ n, ofBe (List.replicate n 0 ++ bytes) = ofBe bytes := by
    intro n
    induction n with
    | zero => rfl
    | succ n ih => rw [List.replicate_succ, List.cons_append, ofBe_zero_cons, ih]
  have hlen : (List.replicate (width - bytes.length) (0 : UInt8) ++ bytes).length = width := by
    rw [List.length_append, List.length_replicate]
    omega
  have hbytes := beBytes_ofBe (List.replicate (width - bytes.length) 0 ++ bytes)
  rw [hlen, hvalue] at hbytes
  exact hbytes.symm

end Digits

/-- The digits of a number, none of them a leading zero. -/
def digits (n : ℕ) : List UInt8 := significant (beBytes n n)

@[simp] theorem ofBe_digits (n : ℕ) : ofBe (digits n) = n := by
  unfold digits
  rw [ofBe_significant]
  exact ofBe_beBytes_of_lt (Nat.lt_pow_self (by omega))

section Signs

/-- The top bit of the first byte is taken. -/
def signBit (bytes : List UInt8) : Bool := bytes.head?.any fun b => 128 ≤ b.toNat

/-- The digits that count, behind a zero where the first would read as a sign. -/
def payload (bytes : List UInt8) : List UInt8 :=
  if signBit (significant bytes) then 0 :: significant bytes else significant bytes

theorem signedValue_of_signBit {bytes : List UInt8} (h : signBit bytes = false) :
    signedValue bytes = ofBe bytes := by
  cases bytes with
  | nil => rfl
  | cons b bytes =>
    have hb : ¬ 128 ≤ b.toNat := by simpa [signBit] using h
    unfold signedValue
    simp only
    rw [if_neg hb]

theorem signedValue_neg {bytes : List UInt8} (h : signBit bytes = true) :
    signedValue bytes < 0 := by
  cases bytes with
  | nil => cases h
  | cons b bytes =>
    have hb : 128 ≤ b.toNat := by simpa [signBit] using h
    have hlt : (ofBe (b :: bytes) : ℤ) < 256 ^ (b :: bytes).length := by
      exact_mod_cast ofBe_lt (b :: bytes)
    unfold signedValue
    simp only
    rw [if_pos hb]
    omega

theorem signBit_zero_cons (bytes : List UInt8) : signBit (0 :: bytes) = false := by
  simp [signBit]

theorem signBit_payload (bytes : List UInt8) : signBit (payload bytes) = false := by
  unfold payload
  split
  · exact signBit_zero_cons _
  · simpa using ‹¬ signBit (significant bytes) = true›

@[simp] theorem ofBe_payload (bytes : List UInt8) : ofBe (payload bytes) = ofBe bytes := by
  unfold payload
  split
  · rw [ofBe_zero_cons, ofBe_significant]
  · exact ofBe_significant bytes

theorem payload_length_le (bytes : List UInt8) : (payload bytes).length ≤ bytes.length + 1 := by
  have hle := significant_length_le bytes
  unfold payload
  split
  · rw [List.length_cons]
    omega
  · omega

theorem signedValue_payload (bytes : List UInt8) : signedValue (payload bytes) = ofBe bytes := by
  rw [signedValue_of_signBit (signBit_payload bytes), ofBe_payload]

theorem minimal_of_leading {bytes : List UInt8} (h : Leading bytes)
    (hsign : signBit bytes = false) : Minimal bytes := by
  cases bytes with
  | nil => trivial
  | cons b bytes =>
    have hb : b ≠ 0 := h b rfl
    have hlow : ¬ 128 ≤ b.toNat := by simpa [signBit] using hsign
    cases bytes with
    | nil => exact hb
    | cons b' bytes =>
      refine ⟨fun hzero => absurd hzero hb, fun hones => ?_⟩
      rw [hones] at hlow
      exact absurd (by decide) hlow

theorem minimal_payload (bytes : List UInt8) : Minimal (payload bytes) := by
  have hleading := leading_significant bytes
  unfold payload
  split
  · rename_i hsign
    cases hdigits : significant bytes with
    | nil =>
      rw [hdigits] at hsign
      cases hsign
    | cons b rest =>
      rw [hdigits] at hsign
      refine ⟨fun _ => by simpa [signBit] using hsign, fun hones => ?_⟩
      exact absurd hones (by decide)
  · exact minimal_of_leading hleading (by simpa using ‹¬ signBit (significant bytes) = true›)

/-- A minimal form of a number that is not negative has the digits that count, and
a zero in front of them exactly where they need one. -/
theorem eq_payload {bytes : List UInt8} (hmin : Minimal bytes) (hsign : signBit bytes = false) :
    bytes = payload bytes := by
  cases bytes with
  | nil => rfl
  | cons b bytes =>
    by_cases hzero : b = 0
    · subst hzero
      cases bytes with
      | nil => exact absurd rfl hmin
      | cons b' rest =>
        have hhigh : 128 ≤ b'.toNat := hmin.1 rfl
        have hleading : Leading (b' :: rest) := by
          intro b hb hnull
          cases hb
          rw [hnull] at hhigh
          exact absurd hhigh (by decide)
        unfold payload
        rw [significant_cons_zero, significant_of_leading hleading,
          if_pos (by simpa [signBit] using hhigh)]
    · have hleading : Leading (b :: bytes) := by
        intro b' hb'
        cases hb'
        exact hzero
      unfold payload
      rw [significant_of_leading hleading, if_neg (by simp [hsign])]

/-- Two byte strings have one payload exactly when they have one value. -/
theorem payload_eq_iff (bytes bytes' : List UInt8) :
    payload bytes = payload bytes' ↔ ofBe bytes = ofBe bytes' := by
  constructor
  · intro h
    rw [← ofBe_payload bytes, h, ofBe_payload]
  · intro h
    unfold payload
    rw [(significant_eq_iff bytes bytes').mpr h]

theorem signBit_of_nonneg {bytes : List UInt8} (h : 0 ≤ signedValue bytes) :
    signBit bytes = false := by
  by_contra hsign
  have hneg := signedValue_neg (Bool.not_eq_false _ ▸ hsign)
  omega

/-- The one `mpint` of a number that is not negative, where there is one. -/
theorem encodes_iff (wire bytes : List UInt8) :
    Encodes wire (ofBe bytes) ↔
      wire = beBytes 4 (payload bytes).length ++ payload bytes ∧ (payload bytes).length < 2 ^ 32 := by
  constructor
  · rintro ⟨p, hwire, hlen, hmin, hvalue⟩
    have hsign : signBit p = false := signBit_of_nonneg (by omega)
    have hp : p = payload bytes := by
      rw [signedValue_of_signBit hsign] at hvalue
      rw [eq_payload hmin hsign, payload_eq_iff]
      exact_mod_cast hvalue
    rw [← hp]
    exact ⟨hwire, hlen⟩
  · rintro ⟨hwire, hlen⟩
    exact ⟨payload bytes, hwire, hlen, minimal_payload bytes, signedValue_payload bytes⟩

end Signs

end Mpint
