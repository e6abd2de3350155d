import CacheWarden.Entry
import CacheWarden.Lib.Narrowing
import CacheWarden.Lib.Regroup

/-!
# Base32 secrets

The secret of a one-time password is RFC 4648 base32. Case, white space and
padding are ignored.
-/

set_option autoImplicit false

namespace CacheWarden

namespace Totp

open Narrowing Regroup

def base32Alphabet : List Char := "ABCDEFGHIJKLMNOPQRSTUVWXYZ234567".toList

/-- The characters with the Unicode property White_Space. -/
def whitespace : List Char :=
  ['\u0009', '\u000a', '\u000b', '\u000c', '\u000d', '\u0020', '\u0085', '\u00a0', '\u1680',
    '\u2000', '\u2001', '\u2002', '\u2003', '\u2004', '\u2005', '\u2006', '\u2007', '\u2008',
    '\u2009', '\u200a', '\u2028', '\u2029', '\u202f', '\u205f', '\u3000']

def isWhitespace (c : Char) : Bool := whitespace.contains c

def isSkipped (c : Char) : Bool := c = '=' || isWhitespace c

/-- What the loop of `base32_decode` carries. -/
structure Decoding where
  buf : ℕ
  bits : ℕ
  out : List ℕ
  seen : Bool

/-- One character. The alphabet is an array of bytes, so it is searched for
`c as u8`. -/
def Decoding.take (self : Decoding) (c : Char) : Option Decoding :=
  if isSkipped c then some self
  else
    match bytePosition base32Alphabet c.toUpper with
    | none => none
    | some val =>
      let buf := (self.buf <<< 5 ||| val) % 2 ^ 64
      let bits := self.bits + 5
      if 8 ≤ bits then
        some ⟨buf, bits - 8, self.out ++ [(buf >>> (bits - 8)) % 2 ^ 8], true⟩
      else some ⟨buf, bits, self.out, true⟩

def base32Decode (s : String) : Option Bytes :=
  match s.toList.foldlM Decoding.take ⟨0, 0, [], false⟩ with
  | none => none
  | some decoded => if !decoded.seen then none else some (decoded.out.map UInt8.ofNat)

/-- The value of a digit in either case. -/
def base32Digit (c : Char) : Option ℕ := position base32Alphabet c.toUpper

/-- Whole bytes of the bits that digits stand for. -/
structure LeadingBytes (ds : List ℕ) (out : Bytes) : Prop where
  length_eq : out.length = 5 * ds.length / 8
  value_eq : value 8 (out.map UInt8.toNat) = value 5 ds / 2 ^ (5 * ds.length % 8)

/-- The text is a non-empty sequence of digits, and `out` its bytes. -/
def Encodes (s : String) (out : Bytes) : Prop :=
  ∃ ds, values isSkipped base32Digit s.toList = some ds ∧ ds ≠ [] ∧ LeadingBytes ds out

/-- After padding and white space, a non-empty sequence of digits. -/
def Readable (s : String) : Prop :=
  ∃ ds, values isSkipped base32Digit s.toList = some ds ∧ ds ≠ []

/-- The digits of RFC 4648 for a byte string, zero bits after the last byte. -/
def base32Digits (bytes : Bytes) : List ℕ :=
  let count := (8 * bytes.length + 4) / 5
  digits 5 count (value 8 (bytes.map UInt8.toNat) * 2 ^ (5 * count - 8 * bytes.length))

/-- The encoding of RFC 4648, padded to groups of eight. -/
def base32Encode (bytes : Bytes) : String :=
  let ds := base32Digits bytes
  String.ofList (ds.map (base32Alphabet.getD · '=') ++
    List.replicate ((8 - ds.length % 8) % 8) '=')

/-- A non-ASCII character whose low byte is a digit. -/
def HasMasked (s : String) : Prop := ∃ c ∈ s.toList, Masked base32Alphabet c

def unmasked (s : String) : String := String.ofList (s.toList.map (unmask base32Alphabet))

section Characters

theorem base32Alphabet_ascii : ∀ a ∈ base32Alphabet, a.toNat < 128 :=
  List.all_iff_forall_prop.mp (by decide)

theorem isSkipped_masked {c : Char} (h : Masked base32Alphabet c) : isSkipped c = false := by
  have hall : ∀ w ∈ '=' :: whitespace, ¬ Masked base32Alphabet w :=
    List.all_iff_forall_prop.mp (by decide)
  rw [Bool.eq_false_iff]
  intro hskip
  apply hall c _ h
  unfold isSkipped isWhitespace at hskip
  rw [Bool.or_eq_true, decide_eq_true_eq, List.contains_iff_mem] at hskip
  exact List.mem_cons.mpr hskip

theorem isSkipped_unmask (c : Char) : isSkipped (unmask base32Alphabet c) = isSkipped c := by
  by_cases hmasked : Masked base32Alphabet c
  · have hall : ∀ a ∈ base32Alphabet, isSkipped a = false :=
      List.all_iff_forall_prop.mp (by decide)
    rw [hall _ (unmask_mem base32Alphabet_ascii hmasked), isSkipped_masked hmasked]
  · rw [unmask, if_neg hmasked]

/-- The code reads a character as the digit it is taken for. -/
theorem bytePosition_upper (c : Char) :
    bytePosition base32Alphabet c.toUpper = base32Digit (unmask base32Alphabet c) := by
  unfold base32Digit
  by_cases hc : c.toNat < 128
  · have hplain : ¬ Masked base32Alphabet c := fun h => absurd h.1 (by omega)
    have hupper : c.toUpper.toNat < 128 :=
      ascii_all (P := fun c => c.toUpper.toNat < 128) (by decide) hc
    rw [unmask, if_neg hplain, bytePosition_eq base32Alphabet_ascii hupper]
  · rw [toUpper_of_wide (by omega), ← position_unmask base32Alphabet_ascii]
    by_cases hmasked : Masked base32Alphabet c
    · have hall : ∀ a ∈ base32Alphabet, a.toUpper = a :=
        List.all_iff_forall_prop.mp (by decide)
      rw [hall _ (unmask_mem base32Alphabet_ascii hmasked)]
    · rw [unmask, if_neg hmasked, toUpper_of_wide (by omega)]

theorem values_unmasked (chars : List Char) :
    values isSkipped (fun c => bytePosition base32Alphabet c.toUpper) chars =
      values isSkipped base32Digit (chars.map (unmask base32Alphabet)) :=
  values_map isSkipped_unmask bytePosition_upper chars

theorem bytePosition_lt {c : Char} {d : ℕ} (h : bytePosition base32Alphabet c = some d) :
    d < 2 ^ 5 :=
  (List.findIdx?_eq_some_iff_findIdx_eq.mp h).1

end Characters

section Decode

/-- The loop has read `ds`. -/
structure Decoding.Holds (ds : List ℕ) (decoded : Decoding) : Prop where
  carries : Carries 5 8 ds decoded.buf decoded.bits decoded.out
  bits_lt : decoded.bits < 8
  seen : decoded.seen = !ds.isEmpty

variable {ds es : List ℕ} {decoded : Decoding} {chars : List Char}

theorem Decoding.Holds.take {c : Char} {d : ℕ} (h : decoded.Holds ds) (hskip : isSkipped c = false)
    (hd : bytePosition base32Alphabet c.toUpper = some d) :
    ∃ next, decoded.take c = some next ∧ next.Holds (ds ++ [d]) := by
  have hbits := h.bits_lt
  have hpush := h.carries.push (w := 64) (bytePosition_lt hd) (by omega)
  have hseen : true = !(ds ++ [d]).isEmpty := by simp
  unfold Decoding.take
  rw [hskip, hd]
  simp only [Bool.false_eq_true, if_false]
  by_cases hfull : 8 ≤ decoded.bits + 5
  · rw [if_pos hfull]
    refine ⟨_, rfl, hpush.emit hfull, ?_, hseen⟩
    show decoded.bits + 5 - 8 < 8
    omega
  · rw [if_neg hfull]
    refine ⟨_, rfl, hpush, ?_, hseen⟩
    show decoded.bits + 5 < 8
    omega

theorem Decoding.Holds.run (h : decoded.Holds ds) (chars : List Char) :
    match values isSkipped (fun c => bytePosition base32Alphabet c.toUpper) chars with
    | none => chars.foldlM Decoding.take decoded = none
    | some es => ∃ last, chars.foldlM Decoding.take decoded = some last ∧ last.Holds (ds ++ es) := by
  induction chars generalizing ds decoded with
  | nil =>
    rw [values_nil]
    refine ⟨decoded, rfl, ?_⟩
    rw [List.append_nil]
    exact h
  | cons c rest ih =>
    rw [List.foldlM_cons]
    by_cases hskip : isSkipped c = true
    · have htake : decoded.take c = some decoded := if_pos hskip
      rw [values_cons_skip rest hskip, htake]
      exact ih h
    · rw [Bool.not_eq_true] at hskip
      rw [values_cons rest hskip]
      cases hd : bytePosition base32Alphabet c.toUpper with
      | none =>
        have htake : decoded.take c = none := by
          unfold Decoding.take
          rw [hskip, hd]
          rfl
        rw [htake]
        rfl
      | some d =>
        obtain ⟨next, hnext, hholds⟩ := h.take hskip hd
        have hrest := ih hholds
        rw [hnext, Option.bind_some]
        cases hes : values isSkipped (fun c => bytePosition base32Alphabet c.toUpper) rest with
        | none =>
          rw [hes] at hrest
          exact hrest
        | some es =>
          rw [hes] at hrest
          obtain ⟨last, hlast, hholds⟩ := hrest
          rw [List.append_assoc] at hholds
          exact ⟨last, hlast, hholds⟩

theorem Decoding.Holds.leadingBytes (h : decoded.Holds ds) :
    LeadingBytes ds (decoded.out.map UInt8.ofNat) := by
  have hcounts := h.carries.counts h.bits_lt
  constructor
  · rw [List.length_map]
    exact hcounts.1
  · rw [map_toNat_ofNat h.carries.digit, h.carries.value_out, hcounts.2]

theorem LeadingBytes.unique {a b : Bytes} (ha : LeadingBytes ds a) (hb : LeadingBytes ds b) :
    a = b :=
  bytes_injective (ha.length_eq.trans hb.length_eq.symm) (ha.value_eq.trans hb.value_eq.symm)

/-- What is decoded is what the unmasked text encodes. -/
theorem base32Decode_eq_some_iff (s : String) (out : Bytes) :
    base32Decode s = some out ↔ Encodes (unmasked s) out := by
  have hstart : Decoding.Holds [] ⟨0, 0, [], false⟩ := ⟨carries_start 5 8, by decide, rfl⟩
  have hrun := hstart.run s.toList
  unfold Encodes unmasked
  rw [String.toList_ofList, ← values_unmasked]
  unfold base32Decode
  cases hds : values isSkipped (fun c => bytePosition base32Alphabet c.toUpper) s.toList with
  | none =>
    rw [hds] at hrun
    rw [hrun]
    constructor
    · intro h
      cases h
    · rintro ⟨ds, heq, -⟩
      cases heq
  | some ds =>
    rw [hds] at hrun
    obtain ⟨last, hlast, hholds⟩ := hrun
    rw [List.nil_append] at hholds
    rw [hlast]
    by_cases hempty : ds = []
    · have hseen : last.seen = false := by
        rw [hholds.seen, hempty]
        rfl
      simp only [hseen, Bool.not_false, if_true]
      constructor
      · intro h
        cases h
      · rintro ⟨ds', heq, hne, -⟩
        cases heq
        exact absurd hempty hne
    · have hseen : last.seen = true := by
        rw [hholds.seen, Bool.not_eq_true', List.isEmpty_eq_false_iff]
        exact hempty
      simp only [hseen, Bool.not_true, Bool.false_eq_true, if_false]
      constructor
      · intro h
        cases h
        exact ⟨ds, rfl, hempty, hholds.leadingBytes⟩
      · rintro ⟨ds', heq, -, hout⟩
        cases heq
        rw [hholds.leadingBytes.unique hout]

end Decode

section Language

theorem base32Digit_lt {c : Char} {d : ℕ} (h : base32Digit c = some d) : d < 2 ^ 5 :=
  (List.findIdx?_eq_some_iff_findIdx_eq.mp h).1

theorem exists_leadingBytes {ds : List ℕ} (h : ∀ d ∈ ds, d < 2 ^ 5) :
    ∃ out, LeadingBytes ds out := by
  refine ⟨(digits 8 (5 * ds.length / 8) (value 5 ds / 2 ^ (5 * ds.length % 8))).map UInt8.ofNat,
    ?_, ?_⟩
  · rw [List.length_map, length_digits]
  · rw [map_toNat_ofNat digits_lt, value_digits]
    apply Nat.div_lt_of_lt_mul
    rw [← pow_add, Nat.mod_add_div]
    exact value_lt h

theorem readable_iff (s : String) : Readable s ↔ ∃ out, Encodes s out := by
  constructor
  · rintro ⟨ds, hds, hne⟩
    obtain ⟨out, hout⟩ :=
      exists_leadingBytes (values_all (P := (· < 2 ^ 5)) (fun _ _ => base32Digit_lt) hds)
    exact ⟨out, ds, hds, hne, hout⟩
  · rintro ⟨out, ds, hds, hne, -⟩
    exact ⟨ds, hds, hne⟩

theorem isSome_base32Decode (s : String) : (base32Decode s).isSome = true ↔ Readable (unmasked s) := by
  rw [readable_iff, Option.isSome_iff_exists]
  exact exists_congr fun out => base32Decode_eq_some_iff s out

theorem unmasked_eq {s : String} (h : ¬ HasMasked s) : unmasked s = s := by
  unfold unmasked
  rw [map_unmask fun c hc hmasked => h ⟨c, hc, hmasked⟩, String.ofList_toList]

theorem not_readable_of_masked {s : String} (h : HasMasked s) : ¬ Readable s := by
  obtain ⟨c, hc, hmasked⟩ := h
  rintro ⟨ds, hds, -⟩
  rcases read_of_mem hds hc with hskip | hsome
  · rw [isSkipped_masked hmasked] at hskip
    cases hskip
  · unfold base32Digit at hsome
    rw [toUpper_of_wide hmasked.1, position_of_masked base32Alphabet_ascii hmasked] at hsome
    cases hsome

/-- The digits of an encoding are read back one by one, the padding is skipped. -/
theorem values_base32Encode (bytes : Bytes) :
    values isSkipped base32Digit (base32Encode bytes).toList = some (base32Digits bytes) := by
  have hdigit : ∀ d < 2 ^ 5, values isSkipped base32Digit [base32Alphabet.getD d '='] = some [d] := by
    decide
  have hdigits : ∀ ds : List ℕ, (∀ d ∈ ds, d < 2 ^ 5) →
      values isSkipped base32Digit (ds.map (base32Alphabet.getD · '=')) = some ds := by
    intro ds hds
    induction ds with
    | nil => rfl
    | cons d ds ih =>
      exact values_append (hdigit d (hds d List.mem_cons_self))
        (ih fun e he => hds e (List.mem_cons_of_mem _ he))
  have hpad : ∀ n, values isSkipped base32Digit (List.replicate n '=') = some [] := by
    intro n
    induction n with
    | zero => rfl
    | succ n ih => exact (values_cons_skip _ rfl).trans ih
  unfold base32Encode
  rw [String.toList_ofList]
  have happend := values_append (hdigits (base32Digits bytes) digits_lt)
    (hpad ((8 - (base32Digits bytes).length % 8) % 8))
  rwa [List.append_nil] at happend

theorem base32Digits_leadingBytes (bytes : Bytes) : LeadingBytes (base32Digits bytes) bytes := by
  have hlt := value_lt fun d (hd : d ∈ bytes.map UInt8.toNat) => toNat_lt_of_mem hd
  rw [List.length_map] at hlt
  have hbits : 5 * ((8 * bytes.length + 4) / 5) - 8 * bytes.length =
      5 * ((8 * bytes.length + 4) / 5) % 8 := by omega
  have hvalue : value 5 (base32Digits bytes) =
      value 8 (bytes.map UInt8.toNat) * 2 ^ (5 * ((8 * bytes.length + 4) / 5) % 8) := by
    unfold base32Digits
    rw [value_digits, hbits]
    calc value 8 (bytes.map UInt8.toNat) *
          2 ^ (5 * ((8 * bytes.length + 4) / 5) - 8 * bytes.length)
        < 2 ^ (8 * bytes.length) * 2 ^ (5 * ((8 * bytes.length + 4) / 5) - 8 * bytes.length) :=
          Nat.mul_lt_mul_of_pos_right hlt (by positivity)
      _ = 2 ^ (5 * ((8 * bytes.length + 4) / 5)) := by
          rw [← pow_add]
          congr 1
          omega
  have hlength : (base32Digits bytes).length = (8 * bytes.length + 4) / 5 := length_digits _ _ _
  constructor
  · rw [hlength]
    omega
  · rw [hlength, hvalue, Nat.mul_div_cancel _ (by positivity)]

theorem not_masked_of_readable {s : String} (h : Readable s) : ¬ HasMasked s :=
  fun hmasked => not_readable_of_masked hmasked h

/-- An encoding is read back. What else is read is what the alphabet admits unless
a masked character stands for a digit. -/
theorem base32_language (s : String) :
    ((((base32Decode s).isSome = true ↔ Readable s) ∧
        ∀ out, base32Decode s = some out → Encodes s out) ↔
          ¬ HasMasked s ∨ ¬ Readable (unmasked s)) ∧
      ∀ bytes, bytes ≠ [] → base32Decode (base32Encode bytes) = some bytes := by
  constructor
  · by_cases hmasked : HasMasked s
    · have hnot := not_readable_of_masked hmasked
      constructor
      · rintro ⟨haccepts, -⟩
        right
        rw [← isSome_base32Decode, haccepts]
        exact hnot
      · rintro (hfree | hunread)
        · exact absurd hmasked hfree
        · refine ⟨?_, ?_⟩
          · rw [isSome_base32Decode]
            exact iff_of_false hunread hnot
          · intro out hout
            exact absurd ((readable_iff _).mpr ⟨out, (base32Decode_eq_some_iff s out).mp hout⟩)
              hunread
    · have hplain := unmasked_eq hmasked
      refine iff_of_true ⟨?_, ?_⟩ (Or.inl hmasked)
      · rw [isSome_base32Decode, hplain]
      · intro out hout
        rw [← hplain]
        exact (base32Decode_eq_some_iff s out).mp hout
  · intro bytes hne
    have hvalues := values_base32Encode bytes
    have hnonempty : base32Digits bytes ≠ [] := by
      apply List.ne_nil_of_length_pos
      have hpos := List.length_pos_iff.mpr hne
      have hlength : (base32Digits bytes).length = (8 * bytes.length + 4) / 5 :=
        length_digits _ _ _
      omega
    have hencodes : Encodes (base32Encode bytes) bytes :=
      ⟨_, hvalues, hnonempty, base32Digits_leadingBytes bytes⟩
    have hplain := unmasked_eq (not_masked_of_readable ((readable_iff _).mpr ⟨bytes, hencodes⟩))
    rw [base32Decode_eq_some_iff, hplain]
    exact hencodes

theorem foobar_read_back :
    base32Encode [102, 111, 111, 98, 97] = "MZXW6YTB" ∧
      base32Decode (base32Encode [102, 111, 111, 98, 97]) = some [102, 111, 111, 98, 97] :=
  ⟨by decide, (base32_language "MZXW6YTB").2 _ (by decide)⟩

/-- Two capital L with a stroke, whose low byte is that of A. -/
def stroked : String := String.ofList ['\u0141', '\u0141']

theorem stroked_accepted : base32Decode stroked = some [0] ∧ ¬ Readable stroked := by
  constructor
  · decide
  · apply not_readable_of_masked
    exact ⟨'\u0141', by decide, by decide⟩

end Language

end Totp

end CacheWarden
