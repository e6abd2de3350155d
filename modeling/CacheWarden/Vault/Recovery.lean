import CacheWarden.Lib.Narrowing
import CacheWarden.Lib.Regroup
import CacheWarden.Vault.Crypto

/-!
# The recovery code

A secret of 256 bits is written as 52 digits of Crockford Base32 in groups of
four, and read back from what a user types.
-/

set_option autoImplicit false

namespace CacheWarden

namespace Vault

namespace RecoveryCode

open Narrowing Regroup

/-- Crockford Base32 digits, in value order. -/
def alphabet : List Char := "0123456789ABCDEFGHJKMNPQRSTVWXYZ".toList

def codeChars : ℕ := 52

def groupLen : ℕ := 4

/-- The alphabet is an array of bytes, so it is searched for `up as u8`. -/
def digitValue (ch : Char) : Option ℕ :=
  match ch.toUpper with
  | 'I' => some 1
  | 'L' => some 1
  | 'O' => some 0
  | up => bytePosition alphabet up

def isSeparator (ch : Char) : Bool :=
  ch = '-' || ch = ' ' || ch = '\t' || ch = '\n' || ch = '\r'

def digits : List Char → Option (List ℕ)
  | [] => some []
  | ch :: rest =>
    if isSeparator ch then digits rest
    else
      match digitValue ch with
      | none => none
      | some d => (digits rest).map (d :: ·)

/-- The accumulator of `parse`: a word of 16 bits and the bytes written so far. -/
structure Unpacking where
  acc : ℕ
  bits : ℕ
  secret : List ℕ

def Unpacking.take (self : Unpacking) (d : ℕ) : Unpacking :=
  let acc := (self.acc <<< 5 ||| d) % 2 ^ 16
  let bits := self.bits + 5
  if 8 ≤ bits then
    ⟨acc, bits - 8,
      if self.secret.length < keyLen then self.secret ++ [(acc >>> (bits - 8)) % 2 ^ 8]
      else self.secret⟩
  else ⟨acc, bits, self.secret⟩

/-- An array of zeros over which bytes have been written from the front. -/
def written (bytes : List ℕ) : Key :=
  ⟨(bytes.map UInt8.ofNat ++ List.replicate keyLen 0).take keyLen, by simp [keyLen]⟩

def parse (input : String) : Except VaultError Key :=
  match digits input.toList with
  | none => .error .malformedRecoveryCode
  | some ds =>
    if ds.length ≠ codeChars then .error .malformedRecoveryCode
    else
      let unpacked := ds.foldl Unpacking.take ⟨0, 0, []⟩
      if unpacked.acc &&& ((1 <<< unpacked.bits) - 1) ≠ 0 then .error .malformedRecoveryCode
      else .ok (written unpacked.secret)

/-- The accumulator of `render`. -/
structure Packing where
  acc : ℕ
  bits : ℕ
  out : List Char
  count : ℕ

namespace Packing

def emit (self : Packing) (value : ℕ) : Packing :=
  let out := if 0 < self.count ∧ self.count % groupLen = 0 then self.out ++ ['-'] else self.out
  { self with out := out ++ [alphabet.getD value ' '], count := self.count + 1 }

/-- `while bits >= 5`. -/
def drain : ℕ → Packing → Packing
  | 0, self => self
  | fuel + 1, self =>
    if 5 ≤ self.bits then
      drain fuel
        (({ self with bits := self.bits - 5 } : Packing).emit
          ((self.acc >>> (self.bits - 5)) &&& 0x1f))
    else self

/-- Each pass of the loop takes five bits, so there are no more passes than bits. -/
def take (self : Packing) (byte : UInt8) : Packing :=
  let self := { self with acc := (self.acc <<< 8 ||| byte.toNat) % 2 ^ 16, bits := self.bits + 8 }
  drain self.bits self

end Packing

def render (secret : Key) : String :=
  let packed := secret.1.foldl Packing.take ⟨0, 0, [], 0⟩
  let packed :=
    if 0 < packed.bits then
      packed.emit (((packed.acc <<< (5 - packed.bits)) % 2 ^ 16) &&& 0x1f)
    else packed
  String.ofList packed.out

/-- The value of a Crockford digit in either case, or of an alias. -/
def crockford (ch : Char) : Option ℕ :=
  match ch.toUpper with
  | 'I' => some 1
  | 'L' => some 1
  | 'O' => some 0
  | up => position alphabet up

/-- Exactly 52 digits, the last of which ends in four zero bits. -/
def WellFormed (input : String) : Prop :=
  ∃ ds, values isSeparator crockford input.toList = some ds ∧ ds.length = codeChars ∧
    value 5 ds % 2 ^ 4 = 0

section Digits

theorem alphabet_ascii : ∀ a ∈ alphabet, a.toNat < 128 :=
  List.all_iff_forall_prop.mp (by decide)

theorem digitValue_of_wide {c : Char} (hc : 128 ≤ c.toNat) :
    digitValue c = bytePosition alphabet c ∧ crockford c = position alphabet c := by
  have hne : ∀ a : Char, a.toNat < 128 → c ≠ a := by
    rintro a ha rfl
    omega
  have hI := hne 'I' (by decide)
  have hL := hne 'L' (by decide)
  have hO := hne 'O' (by decide)
  unfold digitValue crockford
  rw [toUpper_of_wide hc]
  constructor
  · split
    · contradiction
    · contradiction
    · contradiction
    · rfl
  · split
    · contradiction
    · contradiction
    · contradiction
    · rfl

/-- The code reads a character as the Crockford digit it is taken for. -/
theorem digitValue_eq (c : Char) : digitValue c = crockford (unmask alphabet c) := by
  by_cases hc : c.toNat < 128
  · have hplain : ¬ Masked alphabet c := fun h => absurd h.1 (by omega)
    have hupper : c.toUpper.toNat < 128 :=
      ascii_all (P := fun c => c.toUpper.toNat < 128) (by decide) hc
    rw [unmask, if_neg hplain]
    unfold digitValue crockford
    split
    · rfl
    · rfl
    · rfl
    · exact bytePosition_eq alphabet_ascii hupper
  · have hwide := digitValue_of_wide (c := c) (by omega)
    rw [hwide.1, ← position_unmask alphabet_ascii]
    by_cases hmasked : Masked alphabet c
    · have hall : ∀ a ∈ alphabet, crockford a = position alphabet a :=
        List.all_iff_forall_prop.mp (by decide)
      exact (hall _ (unmask_mem alphabet_ascii hmasked)).symm
    · rw [unmask, if_neg hmasked, hwide.2]

theorem isSeparator_unmask (c : Char) : isSeparator (unmask alphabet c) = isSeparator c := by
  by_cases hmasked : Masked alphabet c
  · have hall : ∀ a ∈ alphabet, isSeparator a = false :=
      List.all_iff_forall_prop.mp (by decide)
    rw [hall _ (unmask_mem alphabet_ascii hmasked)]
    have hne : ∀ a : Char, a.toNat < 128 → c ≠ a := by
      rintro a ha rfl
      exact absurd hmasked.1 (by omega)
    have hfalse : isSeparator c = false := by
      unfold isSeparator
      simp only [hne _ (show '-'.toNat < 128 by decide), hne _ (show ' '.toNat < 128 by decide),
        hne _ (show '\t'.toNat < 128 by decide), hne _ (show '\n'.toNat < 128 by decide),
        hne _ (show '\r'.toNat < 128 by decide), decide_false, Bool.or_self]
    exact hfalse.symm
  · rw [unmask, if_neg hmasked]

theorem digitValue_lt {c : Char} {d : ℕ} (h : digitValue c = some d) : d < 2 ^ 5 := by
  unfold digitValue at h
  split at h
  · cases h
    decide
  · cases h
    decide
  · cases h
    decide
  · exact (List.findIdx?_eq_some_iff_findIdx_eq.mp h).1

end Digits

section Values

theorem digits_eq (chars : List Char) : digits chars = values isSeparator digitValue chars := by
  induction chars with
  | nil => rfl
  | cons c rest ih =>
    unfold digits
    by_cases hsep : isSeparator c = true
    · rw [if_pos hsep, ih, values_cons_skip rest hsep]
    · rw [if_neg hsep, ih]
      rw [Bool.not_eq_true] at hsep
      rw [values_cons rest hsep]
      cases digitValue c with
      | none => rfl
      | some d => rfl

/-- Read by the code, the characters are what is read once they are unmasked. -/
theorem values_unmask (chars : List Char) :
    values isSeparator digitValue chars =
      values isSeparator crockford (chars.map (unmask alphabet)) :=
  values_map isSeparator_unmask digitValue_eq chars

theorem values_lt {chars : List Char} {ds : List ℕ}
    (h : values isSeparator digitValue chars = some ds) : ∀ d ∈ ds, d < 2 ^ 5 :=
  values_all (P := (· < 2 ^ 5)) (fun _ _ => digitValue_lt) h

end Values

section Parse

variable {ds : List ℕ}

theorem unpacked_carries (hlt : ∀ d ∈ ds, d < 2 ^ 5) (hlength : ds.length ≤ codeChars) :
    Carries 5 8 ds (ds.foldl Unpacking.take ⟨0, 0, []⟩).acc
        (ds.foldl Unpacking.take ⟨0, 0, []⟩).bits (ds.foldl Unpacking.take ⟨0, 0, []⟩).secret ∧
      (ds.foldl Unpacking.take ⟨0, 0, []⟩).bits < 8 := by
  induction ds using List.reverseRecOn with
  | nil => exact ⟨carries_start 5 8, by decide⟩
  | append_singleton ds d ih =>
    rw [List.length_append, List.length_singleton] at hlength
    obtain ⟨hcarries, hbits⟩ := ih (fun e he => hlt e (List.mem_append_left _ he)) (by omega)
    rw [List.foldl_append]
    generalize ds.foldl Unpacking.take ⟨0, 0, []⟩ = self at hcarries hbits
    have hpush := hcarries.push (w := 16)
      (hlt d (List.mem_append_right _ (List.mem_singleton.mpr rfl))) (by omega)
    show Carries 5 8 (ds ++ [d]) (self.take d).acc (self.take d).bits (self.take d).secret ∧
      (self.take d).bits < 8
    by_cases hfull : 8 ≤ self.bits + 5
    · have hemit := hpush.emit hfull
      have hcount := hpush.length_eq
      rw [List.length_append, List.length_singleton] at hcount
      have hroom : self.secret.length < keyLen := by
        unfold codeChars at hlength
        unfold keyLen
        omega
      unfold Unpacking.take
      simp only [if_pos hfull, if_pos hroom]
      exact ⟨hemit, by omega⟩
    · unfold Unpacking.take
      simp only [if_neg hfull]
      exact ⟨hpush, by omega⟩

theorem written_toNat {bytes : List ℕ} (hlength : bytes.length = keyLen)
    (hlt : ∀ b ∈ bytes, b < 2 ^ 8) : (written bytes).1.map UInt8.toNat = bytes := by
  show ((bytes.map UInt8.ofNat ++ List.replicate keyLen 0).take keyLen).map UInt8.toNat = bytes
  rw [List.take_append_of_le_length (by rw [List.length_map, hlength]),
    List.take_of_length_le (by rw [List.length_map, hlength]), map_toNat_ofNat hlt]

theorem key_injective {k k' : Key}
    (h : value 8 (k.1.map UInt8.toNat) = value 8 (k'.1.map UInt8.toNat)) : k = k' :=
  Subtype.ext (bytes_injective (k.2.trans k'.2.symm) h)

/-- The secret is the number of the digits without the last four bits, which are
zero. -/
theorem parse_eq_ok_iff (input : String) (k : Key) :
    parse input = .ok k ↔ ∃ ds, values isSeparator digitValue input.toList = some ds ∧
      ds.length = codeChars ∧ value 5 ds = value 8 (k.1.map UInt8.toNat) * 2 ^ 4 := by
  unfold parse
  rw [digits_eq]
  cases hds : values isSeparator digitValue input.toList with
  | none =>
    constructor
    · intro h
      cases h
    · rintro ⟨ds, hds', -⟩
      cases hds'
  | some ds =>
    by_cases hlength : ds.length = codeChars
    · obtain ⟨hcarries, hbits⟩ := unpacked_carries (values_lt hds) hlength.le
      have hcounts := hcarries.counts hbits
      rw [hlength] at hcounts
      have hheld := hcarries.held
      have hout := hcarries.value_out
      have hbits4 : (ds.foldl Unpacking.take ⟨0, 0, []⟩).bits = 4 := hcounts.2
      have hwritten := written_toNat hcounts.1 hcarries.digit
      simp only [hlength, ne_eq, not_true_eq_false, if_false]
      rw [hbits4] at hheld hout ⊢
      rw [show (1 <<< 4 : ℕ) - 1 = 2 ^ 4 - 1 from rfl, Nat.and_two_pow_sub_one_eq_mod, hheld]
      have hsplit := Nat.div_add_mod (value 5 ds) (2 ^ 4)
      by_cases hzero : value 5 ds % 2 ^ 4 = 0
      · rw [if_neg (not_not.mpr hzero)]
        constructor
        · intro h
          cases h
          refine ⟨ds, rfl, hlength, ?_⟩
          rw [hwritten, hout]
          omega
        · rintro ⟨ds', heq, -, hvalue⟩
          cases heq
          congr 1
          apply key_injective
          rw [hwritten, hout]
          omega
      · rw [if_pos hzero]
        constructor
        · intro h
          cases h
        · rintro ⟨ds', heq, -, hvalue⟩
          cases heq
          omega
    · simp only [ne_eq, hlength, not_false_eq_true, if_true]
      constructor
      · intro h
        cases h
      · rintro ⟨ds', heq, hlength', -⟩
        cases heq
        exact absurd hlength' hlength

end Parse

section Render

/-- The word holds the bytes taken so far but for the digits written out. -/
structure Packs (bytes : Bytes) (packed : Packing) (ds : List ℕ) : Prop where
  carries : Carries 8 5 (bytes.map UInt8.toNat) packed.acc packed.bits ds
  values : values isSeparator digitValue packed.out = some ds

variable {bytes : Bytes} {packed : Packing} {ds : List ℕ}

theorem values_emit {v : ℕ} (h : values isSeparator digitValue packed.out = some ds) (hv : v < 2 ^ 5) :
    values isSeparator digitValue (packed.emit v).out = some (ds ++ [v]) := by
  have hall : ∀ v < 2 ^ 5, values isSeparator digitValue [alphabet.getD v ' '] = some [v] := by decide
  unfold Packing.emit
  apply values_append _ (hall v hv)
  split
  · rw [← List.append_nil ds]
    exact values_append h rfl
  · exact h

theorem and_mask (n : ℕ) : n &&& 0x1f = n % 2 ^ 5 := Nat.and_two_pow_sub_one_eq_mod n 5

theorem Packs.drain {fuel : ℕ} (h : Packs bytes packed ds) (hfuel : packed.bits < 5 * fuel + 5) :
    ∃ more, Packs bytes (Packing.drain fuel packed) (ds ++ more) ∧
      (Packing.drain fuel packed).bits < 5 := by
  induction fuel generalizing packed ds with
  | zero =>
    refine ⟨[], ?_, hfuel⟩
    rw [List.append_nil]
    exact h
  | succ fuel ih =>
    unfold Packing.drain
    by_cases hfull : 5 ≤ packed.bits
    · rw [if_pos hfull, and_mask]
      have hemit := h.carries.emit hfull
      have hnext : Packs bytes
          (({ packed with bits := packed.bits - 5 } : Packing).emit
            ((packed.acc >>> (packed.bits - 5)) % 2 ^ 5))
          (ds ++ [(packed.acc >>> (packed.bits - 5)) % 2 ^ 5]) :=
        ⟨hemit, values_emit h.values (Nat.mod_lt _ (by decide))⟩
      have hspare : packed.bits - 5 < 5 * fuel + 5 := by omega
      obtain ⟨more, hpacks, hbits⟩ := ih hnext hspare
      rw [List.append_assoc] at hpacks
      exact ⟨_, hpacks, hbits⟩
    · rw [if_neg hfull]
      refine ⟨[], ?_, by omega⟩
      rw [List.append_nil]
      exact h

theorem packed_packs (bytes : Bytes) :
    ∃ ds, Packs bytes (bytes.foldl Packing.take ⟨0, 0, [], 0⟩) ds ∧
      (bytes.foldl Packing.take ⟨0, 0, [], 0⟩).bits < 5 := by
  induction bytes using List.reverseRecOn with
  | nil => exact ⟨[], ⟨carries_start 8 5, rfl⟩, by decide⟩
  | append_singleton bytes b ih =>
    obtain ⟨ds, hpacks, hbits⟩ := ih
    rw [List.foldl_append]
    generalize bytes.foldl Packing.take ⟨0, 0, [], 0⟩ = packed at hpacks hbits
    have hpush := hpacks.carries.push (w := 16) b.toNat_lt (by omega)
    have htaken : Packs (bytes ++ [b])
        { packed with acc := (packed.acc <<< 8 ||| b.toNat) % 2 ^ 16, bits := packed.bits + 8 }
        ds := by
      refine ⟨?_, hpacks.values⟩
      rw [List.map_append]
      exact hpush
    have hspare : packed.bits + 8 < 5 * (packed.bits + 8) + 5 := by omega
    obtain ⟨more, hdrained, hrest⟩ := htaken.drain hspare
    exact ⟨ds ++ more, hdrained, hrest⟩

/-- A rendered secret is read as its bits, four zero bits after them. -/
theorem values_render (secret : Key) :
    ∃ ds, values isSeparator digitValue (render secret).toList = some ds ∧ ds.length = codeChars ∧
      value 5 ds = value 8 (secret.1.map UInt8.toNat) * 2 ^ 4 := by
  obtain ⟨ds, hpacks, hbits⟩ := packed_packs secret.1
  have hcounts := hpacks.carries.counts hbits
  rw [List.length_map, secret.2] at hcounts
  have hbits1 : (secret.1.foldl Packing.take ⟨0, 0, [], 0⟩).bits = 1 := hcounts.2
  have hvalue := hpacks.carries.value_eq
  unfold render
  rw [String.toList_ofList]
  generalize secret.1.foldl Packing.take ⟨0, 0, [], 0⟩ = packed at hpacks hbits1 hvalue hcounts
  rw [hbits1] at hvalue
  have hlast : ((packed.acc <<< (5 - 1)) % 2 ^ 16) &&& 0x1f = packed.acc % 2 * 2 ^ 4 := by
    rw [and_mask, Nat.shiftLeft_eq]
    omega
  simp only [hbits1, Nat.zero_lt_one, if_true]
  rw [hlast]
  refine ⟨_, values_emit hpacks.values (by omega), ?_, ?_⟩
  · rw [List.length_append, hcounts.1]
    rfl
  · rw [value_append_singleton, hvalue]
    omega

end Render

section Language

/-- A non-ASCII character whose low byte is a Crockford digit. -/
def HasMasked (input : String) : Prop := ∃ c ∈ input.toList, Masked alphabet c

/-- The same text with each such character replaced by that digit. -/
def unmasked (input : String) : String := String.ofList (input.toList.map (unmask alphabet))

theorem value_bytes (bytes : Bytes) : value 8 (bytes.map UInt8.toNat) = Wire.ofBe bytes := by
  unfold value Wire.ofBe
  rw [List.foldl_map]
  rfl

theorem parse_isOk_iff (input : String) :
    (parse input).isOk = true ↔ WellFormed (unmasked input) := by
  have hok : (parse input).isOk = true ↔ ∃ k, parse input = .ok k := by
    cases parse input with
    | ok k => exact ⟨fun _ => ⟨k, rfl⟩, fun _ => rfl⟩
    | error e =>
      constructor
      · intro h
        cases h
      · rintro ⟨k, h⟩
        cases h
  rw [hok]
  unfold WellFormed unmasked
  rw [String.toList_ofList, ← values_unmask]
  constructor
  · rintro ⟨k, h⟩
    obtain ⟨ds, hds, hlength, hvalue⟩ := (parse_eq_ok_iff input k).mp h
    refine ⟨ds, hds, hlength, ?_⟩
    rw [hvalue, Nat.mul_mod_left]
  · rintro ⟨ds, hds, hlength, hzero⟩
    have hlt := value_lt (values_lt hds)
    rw [hlength, show 5 * codeChars = 4 + 256 from rfl] at hlt
    have hbound : value 5 ds / 2 ^ 4 < 256 ^ keyLen := by
      rw [show (256 ^ keyLen : ℕ) = 2 ^ 256 by norm_num [keyLen]]
      apply Nat.div_lt_of_lt_mul
      rw [← pow_add]
      exact hlt
    refine ⟨⟨Wire.beBytes keyLen (value 5 ds / 2 ^ 4), Wire.length_beBytes _ _⟩, ?_⟩
    apply (parse_eq_ok_iff input _).mpr
    refine ⟨ds, hds, hlength, ?_⟩
    rw [value_bytes, Wire.ofBe_beBytes_of_lt hbound]
    omega

/-- A masked character is none of those a code consists of. -/
theorem not_wellFormed_of_masked {input : String} (h : HasMasked input) : ¬ WellFormed input := by
  obtain ⟨c, hc, hmasked⟩ := h
  rintro ⟨ds, hds, -, -⟩
  rcases read_of_mem hds hc with hsep | hsome
  · rw [← isSeparator_unmask] at hsep
    have hall : ∀ a ∈ alphabet, isSeparator a = false :=
      List.all_iff_forall_prop.mp (by decide)
    rw [hall _ (unmask_mem alphabet_ascii hmasked)] at hsep
    cases hsep
  · rw [(digitValue_of_wide hmasked.1).2, position_of_masked alphabet_ascii hmasked] at hsome
    cases hsome

theorem unmasked_eq {input : String} (h : ¬ HasMasked input) : unmasked input = input := by
  unfold unmasked
  rw [map_unmask fun c hc hmasked => h ⟨c, hc, hmasked⟩, String.ofList_toList]

/-- Rendered secrets are read back, and codes with one secret have the same
digits. What is accepted is what the alphabet admits unless a masked character
stands for the digit that a code would have there. -/
theorem recovery_codes (input : String) :
    (((parse input).isOk = true ↔ WellFormed input) ↔
        ¬ HasMasked input ∨ ¬ WellFormed (unmasked input)) ∧
      (∀ secret : Key, parse (render secret) = .ok secret) ∧
      ∀ a b k, parse a = .ok k → parse b = .ok k → digits a.toList = digits b.toList := by
  refine ⟨?_, ?_, ?_⟩
  · rw [parse_isOk_iff]
    by_cases hmasked : HasMasked input
    · have hnot := not_wellFormed_of_masked hmasked
      simp [hmasked, hnot]
    · rw [unmasked_eq hmasked]
      simp [hmasked]
  · intro secret
    exact (parse_eq_ok_iff _ _).mpr (values_render secret)
  · intro a b k ha hb
    obtain ⟨ds, hds, hlength, hvalue⟩ := (parse_eq_ok_iff a k).mp ha
    obtain ⟨es, hes, hlength', hvalue'⟩ := (parse_eq_ok_iff b k).mp hb
    rw [digits_eq, digits_eq, hds, hes]
    congr 1
    exact value_injective (by decide) (hlength.trans hlength'.symm) (values_lt hds) (values_lt hes)
      (hvalue.trans hvalue'.symm)

/-- Fifty-two zeros, and as many times the letter that is read as one. -/
theorem aliases_agree :
    digits (List.replicate 52 '0') = digits (List.replicate 52 'o') ∧
      parse (render zeroKey) = .ok zeroKey := by
  have hread : ∀ c ∈ ['0', 'o'], parse (String.ofList (List.replicate 52 c)) = .ok zeroKey := by
    intro c hc
    apply (parse_eq_ok_iff _ _).mpr
    refine ⟨List.replicate 52 0, ?_, by decide, by decide⟩
    rw [String.toList_ofList]
    revert c
    exact List.all_iff_forall_prop.mp (by decide)
  have hcodes := recovery_codes (render zeroKey)
  have hsame := hcodes.2.2 _ _ zeroKey (hread '0' (by decide)) (hread 'o' (by decide))
  rw [String.toList_ofList, String.toList_ofList] at hsame
  exact ⟨hsame, hcodes.2.1 zeroKey⟩

/-- A capital I with a dot above, and zeros. -/
def dotted : String := String.ofList ('\u0130' :: List.replicate 51 '0')

theorem dotted_accepted : (parse dotted).isOk = true ∧ ¬ WellFormed dotted := by
  constructor
  · rw [parse_isOk_iff]
    unfold WellFormed unmasked dotted
    rw [String.toList_ofList, String.toList_ofList]
    exact ⟨List.replicate 52 0, by decide, by decide, by decide⟩
  · apply not_wellFormed_of_masked
    refine ⟨'\u0130', ?_, by decide⟩
    unfold dotted
    rw [String.toList_ofList]
    exact List.mem_cons_self

end Language

end RecoveryCode

end Vault

end CacheWarden
