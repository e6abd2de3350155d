import Mathlib.Data.Char
import Mathlib.Tactic.Common

/-!
# Bytes read as text, whatever they are

A sequence of bytes is read as UTF-8 with one replacement character for each
maximal start of a character that is not continued as it should be.
-/

set_option autoImplicit false

namespace LossyText

/-- The start of a character: what is known of its code, how many bytes it still
needs, and between which bounds the next one lies. -/
structure Pending where
  code : ℕ
  owed : ℕ
  low : ℕ
  high : ℕ
  deriving DecidableEq

def replacement : Char := '\ufffd'

/-- A byte between two characters. -/
def first (b : ℕ) : List Char × Option Pending :=
  if b ≤ 0x7f then ([Char.ofNat b], none)
  else if 0xc2 ≤ b ∧ b ≤ 0xdf then ([], some ⟨b - 0xc0, 1, 0x80, 0xbf⟩)
  else if b = 0xe0 then ([], some ⟨0, 2, 0xa0, 0xbf⟩)
  else if b = 0xed then ([], some ⟨0xd, 2, 0x80, 0x9f⟩)
  else if 0xe1 ≤ b ∧ b ≤ 0xef then ([], some ⟨b - 0xe0, 2, 0x80, 0xbf⟩)
  else if b = 0xf0 then ([], some ⟨0, 3, 0x90, 0xbf⟩)
  else if 0xf1 ≤ b ∧ b ≤ 0xf3 then ([], some ⟨b - 0xf0, 3, 0x80, 0xbf⟩)
  else if b = 0xf4 then ([], some ⟨4, 3, 0x80, 0x8f⟩)
  else ([replacement], none)

/-- A byte that does not continue the character is read again as a first one. -/
def feed : Option Pending → ℕ → List Char × Option Pending
  | none, b => first b
  | some p, b =>
    if p.low ≤ b ∧ b ≤ p.high then
      let code := p.code * 64 + (b - 0x80)
      if p.owed ≤ 1 then ([Char.ofNat code], none)
      else ([], some ⟨code, p.owed - 1, 0x80, 0xbf⟩)
    else (replacement :: (first b).1, (first b).2)

def decodeFrom : Option Pending → List ℕ → List Char
  | none, [] => []
  | some _, [] => [replacement]
  | p, b :: rest => (feed p b).1 ++ decodeFrom (feed p b).2 rest

/-- `String::from_utf8_lossy`. -/
def decode (bytes : List UInt8) : String :=
  String.ofList (decodeFrom none (bytes.map UInt8.toNat))

section Texts

theorem first_three {x : ℕ} (h : x < 16) :
    first (x + 0xe0) = ([], some ⟨x, 2, if x = 0 then 0xa0 else 0x80,
      if x = 13 then 0x9f else 0xbf⟩) := by
  revert x
  decide

theorem first_two {x : ℕ} (hlow : 2 ≤ x) (h : x < 32) :
    first (x + 0xc0) = ([], some ⟨x, 1, 0x80, 0xbf⟩) := by
  have hall : ∀ x < 32, 2 ≤ x → first (x + 0xc0) = ([], some ⟨x, 1, 0x80, 0xbf⟩) := by decide
  exact hall x h hlow

theorem first_four {x : ℕ} (h : x < 5) :
    first (x + 0xf0) = ([], some ⟨x, 3, if x = 0 then 0x90 else 0x80,
      if x = 4 then 0x8f else 0xbf⟩) := by
  revert x
  decide

theorem decodeFrom_first {b : ℕ} {p : Pending} {rest : List ℕ} (h : first b = ([], some p)) :
    decodeFrom none (b :: rest) = decodeFrom (some p) rest := by
  show (first b).1 ++ decodeFrom (first b).2 rest = _
  rw [h]
  rfl

theorem decodeFrom_more {p : Pending} {x : ℕ} {rest : List ℕ} (hlow : p.low ≤ x + 0x80)
    (hhigh : x + 0x80 ≤ p.high) (howed : 1 < p.owed) :
    decodeFrom (some p) ((x + 0x80) :: rest) =
      decodeFrom (some ⟨p.code * 64 + x, p.owed - 1, 0x80, 0xbf⟩) rest := by
  have hfeed : feed (some p) (x + 0x80) =
      ([], some ⟨p.code * 64 + x, p.owed - 1, 0x80, 0xbf⟩) := by
    simp only [feed]
    rw [if_pos ⟨hlow, hhigh⟩, if_neg (by omega), Nat.add_sub_cancel]
  show (feed (some p) (x + 0x80)).1 ++ decodeFrom (feed (some p) (x + 0x80)).2 rest = _
  rw [hfeed]
  rfl

theorem decodeFrom_last {p : Pending} {x : ℕ} {rest : List ℕ} (hlow : p.low ≤ x + 0x80)
    (hhigh : x + 0x80 ≤ p.high) (howed : p.owed ≤ 1) :
    decodeFrom (some p) ((x + 0x80) :: rest) =
      Char.ofNat (p.code * 64 + x) :: decodeFrom none rest := by
  have hfeed : feed (some p) (x + 0x80) = ([Char.ofNat (p.code * 64 + x)], none) := by
    simp only [feed]
    rw [if_pos ⟨hlow, hhigh⟩, if_pos howed, Nat.add_sub_cancel]
  show (feed (some p) (x + 0x80)).1 ++ decodeFrom (feed (some p) (x + 0x80)).2 rest = _
  rw [hfeed]
  rfl

/-- The bytes of a character, as numbers. -/
def encode (v : ℕ) : List ℕ :=
  if v ≤ 0x7f then [v]
  else if v ≤ 0x7ff then [v / 64 + 0xc0, v % 64 + 0x80]
  else if v ≤ 0xffff then [v / 4096 + 0xe0, v / 64 % 64 + 0x80, v % 64 + 0x80]
  else [v / 262144 + 0xf0, v / 4096 % 64 + 0x80, v / 64 % 64 + 0x80, v % 64 + 0x80]

theorem utf8EncodeChar_toNat (c : Char) :
    (String.utf8EncodeChar c).map UInt8.toNat = encode c.val.toNat := by
  have hlt : c.val.toNat < 0x110000 := by
    rcases c.valid with h | h
    · exact Nat.lt_trans h (by decide)
    · exact h.2
  have hbyte : ∀ n < 256, (UInt8.ofNat n).toNat = n := by
    intro n hn
    rw [UInt8.toNat_ofNat', Nat.mod_eq_of_lt hn]
  simp only [String.utf8EncodeChar]
  unfold encode
  generalize c.val.toNat = v at hlt
  by_cases h1 : v ≤ 0x7f
  · rw [if_pos h1, if_pos h1, List.map_singleton, hbyte v (by omega)]
  rw [if_neg h1, if_neg h1]
  by_cases h2 : v ≤ 0x7ff
  · rw [if_pos h2, if_pos h2]
    simp only [List.map_cons, List.map_nil]
    rw [hbyte _ (by omega), hbyte _ (by omega), Nat.mod_eq_of_lt (by omega : v / 64 < 32)]
  rw [if_neg h2, if_neg h2]
  by_cases h3 : v ≤ 0xffff
  · rw [if_pos h3, if_pos h3]
    simp only [List.map_cons, List.map_nil]
    rw [hbyte _ (by omega), hbyte _ (by omega), hbyte _ (by omega),
      Nat.mod_eq_of_lt (by omega : v / 4096 < 16)]
  rw [if_neg h3, if_neg h3]
  simp only [List.map_cons, List.map_nil]
  rw [hbyte _ (by omega), hbyte _ (by omega), hbyte _ (by omega), hbyte _ (by omega),
    Nat.mod_eq_of_lt (by omega : v / 262144 < 8)]

/-- The bytes of a character are read as it. -/
theorem decodeFrom_encode {v : ℕ} (hvalid : v.isValidChar) (rest : List ℕ) :
    decodeFrom none (encode v ++ rest) = Char.ofNat v :: decodeFrom none rest := by
  have hrange : v < 0xd800 ∨ 0xdfff < v ∧ v < 0x110000 := hvalid
  unfold encode
  by_cases h1 : v ≤ 0x7f
  · rw [if_pos h1]
    show (first v).1 ++ decodeFrom (first v).2 rest = _
    unfold first
    rw [if_pos h1]
    rfl
  rw [if_neg h1]
  by_cases h2 : v ≤ 0x7ff
  · have hcode : v / 64 * 64 + v % 64 = v := by omega
    rw [if_pos h2, List.cons_append, List.cons_append, List.nil_append,
      decodeFrom_first (first_two (by omega) (by omega)),
      decodeFrom_last (by simp only; omega) (by simp only; omega) (by simp)]
    simp only [hcode]
  rw [if_neg h2]
  by_cases h3 : v ≤ 0xffff
  · have hcode : (v / 4096 * 64 + v / 64 % 64) * 64 + v % 64 = v := by omega
    rw [if_pos h3, List.cons_append, List.cons_append, List.cons_append, List.nil_append,
      decodeFrom_first (first_three (by omega)),
      decodeFrom_more (by simp only; split <;> omega) (by simp only; split <;> omega) (by simp),
      decodeFrom_last (by simp only; omega) (by simp only; omega) (by simp)]
    simp only [hcode]
  have hcode : ((v / 262144 * 64 + v / 4096 % 64) * 64 + v / 64 % 64) * 64 + v % 64 = v := by
    omega
  rw [if_neg h3, List.cons_append, List.cons_append, List.cons_append, List.cons_append,
    List.nil_append, decodeFrom_first (first_four (by omega)),
    decodeFrom_more (by simp only; split <;> omega) (by simp only; split <;> omega) (by simp),
    decodeFrom_more (by simp only; omega) (by simp only; omega) (by simp),
    decodeFrom_last (by simp only; omega) (by simp only; omega) (by simp)]
  simp only [hcode]

theorem decodeFrom_chars (chars : List Char) :
    decodeFrom none ((chars.flatMap String.utf8EncodeChar).map UInt8.toNat) = chars := by
  induction chars with
  | nil => rfl
  | cons c rest ih =>
    rw [List.flatMap_cons, List.map_append, utf8EncodeChar_toNat, decodeFrom_encode c.valid, ih]
    rw [show Char.ofNat c.val.toNat = c from Char.ofNat_toNat c]

theorem toUTF8_eq_flatMap (s : String) :
    s.toUTF8.data.toList = s.toList.flatMap String.utf8EncodeChar := by
  show s.toByteArray.data.toList = _
  rw [← String.utf8Encode_toList]
  unfold List.utf8Encode
  simp

/-- The bytes of a text are read as it. -/
theorem decode_toUTF8 (s : String) : decode s.toUTF8.data.toList = s := by
  unfold decode
  rw [toUTF8_eq_flatMap, decodeFrom_chars, String.ofList_toList]

theorem decodeFrom_replicate {b : ℕ} (h : first b = ([replacement], none)) (n : ℕ) :
    decodeFrom none (List.replicate n b) = List.replicate n replacement := by
  induction n with
  | zero => rfl
  | succ n ih =>
    rw [List.replicate_succ, List.replicate_succ, ← ih]
    show (first b).1 ++ decodeFrom (first b).2 (List.replicate n b) = _
    rw [h]
    rfl

/-- A byte that starts no character is read as one of three bytes. -/
theorem length_toUTF8_decode {b : UInt8} (h : first b.toNat = ([replacement], none)) (n : ℕ) :
    (decode (List.replicate n b)).toUTF8.data.toList.length = 3 * n := by
  have hthree : (String.utf8EncodeChar replacement).length = 3 := rfl
  rw [toUTF8_eq_flatMap, decode, String.toList_ofList, List.map_replicate, decodeFrom_replicate h,
    List.length_flatMap, List.map_replicate, hthree, List.sum_replicate_nat, Nat.mul_comm]

end Texts

end LossyText
