import Mathlib.Data.Bool.AllAny
import Mathlib.Data.Char
import Mathlib.Tactic.Common

/-!
# Texts of digits, read through their low bytes

A text is read digit by digit, some characters being skipped. A table of ASCII
characters is searched for the low byte of a character: ASCII characters are
found where they stand, and another character is taken for the one that has its
low byte, if the table has one.
-/

set_option autoImplicit false

namespace Narrowing

/-- Where the table has the character. -/
def position (table : List Char) (c : Char) : Option ℕ := table.findIdx? (· = c)

/-- Where the table has a character with the same low byte. -/
def bytePosition (table : List Char) (c : Char) : Option ℕ :=
  table.findIdx? (·.toUInt8 = c.toUInt8)

/-- Not an ASCII character, but taken for one of the table. -/
def Masked (table : List Char) (c : Char) : Prop :=
  128 ≤ c.toNat ∧ (bytePosition table c).isSome

instance (table : List Char) (c : Char) : Decidable (Masked table c) := by
  unfold Masked
  infer_instance

/-- What a masked character is taken for. -/
def unmask (table : List Char) (c : Char) : Char :=
  if Masked table c then Char.ofNat (c.toNat % 256) else c

variable {table : List Char} {c a : Char}

theorem toNat_ofNat_mod (n : ℕ) : (Char.ofNat (n % 256)).toNat = n % 256 := by
  have hlt : n % 256 < 256 := Nat.mod_lt _ (by decide)
  have hvalid : (n % 256).isValidChar := Or.inl (by omega)
  unfold Char.ofNat
  rw [dif_pos hvalid]
  rfl

/-- A fact about every ASCII character is a fact about 128 of them. -/
theorem ascii_all {P : Char → Prop} (h : ∀ n < 128, P (Char.ofNat n)) (hc : c.toNat < 128) :
    P c := by
  have hp := h c.toNat hc
  rwa [Char.ofNat_toNat] at hp

theorem toUpper_of_wide {c : Char} (hc : 128 ≤ c.toNat) : c.toUpper = c := by
  unfold Char.toUpper
  rw [dif_neg]
  rintro ⟨-, hle⟩
  have hlt : c.toNat ≤ 122 := hle
  omega

theorem findIdx?_congr {p q : Char → Bool} (h : ∀ a ∈ table, p a = q a) :
    table.findIdx? p = table.findIdx? q := by
  induction table with
  | nil => rfl
  | cons a table ih =>
    rw [List.findIdx?_cons, List.findIdx?_cons, h a List.mem_cons_self,
      ih fun b hb => h b (List.mem_cons_of_mem _ hb)]

theorem toUInt8_toNat (c : Char) : c.toUInt8.toNat = c.toNat % 256 := by
  rw [Char.toUInt8, UInt32.toNat_toUInt8]
  rfl

theorem toUInt8_eq_iff : a.toUInt8 = c.toUInt8 ↔ a.toNat % 256 = c.toNat % 256 := by
  rw [← UInt8.toNat_inj, toUInt8_toNat, toUInt8_toNat]

theorem bytePosition_eq (hascii : ∀ a ∈ table, a.toNat < 128) (hc : c.toNat < 128) :
    bytePosition table c = position table c := by
  apply findIdx?_congr
  intro a ha
  have hlt := hascii a ha
  rw [decide_eq_decide, toUInt8_eq_iff, Nat.mod_eq_of_lt (by omega), Nat.mod_eq_of_lt (by omega),
    Char.toNat_inj]

/-- The search by low byte is the search for the unmasked character. -/
theorem position_unmask (hascii : ∀ a ∈ table, a.toNat < 128) :
    position table (unmask table c) = bytePosition table c := by
  by_cases hc : c.toNat < 128
  · have hplain : ¬ Masked table c := fun h => absurd h.1 (by omega)
    rw [unmask, if_neg hplain, bytePosition_eq hascii hc]
  by_cases hmasked : Masked table c
  · rw [unmask, if_pos hmasked]
    have hnat := toNat_ofNat_mod c.toNat
    apply findIdx?_congr
    intro a ha
    have hlt := hascii a ha
    rw [decide_eq_decide, toUInt8_eq_iff, ← Char.toNat_inj, hnat,
      show a.toNat % 256 = a.toNat by omega]
  · rw [unmask, if_neg hmasked]
    have hnone : bytePosition table c = none := by
      cases h : bytePosition table c with
      | none => rfl
      | some i => exact absurd ⟨by omega, by rw [h]; rfl⟩ hmasked
    rw [hnone, position, List.findIdx?_eq_none_iff]
    intro a ha
    have hlt := hascii a ha
    apply decide_eq_false
    rintro rfl
    omega

/-- A masked character is none of the table. -/
theorem position_of_masked (hascii : ∀ a ∈ table, a.toNat < 128) (h : Masked table c) :
    position table c = none := by
  rw [position, List.findIdx?_eq_none_iff]
  intro a ha
  have hlt := hascii a ha
  apply decide_eq_false
  rintro rfl
  exact absurd h.1 (by omega)

theorem map_unmask {chars : List Char} (h : ∀ c ∈ chars, ¬ Masked table c) :
    chars.map (unmask table) = chars := by
  conv_rhs => rw [← List.map_id chars]
  apply List.map_congr_left
  intro c hc
  exact if_neg (h c hc)

/-- What a masked character is taken for is in the table. -/
theorem unmask_mem (hascii : ∀ a ∈ table, a.toNat < 128) (h : Masked table c) :
    unmask table c ∈ table := by
  have hsome : (position table (unmask table c)).isSome := by
    rw [position_unmask hascii]
    exact h.2
  rw [position, List.findIdx?_isSome, List.any_eq_true] at hsome
  obtain ⟨a, ha, heq⟩ := hsome
  rw [← of_decide_eq_true heq]
  exact ha

section Values

variable {skip : Char → Bool} {read : Char → Option ℕ} {a b : List Char} {ds es : List ℕ}

/-- The digits that characters stand for, if all of them but those skipped are
digits. -/
def values (skip : Char → Bool) (read : Char → Option ℕ) (chars : List Char) : Option (List ℕ) :=
  (chars.filter fun c => !skip c).mapM read

@[simp] theorem values_nil : values skip read [] = some [] := rfl

theorem values_cons_skip (rest : List Char) (hc : skip c = true) :
    values skip read (c :: rest) = values skip read rest := by
  unfold values
  rw [List.filter_cons_of_neg (by simp [hc])]

theorem values_cons (rest : List Char) (hc : skip c = false) :
    values skip read (c :: rest) =
      (read c).bind fun d => (values skip read rest).map (d :: ·) := by
  unfold values
  rw [List.filter_cons_of_pos (by simp [hc]), List.mapM_cons]
  cases read c with
  | none => rfl
  | some d =>
    cases (rest.filter fun c => !skip c).mapM read with
    | none => rfl
    | some es => rfl

theorem values_append (ha : values skip read a = some ds) (hb : values skip read b = some es) :
    values skip read (a ++ b) = some (ds ++ es) := by
  unfold values at *
  rw [List.filter_append, List.mapM_append, ha, hb]
  rfl

theorem values_map {f : Char → Char} {read' : Char → Option ℕ} (hskip : ∀ c, skip (f c) = skip c)
    (hread : ∀ c, read' c = read (f c)) (chars : List Char) :
    values skip read' chars = values skip read (chars.map f) := by
  induction chars with
  | nil => rfl
  | cons c rest ih =>
    rw [List.map_cons]
    by_cases hc : skip c = true
    · rw [values_cons_skip rest hc, values_cons_skip _ ((hskip c).trans hc), ih]
    · rw [Bool.not_eq_true] at hc
      rw [values_cons rest hc, values_cons _ ((hskip c).trans hc), ih, hread]

/-- Every character of a text that is read is skipped or read. -/
theorem read_of_mem (h : values skip read a = some ds) (hc : c ∈ a) :
    skip c = true ∨ (read c).isSome := by
  induction a generalizing ds with
  | nil => cases hc
  | cons x rest ih =>
    by_cases hx : skip x = true
    · rw [values_cons_skip rest hx] at h
      rcases List.mem_cons.mp hc with rfl | hc
      · exact Or.inl hx
      · exact ih h hc
    · rw [Bool.not_eq_true] at hx
      rw [values_cons rest hx, Option.bind_eq_some_iff] at h
      obtain ⟨d, hd, h⟩ := h
      obtain ⟨es, hes, -⟩ := Option.map_eq_some_iff.mp h
      rcases List.mem_cons.mp hc with rfl | hc
      · right
        rw [hd]
        rfl
      · exact ih hes hc

theorem values_all {P : ℕ → Prop} (hread : ∀ c d, read c = some d → P d)
    (h : values skip read a = some ds) : ∀ d ∈ ds, P d := by
  induction a generalizing ds with
  | nil =>
    cases h
    intro d hd
    cases hd
  | cons x rest ih =>
    by_cases hx : skip x = true
    · rw [values_cons_skip rest hx] at h
      exact ih h
    · rw [Bool.not_eq_true] at hx
      rw [values_cons rest hx, Option.bind_eq_some_iff] at h
      obtain ⟨d, hd, h⟩ := h
      obtain ⟨es, hes, rfl⟩ := Option.map_eq_some_iff.mp h
      intro e he
      rcases List.mem_cons.mp he with rfl | he
      · exact hread x e hd
      · exact ih hes e he

end Values

end Narrowing
