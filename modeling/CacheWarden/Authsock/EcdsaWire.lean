import CacheWarden.Authsock.AgentMessage
import CacheWarden.Lib.Mpint
import CacheWarden.Vault.Format

/-!
# ECDSA numbers on the wire

A signature is written as two integers of its own length each. The scalar of a
private key is read as such an integer and brought to the width of its field.
The curves themselves, base64 and the strings of the container are the work of
crates outside the repository.
-/

set_option autoImplicit false

namespace CacheWarden

open Vault

inductive EcdsaCurve where
  | nistP256
  | nistP384
  | nistP521
  deriving DecidableEq

namespace EcdsaCurve

def algorithmName : EcdsaCurve → String
  | .nistP256 => "ecdsa-sha2-nistp256"
  | .nistP384 => "ecdsa-sha2-nistp384"
  | .nistP521 => "ecdsa-sha2-nistp521"

def curveName : EcdsaCurve → String
  | .nistP256 => "nistp256"
  | .nistP384 => "nistp384"
  | .nistP521 => "nistp521"

def fieldWidth : EcdsaCurve → ℕ
  | .nistP256 => 32
  | .nistP384 => 48
  | .nistP521 => 66

def ofKeyType (keytype : Bytes) : Option EcdsaCurve :=
  [nistP256, nistP384, nistP521].find? fun curve => keytype = utf8 curve.algorithmName

end EcdsaCurve

/-- The crates of the curves, and the readers of the container. -/
structure EcdsaCrates where
  SecretKey : Type
  fromSlice : EcdsaCurve → Bytes → Option SecretKey
  sign : EcdsaCurve → SecretKey → Bytes → Bytes × Bytes
  decodeBase64 : String → Option Bytes
  decodeString : Bytes → Option (Bytes × Bytes)

structure EcdsaKey (w : EcdsaCrates) where
  curve : EcdsaCurve
  secret : w.SecretKey

section Writing

def encodeSignatureBlob (algorithmName : String) (sigBytes : Bytes) : Bytes :=
  Wire.beBytes 4 (utf8 algorithmName).length ++ utf8 algorithmName ++
    Wire.beBytes 4 sigBytes.length ++ sigBytes

/-- The length is narrowed to 32 bits by a bare cast. -/
def encodeMpint (beBytes : Bytes) : Bytes :=
  let start := (beBytes.findIdx? (· ≠ 0)).getD beBytes.length
  let trimmed := beBytes.drop start
  let needPad := trimmed.head?.any fun b => b &&& 0x80 ≠ 0
  let len := trimmed.length + needPad.toNat
  Wire.beBytes 4 len ++ (if needPad then [0] else []) ++ trimmed

def signEcdsa {w : EcdsaCrates} (key : EcdsaKey w) (data : Bytes) : Bytes :=
  let (r, s) := w.sign key.curve key.secret data
  encodeSignatureBlob key.curve.algorithmName (encodeMpint r ++ encodeMpint s)

end Writing

section Reading

/-- A padding zero is taken off. -/
def scalarMagnitude : Bytes → Bytes
  | 0 :: rest => rest
  | bytes => bytes

/-- The scalar at the width of its field, with zeros in front. -/
def normaliseScalar (fieldWidth : ℕ) (scalarMpint : Bytes) : Option Bytes :=
  let magnitude := scalarMagnitude scalarMpint
  if fieldWidth < magnitude.length then none
  else some (List.replicate (fieldWidth - magnitude.length) 0 ++ magnitude)

variable (w : EcdsaCrates)

/-- The private section of the container, up to the scalar. -/
def parsePrivateSection (bytes : Bytes) : Option (EcdsaKey w) := do
  let (check1, p) ← Wire.take 4 bytes
  let (check2, p) ← Wire.take 4 p
  if check1 ≠ check2 then none
  else
    let (keytype, p) ← w.decodeString p
    let (curveName, p) ← w.decodeString p
    let (_q, p) ← w.decodeString p
    let (scalarMpint, _) ← w.decodeString p
    let curve ← EcdsaCurve.ofKeyType keytype
    let scalar ← normaliseScalar curve.fieldWidth scalarMpint
    if curveName ≠ utf8 curve.curveName then none
    else (w.fromSlice curve scalar).map fun secret => ⟨curve, secret⟩

/-- The text between the marker lines. -/
def pemBody (pem : String) : String :=
  String.join ((((pem.splitOn "\n").map fun line =>
    if line.endsWith "\r" then (line.dropEnd 1).toString else line)).filter
      fun line => !line.startsWith "-----")

def opensshMagic : Bytes := utf8 "openssh-key-v1" ++ [0]

/-- An unencrypted container with one key. -/
def parseOpensshEcdsaFallback (pem : String) : Option (EcdsaKey w) := do
  let data ← w.decodeBase64 (pemBody pem)
  let (magic, reader) ← Wire.take opensshMagic.length data
  if magic ≠ opensshMagic then none
  else
    let (ciphername, reader) ← w.decodeString reader
    if ciphername ≠ utf8 "none" then none
    else
      let (_kdfname, reader) ← w.decodeString reader
      let (_kdfopts, reader) ← w.decodeString reader
      let (nkeys, reader) ← Wire.take 4 reader
      if Wire.ofBe nkeys ≠ 1 then none
      else
        let (_public, reader) ← w.decodeString reader
        let (privateSection, _) ← w.decodeString reader
        parsePrivateSection w privateSection

end Reading

section Numbers

set_option maxRecDepth 4096 in
theorem highBit_iff (b : UInt8) : b &&& 0x80 ≠ 0 ↔ 128 ≤ b.toNat := by
  have hall : ∀ n : Fin 256, UInt8.ofNat n &&& 0x80 ≠ 0 ↔ 128 ≤ n.val := by decide
  have hb := hall ⟨b.toNat, b.toNat_lt⟩
  rw [UInt8.ofNat_toNat] at hb
  exact hb

theorem drop_findIdx (bytes : Bytes) :
    bytes.drop ((bytes.findIdx? (· ≠ 0)).getD bytes.length) = Mpint.significant bytes := by
  induction bytes with
  | nil => rfl
  | cons b bytes ih =>
    by_cases hzero : b = 0
    · subst hzero
      have hnext : (0 :: bytes).findIdx? (· ≠ 0) = (bytes.findIdx? (· ≠ 0)).map (· + 1) := by
        rw [List.findIdx?_cons]
        rfl
      rw [Mpint.significant_cons_zero, ← ih, hnext]
      cases bytes.findIdx? (· ≠ 0) <;> rfl
    · simp [List.findIdx?_cons, hzero, Mpint.significant]

theorem encodeMpint_eq (bytes : Bytes) :
    encodeMpint bytes =
      Wire.beBytes 4 (Mpint.payload bytes).length ++ Mpint.payload bytes := by
  have hpad : ∀ trimmed : Bytes,
      (trimmed.head?.any fun b => b &&& 0x80 ≠ 0) = Mpint.signBit trimmed := by
    intro trimmed
    unfold Mpint.signBit
    congr 1
    funext b
    exact decide_eq_decide.mpr (highBit_iff b)
  unfold encodeMpint
  simp only [drop_findIdx, hpad]
  unfold Mpint.payload
  cases Mpint.signBit (Mpint.significant bytes) with
  | false => simp
  | true => simp

theorem ofBe_scalarMagnitude (bytes : Bytes) :
    Wire.ofBe (scalarMagnitude bytes) = Wire.ofBe bytes := by
  unfold scalarMagnitude
  split
  · exact (Mpint.ofBe_zero_cons _).symm
  · rfl

/-- What is kept is the whole value, at the full width. -/
theorem normaliseScalar_some {width : ℕ} {scalar out : Bytes}
    (h : normaliseScalar width scalar = some out) :
    out = Wire.beBytes width (Wire.ofBe scalar) ∧ Wire.ofBe scalar < 256 ^ width := by
  unfold normaliseScalar at h
  simp only at h
  split at h
  · cases h
  rename_i hlen
  cases h
  rw [← ofBe_scalarMagnitude scalar]
  refine ⟨Mpint.replicate_append_eq (Nat.not_lt.mp hlen), ?_⟩
  exact Nat.lt_of_lt_of_le (Wire.ofBe_lt (scalarMagnitude scalar))
    (Nat.pow_le_pow_right (by omega) (Nat.not_lt.mp hlen))

theorem scalarMagnitude_payload (digits : Bytes) :
    scalarMagnitude (Mpint.payload digits) = Mpint.significant digits := by
  unfold Mpint.payload
  split
  · rfl
  · have hleading := Mpint.leading_significant digits
    cases hdigits : Mpint.significant digits with
    | nil => rfl
    | cons b rest =>
      rw [hdigits] at hleading
      have hb : b ≠ 0 := hleading b rfl
      unfold scalarMagnitude
      split
      · rename_i heq
        cases heq
        exact absurd rfl hb
      · rfl

/-- The scalar of a minimal form is the digits that count. -/
theorem normaliseScalar_payload (width : ℕ) (digits : Bytes) :
    normaliseScalar width (Mpint.payload digits) =
      if Wire.ofBe digits < 256 ^ width then some (Wire.beBytes width (Wire.ofBe digits))
      else none := by
  have hfits := Mpint.length_le_iff (Mpint.leading_significant digits) width
  rw [Mpint.ofBe_significant] at hfits
  unfold normaliseScalar
  simp only [scalarMagnitude_payload]
  by_cases hlt : Wire.ofBe digits < 256 ^ width
  · have hlen := hfits.mpr hlt
    rw [if_neg (Nat.not_lt.mpr hlen), if_pos hlt, Mpint.replicate_append_eq hlen,
      Mpint.ofBe_significant]
  · have hlen : ¬ (Mpint.significant digits).length ≤ width := fun hle => hlt (hfits.mp hle)
    rw [if_pos (Nat.not_le.mp hlen), if_neg hlt]

end Numbers

section Container

/-- A string as the container holds it. -/
def sshString (bytes : Bytes) : Bytes := Wire.beBytes 4 bytes.length ++ bytes

/-- The reader of strings takes off what was written, up to the length at which
it gives up. -/
def ReadsStrings (w : EcdsaCrates) : Prop :=
  ∀ bytes rest : Bytes, bytes.length ≤ 0xFFFFF →
    w.decodeString (sshString bytes ++ rest) = some (bytes, rest)

theorem ofKeyType_algorithmName (curve : EcdsaCurve) :
    EcdsaCurve.ofKeyType (utf8 curve.algorithmName) = some curve := by
  cases curve <;> decide

/-- A key is read back from its section at the width of its field, however many
bytes its scalar took, if it fits. -/
theorem parsePrivateSection_written {w : EcdsaCrates} (hw : ReadsStrings w) (curve : EcdsaCurve)
    (check q d rest : Bytes) (hcheck : check.length = 4) (hq : q.length ≤ 0xFFFFF)
    (hd : d.length < 0xFFFFF) :
    parsePrivateSection w (check ++ (check ++ (sshString (utf8 curve.algorithmName) ++
        (sshString (utf8 curve.curveName) ++ (sshString q ++ (encodeMpint d ++ rest)))))) =
      if Wire.ofBe d < 256 ^ curve.fieldWidth then
        (w.fromSlice curve (Wire.beBytes curve.fieldWidth (Wire.ofBe d))).map fun secret =>
          ⟨curve, secret⟩
      else none := by
  have hname : (utf8 curve.algorithmName).length ≤ 0xFFFFF ∧
      (utf8 curve.curveName).length ≤ 0xFFFFF := by
    cases curve <;> decide
  have hpayload : (Mpint.payload d).length ≤ 0xFFFFF := by
    have hle := Mpint.payload_length_le d
    omega
  have hscalar : w.decodeString (encodeMpint d ++ rest) = some (Mpint.payload d, rest) := by
    rw [encodeMpint_eq]
    exact hw _ _ hpayload
  unfold parsePrivateSection
  simp only [Wire.take_append hcheck, hw _ _ hname.1, hw _ _ hname.2, hw _ _ hq, hscalar,
    ofKeyType_algorithmName, normaliseScalar_payload, Option.bind_eq_bind, Option.bind_some, ne_eq,
    not_true_eq_false, if_false]
  split <;> rfl

end Container

/-- Where a number has an `mpint`, `encodeMpint` writes the one it has; equal
encodings are equal values; and a scalar read back has the width of its field,
or is refused for being too large. -/
theorem mpint_normal :
    (∀ (bytes wire : Bytes), Mpint.Encodes wire (Wire.ofBe bytes) ↔
        wire = encodeMpint bytes ∧ (Mpint.payload bytes).length < 2 ^ 32) ∧
      (∀ a b : Bytes, encodeMpint a = encodeMpint b ↔ Wire.ofBe a = Wire.ofBe b) ∧
      (∀ (curve : EcdsaCurve) (d : ℕ) (scalarMpint : Bytes),
        Mpint.Encodes (Wire.beBytes 4 scalarMpint.length ++ scalarMpint) d →
          normaliseScalar curve.fieldWidth scalarMpint =
            if d < 256 ^ curve.fieldWidth then some (Wire.beBytes curve.fieldWidth d)
            else none) ∧
      ∀ (curve : EcdsaCurve) (scalarMpint scalar : Bytes),
        normaliseScalar curve.fieldWidth scalarMpint = some scalar →
          scalar = Wire.beBytes curve.fieldWidth (Wire.ofBe scalarMpint) ∧
            Wire.ofBe scalarMpint < 256 ^ curve.fieldWidth := by
  refine ⟨?_, ?_, ?_, ?_⟩
  · intro bytes wire
    rw [encodeMpint_eq]
    exact Mpint.encodes_iff wire bytes
  · intro a b
    rw [encodeMpint_eq, encodeMpint_eq, ← Mpint.payload_eq_iff]
    constructor
    · intro h
      exact (List.append_inj h (by rw [Wire.length_beBytes, Wire.length_beBytes])).2
    · intro h
      rw [h]
  · intro curve d scalarMpint h
    have hdigits : Wire.ofBe (Mpint.digits d) = d := Mpint.ofBe_digits d
    rw [← hdigits, Mpint.encodes_iff] at h
    have hpayload : scalarMpint = Mpint.payload (Mpint.digits d) :=
      (List.append_inj h.1 (by rw [Wire.length_beBytes, Wire.length_beBytes])).2
    rw [hpayload, normaliseScalar_payload, hdigits]
  · intro curve scalarMpint scalar h
    exact normaliseScalar_some h

theorem encodes_replicate_false {n : ℕ} (h : 2 ^ 32 ≤ n) :
    ¬ Mpint.Encodes (encodeMpint (List.replicate n 1)) (Wire.ofBe (List.replicate n 1)) := by
  intro hencodes
  obtain ⟨m, rfl⟩ : ∃ m, n = m + 1 := ⟨n - 1, by omega⟩
  have hlen := ((Mpint.encodes_iff _ _).mp hencodes).2
  have hsignificant : Mpint.significant (List.replicate (m + 1) (1 : UInt8)) =
      List.replicate (m + 1) 1 := by
    apply Mpint.significant_of_leading
    intro b hb
    rw [List.replicate_succ] at hb
    cases hb
    decide
  have hle : (Mpint.significant (List.replicate (m + 1) (1 : UInt8))).length ≤
      (Mpint.payload (List.replicate (m + 1) (1 : UInt8))).length := by
    unfold Mpint.payload
    split
    · exact Nat.le_succ _
    · exact Nat.le_refl _
  rw [hsignificant, List.length_replicate] at hle
  omega

/-- The length of a string that no `mpint` can hold is cut to nothing. -/
theorem oversized_not_mpint :
    ¬ ∀ bytes : Bytes, Mpint.Encodes (encodeMpint bytes) (Wire.ofBe bytes) := by
  intro h
  exact encodes_replicate_false (Nat.le_refl _) (h (List.replicate (2 ^ 32) 1))

end CacheWarden
