import CacheWarden.Base32
import CacheWarden.Daemon.Handler
import CacheWarden.Daemon.PersistedFile
import CacheWarden.Lib.LossyText
import CacheWarden.Lib.Wire

/-!
# One-time codes derived from stored seeds

A seed is a base32 secret or an `otpauth://` URI. It is stored as bytes, and each
get of an otp-typed key derives a code from it, or reports why none can be.
-/

set_option autoImplicit false

namespace CacheWarden

namespace Daemon

namespace Otp

/-- HMAC with each of the hashes. -/
structure Hmac where
  digest : OtpAlgorithm → Bytes → Bytes → Bytes
  length_le : ∀ algorithm key msg, 20 ≤ (digest algorithm key msg).length

structure OtpParams where
  digits : UInt32
  period : UInt64
  algorithm : OtpAlgorithm
  deriving DecidableEq

def OtpParams.default : OtpParams := ⟨6, 30, .sha1⟩

inductive OtpError where
  | unparseableSeed
  | badUri (why : List Piece)
  | badAlgorithm (label : String)
  | badDigits (digits : UInt32)
  | badPeriod
  deriving DecidableEq

def OtpError.text : OtpError → List Piece
  | .unparseableSeed => [.text "otp seed is neither valid base32 nor a parseable otpauth:// URI"]
  | .badUri why => .text "invalid otpauth:// URI: " :: why
  | .badAlgorithm label =>
    [.text "unknown otp algorithm ", .quoted label, .text " (use sha1 / sha256 / sha512)"]
  | .badDigits digits =>
    [.text "unsupported otp digits ", .number digits.toNat, .text " (must be 1..=9)"]
  | .badPeriod => [.text "otp period must be greater than zero"]

def lowercase (s : List Char) : String := String.ofList (s.map asciiLower)

def parseAlgorithm (s : String) : Except OtpError OtpAlgorithm :=
  match OtpAlgorithm.parse s with
  | .ok algorithm => .ok algorithm
  | .error _ => .error (.badAlgorithm (lowercase s.toList))

/-- The low nibble of the last byte names a window of four, whose top bit is
masked. -/
def dynamicTruncate (digest : Bytes) (digits : UInt32) : ℕ :=
  let offset := (digest.getLastD 0).toNat % 16
  let at_ := fun i => (digest.getD (offset + i) 0).toNat
  let bin := at_ 0 % 128 * 2 ^ 24 + at_ 1 * 2 ^ 16 + at_ 2 * 2 ^ 8 + at_ 3
  bin % 10 ^ digits.toNat

def padLeft (width : ℕ) (digits : String) : String :=
  String.ofList (List.replicate (width - digits.length) '0') ++ digits

def hotp (hmac : Hmac) (key : Bytes) (counter : UInt64) (params : OtpParams) :
    Except OtpError String :=
  if params.digits = 0 ∨ 9 < params.digits then .error (.badDigits params.digits)
  else
    let digest := hmac.digest params.algorithm key (Wire.beBytes 8 counter.toNat)
    let code := dynamicTruncate digest params.digits
    .ok (padLeft params.digits.toNat code.repr)

def totp (hmac : Hmac) (key : Bytes) (unixTime : UInt64) (params : OtpParams) :
    Except OtpError String :=
  if params.period = 0 then .error .badPeriod
  else hotp hmac key (unixTime / params.period) params

structure OtpOverrides where
  digits : Option UInt32
  period : Option UInt64
  algorithm : Option OtpAlgorithm
  deriving DecidableEq

structure ResolvedSeed where
  key : Bytes
  params : OtpParams
  deriving DecidableEq

structure UriParams where
  digits : Option UInt32
  period : Option UInt64
  algorithm : Option OtpAlgorithm
  deriving DecidableEq

def UriParams.none : UriParams := ⟨.none, .none, .none⟩

/-- `split_once` at the first separator, the whole and nothing where there is
none. -/
def cut (separator : Char) (s : List Char) : List Char × List Char :=
  (s.takeWhile (· ≠ separator), (s.dropWhile (· ≠ separator)).tail)

def hexDigit (b : UInt8) : Option UInt8 :=
  if 48 ≤ b ∧ b ≤ 57 then some (b - 48)
  else if 97 ≤ b ∧ b ≤ 102 then some (b - 87)
  else if 65 ≤ b ∧ b ≤ 70 then some (b - 55)
  else none

def percentDecodeBytes : Bytes → Bytes
  | 37 :: hi :: lo :: rest =>
    match hexDigit hi, hexDigit lo with
    | some h, some l => (h * 16 + l) :: percentDecodeBytes rest
    | _, _ => 37 :: percentDecodeBytes (hi :: lo :: rest)
  | 43 :: rest => 32 :: percentDecodeBytes rest
  | c :: rest => c :: percentDecodeBytes rest
  | [] => []

def percentDecode (s : List Char) : String :=
  LossyText.decode (percentDecodeBytes (String.ofList s).toUTF8.data.toList)

/-- `str::parse::<u32>`. -/
def parseU32 (digits : List Char) : Option UInt32 :=
  (parseU64 digits).bind fun n => if n.toNat < 2 ^ 32 then some (UInt32.ofNat n.toNat) else none

/-- The name of a pair of the query, and its value. -/
def pairName (pair : List Char) : String := lowercase (cut '=' pair).1

def pairValue (pair : List Char) : String := percentDecode (cut '=' pair).2

/-- The secret and the parameters read so far, and one more pair of the query. -/
def takePair (acc : Option Bytes × UriParams) (pair : List Char) :
    Except OtpError (Option Bytes × UriParams) :=
  if pairName pair = "secret" then
    match (Totp.base32Decode (pairValue pair)).filter fun b => !b.isEmpty with
    | some bytes => .ok (some bytes, acc.2)
    | none => .error (.badUri [.text "secret is not valid base32"])
  else if pairName pair = "algorithm" then
    match parseAlgorithm (pairValue pair) with
    | .ok algorithm => .ok (acc.1, { acc.2 with algorithm := some algorithm })
    | .error e => .error e
  else if pairName pair = "digits" then
    match parseU32 (pairValue pair).toList with
    | some digits => .ok (acc.1, { acc.2 with digits := some digits })
    | none => .error (.badUri [.text "digits ", .quoted (pairValue pair), .text " is not a number"])
  else if pairName pair = "period" then
    match parseU64 (pairValue pair).toList with
    | some period => .ok (acc.1, { acc.2 with period := some period })
    | none => .error (.badUri [.text "period ", .quoted (pairValue pair), .text " is not a number"])
  else .ok acc

/-- What stands between the scheme and the label, and the pairs of the query. -/
def uriKind (rest : List Char) : List Char := rest.takeWhile fun c => c ≠ '/' && c ≠ '?'

def uriPairs (rest : List Char) : List (List Char) :=
  ((cut '?' rest).2.splitOn '&').filter (· ≠ [])

def parseOtpauthUri (uri : List Char) : Except OtpError (Bytes × UriParams) :=
  let rest := uri.drop 10
  if lowercase (uriKind rest) ≠ "totp" then
    .error (.badUri [.text "only totp is supported, got ", .quoted (String.ofList (uriKind rest))])
  else
    match (uriPairs rest).foldlM takePair (none, UriParams.none) with
    | .error e => .error e
    | .ok (none, _) => .error (.badUri [.text "missing secret parameter"])
    | .ok (some key, params) => .ok (key, params)

def isOtpauth (trimmed : List Char) : Bool :=
  "otpauth://".toList.isPrefixOf (trimmed.map asciiLower)

def resolveKey (trimmed : List Char) : Except OtpError (Bytes × UriParams) :=
  if isOtpauth trimmed then parseOtpauthUri trimmed
  else
    match Totp.base32Decode (String.ofList trimmed) with
    | none => .error .unparseableSeed
    | some key => if key.isEmpty then .error .unparseableSeed else .ok (key, UriParams.none)

def resolveSeed (seed : String) (overrides : OtpOverrides) : Except OtpError ResolvedSeed :=
  match resolveKey (trim seed.toList) with
  | .error e => .error e
  | .ok (key, uriParams) =>
    let params : OtpParams :=
      ⟨(overrides.digits.or uriParams.digits).getD OtpParams.default.digits,
        (overrides.period.or uriParams.period).getD OtpParams.default.period,
        (overrides.algorithm.or uriParams.algorithm).getD OtpParams.default.algorithm⟩
    if params.digits = 0 ∨ 9 < params.digits then .error (.badDigits params.digits)
    else if params.period = 0 then .error .badPeriod
    else .ok ⟨key, params⟩

/-- An error of `otp_type`, whose text is what its callers see. -/
inductive SeedError where
  | notText
  | param (name : String)
  | otp (e : OtpError)
  deriving DecidableEq

def SeedError.text : SeedError → List Piece
  | .notText => [.text "otp seed is not valid text (expected base32 or otpauth:// URI)"]
  | .param name => [.text ("otp " ++ name ++ " is not a number")]
  | .otp e => e.text

def digitsParam (m : ValueMeta) : Except SeedError (Option UInt32) :=
  match m.params["digits"]? with
  | none => .ok none
  | some s =>
    match parseU32 s.toList with
    | some digits => .ok (some digits)
    | none => .error (.param "digits")

def periodParam (m : ValueMeta) : Except SeedError (Option UInt64) :=
  match m.params["period"]? with
  | none => .ok none
  | some s =>
    match parseU64 s.toList with
    | some period => .ok (some period)
    | none => .error (.param "period")

def algorithmParam (m : ValueMeta) : Except SeedError (Option OtpAlgorithm) :=
  match m.params["algorithm"]? with
  | none => .ok none
  | some s =>
    match parseAlgorithm s with
    | .ok algorithm => .ok (some algorithm)
    | .error e => .error (.otp e)

def overridesFromMeta (m : ValueMeta) : Except SeedError OtpOverrides := do
  let digits ← digitsParam m
  let period ← periodParam m
  let algorithm ← algorithmParam m
  .ok ⟨digits, period, algorithm⟩

def resolve (seed : Bytes) (m : ValueMeta) : Except SeedError ResolvedSeed :=
  match String.fromUTF8? ⟨seed.toArray⟩ with
  | none => .error .notText
  | some text =>
    match overridesFromMeta m with
    | .error e => .error e
    | .ok overrides => (resolveSeed text overrides).mapError SeedError.otp

def deriveCode (hmac : Hmac) (now : UInt64) (seed : Bytes) (m : ValueMeta) :
    Except SeedError String :=
  match resolve seed m with
  | .error e => .error e
  | .ok resolved => (totp hmac resolved.key now resolved.params).mapError SeedError.otp

/-- What a pair is turned down for, whatever stands before it. -/
def fault (pair : List Char) : Option OtpError :=
  if pairName pair = "secret" then
    if (Totp.base32Decode (pairValue pair)).all List.isEmpty then
      some (.badUri [.text "secret is not valid base32"])
    else none
  else if pairName pair = "algorithm" then
    match parseAlgorithm (pairValue pair) with
    | .ok _ => none
    | .error e => some e
  else if pairName pair = "digits" then
    if (parseU32 (pairValue pair).toList).isSome then none
    else some (.badUri [.text "digits ", .quoted (pairValue pair), .text " is not a number"])
  else if pairName pair = "period" then
    if (parseU64 (pairValue pair).toList).isSome then none
    else some (.badUri [.text "period ", .quoted (pairValue pair), .text " is not a number"])
  else none

/-- The digits a query asks for, at last. -/
def queryDigits (digits : Option UInt32) (pairs : List (List Char)) : Option UInt32 :=
  pairs.foldl
    (fun digits pair =>
      if pairName pair = "digits" then parseU32 (pairValue pair).toList else digits) digits

def firstFault (pairs : List (List Char)) : Option (List Char) :=
  pairs.find? fun pair => (fault pair).isSome

def namesSecret (pair : List Char) : Bool := pairName pair = "secret"

section Query

variable {pair : List Char} {pairs : List (List Char)}

/-- A pair with a fault is turned down, and one without is taken. -/
theorem takePair_eq (acc : Option Bytes × UriParams) (pair : List Char) :
    match fault pair with
    | some e => takePair acc pair = .error e
    | none => ∃ next, takePair acc pair = .ok next ∧
        next.1.isSome = (acc.1.isSome || namesSecret pair) ∧
        next.2.digits = queryDigits acc.2.digits [pair] := by
  unfold fault takePair namesSecret queryDigits
  rw [List.foldl_cons, List.foldl_nil]
  by_cases hsecret : pairName pair = "secret"
  · simp only [if_pos hsecret]
    rw [hsecret]
    cases Totp.base32Decode (pairValue pair) with
    | none => rfl
    | some bytes =>
      cases bytes with
      | nil => rfl
      | cons b rest => exact ⟨_, rfl, by simp, rfl⟩
  simp only [if_neg hsecret, decide_eq_false hsecret, Bool.or_false]
  by_cases halgorithm : pairName pair = "algorithm"
  · simp only [if_pos halgorithm]
    rw [halgorithm]
    cases parseAlgorithm (pairValue pair) with
    | error e => rfl
    | ok algorithm => exact ⟨_, rfl, rfl, rfl⟩
  simp only [if_neg halgorithm]
  by_cases hdigits : pairName pair = "digits"
  · simp only [if_pos hdigits]
    cases parseU32 (pairValue pair).toList with
    | none => rfl
    | some digits => exact ⟨_, rfl, rfl, rfl⟩
  simp only [if_neg hdigits]
  by_cases hperiod : pairName pair = "period"
  · simp only [if_pos hperiod]
    cases parseU64 (pairValue pair).toList with
    | none => rfl
    | some period => exact ⟨_, rfl, rfl, rfl⟩
  simp only [if_neg hperiod]
  exact ⟨_, rfl, rfl, rfl⟩

theorem queryDigits_cons {digits : Option UInt32} :
    queryDigits digits (pair :: pairs) = queryDigits (queryDigits digits [pair]) pairs := rfl

theorem firstFault_isSome (h : firstFault pairs = some pair) : ∃ e, fault pair = some e :=
  Option.isSome_iff_exists.mp (List.find?_some (p := fun pair => (fault pair).isSome) h)

/-- A query is read up to its first fault. -/
theorem foldlM_takePair (acc : Option Bytes × UriParams) (pairs : List (List Char)) :
    match firstFault pairs with
    | some pair => ∀ e, fault pair = some e → pairs.foldlM takePair acc = .error e
    | none => ∃ next, pairs.foldlM takePair acc = .ok next ∧
        next.1.isSome = (acc.1.isSome || pairs.any namesSecret) ∧
        next.2.digits = queryDigits acc.2.digits pairs := by
  unfold firstFault
  induction pairs generalizing acc with
  | nil => exact ⟨acc, rfl, by simp, rfl⟩
  | cons pair rest ih =>
    have hpair := takePair_eq acc pair
    rw [List.find?_cons, List.foldlM_cons]
    cases hfault : fault pair with
    | some e =>
      rw [hfault] at hpair
      intro e' he
      rw [hfault] at he
      cases he
      rw [show takePair acc pair = _ from hpair]
      rfl
    | none =>
      rw [hfault] at hpair
      obtain ⟨next, hnext, hsecret, hdigits⟩ := hpair
      rw [hnext, queryDigits_cons, ← hdigits, List.any_cons, ← Bool.or_assoc, ← hsecret]
      exact ih next

end Query

/-- Why a trimmed seed gives no code under the overrides. -/
inductive Failure (overrides : OtpOverrides) (seed : List Char) : OtpError → Prop where
  | unparseable (hplain : isOtpauth seed = false) : Failure overrides seed .unparseableSeed
  | kind (huri : isOtpauth seed = true) (hkind : lowercase (uriKind (seed.drop 10)) ≠ "totp") :
      Failure overrides seed (.badUri
        [.text "only totp is supported, got ", .quoted (String.ofList (uriKind (seed.drop 10)))])
  | pair (pair : List Char) (e : OtpError) (huri : isOtpauth seed = true)
      (hkind : lowercase (uriKind (seed.drop 10)) = "totp")
      (hfirst : firstFault (uriPairs (seed.drop 10)) = some pair) (hfault : fault pair = some e) :
      Failure overrides seed e
  | missing (huri : isOtpauth seed = true)
      (hkind : lowercase (uriKind (seed.drop 10)) = "totp")
      (hfirst : firstFault (uriPairs (seed.drop 10)) = none)
      (hsecret : (uriPairs (seed.drop 10)).any namesSecret = false) :
      Failure overrides seed (.badUri [.text "missing secret parameter"])
  | digits (digits : Option UInt32)
      (huri : isOtpauth seed = true → lowercase (uriKind (seed.drop 10)) = "totp" ∧
        firstFault (uriPairs (seed.drop 10)) = none ∧
        (uriPairs (seed.drop 10)).any namesSecret = true ∧
        digits = queryDigits none (uriPairs (seed.drop 10)))
      (hplain : isOtpauth seed = false → digits = none)
      (hbad : (overrides.digits.or digits).getD 6 = 0 ∨ 9 < (overrides.digits.or digits).getD 6) :
      Failure overrides seed (.badDigits ((overrides.digits.or digits).getD 6))
  | period
      (huri : isOtpauth seed = true → lowercase (uriKind (seed.drop 10)) = "totp" ∧
        firstFault (uriPairs (seed.drop 10)) = none ∧
        (uriPairs (seed.drop 10)).any namesSecret = true ∧
        ¬ ((overrides.digits.or (queryDigits none (uriPairs (seed.drop 10)))).getD 6 = 0 ∨
          9 < (overrides.digits.or (queryDigits none (uriPairs (seed.drop 10)))).getD 6)) :
      Failure overrides seed .badPeriod

section Failures

variable {overrides : OtpOverrides} {seed : List Char} {e : OtpError}

theorem parseOtpauthUri_error (huri : isOtpauth seed = true)
    (h : parseOtpauthUri seed = .error e) : Failure overrides seed e := by
  revert h
  unfold parseOtpauthUri
  by_cases hkind : lowercase (uriKind (seed.drop 10)) = "totp"
  · simp only [ne_eq, hkind, not_true_eq_false, if_false]
    have hquery := foldlM_takePair (none, UriParams.none) (uriPairs (seed.drop 10))
    cases hfirst : firstFault (uriPairs (seed.drop 10)) with
    | some pair =>
      rw [hfirst] at hquery
      obtain ⟨found, hfound⟩ := firstFault_isSome hfirst
      rw [hquery found hfound]
      intro h
      cases h
      exact .pair pair _ huri hkind hfirst hfound
    | none =>
      rw [hfirst] at hquery
      obtain ⟨next, hnext, hsecret, -⟩ := hquery
      rw [hnext]
      rcases next with ⟨secret, params⟩
      cases secret with
      | none =>
        intro h
        cases h
        exact .missing huri hkind hfirst hsecret.symm
      | some key => exact fun h => by cases h
  · simp only [ne_eq, hkind, not_false_eq_true, if_true]
    intro h
    cases h
    exact .kind huri hkind

theorem parseOtpauthUri_ok {key : Bytes} {params : UriParams}
    (h : parseOtpauthUri seed = .ok (key, params)) :
    lowercase (uriKind (seed.drop 10)) = "totp" ∧
      firstFault (uriPairs (seed.drop 10)) = none ∧
      (uriPairs (seed.drop 10)).any namesSecret = true ∧
      params.digits = queryDigits none (uriPairs (seed.drop 10)) := by
  revert h
  unfold parseOtpauthUri
  by_cases hkind : lowercase (uriKind (seed.drop 10)) = "totp"
  · simp only [ne_eq, hkind, not_true_eq_false, if_false]
    have hquery := foldlM_takePair (none, UriParams.none) (uriPairs (seed.drop 10))
    cases hfirst : firstFault (uriPairs (seed.drop 10)) with
    | some pair =>
      rw [hfirst] at hquery
      obtain ⟨found, hfound⟩ := firstFault_isSome hfirst
      rw [hquery found hfound]
      exact fun h => by cases h
    | none =>
      rw [hfirst] at hquery
      obtain ⟨next, hnext, hsecret, hdigits⟩ := hquery
      rw [hnext]
      rcases next with ⟨secret, params⟩
      cases secret with
      | none => exact fun h => by cases h
      | some key =>
        intro h
        cases h
        exact ⟨trivial, rfl, hsecret.symm, hdigits⟩
  · simp only [ne_eq, hkind, not_false_eq_true, if_true]
    exact fun h => by cases h

/-- What the key comes from, once there is one. -/
theorem resolveKey_ok {key : Bytes} {params : UriParams}
    (h : resolveKey seed = .ok (key, params)) :
    (isOtpauth seed = true → lowercase (uriKind (seed.drop 10)) = "totp" ∧
      firstFault (uriPairs (seed.drop 10)) = none ∧
      (uriPairs (seed.drop 10)).any namesSecret = true ∧
      params.digits = queryDigits none (uriPairs (seed.drop 10))) ∧
    (isOtpauth seed = false → params.digits = none) := by
  revert h
  unfold resolveKey
  by_cases huri : isOtpauth seed = true
  · rw [if_pos huri]
    intro h
    exact ⟨fun _ => parseOtpauthUri_ok h, fun hplain => absurd huri (by rw [hplain]; decide)⟩
  · rw [if_neg huri]
    split
    · exact fun h => by cases h
    split
    · exact fun h => by cases h
    · intro h
      cases h
      exact ⟨fun htrue => absurd htrue huri, fun _ => rfl⟩

theorem resolveKey_error (h : resolveKey seed = .error e) : Failure overrides seed e := by
  revert h
  unfold resolveKey
  by_cases huri : isOtpauth seed = true
  · rw [if_pos huri]
    exact parseOtpauthUri_error huri
  · rw [if_neg huri]
    have hplain : isOtpauth seed = false := Bool.eq_false_iff.mpr huri
    split
    · intro h
      cases h
      exact .unparseable hplain
    split
    · intro h
      cases h
      exact .unparseable hplain
    · exact fun h => by cases h

theorem resolveSeed_error {text : String} (h : resolveSeed text overrides = .error e) :
    Failure overrides (trim text.toList) e := by
  revert h
  unfold resolveSeed
  cases hkey : resolveKey (trim text.toList) with
  | error e' =>
    intro h
    cases h
    exact resolveKey_error hkey
  | ok found =>
    rcases found with ⟨key, params⟩
    obtain ⟨huri, hplain⟩ := resolveKey_ok hkey
    show (if (overrides.digits.or params.digits).getD 6 = 0 ∨
      9 < (overrides.digits.or params.digits).getD 6 then _ else _) = _ → _
    by_cases hbad : (overrides.digits.or params.digits).getD 6 = 0 ∨
        9 < (overrides.digits.or params.digits).getD 6
    · rw [if_pos hbad]
      intro h
      cases h
      exact .digits params.digits huri hplain hbad
    · rw [if_neg hbad]
      split
      · intro h
        cases h
        refine .period fun htrue => ?_
        obtain ⟨hkind, hfirst, hsecret, hdigits⟩ := huri htrue
        rw [hdigits] at hbad
        exact ⟨hkind, hfirst, hsecret, hbad⟩
      · exact fun h => by cases h

end Failures

/-- The variants of the errors. -/
inductive Variant where
  | notText
  | param
  | unparseableSeed
  | badUri
  | badAlgorithm
  | badDigits
  | badPeriod
  deriving DecidableEq

def SeedError.variant : SeedError → Variant
  | .notText => .notText
  | .param _ => .param
  | .otp .unparseableSeed => .unparseableSeed
  | .otp (.badUri _) => .badUri
  | .otp (.badAlgorithm _) => .badAlgorithm
  | .otp (.badDigits _) => .badDigits
  | .otp .badPeriod => .badPeriod

/-- A text without the values it prints. -/
def blank : Piece → Piece
  | .quoted _ => .quoted ""
  | .number _ => .number 0
  | piece => piece

def skeleton (e : SeedError) : List Piece := e.text.map blank

def Supported (digits : Option UInt32) : Prop :=
  ∀ d, digits = some d → ¬ (d = 0 ∨ 9 < d)

/-- A URI that is read to its end, and asks for digits that can be given or need
not be. -/
structure Readable (overrides : OtpOverrides) (rest : List Char) : Prop where
  kind : lowercase (uriKind rest) = "totp"
  fault : firstFault (uriPairs rest) = none
  secret : (uriPairs rest).any namesSecret
  digits : overrides.digits.isSome ∨ Supported (queryDigits none (uriPairs rest))

/-- A URI of which nothing is printed: it fails at its secret if anywhere. -/
structure Unprinted (overrides : OtpOverrides) (rest : List Char) : Prop where
  kind : lowercase (uriKind rest) = "totp"
  fault : ∀ pair, firstFault (uriPairs rest) = some pair → namesSecret pair = true
  digits : firstFault (uriPairs rest) = none → (uriPairs rest).any namesSecret →
    overrides.digits.isSome ∨ Supported (queryDigits none (uriPairs rest))

/-- If the seed is a URI, and the parameters of the entry can be read, the URI is
as stated. -/
def OfUri (P : OtpOverrides → List Char → Prop) (seed : Bytes) (m : ValueMeta) : Prop :=
  ∀ text overrides, String.fromUTF8? ⟨seed.toArray⟩ = some text →
    overridesFromMeta m = .ok overrides → isOtpauth (trim text.toList) = true →
      P overrides ((trim text.toList).drop 10)

section Errors

variable {hmac : Hmac} {now now' : UInt64} {seed seed' : Bytes} {m : ValueMeta} {e e' : SeedError}
  {overrides : OtpOverrides}

theorem resolveSeed_ok {text : String} {overrides : OtpOverrides} {resolved : ResolvedSeed}
    (h : resolveSeed text overrides = .ok resolved) :
    ¬ (resolved.params.digits = 0 ∨ 9 < resolved.params.digits) ∧
      resolved.params.period ≠ 0 := by
  revert h
  unfold resolveSeed
  split
  · exact fun h => by cases h
  intro h
  simp only at h
  split at h
  · cases h
  rename_i hdigits
  split at h
  · cases h
  rename_i hperiod
  cases h
  exact ⟨hdigits, hperiod⟩

/-- What a seed is resolved to does give a code. -/
theorem totp_ok (hmac : Hmac) (now : UInt64) {resolved : ResolvedSeed}
    (hdigits : ¬ (resolved.params.digits = 0 ∨ 9 < resolved.params.digits))
    (hperiod : resolved.params.period ≠ 0) :
    ∃ code, totp hmac resolved.key now resolved.params = .ok code := by
  unfold totp hotp
  rw [if_neg hperiod, if_neg hdigits]
  exact ⟨_, rfl⟩

/-- The ways to fail. -/
theorem deriveCode_error (h : deriveCode hmac now seed m = .error e) :
    (String.fromUTF8? ⟨seed.toArray⟩ = none ∧ e = .notText) ∨
      ∃ text, String.fromUTF8? ⟨seed.toArray⟩ = some text ∧
        (overridesFromMeta m = .error e ∨
          ∃ overrides e', overridesFromMeta m = .ok overrides ∧ e = .otp e' ∧
            Failure overrides (trim text.toList) e') := by
  revert h
  unfold deriveCode resolve
  cases htext : String.fromUTF8? ⟨seed.toArray⟩ with
  | none =>
    intro h
    cases h
    exact Or.inl ⟨rfl, rfl⟩
  | some text =>
    intro h
    refine Or.inr ⟨text, rfl, ?_⟩
    cases hmeta : overridesFromMeta m with
    | error e' =>
      rw [hmeta] at h
      cases h
      exact Or.inl rfl
    | ok overrides =>
      rw [hmeta] at h
      simp only at h
      cases hseed : resolveSeed text overrides with
      | error e' =>
        rw [hseed] at h
        cases h
        exact Or.inr ⟨overrides, e', rfl, rfl, resolveSeed_error hseed⟩
      | ok resolved =>
        rw [hseed] at h
        obtain ⟨hdigits, hperiod⟩ := resolveSeed_ok hseed
        obtain ⟨code, hcode⟩ := totp_ok hmac now hdigits hperiod
        simp only [Except.mapError] at h
        rw [hcode] at h
        cases h

theorem parseAlgorithm_error {s : String} {e : OtpError} (h : parseAlgorithm s = .error e) :
    ∃ label, e = .badAlgorithm label := by
  unfold parseAlgorithm at h
  split at h
  · cases h
  · cases h
    exact ⟨_, rfl⟩

theorem overridesFromMeta_error (h : overridesFromMeta m = .error e) :
    e = .param "digits" ∨ e = .param "period" ∨ ∃ label, e = .otp (.badAlgorithm label) := by
  unfold overridesFromMeta at h
  cases hdigits : digitsParam m with
  | error e' =>
    rw [hdigits] at h
    cases h
    unfold digitsParam at hdigits
    split at hdigits
    · cases hdigits
    split at hdigits
    · cases hdigits
    · cases hdigits
      exact Or.inl rfl
  | ok digits =>
    cases hperiod : periodParam m with
    | error e' =>
      rw [hdigits, hperiod] at h
      cases h
      unfold periodParam at hperiod
      split at hperiod
      · cases hperiod
      split at hperiod
      · cases hperiod
      · cases hperiod
        exact Or.inr (Or.inl rfl)
    | ok period =>
      cases halgorithm : algorithmParam m with
      | error e' =>
        rw [hdigits, hperiod, halgorithm] at h
        cases h
        unfold algorithmParam at halgorithm
        split at halgorithm
        · cases halgorithm
        split at halgorithm
        · cases halgorithm
        · rename_i hparse
          cases halgorithm
          obtain ⟨label, hlabel⟩ := parseAlgorithm_error hparse
          exact Or.inr (Or.inr ⟨label, by rw [hlabel]⟩)
      | ok algorithm =>
        rw [hdigits, hperiod, halgorithm] at h
        cases h

def Plain (text : List Piece) : Prop := ∀ piece ∈ text, ∃ s, piece = .text s

/-- A text that prints no value is known by its skeleton. -/
theorem Plain.text_eq {text other : List Piece} (h : Plain text)
    (hblank : other.map blank = text.map blank) : other = text := by
  have hself : text.map blank = text := by
    conv_rhs => rw [← List.map_id text]
    apply List.map_congr_left
    intro piece hmem
    obtain ⟨s, hs⟩ := h piece hmem
    rw [hs]
    rfl
  rw [hself] at hblank
  have hother : ∀ piece ∈ other, blank piece = piece := by
    intro piece hmem
    obtain ⟨s, hs⟩ := h (blank piece) (hblank ▸ List.mem_map_of_mem hmem)
    cases piece with
    | quoted v => cases hs
    | number n => cases hs
    | _ => rfl
  calc other = other.map id := (List.map_id other).symm
    _ = other.map blank := (List.map_congr_left hother).symm
    _ = text := hblank

theorem plain_singleton (s : String) : Plain [.text s] := by
  intro piece hmem
  exact ⟨s, List.mem_singleton.mp hmem⟩

theorem plain_pair (s t : String) : Plain [.text s, .text t] := by
  intro piece hmem
  rcases List.mem_cons.mp hmem with heq | hmem
  · exact ⟨s, heq⟩
  · exact ⟨t, List.mem_singleton.mp hmem⟩

theorem fault_cases {pair : List Char} {e : OtpError} (h : fault pair = some e) :
    (namesSecret pair = true ∧ e = .badUri [.text "secret is not valid base32"]) ∨
      (namesSecret pair = false ∧ ((∃ label, e = .badAlgorithm label) ∨
        (∃ v, e = .badUri [.text "digits ", .quoted v, .text " is not a number"]) ∨
          ∃ v, e = .badUri [.text "period ", .quoted v, .text " is not a number"])) := by
  revert h
  unfold fault namesSecret
  by_cases hsecret : pairName pair = "secret"
  · rw [if_pos hsecret]
    split
    · intro h
      cases h
      exact Or.inl ⟨decide_eq_true hsecret, rfl⟩
    · exact fun h => by cases h
  rw [if_neg hsecret]
  intro h
  refine Or.inr ⟨decide_eq_false hsecret, ?_⟩
  split at h
  · split at h
    · cases h
    · rename_i hparse
      cases h
      exact Or.inl (parseAlgorithm_error hparse)
  split at h
  · split at h
    · cases h
    · cases h
      exact Or.inr (Or.inl ⟨_, rfl⟩)
  split at h
  · split at h
    · cases h
    · cases h
      exact Or.inr (Or.inr ⟨_, rfl⟩)
  · cases h

/-- Where no URI asks for other digits, the entry does if they are turned down. -/
theorem overridden {digits : Option UInt32} (hdigits : overrides.digits.isSome ∨ Supported digits)
    (hbad : (overrides.digits.or digits).getD 6 = 0 ∨ 9 < (overrides.digits.or digits).getD 6) :
    ∃ n, overrides.digits = some n := by
  cases hover : overrides.digits with
  | some n => exact ⟨n, rfl⟩
  | none =>
    rw [hover] at hdigits hbad
    rcases hdigits with hsome | hsupported
    · cases hsome
    · cases digits with
      | none => exact absurd hbad (by decide)
      | some d => exact absurd hbad (hsupported d rfl)

/-- Digits that the entry asks for are the ones reported. -/
theorem Failure.digits_eq {text : List Char} {d n : UInt32}
    (h : Failure overrides text (.badDigits d)) (hsome : overrides.digits = some n) : d = n := by
  generalize herror : OtpError.badDigits d = error at h
  cases h with
  | digits digits huri hplain hbad =>
    cases herror
    rw [hsome]
    rfl
  | pair pair e huri hkind hfirst hfault =>
    rw [← herror] at hfault
    rcases fault_cases hfault with ⟨-, h⟩ | ⟨-, ⟨_, h⟩ | ⟨_, h⟩ | ⟨_, h⟩⟩ <;> cases h
  | _ => cases herror

/-- Nothing that depends on the seed is printed of a readable URI. -/
theorem text_of_readable (h : deriveCode hmac now seed m = .error e)
    (h' : deriveCode hmac now' seed' m = .error e') (hvariant : e'.variant = e.variant)
    (hreadable : OfUri Readable seed m) : e'.text = e.text := by
  rcases deriveCode_error h with
    ⟨-, heq⟩ | ⟨text, htext, hmeta | ⟨overrides, error, hover, heq, hf⟩⟩
  · rw [heq] at hvariant ⊢
    rcases e' with _ | name | _ | _ | _ | _ | _ <;> first | rfl | cases hvariant
  · rcases deriveCode_error h' with ⟨-, heq'⟩ | ⟨-, -, hmeta' | ⟨_, _, hover', -, -⟩⟩
    · rw [heq'] at hvariant
      rcases overridesFromMeta_error hmeta with heq | heq | ⟨_, heq⟩ <;>
      · rw [heq] at hvariant
        cases hvariant
    · rw [hmeta] at hmeta'
      cases hmeta'
      rfl
    · rw [hmeta] at hover'
      cases hover'
  rcases deriveCode_error h' with
    ⟨-, heq'⟩ | ⟨text', -, hmeta' | ⟨overrides', error', hover', heq', hf'⟩⟩
  · rw [heq', heq] at hvariant
    cases error <;> cases hvariant
  · rw [hover] at hmeta'
    cases hmeta'
  rw [hover] at hover'
  cases hover'
  rw [heq, heq'] at hvariant ⊢
  have huri := hreadable text overrides htext hover
  cases hf with
  | unparseable hplain => cases error' <;> first | rfl | cases hvariant
  | kind htrue hkind => exact absurd (huri htrue).kind hkind
  | pair pair _ htrue hkind hfirst =>
    rw [(huri htrue).fault] at hfirst
    cases hfirst
  | missing htrue hkind hfirst hsecret =>
    have hany := (huri htrue).secret
    rw [hsecret] at hany
    cases hany
  | digits digits hquery hplain hbad =>
    cases error' with
    | badDigits d =>
      have hasked : overrides.digits.isSome ∨ Supported digits := by
        by_cases htrue : isOtpauth (trim text.toList) = true
        · rw [(hquery htrue).2.2.2]
          exact (huri htrue).digits
        · rw [hplain (Bool.eq_false_iff.mpr htrue)]
          exact Or.inr fun d hd => by cases hd
      obtain ⟨n, hn⟩ := overridden hasked hbad
      rw [hf'.digits_eq hn, hn]
      rfl
    | _ => cases hvariant
  | period hquery => cases error' <;> first | rfl | cases hvariant

theorem skeleton_badDigits {error : OtpError} {d : UInt32}
    (h : skeleton (.otp error) = skeleton (.otp (.badDigits d))) : ∃ d', error = .badDigits d' := by
  cases error with
  | badDigits d' => exact ⟨d', rfl⟩
  | _ => simp [skeleton, SeedError.text, OtpError.text, blank] at h

/-- The entry's own parameters fail alike for every seed. -/
theorem text_of_meta (h : overridesFromMeta m = .error e)
    (h' : deriveCode hmac now' seed' m = .error e') (hskeleton : skeleton e' = skeleton e) :
    e'.text = e.text := by
  rcases deriveCode_error h' with ⟨-, heq⟩ | ⟨-, -, hmeta | ⟨_, _, hover, -, -⟩⟩
  · rw [heq] at hskeleton ⊢
    exact ((plain_singleton _).text_eq hskeleton.symm).symm
  · rw [h] at hmeta
    cases hmeta
    rfl
  · rw [h] at hover
    cases hover

/-- A seed whose failure prints nothing of it fails with the text of every seed
that fails alike. -/
theorem text_of_unprinted (h : deriveCode hmac now seed m = .error e)
    (h' : deriveCode hmac now' seed' m = .error e') (hskeleton : skeleton e' = skeleton e)
    (hunprinted : OfUri Unprinted seed m) : e'.text = e.text := by
  rcases deriveCode_error h with
    ⟨-, heq⟩ | ⟨text, htext, hmeta | ⟨overrides, error, hover, heq, hf⟩⟩
  · rw [heq] at hskeleton ⊢
    exact (plain_singleton _).text_eq hskeleton
  · exact text_of_meta hmeta h' hskeleton
  have huri := hunprinted text overrides htext hover
  rw [heq] at hskeleton ⊢
  cases hf with
  | unparseable hplain => exact (plain_singleton _).text_eq hskeleton
  | kind htrue hkind => exact absurd (huri htrue).kind hkind
  | pair pair _ htrue hkind hfirst hfault =>
    have hsecret := (huri htrue).fault pair hfirst
    rcases fault_cases hfault with ⟨-, hbad⟩ | ⟨hother, -⟩
    · rw [hbad] at hskeleton ⊢
      exact (plain_pair _ _).text_eq hskeleton
    · rw [hsecret] at hother
      cases hother
  | missing htrue hkind hfirst hsecret => exact (plain_pair _ _).text_eq hskeleton
  | digits digits hquery hplain hbad =>
    have hasked : overrides.digits.isSome ∨ Supported digits := by
      by_cases htrue : isOtpauth (trim text.toList) = true
      · obtain ⟨-, hfirst, hsecret, hdigits⟩ := hquery htrue
        rw [hdigits]
        exact (huri htrue).digits hfirst hsecret
      · rw [hplain (Bool.eq_false_iff.mpr htrue)]
        exact Or.inr fun d hd => by cases hd
    obtain ⟨n, hn⟩ := overridden hasked hbad
    rcases deriveCode_error h' with
      ⟨-, heq'⟩ | ⟨text', -, hmeta' | ⟨overrides', error', hover', heq', hf'⟩⟩
    · rw [heq'] at hskeleton
      simp [skeleton, SeedError.text, OtpError.text, blank] at hskeleton
    · rw [hover] at hmeta'
      cases hmeta'
    · rw [hover] at hover'
      cases hover'
      rw [heq'] at hskeleton ⊢
      obtain ⟨d', hd'⟩ := skeleton_badDigits hskeleton
      rw [hd'] at hf' ⊢
      rw [hf'.digits_eq hn, hn]
      rfl
  | period hquery => exact (plain_singleton _).text_eq hskeleton

theorem fromUTF8_toUTF8 (s : String) :
    String.fromUTF8? ⟨s.toUTF8.data.toList.toArray⟩ = some s := by
  have hbytes : (⟨s.toUTF8.data.toList.toArray⟩ : ByteArray) = s.toByteArray := by simp
  rw [hbytes]
  unfold String.fromUTF8?
  simp only [Option.dite_none_right_eq_some, Option.some.injEq]
  exact ⟨s.isValidUTF8, rfl⟩

/-- A seed of which no key can be read fails so under every entry. -/
theorem deriveCode_of_key (hmac : Hmac) (now : UInt64) {text : String} {error : OtpError}
    (hover : overridesFromMeta m = .ok overrides)
    (hkey : resolveKey (trim text.toList) = .error error) :
    deriveCode hmac now text.toUTF8.data.toList m = .error (.otp error) := by
  unfold deriveCode resolve
  rw [fromUTF8_toUTF8, hover]
  simp only [resolveSeed, hkey]
  rfl

theorem deriveCode_of_digits (hmac : Hmac) (now : UInt64) {text : String} {key : Bytes}
    {params : UriParams} {d : UInt32} (hover : overridesFromMeta m = .ok overrides)
    (hnone : overrides.digits = none)
    (hkey : resolveKey (trim text.toList) = .ok (key, params)) (hd : params.digits = some d)
    (hbad : d = 0 ∨ 9 < d) :
    deriveCode hmac now text.toUTF8.data.toList m = .error (.otp (.badDigits d)) := by
  unfold deriveCode resolve
  rw [fromUTF8_toUTF8, hover]
  simp only [resolveSeed, hkey, hnone, hd, Option.none_or, Option.getD_some, if_pos hbad]
  rfl

/-- The seeds that go wrong in a way fail with one text, so that text is not of
two of them. -/
theorem two_texts {P : SeedError → Prop} {text : List Piece} {a b : Bytes} {ea eb : SeedError}
    (hsame : ∀ seed' e', deriveCode hmac now seed' m = .error e' → P e' → e'.text = text)
    (ha : deriveCode hmac now a m = .error ea) (hb : deriveCode hmac now b m = .error eb)
    (hpa : P ea) (hpb : P eb) (hne : ea.text ≠ eb.text) : False :=
  hne ((hsame a ea ha hpa).trans (hsame b eb hb hpb).symm)

variable {P : SeedError → Prop} {text : List Piece}

theorem leak_of_key {a b : String} {ea eb : OtpError}
    (hover : overridesFromMeta m = .ok overrides)
    (hsame : ∀ seed' e', deriveCode hmac now seed' m = .error e' → P e' → e'.text = text)
    (ha : resolveKey (trim a.toList) = .error ea) (hb : resolveKey (trim b.toList) = .error eb)
    (hpa : P (.otp ea)) (hpb : P (.otp eb))
    (hne : SeedError.text (.otp ea) ≠ SeedError.text (.otp eb)) : False :=
  two_texts hsame (deriveCode_of_key hmac now hover ha) (deriveCode_of_key hmac now hover hb)
    hpa hpb hne

theorem leak_kind (hover : overridesFromMeta m = .ok overrides)
    (hsame : ∀ seed' e', deriveCode hmac now seed' m = .error e' → P e' → e'.text = text)
    (hp : ∀ v, P (.otp (.badUri [.text "only totp is supported, got ", .quoted v]))) :
    False := by
  have ha : resolveKey (trim "otpauth://a".toList) =
      .error (.badUri [.text "only totp is supported, got ", .quoted "a"]) := by decide
  have hb : resolveKey (trim "otpauth://b".toList) =
      .error (.badUri [.text "only totp is supported, got ", .quoted "b"]) := by decide
  exact leak_of_key hover hsame ha hb (hp _) (hp _) (by decide)

theorem leak_algorithm (hover : overridesFromMeta m = .ok overrides)
    (hsame : ∀ seed' e', deriveCode hmac now seed' m = .error e' → P e' → e'.text = text)
    (hp : ∀ label, P (.otp (.badAlgorithm label))) :
    False := by
  have ha : resolveKey (trim "otpauth://totp?algorithm=a".toList) =
      .error (.badAlgorithm "a") := by decide
  have hb : resolveKey (trim "otpauth://totp?algorithm=b".toList) =
      .error (.badAlgorithm "b") := by decide
  exact leak_of_key hover hsame ha hb (hp _) (hp _) (by decide)

theorem leak_uriDigits (hover : overridesFromMeta m = .ok overrides)
    (hsame : ∀ seed' e', deriveCode hmac now seed' m = .error e' → P e' → e'.text = text)
    (hp : ∀ v, P (.otp (.badUri [.text "digits ", .quoted v, .text " is not a number"]))) :
    False := by
  have ha : resolveKey (trim "otpauth://totp?digits=a".toList) =
      .error (.badUri [.text "digits ", .quoted "a", .text " is not a number"]) := by decide
  have hb : resolveKey (trim "otpauth://totp?digits=b".toList) =
      .error (.badUri [.text "digits ", .quoted "b", .text " is not a number"]) := by decide
  exact leak_of_key hover hsame ha hb (hp _) (hp _) (by decide)

theorem leak_uriPeriod (hover : overridesFromMeta m = .ok overrides)
    (hsame : ∀ seed' e', deriveCode hmac now seed' m = .error e' → P e' → e'.text = text)
    (hp : ∀ v, P (.otp (.badUri [.text "period ", .quoted v, .text " is not a number"]))) :
    False := by
  have ha : resolveKey (trim "otpauth://totp?period=a".toList) =
      .error (.badUri [.text "period ", .quoted "a", .text " is not a number"]) := by decide
  have hb : resolveKey (trim "otpauth://totp?period=b".toList) =
      .error (.badUri [.text "period ", .quoted "b", .text " is not a number"]) := by decide
  exact leak_of_key hover hsame ha hb (hp _) (hp _) (by decide)

theorem leak_digits (hover : overridesFromMeta m = .ok overrides) (hnone : overrides.digits = none)
    (hsame : ∀ seed' e', deriveCode hmac now seed' m = .error e' → P e' → e'.text = text)
    (hp : ∀ d, P (.otp (.badDigits d))) : False := by
  have hzero : resolveKey (trim "otpauth://totp?secret=AA&digits=0".toList) =
      .ok ([0], ⟨some 0, none, none⟩) := by decide
  have hten : resolveKey (trim "otpauth://totp?secret=AA&digits=10".toList) =
      .ok ([0], ⟨some 10, none, none⟩) := by decide
  apply two_texts hsame
    (deriveCode_of_digits hmac now hover hnone hzero rfl (by decide))
    (deriveCode_of_digits hmac now hover hnone hten rfl (by decide)) (hp _) (hp _)
  decide

theorem failure_of_text {text : String} (h : deriveCode hmac now seed m = .error e)
    (htext : String.fromUTF8? ⟨seed.toArray⟩ = some text)
    (hover : overridesFromMeta m = .ok overrides) :
    ∃ error, e = .otp error ∧ Failure overrides (trim text.toList) error := by
  rcases deriveCode_error h with
    ⟨hnone, -⟩ | ⟨text', htext', hmeta | ⟨overrides', error, hover', heq, hf⟩⟩
  · rw [htext] at hnone
    cases hnone
  · rw [hover] at hmeta
    cases hmeta
  · rw [htext] at htext'
    cases htext'
    rw [hover] at hover'
    cases hover'
    exact ⟨error, heq, hf⟩

/-- A URI that is not readable fails in a way whose text differs. -/
theorem readable_of_text (h : deriveCode hmac now seed m = .error e)
    (hsame : ∀ seed' e', deriveCode hmac now seed' m = .error e' → e'.variant = e.variant →
      e'.text = e.text) : OfUri Readable seed m := by
  intro text overrides htext hover huri
  obtain ⟨error, heq, hf⟩ := failure_of_text h htext hover
  rw [heq] at hsame
  cases hf with
  | unparseable hplain =>
    rw [huri] at hplain
    cases hplain
  | kind htrue hkind =>
    exact (leak_kind hover hsame fun v => by simp only [SeedError.variant]).elim
  | pair pair _ htrue hkind hfirst hfault =>
    rcases fault_cases hfault with ⟨-, hbad⟩ | ⟨-, ⟨_, hbad⟩ | ⟨_, hbad⟩ | ⟨_, hbad⟩⟩
    · rw [hbad] at hsame
      exact (leak_kind hover hsame fun v => rfl).elim
    · rw [hbad] at hsame
      exact (leak_algorithm hover hsame fun label => rfl).elim
    · rw [hbad] at hsame
      exact (leak_kind hover hsame fun v => rfl).elim
    · rw [hbad] at hsame
      exact (leak_kind hover hsame fun v => rfl).elim
  | missing htrue hkind hfirst hsecret => exact (leak_kind hover hsame fun v => rfl).elim
  | digits digits hquery hplain hbad =>
    obtain ⟨hkind, hfirst, hsecret, hdigits⟩ := hquery huri
    cases hsome : overrides.digits with
    | some n => exact ⟨hkind, hfirst, hsecret, Or.inl (by rw [hsome]; rfl)⟩
    | none => exact (leak_digits hover hsome hsame fun d => rfl).elim
  | period hquery =>
    obtain ⟨hkind, hfirst, hsecret, hgood⟩ := hquery huri
    refine ⟨hkind, hfirst, hsecret, ?_⟩
    cases hsome : overrides.digits with
    | some n => exact Or.inl rfl
    | none =>
      refine Or.inr fun d hd => ?_
      rw [hsome, hd] at hgood
      exact hgood

/-- A URI of which something is printed fails in a way whose text differs. -/
theorem unprinted_of_text (h : deriveCode hmac now seed m = .error e)
    (hsame : ∀ seed' e', deriveCode hmac now seed' m = .error e' → skeleton e' = skeleton e →
      e'.text = e.text) : OfUri Unprinted seed m := by
  intro text overrides htext hover huri
  obtain ⟨error, heq, hf⟩ := failure_of_text h htext hover
  rw [heq] at hsame
  cases hf with
  | unparseable hplain =>
    rw [huri] at hplain
    cases hplain
  | kind htrue hkind =>
    exact (leak_kind hover hsame fun v => by
      simp [skeleton, SeedError.text, OtpError.text, blank]).elim
  | pair pair _ htrue hkind hfirst hfault =>
    rcases fault_cases hfault with ⟨hsecret, -⟩ | ⟨-, ⟨_, hbad⟩ | ⟨_, hbad⟩ | ⟨_, hbad⟩⟩
    · refine ⟨hkind, ?_, ?_⟩
      · intro other hother
        rw [hfirst] at hother
        cases hother
        exact hsecret
      · intro hnone
        rw [hfirst] at hnone
        cases hnone
    · rw [hbad] at hsame
      exact (leak_algorithm hover hsame fun label => rfl).elim
    · rw [hbad] at hsame
      exact (leak_uriDigits hover hsame fun v => rfl).elim
    · rw [hbad] at hsame
      exact (leak_uriPeriod hover hsame fun v => rfl).elim
  | missing htrue hkind hfirst hsecret =>
    refine ⟨hkind, ?_, ?_⟩
    · intro pair hpair
      rw [hfirst] at hpair
      cases hpair
    · intro _ hany
      rw [hsecret] at hany
      cases hany
  | digits digits hquery hplain hbad =>
    obtain ⟨hkind, hfirst, hsecret, hdigits⟩ := hquery huri
    refine ⟨hkind, ?_, ?_⟩
    · intro pair hpair
      rw [hfirst] at hpair
      cases hpair
    · intro _ _
      cases hsome : overrides.digits with
      | some n => exact Or.inl rfl
      | none => exact (leak_digits hover hsome hsame fun d => rfl).elim
  | period hquery =>
    obtain ⟨hkind, hfirst, hsecret, hgood⟩ := hquery huri
    refine ⟨hkind, ?_, ?_⟩
    · intro pair hpair
      rw [hfirst] at hpair
      cases hpair
    · intro _ _
      cases hsome : overrides.digits with
      | some n => exact Or.inl rfl
      | none =>
        refine Or.inr fun d hd => ?_
        rw [hsome, hd] at hgood
        exact hgood

end Errors

/-- The derivation as the handler calls it, with the formatting of its errors. -/
def rendered (render : List Piece → String) (hmac : Hmac) (now : UInt64) (seed : Bytes)
    (m : ValueMeta) : Except String Bytes :=
  match deriveCode hmac now seed m with
  | .error e => .error (render e.text)
  | .ok code => .ok code.toUTF8.data.toList

/-- A get of an otp-typed key reports the text of the error. -/
theorem finishGet_error {render : List Piece → String} {hmac : Hmac} {now : UInt64}
    {ctx : HandlerCtx} {s : State} {key : String} {moment : Monotonic} {store : Store}
    {seed : Bytes} {e : SeedError} (dryRun : Bool)
    (hctx : ctx.deriveCode = rendered render hmac now)
    (hread : s.store.get key s.store.controlCap moment = (.ok (some seed), store))
    (hotp : metaIsOtp (metaOf store key) = true)
    (h : deriveCode hmac now seed (metaOf store key) = .error e) :
    (finishGet ctx s key dryRun moment).1 = .error .badRequest [.text (render e.text)] := by
  unfold finishGet
  rw [hread]
  simp only [State.withStore, hotp, if_true, hctx, rendered, h]

/-- What the error of a seed says: it is the same for every seed that fails with
the variant if and only if the seed is no URI or one that is read to its end, and
it prints nothing of the seed if and only if the URI fails at its secret if
anywhere. -/
theorem otp_errors (hmac : Hmac) (now : UInt64) (seed : Bytes) (m : ValueMeta) (e : SeedError)
    (h : deriveCode hmac now seed m = .error e) :
    ((∀ now' seed' e', deriveCode hmac now' seed' m = .error e' → e'.variant = e.variant →
        e'.text = e.text) ↔ OfUri Readable seed m) ∧
    ((∀ now' seed' e', deriveCode hmac now' seed' m = .error e' → skeleton e' = skeleton e →
        e'.text = e.text) ↔ OfUri Unprinted seed m) ∧
    ∀ (render : List Piece → String) (ctx : HandlerCtx) (s : State) (key : String) (dryRun : Bool)
      (moment : Monotonic) (store : Store), ctx.deriveCode = rendered render hmac now →
      s.store.get key s.store.controlCap moment = (.ok (some seed), store) →
      metaOf store key = m → metaIsOtp m = true →
      (finishGet ctx s key dryRun moment).1 = .error .badRequest [.text (render e.text)] := by
  refine ⟨⟨?_, ?_⟩, ⟨?_, ?_⟩, ?_⟩
  · exact fun hsame => readable_of_text h (hsame now)
  · exact fun hreadable now' seed' e' h' hvariant => text_of_readable h h' hvariant hreadable
  · exact fun hsame => unprinted_of_text h (hsame now)
  · exact fun hunprinted now' seed' e' h' hskeleton => text_of_unprinted h h' hskeleton hunprinted
  · intro render ctx s key dryRun moment store hctx hread hmeta hotp
    rw [← hmeta] at hotp h
    exact finishGet_error dryRun hctx hread hotp h

def zeroHmac : Hmac where
  digest _ _ _ := List.replicate 20 0
  length_le _ _ _ := by rw [List.length_replicate]

def otpMeta : ValueMeta := ⟨some "otp", ∅⟩

theorem plain_seed_unprinted :
    deriveCode zeroHmac 7 "0189".toUTF8.data.toList otpMeta = .error (.otp .unparseableSeed) ∧
      (SeedError.otp .unparseableSeed).text = OtpError.unparseableSeed.text := by
  have hplain : isOtpauth (trim "no seed!".toList) = false := by decide
  have hfails : deriveCode zeroHmac 0 "no seed!".toUTF8.data.toList otpMeta =
      .error (.otp .unparseableSeed) := by decide
  have hother : deriveCode zeroHmac 7 "0189".toUTF8.data.toList otpMeta =
      .error (.otp .unparseableSeed) := by decide
  refine ⟨hother, (otp_errors zeroHmac 0 _ _ _ hfails).1.mpr ?_ 7 _ _ hother rfl⟩
  intro text overrides htext _ huri
  rw [fromUTF8_toUTF8] at htext
  cases htext
  rw [hplain] at huri
  cases huri

/-- A secret that stands where the type should be is printed. -/
theorem seed_printed :
    deriveCode zeroHmac 0 "otpauth://JBSWY3DP".toUTF8.data.toList otpMeta =
        .error (.otp (.badUri [.text "only totp is supported, got ", .quoted "JBSWY3DP"])) ∧
      deriveCode zeroHmac 0 "otpauth://GEZDGNBV".toUTF8.data.toList otpMeta =
        .error (.otp (.badUri [.text "only totp is supported, got ", .quoted "GEZDGNBV"])) := by
  constructor <;> decide

end Otp

end Daemon

end CacheWarden
