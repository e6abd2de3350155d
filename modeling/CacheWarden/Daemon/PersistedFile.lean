import CacheWarden.Daemon.DefinitionFile
import CacheWarden.Lib.Toml

/-!
# The text of the persisted definitions

The file is written by hand, one table for each definition, and read back
through a TOML parser, the grammar of an entry, and the checks that the
configuration shares.
-/

set_option autoImplicit false

namespace CacheWarden

namespace Daemon

/-- Why a TOML tree is not of the type asked for. -/
inductive DecodeError where
  | unknownField (name : String)
  | invalidType (expected : String)
  | outOfRange (expected : String)
  deriving DecidableEq

/-- The parser, and the texts of its errors. -/
structure TomlCrate where
  parse : String → Except String Toml.Table
  describe : DecodeError → String

section Decode

def decodeString : Toml.Value → Except DecodeError String
  | .string s => .ok s
  | _ => .error (.invalidType "a string")

def decodeStrings : Toml.Value → Except DecodeError (List String)
  | .array items => items.mapM decodeString
  | _ => .error (.invalidType "a sequence")

def decodeU32 : Toml.Value → Except DecodeError UInt32
  | .integer n =>
    if 0 ≤ n.toInt ∧ n.toInt < 2 ^ 32 then .ok (UInt32.ofNat n.toInt.toNat)
    else .error (.outOfRange "u32")
  | _ => .error (.invalidType "u32")

def decodeU64 : Toml.Value → Except DecodeError UInt64
  | .integer n =>
    if 0 ≤ n.toInt then .ok (UInt64.ofNat n.toInt.toNat) else .error (.outOfRange "u64")
  | _ => .error (.invalidType "u64")

def decodeFields {α : Type} (decode : Toml.Value → Except DecodeError α) :
    Toml.Table → Except DecodeError (KeyMap α)
  | [] => .ok ∅
  | (k, v) :: fields => do
    let a ← decode v
    let decoded ← decodeFields decode fields
    .ok (decoded.insert k a)

def decodeMap {α : Type} (decode : Toml.Value → Except DecodeError α) :
    Toml.Value → Except DecodeError (KeyMap α)
  | .table fields => decodeFields decode fields
  | _ => .error (.invalidType "a map")

/-- `deny_unknown_fields`. -/
def denyUnknown (known : List String) (fields : Toml.Table) : Except DecodeError Unit :=
  match fields.find? (fun p => p.1 ∉ known) with
  | some p => .error (.unknownField p.1)
  | none => .ok ()

def optional {α : Type} (decode : Toml.Value → Except DecodeError α) (fields : Toml.Table)
    (name : String) : Except DecodeError (Option α) :=
  match fields.get name with
  | none => .ok none
  | some v => (decode v).map some

structure CommandTable where
  argv : Option (List String)
  cwd : Option String
  env : KeyMap String

def CommandTable.decode : Toml.Value → Except DecodeError CommandTable
  | .table fields => do
    denyUnknown ["argv", "cwd", "env"] fields
    let argv ← optional decodeStrings fields "argv"
    let cwd ← optional decodeString fields "cwd"
    let env ← optional (decodeMap decodeString) fields "env"
    .ok ⟨argv, cwd, env.getD ∅⟩
  | _ => .error (.invalidType "a table")

structure OpTable where
  uri : Option String
  account : Option String

def OpTable.decode : Toml.Value → Except DecodeError OpTable
  | .table fields => do
    denyUnknown ["uri", "account"] fields
    let uri ← optional decodeString fields "uri"
    let account ← optional decodeString fields "account"
    .ok ⟨uri, account⟩
  | _ => .error (.invalidType "a table")

/-- One table of the file. The last five fields are read only to be refused, the
namespace among them where the path of the table already names it. -/
structure DefEntry where
  source : Option String
  command : Option Toml.Value
  op : Option OpTable
  softTtl : Option String
  hardTtl : Option String
  valueType : Option String
  otpDigits : Option UInt32
  otpPeriod : Option UInt64
  otpAlgorithm : Option String
  pinnedNamespace : Option String
  preload : Option Toml.Value
  value : Option Toml.Value
  valueStdin : Option Toml.Value
  static : Option Toml.Value

def DefEntry.fields : List String :=
  ["source", "command", "op", "soft-ttl", "hard-ttl", "type", "otp-digits", "otp-period",
    "otp-algorithm", "namespace", "preload", "value", "value-stdin", "static"]

def DefEntry.decode : Toml.Value → Except DecodeError DefEntry
  | .table fields => do
    denyUnknown DefEntry.fields fields
    let source ← optional decodeString fields "source"
    let op ← optional OpTable.decode fields "op"
    let softTtl ← optional decodeString fields "soft-ttl"
    let hardTtl ← optional decodeString fields "hard-ttl"
    let valueType ← optional decodeString fields "type"
    let otpDigits ← optional decodeU32 fields "otp-digits"
    let otpPeriod ← optional decodeU64 fields "otp-period"
    let otpAlgorithm ← optional decodeString fields "otp-algorithm"
    let pinnedNamespace ← optional decodeString fields "namespace"
    .ok
      { source := source
        command := Toml.Table.get fields "command"
        op := op
        softTtl := softTtl
        hardTtl := hardTtl
        valueType := valueType
        otpDigits := otpDigits
        otpPeriod := otpPeriod
        otpAlgorithm := otpAlgorithm
        pinnedNamespace := pinnedNamespace
        preload := Toml.Table.get fields "preload"
        value := Toml.Table.get fields "value"
        valueStdin := Toml.Table.get fields "value-stdin"
        static := Toml.Table.get fields "static" }
  | _ => .error (.invalidType "a table")

/-- The tables of the file, by namespace and key. -/
def PersistFile.decode (fields : Toml.Table) : Except DecodeError (KeyMap (KeyMap DefEntry)) := do
  denyUnknown ["kv"] fields
  let kv ← optional (decodeMap (decodeMap DefEntry.decode)) fields "kv"
  .ok (kv.getD ∅)

end Decode

section Checks

abbrev ConfigError := List Piece

def entryError (name : String) (message : List Piece) : ConfigError :=
  .text ("[kv." ++ name ++ "]: ") :: message

inductive OtpAlgorithm where
  | sha1
  | sha256
  | sha512
  deriving DecidableEq

def asciiLower (c : Char) : Char := if 'A' ≤ c && c ≤ 'Z' then Char.ofNat (c.toNat + 32) else c

namespace OtpAlgorithm

def parse (s : String) : Except (List Piece) OtpAlgorithm :=
  let lower := String.ofList (s.toList.map asciiLower)
  if lower = "sha1" then .ok .sha1
  else if lower = "sha256" then .ok .sha256
  else if lower = "sha512" then .ok .sha512
  else .error [.text "unknown otp algorithm ", .quoted lower, .text " (use sha1 / sha256 / sha512)"]

def label : OtpAlgorithm → String
  | .sha1 => "sha1"
  | .sha256 => "sha256"
  | .sha512 => "sha512"

end OtpAlgorithm

def otpParams (digits : Option UInt32) (period : Option UInt64) (algorithm : Option OtpAlgorithm) :
    KeyMap String :=
  let params := KeyMap.insertOpt ∅ "digits" (digits.map fun d => d.toNat.repr)
  let params := KeyMap.insertOpt params "period" (period.map fun p => p.toNat.repr)
  KeyMap.insertOpt params "algorithm" (algorithm.map OtpAlgorithm.label)

def buildKvMeta (name : String) (valueType : Option String) (digits : Option UInt32)
    (period : Option UInt64) (algorithm : Option String) : Except ConfigError ValueMetaWire :=
  match valueType with
  | none =>
    if digits.isSome || period.isSome || algorithm.isSome then
      .error (entryError name
        [.text "otp-digits / otp-period / otp-algorithm require `type = \"otp\"`"])
    else .ok ⟨none, ∅⟩
  | some other =>
    if other = "otp" then
      match digits.filter fun d => !(1 ≤ d && d ≤ 9) with
      | some d =>
        .error (entryError name
          [.text "otp-digits must be between 1 and 9, got ", .number d.toNat])
      | none =>
        if period = some 0 then
          .error (entryError name [.text "otp-period must be greater than zero"])
        else
          match algorithm.map OtpAlgorithm.parse with
          | none => .ok ⟨some "otp", otpParams digits period none⟩
          | some (.ok algorithm) => .ok ⟨some "otp", otpParams digits period (some algorithm)⟩
          | some (.error e) => .error (entryError name (.text "otp-algorithm: " :: e))
    else
      .error (entryError name [.text "unknown `type` ", .quoted other,
        .text " (the only value type is \"otp\")"])

def commandTable (crate : TomlCrate) (name : String) :
    Option Toml.Value → Except ConfigError (Option CommandTable)
  | none => .ok none
  | some (.array _) =>
    .error (entryError name [.text "the bare `command = [...]` array form was removed; write `source = \"command\"` with `command.argv = [...]` instead"])
  | some (.table fields) =>
    match CommandTable.decode (.table fields) with
    | .ok table => .ok (some table)
    | .error e =>
      .error (entryError name [.text ("invalid `command` table: " ++ crate.describe e)])
  | some _ =>
    .error (entryError name
      [.text "`command` must be a table (`command.argv = [...]`), not a scalar"])

def buildKvSource (crate : TomlCrate) (name : String) (source : Option String)
    (command : Option Toml.Value) (op : Option OpTable) : Except ConfigError SourceSpecWire :=
  match commandTable crate name command with
  | .error e => .error e
  | .ok table =>
    match source with
    | none =>
      .error (entryError name [.text "a definition entry requires `source = \"command\"` or `source = \"op\"`"])
    | some kind =>
      if kind = "command" then
        match table with
        | none =>
          .error (entryError name
            [.text "source = \"command\" requires a `command.argv = [...]`"])
        | some table =>
          match table.argv with
          | some (arg :: argv) => .ok (.command ⟨arg :: argv, table.cwd, table.env⟩)
          | some [] => .error (entryError name [.text "`command.argv` must not be empty"])
          | none =>
            .error (entryError name
              [.text "source = \"command\" requires a `command.argv = [...]`"])
      else if kind = "op" then
        match op with
        | none =>
          .error (entryError name [.text "source = \"op\" requires an `op.uri = \"op://...\"`"])
        | some table =>
          match table.uri with
          | some uri =>
            if "op://".toList.isPrefixOf uri.toList then .ok (.op ⟨uri, table.account⟩)
            else
              .error (entryError name [.text "`op.uri` must be an op:// reference (got ",
                .quoted uri, .text ")"])
          | none =>
            .error (entryError name [.text "source = \"op\" requires an `op.uri = \"op://...\"`"])
      else
        .error (entryError name [.text "unknown `source` ", .quoted kind,
          .text " (the source kinds are \"command\" and \"op\")"])

/-- `str::parse::<u64>`, which takes a plus sign. -/
def parseU64 (digits : List Char) : Option UInt64 :=
  let digits := if digits.head? = some '+' then digits.tail else digits
  if digits.isEmpty || !digits.all Char.isDigit then none
  else
    let n := Nat.ofDigitChars 10 digits 0
    if n < 2 ^ 64 then some (UInt64.ofNat n) else none

def trim (s : List Char) : List Char :=
  ((s.dropWhile isWhitespace).reverse.dropWhile isWhitespace).reverse

def durationError (input : String) : List Piece :=
  [.text ("invalid duration `" ++ input ++ "`: expected an integer number of seconds or a value with an h/m/s suffix (e.g. 1h, 30m, 86400)")]

/-- The number of seconds that a text stands for. -/
def parseDuration (input : String) : Except (List Piece) UInt64 :=
  let trimmed := trim input.toList
  let counted : Option (List Char × UInt64) :=
    match trimmed.getLast? with
    | none => none
    | some last =>
      if last = 'h' then some (trimmed.dropLast, 3600)
      else if last = 'm' then some (trimmed.dropLast, 60)
      else if last = 's' then some (trimmed.dropLast, 1)
      else if last.isDigit then some (trimmed, 1)
      else none
  match counted with
  | none => .error (durationError input)
  | some (digits, multiplier) =>
    match parseU64 digits with
    | none => .error (durationError input)
    | some n =>
      if n.toNat * multiplier.toNat < 2 ^ 64 then .ok (n * multiplier)
      else .error (durationError input)

def parseTtl (name label : String) : Option String → Except ConfigError (Option UInt64)
  | none => .ok none
  | some text =>
    match parseDuration text with
    | .ok secs => .ok (some secs)
    | .error e => .error (entryError name (.text (label ++ ": ") :: e))

def validateIdentifier (s what : String) : Except (List Piece) Unit :=
  if isIdentifierSegment s.toList then .ok ()
  else
    .error [.text ("invalid " ++ what ++ " "), .quoted s,
      .text ": must be non-empty and contain only [A-Za-z0-9_]"]

def splitKvEntryName (name : String) (fieldNs : Option String) :
    Except ConfigError (String × Option String) := do
  match fieldNs with
  | none => .ok ()
  | some ns => (validateIdentifier ns "namespace").mapError (entryError name)
  (validateIdentifier name "KEY").mapError (entryError name)
  .ok (name, fieldNs)

def DefEntry.validate (crate : TomlCrate) (self : DefEntry) (name : String) :
    Except ConfigError KvDefinition :=
  if self.preload.isSome then
    .error (entryError name [.text "`preload` is not allowed in a defs file — it is a config-only startup flag; defs definitions are always lazy"])
  else if self.value.isSome then
    .error (entryError name [.text "inline `value` is not allowed — defs files declare regenerable typed-source definitions only, never literal secrets"])
  else if self.valueStdin.isSome then
    .error (entryError name [.text ("`value-stdin` is not a defs key — pipe literal values in at runtime (`... | cache-warden kv set " ++ name ++ "`)")])
  else if self.static.isSome then
    .error (entryError name [.text "a `static` source cannot be defined — only `command` / `op` sources may be defined"])
  else do
    let source ← buildKvSource crate name self.source self.command self.op
    let valueMeta ← buildKvMeta name self.valueType self.otpDigits self.otpPeriod self.otpAlgorithm
    let (name, ns) ← splitKvEntryName name self.pinnedNamespace
    let softTtlSecs ← parseTtl name "soft-ttl" self.softTtl
    let hardTtlSecs ← parseTtl name "hard-ttl" self.hardTtl
    .ok
      { name := name
        pinnedNamespace := ns
        source := source
        softTtlSecs := softTtlSecs
        hardTtlSecs := hardTtlSecs
        preload := false
        valueMeta := valueMeta }

def parsePersistedEntry (crate : TomlCrate) (ns key : String) (entry : DefEntry) :
    Except ConfigError KvDefinition := do
  (validateIdentifier key "KEY").mapError (entryError (ns ++ "." ++ key))
  if entry.pinnedNamespace.isSome then
    .error (entryError (ns ++ "." ++ key) [.text "a `namespace` field is not allowed in the                      persisted format — the table path is the namespace"])
  else do
    let d ← entry.validate crate key
    .ok { d with pinnedNamespace := some ns }

def parsePersistedNamespace (crate : TomlCrate) (p : String × KeyMap DefEntry) :
    Except ConfigError (List KvDefinition) := do
  (validateIdentifier p.1 "namespace").mapError (entryError p.1)
  p.2.toList.mapM fun q => parsePersistedEntry crate p.1 q.1 q.2

def parsePersisted (crate : TomlCrate) (text : String) :
    Except ConfigError (List KvDefinition) :=
  match crate.parse text with
  | .error e => .error [.text ("invalid TOML: " ++ e)]
  | .ok fields =>
    match PersistFile.decode fields with
    | .error e => .error [.text ("invalid TOML: " ++ crate.describe e)]
    | .ok kv => (kv.toList.mapM (parsePersistedNamespace crate)).map List.flatten

end Checks

section Write

def replaceChar (c : Char) (text : List Char) (s : List Char) : List Char :=
  s.flatMap fun d => if d = c then text else [d]

def escaped (s : String) : String :=
  String.ofList (replaceChar '"' ['\\', '"'] (replaceChar '\\' ['\\', '\\'] s.toList))

def tomlBasicString (s : String) : String := "\"" ++ escaped s ++ "\""

def tomlBareOrQuotedKey (k : String) : String :=
  if !k.toList.isEmpty && k.toList.all fun c => isAsciiAlphanumeric c || c == '_' || c == '-' then k
  else tomlBasicString k

def tomlStringArray (items : List String) : String :=
  "[" ++ ", ".intercalate (items.map tomlBasicString) ++ "]"

def serializeSource : SourceSpecWire → String
  | .command spec =>
    "source = \"command\"\n" ++ ("command.argv = " ++ tomlStringArray spec.argv ++ "\n") ++
      (match spec.cwd with
        | some cwd => "command.cwd = " ++ tomlBasicString cwd ++ "\n"
        | none => "") ++
      String.join (spec.env.toList.map fun p =>
        "command.env." ++ tomlBareOrQuotedKey p.1 ++ " = " ++ tomlBasicString p.2 ++ "\n")
  | .op spec =>
    "source = \"op\"\n" ++ ("op.uri = " ++ tomlBasicString spec.uri ++ "\n") ++
      (match spec.account with
        | some account => "op.account = " ++ tomlBasicString account ++ "\n"
        | none => "")

/-- The type and the parameters that the file has fields for. -/
def metaToTomlFields (m : ValueMetaWire) :
    Option (String × Option String × Option String × Option String) :=
  m.typeLabel.map fun label =>
    (label, m.params["digits"]?, m.params["period"]?, m.params["algorithm"]?)

def serializeMeta (m : ValueMetaWire) : String :=
  match metaToTomlFields m with
  | none => ""
  | some (ty, digits, period, algorithm) =>
    ("type = \"" ++ ty ++ "\"\n") ++
      (match digits with
        | some d => "otp-digits = " ++ d ++ "\n"
        | none => "") ++
      (match period with
        | some p => "otp-period = " ++ p ++ "\n"
        | none => "") ++
      (match algorithm with
        | some a => "otp-algorithm = \"" ++ a ++ "\"\n"
        | none => "")

def serializeTtl (name : String) : Option UInt64 → String
  | some secs => name ++ " = \"" ++ secs.toNat.repr ++ "s\"\n"
  | none => ""

def serializeDefinition (d : KvDefinition) : String :=
  ("[kv." ++ d.pinnedNamespace.getD defaultNamespace ++ "." ++ d.name ++ "]\n") ++
    serializeSource d.source ++ serializeTtl "soft-ttl" d.softTtlSecs ++
    serializeTtl "hard-ttl" d.hardTtlSecs ++ serializeMeta d.valueMeta

def serializeDefinitions (defs : List KvDefinition) : String :=
  "\n".intercalate ((defs.mergeSort fun a b => a.key ≤ b.key).map serializeDefinition)

end Write

/-- The file of the persisted definitions, as a read of it comes out. -/
inductive DefinitionsFile where
  | absent
  | holds (text : String)
  | unreadable (e : String)
  deriving DecidableEq

/-- A write that got as far as its rename. -/
def saveDefinitions (defs : List KvDefinition) : DefinitionsFile := .holds (serializeDefinitions defs)

def loadDefinitions (crate : TomlCrate) (path : String) :
    DefinitionsFile → Except (List Piece) (List KvDefinition)
  | .holds text =>
    match parsePersisted crate text with
    | .ok defs => .ok defs
    | .error e => .error (.text ("invalid persisted definitions " ++ path ++ ": ") :: e)
  | .absent => .ok []
  | .unreadable e =>
    .error [.text ("cannot read persisted definitions " ++ path ++ ": " ++ e)]

end Daemon

end CacheWarden
