import CacheWarden.Daemon.PersistedFile
import CacheWarden.Daemon.SourceRecords

/-!
# The document of the persisted definitions

A definition whose type the file has fields for is written as one table of a
document: the serializer's text is the document's, character for character.
-/

set_option autoImplicit false

namespace CacheWarden

namespace Daemon

open Toml

/-- The settings of one-time codes that the file has fields for. -/
structure OtpSettings where
  digits : Option UInt32
  period : Option UInt64
  algorithm : Option OtpAlgorithm
  digits_bound : ∀ d, digits = some d → 1 ≤ d ∧ d ≤ 9
  period_pos : period ≠ some 0

/-- The type of a value, as the file has it. -/
def settingsMeta : Option OtpSettings → ValueMetaWire
  | none => ⟨none, ∅⟩
  | some s => ⟨some "otp", otpParams s.digits s.period s.algorithm⟩

section Document

def lineOpt (path : List String) (scalar : Option Scalar) : List Assignment :=
  scalar.toList.map (Assignment.mk path)

def sourceBody : SourceSpecWire → List Assignment
  | .command spec =>
    ⟨["source"], .string "command"⟩ :: ⟨["command", "argv"], .strings spec.argv⟩ ::
      (lineOpt ["command", "cwd"] (spec.cwd.map .string) ++
        spec.env.toList.map fun p => ⟨["command", "env", p.1], .string p.2⟩)
  | .op spec =>
    ⟨["source"], .string "op"⟩ :: ⟨["op", "uri"], .string spec.uri⟩ ::
      lineOpt ["op", "account"] (spec.account.map .string)

def ttlText (secs : UInt64) : String := secs.toNat.repr ++ "s"

def ttlBody (name : String) (secs : Option UInt64) : List Assignment :=
  lineOpt [name] (secs.map fun secs => .string (ttlText secs))

def metaBody : Option OtpSettings → List Assignment
  | none => []
  | some s =>
    ⟨["type"], .string "otp"⟩ ::
      (lineOpt ["otp-digits"] (s.digits.map fun d => .integer d.toNat) ++
        (lineOpt ["otp-period"] (s.period.map fun p => .integer p.toNat) ++
          lineOpt ["otp-algorithm"] (s.algorithm.map fun a => .string a.label)))

def definitionBody (d : KvDefinition) (settings : Option OtpSettings) : List Assignment :=
  sourceBody d.source ++
    (ttlBody "soft-ttl" d.softTtlSecs ++
      (ttlBody "hard-ttl" d.hardTtlSecs ++ metaBody settings))

def definitionSection (d : KvDefinition) (settings : Option OtpSettings) : Toml.Section where
  header := ["kv", d.pinnedNamespace.getD defaultNamespace, d.name]
  body := definitionBody d settings

end Document

section Written

theorem escaped_toList (s : String) : (escaped s).toList = s.toList.flatMap escapeChar := by
  unfold escaped replaceChar
  rw [String.toList_ofList, List.flatMap_assoc]
  congr 1
  funext c
  unfold escapeChar
  by_cases hback : c = '\\'
  · rw [if_pos hback, if_pos hback]
    rfl
  · rw [if_neg hback, if_neg hback, List.flatMap_singleton]

theorem tomlBasicString_toList (s : String) : (tomlBasicString s).toList = basicText s := by
  unfold tomlBasicString basicText
  rw [String.toList_append, String.toList_append, escaped_toList]
  rfl

theorem tomlBareOrQuotedKey_toList (k : String) :
    (tomlBareOrQuotedKey k).toList = keyText k := by
  unfold tomlBareOrQuotedKey keyText
  by_cases hbare : (!k.toList.isEmpty && k.toList.all isBare) = true
  · rw [if_pos hbare]
    exact congrArg String.toList (if_pos hbare)
  · rw [if_neg hbare, ← tomlBasicString_toList]
    exact congrArg String.toList (if_neg hbare)

theorem tomlStringArray_toList (items : List String) :
    (tomlStringArray items).toList = (Scalar.strings items).text := by
  have hitems : (", ".intercalate (items.map tomlBasicString)).toList = itemsText items := by
    induction items with
    | nil => rfl
    | cons s items ih =>
      cases items with
      | nil =>
        rw [List.map_singleton, String.intercalate_singleton, tomlBasicString_toList]
        simp [itemsText]
      | cons t items =>
        rw [List.map_cons, List.map_cons, String.intercalate_cons_cons, ← List.map_cons,
          String.toList_append, String.toList_append, ih, tomlBasicString_toList]
        simp [itemsText]
  unfold tomlStringArray Scalar.text
  rw [String.toList_append, String.toList_append, hitems]
  rfl

theorem stringLine {path : List String} {name : String}
    (h : name.toList = pathText path ++ [' ', '=', ' ']) (s : String) :
    (name ++ tomlBasicString s ++ "\n").toList = (Assignment.mk path (.string s)).text := by
  unfold Assignment.text
  rw [String.toList_append, String.toList_append, tomlBasicString_toList, h]
  simp [Scalar.text]

theorem numberLine {path : List String} {name : String}
    (h : name.toList = pathText path ++ [' ', '=', ' ']) (n : ℕ) :
    (name ++ n.repr ++ "\n").toList = (Assignment.mk path (.integer n)).text := by
  unfold Assignment.text
  rw [String.toList_append, String.toList_append, h, Nat.toList_repr]
  simp [Scalar.text]

theorem plainString {s : String} (h : s.toList.flatMap escapeChar = s.toList) :
    tomlBasicString s = "\"" ++ s ++ "\"" := by
  apply String.toList_injective
  rw [tomlBasicString_toList, basicText, h]
  simp

theorem envLine (p : String × String) :
    ("command.env." ++ tomlBareOrQuotedKey p.1 ++ " = " ++ tomlBasicString p.2 ++ "\n").toList =
      (Assignment.mk ["command", "env", p.1] (.string p.2)).text := by
  have hpath : pathText ["command", "env", p.1] = "command.env.".toList ++ keyText p.1 := by
    simp [pathText, keyText, isBare]
  unfold Assignment.text
  rw [hpath]
  simp [Scalar.text, tomlBasicString_toList, tomlBareOrQuotedKey_toList]

theorem sourceLine {kind : String} (h : kind.toList.flatMap escapeChar = kind.toList) :
    ("source = \"" ++ kind ++ "\"\n").toList = (Assignment.mk ["source"] (.string kind)).text := by
  rw [← @stringLine ["source"] "source = " rfl, plainString h]
  simp

theorem serializeCommand_toList (spec : CommandSpecWire) :
    (serializeSource (.command spec)).toList =
      (sourceBody (.command spec)).flatMap Assignment.text := by
  obtain ⟨argv, cwd, env⟩ := spec
  have hkind := @sourceLine "command" rfl
  have hargv : ("command.argv = " ++ tomlStringArray argv ++ "\n").toList =
      (Assignment.mk ["command", "argv"] (.strings argv)).text := by
    rw [String.toList_append, String.toList_append, tomlStringArray_toList]
    rfl
  have henv : (String.join (env.toList.map fun p =>
      "command.env." ++ tomlBareOrQuotedKey p.1 ++ " = " ++ tomlBasicString p.2 ++ "\n")).toList =
      (env.toList.map fun p =>
        Assignment.mk ["command", "env", p.1] (.string p.2)).flatMap Assignment.text := by
    rw [String.toList_join, List.flatMap_map, List.flatMap_map]
    congr 1
    funext p
    exact envLine p
  unfold serializeSource sourceBody
  rw [List.flatMap_cons, List.flatMap_cons, List.flatMap_append, ← henv, ← hargv, ← hkind]
  cases cwd with
  | none => simp [lineOpt]
  | some cwd =>
    have hcwd := @stringLine ["command", "cwd"] "command.cwd = " rfl cwd
    simp [lineOpt, ← hcwd]

theorem serializeOp_toList (spec : OpSpecWire) :
    (serializeSource (.op spec)).toList = (sourceBody (.op spec)).flatMap Assignment.text := by
  obtain ⟨uri, account⟩ := spec
  have hkind := @sourceLine "op" rfl
  have huri := @stringLine ["op", "uri"] "op.uri = " rfl uri
  unfold serializeSource sourceBody
  rw [List.flatMap_cons, List.flatMap_cons, ← huri, ← hkind]
  cases account with
  | none => simp [lineOpt]
  | some account =>
    have haccount := @stringLine ["op", "account"] "op.account = " rfl account
    simp [lineOpt, ← haccount]

theorem serializeSource_toList (source : SourceSpecWire) :
    (serializeSource source).toList = (sourceBody source).flatMap Assignment.text := by
  cases source with
  | command spec => exact serializeCommand_toList spec
  | op spec => exact serializeOp_toList spec

/-- The digits of a number are never escaped. -/
theorem plain_ttlText (secs : UInt64) :
    (ttlText secs).toList.flatMap escapeChar = (ttlText secs).toList := by
  have hplain : ∀ c ∈ (ttlText secs).toList, escapeChar c = [c] := by
    intro c hc
    unfold ttlText at hc
    rw [String.toList_append, Nat.toList_repr, List.mem_append] at hc
    have hne : c ≠ '\\' ∧ c ≠ '"' := by
      rcases hc with hc | hc
      · have hdigit := Nat.isDigit_of_mem_toDigits (by decide) (by decide) hc
        constructor
        · rintro rfl
          exact absurd hdigit (by decide)
        · rintro rfl
          exact absurd hdigit (by decide)
      · rw [List.mem_singleton.mp hc]
        exact ⟨by decide, by decide⟩
    unfold escapeChar
    rw [if_neg hne.1, if_neg hne.2]
  generalize (ttlText secs).toList = cs at hplain
  induction cs with
  | nil => rfl
  | cons c cs ih =>
    rw [List.flatMap_cons, hplain c List.mem_cons_self,
      ih fun c hc => hplain c (List.mem_cons_of_mem _ hc)]
    rfl

theorem serializeTtl_toList {name : String} (h : pathText [name] = name.toList)
    (secs : Option UInt64) :
    (serializeTtl name secs).toList = (ttlBody name secs).flatMap Assignment.text := by
  cases secs with
  | none => rfl
  | some secs =>
    have hline := @stringLine [name] (name ++ " = ") (by rw [h]; simp) (ttlText secs)
    rw [plainString (plain_ttlText secs)] at hline
    unfold serializeTtl ttlBody lineOpt
    rw [Option.map_some, Option.toList_some, List.map_singleton, List.flatMap_singleton, ← hline]
    unfold ttlText
    simp

theorem serializeMeta_toList (settings : Option OtpSettings) :
    (serializeMeta (settingsMeta settings)).toList =
      (metaBody settings).flatMap Assignment.text := by
  cases settings with
  | none => rfl
  | some s =>
    obtain ⟨digits, period, algorithm, hdigits, hperiod⟩ := s
    have htype : ("type = \"" ++ "otp" ++ "\"\n").toList =
        (Assignment.mk ["type"] (.string "otp")).text := by decide
    have halgorithm : ∀ a : OtpAlgorithm, ("otp-algorithm = \"" ++ a.label ++ "\"\n").toList =
        (Assignment.mk ["otp-algorithm"] (.string a.label)).text := by
      intro a
      cases a <;> decide
    have hget : metaToTomlFields (settingsMeta (some ⟨digits, period, algorithm, hdigits, hperiod⟩)) =
        some ("otp", digits.map (fun d => d.toNat.repr), period.map (fun p => p.toNat.repr),
          algorithm.map OtpAlgorithm.label) := by
      unfold metaToTomlFields settingsMeta otpParams
      simp [KeyMap.get_insertOpt]
    have hdigit := @numberLine ["otp-digits"] "otp-digits = " rfl
    have hseconds := @numberLine ["otp-period"] "otp-period = " rfl
    unfold serializeMeta metaBody
    rw [hget, List.flatMap_cons, List.flatMap_append, List.flatMap_append, ← htype]
    cases digits <;> cases period <;> cases algorithm <;>
      simp [lineOpt, ← hdigit, ← hseconds, ← halgorithm]

/-- An entry with a proper name is written as its table. -/
theorem serializeDefinition_toList {d : KvDefinition} {settings : Option OtpSettings}
    (hmeta : d.valueMeta = settingsMeta settings)
    (hns : isIdentifierSegment (d.pinnedNamespace.getD defaultNamespace).toList = true)
    (hname : isIdentifierSegment d.name.toList = true) :
    (serializeDefinition d).toList = (definitionSection d settings).text := by
  have hkey : ∀ k : String, isIdentifierSegment k.toList = true → keyText k = k.toList := by
    intro k hk
    unfold isIdentifierSegment at hk
    rw [Bool.and_eq_true, List.all_eq_true] at hk
    apply if_pos
    rw [Bool.and_eq_true, List.all_eq_true]
    refine ⟨hk.1, fun c hc => ?_⟩
    exact Bool.or_eq_true_iff.mpr (Or.inl (hk.2 c hc))
  have hheader : pathText ["kv", d.pinnedNamespace.getD defaultNamespace, d.name] =
      ("kv." ++ d.pinnedNamespace.getD defaultNamespace ++ "." ++ d.name).toList := by
    simp [pathText, hkey _ hns, hkey _ hname, show keyText "kv" = "kv".toList from rfl]
  unfold serializeDefinition definitionSection Section.text definitionBody
  rw [hheader, List.flatMap_append, List.flatMap_append, List.flatMap_append,
    ← serializeSource_toList, ← @serializeTtl_toList "soft-ttl" rfl,
    ← @serializeTtl_toList "hard-ttl" rfl, ← serializeMeta_toList, ← hmeta]
  simp

/-- The document of definitions, each with the settings of its type. -/
def definitionsDoc (settings : KvDefinition → Option OtpSettings) (defs : List KvDefinition) : Doc :=
  defs.map fun d => definitionSection d (settings d)

/-- The file has a table for the definition: its path is proper, its source
passed its checks, and the file has fields for the type of its value. -/
structure Tabular (settings : KvDefinition → Option OtpSettings) (d : KvDefinition) : Prop where
  pinned : ∃ ns, d.pinnedNamespace = some ns ∧ isIdentifierSegment ns.toList = true
  named : isIdentifierSegment d.name.toList = true
  checked : d.source.validate = .ok ()
  lazily : d.preload = false
  typed : d.valueMeta = settingsMeta (settings d)

theorem Tabular.toList {settings : KvDefinition → Option OtpSettings} {d : KvDefinition}
    (h : Tabular settings d) :
    (serializeDefinition d).toList = (definitionSection d (settings d)).text := by
  obtain ⟨ns, hpinned, hns⟩ := h.pinned
  apply serializeDefinition_toList h.typed
  · rw [hpinned]
    exact hns
  · exact h.named

def sortedDefinitions (defs : List KvDefinition) : List KvDefinition :=
  defs.mergeSort fun a b => a.key ≤ b.key

theorem serializeDefinitions_toList {settings : KvDefinition → Option OtpSettings}
    {defs : List KvDefinition} (h : ∀ d ∈ defs, Tabular settings d) :
    (serializeDefinitions defs).toList =
      (definitionsDoc settings (sortedDefinitions defs)).text := by
  have htext : ∀ defs : List KvDefinition, (∀ d ∈ defs, Tabular settings d) →
      ("\n".intercalate (defs.map serializeDefinition)).toList =
        (definitionsDoc settings defs).text := by
    intro defs hdefs
    induction defs with
    | nil => rfl
    | cons d defs ih =>
      have hd := (hdefs d List.mem_cons_self).toList
      have hrest := ih fun d' hd' => hdefs d' (List.mem_cons_of_mem _ hd')
      cases defs with
      | nil =>
        rw [List.map_singleton, String.intercalate_singleton, hd]
        simp [definitionsDoc, Doc.text]
      | cons d' defs =>
        rw [List.map_cons, List.map_cons, String.intercalate_cons_cons, ← List.map_cons,
          String.toList_append, String.toList_append, hrest, hd]
        simp [definitionsDoc, Doc.text]
  apply htext
  intro d hd
  exact h d ((List.mergeSort_perm defs _).mem_iff.mp hd)

end Written

end Daemon

end CacheWarden
