import CacheWarden.Daemon.PersistedEntries

/-!
# Loading the persisted definitions

The entry of a definition passes the checks of an entry and gives the definition
back. So a file of definitions loads as these definitions where its document is
clean, and does not load at all where it is not.
-/

set_option autoImplicit false

namespace CacheWarden

namespace Daemon

open Toml

section Checks

variable {crate : TomlCrate} {settings : Option OtpSettings}

theorem otpAlgorithm_parse_label (a : OtpAlgorithm) : OtpAlgorithm.parse a.label = .ok a := by
  cases a <;> decide

theorem filter_digits (d : UInt32) :
    (some d).filter (fun d => !(1 ≤ d && d ≤ 9)) = none ↔ 1 ≤ d ∧ d ≤ 9 := by
  rw [Option.filter_some]
  by_cases hbound : 1 ≤ d ∧ d ≤ 9
  · rw [decide_eq_true hbound.1, decide_eq_true hbound.2]
    exact iff_of_true rfl hbound
  · have hout : (!(decide (1 ≤ d) && decide (d ≤ 9))) = true := by
      rw [Bool.not_eq_true', ← Bool.decide_and]
      exact decide_eq_false hbound
    rw [if_pos hout]
    exact iff_of_false (Option.some_ne_none d) hbound

theorem buildKvMeta_settings (name : String) (settings : Option OtpSettings) :
    buildKvMeta name (settings.map fun _ => "otp") (settings.bind OtpSettings.digits)
      (settings.bind OtpSettings.period)
      ((settings.bind OtpSettings.algorithm).map OtpAlgorithm.label) =
        .ok (settingsMeta settings) := by
  cases settings with
  | none => rfl
  | some s =>
    obtain ⟨digits, period, algorithm, hdigits, hperiod⟩ := s
    have hbound : digits.filter (fun d => !(1 ≤ d && d ≤ 9)) = none := by
      cases digits with
      | none => rfl
      | some d => exact (filter_digits d).mpr (hdigits d rfl)
    unfold buildKvMeta
    dsimp only [Option.map_some, Option.bind_some]
    rw [if_pos rfl, hbound]
    dsimp only
    rw [if_neg hperiod]
    cases algorithm with
    | none => rfl
    | some a =>
      simp only [Option.map_some]
      rw [otpAlgorithm_parse_label]
      rfl

/-- A type that the file's fields make up has settings. -/
theorem settings_of_buildKvMeta {name : String} {valueType : Option String}
    {digits : Option UInt32} {period : Option UInt64} {algorithm : Option String}
    {m : ValueMetaWire} (h : buildKvMeta name valueType digits period algorithm = .ok m) :
    ∃ settings, m = settingsMeta settings := by
  unfold buildKvMeta at h
  cases valueType with
  | none =>
    dsimp only at h
    by_cases hparams : (digits.isSome || period.isSome || algorithm.isSome) = true
    · rw [if_pos hparams] at h
      cases h
    · rw [if_neg hparams] at h
      cases h
      exact ⟨none, rfl⟩
  | some other =>
    dsimp only at h
    by_cases hother : other = "otp"
    · rw [if_pos hother] at h
      have hbound : digits.filter (fun d => !(1 ≤ d && d ≤ 9)) = none →
          ∀ d, digits = some d → 1 ≤ d ∧ d ≤ 9 := by
        rintro hfilter d rfl
        exact (filter_digits d).mp hfilter
      cases hfilter : digits.filter (fun d => !(1 ≤ d && d ≤ 9)) with
      | some d =>
        rw [hfilter] at h
        cases h
      | none =>
        rw [hfilter] at h
        dsimp only at h
        by_cases hperiod : period = some 0
        · rw [if_pos hperiod] at h
          cases h
        · rw [if_neg hperiod] at h
          cases algorithm with
          | none =>
            cases h
            exact ⟨some ⟨digits, period, none, hbound hfilter, hperiod⟩, rfl⟩
          | some label =>
            simp only [Option.map_some] at h
            cases hparse : OtpAlgorithm.parse label with
            | error e =>
              rw [hparse] at h
              cases h
            | ok a =>
              rw [hparse] at h
              cases h
              exact ⟨some ⟨digits, period, some a, hbound hfilter, hperiod⟩, rfl⟩
    · rw [if_neg hother] at h
      cases h

theorem buildKvSource_checked (name : String) {source : SourceSpecWire}
    (h : source.validate = .ok ()) :
    buildKvSource crate name (some (kindOf source)) (commandOf source) (opOf source) =
      .ok source := by
  cases source with
  | command spec =>
    obtain ⟨argv, cwd, env⟩ := spec
    have htable : commandTable crate name (commandOf (.command ⟨argv, cwd, env⟩)) =
        .ok (some ⟨some argv, cwd, env⟩) := by
      unfold commandTable commandOf
      dsimp only
      rw [commandTable_decode]
    unfold buildKvSource
    rw [htable]
    cases argv with
    | nil => simp [SourceSpecWire.validate] at h
    | cons arg argv => rfl
  | op spec =>
    have hprefix : "op://".toList.isPrefixOf spec.uri.toList = true := by
      unfold SourceSpecWire.validate at h
      dsimp only at h
      by_cases hblank : spec.uri.toList.all isWhitespace = true
      · rw [if_pos hblank] at h
        cases h
      · by_cases hprefix : "op://".toList.isPrefixOf spec.uri.toList = true
        · exact hprefix
        · rw [Bool.not_eq_true] at hblank hprefix
          rw [hblank, hprefix] at h
          cases h
    have hop : ("op" : String) ≠ "command" := by decide
    unfold buildKvSource commandTable commandOf kindOf opOf
    dsimp only
    rw [if_neg hop, if_pos rfl, if_pos hprefix]

theorem plain_digit {c : Char} (h : c.isDigit = true) : isWhitespace c = false ∧ c ≠ '+' := by
  obtain ⟨hlow, hhigh⟩ := Char.isDigit_iff_toNat.mp h
  rw [show '0'.toNat = 48 from rfl] at hlow
  rw [show '9'.toNat = 57 from rfl] at hhigh
  constructor
  · unfold isWhitespace
    simp
    omega
  · rintro rfl
    exact absurd h (by decide)

/-- A text that begins and ends with something else than white space is not
trimmed. -/
theorem trim_eq {first last : Char} {cs rest : List Char} (hfirst : isWhitespace first = false)
    (hlast : isWhitespace last = false) (hcs : first :: rest = cs ++ [last]) :
    trim (cs ++ [last]) = cs ++ [last] := by
  unfold trim
  rw [← hcs, List.dropWhile_cons_of_neg (by rw [hfirst]; decide), hcs, List.reverse_append,
    List.reverse_singleton, List.singleton_append,
    List.dropWhile_cons_of_neg (by rw [hlast]; decide)]
  simp

theorem parseU64_toDigits {n : ℕ} (h : n < 2 ^ 64) :
    parseU64 (Nat.toDigits 10 n) = some (UInt64.ofNat n) := by
  have hdigits : ∀ c ∈ Nat.toDigits 10 n, c.isDigit = true :=
    fun c hc => Nat.isDigit_of_mem_toDigits (by decide) (by decide) hc
  have hplus : (Nat.toDigits 10 n).head? ≠ some '+' := by
    intro hhead
    exact absurd (hdigits '+' (List.mem_of_mem_head? hhead)) (by decide)
  have hread : ((Nat.toDigits 10 n).isEmpty || !(Nat.toDigits 10 n).all Char.isDigit) = false := by
    rw [List.all_eq_true.mpr hdigits]
    simp [Nat.toDigits_ne_nil]
  unfold parseU64
  dsimp only
  rw [if_neg hplus, hread, Nat.ofDigitChars_ten_toDigits, if_pos h]
  rfl

/-- Digits and the mark of seconds read as the number. -/
theorem parseDuration_ttlText (secs : UInt64) : parseDuration (ttlText secs) = .ok secs := by
  have hsecs := secs.toNat_lt
  have htext : (ttlText secs).toList = Nat.toDigits 10 secs.toNat ++ ['s'] := by
    unfold ttlText
    rw [String.toList_append, Nat.toList_repr]
    rfl
  have htrim : trim (ttlText secs).toList = Nat.toDigits 10 secs.toNat ++ ['s'] := by
    rw [htext]
    cases hdigits : Nat.toDigits 10 secs.toNat with
    | nil => exact absurd hdigits Nat.toDigits_ne_nil
    | cons c cs =>
      have hc : c.isDigit = true := by
        apply Nat.isDigit_of_mem_toDigits (b := 10) (n := secs.toNat) (by decide) (by decide)
        rw [hdigits]
        exact List.mem_cons_self
      exact trim_eq (plain_digit hc).1 (by decide) rfl
  have hlast : ('s' : Char) ≠ 'h' ∧ ('s' : Char) ≠ 'm' := by decide
  unfold parseDuration
  rw [htrim]
  dsimp only
  rw [List.getLast?_concat, List.dropLast_concat]
  dsimp only
  rw [if_neg hlast.1, if_neg hlast.2, if_pos rfl]
  dsimp only
  rw [parseU64_toDigits hsecs]
  dsimp only
  rw [UInt64.ofNat_toNat, show (1 : UInt64).toNat = 1 from rfl, Nat.mul_one, if_pos hsecs,
    UInt64.mul_one]

theorem parseTtl_ttlText (name label : String) (secs : Option UInt64) :
    parseTtl name label (secs.map ttlText) = .ok secs := by
  cases secs with
  | none => rfl
  | some secs =>
    unfold parseTtl
    dsimp only [Option.map_some]
    rw [parseDuration_ttlText]

theorem validateIdentifier_ok {s : String} (what : String)
    (h : isIdentifierSegment s.toList = true) : validateIdentifier s what = .ok () := if_pos h

variable {d : KvDefinition}

theorem splitKvEntryName_ok (h : isIdentifierSegment d.name.toList = true) :
    splitKvEntryName d.name none = .ok (d.name, none) := by
  unfold splitKvEntryName
  rw [validateIdentifier_ok _ h]
  rfl

/-- The entry of a definition is checked and gives the definition. -/
theorem parsePersistedEntry_ok {settings : KvDefinition → Option OtpSettings}
    (h : Tabular settings d) {ns : String} (hns : d.pinnedNamespace = some ns) :
    parsePersistedEntry crate ns d.name (entryOf d (settings d)) = .ok d := by
  have hvalidate : (entryOf d (settings d)).validate crate d.name =
      .ok { d with pinnedNamespace := none } := by
    unfold DefEntry.validate entryOf
    dsimp only [Option.isSome_none]
    rw [if_neg (by decide), if_neg (by decide), if_neg (by decide), if_neg (by decide),
      buildKvSource_checked d.name h.checked, buildKvMeta_settings, splitKvEntryName_ok h.named]
    dsimp only [bind, Except.bind]
    rw [parseTtl_ttlText, parseTtl_ttlText, ← h.typed, ← h.lazily]
  unfold parsePersistedEntry
  rw [validateIdentifier_ok _ h.named, hvalidate]
  obtain ⟨name, pinned, source, soft, hard, preload, valueMeta⟩ := d
  cases hns
  rfl

end Checks

section Loaded

theorem bind_ok {α β ε : Type} {x : Except ε α} {f : α → Except ε β} {b : β}
    (h : x >>= f = .ok b) : ∃ a, x = .ok a ∧ f a = .ok b := by
  cases x with
  | error e => cases h
  | ok a => exact ⟨a, rfl, h⟩

theorem mem_of_mapM {α β ε : Type} {f : α → Except ε β} {l : List α} {bs : List β}
    (h : l.mapM f = .ok bs) {b : β} (hb : b ∈ bs) : ∃ a ∈ l, f a = .ok b := by
  induction l generalizing bs with
  | nil =>
    cases h
    cases hb
  | cons a l ih =>
    rw [List.mapM_cons] at h
    cases hfirst : f a with
    | error e =>
      rw [hfirst] at h
      cases h
    | ok first =>
      rw [hfirst] at h
      cases hrest : l.mapM f with
      | error e =>
        rw [hrest] at h
        cases h
      | ok rest =>
        rw [hrest] at h
        cases h
        rcases List.mem_cons.mp hb with rfl | hb
        · exact ⟨a, List.mem_cons_self, hfirst⟩
        · obtain ⟨a', ha', hfa'⟩ := ih hrest hb
          exact ⟨a', List.mem_cons_of_mem _ ha', hfa'⟩

/-- Reading a list entry by entry, where each can be read. -/
theorem mapM_ok {α β ε : Type} {f : α → Except ε β} {l : List α}
    (h : ∀ a ∈ l, ∃ b, f a = .ok b) :
    ∃ bs, l.mapM f = .ok bs ∧ (∀ b, b ∈ bs ↔ ∃ a ∈ l, f a = .ok b) ∧
      ∀ (R : α → α → Prop) (S : β → β → Prop), l.Pairwise R →
        (∀ a b a' b', R a a' → f a = .ok b → f a' = .ok b' → S b b') → bs.Pairwise S := by
  induction l with
  | nil => exact ⟨[], rfl, by simp, fun _ _ _ _ => List.Pairwise.nil⟩
  | cons a l ih =>
    obtain ⟨b, hb⟩ := h a List.mem_cons_self
    obtain ⟨bs, hbs, hmem, hpairwise⟩ := ih fun a' ha' => h a' (List.mem_cons_of_mem _ ha')
    refine ⟨b :: bs, ?_, ?_, ?_⟩
    · rw [List.mapM_cons, hb, hbs]
      rfl
    · intro b'
      rw [List.mem_cons, hmem]
      constructor
      · rintro (rfl | ⟨a', ha', hb'⟩)
        · exact ⟨a, List.mem_cons_self, hb⟩
        · exact ⟨a', List.mem_cons_of_mem _ ha', hb'⟩
      · rintro ⟨a', ha', hb'⟩
        rcases List.mem_cons.mp ha' with rfl | ha'
        · rw [hb] at hb'
          exact Or.inl (Except.ok.inj hb').symm
        · exact Or.inr ⟨a', ha', hb'⟩
    · intro R S hR hS
      rw [List.pairwise_cons] at hR
      rw [List.pairwise_cons]
      refine ⟨?_, hpairwise R S hR.2 hS⟩
      intro b' hb'
      obtain ⟨a', ha', hfa'⟩ := (hmem b').mp hb'
      exact hS a b a' b' (hR.1 a' ha') hb hfa'

def KvDefinition.inNamespace (d : KvDefinition) : String := d.pinnedNamespace.getD defaultNamespace

variable {settings : KvDefinition → Option OtpSettings} {defs : List KvDefinition}

theorem Tabular.pinnedHere {d : KvDefinition} (h : Tabular settings d) :
    d.pinnedNamespace = some d.inNamespace := by
  obtain ⟨ns, hns, -⟩ := h.pinned
  unfold KvDefinition.inNamespace
  rw [hns]
  rfl

theorem Tabular.identifier {d : KvDefinition} (h : Tabular settings d) :
    isIdentifierSegment d.inNamespace.toList = true := by
  obtain ⟨ns, hns, hsegment⟩ := h.pinned
  unfold KvDefinition.inNamespace
  rw [hns]
  exact hsegment

/-- The entries of one namespace. -/
theorem decode_namespace (hkeys : (defs.map KvDefinition.key).Nodup)
    (hfits : ∀ d ∈ defs, FitsFile (settings d)) (ns : String) :
    ∃ entries, decodeMap DefEntry.decode
        (.table (insertAll ((defs.filter fun d => d.inNamespace = ns).map fun d =>
          ([d.name], .table (definitionSection d (settings d)).tree)) [])) = .ok entries ∧
      ∀ (name : String) e, entries[name]? = some e ↔
        ∃ d ∈ defs, d.inNamespace = ns ∧ d.name = name ∧ entryOf d (settings d) = e := by
  have hnames : ((defs.filter fun d => d.inNamespace = ns).map KvDefinition.name).Nodup := by
    have hsub : ((defs.filter fun d => d.inNamespace = ns).map KvDefinition.key).Nodup :=
      (List.filter_sublist.map KvDefinition.key).nodup hkeys
    have hcompose : (defs.filter fun d => d.inNamespace = ns).map KvDefinition.key =
        ((defs.filter fun d => d.inNamespace = ns).map KvDefinition.name).map (compose ns) := by
      rw [List.map_map]
      apply List.map_congr_left
      intro d hd
      have hns : d.inNamespace = ns := of_decide_eq_true (List.mem_filter.mp hd).2
      rw [← hns]
      rfl
    rw [hcompose] at hsub
    exact hsub.of_map
  obtain ⟨entries, hdecode, hget⟩ := @decodeMap_named KvDefinition DefEntry DefEntry.decode
    (defs.filter fun d => d.inNamespace = ns) KvDefinition.name
    (fun d => .table (definitionSection d (settings d)).tree) (fun d => entryOf d (settings d))
    hnames fun d hd => decode_definition (hfits d (List.mem_filter.mp hd).1)
  refine ⟨entries, hdecode, ?_⟩
  intro name e
  rw [hget]
  simp only [List.mem_filter, decide_eq_true_eq, and_assoc]

/-- The tables of the file, as the document has them. -/
theorem decode_doc (hkeys : (defs.map KvDefinition.key).Nodup)
    (hfits : ∀ d ∈ defs, FitsFile (settings d)) :
    ∃ kv, PersistFile.decode (definitionsDoc settings defs).tree = .ok kv ∧
      (∀ d ∈ defs, ∃ entries, kv[d.inNamespace]? = some entries) ∧
      ∀ (ns : String) entries, kv[ns]? = some entries → (∃ d ∈ defs, d.inNamespace = ns) ∧
        ∀ (name : String) e, entries[name]? = some e ↔
          ∃ d ∈ defs, d.inNamespace = ns ∧ d.name = name ∧ entryOf d (settings d) = e := by
  let tables : List (List String × Value) := defs.map fun d =>
    ([d.inNamespace, d.name], .table (definitionSection d (settings d)).tree)
  have htree : (definitionsDoc settings defs).tree =
      insertAll (tables.map fun p => ("kv" :: p.1, p.2)) [] := by
    unfold Doc.tree definitionsDoc
    rw [List.map_map, List.map_map]
    rfl
  have hunder : under "kv" (tables.map fun p => ("kv" :: p.1, p.2)) = tables := by
    have hmap := under_const "kv" "kv" id tables
    rw [if_pos rfl, List.map_id] at hmap
    exact hmap
  have hknown : denyUnknown ["kv"] (definitionsDoc settings defs).tree = .ok () := by
    rw [htree]
    apply denyUnknown_insertAll
    intro p hp
    obtain ⟨q, -, rfl⟩ := List.mem_map.mp hp
    exact ⟨"kv", q.1, rfl, by decide⟩
  by_cases hempty : defs = []
  · refine ⟨∅, ?_, ?_, ?_⟩
    · rw [hempty]
      rfl
    · rw [hempty]
      exact fun d hd => absurd hd List.not_mem_nil
    · intro ns entries hns
      rw [KeyMap.get_empty] at hns
      cases hns
  · have hpaths : ∀ p ∈ tables, p.1 ≠ [] := by
      intro p hp
      obtain ⟨d, -, rfl⟩ := List.mem_map.mp hp
      exact List.cons_ne_nil _ _
    have hget : Table.get (definitionsDoc settings defs).tree "kv" =
        some (.table (insertAll tables [])) := by
      rw [htree]
      exact get_table hunder (by simpa [tables] using hempty) hpaths
    have hinside : ∀ ns, under ns tables = (defs.filter fun d => d.inNamespace = ns).map fun d =>
        ([d.name], .table (definitionSection d (settings d)).tree) := fun ns =>
      under_map ns KvDefinition.inNamespace
        (fun d => ([d.name], .table (definitionSection d (settings d)).tree)) defs
    have hsome : ∀ {ns v}, Table.get (insertAll tables []) ns = some v →
        (∃ d ∈ defs, d.inNamespace = ns) ∧
          v = .table (insertAll ((defs.filter fun d => d.inNamespace = ns).map fun d =>
            ([d.name], .table (definitionSection d (settings d)).tree)) []) := by
      intro ns v hv
      have hns := hinside ns
      by_cases hnone : (defs.filter fun d => d.inNamespace = ns) = []
      · rw [hnone] at hns
        rw [get_absent hns] at hv
        cases hv
      · obtain ⟨d, hd⟩ := List.exists_mem_of_ne_nil _ hnone
        obtain ⟨hdefs, hdns⟩ := List.mem_filter.mp hd
        refine ⟨⟨d, hdefs, of_decide_eq_true hdns⟩, ?_⟩
        rw [get_table hns (by simpa using hnone) (by
          intro p hp
          obtain ⟨d, -, rfl⟩ := List.mem_map.mp hp
          exact List.cons_ne_nil _ _)] at hv
        exact (Option.some.inj hv).symm
    obtain ⟨kv, hkv, hmap⟩ := @decodeFields_ok _ (decodeMap DefEntry.decode) (insertAll tables [])
      (nodup_insertAll tables List.nodup_nil) (by
        intro ns v hv
        obtain ⟨-, rfl⟩ := hsome hv
        obtain ⟨entries, hentries, -⟩ := decode_namespace hkeys hfits ns
        exact ⟨entries, hentries⟩)
    refine ⟨kv, ?_, ?_, ?_⟩
    · have hdecode : decodeMap (decodeMap DefEntry.decode) (.table (insertAll tables [])) =
          .ok kv := hkv
      unfold PersistFile.decode optional
      rw [hknown, hget]
      dsimp only [bind, Except.bind]
      rw [hdecode]
      rfl
    · intro d hd
      obtain ⟨entries, hentries, -⟩ := decode_namespace hkeys hfits d.inNamespace
      refine ⟨entries, (hmap _ _).mpr ⟨_, get_table (hinside d.inNamespace) ?_ ?_, hentries⟩⟩
      · intro hnil
        have hmem : d ∈ defs.filter fun d' => d'.inNamespace = d.inNamespace :=
          List.mem_filter.mpr ⟨hd, decide_eq_true rfl⟩
        rw [List.map_eq_nil_iff.mp hnil] at hmem
        cases hmem
      · intro p hp
        obtain ⟨d', -, rfl⟩ := List.mem_map.mp hp
        exact List.cons_ne_nil _ _
    · intro ns entries hns
      obtain ⟨v, hv, hdecode⟩ := (hmap _ _).mp hns
      obtain ⟨hinhabited, rfl⟩ := hsome hv
      obtain ⟨entries', hentries', hentry⟩ := decode_namespace hkeys hfits ns
      rw [hentries'] at hdecode
      cases hdecode
      exact ⟨hinhabited, hentry⟩

variable {crate : TomlCrate}

theorem splitKvEntryName_inv {name : String} {fieldNs : Option String} {p : String × Option String}
    (h : splitKvEntryName name fieldNs = .ok p) : p = (name, fieldNs) := by
  unfold splitKvEntryName at h
  cases fieldNs with
  | none =>
    obtain ⟨_, -, h⟩ := bind_ok h
    obtain ⟨_, -, h⟩ := bind_ok h
    exact (Except.ok.inj h).symm
  | some ns =>
    obtain ⟨_, -, h⟩ := bind_ok h
    obtain ⟨_, -, h⟩ := bind_ok h
    exact (Except.ok.inj h).symm

/-- What an entry gives has its name, and the file has fields for its type. -/
theorem validate_inv {entry : DefEntry} {name : String} {d : KvDefinition}
    (h : entry.validate crate name = .ok d) :
    d.name = name ∧ ∃ settings, d.valueMeta = settingsMeta settings := by
  unfold DefEntry.validate at h
  by_cases hpreload : entry.preload.isSome = true
  · rw [if_pos hpreload] at h
    cases h
  rw [if_neg hpreload] at h
  by_cases hvalue : entry.value.isSome = true
  · rw [if_pos hvalue] at h
    cases h
  rw [if_neg hvalue] at h
  by_cases hstdin : entry.valueStdin.isSome = true
  · rw [if_pos hstdin] at h
    cases h
  rw [if_neg hstdin] at h
  by_cases hstatic : entry.static.isSome = true
  · rw [if_pos hstatic] at h
    cases h
  rw [if_neg hstatic] at h
  obtain ⟨source, -, h⟩ := bind_ok h
  obtain ⟨valueMeta, hmeta, h⟩ := bind_ok h
  obtain ⟨p, hname, h⟩ := bind_ok h
  have hname := splitKvEntryName_inv hname
  subst hname
  obtain ⟨soft, -, h⟩ := bind_ok h
  obtain ⟨hard, -, h⟩ := bind_ok h
  cases h
  exact ⟨rfl, settings_of_buildKvMeta hmeta⟩

theorem parsePersistedEntry_inv {ns key : String} {entry : DefEntry} {d : KvDefinition}
    (h : parsePersistedEntry crate ns key entry = .ok d) :
    d.name = key ∧ d.pinnedNamespace = some ns ∧
      ∃ settings, d.valueMeta = settingsMeta settings := by
  unfold parsePersistedEntry at h
  obtain ⟨_, -, h⟩ := bind_ok h
  by_cases hpinned : entry.pinnedNamespace.isSome = true
  · rw [if_pos hpinned] at h
    cases h
  · rw [if_neg hpinned] at h
    obtain ⟨d', hd', h⟩ := bind_ok h
    obtain ⟨hname, hmeta⟩ := validate_inv hd'
    cases h
    exact ⟨hname, rfl, hmeta⟩

theorem parsePersistedNamespace_inv {p : String × KeyMap DefEntry} {loaded : List KvDefinition}
    (h : parsePersistedNamespace crate p = .ok loaded) :
    ∀ d ∈ loaded, d.pinnedNamespace = some p.1 ∧
      ∃ settings, d.valueMeta = settingsMeta settings := by
  unfold parsePersistedNamespace at h
  obtain ⟨_, -, h⟩ := bind_ok h
  intro d hd
  obtain ⟨q, -, hq⟩ := mem_of_mapM h hd
  exact (parsePersistedEntry_inv hq).2

/-- Whatever the text, a definition that is loaded has a type that the file has
fields for. -/
theorem parsePersisted_typed {text : String} {loaded : List KvDefinition}
    (h : parsePersisted crate text = .ok loaded) :
    ∀ d ∈ loaded, ∃ settings, d.valueMeta = settingsMeta settings := by
  intro d hd
  unfold parsePersisted at h
  cases hparse : crate.parse text with
  | error e =>
    rw [hparse] at h
    cases h
  | ok fields =>
    rw [hparse] at h
    dsimp only at h
    cases hdecode : PersistFile.decode fields with
    | error e =>
      rw [hdecode] at h
      cases h
    | ok kv =>
      rw [hdecode] at h
      dsimp only at h
      cases hread : kv.toList.mapM (parsePersistedNamespace crate) with
      | error e =>
        rw [hread] at h
        cases h
      | ok lists =>
        rw [hread] at h
        cases h
        obtain ⟨l, hl, hdl⟩ := List.mem_flatten.mp hd
        obtain ⟨p, -, hp⟩ := mem_of_mapM hread hl
        exact (parsePersistedNamespace_inv hp d hdl).2

theorem parsePersistedNamespace_ok (htab : ∀ d ∈ defs, Tabular settings d) {ns : String}
    {entries : KeyMap DefEntry} (hns : isIdentifierSegment ns.toList = true)
    (hentries : ∀ (name : String) e, entries[name]? = some e ↔
      ∃ d ∈ defs, d.inNamespace = ns ∧ d.name = name ∧ entryOf d (settings d) = e) :
    ∃ loaded, parsePersistedNamespace crate (ns, entries) = .ok loaded ∧ loaded.Nodup ∧
      ∀ d, d ∈ loaded ↔ d ∈ defs ∧ d.inNamespace = ns := by
  have hparse : ∀ d ∈ defs, d.inNamespace = ns →
      parsePersistedEntry crate ns d.name (entryOf d (settings d)) = .ok d := by
    intro d hd hdns
    apply parsePersistedEntry_ok (htab d hd)
    rw [(htab d hd).pinnedHere, hdns]
  have hofEntry : ∀ q ∈ entries.toList, ∃ d ∈ defs, d.inNamespace = ns ∧ d.name = q.1 ∧
      parsePersistedEntry crate ns q.1 q.2 = .ok d := by
    rintro ⟨name, e⟩ hq
    obtain ⟨d, hd, hdns, rfl, rfl⟩ := (hentries name e).mp ((KeyMap.mem_toList _ _ _).mp hq)
    exact ⟨d, hd, hdns, rfl, hparse d hd hdns⟩
  obtain ⟨loaded, hloaded, hmem, hpairwise⟩ := @mapM_ok _ _ _
    (fun q : String × DefEntry => parsePersistedEntry crate ns q.1 q.2) entries.toList (by
      intro q hq
      obtain ⟨d, -, -, -, hd⟩ := hofEntry q hq
      exact ⟨d, hd⟩)
  refine ⟨loaded, ?_, ?_, ?_⟩
  · unfold parsePersistedNamespace
    rw [validateIdentifier_ok _ hns]
    exact hloaded
  · have hnames := KeyMap.nodup_toList entries
    rw [List.Nodup, List.pairwise_map] at hnames
    apply hpairwise _ _ hnames
    rintro q d q' d' hne hd hd' rfl
    exact hne ((parsePersistedEntry_inv hd).1.symm.trans (parsePersistedEntry_inv hd').1)
  · intro d
    rw [hmem]
    constructor
    · rintro ⟨q, hq, hd⟩
      obtain ⟨d', hd', hdns, -, hparsed⟩ := hofEntry q hq
      rw [hparsed] at hd
      cases hd
      exact ⟨hd', hdns⟩
    · rintro ⟨hd, hdns⟩
      refine ⟨(d.name, entryOf d (settings d)), ?_, hparse d hd hdns⟩
      exact (KeyMap.mem_toList _ _ _).mpr ((hentries _ _).mpr ⟨d, hd, hdns, rfl, rfl⟩)

/-- A clean document of definitions loads as the definitions. -/
theorem parsePersisted_doc (hcrate : Implements crate.parse) (htab : ∀ d ∈ defs, Tabular settings d)
    (hkeys : (defs.map KvDefinition.key).Nodup)
    (hwell : (definitionsDoc settings defs).WellFormed)
    (hclean : (definitionsDoc settings defs).Clean) (hfits : ∀ d ∈ defs, FitsFile (settings d)) :
    ∃ loaded, parsePersisted crate (String.ofList (definitionsDoc settings defs).text) =
        .ok loaded ∧ loaded.Nodup ∧ ∀ d, d ∈ loaded ↔ d ∈ defs := by
  obtain ⟨kv, hkv, hpresent, hentries⟩ := decode_doc hkeys hfits
  have hread : ∀ p ∈ kv.toList, ∃ loaded, parsePersistedNamespace crate p = .ok loaded ∧
      loaded.Nodup ∧ ∀ d, d ∈ loaded ↔ d ∈ defs ∧ d.inNamespace = p.1 := by
    rintro ⟨ns, entries⟩ hp
    obtain ⟨⟨d, hd, rfl⟩, hentry⟩ := hentries ns entries ((KeyMap.mem_toList _ _ _).mp hp)
    exact parsePersistedNamespace_ok htab (htab d hd).identifier hentry
  obtain ⟨lists, hlists, hmem, hpairwise⟩ := @mapM_ok _ _ _ (parsePersistedNamespace crate)
    kv.toList fun p hp => (hread p hp).imp fun _ h => h.1
  refine ⟨lists.flatten, ?_, ?_, ?_⟩
  · unfold parsePersisted
    rw [hcrate.reads _ hwell hclean]
    dsimp only
    rw [hkv]
    dsimp only
    rw [hlists]
    rfl
  · rw [List.nodup_flatten]
    constructor
    · intro l hl
      obtain ⟨p, hp, hl⟩ := (hmem l).mp hl
      obtain ⟨l', hl', hnodup, -⟩ := hread p hp
      rw [hl'] at hl
      cases hl
      exact hnodup
    · have hnames := KeyMap.nodup_toList kv
      rw [List.Nodup, List.pairwise_map] at hnames
      apply hpairwise _ _ hnames
      intro p l p' l' hne hl hl' d hd hd'
      have hns := (parsePersistedNamespace_inv hl d hd).1
      have hns' := (parsePersistedNamespace_inv hl' d hd').1
      exact hne (Option.some.inj (hns.symm.trans hns'))
  · intro d
    rw [List.mem_flatten]
    constructor
    · rintro ⟨l, hl, hd⟩
      obtain ⟨p, hp, hl⟩ := (hmem l).mp hl
      obtain ⟨l', hl', -, hdefs⟩ := hread p hp
      rw [hl'] at hl
      cases hl
      exact ((hdefs d).mp hd).1
    · intro hd
      obtain ⟨entries, hns⟩ := hpresent d hd
      have hp : (d.inNamespace, entries) ∈ kv.toList := (KeyMap.mem_toList _ _ _).mpr hns
      obtain ⟨l, hl, -, hdefs⟩ := hread _ hp
      exact ⟨l, (hmem l).mpr ⟨_, hp, hl⟩, (hdefs d).mpr ⟨hd, rfl⟩⟩

end Loaded

end Daemon

end CacheWarden
