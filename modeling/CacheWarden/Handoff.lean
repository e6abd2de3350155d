import CacheWarden.SnapshotRoundTrip

/-!
# Handing a store over

The whole hand-over of a graceful restart: export in the old process, the wire
framing, import in the new one. For a sound store the import is refused exactly
when narrowing turned the windows of some carried record around; what it
installs under each key is read off the exported entry.
-/

set_option autoImplicit false

namespace CacheWarden

namespace Store

inductive HandoffError where
  | export (e : ExportError)
  | import (e : ImportError)
  deriving DecidableEq

/-- Export and import, the snapshot passed on in memory. -/
def handOver (s : Store) (clock : Clock) (wallE : UInt64) (builder : StoreBuilder)
    (token : BitVec 128) (nowI : Monotonic) (wallI : UInt64) : Except HandoffError StoreBundle :=
  match s.exportSnapshot s.controlCap clock wallE with
  | .error e => .error (.export e)
  | .ok snapshot =>
    match importSnapshot builder token snapshot nowI wallI with
    | .error e => .error (.import e)
    | .ok bundle => .ok bundle

/-- The same with the snapshot passed on as bytes. -/
def handOverBytes (serde : Serde) (s : Store) (clock : Clock) (wallE : UInt64)
    (builder : StoreBuilder) (token : BitVec 128) (nowI : Monotonic) (wallI : UInt64) :
    Except HandoffError StoreBundle :=
  match s.exportSnapshot s.controlCap clock wallE with
  | .error e => .error (.export e)
  | .ok snapshot =>
    match snapshot.toBytes serde with
    | .error e => .error (.export e)
    | .ok bytes =>
      match StoreSnapshot.fromBytes serde bytes with
      | .error e => .error (.import e)
      | .ok received =>
        match importSnapshot builder token received nowI wallI with
        | .error e => .error (.import e)
        | .ok bundle => .ok bundle

/-- An entry the export carries: live at the reading it is judged at. -/
def Carried (s : Store) (clock : Clock) (k : String) (e : CacheEntry) : Prop :=
  s.entries[k]? = some e ∧ e.state (s.judgedAt clock k) ≠ .hardExpired

/-- No record the export carries has its windows turned around by narrowing. -/
def WindowsSurvive (s : Store) (clock : Clock) : Prop :=
  (∀ k e, s.Carried clock k e → NarrowsInOrder e.ttl) ∧
    ∀ (k : String) d, s.definitions[k]? = some d → NarrowsInOrder d.ttl

section

variable {s : Store} {clock : Clock} {wallE wallI : UInt64} {nowI : Monotonic}
  {builder : StoreBuilder} {token : BitVec 128}

theorem exported_value_some {k : String} {v : SnapshotValue} :
    (s.exported clock wallE k).value = some v ↔
      ∃ e, s.Carried clock k e ∧
        exportValue (clock.now 0) wallE e (s.judgedAt clock k) = some v := by
  simp only [exported, exportKey, Option.bind_eq_some_iff, Carried]
  constructor
  · rintro ⟨e, he, hv⟩
    exact ⟨e, ⟨he, (exportValue_some.mp hv).1⟩, hv⟩
  · rintro ⟨e, ⟨he, -⟩, hv⟩
    exact ⟨e, he, hv⟩

theorem carried_exported (wallE : UInt64) {k : String} {e : CacheEntry}
    (h : s.Carried clock k e) :
    ∃ v, (s.exported clock wallE k).value = some v ∧
      exportValue (clock.now 0) wallE e (s.judgedAt clock k) = some v := by
  have hsome : (exportValue (clock.now 0) wallE e (s.judgedAt clock k)).isSome :=
    exportValue_isSome.mpr h.2
  obtain ⟨v, hv⟩ := Option.isSome_iff_exists.mp hsome
  exact ⟨v, exported_value_some.mpr ⟨e, h, hv⟩, hv⟩

theorem valid_of_visited (hs : s.Sound (clock.now 0)) {k : String} (hv : s.Visited k) :
    ValidKey k := by
  rcases hv with h | h | h
  · exact hs.known (Or.inl h)
  · exact hs.known (Or.inr h)
  · obtain ⟨f, hf⟩ := Option.isSome_iff_exists.mp h
    exact hs.failures k f hf

/-- One visited key imports exactly when the windows it carries survive. -/
theorem exported_imports_iff (hs : s.Sound (clock.now 0)) {k : String} (hk : s.Visited k) :
    (∃ value definition, Imports nowI wallI (s.exported clock wallE k) value definition) ↔
      (∀ e, s.Carried clock k e → NarrowsInOrder e.ttl) ∧
        ∀ d, s.definitions[k]? = some d → NarrowsInOrder d.ttl := by
  constructor
  · rintro ⟨value, definition, -, hvalue, hdef⟩
    constructor
    · intro e he
      obtain ⟨v, hv, hexp⟩ := carried_exported wallE he
      rw [hv] at hvalue
      unfold importOpt at hvalue
      simp only at hvalue
      split at hvalue
      · cases hvalue
      · rename_i e' he'
        exact (importValue_ok_iff hexp (hs.entries k e he.1).2).mp ⟨e', he'⟩
    · intro d hd
      have hsome : (s.exported clock wallE k).definition = some (exportDefinition d) := by
        simp [exported, exportKey, hd]
      rw [hsome] at hdef
      unfold importOpt at hdef
      simp only at hdef
      split at hdef
      · cases hdef
      · rename_i d' hd'
        exact importDefinition_ok_iff.mp ⟨d', hd'⟩
  · rintro ⟨hvalues, hdefs⟩
    have hvalue : ∃ value, importOpt (importValue nowI wallI k)
        (s.exported clock wallE k).value = .ok value := by
      rcases hv : (s.exported clock wallE k).value with _ | v
      · exact ⟨none, rfl⟩
      · obtain ⟨e, he, hexp⟩ := exported_value_some.mp hv
        have himport : ∃ e', importValue nowI wallI k v = .ok e' :=
          (importValue_ok_iff hexp (hs.entries k e he.1).2).mpr (hvalues e he)
        obtain ⟨e', he'⟩ := himport
        exact ⟨some e', by simp [importOpt, he']⟩
    have hdefinition : ∃ definition, importOpt (importDefinition k)
        (s.exported clock wallE k).definition = .ok definition := by
      rcases hd : s.definitions[k]? with _ | d
      · exact ⟨none, by simp [exported, exportKey, hd, importOpt]⟩
      · have himport : ∃ d', importDefinition k (exportDefinition d) = .ok d' :=
          importDefinition_ok_iff.mpr (hdefs d hd)
        obtain ⟨d', hd'⟩ := himport
        exact ⟨some d', by simp [exported, exportKey, hd, importOpt, hd']⟩
    obtain ⟨value, hvalue⟩ := hvalue
    obtain ⟨definition, hdefinition⟩ := hdefinition
    exact ⟨value, definition, valid_of_visited hs hk, hvalue, hdefinition⟩

theorem not_skipped_of_value {e : SnapshotEntry} (h : e.value.isSome) : skipped e = false := by
  simp [skipped, Option.isNone_eq_false_iff.mpr h]

theorem not_skipped_of_definition {e : SnapshotEntry} (h : e.definition.isSome) :
    skipped e = false := by
  simp [skipped, Option.isNone_eq_false_iff.mpr h]

theorem not_skipped_of_failure {e : SnapshotEntry} (h : e.failure.isSome) :
    skipped e = false := by
  simp [skipped, Option.isNone_eq_false_iff.mpr h]

/-- The import of an exported store is refused exactly when some carried
record's windows were turned around. -/
theorem exportEntries_import_iff (hs : s.Sound (clock.now 0)) :
    (∀ e ∈ s.exportEntries clock wallE, ∃ value definition, Imports nowI wallI e value definition) ↔
      s.WindowsSurvive clock := by
  constructor
  · intro h
    constructor
    · intro k e he
      obtain ⟨v, hv, -⟩ := carried_exported wallE he
      have hk : s.Visited k := Or.inl (by simp [he.1])
      have hmem := mem_exportEntries.mpr
        ⟨k, hk, not_skipped_of_value (by rw [hv]; rfl), rfl⟩
      exact ((exported_imports_iff hs hk).mp (h _ hmem)).1 e he
    · intro k d hd
      have hk : s.Visited k := Or.inr (Or.inl (by simp [hd]))
      have hsome : (s.exported clock wallE k).definition.isSome := by
        simp [exported, exportKey, hd]
      have hmem := mem_exportEntries.mpr ⟨k, hk, not_skipped_of_definition hsome, rfl⟩
      exact ((exported_imports_iff hs hk).mp (h _ hmem)).2 d hd
  · rintro ⟨hvalues, hdefs⟩ e he
    obtain ⟨k, hk, -, rfl⟩ := mem_exportEntries.mp he
    exact (exported_imports_iff hs hk).mpr ⟨hvalues k, hdefs k⟩

theorem handOver_ok_iff {bundle : StoreBundle} :
    s.handOver clock wallE builder token nowI wallI = .ok bundle ↔
      importSnapshot builder token (StoreSnapshot.fromEntries (s.exportEntries clock wallE))
        nowI wallI = .ok bundle := by
  unfold handOver
  rw [exportSnapshot_eq]
  simp only
  split
  · rename_i e he
    simp [he]
  · rename_i b hb
    simp [hb]

theorem importSnapshot_ok_iff {entries : List SnapshotEntry} {bundle : StoreBundle} :
    importSnapshot builder token (StoreSnapshot.fromEntries entries) nowI wallI = .ok bundle ↔
      ∃ store, importEntries nowI wallI (builder.build token).store [] entries = .ok store ∧
        bundle = { builder.build token with store := store } := by
  unfold importSnapshot
  rw [supported_fromEntries]
  simp only [Bool.not_true, Bool.false_eq_true, if_false]
  rw [show (StoreSnapshot.fromEntries entries).entries = entries from rfl]
  cases importEntries nowI wallI (builder.build token).store [] entries with
  | error e => simp
  | ok store => simp [eq_comm]

theorem build_slice (k : String) : (builder.build token).store.slice k = KeySlice.empty := by
  simp [StoreBuilder.build, newWithToken, slice, KeySlice.empty]

theorem handOver_succeeds_iff (hs : s.Sound (clock.now 0)) :
    (∃ bundle, s.handOver clock wallE builder token nowI wallI = .ok bundle) ↔
      s.WindowsSurvive clock := by
  have himport : (∃ store, importEntries nowI wallI (builder.build token).store []
      (s.exportEntries clock wallE) = .ok store) ↔ s.WindowsSurvive clock :=
    (importEntries_ok_iff (s.exportEntries_keys_nodup clock wallE) (by simp)).trans
      (exportEntries_import_iff hs)
  rw [← himport]
  simp only [handOver_ok_iff, importSnapshot_ok_iff]
  constructor
  · rintro ⟨bundle, store, h, -⟩
    exact ⟨store, h⟩
  · rintro ⟨store, h⟩
    exact ⟨_, store, h, rfl⟩

/-- A key the snapshot lists comes back as its exported entry installs it. -/
theorem handOver_slice_of_listed {bundle : StoreBundle}
    (h : s.handOver clock wallE builder token nowI wallI = .ok bundle) {k : String}
    (hk : s.Visited k) (hskip : skipped (s.exported clock wallE k) = false) :
    ∃ value definition,
      Imports nowI wallI (s.exported clock wallE k) value definition ∧
        bundle.store.slice k =
          installedSlice nowI wallI (s.exported clock wallE k) value definition := by
  obtain ⟨store, himport, rfl⟩ := importSnapshot_ok_iff.mp (handOver_ok_iff.mp h)
  exact importEntries_slice_of_mem himport (s.exportEntries_keys_nodup clock wallE)
    (fun e _ => build_slice e.key) (mem_exportEntries.mpr ⟨k, hk, hskip, rfl⟩)

/-- A key the snapshot does not list comes back with nothing. -/
theorem handOver_slice_of_unlisted {bundle : StoreBundle}
    (h : s.handOver clock wallE builder token nowI wallI = .ok bundle) {k : String}
    (hk : ¬ (s.Visited k ∧ skipped (s.exported clock wallE k) = false)) :
    bundle.store.slice k = KeySlice.empty := by
  obtain ⟨store, himport, rfl⟩ := importSnapshot_ok_iff.mp (handOver_ok_iff.mp h)
  have hmem : k ∉ (s.exportEntries clock wallE).map SnapshotEntry.key := by
    intro hk'
    obtain ⟨e, he, rfl⟩ := List.mem_map.mp hk'
    obtain ⟨k', hv, hs, rfl⟩ := mem_exportEntries.mp he
    exact hk ⟨hv, hs⟩
  rw [show ({ builder.build token with store := store } : StoreBundle).store.slice k =
    store.slice k from rfl, importEntries_slice_of_not_mem himport hmem]
  exact build_slice k

/-- What becomes of an entry the export carried. -/
theorem handOver_restored {bundle : StoreBundle}
    (h : s.handOver clock wallE builder token nowI wallI = .ok bundle) {k : String}
    {e : CacheEntry} (he : s.Carried clock k e) :
    ∃ e', bundle.store.entries[k]? = some e' ∧
      Restored (clock.now 0) nowI wallE wallI e e' := by
  obtain ⟨v, hv, hexp⟩ := carried_exported wallE he
  have hk : s.Visited k := Or.inl (by simp [he.1])
  obtain ⟨value, definition, himp, hslice⟩ := handOver_slice_of_listed h hk
    (not_skipped_of_value (by rw [hv]; rfl))
  have hvalue := himp.value
  rw [hv] at hvalue
  unfold importOpt at hvalue
  simp only at hvalue
  split at hvalue
  · cases hvalue
  · rename_i e' he'
    cases hvalue
    exact ⟨e', congrArg KeySlice.entry hslice, importValue_restored hexp he'⟩

end

section Listed

variable {s : Store} {clock : Clock} {wallE wallI : UInt64} {builder : StoreBuilder}
  {token : BitVec 128} {nowI : Monotonic} {bundle : StoreBundle} {k : String}

/-- The snapshot has an entry for the key: there is a live value, a definition,
a failure record, or an expired value with a version. -/
def Listed (s : Store) (clock : Clock) (k : String) : Prop :=
  (∃ e, s.Carried clock k e) ∨ (s.definitions[k]?).isSome ∨ (s.failureBackoffs[k]?).isSome ∨
    (s.entries[k]?).isSome ∧ s.versionOf k ≠ 0

theorem exported_value_isSome_iff :
    (s.exported clock wallE k).value.isSome ↔ ∃ e, s.Carried clock k e := by
  constructor
  · intro h
    obtain ⟨v, hv⟩ := Option.isSome_iff_exists.mp h
    obtain ⟨e, he, -⟩ := exported_value_some.mp hv
    exact ⟨e, he⟩
  · rintro ⟨e, he⟩
    obtain ⟨v, hv, -⟩ := carried_exported wallE he
    simp [hv]

theorem filter_pos_getD (version : Option UInt64) :
    (version.filter (0 < ·)).getD 0 = version.getD 0 := by
  rcases version with _ | v
  · rfl
  · by_cases hv : v = 0
    · subst hv
      rfl
    · have hpos : 0 < v := UInt64.pos_iff_ne_zero.mpr hv
      simp [Option.filter, hpos]

theorem exported_version_isSome_iff :
    (s.exported clock wallE k).version.isSome ↔ s.versionOf k ≠ 0 := by
  show (s.versions[k]?.filter (0 < ·)).isSome ↔ (s.versions[k]?).getD 0 ≠ 0
  rcases s.versions[k]? with _ | v
  · simp
  · by_cases hv : v = 0
    · subst hv
      simp [Option.filter]
    · have hpos : 0 < v := UInt64.pos_iff_ne_zero.mpr hv
      simp [Option.filter, hpos, hv]

theorem not_skipped_iff :
    skipped (s.exported clock wallE k) = false ↔
      (∃ e, s.Carried clock k e) ∨ (s.definitions[k]?).isSome ∨
        (s.failureBackoffs[k]?).isSome ∨ s.versionOf k ≠ 0 := by
  have hdefinition : (s.exported clock wallE k).definition.isSome ↔ (s.definitions[k]?).isSome := by
    simp [exported, exportKey]
  have hfailure : (s.exported clock wallE k).failure.isSome ↔ (s.failureBackoffs[k]?).isSome := by
    simp [exported, exportKey]
  have hvalue : (s.exported clock wallE k).value.isSome ↔ ∃ e, s.Carried clock k e :=
    exported_value_isSome_iff
  have hversion : (s.exported clock wallE k).version.isSome ↔ s.versionOf k ≠ 0 :=
    exported_version_isSome_iff
  rw [← hvalue, ← hdefinition, ← hfailure, ← hversion]
  have hguard : (s.exported clock wallE k).guard.isSome →
      (s.exported clock wallE k).value.isSome := by
    intro h
    by_contra hnone
    rw [show (s.exported clock wallE k).guard = none from if_neg hnone] at h
    cases h
  simp only [skipped, Bool.and_eq_false_iff, Option.isNone_eq_false_iff]
  constructor
  · rintro ((((h | h) | h) | h) | h)
    · exact Or.inl h
    · exact Or.inr (Or.inl h)
    · exact Or.inr (Or.inr (Or.inl h))
    · exact Or.inl (hguard h)
    · exact Or.inr (Or.inr (Or.inr h))
  · rintro (h | h | h | h)
    · exact Or.inl (Or.inl (Or.inl (Or.inl h)))
    · exact Or.inl (Or.inl (Or.inl (Or.inr h)))
    · exact Or.inl (Or.inl (Or.inr h))
    · exact Or.inr h

theorem listed_iff :
    s.Visited k ∧ skipped (s.exported clock wallE k) = false ↔ s.Listed clock k := by
  rw [not_skipped_iff]
  unfold Visited Listed
  constructor
  · rintro ⟨hvisited, hvalue | hdefinition | hfailure | hversion⟩
    · exact Or.inl hvalue
    · exact Or.inr (Or.inl hdefinition)
    · exact Or.inr (Or.inr (Or.inl hfailure))
    · rcases hvisited with hentry | hdefinition | hfailure
      · exact Or.inr (Or.inr (Or.inr ⟨hentry, hversion⟩))
      · exact Or.inr (Or.inl hdefinition)
      · exact Or.inr (Or.inr (Or.inl hfailure))
  · rintro (⟨e, he⟩ | hdefinition | hfailure | ⟨hentry, hversion⟩)
    · exact ⟨Or.inl (by simp [he.1]), Or.inl ⟨e, he⟩⟩
    · exact ⟨Or.inr (Or.inl hdefinition), Or.inr (Or.inl hdefinition)⟩
    · exact ⟨Or.inr (Or.inr hfailure), Or.inr (Or.inr (Or.inl hfailure))⟩
    · exact ⟨Or.inl hentry, Or.inr (Or.inr (Or.inr hversion))⟩

/-- The version and the owner of a listed key come back. -/
theorem handOver_listed (h : s.handOver clock wallE builder token nowI wallI = .ok bundle)
    (hk : s.Listed clock k) :
    bundle.store.versionOf k = s.versionOf k ∧ bundle.store.ownerOf k = s.ownerOf k := by
  obtain ⟨hvisited, hskip⟩ : s.Visited k ∧ skipped (s.exported clock wallE k) = false :=
    listed_iff.mpr hk
  obtain ⟨value, definition, -, hslice⟩ := handOver_slice_of_listed h hvisited hskip
  constructor
  · have hversion := congrArg KeySlice.version hslice
    show (bundle.store.versions[k]?).getD 0 = (s.versions[k]?).getD 0
    rw [show bundle.store.versions[k]? = _ from hversion]
    show (((s.versions[k]?).filter (0 < ·)).filter (0 < ·)).getD 0 = _
    rw [filter_pos_getD, filter_pos_getD]
  · exact congrArg KeySlice.owner hslice

/-- Neither comes back where the key is not listed. -/
theorem handOver_unlisted (h : s.handOver clock wallE builder token nowI wallI = .ok bundle)
    (hk : ¬ s.Listed clock k) : bundle.store.versionOf k = 0 ∧ bundle.store.ownerOf k = none := by
  have hslice := handOver_slice_of_unlisted h (fun hlisted => hk (listed_iff.mp hlisted))
  constructor
  · show (bundle.store.versions[k]?).getD 0 = 0
    rw [show bundle.store.versions[k]? = none from congrArg KeySlice.version hslice]
    rfl
  · exact congrArg KeySlice.owner hslice

end Listed

end Store

end CacheWarden
