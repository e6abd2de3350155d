import CacheWarden.Snapshot
import CacheWarden.StoreInvariant
import Mathlib.Data.List.Nodup

/-!
# From one store to the next through a snapshot

What an export lists, and what an import of a list installs, key by key. The
two are then composed for a sound store: which keys come back, with what, and
when the import is refused as a whole.
-/

set_option autoImplicit false

namespace CacheWarden

/-- A guard pins start times in whole microseconds that fit a word. -/
def GuardRecord.WholeMicros (record : GuardRecord) : Prop :=
  ∀ declared pinned, .sameAncestor declared pinned ∈ record.constraints →
    ∀ t ∈ pinned.startTime, t.nanos % 1000 = 0 ∧ t.nanos / 1000 < 18446744073709551616

theorem fromMicros_micros_iff (d : Duration) :
    fromMicros (microsTruncatingU64 d) = d ↔
      d.nanos % 1000 = 0 ∧ d.nanos / 1000 < 18446744073709551616 := by
  have hnanos : (fromMicros (microsTruncatingU64 d)).nanos =
      1000 * (d.nanos / 1000 % 18446744073709551616) := by
    show 1000 * (microsTruncatingU64 d).toNat = _
    rw [microsTruncatingU64, Word64.toNat_ofNat]
  constructor
  · intro h
    rw [h] at hnanos
    omega
  · intro h
    apply Duration.ext
    rw [hnanos]
    omega

/-- A guard survives its snapshot if and only if no start time is narrowed. -/
theorem guard_round_trip_iff (record : GuardRecord) :
    snapshotToGuardRecord (guardRecordToSnapshot record) = record ↔ record.WholeMicros := by
  rcases record with ⟨constraints, setter⟩
  simp only [snapshotToGuardRecord, guardRecordToSnapshot, List.map_map, GuardRecord.mk.injEq,
    and_true, GuardRecord.WholeMicros]
  induction constraints with
  | nil => simp
  | cons c rest ih =>
    rw [List.map_cons, List.cons.injEq, ih]
    simp only [List.mem_cons]
    constructor
    · rintro ⟨hc, hrest⟩ declared pinned (rfl | hmem) t ht
      · simp only [Function.comp_apply, GuardConstraint.sameAncestor.injEq] at hc
        have hstart := congrArg PinnedProcess.startTime hc.2
        simp only [Option.map_map] at hstart
        rw [Option.mem_def] at ht
        rw [ht] at hstart
        simpa [fromMicros_micros_iff] using hstart
      · exact hrest declared pinned hmem t ht
    · intro h
      refine ⟨?_, fun declared pinned hmem => h declared pinned (Or.inr hmem)⟩
      cases c with
      | sameUser => rfl
      | command name => rfl
      | sameAncestor declared pinned =>
        have hp := h declared pinned (Or.inl rfl)
        rcases pinned with ⟨pid, startTime, uniqueId, path, name⟩
        have hstart : (startTime.map microsTruncatingU64).map fromMicros = startTime := by
          cases startTime with
          | none => rfl
          | some t =>
            simp only [Option.map_some, Option.some.injEq]
            exact (fromMicros_micros_iff t).mpr (hp t rfl)
        simp only [Function.comp_apply, hstart]
        cases declared <;> rfl

namespace Store

/-- What the seven maps hold under one key. -/
structure KeySlice where
  entry : Option CacheEntry
  definition : Option Definition
  failure : Option FailureRecord
  guard : Option GuardRecord
  owner : Option OwnerPrincipal
  version : Option UInt64
  claim : Option RefreshClaim

def slice (s : Store) (k : String) : KeySlice where
  entry := s.entries[k]?
  definition := s.definitions[k]?
  failure := s.failureBackoffs[k]?
  guard := s.accessGuards[k]?
  owner := s.owners[k]?
  version := s.versions[k]?
  claim := s.refreshClaims[k]?

def KeySlice.empty : KeySlice := ⟨none, none, none, none, none, none, none⟩

/-- A key the export visits. -/
def Visited (s : Store) (k : String) : Prop :=
  (s.entries[k]?).isSome ∨ (s.definitions[k]?).isSome ∨ (s.failureBackoffs[k]?).isSome

theorem mem_exportKeys {s : Store} {k : String} : k ∈ s.exportKeys ↔ s.Visited k := by
  simp only [exportKeys, KeyMap.mem_sortDedup, List.mem_append, KeyMap.mem_keys_iff, Visited,
    or_assoc]

/-- The reading at which the export judges the value of a key. -/
def judgedAt (s : Store) (clock : Clock) (k : String) : Monotonic :=
  clock.now (s.exportKeys.idxOf k + 1)

def exported (s : Store) (clock : Clock) (wall : UInt64) (k : String) : SnapshotEntry :=
  s.exportKey (clock.now 0) wall (s.judgedAt clock k) k

def exportEntries (s : Store) (clock : Clock) (wall : UInt64) : List SnapshotEntry :=
  (s.exportKeys.map (s.exported clock wall)).filter (!skipped ·)

theorem map_zipIdx_of_nodup {α β : Type} [DecidableEq α] (l : List α) (h : l.Nodup)
    (f : α × ℕ → β) : l.zipIdx.map f = l.map fun a => f (a, l.idxOf a) := by
  apply List.ext_getElem (by simp)
  intro i h1 h2
  have hi : i < l.length := by simpa using h1
  simp [h.idxOf_getElem i hi]

theorem exportSnapshot_eq (s : Store) (clock : Clock) (wall : UInt64) :
    s.exportSnapshot s.controlCap clock wall =
      .ok (StoreSnapshot.fromEntries (s.exportEntries clock wall)) := by
  simp only [exportSnapshot, checkCap_controlCap]
  rw [map_zipIdx_of_nodup s.exportKeys (KeyMap.nodup_sortDedup _)]
  rfl

theorem mem_exportEntries {s : Store} {clock : Clock} {wall : UInt64} {e : SnapshotEntry} :
    e ∈ s.exportEntries clock wall ↔
      ∃ k, s.Visited k ∧ skipped (s.exported clock wall k) = false ∧
        e = s.exported clock wall k := by
  simp only [exportEntries, List.mem_filter, List.mem_map, mem_exportKeys, Bool.not_eq_true']
  constructor
  · rintro ⟨⟨k, hk, rfl⟩, hs⟩
    exact ⟨k, hk, hs, rfl⟩
  · rintro ⟨k, hk, hs, rfl⟩
    exact ⟨⟨k, hk, rfl⟩, hs⟩

@[simp] theorem exported_key (s : Store) (clock : Clock) (wall : UInt64) (k : String) :
    (s.exported clock wall k).key = k := rfl

theorem exportEntries_keys_nodup (s : Store) (clock : Clock) (wall : UInt64) :
    ((s.exportEntries clock wall).map SnapshotEntry.key).Nodup := by
  have hmap : (s.exportKeys.map (s.exported clock wall)).map SnapshotEntry.key = s.exportKeys := by
    simp [List.map_map, Function.comp_def]
  have hsub : ((s.exportEntries clock wall).map SnapshotEntry.key).Sublist s.exportKeys := by
    rw [← hmap]
    exact List.filter_sublist.map _
  exact hsub.nodup (KeyMap.nodup_sortDedup _)

theorem supported_fromEntries (es : List SnapshotEntry) :
    versionIsSupported (StoreSnapshot.fromEntries es).formatVersion = true := by
  simp only [StoreSnapshot.fromEntries]
  split
  · rfl
  split
  · rfl
  split <;> rfl

/-- An entry the importer does not refuse, and what its value and its
definition come back as. -/
structure Imports (nowMono : Monotonic) (wall : UInt64) (e : SnapshotEntry)
    (value : Option CacheEntry) (definition : Option Definition) : Prop where
  valid : ValidKey e.key
  value : importOpt (importValue nowMono wall e.key) e.value = .ok value
  definition : importOpt (importDefinition e.key) e.definition = .ok definition

/-- What one entry leaves under its key in a store that held nothing there. -/
def installedSlice (nowMono : Monotonic) (wall : UInt64) (e : SnapshotEntry)
    (value : Option CacheEntry) (definition : Option Definition) : KeySlice where
  entry := value
  definition := definition
  failure := e.failure.map (importFailure nowMono wall)
  guard := if value.isSome then e.guard.map snapshotToGuardRecord else none
  owner := e.owner
  version := e.version.filter (0 < ·)
  claim := if value.isSome then e.refreshClaim.map snapshotToRefreshClaim else none

section Import

variable {nowMono : Monotonic} {wall : UInt64}

theorem installEntry_slice_self {s : Store} {e : SnapshotEntry} {value : Option CacheEntry}
    {definition : Option Definition} (h : s.slice e.key = KeySlice.empty) :
    (s.installEntry nowMono wall e value definition).slice e.key =
      installedSlice nowMono wall e value definition := by
  simp only [slice, KeySlice.empty, KeySlice.mk.injEq] at h
  obtain ⟨he, hd, hf, hg, ho, hv, hc⟩ := h
  simp [slice, installEntry, installedSlice, KeyMap.get_insertOpt, he, hd, hf, hg, ho, hv, hc]

theorem installEntry_slice_of_ne {s : Store} {e : SnapshotEntry} {value : Option CacheEntry}
    {definition : Option Definition} {k : String} (h : e.key ≠ k) :
    (s.installEntry nowMono wall e value definition).slice k = s.slice k := by
  simp [slice, installEntry, KeyMap.get_insertOpt, h]

theorem importEntry_ok_iff {s s' : Store} {seen : List String} {e : SnapshotEntry} :
    s.importEntry nowMono wall seen e = .ok s' ↔
      e.key ∉ seen ∧ ∃ value definition, Imports nowMono wall e value definition ∧
        s' = s.installEntry nowMono wall e value definition := by
  unfold importEntry
  rcases hkey : validateKeySyntax e.key with err | ⟨⟩
  · simp only [reduceCtorEq, false_iff, not_and, not_exists]
    rintro - value definition ⟨hvalid, -, -⟩ -
    rw [ValidKey, hkey] at hvalid
    cases hvalid
  by_cases hseen : e.key ∈ seen
  · simp [hseen]
  simp only [hseen, if_false, not_false_eq_true, true_and]
  rcases hv : importOpt (importValue nowMono wall e.key) e.value with err | value
  · simp only [reduceCtorEq, false_iff, not_exists, not_and]
    rintro value definition ⟨-, hvalue, -⟩ -
    rw [hv] at hvalue
    cases hvalue
  rcases hd : importOpt (importDefinition e.key) e.definition with err | definition
  · simp only [reduceCtorEq, false_iff, not_exists, not_and]
    rintro value definition ⟨-, -, hdefinition⟩ -
    rw [hd] at hdefinition
    cases hdefinition
  simp only [Except.ok.injEq]
  constructor
  · rintro rfl
    exact ⟨value, definition, ⟨hkey, hv, hd⟩, rfl⟩
  · rintro ⟨value', definition', ⟨-, hv', hd'⟩, rfl⟩
    rw [hv] at hv'
    rw [hd] at hd'
    cases hv'
    cases hd'
    rfl

theorem importEntries_slice_of_not_mem {s s' : Store} {seen : List String}
    {es : List SnapshotEntry} (h : importEntries nowMono wall s seen es = .ok s') {k : String}
    (hk : k ∉ es.map SnapshotEntry.key) : s'.slice k = s.slice k := by
  induction es generalizing s seen with
  | nil =>
    cases h
    rfl
  | cons e es ih =>
    simp only [List.map_cons, List.mem_cons, not_or] at hk
    unfold importEntries at h
    rcases hstep : s.importEntry nowMono wall seen e with err | s1
    · rw [hstep] at h
      cases h
    · rw [hstep] at h
      obtain ⟨-, value, definition, -, rfl⟩ := importEntry_ok_iff.mp hstep
      rw [ih h hk.2, installEntry_slice_of_ne (Ne.symm hk.1)]

/-- An import that succeeds has installed every entry of its list. -/
theorem importEntries_slice_of_mem {s s' : Store} {seen : List String}
    {es : List SnapshotEntry} (h : importEntries nowMono wall s seen es = .ok s')
    (hnodup : (es.map SnapshotEntry.key).Nodup)
    (hempty : ∀ e ∈ es, s.slice e.key = KeySlice.empty) {e : SnapshotEntry} (he : e ∈ es) :
    ∃ value definition, Imports nowMono wall e value definition ∧
      s'.slice e.key = installedSlice nowMono wall e value definition := by
  induction es generalizing s seen with
  | nil => cases he
  | cons a es ih =>
    rw [List.map_cons, List.nodup_cons] at hnodup
    unfold importEntries at h
    rcases hstep : s.importEntry nowMono wall seen a with err | s1
    · rw [hstep] at h
      cases h
    rw [hstep] at h
    obtain ⟨-, value, definition, himp, rfl⟩ := importEntry_ok_iff.mp hstep
    rcases List.mem_cons.mp he with rfl | he
    · refine ⟨value, definition, himp, ?_⟩
      rw [importEntries_slice_of_not_mem h hnodup.1]
      exact installEntry_slice_self (hempty e (by simp))
    · refine ih h hnodup.2 ?_ he
      intro b hb
      have hne : a.key ≠ b.key := by
        intro heq
        exact hnodup.1 (heq ▸ List.mem_map_of_mem hb)
      rw [installEntry_slice_of_ne hne]
      exact hempty b (by simp [hb])

/-- An import of distinct keys succeeds exactly when none of its entries is
refused. -/
theorem importEntries_ok_iff {s : Store} {seen : List String} {es : List SnapshotEntry}
    (hnodup : (es.map SnapshotEntry.key).Nodup) (hseen : ∀ e ∈ es, e.key ∉ seen) :
    (∃ s', importEntries nowMono wall s seen es = .ok s') ↔
      ∀ e ∈ es, ∃ value definition, Imports nowMono wall e value definition := by
  induction es generalizing s seen with
  | nil => simp [importEntries]
  | cons e es ih =>
    rw [List.map_cons, List.nodup_cons] at hnodup
    have hseen' : ∀ a ∈ es, a.key ∉ e.key :: seen := by
      intro a ha
      have hne : a.key ≠ e.key := by
        intro heq
        exact hnodup.1 (heq ▸ List.mem_map_of_mem ha)
      simp [hne, hseen a (by simp [ha])]
    constructor
    · rintro ⟨s', h⟩ a ha
      unfold importEntries at h
      rcases hstep : s.importEntry nowMono wall seen e with err | s1
      · rw [hstep] at h
        cases h
      rw [hstep] at h
      rcases List.mem_cons.mp ha with rfl | ha
      · obtain ⟨-, value, definition, himp, -⟩ := importEntry_ok_iff.mp hstep
        exact ⟨value, definition, himp⟩
      · exact (ih hnodup.2 hseen').mp ⟨s', h⟩ a ha
    · intro h
      obtain ⟨value, definition, himp⟩ := h e (by simp)
      have hstep : s.importEntry nowMono wall seen e = .ok _ :=
        importEntry_ok_iff.mpr ⟨hseen e (by simp), value, definition, himp, rfl⟩
      obtain ⟨s', hs'⟩ := (ih (s := s.installEntry nowMono wall e value definition)
        hnodup.2 hseen').mpr fun a ha => h a (by simp [ha])
      refine ⟨s', ?_⟩
      unfold importEntries
      rw [hstep]
      exact hs'

end Import

/-- A span as the snapshot brings it back: whole milliseconds, low 64 bits. -/
def narrow (d : Duration) : Duration := Duration.fromMillis (millisTruncatingU64 d)

/-- The soft window still precedes the hard one after both were narrowed. -/
def NarrowsInOrder (ttl : Ttl) : Prop :=
  ∀ s ∈ ttl.soft, ∀ h ∈ ttl.hard, narrow s ≤ narrow h

theorem importTtl_ok_iff {key : String} {soft hard : Option UInt64} {ttl : Ttl} :
    importTtl key soft hard = .ok ttl ↔
      ttl.soft = soft.map Duration.fromMillis ∧ ttl.hard = hard.map Duration.fromMillis := by
  rw [← Ttl.new_ok_iff]
  unfold importTtl
  split
  · rename_i e he
    simp [he]
  · rename_i t ht
    simp [ht]

theorem map_narrow (d : Option Duration) :
    (d.map millisTruncatingU64).map Duration.fromMillis = d.map narrow := by
  cases d <;> rfl

/-- The windows of an exported record come back exactly when narrowing kept
their order. -/
theorem importTtl_exported (key : String) (ttl : Ttl) :
    (∃ ttl', importTtl key (ttl.soft.map millisTruncatingU64)
      (ttl.hard.map millisTruncatingU64) = .ok ttl') ↔ NarrowsInOrder ttl := by
  constructor
  · rintro ⟨ttl', h⟩ s hs d hd
    obtain ⟨hsoft, hhard⟩ := importTtl_ok_iff.mp h
    rw [map_narrow] at hsoft hhard
    exact ttl'.ordered (narrow s) (by rw [hsoft, Option.mem_def.mp hs]; rfl)
      (narrow d) (by rw [hhard, Option.mem_def.mp hd]; rfl)
  · intro h
    refine ⟨⟨ttl.soft.map narrow, ttl.hard.map narrow, ?_⟩, ?_⟩
    · intro s hs d hd
      obtain ⟨s0, hs0, rfl⟩ := Option.map_eq_some_iff.mp hs
      obtain ⟨d0, hd0, rfl⟩ := Option.map_eq_some_iff.mp hd
      exact h s0 hs0 d0 hd0
    · rw [importTtl_ok_iff, map_narrow, map_narrow]
      exact ⟨rfl, rfl⟩

section Records

variable {nowE nowI : Monotonic} {wallE wallI : UInt64} {key : String}

theorem exportValue_some {e : CacheEntry} {now : Monotonic} {v : SnapshotValue} :
    exportValue nowE wallE e now = some v ↔
      e.state now ≠ .hardExpired ∧ ∃ secret, e.value = some secret ∧
        v = { source := SnapshotSource.fromValueSource e.source
              secret := secret
              softTtlMs := e.ttl.soft.map millisTruncatingU64
              hardTtlMs := e.ttl.hard.map millisTruncatingU64
              loadedAtEpochMs := monotonicToEpochMs nowE wallE e.loadedAt
              extendedAtEpochMs := monotonicToEpochMs nowE wallE e.extendedAt
              pinDeadlineEpochMs := e.pinDeadline.map (monotonicToEpochMs nowE wallE) } := by
  unfold exportValue
  split
  · rename_i h
    simp [h]
  · rename_i h
    rw [Option.map_eq_some_iff]
    constructor
    · rintro ⟨secret, hsecret, rfl⟩
      exact ⟨h, secret, hsecret, rfl⟩
    · rintro ⟨-, secret, hsecret, rfl⟩
      exact ⟨secret, hsecret, rfl⟩

/-- A live entry is always exported. -/
theorem exportValue_isSome {e : CacheEntry} {now : Monotonic} :
    (exportValue nowE wallE e now).isSome ↔ e.state now ≠ .hardExpired := by
  constructor
  · intro h
    obtain ⟨v, hv⟩ := Option.isSome_iff_exists.mp h
    exact (exportValue_some.mp hv).1
  · intro h
    obtain ⟨secret, hsecret⟩ := CacheEntry.value_isSome_of_state h
    rw [Option.isSome_iff_exists]
    exact ⟨_, exportValue_some.mpr ⟨h, secret, hsecret, rfl⟩⟩

/-- How an entry comes back: its own source and bytes, narrowed windows, and
each instant through its own conversion. -/
structure Restored (nowE nowI : Monotonic) (wallE wallI : UInt64) (e e' : CacheEntry) : Prop where
  source : e'.source = e.source
  value : e'.value = e.value
  soft : e'.ttl.soft = e.ttl.soft.map narrow
  hard : e'.ttl.hard = e.ttl.hard.map narrow
  loadedAt : e'.loadedAt =
    epochMsToMonotonicTtlBasis nowI wallI (monotonicToEpochMs nowE wallE e.loadedAt)
  extendedAt : e'.extendedAt =
    epochMsToMonotonicTtlBasis nowI wallI (monotonicToEpochMs nowE wallE e.extendedAt)
  pinDeadline : e'.pinDeadline =
    e.pinDeadline.map fun p => epochMsToMonotonic nowI wallI (monotonicToEpochMs nowE wallE p)
  ordered : e'.loadedAt ≤ e'.extendedAt

theorem importValue_restored {e e' : CacheEntry} {now : Monotonic} {v : SnapshotValue}
    (hv : exportValue nowE wallE e now = some v)
    (h : importValue nowI wallI key v = .ok e') : Restored nowE nowI wallE wallI e e' := by
  obtain ⟨-, secret, hsecret, rfl⟩ := exportValue_some.mp hv
  unfold importValue at h
  split at h
  · cases h
  rename_i ttl httl
  obtain ⟨hsoft, hhard⟩ := importTtl_ok_iff.mp httl
  rw [map_narrow] at hsoft hhard
  simp only at h
  split at h
  · cases h
  rename_i hord
  cases h
  exact
    { source := SnapshotSource.into_from e.source
      value := hsecret.symm
      soft := hsoft
      hard := hhard
      loadedAt := rfl
      extendedAt := rfl
      pinDeadline := by cases e.pinDeadline <;> rfl
      ordered := Monotonic.not_lt.mp hord }

theorem importValue_ok_iff {e : CacheEntry} {now : Monotonic} {v : SnapshotValue}
    (hv : exportValue nowE wallE e now = some v) (ht : e.Timed nowE) :
    (∃ e', importValue nowI wallI key v = .ok e') ↔ NarrowsInOrder e.ttl := by
  obtain ⟨-, secret, -, rfl⟩ := exportValue_some.mp hv
  have hord : epochMsToMonotonicTtlBasis nowI wallI (monotonicToEpochMs nowE wallE e.loadedAt) ≤
      epochMsToMonotonicTtlBasis nowI wallI (monotonicToEpochMs nowE wallE e.extendedAt) :=
    epochMsToMonotonicTtlBasis_mono nowI wallI (monotonicToEpochMs_mono nowE wallE ht.1 ht.2)
  rw [← importTtl_exported key]
  unfold importValue
  rcases importTtl key (e.ttl.soft.map millisTruncatingU64)
    (e.ttl.hard.map millisTruncatingU64) with err | ttl
  · simp
  · simp only [Except.ok.injEq, exists_eq', iff_true]
    rw [if_neg (Monotonic.not_lt.mpr hord)]
    exact ⟨_, rfl⟩

theorem importDefinition_ok_iff {d : Definition} :
    (∃ d', importDefinition key (exportDefinition d) = .ok d') ↔ NarrowsInOrder d.ttl := by
  rw [← importTtl_exported key]
  unfold importDefinition
  simp only [exportDefinition, SnapshotSource.into_from]
  rcases importTtl key (d.ttl.soft.map millisTruncatingU64)
    (d.ttl.hard.map millisTruncatingU64) with err | ttl
  · simp
  · simp [Definition.new_of_regenerable ttl d.regenerable]

theorem importDefinition_restored {d d' : Definition}
    (h : importDefinition key (exportDefinition d) = .ok d') :
    d'.source = d.source ∧ d'.valueMeta = d.valueMeta ∧ d'.sourceMeta = d.sourceMeta ∧
      d'.ttl.soft = d.ttl.soft.map narrow ∧ d'.ttl.hard = d.ttl.hard.map narrow := by
  unfold importDefinition at h
  split at h
  · cases h
  rename_i ttl httl
  obtain ⟨hsoft, hhard⟩ := importTtl_ok_iff.mp httl
  simp only [exportDefinition, map_narrow] at hsoft hhard
  simp only [exportDefinition, SnapshotSource.into_from,
    Definition.new_of_regenerable ttl d.regenerable] at h
  cases h
  exact ⟨rfl, rfl, rfl, hsoft, hhard⟩

end Records

end Store

end CacheWarden
