import CacheWarden.Daemon.PersistedShape
import CacheWarden.Daemon.HandoverGap

/-!
# Definitions that survive the file

Every definition that a client has had acknowledged comes back from the file
exactly when each of them survives as text: no control character in a text of its
source, no variable whose name holds the mark between name and value, no command
of one empty argument, and a type that the file has fields for.
-/

set_option autoImplicit false

namespace CacheWarden

namespace Daemon

open Toml Transition

section Registering

/-- A `kv.define`, as a client sends it. -/
structure DefineCall where
  key : String
  source : SourceSpecWire
  softTtlSecs : Option UInt64
  hardTtlSecs : Option UInt64
  valueMeta : ValueMetaWire

namespace DefineCall

def request (self : DefineCall) : Request :=
  .kvDefine self.key self.source self.softTtlSecs self.hardTtlSecs self.valueMeta

/-- The definition that it declares, where its key has two segments. -/
def declares (self : DefineCall) : Option KvDefinition :=
  (splitComposed self.key).map fun (ns, name) =>
    { name := String.ofList name
      pinnedNamespace := some (String.ofList ns)
      source := self.source
      softTtlSecs := self.softTtlSecs
      hardTtlSecs := self.hardTtlSecs
      preload := false
      valueMeta := self.valueMeta }

end DefineCall

/-- The daemon, and the definitions it has acknowledged. -/
structure Registry where
  daemon : State
  registered : List KvDefinition

def Registry.step (self : Registry) (e : HandlerCtx × DefineCall) : Registry :=
  match handleRequest e.1 self.daemon e.2.request with
  | (.ok _, daemon) => ⟨daemon, self.registered ++ e.2.declares.toList⟩
  | (.err _, daemon) => ⟨daemon, self.registered⟩

/-- The definitions that the file restores are those that were acknowledged. -/
def Registry.Restored (crate : TomlCrate) (path : String) (self : Registry) : Prop :=
  ∃ loaded,
    loadDefinitions crate path (saveDefinitions (snapshotDefinitions self.daemon.store)) =
      .ok loaded ∧ loaded.Nodup ∧ ∀ d, d ∈ loaded ↔ d ∈ self.registered

/-- The definition is one that the file carries over as it is. -/
structure Survivable (d : KvDefinition) : Prop where
  legible : d.source.Legible
  clean : CleanSource d.source
  typed : ∃ settings, d.valueMeta = settingsMeta settings ∧ FitsFile settings

end Registering

section Accurate

/-- The definition passed the checks of a `kv.define`. -/
structure PassedChecks (e : KvDefinition) : Prop where
  split : splitComposed e.key = some (e.inNamespace.toList, e.name.toList)
  pinned : e.pinnedNamespace.isSome = true
  source : e.source.validate = .ok ()
  lazily : e.preload = false

/-- The registry holds the definition as the request had it. -/
structure EnteredAs (e : KvDefinition) (d : Definition) : Prop where
  sourceMeta : d.sourceMeta = e.source.toSourceMeta
  valueMeta : d.valueMeta = metaFromWire e.valueMeta
  soft : d.ttl.soft = e.softTtlSecs.map Duration.fromSecs
  hard : d.ttl.hard = e.hardTtlSecs.map Duration.fromSecs

structure Accurate (r : Registry) : Prop where
  checked : ∀ e ∈ r.registered, PassedChecks e
  listed : ∀ e ∈ r.registered, ∃ d, r.daemon.store.definitions[e.key]? = some d ∧ EnteredAs e d
  known : ∀ (k : String) d, r.daemon.store.definitions[k]? = some d →
    ∃ e ∈ r.registered, e.key = k ∧ EnteredAs e d

theorem checked_of_declares {call : DefineCall} {e : KvDefinition}
    (h : call.declares = some e) (hsource : call.source.validate = .ok ()) :
    e.key = call.key ∧ PassedChecks e := by
  obtain ⟨⟨ns, name⟩, hsplit, rfl⟩ := Option.map_eq_some_iff.mp h
  have hkey : compose (String.ofList ns) (String.ofList name) = call.key := by
    unfold splitComposed at hsplit
    cases hslash : splitOnceSlash call.key.toList with
    | none =>
      rw [hslash] at hsplit
      cases hsplit
    | some p =>
      obtain ⟨ns', name'⟩ := p
      rw [hslash] at hsplit
      dsimp only at hsplit
      by_cases hsegments : (isIdentifierSegment ns' && isIdentifierSegment name') = true
      · rw [if_pos hsegments] at hsplit
        cases hsplit
        apply String.toList_injective
        rw [splitOnceSlash_some hslash]
        simp [compose]
      · rw [if_neg hsegments] at hsplit
        cases hsplit
  refine ⟨hkey, ?_, rfl, hsource, rfl⟩
  show splitComposed (compose (String.ofList ns) (String.ofList name)) =
    some ((String.ofList ns).toList, (String.ofList name).toList)
  rw [hkey, hsplit, String.toList_ofList, String.toList_ofList]

theorem PassedChecks.segments {e : KvDefinition} (h : PassedChecks e) :
    isIdentifierSegment e.inNamespace.toList = true ∧
      isIdentifierSegment e.name.toList = true := by
  have hsplit := h.split
  unfold splitComposed at hsplit
  cases hslash : splitOnceSlash e.key.toList with
  | none =>
    rw [hslash] at hsplit
    cases hsplit
  | some p =>
    obtain ⟨ns, name⟩ := p
    rw [hslash] at hsplit
    dsimp only at hsplit
    by_cases hsegments : (isIdentifierSegment ns && isIdentifierSegment name) = true
    · rw [if_pos hsegments] at hsplit
      obtain ⟨hns, hname⟩ := Prod.mk.inj (Option.some.inj hsplit)
      rw [← hns, ← hname]
      exact Bool.and_eq_true_iff.mp hsegments
    · rw [if_neg hsegments] at hsplit
      cases hsplit

theorem kept_of_define {store : Store} {key : String} {source : ValueSource} {ttl : Ttl}
    {valueMeta : ValueMeta} {sourceMeta : SourceMeta} {old : Definition}
    (hold : store.definitions[key]? = some old) :
    (store.defineWithMeta key source ttl valueMeta sourceMeta).2 = store := by
  rcases store.defineWithMeta_cases key source ttl valueMeta sourceMeta with
    ⟨⟨e, heq⟩, -⟩ | ⟨-, d, -, ⟨-, heq⟩ | ⟨hnone, -⟩⟩
  · rw [heq]
  · rw [heq]
  · rw [hold] at hnone
    cases hnone

variable {ctx : HandlerCtx} {s : State} {call : DefineCall}

/-- An acknowledged define leaves its definition under its key, where no other
one was, and the rest as it was. -/
theorem acknowledged_recorded {payload : OkPayload}
    (h : (handleRequest ctx s call.request).1 = .ok payload) :
    ∃ e d, call.declares = some e ∧ e.key = call.key ∧ PassedChecks e ∧ EnteredAs e d ∧
      (∀ old, s.store.definitions[call.key]? = some old → old = d) ∧
        ∀ k, (handleRequest ctx s call.request).2.store.definitions[k]? =
          if call.key = k then some d else s.store.definitions[k]? := by
  obtain ⟨key, source, soft, hard, valueMeta⟩ := call
  have h : (handleRequest ctx s (.kvDefine key source soft hard valueMeta)).1 = .ok payload := h
  obtain ⟨hsplit, hsource, -⟩ := define_accepted h
  obtain ⟨p, hp⟩ := Option.isSome_iff_exists.mp hsplit
  have hdeclares : DefineCall.declares ⟨key, source, soft, hard, valueMeta⟩ =
      some ⟨String.ofList p.2, some (String.ofList p.1), source, soft, hard, false, valueMeta⟩ := by
    unfold DefineCall.declares
    rw [hp]
    rfl
  obtain ⟨hkey, hchecked⟩ := checked_of_declares hdeclares hsource
  obtain ⟨d, hd, -, hvalueMeta, hsourceMeta, hsoft, hhard⟩ := written_define h
  have hchanges := @request_changes ctx s (.define key source soft hard valueMeta) payload h
  refine ⟨_, d, hdeclares, hkey, hchecked, ?_, ?_, ?_⟩
  · constructor
    · exact hsourceMeta
    · exact hvalueMeta
    · exact hsoft
    · exact hhard
  · intro old hold
    have hstore : (handleRequest ctx s (.kvDefine key source soft hard valueMeta)).2.store =
        s.store := by
      have heffect := handleRequest_effect ctx s (.kvDefine key source soft hard valueMeta)
      generalize handleRequest ctx s (.kvDefine key source soft hard valueMeta) = result
        at h heffect
      obtain ⟨response, s'⟩ := result
      subst h
      cases heffect with
      | defined key source soft hard valueMeta ttl hok => exact kept_of_define hold
    have hold : s.store.definitions[key]? = some old := hold
    rw [hstore, hold] at hd
    exact Option.some.inj hd
  · intro k
    by_cases hk : key = k
    · subst hk
      rw [if_pos rfl]
      exact hd
    · rw [if_neg hk]
      exact hchanges.elsewhere k (Ne.symm hk)

theorem step_acknowledged {r : Registry} {e : HandlerCtx × DefineCall} {payload : OkPayload}
    (h : (handleRequest e.1 r.daemon e.2.request).1 = .ok payload) :
    r.step e = ⟨(handleRequest e.1 r.daemon e.2.request).2,
      r.registered ++ e.2.declares.toList⟩ := by
  unfold Registry.step
  generalize handleRequest e.1 r.daemon e.2.request = result at h
  obtain ⟨response, daemon⟩ := result
  subst h
  rfl

theorem step_refused {r : Registry} {e : HandlerCtx × DefineCall} {error : WireError}
    (h : (handleRequest e.1 r.daemon e.2.request).1 = .err error) :
    r.step e = ⟨(handleRequest e.1 r.daemon e.2.request).2, r.registered⟩ := by
  unfold Registry.step
  generalize handleRequest e.1 r.daemon e.2.request = result at h
  obtain ⟨response, daemon⟩ := result
  subst h
  rfl

theorem accurate_step {r : Registry} (h : Accurate r) (e : HandlerCtx × DefineCall) :
    Accurate (r.step e) := by
  cases hresponse : (handleRequest e.1 r.daemon e.2.request).1 with
  | err error =>
    have hsame : (handleRequest e.1 r.daemon e.2.request).2.store.definitions =
        r.daemon.store.definitions :=
      @refused_definitions e.1 r.daemon (.define e.2.key e.2.source e.2.softTtlSecs
        e.2.hardTtlSecs e.2.valueMeta) error hresponse
    rw [step_refused hresponse]
    constructor
    · exact h.checked
    · intro entry hentry
      obtain ⟨d, hd, hrecorded⟩ := h.listed entry hentry
      exact ⟨d, by rw [← hd]; exact congrArg (·[entry.key]?) hsame, hrecorded⟩
    · intro k d hd
      apply h.known k d
      rw [← hd]
      exact congrArg (·[k]?) hsame.symm
  | ok payload =>
    obtain ⟨new, d, hdeclares, hkey, hchecked, hrecorded, hold, hafter⟩ :=
      acknowledged_recorded hresponse
    rw [step_acknowledged hresponse, hdeclares]
    constructor
    · intro entry hentry
      rcases List.mem_append.mp hentry with hentry | hentry
      · exact h.checked entry hentry
      · rw [List.mem_singleton.mp hentry]
        exact hchecked
    · intro entry hentry
      rcases List.mem_append.mp hentry with hentry | hentry
      · obtain ⟨d', hd', hrecorded'⟩ := h.listed entry hentry
        refine ⟨d', ?_, hrecorded'⟩
        rw [hafter]
        by_cases hk : e.2.key = entry.key
        · rw [if_pos hk, ← hold d' (by rw [hk]; exact hd')]
        · rw [if_neg hk]
          exact hd'
      · rw [List.mem_singleton.mp hentry]
        exact ⟨d, by rw [hafter, if_pos hkey.symm], hrecorded⟩
    · intro k d' hd'
      rw [hafter] at hd'
      by_cases hk : e.2.key = k
      · rw [if_pos hk] at hd'
        cases hd'
        exact ⟨new, List.mem_append_right _ (List.mem_singleton_self new), hkey.trans hk, hrecorded⟩
      · rw [if_neg hk] at hd'
        obtain ⟨entry, hentry, hrest⟩ := h.known k d' hd'
        exact ⟨entry, List.mem_append_left _ hentry, hrest⟩

/-- A registry of a daemon that has no definitions yet. -/
def Registry.start (daemon : State) : Registry := ⟨daemon, []⟩

theorem accurate_run {daemon : State} (hempty : daemon.store.definitions = ∅)
    (calls : List (HandlerCtx × DefineCall)) :
    Accurate (run Registry.step (Registry.start daemon) calls) := by
  apply run_invariant Registry.step (P := fun _ _ => True) (I := Accurate)
    (fun r e h _ => accurate_step h e)
  · exact along_of_forall Registry.step (fun _ _ => trivial) _ _
  · constructor
    · exact fun e he => absurd he List.not_mem_nil
    · exact fun e he => absurd he List.not_mem_nil
    · intro k d hd
      have hd : daemon.store.definitions[k]? = some d := hd
      rw [hempty, KeyMap.get_empty] at hd
      cases hd

end Accurate

section Snapshot

theorem metaToWire_settings (settings : Option OtpSettings) :
    metaToWire (metaFromWire (settingsMeta settings)) = settingsMeta settings := by
  cases settings with
  | none => decide
  | some s => rfl

/-- The whole seconds of a window are the seconds it was made of. -/
theorem asSecs_fromSecs (secs : UInt64) : (Duration.fromSecs secs).asSecs = secs := by
  unfold Duration.asSecs
  rw [Duration.nanos_fromSecs, Nat.mul_div_cancel_left _ (by decide), UInt64.ofNat_toNat]

theorem secs_of_window (secs : Option UInt64) :
    (secs.map Duration.fromSecs).map Duration.asSecs = secs := by
  cases secs with
  | none => rfl
  | some secs => exact congrArg some (asSecs_fromSecs secs)

/-- What a registered definition is written as. -/
theorem writtenAs_recorded {e : KvDefinition} {d : Definition} (hchecked : PassedChecks e)
    (h : EnteredAs e d) :
    writtenAs e.key d = (SourceSpecWire.fromSourceMeta e.source.toSourceMeta).map fun source =>
      { e with source := source, valueMeta := metaToWire (metaFromWire e.valueMeta) } := by
  unfold writtenAs
  rw [h.sourceMeta, h.valueMeta, h.soft, h.hard, secs_of_window, secs_of_window, hchecked.split]
  obtain ⟨ns, hns⟩ := Option.isSome_iff_exists.mp hchecked.pinned
  cases SourceSpecWire.fromSourceMeta e.source.toSourceMeta with
  | none => rfl
  | some source =>
    have hlazily := hchecked.lazily
    obtain ⟨name, pinned, source', soft, hard, preload, valueMeta⟩ := e
    cases hns
    cases hlazily
    simp [KvDefinition.inNamespace]

theorem nodup_snapshot (store : Store) :
    ((snapshotDefinitions store).map KvDefinition.key).Nodup := by
  have hsub : ∀ keys : List String, ((keys.filterMap fun key =>
      (store.definitions[key]?).bind (writtenAs key)).map KvDefinition.key).Sublist keys := by
    intro keys
    induction keys with
    | nil => simp
    | cons k keys ih =>
      rw [List.filterMap_cons]
      cases hk : (store.definitions[k]?).bind (writtenAs k) with
      | none => exact ih.cons k
      | some x =>
        obtain ⟨d, -, hwritten⟩ := Option.bind_eq_some_iff.mp hk
        rw [List.map_cons, writtenAs_key hwritten]
        exact ih.cons_cons k
  exact (hsub _).nodup (KeyMap.nodup_keys _)

variable {r : Registry}

/-- The snapshot holds each registered definition, its source and its type as
they read back. -/
theorem mem_snapshot_accurate (h : Accurate r) {x : KvDefinition} :
    x ∈ snapshotDefinitions r.daemon.store ↔
      ∃ e ∈ r.registered, ∃ source,
        SourceSpecWire.fromSourceMeta e.source.toSourceMeta = some source ∧
          x = { e with source := source, valueMeta := metaToWire (metaFromWire e.valueMeta) } := by
  rw [mem_snapshot]
  constructor
  · rintro ⟨d, hd, hwritten⟩
    obtain ⟨e, he, hkey, hrecorded⟩ := h.known _ d hd
    rw [← hkey, writtenAs_recorded (h.checked e he) hrecorded] at hwritten
    obtain ⟨source, hsource, rfl⟩ := Option.map_eq_some_iff.mp hwritten
    exact ⟨e, he, source, hsource, rfl⟩
  · rintro ⟨e, he, source, hsource, rfl⟩
    obtain ⟨d, hd, hrecorded⟩ := h.listed e he
    refine ⟨d, hd, ?_⟩
    show writtenAs e.key d = _
    rw [writtenAs_recorded (h.checked e he) hrecorded, hsource]
    rfl

end Snapshot

section RoundTrip

variable {crate : TomlCrate} {path : String} {settings : KvDefinition → Option OtpSettings}
  {defs : List KvDefinition} {r : Registry}

theorem clean_doc (htab : ∀ d ∈ defs, Tabular settings d) :
    (definitionsDoc settings (sortedDefinitions defs)).Clean ↔
      ∀ d ∈ defs, CleanSource d.source ∧ FitsFile (settings d) := by
  have hmem : ∀ d, d ∈ sortedDefinitions defs ↔ d ∈ defs := fun d =>
    (List.mergeSort_perm defs _).mem_iff
  constructor
  · intro hclean d hd
    apply (clean_definition (htab d hd)).mp
    exact hclean _ (List.mem_map.mpr ⟨d, (hmem d).mpr hd, rfl⟩)
  · intro hall s hs
    obtain ⟨d, hd, rfl⟩ := List.mem_map.mp hs
    have hd := (hmem d).mp hd
    exact (clean_definition (htab d hd)).mpr (hall d hd)

theorem saved_text (htab : ∀ d ∈ defs, Tabular settings d) :
    serializeDefinitions defs =
      String.ofList (definitionsDoc settings (sortedDefinitions defs)).text := by
  rw [← serializeDefinitions_toList htab, String.ofList_toList]

theorem nodup_sorted (hkeys : (defs.map KvDefinition.key).Nodup) :
    ((sortedDefinitions defs).map KvDefinition.key).Nodup :=
  ((List.mergeSort_perm defs _).map KvDefinition.key).nodup_iff.mpr hkeys

/-- A file of definitions with clean sources loads as the definitions. -/
theorem load_clean (hcrate : Implements crate.parse) (htab : ∀ d ∈ defs, Tabular settings d)
    (hkeys : (defs.map KvDefinition.key).Nodup)
    (hclean : ∀ d ∈ defs, CleanSource d.source ∧ FitsFile (settings d)) :
    ∃ loaded, loadDefinitions crate path (saveDefinitions defs) = .ok loaded ∧ loaded.Nodup ∧
      ∀ d, d ∈ loaded ↔ d ∈ defs := by
  have hmem : ∀ d, d ∈ sortedDefinitions defs ↔ d ∈ defs := fun d =>
    (List.mergeSort_perm defs _).mem_iff
  have hsorted := nodup_sorted hkeys
  obtain ⟨loaded, hloaded, hnodup, hdefs⟩ := parsePersisted_doc hcrate
    (fun d hd => htab d ((hmem d).mp hd)) hsorted (wellFormed_doc hsorted)
    ((clean_doc htab).mpr hclean) fun d hd => (hclean d ((hmem d).mp hd)).2
  refine ⟨loaded, ?_, hnodup, fun d => (hdefs d).trans (hmem d)⟩
  unfold saveDefinitions loadDefinitions
  dsimp only
  rw [saved_text htab, hloaded]

/-- A file of definitions does not load where one has a source that is not
clean: all of them are lost. -/
theorem load_dirty (hcrate : Implements crate.parse) (htab : ∀ d ∈ defs, Tabular settings d)
    (hkeys : (defs.map KvDefinition.key).Nodup)
    (hdirty : ¬ ∀ d ∈ defs, CleanSource d.source ∧ FitsFile (settings d)) :
    ∃ e, loadDefinitions crate path (saveDefinitions defs) = .error e := by
  obtain ⟨e, he⟩ := hcrate.rejects _ (wellFormed_doc (nodup_sorted hkeys))
    fun hclean => hdirty ((clean_doc htab).mp hclean)
  have hparse : parsePersisted crate (serializeDefinitions defs) =
      .error [.text ("invalid TOML: " ++ e)] := by
    unfold parsePersisted
    rw [saved_text htab, he]
  unfold saveDefinitions loadDefinitions
  dsimp only
  rw [hparse]
  exact ⟨_, rfl⟩

/-- What reads back of a source that passed its checks passes them too. -/
theorem validate_readBack {source source' : SourceSpecWire} (h : source.validate = .ok ())
    (hback : SourceSpecWire.fromSourceMeta source.toSourceMeta = some source') :
    source'.validate = .ok () := by
  cases source with
  | op spec =>
    rw [fromSourceMeta_op] at hback
    cases hback
    exact h
  | command spec =>
    have hne : spec.argv ≠ [] := by
      intro hnil
      simp [SourceSpecWire.validate, hnil] at h
    have hblank : spec.argv ≠ [""] :=
      (fromSourceMeta_isSome_iff h).mp (Option.isSome_of_eq_some hback)
    rw [fromSourceMeta_command hne hblank] at hback
    cases hback
    have hlines : splitLines ("\n".intercalate spec.argv) ≠ [] := by
      unfold splitLines
      rw [ne_eq, List.map_eq_nil_iff]
      exact List.splitOn_ne_nil _ _
    unfold SourceSpecWire.validate readBackAs
    dsimp only
    rw [if_neg (by simpa using hlines)]

/-- Settings that make up the same type have the same period. -/
theorem fitsFile_of_same {s t : Option OtpSettings} (h : settingsMeta s = settingsMeta t)
    (hfits : FitsFile s) : FitsFile t := by
  have hperiod : ∀ s : Option OtpSettings, (settingsMeta s).params["period"]? =
      (s.bind OtpSettings.period).map fun p => p.toNat.repr := by
    intro s
    cases s with
    | none => exact KeyMap.get_empty _
    | some s =>
      unfold settingsMeta otpParams
      simp [KeyMap.get_insertOpt]
  have hsame : (s.bind OtpSettings.period).map (fun p => p.toNat.repr) =
      (t.bind OtpSettings.period).map fun p => p.toNat.repr := by
    rw [← hperiod, ← hperiod, h]
  intro p hp
  rw [hp] at hsame
  obtain ⟨q, hq, hrepr⟩ := Option.map_eq_some_iff.mp hsame
  have hdigits : Nat.toDigits 10 q.toNat = Nat.toDigits 10 p.toNat := by
    rw [← Nat.toList_repr, ← Nat.toList_repr]
    exact congrArg String.toList hrepr
  have hnat := congrArg (fun cs => Nat.ofDigitChars 10 cs 0) hdigits
  rw [Nat.ofDigitChars_ten_toDigits, Nat.ofDigitChars_ten_toDigits] at hnat
  rw [← hnat]
  exact hfits q hq

/-- Settings for every type that has some. -/
theorem exists_settings : ∃ settings : ValueMetaWire → Option OtpSettings,
    ∀ s, settingsMeta (settings (settingsMeta s)) = settingsMeta s := by
  have hall : ∀ m, ∃ t, ∀ s, m = settingsMeta s → settingsMeta t = m := by
    intro m
    by_cases h : ∃ s, m = settingsMeta s
    · obtain ⟨t, ht⟩ := h
      exact ⟨t, fun _ _ => ht.symm⟩
    · exact ⟨none, fun s hs => absurd ⟨s, hs⟩ h⟩
  obtain ⟨settings, hsettings⟩ := Classical.skolem.mp hall
  exact ⟨settings, fun s => hsettings _ s rfl⟩

variable {typed : ValueMetaWire → Option OtpSettings}

/-- Where every registered type has settings, the file has a table for every
definition of the snapshot. -/
theorem tabular_snapshot (h : Accurate r)
    (htyped : ∀ e ∈ r.registered, settingsMeta (typed e.valueMeta) = e.valueMeta) :
    ∀ x ∈ snapshotDefinitions r.daemon.store, Tabular (fun d => typed d.valueMeta) x := by
  intro x hx
  obtain ⟨e, he, source, hsource, rfl⟩ := (mem_snapshot_accurate h).mp hx
  have hchecked := h.checked e he
  have hmeta : metaToWire (metaFromWire e.valueMeta) = e.valueMeta := by
    rw [← htyped e he, metaToWire_settings]
  constructor
  · obtain ⟨ns, hns⟩ := Option.isSome_iff_exists.mp hchecked.pinned
    refine ⟨ns, hns, ?_⟩
    have hsegment := hchecked.segments.1
    unfold KvDefinition.inNamespace at hsegment
    rw [hns] at hsegment
    exact hsegment
  · exact hchecked.segments.2
  · exact validate_readBack hchecked.source hsource
  · exact hchecked.lazily
  · dsimp only
    rw [hmeta]
    exact (htyped e he).symm

theorem restored_of_survivable (hcrate : Implements crate.parse) (h : Accurate r)
    (hsurvive : ∀ d ∈ r.registered, Survivable d) : r.Restored crate path := by
  obtain ⟨typed, htyped⟩ := exists_settings
  have hsettings : ∀ e ∈ r.registered, settingsMeta (typed e.valueMeta) = e.valueMeta := by
    intro e he
    obtain ⟨s, hs, -⟩ := (hsurvive e he).typed
    rw [hs, htyped]
  have hsnapshot : ∀ d, d ∈ snapshotDefinitions r.daemon.store ↔ d ∈ r.registered := by
    have hsame : ∀ e ∈ r.registered,
        SourceSpecWire.fromSourceMeta e.source.toSourceMeta = some e.source ∧
          metaToWire (metaFromWire e.valueMeta) = e.valueMeta := by
      intro e he
      refine ⟨(fromSourceMeta_eq_iff (h.checked e he).source).mpr (hsurvive e he).legible, ?_⟩
      rw [← hsettings e he, metaToWire_settings]
    intro d
    rw [mem_snapshot_accurate h]
    constructor
    · rintro ⟨e, he, source, hsource, rfl⟩
      rw [(hsame e he).1] at hsource
      cases hsource
      rw [(hsame e he).2]
      exact he
    · intro hd
      exact ⟨d, hd, d.source, (hsame d hd).1, by rw [(hsame d hd).2]⟩
  have hclean : ∀ d ∈ snapshotDefinitions r.daemon.store,
      CleanSource d.source ∧ FitsFile (typed d.valueMeta) := by
    intro d hd
    have hd := (hsnapshot d).mp hd
    obtain ⟨s, hs, hfits⟩ := (hsurvive d hd).typed
    refine ⟨(hsurvive d hd).clean, fitsFile_of_same ?_ hfits⟩
    rw [hsettings d hd, hs]
  obtain ⟨loaded, hloaded, hnodup, hmem⟩ := @load_clean crate path _ _ hcrate
    (tabular_snapshot h hsettings) (nodup_snapshot _) hclean
  exact ⟨loaded, hloaded, hnodup, fun d => (hmem d).trans (hsnapshot d)⟩

theorem loaded_typed {file : DefinitionsFile} {loaded : List KvDefinition}
    (h : loadDefinitions crate path file = .ok loaded) :
    ∀ d ∈ loaded, ∃ s, d.valueMeta = settingsMeta s := by
  unfold loadDefinitions at h
  cases file with
  | absent =>
    cases h
    exact fun d hd => absurd hd List.not_mem_nil
  | unreadable e => cases h
  | holds text =>
    dsimp only at h
    cases hparse : parsePersisted crate text with
    | error e =>
      rw [hparse] at h
      cases h
    | ok defs =>
      rw [hparse] at h
      cases h
      exact parsePersisted_typed hparse

theorem survivable_of_restored (hcrate : Implements crate.parse) (h : Accurate r)
    (hrestored : r.Restored crate path) : ∀ d ∈ r.registered, Survivable d := by
  obtain ⟨loaded, hloaded, -, hmem⟩ := hrestored
  obtain ⟨typed, htyped⟩ := exists_settings
  have hsettings : ∀ e ∈ r.registered, settingsMeta (typed e.valueMeta) = e.valueMeta := by
    intro e he
    obtain ⟨s, hs⟩ := loaded_typed hloaded e ((hmem e).mpr he)
    rw [hs, htyped]
  have htabular := tabular_snapshot h hsettings
  by_cases hclean : ∀ d ∈ snapshotDefinitions r.daemon.store,
      CleanSource d.source ∧ FitsFile (typed d.valueMeta)
  · obtain ⟨loaded', hloaded', -, hmem'⟩ := @load_clean crate path _ _ hcrate htabular
      (nodup_snapshot _) hclean
    rw [hloaded] at hloaded'
    cases hloaded'
    intro e he
    have hsnapshot := (hmem' e).mp ((hmem e).mpr he)
    obtain ⟨hsource, hfits⟩ := hclean e hsnapshot
    refine ⟨?_, hsource, typed e.valueMeta, (hsettings e he).symm, hfits⟩
    apply (fromSourceMeta_eq_iff (h.checked e he).source).mp
    obtain ⟨e', he', source, hback, heq⟩ := (mem_snapshot_accurate h).mp hsnapshot
    -- Both entries are of one key, so they are the record of one definition.
    have hkey : e.key = e'.key := by
      rw [heq]
      rfl
    obtain ⟨d, hd, hentered⟩ := h.listed e he
    obtain ⟨d', hd', hentered'⟩ := h.listed e' he'
    rw [hkey, hd'] at hd
    cases hd
    have hsource : e.source = source := by rw [heq]
    rw [← hentered.sourceMeta, hentered'.sourceMeta, hback, hsource]
  · obtain ⟨e, he⟩ := @load_dirty crate path _ _ hcrate htabular (nodup_snapshot _) hclean
    rw [hloaded] at he
    cases he

/-- From a daemon without definitions, whatever is defined: the file restores
what was acknowledged exactly when each definition is survivable. -/
theorem acknowledged_definitions_restored (hcrate : Implements crate.parse) (daemon : State)
    (hempty : daemon.store.definitions = ∅) (calls : List (HandlerCtx × DefineCall)) :
    (run Registry.step (Registry.start daemon) calls).Restored crate path ↔
      ∀ d ∈ (run Registry.step (Registry.start daemon) calls).registered, Survivable d :=
  ⟨survivable_of_restored hcrate (accurate_run hempty calls),
    restored_of_survivable hcrate (accurate_run hempty calls)⟩

/-- A crate that reads the documents, and says nothing of its errors. -/
def readerCrate : TomlCrate := ⟨Reader.read, fun _ => ""⟩

def fetchCall : DefineCall :=
  ⟨"ns/a", .command ⟨["fetch", "--all"], some "/srv", (∅ : KeyMap String).insert "TOKEN" "a\"b\\c"⟩,
    none, some 60, ⟨some "otp", (∅ : KeyMap String).insert "digits" "6"⟩⟩

def itemCall : DefineCall := ⟨"ns/b", .op ⟨"op://v/i/f", none⟩, some 5, none, ⟨none, ∅⟩⟩

def restoredRun : Registry :=
  run Registry.step (Registry.start (State.starting none .absent))
    [(.quiet, fetchCall), (.quiet, itemCall)]

def sixDigits : OtpSettings where
  digits := some 6
  period := none
  algorithm := none
  digits_bound := by
    intro d hd
    cases hd
    decide
  period_pos := by decide

theorem restoredRun_survivable : ∀ d ∈ restoredRun.registered, Survivable d := by
  have hregistered : restoredRun.registered =
      [⟨"a", some "ns", fetchCall.source, none, some 60, false, fetchCall.valueMeta⟩,
        ⟨"b", some "ns", itemCall.source, some 5, none, false, itemCall.valueMeta⟩] := by decide
  rw [hregistered]
  intro d hd
  rcases List.mem_cons.mp hd with rfl | hd
  · refine ⟨by decide, ⟨?_, ?_, ?_⟩, some sixDigits, by decide, ?_⟩
    · exact clean_names (by decide)
    · intro cwd hcwd
      cases hcwd
      exact clean_names (by decide) "/srv" (List.mem_singleton_self _)
    · intro p hp
      have hp : p ∈ [("TOKEN", "a\"b\\c")] := hp
      rw [List.mem_singleton.mp hp]
      exact ⟨clean_names (by decide) "TOKEN" (List.mem_singleton_self _),
        clean_names (by decide) "a\"b\\c" (List.mem_singleton_self _)⟩
    · intro p hp
      cases hp
  · rw [List.mem_singleton.mp hd]
    refine ⟨by decide, ⟨?_, ?_⟩, none, by decide, ?_⟩
    · exact clean_names (by decide) "op://v/i/f" (List.mem_singleton_self _)
    · intro account haccount
      cases haccount
    · intro p hp
      cases hp

theorem acknowledged_definitions_restored_of_two :
    restoredRun.registered.length = 2 ∧ restoredRun.Restored readerCrate "definitions.toml" := by
  refine ⟨by decide, ?_⟩
  exact (@acknowledged_definitions_restored readerCrate "definitions.toml" Reader.read_implements
    (State.starting none .absent) rfl [(.quiet, fetchCall), (.quiet, itemCall)]).mpr
      restoredRun_survivable

/-- Its directory breaks a line. -/
def brokenCall : DefineCall := ⟨"ns/c", .command ⟨["fetch"], some "/srv\n", ∅⟩, none, none, ⟨none, ∅⟩⟩

def brokenRun : Registry :=
  run Registry.step (Registry.start (State.starting none .absent))
    [(.quiet, itemCall), (.quiet, brokenCall)]

/-- One definition with a line break, and no definition is restored. -/
theorem line_break_loses_definitions :
    brokenRun.registered.length = 2 ∧
      (∃ e, loadDefinitions readerCrate "definitions.toml"
        (saveDefinitions (snapshotDefinitions brokenRun.daemon.store)) = .error e) ∧
      ¬ brokenRun.Restored readerCrate "definitions.toml" := by
  have haccurate : Accurate brokenRun := accurate_run rfl [(.quiet, itemCall), (.quiet, brokenCall)]
  have htyped : ∀ e ∈ brokenRun.registered, settingsMeta none = e.valueMeta := by decide
  have hbroken : ∃ d ∈ snapshotDefinitions brokenRun.daemon.store, ¬ CleanSource d.source := by
    refine ⟨⟨"c", some "ns", brokenCall.source, none, none, false, ⟨none, ∅⟩⟩, by decide, ?_⟩
    intro hclean
    have hcwd : CleanString "/srv\n" := hclean.2.1 "/srv\n" rfl
    exact absurd (hcwd '\n' (by decide)) (by decide)
  obtain ⟨e, he⟩ := @load_dirty readerCrate "definitions.toml" (fun _ => none)
    (snapshotDefinitions brokenRun.daemon.store) Reader.read_implements
    (@tabular_snapshot brokenRun (fun _ => none) haccurate htyped) (nodup_snapshot _)
    (by
      intro hclean
      obtain ⟨d, hd, hdirty⟩ := hbroken
      exact hdirty (hclean d hd).1)
  refine ⟨by decide, ⟨e, he⟩, ?_⟩
  rintro ⟨loaded, hloaded, -⟩
  rw [he] at hloaded
  cases hloaded

end RoundTrip

end Daemon

end CacheWarden
