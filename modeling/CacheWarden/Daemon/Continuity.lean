import CacheWarden.Daemon.Persistence
import CacheWarden.Daemon.Restarts
import CacheWarden.HandoffTimes
import CacheWarden.SnapshotBytes

/-!
# What a graceful restart carries over

From any state a daemon can be in, the store is exported and imported again.
The versions and the owners come back if the snapshot lists their keys, the
windows if none of them is too long for its field, and an entry that comes back
lives on as it would have.
-/

set_option autoImplicit false

namespace CacheWarden

namespace Store

section Windows

variable {s : Store} {clock : Clock} {wallE wallI : UInt64} {builder : StoreBuilder}
  {token : BitVec 128} {nowI : Monotonic} {bundle : StoreBundle}

/-- Both windows are those of `ttl`, rounded down to whole milliseconds. -/
def Floored (ttl ttl' : Ttl) : Prop :=
  ttl'.soft = ttl.soft.map floorMillis ∧ ttl'.hard = ttl.hard.map floorMillis

/-- Every live entry and every definition came back with its windows. -/
def WindowsFloored (s : Store) (clock : Clock) (after : Store) : Prop :=
  (∀ k e, s.Carried clock k e → ∃ e', after.entries[k]? = some e' ∧ Floored e.ttl e'.ttl) ∧
    ∀ (k : String) d, s.definitions[k]? = some d →
      ∃ d', after.definitions[k]? = some d' ∧ Floored d.ttl d'.ttl

/-- No window of a live entry or of a definition is 2^64 milliseconds or longer. -/
def TtlsFit (s : Store) (clock : Clock) : Prop :=
  (∀ k e, s.Carried clock k e → TtlFits e.ttl) ∧
    ∀ (k : String) d, s.definitions[k]? = some d → TtlFits d.ttl

theorem map_narrow_eq_iff (d : Option Duration) :
    d.map narrow = d.map floorMillis ↔ ∀ x ∈ d, FitsMillis x := by
  rcases d with _ | x
  · simp
  · simp [narrow_eq_floorMillis_iff]

theorem floored_iff {ttl ttl' : Ttl} (hsoft : ttl'.soft = ttl.soft.map narrow)
    (hhard : ttl'.hard = ttl.hard.map narrow) : Floored ttl ttl' ↔ TtlFits ttl := by
  unfold Floored TtlFits
  rw [hsoft, hhard, map_narrow_eq_iff, map_narrow_eq_iff]

theorem windowsSurvive_of_fit (h : s.TtlsFit clock) : s.WindowsSurvive clock :=
  ⟨fun k e he => narrowsInOrder_of_fits (h.1 k e he), fun k d hd => narrowsInOrder_of_fits (h.2 k d hd)⟩

theorem windowsFloored_iff (h : s.handOver clock wallE builder token nowI wallI = .ok bundle) :
    s.WindowsFloored clock bundle.store ↔ s.TtlsFit clock := by
  constructor
  · rintro ⟨hentries, hdefinitions⟩
    constructor
    · intro k e he
      obtain ⟨e', he', hrestored⟩ := handOver_restored h he
      obtain ⟨e'', he'', hfloored⟩ := hentries k e he
      rw [he'] at he''
      cases he''
      exact (floored_iff hrestored.soft hrestored.hard).mp hfloored
    · intro k d hd
      obtain ⟨d', hd', -, hsoft, hhard⟩ := Daemon.handOver_definition h hd
      obtain ⟨d'', hd'', hfloored⟩ := hdefinitions k d hd
      rw [hd'] at hd''
      cases hd''
      exact (floored_iff hsoft hhard).mp hfloored
  · rintro ⟨hentries, hdefinitions⟩
    constructor
    · intro k e he
      obtain ⟨e', he', hrestored⟩ := handOver_restored h he
      exact ⟨e', he', (floored_iff hrestored.soft hrestored.hard).mpr (hentries k e he)⟩
    · intro k d hd
      obtain ⟨d', hd', -, hsoft, hhard⟩ := Daemon.handOver_definition h hd
      exact ⟨d', hd', (floored_iff hsoft hhard).mpr (hdefinitions k d hd)⟩

end Windows

end Store

namespace Daemon

open Vault Store Transition

/-- A daemon without a vault, after some requests at `t`. -/
def servedPlain (t : Monotonic) (requests : List Request) : State :=
  run State.next (State.cold (plainStartup []) ⟨Duration.zero⟩ 0 none .absent)
    (requests.map fun request =>
      .request ({ HandlerCtx.quiet with clock := Clock.constant t, auth := fun _ => .ok () }, request))

theorem reachable_served (t : Monotonic) (requests : List Request) :
    Reachable (servedPlain t requests) := ⟨_, _, _, _, _, _, rfl⟩

/-- A store with one value and its version. -/
def oneValue : Store :=
  { Store.newWithToken 0 Duration.zero with
    entries := (∅ : KeyMap CacheEntry).insert "ns/k"
      (CacheEntry.new .static [1] Ttl.never Monotonic.zero)
    versions := (∅ : KeyMap UInt64).insert "ns/k" 1 }

theorem served_value : (servedPlain Monotonic.zero [setValue none none]).store = oneValue := by
  decide

theorem oneValue_entry {k : String} {e : CacheEntry} (h : oneValue.entries[k]? = some e) :
    k = "ns/k" ∧ e = CacheEntry.new .static [1] Ttl.never Monotonic.zero := by
  unfold oneValue at h
  rw [KeyMap.get_insert] at h
  by_cases hk : "ns/k" = k
  · rw [if_pos hk] at h
    exact ⟨hk.symm, (Option.some.inj h).symm⟩
  · rw [if_neg hk, KeyMap.get_empty] at h
    cases h

theorem oneValue_undefined (k : String) : oneValue.definitions[k]? = none :=
  KeyMap.get_empty k

theorem oneValue_ttlsFit (clock : Clock) : oneValue.TtlsFit clock := by
  constructor
  · intro k e he
    obtain ⟨-, rfl⟩ := oneValue_entry he.1
    constructor
    · intro d hd
      cases hd
    · intro d hd
      cases hd
  · intro k d hd
    rw [oneValue_undefined] at hd
    cases hd

/-- Its store, handed over at once. -/
def handedOverPlain (s : State) : Except HandoffError StoreBundle :=
  s.store.handOver ((Clock.constant Monotonic.zero).since s.now) 100000 ⟨Duration.zero⟩ 1 s.now
    100000

/-- A value with both windows, and a pin that ends between them. -/
def pinnedServed : State :=
  run State.next (State.cold (plainStartup []) ⟨Duration.zero⟩ 0 none .absent)
    ([(2, setValue (some 5) (some 60)), (4, .kvPin "ns/k" 20)].map fun (secs, request) =>
      .request ({ HandlerCtx.quiet with
        clock := Clock.constant ⟨Duration.fromSecs secs⟩, auth := fun _ => .ok () }, request))

theorem reachable_pinned : Reachable pinnedServed := ⟨_, _, _, _, _, _, rfl⟩

def pinnedValue : CacheEntry :=
  { CacheEntry.new .static [1] ⟨some (Duration.fromSecs 5), some (Duration.fromSecs 60), by decide⟩
      ⟨Duration.fromSecs 2⟩ with
    pinDeadline := some ⟨Duration.fromSecs 24⟩ }

/-- A hand-over that takes time, to a process with a timeline of its own. -/
def late : Passage where
  nowE := ⟨Duration.fromSecs 8⟩
  nowI := ⟨Duration.fromSecs 9⟩
  wallE := 100000
  wallI := 101500
  elapsed := 1500200000
  slack := 500000
  wall_le := by decide
  le_wall := by decide

/-- The reading of the new process at a second of the old one. -/
def lateInstant (secs : UInt64) : Monotonic :=
  ⟨⟨(Duration.fromSecs secs).nanos - 500200000, by
    have h := (Duration.fromSecs secs).bound
    omega⟩⟩

/-- The state of the value after a hand-over that takes no time. -/
def stateAfter (s : State) (nowE : Monotonic) (wall : UInt64) (nowI t : Monotonic) :
    Option EntryState :=
  (s.store.handOver ((Clock.constant nowE).since s.now) wall ⟨Duration.zero⟩ 1 nowI
    wall).toOption.bind (·.store.entryStatePure "ns/k" t)

/-- The entry the snapshot has for that value, and its text. -/
def valueEntry (softTtlMs hardTtlMs : Option UInt64) : SnapshotEntry where
  key := "ns/k"
  value := some
    { source := .static
      secret := [1]
      softTtlMs := softTtlMs
      hardTtlMs := hardTtlMs
      loadedAtEpochMs := 100000
      extendedAtEpochMs := 100000
      pinDeadlineEpochMs := none }
  definition := none
  failure := none
  guard := none
  owner := none
  version := some 1
  refreshClaim := none

def millisText (millis : Option UInt64) : String :=
  match millis with
  | some ms => toString ms.toNat
  | none => "null"

def valueText (softTtlMs hardTtlMs : Option UInt64) : String :=
  "\x7b\"key\":\"ns/k\",\"value\":\x7b\"source\":\"Static\",\"secret\":[1],\"soft_ttl_ms\":" ++
    millisText softTtlMs ++ ",\"hard_ttl_ms\":" ++ millisText hardTtlMs ++
    ",\"loaded_at_epoch_ms\":100000,\"extended_at_epoch_ms\":100000," ++
    "\"pin_deadline_epoch_ms\":null\x7d,\"definition\":null,\"failure\":null,\"guard\":null," ++
    "\"owner\":null,\"version\":1,\"refresh_claim\":null\x7d"

/-- A serializer of that one entry. -/
def plainSnapshotSerde (softTtlMs hardTtlMs : Option UInt64) : Serde where
  toVec _ := .ok (valueText softTtlMs hardTtlMs).toUTF8.data.toList
  fromSlice _ := .ok (valueEntry softTtlMs hardTtlMs)

/-- The value with its windows in seconds, handed over at once in bytes. -/
def handedOverPlainBytes (softTtlSecs hardTtlSecs : Option UInt64) :
    Except HandoffError StoreBundle :=
  let s := servedPlain Monotonic.zero [setValue softTtlSecs hardTtlSecs]
  s.store.handOverBytes
    (plainSnapshotSerde (softTtlSecs.map (1000 * ·)) (hardTtlSecs.map (1000 * ·)))
    ((Clock.constant Monotonic.zero).since s.now) 100000 ⟨Duration.zero⟩ 1 Monotonic.zero 100000

instance (serde : Serde) (entries : List SnapshotEntry) : Decidable (serde.Lossless entries) :=
  decidable_of_iff
    (∀ e ∈ entries, (serde.toVec e).toOption.any fun payload =>
      decide ((serde.fromSlice payload).toOption = some e)) (by
    unfold Serde.Lossless
    refine forall₂_congr fun e _ => ?_
    rcases serde.toVec e with err | payload
    · simp [Except.toOption]
    · rcases h : serde.fromSlice payload with err | e' <;> simp [Except.toOption, h])

section

variable {s : State} (hs : Reachable s) (c : Clock) (wallE wallI : UInt64)
  (builder : StoreBuilder) (token : BitVec 128) (nowI : Monotonic)

include hs

theorem sound_exporting : s.store.Sound ((c.since s.now).now 0) :=
  (sound_reachable hs).mono (Clock.le_now_since c s.now 0)

/-- Every version and every owner survives the hand-over if and only if no
window is turned around and every key that has one of them is listed. -/
theorem versions_and_owners_survive_iff :
    (∃ bundle, s.store.handOver (c.since s.now) wallE builder token nowI wallI = .ok bundle ∧
        ∀ k, bundle.store.versionOf k = s.store.versionOf k ∧
          bundle.store.ownerOf k = s.store.ownerOf k) ↔
      s.store.WindowsSurvive (c.since s.now) ∧
        ∀ k, s.store.versionOf k ≠ 0 ∨ (s.store.ownerOf k).isSome →
          s.store.Listed (c.since s.now) k := by
  have hsucceeds : (∃ bundle,
      s.store.handOver (c.since s.now) wallE builder token nowI wallI = .ok bundle) ↔
        s.store.WindowsSurvive (c.since s.now) :=
    handOver_succeeds_iff (sound_exporting hs c)
  constructor
  · rintro ⟨bundle, hbundle, hsame⟩
    refine ⟨hsucceeds.mp ⟨bundle, hbundle⟩, fun k hk => ?_⟩
    by_contra hunlisted
    obtain ⟨hversion, howner⟩ := handOver_unlisted hbundle hunlisted
    obtain ⟨hversion', howner'⟩ := hsame k
    rw [hversion] at hversion'
    rw [howner] at howner'
    rcases hk with hk | hk
    · exact hk hversion'.symm
    · rw [← howner'] at hk
      cases hk
  · rintro ⟨hwindows, hlisted⟩
    obtain ⟨bundle, hbundle⟩ := hsucceeds.mpr hwindows
    refine ⟨bundle, hbundle, fun k => ?_⟩
    by_cases hk : s.store.Listed (c.since s.now) k
    · exact handOver_listed hbundle hk
    · obtain ⟨hversion, howner⟩ := handOver_unlisted hbundle hk
      have hneither : ¬ (s.store.versionOf k ≠ 0 ∨ (s.store.ownerOf k).isSome) :=
        fun h => hk (hlisted k h)
      rw [not_or, Classical.not_not, Option.not_isSome_iff_eq_none] at hneither
      rw [hversion, howner, hneither.1, hneither.2]
      exact ⟨rfl, rfl⟩

omit hs in
theorem versions_and_owners_survive_iff_plain :
    ∃ bundle, handedOverPlain (servedPlain Monotonic.zero [setValue none none]) = .ok bundle ∧
      ∀ k, bundle.store.versionOf k =
          (servedPlain Monotonic.zero [setValue none none]).store.versionOf k ∧
        bundle.store.ownerOf k =
          (servedPlain Monotonic.zero [setValue none none]).store.ownerOf k := by
  apply (versions_and_owners_survive_iff (reachable_served _ _) _ _ _ _ _ _).mpr
  rw [served_value]
  refine ⟨windowsSurvive_of_fit (oneValue_ttlsFit _), ?_⟩
  rintro k (hversion | howner)
  · refine Or.inr (Or.inr (Or.inr ⟨?_, hversion⟩))
    by_cases hk : "ns/k" = k
    · subst hk
      decide
    · refine absurd ?_ hversion
      unfold versionOf oneValue
      rw [KeyMap.get_insert_of_ne _ _ hk, KeyMap.get_empty]
      rfl
  · rw [show oneValue.ownerOf k = none from KeyMap.get_empty k] at howner
    cases howner

omit hs in
/-- A value-only delete leaves a version that the hand-over forgets. -/
theorem deleted_version_forgotten :
    Reachable (servedPlain Monotonic.zero [setValue none none, .kvDel "ns/k" false]) ∧
      ∃ bundle, handedOverPlain (servedPlain Monotonic.zero
          [setValue none none, .kvDel "ns/k" false]) = .ok bundle ∧
        bundle.store.versionOf "ns/k" = 0 ∧
        (servedPlain Monotonic.zero
          [setValue none none, .kvDel "ns/k" false]).store.versionOf "ns/k" = 1 := by
  refine ⟨reachable_served _ _, ?_⟩
  apply exists_ok_and
  decide

/-- The hand-over through bytes succeeds, and brings every window back to the
millisecond, if and only if no window is too long for its field and the snapshot
fits its framing. -/
theorem windows_survive_iff {serde : Serde}
    (hserde : serde.Lossless (s.store.exportEntries (c.since s.now) wallE)) :
    (∃ bundle,
        s.store.handOverBytes serde (c.since s.now) wallE builder token nowI wallI = .ok bundle ∧
          s.store.WindowsFloored (c.since s.now) bundle.store) ↔
      s.store.TtlsFit (c.since s.now) ∧
        StoreSnapshot.Fits serde (s.store.exportEntries (c.since s.now) wallE) := by
  constructor
  · rintro ⟨bundle, hbytes, hfloored⟩
    obtain ⟨hfits, hbundle⟩ := (handOverBytes_ok_iff hserde).mp hbytes
    exact ⟨(windowsFloored_iff hbundle).mp hfloored, hfits⟩
  · rintro ⟨httls, hfits⟩
    obtain ⟨bundle, hbundle⟩ : ∃ bundle,
        s.store.handOver (c.since s.now) wallE builder token nowI wallI = .ok bundle :=
      (handOver_succeeds_iff (sound_exporting hs c)).mpr (windowsSurvive_of_fit httls)
    exact ⟨bundle, (handOverBytes_ok_iff hserde).mpr ⟨hfits, hbundle⟩,
      (windowsFloored_iff hbundle).mpr httls⟩

omit hs in
theorem windows_survive_iff_plain :
    ∃ bundle, handedOverPlainBytes none none = .ok bundle ∧
      (servedPlain Monotonic.zero [setValue none none]).store.WindowsFloored
        ((Clock.constant Monotonic.zero).since
          (servedPlain Monotonic.zero [setValue none none]).now) bundle.store := by
  have hserde : (plainSnapshotSerde none none).Lossless
      ((servedPlain Monotonic.zero [setValue none none]).store.exportEntries
        ((Clock.constant Monotonic.zero).since
          (servedPlain Monotonic.zero [setValue none none]).now) 100000) := by
    decide
  have hpayload : (valueText none none).toUTF8.data.toList.length < 2 ^ 32 := by decide +kernel
  refine (windows_survive_iff (reachable_served Monotonic.zero [setValue none none])
    (Clock.constant Monotonic.zero) 100000 100000 ⟨Duration.zero⟩ 1 Monotonic.zero hserde).mpr
      ⟨?_, ?_, ?_⟩
  · rw [served_value]
    exact oneValue_ttlsFit _
  · decide
  · intro e he payload h
    cases h
    exact hpayload

omit hs in
/-- A hard window of 2^64 + 384 milliseconds beside a soft one of a second
refuses the import of everything. -/
theorem long_window_refuses_import :
    (plainSnapshotSerde (some 1000) (some 384)).Lossless
        ((servedPlain Monotonic.zero [setValue (some 1) (some 18446744073709552)]).store.exportEntries
          ((Clock.constant Monotonic.zero).since (servedPlain Monotonic.zero
            [setValue (some 1) (some 18446744073709552)]).now) 100000) ∧
      handedOverPlainBytes (some 1) (some 18446744073709552) =
        .error (.import (.malformedTtl "ns/k")) := by
  refine ⟨?_, ?_⟩
  · decide
  · decide +kernel

/-- The imported entry lives on as the original: it came back in order, it is in
the state the original would be in away from the boundaries, and hard expiry is
at most a millisecond late. -/
theorem lifecycle_carried_over (p : Passage) (hnow : p.nowE = (c.since s.now).now 0) {k : String}
    {e : CacheEntry} (he : s.store.Carried (c.since s.now) k e) (hplaced : Placed p e) :
    ∃ v e', (s.store.exported (c.since s.now) p.wallE k).value = some v ∧
      importValue p.nowI p.wallI k v = .ok e' ∧
      (∀ bundle, s.store.handOver (c.since s.now) p.wallE builder token p.nowI p.wallI = .ok bundle →
        bundle.store.entries[k]? = some e') ∧
      e'.loadedAt ≤ e'.extendedAt ∧
      (∀ tE tI : Monotonic, p.Same tE.offset.nanos tI →
        tI.offset.nanos < 18446744073709551615999999999 → ClearOf e p.slack tE.offset.nanos →
          e'.state tI = e.state tE) ∧
      ∀ tE tI tI' : Monotonic, p.Same tE.offset.nanos tI →
        tI'.offset.nanos < 18446744073709551615999999999 →
        tI.offset.nanos + 1000000 + p.slack ≤ tI'.offset.nanos →
          e.state tE = .hardExpired → e'.state tI' = .hardExpired := by
  have htimed : e.Timed p.nowE := by
    rw [hnow]
    exact ((sound_exporting hs c).entries k e he.1).2
  obtain ⟨v, hv, hexport⟩ := carried_exported p.wallE he
  rw [← hnow] at hexport
  obtain ⟨bytes, hbytes⟩ := CacheEntry.value_isSome_of_state he.2
  obtain ⟨e', himport⟩ : ∃ e', importValue p.nowI p.wallI k v = .ok e' :=
    (importValue_ok_iff hexport htimed).mpr (narrowsInOrder_of_fits hplaced.fits)
  have hrestored := importValue_restored hexport himport
  refine ⟨v, e', hv, himport, ?_, hrestored.ordered, ?_, ?_⟩
  · intro bundle hbundle
    obtain ⟨value, definition, himports, hslice⟩ := handOver_slice_of_listed hbundle
      (Or.inl (show (s.store.entries[k]?).isSome by rw [he.1]; rfl))
      (not_skipped_of_value (by rw [hv]; rfl))
    have hvalue := himports.value
    rw [hv] at hvalue
    unfold importOpt at hvalue
    simp only [exported_key, himport] at hvalue
    cases hvalue
    exact congrArg KeySlice.entry hslice
  · intro tE tI hsame hend hclear
    exact state_agrees hrestored htimed hplaced hbytes hsame hend hclear
  · intro tE tI tI' hsame hend hlater hexpired
    exact hardExpired_not_later hrestored htimed hplaced hbytes hsame hend hlater hexpired

omit hs in
/-- A value set at two seconds and pinned at four for twenty, handed over at
eight by a process that takes a second and a half, and by wall clocks that are
not quite together. -/
theorem lifecycle_carried_over_pinned :
    ∃ e', (∀ bundle, pinnedServed.store.handOver ((Clock.constant ⟨Duration.fromSecs 8⟩).since
          pinnedServed.now) late.wallE ⟨Duration.zero⟩ 1 late.nowI late.wallI = .ok bundle →
        bundle.store.entries["ns/k"]? = some e') ∧
      e'.state (lateInstant 22) = .active ∧ e'.state (lateInstant 30) = .softExpired ∧
      e'.state (lateInstant 63) = .hardExpired := by
  have hcarried : pinnedServed.store.Carried
      ((Clock.constant ⟨Duration.fromSecs 8⟩).since pinnedServed.now) "ns/k" pinnedValue :=
    ⟨by decide, by decide⟩
  have hfits : TtlFits pinnedValue.ttl := by
    constructor
    · intro d hd
      cases hd
      decide
    · intro d hd
      cases hd
      decide
  have hplaced : Placed late pinnedValue :=
    { fits := hfits
      loadedAt := ⟨by decide, by decide⟩
      extendedAt := ⟨by decide, by decide⟩
      pin := by
        intro d hd
        cases hd
        exact ⟨⟨by decide, by decide⟩, by decide⟩ }
  obtain ⟨v, e', -, -, hbundle, -, hstates, hlate⟩ := lifecycle_carried_over
    reachable_pinned (Clock.constant ⟨Duration.fromSecs 8⟩) ⟨Duration.zero⟩ 1 late (by decide)
    hcarried hplaced
  refine ⟨e', hbundle, ?_, ?_, ?_⟩
  · rw [hstates ⟨Duration.fromSecs 22⟩ _ ⟨by decide, by decide⟩ (by decide) (by decide)]
    decide
  · rw [hstates ⟨Duration.fromSecs 30⟩ _ ⟨by decide, by decide⟩ (by decide) (by decide)]
    decide
  · exact hlate ⟨Duration.fromSecs 62⟩ (lateInstant 62) _ ⟨by decide, by decide⟩ (by decide)
      (by decide) (by decide)

omit hs in
/-- The wall clock does not reach back to the load; the pin outlasts its field;
the timeline ends. Each time the imported entry parts from the original. -/
theorem lifecycle_parts_at_the_ends :
    (stateAfter (servedPlain Monotonic.zero [setValue none (some 10)]) ⟨Duration.fromSecs 5⟩ 0
        ⟨Duration.fromSecs 5⟩ ⟨Duration.fromSecs 11⟩ = some .active ∧
      (servedPlain Monotonic.zero [setValue none (some 10)]).store.entryStatePure "ns/k"
        ⟨Duration.fromSecs 11⟩ = some .hardExpired) ∧
    (stateAfter (servedPlain Monotonic.zero
        [setValue none (some 10), .kvPin "ns/k" 18446744073709551615]) Monotonic.zero 100000
          Monotonic.zero ⟨Duration.fromMillis 18446744073709551615⟩ = some .hardExpired ∧
      (servedPlain Monotonic.zero
        [setValue none (some 10), .kvPin "ns/k" 18446744073709551615]).store.entryStatePure "ns/k"
          ⟨Duration.fromMillis 18446744073709551615⟩ = some .active) ∧
    stateAfter (servedPlain Monotonic.zero [setValue none (some 10), .kvPin "ns/k" 100])
        Monotonic.zero 100000 ⟨⟨18446744073709551595999999999, by decide⟩⟩
        ⟨⟨18446744073709551615999999999, by decide⟩⟩ = some .hardExpired ∧
      (servedPlain Monotonic.zero
        [setValue none (some 10), .kvPin "ns/k" 100]).store.entryStatePure "ns/k"
          ⟨Duration.fromSecs 20⟩ = some .active := by
  refine ⟨⟨?_, ?_⟩, ⟨?_, ?_⟩, ?_, ?_⟩ <;> decide

end

end Daemon

end CacheWarden
