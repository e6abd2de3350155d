import CacheWarden.Daemon.CeremonyUnlock
import CacheWarden.HandoffTimes
import CacheWarden.Loads

/-!
# A chain of graceful restarts

A secret that has been handed over carries its age through two roundings and
two clocks. This module follows it through a run of store operations and
restarts on one timeline of instants, and bounds how late its hard window can
close. Where the successor's clock does not reach back to the load, the window
is counted from the first instant that clock can name.
-/

set_option autoImplicit false

namespace CacheWarden

namespace Daemon

open Transition Store

/-- A graceful restart: the instants at which the old process reads its clock,
the wall clock, and its clock again for each key; those at which the new process
builds its clock and reads the two; and what the wall clock showed. -/
structure GracefulRestart where
  old : Instants
  new : Instants
  wallE : UInt64
  wallI : UInt64
  builder : StoreBuilder
  token : BitVec 128

/-- All but the second, at which the wall clock is read. -/
def monotonicInstants (instants : Instants) : Instants where
  now
    | 0 => instants.now 0
    | i + 1 => instants.now (i + 2)
  last := instants.last
  mono
    | 0 => instants.now_mono (by omega)
    | i + 1 => instants.mono (i + 2)
  le_last
    | 0 => instants.le_last 0
    | i + 1 => instants.le_last (i + 2)

inductive LineageEvent where
  | operate (op : StoreOp) (instants : Instants)
  | restart (restart : GracefulRestart)

/-- The processes that hand one store on to the next. -/
structure Lineage where
  store : Store
  clock : SystemClock
  now : Instant
  loads : String → Option Load

namespace Lineage

def start (token : BitVec 128) (failureBackoffDuration : Duration) (started : Instants) :
    Lineage where
  store := Store.newWithToken token failureBackoffDuration
  clock := daemonClock false started
  now := started.last
  loads _ := none

def handOver (self : Lineage) (restart : GracefulRestart) : Lineage :=
  let old := restart.old.since self.now
  let new := restart.new.since old.last
  let clock := daemonClock true new
  match self.store.handOver (self.clock.readings (monotonicInstants old)) restart.wallE
      restart.builder restart.token (clock.now (new.now 2)) restart.wallI with
  | .ok bundle =>
    { store := bundle.store
      clock := clock
      now := new.last
      loads := fun k => (self.loads k).map
        (·.carried clock.base ((old.now 1).nanos - (old.now 0).nanos)) }
  | .error _ =>
    { store := (restart.builder.build restart.token).store
      clock := clock
      now := new.last
      loads := fun _ => none }

def step (self : Lineage) : LineageEvent → Lineage
  | .operate op instants =>
    let instants := instants.since self.now
    let clock := self.clock.readings instants
    { self with
      store := op.apply clock self.store
      now := instants.last
      loads := fun k =>
        if k = op.key then
          (op.events clock self.store).foldl (Load.note self.clock.base) (self.loads k)
        else self.loads k }
  | .restart restart => self.handOver restart

end Lineage

/-- The wall clock, with the timeline beginning `epoch` nanoseconds after its
own beginning, shows what it should. -/
def WallAccurate (epoch : ℕ) (self : Lineage) : LineageEvent → Prop
  | .operate _ _ => True
  | .restart restart =>
    let old := restart.old.since self.now
    let new := restart.new.since old.last
    restart.wallE.toNat = (epoch + (old.now 1).nanos) / 1000000 ∧
      restart.wallI.toNat = (epoch + (new.now 3).nanos) / 1000000

section Restored

variable {base base' : Instant} {load : Load} {e e' : CacheEntry}

/-- What the load of an entry says of it. -/
structure Dated (base : Instant) (load : Load) (e : CacheEntry) : Prop where
  value : ∀ v, e.value = some v → load.value = v
  loadedAt : base.nanos + e.loadedAt.offset.nanos ≤ max load.loadedAt load.reach + load.delay
  hard : ∀ h, load.hard = some h → ∃ h', e.ttl.hard = some h' ∧ h'.nanos ≤ h.nanos

theorem Dated.same (h : Dated base load e) (hsame : SameLoad e e') : Dated base load e' where
  value v hv := h.value v (hsame.value v hv)
  loadedAt := by
    rw [hsame.loadedAt]
    exact h.loadedAt
  hard d hd := by
    rw [hsame.hard]
    exact h.hard d hd

theorem narrow_le (d : Duration) : (narrow d).nanos ≤ d.nanos := by
  rw [nanos_narrow]
  omega

/-- A load re-anchored on the clock of the next process comes out at most two
roundings late, or at the base of that clock. -/
theorem reanchored_le {epoch : ℕ} {t₁ t₂ t₃ t₄ : Instant} {wallE wallI : UInt64}
    {point : Monotonic} (h12 : t₁ ≤ t₂) (h34 : t₃ ≤ t₄)
    (hpoint : point ≤ SystemClock.now ⟨base⟩ t₁)
    (hwallE : wallE.toNat = (epoch + t₂.nanos) / 1000000)
    (hwallI : wallI.toNat = (epoch + t₄.nanos) / 1000000) :
    base'.nanos + (epochMsToMonotonicTtlBasis (SystemClock.now ⟨base'⟩ t₃) wallI
        (monotonicToEpochMs (SystemClock.now ⟨base⟩ t₁) wallE point)).offset.nanos ≤
      max base'.nanos (base.nanos + point.offset.nanos + ((t₂.nanos - t₁.nanos) + 2000000)) := by
  have hword := Word64.toNat_lt wallE
  rw [nanos_epochMsToMonotonicTtlBasis, toNat_monotonicToEpochMs_of_le wallE hpoint]
  rw [Monotonic.le_iff] at hpoint
  rw [Instant.le_iff] at h12 h34
  rw [SystemClock.nanos_now] at hpoint ⊢
  rw [SystemClock.nanos_now]
  simp only at hpoint ⊢
  omega

theorem Dated.restored {epoch : ℕ} {t₁ t₂ t₃ t₄ : Instant} {wallE wallI : UInt64}
    (h : Dated base load e)
    (hrestored : Restored (SystemClock.now ⟨base⟩ t₁) (SystemClock.now ⟨base'⟩ t₃) wallE wallI e e')
    (hwallE : wallE.toNat = (epoch + t₂.nanos) / 1000000)
    (hwallI : wallI.toNat = (epoch + t₄.nanos) / 1000000)
    (hpoint : e.loadedAt ≤ SystemClock.now ⟨base⟩ t₁) (h12 : t₁ ≤ t₂) (h34 : t₃ ≤ t₄) :
    Dated base' (load.carried base' (t₂.nanos - t₁.nanos)) e' where
  value v hv := h.value v (hrestored.value ▸ hv)
  loadedAt := by
    have hlate :=
      @reanchored_le base base' epoch t₁ t₂ t₃ t₄ wallE wallI _ h12 h34 hpoint hwallE hwallI
    have hbefore := h.loadedAt
    rw [hrestored.loadedAt]
    simp only [Load.carried]
    omega
  hard d hd := by
    obtain ⟨d', hd', hle⟩ := h.hard d hd
    refine ⟨narrow d', ?_, Nat.le_trans (narrow_le d') hle⟩
    rw [hrestored.hard, hd']
    rfl

theorem dated_loaded {value : Bytes} (hvalue : e.value = some value) :
    Dated base ⟨value, base.nanos + e.loadedAt.offset.nanos, e.ttl.hard, 0, 0⟩ e where
  value v hv := by
    rw [hvalue] at hv
    cases hv
    rfl
  loadedAt := by
    simp only
    omega
  hard d hd := ⟨d, hd, Nat.le_refl _⟩

end Restored

section Invariant

/-- The clock has begun, and what the store holds was loaded when its load
says, on the present clock. -/
structure OnTime (lineage : Lineage) : Prop where
  recent : ∀ (k : String) e, lineage.store.entries[k]? = some e →
    e.loadedAt ≤ lineage.clock.now lineage.now
  dated : ∀ (k : String) e, lineage.store.entries[k]? = some e →
    ∃ load, lineage.loads k = some load ∧ Dated lineage.clock.base load e

theorem onTime_empty {lineage : Lineage} (h : lineage.store.entries = ∅) : OnTime lineage where
  recent k e he := by
    rw [h, KeyMap.get_empty] at he
    cases he
  dated k e he := by
    rw [h, KeyMap.get_empty] at he
    cases he

variable {lineage : Lineage}

theorem OnTime.operate (h : OnTime lineage) (op : StoreOp) (instants : Instants) :
    OnTime (lineage.step (.operate op instants)) := by
  have hnow := instants.le_last_since lineage.now
  have helsewhere := (op.apply_elsewhere (lineage.clock.readings (instants.since lineage.now))
    lineage.store).entries
  have hreloads :=
    @reloads_op lineage.store (lineage.clock.readings (instants.since lineage.now)) op
  have hlater : ∀ (k : String) e, lineage.store.entries[k]? = some e →
      e.loadedAt ≤ lineage.clock.now (instants.since lineage.now).last := fun k e he =>
    Monotonic.le_trans (h.recent k e he) (lineage.clock.now_mono hnow)
  constructor
  · intro k e he
    change (op.apply (lineage.clock.readings (instants.since lineage.now))
      lineage.store).entries[k]? = some e at he
    by_cases hk : k = op.key
    · subst hk
      rw [he] at hreloads
      cases hreloads with
      | kept e₀ _ he₀ hsame _ =>
        rw [hsame.loadedAt]
        exact hlater op.key e₀ he₀
      | loaded _ value _ hlast _ => exact hlast
    · rw [helsewhere k (Ne.symm hk)] at he
      exact hlater k e he
  · intro k e he
    change (op.apply (lineage.clock.readings (instants.since lineage.now))
      lineage.store).entries[k]? = some e at he
    show ∃ load, (if k = op.key then _ else lineage.loads k) = some load ∧ _
    by_cases hk : k = op.key
    · subst hk
      rw [if_pos rfl]
      rw [he] at hreloads
      cases hreloads with
      | kept e₀ _ he₀ hsame hevents =>
        obtain ⟨load, hload, hdated⟩ := h.dated op.key e₀ he₀
        rw [hevents, hload]
        exact ⟨load, rfl, hdated.same hsame⟩
      | loaded _ value hvalue _ hevents =>
        rw [hevents]
        exact ⟨_, rfl, dated_loaded hvalue⟩
    · rw [if_neg hk]
      rw [helsewhere k (Ne.symm hk)] at he
      exact h.dated k e he

/-- What the next process holds was carried to it. -/
theorem carried_of_handOver {s : Store} {clock : Clock} {wallE wallI : UInt64}
    {builder : StoreBuilder} {token : BitVec 128} {nowI : Monotonic} {bundle : StoreBundle}
    (h : s.handOver clock wallE builder token nowI wallI = .ok bundle) {k : String}
    {e' : CacheEntry} (he' : bundle.store.entries[k]? = some e') :
    ∃ e, s.entries[k]? = some e ∧ Restored (clock.now 0) nowI wallE wallI e e' := by
  by_cases hcarried : ∃ e, s.Carried clock k e
  · obtain ⟨e, hcarried⟩ := hcarried
    obtain ⟨e'', he'', hrestored⟩ := handOver_restored h hcarried
    rw [he'] at he''
    cases he''
    exact ⟨e, hcarried.1, hrestored⟩
  have hnone : (s.exported clock wallE k).value = none := by
    rw [← Option.not_isSome_iff_eq_none, exported_value_isSome_iff]
    exact hcarried
  by_cases hlisted : s.Visited k ∧ skipped (s.exported clock wallE k) = false
  · obtain ⟨value, definition, himports, hslice⟩ := handOver_slice_of_listed h hlisted.1 hlisted.2
    have hvalue := himports.value
    rw [hnone] at hvalue
    cases hvalue
    have hentry : bundle.store.entries[k]? = none := congrArg KeySlice.entry hslice
    rw [he'] at hentry
    cases hentry
  · have hentry : bundle.store.entries[k]? = none :=
      congrArg KeySlice.entry (handOver_slice_of_unlisted h hlisted)
    rw [he'] at hentry
    cases hentry

theorem OnTime.handOver {epoch : ℕ} {restart : GracefulRestart} (h : OnTime lineage)
    (haccurate : WallAccurate epoch lineage (.restart restart)) :
    OnTime (lineage.handOver restart) := by
  obtain ⟨hwallE, hwallI⟩ := haccurate
  unfold Lineage.handOver
  simp only
  split
  · rename_i bundle hbundle
    constructor
    · intro k e' he'
      obtain ⟨e, -, hrestored⟩ := carried_of_handOver hbundle he'
      rw [hrestored.loadedAt]
      exact Monotonic.le_trans (epochMsToMonotonicTtlBasis_le_now _ _ _)
        (SystemClock.now_mono _ (Instants.le_last _ 2))
    · intro k e' he'
      obtain ⟨e, he, hrestored⟩ := carried_of_handOver hbundle he'
      obtain ⟨load, hload, hdated⟩ := h.dated k e he
      refine ⟨_, congrArg (Option.map _) hload, ?_⟩
      exact hdated.restored hrestored hwallE hwallI
        (Monotonic.le_trans (h.recent k e he)
          (SystemClock.now_mono _ (Instants.le_now_since _ _ _)))
        (Instants.now_mono _ (by omega)) (Instants.now_mono _ (by omega))
  · exact onTime_empty rfl

theorem onTime_step {epoch : ℕ} {event : LineageEvent} (h : OnTime lineage)
    (haccurate : WallAccurate epoch lineage event) : OnTime (lineage.step event) := by
  cases event with
  | operate op instants => exact h.operate op instants
  | restart restart => exact h.handOver haccurate

/-- A value that is read unpinned has not reached the end of its window. -/
theorem unpinned_get {s : Store} {k : String} {cap : Capability} {now : Monotonic} {value : Bytes}
    (h : (s.get k cap now).1 = .ok (some value))
    (hunpinned : ∀ e, s.entries[k]? = some e → e.pinDeadline.any (now < ·) = false) :
    ∃ e, s.entries[k]? = some e ∧ e.value = some value ∧ ∀ hard, e.ttl.hard = some hard →
      now.offset.nanos < e.loadedAt.offset.nanos + hard.nanos := by
  unfold Store.get at h
  split at h
  · cases h
  split at h
  · cases h
  rename_i e he
  simp only [Except.ok.injEq] at h
  obtain ⟨hactive, hvalue⟩ := CacheEntry.get_some h
  refine ⟨e, he, hvalue, ?_⟩
  intro hard hhard
  rw [CacheEntry.state_of_value hvalue, hunpinned e he, hhard] at hactive
  by_contra hlate
  rw [if_neg (by simp), if_pos] at hactive
  · cases hactive
  · simp only [Option.any_some, decide_eq_true_eq, Duration.le_iff,
      Monotonic.nanos_saturatingDurationSince]
    omega

end Invariant

/-- Over every run of a store that is handed on from process to process under an
accurate wall clock, a value read unpinned was loaded, and its hard window has
not closed: counted from the load, or from the base of the latest clock it was
carried to, and for each restart two milliseconds longer and the time between
the two readings of the export. -/
theorem unpinned_read_before_expiry (epoch : ℕ) (token : BitVec 128)
    (failureBackoffDuration : Duration) (started : Instants) (events : List LineageEvent)
    (haccurate : Along Lineage.step (WallAccurate epoch)
      (Lineage.start token failureBackoffDuration started) events)
    (k : String) (cap : Capability) (instants : Instants) (value : Bytes) :
    let lineage := run Lineage.step (Lineage.start token failureBackoffDuration started) events
    let instant := (instants.since lineage.now).now 0
    (lineage.store.get k cap (lineage.clock.now instant)).1 = .ok (some value) →
      (∀ e, lineage.store.entries[k]? = some e →
        e.pinDeadline.any (lineage.clock.now instant < ·) = false) →
      ∃ load, lineage.loads k = some load ∧ load.value = value ∧
        ∀ hard, load.hard = some hard → instant.nanos < load.expiry hard := by
  intro lineage instant hget hunpinned
  have hontime : OnTime lineage :=
    run_invariant Lineage.step (I := OnTime) (fun _ _ h hw => onTime_step h hw) _ events haccurate
      (onTime_empty rfl)
  obtain ⟨e, he, hvalue, hwithin⟩ := unpinned_get hget hunpinned
  obtain ⟨load, hload, hdated⟩ := hontime.dated k e he
  refine ⟨load, hload, hdated.value value hvalue, ?_⟩
  intro hard hhard
  obtain ⟨hard', hhard', hle⟩ := hdated.hard hard hhard
  have hnow := hwithin hard' hhard'
  have hloaded := hdated.loadedAt
  rw [SystemClock.nanos_now] at hnow
  unfold Load.expiry
  omega

section Outlived

def hour (n : ℕ) (h : n ≤ 1000) : Instants := Instants.constant ⟨3600000000000 * n, by omega⟩

def threeDays : Ttl := ⟨none, some (Duration.fromSecs 259200), by rintro _ ⟨⟩⟩

def loadedForThreeDays : LineageEvent :=
  .operate (.set "default/k" .static [1] threeDays ⟨0⟩) (hour 720 (by omega))

/-- Two days after the load, at the accurate time. -/
def restartedAfterTwoDays : LineageEvent :=
  .restart
    { old := hour 768 (by omega)
      new := hour 768 (by omega)
      wallE := 2764800000
      wallI := 2764800000
      builder := ⟨Duration.zero⟩
      token := 1 }

def handedOnOnce : List LineageEvent := [loadedForThreeDays, restartedAfterTwoDays]

def thirtyDaysUp : Lineage := Lineage.start 0 Duration.zero (hour 720 (by omega))

def handedOn : Lineage := run Lineage.step thirtyDaysUp handedOnOnce

theorem wallAccurate_handedOnOnce :
    Along Lineage.step (WallAccurate 0) thirtyDaysUp handedOnOnce :=
  ⟨trivial, by unfold WallAccurate restartedAfterTwoDays; decide, trivial⟩

theorem unpinned_read_before_expiry_handed_on :
    ∃ load, handedOn.loads "default/k" = some load ∧ load.value = [1] ∧
      ∀ hard, load.hard = some hard →
        (((hour 800 (by omega)).since handedOn.now).now 0).nanos < load.expiry hard :=
  unpinned_read_before_expiry 0 0 Duration.zero (hour 720 (by omega)) handedOnOnce
    wallAccurate_handedOnOnce "default/k" ⟨1⟩ (hour 800 (by omega)) [1] (by decide) (by
      intro e he
      have hpins : handedOn.store.entries["default/k"]?.map CacheEntry.pinDeadline = some none := by
        decide
      rw [show handedOn.store.entries["default/k"]? = some e from he] at hpins
      simp only [Option.map_some, Option.some.injEq] at hpins
      rw [hpins]
      rfl)

/-- A secret of three days, handed over after two: the clock of the new process
reaches back one day, and eighty hours after the load the secret is still
read. -/
theorem secret_outlives_window :
    Along Lineage.step (WallAccurate 0) thirtyDaysUp handedOnOnce ∧
      handedOn.loads "default/k" = some ⟨[1], 2592000000000000, some (Duration.fromSecs 259200),
        2678400000000000, 2000000⟩ ∧
      2592000000000000 + (Duration.fromSecs 259200).nanos + 1000000 ≤
        ((hour 800 (by omega)).now 0).nanos ∧
      handedOn.store.entries["default/k"]?.map CacheEntry.pinDeadline = some none ∧
      (handedOn.store.get "default/k" ⟨1⟩
        (handedOn.clock.now ((hour 800 (by omega)).now 0))).1 = .ok (some [1]) :=
  ⟨wallAccurate_handedOnOnce, by decide, by decide, by decide, by decide⟩

end Outlived

end Daemon

end CacheWarden
