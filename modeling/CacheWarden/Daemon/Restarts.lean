import CacheWarden.Daemon.Runs
import CacheWarden.Daemon.Startup

/-!
# Restarts, and what a running daemon keeps sound

A graceful restart hands the store over to the next process. In a run of
requests and graceful restarts the store stays sound: the import re-anchors
every instant at or before its own reading, and nothing later looks ahead of the
clock.
-/

set_option autoImplicit false

namespace CacheWarden

namespace Daemon

open Vault Store Transition

/-- A graceful restart: the readings of both processes, what the new one starts
with, and whether the vault is configured and its key handed over. -/
structure Restart where
  clock : Clock
  wallE : UInt64
  builder : StoreBuilder
  token : BitVec 128
  nowI : Monotonic
  wallI : UInt64
  startup : Startup
  configuresVault : Bool
  keyHandedOver : Bool
  opened : Except VaultError Unit

namespace Restart

def handover (r : Restart) (s : State) : Except HandoffError StoreBundle :=
  s.store.handOver (r.clock.since s.now) r.wallE r.builder r.token r.nowI r.wallI

/-- The store the new process begins with: the one handed over, or an empty one. -/
def initialStore (r : Restart) (s : State) : Store :=
  match r.handover s with
  | .ok bundle => bundle.store
  | .error _ => (r.builder.build r.token).store

theorem initialStore_of_ok {r : Restart} {s : State} {bundle : StoreBundle}
    (h : r.handover s = .ok bundle) : r.initialStore s = bundle.store := by
  unfold initialStore
  rw [h]

/-- The vault of the new process. A key that was handed over opens it. -/
def initialVault (r : Restart) (file : Stored) : Except VaultError (Option VaultState) :=
  if r.configuresVault then
    match file.openAt r.opened with
    | .error e => .error e
    | .ok .locked =>
      match (if r.keyHandedOver then (file.unlockWith r.opened).toOption else none) with
      | some vault => .ok (some (.unlocked vault))
      | none => .ok (some .locked)
    | .ok state => .ok (some state)
  else .ok none

end Restart

/-- A vault that comes up open was read from the file. -/
theorem initialVault_unlocked {r : Restart} {file : Stored} {vault : UnlockedVault}
    (h : r.initialVault file = .ok (some (.unlocked vault))) : file = .holds vault := by
  unfold Restart.initialVault Stored.openAt Stored.unlockWith at h
  cases file with
  | absent =>
    simp only at h
    split at h <;> cases h
  | damaged e =>
    simp only at h
    split at h <;> cases h
  | holds v =>
    simp only at h
    cases hopened : r.opened with
    | error e =>
      simp only [hopened] at h
      split at h <;> cases h
    | ok u =>
      simp only [hopened] at h
      split at h
      · split at h
        · rename_i v' hv'
          cases h
          split at hv'
          · cases hv'
            rfl
          · cases hv'
        · cases h
      · cases h

inductive Event where
  | request (served : Served)
  | restart (r : Restart)

namespace State

/-- The daemon after a graceful restart. A vault that cannot be read keeps the new
process from coming up, and there is no other state then. -/
def restart (s : State) (r : Restart) : State :=
  match r.initialVault s.file with
  | .error _ => s
  | .ok vault =>
    { store := reconcile { r.startup with clock := r.startup.clock.since r.nowI } (r.initialStore s)
      vault := vault
      file := s.file
      now := (r.startup.clock.since r.nowI).last
      log := s.log }

def next (s : State) : Event → State
  | .request served => s.serve served
  | .restart r => s.restart r

end State

/-- A daemon that has come up with nothing handed over to it. -/
def State.cold (st : Startup) (builder : StoreBuilder) (token : BitVec 128)
    (vault : Option VaultState) (file : Stored) : State where
  store := reconcile st (builder.build token).store
  vault := vault
  file := file
  now := st.clock.last
  log := []

/-- The states of a daemon, over its requests and its graceful restarts. -/
def Reachable (s : State) : Prop :=
  ∃ st builder token vault file events,
    s = run State.next (State.cold st builder token vault file) events

end Daemon

namespace Store

/-- What soundness says of one key. -/
structure KeySlice.Sound (k : String) (slice : KeySlice) (now : Monotonic) : Prop where
  entry : ∀ e, slice.entry = some e → ValidKey k ∧ e.Timed now
  definition : ∀ d, slice.definition = some d → ValidKey k
  failure : ∀ f, slice.failure = some f → ValidKey k

theorem sound_iff {s : Store} {now : Monotonic} :
    s.Sound now ↔ ∀ k, KeySlice.Sound k (s.slice k) now := by
  constructor
  · intro h k
    exact ⟨h.entries k, h.definitions k, h.failures k⟩
  · intro h
    exact ⟨fun k => (h k).entry, fun k => (h k).definition, fun k => (h k).failure⟩

theorem sound_empty (k : String) (now : Monotonic) : KeySlice.Sound k KeySlice.empty now where
  entry _ h := by cases h
  definition _ h := by cases h
  failure _ h := by cases h

theorem importValue_timed {nowI : Monotonic} {wall : UInt64} {key : String} {v : SnapshotValue}
    {e : CacheEntry} (h : importValue nowI wall key v = .ok e) : e.Timed nowI := by
  unfold importValue at h
  split at h
  · cases h
  simp only at h
  split at h
  · cases h
  rename_i hord
  cases h
  exact ⟨Monotonic.not_lt.mp hord, epochMsToMonotonicTtlBasis_le_now _ _ _⟩

theorem installedSlice_sound {nowI : Monotonic} {wall : UInt64} {e : SnapshotEntry}
    {value : Option CacheEntry} {definition : Option Definition}
    (h : Imports nowI wall e value definition) :
    KeySlice.Sound e.key (installedSlice nowI wall e value definition) nowI where
  entry e' he := by
    have hvalue := h.value
    rw [show value = some e' from he] at hvalue
    unfold importOpt at hvalue
    split at hvalue
    · cases hvalue
    split at hvalue
    · cases hvalue
    rename_i hok
    cases hvalue
    exact ⟨h.valid, importValue_timed hok⟩
  definition _ _ := h.valid
  failure _ _ := h.valid

/-- A store that was handed over is sound at the importing reading. -/
theorem sound_handOver {s : Store} {clock : Clock} {wallE wallI : UInt64} {nowI : Monotonic}
    {builder : StoreBuilder} {token : BitVec 128} {bundle : StoreBundle}
    (h : s.handOver clock wallE builder token nowI wallI = .ok bundle) :
    bundle.store.Sound nowI := by
  rw [sound_iff]
  intro k
  by_cases hk : s.Visited k ∧ skipped (s.exported clock wallE k) = false
  · obtain ⟨value, definition, himports, hslice⟩ := handOver_slice_of_listed h hk.1 hk.2
    rw [hslice]
    exact installedSlice_sound himports
  · rw [handOver_slice_of_unlisted h hk]
    exact sound_empty k nowI

theorem sound_undefine {s : Store} {t : Monotonic} (h : s.Sound t) (key : String) :
    (s.undefine key).2.Sound t :=
  h.of_sub (fun _ _ he => he) (fun _ _ hd => KeyMap.get_of_erase hd) (fun _ _ hf => hf)

theorem sound_undefineAll {s : Store} {t : Monotonic} (h : s.Sound t) (keys : List String) :
    (keys.foldl (fun store key => (store.undefine key).2) s).Sound t := by
  induction keys generalizing s with
  | nil => exact h
  | cons key keys ih => exact ih (sound_undefine h key)

end Store

namespace Daemon

open Vault Store Transition

section Startup

variable {store : Store} {t : Monotonic}

theorem sound_registerDefinition (h : store.Sound t) (runner : SourceRunner)
    (forceEager alreadyLoaded : List String) {now : Monotonic} (hnow : t ≤ now)
    (entry : KvDefinition) :
    (registerDefinition runner forceEager alreadyLoaded now store entry).Sound now := by
  unfold registerDefinition
  split
  · exact h.mono hnow
  rename_i ttl httl
  have hdefined := sound_defineWithMeta (h.mono hnow) entry.key entry.source.lower ttl
    (metaFromWire entry.valueMeta) entry.source.toSourceMeta
  split
  · rename_i e store' heq
    rw [heq] at hdefined
    exact hdefined
  · rename_i store' heq
    rw [heq] at hdefined
    split
    · split
      · exact sound_set hdefined _ _ (Monotonic.le_refl now) _ _ _
      · exact hdefined
    · exact hdefined

theorem sound_registerDefinitions (runner : SourceRunner)
    (forceEager alreadyLoaded : List String) (clock : Clock) (i : ℕ) (entries : List KvDefinition)
    (h : store.Sound t) (hnow : t ≤ clock.now i) :
    (registerDefinitions runner forceEager alreadyLoaded clock i entries store).Sound
      clock.last := by
  induction entries generalizing i store t with
  | nil => exact h.mono (Monotonic.le_trans hnow (clock.le_last i))
  | cons entry rest ih =>
    exact ih (i + 1) (sound_registerDefinition h runner forceEager alreadyLoaded hnow entry)
      (clock.mono i)

theorem sound_restorePersisted (configNames : List String) (persisted : List KvDefinition)
    (h : store.Sound t) : (restorePersistedDefinitions configNames persisted store).Sound t :=
  kept_restorePersisted (P := fun s => s.Sound t)
    (fun _ _ _ _ _ _ hs => sound_defineWithMeta hs _ _ _ _ _) configNames persisted h

theorem sound_reconcile (st : Startup) (h : store.Sound t) (hnow : t ≤ st.clock.now 0) :
    (reconcile st store).Sound st.clock.last := by
  have hcleared := sound_undefineAll h st.configNames
  have hregistered := sound_registerDefinitions st.runner st.forceEager store.entries.keys
    st.clock 0 st.config hcleared hnow
  unfold reconcile
  simp only
  split
  · exact hregistered
  · exact hregistered
  · rename_i persisted _
    exact sound_undefineAll (sound_restorePersisted st.configNames persisted hregistered) _

theorem sound_restart {s : State} (h : s.store.Sound s.now) (r : Restart) :
    (s.restart r).store.Sound (s.restart r).now := by
  unfold State.restart
  cases r.initialVault s.file with
  | error e => exact h
  | ok vault =>
    have hinitial : (r.initialStore s).Sound r.nowI := by
      unfold Restart.initialStore
      split
      · rename_i bundle hbundle
        exact sound_handOver hbundle
      · exact sound_new _ _ _
    exact sound_reconcile { r.startup with clock := r.startup.clock.since r.nowI } hinitial
      (Clock.le_now_since _ _ _)

end Startup

section Versions

/-- Startup leaves every version alone. -/
theorem versions_reconcile (st : Startup) (store : Store) :
    (reconcile st store).versions = store.versions := by
  apply kept_reconcile (P := fun s => s.versions = store.versions)
  · intro s key source ttl valueMeta sourceMeta h
    obtain ⟨definitions, hafter, -⟩ := defineWithMeta_eq s key source ttl valueMeta sourceMeta
    rw [hafter]
    exact h
  · intro s key source value ttl cap now h
    obtain ⟨entries, heq⟩ := s.set_eq key source value ttl cap now
    rw [heq]
    exact h
  · exact fun _ _ h => h
  · rfl

/-- A hand-over never raises a version. -/
theorem versionOf_initialStore (s : State) (r : Restart) (k : String) :
    (r.initialStore s).versionOf k = s.store.versionOf k ∨ (r.initialStore s).versionOf k = 0 := by
  unfold Restart.initialStore
  split
  · rename_i bundle hbundle
    by_cases hk : s.store.Listed (r.clock.since s.now) k
    · exact Or.inl (handOver_listed hbundle hk).1
    · exact Or.inr (handOver_unlisted hbundle hk).1
  · right
    unfold versionOf
    rw [show (StoreBuilder.build r.builder r.token).store.versions[k]? = none from
      KeyMap.get_empty k]
    rfl

end Versions

section Requests

variable {ctx : HandlerCtx} {s s' : State}

theorem sound_plan {r : SetRequest} {plan : SetPlan} {persist : Bool}
    (h : s.store.Sound (ctx.clock.now 0)) (hplan : Accepts ctx s r plan persist) :
    (plan.store ctx s r.key).Sound (ctx.clock.now 0) :=
  (sound_putEntry h hplan.valid
    (CacheEntry.new_timed .static plan.bytes plan.ttl (ctx.clock.now 0))).of_sub
      (fun _ _ he => he) (fun _ _ hd => hd) (fun _ _ hf => hf)

theorem sound_deleteAll {store : Store} {t : Monotonic} (h : store.Sound t) (cap : Capability)
    (keys : List String) : (deleteAll cap keys store).Sound t := by
  induction keys generalizing store with
  | nil => exact h
  | cons key keys ih => exact ih (sound_delete h key cap)

theorem sound_installed {store : Store} {clock : Clock} (h : store.Sound (clock.now 0))
    (wall : ℕ → UInt64) (vault : UnlockedVault) :
    (installVaultEntries store store.controlCap clock wall vault).2.Sound clock.last := by
  have hlast := sound_iff.mp (h.mono (clock.le_last 0))
  rw [sound_iff]
  intro k
  have hbefore := hlast k
  rw [installVaultEntries_slice _ _ _ store.checkCap_controlCap k]
  unfold Daemon.installedSlice
  split
  · exact hbefore
  rename_i e he
  split
  · rename_i hr
    have hvalid : ValidKey k := UnlockedVault.key_of_entry he ▸ hr.valid
    refine ⟨fun e' he' => ?_, fun _ _ => hvalid, fun _ _ => hvalid⟩
    cases he'
    exact ⟨hvalid, (CacheEntry.new_timed _ _ _ _).mono (clock.le_last _)⟩
  · exact hbefore

/-- What one request keeps sound. -/
theorem sound_effect {req : Request} {resp : Response} (h : s.store.Sound (ctx.clock.now 0))
    (heffect : Effect ctx s req resp s') : s'.store.Sound ctx.clock.last := by
  have hlast := ctx.clock.le_last 0
  have hstays := h.mono hlast
  have hcap := s.store.checkCap_controlCap
  cases heffect with
  | refused | pong | stayedClosed | created | uncreated | undeleted | unclaimed | unreleased =>
    exact hstays
  | cached r plan owner hplan => exact (sound_plan h hplan).mono hlast
  | persisted r plan owner vault hplan => exact (sound_plan h hplan).mono hlast
  | unwritable r plan err hplan => exact (sound_plan h hplan).mono hlast
  | fenced r plan err vault existing cause hplan => exact (sound_plan h hplan).mono hlast
  | uncommitted r plan err vault file hplan => exact (sound_plan h hplan).mono hlast
  | opened code vault hvault => exact sound_installed h ctx.wall vault
  | closed vault state hvault hstate => exact sound_deleteAll hstays _ _
  | deleted key withDefine removed hunrelated hgate =>
    show (if withDefine then _ else _ : Store).Sound _
    split
    · exact sound_deleteWithDefinition hstays _ _
    · exact sound_delete hstays _ _
  | deletedHeld key withDefine vault hvault hheld => exact sound_deleteWithDefinition hstays _ _
  | claimed | claimedHeld =>
    simp only [State.withStore, setRefreshClaim, hcap]
    exact hstays.of_sub (fun _ _ he => he) (fun _ _ hd => hd) (fun _ _ hf => hf)
  | released | releasedHeld =>
    simp only [State.withStore, clearRefreshClaim, hcap]
    exact hstays.of_sub (fun _ _ he => he) (fun _ _ hd => hd) (fun _ _ hf => hf)
  | defined key source soft hard valueMeta ttl hdefine =>
    exact sound_defineWithMeta hstays _ _ _ _ _
  | read key dryRun resp store log hreads | pinned key secs resp store log hreads
  | unpinned key resp store hreads => exact sound_reads hreads h
  | ownerCleared key hgate howner =>
    simp only [State.withStore, clearOwner, hcap]
    exact hstays.of_sub (fun _ _ he => he) (fun _ _ hd => hd) (fun _ _ hf => hf)

theorem sound_serve (h : s.store.Sound s.now) (served : Served) :
    (s.serve served).store.Sound (s.serve served).now := by
  obtain ⟨s', heffect, hserve⟩ := s.serve_effect served
  have hbegins : s.store.Sound ((s.context served.1).clock.now 0) :=
    h.mono (Clock.le_now_since _ _ _)
  have hafter := sound_effect hbegins heffect
  rw [hserve]
  exact hafter

end Requests

theorem sound_next (s : State) (event : Event) (h : s.store.Sound s.now) :
    (s.next event).store.Sound (s.next event).now := by
  cases event with
  | request served => exact sound_serve h served
  | restart r => exact sound_restart h r

/-- Every store a daemon comes to hold is sound. -/
theorem sound_reachable {s : State} (h : Reachable s) : s.store.Sound s.now := by
  obtain ⟨st, builder, token, vault, file, events, rfl⟩ := h
  apply run_invariant State.next (I := fun s => s.store.Sound s.now)
    (fun s event hs _ => sound_next s event hs) _ events
    (along_of_forall State.next (fun _ _ => trivial) _ events)
  exact sound_reconcile st (sound_new token builder.failureBackoffDuration (st.clock.now 0))
    (Monotonic.le_refl _)

end Daemon

end CacheWarden
