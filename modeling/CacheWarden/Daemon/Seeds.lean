import CacheWarden.Daemon.Ownership
import CacheWarden.Daemon.Restarts

/-!
# Seeds of one-time passwords

A value is write-only while the definition of its key says so. The definition
lives apart from the value, so a run of requests and graceful restarts keeps the
value sealed as long as no step takes the one and leaves the other.
-/

set_option autoImplicit false

namespace CacheWarden

namespace Daemon

open Vault Store Transition

/-- The definition of the key carries the otp type. -/
def Otp (store : Store) (k : String) : Prop :=
  ∃ d, store.definitions[k]? = some d ∧ metaIsOtp d.valueMeta = true

def FileHolds (s : State) (k : String) : Prop := ∃ vault, s.file = .holds vault ∧ Holds vault k

/-- Something has a value for the key: the store, the open vault, or its file. -/
def HasValue (s : State) (k : String) : Prop :=
  ((s.store.entries[k]?).bind CacheEntry.value).isSome ∨
    (∃ vault, s.openVault = some vault ∧ Holds vault k) ∨ FileHolds s k

/-- The value outlives the step. A restart hands it over in the snapshot, or
finds it in the vault's file. -/
def KeepsValue (k : String) (s : State) : Event → Prop
  | .request served => HasValue (s.serve served) k
  | .restart r => (∃ e, s.store.Carried (r.clock.since s.now) k e) ∨ FileHolds s k

/-- The first well-formed entry for the key declares it otp. -/
def OtpRegistered (entries : List KvDefinition) (k : String) : Prop :=
  ∃ d, registered entries k = some d ∧ metaIsOtp d.valueMeta = true

/-- The new process ends up with an otp definition of the key: its configuration
has one, or leaves the one handed over alone, and so does the purge. -/
def OtpRestart (k : String) (s : State) (r : Restart) : Prop :=
  if k ∈ r.startup.configNames then OtpRegistered r.startup.config k
  else
    match r.startup.persisted with
    | .loaded persisted =>
      k ∈ persisted.map KvDefinition.key ∧
        ((∃ bundle, r.handover s = .ok bundle) ∨ OtpRegistered persisted k)
    | _ => ∃ bundle, r.handover s = .ok bundle

/-- A removal with the definition leaves no value in a vault that is closed. -/
def SeedRemoved (ctx : HandlerCtx) (s : State) (k : String) : Request → Prop
  | .kvDel key true =>
    key = k → requireOwner ctx s k = none → vaultOwnership ctx s k = .unrelated → ¬ FileHolds s k
  | _ => True

/-- The condition on one step. -/
def SeedStep (k : String) (s : State) : Event → Prop
  | .request served => SeedRemoved (s.context served.1) s k served.2
  | .restart r =>
    (∃ e, s.store.Carried (r.clock.since s.now) k e) ∨ FileHolds s k → OtpRestart k s r

section Step

variable {ctx : HandlerCtx} {s s' : State} {k : String}

theorem otp_of_definition {store store' : Store} (h : Otp store k)
    (hsame : store'.definitions[k]? = store.definitions[k]?) : Otp store' k := by
  unfold Otp
  rw [hsame]
  exact h

theorem installedSlice_definition (vault : UnlockedVault) (clock : Clock) (wall : ℕ → UInt64) (i : ℕ)
    (k : String) (before : KeySlice) :
    (installedSlice vault clock wall i k before).definition = before.definition := by
  unfold installedSlice
  split
  · rfl
  · split <;> rfl

/-- What one request preserves. -/
theorem otp_effect {req : Request} {resp : Response} (h : Otp s.store k)
    (hremoved : SeedRemoved ctx s k req) (hvalue : HasValue s' k)
    (heffect : Effect ctx s req resp s') : Otp s'.store k := by
  have hcap := s.store.checkCap_controlCap
  cases heffect with
  | refused | pong | stayedClosed | cached | persisted | unwritable | fenced | uncommitted
  | created | uncreated | undeleted | unclaimed | unreleased => exact h
  | opened code vault hvault =>
    apply otp_of_definition h
    have hslice := congrArg KeySlice.definition
      (installVaultEntries_slice ctx.clock ctx.wall vault hcap k)
    rw [installedSlice_definition] at hslice
    exact hslice
  | closed vault state hvault hstate =>
    apply otp_of_definition h
    have hslice := congrArg KeySlice.definition
      (deleteAll_slice s.store k s.store.controlCap vault.entries.keys hcap)
    refine hslice.trans ?_
    split <;> rfl
  | deleted key withDefine removed hunrelated hgate =>
    cases withDefine with
    | false =>
      apply otp_of_definition h
      exact slice_field KeySlice.definition (delete_slice s.store key k _ hcap) rfl
    | true =>
      have hslice := deleteWithDefinition_slice s.store key k s.store.controlCap hcap
      by_cases hk : key = k
      · subst hk
        rw [if_pos rfl] at hslice
        rcases hvalue with hstore | ⟨vault, hopen, hholds⟩ | hfile
        · have hentry : (s.store.deleteWithDefinition key s.store.controlCap).2.entries[key]? = none :=
            congrArg KeySlice.entry hslice
          rw [show (State.store _).entries[key]? = none from hentry] at hstore
          cases hstore
        · exact absurd hholds (entry_of_unrelated (unlocked_of_openVault s hopen) hunrelated)
        · exact absurd hfile (hremoved rfl hgate hunrelated)
      · rw [if_neg hk] at hslice
        exact otp_of_definition h (congrArg KeySlice.definition hslice)
  | deletedHeld key withDefine vault hvault hheld =>
    have hslice := deleteWithDefinition_slice s.store key k s.store.controlCap hcap
    by_cases hk : key = k
    · subst hk
      rw [if_pos rfl] at hslice
      have hgone : ¬ Holds (vault.eraseEntry key) key := fun hholds => (holds_eraseEntry hholds).1 rfl
      rcases hvalue with hstore | ⟨v, hopen, hholds⟩ | ⟨v, hfile, hholds⟩
      · have hentry : (s.store.deleteWithDefinition key s.store.controlCap).2.entries[key]? = none :=
          congrArg KeySlice.entry hslice
        rw [show (State.store _).entries[key]? = none from hentry] at hstore
        cases hstore
      · cases hopen
        exact absurd hholds hgone
      · cases hfile
        exact absurd hholds hgone
    · rw [if_neg hk] at hslice
      exact otp_of_definition h (congrArg KeySlice.definition hslice)
  | claimed key expected secs hheld hversion hidle =>
    apply otp_of_definition h
    exact slice_field KeySlice.definition (setRefreshClaim_slice s.store key k _ _ hcap) rfl
  | claimedHeld key expected secs vault e hvault hheld hgranted =>
    apply otp_of_definition h
    exact slice_field KeySlice.definition (setRefreshClaim_slice s.store key k _ _ hcap) rfl
  | released key token hheld hfence =>
    apply otp_of_definition h
    exact slice_field KeySlice.definition (clearRefreshClaim_slice s.store key k _ hcap) rfl
  | releasedHeld key token vault next e file hvault hheld hfence hnext =>
    apply otp_of_definition h
    exact slice_field KeySlice.definition (clearRefreshClaim_slice s.store key k _ hcap) rfl
  | defined key source soft hard valueMeta ttl hdefine =>
    obtain ⟨definitions, hafter, hkept⟩ := defineWithMeta_eq s.store key source.lower ttl
      (metaFromWire valueMeta) source.toSourceMeta
    obtain ⟨d, hd, hotp⟩ := h
    rw [hafter]
    exact ⟨d, hkept k d hd, hotp⟩
  | read key dryRun resp store log hreads | pinned key secs resp store log hreads
  | unpinned key resp store hreads =>
    exact otp_of_definition h (show store.definitions[k]? = _ by rw [(reads_kept hreads).definitions])
  | ownerCleared key hgate howner =>
    apply otp_of_definition h
    exact slice_field KeySlice.definition (clearOwner_slice s.store key k _ hcap) rfl

theorem definition_initialStore {r : Restart} {bundle : StoreBundle}
    (h : r.handover s = .ok bundle) (hotp : Otp s.store k) : Otp (r.initialStore s) k := by
  obtain ⟨d, hd, htype⟩ := hotp
  obtain ⟨d', hd', hmeta, -⟩ := handOver_definition h hd
  unfold Restart.initialStore
  rw [h]
  exact ⟨d', hd', by rw [hmeta]; exact htype⟩

theorem initialStore_empty {r : Restart} {e : HandoffError} (h : r.handover s = .error e) :
    (r.initialStore s).definitions[k]? = none := by
  unfold Restart.initialStore
  rw [h]
  exact congrArg KeySlice.definition (build_slice k)

/-- What a graceful restart preserves. -/
theorem otp_restart {r : Restart} (hvalid : ValidKey k) (h : Otp s.store k)
    (hrestart : OtpRestart k s r) : Otp (s.restart r).store k := by
  unfold State.restart
  cases r.initialVault s.file with
  | error e => exact h
  | ok vault =>
    generalize hbegins : ({ r.startup with clock := r.startup.clock.since r.nowI } : Startup) = st
    have hnames : st.configNames = r.startup.configNames := by rw [← hbegins]; rfl
    have hconfig : st.config = r.startup.config := by rw [← hbegins]
    have hpersisted : st.persisted = r.startup.persisted := by rw [← hbegins]
    unfold Otp
    simp only
    rw [reconcile_definition hvalid, hnames, hconfig, hpersisted]
    unfold OtpRestart at hrestart
    by_cases hk : k ∈ r.startup.configNames
    · rw [if_pos hk] at hrestart ⊢
      exact hrestart
    · rw [if_neg hk] at hrestart ⊢
      cases hp : r.startup.persisted with
      | disabled | unreadable =>
        rw [hp] at hrestart
        obtain ⟨bundle, hbundle⟩ := hrestart
        exact definition_initialStore hbundle h
      | loaded persisted =>
        rw [hp] at hrestart
        obtain ⟨hlisted, hsource⟩ := hrestart
        simp only
        rw [if_pos hlisted]
        cases hhandover : r.handover s with
        | ok bundle =>
          obtain ⟨d, hd, htype⟩ := definition_initialStore hhandover h
          exact ⟨d, by rw [hd]; rfl, htype⟩
        | error e =>
          have hregistered : OtpRegistered persisted k := by
            rcases hsource with ⟨bundle, hbundle⟩ | hregistered
            · rw [hhandover] at hbundle
              cases hbundle
            · exact hregistered
          rw [initialStore_empty hhandover, Option.none_or]
          exact hregistered

end Step

section Runs

variable {k : String}

theorem otp_next (hvalid : ValidKey k) (s : State) (event : Event) (h : Otp s.store k)
    (hstep : KeepsValue k s event ∧ SeedStep k s event) : Otp (s.next event).store k := by
  obtain ⟨hkeeps, hseed⟩ := hstep
  cases event with
  | restart r => exact otp_restart hvalid h (hseed hkeeps)
  | request served =>
    obtain ⟨s', heffect, hserve⟩ := s.serve_effect served
    have hvalue : HasValue (s.serve served) k := hkeeps
    rw [hserve] at hvalue
    have hafter := otp_effect h hseed (show HasValue s' k from hvalue) heffect
    show Otp (s.serve served).store k
    rw [hserve]
    exact hafter

/-- Whatever a get of the key returns is a code derived from the value. -/
def SealedGets (k : String) (s : State) : Prop :=
  ∀ ctx dryRun v s', handleRequest ctx s (.kvGet k dryRun) = (.ok (.get v), s') →
    ∃ seed, (s'.store.entries[k]?).bind CacheEntry.value = some seed ∧
      metaIsOtp (metaOf s'.store k) = true ∧ ctx.deriveCode seed (metaOf s'.store k) = .ok v

theorem sealedGets_of_otp {s : State} (h : Otp s.store k) : SealedGets k s := by
  intro ctx dryRun v s' hget
  have heffect := handleRequest_effect ctx s (.kvGet k dryRun)
  rw [hget] at heffect
  cases heffect with
  | read _ _ _ store log hreads hvalue =>
    obtain ⟨seed, hseed, hshown⟩ := hvalue v rfl
    obtain ⟨d, hd, htype⟩ := h
    have hmeta : metaIsOtp (metaOf store k) = true := by
      unfold metaOf
      rw [(reads_kept hreads).definitions, hd]
      exact htype
    rw [if_pos hmeta] at hshown
    exact ⟨seed, hseed, hmeta, hshown⟩

def otpSource : SourceSpecWire := .command ⟨["true"], none, ∅⟩

def setSeed : SetRequest :=
  { setPlain none with source := .static (some [7, 7]), persist := none, guardConstraints := [] }

/-- A daemon that was told the key is a seed, and then given the seed. -/
def seeded : State :=
  run State.serve (State.starting none .absent)
    [(.quiet, .kvDefine "ns/k" otpSource none none ⟨some "otp", ∅⟩), (.quiet, .kvSet setSeed)]

def plainRestart (persisted : PersistedDefinitions) : Restart where
  clock := Clock.constant Monotonic.zero
  wallE := 0
  builder := ⟨Duration.zero⟩
  token := 0
  nowI := Monotonic.zero
  wallI := 0
  startup := { plainStartup [] with persisted := persisted }
  configuresVault := false
  keyHandedOver := false
  opened := .ok ()

theorem seeded_otp : Otp seeded.store "ns/k" := by
  have htype : (seeded.store.definitions["ns/k"]?).map (fun d => metaIsOtp d.valueMeta) =
      some true := by decide
  rwa [Option.map_eq_some_iff] at htype

theorem seeded_kept (persisted : PersistedDefinitions) :
    KeepsValue "ns/k" seeded (.restart (plainRestart persisted)) := by
  have hentry : (seeded.store.entries["ns/k"]?).any fun e =>
      e.state (seeded.store.judgedAt ((Clock.constant Monotonic.zero).since seeded.now) "ns/k") ≠
        .hardExpired := by decide
  cases he : seeded.store.entries["ns/k"]? with
  | none =>
    rw [he] at hentry
    cases hentry
  | some e =>
    rw [he] at hentry
    refine Or.inl ⟨e, he, ?_⟩
    have hlive := of_decide_eq_true hentry
    exact hlive

end Runs

end Daemon

end CacheWarden
