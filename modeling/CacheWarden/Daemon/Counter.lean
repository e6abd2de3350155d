import CacheWarden.Daemon.Ownership

/-!
# The version of a key over a run

A request leaves the version of a key, raises it by one, restores it to at least
what it was, or drops it with the key itself. A run that drops nothing counts
upwards, so a set that names the version it read is acknowledged once.
-/

set_option autoImplicit false

namespace CacheWarden

namespace Daemon

open Vault Store Transition

/-- How a request moves the version of the key. -/
inductive VersionMoves (k : String) (s s' : State) : Request → Prop
  | kept (req : Request) (h : s'.store.versionOf k = s.store.versionOf k) : VersionMoves k s s' req
  | raised (r : SetRequest) (hkey : r.key = k)
      (h : s'.store.versionOf k = Word64.saturatingAdd (s.store.versionOf k) 1) :
      VersionMoves k s s' (.kvSet r)
  | restored (code : Option (Option Key)) (cas : UInt64)
      (h : s'.store.versionOf k = max (s.store.versionOf k) cas) :
      VersionMoves k s s' (.vaultUnlock code)
  | dropped (withDefine : Bool)
      (hwhole : withDefine = true ∨ ∃ vault, s.openVault = some vault ∧ Holds vault k)
      (h : s'.store.versionOf k = 0) : VersionMoves k s s' (.kvDel k withDefine)

section Versions

variable {store store' : Store} {k : String}

theorem versionOf_slice (store : Store) (k : String) :
    store.versionOf k = (store.slice k).version.getD 0 := rfl

theorem versionOf_of_slice (h : (store'.slice k).version = (store.slice k).version) :
    store'.versionOf k = store.versionOf k := by
  rw [versionOf_slice, versionOf_slice, h]

theorem versionOf_accepted (store : Store) (key k : String) (bytes : Bytes) (ttl : Ttl)
    (plan : Option GuardRecord) (declared : Option OwnerPrincipal) (now : Monotonic) :
    (acceptedStore store key bytes ttl plan declared now).versionOf k =
      if key = k then Word64.saturatingAdd (store.versionOf k) 1 else store.versionOf k := by
  rw [versionOf_slice, acceptedStore_slice]
  by_cases hk : key = k
  · rw [if_pos hk, if_pos hk]
    rfl
  · rw [if_neg hk, if_neg hk]
    rfl

theorem versionOf_plan (plan : SetPlan) (ctx : HandlerCtx) (s : State) (key k : String) :
    (plan.store ctx s key).versionOf k =
      if key = k then Word64.saturatingAdd (s.store.versionOf k) 1 else s.store.versionOf k :=
  versionOf_accepted s.store key k plan.bytes plan.ttl plan.guard plan.declared (ctx.clock.now 0)

theorem versionOf_deleted (store : Store) (key k : String) :
    (store.delete key store.controlCap).2.versionOf k = store.versionOf k := by
  apply versionOf_of_slice
  exact slice_field KeySlice.version (delete_slice store key k _ store.checkCap_controlCap) rfl

theorem versionOf_deletedAll (store : Store) (keys : List String) (k : String) :
    (deleteAll store.controlCap keys store).versionOf k = store.versionOf k := by
  apply versionOf_of_slice
  rw [deleteAll_slice store k _ keys store.checkCap_controlCap]
  split <;> rfl

theorem versionOf_removed (store : Store) (key k : String) :
    (store.deleteWithDefinition key store.controlCap).2.versionOf k =
      if key = k then 0 else store.versionOf k := by
  rw [versionOf_slice, deleteWithDefinition_slice store key k _ store.checkCap_controlCap]
  by_cases hk : key = k
  · rw [if_pos hk, if_pos hk]
    rfl
  · rw [if_neg hk, if_neg hk]
    rfl

theorem versionOf_deletion (store : Store) (key k : String) (withDefine : Bool) :
    (if withDefine then (store.deleteWithDefinition key store.controlCap).2
      else (store.delete key store.controlCap).2).versionOf k =
      if key = k ∧ withDefine = true then 0 else store.versionOf k := by
  cases withDefine with
  | true => simpa using versionOf_removed store key k
  | false => simpa using versionOf_deleted store key k

theorem versionOf_claimSet (store : Store) (key k : String) (claim : RefreshClaim) :
    (store.setRefreshClaim key claim store.controlCap).2.versionOf k = store.versionOf k := by
  apply versionOf_of_slice
  exact slice_field KeySlice.version
    (setRefreshClaim_slice store key k _ claim store.checkCap_controlCap) rfl

theorem versionOf_claimCleared (store : Store) (key k : String) :
    (store.clearRefreshClaim key store.controlCap).2.versionOf k = store.versionOf k := by
  apply versionOf_of_slice
  exact slice_field KeySlice.version
    (clearRefreshClaim_slice store key k _ store.checkCap_controlCap) rfl

theorem versionOf_ownerCleared (store : Store) (key k : String) :
    (store.clearOwner key store.controlCap).2.versionOf k = store.versionOf k := by
  apply versionOf_of_slice
  exact slice_field KeySlice.version (clearOwner_slice store key k _ store.checkCap_controlCap) rfl

theorem versionOf_defined (store : Store) (key : String) (source : ValueSource) (ttl : Ttl)
    (valueMeta : ValueMeta) (sourceMeta : SourceMeta) (k : String) :
    (store.defineWithMeta key source ttl valueMeta sourceMeta).2.versionOf k = store.versionOf k := by
  obtain ⟨definitions, hafter, -⟩ := defineWithMeta_eq store key source ttl valueMeta sourceMeta
  rw [hafter]
  rfl

theorem versionOf_read {runner : SourceRunner} {key : String} {t u : Monotonic}
    (h : Reads runner key t u store store') (k : String) :
    store'.versionOf k = store.versionOf k := by
  unfold versionOf
  rw [(reads_kept h).versions]

/-- An unlock raises the version to the vault's, where its entry comes back. -/
theorem versionOf_installed (store : Store) (clock : Clock) (wall : ℕ → UInt64)
    (vault : UnlockedVault) (k : String) :
    (installVaultEntries store store.controlCap clock wall vault).2.versionOf k =
      match vault.entry k with
      | some e => if Restorable e then max (store.versionOf k) e.casVersion else store.versionOf k
      | none => store.versionOf k := by
  rw [versionOf_slice, installVaultEntries_slice _ _ _ store.checkCap_controlCap k]
  unfold Daemon.installedSlice
  cases vault.entry k with
  | none => rfl
  | some e =>
    simp only
    by_cases hr : Restorable e
    · rw [if_pos hr, if_pos hr]
      unfold restoredSlice
      simp only
      by_cases hpos : 0 < max ((store.slice k).version.getD 0) e.casVersion
      · rw [if_pos hpos]
        rfl
      · rw [if_neg hpos]
        have hzero : max (store.versionOf k) e.casVersion = 0 := by
          rw [versionOf_slice]
          simpa using hpos
        have hle := Word64.left_le_max (store.versionOf k) e.casVersion
        rw [hzero] at hle ⊢
        exact UInt64.le_antisymm hle (UInt64.zero_le)
    · rw [if_neg hr, if_neg hr]
      rfl

end Versions

section Step

variable {ctx : HandlerCtx} {s s' : State} {k : String}

/-- What one request does to the version. -/
theorem version_moves {req : Request} {resp : Response} (heffect : Effect ctx s req resp s') :
    VersionMoves k s s' req := by
  cases heffect with
  | refused | pong | stayedClosed | created | uncreated | undeleted | unclaimed | unreleased =>
    exact .kept _ rfl
  | cached r plan owner haccepts =>
    by_cases hk : r.key = k
    · exact .raised r hk ((versionOf_plan plan ctx s r.key k).trans (if_pos hk))
    · exact .kept _ ((versionOf_plan plan ctx s r.key k).trans (if_neg hk))
  | persisted r plan owner vault haccepts hvault hallowed =>
    by_cases hk : r.key = k
    · exact .raised r hk ((versionOf_plan plan ctx s r.key k).trans (if_pos hk))
    · exact .kept _ ((versionOf_plan plan ctx s r.key k).trans (if_neg hk))
  | unwritable r plan err haccepts he =>
    by_cases hk : r.key = k
    · exact .raised r hk ((versionOf_plan plan ctx s r.key k).trans (if_pos hk))
    · exact .kept _ ((versionOf_plan plan ctx s r.key k).trans (if_neg hk))
  | fenced r plan err vault existing cause haccepts hvault hheld hcheck =>
    by_cases hk : r.key = k
    · exact .raised r hk ((versionOf_plan plan ctx s r.key k).trans (if_pos hk))
    · exact .kept _ ((versionOf_plan plan ctx s r.key k).trans (if_neg hk))
  | uncommitted r plan err vault file haccepts hvault hcommit hfile =>
    by_cases hk : r.key = k
    · exact .raised r hk ((versionOf_plan plan ctx s r.key k).trans (if_pos hk))
    · exact .kept _ ((versionOf_plan plan ctx s r.key k).trans (if_neg hk))
  | opened code vault hvault =>
    have hinstalled := versionOf_installed s.store ctx.clock ctx.wall vault k
    cases hentry : vault.entry k with
    | none =>
      rw [hentry] at hinstalled
      exact .kept _ hinstalled
    | some e =>
      rw [hentry] at hinstalled
      by_cases hr : Restorable e
      · exact .restored _ e.casVersion (hinstalled.trans (if_pos hr))
      · exact .kept _ (hinstalled.trans (if_neg hr))
  | closed vault state hvault hstate =>
    exact .kept _ (versionOf_deletedAll s.store vault.entries.keys k)
  | deleted key withDefine removed hunrelated hgate =>
    cases withDefine with
    | false => exact .kept _ (versionOf_deleted s.store key k)
    | true =>
      have hremoved := versionOf_removed s.store key k
      by_cases hk : key = k
      · subst hk
        exact .dropped true (Or.inl rfl) (hremoved.trans (if_pos rfl))
      · exact .kept _ (hremoved.trans (if_neg hk))
  | deletedHeld key withDefine vault hvault hheld =>
    have hremoved := versionOf_removed s.store key k
    by_cases hk : key = k
    · subst hk
      exact .dropped withDefine (Or.inr ⟨vault, openVault_of_unlocked _ hvault, hheld⟩)
        (hremoved.trans (if_pos rfl))
    · exact .kept _ (hremoved.trans (if_neg hk))
  | claimed key expected secs hheld hversion hidle =>
    exact .kept _ (versionOf_claimSet s.store key k _)
  | claimedHeld key expected secs vault e hvault hheld hgranted =>
    exact .kept _ (versionOf_claimSet s.store key k _)
  | released key token hheld hfence => exact .kept _ (versionOf_claimCleared s.store key k)
  | releasedHeld key token vault next e file hvault hheld hfence hnext =>
    exact .kept _ (versionOf_claimCleared s.store key k)
  | defined key source soft hard valueMeta ttl hdefine =>
    exact .kept _ (versionOf_defined s.store key _ _ _ _ k)
  | read key dryRun resp store log hreads | pinned key secs resp store log hreads
  | unpinned key resp store hreads => exact .kept _ (versionOf_read hreads k)
  | ownerCleared key hgate howner => exact .kept _ (versionOf_ownerCleared s.store key k)

/-- An acknowledged set raised the version, and found the one it named. -/
theorem acknowledged_set {r : SetRequest} {payload : OkPayload}
    (heffect : Effect ctx s (.kvSet r) (.ok payload) s') :
    s'.store.versionOf r.key = Word64.saturatingAdd (s.store.versionOf r.key) 1 ∧
      ∀ v ∈ r.expectedVersion, s.store.versionOf r.key = v := by
  have hread : ∀ {plan persist}, Accepts ctx s r plan persist →
      ∀ v ∈ r.expectedVersion, s.store.versionOf r.key = v := by
    intro plan persist haccepts v hv
    have hversion := (gated_of_gateSet ctx s haccepts.gate).version
    rw [Option.mem_def.mp hv] at hversion
    simpa using hversion
  cases heffect with
  | cached _ plan owner haccepts =>
    exact ⟨(versionOf_plan plan ctx s r.key r.key).trans (if_pos rfl), hread haccepts⟩
  | persisted _ plan owner vault haccepts hvault hallowed =>
    exact ⟨(versionOf_plan plan ctx s r.key r.key).trans (if_pos rfl), hread haccepts⟩

end Step

section Runs

/-- No delete of the key asks for the definition, and none takes the entry of the open vault:
where it has one, the delete is not the owner's or the file is not written. -/
def KeepsVersion (k : String) (s : State) (event : Served) : Prop :=
  ∀ withDefine, event.2 = .kvDel k withDefine →
    withDefine = false ∧ ∀ vault, s.openVault = some vault → Holds vault k →
      (requireOwner (s.context event.1) s k).isSome = true ∨ event.1.commit ≠ .done

/-- No set of the key finds the last version there is. -/
def BelowMax (k : String) (s : State) (event : Served) : Prop :=
  ∀ r, event.2 = .kvSet r → r.key = k → s.store.versionOf k < Word64.maxValue

/-- The event is an acknowledged set of the key. -/
def Acknowledged (k : String) (s : State) (event : Served) : Bool :=
  match event.2, s.reply event with
  | .kvSet r, .ok _ => r.key = k
  | _, _ => false

/-- The event is an acknowledged set of the key that expects the version `v`. -/
def AcknowledgedAt (k : String) (v : UInt64) (s : State) (event : Served) : Bool :=
  match event.2 with
  | .kvSet r => Acknowledged k s event && r.expectedVersion = some v
  | _ => false

variable {k : String} {s : State} {event : Served}

/-- A delete that the vault's file does not follow removes nothing. -/
theorem handleDel_unwritten {ctx : HandlerCtx} {vault : UnlockedVault} (withDefine : Bool)
    (hopen : s.openVault = some vault) (hholds : Holds vault k) (hcommit : ctx.commit ≠ .done) :
    (handleDel ctx s k withDefine).2.store = s.store := by
  have hvault := unlocked_of_openVault s hopen
  have hheld : (vault.entry k).isSome = true := hholds
  have hsome : (vault.entry k).isNone = false := by
    obtain ⟨e, he⟩ := Option.isSome_iff_exists.mp hheld
    rw [he]
    rfl
  have howned : vaultOwnership ctx s k = .owned := by
    simp [vaultOwnership, hvault, hheld]
  unfold handleDel
  rw [howned]
  simp only [deleteFromVault, hvault, VaultState.unlockedVault, UnlockedVault.delete, hsome,
    Bool.false_eq_true, if_false]
  rcases commitThen_stored ctx.commit vault (vault.eraseEntry k) true s.file with
    ⟨hdone, -⟩ | ⟨-, err, file, -, herr⟩
  · exact absurd hdone hcommit
  · rw [herr]
    rfl

theorem version_le_serve (h : KeepsVersion k s event) :
    s.store.versionOf k ≤ (s.serve event).store.versionOf k := by
  obtain ⟨s', heffect, hserve⟩ := s.serve_effect event
  have hmoves : VersionMoves k s s' event.2 := version_moves heffect
  rw [hserve]
  show s.store.versionOf k ≤ s'.store.versionOf k
  generalize hreq : event.2 = req at hmoves
  cases hmoves with
  | kept _ hsame =>
    rw [hsame]
    exact UInt64.le_refl _
  | raised r hkey hnext =>
    rw [hnext]
    exact Word64.le_saturatingAdd _ _
  | restored code cas hnext =>
    rw [hnext]
    exact Word64.left_le_max _ _
  | dropped withDefine hwhole hnext =>
    obtain ⟨hvalue, hunheld⟩ := h withDefine hreq
    rcases hwhole with hwhole | ⟨vault, hopen, hholds⟩
    · rw [hwhole] at hvalue
      cases hvalue
    · have hsame : (s.serve event).store = s.store := by
        rw [State.serve, hreq]
        simp only [handleRequest, ownerOnly]
        rcases hunheld vault hopen hholds with hrefused | hcommit
        · obtain ⟨resp, hresp⟩ := Option.isSome_iff_exists.mp hrefused
          rw [hresp]
        · cases requireOwner (s.context event.1) s k with
          | some resp => rfl
          | none => exact handleDel_unwritten withDefine hopen hholds hcommit
      rw [hserve] at hsame
      rw [show s'.store = s.store from hsame]
      exact UInt64.le_refl _

theorem acknowledged_serve (h : Acknowledged k s event = true) :
    (s.serve event).store.versionOf k = Word64.saturatingAdd (s.store.versionOf k) 1 ∧
      ∃ r, event.2 = .kvSet r ∧ ∀ v ∈ r.expectedVersion, s.store.versionOf k = v := by
  obtain ⟨s', heffect, hserve⟩ := s.serve_effect event
  unfold Acknowledged at h
  split at h
  · rename_i r payload hreq hreply
    have hk : r.key = k := of_decide_eq_true h
    subst hk
    rw [hreq, hreply] at heffect
    obtain ⟨hnext, hread⟩ := acknowledged_set heffect
    rw [hserve]
    exact ⟨hnext, r, hreq, hread⟩
  · cases h

theorem request_of_acknowledged (h : Acknowledged k s event = true) :
    ∃ r, event.2 = .kvSet r ∧ r.key = k := by
  unfold Acknowledged at h
  split at h
  · rename_i r payload hreq hreply
    exact ⟨r, hreq, of_decide_eq_true h⟩
  · cases h

theorem acknowledgedAt_serve {v : UInt64} (h : AcknowledgedAt k v s event = true) :
    Acknowledged k s event = true ∧ s.store.versionOf k = v := by
  unfold AcknowledgedAt at h
  split at h
  · rename_i r hreq
    rw [Bool.and_eq_true] at h
    obtain ⟨hacknowledged, hexpected⟩ := h
    obtain ⟨-, r', hreq', hread⟩ := acknowledged_serve hacknowledged
    rw [hreq] at hreq'
    cases hreq'
    exact ⟨hacknowledged, hread v (of_decide_eq_true hexpected)⟩
  · cases h

/-- In a run in which no delete takes the key itself, the version never falls,
every acknowledged set raises it below the end of its range, and no version
there is expected by two acknowledged sets. Where no set finds the end of the range,
every acknowledged set raises the version, and none is expected by two. -/
theorem versions_count_up (k : String) (s : State) (events : List Served)
    (hrun : Along State.serve (KeepsVersion k) s events) :
    s.store.versionOf k ≤ (run State.serve s events).store.versionOf k ∧
      Along State.serve (fun s event => Acknowledged k s event = true →
        s.store.versionOf k < Word64.maxValue →
          s.store.versionOf k < (s.serve event).store.versionOf k) s events ∧
      (∀ v, v < Word64.maxValue → tally State.serve (AcknowledgedAt k v) s events ≤ 1) ∧
      (Along State.serve (BelowMax k) s events →
        Along State.serve (fun s event => Acknowledged k s event = true →
          s.store.versionOf k < (s.serve event).store.versionOf k) s events ∧
        ∀ v, tally State.serve (AcknowledgedAt k v) s events ≤ 1) := by
  have hraises : ∀ s event, Acknowledged k s event = true →
      s.store.versionOf k < Word64.maxValue →
        s.store.versionOf k < (s.serve event).store.versionOf k := by
    intro s event hacknowledged hlt
    rw [(acknowledged_serve hacknowledged).1]
    exact Word64.lt_saturatingAdd_one hlt
  have honce : ∀ v (P : State → Served → Prop), (∀ s event, P s event → KeepsVersion k s event) →
      (∀ s event, P s event → AcknowledgedAt k v s event = true → v < Word64.maxValue) →
      Along State.serve P s events → tally State.serve (AcknowledgedAt k v) s events ≤ 1 := by
    intro v P hkeeps hbelow halong
    refine tally_le_one State.serve (I := fun _ => True) (fun s => (s.store.versionOf k).toNat)
      (AcknowledgedAt k v) v.toNat (fun _ _ _ _ => trivial) ?_ ?_ ?_ s events halong trivial
    · intro s event _ h
      exact UInt64.le_iff_toNat_le.mp (version_le_serve (hkeeps s event h))
    · intro s event _ _ h
      rw [(acknowledgedAt_serve h).2]
    · intro s event _ hP h
      obtain ⟨hacknowledged, hversion⟩ := acknowledgedAt_serve h
      exact UInt64.lt_iff_toNat_lt.mp
        (hraises s event hacknowledged (by rw [hversion]; exact hbelow s event hP h))
  have hfound : ∀ s event, BelowMax k s event → Acknowledged k s event = true →
      s.store.versionOf k < Word64.maxValue := by
    intro s event hbelow hacknowledged
    obtain ⟨r, hreq, hkey⟩ := request_of_acknowledged hacknowledged
    exact hbelow r hreq hkey
  refine ⟨?_, along_of_forall State.serve hraises s events, fun v hv => ?_, fun hbelow => ⟨?_, ?_⟩⟩
  · exact run_relation State.serve (I := fun _ => True)
      (R := fun s s' => s.store.versionOf k ≤ s'.store.versionOf k) (fun _ => UInt64.le_refl _)
      (fun _ _ _ => UInt64.le_trans) (fun _ _ _ _ => trivial)
      (fun _ _ _ h => version_le_serve h) s events hrun trivial
  · exact honce v (KeepsVersion k) (fun _ _ h => h) (fun _ _ _ _ => hv) hrun
  · exact along_of_invariant State.serve (I := fun _ => True) (fun _ _ _ _ => trivial)
      (fun s event _ h hacknowledged => hraises s event hacknowledged (hfound s event h hacknowledged))
      s events hbelow trivial
  · intro v
    apply honce v (fun s event => KeepsVersion k s event ∧ BelowMax k s event)
      (fun _ _ h => h.1) _ (along_and State.serve s events hrun hbelow)
    intro s event h hat
    obtain ⟨hacknowledged, hversion⟩ := acknowledgedAt_serve hat
    rw [← hversion]
    exact hfound s event h.2 hacknowledged

def setExpecting (v : UInt64) : Request :=
  .kvSet { setPlain none with expectedVersion := some v }

/-- A closed vault whose one entry has the last version there is. -/
def countedOut : State :=
  State.starting (some .locked)
    (.holds (Bench.plainVault.insertEntry { plainEntry with casVersion := Word64.maxValue }))

def quietly (requests : List Request) : List Served := requests.map fun request => (.quiet, request)

def unwritten : HandlerCtx :=
  { HandlerCtx.quiet with commit := .failed (.io .temp "No space left on device") false }

/-- Two sets, the vault closed and opened between them, and a delete that is not written. -/
def countingUp : List Served :=
  quietly [setExpecting 0, .vaultLock, .vaultUnlock (some (some plainCode)), setExpecting 1] ++
    [(unwritten, .kvDel "ns/k" false)]

theorem versions_count_up_plain :
    openPlain.store.versionOf "ns/k" ≤ (run State.serve openPlain countingUp).store.versionOf
        "ns/k" ∧
      ∀ v, tally State.serve (AcknowledgedAt "ns/k" v) openPlain countingUp ≤ 1 := by
  have hkeeps : Along State.serve (KeepsVersion "ns/k") openPlain countingUp := by
    refine ⟨?_, ?_, ?_, ?_, ?_, trivial⟩
    iterate 4
      intro withDefine h
      cases h
    intro withDefine h
    cases h
    exact ⟨rfl, fun _ _ _ => Or.inr (fun h => by cases h)⟩
  have hbelow : Along State.serve (BelowMax "ns/k") openPlain countingUp := by
    refine ⟨?_, ?_, ?_, ?_, ?_, trivial⟩
    · intro r _ _
      decide
    · intro r h
      cases h
    · intro r h
      cases h
    · intro r _ _
      decide
    · intro r h
      cases h
  have hcounted := versions_count_up "ns/k" openPlain _ hkeeps
  exact ⟨hcounted.1, (hcounted.2.2.2 hbelow).2⟩

/-- A delete of an entry the vault holds starts the count again, and at the end
of its range it stands still. -/
theorem versions_start_again :
    (run State.serve openPlain (quietly [setExpecting 0])).store.versionOf "ns/k" = 1 ∧
      (run State.serve openPlain (quietly [setExpecting 0, .kvDel "ns/k" false])).store.versionOf
        "ns/k" = 0 ∧
      tally State.serve (AcknowledgedAt "ns/k" 0) openPlain
        (quietly [setExpecting 0, .kvDel "ns/k" false, setExpecting 0]) = 2 ∧
      tally State.serve (AcknowledgedAt "ns/k" Word64.maxValue)
        (run State.serve countedOut (quietly [.vaultUnlock (some (some plainCode))]))
        (quietly [setExpecting Word64.maxValue, setExpecting Word64.maxValue]) = 2 := by
  refine ⟨?_, ?_, ?_, ?_⟩
  · decide
  · decide
  · decide
  · decide

end Runs

end Daemon

end CacheWarden
