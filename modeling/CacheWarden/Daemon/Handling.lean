import CacheWarden.Daemon.Effects

/-!
# Every request has an effect

One theorem for each handler: its reply and the state it leaves are those of one
of the effects.
-/

set_option autoImplicit false

namespace CacheWarden

namespace Daemon

open Vault Store

/-- A gate that stops a request answers with an error. -/
def Stops (gate : Option Response) : Prop := ∀ resp, gate = some resp → ∃ e, resp = .err e

section Gates

variable (ctx : HandlerCtx) (s : State) (key : String)

theorem stops_validateProtocolKey : Stops (validateProtocolKey key) := by
  intro resp h
  unfold validateProtocolKey at h
  split at h <;> cases h
  exact ⟨_, rfl⟩

theorem stops_rejectReservedNamespaceWrite : Stops (rejectReservedNamespaceWrite key) := by
  intro resp h
  unfold rejectReservedNamespaceWrite at h
  split at h
  · split at h <;> cases h
    exact ⟨_, rfl⟩
  · cases h

theorem stops_rejectReservedNamespaceRead : Stops (rejectReservedNamespaceRead key) := by
  intro resp h
  unfold rejectReservedNamespaceRead at h
  split at h
  · split at h <;> cases h
    exact ⟨_, rfl⟩
  · cases h

theorem stops_requireOwner : Stops (requireOwner ctx s key) := by
  intro resp h
  unfold requireOwner at h
  split at h
  · cases h
  · split at h <;> cases h
    exact ⟨_, rfl⟩

theorem stops_requireUnlockedVault : Stops (requireUnlockedVault s) := by
  intro resp h
  unfold requireUnlockedVault at h
  split at h <;> cases h <;> exact ⟨_, rfl⟩

theorem stops_checkClaimFence (store : Store) (token : Option String) (now : UInt64) :
    Stops (checkClaimFence store key token now) := by
  intro resp h
  unfold checkClaimFence at h
  split at h
  · cases h
  · split at h
    · cases h
      exact ⟨_, rfl⟩
    · split at h <;> cases h
      exact ⟨_, rfl⟩

theorem vaultOwnership_unavailable {resp : Response}
    (h : vaultOwnership ctx s key = .unavailable resp) : ∃ e, resp = .err e := by
  unfold vaultOwnership at h
  split at h
  · cases h
  · split at h <;> cases h
  · split at h <;> cases h
    exact ⟨_, rfl⟩
  · split at h <;> cases h
    exact ⟨_, rfl⟩

theorem guardPlanRefusal_err (e : GuardPlanError) : ∃ err, guardPlanRefusal e = .err err := by
  cases e <;> exact ⟨_, rfl⟩

theorem gateSet_err {r : SetRequest} {resp : Response} (h : gateSet ctx s r = .error resp) :
    ∃ e, resp = .err e := by
  unfold gateSet at h
  split at h
  · rename_i hkey
    cases h
    exact stops_validateProtocolKey r.key _ hkey
  split at h
  · rename_i howner
    cases h
    exact stops_requireOwner ctx s r.key _ howner
  split at h
  · rename_i hsigned
    cases h
    cases hdecl : r.signedBy with
    | none => simp [hdecl] at hsigned
    | some decl =>
      simp only [hdecl, Option.map_some, Option.some.injEq] at hsigned
      unfold parseSignedBy at hsigned
      split at hsigned
      · cases hd : OwnerPrincipal.declare decl.anchor decl.teamId decl.identifier with
        | ok p => simp [hd, Except.mapError] at hsigned
        | error e =>
          simp only [hd, Except.mapError, Except.error.injEq] at hsigned
          exact ⟨_, hsigned.symm⟩
      · cases hsigned
        exact ⟨_, rfl⟩
  simp only at h
  split at h
  · cases h
    exact ⟨_, rfl⟩
  split at h
  · rename_i hvault
    cases h
    split at hvault
    · exact stops_requireUnlockedVault s _ hvault
    · cases hvault
  split at h
  · cases h
    exact ⟨_, rfl⟩
  split at h
  · rename_i hfence
    cases h
    exact stops_checkClaimFence r.key s.store r.claimToken (ctx.wall 0) _ hfence
  · cases h

/-- Every gate of a set that is let through, in the order they stand in. -/
structure Gated (r : SetRequest) (declared : Option OwnerPrincipal) (persist : Bool) : Prop where
  key : validateProtocolKey r.key = none
  owner : requireOwner ctx s r.key = none
  signed : r.signedBy.map (parseSignedBy ctx.macos) = declared.map .ok
  chosen : persist = (r.persist.getD false || decide (r.key ∈ ctx.persistedKeys))
  lasting : (persist && r.hardTtlSecs.isSome) = false
  opened : (if persist then requireUnlockedVault s else none) = none
  version : r.expectedVersion.any (s.store.versionOf r.key ≠ ·) = false
  fence : checkClaimFence s.store r.key r.claimToken (ctx.wall 0) = none

theorem gated_of_gateSet {r : SetRequest} {declared : Option OwnerPrincipal} {persist : Bool}
    (h : gateSet ctx s r = .ok (declared, persist)) : Gated ctx s r declared persist := by
  unfold gateSet at h
  split at h
  · cases h
  rename_i hkey
  split at h
  · cases h
  rename_i howner
  split at h
  · cases h
  rename_i hsigned
  simp only at h
  split at h
  · cases h
  rename_i hlasting
  split at h
  · cases h
  rename_i hopened
  split at h
  · cases h
  rename_i hversion
  split at h
  · cases h
  rename_i hfence
  simp only [Except.ok.injEq, Prod.mk.injEq] at h
  obtain ⟨rfl, rfl⟩ := h
  refine ⟨hkey, howner, ?_, rfl, Bool.not_eq_true _ ▸ hlasting, hopened,
    Bool.not_eq_true _ ▸ hversion, hfence⟩
  cases hparsed : r.signedBy.map (parseSignedBy ctx.macos) with
  | none => rfl
  | some parsed =>
    cases parsed with
    | error resp => exact absurd hparsed (hsigned resp)
    | ok p => rfl

end Gates

section Set

variable (ctx : HandlerCtx)

theorem clearRefreshClaim_eq (store : Store) {cap : Capability}
    (hcap : store.checkCap cap = .ok ()) (key : String) :
    store.clearRefreshClaim key cap =
      (.ok (store.refreshClaims[key]?).isSome,
        { store with refreshClaims := store.refreshClaims.erase key }) := by
  unfold clearRefreshClaim
  rw [hcap]

theorem bumpVersion_eq (store : Store) {cap : Capability} (hcap : store.checkCap cap = .ok ())
    (key : String) :
    store.bumpVersion key cap =
      (.ok (Word64.saturatingAdd (store.versionOf key) 1),
        { store with
          versions := store.versions.insert key (Word64.saturatingAdd (store.versionOf key) 1) }) := by
  unfold bumpVersion
  rw [hcap]

theorem finishSet_eq (store : Store) {cap : Capability} (hcap : store.checkCap cap = .ok ())
    (key : String) (labels : List String) :
    finishSet store key cap labels =
      (.ok (.set labels (some (Word64.saturatingAdd (store.versionOf key) 1)) none),
        { store with
          versions := store.versions.insert key (Word64.saturatingAdd (store.versionOf key) 1)
          refreshClaims := store.refreshClaims.erase key }) := by
  unfold finishSet
  rw [bumpVersion_eq store hcap]
  simp only
  rw [clearRefreshClaim_eq _ (by exact hcap)]

/-- A set either touches nothing or puts the accepted value in place. -/
theorem handleSet_cases (store : Store) (key : String) (source : SetSource)
    (soft hard : Option UInt64) (guardConstraints : List GuardConstraintWire) :
    (∃ e, handleSet ctx store key source soft hard guardConstraints = (.err e, store)) ∨
      ∃ bytes ttl plan, source = .static (some bytes) ∧ ValidKey key ∧
        ttl.soft = soft.map Duration.fromSecs ∧ ttl.hard = hard.map Duration.fromSecs ∧
        planGuardRecord guardConstraints ctx.kvPolicy ctx.guardAuditToken ctx.guardChain =
          .ok plan ∧
        handleSet ctx store key source soft hard guardConstraints =
          (.ok (.set (planLabels plan) (some (Word64.saturatingAdd (store.versionOf key) 1)) none),
            acceptedStore store key bytes ttl plan none (ctx.clock.now 0)) := by
  unfold handleSet
  simp only
  cases hkey : validateProtocolKey key with
  | some resp =>
    left
    obtain ⟨e, rfl⟩ := stops_validateProtocolKey key resp hkey
    exact ⟨e, rfl⟩
  | none =>
  cases hns : rejectReservedNamespaceWrite key with
  | some resp =>
    left
    obtain ⟨e, rfl⟩ := stops_rejectReservedNamespaceWrite key resp hns
    exact ⟨e, rfl⟩
  | none =>
  cases hplan : planGuardRecord guardConstraints ctx.kvPolicy ctx.guardAuditToken
    ctx.guardChain with
  | error e =>
    left
    obtain ⟨err, herr⟩ := guardPlanRefusal_err e
    exact ⟨err, by rw [← herr]⟩
  | ok plan =>
  cases httl : Ttl.new (soft.map Duration.fromSecs) (hard.map Duration.fromSecs) with
  | error e => exact Or.inl ⟨_, rfl⟩
  | ok ttl =>
  cases source with
  | static value =>
  cases value with
  | none => exact Or.inl ⟨_, rfl⟩
  | some bytes =>
  unfold Store.set
  simp only [checkCap_controlCap]
  rw [validateKeySyntax_eq]
  by_cases hvalid : ValidKey key
  · right
    obtain ⟨hsoft, hhard⟩ := (Ttl.new_ok_iff _ _ _).mp httl
    refine ⟨bytes, ttl, plan, rfl, hvalid, hsoft, hhard, rfl, ?_⟩
    rw [if_pos hvalid]
    have hput : ∀ e : CacheEntry, (store.putEntry key e).checkCap store.controlCap = .ok () :=
      fun e => store.checkCap_controlCap
    cases plan with
    | none =>
      simp only [clearGuard, hput]
      rw [finishSet_eq _ (by exact store.checkCap_controlCap)]
      rfl
    | some record =>
      simp only [setGuard, hput]
      rw [finishSet_eq _ (by exact store.checkCap_controlCap)]
      rfl
  · left
    rw [if_neg hvalid]
    exact ⟨_, rfl⟩

theorem acceptedStore_settle (store : Store) (key : String) (bytes : Bytes) (ttl : Ttl)
    (plan : Option GuardRecord) (declared : Option OwnerPrincipal) (now : Monotonic) :
    settleOwner (acceptedStore store key bytes ttl plan none now) key declared =
      acceptedStore store key bytes ttl plan declared now := by
  cases declared with
  | none => rfl
  | some principal =>
    unfold settleOwner setOwner
    simp only [checkCap_controlCap]
    rfl

end Set

section Handlers

variable (ctx : HandlerCtx) (s : State)

/-- A commit reports success and leaves the new file, or reports an error. -/
theorem commitTo_cases (outcome : CommitOutcome) (next : UnlockedVault) (stored : Stored) :
    (outcome = .done ∧ Stored.commitTo outcome next stored = (.ok (), .holds next)) ∨
      (outcome ≠ .done ∧ ∃ e, (Stored.commitTo outcome next stored).1 = .error e) := by
  rcases outcome with _ | ⟨e, landed⟩
  · exact Or.inl ⟨rfl, rfl⟩
  · right
    refine ⟨by rintro ⟨⟩, e, ?_⟩
    cases landed <;> rfl

theorem commitThen_stored {α : Type} (outcome : CommitOutcome) (self next : UnlockedVault)
    (value : α) (stored : Stored) :
    (outcome = .done ∧ UnlockedVault.commitThen (Stored.commitTo outcome) self next value stored =
        (.ok value, next, .holds next)) ∨
      (outcome ≠ .done ∧ ∃ e file, file = (Stored.commitTo outcome next stored).2 ∧
        UnlockedVault.commitThen (Stored.commitTo outcome) self next value stored =
          (.error e, self, file)) := by
  unfold UnlockedVault.commitThen
  rcases commitTo_cases outcome next stored with ⟨hdone, h⟩ | ⟨hne, e, h⟩
  · left
    exact ⟨hdone, by rw [h]⟩
  · right
    refine ⟨hne, e, _, rfl, ?_⟩
    rw [← Prod.eta (Stored.commitTo outcome next stored), h]

theorem unlocked_of_openVault {vault : UnlockedVault} (h : s.openVault = some vault) :
    s.vault = some (.unlocked vault) := by
  unfold State.openVault VaultState.unlockedVault at h
  cases hv : s.vault with
  | none => simp [hv] at h
  | some state =>
    cases state <;> simp [hv] at h
    rw [h]

theorem openVault_of_unlocked {vault : UnlockedVault} (h : s.vault = some (.unlocked vault)) :
    s.openVault = some vault := by
  unfold State.openVault VaultState.unlockedVault
  rw [h]
  rfl

theorem ackOwner_set (labels : List String) (version : Option UInt64) (owner : Option OwnerPrincipal) :
    ∃ shown, ackOwner (.set labels version none) owner = .set labels version shown := by
  cases owner with
  | none => exact ⟨none, rfl⟩
  | some principal => exact ⟨some principal.summary, rfl⟩

theorem guardToJson_cases (record : SnapshotGuard) :
    guardToJson record = .ok (.value record) ∨ ∃ e, guardToJson record = .error e := by
  unfold guardToJson
  split
  · exact Or.inl rfl
  · exact Or.inr ⟨_, rfl⟩

/-- The write-through builds the entry, or cannot write its guard. -/
theorem persistedEntry_cases (store : Store) (key : String) (bytes : Bytes) :
    persistedEntry ctx store key bytes = .ok (entryFor ctx store key bytes) ∨
      ∃ err, persistedEntry ctx store key bytes = .error (.err err) := by
  unfold persistedEntry entryFor
  cases store.guardOf key with
  | none => exact Or.inl rfl
  | some record =>
    simp only
    rcases guardToJson_cases (guardRecordToSnapshot record) with h | ⟨e, h⟩
    · rw [h]
      exact Or.inl rfl
    · rw [h]
      exact Or.inr ⟨_, rfl⟩

theorem persistedEntry_unguarded {store : Store} {key : String} (bytes : Bytes)
    (h : store.guardOf key = none) :
    persistedEntry ctx store key bytes = .ok (entryFor ctx store key bytes) := by
  unfold persistedEntry entryFor
  rw [h]
  rfl

theorem withVault_same {vault : UnlockedVault} (hvault : s.vault = some (.unlocked vault))
    (file : Stored) : s.withVault vault file = { s with file := file } := by
  unfold State.withVault
  rw [← hvault]

def unpersisted (e : VaultError) : WireError :=
  ⟨.internal, [.text "value was not persisted: ", .vault e], none, none⟩

/-- What a write-through comes to, once the vault is open. -/
theorem writeThrough_cases (key : String) (bytes : Bytes) (token : Option String)
    {vault : UnlockedVault} (hvault : s.vault = some (.unlocked vault)) :
    ((∀ e, persistedEntry ctx s.store key bytes ≠ .ok e) ∧
        ∃ err, writeThroughToVault ctx s key (.static (some bytes)) token = (some (.err err), s)) ∨
      (∃ existing cause err, vault.entry key = some existing ∧
        checkClaim existing (token.bind ClaimToken.parse) (ctx.wall 2) = .error cause ∧
        writeThroughToVault ctx s key (.static (some bytes)) token = (some (.err err), s)) ∨
      (ctx.commit ≠ .done ∧ ∃ err file,
        Spilled ctx s (writtenVault ctx vault s.store key bytes) file ∧
        writeThroughToVault ctx s key (.static (some bytes)) token =
          (some (.err err), { s with file := file })) ∨
      (vault.WriteAllowed key (token.bind ClaimToken.parse) (ctx.wall 2) ∧
        writeThroughToVault ctx s key (.static (some bytes)) token =
          (none, s.withVault (writtenVault ctx vault s.store key bytes)
            (.holds (writtenVault ctx vault s.store key bytes)))) := by
  unfold writeThroughToVault
  simp only [hvault, VaultState.unlockedVault]
  rcases persistedEntry_cases ctx s.store key bytes with he | ⟨err, he⟩
  · right
    rw [he]
    simp only
    have hkey : (entryFor ctx s.store key bytes).key = key := rfl
    have hcommit := commitThen_stored ctx.commit vault (writtenVault ctx vault s.store key bytes)
      (Word64.saturatingAdd (vault.casOf key) 1) s.file
    have hallowedOf : (∀ existing, vault.entry key = some existing →
        checkClaim existing (token.bind ClaimToken.parse) (ctx.wall 2) = .ok ()) →
        UnlockedVault.upsert (Stored.commitTo ctx.commit) (ctx.wall 2) (ctx.wall 3) vault
          (entryFor ctx s.store key bytes) (token.bind ClaimToken.parse) s.file =
        UnlockedVault.commitThen (Stored.commitTo ctx.commit) vault
          (writtenVault ctx vault s.store key bytes) (Word64.saturatingAdd (vault.casOf key) 1)
          s.file := by
      intro hallowed
      unfold UnlockedVault.upsert UnlockedVault.writeEntry
      simp only [hkey]
      cases hheld : vault.entry key with
      | none => rfl
      | some existing =>
        simp only [hallowed existing hheld]
        rfl
    by_cases hallowed : vault.WriteAllowed key (token.bind ClaimToken.parse) (ctx.wall 2)
    · right
      rw [hallowedOf hallowed]
      rcases hcommit with ⟨-, hok⟩ | ⟨hne, err, file, hfile, herr⟩
      · right
        exact ⟨hallowed, by rw [hok]⟩
      · left
        refine ⟨hne, unpersisted err, file, hfile, ?_⟩
        rw [herr]
        simp only [withVault_same s hvault, hvault]
        rfl
    · left
      unfold UnlockedVault.WriteAllowed at hallowed
      simp only [not_forall] at hallowed
      obtain ⟨existing, hheld, hcheck⟩ := hallowed
      cases hresult : checkClaim existing (token.bind ClaimToken.parse) (ctx.wall 2) with
      | ok u => exact absurd hresult hcheck
      | error cause =>
        refine ⟨existing, cause, unpersisted cause, hheld, hresult, ?_⟩
        unfold UnlockedVault.upsert
        simp only [hkey, hheld, hresult, withVault_same s hvault]
        rfl
  · left
    rw [he]
    refine ⟨?_, err, rfl⟩
    intro e hok
    cases hok

theorem unlocked_of_required (h : requireUnlockedVault s = none) :
    ∃ vault, s.vault = some (.unlocked vault) := by
  unfold requireUnlockedVault at h
  split at h
  · cases h
  · rename_i vault hvault
    exact ⟨vault, hvault⟩
  · cases h
  · cases h

/-- A set that is to be persisted finds the vault open. -/
theorem unlocked_of_gateSet {r : SetRequest} {declared : Option OwnerPrincipal}
    (h : gateSet ctx s r = .ok (declared, true)) : ∃ vault, s.vault = some (.unlocked vault) :=
  unlocked_of_required s (gated_of_gateSet ctx s h).opened

theorem handleKvSet_effect (r : SetRequest) :
    Effect ctx s (.kvSet r) (handleKvSet ctx s r).1 (handleKvSet ctx s r).2 := by
  unfold handleKvSet
  cases hgate : gateSet ctx s r with
  | error resp =>
    obtain ⟨e, rfl⟩ := gateSet_err ctx s hgate
    exact .refused _ e
  | ok gated =>
    obtain ⟨declared, persist⟩ := gated
    simp only
    rcases handleSet_cases ctx s.store r.key r.source r.softTtlSecs
      (if persist then none else r.hardTtlSecs) r.guardConstraints with
      ⟨e, hset⟩ | ⟨bytes, ttl, guard, hsource, hvalid, hsoft, hhard, hguard, hset⟩
    · rw [hset]
      exact .refused _ e
    · rw [hset]
      simp only
      rw [acceptedStore_settle]
      have haccepts : Accepts ctx s r ⟨bytes, ttl, guard, declared⟩ persist :=
        ⟨hgate, hsource, hvalid, hsoft, hhard, hguard⟩
      obtain ⟨shown, hshown⟩ := ackOwner_set (planLabels guard)
        (some (Word64.saturatingAdd (s.store.versionOf r.key) 1))
        ((acceptedStore s.store r.key bytes ttl guard declared (ctx.clock.now 0)).ownerOf r.key)
      rw [hshown]
      cases persist with
      | false => exact .cached r _ shown haccepts
      | true =>
        simp only [if_true]
        obtain ⟨vault, hvault⟩ := unlocked_of_gateSet ctx s hgate
        have hwrite := writeThrough_cases ctx
          (s.withStore (SetPlan.store ⟨bytes, ttl, guard, declared⟩ ctx s r.key)) r.key bytes
          r.claimToken hvault
        rw [hsource]
        rcases hwrite with ⟨hnone, err, hw⟩ | ⟨existing, cause, err, hheld, hcheck, hw⟩ |
          ⟨hne, err, file, hfile, hw⟩ | ⟨hallowed, hw⟩
        · rw [show writeThroughToVault ctx (s.withStore (acceptedStore s.store r.key bytes ttl guard
            declared (ctx.clock.now 0))) r.key _ r.claimToken = _ from hw]
          exact .unwritable r _ err haccepts hnone
        · rw [show writeThroughToVault ctx (s.withStore (acceptedStore s.store r.key bytes ttl guard
            declared (ctx.clock.now 0))) r.key _ r.claimToken = _ from hw]
          exact .fenced r _ err vault existing cause haccepts hvault hheld hcheck
        · rw [show writeThroughToVault ctx (s.withStore (acceptedStore s.store r.key bytes ttl guard
            declared (ctx.clock.now 0))) r.key _ r.claimToken = _ from hw]
          exact .uncommitted r _ err vault file haccepts hvault hne hfile
        · rw [show writeThroughToVault ctx (s.withStore (acceptedStore s.store r.key bytes ttl guard
            declared (ctx.clock.now 0))) r.key _ r.claimToken = _ from hw]
          exact .persisted r _ shown vault haccepts hvault hallowed

theorem handleVaultInit_effect :
    Effect ctx s .vaultInit (handleVaultInit ctx s).1 (handleVaultInit ctx s).2 := by
  unfold handleVaultInit
  cases hvault : s.vault with
  | none => exact .refused _ _
  | some state =>
    have hback : ({ s with vault := some state, file := s.file } : State) = s := by
      rw [← hvault]
    cases state with
    | locked =>
      simp only [VaultState.init]
      rw [hback]
      exact .refused _ _
    | unlocked vault =>
      simp only [VaultState.init]
      rw [hback]
      exact .refused _ _
    | notInitialized =>
      simp only [VaultState.init]
      have hfile : ∀ file : Stored,
          ({ s with vault := some .notInitialized, file := file } : State) =
            { s with file := file } := by
        intro file
        rw [← hvault]
      cases hstored : s.file with
      | absent =>
        cases hcreation : ctx.creation with
        | created vault code hempty => exact .created vault code hempty hstored hvault
        | refused e =>
          simp only [Stored.createIn, hfile]
          exact .uncreated _ _ hvault ⟨hstored, by rintro v ⟨⟩⟩
        | abandoned e vault hempty =>
          simp only [Stored.createIn, hfile]
          refine .uncreated _ _ hvault ⟨hstored, ?_⟩
          rintro v ⟨⟩
          exact hempty
        | broken e left =>
          simp only [Stored.createIn, hfile]
          exact .uncreated _ _ hvault ⟨hstored, by rintro v ⟨⟩⟩
      | holds v =>
        have hrefused : ∃ e, (Stored.holds v).createIn ctx.creation = (.error e, .holds v) := by
          cases ctx.creation <;> exact ⟨_, rfl⟩
        obtain ⟨e, he⟩ := hrefused
        rw [he]
        simp only [hfile]
        rw [← hstored]
        exact .refused _ _
      | damaged left =>
        have hrefused : ∃ e, (Stored.damaged left).createIn ctx.creation =
            (.error e, .damaged left) := by
          cases ctx.creation <;> exact ⟨_, rfl⟩
        obtain ⟨e, he⟩ := hrefused
        rw [he]
        simp only [hfile]
        rw [← hstored]
        exact .refused _ _

theorem handleVaultUnlock_effect (recoveryCode : Option Key) :
    Effect ctx s (.vaultUnlock (some recoveryCode)) (handleVaultUnlock ctx s recoveryCode).1
      (handleVaultUnlock ctx s recoveryCode).2 := by
  unfold handleVaultUnlock
  cases hvault : s.vault with
  | none => exact .refused _ _
  | some state =>
  cases recoveryCode with
  | none => exact .refused _ _
  | some code =>
    have hback : ({ s with vault := some state } : State) = s := by
      rw [← hvault]
    unfold unlockAndInstall
    cases state with
    | notInitialized =>
      simp only [VaultState.unlock]
      rw [hback]
      exact .refused _ _
    | unlocked vault => exact .opened code vault (Or.inl hvault)
    | locked =>
      simp only [VaultState.unlock]
      cases hunlock : s.file.unlockWith ctx.opened with
      | error e =>
        simp only
        rw [hback]
        exact .refused _ _
      | ok vault =>
        refine .opened code vault (Or.inr ⟨hvault, ?_⟩)
        unfold Stored.unlockWith at hunlock
        split at hunlock
        · cases hunlock
        · cases hunlock
        · rename_i hstored
          split at hunlock <;> cases hunlock
          exact hstored

theorem handleVaultLock_effect :
    Effect ctx s .vaultLock (handleVaultLock ctx s).1 (handleVaultLock ctx s).2 := by
  unfold handleVaultLock
  cases hvault : s.vault with
  | none => exact .refused _ _
  | some state =>
    have hback : ({ s with vault := some state } : State) = s := by
      rw [← hvault]
    have hclosed : state.unlockedVault = none → s.openVault = none := by
      intro h
      unfold State.openVault
      rw [hvault]
      exact h
    cases state with
    | notInitialized => exact .stayedClosed (hclosed rfl)
    | locked => exact .stayedClosed (hclosed rfl)
    | unlocked vault =>
      simp only [VaultState.unlockedVault, VaultState.lock]
      cases hopen : s.file.openAt ctx.opened with
      | error e =>
        simp only
        rw [hback]
        exact .refused _ _
      | ok state =>
        refine .closed vault state hvault ?_
        unfold Stored.openAt at hopen
        split at hopen
        · rename_i hstored
          cases hopen
          exact Or.inr ⟨rfl, hstored⟩
        · cases hopen
        · rename_i v hstored
          split at hopen <;> cases hopen
          exact Or.inl ⟨rfl, v, hstored⟩

theorem handleDel_effect (key : String) (withDefine : Bool)
    (hgate : requireOwner ctx s key = none) :
    Effect ctx s (.kvDel key withDefine) (handleDel ctx s key withDefine).1
      (handleDel ctx s key withDefine).2 := by
  unfold handleDel
  cases hownership : vaultOwnership ctx s key with
  | unavailable resp =>
    obtain ⟨e, rfl⟩ := vaultOwnership_unavailable ctx s key hownership
    exact .refused _ e
  | unrelated =>
    cases withDefine with
    | true => exact .deleted key true _ hownership hgate
    | false => exact .deleted key false _ hownership hgate
  | owned =>
    have howned : ∃ vault, s.vault = some (.unlocked vault) ∧ (vault.entry key).isSome := by
      unfold vaultOwnership at hownership
      split at hownership
      · cases hownership
      · rename_i vault hvault
        split at hownership
        · rename_i hheld
          exact ⟨vault, hvault, hheld⟩
        · cases hownership
      · split at hownership <;> cases hownership
      · split at hownership <;> cases hownership
    obtain ⟨vault, hvault, hheld⟩ := howned
    have hsome : (vault.entry key).isNone = false := by
      cases hentry : vault.entry key with
      | none => simp [hentry] at hheld
      | some e => rfl
    simp only [deleteFromVault, hvault, VaultState.unlockedVault, UnlockedVault.delete, hsome,
      Bool.false_eq_true, if_false]
    rcases commitThen_stored ctx.commit vault (vault.eraseEntry key) true s.file with
      ⟨-, hok⟩ | ⟨hne, err, file, hfile, herr⟩
    · rw [hok]
      exact .deletedHeld key withDefine vault hvault hheld
    · rw [herr]
      simp only [withVault_same s hvault]
      exact .undeleted key withDefine _ vault file hvault hheld hne hfile

theorem setRefreshClaim_controlCap (store : Store) (key : String) (claim : RefreshClaim) :
    store.setRefreshClaim key claim store.controlCap =
      (.ok (), { store with refreshClaims := store.refreshClaims.insert key claim }) := by
  unfold setRefreshClaim
  rw [checkCap_controlCap]

theorem alreadyClaimed_err (secs : UInt64) : ∃ e, Response.alreadyClaimed secs = .err e := ⟨_, rfl⟩

theorem casMismatch_err (current : UInt64) : ∃ e, Response.casMismatch current = .err e := ⟨_, rfl⟩

theorem notHeld_of_none {key : String} (h : s.openVault = none) : NotHeld s key := by
  intro vault hvault
  rw [h] at hvault
  cases hvault

theorem notHeld_of_entry {key : String} {vault : UnlockedVault} (h : s.openVault = some vault)
    (hnone : vault.entry key = none) : NotHeld s key := by
  intro vault' hvault'
  rw [h] at hvault'
  cases hvault'
  exact hnone

/-- The vault either has nothing to do with a claim, or refuses it and stays as
it is, or loses its commit, or records it. -/
theorem takeClaimInVault_cases (key : String) (expected secs : UInt64) :
    (NotHeld s key ∧ takeClaimInVault ctx s key expected secs = (.ok none, s)) ∨
      ∃ vault e, s.vault = some (.unlocked vault) ∧ vault.entry key = some e ∧
        ((∃ err, takeClaimInVault ctx s key expected secs = (.error (.err err), s)) ∨
          (ctx.commit ≠ .done ∧ ∃ err file,
            Spilled ctx s (vault.insertEntry (claimedEntry ctx e secs)) file ∧
            takeClaimInVault ctx s key expected secs =
              (.error (.err err), { s with file := file })) ∨
          ((e.casVersion = expected ∧ e.activeClaim (ctx.wall 1) = none ∧ ctx.commit = .done) ∧
            takeClaimInVault ctx s key expected secs =
              (.ok (some ctx.freshToken),
                s.withVault (vault.insertEntry (claimedEntry ctx e secs))
                  (.holds (vault.insertEntry (claimedEntry ctx e secs)))))) := by
  unfold takeClaimInVault
  cases hopen : s.openVault with
  | none => exact Or.inl ⟨notHeld_of_none s hopen, rfl⟩
  | some vault =>
    have hvault := unlocked_of_openVault s hopen
    cases hentry : vault.entry key with
    | none =>
      left
      refine ⟨notHeld_of_entry s hopen hentry, ?_⟩
      simp [hentry]
    | some e =>
      right
      refine ⟨vault, e, hvault, hentry, ?_⟩
      simp only [hentry, Option.isNone_some, Bool.false_eq_true, if_false]
      have hsame : s.withVault vault s.file = s := withVault_same s hvault s.file
      unfold UnlockedVault.claimRefresh
      simp only [hentry]
      by_cases hversion : e.casVersion ≠ expected
      · left
        rw [if_pos hversion]
        simp only [hsame]
        obtain ⟨err, herr⟩ := casMismatch_err e.casVersion
        exact ⟨err, by rw [herr]⟩
      rw [if_neg hversion]
      rw [ne_eq, Decidable.not_not] at hversion
      cases hactive : e.activeClaim (ctx.wall 1) with
      | some active =>
        left
        simp only [hsame]
        obtain ⟨err, herr⟩ := alreadyClaimed_err
          (ceilSecs (Word64.saturatingSub active.expiresAtEpochMs (ctx.wall 2)))
        exact ⟨err, by rw [herr]⟩
      | none =>
        right
        rcases commitThen_stored ctx.commit vault (vault.insertEntry (claimedEntry ctx e secs))
          ctx.freshToken s.file with ⟨hdone, hok⟩ | ⟨hne, err, file, hfile, herr⟩
        · right
          refine ⟨⟨hversion, rfl, hdone⟩, ?_⟩
          unfold claimedEntry at hok ⊢
          simp only [hok]
        · left
          refine ⟨hne, ?_⟩
          unfold claimedEntry at hfile herr ⊢
          simp only [herr, withVault_same s hvault]
          cases err <;> exact ⟨_, file, hfile, rfl⟩

theorem handleClaim_effect (key : String) (expected secs : UInt64)
    (hgate : requireOwner ctx s key = none) :
    Effect ctx s (.kvClaim key expected secs) (handleClaim ctx s key expected secs).1
      (handleClaim ctx s key expected secs).2 := by
  unfold handleClaim
  cases hkey : validateProtocolKey key with
  | some resp =>
    obtain ⟨e, rfl⟩ := stops_validateProtocolKey key resp hkey
    exact .refused _ e
  | none =>
  simp only
  split
  · rename_i resp hownership
    obtain ⟨e, rfl⟩ := vaultOwnership_unavailable ctx s key hownership
    exact .refused _ e
  by_cases hvalue : !s.store.hasValue key
  · rw [if_pos hvalue]
    exact .refused _ _
  rw [if_neg hvalue]
  by_cases hrange : (decide (secs = 0) || decide (maxClaimSecs < secs)) = true
  · rw [if_pos hrange]
    exact .refused _ _
  rw [if_neg hrange]
  by_cases hversion : s.store.versionOf key ≠ expected
  · rw [if_pos hversion]
    obtain ⟨e, he⟩ := casMismatch_err (s.store.versionOf key)
    rw [he]
    exact .refused _ e
  rw [if_neg hversion]
  rw [ne_eq, Decidable.not_not] at hversion
  cases hidle : activeClaimOf s.store key (ctx.wall 0) with
  | some active =>
    obtain ⟨e, he⟩ := alreadyClaimed_err (ceilSecs (active.remainingMs (ctx.wall 0)))
    simp only
    rw [he]
    exact .refused _ e
  | none =>
    simp only
    rcases takeClaimInVault_cases ctx s key (s.store.versionOf key) secs with
      ⟨hnot, htake⟩ | ⟨vault, e, hvault, hheld, hcases⟩
    · rw [htake]
      simp only [setRefreshClaim_controlCap]
      rw [hversion]
      have hclaimed := Effect.claimed key expected secs hnot hversion hidle
      rw [setRefreshClaim_controlCap] at hclaimed
      exact hclaimed
    · rcases hcases with ⟨err, htake⟩ | ⟨hne, err, file, hfile, htake⟩ |
        ⟨⟨hcas, hfree, hdone⟩, htake⟩
      · rw [htake]
        exact .refused _ err
      · rw [htake]
        exact .unclaimed key expected secs err vault e file hvault hheld hne hfile
      · rw [htake]
        have hgranted : ClaimGranted ctx s key expected secs e :=
          ⟨hgate, by simpa using hvalue, by simpa using hrange, hversion, hidle, hcas.trans hversion,
            hfree, hdone⟩
        have hclaimed := Effect.claimedHeld key expected secs vault e hvault hheld hgranted
        simp only [setRefreshClaim_controlCap] at hclaimed ⊢
        rw [hversion]
        exact hclaimed

theorem releaseClaimInVault_cases (key token : String) :
    (NotHeld s key ∧ releaseClaimInVault ctx s key token = (none, s)) ∨
      ∃ vault e, s.vault = some (.unlocked vault) ∧ vault.entry key = some e ∧
        ((∃ err, releaseClaimInVault ctx s key token = (some (.err err), s)) ∨
          (ctx.commit ≠ .done ∧ ∃ err file,
            Spilled ctx s (vault.insertEntry { e with refreshClaim := none }) file ∧
            releaseClaimInVault ctx s key token = (some (.err err), { s with file := file })) ∨
          (∃ next file, (e.refreshClaim = none ∧ next = vault ∧ file = s.file ∨
              next = vault.insertEntry { e with refreshClaim := none } ∧ file = .holds next) ∧
            releaseClaimInVault ctx s key token = (none, s.withVault next file))) := by
  unfold releaseClaimInVault
  cases hopen : s.openVault with
  | none => exact Or.inl ⟨notHeld_of_none s hopen, rfl⟩
  | some vault =>
    have hvault := unlocked_of_openVault s hopen
    cases hentry : vault.entry key with
    | none =>
      left
      refine ⟨notHeld_of_entry s hopen hentry, ?_⟩
      simp [hentry]
    | some e =>
      right
      refine ⟨vault, e, hvault, hentry, ?_⟩
      simp only [hentry, Option.isNone_some, Bool.false_eq_true, if_false]
      cases hparsed : ClaimToken.parse token with
      | none =>
        left
        exact ⟨_, rfl⟩
      | some parsed =>
        have hsame : s.withVault vault s.file = s := withVault_same s hvault s.file
        have hcommit := commitThen_stored ctx.commit vault
          (vault.insertEntry { e with refreshClaim := none }) () s.file
        have hcommitted : ∀ released : Except VaultError Unit × UnlockedVault × Stored,
            released = UnlockedVault.commitThen (Stored.commitTo ctx.commit) vault
              (vault.insertEntry { e with refreshClaim := none }) () s.file →
            (ctx.commit ≠ .done ∧ ∃ err file,
              Spilled ctx s (vault.insertEntry { e with refreshClaim := none }) file ∧
              released = (.error err, vault, file)) ∨
            released = (.ok (), vault.insertEntry { e with refreshClaim := none },
              .holds (vault.insertEntry { e with refreshClaim := none })) := by
          intro released heq
          rw [heq]
          rcases hcommit with ⟨-, hok⟩ | ⟨hne, err, file, hfile, herr⟩
          · exact Or.inr hok
          · exact Or.inl ⟨hne, err, file, hfile, herr⟩
        have hreleased : ∀ released : Except VaultError Unit × UnlockedVault × Stored,
            released = UnlockedVault.releaseClaim (Stored.commitTo ctx.commit) (ctx.wall 1) vault key
              parsed s.file →
            (∃ err, released = (.error err, vault, s.file)) ∨
            (e.refreshClaim = none ∧ released = (.ok (), vault, s.file)) ∨
            (ctx.commit ≠ .done ∧ ∃ err file,
              Spilled ctx s (vault.insertEntry { e with refreshClaim := none }) file ∧
              released = (.error err, vault, file)) ∨
            released = (.ok (), vault.insertEntry { e with refreshClaim := none },
              .holds (vault.insertEntry { e with refreshClaim := none })) := by
          intro released heq
          unfold UnlockedVault.releaseClaim at heq
          simp only [hentry] at heq
          split at heq
          · split at heq
            · rename_i hnone
              exact Or.inr (Or.inl ⟨by simpa using hnone, heq⟩)
            · exact Or.inr (Or.inr (hcommitted released heq))
          · split at heq
            · exact Or.inr (Or.inr (hcommitted released heq))
            · exact Or.inl ⟨_, heq⟩
        rcases hreleased _ rfl with ⟨err, heq⟩ | ⟨hnone, heq⟩ | ⟨hne, err, file, hfile, heq⟩ | heq
        · left
          simp only [heq, hsame]
          exact ⟨_, rfl⟩
        · right
          right
          simp only [heq]
          exact ⟨vault, s.file, Or.inl ⟨hnone, rfl, rfl⟩, rfl⟩
        · right
          left
          simp only [heq, withVault_same s hvault]
          exact ⟨hne, _, file, hfile, rfl⟩
        · right
          right
          simp only [heq]
          exact ⟨_, _, Or.inr ⟨rfl, rfl⟩, rfl⟩

theorem handleUnclaim_effect (key token : String) :
    Effect ctx s (.kvUnclaim key token) (handleUnclaim ctx s key token).1
      (handleUnclaim ctx s key token).2 := by
  unfold handleUnclaim
  cases hkey : validateProtocolKey key with
  | some resp =>
    obtain ⟨e, rfl⟩ := stops_validateProtocolKey key resp hkey
    exact .refused _ e
  | none =>
  simp only
  split
  · rename_i resp hownership
    obtain ⟨e, rfl⟩ := vaultOwnership_unavailable ctx s key hownership
    exact .refused _ e
  split
  · exact .refused _ _
  rename_i hfence
  have hfree : ∀ c ∈ activeClaimOf s.store key (ctx.wall 0), claimTokenMatches c.token token := by
    intro c hc
    rw [Option.mem_def] at hc
    simpa [hc] using hfence
  rcases releaseClaimInVault_cases ctx s key token with
    ⟨hnot, hrelease⟩ | ⟨vault, e, hvault, hheld, hcases⟩
  · rw [hrelease]
    have hreleased := Effect.released key token hnot hfree
    simp only [clearRefreshClaim_eq s.store s.store.checkCap_controlCap] at hreleased ⊢
    exact hreleased
  · rcases hcases with ⟨err, hrelease⟩ | ⟨hne, err, file, hfile, hrelease⟩ |
      ⟨next, file, hnext, hrelease⟩
    · rw [hrelease]
      exact .refused _ err
    · rw [hrelease]
      exact .unreleased key token err vault e file hvault hheld hne hfile
    · rw [hrelease]
      have hreleased := Effect.releasedHeld key token vault next e file hvault hheld hfree hnext
      have hclear : (s.withVault next file).store.clearRefreshClaim key
          (s.withVault next file).store.controlCap =
          (.ok (s.store.refreshClaims[key]?).isSome,
            { s.store with refreshClaims := s.store.refreshClaims.erase key }) :=
        clearRefreshClaim_eq s.store s.store.checkCap_controlCap key
      simp only [hclear]
      rw [clearRefreshClaim_eq s.store s.store.checkCap_controlCap] at hreleased
      exact hreleased

theorem handleDefine_effect (key : String) (source : SourceSpecWire) (soft hard : Option UInt64)
    (valueMeta : ValueMetaWire) :
    Effect ctx s (.kvDefine key source soft hard valueMeta)
      (handleDefine s key source soft hard valueMeta).1
      (handleDefine s key source soft hard valueMeta).2 := by
  unfold handleDefine
  cases hkey : validateProtocolKey key with
  | some resp =>
    obtain ⟨e, rfl⟩ := stops_validateProtocolKey key resp hkey
    exact .refused _ e
  | none =>
  cases hns : rejectReservedNamespaceWrite key with
  | some resp =>
    obtain ⟨e, rfl⟩ := stops_rejectReservedNamespaceWrite key resp hns
    exact .refused _ e
  | none =>
  cases source.validate with
  | error e => exact .refused _ _
  | ok u =>
  cases Ttl.new (soft.map Duration.fromSecs) (hard.map Duration.fromSecs) with
  | error e => exact .refused _ _
  | ok ttl =>
    simp only
    have hfail : ∀ e, (s.store.defineWithMeta key source.lower ttl (metaFromWire valueMeta)
        source.toSourceMeta).1 = .error e →
        (s.store.defineWithMeta key source.lower ttl (metaFromWire valueMeta)
          source.toSourceMeta).2 = s.store := by
      intro e he
      rcases s.store.defineWithMeta_cases key source.lower ttl (metaFromWire valueMeta)
        source.toSourceMeta with ⟨⟨e', heq⟩, -⟩ | ⟨-, d, -, ⟨-, heq⟩ | ⟨-, heq⟩⟩
      · rw [heq]
      · rw [heq]
      · rw [heq] at he
        cases he
    have hdefined : _ → Effect ctx s (.kvDefine key source soft hard valueMeta) _ _ :=
      Effect.defined key source soft hard valueMeta ttl
    rcases hresult : s.store.defineWithMeta key source.lower ttl (metaFromWire valueMeta)
      source.toSourceMeta with ⟨result, store⟩
    rw [hresult] at hfail hdefined
    cases result with
    | ok u => exact hdefined rfl
    | error e =>
      have hstore : store = s.store := hfail e rfl
      rw [hstore]
      cases e <;> exact .refused _ _

section Reading

variable {ctx s}

/-- What a get may leave: a store it has read, the calls it made for it, and,
where it hands out a value, one the store holds. -/
def GetEffect (ctx : HandlerCtx) (s : State) (key : String) (t : Monotonic)
    (out : Response × State) : Prop :=
  ∃ store calls, out.2 = { s with store := store, log := s.log ++ calls } ∧
    Reads ctx.runner key t ctx.clock.last s.store store ∧
    Origin ctx.runner calls key s.store store ∧
    ∀ v, out.1 = .ok (.get v) → ∃ seed,
      (store.entries[key]?).bind CacheEntry.value = some seed ∧
        if metaIsOtp (metaOf store key) then ctx.deriveCode seed (metaOf store key) = .ok v
        else v = seed

theorem GetEffect.of_calls {key : String} {t u : Monotonic} {store : Store}
    {calls : List ExternalCall} {out : Response × State}
    (hreads : Reads ctx.runner key t u s.store store)
    (horigin : Origin ctx.runner calls key s.store store)
    (h : GetEffect ctx { s with store := store, log := s.log ++ calls } key u out) :
    GetEffect ctx s key t out := by
  obtain ⟨store', calls', hout, hreads', horigin', hvalue⟩ := h
  refine ⟨store', calls ++ calls', ?_, hreads.trans hreads', horigin.trans horigin', hvalue⟩
  rw [hout, ← List.append_assoc]

/-- A stretch of the get that calls nothing outside. -/
theorem GetEffect.of_reads {key : String} {t u : Monotonic} {store : Store}
    {out : Response × State}
    (hreads : ∀ runner, Reads runner key t u s.store store)
    (h : GetEffect ctx { s with store := store } key u out) : GetEffect ctx s key t out := by
  have horigin : Origin ctx.runner [] key s.store store := .of_reads (hreads _)
  refine of_calls (hreads _) horigin ?_
  rw [List.append_nil]
  exact h

theorem getEffect_err {key : String} {t : Monotonic} (ht : t ≤ ctx.clock.last) (e : WireError) :
    GetEffect ctx s key t (.err e, s) := by
  refine ⟨s.store, [], ?_, .refl s.store ht, .of_reads (.refl s.store ht), by rintro v ⟨⟩⟩
  rw [List.append_nil]

theorem finishGet_effect {key : String} (dryRun : Bool) (now : Monotonic) {t : Monotonic}
    (ht : t ≤ ctx.clock.last) : GetEffect ctx s key t (finishGet ctx s key dryRun now) := by
  have hreads := fun runner => s.store.get_reads key s.store.controlCap runner now ht
  have hvalue : ∀ v, (s.store.get key s.store.controlCap now).1 = .ok (some v) →
      ((s.store.get key s.store.controlCap now).2.entries[key]?).bind CacheEntry.value = some v := by
    intro v hv
    unfold Store.get at hv ⊢
    simp only [checkCap_controlCap] at hv ⊢
    cases he : s.store.entries[key]? with
    | none => simp [he] at hv
    | some e =>
      simp only [he, Except.ok.injEq] at hv
      obtain ⟨hactive, hsome⟩ := CacheEntry.get_some hv
      have hsame : (e.get now).2 = e := by
        rw [CacheEntry.get_snd, CacheEntry.evaluate_snd, hactive]
        rfl
      simp only [hsame, putEntry, KeyMap.get_insert_self, Option.bind_some, hsome]
  unfold finishGet
  simp only
  refine ⟨(s.store.get key s.store.controlCap now).2, [], ?_, hreads _, .of_reads (hreads _), ?_⟩
  · rw [List.append_nil]
    split
    · split
      · rfl
      · rfl
      · split <;> rfl
    · split <;> rfl
  · intro v hv
    by_cases hotp : metaIsOtp (metaOf (s.store.get key s.store.controlCap now).2 key) = true
    · rw [if_pos (show metaIsOtp (metaOf (s.withStore
        (s.store.get key s.store.controlCap now).2).store key) = true from hotp)] at hv
      split at hv
      · cases hv
      · cases hv
      · rename_i seed hseed
        split at hv
        · cases hv
        · rename_i code hcode
          refine ⟨seed, hvalue seed hseed, ?_⟩
          rw [if_pos hotp]
          cases dryRun with
          | true => cases hv
          | false =>
            cases hv
            exact hcode
    · rw [if_neg (show ¬ metaIsOtp (metaOf (s.withStore
        (s.store.get key s.store.controlCap now).2).store key) = true from hotp)] at hv
      split at hv
      · rename_i seed hseed
        refine ⟨seed, hvalue seed hseed, ?_⟩
        rw [if_neg hotp]
        cases dryRun with
        | true => cases hv
        | false =>
          cases hv
          rfl
      · cases hv

theorem getAgain_effect {key : String} (dryRun : Bool) (gone : String) {t : Monotonic}
    (ht : t ≤ ctx.clock.last) : GetEffect ctx s key t (getAgain ctx s key dryRun gone) := by
  have hreads := fun runner =>
    s.store.get_reads key s.store.controlCap runner (ctx.clock.now 5) (Monotonic.le_refl t)
  unfold getAgain
  simp only
  split
  · exact .of_reads hreads (finishGet_effect dryRun _ ht)
  · exact .of_reads hreads (getEffect_err ht _)

theorem lazyGenerate_effect {key : String} (dryRun : Bool) {t : Monotonic}
    (ht : t ≤ ctx.clock.now 2) : GetEffect ctx s key t (lazyGenerate ctx s key dryRun) := by
  have hreads := s.store.getOrRegenerate_reads key s.store.controlCap ctx.runner ctx.auth
    ctx.requester (ctx.clock.after 2)
  have hlast := ctx.clock.le_last 4
  apply GetEffect.of_reads fun _ => .refl s.store ht
  apply GetEffect.of_calls hreads (getOrRegenerate_origin ctx.auth _ _ _)
  unfold lazyGenerate
  simp only
  split
  · exact getAgain_effect dryRun _ hlast
  · exact getEffect_err hlast _
  · exact getAgain_effect dryRun _ hlast
  all_goals exact getEffect_err hlast _

theorem extendAndGet_effect {key : String} (dryRun : Bool) {t : Monotonic}
    (ht : t ≤ ctx.clock.now 2) : GetEffect ctx s key t (extendAndGet ctx s key dryRun) := by
  have hreads := fun runner => s.store.extendAuthenticated_reads key s.store.controlCap runner
    ctx.auth ctx.requester (ctx.clock.after 2)
  have hlast := ctx.clock.le_last 4
  apply GetEffect.of_reads fun _ => .refl s.store ht
  apply GetEffect.of_calls (hreads _) (.of_reads (hreads _))
  unfold extendAndGet
  simp only
  split
  · exact getAgain_effect dryRun _ hlast
  all_goals exact getEffect_err hlast _

theorem regenerateAndGet_effect {key : String} (dryRun : Bool) {t : Monotonic}
    (ht : t ≤ ctx.clock.now 2) : GetEffect ctx s key t (regenerateAndGet ctx s key dryRun) := by
  have hreads := s.store.regenerate_reads key s.store.controlCap ctx.runner ctx.auth
    ctx.requester (ctx.clock.after 2)
  have hlast := ctx.clock.le_last 4
  apply GetEffect.of_reads fun _ => .refl s.store ht
  apply GetEffect.of_calls hreads (regenerate_origin ctx.auth _ _ _)
  unfold regenerateAndGet
  simp only
  split
  · exact getAgain_effect dryRun _ hlast
  all_goals exact getEffect_err hlast _

theorem stops_gateGet (key : String) : Stops (gateGet ctx s key) := by
  intro resp h
  unfold gateGet at h
  split at h
  · rename_i hns
    cases h
    exact stops_rejectReservedNamespaceRead key _ hns
  split at h
  · rename_i howner
    cases h
    exact stops_requireOwner ctx s key _ howner
  split at h
  · cases h
    exact ⟨_, rfl⟩
  split at h
  · split at h
    · cases h
      exact ⟨_, rfl⟩
    · split at h <;> cases h
      exact ⟨_, rfl⟩
  · cases h

theorem retrieve_effect {key : String} (dryRun : Bool) :
    GetEffect ctx s key (ctx.clock.now 0) (retrieve ctx s key dryRun) := by
  have hreads := fun runner => s.store.get_reads key s.store.controlCap runner (ctx.clock.now 0)
    (Monotonic.le_refl (ctx.clock.now 0))
  have hlast := ctx.clock.le_last 0
  have h2 := ctx.clock.now_mono (Nat.zero_le 2)
  unfold retrieve
  simp only
  split
  · exact .of_reads hreads (finishGet_effect dryRun _ hlast)
  apply GetEffect.of_reads hreads
  have hstate := fun runner => (s.store.get key s.store.controlCap (ctx.clock.now 0)).2.stateOf_reads
    key runner (ctx.clock.now 1) (Monotonic.le_refl (ctx.clock.now 0))
  apply GetEffect.of_reads hstate
  split
  · split
    · rename_i resp hownership
      obtain ⟨e, rfl⟩ := vaultOwnership_unavailable ctx _ key hownership
      exact getEffect_err hlast e
    · split
      · exact lazyGenerate_effect dryRun h2
      · split <;> exact getEffect_err hlast _
  · exact getEffect_err hlast _
  · exact extendAndGet_effect dryRun h2
  · split
    · exact lazyGenerate_effect dryRun h2
    · exact regenerateAndGet_effect dryRun h2

end Reading

theorem handleGet_effect (key : String) (dryRun : Bool) :
    Effect ctx s (.kvGet key dryRun) (handleGet ctx s key dryRun).1
      (handleGet ctx s key dryRun).2 := by
  unfold handleGet
  cases hgate : gateGet ctx s key with
  | some resp =>
    obtain ⟨e, rfl⟩ := stops_gateGet key resp hgate
    exact .refused _ e
  | none =>
    obtain ⟨store, calls, hout, hreads, horigin, hvalue⟩ :
      GetEffect ctx s key (ctx.clock.now 0) (retrieve ctx s key dryRun) := retrieve_effect dryRun
    simp only
    rw [hout]
    exact .read key dryRun _ store calls hreads hvalue horigin

theorem handlePin_effect (key : String) (secs : UInt64) :
    Effect ctx s (.kvPin key secs) (handlePin ctx s key secs).1 (handlePin ctx s key secs).2 := by
  have hreads : ∀ runner, Reads runner key (ctx.clock.now 0) ctx.clock.last s.store
      (s.store.pinAuthenticated key ((ctx.clock.now 0).saturatingAdd (Duration.fromSecs secs))
        ctx.auth ctx.requester s.store.controlCap (ctx.clock.after 1)).2 := fun runner =>
    s.store.pinAuthenticated_reads key s.store.controlCap runner ctx.auth ctx.requester _
      (ctx.clock.after 1) (ctx.clock.le_last 0)
  unfold handlePin
  simp only
  split <;> exact .pinned key secs _ _ _ (hreads _) (.of_reads (hreads _))

theorem handleUnpin_effect (key : String) :
    Effect ctx s (.kvUnpin key) (handleUnpin s key).1 (handleUnpin s key).2 := by
  have hreads : ∀ runner, Reads runner key (ctx.clock.now 0) ctx.clock.last s.store
      (s.store.unpin key s.store.controlCap).2 := fun runner =>
    s.store.unpin_reads key s.store.controlCap runner (ctx.clock.le_last 0)
  unfold handleUnpin
  rcases hresult : s.store.unpin key s.store.controlCap with ⟨result, store⟩
  rw [hresult] at hreads
  rcases result with e | removed
  · exact .unpinned key _ _ (hreads _) (.of_reads (hreads _))
  · cases removed <;> exact .unpinned key _ _ (hreads _) (.of_reads (hreads _))

theorem handleOwnerClear_effect (key : String) (hgate : requireOwner ctx s key = none) :
    Effect ctx s (.kvOwnerClear key) (handleOwnerClear s key).1 (handleOwnerClear s key).2 := by
  have hclear : s.store.clearOwner key s.store.controlCap =
      (.ok (s.store.owners[key]?).isSome,
        { s.store with owners := s.store.owners.erase key }) := by
    unfold clearOwner
    rw [checkCap_controlCap]
  unfold handleOwnerClear
  cases howner : s.store.owners[key]? with
  | none =>
    have hsame : ({ s.store with owners := s.store.owners.erase key } : Store) = s.store := by
      rw [KeyMap.erase_of_none howner]
    rw [hclear, howner, hsame]
    exact .refused _ _
  | some owner =>
    have hsome : (s.store.ownerOf key).isSome := by
      rw [show s.store.ownerOf key = some owner from howner]
      rfl
    have hcleared := Effect.ownerCleared key hgate hsome
    rw [hclear, howner] at hcleared ⊢
    exact hcleared

theorem ownerOnly_effect {req : Request} (key : String) {out : Response × State}
    (h : requireOwner ctx s key = none → Effect ctx s req out.1 out.2) :
    Effect ctx s req (ownerOnly ctx s key out).1 (ownerOnly ctx s key out).2 := by
  unfold ownerOnly
  cases hgate : requireOwner ctx s key with
  | some resp =>
    obtain ⟨e, rfl⟩ := stops_requireOwner ctx s key resp hgate
    exact .refused _ e
  | none => exact h hgate

/-- Every request has one of the effects listed. -/
theorem handleRequest_effect (req : Request) :
    Effect ctx s req (handleRequest ctx s req).1 (handleRequest ctx s req).2 := by
  cases req with
  | ping => exact .pong
  | kvSet r => exact handleKvSet_effect ctx s r
  | kvDefine key source soft hard valueMeta =>
    exact ownerOnly_effect ctx s key fun _ =>
      handleDefine_effect ctx s key source soft hard valueMeta
  | kvGet key dryRun => exact handleGet_effect ctx s key dryRun
  | kvDel key withDefine => exact ownerOnly_effect ctx s key (handleDel_effect ctx s key withDefine)
  | kvPin key secs => exact ownerOnly_effect ctx s key fun _ => handlePin_effect ctx s key secs
  | kvUnpin key => exact ownerOnly_effect ctx s key fun _ => handleUnpin_effect ctx s key
  | kvClaim key expected secs =>
    exact ownerOnly_effect ctx s key (handleClaim_effect ctx s key expected secs)
  | kvUnclaim key token =>
    exact ownerOnly_effect ctx s key fun _ => handleUnclaim_effect ctx s key token
  | kvOwnerClear key => exact ownerOnly_effect ctx s key (handleOwnerClear_effect ctx s key)
  | vaultInit => exact handleVaultInit_effect ctx s
  | vaultUnlock code =>
    cases code with
    | none => exact .refused _ _
    | some recoveryCode => exact handleVaultUnlock_effect ctx s recoveryCode
  | vaultLock => exact handleVaultLock_effect ctx s
  | vaultAddPasskey => exact .refused _ _
  | restartGraceful => exact .refused _ _

end Handlers

end Daemon

end CacheWarden
