import CacheWarden.Daemon.Counter
import CacheWarden.Daemon.Restarts

/-!
# One version, counted twice

The store counts the writes of a key, and so does the vault for an entry it
holds, each from its own number. The two stay in step in a run whose writes to
the key all reach both, and then nothing that was acknowledged is lost with the
process.
-/

set_option autoImplicit false

namespace CacheWarden

namespace Daemon

open Vault Store Transition

/-- The entry of a key in the file. -/
def Stored.entry (file : Stored) (k : String) : Option VaultEntry :=
  match file with
  | .holds vault => vault.entry k
  | _ => none

/-- What of an entry the count of a key rests on: its version, and what decides
whether it comes back. -/
def counted (e : VaultEntry) :
    UInt64 × String × Option (JsonSlot SnapshotGuard) × Option (JsonSlot OwnerPrincipal) :=
  (e.casVersion, e.key, e.guard, e.owner)

/-- Two copies of the entry of one key count alike. -/
def Alike (a b : Option VaultEntry) : Prop := a.map counted = b.map counted

/-- The count of the key: the file has no version behind the store's, and the open
vault has exactly the store's. -/
structure Counts (k : String) (s : State) : Prop where
  readable : ∀ e, s.file.entry k = some e → Restorable e
  bounded : ∀ e, s.file.entry k = some e → s.store.versionOf k ≤ e.casVersion
  copy : ∀ vault, s.vault = some (.unlocked vault) → Alike (vault.entry k) (s.file.entry k)
  equal : ∀ vault, s.vault = some (.unlocked vault) → ∀ e, vault.entry k = some e →
    s.store.versionOf k = e.casVersion

/-- A set of the key that is let through leaves the counts in step: a persisted
one finds the vault's entry, or no version in its absence, and reaches the
vault; another finds no entry in the open vault, and a version in the file that
is still ahead. -/
structure SetInStep (ctx : HandlerCtx) (s : State) (r : SetRequest) : Prop where
  persisted : ∀ plan vault, Accepts ctx s r plan true → s.vault = some (.unlocked vault) →
    (vault.entry r.key = none → s.store.versionOf r.key = 0) ∧ WritesThrough ctx s r plan vault
  cached : ∀ plan, Accepts ctx s r plan false →
    (∀ vault, s.openVault = some vault → ¬ Holds vault r.key) ∧
      (s.openVault = none → ∀ e, s.file.entry r.key = some e →
        s.store.versionOf r.key < e.casVersion)

/-- The condition on one request. -/
def CountKept (k : String) (ctx : HandlerCtx) (s : State) : Request → Prop
  | .kvSet r => r.key = k → SetInStep ctx s r
  | .kvDel key _ => key = k → ∀ vault, s.openVault = some vault → Holds vault k →
      ∀ e, ctx.commit ≠ .failed e true
  | _ => True

section Copies

variable {a b c : Option VaultEntry} {e : VaultEntry}

theorem alike_refl (a : Option VaultEntry) : Alike a a := rfl

theorem Alike.symm (h : Alike a b) : Alike b a := Eq.symm h

theorem Alike.trans (h : Alike a b) (h' : Alike b c) : Alike a c := Eq.trans h h'

theorem Alike.some (h : Alike a b) (ha : a = some e) :
    ∃ e', b = Option.some e' ∧ e'.casVersion = e.casVersion ∧ (Restorable e' → Restorable e) := by
  subst ha
  cases b with
  | none => cases h
  | some e' =>
    unfold Alike counted at h
    simp only [Option.map_some, Option.some.injEq, Prod.mk.injEq] at h
    obtain ⟨hcas, hkey, hguard, howner⟩ := h
    refine ⟨e', rfl, hcas.symm, fun hr => ⟨?_, ?_, ?_⟩⟩
    · rw [hkey]
      exact hr.valid
    · rw [hguard]
      exact hr.guard
    · rw [howner]
      exact hr.owner

/-- A claim on an entry does not count. -/
theorem alike_claim {vault : UnlockedVault} {key : String} (h : vault.entry key = some e)
    (claim : Option Claim) (k : String) :
    Alike ((vault.insertEntry { e with refreshClaim := claim }).entry k) (vault.entry k) := by
  have hkey := UnlockedVault.key_of_entry h
  rw [UnlockedVault.entry_insertEntry]
  by_cases hk : e.key = k
  · rw [if_pos (show ({ e with refreshClaim := claim } : VaultEntry).key = k from hk)]
    rw [show k = key from hk.symm.trans hkey, h]
    rfl
  · rw [if_neg (show ({ e with refreshClaim := claim } : VaultEntry).key ≠ k from hk)]
    exact alike_refl _

end Copies

section Step

variable {ctx : HandlerCtx} {s s' : State} {k : String} {vault next : UnlockedVault}

/-- Nothing that counts has changed. -/
theorem Counts.same (h : Counts k s) (hversion : s'.store.versionOf k = s.store.versionOf k)
    (hvault : s'.vault = s.vault) (hfile : s'.file = s.file) : Counts k s' where
  readable := by
    rw [hfile]
    exact h.readable
  bounded := by
    rw [hfile, hversion]
    exact h.bounded
  copy := by
    rw [hfile, hvault]
    exact h.copy
  equal := by
    rw [hvault, hversion]
    exact h.equal

/-- The open vault and the file were replaced together. -/
theorem Counts.replaced (hvault : s'.vault = some (.unlocked next)) (hfile : s'.file = .holds next)
    (hnext : ∀ e, next.entry k = some e → Restorable e ∧ s'.store.versionOf k = e.casVersion) :
    Counts k s' where
  readable e he := by
    rw [hfile] at he
    exact (hnext e he).1
  bounded e he := by
    rw [hfile] at he
    rw [(hnext e he).2]
    exact UInt64.le_refl _
  copy v hv := by
    rw [hvault] at hv
    cases hv
    rw [hfile]
    exact alike_refl _
  equal v hv e he := by
    rw [hvault] at hv
    cases hv
    exact (hnext e he).2

/-- They were, with a copy that counts alike. -/
theorem Counts.copied (h : Counts k s) (hopen : s.vault = some (.unlocked vault))
    (hnext : Alike (next.entry k) (vault.entry k))
    (hversion : s'.store.versionOf k = s.store.versionOf k)
    (hvault : s'.vault = some (.unlocked next)) (hfile : s'.file = .holds next) : Counts k s' := by
  refine Counts.replaced hvault hfile fun e he => ?_
  obtain ⟨e', he', hcas, hread⟩ := hnext.some he
  obtain ⟨e'', he'', -, hread'⟩ := (h.copy vault hopen).some he'
  refine ⟨hread (hread' (h.readable e'' he'')), ?_⟩
  rw [hversion, h.equal vault hopen e' he', hcas]

/-- A commit that failed left the file, or one that counts alike. -/
theorem Counts.spilled (h : Counts k s) (hopen : s.vault = some (.unlocked vault))
    (hnext : Alike (next.entry k) (vault.entry k))
    (hversion : s'.store.versionOf k = s.store.versionOf k) (hvault : s'.vault = s.vault)
    (hfile : Spilled ctx s next s'.file) : Counts k s' := by
  rcases hfile.cases with hsame | hnew
  · exact h.same hversion hvault hsame
  have hlike : Alike (s'.file.entry k) (s.file.entry k) := by
    rw [hnew]
    exact hnext.trans (h.copy vault hopen)
  refine ⟨fun e he => ?_, fun e he => ?_, fun v hv => ?_, fun v hv => ?_⟩
  · obtain ⟨e', he', -, hread⟩ := hlike.some he
    exact hread (h.readable e' he')
  · obtain ⟨e', he', hcas, -⟩ := hlike.some he
    rw [hversion, ← hcas]
    exact h.bounded e' he'
  · rw [hvault] at hv
    exact (h.copy v hv).trans hlike.symm
  · rw [hvault] at hv
    rw [hversion]
    exact h.equal v hv

/-- Nothing in the file counts for the key, nor in the open vault. -/
theorem Counts.absent (hfile : s'.file.entry k = none)
    (hvault : ∀ v, s'.vault = some (.unlocked v) → v.entry k = none) : Counts k s' where
  readable e he := by
    rw [hfile] at he
    cases he
  bounded e he := by
    rw [hfile] at he
    cases he
  copy v hv := by
    rw [hfile, hvault v hv]
    exact alike_refl _
  equal v hv e he := by
    rw [hvault v hv] at he
    cases he

/-- The open vault does not hold the key, so neither does the file. -/
theorem Counts.unheld (h : Counts k s) (hopen : s.vault = some (.unlocked vault))
    (hnone : vault.entry k = none) : s.file.entry k = none := by
  cases he : s.file.entry k with
  | none => rfl
  | some e =>
    obtain ⟨e', he', -⟩ := (h.copy vault hopen).symm.some he
    rw [hnone] at he'
    cases he'

/-- The version of a closed vault's key stays behind the file's. -/
theorem Counts.closed (h : Counts k s) (hclosed : s.openVault = none)
    (hversion : ∀ e, s.file.entry k = some e → s'.store.versionOf k ≤ e.casVersion)
    (hvault : s'.vault = s.vault) (hfile : s'.file = s.file) : Counts k s' := by
  have hlocked : ∀ v, s'.vault ≠ some (.unlocked v) := by
    intro v hv
    rw [hvault] at hv
    rw [openVault_of_unlocked s hv] at hclosed
    cases hclosed
  refine ⟨?_, ?_, fun v hv => absurd hv (hlocked v), fun v hv => absurd hv (hlocked v)⟩
  · rw [hfile]
    exact h.readable
  · rw [hfile]
    exact hversion

theorem Counts.cached {r : SetRequest} {plan : SetPlan} (h : Counts k s) (hk : r.key = k)
    (hkept : SetInStep ctx s r) (haccepts : Accepts ctx s r plan false) :
    Counts k (s.withStore (plan.store ctx s r.key)) := by
  subst hk
  obtain ⟨hopened, hclosed⟩ := hkept.cached plan haccepts
  cases hopen : s.openVault with
  | some vault =>
    have hvault := unlocked_of_openVault s hopen
    have hnone : vault.entry r.key = none := by
      have hunheld := hopened vault hopen
      unfold Holds at hunheld
      exact Option.not_isSome_iff_eq_none.mp hunheld
    refine Counts.absent (h.unheld hvault hnone) fun v hv => ?_
    rw [show s.vault = some (.unlocked v) from hv] at hvault
    cases hvault
    exact hnone
  | none =>
    refine h.closed hopen (fun e he => ?_) rfl rfl
    show (plan.store ctx s r.key).versionOf r.key ≤ _
    rw [versionOf_plan, if_pos rfl]
    have hlt := hclosed hopen e he
    rw [UInt64.le_iff_toNat_le, Word64.toNat_saturatingAdd]
    rw [UInt64.lt_iff_toNat_lt] at hlt
    have hone : (1 : UInt64).toNat = 1 := rfl
    omega

theorem Counts.persisted {r : SetRequest} {plan : SetPlan} (h : Counts k s) (hk : r.key = k)
    (hkept : SetInStep ctx s r) (haccepts : Accepts ctx s r plan true)
    (hvault : s.vault = some (.unlocked vault)) :
    Counts k ((s.withStore (plan.store ctx s r.key)).withVault
      (writtenVault ctx vault (plan.store ctx s r.key) r.key plan.bytes)
      (.holds (writtenVault ctx vault (plan.store ctx s r.key) r.key plan.bytes))) := by
  subst hk
  refine Counts.replaced rfl rfl fun e he => ?_
  rw [writtenVault_entry, if_pos rfl] at he
  cases he
  refine ⟨restorable_entryFor _ _ _ _ haccepts.valid, ?_⟩
  have hcas : s.store.versionOf r.key = vault.casOf r.key := by
    cases hheld : vault.entry r.key with
    | none =>
      rw [UnlockedVault.casOf_of_none hheld]
      exact (hkept.persisted plan vault haccepts hvault).1 hheld
    | some e =>
      rw [UnlockedVault.casOf_of_entry hheld]
      exact h.equal vault hvault e hheld
  show (plan.store ctx s r.key).versionOf r.key = Word64.saturatingAdd (vault.casOf r.key) 1
  rw [versionOf_plan, if_pos rfl, hcas]

theorem Counts.opened {clock : Clock} {wall : ℕ → UInt64} (h : Counts k s)
    (hvault : s.vault = some (.unlocked vault) ∨ s.vault = some .locked ∧ s.file = .holds vault) :
    Counts k { s with
      vault := some (.unlocked vault)
      store := (installVaultEntries s.store s.store.controlCap clock wall vault).2 } := by
  have hcopy : Alike (vault.entry k) (s.file.entry k) := by
    rcases hvault with hopen | ⟨-, hfile⟩
    · exact h.copy vault hopen
    · rw [hfile]
      exact alike_refl _
  have hversion : ∀ e, vault.entry k = some e →
      (installVaultEntries s.store s.store.controlCap clock wall vault).2.versionOf k =
        e.casVersion := by
    intro e he
    obtain ⟨e', he', hcas, hread⟩ := hcopy.some he
    have hbounded := h.bounded e' he'
    rw [hcas] at hbounded
    have hinstalled := versionOf_installed s.store clock wall vault k
    rw [he] at hinstalled
    rw [hinstalled]
    simp only
    rw [if_pos (hread (h.readable e' he'))]
    exact Word64.max_eq_of_le hbounded
  refine ⟨h.readable, fun e he => ?_, fun v hv => ?_, fun v hv e he => ?_⟩
  · obtain ⟨e', he', hcas, -⟩ := hcopy.symm.some he
    have hsame := hversion e' he'
    rw [hcas] at hsame
    rw [show State.store _ = _ from rfl, hsame]
    exact UInt64.le_refl _
  · cases hv
    exact hcopy
  · cases hv
    exact hversion e he

theorem Counts.deleted {key : String} {withDefine : Bool} (h : Counts k s)
    (hunrelated : vaultOwnership ctx s key = .unrelated) :
    Counts k (s.withStore
      (if withDefine then (s.store.deleteWithDefinition key s.store.controlCap).2
        else (s.store.delete key s.store.controlCap).2)) := by
  have hversion := versionOf_deletion s.store key k withDefine
  by_cases hk : key = k ∧ withDefine = true
  · rw [if_pos hk] at hversion
    obtain ⟨rfl, -⟩ := hk
    cases hopen : s.openVault with
    | some vault =>
      have hvault := unlocked_of_openVault s hopen
      have hnone : vault.entry key = none :=
        Option.not_isSome_iff_eq_none.mp (entry_of_unrelated hvault hunrelated)
      refine Counts.absent (h.unheld hvault hnone) fun v hv => ?_
      rw [show s.vault = some (.unlocked v) from hv] at hvault
      cases hvault
      exact hnone
    | none =>
      refine h.closed hopen (fun e _ => ?_) rfl rfl
      show (if withDefine then _ else _ : Store).versionOf key ≤ _
      rw [hversion]
      exact UInt64.zero_le
  · rw [if_neg hk] at hversion
    exact h.same hversion rfl rfl

/-- What one request preserves. -/
theorem counts_effect {req : Request} {resp : Response} (h : Counts k s)
    (hkept : CountKept k ctx s req) (heffect : Effect ctx s req resp s') : Counts k s' := by
  have hother : ∀ {plan : SetPlan} {key : String}, key ≠ k →
      (plan.store ctx s key).versionOf k = s.store.versionOf k :=
    fun hk => (versionOf_plan _ ctx s _ k).trans (if_neg hk)
  have hwritten : ∀ {plan : SetPlan} {vault : UnlockedVault} {key : String}, key ≠ k →
      Alike ((writtenVault ctx vault (plan.store ctx s key) key plan.bytes).entry k)
        (vault.entry k) := by
    intro plan vault key hk
    rw [writtenVault_entry, if_neg hk]
    exact alike_refl _
  cases heffect with
  | refused | pong | stayedClosed => exact h
  | cached r plan owner haccepts =>
    by_cases hk : r.key = k
    · exact h.cached hk (hkept hk) haccepts
    · exact h.same (hother hk) rfl rfl
  | persisted r plan owner vault haccepts hvault hallowed =>
    by_cases hk : r.key = k
    · exact h.persisted hk (hkept hk) haccepts hvault
    · exact h.copied hvault (hwritten hk) (hother hk) rfl rfl
  | unwritable r plan err haccepts he =>
    by_cases hk : r.key = k
    · obtain ⟨vault, hvault⟩ := unlocked_of_gateSet ctx s haccepts.gate
      obtain ⟨e, hentry⟩ := ((hkept hk).persisted plan vault haccepts hvault).2.entry
      exact absurd hentry (he e)
    · exact h.same (hother hk) rfl rfl
  | fenced r plan err vault existing cause haccepts hvault hheld hcheck =>
    by_cases hk : r.key = k
    · have hallowed := ((hkept hk).persisted plan vault haccepts hvault).2.allowed
      rw [hallowed existing hheld] at hcheck
      cases hcheck
    · exact h.same (hother hk) rfl rfl
  | uncommitted r plan err vault file haccepts hvault hcommit hfile =>
    by_cases hk : r.key = k
    · exact absurd ((hkept hk).persisted plan vault haccepts hvault).2.commit hcommit
    · exact h.spilled hvault (hwritten hk) (hother hk) rfl hfile
  | created vault code hempty hfile hstate =>
    refine Counts.replaced rfl rfl fun e he => ?_
    rw [UnlockedVault.entry, hempty, KeyMap.get_empty] at he
    cases he
  | uncreated e file hstate hfile =>
    refine Counts.absent ?_ fun v hv => ?_
    · show file.entry k = none
      cases hstored : file with
      | holds v =>
        show v.entry k = none
        rw [UnlockedVault.entry, hfile.2 v hstored, KeyMap.get_empty]
      | absent => rfl
      | damaged e => rfl
    · rw [show s.vault = some (.unlocked v) from hv] at hstate
      cases hstate
  | opened code vault hvault => exact h.opened hvault
  | closed vault state hvault hstate =>
    have hversion := versionOf_deletedAll s.store vault.entries.keys k
    have hlocked : ∀ v, some state ≠ some (.unlocked v) := by
      intro v hv
      rcases hstate with ⟨rfl, -⟩ | ⟨rfl, -⟩ <;> cases hv
    refine ⟨h.readable, fun e he => ?_, fun v hv => absurd hv (hlocked v),
      fun v hv => absurd hv (hlocked v)⟩
    show (deleteAll _ _ _).versionOf k ≤ _
    rw [hversion]
    exact h.bounded e he
  | deleted key withDefine removed hunrelated hgate => exact h.deleted hunrelated
  | deletedHeld key withDefine vault hvault hheld =>
    by_cases hk : key = k
    · subst hk
      have hgone : (vault.eraseEntry key).entry key = none := by
        rw [UnlockedVault.entry_eraseEntry, if_pos rfl]
      refine Counts.absent hgone fun v hv => ?_
      cases hv
      exact hgone
    · refine h.copied hvault ?_ ((versionOf_removed s.store key k).trans (if_neg hk)) rfl rfl
      rw [UnlockedVault.entry_eraseEntry, if_neg hk]
      exact alike_refl _
  | undeleted key withDefine e vault file hvault hheld hcommit hfile =>
    by_cases hk : key = k
    · subst hk
      have hlost := hkept rfl vault (openVault_of_unlocked s hvault) hheld
      have hsame : file = s.file := by
        unfold Spilled at hfile
        rw [hfile]
        cases houtcome : ctx.commit with
        | done => exact absurd houtcome hcommit
        | failed e landed =>
          cases landed with
          | true => exact absurd houtcome (hlost e)
          | false => rfl
      exact h.same rfl rfl hsame
    · refine h.spilled hvault ?_ rfl rfl hfile
      rw [UnlockedVault.entry_eraseEntry, if_neg hk]
      exact alike_refl _
  | claimed key expected secs hheld hversion hidle =>
    exact h.same (versionOf_claimSet s.store key k _) rfl rfl
  | claimedHeld key expected secs vault e hvault hheld hgranted =>
    exact h.copied hvault (alike_claim hheld _ k) (versionOf_claimSet s.store key k _) rfl rfl
  | unclaimed key expected secs err vault e file hvault hheld hcommit hfile =>
    exact h.spilled hvault (alike_claim hheld _ k) rfl rfl hfile
  | released key token hheld hfence =>
    exact h.same (versionOf_claimCleared s.store key k) rfl rfl
  | releasedHeld key token vault next e file hvault hheld hfence hnext =>
    have hversion := versionOf_claimCleared s.store key k
    rcases hnext with ⟨-, rfl, rfl⟩ | ⟨rfl, rfl⟩
    · exact h.same hversion hvault.symm rfl
    · exact h.copied hvault (alike_claim hheld none k) hversion rfl rfl
  | unreleased key token err vault e file hvault hheld hcommit hfile =>
    exact h.spilled hvault (alike_claim hheld none k) rfl rfl hfile
  | defined key source soft hard valueMeta ttl hdefine =>
    exact h.same (versionOf_defined s.store key _ _ _ _ k) rfl rfl
  | read key dryRun resp store log hreads | pinned key secs resp store log hreads
  | unpinned key resp store hreads => exact h.same (versionOf_read hreads k) rfl rfl
  | ownerCleared key hgate howner => exact h.same (versionOf_ownerCleared s.store key k) rfl rfl

end Step

/-- A process that comes up on the file this one leaves, with what is handed over
to it or with nothing. -/
inductive Restarted (s : State) : State → Prop
  | graceful (r : Restart) : Restarted s (s.restart r)
  | cold (st : Startup) (builder : StoreBuilder) (token : BitVec 128) (vault : Option VaultState)
      (hclosed : vault.bind VaultState.unlockedVault = none) :
      Restarted s (State.cold st builder token vault s.file)

/-- The daemon before it opens its vault: what the file has for the key can be
read, and counts no less than the store. -/
structure Begins (k : String) (s : State) : Prop where
  closed : s.openVault = none
  file : ∀ e, s.file.entry k = some e → Restorable e ∧ s.store.versionOf k ≤ e.casVersion

/-- Of the version the store reports, the vault reports no mismatch to a claim,
and none to a set whatever it expects. -/
structure NoMismatch (k : String) (s : State) : Prop where
  claim : ∀ ctx : HandlerCtx, ctx.commit.OfFile → ∀ secs current,
    (takeClaimInVault ctx s k (s.store.versionOf k) secs).1 ≠ .error (.casMismatch current)
  set : ∀ (ctx : HandlerCtx) store source token current,
    (writeThroughToVault ctx (s.withStore store) k source token).1 ≠ some (.casMismatch current)

/-- The key is the vault's: the open vault has it, or the file does. -/
def OfVault (k : String) (s : State) : Prop :=
  (s.file.entry k).isSome ∨ ∃ vault, s.openVault = some vault ∧ Holds vault k

/-- The last version acknowledged to a set or a claim of the key, none since a
delete. -/
def acknowledgedVersion (k : String) (req : Request) (resp : Response) (v : UInt64) : UInt64 :=
  match req, resp with
  | .kvSet r, .ok (.set _ (some version) _) => if r.key = k then version else v
  | .kvClaim key _ _, .ok (.claimed version _ _) => if key = k then version else v
  | .kvDel key _, .ok _ => if key = k then 0 else v
  | _, _ => v

section Restarting

variable {s s' : State} {k : String}

theorem Counts.begun (h : Begins k s) : Counts k s := by
  have hlocked : ∀ vault, s.vault ≠ some (.unlocked vault) := by
    intro vault hvault
    have hopen := openVault_of_unlocked s hvault
    rw [h.closed] at hopen
    cases hopen
  exact ⟨fun e he => (h.file e he).1, fun e he => (h.file e he).2,
    fun v hv => absurd hv (hlocked v), fun v hv => absurd hv (hlocked v)⟩

theorem begins_cold (st : Startup) (builder : StoreBuilder) (token : BitVec 128)
    {vault : Option VaultState} {file : Stored}
    (hclosed : vault.bind VaultState.unlockedVault = none)
    (hfile : ∀ e, file.entry k = some e → Restorable e) :
    Begins k (State.cold st builder token vault file) where
  closed := hclosed
  file e he := by
    refine ⟨hfile e he, ?_⟩
    have hversions := versions_reconcile st (builder.build token).store
    show (reconcile st (builder.build token).store).versionOf k ≤ _
    unfold versionOf
    rw [hversions, show (builder.build token).store.versions[k]? = none from KeyMap.get_empty k]
    exact UInt64.zero_le

theorem versionOf_reconcile (st : Startup) (store : Store) (k : String) :
    (reconcile st store).versionOf k = store.versionOf k := by
  unfold versionOf
  rw [versions_reconcile]

/-- The file is the one that was there, and a vault that is open was read from
it. -/
theorem restarted_file (h : Counts k s) (hrestarted : Restarted s s') :
    s'.file = s.file ∧
      ∀ vault, s'.vault = some (.unlocked vault) → Alike (vault.entry k) (s.file.entry k) := by
  cases hrestarted with
  | cold st builder token vault hclosed =>
    refine ⟨rfl, fun v hv => ?_⟩
    rw [show vault = some (.unlocked v) from hv] at hclosed
    cases hclosed
  | graceful r =>
    unfold State.restart
    cases hinitial : r.initialVault s.file with
    | error e => exact ⟨rfl, h.copy⟩
    | ok vault =>
      refine ⟨rfl, fun v hv => ?_⟩
      rw [show vault = some (.unlocked v) from hv] at hinitial
      rw [initialVault_unlocked hinitial]
      exact alike_refl _

theorem restarted_version (hrestarted : Restarted s s') :
    s'.store.versionOf k ≤ s.store.versionOf k := by
  cases hrestarted with
  | cold st builder token vault hclosed =>
    show (reconcile st (builder.build token).store).versionOf k ≤ _
    rw [versionOf_reconcile, show (builder.build token).store.versionOf k = 0 by
      unfold versionOf
      rw [show (builder.build token).store.versions[k]? = none from KeyMap.get_empty k]
      rfl]
    exact UInt64.zero_le
  | graceful r =>
    unfold State.restart
    cases r.initialVault s.file with
    | error e => exact UInt64.le_refl _
    | ok vault =>
      show (reconcile _ (r.initialStore s)).versionOf k ≤ _
      rw [versionOf_reconcile]
      rcases versionOf_initialStore s r k with hsame | hzero
      · rw [hsame]
        exact UInt64.le_refl _
      · rw [hzero]
        exact UInt64.zero_le

/-- A process that comes up closed begins anew. -/
theorem Counts.begins (h : Counts k s) (hrestarted : Restarted s s') (hclosed : s'.openVault = none) :
    Begins k s' where
  closed := hclosed
  file e he := by
    rw [(restarted_file h hrestarted).1] at he
    exact ⟨h.readable e he, UInt64.le_trans (restarted_version hrestarted) (h.bounded e he)⟩

/-- The version after an unlock is at least the one before the restart. -/
theorem Counts.restored {ctx : HandlerCtx} {after : State} {code : Option (Option Key)} {n : ℕ}
    (h : Counts k s) (hvault : OfVault k s) (hrestarted : Restarted s s')
    (heffect : Effect ctx s' (.vaultUnlock code) (.ok (.vaultUnlocked n)) after) :
    s.store.versionOf k ≤ after.store.versionOf k := by
  have hheld : (s.file.entry k).isSome := by
    rcases hvault with hfile | ⟨vault, hopen, hholds⟩
    · exact hfile
    · obtain ⟨e, he⟩ := Option.isSome_iff_exists.mp hholds
      obtain ⟨e', he', -⟩ := (h.copy vault (unlocked_of_openVault s hopen)).some he
      rw [he']
      rfl
  obtain ⟨e, he⟩ := Option.isSome_iff_exists.mp hheld
  obtain ⟨hfile, hcopy⟩ := restarted_file h hrestarted
  cases heffect with
  | opened code vault hopened =>
    have hlike : Alike (s.file.entry k) (vault.entry k) := by
      rcases hopened with hopen | ⟨-, hstored⟩
      · exact (hcopy vault hopen).symm
      · rw [← hfile, hstored]
        exact alike_refl _
    obtain ⟨e', he', hcas, -⟩ := hlike.some he
    obtain ⟨e'', he'', -, hread⟩ := hlike.symm.some he'
    rw [he] at he''
    cases he''
    have hinstalled := versionOf_installed s'.store ctx.clock ctx.wall vault k
    rw [he'] at hinstalled
    simp only at hinstalled
    rw [if_pos (hread (h.readable e he))] at hinstalled
    show _ ≤ (installVaultEntries _ _ _ _ _).2.versionOf k
    rw [hinstalled, hcas]
    exact UInt64.le_trans (h.bounded e he) (Word64.right_le_max _ _)

theorem error_ne_casMismatch (kind : ErrorKind) (message : List Piece) (current : UInt64) :
    Response.error kind message ≠ .casMismatch current := by
  intro h
  simp [Response.error, Response.casMismatch] at h

theorem alreadyClaimed_ne_casMismatch (secs current : UInt64) :
    Response.alreadyClaimed secs ≠ .casMismatch current := by
  intro h
  simp [Response.alreadyClaimed, Response.casMismatch] at h

/-- A commit reports no mismatch of its own. -/
theorem commitThen_mismatch {α : Type} {outcome : CommitOutcome} (h : outcome.OfFile)
    (self next : UnlockedVault) (value : α) (stored : Stored) (current : UInt64) :
    (UnlockedVault.commitThen (Stored.commitTo outcome) self next value stored).1 ≠
      .error (.casMismatch current) := by
  intro hmismatch
  unfold UnlockedVault.commitThen at hmismatch
  cases outcome with
  | done => cases hmismatch
  | failed e landed =>
    obtain ⟨path, reason, rfl⟩ := h
    cases landed <;> cases hmismatch

/-- The vault's own check of a claim finds the version it expects. -/
theorem claimRefresh_mismatch {outcome : CommitOutcome} (h : outcome.OfFile) (now : UInt64)
    (mint : ClaimToken) {vault : UnlockedVault} {e : VaultEntry} (he : vault.entry k = some e)
    (ttl : Duration) (stored : Stored) (current : UInt64) :
    (vault.claimRefresh (Stored.commitTo outcome) now mint k e.casVersion ttl stored).1 ≠
      .error (.casMismatch current) := by
  unfold UnlockedVault.claimRefresh
  rw [he]
  simp only [ne_eq, not_true_eq_false, if_false]
  split
  · rintro ⟨⟩
  · exact commitThen_mismatch h _ _ _ _ _

theorem Counts.noMismatch (h : Counts k s) : NoMismatch k s where
  claim ctx hcommit secs current := by
    unfold takeClaimInVault
    cases hopen : s.openVault with
    | none => rintro ⟨⟩
    | some vault =>
      simp only
      cases he : vault.entry k with
      | none => rintro ⟨⟩
      | some e =>
        simp only [Option.isNone_some, Bool.false_eq_true, if_false]
        have hequal := h.equal vault (unlocked_of_openVault s hopen) e he
        have hvault := claimRefresh_mismatch hcommit (ctx.wall 1) ctx.freshToken he
          (Duration.fromSecs secs) s.file
        rw [hequal]
        split
        · rintro ⟨⟩
        · rename_i current' hmismatch
          exact absurd hmismatch (hvault current')
        · intro hreply
          exact alreadyClaimed_ne_casMismatch _ _ (Except.error.inj hreply)
        · intro hreply
          exact error_ne_casMismatch _ _ _ (Except.error.inj hreply)
  set ctx store source token current := by
    unfold writeThroughToVault
    split
    · exact fun hreply => error_ne_casMismatch _ _ _ (Option.some.inj hreply)
    split
    · exact fun hreply => error_ne_casMismatch _ _ _ (Option.some.inj hreply)
    split
    · exact fun hreply => error_ne_casMismatch _ _ _ (Option.some.inj hreply)
    split
    · rename_i resp hentry
      intro hreply
      cases hreply
      unfold persistedEntry at hentry
      simp only at hentry
      split at hentry
      · exact error_ne_casMismatch _ _ _ (Except.error.inj hentry)
      · cases hentry
    simp only
    split
    · rintro ⟨⟩
    · exact fun hreply => error_ne_casMismatch _ _ _ (Option.some.inj hreply)

end Restarting

section Runs

variable {k : String}

/-- What was acknowledged is behind the version, and stays so. -/
theorem acknowledged_effect {ctx : HandlerCtx} {s s' : State} {req : Request} {resp : Response}
    {v : UInt64} (h : v ≤ s.store.versionOf k) (heffect : Effect ctx s req resp s') :
    acknowledgedVersion k req resp v ≤ s'.store.versionOf k := by
  have hmoves : VersionMoves k s s' req := version_moves heffect
  have hraised : (∀ key withDefine, req ≠ .kvDel key withDefine) → v ≤ s'.store.versionOf k := by
    intro hreq
    cases hmoves with
    | kept _ hsame =>
      rw [hsame]
      exact h
    | raised r hkey hnext =>
      rw [hnext]
      exact UInt64.le_trans h (Word64.le_saturatingAdd _ _)
    | restored code cas hnext =>
      rw [hnext]
      exact UInt64.le_trans h (Word64.left_le_max _ _)
    | dropped withDefine hwhole hnext => exact absurd rfl (hreq k withDefine)
  cases heffect with
  | refused _ e =>
    have hsame : acknowledgedVersion k req (.err e) v = v := by cases req <;> rfl
    rw [hsame]
    exact h
  | cached r plan owner haccepts =>
    by_cases hk : r.key = k
    · subst hk
      rw [acknowledgedVersion, if_pos rfl]
      show _ ≤ (plan.store ctx s r.key).versionOf r.key
      rw [versionOf_plan, if_pos rfl]
      exact UInt64.le_refl _
    · rw [acknowledgedVersion, if_neg hk]
      exact hraised (fun _ _ hreq => by cases hreq)
  | persisted r plan owner vault haccepts hvault hallowed =>
    by_cases hk : r.key = k
    · subst hk
      rw [acknowledgedVersion, if_pos rfl]
      show _ ≤ (plan.store ctx s r.key).versionOf r.key
      rw [versionOf_plan, if_pos rfl]
      exact UInt64.le_refl _
    · rw [acknowledgedVersion, if_neg hk]
      exact hraised (fun _ _ hreq => by cases hreq)
  | deleted key withDefine removed hunrelated hgate =>
    by_cases hk : key = k
    · rw [acknowledgedVersion, if_pos hk]
      exact UInt64.zero_le
    · rw [acknowledgedVersion, if_neg hk]
      show _ ≤ (if withDefine then _ else _ : Store).versionOf k
      rw [versionOf_deletion, if_neg (fun hboth => hk hboth.1)]
      exact h
  | deletedHeld key withDefine vault hvault hheld =>
    by_cases hk : key = k
    · rw [acknowledgedVersion, if_pos hk]
      exact UInt64.zero_le
    · rw [acknowledgedVersion, if_neg hk]
      show _ ≤ (s.store.deleteWithDefinition key s.store.controlCap).2.versionOf k
      rw [versionOf_removed, if_neg hk]
      exact h
  | undeleted => exact h
  | claimed key expected secs hheld hversion hidle =>
    by_cases hk : key = k
    · rw [acknowledgedVersion, if_pos hk]
      show _ ≤ (s.store.setRefreshClaim key _ s.store.controlCap).2.versionOf k
      rw [versionOf_claimSet, ← hk, hversion]
      exact UInt64.le_refl _
    · rw [acknowledgedVersion, if_neg hk]
      exact hraised (fun _ _ hreq => by cases hreq)
  | claimedHeld key expected secs vault e hvault hheld hgranted =>
    by_cases hk : key = k
    · rw [acknowledgedVersion, if_pos hk]
      show _ ≤ (s.store.setRefreshClaim key _ s.store.controlCap).2.versionOf k
      rw [versionOf_claimSet, ← hk, hgranted.version]
      exact UInt64.le_refl _
    · rw [acknowledgedVersion, if_neg hk]
      exact hraised (fun _ _ hreq => by cases hreq)
  | pong | stayedClosed | unwritable | fenced | uncommitted | created | uncreated | opened | closed
  | unclaimed | released | releasedHeld | unreleased | defined | read | pinned | unpinned
  | ownerCleared => exact hraised (fun _ _ hreq => by cases hreq)

/-- A daemon, and the last version it has acknowledged for the key. -/
def serveAcknowledging (k : String) (p : State × UInt64) (event : Served) : State × UInt64 :=
  (p.1.serve event, acknowledgedVersion k event.2 (p.1.reply event) p.2)

def CountStep (k : String) (p : State × UInt64) (event : Served) : Prop :=
  CountKept k (p.1.context event.1) p.1 event.2

/-- The two counts of the key at the end of a run, and after it. -/
structure InStepWithVault (k : String) (s : State) (acknowledged : UInt64) : Prop where
  equal : ∀ vault e, s.openVault = some vault → vault.entry k = some e →
    s.store.versionOf k = e.casVersion
  mismatch : NoMismatch k s
  acknowledged : acknowledged ≤ s.store.versionOf k
  restored : ∀ s', Restarted s s' → OfVault k s → ∀ ctx code n,
    s'.reply (ctx, .vaultUnlock code) = .ok (.vaultUnlocked n) →
      s.store.versionOf k ≤ (s'.serve (ctx, .vaultUnlock code)).store.versionOf k
  begins : ∀ s', Restarted s s' → s'.openVault = none → Begins k s'

/-- In every run whose steps meet the condition, the version of an entry the open
vault holds is the vault's own, and an unlock after a restart brings it back. -/
theorem counts_stay_in_step (k : String) (s : State) (hbegins : Begins k s) (events : List Served)
    (hrun : Along (serveAcknowledging k) (CountStep k) (s, 0) events) :
    InStepWithVault k (run (serveAcknowledging k) (s, 0) events).1
      (run (serveAcknowledging k) (s, 0) events).2 := by
  have hcounts : Counts k (run (serveAcknowledging k) (s, 0) events).1 ∧
      (run (serveAcknowledging k) (s, 0) events).2 ≤
        (run (serveAcknowledging k) (s, 0) events).1.store.versionOf k := by
    refine run_invariant (serveAcknowledging k)
      (I := fun p => Counts k p.1 ∧ p.2 ≤ p.1.store.versionOf k) ?_ (s, 0) events hrun
      ⟨Counts.begun hbegins, UInt64.zero_le⟩
    rintro p event ⟨hcounts, hacknowledged⟩ hstep
    obtain ⟨s', heffect, hserve⟩ := p.1.serve_effect event
    have hafter := counts_effect hcounts hstep heffect
    have hversion := acknowledged_effect hacknowledged heffect
    show Counts k (p.1.serve event) ∧ _ ≤ (p.1.serve event).store.versionOf k
    rw [hserve]
    exact ⟨hafter.same rfl rfl rfl, hversion⟩
  obtain ⟨hcounts, hacknowledged⟩ := hcounts
  exact
    { equal := fun vault e hopen he =>
        hcounts.equal vault (unlocked_of_openVault _ hopen) e he
      mismatch := hcounts.noMismatch
      acknowledged := hacknowledged
      restored := by
        intro s' hrestarted hvault ctx code n hreply
        obtain ⟨after, heffect, hserve⟩ := s'.serve_effect (ctx, .vaultUnlock code)
        rw [hreply] at heffect
        have hrestored := hcounts.restored hvault hrestarted heffect
        rw [hserve]
        exact hrestored
      begins := fun s' hrestarted hclosed => hcounts.begins hrestarted hclosed }

def setStored : SetRequest := { setPlain none with guardConstraints := [] }

def storedRun : List Served := [unlockPlain, (.quiet, .kvSet setStored)]

theorem begins_closedPlain : Begins "ns/k" closedPlain where
  closed := rfl
  file e he := by
    rw [show closedPlain.file.entry "ns/k" = none from KeyMap.get_empty _] at he
    cases he

theorem counts_stay_in_step_stored :
    InStepWithVault "ns/k" (run (serveAcknowledging "ns/k") (closedPlain, 0) storedRun).1
      (run (serveAcknowledging "ns/k") (closedPlain, 0) storedRun).2 := by
  refine counts_stay_in_step "ns/k" closedPlain begins_closedPlain storedRun ⟨trivial, ?_, trivial⟩
  have hopen : (closedPlain.serve unlockPlain).vault = some (.unlocked Bench.plainVault) := rfl
  intro hkey
  refine ⟨fun plan vault haccepts hvault => ?_, fun plan haccepts => ?_⟩
  · rw [show (closedPlain.serve unlockPlain).vault = some (.unlocked vault) from hvault] at hopen
    cases hopen
    refine ⟨fun _ => by decide, ?_, fun e he => ?_, rfl⟩
    · have hplanned : Except.ok none = Except.ok plan.guard := haccepts.guard
      have hguard : (plan.store ((closedPlain.serve unlockPlain).context .quiet)
          (closedPlain.serve unlockPlain) setStored.key).guardOf setStored.key = plan.guard :=
        (congrArg KeySlice.guard (acceptedStore_slice _ _ _ _ _ _ _ _)).trans (by rw [if_pos rfl])
      rw [← Except.ok.inj hplanned] at hguard
      exact ⟨_, persistedEntry_unguarded _ plan.bytes hguard⟩
    · rw [show Bench.plainVault.entry _ = none from KeyMap.get_empty _] at he
      cases he
  · have hchosen := (gated_of_gateSet _ _ haccepts.gate).chosen
    cases hchosen

/-- A plain set of a key the open vault holds moves one of the two counts. -/
theorem counts_part :
    Begins "ns/k" closedPlain ∧
      (run State.serve closedPlain (storedRun ++ [(.quiet, setValue none none)])).store.versionOf
        "ns/k" = 2 ∧
      ((run State.serve closedPlain (storedRun ++ [(.quiet, setValue none none)])).openVault.bind
        fun vault => vault.entry "ns/k").map VaultEntry.casVersion = some 1 ∧
      (run State.serve closedPlain (storedRun ++ [(.quiet, setValue none none)])).reply
        (.quiet, .kvClaim "ns/k" 2 60) = .casMismatch 1 := by
  refine ⟨begins_closedPlain, ?_, ?_, ?_⟩
  · decide
  · decide
  · decide

end Runs

end Daemon

end CacheWarden
