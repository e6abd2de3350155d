import CacheWarden.Daemon.CeremonyUnlock
import CacheWarden.Daemon.SigningKeys
import CacheWarden.Lasting

/-!
# No value stands in for the vault's

A key of the vault may have a definition too. As long as the vault is open and
holds the key, a get answers from the vault's value; while it is locked and the
configuration declares the key persistent, a get fails and runs nothing. Both
rest on what is resident: the value of an open vault's entry is in the store and
has no hard limit, and a locked vault leaves no value of a declared key there.
-/

set_option autoImplicit false

namespace CacheWarden

namespace Daemon

open Vault Store Transition

/-- The daemon, and the keys its configuration declares persistent. -/
structure Process where
  state : State
  persistedKeys : List String

/-- A signature that an agent socket makes. A key it fetches is one of the
agent's own. -/
structure SignCall where
  ssh : SshKeys
  ctx : HandlerCtx
  key : String
  source : KeySource
  fields : SignRequestFields
  own : source = .local ∨ ∃ itemId, opKvKey itemId = some key

/-- Something that happens to the process. -/
inductive ProcessEvent where
  | request (served : Served)
  | ceremony (c : Crypto) (web : WebAuthn) (ctx : CeremonyCtx) (cer : Ceremony)
      (request : CeremonyRequest)
  | sign (call : SignCall)
  | bind (ssh : SshKeys) (clock : Clock) (sockets : List AgentSocket)
  | discover (registry : PublicKeyRegistry)
  | restart (r : Restart) (persistedKeys : List String)

namespace Process

/-- The request, with the configuration of this process. -/
def declaring (self : Process) (served : Served) : Served :=
  ({ served.1 with persistedKeys := self.persistedKeys }, served.2)

def reply (self : Process) (served : Served) : Response := self.state.reply (self.declaring served)

def step (self : Process) : ProcessEvent → Process
  | .request served => { self with state := self.state.serve (self.declaring served) }
  | .ceremony c web ctx cer request =>
    { self with state := (cer.handle c web ctx self.state request).2.2 }
  | .sign call =>
    let ctx := self.state.context call.ctx
    let signed := signBodyAfterGuard call.ssh ctx self.state call.key call.source call.fields
    { self with state := { signed.2 with now := ctx.clock.last } }
  | .bind ssh clock sockets =>
    let clock := clock.since self.state.now
    { self with
      state := { self.state with
        store := (bindSockets ssh clock sockets self.state.store).2
        now := clock.last } }
  | .discover registry =>
    { self with
      state := self.state.withStore (registerOpDefinitions self.state.store registry) }
  | .restart r persistedKeys =>
    match r.initialVault self.state.file with
    | .error _ => self
    | .ok _ => ⟨self.state.restart r, persistedKeys⟩

end Process

/-- The startup runs the command of a definition of the key. -/
def Startup.Preloads (st : Startup) (k : String) : Prop :=
  ∃ entry ∈ st.config, entry.key = k ∧ (entry.preload = true ∨ k ∈ st.forceEager) ∧
    (runSource st.runner entry.source.lower).isOk = true

/-- What a get of the key answers: the vault's bytes while the vault is open and
holds it, or the code they give if the key is a one-time password; nothing, and
without a command run, while the vault is locked and the key declared. -/
structure Answers (k : String) (p : Process) (ctx : HandlerCtx) (dryRun : Bool) : Prop where
  held : ∀ vault e v, p.state.vault = some (.unlocked vault) → vault.entry k = some e →
    p.reply (ctx, .kvGet k dryRun) = .ok (.get v) →
      if metaIsOtp (metaOf p.state.store k) then
        ctx.deriveCode e.secret (metaOf p.state.store k) = .ok v
      else v = e.secret
  closed : p.state.vault = some .locked → k ∈ p.persistedKeys →
    (∃ e, p.reply (ctx, .kvGet k dryRun) = .err e) ∧
      (p.step (.request (ctx, .kvGet k dryRun))).state.log = p.state.log

/-- A set of the key that is accepted is acknowledged, and persisted. -/
def Process.SetsPersisted (k : String) (self : Process) : ProcessEvent → Prop
  | .request (ctx, .kvSet r) => r.key = k → ∀ plan persist,
    Accepts (self.state.context (self.declaring (ctx, .kvSet r)).1) self.state r plan persist →
      persist = true ∧ ∃ payload, self.reply (ctx, .kvSet r) = .ok payload
  | _ => True

/-- What the key needs of an event. A set of it is persisted; an unlock can read
its entry; nothing of it is resident beside a vault that is locked without
holding it; a restart that brings the vault up open hands over the value of the
vault's file, and one that brings it up locked hands over none and preloads
none. -/
def Process.Faithful (k : String) (self : Process) : ProcessEvent → Prop
  | .request (ctx, .kvSet r) => self.SetsPersisted k (.request (ctx, .kvSet r))
  | .request (_, .vaultUnlock _) => ∀ vault e,
    self.state.vault = some (.unlocked vault) ∨
      self.state.vault = some .locked ∧ self.state.file = .holds vault →
    vault.entry k = some e → Restorable e
  | .ceremony _ _ _ _ _ => ∀ vault e,
    self.state.vault = some .locked → self.state.file = .holds vault →
    vault.entry k = some e → Restorable e
  | .request (_, .vaultLock) => ∀ vault, self.state.vault = some (.unlocked vault) →
    k ∈ self.persistedKeys → vault.entry k = none → self.state.store.entries[k]? = none
  | .restart r persistedKeys =>
    (∀ vault e, r.initialVault self.state.file = .ok (some (.unlocked vault)) →
      vault.entry k = some e →
        self.state.store.Lasts k e.secret ∧ (r.handover self.state).isOk = true) ∧
    (r.initialVault self.state.file = .ok (some .locked) → k ∈ persistedKeys →
      (r.initialStore self.state).entries[k]? = none ∧ ¬ r.startup.Preloads k)
  | _ => True

section Reading

variable {ctx : HandlerCtx} {s : State} {key : String} {P : Store → Prop}

theorem finishGet_stable (hP : ReadStable key P) (dryRun : Bool) (now : Monotonic)
    (h : P s.store) : P (finishGet ctx s key dryRun now).2.store := by
  have hget := hP.get s.store s.store.controlCap now h
  unfold finishGet
  simp only
  split
  · split
    · exact hget
    · exact hget
    · split <;> exact hget
  · split <;> exact hget

theorem getAgain_stable (hP : ReadStable key P) (dryRun : Bool) (gone : String) (h : P s.store) :
    P (getAgain ctx s key dryRun gone).2.store := by
  have hget := hP.get s.store s.store.controlCap (ctx.clock.now 5) h
  unfold getAgain
  simp only
  split
  · exact finishGet_stable hP dryRun _ hget
  · exact hget

theorem extendAndGet_stable (hP : ReadStable key P) (dryRun : Bool) (h : P s.store) :
    P (extendAndGet ctx s key dryRun).2.store := by
  have hextend := hP.extendAuthenticated s.store ctx.auth ctx.requester s.store.controlCap
    (ctx.clock.after 2) h
  unfold extendAndGet
  simp only
  split
  · exact getAgain_stable hP dryRun _ hextend
  all_goals exact hextend

theorem regenerateAndGet_stable (hP : ReadStable key P) (dryRun : Bool) (h : P s.store) :
    P (regenerateAndGet ctx s key dryRun).2.store := by
  have hfetch := hP.regenerate s.store ctx.runner ctx.auth ctx.requester s.store.controlCap
    (ctx.clock.after 2) h
  unfold regenerateAndGet
  simp only
  split
  · exact getAgain_stable hP dryRun _ hfetch
  all_goals exact hfetch

theorem lazyGenerate_lasts {v : Bytes} (dryRun : Bool) (h : s.store.Lasts key v) :
    (lazyGenerate ctx s key dryRun).2.store.Lasts key v := by
  have hP := lasts_readStable key v
  have hfetch := lasts_getOrRegenerate h ctx.runner ctx.auth ctx.requester s.store.controlCap
    (ctx.clock.after 2)
  unfold lazyGenerate
  simp only
  split
  · exact getAgain_stable hP dryRun _ hfetch
  · exact hfetch
  · exact getAgain_stable hP dryRun _ hfetch
  all_goals exact hfetch

/-- A get leaves a value without a hard limit in its place. -/
theorem handleGet_lasts {v : Bytes} (dryRun : Bool) (h : s.store.Lasts key v) :
    (handleGet ctx s key dryRun).2.store.Lasts key v := by
  have hP := lasts_readStable key v
  have hread := hP.get s.store s.store.controlCap (ctx.clock.now 0) h
  have hstate := hP.stateOf _ (ctx.clock.now 1) hread
  unfold handleGet
  split
  · exact h
  unfold retrieve
  simp only
  split
  · exact finishGet_stable hP dryRun _ hread
  split
  · split
    · exact hstate
    · split
      · exact lazyGenerate_lasts dryRun hstate
      · split <;> exact hstate
  · exact hstate
  · exact extendAndGet_stable hP dryRun hstate
  · split
    · exact lazyGenerate_lasts dryRun hstate
    · exact regenerateAndGet_stable hP dryRun hstate

/-- A get of a key without a value that the vault cannot give fails before a
definition is looked at. -/
theorem handleGet_unavailable (dryRun : Bool) (h : s.store.entries[key]? = none)
    {resp : Response} (hvault : vaultOwnership ctx s key = .unavailable resp) :
    (∃ e, (handleGet ctx s key dryRun).1 = .err e) ∧
      (handleGet ctx s key dryRun).2.log = s.log ∧
        (handleGet ctx s key dryRun).2.store.entries[key]? = none := by
  have hget : s.store.get key s.store.controlCap (ctx.clock.now 0) = (.ok none, s.store) := by
    unfold Store.get
    rw [checkCap_controlCap, h]
  have hstateOf : s.store.stateOf key (ctx.clock.now 1) = (none, s.store) := by
    unfold stateOf
    rw [h]
  have hsame : s.withStore s.store = s := rfl
  obtain ⟨e, rfl⟩ := vaultOwnership_unavailable ctx s key hvault
  unfold handleGet
  split
  · rename_i resp' hgate
    obtain ⟨e, rfl⟩ := stops_gateGet key _ hgate
    exact ⟨⟨e, rfl⟩, rfl, h⟩
  · unfold retrieve
    simp only [hget, hsame, hstateOf, hvault]
    exact ⟨⟨e, rfl⟩, trivial, h⟩

theorem handlePin_stable (hP : ReadStable key P) (secs : UInt64) (h : P s.store) :
    P (ownerOnly ctx s key (handlePin ctx s key secs)).2.store := by
  have hpin := hP.pinAuthenticated s.store
    ((ctx.clock.now 0).saturatingAdd (Duration.fromSecs secs)) ctx.auth ctx.requester
    s.store.controlCap (ctx.clock.after 1) h
  unfold ownerOnly
  split
  · exact h
  unfold handlePin
  simp only
  split <;> exact hpin

theorem handleUnpin_stable (hP : ReadStable key P) (h : P s.store) :
    P (ownerOnly ctx s key (handleUnpin s key)).2.store := by
  have hunpin := hP.unpin s.store s.store.controlCap h
  unfold ownerOnly
  split
  · exact h
  unfold handleUnpin
  split <;> rename_i heq <;> rw [heq] at hunpin <;> exact hunpin

theorem signBody_stable (hP : ReadStable key P) (ssh : SshKeys) (fields : SignRequestFields)
    (h : P s.store) : P (signBodyAfterGuard ssh ctx s key .local fields).2.store := by
  have hloaded : P (ensureLoaded ctx s key .local).2.store := by
    have hstate := hP.stateOf s.store (ctx.clock.now 0) h
    have hextend := hP.extendAuthenticated _ ctx.auth ctx.requester s.store.controlCap
      (ctx.clock.after 1) hstate
    have hfetch := hP.regenerate _ ctx.runner ctx.auth ctx.requester s.store.controlCap
      (ctx.clock.after 1) hstate
    unfold ensureLoaded
    simp only
    split
    · exact hstate
    · exact hstate
    · split <;> exact hextend
    · split <;> exact hfetch
  have hread := hP.get _ s.store.controlCap (ctx.clock.now 4) hloaded
  unfold signBodyAfterGuard
  simp only
  split
  · exact hloaded
  split
  · split
    · exact hP.extend _ _ _ hread
    · exact hread
  · exact hread

end Reading

/-- The value of an open vault's entry is in the store for good; beside a locked
vault there is no value of a declared key. -/
structure Stands (k : String) (declared : Prop) (s : State) : Prop where
  held : ∀ vault e, s.vault = some (.unlocked vault) → vault.entry k = some e →
    s.store.Lasts k e.secret
  closed : s.vault = some .locked → declared → s.store.entries[k]? = none

section Standing

variable {k : String} {declared : Prop} {ctx : HandlerCtx} {s s' : State}

/-- The secret of the key's entry in an open vault was the same in one before. -/
structure SameSecret (k : String) (s s' : State) : Prop where
  held : ∀ vault' e', s'.vault = some (.unlocked vault') → vault'.entry k = some e' →
    ∃ vault e, s.vault = some (.unlocked vault) ∧ vault.entry k = some e ∧ e'.secret = e.secret
  closed : s'.vault = some .locked → s.vault = some .locked

theorem sameSecret_of_vault (h : s'.vault = s.vault) : SameSecret k s s' where
  held vault' e' hvault' he' := ⟨vault', e', h ▸ hvault', he', rfl⟩
  closed hlocked := h ▸ hlocked

theorem sameSecret_of_entry {vault vault' : UnlockedVault}
    (hvault : s.vault = some (.unlocked vault)) (hvault' : s'.vault = some (.unlocked vault'))
    (h : ∀ e', vault'.entry k = some e' → ∃ e, vault.entry k = some e ∧ e'.secret = e.secret) :
    SameSecret k s s' where
  held := by
    intro v e' hv he'
    rw [hvault'] at hv
    cases hv
    obtain ⟨e, he, hsecret⟩ := h e' he'
    exact ⟨vault, e, hvault, he, hsecret⟩
  closed hlocked := by
    rw [hvault'] at hlocked
    cases hlocked

theorem Stands.kept (h : Stands k declared s) (hvault : SameSecret k s s')
    (hentry : s'.store.entries[k]? = s.store.entries[k]?) : Stands k declared s' where
  held := by
    intro vault' e' hvault' he'
    obtain ⟨vault, e, hv, he, hsecret⟩ := hvault.held vault' e' hvault' he'
    rw [hsecret]
    exact lasts_of_entry (h.held vault e hv he) hentry
  closed hlocked hdeclared := hentry.trans (h.closed (hvault.closed hlocked) hdeclared)

/-- What reads the key, and leaves the vault alone. -/
theorem Stands.read (h : Stands k declared s) (hvault : s'.vault = s.vault)
    (hstable : ∀ P, ReadStable k P → P s.store → P s'.store) : Stands k declared s' where
  held vault e hv he :=
    hstable _ (lasts_readStable k e.secret) (h.held vault e (hvault ▸ hv) he)
  closed hlocked hdeclared :=
    hstable _ (absent_readStable k) (h.closed (hvault ▸ hlocked) hdeclared)

theorem sameSecret_insert {vault : UnlockedVault} {e : VaultEntry} {key : String}
    (e' : VaultEntry) (hvault : s.vault = some (.unlocked vault)) (he : vault.entry key = some e)
    (hkey : e'.key = e.key) (hsecret : e'.secret = e.secret)
    (hafter : s'.vault = some (.unlocked (vault.insertEntry e'))) : SameSecret k s s' := by
  refine sameSecret_of_entry hvault hafter fun e'' he'' => ?_
  rw [UnlockedVault.entry_insertEntry] at he''
  by_cases hk : e'.key = k
  · rw [if_pos hk] at he''
    cases he''
    rw [hkey, UnlockedVault.key_of_entry he] at hk
    exact ⟨e, hk ▸ he, hsecret⟩
  · rw [if_neg hk] at he''
    exact ⟨e'', he'', rfl⟩

theorem sameSecret_erase {vault : UnlockedVault} {key : String}
    (hvault : s.vault = some (.unlocked vault))
    (hafter : s'.vault = some (.unlocked (vault.eraseEntry key))) : SameSecret k s s' := by
  refine sameSecret_of_entry hvault hafter fun e' he' => ?_
  rw [UnlockedVault.entry_eraseEntry] at he'
  split at he'
  · cases he'
  · exact ⟨e', he', rfl⟩

/-- The requests that read the key, which `Effect` says too little about. -/
def ReadsKey (k : String) : Request → Prop
  | .kvGet key _ => key = k
  | .kvPin key _ => key = k
  | .kvUnpin key => key = k
  | _ => False

/-- The value of a key other than the one that is set stays. -/
theorem entry_plan_of_ne {plan : SetPlan} {key : String} (hk : key ≠ k) :
    (plan.store ctx s key).entries[k]? = s.store.entries[k]? := by
  have hslice := acceptedStore_slice s.store key k plan.bytes plan.ttl plan.guard plan.declared
    (ctx.clock.now 0)
  rw [if_neg hk] at hslice
  exact congrArg KeySlice.entry hslice

theorem entry_deleted (store : Store) (key k : String) (withDefine : Bool)
    (hcap : store.checkCap store.controlCap = .ok ()) :
    (if withDefine then (store.deleteWithDefinition key store.controlCap).2
      else (store.delete key store.controlCap).2).entries[k]? =
      if key = k then none else store.entries[k]? := by
  have hdelete := congrArg KeySlice.entry (delete_slice store key k _ hcap)
  have hwith := congrArg KeySlice.entry (deleteWithDefinition_slice store key k _ hcap)
  by_cases hk : key = k
  · rw [if_pos hk] at hdelete hwith ⊢
    cases withDefine
    · exact hdelete
    · exact hwith
  · rw [if_neg hk] at hdelete hwith ⊢
    cases withDefine
    · exact hdelete
    · exact hwith

/-- What the key needs of a request. -/
structure Kind (k : String) (declared : Prop) (ctx : HandlerCtx) (s : State) (req : Request)
    (resp : Response) : Prop where
  set : ∀ r plan persist, req = .kvSet r → r.key = k → Accepts ctx s r plan persist →
    persist = true ∧ ∃ payload, resp = .ok payload
  unlock : ∀ code vault e, req = .vaultUnlock code →
    s.vault = some (.unlocked vault) ∨ s.vault = some .locked ∧ s.file = .holds vault →
    vault.entry k = some e → Restorable e
  lock : ∀ vault, req = .vaultLock → s.vault = some (.unlocked vault) → declared →
    vault.entry k = none → s.store.entries[k]? = none

theorem stands_opened {vault : UnlockedVault} {clock : Clock} {wall : ℕ → UInt64}
    (hrestorable : ∀ e, vault.entry k = some e → Restorable e)
    (hs' : s' = { s with
      vault := some (.unlocked vault)
      store := (installVaultEntries s.store s.store.controlCap clock wall vault).2 }) :
    Stands k declared s' := by
  subst hs'
  refine ⟨?_, fun hlocked _ => by cases hlocked⟩
  intro vault' e hvault' he
  cases hvault'
  have hslice := installVaultEntries_slice clock wall vault s.store.checkCap_controlCap k
  rw [Daemon.installedSlice, he] at hslice
  simp only at hslice
  rw [if_pos (hrestorable e he)] at hslice
  exact ⟨_, congrArg KeySlice.entry hslice, CacheEntry.lasting_new _ _ _ _ rfl⟩

theorem stands_effect {req : Request} {resp : Response} (h : Stands k declared s)
    (heffect : Effect ctx s req resp s') (hkind : Kind k declared ctx s req resp)
    (hother : ¬ ReadsKey k req) : Stands k declared s' := by
  have hcap := s.store.checkCap_controlCap
  have hset : ∀ {r : SetRequest} {plan : SetPlan} {e : WireError}, req = .kvSet r →
      Accepts ctx s r plan true → resp = .err e →
        (plan.store ctx s r.key).entries[k]? = s.store.entries[k]? := by
    intro r plan e hreq haccepts hresp
    apply entry_plan_of_ne
    intro hk
    obtain ⟨-, payload, hok⟩ := hkind.set r plan true hreq hk haccepts
    rw [hresp] at hok
    cases hok
  cases heffect with
  | refused req e => exact h
  | pong => exact h
  | stayedClosed hclosed => exact h
  | cached r plan owner haccepts =>
    refine h.kept (sameSecret_of_vault rfl) (entry_plan_of_ne ?_)
    intro hk
    cases (hkind.set r plan false rfl hk haccepts).1
  | persisted r plan owner vault haccepts hvault hallowed =>
    by_cases hk : r.key = k
    · refine ⟨?_, fun hlocked _ => by cases hlocked⟩
      intro vault' e hvault' he
      cases hvault'
      rw [writtenVault_entry, if_pos hk] at he
      cases he
      have hslice := acceptedStore_slice s.store r.key k plan.bytes plan.ttl plan.guard
        plan.declared (ctx.clock.now 0)
      rw [if_pos hk] at hslice
      exact ⟨_, congrArg KeySlice.entry hslice, CacheEntry.lasting_new _ _ _ _ haccepts.hard⟩
    · refine h.kept (sameSecret_of_entry hvault rfl fun e he => ⟨e, ?_, rfl⟩)
        (entry_plan_of_ne hk)
      rw [writtenVault_entry, if_neg hk] at he
      exact he
  | unwritable r plan err haccepts he =>
    exact h.kept (sameSecret_of_vault rfl) (hset rfl haccepts rfl)
  | fenced r plan err vault existing cause haccepts hvault hheld hcheck =>
    exact h.kept (sameSecret_of_vault rfl) (hset rfl haccepts rfl)
  | uncommitted r plan err vault file haccepts hvault hcommit hfile =>
    exact h.kept (sameSecret_of_vault rfl) (hset rfl haccepts rfl)
  | created vault code hempty hfile hstate =>
    refine ⟨?_, fun hlocked _ => by cases hlocked⟩
    intro vault' e hvault' he
    cases hvault'
    rw [UnlockedVault.entry, hempty] at he
    cases he
  | uncreated e file hstate hfile => exact h.kept (sameSecret_of_vault rfl) rfl
  | opened code vault hvault =>
    exact stands_opened (fun e he => hkind.unlock _ vault e rfl hvault he) rfl
  | closed vault state hvault hstate =>
    have hslice := deleteAll_slice s.store k s.store.controlCap vault.entries.keys hcap
    refine ⟨?_, ?_⟩
    · intro vault' e hvault' he
      rcases hstate with ⟨rfl, -⟩ | ⟨rfl, -⟩ <;> cases hvault'
    · intro _ hdeclared
      by_cases hmem : k ∈ vault.entries.keys
      · rw [if_pos hmem] at hslice
        exact congrArg KeySlice.entry hslice
      · rw [if_neg hmem] at hslice
        have hnone : vault.entry k = none := by
          rw [KeyMap.mem_keys_iff] at hmem
          simpa [UnlockedVault.entry] using hmem
        rw [show ((deleteAll s.store.controlCap vault.entries.keys s.store).entries[k]?) = _ from
          congrArg KeySlice.entry hslice]
        exact hkind.lock vault rfl hvault hdeclared hnone
  | deleted key withDefine removed hunrelated hgate =>
    have hdeleted := entry_deleted s.store key k withDefine hcap
    by_cases hk : key = k
    · rw [if_pos hk] at hdeleted
      refine ⟨?_, fun _ _ => hdeleted⟩
      intro vault e hvault he
      have howned : vaultOwnership ctx s key = .owned := by
        unfold vaultOwnership
        rw [show s.vault = some (.unlocked vault) from hvault]
        simp only
        rw [hk, he]
        rfl
      rw [hunrelated] at howned
      cases howned
    · rw [if_neg hk] at hdeleted
      exact h.kept (sameSecret_of_vault rfl) hdeleted
  | deletedHeld key withDefine vault hvault hheld =>
    have hdeleted := entry_deleted s.store key k true hcap
    by_cases hk : key = k
    · refine ⟨?_, fun hlocked _ => by cases hlocked⟩
      intro vault' e hvault' he
      cases hvault'
      rw [UnlockedVault.entry_eraseEntry, if_pos hk] at he
      cases he
    · rw [if_neg hk] at hdeleted
      exact h.kept (sameSecret_erase hvault rfl) hdeleted
  | undeleted key withDefine e vault file hvault hheld hcommit hfile =>
    exact h.kept (sameSecret_of_vault rfl) rfl
  | claimed key expected secs hheld hversion hidle =>
    exact h.kept (sameSecret_of_vault rfl)
      (slice_field KeySlice.entry (setRefreshClaim_slice s.store key k _ _ hcap) rfl)
  | claimedHeld key expected secs vault e hvault hheld hgranted =>
    exact h.kept (sameSecret_insert (claimedEntry ctx e secs) hvault hheld rfl rfl rfl)
      (slice_field KeySlice.entry (setRefreshClaim_slice s.store key k _ _ hcap) rfl)
  | unclaimed key expected secs err vault e file hvault hheld hcommit hfile =>
    exact h.kept (sameSecret_of_vault rfl) rfl
  | released key token hheld hfence =>
    exact h.kept (sameSecret_of_vault rfl)
      (slice_field KeySlice.entry (clearRefreshClaim_slice s.store key k _ hcap) rfl)
  | releasedHeld key token vault next e file hvault hheld hfence hnext =>
    refine h.kept ?_ (slice_field KeySlice.entry (clearRefreshClaim_slice s.store key k _ hcap) rfl)
    rcases hnext with ⟨-, rfl, -⟩ | ⟨rfl, -⟩
    · exact sameSecret_of_entry hvault rfl fun e' he' => ⟨e', he', rfl⟩
    · exact sameSecret_insert { e with refreshClaim := none } hvault hheld rfl rfl rfl
  | unreleased key token err vault e file hvault hheld hcommit hfile =>
    exact h.kept (sameSecret_of_vault rfl) rfl
  | defined key source soft hard valueMeta ttl hdefined =>
    exact h.kept (sameSecret_of_vault rfl)
      (congrArg (·[k]?) (entries_defineWithMeta s.store key _ _ _ _))
  | read key dryRun resp store calls hreads hvalue horigin =>
    exact h.kept (sameSecret_of_vault rfl)
      (congrArg KeySlice.entry ((reads_kept hreads).elsewhere k hother))
  | pinned key secs resp store log hreads horigin =>
    exact h.kept (sameSecret_of_vault rfl)
      (congrArg KeySlice.entry ((reads_kept hreads).elsewhere k hother))
  | unpinned key resp store hreads horigin =>
    exact h.kept (sameSecret_of_vault rfl)
      (congrArg KeySlice.entry ((reads_kept hreads).elsewhere k hother))
  | ownerCleared key hgate howner =>
    exact h.kept (sameSecret_of_vault rfl)
      (slice_field KeySlice.entry (clearOwner_slice s.store key k _ hcap) rfl)

theorem vault_of_readsKey {req : Request} {resp : Response} (hreads : ReadsKey k req)
    (heffect : Effect ctx s req resp s') : s'.vault = s.vault := by
  cases heffect with
  | refused => rfl
  | read => rfl
  | pinned => rfl
  | unpinned => rfl
  | _ => exact hreads.elim

theorem vaultOwnership_locked (hlocked : s.vault = some .locked)
    (hdeclared : k ∈ ctx.persistedKeys) : vaultOwnership ctx s k = .unavailable lockedRefusal := by
  unfold vaultOwnership
  rw [hlocked]
  simp only
  rw [if_pos hdeclared]

theorem stands_readsKey {req : Request} (h : Stands k (k ∈ ctx.persistedKeys) s)
    (hreads : ReadsKey k req) : Stands k (k ∈ ctx.persistedKeys) (handleRequest ctx s req).2 := by
  have hvault := vault_of_readsKey hreads (handleRequest_effect ctx s req)
  cases req with
  | kvGet key dryRun =>
    cases hreads
    refine ⟨?_, ?_⟩
    · intro vault e hopen he
      exact handleGet_lasts dryRun (h.held vault e (hvault ▸ hopen) he)
    · intro hlocked hdeclared
      rw [hvault] at hlocked
      exact (handleGet_unavailable dryRun (h.closed hlocked hdeclared)
        (vaultOwnership_locked hlocked hdeclared)).2.2
  | kvPin key secs =>
    cases hreads
    exact h.read hvault fun P hP => handlePin_stable hP secs
  | kvUnpin key =>
    cases hreads
    exact h.read hvault fun P hP => handleUnpin_stable hP
  | _ => exact hreads.elim

theorem stands_request {req : Request} (h : Stands k (k ∈ ctx.persistedKeys) s)
    (hkind : Kind k (k ∈ ctx.persistedKeys) ctx s req (handleRequest ctx s req).1) :
    Stands k (k ∈ ctx.persistedKeys) (handleRequest ctx s req).2 := by
  by_cases hreads : ReadsKey k req
  · exact stands_readsKey h hreads
  · exact stands_effect h (handleRequest_effect ctx s req) hkind hreads

end Standing

section Ceremony

variable {c : Crypto} {web : WebAuthn} {ctx : CeremonyCtx} {cer : Ceremony} {s : State}

/-- What a request of the ceremony leaves of the daemon. -/
inductive Leaves (s : State) : State → Prop
  | same : Leaves s s
  | registered (vault next : UnlockedVault) (file : Stored)
      (hvault : s.vault = some (.unlocked vault)) (hentries : next.entries = vault.entries) :
      Leaves s (s.withVault next file)
  | unlocked (vault : UnlockedVault) (clock : Clock) (wall : ℕ → UInt64)
      (hlocked : s.vault = some .locked) (hfile : s.file = .holds vault) :
      Leaves s { s with
        vault := some (.unlocked vault)
        store := (installVaultEntries s.store s.store.controlCap clock wall vault).2 }

theorem addPasskeySlot_entries {W : Type} (self : UnlockedVault) (c : Crypto) (commit : Commit W)
    (draws : SlotDraws) (prfOutput : Bytes) (salt : Vault.Key) (rpId : String)
    (credentialId credentialPublicKey : Bytes) (label : String) (w : W) :
    (self.addPasskeySlot c commit draws prfOutput salt rpId credentialId credentialPublicKey label
      w).2.1.entries = self.entries := by
  unfold UnlockedVault.addPasskeySlot
  split
  · rfl
  split
  · rfl
  unfold UnlockedVault.addSlot UnlockedVault.commitThen
  split <;> rfl

theorem registerFinish_leaves (body : Body RegisterBody) :
    Leaves s (cer.registerFinish c web ctx s body).2.2 := by
  unfold Ceremony.registerFinish
  simp only
  split
  · exact .same
  split
  · exact .same
  · exact .same
  split
  · exact .same
  split
  · exact .same
  rename_i vault hvault
  have hopen := unlocked_of_openVault s hvault
  split
  all_goals exact .registered vault _ _ hopen (addPasskeySlot_entries ..)

theorem unlockFinish_leaves (body : Body UnlockBody) :
    Leaves s (cer.unlockFinish web ctx s body).2.2 := by
  unfold Ceremony.unlockFinish
  split
  · exact .same
  · exact .same
  split
  swap
  · exact .same
  rename_i hlocked
  have hsame : { s with vault := some .locked } = s := by
    rw [← hlocked]
  split
  · exact .same
  split
  · exact .same
  split
  · exact .same
  split
  · exact .same
  simp only
  split
  · exact .same
  split
  · rename_i e state hunlock
    rw [unlock_failed hunlock, hsame]
    exact .same
  rename_i state hunlock
  obtain ⟨vault, hfile, rfl⟩ := unlock_locked hunlock
  exact .unlocked vault _ _ hlocked hfile

theorem handle_leaves (request : CeremonyRequest) :
    Leaves s (cer.handle c web ctx s request).2.2 := by
  unfold Ceremony.handle
  split
  · exact .same
  split
  · exact .same
  · exact .same
  · exact .same
  simp only
  split
  · exact .same
  split
  · exact .same
  · exact .same
  · exact registerFinish_leaves _
  · exact unlockFinish_leaves _
  · exact .same

theorem stands_ceremony {k : String} {declared : Prop} {s' : State} (h : Stands k declared s)
    (hleaves : Leaves s s')
    (hrestorable : ∀ vault e, s.vault = some .locked → s.file = .holds vault →
      vault.entry k = some e → Restorable e) : Stands k declared s' := by
  cases hleaves with
  | same => exact h
  | registered vault next file hvault hentries =>
    refine h.kept (sameSecret_of_entry hvault rfl fun e he => ⟨e, ?_, rfl⟩) rfl
    rw [UnlockedVault.entry, hentries] at he
    exact he
  | unlocked vault clock wall hlocked hfile =>
    exact stands_opened (fun e he => hrestorable vault e hlocked hfile he) rfl

end Ceremony

section Agent

variable {k : String} {declared : Prop} {P : Store → Prop}

theorem entries_registerOpDefinition (store : Store) (key : RegisteredKey) :
    (registerOpDefinition store key).entries = store.entries := by
  unfold registerOpDefinition
  split
  · rfl
  split
  · rfl
  · exact entries_defineWithMeta _ _ _ _ _ _

theorem entries_registerOpDefinitions (store : Store) (registry : PublicKeyRegistry) :
    (registerOpDefinitions store registry).entries = store.entries := by
  unfold registerOpDefinitions
  generalize registry.allKeys = keys
  induction keys generalizing store with
  | nil => rfl
  | cons key keys ih => exact (ih _).trans (entries_registerOpDefinition store key)

/-- A read of one key is no concern of another. -/
theorem get_stable (hP : ReadStable k P) {store : Store} (h : P store) (key : String)
    (cap : Capability) (now : Monotonic) : P (store.get key cap now).2 := by
  by_cases hk : key = k
  · subst hk
    exact hP.get store cap now h
  · have hreads := store.get_reads key cap (fun _ _ _ => .error .noProgram) now
      (Monotonic.le_refl now)
    exact hP.same store _ (congrArg KeySlice.entry ((reads_kept hreads).elsewhere k hk)) h

theorem buildRegistry_stable (hP : ReadStable k P) (ssh : SshKeys) (cap : Capability)
    (keys : List String) (registry : PublicKeyRegistry) (store : Store) (clock : Clock)
    (h : P store) : P (buildRegistry.go ssh cap registry keys store clock).2 := by
  induction keys generalizing registry store clock with
  | nil => exact h
  | cons key keys ih =>
    have hget := get_stable hP h key cap (clock.now 0)
    unfold buildRegistry.go
    simp only
    split <;> exact ih _ _ _ hget

theorem bindSockets_stable (hP : ReadStable k P) (ssh : SshKeys) (clock : Clock)
    (sockets : List AgentSocket) (store : Store) (h : P store) :
    P (bindSockets ssh clock sockets store).2 := by
  induction sockets generalizing store with
  | nil => exact h
  | cons socket sockets ih =>
    have hbuilt : P (buildRegistry ssh socket.keys store store.controlCap clock).2 :=
      buildRegistry_stable hP ssh _ _ _ _ _ h
    have hbound : P (bindSocket ssh clock store socket).2 :=
      hP.same _ _ (congrArg (·[k]?) (entries_registerOpDefinitions _ _)) hbuilt
    exact ih _ hbound

/-- The namespace of the agent's own keys cannot be read. -/
theorem reserved_of_opKvKey {itemId : String} (h : opKvKey itemId = some k) :
    rejectReservedNamespaceRead k ≠ none := by
  unfold opKvKey at h
  split at h
  · cases h
  cases h
  unfold rejectReservedNamespaceRead
  have hsplit : splitOnceSlash ("authsock/op_" ++ itemId).toList =
      some (reservedNamespaceAuthsock, "op_".toList ++ itemId.toList) := by
    rw [String.toList_append]
    rfl
  rw [hsplit]
  exact fun h => by cases h

theorem stands_sign {p : Process} (h : Stands k declared p.state) (call : SignCall)
    (hreadable : rejectReservedNamespaceRead k = none) :
    Stands k declared (p.step (.sign call)).state := by
  obtain ⟨calls, heffect⟩ := @signBody_effect call.ssh (p.state.context call.ctx) p.state call.key
    call.source call.fields
  have hstate := congrArg State.vault heffect.loads.state
  have hvault : (p.step (.sign call)).state.vault = p.state.vault := hstate
  by_cases hk : call.key = k
  · rcases call.own with hlocal | ⟨itemId, hid⟩
    · refine h.read hvault fun P hP hs => ?_
      have hstable : P (signBodyAfterGuard call.ssh (p.state.context call.ctx) p.state call.key
          .local call.fields).2.store :=
        signBody_stable (hk.symm ▸ hP) call.ssh call.fields hs
      rw [← hlocal] at hstable
      exact hstable
    · exact absurd hreadable (reserved_of_opKvKey (hk ▸ hid))
  · exact h.kept (sameSecret_of_vault hvault)
      (congrArg KeySlice.entry ((reads_kept heffect.loads.reads).elsewhere k hk))

end Agent

section Restarting

variable {k : String} {store : Store}

theorem entries_undefineAll (keys : List String) (store : Store) :
    (keys.foldl (fun store key => (store.undefine key).2) store).entries = store.entries := by
  induction keys generalizing store with
  | nil => rfl
  | cons key keys ih => exact ih _

theorem entry_registerDefinition (runner : SourceRunner) (forceEager alreadyLoaded : List String)
    (now : Monotonic) (entry : KvDefinition)
    (h : k ∈ alreadyLoaded ∨ ¬ (entry.key = k ∧ (entry.preload = true ∨ k ∈ forceEager) ∧
      (runSource runner entry.source.lower).isOk = true)) :
    (registerDefinition runner forceEager alreadyLoaded now store entry).entries[k]? =
      store.entries[k]? := by
  unfold registerDefinition
  split
  · rfl
  rename_i ttl httl
  have hdefined := entries_defineWithMeta store entry.key entry.source.lower ttl
    (metaFromWire entry.valueMeta) entry.source.toSourceMeta
  split
  · rename_i e store' heq
    rw [heq] at hdefined
    exact congrArg (·[k]?) hdefined
  rename_i store' heq
  rw [heq] at hdefined
  have hsame : store'.entries[k]? = store.entries[k]? := congrArg (·[k]?) hdefined
  split
  swap
  · exact hsame
  rename_i heager
  split
  · rename_i value hrun
    have hk : entry.key ≠ k := by
      rintro rfl
      simp only [Bool.and_eq_true, Bool.or_eq_true, decide_eq_true_eq] at heager
      rcases h with hloaded | hnot
      · exact heager.2 hloaded
      · exact hnot ⟨rfl, heager.1, by rw [hrun]; rfl⟩
    rw [← hsame]
    exact (StoreOp.apply_elsewhere (Clock.constant now) store'
      (.set entry.key entry.source.lower value ttl store'.controlCap)).entries k hk
  · exact hsame

theorem entry_registerDefinitions (store : Store) (runner : SourceRunner)
    (forceEager alreadyLoaded : List String) (clock : Clock) (i : ℕ) (entries : List KvDefinition)
    (h : k ∈ alreadyLoaded ∨ ¬ ∃ entry ∈ entries, entry.key = k ∧
      (entry.preload = true ∨ k ∈ forceEager) ∧
        (runSource runner entry.source.lower).isOk = true) :
    (registerDefinitions runner forceEager alreadyLoaded clock i entries store).entries[k]? =
      store.entries[k]? := by
  induction entries generalizing store i with
  | nil => rfl
  | cons entry entries ih =>
    refine (ih _ (i + 1) ?_).trans
      (entry_registerDefinition runner forceEager alreadyLoaded _ entry ?_)
    · exact h.imp_right fun hnot ⟨e, he, hk⟩ => hnot ⟨e, List.mem_cons_of_mem _ he, hk⟩
    · exact h.imp_right fun hnot hk => hnot ⟨entry, List.mem_cons_self, hk⟩

theorem entries_restorePersisted (configNames : List String) (persisted : List KvDefinition)
    (store : Store) :
    (restorePersistedDefinitions configNames persisted store).entries = store.entries := by
  apply kept_restorePersisted (P := fun s => s.entries = store.entries)
  · intro s key source ttl valueMeta sourceMeta h
    exact (entries_defineWithMeta s key source ttl valueMeta sourceMeta).trans h
  · rfl

/-- A startup gives a key no value, unless it has none and is preloaded. -/
theorem reconcile_entry (st : Startup) (h : (store.entries[k]?).isSome ∨ ¬ st.Preloads k) :
    (reconcile st store).entries[k]? = store.entries[k]? := by
  have hcleared : (clearConfigOwnedDefinitions st.configNames store).entries = store.entries :=
    entries_undefineAll _ _
  have hregistered := entry_registerDefinitions (clearConfigOwnedDefinitions st.configNames store)
    st.runner st.forceEager store.entries.keys st.clock 0 st.config
    (h.imp_left fun hsome => (KeyMap.mem_keys_iff _ _).mpr hsome)
  rw [hcleared] at hregistered
  unfold reconcile
  simp only
  split
  · exact hregistered
  · exact hregistered
  · unfold purgeStaleImportDefinitions
    rw [entries_undefineAll, entries_restorePersisted]
    exact hregistered

theorem lasts_handOver {s : State} {r : Restart} {v : Bytes} (h : s.store.Lasts k v)
    (hok : (r.handover s).isOk = true) : (r.initialStore s).Lasts k v := by
  obtain ⟨e, he, hlasting⟩ := h
  unfold Restart.initialStore
  split
  · rename_i bundle hbundle
    obtain ⟨e', he', hrestored⟩ := handOver_restored hbundle ⟨he, hlasting.not_hardExpired _⟩
    refine ⟨e', he', ⟨hrestored.value.trans hlasting.value, ?_⟩⟩
    rw [hrestored.hard, hlasting.hard]
    rfl
  · rename_i err herr
    rw [herr] at hok
    cases hok

theorem stands_restart {p : Process} {r : Restart} {persistedKeys : List String}
    (h : Stands k (k ∈ p.persistedKeys) p.state)
    (hfaithful : p.Faithful k (.restart r persistedKeys)) :
    Stands k (k ∈ (p.step (.restart r persistedKeys)).persistedKeys)
      (p.step (.restart r persistedKeys)).state := by
  obtain ⟨hopened, hlocked⟩ := hfaithful
  unfold Process.step
  simp only
  split
  · exact h
  rename_i vault hvault
  have hreconciled := fun hkeep => @reconcile_entry k (r.initialStore p.state)
    { r.startup with clock := r.startup.clock.since r.nowI } hkeep
  have hrestart : p.state.restart r =
      { store := reconcile { r.startup with clock := r.startup.clock.since r.nowI }
          (r.initialStore p.state)
        vault := vault
        file := p.state.file
        now := (r.startup.clock.since r.nowI).last
        log := p.state.log } := by
    unfold State.restart
    rw [hvault]
  rw [hrestart]
  refine ⟨?_, ?_⟩
  · intro v e hv he
    rw [show vault = some (.unlocked v) from hv] at hvault
    obtain ⟨hlasts, hok⟩ := hopened v e hvault he
    have hhanded := lasts_handOver hlasts hok
    refine lasts_of_entry hhanded (hreconciled (Or.inl ?_))
    obtain ⟨e', he', -⟩ := hhanded
    exact Option.isSome_of_eq_some he'
  · intro hv hdeclared
    rw [show vault = some .locked from hv] at hvault
    obtain ⟨hnone, hunloaded⟩ := hlocked hvault hdeclared
    exact (hreconciled (Or.inr hunloaded)).trans hnone

end Restarting

section Runs

variable {k : String}

theorem kind_of_faithful {p : Process} {served : Served}
    (hfaithful : p.Faithful k (.request served)) :
    Kind k (k ∈ p.persistedKeys) (p.state.context (p.declaring served).1) p.state served.2
      (p.reply served) where
  set r plan persist hreq hk haccepts := by
    obtain ⟨ctx, req⟩ := served
    cases hreq
    exact hfaithful hk plan persist haccepts
  unlock code vault e hreq hvault he := by
    obtain ⟨ctx, req⟩ := served
    cases hreq
    exact hfaithful vault e hvault he
  lock vault hreq hvault hdeclared hnone := by
    obtain ⟨ctx, req⟩ := served
    cases hreq
    exact hfaithful vault hvault hdeclared hnone

theorem stands_step (hreadable : rejectReservedNamespaceRead k = none) (p : Process)
    (turn : ProcessEvent) (h : Stands k (k ∈ p.persistedKeys) p.state) (hfaithful : p.Faithful k turn) :
    Stands k (k ∈ (p.step turn).persistedKeys) (p.step turn).state := by
  cases turn with
  | request served =>
    have hafter := @stands_request k (p.state.context (p.declaring served).1) p.state served.2 h
      (kind_of_faithful hfaithful)
    exact ⟨hafter.held, hafter.closed⟩
  | ceremony c web ctx cer request =>
    exact stands_ceremony h (handle_leaves request) hfaithful
  | sign call => exact stands_sign h call hreadable
  | bind ssh clock sockets =>
    exact h.read rfl fun P hP => bindSockets_stable hP ssh _ sockets _
  | discover registry =>
    exact h.kept (sameSecret_of_vault rfl)
      (congrArg (·[k]?) (entries_registerOpDefinitions p.state.store registry))
  | restart r persistedKeys => exact stands_restart h hfaithful

/-- A process that has come up with nothing handed over to it. -/
def Process.cold (st : Startup) (builder : StoreBuilder) (token : BitVec 128)
    (vault : Option VaultState) (file : Stored) (persistedKeys : List String) : Process :=
  ⟨State.cold st builder token vault file, persistedKeys⟩

theorem stands_cold {st : Startup} {builder : StoreBuilder} {token : BitVec 128}
    {vault : Option VaultState} {file : Stored} {persistedKeys : List String}
    (hvault : ∀ v, vault ≠ some (.unlocked v))
    (hunloaded : vault = some .locked → k ∈ persistedKeys → ¬ st.Preloads k) :
    Stands k (k ∈ persistedKeys) (State.cold st builder token vault file) where
  held v _ hv := absurd hv (hvault v)
  closed hlocked hdeclared := reconcile_entry st (Or.inr (hunloaded hlocked hdeclared))

theorem answers_reserved {p : Process} {resp : Response}
    (hreserved : rejectReservedNamespaceRead k = some resp) (ctx : HandlerCtx) (dryRun : Bool) :
    Answers k p ctx dryRun := by
  obtain ⟨e, rfl⟩ := stops_rejectReservedNamespaceRead k resp hreserved
  have hget : ∀ ctx' s, handleRequest ctx' s (.kvGet k dryRun) = (.err e, s) := by
    intro ctx' s
    show handleGet ctx' s k dryRun = _
    unfold handleGet gateGet
    rw [hreserved]
  have hreply : p.reply (ctx, .kvGet k dryRun) = .err e := congrArg Prod.fst (hget _ p.state)
  refine ⟨?_, fun _ _ => ⟨⟨e, hreply⟩, ?_⟩⟩
  · intro vault e' v _ _ hok
    rw [hreply] at hok
    cases hok
  · exact congrArg (fun handled : Response × State => handled.2.log) (hget _ p.state)

theorem answers_of_stands {p : Process} (h : Stands k (k ∈ p.persistedKeys) p.state)
    (ctx : HandlerCtx) (dryRun : Bool) : Answers k p ctx dryRun := by
  have heffect := handleRequest_effect (p.state.context (p.declaring (ctx, .kvGet k dryRun)).1)
    p.state (.kvGet k dryRun)
  refine ⟨?_, ?_⟩
  · intro vault e v hvault he hreply
    have hlasts : (handleRequest (p.state.context (p.declaring (ctx, .kvGet k dryRun)).1) p.state
        (.kvGet k dryRun)).2.store.Lasts k e.secret :=
      handleGet_lasts dryRun (h.held vault e hvault he)
    rw [show (handleRequest _ p.state (.kvGet k dryRun)).1 = _ from hreply] at heffect
    generalize (handleRequest (p.state.context (p.declaring (ctx, .kvGet k dryRun)).1) p.state
      (.kvGet k dryRun)).2 = after at heffect hlasts
    cases heffect with
    | read _ _ _ store calls hreads hvalue horigin =>
      obtain ⟨seed, hseed, hgiven⟩ := hvalue v rfl
      have hmeta : metaOf store k = metaOf p.state.store k := by
        unfold metaOf
        rw [(reads_kept hreads).definitions]
      rw [hlasts.value_eq hseed, hmeta] at hgiven
      exact hgiven
  · intro hlocked hdeclared
    obtain ⟨herr, hlog, -⟩ := @handleGet_unavailable
      (p.state.context (p.declaring (ctx, .kvGet k dryRun)).1) p.state k dryRun
      (h.closed hlocked hdeclared) _ (vaultOwnership_locked hlocked hdeclared)
    exact ⟨herr, hlog⟩

end Runs

namespace Declared

def startup : Startup where
  config := []
  persisted := .disabled
  runner _ _ _ := .error .noProgram
  forceEager := []
  clock := Clock.constant Monotonic.zero

/-- A daemon that comes up beside a vault with nothing in it, with one key
declared persistent. -/
def locked : Process :=
  Process.cold startup ⟨Duration.zero⟩ 0 (some .locked) (.holds Bench.plainVault) ["ns/k"]

def stored : List ProcessEvent := [.request unlockPlain, .request (.quiet, .kvSet setStored)]

theorem setsPersisted_stored :
    (run Process.step locked [.request unlockPlain]).SetsPersisted "ns/k"
      (.request (.quiet, .kvSet setStored)) := by
  intro _ plan persist haccepts
  exact ⟨(gated_of_gateSet _ _ haccepts.gate).chosen, .set [] (some 1) none, by decide⟩

/-- A context in which the command gives a value and everything is approved, at
a second. -/
def fetching (n : UInt64) : HandlerCtx :=
  { HandlerCtx.quiet with
    auth := fun _ => .ok ()
    runner := fun _ _ _ => .ok [9]
    clock := Clock.constant ⟨Duration.fromSecs n⟩ }

def get (n : UInt64) : Served := (fetching n, .kvGet "ns/k" false)

/-- The value that was stored is deleted, a command is defined for the key, its
value is fetched for ten seconds, and the vault is locked. -/
def fetched : List ProcessEvent :=
  stored ++
    [.request (.quiet, .kvDel "ns/k" false),
      .request (.quiet, .kvDefine "ns/k" (.command ⟨["fetch"], none, ∅⟩) none (some 10) ⟨none, ∅⟩),
      .request (get 0), .request (.quiet, .vaultLock)]

end Declared

end Daemon

end CacheWarden
