import CacheWarden.Daemon.Mediation
import CacheWarden.Daemon.Rollback

/-!
# The private key behind a signature

A registry leads a public key to the store key that holds its private half. It is
written when a socket binds and when a discovery is applied; the value under the
store key can change at any time. A signature is for the public key it was asked
for as long as every value that comes under a registered key derives it.
-/

set_option autoImplicit false

namespace CacheWarden

/-- The private key has this public half. -/
def SshKeys.Derives (ssh : SshKeys) (pem : Bytes) (b : Blob) : Prop :=
  (ssh.publicKeyBlobFromPem pem).map Prod.fst = some b

namespace Daemon

open Store Transition

/-- The value that a key signs with, once it is loaded. -/
def signingValue (ctx : HandlerCtx) (s : State) (kvKey : String) (source : KeySource) :
    Option Bytes :=
  let loaded := ensureLoaded ctx s kvKey source
  if !loaded.1 then none
  else ((loaded.2.store.get kvKey s.store.controlCap (ctx.clock.now 4)).1.toOption).join

def Pass.ctx : Pass → HandlerCtx
  | .first _ _ ctx _ => ctx
  | .second _ _ ctx _ => ctx

/-- The sign request that a pass serves, and where its key is loaded from. -/
def Pass.signRequest : Pass → Option (SignRequestFields × KeySource)
  | .first _ _ _ (.sign _ msg _ key) =>
    msg.parseSignRequest.toOption.map fun fields => (fields, key.source)
  | .second _ gated _ (.sign source _) =>
    match gated.access with
    | .sign _ _ msg => msg.parseSignRequest.toOption.map fun fields => (fields, source)
    | .get => none
  | _ => none

namespace Sockets

/-- A live registry leads the public key to the store key, or it has led there a
pass that is still on its way to the store. -/
inductive Leads (self : Sockets) (b : Blob) (k : String) : Prop
  | listed (agent : SocketState) (entry : RegisteredKey) (hagent : agent ∈ self.agents)
      (hlookup : agent.target.live.lookup b = some entry) (hk : entry.kvKey = k)
  | resolved (id : ℕ) (peer : Peer) (socket : ℕ) (msg : AgentMessage) (fields : SignRequestFields)
      (key : RegisteredKey) (hpass : self.passes id = some (.resolved peer socket msg fields key))
      (hb : fields.keyBlob = b) (hk : key.kvKey = k)
  | approved (id : ℕ) (fields : SignRequestFields) (gated : NeedsApproval)
      (hpass : self.passes id = some (.approved fields)) (hgated : self.approved id = some gated)
      (hb : fields.keyBlob = b) (hk : gated.key = k)

/-- The store key that an event reads. -/
def keyRead (self : Sockets) (e : SocketEvent) : Option String := (self.pass e).map Pass.key

/-- What the commands gave that were run in an event. -/
def fetched (ssh : SshKeys) (libs : MatchLibs) (self : Sockets) (e : SocketEvent) : List Bytes :=
  let calls := (self.step ssh libs e).daemon.log.drop self.daemon.log.length
  match self.pass e with
  | some pass => sourceValues pass.ctx.runner calls
  | none => []

/-- The signature that an event gives away was made with this value, for this
request. -/
structure SignedWithValue (ssh : SshKeys) (sockets : Sockets) (e : SocketEvent) (rel : Release)
    (fields : SignRequestFields) (pem : Bytes) : Prop where
  value : ∃ source, (sockets.pass e).bind Pass.signRequest = some (fields, source) ∧
    signingValue rel.ctx sockets.daemon rel.key source = some pem
  reply : ∃ sig, ssh.sign pem fields.data fields.flags = some sig ∧
    rel.reply = .message (.signResponse sig)

end Sockets

/-- A discovered key that is served from the start derives from the value that
the store has for it, if it has one. -/
def Seeded (ssh : SshKeys) (store : Store) (sockets : List AgentSocket) : Prop :=
  ∀ socket ∈ sockets, ∀ entry, socket.seed.Serves ssh entry →
    ∀ v, heldValue store entry.kvKey = some v → ssh.Derives v entry.keyBlob

namespace Sockets

/-- The sockets of a process, bound over the store it comes up with. -/
def bound (ssh : SshKeys) (daemon : State) (kvProcessPolicies : KeyMap (List String))
    (sockets : List (AgentSocket × FilterEvaluator)) (clock : Clock) : Sockets :=
  let (targets, store) := bindSockets ssh clock (sockets.map Prod.fst) daemon.store
  starting { daemon with store := store, now := clock.last } kvProcessPolicies
    (List.zipWith SocketState.mk targets (sockets.map Prod.snd))

end Sockets

/-- Whatever comes under a registered key derives the public keys it is
registered for, or under which a pass has found it, and what a discovery registers
derives from what is held. -/
structure KeysKept (ssh : SshKeys) (libs : MatchLibs) (sockets : Sockets) (e : SocketEvent) :
    Prop where
  written : ∀ id peer ctx r plan persist, e = .arrive id peer ctx (.control (.kvSet r)) →
    Accepts (sockets.contextOf peer ctx) sockets.daemon r plan persist →
      ∀ b, sockets.Leads b r.key → ssh.Derives plan.bytes b
  restored : ∀ id peer ctx code, e = .arrive id peer ctx (.control (.vaultUnlock code)) →
    ∀ k entry v, Copy k sockets.daemon entry → broughtBack entry = some v →
      ∀ b, sockets.Leads b k → ssh.Derives v b
  fetched : ∀ k, sockets.keyRead e = some k → ∀ v ∈ sockets.fetched ssh libs e,
    ∀ b, sockets.Leads b k → ssh.Derives v b
  discovered : ∀ socket r agent, e = .discover socket r → sockets.agents[socket]? = some agent →
    ∀ b entry, (agent.target.applyDiscovery ssh r).live.lookup b = some entry →
      ∀ v, heldValue sockets.daemon.store entry.kvKey = some v → ssh.Derives v b
  seeded : ∀ r, e = .restart r →
    Seeded ssh (sockets.daemon.restart r.restart).store (r.sockets.map Prod.fst)

/-- Every value held under a registered key derives the public key. -/
def Agreed (ssh : SshKeys) (self : Sockets) : Prop :=
  ∀ b k, self.Leads b k → ∀ v, heldValue self.daemon.store k = some v → ssh.Derives v b

section Loading

variable {ssh : SshKeys} {libs : MatchLibs} {ctx : HandlerCtx} {s s' : State} {key : String}
  {source : KeySource} {fields : SignRequestFields}

theorem signBody_log :
    (signBodyAfterGuard ssh ctx s key source fields).2.log =
      (ensureLoaded ctx s key source).2.log := by
  unfold signBodyAfterGuard
  simp only
  split
  · rfl
  · split
    · split <;> rfl
    · rfl

/-- A signature is made with the value that is read. -/
theorem signBody_signs (hsigned : (signBodyAfterGuard ssh ctx s key source fields).1.msgType =
      .signResponse) :
    ∃ pem sig, signingValue ctx s key source = some pem ∧
      ssh.sign pem fields.data fields.flags = some sig ∧
        (signBodyAfterGuard ssh ctx s key source fields).1 = .signResponse sig := by
  unfold signBodyAfterGuard at hsigned ⊢
  unfold signingValue
  simp only at hsigned ⊢
  split at hsigned
  · cases hsigned
  · rename_i hloaded
    rw [if_neg hloaded]
    split at hsigned
    · rename_i pem hpem
      rw [hpem]
      split at hsigned
      · rename_i sig hsig
        exact ⟨pem, sig, rfl, hsig, by simp [hloaded]⟩
      · cases hsigned
    · cases hsigned

/-- What is signed with was held, or was fetched to sign with it. -/
theorem signingValue_origin {pem : Bytes} (h : signingValue ctx s key source = some pem) :
    heldValue s.store key = some pem ∨ pem ∈ sourceValues ctx.runner
      ((signBodyAfterGuard ssh ctx s key source fields).2.log.drop s.log.length) := by
  obtain ⟨calls, hloads⟩ := @ensureLoaded_loads ctx s key source
  rw [signBody_log]
  unfold signingValue at h
  simp only at h
  split at h
  · cases h
  · have hlog := congrArg State.log hloads.state
    rw [hlog, List.drop_left]
    have hget : ((ensureLoaded ctx s key source).2.store.get key s.store.controlCap
        (ctx.clock.now 4)).1 = .ok (some pem) := by
      cases hread : ((ensureLoaded ctx s key source).2.store.get key s.store.controlCap
        (ctx.clock.now 4)).1 with
      | error e =>
        rw [hread] at h
        cases h
      | ok v =>
        rw [hread] at h
        exact congrArg Except.ok h
    rcases hloads.origin pem (get_value hget) with hbefore | hyields
    · exact Or.inl hbefore
    · exact Or.inr (sourceValues_mem hyields)

/-- Signing puts nothing under a key but what was fetched to sign with it. -/
theorem heldValue_signBody {k : String} {v : Bytes}
    (h : heldValue (signBodyAfterGuard ssh ctx s key source fields).2.store k = some v) :
    heldValue s.store k = some v ∨ key = k ∧ v ∈ sourceValues ctx.runner
      ((signBodyAfterGuard ssh ctx s key source fields).2.log.drop s.log.length) := by
  obtain ⟨calls, heffect⟩ := @signBody_effect ssh ctx s key source fields
  have hlog := congrArg State.log heffect.loads.state
  rcases heldValue_read heffect.loads.reads heffect.loads.origin h with hbefore | ⟨hk, hyields⟩
  · exact Or.inl hbefore
  · rw [hlog, List.drop_left]
    exact Or.inr ⟨hk, sourceValues_mem hyields⟩

end Loading

section Passes

variable {ssh : SshKeys} {libs : MatchLibs} {ctx : HandlerCtx} {s s' : State}
  {agent : SocketState} {msg resp : AgentMessage}

/-- A pass that takes the store signs for the key it is given, or leaves the state
alone and fails. -/
def SignsOrFails (ssh : SshKeys) (ctx : HandlerCtx) (s : State) (kvKey : String)
    (source : KeySource) (fields : SignRequestFields) (resp : AgentMessage) (s' : State) : Prop :=
  resp = .failure ∧ s' = s ∨ signBodyAfterGuard ssh ctx s kvKey source fields = (resp, s')

theorem signResolved_direct {fields : SignRequestFields} {key : RegisteredKey}
    (h : signResolved ssh ctx s fields key = (.direct resp, s')) :
    SignsOrFails ssh ctx s key.kvKey key.source fields resp s' := by
  unfold signResolved at h
  split at h
  · cases h
    exact Or.inl ⟨rfl, rfl⟩
  split at h
  · cases h
    exact Or.inr rfl
  · cases h
  · cases h
    exact Or.inl ⟨rfl, rfl⟩
  · cases h
    exact Or.inl ⟨rfl, rfl⟩

theorem signApproved_signs {kvKey : String} {source : KeySource} {fields : SignRequestFields}
    (h : signApproved ssh ctx s kvKey source fields = (resp, s')) :
    SignsOrFails ssh ctx s kvKey source fields resp s' := by
  unfold signApproved at h
  split at h
  · exact Or.inr h
  · exact Or.inr h
  · cases h
    exact Or.inl ⟨rfl, rfl⟩
  · cases h
    exact Or.inl ⟨rfl, rfl⟩

theorem guardedGetFirstPass_state (key : String) :
    (guardedGetFirstPass ctx s key).2 = s ∨ (guardedGetFirstPass ctx s key).2 =
      (handleRequest { ctx with guardCheckMode := .evaluate } s (.kvGet key false)).2 := by
  unfold guardedGetFirstPass
  split
  · exact Or.inr rfl
  split
  · exact Or.inl rfl
  split
  · exact Or.inl rfl
  split
  · exact Or.inl rfl
  split <;> exact Or.inl rfl

theorem guardedGetFinalize_state (key : String) :
    (guardedGetFinalizeAfterApproval ctx s key).2 = s ∨
      (guardedGetFinalizeAfterApproval ctx s key).2 =
        (handleRequest { ctx with guardCheckMode := .alreadyApproved } s (.kvGet key false)).2 := by
  unfold guardedGetFinalizeAfterApproval
  simp only
  split
  · exact Or.inr rfl
  split
  · exact Or.inl rfl
  split
  · exact Or.inr rfl
  · exact Or.inl rfl

/-- Only a get of the key has its source give a value. -/
theorem produced_mem {k : String} {v : Bytes} {req : Request} (h : v ∈ produced k ctx s s' req) :
    req.key? = some k ∧ v ∈ sourceValues ctx.runner (s'.log.drop s.log.length) := by
  unfold produced at h
  split at h
  · split at h
    · rename_i key dryRun hk
      exact ⟨congrArg some hk, h⟩
    · cases h
  · cases h

theorem heldValue_request {k : String} {v : Bytes} {req : Request}
    (h : heldValue (handleRequest ctx s req).2.store k = some v) :
    heldValue s.store k = some v ∨ PutIn k ctx s (handleRequest ctx s req).2 req v :=
  heldValue_effect (handleRequest_effect ctx s req) h

end Passes

section Events

variable {ssh : SshKeys} {libs : MatchLibs} {self : Sockets} {peer : Peer} {ctx : HandlerCtx}
  {k : String} {v : Bytes}

/-- What comes under a key in a first pass. -/
theorem heldValue_firstPass {task : Task} {reply : Reply} {s' : State}
    (hmode : ctx.guardCheckMode = .evaluate)
    (hpass : self.firstPass ssh peer ctx task = (.replied reply, s'))
    (h : heldValue s'.store k = some v) :
    heldValue self.daemon.store k = some v ∨
      (∃ req, task = .request req ∧ PutIn k ctx self.daemon s' req v) ∨
        task.key = k ∧ v ∈ sourceValues ctx.runner (s'.log.drop self.daemon.log.length) := by
  cases task with
  | request req =>
    have hhandled : s' = (handleRequest ctx self.daemon req).2 →
        heldValue self.daemon.store k = some v ∨ PutIn k ctx self.daemon s' req v := by
      rintro rfl
      exact heldValue_request h
    have hstate : s' = self.daemon ∨ s' = (handleRequest ctx self.daemon req).2 := by
      simp only [Sockets.firstPass] at hpass
      split at hpass
      · rename_i key
        have hget := @guardedGetFirstPass_state ctx self.daemon key
        rw [← hmode] at hget
        split at hpass
        · rename_i resp s hfirst
          cases hpass
          rw [hfirst] at hget
          exact hget
        · cases hpass
      · cases hpass
        exact Or.inr rfl
    rcases hstate with rfl | hstate
    · exact Or.inl h
    · rcases hhandled hstate with hbefore | hput
      · exact Or.inl hbefore
      · exact Or.inr (Or.inl ⟨req, rfl, hput⟩)
  | sign socket msg fields key =>
    simp only [Sockets.firstPass] at hpass
    split at hpass
    · rename_i resp s hresp
      cases hpass
      rcases signResolved_direct hresp with ⟨-, rfl⟩ | hsigned
      · exact Or.inl h
      · have hstate := congrArg Prod.snd hsigned
        simp only at hstate
        subst hstate
        rcases heldValue_signBody h with hbefore | hfetched
        · exact Or.inl hbefore
        · exact Or.inr (Or.inr hfetched)
    · cases hpass

/-- What comes under a key in a second pass. -/
theorem heldValue_secondPass {gated : NeedsApproval} {completion : Completion}
    (h : heldValue (self.secondPass ssh gated ctx completion).2.store k = some v) :
    heldValue self.daemon.store k = some v ∨ gated.key = k ∧ v ∈ sourceValues ctx.runner
      ((self.secondPass ssh gated ctx completion).2.log.drop self.daemon.log.length) := by
  cases completion with
  | get =>
    have hstate : (self.secondPass ssh gated ctx .get).2 =
        (guardedGetFinalizeAfterApproval ctx self.daemon gated.key).2 := rfl
    rw [hstate] at h ⊢
    rcases @guardedGetFinalize_state ctx self.daemon gated.key with hsame | hhandled
    · rw [hsame] at h
      exact Or.inl h
    · rw [hhandled] at h ⊢
      rcases heldValue_request h with hbefore | hput
      · exact Or.inl hbefore
      · cases hput with
        | produced req v hproduced =>
          obtain ⟨hk, hfetched⟩ := produced_mem hproduced
          exact Or.inr ⟨Option.some.inj hk, hfetched⟩
  | sign source fields =>
    cases hsigned : signApproved ssh ctx self.daemon gated.key source fields with
    | mk resp s' =>
      have hstate : (self.secondPass ssh gated ctx (.sign source fields)).2 = s' :=
        congrArg Prod.snd hsigned
      rw [hstate] at h ⊢
      rcases signApproved_signs hsigned with ⟨-, rfl⟩ | hbody
      · exact Or.inl h
      · have hstate := congrArg Prod.snd hbody
        simp only at hstate
        subst hstate
        exact heldValue_signBody h

end Events

section Binding

variable {ssh : SshKeys} {store : Store} {k : String} {v : Bytes}

theorem heldValue_get {key : String} {cap : Capability} {now : Monotonic}
    (h : heldValue (store.get key cap now).2 k = some v) : heldValue store k = some v := by
  have hreads := store.get_reads key cap (fun _ _ _ => .error .noProgram) now
    (Monotonic.le_refl now)
  by_cases hk : key = k
  · subst hk
    rcases reads_value hreads h with hbefore | ⟨argv, cwd, env, hrun⟩
    · exact hbefore
    · cases hrun
  · exact heldValue_of_entry (congrArg KeySlice.entry ((reads_kept hreads).elsewhere k hk)) h

theorem heldValue_registerOpDefinitions {registry : PublicKeyRegistry}
    (h : heldValue (registerOpDefinitions store registry) k = some v) :
    heldValue store k = some v := by
  have hentries : ∀ (keys : List RegisteredKey) (store : Store),
      (keys.foldl registerOpDefinition store).entries = store.entries := by
    intro keys
    induction keys with
    | nil => exact fun _ => rfl
    | cons key keys ih =>
      intro store
      rw [List.foldl_cons, ih, registerOpDefinition_eq]
      cases opDefinition key with
      | none => rfl
      | some d =>
        obtain ⟨definitions, hstore, -⟩ :=
          defineWithMeta_eq store key.kvKey d.source d.ttl d.valueMeta d.sourceMeta
        show (store.defineWithMeta key.kvKey d.source d.ttl d.valueMeta d.sourceMeta).2.entries =
          store.entries
        rw [hstore]
  unfold registerOpDefinitions at h
  refine heldValue_of_entry ?_ h
  exact congrArg (·[k]?) (hentries registry.allKeys store)

/-- Every key of the registry derives from a value that the store has for it. -/
def Backed (ssh : SshKeys) (store : Store) (registry : PublicKeyRegistry) : Prop :=
  ∀ b entry, registry.lookup b = some entry →
    ∃ pem, heldValue store entry.kvKey = some pem ∧ ssh.Derives pem b

theorem backed_registerFromPem {registry : PublicKeyRegistry} (h : Backed ssh store registry)
    {kvKey : String} {pem : Bytes} (hheld : heldValue store kvKey = some pem) :
    Backed ssh store ((registry.registerFromPem ssh kvKey pem).getD registry) := by
  intro b entry hb
  unfold PublicKeyRegistry.registerFromPem at hb
  cases hderived : ssh.publicKeyBlobFromPem pem with
  | none => exact h b entry (by simpa [hderived] using hb)
  | some derived =>
    obtain ⟨keyBlob, comment⟩ := derived
    simp only [hderived, Option.map_some, Option.getD_some, PublicKeyRegistry.lookup_insert] at hb
    split at hb
    · rename_i hblob
      cases hb
      exact ⟨pem, hheld, by rw [SshKeys.Derives, hderived, ← hblob]; rfl⟩
    · exact h b entry hb

theorem buildRegistry_backed (keys : List String) (cap : Capability) (clock : Clock) :
    Backed ssh store (buildRegistry ssh keys store cap clock).1 ∧
      ∀ k v, heldValue (buildRegistry ssh keys store cap clock).2 k = some v →
        heldValue store k = some v := by
  have hgo : ∀ (keys : List String) (registry : PublicKeyRegistry) (now : Store) (clock : Clock),
      Backed ssh store registry → (∀ k v, heldValue now k = some v → heldValue store k = some v) →
        Backed ssh store (buildRegistry.go ssh cap registry keys now clock).1 ∧
          ∀ k v, heldValue (buildRegistry.go ssh cap registry keys now clock).2 k = some v →
            heldValue store k = some v := by
    intro keys
    induction keys with
    | nil => exact fun _ _ _ hbacked hkept => ⟨hbacked, hkept⟩
    | cons kvKey keys ih =>
      intro registry now clock hbacked hkept
      have hget : ∀ k v, heldValue (now.get kvKey cap (clock.now 0)).2 k = some v →
          heldValue store k = some v := fun k v h => hkept k v (heldValue_get h)
      unfold buildRegistry.go
      dsimp only
      split
      · rename_i pem hpem
        exact ih _ _ _ (backed_registerFromPem hbacked (hkept kvKey pem (get_value hpem))) hget
      · exact ih _ _ _ hbacked hget
  apply hgo keys _ store clock
  · intro b entry hb
    simp [PublicKeyRegistry.new, PublicKeyRegistry.lookup] at hb
  · exact fun _ _ h => h

theorem bindSocket_agreed (clock : Clock) {socket : AgentSocket}
    (hseeded : ∀ entry, socket.seed.Serves ssh entry →
      ∀ v, heldValue store entry.kvKey = some v → ssh.Derives v entry.keyBlob) :
    (∀ b entry, (bindSocket ssh clock store socket).1.live.lookup b = some entry →
      ∀ v, heldValue store entry.kvKey = some v → ssh.Derives v b) ∧
      ∀ k v, heldValue (bindSocket ssh clock store socket).2 k = some v →
        heldValue store k = some v := by
  obtain ⟨hbacked, hkept⟩ := @buildRegistry_backed ssh store socket.keys store.controlCap clock
  constructor
  · intro b entry hb v hv
    have hlookup : (bindSocket ssh clock store socket).1.live.lookup b =
        (overlaid (socket.seed.entries ssh) b).or
          ((buildRegistry ssh socket.keys store store.controlCap clock).1.lookup b) :=
      lookup_applyDiscovery ssh ⟨_, PublicKeyRegistry.new⟩ socket.seed b
    rw [hlookup] at hb
    cases hlaid : overlaid (socket.seed.entries ssh) b with
    | some laid =>
      rw [hlaid] at hb
      cases hb
      obtain ⟨-, rfl⟩ := overlaid_mem hlaid
      exact hseeded entry hlaid v hv
    | none =>
      rw [hlaid] at hb
      obtain ⟨pem, hpem, hderives⟩ := hbacked b entry hb
      rw [hpem] at hv
      cases hv
      exact hderives
  · intro k v h
    exact hkept k v (heldValue_registerOpDefinitions h)

/-- What the sockets serve when they are bound derives from what is held then. -/
theorem bindSockets_agreed (clock : Clock) {sockets : List AgentSocket}
    (hseeded : Seeded ssh store sockets) :
    (∀ target ∈ (bindSockets ssh clock sockets store).1, ∀ b entry,
      target.live.lookup b = some entry →
        ∀ v, heldValue (bindSockets ssh clock sockets store).2 entry.kvKey = some v →
          ssh.Derives v b) ∧
      ∀ k v, heldValue (bindSockets ssh clock sockets store).2 k = some v →
        heldValue store k = some v := by
  induction sockets generalizing store with
  | nil => exact ⟨fun _ h => (by cases h), fun _ _ h => h⟩
  | cons socket sockets ih =>
    obtain ⟨hfirst, hkept⟩ := @bindSocket_agreed ssh store clock socket
      (hseeded socket List.mem_cons_self)
    have hrest : Seeded ssh (bindSocket ssh clock store socket).2 sockets := by
      intro other hother entry hserves v hv
      exact hseeded other (List.mem_cons_of_mem _ hother) entry hserves v (hkept _ v hv)
    obtain ⟨hothers, hkept'⟩ := ih hrest
    constructor
    · intro target htarget b entry hb v hv
      rcases List.mem_cons.mp htarget with rfl | htarget
      · exact hfirst b entry hb v (hkept _ v (hkept' _ v hv))
      · exact hothers target htarget b entry hb v hv
    · exact fun k v h => hkept k v (hkept' k v h)

theorem bound_agreed (daemon : State) (policies : KeyMap (List String))
    (sockets : List (AgentSocket × FilterEvaluator)) (clock : Clock)
    (hseeded : Seeded ssh daemon.store (sockets.map Prod.fst)) :
    Agreed ssh (Sockets.bound ssh daemon policies sockets clock) := by
  intro b k hleads v hv
  obtain ⟨agent, entry, hagent, hlookup, rfl⟩ : ∃ agent entry,
      agent ∈ (Sockets.bound ssh daemon policies sockets clock).agents ∧
        agent.target.live.lookup b = some entry ∧ entry.kvKey = k := by
    cases hleads with
    | listed agent entry hagent hlookup hk => exact ⟨agent, entry, hagent, hlookup, hk⟩
    | resolved _ _ _ _ _ _ hpass => cases hpass
    | approved _ _ _ hpass => cases hpass
  have htarget : agent.target ∈ (bindSockets ssh clock (sockets.map Prod.fst) daemon.store).1 := by
    obtain ⟨i, hi, hget⟩ := List.mem_iff_getElem.mp hagent
    unfold Sockets.bound Sockets.starting at hi hget
    simp only [List.length_zipWith] at hi
    simp only [List.getElem_zipWith] at hget
    rw [← hget]
    exact List.getElem_mem (by omega)
  exact (bindSockets_agreed clock hseeded).1 agent.target htarget b entry hlookup v hv

theorem rebind_eq (self : Sockets) (r : Rebind) :
    self.rebind ssh r = .bound ssh (self.daemon.restart r.restart) r.kvProcessPolicies r.sockets
      (r.clock.since (self.daemon.restart r.restart).now) := rfl

end Binding

section Runs

variable {ssh : SshKeys} {libs : MatchLibs} {self self' : Sockets} {e : SocketEvent}

/-- Where the passes under way have been: the request that each has read is its
own, and one that goes on after an approval has that approval. -/
structure Underway (sockets : Sockets) : Prop where
  resolved : ∀ id peer socket msg fields key,
    sockets.passes id = some (.resolved peer socket msg fields key) →
      msg.parseSignRequest = .ok fields
  approved : ∀ id fields, sockets.passes id = some (.approved fields) →
    ∃ gated socket source msg, sockets.approved id = some gated ∧
      gated.access = .sign socket source msg ∧ msg.parseSignRequest = .ok fields

/-- A pass under way was so before, or has just read the registry. -/
theorem passes_turns (ht : Turns ssh libs self e self') {id : ℕ} {pass : SignPass}
    (h : self'.passes id = some pass) : self.passes id = some pass ∨ self.Found libs id pass := by
  have hleft : ∀ id', Function.update self.passes id' none id = some pass →
      self.passes id = some pass := by
    intro id' hupdate
    by_cases hid : id = id'
    · subst hid
      rw [Function.update_self] at hupdate
      cases hupdate
    · rwa [Function.update_of_ne hid] at hupdate
  cases ht with
  | held _ id' pass' hfound =>
    simp only [Sockets.hold, Function.update_apply] at h
    split at h
    · rename_i hid
      subst hid
      cases h
      exact Or.inr hfound
    · exact Or.inl h
  | dropped _ id' => exact Or.inl (hleft id' h)
  | served _ id' => exact Or.inl (hleft id' h)
  | suspended _ id' => exact Or.inl (hleft id' h)
  | finalized _ id' => exact Or.inl (hleft id' h)
  | rebound r => cases h
  | _ => exact Or.inl h

theorem stays_returned {slot slot' : ApproverSlot} {de : DialogEvent} (hm : Moves slot de slot')
    {id leader : ℕ} {req : ApproveRequest} {outcome : ApprovalOutcome}
    (h : slot.call id = .returned req outcome leader) :
    slot'.call id = .returned req outcome leader := by
  cases hm <;> grind -ring -linarith

/-- A request that was approved stays so while its second pass is under way. -/
theorem approved_turns (ht : Turns ssh libs self e self') {id : ℕ} {gated : NeedsApproval}
    (h : self.approved id = some gated) (hunderway : self'.passes id ≠ none) :
    self'.approved id = some gated := by
  have hcalled : ∀ {self' : Sockets} (de : DialogEvent),
      self'.dialogs = self.dialogs.step de → self'.gated id = self.gated id →
        self'.finished id = self.finished id → self'.approved id = some gated := by
    intro self' de hdialogs hgated hfinished
    unfold Sockets.approved at h ⊢
    split at h
    · rename_i req leader hcall
      rw [hdialogs, stays_returned (step_moves self.dialogs de) hcall, hgated, hfinished]
      exact h
    · cases h
  have hfinished : ∀ {self' : Sockets} (id' : ℕ), self'.dialogs = self.dialogs →
      self'.gated = self.gated → self'.finished = Function.update self.finished id' true →
        (id' = id → self'.passes id = none) → self'.passes id ≠ none →
          self'.approved id = some gated := by
    intro self' id' hdialogs hgated hfinished hleft hunderway
    have hid : id ≠ id' := fun hid => hunderway (hleft hid.symm)
    unfold Sockets.approved at h ⊢
    rw [hdialogs, hgated, hfinished, Function.update_of_ne hid]
    exact h
  cases ht with
  | refused _ id' hnone => exact hfinished id' rfl rfl rfl (fun hid => hid ▸ hnone) hunderway
  | finalized _ id' =>
    exact hfinished id' rfl rfl rfl (fun hid => hid ▸ Function.update_self ..) hunderway
  | suspended _ id' peer ctx task gated' s hpass habsent hfirst =>
    have hid : id ≠ id' := by
      rintro rfl
      unfold Sockets.approved at h
      rw [habsent] at h
      cases h
    refine hcalled (.arrive id' (buildApproveRequest gated')) rfl ?_ rfl
    simp [Sockets.suspend, Sockets.leave, Sockets.settle, hid]
  | passkey id' => exact hcalled (.arrive id' passkeyRequest) rfl rfl rfl
  | dialog de hnew => exact hcalled de rfl rfl rfl
  | rebound r => exact absurd rfl hunderway
  | _ => exact h

theorem underway_turns (h : Underway self) (ht : Turns ssh libs self e self') : Underway self' where
  resolved id peer socket msg fields key hpass := by
    rcases passes_turns ht hpass with hbefore | ⟨agent, -, hresolved⟩
    · exact h.resolved id peer socket msg fields key hbefore
    · exact (resolveSign_eq_some.mp hresolved).1
  approved id fields hpass := by
    have hunderway : self'.passes id ≠ none := by simp [hpass]
    rcases passes_turns ht hpass with hbefore | ⟨gated, socket, source, msg, agent, happroved,
      haccess, -, hresolved⟩
    · obtain ⟨gated, socket, source, msg, happroved, haccess, hparse⟩ := h.approved id fields hbefore
      exact ⟨gated, socket, source, msg, approved_turns ht happroved hunderway, haccess, hparse⟩
    · exact ⟨gated, socket, source, msg, approved_turns ht happroved hunderway, haccess,
        (resolveApproved_eq_some.mp hresolved).1⟩

/-- Where a public key leads after an event it led before, unless the registries
have changed. -/
theorem leads_turns (hunderway : Underway self) (ht : Turns ssh libs self e self') {b : Blob}
    {k : String} (h : self'.Leads b k) :
    self.Leads b k ∨ ∃ agent ∈ self'.agents, agent ∉ self.agents ∧
      ∃ entry, agent.target.live.lookup b = some entry ∧ entry.kvKey = k := by
  cases h with
  | listed agent entry hagent hlookup hk =>
    by_cases hbefore : agent ∈ self.agents
    · exact Or.inl (.listed agent entry hbefore hlookup hk)
    · exact Or.inr ⟨agent, hagent, hbefore, entry, hlookup, hk⟩
  | resolved id peer socket msg fields key hpass hb hk =>
    left
    rcases passes_turns ht hpass with hbefore | ⟨agent, hagent, hresolved⟩
    · exact .resolved id peer socket msg fields key hbefore hb hk
    · subst hb
      exact .listed agent key (List.mem_of_getElem? hagent)
        (signableKey_lookup (resolveSign_eq_some.mp hresolved).2) hk
  | approved id fields gated hpass hgated hb hk =>
    left
    have hstill : self'.passes id ≠ none := by simp [hpass]
    rcases passes_turns ht hpass with hbefore | ⟨gated', socket, source, msg, agent, happroved,
      haccess, hagent, hresolved⟩
    · obtain ⟨gated', socket, source, msg, happroved, -, -⟩ := hunderway.approved id fields hbefore
      cases (approved_turns ht happroved hstill).symm.trans hgated
      exact .approved id fields gated hbefore happroved hb hk
    · cases (approved_turns ht happroved hstill).symm.trans hgated
      obtain ⟨-, key, hkey, hsame⟩ := resolveApproved_eq_some.mp hresolved
      subst hb
      exact .listed agent key (List.mem_of_getElem? hagent) (signableKey_lookup hkey)
        (hsame.trans hk)

/-- What an event that serves a request brings under a registered key derives
the public key. -/
theorem agreed_of_derived (h : Agreed ssh self) (hunderway : Underway self)
    (ht : Turns ssh libs self e self') (hagents : self'.agents = self.agents)
    (hput : ∀ b k v, self.Leads b k → heldValue self'.daemon.store k = some v →
      heldValue self.daemon.store k = some v ∨ ssh.Derives v b) : Agreed ssh self' := by
  intro b k hleads v hv
  have hbefore : self.Leads b k := by
    rcases leads_turns hunderway ht hleads with hbefore | ⟨agent, hagent, hnew, -⟩
    · exact hbefore
    · rw [hagents] at hagent
      exact absurd hagent hnew
  rcases hput b k v hbefore hv with hheld | hderives
  · exact h b k hbefore v hheld
  · exact hderives

theorem agreed_turns (h : Agreed ssh self) (hunderway : Underway self)
    (hk : KeysKept ssh libs self e) (ht : Turns ssh libs self e self')
    (hstep : self.step ssh libs e = self') : Agreed ssh self' := by
  have hfetches : ∀ {pass : Pass} {s' : State} {b : Blob} {v : Bytes}, self.pass e = some pass →
      self'.daemon.log = s'.log → self.Leads b pass.key →
        v ∈ sourceValues pass.ctx.runner (s'.log.drop self.daemon.log.length) →
          ssh.Derives v b := by
    intro pass s' b v hpass hlog hleads hv
    refine hk.fetched pass.key ?_ v ?_ b hleads
    · unfold Sockets.keyRead
      rw [hpass]
      rfl
    · unfold Sockets.fetched
      simp only [hpass, hstep, hlog]
      exact hv
  have hall := ht
  cases ht with
  | idle => exact h
  | held e id held hfound => exact agreed_of_derived h hunderway hall rfl fun _ _ _ _ => Or.inl
  | dropped e id => exact agreed_of_derived h hunderway hall rfl fun _ _ _ _ => Or.inl
  | refused e id hnone => exact agreed_of_derived h hunderway hall rfl fun _ _ _ _ => Or.inl
  | served e id peer ctx task reply s hpass hfirst =>
    apply agreed_of_derived h hunderway hall rfl
    intro b k v hleads hv
    rcases heldValue_firstPass rfl hfirst hv with hbefore | ⟨req, rfl, hput⟩ | ⟨hread, hfetched⟩
    · exact Or.inl hbefore
    · right
      have he := pass_request hpass
      cases hput with
      | set r plan persist hkey haccepts =>
        subst hkey
        exact hk.written id peer ctx r plan persist he haccepts b hleads
      | unlocked code entry v hcopy hback =>
        exact hk.restored id peer ctx code he k entry v hcopy hback b hleads
      | produced req v hproduced =>
        obtain ⟨hkey, hfetched⟩ := produced_mem hproduced
        have hkey : (Pass.first id peer ctx (.request req)).key = k := by
          simp only [Pass.key, Task.key, hkey, Option.getD_some]
        exact hfetches hpass rfl (hkey.symm ▸ hleads) hfetched
    · right
      subst hread
      exact hfetches hpass rfl hleads hfetched
  | suspended e id peer ctx task gated s hpass habsent hfirst =>
    apply agreed_of_derived h hunderway hall rfl
    intro b k v hleads hv
    obtain ⟨hstate, -, -⟩ := firstPass_suspends (congrArg Prod.fst hfirst)
    rw [hfirst] at hstate
    exact Or.inl ((congrArg (heldValue ·.store k) hstate).symm.trans hv)
  | passkey id => exact agreed_of_derived h hunderway hall rfl fun _ _ _ _ => Or.inl
  | dialog e hnew => exact agreed_of_derived h hunderway hall rfl fun _ _ _ _ => Or.inl
  | finalized e id ctx gated completion hpass happroved =>
    apply agreed_of_derived h hunderway hall rfl
    intro b k v hleads hv
    rcases heldValue_secondPass hv with hbefore | ⟨hkey, hfetched⟩
    · exact Or.inl hbefore
    · right
      subst hkey
      exact hfetches hpass rfl hleads hfetched
  | discovered socket r agent hagent =>
    intro b k hleads v hv
    have hheld : heldValue self.daemon.store k = some v := heldValue_registerOpDefinitions hv
    rcases leads_turns hunderway hall hleads with
      hbefore | ⟨served, hserved, hnew, entry, hlookup, rfl⟩
    · exact h b k hbefore v hheld
    · rcases List.mem_or_eq_of_mem_set hserved with hserved | rfl
      · exact absurd hserved hnew
      · exact hk.discovered socket r agent rfl hagent b entry hlookup v hheld
  | rebound r =>
    rw [rebind_eq]
    exact bound_agreed _ _ _ _ (hk.seeded r rfl)

theorem agreed_step (h : Agreed ssh self ∧ Underway self) (hk : KeysKept ssh libs self e) :
    Agreed ssh (self.step ssh libs e) ∧ Underway (self.step ssh libs e) :=
  ⟨agreed_turns h.1 h.2 hk (step_turns ssh libs self e) rfl,
    underway_turns h.2 (step_turns ssh libs self e)⟩

theorem underway_bound (daemon : State) (policies : KeyMap (List String))
    (sockets : List (AgentSocket × FilterEvaluator)) (clock : Clock) :
    Underway (Sockets.bound ssh daemon policies sockets clock) where
  resolved id peer socket msg fields key h := by cases h
  approved id fields h := by cases h

/-- Signing with a value that is read, by a pass that has the store. -/
theorem signs_read {ctx : HandlerCtx} {kvKey : String} {source : KeySource}
    {fields : SignRequestFields} {resp : AgentMessage} {s' : State}
    (h : SignsOrFails ssh ctx self.daemon kvKey source fields resp s')
    (hsigned : resp.msgType = .signResponse) :
    ∃ pem sig, signingValue ctx self.daemon kvKey source = some pem ∧
      ssh.sign pem fields.data fields.flags = some sig ∧ resp = .signResponse sig ∧
        (heldValue self.daemon.store kvKey = some pem ∨
          pem ∈ sourceValues ctx.runner (s'.log.drop self.daemon.log.length)) := by
  rcases h with ⟨rfl, -⟩ | hbody
  · cases hsigned
  · have hresp := congrArg Prod.fst hbody
    have hstate := congrArg Prod.snd hbody
    simp only at hresp hstate
    subst hresp hstate
    obtain ⟨pem, sig, hvalue, hsig, hreply⟩ := signBody_signs hsigned
    exact ⟨pem, sig, hvalue, hsig, hreply, signingValue_origin hvalue⟩

theorem request_replies {peer : Peer} {ctx : HandlerCtx} {req : Request} {reply : Reply}
    {s' : State} (hpass : self.firstPass ssh peer ctx (.request req) = (.replied reply, s')) :
    reply.isSignature = false := by
  simp only [Sockets.firstPass] at hpass
  split at hpass
  · split at hpass
    · cases hpass
      rfl
    · cases hpass
  · cases hpass
    rfl

theorem message_of_isSignature {reply : Reply} (h : reply.isSignature = true) :
    ∃ resp, reply = .message resp ∧ resp.msgType = .signResponse := by
  unfold Reply.isSignature at h
  split at h
  · exact ⟨_, rfl, of_decide_eq_true h⟩
  · cases h

/-- A signature that is given away was made with a value that is held under the
key or was fetched for it. -/
theorem release_signed (hunderway : Underway self) {rel : Release}
    (hrelease : self.release ssh e = some rel) (hsignature : rel.reply.isSignature = true) :
    ∃ fields pem, self.Leads fields.keyBlob rel.key ∧ self.keyRead e = some rel.key ∧
      self.SignedWithValue ssh e rel fields pem ∧
        (heldValue self.daemon.store rel.key = some pem ∨ pem ∈ self.fetched ssh libs e) := by
  obtain ⟨pass, hpass, hreply, -, hkey, hctx⟩ := release_eq_some.mp hrelease
  obtain ⟨resp, hresp, hsigned⟩ := message_of_isSignature hsignature
  have hread : self.keyRead e = some rel.key := by
    unfold Sockets.keyRead
    rw [hpass, hkey]
    rfl
  have hfetches : ∀ {s' : State} {pem : Bytes}, (self.carryOut ssh pass).daemon.log = s'.log →
      pem ∈ sourceValues pass.ctx.runner (s'.log.drop self.daemon.log.length) →
        pem ∈ self.fetched ssh libs e := by
    intro s' pem hlog hpem
    have hstep : self.step ssh libs e = self.carryOut ssh pass := by
      unfold Sockets.step
      rw [hpass]
    unfold Sockets.fetched
    simp only [hpass, hstep, hlog]
    exact hpem
  cases pass with
  | first id peer ctx task =>
    cases task with
    | request req =>
      have hfirst := reply_first hreply
      cases hserved : self.firstPass ssh peer (self.contextOf peer ctx) (.request req) with
      | mk out s' =>
        rw [hserved] at hfirst
        simp only at hfirst
        subst hfirst
        rw [request_replies hserved] at hsignature
        cases hsignature
    | sign socket msg fields key =>
      have hfirst := reply_first hreply
      cases hserved : self.firstPass ssh peer (self.contextOf peer ctx)
        (.sign socket msg fields key) with
      | mk out s' =>
        have hcarried : (self.carryOut ssh
            (.first id peer ctx (.sign socket msg fields key))).daemon.log = s'.log := by
          simp only [Sockets.carryOut, hserved]
          split <;> rename_i heq <;> cases heq <;> rfl
        rw [hserved, hresp] at hfirst
        simp only at hfirst
        subst hfirst
        simp only [Sockets.firstPass] at hserved
        split at hserved
        · rename_i m s hdirect
          cases hserved
          obtain ⟨pem, sig, hvalue, hsig, rfl, horigin⟩ :=
            signs_read (signResolved_direct hdirect) hsigned
          have hresolved := pass_resolved hpass
          rw [hkey] at hread ⊢
          refine ⟨fields, pem, .resolved id peer socket msg fields key hresolved rfl rfl, hread,
            ⟨⟨key.source, ?_, ?_⟩, sig, hsig, hresp⟩, ?_⟩
          · rw [hpass, Option.bind_some]
            simp [Pass.signRequest, hunderway.resolved id peer socket msg fields key hresolved,
              Except.toOption]
          · rw [hctx, hkey]
            exact hvalue
          · exact horigin.imp_right (hfetches hcarried)
        · cases hserved
  | second id gated ctx completion =>
    have hsecond := reply_second hreply
    cases completion with
    | get =>
      rw [hresp] at hsecond
      cases hsecond
    | sign source fields =>
      cases hserved : signApproved ssh (self.contextOf gated.peer ctx) self.daemon gated.key source
        fields with
      | mk m s' =>
        have hcarried : (self.carryOut ssh
            (.second id gated ctx (.sign source fields))).daemon.log = s'.log :=
          congrArg (fun signed => signed.2.log) hserved
        have hm : m = resp := by
          have hmessage := congrArg (fun signed => Reply.message signed.1) hserved
          exact Reply.message.inj ((hmessage.symm.trans hsecond).trans hresp)
        subst hm
        obtain ⟨pem, sig, hvalue, hsig, rfl, horigin⟩ :=
          signs_read (signApproved_signs hserved) hsigned
        obtain ⟨hunder, happroved⟩ := pass_signApproved hpass
        obtain ⟨gated', socket, source', msg, happroved', haccess, hparse⟩ :=
          hunderway.approved id fields hunder
        cases happroved.symm.trans happroved'
        rw [hkey] at hread ⊢
        refine ⟨fields, pem, .approved id fields gated hunder happroved rfl rfl, hread,
          ⟨⟨source, ?_, ?_⟩, sig, hsig, hresp⟩, ?_⟩
        · rw [hpass, Option.bind_some]
          simp [Pass.signRequest, haccess, hparse, Except.toOption]
        · rw [hctx, hkey]
          exact hvalue
        · exact horigin.imp_right (hfetches hcarried)

/-- In every run, from sockets that have just been bound, in which whatever comes
under a registered key derives the public keys it is registered for: a signature
that is given away was made with a private key that derives the public key it was
asked for. -/
theorem signature_derives (ssh : SshKeys) (libs : MatchLibs) (daemon : State)
    (policies : KeyMap (List String)) (sockets : List (AgentSocket × FilterEvaluator))
    (clock : Clock) (hseeded : Seeded ssh daemon.store (sockets.map Prod.fst))
    (events : List SocketEvent) (e : SocketEvent)
    (hkept : Along (Sockets.step ssh libs) (KeysKept ssh libs)
      (.bound ssh daemon policies sockets clock) (events ++ [e])) (rel : Release) :
    let self := run (Sockets.step ssh libs) (.bound ssh daemon policies sockets clock) events
    self.release ssh e = some rel → rel.reply.isSignature = true →
      ∃ fields pem, self.SignedWithValue ssh e rel fields pem ∧
        ssh.Derives pem fields.keyBlob := by
  intro self hrelease hsignature
  obtain ⟨hbefore, hlast⟩ := (along_append _ _ _ _ _).mp hkept
  obtain ⟨hagreed, hunderway⟩ : Agreed ssh self ∧ Underway self :=
    run_invariant (I := fun sockets => Agreed ssh sockets ∧ Underway sockets)
      (Sockets.step ssh libs) (fun _ _ h hk => agreed_step h hk) _ events hbefore
      ⟨bound_agreed daemon policies sockets clock hseeded,
        underway_bound daemon policies sockets clock⟩
  obtain ⟨fields, pem, hleads, hread, hmade, horigin⟩ :=
    @release_signed ssh libs self e hunderway rel hrelease hsignature
  refine ⟨fields, pem, hmade, ?_⟩
  rcases horigin with hheld | hfetched
  · exact hagreed _ _ hleads pem hheld
  · exact hlast.1.fetched rel.key hread pem hfetched _ hleads

end Runs

namespace Rotated

/-- A toy scheme in which a private key is its own public half. -/
def ssh : SshKeys where
  publicKeyBlobFromPem pem := some (pem, none)
  publicKeyFromOpenssh _ := none
  sign pem data _ := some (pem ++ data)

def libs : MatchLibs := Stranger.libs

def daemon : State := (State.starting none .absent).withStore Collision.store

def configured : List (AgentSocket × FilterEvaluator) :=
  [(⟨["ns/k"], ⟨none, ⟨none, none, none⟩, []⟩⟩, ⟨[]⟩)]

def clock : Clock := Clock.constant Monotonic.zero

def starting : Sockets := .bound ssh daemon ∅ configured clock

def peer : Peer := Stranger.peer

def request : AgentMessage := .signRequest ⟨[1], [9], 0⟩

/-- A sign request that is about to take the store. -/
def asked (id : ℕ) : List SocketEvent := [.arrive id peer .quiet (.agent 0 true request), .lookup id]

def sign (id : ℕ) : SocketEvent := .takeStore id .quiet

/-- Another private key is set under the registered key. -/
def replace : SocketEvent :=
  .arrive 0 peer .quiet
    (.control (.kvSet ⟨"ns/k", .static (some [2]), none, none, [], none, none, none, none⟩))

def signed (after : Sockets) (sig : Bytes) : Release :=
  ⟨"ns/k", .message (.signResponse sig), after.contextOf peer .quiet⟩

def entry : RegisteredKey := ⟨[1], "ns/k", "ns/k", .local⟩

theorem release_sign {after : Sockets} {id : ℕ} {sig : Bytes}
    (habsent : after.dialogs.call id = .absent)
    (hread : after.passes id = some (.resolved peer 0 request ⟨[1], [9], 0⟩ entry))
    (hpass : (after.firstPass ssh peer (after.contextOf peer .quiet)
      (.sign 0 request ⟨[1], [9], 0⟩ entry)).1 = .replied (.message (.signResponse sig))) :
    after.release ssh (sign id) = some (signed after sig) := by
  refine release_eq_some.mpr ⟨.first id peer .quiet (.sign 0 request ⟨[1], [9], 0⟩ entry), ?_, ?_,
    rfl, rfl, rfl⟩
  · simp only [sign, Sockets.pass, hread, habsent]
  · unfold Sockets.reply
    simp only [Sockets.world, hpass]
    rfl

theorem kept_quiet {self : Sockets} {e : SocketEvent}
    (hcontrol : ∀ id peer ctx req, e ≠ .arrive id peer ctx (.control req))
    (hdiscover : ∀ socket r, e ≠ .discover socket r) (hrestart : ∀ r, e ≠ .restart r)
    (h : self.fetched ssh libs e = []) : KeysKept ssh libs self e where
  written id peer ctx r _ _ he := absurd he (hcontrol id peer ctx _)
  restored id peer ctx code he := absurd he (hcontrol id peer ctx _)
  fetched k _ v hv := by
    rw [h] at hv
    cases hv
  discovered socket r _ he := absurd he (hdiscover socket r)
  seeded r he := absurd he (hrestart r)

theorem seeded : Seeded ssh daemon.store (configured.map Prod.fst) := by
  intro socket hsocket entry hserves
  rw [List.mem_singleton.mp hsocket] at hserves
  cases hserves

/-- A signature, and the request for another. -/
def twice : List SocketEvent := asked 0 ++ sign 0 :: asked 1

/-- Two signatures under a key that nobody touches. -/
theorem signature_derives_untouched :
    ∃ fields pem, (run (Sockets.step ssh libs) starting twice).SignedWithValue ssh (sign 1)
        (signed (run (Sockets.step ssh libs) starting twice) [1, 9]) fields pem ∧
      ssh.Derives pem fields.keyBlob := by
  refine signature_derives ssh libs daemon ∅ configured clock seeded twice (sign 1) ?_ _
    (release_sign (by decide) (by decide) (by decide)) rfl
  refine ⟨?_, ?_, ?_, ?_, ?_, ?_, trivial⟩
  all_goals
    refine kept_quiet ?_ ?_ ?_ (by decide)
    all_goals
      intros
      rintro ⟨⟩

/-- After the value is replaced, the agent answers for the old public key with a
signature of the new private key. -/
theorem signature_of_another_key :
    ¬ ∀ (events : List SocketEvent) (e : SocketEvent) (rel : Release),
      let self := run (Sockets.step ssh libs) starting events
      self.release ssh e = some rel → rel.reply.isSignature = true →
        ∃ fields pem, self.SignedWithValue ssh e rel fields pem ∧
          ssh.Derives pem fields.keyBlob := by
  intro h
  have hrelease : (run (Sockets.step ssh libs) starting (replace :: asked 1)).release ssh (sign 1) =
      some (signed (run (Sockets.step ssh libs) starting (replace :: asked 1)) [2, 9]) :=
    release_sign (by decide) (by decide) (by decide)
  obtain ⟨fields, pem, hmade, hderives⟩ := h (replace :: asked 1) (sign 1) _ hrelease rfl
  obtain ⟨source, hrequest, hvalue⟩ := hmade.value
  have hasked : ((run (Sockets.step ssh libs) starting (replace :: asked 1)).pass (sign 1)).bind
      Pass.signRequest = some (⟨[1], [9], 0⟩, .local) := by decide
  rw [hasked] at hrequest
  cases hrequest
  have hread : signingValue
      ((run (Sockets.step ssh libs) starting (replace :: asked 1)).contextOf peer .quiet)
        (run (Sockets.step ssh libs) starting (replace :: asked 1)).daemon "ns/k" .local =
          some [2] := by decide
  have hpem : [2] = pem := Option.some.inj (hread.symm.trans hvalue)
  subst hpem
  revert hderives
  unfold SshKeys.Derives
  decide

end Rotated

end Daemon

end CacheWarden
