import CacheWarden.Daemon.Sockets

/-!
# What stands between a caller and a key

Three gates stand before a value: the owner, the process policy and the guard.
A pass that gives a value away has asked all three at the state it gives it away
in. A pass that signs has asked two.
-/

set_option autoImplicit false

namespace CacheWarden

namespace Daemon

open Transition

def OwnerPassed (ctx : HandlerCtx) (s : State) (key : String) : Prop :=
  ∀ owner, s.store.ownerOf key = some owner → ctx.satisfies owner = .ok ()

def PolicyPassed (ctx : HandlerCtx) (key : String) : Prop :=
  ∀ allowed, ctx.kvProcessPolicies[key]? = some allowed →
    chainGatePasses ctx.requester allowed = true

def GuardPassed (ctx : HandlerCtx) (s : State) (key : String) : Prop :=
  ∀ record, s.store.guardOf key = some record → ∃ chain output, ctx.guardChain = some chain ∧
    evaluate chain ctx.guardAuditToken record = .ok output

/-- All three gates let the caller through, as the store stands. -/
structure Mediated (ctx : HandlerCtx) (s : State) (key : String) : Prop where
  owner : OwnerPassed ctx s key
  policy : PolicyPassed ctx key
  guard : GuardPassed ctx s key

section Gates

variable {ctx : HandlerCtx} {s : State} {key : String}

theorem ownerPassed_of_requireOwner (h : requireOwner ctx s key = none) : OwnerPassed ctx s key := by
  intro owner howner
  unfold requireOwner at h
  rw [howner] at h
  simp only at h
  split at h
  · assumption
  · cases h

theorem policyPassed_of_gate
    (h : ¬ ((ctx.kvProcessPolicies[key]?).any fun allowed =>
      !chainGatePasses ctx.requester allowed) = true) : PolicyPassed ctx key := by
  intro allowed hallowed
  rw [hallowed] at h
  simpa using h

theorem guardPassed_of_unguarded (h : s.store.guardOf key = none) : GuardPassed ctx s key := by
  intro record hrecord
  rw [h] at hrecord
  cases hrecord

theorem guardPassed_of_evaluate {record : GuardRecord} {chain : List GetterProcess}
    {output : GuardEvalOutput} (hrecord : s.store.guardOf key = some record)
    (hchain : ctx.guardChain = some chain)
    (heval : evaluate chain ctx.guardAuditToken record = .ok output) : GuardPassed ctx s key := by
  intro r hr
  rw [hrecord] at hr
  cases hr
  exact ⟨chain, output, hchain, heval⟩

/-- The gates of a get, as it asks them. -/
theorem gateGet_none (h : gateGet ctx s key = none) :
    OwnerPassed ctx s key ∧ PolicyPassed ctx key ∧
      (ctx.guardCheckMode = .evaluate → GuardPassed ctx s key) := by
  unfold gateGet at h
  split at h
  · cases h
  split at h
  · cases h
  rename_i howner
  split at h
  · cases h
  rename_i hpolicy
  refine ⟨ownerPassed_of_requireOwner howner, policyPassed_of_gate hpolicy, ?_⟩
  intro hmode
  rw [hmode] at h
  split at h
  · rename_i record _ hrecord
    split at h
    · cases h
    rename_i chain hchain
    split at h
    · exact guardPassed_of_evaluate hrecord hchain ‹_›
    · cases h
  · rename_i hnone
    apply guardPassed_of_unguarded
    cases hguard : s.store.guardOf key with
    | none => rfl
    | some record => exact absurd hguard (hnone record rfl)

theorem handleGet_releases {dryRun : Bool} {v : Bytes}
    (h : (handleGet ctx s key dryRun).1 = .ok (.get v)) : gateGet ctx s key = none := by
  unfold handleGet at h
  split at h
  · rename_i resp hgate
    obtain ⟨e, rfl⟩ := stops_gateGet key resp hgate
    cases h
  · assumption

theorem ownerOnly_releases {out : Response × State} {v : Bytes}
    (h : (ownerOnly ctx s key out).1 = .ok (.get v)) : out.1 = .ok (.get v) := by
  unfold ownerOnly at h
  split at h
  · rename_i resp howner
    obtain ⟨e, rfl⟩ := stops_requireOwner ctx s key resp howner
    cases h
  · exact h

/-- Only a get gives a value away. -/
theorem handleRequest_releases {req : Request} {v : Bytes}
    (h : (handleRequest ctx s req).1 = .ok (.get v)) :
    ∃ k dryRun, req = .kvGet k dryRun ∧ gateGet ctx s k = none := by
  have heffect := handleRequest_effect ctx s req
  rw [h] at heffect
  cases req with
  | kvGet k dryRun => exact ⟨k, dryRun, rfl, handleGet_releases h⟩
  | kvPin k secs =>
    have hpin : (handlePin ctx s k secs).1 = .ok (.get v) := ownerOnly_releases h
    unfold handlePin at hpin
    simp only at hpin
    split at hpin <;> cases hpin
  | kvUnpin k =>
    have hunpin : (handleUnpin s k).1 = .ok (.get v) := ownerOnly_releases h
    unfold handleUnpin at hunpin
    split at hunpin <;> cases hunpin
  | _ => cases heffect

end Gates

section Passes

variable {ssh : SshKeys} {libs : MatchLibs} {ctx : HandlerCtx} {s : State}

/-- What was evaluated before a request was suspended. -/
structure Evaluated (ctx : HandlerCtx) (s : State) (key : String) (output : GuardEvalOutput)
    (record : Option GuardRecord) : Prop where
  policy : PolicyPassed ctx key
  guarded : ∃ r chain, s.store.guardOf key = some r ∧ record = some r ∧
    ctx.guardChain = some chain ∧ evaluate chain ctx.guardAuditToken r = .ok output

theorem guardedGetFirstPass_releases {key : String} {v : Bytes}
    (h : (guardedGetFirstPass ctx s key).1 = .replied (.ok (.get v))) : Mediated ctx s key := by
  unfold guardedGetFirstPass at h
  split at h
  · rename_i hguard
    simp only [Dispatched.replied.injEq] at h
    obtain ⟨k, dryRun, hreq, hgate⟩ := handleRequest_releases h
    cases hreq
    obtain ⟨howner, hpolicy, -⟩ := gateGet_none hgate
    exact ⟨howner, hpolicy, guardPassed_of_unguarded hguard⟩
  · split at h
    · rename_i resp hreserved
      obtain ⟨e, rfl⟩ := stops_rejectReservedNamespaceRead key resp hreserved
      cases h
    split at h
    · cases h
    split at h
    · cases h
    split at h <;> cases h

theorem guardedGetFirstPass_suspends {key : String} {output : GuardEvalOutput}
    (h : (guardedGetFirstPass ctx s key).1 = .needsApproval output) :
    (guardedGetFirstPass ctx s key).2 = s ∧
      Evaluated ctx s key output (s.store.guardOf key) := by
  unfold guardedGetFirstPass at h ⊢
  split at h
  · cases h
  rename_i record hrecord
  split at h
  · cases h
  rename_i hreserved
  split at h
  · cases h
  rename_i hpolicy
  split at h
  · cases h
  rename_i chain hchain
  split at h
  · rename_i out heval
    cases h
    simp only [hrecord, if_neg hpolicy]
    exact ⟨trivial, policyPassed_of_gate hpolicy, record, chain, hrecord, rfl, hchain, heval⟩
  · cases h

theorem evalSignGuard_unguarded {key : String} {chain : Option (List GetterProcess)}
    {token : Option GetterAuditToken} (h : evalSignGuard s.store key chain token = .unguarded) :
    s.store.guardOf key = none := by
  unfold evalSignGuard at h
  split at h
  · assumption
  split at h
  · cases h
  split at h <;> cases h

theorem evalSignGuard_passed {key : String} {chain : Option (List GetterProcess)}
    {token : Option GetterAuditToken} {output : GuardEvalOutput}
    (h : evalSignGuard s.store key chain token = .passed output) :
    ∃ r c, s.store.guardOf key = some r ∧ chain = some c ∧ evaluate c token r = .ok output := by
  unfold evalSignGuard at h
  split at h
  · cases h
  rename_i r hr
  split at h
  · cases h
  rename_i c
  split at h
  · rename_i out heval
    cases h
    exact ⟨r, c, hr, rfl, heval⟩
  · cases h

theorem guardPassed_of_passed {key : String} {output : GuardEvalOutput}
    (h : evalSignGuard s.store key ctx.guardChain ctx.guardAuditToken = .passed output) :
    GuardPassed ctx s key := by
  obtain ⟨r, chain, hr, hchain, heval⟩ := evalSignGuard_passed h
  exact guardPassed_of_evaluate hr hchain heval

theorem signResolved_releases {fields : SignRequestFields} {key : RegisteredKey}
    {resp : AgentMessage} (h : (signResolved ssh ctx s fields key).1 = .direct resp)
    (hsigned : resp.msgType = .signResponse) :
    PolicyPassed ctx key.kvKey ∧ GuardPassed ctx s key.kvKey := by
  have hfailure : ∀ {p : SignFirstPass}, SignFirstPass.direct AgentMessage.failure = p →
      p = .direct resp → False := by
    rintro p rfl hp
    cases hp
    cases hsigned
  unfold signResolved at h
  split at h
  · exact (hfailure rfl h).elim
  rename_i hpolicy
  refine ⟨policyPassed_of_gate hpolicy, ?_⟩
  split at h
  · rename_i hunguarded
    exact guardPassed_of_unguarded (evalSignGuard_unguarded hunguarded)
  · cases h
  · exact (hfailure rfl h).elim
  · exact (hfailure rfl h).elim

theorem signResolved_suspends {fields : SignRequestFields} {key : RegisteredKey}
    {material : SignNeedsApprovalMaterial}
    (h : (signResolved ssh ctx s fields key).1 = .needsApproval material) :
    (signResolved ssh ctx s fields key).2 = s ∧
      Evaluated ctx s material.kvKey material.guardEval (s.store.guardOf material.kvKey) := by
  unfold signResolved at h ⊢
  split at h
  · cases h
  rename_i hpolicy
  split at h
  · cases h
  · rename_i output hpassed
    cases h
    simp only [if_neg hpolicy]
    obtain ⟨r, chain, hr, hchain, heval⟩ := evalSignGuard_passed hpassed
    exact ⟨trivial, policyPassed_of_gate hpolicy, r, chain, hr, hr, hchain, heval⟩
  · cases h
  · cases h

end Passes

section Releases

variable {ssh : SshKeys} {libs : MatchLibs} {self : Sockets} {peer : Peer} {ctx : HandlerCtx}

theorem value_of_releases {resp : Response} (h : (Reply.response resp).releases = true) :
    ∃ v, resp = .ok (.get v) := by
  unfold Reply.releases at h
  split at h
  · exact ⟨_, Reply.response.inj ‹_›⟩
  · rename_i hmessage
    cases hmessage
  · cases h

/-- The first pass has asked the owner for a value, and not for a signature. -/
theorem firstPass_releases {task : Task} {reply : Reply} (hmode : ctx.guardCheckMode = .evaluate)
    (h : (self.firstPass ssh peer ctx task).1 = .replied reply)
    (hreleases : reply.releases = true) :
    PolicyPassed ctx task.key ∧ GuardPassed ctx self.daemon task.key ∧
      (reply.isSignature = false → OwnerPassed ctx self.daemon task.key) := by
  cases task with
  | request req =>
    simp only [Sockets.firstPass] at h
    split at h
    · rename_i key
      split at h
      · rename_i resp s' hpass
        cases h
        obtain ⟨v, rfl⟩ := value_of_releases hreleases
        have hmediated := guardedGetFirstPass_releases (congrArg Prod.fst hpass)
        exact ⟨hmediated.policy, hmediated.guard, fun _ => hmediated.owner⟩
      · cases h
    · cases h
      obtain ⟨v, hv⟩ := value_of_releases hreleases
      obtain ⟨key, dryRun, rfl, hgate⟩ := handleRequest_releases hv
      obtain ⟨howner, hpolicy, hguard⟩ := gateGet_none hgate
      exact ⟨hpolicy, hguard hmode, fun _ => howner⟩
  | sign socket msg fields key =>
    simp only [Sockets.firstPass] at h
    split at h
    · rename_i resp s' hresp
      cases h
      have hsigned : resp.msgType = .signResponse := by simpa [Reply.releases] using hreleases
      obtain ⟨hpolicy, hguard⟩ := signResolved_releases (congrArg Prod.fst hresp) hsigned
      refine ⟨hpolicy, hguard, ?_⟩
      intro hvalue
      rw [Reply.isSignature, hsigned] at hvalue
      cases hvalue
    · cases h

theorem firstPass_suspends {task : Task} {gated : NeedsApproval}
    (h : (self.firstPass ssh peer ctx task).1 = .suspended gated) :
    (self.firstPass ssh peer ctx task).2 = self.daemon ∧ gated.peer = peer ∧
      Evaluated ctx self.daemon gated.key gated.guardEval gated.record := by
  cases task with
  | request req =>
    simp only [Sockets.firstPass] at h ⊢
    split at h
    · split at h
      · cases h
      · rename_i output s' hpass
        cases h
        obtain ⟨hstate, hevaluated⟩ := guardedGetFirstPass_suspends (congrArg Prod.fst hpass)
        rw [hpass] at hstate
        exact ⟨hstate, rfl, hevaluated⟩
    · cases h
  | sign socket msg fields key =>
    simp only [Sockets.firstPass] at h ⊢
    split at h
    · cases h
    · rename_i material s' hresp
      cases h
      obtain ⟨hstate, hevaluated⟩ := signResolved_suspends (congrArg Prod.fst hresp)
      rw [hresp] at hstate
      exact ⟨hstate, rfl, hevaluated⟩

theorem guardedGetFinalize_releases {key : String} {v : Bytes}
    (h : (guardedGetFinalizeAfterApproval ctx self.daemon key).1 = .ok (.get v)) :
    Mediated ctx self.daemon key := by
  have hhandled : (handleRequest { ctx with guardCheckMode := .alreadyApproved } self.daemon
      (.kvGet key false)).1 = .ok (.get v) → OwnerPassed ctx self.daemon key ∧
        PolicyPassed ctx key := by
    intro hget
    obtain ⟨k, dryRun, hreq, hgate⟩ := handleRequest_releases hget
    cases hreq
    obtain ⟨howner, hpolicy, -⟩ := gateGet_none hgate
    exact ⟨howner, hpolicy⟩
  unfold guardedGetFinalizeAfterApproval at h
  simp only at h
  split at h
  · rename_i hguard
    obtain ⟨howner, hpolicy⟩ := hhandled h
    exact ⟨howner, hpolicy, guardPassed_of_unguarded hguard⟩
  · rename_i record hrecord
    split at h
    · cases h
    rename_i chain hchain
    split at h
    · obtain ⟨howner, hpolicy⟩ := hhandled h
      exact ⟨howner, hpolicy, guardPassed_of_evaluate hrecord hchain ‹_›⟩
    · cases h

theorem signApproved_releases {kvKey : String} {source : KeySource} {fields : SignRequestFields}
    (h : (signApproved ssh ctx self.daemon kvKey source fields).1.msgType = .signResponse) :
    GuardPassed ctx self.daemon kvKey := by
  unfold signApproved at h
  split at h
  · rename_i hunguarded
    exact guardPassed_of_unguarded (evalSignGuard_unguarded hunguarded)
  · rename_i output hpassed
    exact guardPassed_of_passed hpassed
  · cases h
  · cases h

/-- The second pass asks the guard again. The policy it asks again for a value
only. -/
theorem secondPass_releases {gated : NeedsApproval} {completion : Completion} {reply : Reply}
    (h : (self.secondPass ssh gated ctx completion).1 = reply)
    (hreleases : reply.releases = true) :
    GuardPassed ctx self.daemon gated.key ∧
      (reply.isSignature = false → Mediated ctx self.daemon gated.key) := by
  cases completion with
  | get =>
    have hresp : .response (guardedGetFinalizeAfterApproval ctx self.daemon gated.key).1 = reply :=
      h
    subst hresp
    obtain ⟨v, hv⟩ := value_of_releases hreleases
    have hmediated := guardedGetFinalize_releases hv
    exact ⟨hmediated.guard, fun _ => hmediated⟩
  | sign source fields =>
    have hmessage : .message (signApproved ssh ctx self.daemon gated.key source fields).1 =
      reply := h
    subst hmessage
    have hsigned := of_decide_eq_true hreleases
    refine ⟨signApproved_releases hsigned, ?_⟩
    intro hvalue
    rw [Reply.isSignature, hsigned] at hvalue
    cases hvalue

/-- A release is of a reply that a pass gives, in the world in which it runs. -/
theorem release_eq_some {e : SocketEvent} {rel : Release} :
    self.release ssh e = some rel ↔ ∃ pass, self.pass e = some pass ∧
      self.reply ssh pass = some rel.reply ∧ rel.reply.releases = true ∧
        rel.key = pass.key ∧ rel.ctx = self.world pass := by
  obtain ⟨key, reply, ctx⟩ := rel
  unfold Sockets.release
  simp only [Option.bind_eq_bind, Option.bind_eq_some_iff, Option.ite_none_right_eq_some,
    Option.some.injEq, Release.mk.injEq]
  constructor
  · rintro ⟨pass, hpass, reply', hreply, hreleases, rfl, rfl, rfl⟩
    exact ⟨pass, hpass, hreply, hreleases, rfl, rfl⟩
  · rintro ⟨pass, hpass, hreply, hreleases, rfl, rfl⟩
    exact ⟨pass, hpass, reply, hreply, hreleases, rfl, rfl, rfl⟩

theorem reply_first {id : ℕ} {task : Task} {reply : Reply}
    (h : self.reply ssh (.first id peer ctx task) = some reply) :
    (self.firstPass ssh peer (self.contextOf peer ctx) task).1 = .replied reply := by
  unfold Sockets.reply at h
  simp only at h
  split at h
  · rename_i reply' hreply
    cases h
    exact hreply
  · cases h

theorem reply_second {id : ℕ} {gated : NeedsApproval} {completion : Completion} {reply : Reply}
    (h : self.reply ssh (.second id gated ctx completion) = some reply) :
    (self.secondPass ssh gated (self.contextOf gated.peer ctx) completion).1 = reply :=
  Option.some.inj h

end Releases

section Runs

variable {ssh : SshKeys} {libs : MatchLibs} {self : Sockets}

/-- Every request that waits has passed the policy. -/
def Screened (self : Sockets) : Prop :=
  ∀ id gated, self.gated id = some gated → ∀ allowed,
    self.kvProcessPolicies[gated.key]? = some allowed →
      chainGatePasses gated.peer.requester allowed = true

theorem screened_step (h : Screened self) (e : SocketEvent) : Screened (self.step ssh libs e) := by
  have hturn := step_turns ssh libs self e
  generalize self.step ssh libs e = self' at hturn
  cases hturn with
  | suspended _ id peer ctx task gated s hpass habsent hfirst =>
    obtain ⟨-, hpeer, hevaluated⟩ := firstPass_suspends (congrArg Prod.fst hfirst)
    intro a waiting hwaiting
    simp only [Sockets.suspend, Function.update_apply] at hwaiting
    split at hwaiting
    · cases hwaiting
      rw [hpeer]
      exact hevaluated.policy
    · exact h a waiting hwaiting
  | rebound r =>
    intro a waiting hwaiting
    cases hwaiting
  | _ => exact h

theorem gated_of_approved {id : ℕ} {gated : NeedsApproval} (h : self.approved id = some gated) :
    self.gated id = some gated := by
  unfold Sockets.approved at h
  split at h
  · split at h
    · cases h
    · exact h
  · cases h

theorem screened_run (daemon : State) (policies : KeyMap (List String)) (agents : List SocketState)
    (events : List SocketEvent) :
    Screened (run (Sockets.step ssh libs) (.starting daemon policies agents) events) := by
  apply run_invariant (P := fun _ _ => True) (Sockets.step ssh libs)
  · intro self e h _
    exact screened_step h e
  · exact along_of_forall _ (fun _ _ => trivial) _ events
  · intro id gated h
    cases h

/-- For every daemon, every run of its sockets and every event that gives a value,
a code or a signature away: the owner, the policy and the guard have let the
caller through as the store stands, except that a signature is made for a caller
whom the owner would refuse. -/
theorem release_mediated_iff (daemon : State) (policies : KeyMap (List String))
    (agents : List SocketState) (events : List SocketEvent) (e : SocketEvent) (rel : Release) :
    let self := run (Sockets.step ssh libs) (.starting daemon policies agents) events
    self.release ssh e = some rel →
      (Mediated rel.ctx self.daemon rel.key ↔
        (rel.reply.isSignature = true → OwnerPassed rel.ctx self.daemon rel.key)) := by
  intro self hrelease
  have hscreened : Screened self := screened_run daemon policies agents events
  obtain ⟨pass, hpass, hreply, hreleases, hkey, hctx⟩ := release_eq_some.mp hrelease
  have hpassed : PolicyPassed rel.ctx rel.key ∧ GuardPassed rel.ctx self.daemon rel.key ∧
      (rel.reply.isSignature = false → OwnerPassed rel.ctx self.daemon rel.key) := by
    rw [hkey, hctx]
    cases pass with
    | first id peer ctx task => exact firstPass_releases rfl (reply_first hreply) hreleases
    | second id gated ctx completion =>
      obtain ⟨hguard, hvalue⟩ := secondPass_releases (reply_second hreply) hreleases
      exact ⟨hscreened id gated (gated_of_approved (pass_approved hpass)), hguard,
        fun h => (hvalue h).owner⟩
  obtain ⟨hpolicy, hguard, hvalue⟩ := hpassed
  constructor
  · exact fun h _ => h.owner
  · intro hsigned
    refine ⟨?_, hpolicy, hguard⟩
    cases hsignature : rel.reply.isSignature with
    | true => exact hsigned hsignature
    | false => exact hvalue hsignature

end Runs

namespace Stranger

def ssh : SshKeys := Collision.oneKey

def libs : MatchLibs := ⟨fun _ => none, fun _ => none, fun _ _ => false, fun _ _ => false, id⟩

/-- A key that has an owner and no guard. -/
def daemon : State :=
  (State.starting none .absent).withStore
    (Collision.store.setOwner "ns/k" ⟨.apple, "TEAM", "com.example.app"⟩ ⟨0⟩).2

def socket : SocketState := ⟨⟨Collision.base, Collision.base⟩, ⟨[]⟩⟩

def sockets : Sockets := .starting daemon ∅ [socket]

def peer : Peer := ⟨some [], none, none⟩

def request : AgentMessage := .signRequest ⟨[7], [1, 2], 0⟩

/-- A sign request from a process whose signature no owner accepts. -/
def arrived : List SocketEvent := [.arrive 0 peer strangerCtx (.agent 0 true request), .lookup 0]

def event : SocketEvent := .takeStore 0 strangerCtx

def waiting : Sockets := run (Sockets.step ssh libs) sockets arrived

def signed : Release where
  key := "ns/k"
  reply := .message (.signResponse [1, 2])
  ctx := waiting.contextOf peer strangerCtx

theorem released : waiting.release ssh event = some signed := by
  refine release_eq_some.mpr
    ⟨.first 0 peer strangerCtx (.sign 0 request ⟨[7], [1, 2], 0⟩ ⟨[7], "ns/k", "ns/k", .local⟩),
      ?_, ?_, rfl, rfl, rfl⟩
  · rfl
  · rfl

theorem release_mediated_iff_stranger :
    Mediated signed.ctx waiting.daemon "ns/k" ↔
      (signed.reply.isSignature = true → OwnerPassed signed.ctx waiting.daemon "ns/k") :=
  release_mediated_iff daemon ∅ [socket] arrived event signed released

/-- The agent signs for a process that the owner of the key would refuse. -/
theorem owner_not_asked :
    ¬ ∀ (events : List SocketEvent) (e : SocketEvent) (rel : Release),
      let self := run (Sockets.step ssh libs) sockets events
      self.release ssh e = some rel → Mediated rel.ctx self.daemon rel.key := by
  intro h
  have howner := (h arrived event signed released).owner ⟨.apple, "TEAM", "com.example.app"⟩
    (by decide)
  cases howner

end Stranger

end Daemon

end CacheWarden
