import CacheWarden.Daemon.AgentDefinitions
import CacheWarden.Daemon.Dialogs
import CacheWarden.Daemon.Refusal
import CacheWarden.Daemon.Restarts
import CacheWarden.Daemon.Signing

/-!
# The daemon behind its sockets

Requests come in on the control socket and on the agent sockets. One that meets
a guard is suspended while its dialog is up, without the store, and goes through
a second pass when the dialog has approved it. A pass over a sign request reads
the registry first and takes the store in a step of its own. Discoveries,
restarts, other requests and the steps of the dialogs come in between.
-/

set_option autoImplicit false

namespace CacheWarden

namespace Daemon

open Transition

/-- A caller, as the first pass of its request sees it. -/
structure Peer where
  requester : Option (List ProcessInfo)
  guardChain : Option (List GetterProcess)
  auditToken : Option WireAuditToken
  deriving DecidableEq

/-- What a request is after: a value, or a signature. -/
inductive Access where
  | get
  | sign (socket : ℕ) (source : KeySource) (msg : AgentMessage)
  deriving DecidableEq

def Access.operation : Access → String
  | .get => "get"
  | .sign _ _ _ => "sign"

/-- A request that waits for its dialog. The record its guard was evaluated on
is kept for the statements alone. -/
structure NeedsApproval where
  key : String
  access : Access
  peer : Peer
  guardEval : GuardEvalOutput
  record : Option GuardRecord
  deriving DecidableEq

def emptyAuditToken : WireAuditToken := ⟨0, 0, 0, 0, 0⟩

def buildApproveRequest (gated : NeedsApproval) : ApproveRequest where
  key := gated.key
  operation := gated.access.operation
  auditToken := gated.peer.auditToken.getD emptyAuditToken
  guardEval := some gated.guardEval

/-- The approval that a passkey registration asks for. -/
def passkeyRequest : ApproveRequest :=
  ⟨"vault", "register passkey", emptyAuditToken, some ⟨[], none, none⟩⟩

/-- What a pass takes the store for, before an approval: a request of the control
socket, or a signature with the key that the registry led to. -/
inductive Task where
  | request (req : Request)
  | sign (socket : ℕ) (msg : AgentMessage) (fields : SignRequestFields) (key : RegisteredKey)
  deriving DecidableEq

def Task.key : Task → String
  | .request req => req.key?.getD ""
  | .sign _ _ _ key => key.kvKey

/-- What it takes the store for after an approval. -/
inductive Completion where
  | get
  | sign (source : KeySource) (fields : SignRequestFields)
  deriving DecidableEq

/-- How far a pass over a sign request has got, with no lock held: its blob is
known to be local, the registry has been read, or it has been read again after
the approval. -/
inductive SignPass where
  | known (peer : Peer) (socket : ℕ) (msg : AgentMessage)
  | resolved (peer : Peer) (socket : ℕ) (msg : AgentMessage) (fields : SignRequestFields)
      (key : RegisteredKey)
  | approved (fields : SignRequestFields)
  deriving DecidableEq

inductive Arrival where
  | control (req : Request)
  | agent (socket : ℕ) (admitted : Bool) (msg : AgentMessage)
  deriving DecidableEq

inductive Reply where
  | response (resp : Response)
  | message (resp : AgentMessage)
  | upstream
  deriving DecidableEq

inductive FirstPass where
  | replied (reply : Reply)
  | suspended (gated : NeedsApproval)
  deriving DecidableEq

/-- The second pass of a reveal get. -/
def guardedGetFinalizeAfterApproval (ctx : HandlerCtx) (s : State) (key : String) :
    Response × State :=
  let handled := handleRequest { ctx with guardCheckMode := .alreadyApproved } s (.kvGet key false)
  match s.store.guardOf key with
  | none => handled
  | some record =>
    match ctx.guardChain with
    | none =>
      (.error .authFailed
        [.text "access denied by entry guard (kind: missing-context) after approval"], s)
    | some chain =>
      match evaluate chain ctx.guardAuditToken record with
      | .ok _ => handled
      | .error kind =>
        (.error .authFailed [.text "access denied by entry guard (kind: ",
          .text (deniedKindLabel kind), .text "); record changed during approval"], s)

/-- The process: the daemon, its agent sockets, the passes between their locks,
the dialogs, and the requests that wait for one. -/
structure Sockets where
  daemon : State
  kvProcessPolicies : KeyMap (List String)
  agents : List SocketState
  passes : ℕ → Option SignPass
  dialogs : ApproverSlot
  gated : ℕ → Option NeedsApproval
  finished : ℕ → Bool

/-- What the next process is configured with. -/
structure Rebind where
  restart : Restart
  kvProcessPolicies : KeyMap (List String)
  sockets : List (AgentSocket × FilterEvaluator)
  clock : Clock

/-- Something that happens at the daemon. A number names a request as long as the
process lives. -/
inductive SocketEvent where
  | arrive (id : ℕ) (peer : Peer) (ctx : HandlerCtx) (arrival : Arrival)
  | lookup (id : ℕ)
  | takeStore (id : ℕ) (ctx : HandlerCtx)
  | addPasskey (id : ℕ)
  | dialog (e : DialogEvent)
  | finalize (id : ℕ) (ctx : HandlerCtx)
  | discover (socket : ℕ) (r : Refresh)
  | restart (r : Rebind)

/-- A pass that takes the store: for whom, in which world, and for what. -/
inductive Pass where
  | first (id : ℕ) (peer : Peer) (ctx : HandlerCtx) (task : Task)
  | second (id : ℕ) (gated : NeedsApproval) (ctx : HandlerCtx) (completion : Completion)

namespace Sockets

/-- A process that has just come up. -/
def starting (daemon : State) (kvProcessPolicies : KeyMap (List String))
    (agents : List SocketState) : Sockets :=
  ⟨daemon, kvProcessPolicies, agents, fun _ => none, ApproverSlot.new, fun _ => none,
    fun _ => false⟩

/-- The world as it is, and the caller as its first pass saw it. -/
def contextOf (self : Sockets) (peer : Peer) (ctx : HandlerCtx) : HandlerCtx :=
  { self.daemon.context ctx with
    requester := peer.requester
    guardChain := peer.guardChain
    guardAuditToken := peer.auditToken.map fun token => ⟨token.euid, token.ruid⟩
    kvProcessPolicies := self.kvProcessPolicies
    guardCheckMode := .evaluate }

variable (ssh : SshKeys) (libs : MatchLibs)

/-- A first pass, with the store taken: only a reveal get and a signature can be
suspended. -/
def firstPass (self : Sockets) (peer : Peer) (ctx : HandlerCtx) : Task → FirstPass × State
  | .request req =>
    match req with
    | .kvGet key false =>
      match guardedGetFirstPass ctx self.daemon key with
      | (.replied resp, s) => (.replied (.response resp), s)
      | (.needsApproval output, s) =>
        (.suspended ⟨key, .get, peer, output, self.daemon.store.guardOf key⟩, s)
    | req =>
      let handled := handleRequest ctx self.daemon req
      (.replied (.response handled.1), handled.2)
  | .sign socket msg fields key =>
    match signResolved ssh ctx self.daemon fields key with
    | (.direct resp, s) => (.replied (.message resp), s)
    | (.needsApproval material, s) =>
      (.suspended ⟨material.kvKey, .sign socket material.source msg, peer, material.guardEval,
        self.daemon.store.guardOf material.kvKey⟩, s)

/-- The second pass of a request that was approved, with the store taken. -/
def secondPass (self : Sockets) (gated : NeedsApproval) (ctx : HandlerCtx) :
    Completion → Reply × State
  | .get =>
    let handled := guardedGetFinalizeAfterApproval ctx self.daemon gated.key
    (.response handled.1, handled.2)
  | .sign source fields =>
    let signed := signApproved ssh ctx self.daemon gated.key source fields
    (.message signed.1, signed.2)

/-- The request that may go through its second pass. -/
def approved (self : Sockets) (id : ℕ) : Option NeedsApproval :=
  match self.dialogs.call id with
  | .returned _ .approved _ => if self.finished id then none else self.gated id
  | _ => none

/-- The number names no request yet. -/
def unused (self : Sockets) (id : ℕ) : Bool :=
  match self.dialogs.call id, self.passes id with
  | .absent, none => true
  | _, _ => false

/-- The pass that an event makes, if it takes the store. -/
def pass (self : Sockets) : SocketEvent → Option Pass
  | .arrive id peer ctx (.control req) =>
    if self.unused id then some (.first id peer ctx (.request req)) else none
  | .takeStore id ctx =>
    match self.passes id, self.dialogs.call id with
    | some (.resolved peer socket msg fields key), .absent =>
      some (.first id peer ctx (.sign socket msg fields key))
    | some (.approved fields), _ =>
      match self.approved id with
      | some ⟨key, .sign socket source msg, peer, guardEval, record⟩ =>
        some (.second id ⟨key, .sign socket source msg, peer, guardEval, record⟩ ctx
          (.sign source fields))
      | _ => none
    | _, _ => none
  | .finalize id ctx =>
    match self.approved id with
    | some ⟨key, .get, peer, guardEval, record⟩ =>
      some (.second id ⟨key, .get, peer, guardEval, record⟩ ctx .get)
    | _ => none
  | _ => none

/-- A pass lets go of the registry, and goes on later. -/
def hold (self : Sockets) (id : ℕ) (pass : SignPass) : Sockets :=
  { self with passes := Function.update self.passes id (some pass) }

def leave (self : Sockets) (id : ℕ) : Sockets :=
  { self with passes := Function.update self.passes id none }

/-- Keep the state that a pass leaves, and the time. -/
def settle (self : Sockets) (ctx : HandlerCtx) (s : State) : Sockets :=
  { self with daemon := { s with now := ctx.clock.last } }

/-- Let go of the store, and ask for the dialog. -/
def suspend (self : Sockets) (id : ℕ) (gated : NeedsApproval) : Sockets :=
  { self with
    gated := Function.update self.gated id (some gated)
    dialogs := self.dialogs.step (.arrive id (buildApproveRequest gated)) }

def finish (self : Sockets) (id : ℕ) : Sockets :=
  { self with finished := Function.update self.finished id true }

def applyDiscovery (self : Sockets) (socket : ℕ) (r : Refresh) : Sockets :=
  match self.agents[socket]? with
  | none => self
  | some agent =>
    let target := agent.target.applyDiscovery ssh r
    { self with
      agents := self.agents.set socket { agent with target := target }
      daemon := self.daemon.withStore (registerOpDefinitions self.daemon.store target.live) }

/-- The next process knows nothing of the requests that were waiting. -/
def rebind (self : Sockets) (r : Rebind) : Sockets :=
  let daemon := self.daemon.restart r.restart
  let clock := r.clock.since daemon.now
  let (targets, store) := bindSockets ssh clock (r.sockets.map (·.1)) daemon.store
  starting { daemon with store := store, now := clock.last } r.kvProcessPolicies
    (List.zipWith SocketState.mk targets (r.sockets.map (·.2)))

/-- A message on an agent socket: the registry says whether its blob is local. -/
def receive (self : Sockets) (id : ℕ) (peer : Peer) (socket : ℕ) (admitted : Bool)
    (msg : AgentMessage) : Sockets :=
  if self.unused id ∧
      (self.agents[socket]?).any fun agent => respond agent admitted msg = .localSign then
    self.hold id (.known peer socket msg)
  else self

/-- The registry is read for a first pass. -/
def resolve (self : Sockets) (id : ℕ) : Sockets :=
  match self.passes id with
  | some (.known peer socket msg) =>
    match (self.agents[socket]?).bind fun agent => resolveSign libs agent msg with
    | some (fields, key) => self.hold id (.resolved peer socket msg fields key)
    | none => self.leave id
  | _ => self

/-- It is read again for a second pass. -/
def resolveAgain (self : Sockets) (id : ℕ) : Sockets :=
  match self.approved id, self.passes id with
  | some ⟨key, .sign socket _ msg, _, _, _⟩, none =>
    match (self.agents[socket]?).bind fun agent => resolveApproved libs agent key msg with
    | some fields => self.hold id (.approved fields)
    | none => self.finish id
  | _, _ => self

/-- What a pass leaves that takes the store. -/
def carryOut (self : Sockets) : Pass → Sockets
  | .first id peer ctx task =>
    let ctx := self.contextOf peer ctx
    match self.firstPass ssh peer ctx task with
    | (.replied _, s) => (self.settle ctx s).leave id
    | (.suspended gated, s) => ((self.settle ctx s).leave id).suspend id gated
  | .second id gated ctx completion =>
    let ctx := self.contextOf gated.peer ctx
    ((self.settle ctx (self.secondPass ssh gated ctx completion).2).leave id).finish id

def step (self : Sockets) (e : SocketEvent) : Sockets :=
  match self.pass e with
  | some pass => self.carryOut ssh pass
  | none =>
    match e with
    | .arrive id peer _ (.agent socket admitted msg) => self.receive id peer socket admitted msg
    | .lookup id => self.resolve libs id
    | .finalize id _ => self.resolveAgain libs id
    | .addPasskey id => { self with dialogs := self.dialogs.step (.arrive id passkeyRequest) }
    | .dialog (.arrive _ _) => self
    | .dialog e => { self with dialogs := self.dialogs.step e }
    | .discover socket r => self.applyDiscovery ssh socket r
    | .restart r => self.rebind ssh r
    | _ => self

end Sockets

/-- The reply carries a value, a code or a signature. -/
def Reply.releases : Reply → Bool
  | .response (.ok (.get _)) => true
  | .message resp => resp.msgType = .signResponse
  | _ => false

def Reply.isSignature : Reply → Bool
  | .message resp => resp.msgType = .signResponse
  | _ => false

/-- What was given away: under which key, in which reply, and in which context
the pass ran that gave it. -/
structure Release where
  key : String
  reply : Reply
  ctx : HandlerCtx

/-- The world in which a pass runs. -/
def Sockets.world (self : Sockets) : Pass → HandlerCtx
  | .first _ peer ctx _ => self.contextOf peer ctx
  | .second _ gated ctx _ => self.contextOf gated.peer ctx

def Pass.key : Pass → String
  | .first _ _ _ task => task.key
  | .second _ gated _ _ => gated.key

/-- The reply that a pass gives, if it is not suspended. -/
def Sockets.reply (ssh : SshKeys) (self : Sockets) (pass : Pass) : Option Reply :=
  match pass with
  | .first _ peer _ task =>
    match (self.firstPass ssh peer (self.world pass) task).1 with
    | .replied reply => some reply
    | .suspended _ => none
  | .second _ gated _ completion =>
    some (self.secondPass ssh gated (self.world pass) completion).1

/-- What an event gives away at this point, if it does. -/
def Sockets.release (ssh : SshKeys) (self : Sockets) (e : SocketEvent) : Option Release := do
  let pass ← self.pass e
  let reply ← self.reply ssh pass
  if reply.releases then some ⟨pass.key, reply, self.world pass⟩ else none

namespace Sockets

/-- What a pass has read in the registry. -/
def Found (libs : MatchLibs) (self : Sockets) (id : ℕ) : SignPass → Prop
  | .known _ _ _ => True
  | .resolved _ socket msg fields key => ∃ agent, self.agents[socket]? = some agent ∧
      resolveSign libs agent msg = some (fields, key)
  | .approved fields => ∃ gated socket source msg agent, self.approved id = some gated ∧
      gated.access = .sign socket source msg ∧ self.agents[socket]? = some agent ∧
        resolveApproved libs agent gated.key msg = some fields

end Sockets

/-- What one event does. -/
inductive Turns (ssh : SshKeys) (libs : MatchLibs) (self : Sockets) : SocketEvent → Sockets → Prop
  | idle (e : SocketEvent) : Turns ssh libs self e self
  | held (e : SocketEvent) (id : ℕ) (held : SignPass) (h : self.Found libs id held) :
      Turns ssh libs self e (self.hold id held)
  | dropped (e : SocketEvent) (id : ℕ) : Turns ssh libs self e (self.leave id)
  | refused (e : SocketEvent) (id : ℕ) (h : self.passes id = none) :
      Turns ssh libs self e (self.finish id)
  | served (e : SocketEvent) (id : ℕ) (peer : Peer) (ctx : HandlerCtx) (task : Task)
      (reply : Reply) (s : State) (hpass : self.pass e = some (.first id peer ctx task))
      (h : self.firstPass ssh peer (self.contextOf peer ctx) task = (.replied reply, s)) :
      Turns ssh libs self e ((self.settle (self.contextOf peer ctx) s).leave id)
  | suspended (e : SocketEvent) (id : ℕ) (peer : Peer) (ctx : HandlerCtx) (task : Task)
      (gated : NeedsApproval) (s : State) (hpass : self.pass e = some (.first id peer ctx task))
      (habsent : self.dialogs.call id = .absent)
      (h : self.firstPass ssh peer (self.contextOf peer ctx) task = (.suspended gated, s)) :
      Turns ssh libs self e (((self.settle (self.contextOf peer ctx) s).leave id).suspend id gated)
  | finalized (e : SocketEvent) (id : ℕ) (ctx : HandlerCtx) (gated : NeedsApproval)
      (completion : Completion) (hpass : self.pass e = some (.second id gated ctx completion))
      (happroved : self.approved id = some gated) :
      Turns ssh libs self e
        (((self.settle (self.contextOf gated.peer ctx)
          (self.secondPass ssh gated (self.contextOf gated.peer ctx) completion).2).leave id).finish
            id)
  | passkey (id : ℕ) :
      Turns ssh libs self (.addPasskey id)
        { self with dialogs := self.dialogs.step (.arrive id passkeyRequest) }
  | dialog (e : DialogEvent) (h : ∀ id req, e ≠ .arrive id req) :
      Turns ssh libs self (.dialog e) { self with dialogs := self.dialogs.step e }
  | discovered (socket : ℕ) (r : Refresh) (agent : SocketState)
      (h : self.agents[socket]? = some agent) :
      Turns ssh libs self (.discover socket r)
        { self with
          agents := self.agents.set socket { agent with target := agent.target.applyDiscovery ssh r }
          daemon := self.daemon.withStore
            (registerOpDefinitions self.daemon.store (agent.target.applyDiscovery ssh r).live) }
  | rebound (r : Rebind) : Turns ssh libs self (.restart r) (self.rebind ssh r)

section Passes

variable {ssh : SshKeys} {libs : MatchLibs} {self : Sockets} {e : SocketEvent} {id : ℕ}
  {ctx : HandlerCtx}

theorem unused_absent (h : self.unused id = true) : self.dialogs.call id = .absent := by
  unfold Sockets.unused at h
  split at h
  · assumption
  · cases h

/-- A first pass is for a request that has no dialog yet. -/
theorem pass_absent {peer : Peer} {task : Task}
    (h : self.pass e = some (.first id peer ctx task)) : self.dialogs.call id = .absent := by
  unfold Sockets.pass at h
  split at h
  · split at h
    · rename_i hunused
      cases h
      exact unused_absent hunused
    · cases h
  · split at h
    · cases h
      assumption
    · split at h <;> cases h
    · cases h
  · split at h <;> cases h
  · cases h

/-- A request is served when it arrives. -/
theorem pass_request {peer : Peer} {req : Request}
    (h : self.pass e = some (.first id peer ctx (.request req))) :
    e = .arrive id peer ctx (.control req) := by
  unfold Sockets.pass at h
  split at h
  · split at h
    · cases h
      rfl
    · cases h
  · split at h
    · cases h
    · split at h <;> cases h
    · cases h
  · split at h <;> cases h
  · cases h

/-- A signature is made with what the registry was read for. -/
theorem pass_resolved {peer : Peer} {socket : ℕ} {msg : AgentMessage} {fields : SignRequestFields}
    {key : RegisteredKey}
    (h : self.pass e = some (.first id peer ctx (.sign socket msg fields key))) :
    self.passes id = some (.resolved peer socket msg fields key) := by
  unfold Sockets.pass at h
  split at h
  · split at h <;> cases h
  · split at h
    · cases h
      assumption
    · split at h <;> cases h
    · cases h
  · split at h <;> cases h
  · cases h

theorem pass_signApproved {gated : NeedsApproval} {source : KeySource} {fields : SignRequestFields}
    (h : self.pass e = some (.second id gated ctx (.sign source fields))) :
    self.passes id = some (.approved fields) ∧ self.approved id = some gated := by
  unfold Sockets.pass at h
  split at h
  · split at h <;> cases h
  · split at h
    · cases h
    · split at h
      · cases h
        exact ⟨by assumption, by assumption⟩
      · cases h
    · cases h
  · split at h <;> cases h
  · cases h

/-- A second pass is for a request that was approved. -/
theorem pass_approved {gated : NeedsApproval} {completion : Completion}
    (h : self.pass e = some (.second id gated ctx completion)) : self.approved id = some gated := by
  unfold Sockets.pass at h
  split at h
  · split at h <;> cases h
  · split at h
    · cases h
    · split at h
      · cases h
        assumption
      · cases h
    · cases h
  · split at h
    · cases h
      assumption
    · cases h
  · cases h

end Passes

theorem carryOut_turns (ssh : SshKeys) (libs : MatchLibs) (self : Sockets) (e : SocketEvent)
    {pass : Pass} (h : self.pass e = some pass) : Turns ssh libs self e (self.carryOut ssh pass) := by
  cases pass with
  | first id peer ctx task =>
    unfold Sockets.carryOut
    simp only
    split
    · exact .served e id peer ctx task _ _ h ‹_›
    · exact .suspended e id peer ctx task _ _ h (pass_absent h) ‹_›
  | second id gated ctx completion => exact .finalized e id ctx gated completion h (pass_approved h)

theorem resolve_turns (ssh : SshKeys) (libs : MatchLibs) (self : Sockets) (e : SocketEvent)
    (id : ℕ) : Turns ssh libs self e (self.resolve libs id) := by
  unfold Sockets.resolve
  split
  · split
    · rename_i fields key hfound
      exact .held e id _ (Option.bind_eq_some_iff.mp hfound)
    · exact .dropped e id
  · exact .idle e

theorem resolveAgain_turns (ssh : SshKeys) (libs : MatchLibs) (self : Sockets) (e : SocketEvent)
    (id : ℕ) : Turns ssh libs self e (self.resolveAgain libs id) := by
  unfold Sockets.resolveAgain
  split
  · rename_i key socket source msg peer guardEval record happroved hnone
    split
    · rename_i fields hfound
      obtain ⟨agent, hagent, hresolved⟩ := Option.bind_eq_some_iff.mp hfound
      exact .held e id _ ⟨_, socket, source, msg, agent, happroved, rfl, hagent, hresolved⟩
    · exact .refused e id hnone
  · exact .idle e

theorem step_turns (ssh : SshKeys) (libs : MatchLibs) (self : Sockets) (e : SocketEvent) :
    Turns ssh libs self e (self.step ssh libs e) := by
  unfold Sockets.step
  split
  · rename_i pass hpass
    exact carryOut_turns ssh libs self e hpass
  · split
    · rename_i id peer ctx socket admitted msg hnone
      unfold Sockets.receive
      split
      · exact .held _ id _ trivial
      · exact .idle _
    · exact resolve_turns ssh libs self _ _
    · exact resolveAgain_turns ssh libs self _ _
    · exact .passkey _
    · exact .idle _
    · rename_i hnew hnone
      exact .dialog _ hnew
    · rename_i socket r hnone
      unfold Sockets.applyDiscovery
      split
      · exact .idle _
      · exact .discovered socket r _ ‹_›
    · exact .rebound _
    · exact .idle _

end Daemon

end CacheWarden
