import CacheWarden.Approver.Messages
import CacheWarden.Lib.Transition

/-!
# The approver helper and the daemon's exchange with it

The helper reads its requests on one thread, shows them on another, and is called back by
the sensor on a third; whoever takes the outcome of a dialog first answers for it. The
daemon has one exchange on at a time, gives it up when its time is over, and replaces a
helper that has died. Both ends write and read a byte at a time, so that anything may fall
between two bytes.
-/

set_option autoImplicit false

namespace CacheWarden

namespace Approver

open CutLines
open Daemon (WireOutcome RequestError)

/-- The callback that took the outcome of a dialog: the completion block of the sensor, the
Cancel button or the closing of the window, or the countdown. -/
inductive Finalizer where
  | evaluated (ok : Bool)
  | cancelled
  | timedOut
  deriving DecidableEq

def Finalizer.outcome : Finalizer → WireOutcome
  | .evaluated ok => if ok then .approved else .biometricFailed
  | .cancelled => .cancelled
  | .timedOut => .timeout

def Finalizer.biometricKind : Finalizer → Option String
  | .evaluated _ => some "TouchID"
  | _ => none

/-- The slot of a dialog: full, taken, written out, and the reader told. -/
inductive Slot where
  | pending
  | taken (finalizer : Finalizer)
  | written (finalizer : Finalizer)
  | signalled (finalizer : Finalizer)
  deriving DecidableEq

/-- A dialog on the screen or one that was. `handles` is the slot of its countdown,
`evaluating` and `armed` are the callbacks that are still to come. -/
structure Dialog where
  req : ApproveRequest
  summary : String
  slot : Slot
  handles : Bool
  evaluating : Bool
  armed : Bool
  deriving DecidableEq

/-- The explainer of Full Disk Access. It answers once: when it sees the grant, else when it
is closed. -/
inductive Explainer where
  | closed
  | shown (requestId : String)
  | granting (requestId : String)
  | granted (requestId : String)
  | dismissing (requestId : String)
  deriving DecidableEq

/-- The reader thread: at its next line, with a request dispatched to the main thread,
waiting for a dialog, or at its end. -/
inductive Reader where
  | reading (line : Text)
  | showing (req : ApproveRequest)
  | waiting (dialog : ℕ)
  | ended
  deriving DecidableEq

inductive Speaker where
  | dialog (d : ℕ)
  | explainer
  deriving DecidableEq

/-- `writer` is who holds the lock on the writer, with its message and what is left of the
line; `said` are the messages that have gone out whole. -/
structure Helper where
  alive : Bool
  reader : Reader
  dialogs : List Dialog
  explainers : List FdaPromptRequest
  explainer : Explainer
  writer : Option (Speaker × HelperResponse × Text)
  said : List HelperResponse
  deriving DecidableEq

/-- The daemon's side: `retried` says that the helper was replaced for this request. -/
inductive Client where
  | idle
  | writing (req : ApproveRequest) (retried : Bool) (rest : Text)
  | reading (req : ApproveRequest) (retried : Bool) (line : Text)
  | respawning (req : ApproveRequest)
  | notifying (prompt : FdaPromptRequest) (rest : Text)
  | gone
  deriving DecidableEq

/-- `minted` is what every id was drawn for, a request or a prompt, its length the counter
behind the ids; `waiting` and `prompts` are those that wait for their turn. `past` are the
dialogs of helpers that are no more. -/
structure System where
  client : Client
  connected : Bool
  minted : List HelperRequest
  waiting : List ApproveRequest
  prompts : List FdaPromptRequest
  results : List (ApproveRequest × Except RequestError WireOutcome)
  helper : Helper
  down : Text
  up : Text
  past : List Dialog
  deriving DecidableEq

inductive Event where
  | mint (question : Question)
  | turn (i : ℕ)
  | lockTimeout (i : ℕ)
  | say
  | sayError
  | hear
  | hearEnd
  | timeout
  | abandon
  | respawn
  | respawnFail
  | mintPrompt
  | notify (i : ℕ)
  | dropPrompt (i : ℕ)
  | hangUp
  | read
  | readEnd
  | readError
  | showDialog
  | resume
  | terminate
  | kill
  | evaluated (d : ℕ) (ok : Bool)
  | cancel (d : ℕ)
  | countdown (d : ℕ)
  | disarm (d : ℕ)
  | explain (granted : Bool)
  | probe
  | dismiss
  | lock (speaker : Speaker)
  | write
  | writeError
  | unlock
  | signal (d : ℕ)
  deriving DecidableEq

/-- What the parties share: how messages are put on a line, and the daemon's pid. -/
structure Env where
  requests : Codec HelperRequest
  responses : Codec HelperResponse
  pid : UInt32

def Helper.start : Helper := ⟨true, .reading [], [], [], .closed, none, []⟩

def System.start : System := ⟨.idle, true, [], [], [], [], Helper.start, [], [], []⟩

def Dialog.open (req : ApproveRequest) : Dialog :=
  ⟨req, summaryLine req, .pending, true, true, decide (req.timeoutSecs ≠ 0)⟩

/-- Whoever finds the slot full empties it. -/
def Dialog.take (self : Dialog) (finalizer : Finalizer) : Dialog :=
  match self.slot with
  | .pending => { self with slot := .taken finalizer }
  | _ => self

def Dialog.evaluated (self : Dialog) (ok : Bool) : Dialog :=
  if self.evaluating then { self.take (.evaluated ok) with evaluating := false } else self

/-- `finalize_cancelled`, and the countdown disarmed. -/
def Dialog.cancel (self : Dialog) : Dialog := { self.take .cancelled with handles := false }

/-- The countdown fires once, and does nothing where it was disarmed. -/
def Dialog.countdown (self : Dialog) : Dialog :=
  if self.armed then
    if self.handles then { self.take .timedOut with armed := false, handles := false }
    else { self with armed := false }
  else self

/-- What the completion block leaves to the main thread. -/
def Dialog.disarm (self : Dialog) : Dialog :=
  match self.slot with
  | .pending => self
  | _ => { self with handles := false }

def respond (req : ApproveRequest) (finalizer : Finalizer) : ApproveResponse :=
  ⟨wireVersion, req.requestId, finalizer.outcome, finalizer.biometricKind⟩

/-- What a speaker has to say. -/
def Helper.owes (self : Helper) : Speaker → Option HelperResponse
  | .dialog d =>
    match self.dialogs[d]? with
    | some dialog =>
      match dialog.slot with
      | .taken finalizer => some (.approve (respond dialog.req finalizer))
      | _ => none
    | none => none
  | .explainer =>
    match self.explainer with
    | .granting requestId => some (.fdaPrompt ⟨wireVersion, requestId, .granted⟩)
    | .dismissing requestId => some (.fdaPrompt ⟨wireVersion, requestId, .dismissed⟩)
    | _ => none

def Dialog.spoken (self : Dialog) : Dialog :=
  match self.slot with
  | .taken finalizer => { self with slot := .written finalizer }
  | _ => self

def Explainer.spoken : Explainer → Explainer
  | .granting requestId => .granted requestId
  | .dismissing _ => .closed
  | self => self

def Helper.change (self : Helper) (d : ℕ) (f : Dialog → Dialog) : Helper :=
  { self with dialogs := self.dialogs.modify d f }

/-- The write is over, with success or not. -/
def Helper.spoken (self : Helper) : Speaker → Helper
  | .dialog d => { self.change d Dialog.spoken with writer := none }
  | .explainer => { self with explainer := self.explainer.spoken, writer := none }

def Dialog.signal (self : Dialog) : Dialog :=
  match self.slot with
  | .written finalizer => { self with slot := .signalled finalizer }
  | _ => self

/-- A line of the daemon's. One that does not decode or is of another version ends the
reader. -/
def Helper.readLine (env : Env) (self : Helper) (line : Text) : Helper :=
  match env.requests.read line with
  | none => { self with reader := .ended }
  | some (.approve req) =>
    if req.v ≠ wireVersion then { self with reader := .ended }
    else { self with reader := .showing req }
  | some (.fdaPrompt prompt) =>
    if prompt.v ≠ wireVersion then { self with reader := .ended }
    else { self with reader := .reading [], explainers := self.explainers ++ [prompt] }

/-- `show_fda_dialog_on_main`: a second request while the window is up is ignored. -/
def Helper.explain (self : Helper) (granted : Bool) : Helper :=
  match self.explainers with
  | [] => self
  | prompt :: rest =>
    match self.explainer with
    | .closed =>
      { self with
        explainers := rest
        explainer := if granted then .granting prompt.requestId else .shown prompt.requestId }
    | _ => { self with explainers := rest }

def Helper.resume (self : Helper) : Helper :=
  match self.reader with
  | .waiting d =>
    match self.dialogs[d]? with
    | some dialog =>
      match dialog.slot with
      | .signalled _ => { self with reader := .reading [] }
      | _ => self
    | none => self
  | _ => self

namespace System

def finish (self : System) (req : ApproveRequest) (result : Except RequestError WireOutcome) :
    System :=
  { self with client := .idle, results := self.results ++ [(req, result)] }

/-- A first attempt that finds the connection dead disposes of the helper; a second gives
up. -/
def connDeath (self : System) (req : ApproveRequest) (retried : Bool) : System :=
  if retried then self.finish req (.error .connDeath)
  else
    { self with
      client := .respawning req
      connected := false
      helper := { self.helper with alive := false } }

def ask (env : Env) (self : System) (req : ApproveRequest) (retried : Bool) : System :=
  { self with client := .writing req retried (env.requests.line (.approve req) ++ [newline]) }

/-- A line of the helper's. -/
def hearLine (env : Env) (self : System) (req : ApproveRequest) (retried : Bool) (line : Text) :
    System :=
  match env.responses.read line with
  | none => self.finish req (.error .invalidData)
  | some (.fdaPrompt _) => { self with client := .reading req retried [] }
  | some (.approve resp) =>
    if resp.v ≠ wireVersion then self.finish req (.error .invalidData)
    else if resp.requestId ≠ req.requestId then { self with client := .reading req retried [] }
    else self.finish req (.ok resp.outcome)

def respawned (self : System) : System :=
  { self with
    connected := true
    helper := Helper.start
    down := []
    up := []
    past := self.past ++ self.helper.dialogs }

/-- The daemon's steps. -/
def clientStep (env : Env) (self : System) : Event → System
  | .mint question =>
    let req := buildApproveRequest env.pid self.minted.length question
    { self with minted := self.minted ++ [.approve req], waiting := self.waiting ++ [req] }
  | .turn i =>
    match self.client, self.waiting[i]? with
    | .idle, some req =>
      let next := { self with waiting := self.waiting.eraseIdx i }
      if self.connected then next.ask env req false else { next with client := .respawning req }
    | _, _ => self
  | .lockTimeout i =>
    match self.waiting[i]? with
    | some req =>
      { self with
        waiting := self.waiting.eraseIdx i
        results := self.results ++ [(req, .error .timedOut)] }
    | none => self
  | .say =>
    if self.helper.alive then
      match self.client with
      | .writing req retried (byte :: rest) =>
        { self with
          down := self.down ++ [byte]
          client := if rest = [] then .reading req retried [] else .writing req retried rest }
      | .notifying prompt (byte :: rest) =>
        { self with
          down := self.down ++ [byte]
          client := if rest = [] then .idle else .notifying prompt rest }
      | _ => self
    else self
  | .sayError =>
    if self.helper.alive then self
    else
      match self.client with
      | .writing req retried _ => self.connDeath req retried
      | .notifying _ _ => { self with client := .idle }
      | _ => self
  | .hear =>
    match self.client, self.up with
    | .reading req retried line, byte :: rest =>
      let next := { self with up := rest }
      if byte = newline then next.hearLine env req retried line
      else { next with client := .reading req retried (line ++ [byte]) }
    | _, _ => self
  | .hearEnd =>
    match self.client, self.up with
    | .reading req retried line, [] =>
      if self.helper.alive then self
      else if line = [] then self.connDeath req retried
      else self.hearLine env req retried line
    | _, _ => self
  | .timeout =>
    match self.client with
    | .writing req _ _ => self.finish req (.error .timedOut)
    | .reading req _ _ => self.finish req (.error .timedOut)
    | .notifying _ _ => { self with client := .idle }
    | _ => self
  | .abandon =>
    match self.client with
    | .gone => self
    | _ => { self with client := .idle }
  | .respawn =>
    match self.client with
    | .respawning req => self.respawned.ask env req true
    | _ => self
  | .respawnFail =>
    match self.client with
    | .respawning req => self.finish req (.error .spawnFailed)
    | _ => self
  | .mintPrompt =>
    let prompt : FdaPromptRequest :=
      ⟨wireVersion, mintApproverRequestId env.pid self.minted.length⟩
    { self with
      minted := self.minted ++ [.fdaPrompt prompt]
      prompts := self.prompts ++ [prompt] }
  | .notify i =>
    match self.client, self.prompts[i]? with
    | .idle, some prompt =>
      let next := { self with prompts := self.prompts.eraseIdx i }
      if self.connected then
        { next with
          client := .notifying prompt (env.requests.line (.fdaPrompt prompt) ++ [newline]) }
      else next
    | _, _ => self
  | .dropPrompt i => { self with prompts := self.prompts.eraseIdx i }
  | .hangUp => { self with client := .gone }
  | _ => self

/-- The helper's steps, with the writes and reads of its end. -/
def helperStep (env : Env) (self : System) : Event → System
  | .read =>
    match self.helper.reader, self.down with
    | .reading line, byte :: rest =>
      { self with
        down := rest
        helper :=
          if byte = newline then self.helper.readLine env line
          else { self.helper with reader := .reading (line ++ [byte]) } }
    | _, _ => self
  | .readEnd =>
    match self.helper.reader, self.down with
    | .reading line, [] =>
      if self.client = .gone then
        { self with
          helper :=
            if line = [] then { self.helper with reader := .ended }
            else self.helper.readLine env line }
      else self
    | _, _ => self
  | .readError =>
    match self.helper.reader with
    | .reading _ => { self with helper := { self.helper with reader := .ended } }
    | _ => self
  | .showDialog =>
    match self.helper.reader with
    | .showing req =>
      { self with
        helper :=
          { self.helper with
            reader := .waiting self.helper.dialogs.length
            dialogs := self.helper.dialogs ++ [.open req] } }
    | _ => self
  | .resume => { self with helper := self.helper.resume }
  | .terminate =>
    if self.helper.reader = .ended then { self with helper := { self.helper with alive := false } }
    else self
  | .kill => { self with helper := { self.helper with alive := false } }
  | .evaluated d ok => { self with helper := self.helper.change d fun dialog => dialog.evaluated ok }
  | .cancel d => { self with helper := self.helper.change d Dialog.cancel }
  | .countdown d => { self with helper := self.helper.change d Dialog.countdown }
  | .disarm d => { self with helper := self.helper.change d Dialog.disarm }
  | .explain granted => { self with helper := self.helper.explain granted }
  | .probe =>
    match self.helper.explainer with
    | .shown requestId =>
      { self with helper := { self.helper with explainer := .granting requestId } }
    | _ => self
  | .dismiss =>
    match self.helper.explainer with
    | .shown requestId =>
      { self with helper := { self.helper with explainer := .dismissing requestId } }
    | .granted _ => { self with helper := { self.helper with explainer := .closed } }
    | _ => self
  | .lock speaker =>
    match self.helper.writer, self.helper.owes speaker with
    | none, some resp =>
      { self with
        helper :=
          { self.helper with
            writer := some (speaker, resp, env.responses.line resp ++ [newline]) } }
    | _, _ => self
  | .write =>
    match self.helper.writer with
    | some (speaker, resp, byte :: rest) =>
      if self.client = .gone then self
      else
        { self with
          helper := { self.helper with writer := some (speaker, resp, rest) }
          up := self.up ++ [byte] }
    | _ => self
  | .writeError =>
    match self.helper.writer with
    | some (speaker, _, _ :: _) =>
      if self.client = .gone then { self with helper := self.helper.spoken speaker } else self
    | _ => self
  | .unlock =>
    match self.helper.writer with
    | some (speaker, resp, []) =>
      let helper := self.helper.spoken speaker
      { self with helper := { helper with said := helper.said ++ [resp] } }
    | _ => self
  | .signal d => { self with helper := self.helper.change d Dialog.signal }
  | _ => self

/-- Every event is a step of one of the two sides, and a helper that has died takes none. -/
def step (env : Env) (self : System) (e : Event) : System :=
  if self.helper.alive then (self.clientStep env e).helperStep env e else self.clientStep env e

end System

end Approver

end CacheWarden
