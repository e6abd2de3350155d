import CacheWarden.Daemon.Dialogs

/-!
# The approver client and its shutdown

A request reserves a slot, looks at the latch, waits its turn and exchanges one
message with the helper; where the helper is gone it replaces it, once. A
shutdown sets the latch, takes the recorded pid and kills it, and only then waits
its turn to drop the connection. The latch, the pid, the connection and the slot
counter are separate, so every access to one of them is a step of its own.
-/

set_option autoImplicit false

namespace CacheWarden

namespace Daemon

inductive RequestError where
  | wouldBlock
  | shutDown
  | timedOut
  | invalidData
  | connDeath
  | spawnFailed
  | abandoned
  deriving DecidableEq

/-- An exchange that fails though the connection lives. -/
inductive ExchangeError where
  | timedOut
  | invalidData
  deriving DecidableEq

def ExchangeError.toRequestError : ExchangeError → RequestError
  | .timedOut => .timedOut
  | .invalidData => .invalidData

/-- What a request does with the lock. Helpers go by the number of their process;
an exchange keeps the answer its helper has given and nobody has read. -/
inductive Stage where
  | looking
  | exchanging (helper : ℕ) (retry : Bool) (answer : Option WireOutcome)
  | dead
  | taken (helper : ℕ)
  | unrecorded (helper : ℕ)
  | cleared
  | rechecked
  | spawning (helper : ℕ)
  | accepted (helper : ℕ)
  | recorded (helper : ℕ)
  deriving DecidableEq

/-- Where a call of `request` stands. A request that is leaving has its slot and
nothing else. -/
inductive RequestPhase where
  | absent
  | entered (depth : ℕ)
  | admitted
  | waiting
  | inside (stage : Stage)
  | leaving (result : Except RequestError WireOutcome)
  | done (result : Except RequestError WireOutcome)
  deriving DecidableEq

inductive ShutdownPhase where
  | idle
  | latched
  | swapped (pid : Option ℕ)
  | queued
  | holding
  | returned
  deriving DecidableEq

inductive Holder where
  | request (id : ℕ)
  | shutdown
  deriving DecidableEq

/-- The client. `alive` and `next` are the processes outside it: those that run,
and the number of the next one to be spawned. -/
structure ApproverClient where
  closed : Bool
  helperPid : Option ℕ
  pending : ℕ
  lock : Option Holder
  conn : Option ℕ
  alive : ℕ → Bool
  next : ℕ
  request : ℕ → RequestPhase
  shutdown : ShutdownPhase

def maxPendingRequests : ℕ := 5

/-- One step of a request, of its helper or of the shutdown. `abandon` drops the
future of a request, which can happen only where it waits. -/
inductive ClientEvent where
  | begin (id : ℕ)
  | reserve (id : ℕ)
  | check (id : ℕ)
  | acquire (id : ℕ)
  | lockTimeout (id : ℕ)
  | look (id : ℕ)
  | answer (id : ℕ) (outcome : WireOutcome)
  | read (id : ℕ)
  | sever (id : ℕ)
  | fail (id : ℕ) (e : ExchangeError)
  | take (id : ℕ)
  | unrecord (id : ℕ)
  | dispose (id : ℕ)
  | recheck (id : ℕ)
  | spawn (id : ℕ)
  | spawnFail (id : ℕ)
  | accept (id : ℕ)
  | acceptFail (id : ℕ)
  | record (id : ℕ)
  | install (id : ℕ)
  | abandon (id : ℕ)
  | leave (id : ℕ)
  | helperExit (helper : ℕ)
  | latch
  | swap
  | kill
  | acquireShutdown
  | disposeShutdown
  deriving DecidableEq

namespace ApproverClient

/-- The client once its first helper has connected. -/
def started (helper : ℕ) : ApproverClient where
  closed := false
  helperPid := some helper
  pending := 0
  lock := none
  conn := some helper
  alive h := decide (h = helper)
  next := helper + 1
  request _ := .absent
  shutdown := .idle

def move (self : ApproverClient) (id : ℕ) (phase : RequestPhase) : ApproverClient :=
  { self with request := Function.update self.request id phase }

/-- The lock goes first, the slot last. -/
def finish (self : ApproverClient) (id : ℕ) (result : Except RequestError WireOutcome) :
    ApproverClient :=
  { self.move id (.leaving result) with lock := none }

def sigkill (self : ApproverClient) (pid : Option ℕ) : ApproverClient :=
  { self with alive := fun helper => if pid = some helper then false else self.alive helper }

/-- A step that its request or the shutdown is not at does nothing. -/
def step (self : ApproverClient) : ClientEvent → ApproverClient
  | .begin id =>
    match self.request id with
    | .absent => { self.move id (.entered (self.pending + 1)) with pending := self.pending + 1 }
    | _ => self
  | .reserve id =>
    match self.request id with
    | .entered depth =>
      if maxPendingRequests < depth then self.move id (.leaving (.error .wouldBlock))
      else self.move id .admitted
    | _ => self
  | .check id =>
    match self.request id with
    | .admitted =>
      if self.closed then self.move id (.leaving (.error .shutDown)) else self.move id .waiting
    | _ => self
  | .acquire id =>
    match self.request id, self.lock with
    | .waiting, none => { self.move id (.inside .looking) with lock := some (.request id) }
    | _, _ => self
  | .lockTimeout id =>
    match self.request id with
    | .waiting => self.move id (.leaving (.error .timedOut))
    | _ => self
  | .look id =>
    match self.request id, self.conn with
    | .inside .looking, some helper => self.move id (.inside (.exchanging helper false none))
    | .inside .looking, none => self.move id (.inside .cleared)
    | _, _ => self
  | .answer id outcome =>
    match self.request id with
    | .inside (.exchanging helper retry none) =>
      if self.alive helper then
        self.move id (.inside (.exchanging helper retry (some outcome)))
      else self
    | _ => self
  | .read id =>
    match self.request id with
    | .inside (.exchanging _ _ (some outcome)) => self.finish id (.ok outcome)
    | _ => self
  | .sever id =>
    match self.request id with
    | .inside (.exchanging _ false none) => self.move id (.inside .dead)
    | .inside (.exchanging _ true none) => self.finish id (.error .connDeath)
    | _ => self
  | .fail id e =>
    match self.request id with
    | .inside (.exchanging _ _ _) => self.finish id (.error e.toRequestError)
    | _ => self
  | .take id =>
    match self.request id, self.conn with
    | .inside .dead, some helper =>
      { self.move id (.inside (.taken helper)) with conn := none }
    | _, _ => self
  | .unrecord id =>
    match self.request id with
    | .inside (.taken helper) =>
      { self.move id (.inside (.unrecorded helper)) with helperPid := none }
    | _ => self
  | .dispose id =>
    match self.request id with
    | .inside (.unrecorded helper) => (self.sigkill (some helper)).move id (.inside .cleared)
    | _ => self
  | .recheck id =>
    match self.request id with
    | .inside .cleared =>
      if self.closed then self.finish id (.error .shutDown)
      else self.move id (.inside .rechecked)
    | _ => self
  | .spawn id =>
    match self.request id with
    | .inside .rechecked =>
      { self.move id (.inside (.spawning self.next)) with
        alive := Function.update self.alive self.next true
        next := self.next + 1 }
    | _ => self
  | .spawnFail id =>
    match self.request id with
    | .inside .rechecked => self.finish id (.error .spawnFailed)
    | _ => self
  | .accept id =>
    match self.request id with
    | .inside (.spawning helper) => self.move id (.inside (.accepted helper))
    | _ => self
  | .acceptFail id =>
    match self.request id with
    | .inside (.spawning helper) => (self.sigkill (some helper)).finish id (.error .timedOut)
    | _ => self
  | .record id =>
    match self.request id with
    | .inside (.accepted helper) =>
      { self.move id (.inside (.recorded helper)) with helperPid := some helper }
    | _ => self
  | .install id =>
    match self.request id with
    | .inside (.recorded helper) =>
      { self.move id (.inside (.exchanging helper true none)) with conn := some helper }
    | _ => self
  | .abandon id =>
    match self.request id with
    | .waiting => self.move id (.leaving (.error .abandoned))
    | .inside (.exchanging _ _ _) => self.finish id (.error .abandoned)
    | .inside .cleared => self.finish id (.error .abandoned)
    | .inside (.spawning helper) => (self.sigkill (some helper)).finish id (.error .abandoned)
    | _ => self
  | .leave id =>
    match self.request id with
    | .leaving result => { self.move id (.done result) with pending := self.pending - 1 }
    | _ => self
  | .helperExit helper => self.sigkill (some helper)
  | .latch =>
    match self.shutdown with
    | .idle => { self with closed := true, shutdown := .latched }
    | _ => self
  | .swap =>
    match self.shutdown with
    | .latched => { self with helperPid := none, shutdown := .swapped self.helperPid }
    | _ => self
  | .kill =>
    match self.shutdown with
    | .swapped pid => { self.sigkill pid with shutdown := .queued }
    | _ => self
  | .acquireShutdown =>
    match self.shutdown, self.lock with
    | .queued, none => { self with lock := some .shutdown, shutdown := .holding }
    | _, _ => self
  | .disposeShutdown =>
    match self.shutdown with
    | .holding =>
      { self.sigkill self.conn with conn := none, lock := none, shutdown := .returned }
    | _ => self

end ApproverClient

section Frames

variable (s : ApproverClient) (id : ℕ)

@[simp, grind =] theorem move_request (phase : RequestPhase) (a : ℕ) :
    (s.move id phase).request a = if a = id then phase else s.request a := by
  simp [ApproverClient.move, Function.update_apply]

@[simp, grind =] theorem move_closed (phase : RequestPhase) :
    (s.move id phase).closed = s.closed := rfl

@[simp, grind =] theorem move_helperPid (phase : RequestPhase) :
    (s.move id phase).helperPid = s.helperPid := rfl

@[simp, grind =] theorem move_pending (phase : RequestPhase) :
    (s.move id phase).pending = s.pending := rfl

@[simp, grind =] theorem move_lock (phase : RequestPhase) :
    (s.move id phase).lock = s.lock := rfl

@[simp, grind =] theorem move_conn (phase : RequestPhase) :
    (s.move id phase).conn = s.conn := rfl

@[simp, grind =] theorem move_alive (phase : RequestPhase) (h : ℕ) :
    (s.move id phase).alive h = s.alive h := rfl

@[simp, grind =] theorem move_shutdown (phase : RequestPhase) :
    (s.move id phase).shutdown = s.shutdown := rfl

@[simp, grind =] theorem finish_request (result : Except RequestError WireOutcome) (a : ℕ) :
    (s.finish id result).request a = if a = id then .leaving result else s.request a := by
  simp [ApproverClient.finish]

@[simp, grind =] theorem finish_closed (result : Except RequestError WireOutcome) :
    (s.finish id result).closed = s.closed := rfl

@[simp, grind =] theorem finish_helperPid (result : Except RequestError WireOutcome) :
    (s.finish id result).helperPid = s.helperPid := rfl

@[simp, grind =] theorem finish_pending (result : Except RequestError WireOutcome) :
    (s.finish id result).pending = s.pending := rfl

@[simp, grind =] theorem finish_lock (result : Except RequestError WireOutcome) :
    (s.finish id result).lock = none := rfl

@[simp, grind =] theorem finish_conn (result : Except RequestError WireOutcome) :
    (s.finish id result).conn = s.conn := rfl

@[simp, grind =] theorem finish_alive (result : Except RequestError WireOutcome) (h : ℕ) :
    (s.finish id result).alive h = s.alive h := rfl

@[simp, grind =] theorem finish_shutdown (result : Except RequestError WireOutcome) :
    (s.finish id result).shutdown = s.shutdown := rfl

@[simp, grind =] theorem sigkill_request (pid : Option ℕ) (a : ℕ) :
    (s.sigkill pid).request a = s.request a := rfl

@[simp, grind =] theorem sigkill_closed (pid : Option ℕ) :
    (s.sigkill pid).closed = s.closed := rfl

@[simp, grind =] theorem sigkill_helperPid (pid : Option ℕ) :
    (s.sigkill pid).helperPid = s.helperPid := rfl

@[simp, grind =] theorem sigkill_pending (pid : Option ℕ) :
    (s.sigkill pid).pending = s.pending := rfl

@[simp, grind =] theorem sigkill_lock (pid : Option ℕ) :
    (s.sigkill pid).lock = s.lock := rfl

@[simp, grind =] theorem sigkill_conn (pid : Option ℕ) :
    (s.sigkill pid).conn = s.conn := rfl

@[simp, grind =] theorem sigkill_alive (pid : Option ℕ) (h : ℕ) :
    (s.sigkill pid).alive h = if pid = some h then false else s.alive h := rfl

@[simp, grind =] theorem sigkill_shutdown (pid : Option ℕ) :
    (s.sigkill pid).shutdown = s.shutdown := rfl

end Frames

/-- What one step does: nothing, or the one thing its party is at. -/
inductive Steps (s : ApproverClient) : ClientEvent → ApproverClient → Prop
  | idle (e : ClientEvent) : Steps s e s
  | begun (id : ℕ) (h : s.request id = .absent) :
      Steps s (.begin id)
        { s.move id (.entered (s.pending + 1)) with pending := s.pending + 1 }
  | refused (id depth : ℕ) (h : s.request id = .entered depth)
      (hdepth : maxPendingRequests < depth) :
      Steps s (.reserve id) (s.move id (.leaving (.error .wouldBlock)))
  | admitted (id depth : ℕ) (h : s.request id = .entered depth)
      (hdepth : depth ≤ maxPendingRequests) : Steps s (.reserve id) (s.move id .admitted)
  | turnedAway (id : ℕ) (h : s.request id = .admitted) (hclosed : s.closed = true) :
      Steps s (.check id) (s.move id (.leaving (.error .shutDown)))
  | checked (id : ℕ) (h : s.request id = .admitted) (hclosed : s.closed = false) :
      Steps s (.check id) (s.move id .waiting)
  | acquired (id : ℕ) (h : s.request id = .waiting) (hlock : s.lock = none) :
      Steps s (.acquire id) { s.move id (.inside .looking) with lock := some (.request id) }
  | unserved (e : ClientEvent) (id : ℕ) (err : RequestError) (h : s.request id = .waiting) :
      Steps s e (s.move id (.leaving (.error err)))
  | exchanged (id helper : ℕ) (h : s.request id = .inside .looking) (hconn : s.conn = some helper) :
      Steps s (.look id) (s.move id (.inside (.exchanging helper false none)))
  | unconnected (id : ℕ) (h : s.request id = .inside .looking) (hconn : s.conn = none) :
      Steps s (.look id) (s.move id (.inside .cleared))
  | answered (id helper : ℕ) (retry : Bool) (outcome : WireOutcome)
      (h : s.request id = .inside (.exchanging helper retry none))
      (halive : s.alive helper = true) :
      Steps s (.answer id outcome)
        (s.move id (.inside (.exchanging helper retry (some outcome))))
  | replied (id helper : ℕ) (retry : Bool) (outcome : WireOutcome)
      (h : s.request id = .inside (.exchanging helper retry (some outcome))) :
      Steps s (.read id) (s.finish id (.ok outcome))
  | severed (id helper : ℕ) (h : s.request id = .inside (.exchanging helper false none)) :
      Steps s (.sever id) (s.move id (.inside .dead))
  | failed (e : ClientEvent) (id helper : ℕ) (retry : Bool) (answer : Option WireOutcome)
      (err : RequestError) (h : s.request id = .inside (.exchanging helper retry answer)) :
      Steps s e (s.finish id (.error err))
  | taken (id helper : ℕ) (h : s.request id = .inside .dead) (hconn : s.conn = some helper) :
      Steps s (.take id) { s.move id (.inside (.taken helper)) with conn := none }
  | unrecorded (id helper : ℕ) (h : s.request id = .inside (.taken helper)) :
      Steps s (.unrecord id)
        { s.move id (.inside (.unrecorded helper)) with helperPid := none }
  | disposed (id helper : ℕ) (h : s.request id = .inside (.unrecorded helper)) :
      Steps s (.dispose id) ((s.sigkill (some helper)).move id (.inside .cleared))
  | rechecked (id : ℕ) (h : s.request id = .inside .cleared) (hclosed : s.closed = false) :
      Steps s (.recheck id) (s.move id (.inside .rechecked))
  | gaveUp (e : ClientEvent) (id : ℕ) (err : RequestError)
      (h : s.request id = .inside .cleared ∨ s.request id = .inside .rechecked) :
      Steps s e (s.finish id (.error err))
  | spawned (id : ℕ) (h : s.request id = .inside .rechecked) :
      Steps s (.spawn id)
        { s.move id (.inside (.spawning s.next)) with
          alive := Function.update s.alive s.next true
          next := s.next + 1 }
  | accepted (id helper : ℕ) (h : s.request id = .inside (.spawning helper)) :
      Steps s (.accept id) (s.move id (.inside (.accepted helper)))
  | unaccepted (e : ClientEvent) (id helper : ℕ) (err : RequestError)
      (h : s.request id = .inside (.spawning helper)) :
      Steps s e ((s.sigkill (some helper)).finish id (.error err))
  | recorded (id helper : ℕ) (h : s.request id = .inside (.accepted helper)) :
      Steps s (.record id)
        { s.move id (.inside (.recorded helper)) with helperPid := some helper }
  | installed (id helper : ℕ) (h : s.request id = .inside (.recorded helper)) :
      Steps s (.install id)
        { s.move id (.inside (.exchanging helper true none)) with conn := some helper }
  | left (id : ℕ) (result : Except RequestError WireOutcome) (h : s.request id = .leaving result) :
      Steps s (.leave id) { s.move id (.done result) with pending := s.pending - 1 }
  | exited (helper : ℕ) : Steps s (.helperExit helper) (s.sigkill (some helper))
  | latched (h : s.shutdown = .idle) :
      Steps s .latch { s with closed := true, shutdown := .latched }
  | swapped (h : s.shutdown = .latched) :
      Steps s .swap { s with helperPid := none, shutdown := .swapped s.helperPid }
  | killed (pid : Option ℕ) (h : s.shutdown = .swapped pid) :
      Steps s .kill { s.sigkill pid with shutdown := .queued }
  | shutdownAcquired (h : s.shutdown = .queued) (hlock : s.lock = none) :
      Steps s .acquireShutdown { s with lock := some .shutdown, shutdown := .holding }
  | shutdownDisposed (h : s.shutdown = .holding) :
      Steps s .disposeShutdown
        { s.sigkill s.conn with conn := none, lock := none, shutdown := .returned }

theorem step_steps (s : ApproverClient) (e : ClientEvent) : Steps s e (s.step e) := by
  cases e with
  | begin id =>
    simp only [ApproverClient.step]
    split
    · exact .begun id ‹_›
    · exact .idle _
  | reserve id =>
    simp only [ApproverClient.step]
    split
    · split
      · exact .refused id _ ‹_› ‹_›
      · exact .admitted id _ ‹_› (Nat.le_of_not_lt ‹_›)
    · exact .idle _
  | check id =>
    simp only [ApproverClient.step]
    split
    · split
      · exact .turnedAway id ‹_› ‹_›
      · exact .checked id ‹_› (Bool.eq_false_of_not_eq_true ‹_›)
    · exact .idle _
  | acquire id =>
    simp only [ApproverClient.step]
    split
    · exact .acquired id ‹_› ‹_›
    · exact .idle _
  | lockTimeout id =>
    simp only [ApproverClient.step]
    split
    · exact .unserved _ id _ ‹_›
    · exact .idle _
  | look id =>
    simp only [ApproverClient.step]
    split
    · exact .exchanged id _ ‹_› ‹_›
    · exact .unconnected id ‹_› ‹_›
    · exact .idle _
  | answer id outcome =>
    simp only [ApproverClient.step]
    split
    · split
      · exact .answered id _ _ outcome ‹_› ‹_›
      · exact .idle _
    · exact .idle _
  | read id =>
    simp only [ApproverClient.step]
    split
    · exact .replied id _ _ _ ‹_›
    · exact .idle _
  | sever id =>
    simp only [ApproverClient.step]
    split
    · exact .severed id _ ‹_›
    · exact .failed _ id _ _ _ _ ‹_›
    · exact .idle _
  | fail id e =>
    simp only [ApproverClient.step]
    split
    · exact .failed _ id _ _ _ _ ‹_›
    · exact .idle _
  | take id =>
    simp only [ApproverClient.step]
    split
    · exact .taken id _ ‹_› ‹_›
    · exact .idle _
  | unrecord id =>
    simp only [ApproverClient.step]
    split
    · exact .unrecorded id _ ‹_›
    · exact .idle _
  | dispose id =>
    simp only [ApproverClient.step]
    split
    · exact .disposed id _ ‹_›
    · exact .idle _
  | recheck id =>
    simp only [ApproverClient.step]
    split
    · split
      · exact .gaveUp _ id _ (Or.inl ‹_›)
      · exact .rechecked id ‹_› (Bool.eq_false_of_not_eq_true ‹_›)
    · exact .idle _
  | spawn id =>
    simp only [ApproverClient.step]
    split
    · exact .spawned id ‹_›
    · exact .idle _
  | spawnFail id =>
    simp only [ApproverClient.step]
    split
    · exact .gaveUp _ id _ (Or.inr ‹_›)
    · exact .idle _
  | accept id =>
    simp only [ApproverClient.step]
    split
    · exact .accepted id _ ‹_›
    · exact .idle _
  | acceptFail id =>
    simp only [ApproverClient.step]
    split
    · exact .unaccepted _ id _ _ ‹_›
    · exact .idle _
  | record id =>
    simp only [ApproverClient.step]
    split
    · exact .recorded id _ ‹_›
    · exact .idle _
  | install id =>
    simp only [ApproverClient.step]
    split
    · exact .installed id _ ‹_›
    · exact .idle _
  | abandon id =>
    simp only [ApproverClient.step]
    split
    · exact .unserved _ id _ ‹_›
    · exact .failed _ id _ _ _ _ ‹_›
    · exact .gaveUp _ id _ (Or.inl ‹_›)
    · exact .unaccepted _ id _ _ ‹_›
    · exact .idle _
  | leave id =>
    simp only [ApproverClient.step]
    split
    · exact .left id _ ‹_›
    · exact .idle _
  | helperExit helper => exact .exited helper
  | latch =>
    simp only [ApproverClient.step]
    split
    · exact .latched ‹_›
    · exact .idle _
  | swap =>
    simp only [ApproverClient.step]
    split
    · exact .swapped ‹_›
    · exact .idle _
  | kill =>
    simp only [ApproverClient.step]
    split
    · exact .killed _ ‹_›
    · exact .idle _
  | acquireShutdown =>
    simp only [ApproverClient.step]
    split
    · exact .shutdownAcquired ‹_› ‹_›
    · exact .idle _
  | disposeShutdown =>
    simp only [ApproverClient.step]
    split
    · exact .shutdownDisposed ‹_›
    · exact .idle _

end Daemon

end CacheWarden
