import CacheWarden.Daemon.ApproverQueue

/-!
# What a shutdown of the approver client leaves

At most one party has the lock, and a helper that runs is on the connection or
in the hands of the request that has the lock. A shutdown that takes the pid
while a new helper is not recorded yet does not kill it, and one that is
overtaken between its latch and its signal lets an exchange begin.
-/

set_option autoImplicit false

namespace CacheWarden

namespace Daemon

open Transition

/-- The helper that a request has and the connection has not. -/
def Stage.owns : Stage → Option ℕ
  | .taken helper => some helper
  | .unrecorded helper => some helper
  | .spawning helper => some helper
  | .accepted helper => some helper
  | .recorded helper => some helper
  | _ => none

def RequestPhase.isInside : RequestPhase → Bool
  | .inside _ => true
  | _ => false

def RequestPhase.owns : RequestPhase → Option ℕ
  | .inside stage => stage.owns
  | _ => none

/-- The helper in the hands of the request that has the lock. -/
def ApproverClient.held (s : ApproverClient) : Option ℕ :=
  match s.lock with
  | some (.request id) => (s.request id).owns
  | _ => none

structure Locked (s : ApproverClient) : Prop where
  inside : ∀ id stage, s.request id = .inside stage → s.lock = some (.request id)
  holder : ∀ id, s.lock = some (.request id) → (s.request id).isInside = true
  shutdown : s.lock = some .shutdown ↔ s.shutdown = .holding

theorem locked_step {s s' : ApproverClient} {e : ClientEvent} (h : Locked s) (hs : Steps s e s') :
    Locked s' := by
  obtain ⟨hinside, hholder, hshutdown⟩ := h
  constructor
  · cases hs <;> grind -ring -linarith
  · cases hs <;> grind -ring -linarith [RequestPhase.isInside]
  · cases hs <;> grind -ring -linarith

/-- Where the helpers are: a helper that runs is the connection's or a
request's, an exchange is with the helper of the connection, and a request that
replaces the helper leaves no connection. -/
structure Housed (s : ApproverClient) : Prop where
  alive : ∀ h, s.alive h = true → s.conn = some h ∨ s.held = some h
  exchanging : ∀ id h retry answer, s.request id = .inside (.exchanging h retry answer) →
    s.conn = some h
  vacant : ∀ id stage, s.request id = .inside stage → stage.owns.isSome → s.conn = none
  cleared : ∀ id, s.request id = .inside .cleared ∨ s.request id = .inside .rechecked →
    s.conn = none
  dead : ∀ id, s.request id = .inside .dead → s.conn ≠ none

section Housing

variable {s s' : ApproverClient} {e : ClientEvent}

theorem Locked.held_eq {id : ℕ} {stage : Stage} (hl : Locked s)
    (hid : s.request id = .inside stage) : s.held = stage.owns := by
  simp only [ApproverClient.held, hl.inside id stage hid, hid, RequestPhase.owns]

theorem alive_step (hl : Locked s) (h : Housed s) (hs : Steps s e s') (helper : ℕ)
    (halive : s'.alive helper = true) : s'.conn = some helper ∨ s'.held = some helper := by
  have hinside := hl.inside
  have hshutdown := hl.shutdown
  have hbefore := h.alive helper
  have hexchanging := h.exchanging
  have hvacant := h.vacant
  have hdead := h.dead
  have hheld : ∀ id stage, s.request id = .inside stage → s.held = stage.owns :=
    fun _ _ => hl.held_eq
  cases hs <;>
    grind -ring -linarith [ApproverClient.held, RequestPhase.owns, Stage.owns, Function.update_apply]

theorem exchanging_step (hl : Locked s) (h : Housed s) (hs : Steps s e s') (id helper : ℕ)
    (retry : Bool) (answer : Option WireOutcome)
    (hid : s'.request id = .inside (.exchanging helper retry answer)) : s'.conn = some helper := by
  have hinside := hl.inside
  have hshutdown := hl.shutdown
  have hexchanging := h.exchanging
  have hvacant := h.vacant
  have hdead := h.dead
  cases hs <;> grind -ring -linarith [Stage.owns]

theorem vacant_step (hl : Locked s) (h : Housed s) (hs : Steps s e s') (id : ℕ) (stage : Stage)
    (hid : s'.request id = .inside stage) (howns : stage.owns.isSome) : s'.conn = none := by
  have hinside := hl.inside
  have hshutdown := hl.shutdown
  have hvacant := h.vacant
  have hcleared := h.cleared
  cases hs <;> grind -ring -linarith [Stage.owns]

theorem cleared_step (hl : Locked s) (h : Housed s) (hs : Steps s e s') (id : ℕ)
    (hid : s'.request id = .inside .cleared ∨ s'.request id = .inside .rechecked) :
    s'.conn = none := by
  have hinside := hl.inside
  have hshutdown := hl.shutdown
  have hvacant := h.vacant
  have hcleared := h.cleared
  cases hs <;> grind -ring -linarith [Stage.owns]

theorem dead_step (hl : Locked s) (h : Housed s) (hs : Steps s e s') (id : ℕ)
    (hid : s'.request id = .inside .dead) : s'.conn ≠ none := by
  have hinside := hl.inside
  have hshutdown := hl.shutdown
  have hexchanging := h.exchanging
  have hdead := h.dead
  cases hs <;> grind -ring -linarith

theorem housed_step (hl : Locked s) (h : Housed s) (hs : Steps s e s') : Housed s' :=
  ⟨alive_step hl h hs, exchanging_step hl h hs, vacant_step hl h hs, cleared_step hl h hs,
    dead_step hl h hs⟩

end Housing

/-- The latch and the recorded pid: until the shutdown has taken it, the pid is
that of the helper on the connection, or about to leave or to reach it. -/
structure PidTracked (s : ApproverClient) : Prop where
  latch : s.closed = true ↔ s.shutdown ≠ .idle
  conn : s.shutdown = .idle ∨ s.shutdown = .latched → ∀ h, s.conn = some h → s.helperPid = some h
  stage : s.shutdown = .idle ∨ s.shutdown = .latched → ∀ id h,
    s.request id = .inside (.taken h) ∨ s.request id = .inside (.recorded h) →
      s.helperPid = some h

section Tracking

variable {s s' : ApproverClient} {e : ClientEvent}

theorem latch_step (h : PidTracked s) (hs : Steps s e s') :
    s'.closed = true ↔ s'.shutdown ≠ .idle := by
  have hlatch := h.latch
  cases hs <;> grind -ring -linarith

theorem connPid_step (hl : Locked s) (hh : Housed s) (h : PidTracked s) (hs : Steps s e s')
    (hearly : s'.shutdown = .idle ∨ s'.shutdown = .latched) (helper : ℕ)
    (hconn : s'.conn = some helper) : s'.helperPid = some helper := by
  have hinside := hl.inside
  have hvacant := hh.vacant
  have hbefore := h.conn
  have hstage := h.stage
  cases hs <;> grind -ring -linarith [Stage.owns]

theorem stagePid_step (hl : Locked s) (h : PidTracked s) (hs : Steps s e s')
    (hearly : s'.shutdown = .idle ∨ s'.shutdown = .latched) (id helper : ℕ)
    (hid : s'.request id = .inside (.taken helper) ∨ s'.request id = .inside (.recorded helper)) :
    s'.helperPid = some helper := by
  have hinside := hl.inside
  have hbefore := h.conn
  have hstage := h.stage
  cases hs <;> grind -ring -linarith [Stage.owns]

theorem pidTracked_step (hl : Locked s) (hh : Housed s) (h : PidTracked s) (hs : Steps s e s') :
    PidTracked s' :=
  ⟨latch_step h hs, connPid_step hl hh h hs, stagePid_step hl h hs⟩

end Tracking

/-- A new helper that is not recorded, or an answer that is not read. -/
def Stage.unsettled : Stage → Bool
  | .rechecked => true
  | .spawning _ => true
  | .accepted _ => true
  | .exchanging _ _ (some _) => true
  | _ => false

def Stage.doomed : Stage → Option ℕ
  | .unrecorded helper => some helper
  | _ => none

def RequestPhase.doomed : RequestPhase → Option ℕ
  | .inside stage => stage.doomed
  | _ => none

/-- The helper that a request is about to dispose of. -/
def ApproverClient.doomed (s : ApproverClient) : Option ℕ :=
  match s.lock with
  | some (.request id) => (s.request id).doomed
  | _ => none

/-- The shutdown has set its latch and not sent its signal. -/
def ApproverClient.Signalling (s : ApproverClient) : Prop :=
  s.shutdown = .latched ∨ ∃ pid, s.shutdown = .swapped pid

/-- The steps of the shutdown up to its signal are not overtaken: at the latch no
new helper is unrecorded and no answer unread, and from there to the signal no
exchange with a helper that runs begins or is answered. -/
def Composed (s : ApproverClient) : ClientEvent → Prop
  | .latch => s.shutdown = .idle →
    ∀ id stage, s.request id = .inside stage → stage.unsettled = false
  | .look id => s.Signalling → s.request id = .inside .looking →
    ∀ h, s.conn = some h → s.alive h = false
  | .install id => s.Signalling → ∀ h, s.request id = .inside (.recorded h) → s.alive h = false
  | .answer id _ => s.Signalling → ∀ h retry,
    s.request id = .inside (.exchanging h retry none) → s.alive h = false
  | _ => True

/-- What holds of the shutdown when its steps are not overtaken. -/
structure Quiesced (s : ApproverClient) : Prop where
  closed : s.closed = true → ∀ id stage, s.request id = .inside stage → stage.unsettled = false
  swapped : ∀ pid h, s.shutdown = .swapped pid → s.alive h = true →
    pid = some h ∨ s.doomed = some h
  killed : s.shutdown = .queued ∨ s.shutdown = .holding ∨ s.shutdown = .returned →
    ∀ h, s.alive h = true → s.doomed = some h
  returned : s.shutdown = .returned → s.conn = none ∧
    ∀ id stage, s.request id = .inside stage → stage.owns = none

structure Ordered (s : ApproverClient) : Prop where
  locked : Locked s
  housed : Housed s
  tracked : PidTracked s
  settled : Quiesced s

section Stages

variable {s s' : ApproverClient} {e : ClientEvent} {id h : ℕ} {stage : Stage}

theorem Locked.doomed_eq (hl : Locked s) (hid : s.request id = .inside stage) :
    s.doomed = stage.doomed := by
  simp only [ApproverClient.doomed, hl.inside id stage hid, hid, RequestPhase.doomed]

/-- The request whose hands a helper is in. -/
theorem Locked.exists_held (hl : Locked s) (hheld : s.held = some h) :
    ∃ id stage, s.request id = .inside stage ∧ stage.owns = some h := by
  unfold ApproverClient.held at hheld
  split at hheld
  · rename_i id hlock
    have hinside := hl.holder id hlock
    cases hid : s.request id with
    | inside stage =>
      rw [hid] at hheld
      exact ⟨id, stage, hid, hheld⟩
    | _ => simp [hid, RequestPhase.isInside] at hinside
  · cases hheld

/-- While no new helper is on its way none comes up. -/
theorem alive_of_closed (ho : Ordered s) (hs : Steps s e s') (hclosed : s.closed = true)
    (halive : s'.alive h = true) : s.alive h = true := by
  have hsettled := ho.settled.closed hclosed
  cases hs <;> grind -ring -linarith [Stage.unsettled]

/-- A helper leaves the hands of the request that disposes of it dead. -/
theorem doomed_step (hl : Locked s) (hs : Steps s e s') (hdoomed : s.doomed = some h)
    (halive : s'.alive h = true) : s'.doomed = some h := by
  have hinside := hl.inside
  have hheld : ∀ id stage, s.request id = .inside stage → s.doomed = stage.doomed :=
    fun _ _ => hl.doomed_eq
  have hshutdown := hl.shutdown
  cases hs <;> grind -ring -linarith [ApproverClient.doomed, RequestPhase.doomed, Stage.doomed]

/-- Only the shutdown moves the shutdown. -/
theorem shutdown_moves (hs : Steps s e s') :
    s'.shutdown = s.shutdown ∨ s.shutdown = .idle ∧ s'.shutdown = .latched ∨
      s.shutdown = .latched ∧
        s' = { s with helperPid := none, shutdown := .swapped s.helperPid } ∨
      (∃ pid, s.shutdown = .swapped pid ∧ s' = { s.sigkill pid with shutdown := .queued }) ∨
      (s.shutdown = .queued ∧ s' = { s with lock := some .shutdown, shutdown := .holding } ∧
        s.lock = none) ∨
      s.shutdown = .holding ∧
        s' = { s.sigkill s.conn with conn := none, lock := none, shutdown := .returned } := by
  cases hs with
  | latched h => exact Or.inr (Or.inl ⟨h, rfl⟩)
  | swapped h => exact Or.inr (Or.inr (Or.inl ⟨h, rfl⟩))
  | killed pid h => exact Or.inr (Or.inr (Or.inr (Or.inl ⟨pid, h, rfl⟩)))
  | shutdownAcquired h hlock => exact Or.inr (Or.inr (Or.inr (Or.inr (Or.inl ⟨h, rfl, hlock⟩))))
  | shutdownDisposed h => exact Or.inr (Or.inr (Or.inr (Or.inr (Or.inr ⟨h, rfl⟩))))
  | _ => exact Or.inl rfl

/-- After the signal the one helper that can run is about to be disposed of. -/
theorem late_stage (ho : Ordered s) (hclosed : s.closed = true) (hsignal : ¬ s.Signalling)
    (hid : s.request id = .inside stage) (halive : s.alive h = true) :
    stage = .unrecorded h := by
  have hidle := ho.tracked.latch.mp hclosed
  have hkilled : s.doomed = some h := by
    apply ho.settled.killed ?_ h halive
    cases hphase : s.shutdown with
    | idle => exact absurd hphase hidle
    | latched => exact absurd (Or.inl hphase) hsignal
    | swapped pid => exact absurd (Or.inr ⟨pid, hphase⟩) hsignal
    | queued => exact Or.inl rfl
    | holding => exact Or.inr (Or.inl rfl)
    | returned => exact Or.inr (Or.inr rfl)
  rw [ho.locked.doomed_eq hid] at hkilled
  cases stage <;> simp [Stage.doomed] at hkilled
  rw [hkilled]

theorem closed_step (ho : Ordered s) (hc : Composed s e) (hs : Steps s e s')
    (hclosed : s'.closed = true) (hid : s'.request id = .inside stage) :
    stage.unsettled = false := by
  have hsettled := ho.settled.closed
  have hlate := fun id stage h => @late_stage _ id stage h ho
  cases hs <;> grind -ring -linarith [Stage.unsettled, Composed]

/-- At the swap the helper that runs is the recorded one, or it is about to be
disposed of. -/
theorem recorded_of_alive (ho : Ordered s) (hlatched : s.shutdown = .latched)
    (halive : s.alive h = true) : s.helperPid = some h ∨ s.doomed = some h := by
  have hclosed : s.closed = true := ho.tracked.latch.mpr (by rw [hlatched]; simp)
  rcases ho.housed.alive h halive with hconn | hheld
  · exact Or.inl (ho.tracked.conn (Or.inr hlatched) h hconn)
  · obtain ⟨id, stage, hid, howns⟩ := ho.locked.exists_held hheld
    have hsettled := ho.settled.closed hclosed id stage hid
    have hstage := ho.tracked.stage (Or.inr hlatched) id h
    rw [ho.locked.doomed_eq hid]
    cases stage <;> grind -ring -linarith [Stage.owns, Stage.unsettled, Stage.doomed]

theorem swapped_step (ho : Ordered s) (hs : Steps s e s') {pid : Option ℕ}
    (hswapped : s'.shutdown = .swapped pid) (halive : s'.alive h = true) :
    pid = some h ∨ s'.doomed = some h := by
  rcases shutdown_moves hs with hsame | ⟨-, h'⟩ | ⟨hlatched, rfl⟩ | ⟨_, -, rfl⟩ | ⟨-, rfl, -⟩ | ⟨-, rfl⟩
  · rw [hsame] at hswapped
    have hclosed : s.closed = true := ho.tracked.latch.mpr (by rw [hswapped]; simp)
    have hbefore := alive_of_closed ho hs hclosed halive
    apply (ho.settled.swapped pid h hswapped hbefore).imp_right
    intro hdoomed
    exact doomed_step ho.locked hs hdoomed halive
  · rw [h'] at hswapped
    cases hswapped
  · cases hswapped
    exact recorded_of_alive ho hlatched halive
  · cases hswapped
  · cases hswapped
  · cases hswapped

theorem killed_step (ho : Ordered s) (hs : Steps s e s')
    (hkilled : s'.shutdown = .queued ∨ s'.shutdown = .holding ∨ s'.shutdown = .returned)
    (halive : s'.alive h = true) : s'.doomed = some h := by
  rcases shutdown_moves hs with hsame | ⟨-, h'⟩ | ⟨-, rfl⟩ | ⟨pid, hpid, rfl⟩ | ⟨hqueued, rfl, -⟩ |
    ⟨hholding, rfl⟩
  · rw [hsame] at hkilled
    have hclosed : s.closed = true := by
      apply ho.tracked.latch.mpr
      intro hidle
      simp [hidle] at hkilled
    have hbefore := alive_of_closed ho hs hclosed halive
    exact doomed_step ho.locked hs (ho.settled.killed hkilled h hbefore) halive
  · simp [h'] at hkilled
  · simp at hkilled
  · have hboth : pid ≠ some h ∧ s.alive h = true := by
      by_cases hp : pid = some h <;> simp_all
    rcases ho.settled.swapped pid h hpid hboth.2 with hp | hdoomed
    · exact absurd hp hboth.1
    · exact hdoomed
  · exact doomed_step ho.locked hs (ho.settled.killed (Or.inl hqueued) h halive) halive
  · have hbefore : s.alive h = true := by
      by_cases hp : s.conn = some h <;> simp_all
    exact doomed_step ho.locked hs (ho.settled.killed (Or.inr (Or.inl hholding)) h hbefore) halive

theorem returned_step (ho : Ordered s) (hs : Steps s e s') (hreturned : s'.shutdown = .returned) :
    s'.conn = none ∧ ∀ id stage, s'.request id = .inside stage → stage.owns = none := by
  have hinside := ho.locked.inside
  have hshutdown := ho.locked.shutdown
  have hbefore := ho.settled.returned
  have hlatch := ho.tracked.latch
  have hsettled := ho.settled.closed
  cases hs <;> grind -ring -linarith [Stage.owns, Stage.unsettled]

theorem quiesced_step (ho : Ordered s) (hc : Composed s e) (hs : Steps s e s') : Quiesced s' :=
  ⟨fun hclosed _ _ hid => closed_step ho hc hs hclosed hid,
    fun _ _ hswapped halive => swapped_step ho hs hswapped halive,
    fun hkilled _ halive => killed_step ho hs hkilled halive,
    fun hreturned => returned_step ho hs hreturned⟩

theorem ordered_step (ho : Ordered s) (hc : Composed s e) : Ordered (s.step e) where
  locked := locked_step ho.locked (step_steps s e)
  housed := housed_step ho.locked ho.housed (step_steps s e)
  tracked := pidTracked_step ho.locked ho.housed ho.tracked (step_steps s e)
  settled := quiesced_step ho hc (step_steps s e)

end Stages

theorem ordered_started (helper : ℕ) : Ordered (ApproverClient.started helper) where
  locked := ⟨fun _ _ h => (by cases h), fun _ h => (by cases h), by simp [ApproverClient.started]⟩
  housed := ⟨fun h halive => Or.inl (by simp_all [ApproverClient.started]),
    fun _ _ _ _ h => (by cases h), fun _ _ h => (by cases h),
    fun _ h => (by rcases h with h | h <;> cases h), fun _ h => (by cases h)⟩
  tracked := ⟨by simp [ApproverClient.started], fun _ _ h => h,
    fun _ _ _ h => (by rcases h with h | h <;> cases h)⟩
  settled := ⟨fun h => (by cases h), fun _ _ h => (by cases h),
    fun h => (by rcases h with h | h | h <;> cases h), fun h => (by cases h)⟩

/-- The helper a request exchanges with, and whether for the second time. -/
def RequestPhase.exchange : RequestPhase → Option (ℕ × Bool)
  | .inside (.exchanging helper retry _) => some (helper, retry)
  | _ => none

def RequestPhase.inProgress : RequestPhase → Bool
  | .entered _ => true
  | phase => phase.queued

/-- The steps by which a request runs out of time, wherever it stands. -/
def giveUp (id : ℕ) : List ClientEvent :=
  [.reserve id, .check id, .lockTimeout id, .look id, .fail id .timedOut, .take id, .unrecord id,
    .dispose id, .recheck id, .spawnFail id, .acceptFail id, .record id, .install id,
    .fail id .timedOut, .leave id]

/-- What a step leaves undone: no helper comes up, no exchange with a helper that
runs begins, no request takes an answer. -/
structure Refrains (s s' : ApproverClient) : Prop where
  noSpawn : ∀ h, s'.alive h = true → s.alive h = true
  noExchange : ∀ id h retry, (s'.request id).exchange = some (h, retry) → s'.alive h = true →
    (s.request id).exchange = some (h, retry)
  noAnswer : ∀ id outcome, s'.request id = .leaving (.ok outcome) →
    s.request id = .leaving (.ok outcome)

/-- What holds at every moment: a shutdown that has returned leaves no helper,
one that waits does not wait for an answer, the queue is bounded and drains, and
every request can end by itself. -/
structure Orderly (s : ApproverClient) : Prop where
  noneLeft : s.shutdown = .returned → ∀ h, s.alive h = false
  noWait : s.shutdown = .queued → ∀ id h retry,
    (s.request id).exchange = some (h, retry) → s.alive h = false
  bounded : ∀ requests : Finset ℕ, (∀ id ∈ requests, (s.request id).queued = true) →
    requests.card ≤ maxPendingRequests
  drained : (∀ id, (s.request id).slotted = false) → s.pending = 0
  ends : ∀ id, (s.request id).inProgress = true →
    ∃ err, (run ApproverClient.step s (giveUp id)).request id = .done (.error err)

section Shutdown

variable {s : ApproverClient} {e : ClientEvent}

theorem refrains_of_composed (ho : Ordered s) (hc : Composed s e) (hclosed : s.closed = true) :
    Refrains s (s.step e) := by
  have hs := step_steps s e
  have hsettled := ho.settled.closed hclosed
  have hlate := fun id stage h => @late_stage _ id stage h ho hclosed
  generalize s.step e = s' at hs
  refine ⟨fun h halive => alive_of_closed ho hs hclosed halive, ?_, ?_⟩
  · intro id h retry hexchange halive
    have hbefore := alive_of_closed ho hs hclosed halive
    cases hs <;> grind -ring -linarith [RequestPhase.exchange, Composed]
  · intro id outcome hanswer
    cases hs <;> grind -ring -linarith [Stage.unsettled]

theorem giveUp_ends (hh : Housed s) {id : ℕ} (h : (s.request id).inProgress = true) :
    ∃ err, (run ApproverClient.step s (giveUp id)).request id = .done (.error err) := by
  cases hid : s.request id with
  | entered depth =>
    by_cases hdepth : maxPendingRequests < depth <;> by_cases hclosed : s.closed = true <;>
      simp [giveUp, ApproverClient.step, hid, hdepth, hclosed]
  | admitted =>
    by_cases hclosed : s.closed = true <;> simp [giveUp, ApproverClient.step, hid, hclosed]
  | waiting => simp [giveUp, ApproverClient.step, hid]
  | inside stage =>
    cases stage with
    | looking =>
      cases hconn : s.conn <;> by_cases hclosed : s.closed = true <;>
        simp [giveUp, ApproverClient.step, hid, hconn, hclosed]
    | dead =>
      obtain ⟨helper, hconn⟩ := Option.ne_none_iff_exists'.mp (hh.dead id hid)
      by_cases hclosed : s.closed = true <;>
        simp [giveUp, ApproverClient.step, hid, hconn, hclosed]
    | exchanging helper retry answer => simp [giveUp, ApproverClient.step, hid]
    | _ =>
      by_cases hclosed : s.closed = true <;> simp [giveUp, ApproverClient.step, hid, hclosed]
  | _ => simp [hid, RequestPhase.inProgress, RequestPhase.queued] at h

theorem orderly_of_ordered (ho : Ordered s) (hcount : ∃ order, Counted s order) : Orderly s where
  noneLeft hreturned h := by
    obtain ⟨hconn, howns⟩ := ho.settled.returned hreturned
    by_contra halive
    rcases ho.housed.alive h (by simpa using halive) with hc | hheld
    · rw [hconn] at hc
      cases hc
    · obtain ⟨id, stage, hid, hown⟩ := ho.locked.exists_held hheld
      rw [howns id stage hid] at hown
      cases hown
  noWait hqueued id h retry hexchange := by
    by_contra halive
    have hdoomed := ho.settled.killed (Or.inl hqueued) h (by simpa using halive)
    unfold RequestPhase.exchange at hexchange
    split at hexchange
    · rename_i hid
      rw [ho.locked.doomed_eq hid] at hdoomed
      cases hdoomed
    · cases hexchange
  bounded requests hqueued := by
    obtain ⟨order, hcount⟩ := hcount
    exact hcount.bounded requests hqueued
  drained hnone := by
    obtain ⟨order, hcount⟩ := hcount
    exact hcount.drained hnone
  ends id h := giveUp_ends ho.housed h

end Shutdown

/-- In every run of requests and one shutdown in which the shutdown is not
overtaken: once the latch is set no helper comes up, no exchange with a running
helper begins and no request takes an answer, and every state is orderly. -/
theorem shutdown_composed (helper : ℕ) (es : List ClientEvent)
    (h : Along ApproverClient.step Composed (ApproverClient.started helper) es) :
    Along ApproverClient.step (fun s e => s.closed = true → Refrains s (s.step e))
        (ApproverClient.started helper) es ∧
      Orderly (run ApproverClient.step (ApproverClient.started helper) es) := by
  have hkeep : ∀ s e, Ordered s → Composed s e → Ordered (s.step e) :=
    fun s e ho hc => ordered_step ho hc
  constructor
  · exact along_of_invariant ApproverClient.step hkeep
      (fun s e ho hc hclosed => refrains_of_composed ho hc hclosed) _ es h (ordered_started helper)
  · exact orderly_of_ordered
      (run_invariant ApproverClient.step hkeep _ es h (ordered_started helper))
      (counted_run helper es)

namespace Overtaken

/-- A dialog is up when the shutdown comes. -/
def pending : List ClientEvent :=
  [.begin 0, .reserve 0, .check 0, .acquire 0, .look 0, .latch, .swap, .kill, .sever 0, .take 0,
    .unrecord 0, .dispose 0, .recheck 0, .leave 0, .acquireShutdown, .disposeShutdown]

/-- The helper has died by itself, and the request has looked at the latch a
second time when the shutdown comes. -/
def respawned : List ClientEvent :=
  [.begin 0, .reserve 0, .check 0, .acquire 0, .look 0, .helperExit 1, .sever 0, .take 0,
    .unrecord 0, .dispose 0, .recheck 0, .latch, .swap, .kill, .spawn 0, .accept 0, .record 0,
    .install 0]

theorem pending_composed :
    Along ApproverClient.step Composed (ApproverClient.started 1) pending := by
  refine ⟨trivial, trivial, trivial, trivial, ?_, ?_, trivial, trivial, trivial, trivial, trivial,
    trivial, trivial, trivial, trivial, trivial, trivial⟩
  · rintro (h | ⟨pid, h⟩) <;> cases h
  · intro _ id stage hid
    by_cases h : id = 0
    · subst h
      cases hid
      rfl
    · simp [ApproverClient.step, ApproverClient.started, maxPendingRequests, h] at hid

theorem shutdown_composed_pending :
    Along ApproverClient.step (fun s e => s.closed = true → Refrains s (s.step e))
        (ApproverClient.started 1) pending ∧
      Orderly (run ApproverClient.step (ApproverClient.started 1) pending) :=
  shutdown_composed 1 pending pending_composed

/-- The request spawns a helper the shutdown does not know, and asks again: the
shutdown waits for the person. -/
theorem shutdown_waits_for_answer :
    ¬ ∀ helper es,
      Along ApproverClient.step (fun s e => s.closed = true → Refrains s (s.step e))
          (ApproverClient.started helper) es ∧
        Orderly (run ApproverClient.step (ApproverClient.started helper) es) := by
  intro h
  have hdead := (h 1 respawned).2.noWait (by decide) 0 2 true (by decide)
  revert hdead
  decide

end Overtaken

end Daemon

end CacheWarden
