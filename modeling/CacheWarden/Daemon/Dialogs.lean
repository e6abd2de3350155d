import CacheWarden.Daemon.Guard
import CacheWarden.Lib.Transition
import Mathlib.Logic.Function.Basic

/-!
# One dialog for one question

An approval request that asks what a dialog already on screen asks joins it: the
call that raised the dialog leads, the others follow. The in-flight map says who
leads which question. A leader with an answer first takes its entry off the map
and then publishes the answer; a leader that is dropped takes its entry off and
then closes its channel. Each of these is a step of its own.
-/

set_option autoImplicit false

namespace CacheWarden

namespace Daemon

open Transition

structure WireAuditToken where
  euid : UInt32
  ruid : UInt32
  egid : UInt32
  pid : UInt32
  pidVersion : UInt32
  deriving DecidableEq

/-- What the dialog asks, and of whom. -/
structure ApproveRequest where
  key : String
  operation : String
  auditToken : WireAuditToken
  guardEval : Option GuardEvalOutput
  deriving DecidableEq

inductive WireOutcome where
  | approved
  | denied
  | cancelled
  | timeout
  | peerGone
  | biometricFailed
  deriving DecidableEq

inductive ApprovalOutcome where
  | approved
  | denied
  | cancelled
  | timeout
  | peerGone
  | biometricFailed
  | helperUnavailable
  | ipc (err : String)
  deriving DecidableEq

structure CoalesceKey where
  key : String
  operation : String
  pid : UInt32
  pidVersion : UInt32
  euid : UInt32
  deriving DecidableEq

def ApproveRequest.question (req : ApproveRequest) : CoalesceKey :=
  ⟨req.key, req.operation, req.auditToken.pid, req.auditToken.pidVersion, req.auditToken.euid⟩

def CoalesceKey.fromRequest (req : ApproveRequest) : Option CoalesceKey :=
  if req.auditToken.pid = 0 then none else some req.question

/-- What comes of the helper: nothing where it is not ready in time, the error
of the exchange, or the answer of the person at the dialog. -/
abbrev HelperReply := Option (Except String WireOutcome)

def runDialog : HelperReply → ApprovalOutcome
  | none => .helperUnavailable
  | some (.error e) => .ipc e
  | some (.ok .approved) => .approved
  | some (.ok .denied) => .denied
  | some (.ok .cancelled) => .cancelled
  | some (.ok .timeout) => .timeout
  | some (.ok .peerGone) => .peerGone
  | some (.ok .biometricFailed) => .biometricFailed

def endedWithoutAnswer : ApprovalOutcome :=
  .ipc "the approval this request joined ended without an answer"

/-- A broadcast channel that carries one message. -/
inductive Channel where
  | silent
  | sent (outcome : ApprovalOutcome)
  | closed
  deriving DecidableEq

/-- Where a call of `await_dialog_outcome` stands. A call that has returned
keeps the number of the call whose dialog it waited for. -/
inductive Call where
  | absent
  | arrived (req : ApproveRequest)
  | following (req : ApproveRequest) (leader : ℕ)
  | asking (req : ApproveRequest)
  | answered (req : ApproveRequest) (outcome : ApprovalOutcome)
  | retired (req : ApproveRequest) (outcome : ApprovalOutcome)
  | cancelled (req : ApproveRequest)
  | gone (req : ApproveRequest)
  | returned (req : ApproveRequest) (outcome : ApprovalOutcome) (leader : ℕ)
  | left (req : ApproveRequest)
  deriving DecidableEq

structure ApproverSlot where
  inflight : CoalesceKey → Option ℕ
  channel : ℕ → Channel
  call : ℕ → Call

/-- One step of one call. `cancel` drops its future, which can happen only where
it waits; `close` is the end of a leader that was dropped. -/
inductive DialogEvent where
  | arrive (id : ℕ) (req : ApproveRequest)
  | enter (id : ℕ)
  | answer (id : ℕ) (reply : HelperReply)
  | retire (id : ℕ)
  | publish (id : ℕ)
  | receive (id : ℕ)
  | timeout (id : ℕ)
  | cancel (id : ℕ)
  | close (id : ℕ)
  deriving DecidableEq

namespace ApproverSlot

def new : ApproverSlot := ⟨fun _ => none, fun _ => .silent, fun _ => .absent⟩

def setCall (self : ApproverSlot) (id : ℕ) (call : Call) : ApproverSlot :=
  { self with call := Function.update self.call id call }

/-- `InflightGuard::drop`. -/
def dropEntry (self : ApproverSlot) (req : ApproveRequest) : ApproverSlot :=
  match CoalesceKey.fromRequest req with
  | some ck => { self with inflight := Function.update self.inflight ck none }
  | none => self

/-- The sender of a leader with an identity; the others have none. -/
def signal (self : ApproverSlot) (id : ℕ) (req : ApproveRequest) (channel : Channel) :
    ApproverSlot :=
  match CoalesceKey.fromRequest req with
  | some _ => { self with channel := Function.update self.channel id channel }
  | none => self

/-- Lead or follow, under the lock of the map. -/
def enter (self : ApproverSlot) (id : ℕ) (req : ApproveRequest) : ApproverSlot :=
  match CoalesceKey.fromRequest req with
  | none => self.setCall id (.asking req)
  | some ck =>
    match self.inflight ck with
    | some leader => self.setCall id (.following req leader)
    | none =>
      { self.setCall id (.asking req) with
        inflight := Function.update self.inflight ck (some id) }

def receive (self : ApproverSlot) (id : ℕ) (req : ApproveRequest) (leader : ℕ) : ApproverSlot :=
  match self.channel leader with
  | .silent => self
  | .sent outcome => self.setCall id (.returned req outcome leader)
  | .closed => self.setCall id (.returned req endedWithoutAnswer leader)

/-- A step that the call is not at does nothing. -/
def step (self : ApproverSlot) : DialogEvent → ApproverSlot
  | .arrive id req =>
    match self.call id with
    | .absent => self.setCall id (.arrived req)
    | _ => self
  | .enter id =>
    match self.call id with
    | .arrived req => self.enter id req
    | _ => self
  | .answer id reply =>
    match self.call id with
    | .asking req => self.setCall id (.answered req (runDialog reply))
    | _ => self
  | .retire id =>
    match self.call id with
    | .answered req outcome => (self.dropEntry req).setCall id (.retired req outcome)
    | _ => self
  | .publish id =>
    match self.call id with
    | .retired req outcome =>
      (self.signal id req (.sent outcome)).setCall id (.returned req outcome id)
    | _ => self
  | .receive id =>
    match self.call id with
    | .following req leader => self.receive id req leader
    | _ => self
  | .timeout id =>
    match self.call id with
    | .following req leader => self.setCall id (.returned req .timeout leader)
    | _ => self
  | .cancel id =>
    match self.call id with
    | .arrived req => self.setCall id (.left req)
    | .following req _ => self.setCall id (.left req)
    | .asking req => (self.dropEntry req).setCall id (.cancelled req)
    | _ => self
  | .close id =>
    match self.call id with
    | .cancelled req => (self.signal id req .closed).setCall id (.gone req)
    | _ => self

end ApproverSlot

section Frames

variable (slot : ApproverSlot) (id : ℕ) (req : ApproveRequest)

@[simp, grind =] theorem setCall_call (call : Call) (a : ℕ) :
    (slot.setCall id call).call a = if a = id then call else slot.call a := by
  simp [ApproverSlot.setCall, Function.update_apply]

@[simp, grind =] theorem setCall_inflight (call : Call) (ck : CoalesceKey) :
    (slot.setCall id call).inflight ck = slot.inflight ck := rfl

@[simp, grind =] theorem setCall_channel (call : Call) (a : ℕ) :
    (slot.setCall id call).channel a = slot.channel a := rfl

@[simp, grind =] theorem dropEntry_call (a : ℕ) :
    (slot.dropEntry req).call a = slot.call a := by
  unfold ApproverSlot.dropEntry
  split <;> rfl

@[simp, grind =] theorem dropEntry_channel (a : ℕ) :
    (slot.dropEntry req).channel a = slot.channel a := by
  unfold ApproverSlot.dropEntry
  split <;> rfl

@[simp, grind =] theorem dropEntry_inflight (ck : CoalesceKey) :
    (slot.dropEntry req).inflight ck =
      if CoalesceKey.fromRequest req = some ck then none else slot.inflight ck := by
  unfold ApproverSlot.dropEntry
  split
  · rename_i own hown
    simp [hown, Function.update_apply, eq_comm]
  · rename_i hown
    simp [hown]

@[simp, grind =] theorem signal_call (channel : Channel) (a : ℕ) :
    (slot.signal id req channel).call a = slot.call a := by
  unfold ApproverSlot.signal
  split <;> rfl

@[simp, grind =] theorem signal_inflight (channel : Channel) (ck : CoalesceKey) :
    (slot.signal id req channel).inflight ck = slot.inflight ck := by
  unfold ApproverSlot.signal
  split <;> rfl

@[simp, grind =] theorem signal_channel (channel : Channel) (a : ℕ) :
    (slot.signal id req channel).channel a =
      if a = id ∧ (CoalesceKey.fromRequest req).isSome then channel else slot.channel a := by
  unfold ApproverSlot.signal
  split
  · rename_i hown
    simp [hown, Function.update_apply]
  · rename_i hown
    simp [hown]

end Frames

/-- What one step does: nothing, or the one thing its call is at. -/
inductive Moves (slot : ApproverSlot) : DialogEvent → ApproverSlot → Prop
  | idle (e : DialogEvent) : Moves slot e slot
  | arrived (id : ℕ) (req : ApproveRequest) (h : slot.call id = .absent) :
      Moves slot (.arrive id req) (slot.setCall id (.arrived req))
  | alone (id : ℕ) (req : ApproveRequest) (h : slot.call id = .arrived req)
      (hk : CoalesceKey.fromRequest req = none) :
      Moves slot (.enter id) (slot.setCall id (.asking req))
  | led (id : ℕ) (req : ApproveRequest) (ck : CoalesceKey) (h : slot.call id = .arrived req)
      (hk : CoalesceKey.fromRequest req = some ck) (hfree : slot.inflight ck = none) :
      Moves slot (.enter id)
        { slot.setCall id (.asking req) with
          inflight := Function.update slot.inflight ck (some id) }
  | joined (id : ℕ) (req : ApproveRequest) (ck : CoalesceKey) (leader : ℕ)
      (h : slot.call id = .arrived req) (hk : CoalesceKey.fromRequest req = some ck)
      (hentry : slot.inflight ck = some leader) :
      Moves slot (.enter id) (slot.setCall id (.following req leader))
  | answered (id : ℕ) (req : ApproveRequest) (reply : HelperReply)
      (h : slot.call id = .asking req) :
      Moves slot (.answer id reply) (slot.setCall id (.answered req (runDialog reply)))
  | retired (id : ℕ) (req : ApproveRequest) (outcome : ApprovalOutcome)
      (h : slot.call id = .answered req outcome) :
      Moves slot (.retire id) ((slot.dropEntry req).setCall id (.retired req outcome))
  | published (id : ℕ) (req : ApproveRequest) (outcome : ApprovalOutcome)
      (h : slot.call id = .retired req outcome) :
      Moves slot (.publish id)
        ((slot.signal id req (.sent outcome)).setCall id (.returned req outcome id))
  | received (id : ℕ) (req : ApproveRequest) (leader : ℕ) (outcome : ApprovalOutcome)
      (h : slot.call id = .following req leader) (hsent : slot.channel leader = .sent outcome) :
      Moves slot (.receive id) (slot.setCall id (.returned req outcome leader))
  | bereft (id : ℕ) (req : ApproveRequest) (leader : ℕ) (h : slot.call id = .following req leader)
      (hclosed : slot.channel leader = .closed) :
      Moves slot (.receive id) (slot.setCall id (.returned req endedWithoutAnswer leader))
  | timedOut (id : ℕ) (req : ApproveRequest) (leader : ℕ)
      (h : slot.call id = .following req leader) :
      Moves slot (.timeout id) (slot.setCall id (.returned req .timeout leader))
  | left (id : ℕ) (req : ApproveRequest)
      (h : slot.call id = .arrived req ∨ ∃ leader, slot.call id = .following req leader) :
      Moves slot (.cancel id) (slot.setCall id (.left req))
  | cancelled (id : ℕ) (req : ApproveRequest) (h : slot.call id = .asking req) :
      Moves slot (.cancel id) ((slot.dropEntry req).setCall id (.cancelled req))
  | closed (id : ℕ) (req : ApproveRequest) (h : slot.call id = .cancelled req) :
      Moves slot (.close id) ((slot.signal id req .closed).setCall id (.gone req))

theorem step_moves (slot : ApproverSlot) (e : DialogEvent) : Moves slot e (slot.step e) := by
  cases e with
  | arrive id req =>
    simp only [ApproverSlot.step]
    split
    · exact .arrived id req ‹_›
    · exact .idle _
  | enter id =>
    simp only [ApproverSlot.step]
    split
    · rename_i req h
      unfold ApproverSlot.enter
      split
      · exact .alone id req h ‹_›
      · split
        · exact .joined id req _ _ h ‹_› ‹_›
        · exact .led id req _ h ‹_› ‹_›
    · exact .idle _
  | answer id reply =>
    simp only [ApproverSlot.step]
    split
    · exact .answered id _ reply ‹_›
    · exact .idle _
  | retire id =>
    simp only [ApproverSlot.step]
    split
    · exact .retired id _ _ ‹_›
    · exact .idle _
  | publish id =>
    simp only [ApproverSlot.step]
    split
    · exact .published id _ _ ‹_›
    · exact .idle _
  | receive id =>
    simp only [ApproverSlot.step]
    split
    · unfold ApproverSlot.receive
      split
      · exact .idle _
      · exact .received id _ _ _ ‹_› ‹_›
      · exact .bereft id _ _ ‹_› ‹_›
    · exact .idle _
  | timeout id =>
    simp only [ApproverSlot.step]
    split
    · exact .timedOut id _ _ ‹_›
    · exact .idle _
  | cancel id =>
    simp only [ApproverSlot.step]
    split
    · exact .left id _ (Or.inl ‹_›)
    · exact .left id _ (Or.inr ⟨_, ‹_›⟩)
    · exact .cancelled id _ ‹_›
    · exact .idle _
  | close id =>
    simp only [ApproverSlot.step]
    split
    · exact .closed id _ ‹_›
    · exact .idle _

namespace Call

/-- The question of a leader whose dialog is not over. -/
def leads : Call → Option CoalesceKey
  | .asking req => CoalesceKey.fromRequest req
  | .answered req _ => CoalesceKey.fromRequest req
  | _ => none

/-- The request of a call that raised a dialog of its own. -/
def raised (id : ℕ) : Call → Option ApproveRequest
  | .asking req => some req
  | .answered req _ => some req
  | .retired req _ => some req
  | .cancelled req => some req
  | .gone req => some req
  | .returned req _ leader => if leader = id then some req else none
  | _ => none

/-- What the channel of a call carries, where it has one. -/
def announces (id : ℕ) : Call → Option Channel
  | .absent => some .silent
  | .arrived _ => some .silent
  | .asking _ => some .silent
  | .answered _ _ => some .silent
  | .retired _ _ => some .silent
  | .cancelled _ => some .silent
  | .gone req => (CoalesceKey.fromRequest req).map fun _ => .closed
  | .returned req outcome leader =>
    if leader = id then (CoalesceKey.fromRequest req).map fun _ => .sent outcome else none
  | _ => none

/-- What a leader or a call that has returned learnt. -/
def outcome : Call → Option ApprovalOutcome
  | .answered _ outcome => some outcome
  | .retired _ outcome => some outcome
  | .returned _ outcome _ => some outcome
  | _ => none

/-- The request of a call that has begun and has not ended. -/
def inProgress : Call → Option ApproveRequest
  | .arrived req => some req
  | .following req _ => some req
  | .asking req => some req
  | .answered req _ => some req
  | .retired req _ => some req
  | _ => none

end Call

/-- What holds after every step: the map lists the live leaders, each channel
carries what its leader has said, a follower follows a leader of its own
question, and an approval that was returned its leader has returned. -/
structure Linked (slot : ApproverSlot) : Prop where
  entry : ∀ ck l, slot.inflight ck = some l ↔ (slot.call l).leads = some ck
  channel : ∀ l ch, (slot.call l).announces l = some ch → slot.channel l = ch
  joined : ∀ f req l, slot.call f = .following req l →
    ∃ lreq ck, (slot.call l).raised l = some lreq ∧ CoalesceKey.fromRequest req = some ck ∧
      CoalesceKey.fromRequest lreq = some ck
  returned : ∀ f req l, slot.call f = .returned req .approved l →
    f = l ∨ ∃ lreq ck, slot.call l = .returned lreq .approved l ∧
      CoalesceKey.fromRequest req = some ck ∧ CoalesceKey.fromRequest lreq = some ck

section Step

variable {slot slot' : ApproverSlot} {e : DialogEvent}

theorem Linked.asking_entry (h : Linked slot) (id : ℕ) (req : ApproveRequest) (ck : CoalesceKey)
    (hcall : slot.call id = .asking req) (hk : CoalesceKey.fromRequest req = some ck) :
    slot.inflight ck = some id := by
  rw [h.entry, hcall]
  exact hk

theorem Linked.answered_entry (h : Linked slot) (id : ℕ) (req : ApproveRequest)
    (outcome : ApprovalOutcome) (ck : CoalesceKey) (hcall : slot.call id = .answered req outcome)
    (hk : CoalesceKey.fromRequest req = some ck) : slot.inflight ck = some id := by
  rw [h.entry, hcall]
  exact hk

/-- The entry of a question names a call whose dialog is up. -/
theorem Linked.live (h : Linked slot) (ck : CoalesceKey) (l : ℕ)
    (hentry : slot.inflight ck = some l) :
    ∃ lreq, CoalesceKey.fromRequest lreq = some ck ∧
      (slot.call l = .asking lreq ∨ ∃ outcome, slot.call l = .answered lreq outcome) := by
  rw [h.entry] at hentry
  unfold Call.leads at hentry
  split at hentry
  · exact ⟨_, hentry, Or.inl ‹_›⟩
  · exact ⟨_, hentry, Or.inr ⟨_, ‹_›⟩⟩
  · cases hentry

/-- The message on the channel of a leader is what the leader returned. -/
theorem Linked.sent (h : Linked slot) (l : ℕ) (lreq : ApproveRequest) (ck : CoalesceKey)
    (outcome : ApprovalOutcome) (hraised : (slot.call l).raised l = some lreq)
    (hk : CoalesceKey.fromRequest lreq = some ck) (hsent : slot.channel l = .sent outcome) :
    slot.call l = .returned lreq outcome l := by
  have hchannel := h.channel l
  rw [hsent] at hchannel
  cases hcall : slot.call l with
  | returned req o leader =>
    rw [hcall] at hraised hchannel
    simp only [Call.raised, Call.announces] at hraised hchannel
    split at hraised
    · rename_i hself
      cases hraised
      cases hself
      simp only [if_true, hk, Option.map_some, Option.some.injEq] at hchannel
      cases hchannel _ rfl
      rfl
    · cases hraised
  | gone req =>
    rw [hcall] at hraised hchannel
    cases hraised
    simp [Call.announces, hk] at hchannel
  | _ => simp [hcall, Call.raised, Call.announces] at hraised hchannel

theorem entry_moves (h : Linked slot) (hm : Moves slot e slot') (ck : CoalesceKey) (l : ℕ) :
    slot'.inflight ck = some l ↔ (slot'.call l).leads = some ck := by
  have hentry := h.entry
  have hasking := h.asking_entry
  have hanswered := h.answered_entry
  cases hm <;> grind -ring -linarith [Call.leads, Function.update_apply]

theorem channel_moves (h : Linked slot) (hm : Moves slot e slot') (l : ℕ) (ch : Channel)
    (ha : (slot'.call l).announces l = some ch) : slot'.channel l = ch := by
  have hchannel := h.channel
  have hjoined := h.joined
  cases hm <;>
    grind -ring -linarith [Call.announces, Call.raised, Option.map_eq_some_iff,
      Option.isSome_iff_exists]

theorem joined_moves (h : Linked slot) (hm : Moves slot e slot') (f : ℕ) (req : ApproveRequest)
    (l : ℕ) (hf : slot'.call f = .following req l) :
    ∃ lreq ck, (slot'.call l).raised l = some lreq ∧ CoalesceKey.fromRequest req = some ck ∧
      CoalesceKey.fromRequest lreq = some ck := by
  have hlive := h.live
  have hjoined := h.joined
  cases hm <;> grind -ring -linarith [Call.raised]

theorem returned_moves (h : Linked slot) (hm : Moves slot e slot') (f : ℕ) (req : ApproveRequest)
    (l : ℕ) (hf : slot'.call f = .returned req .approved l) :
    f = l ∨ ∃ lreq ck, slot'.call l = .returned lreq .approved l ∧
      CoalesceKey.fromRequest req = some ck ∧ CoalesceKey.fromRequest lreq = some ck := by
  have hsent := h.sent
  have hjoined := h.joined
  have hreturned := h.returned
  cases hm <;> grind -ring -linarith [endedWithoutAnswer]

theorem Linked.moves (h : Linked slot) (hm : Moves slot e slot') : Linked slot' :=
  ⟨entry_moves h hm, channel_moves h hm, joined_moves h hm, returned_moves h hm⟩

end Step

theorem linked_new : Linked ApproverSlot.new where
  entry ck l := by simp [ApproverSlot.new, Call.leads]
  channel l ch h := by
    cases h
    rfl
  joined f req l h := by cases h
  returned f req l h := by cases h

/-- The slot after a history of events. -/
def after (es : List DialogEvent) : ApproverSlot := run ApproverSlot.step ApproverSlot.new es

theorem after_append (es later : List DialogEvent) :
    after (es ++ later) = run ApproverSlot.step (after es) later := run_append _ _ _ _

theorem after_concat (es : List DialogEvent) (e : DialogEvent) :
    after (es ++ [e]) = (after es).step e := after_append es [e]

theorem linked_after (es : List DialogEvent) : Linked (after es) :=
  run_invariant (P := fun _ _ => True) ApproverSlot.step
    (fun slot e h _ => h.moves (step_moves slot e)) _ es
    (along_of_forall _ (fun _ _ => trivial) _ es) linked_new

end Daemon

end CacheWarden
