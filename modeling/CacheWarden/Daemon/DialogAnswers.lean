import CacheWarden.Daemon.Dialogs

/-!
# What an approval that is returned rests on

A call is entitled to an approval that a person gave while the call was in
progress, on a dialog that asked its own question. The answer reaches the leader
before its entry leaves the map, and a call that joins in between takes an
answer that was given before it asked.
-/

set_option autoImplicit false

namespace CacheWarden

namespace Daemon

open Transition

/-- At some point of the history a dialog asking exactly `req` of `who` was
answered with approval, while the call was in progress. -/
def Heard (es : List DialogEvent) (id : ℕ) : Prop :=
  ∃ before later leader reply req lreq,
    es = before ++ .answer leader reply :: later ∧ runDialog reply = .approved ∧
      (after before).call leader = .asking lreq ∧
      ((after before).call id).inProgress = some req ∧ req.question = lreq.question

theorem Heard.concat {es : List DialogEvent} {id : ℕ} (h : Heard es id) (e : DialogEvent) :
    Heard (es ++ [e]) id := by
  obtain ⟨before, later, leader, reply, req, lreq, rfl, hrest⟩ := h
  exact ⟨before, later ++ [e], leader, reply, req, lreq, by simp, hrest⟩

/-- No call joins a dialog that has been answered with approval. -/
def JoinsOpen (slot : ApproverSlot) : DialogEvent → Prop
  | .enter id =>
    match slot.call id with
    | .arrived req =>
      match (CoalesceKey.fromRequest req).bind slot.inflight with
      | some leader =>
        match slot.call leader with
        | .answered _ outcome => outcome ≠ .approved
        | _ => True
      | none => True
    | _ => True
  | _ => True

theorem JoinsOpen.leader {slot : ApproverSlot} {id leader : ℕ} {req lreq : ApproveRequest}
    {ck : CoalesceKey} {outcome : ApprovalOutcome} (h : JoinsOpen slot (.enter id))
    (hcall : slot.call id = .arrived req) (hk : CoalesceKey.fromRequest req = some ck)
    (hentry : slot.inflight ck = some leader)
    (hleader : slot.call leader = .answered lreq outcome) : outcome ≠ .approved := by
  simp only [JoinsOpen, hcall, hk, Option.bind_some, hentry, hleader] at h
  exact h

/-- What a call has learnt and what the leader it follows has learnt, if it is
approval, was said while the call was in progress. -/
structure InTime (es : List DialogEvent) : Prop where
  own : ∀ f, ((after es).call f).outcome = some .approved → Heard es f
  shared : ∀ f req l, (after es).call f = .following req l →
    ((after es).call l).outcome = some .approved → Heard es f

section Hearing

variable {es : List DialogEvent} {e : DialogEvent}

/-- The answer to a dialog is heard by its leader and by all who follow it. -/
theorem heard_answer {leader : ℕ} {reply : HelperReply} {lreq : ApproveRequest} {id : ℕ}
    {req : ApproveRequest} (hask : (after es).call leader = .asking lreq)
    (happroved : runDialog reply = .approved)
    (hid : ((after es).call id).inProgress = some req) (hq : req.question = lreq.question) :
    Heard (es ++ [.answer leader reply]) id :=
  ⟨es, [], leader, reply, req, lreq, rfl, happroved, hask, hid, hq⟩

theorem question_eq {req lreq : ApproveRequest} {ck : CoalesceKey}
    (h : CoalesceKey.fromRequest req = some ck) (h' : CoalesceKey.fromRequest lreq = some ck) :
    req.question = lreq.question := by
  unfold CoalesceKey.fromRequest at h h'
  split at h
  · cases h
  split at h'
  · cases h'
  exact (Option.some.inj h).trans (Option.some.inj h').symm

theorem heard_own {leader : ℕ} {reply : HelperReply} {lreq : ApproveRequest}
    (hask : (after es).call leader = .asking lreq) (happroved : runDialog reply = .approved) :
    Heard (es ++ [.answer leader reply]) leader :=
  heard_answer hask happroved (by rw [hask]; rfl) rfl

theorem heard_follower {f leader : ℕ} {reply : HelperReply} {req lreq : ApproveRequest}
    (hask : (after es).call leader = .asking lreq) (happroved : runDialog reply = .approved)
    (hf : (after es).call f = .following req leader) :
    Heard (es ++ [.answer leader reply]) f := by
  obtain ⟨raised, ck, hraised, hk, hk'⟩ := (linked_after es).joined f req leader hf
  rw [hask] at hraised
  cases hraised
  exact heard_answer hask happroved (by rw [hf]; rfl) (question_eq hk hk')

theorem Linked.sent_outcome {slot : ApproverSlot} (h : Linked slot) {f l : ℕ}
    {req : ApproveRequest} {outcome : ApprovalOutcome} (hf : slot.call f = .following req l)
    (hsent : slot.channel l = .sent outcome) : (slot.call l).outcome = some outcome := by
  obtain ⟨lreq, ck, hraised, -, hk⟩ := h.joined f req l hf
  rw [h.sent l lreq ck outcome hraised hk hsent]
  rfl

theorem own_moves (hinv : InTime es) (hm : Moves (after es) e (after (es ++ [e]))) (f : ℕ)
    (hf : ((after (es ++ [e])).call f).outcome = some .approved) : Heard (es ++ [e]) f := by
  have hkept := fun a (h : Heard es a) => h.concat e
  have hsent : ∀ f l req outcome, (after es).call f = .following req l →
      (after es).channel l = .sent outcome → ((after es).call l).outcome = some outcome :=
    fun _ _ _ _ => (linked_after es).sent_outcome
  have hanswer : ∀ l reply lreq, (after es).call l = .asking lreq → runDialog reply = .approved →
      Heard (es ++ [.answer l reply]) l := fun _ _ _ => heard_own
  generalize hs : after (es ++ [e]) = slot' at hm hf
  cases hm <;> grind -ring -linarith [Call.outcome, InTime, endedWithoutAnswer]

theorem shared_moves (hinv : InTime es) (hopen : JoinsOpen (after es) e)
    (hm : Moves (after es) e (after (es ++ [e]))) (f : ℕ) (req : ApproveRequest) (l : ℕ)
    (hf : (after (es ++ [e])).call f = .following req l)
    (hl : ((after (es ++ [e])).call l).outcome = some .approved) : Heard (es ++ [e]) f := by
  have hkept := fun a (h : Heard es a) => h.concat e
  have hjoined := (linked_after es).joined
  have hlive := (linked_after es).live
  have hanswer : ∀ f l reply req lreq, (after es).call l = .asking lreq →
      runDialog reply = .approved → (after es).call f = .following req l →
        Heard (es ++ [.answer l reply]) f := fun _ _ _ _ _ => heard_follower
  generalize hs : after (es ++ [e]) = slot' at hm hf hl
  cases hm <;> grind -ring -linarith [Call.outcome, Call.raised, InTime, JoinsOpen.leader]

theorem inTime_after (es : List DialogEvent)
    (h : Along ApproverSlot.step JoinsOpen ApproverSlot.new es) : InTime es := by
  induction es using List.reverseRecOn with
  | nil => exact ⟨fun f hf => (by cases hf), fun f req l hf => (by cases hf)⟩
  | append_singleton es e ih =>
    obtain ⟨hes, he, -⟩ := (along_append _ _ _ _ _).mp h
    have hm : Moves (after es) e (after (es ++ [e])) := by
      rw [after_concat]
      exact step_moves _ e
    exact ⟨own_moves (ih hes) hm, shared_moves (ih hes) he hm⟩

end Hearing

/-- The leader was dropped, or its dialog did not end in approval. -/
def Call.Failed : Call → Prop
  | .cancelled _ => True
  | .gone _ => True
  | .answered _ outcome => outcome ≠ .approved
  | .retired _ outcome => outcome ≠ .approved
  | .returned _ outcome _ => outcome ≠ .approved
  | _ => False

theorem failed_moves {slot slot' : ApproverSlot} {e : DialogEvent} (hm : Moves slot e slot') {l : ℕ}
    (h : (slot.call l).Failed) : (slot'.call l).Failed := by
  cases hm <;> grind -ring -linarith [Call.Failed]

theorem failed_after {es : List DialogEvent} {l : ℕ} (h : ((after es).call l).Failed)
    (later : List DialogEvent) : ((after (es ++ later)).call l).Failed := by
  rw [after_append]
  exact run_invariant (P := fun _ _ => True) ApproverSlot.step
    (fun slot e h _ => failed_moves (step_moves slot e) h) _ later
    (along_of_forall _ (fun _ _ => trivial) _ later) h

section Ends

variable {slot : ApproverSlot} {f l : ℕ} {req : ApproveRequest}

theorem Linked.leader_ne (h : Linked slot) (hf : slot.call f = .following req l) : f ≠ l := by
  rintro rfl
  obtain ⟨lreq, ck, hraised, -⟩ := h.joined f req f hf
  rw [hf] at hraised
  cases hraised

theorem receive_gone (h : Linked slot) (hf : slot.call f = .following req l)
    {lreq : ApproveRequest} (hl : slot.call l = .gone lreq) :
    (slot.step (.receive f)).call f = .returned req endedWithoutAnswer l := by
  obtain ⟨raised, ck, hraised, -, hk⟩ := h.joined f req l hf
  rw [hl] at hraised
  cases hraised
  have hclosed : slot.channel l = .closed := by
    apply h.channel
    rw [hl, Call.announces, hk]
    rfl
  simp [ApproverSlot.step, hf, ApproverSlot.receive, hclosed]

theorem receive_returned (h : Linked slot) (hf : slot.call f = .following req l)
    {lreq : ApproveRequest} {outcome : ApprovalOutcome}
    (hl : slot.call l = .returned lreq outcome l) :
    (slot.step (.receive f)).call f = .returned req outcome l := by
  obtain ⟨raised, ck, hraised, -, hk⟩ := h.joined f req l hf
  rw [hl, Call.raised, if_pos rfl] at hraised
  cases hraised
  have hsent : slot.channel l = .sent outcome := by
    apply h.channel
    rw [hl, Call.announces, if_pos rfl, hk]
    rfl
  simp [ApproverSlot.step, hf, ApproverSlot.receive, hsent]

/-- The steps a leader that failed has left to take. -/
def windUp (l : ℕ) : List DialogEvent := [.close l, .retire l, .publish l]

theorem windUp_leader (h : Linked slot) (hf : slot.call f = .following req l)
    (hfailed : (slot.call l).Failed) :
    (run ApproverSlot.step slot (windUp l)).call f = .following req l ∧
      ((∃ lreq, (run ApproverSlot.step slot (windUp l)).call l = .gone lreq) ∨
        ∃ lreq outcome, outcome ≠ .approved ∧
          (run ApproverSlot.step slot (windUp l)).call l = .returned lreq outcome l) := by
  obtain ⟨lreq, ck, hraised, -⟩ := h.joined f req l hf
  have hne := h.leader_ne hf
  cases hl : slot.call l with
  | cancelled lreq => simp [windUp, ApproverSlot.step, hl, hf, hne]
  | gone lreq => simp [windUp, ApproverSlot.step, hl, hf]
  | answered lreq outcome =>
    rw [hl] at hfailed
    simp [windUp, ApproverSlot.step, hl, hf, hne]
    exact hfailed
  | retired lreq outcome =>
    rw [hl] at hfailed
    simp [windUp, ApproverSlot.step, hl, hf, hne]
    exact hfailed
  | returned lreq outcome leader =>
    rw [hl] at hfailed hraised
    simp only [Call.raised] at hraised
    split at hraised
    · rename_i hself
      subst hself
      simp [windUp, ApproverSlot.step, hl, hf]
      exact hfailed
    · cases hraised
  | _ => simp [hl, Call.Failed] at hfailed

end Ends

/-- What the calls of a history are promised. -/
structure Promised (es : List DialogEvent) : Prop where
  approved : ∀ id req l, (after es).call id = .returned req .approved l → Heard es id
  oneLeader : ∀ i j ck, ((after es).call i).leads = some ck → ((after es).call j).leads = some ck →
    i = j
  neverShared : ∀ f req l, ((after es).call f = .following req l ∨
      (after es).call f = .returned req .approved l ∧ f ≠ l) →
    ∃ lreq, ((after es).call l).raised l = some lreq ∧ (CoalesceKey.fromRequest req).isSome ∧
      (CoalesceKey.fromRequest lreq).isSome
  noEntry : ∀ l ck, ((after es).call l).leads = none → (after es).inflight ck ≠ some l
  noneApproved : ∀ later f req l, ((after es).call l).Failed →
    (after (es ++ later)).call f ≠ .returned req .approved l
  ends : ∀ f req l, (after es).call f = .following req l → ((after es).call l).Failed →
    ∃ outcome, outcome ≠ .approved ∧
      (after (es ++ windUp l ++ [.receive f])).call f = .returned req outcome l
  deadline : ∀ f req l, (after es).call f = .following req l →
    (after (es ++ [.timeout f])).call f = .returned req .timeout l

/-- In every run in which no call joins a dialog already answered with
approval, every call that returns approval heard it while in progress; the map,
the identities and the followers of failed leaders are in order in every run. -/
theorem coalesced_answers (es : List DialogEvent)
    (h : Along ApproverSlot.step JoinsOpen ApproverSlot.new es) : Promised es where
  approved id req l hid := (inTime_after es h).own id (by rw [hid]; rfl)
  oneLeader i j ck hi hj := by
    have hentry := (linked_after es).entry ck
    rw [← hentry] at hi hj
    exact Option.some.inj (hi.symm.trans hj)
  neverShared f req l hf := by
    rcases hf with hf | ⟨hf, hne⟩
    · obtain ⟨lreq, ck, hraised, hk, hk'⟩ := (linked_after es).joined f req l hf
      exact ⟨lreq, hraised, Option.isSome_of_eq_some hk, Option.isSome_of_eq_some hk'⟩
    · rcases (linked_after es).returned f req l hf with rfl | ⟨lreq, ck, hl, hk, hk'⟩
      · exact absurd rfl hne
      · refine ⟨lreq, ?_, Option.isSome_of_eq_some hk, Option.isSome_of_eq_some hk'⟩
        rw [hl, Call.raised, if_pos rfl]
  noEntry l ck hnone hentry := by
    rw [(linked_after es).entry, hnone] at hentry
    cases hentry
  noneApproved later f req l hfailed hf := by
    have hl := failed_after hfailed later
    rcases (linked_after _).returned f req l hf with rfl | ⟨lreq, ck, heq, -⟩
    · rw [hf] at hl
      exact hl rfl
    · rw [heq] at hl
      exact hl rfl
  ends f req l hf hfailed := by
    obtain ⟨hf', hl⟩ := windUp_leader (linked_after es) hf hfailed
    rw [← after_append] at hf' hl
    rw [after_concat]
    rcases hl with ⟨lreq, hl⟩ | ⟨lreq, outcome, hne, hl⟩
    · exact ⟨_, by simp [endedWithoutAnswer], receive_gone (linked_after _) hf' hl⟩
    · exact ⟨outcome, hne, receive_returned (linked_after _) hf' hl⟩
  deadline f req l hf := by
    rw [after_concat]
    simp [ApproverSlot.step, hf]

namespace LateJoin

def token : WireAuditToken := ⟨501, 501, 20, 4242, 7⟩

def request : ApproveRequest := ⟨"ns/k", "get", token, none⟩

/-- Two requests for one question, the second made while the dialog is up. -/
def joined : List DialogEvent :=
  [.arrive 0 request, .enter 0, .arrive 1 request, .enter 1, .answer 0 (some (.ok .approved)),
    .retire 0, .publish 0, .receive 1]

/-- The second is made after the answer, before the entry is off the map. -/
def late : List DialogEvent :=
  [.arrive 0 request, .enter 0, .answer 0 (some (.ok .approved)), .arrive 1 request, .enter 1,
    .retire 0, .publish 0, .receive 1]

theorem joined_open : Along ApproverSlot.step JoinsOpen ApproverSlot.new joined :=
  ⟨trivial, trivial, trivial, trivial, trivial, trivial, trivial, trivial, trivial⟩

theorem coalesced_answers_joined : Promised joined := coalesced_answers joined joined_open

/-- A request made after the answer takes it. -/
theorem late_join_approved : ¬ ∀ es, Promised es := by
  intro h
  obtain ⟨before, later, leader, reply, req, lreq, hes, -, -, hid, -⟩ :=
    (h late).approved 1 request 0 (by decide)
  simp only [late, List.cons_eq_append_iff, List.nil_eq_append_iff, List.cons.injEq, reduceCtorEq,
    false_and, and_false, exists_false, or_false, false_or, DialogEvent.answer.injEq] at hes
  obtain ⟨_, rfl, _, rfl, rfl, -⟩ := hes
  cases hid

end LateJoin

end Daemon

end CacheWarden
