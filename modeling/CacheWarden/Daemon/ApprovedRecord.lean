import CacheWarden.Daemon.DialogAnswers
import CacheWarden.Daemon.Mediation

/-!
# Which declaration an approval was given for

A dialog shows what came of evaluating one guard record. Sets and unlocks may put
another record in force while the dialog is up, and a request evaluated on that
one may join it. The second pass evaluates again and does not compare.
-/

set_option autoImplicit false

namespace CacheWarden

namespace Daemon

open Transition

namespace Call

/-- The request of a call, wherever it stands. -/
def request : Call → Option ApproveRequest
  | .absent => none
  | .arrived req => some req
  | .following req _ => some req
  | .asking req => some req
  | .answered req _ => some req
  | .retired req _ => some req
  | .cancelled req => some req
  | .gone req => some req
  | .returned req _ _ => some req
  | .left req => some req

/-- The dialog that a call waits for, or was approved by. -/
def relies : Call → Option ℕ
  | .following _ leader => some leader
  | .returned _ .approved leader => some leader
  | _ => none

/-- The call may still end in an approval, or has. -/
def waits : Call → Bool
  | .arrived _ => true
  | .following _ _ => true
  | .asking _ => true
  | .answered _ _ => true
  | .retired _ _ => true
  | .returned _ .approved _ => true
  | _ => false

theorem relies_returned (req : ApproveRequest) (outcome : ApprovalOutcome) (leader : ℕ) :
    (Call.returned req outcome leader).relies =
      if outcome = .approved then some leader else none := by
  cases outcome <;> rfl

end Call

section Moved

variable {slot slot' : ApproverSlot} {e : DialogEvent}

theorem request_moves (hm : Moves slot e slot') (id : ℕ) :
    (slot'.call id).request = (slot.call id).request ∨
      ∃ req, e = .arrive id req ∧ slot.call id = .absent ∧
        (slot'.call id).request = some req := by
  cases hm <;> grind -ring -linarith [Call.request]

theorem waits_moves (hm : Moves slot e slot') (id : ℕ) (h : (slot'.call id).waits = true) :
    (slot.call id).waits = true ∨ slot.call id = .absent := by
  cases hm <;> grind -ring -linarith [Call.waits, endedWithoutAnswer]

/-- A mark that every joining call shares with its leader is shared by all who
rely on a dialog. -/
theorem relies_moves {α : Type} (mark : ℕ → α) (hm : Moves slot e slot')
    (hbefore : ∀ f l, (slot.call f).relies = some l → mark l = mark f)
    (hjoin : ∀ id req ck l, e = .enter id → slot.call id = .arrived req →
      CoalesceKey.fromRequest req = some ck → slot.inflight ck = some l → mark l = mark id)
    (f l : ℕ) (h : (slot'.call f).relies = some l) : mark l = mark f := by
  cases hm <;> grind -ring -linarith [Call.relies, Call.relies_returned, endedWithoutAnswer]

end Moved

/-- The second pass would refuse the caller under this record. -/
def NeedsApproval.Refuses (gated : NeedsApproval) (record : GuardRecord) : Prop :=
  ∀ chain output, gated.peer.guardChain = some chain →
    evaluate chain (gated.peer.auditToken.map fun token => ⟨token.euid, token.ruid⟩) record ≠
      .ok output

namespace Sockets

/-- The request waits for its dialog, or for the second pass after it. -/
structure Open (sockets : Sockets) (id : ℕ) (gated : NeedsApproval) : Prop where
  held : sockets.gated id = some gated
  unfinished : sockets.finished id = false
  waits : (sockets.dialogs.call id).waits = true

/-- The record that a request was evaluated on. -/
def recordOf (self : Sockets) (id : ℕ) : Option GuardRecord := (self.gated id).bind (·.record)

/-- No record is put in force on the key of an open request but the one that it
was evaluated on, or one that refuses it, and no request joins the dialog of
another record. -/
structure RecordsKept (ssh : SshKeys) (libs : MatchLibs) (sockets : Sockets) (e : SocketEvent) :
    Prop where
  replaced : ∀ id gated, sockets.Open id gated → ∀ r,
    (sockets.step ssh libs e).daemon.store.guardOf gated.key = some r →
      sockets.daemon.store.guardOf gated.key = some r ∨ gated.record = some r ∨ gated.Refuses r
  joined : ∀ id req ck leader, e = .dialog (.enter id) → sockets.dialogs.call id = .arrived req →
    CoalesceKey.fromRequest req = some ck → sockets.dialogs.inflight ck = some leader →
      sockets.recordOf leader = sockets.recordOf id

/-- The approval of a request was given on a dialog about the key, which showed
what came of evaluating this record. -/
def ApprovedUnder (self : Sockets) (id : ℕ) (key : String) (record : GuardRecord) : Prop :=
  ∃ gated leader lgated, self.gated id = some gated ∧ gated.key = key ∧
    self.dialogs.call id = .returned (buildApproveRequest gated) .approved leader ∧
    self.dialogs.call leader = .returned (buildApproveRequest lgated) .approved leader ∧
    self.gated leader = some lgated ∧ lgated.key = key ∧ lgated.record = some record ∧
    ∃ chain, lgated.peer.guardChain = some chain ∧
      evaluate chain (lgated.peer.auditToken.map fun token => ⟨token.euid, token.ruid⟩) record =
        .ok lgated.guardEval

/-- The request whose second pass an event makes. -/
def finalizes (self : Sockets) (e : SocketEvent) : Option ℕ :=
  match self.pass e with
  | some (.second id _ _ _) => some id
  | _ => none

/-- What ties the dialogs to the requests that wait for them, and these to the
records. -/
structure Accounted (sockets : Sockets) : Prop where
  linked : Linked sockets.dialogs
  asked : ∀ id req, (sockets.dialogs.call id).request = some req →
    (∃ gated, sockets.gated id = some gated ∧ req = buildApproveRequest gated) ∨
      req = passkeyRequest ∧ sockets.gated id = none
  fresh : ∀ id, (sockets.dialogs.call id).request = none → sockets.gated id = none
  evaluated : ∀ id gated, sockets.gated id = some gated → ∃ r chain, gated.record = some r ∧
    gated.peer.guardChain = some chain ∧
      evaluate chain (gated.peer.auditToken.map fun token => ⟨token.euid, token.ruid⟩) r =
        .ok gated.guardEval
  shared : ∀ f l, (sockets.dialogs.call f).relies = some l → sockets.recordOf l = sockets.recordOf f
  inForce : ∀ id gated, sockets.Open id gated → ∀ r,
    sockets.daemon.store.guardOf gated.key = some r → gated.record = some r ∨ gated.Refuses r

end Sockets

section Steps

variable {ssh : SshKeys} {libs : MatchLibs} {self self' : Sockets} {e : SocketEvent}

theorem linked_turns (h : Linked self.dialogs) (ht : Turns ssh libs self e self') :
    Linked self'.dialogs := by
  cases ht with
  | suspended _ id peer ctx task gated s hpass habsent hfirst =>
    exact h.moves (step_moves self.dialogs (.arrive id (buildApproveRequest gated)))
  | passkey id => exact h.moves (step_moves self.dialogs (.arrive id passkeyRequest))
  | dialog e hnew => exact h.moves (step_moves self.dialogs e)
  | rebound r => exact linked_new
  | _ => exact h

theorem suspend_gated (id : ℕ) (gated : NeedsApproval) (a : ℕ) :
    (self.suspend id gated).gated a = if a = id then some gated else self.gated a := by
  simp [Sockets.suspend, Function.update_apply]

theorem suspend_request {id : ℕ} (gated : NeedsApproval) (habsent : self.dialogs.call id = .absent)
    (a : ℕ) :
    ((self.suspend id gated).dialogs.call a).request =
      if a = id then some (buildApproveRequest gated) else (self.dialogs.call a).request := by
  unfold Sockets.suspend
  simp only [ApproverSlot.step, habsent, setCall_call]
  by_cases ha : a = id <;> simp [ha, Call.request]

theorem asked_turns (h : self.Accounted) (ht : Turns ssh libs self e self') (a : ℕ)
    (req : ApproveRequest) (hreq : (self'.dialogs.call a).request = some req) :
    (∃ gated, self'.gated a = some gated ∧ req = buildApproveRequest gated) ∨
      req = passkeyRequest ∧ self'.gated a = none := by
  cases ht with
  | suspended _ id peer ctx task gated s hpass habsent hfirst =>
    have hrequest := @suspend_request ((self.settle (self.contextOf peer ctx) s).leave id) id gated habsent a
    have hgated := @suspend_gated ((self.settle (self.contextOf peer ctx) s).leave id) id gated a
    by_cases ha : a = id
    · rw [if_pos ha] at hrequest hgated
      rw [hrequest] at hreq
      exact Or.inl ⟨gated, hgated, (Option.some.inj hreq).symm⟩
    · rw [if_neg ha] at hrequest hgated
      rw [hrequest] at hreq
      rw [hgated]
      exact h.asked a req hreq
  | passkey id =>
    rcases request_moves (step_moves self.dialogs (.arrive id passkeyRequest)) a with
      hsame | ⟨r, heq, habsent, hr⟩
    · rw [hsame] at hreq
      exact h.asked a req hreq
    · cases heq
      rw [hr] at hreq
      cases hreq
      exact Or.inr ⟨rfl, h.fresh _ (by rw [habsent]; rfl)⟩
  | dialog e hnew =>
    rcases request_moves (step_moves self.dialogs e) a with hsame | ⟨r, heq, -, -⟩
    · rw [hsame] at hreq
      exact h.asked a req hreq
    · exact absurd heq (hnew a r)
  | rebound r => cases hreq
  | _ => exact h.asked a req hreq

theorem fresh_turns (h : self.Accounted) (ht : Turns ssh libs self e self') (a : ℕ)
    (ha : (self'.dialogs.call a).request = none) : self'.gated a = none := by
  cases ht with
  | suspended _ id peer ctx task gated s hpass habsent hfirst =>
    have hrequest := @suspend_request ((self.settle (self.contextOf peer ctx) s).leave id) id gated habsent a
    have hgated := @suspend_gated ((self.settle (self.contextOf peer ctx) s).leave id) id gated a
    rw [hrequest] at ha
    rw [hgated]
    split at ha
    · cases ha
    · rename_i hne
      rw [if_neg hne]
      exact h.fresh a ha
  | passkey id =>
    rcases request_moves (step_moves self.dialogs (.arrive id passkeyRequest)) a with
      hsame | ⟨r, -, -, hr⟩
    · exact h.fresh a (hsame ▸ ha)
    · rw [hr] at ha
      cases ha
  | dialog e hnew =>
    rcases request_moves (step_moves self.dialogs e) a with hsame | ⟨r, -, -, hr⟩
    · exact h.fresh a (hsame ▸ ha)
    · rw [hr] at ha
      cases ha
  | rebound r => rfl
  | _ => exact h.fresh a ha

theorem evaluated_turns (h : self.Accounted) (ht : Turns ssh libs self e self') (a : ℕ)
    (waiting : NeedsApproval) (hwaiting : self'.gated a = some waiting) :
    ∃ r chain, waiting.record = some r ∧ waiting.peer.guardChain = some chain ∧
      evaluate chain (waiting.peer.auditToken.map fun token => ⟨token.euid, token.ruid⟩) r =
        .ok waiting.guardEval := by
  cases ht with
  | suspended _ id peer ctx task gated s hpass habsent hfirst =>
    rw [suspend_gated] at hwaiting
    split at hwaiting
    · cases hwaiting
      obtain ⟨-, rfl, hevaluated⟩ := firstPass_suspends (congrArg Prod.fst hfirst)
      obtain ⟨r, chain, -, hrecord, hchain, heval⟩ := hevaluated.guarded
      exact ⟨r, chain, hrecord, hchain, heval⟩
    · exact h.evaluated a waiting hwaiting
  | rebound r => cases hwaiting
  | _ => exact h.evaluated a waiting hwaiting

/-- A dialog that somebody relies on was asked for. -/
theorem Linked.present {slot : ApproverSlot} (h : Linked slot) {f l : ℕ}
    (hf : (slot.call f).relies = some l) : slot.call l ≠ .absent := by
  intro habsent
  cases hcall : slot.call f with
  | following req leader =>
    rw [hcall] at hf
    cases hf
    obtain ⟨lreq, ck, hraised, -, -⟩ := h.joined f req l hcall
    rw [habsent] at hraised
    cases hraised
  | returned req outcome leader =>
    rw [hcall, Call.relies_returned] at hf
    split at hf
    · rename_i happroved
      cases hf
      subst happroved
      rcases h.returned f req l hcall with rfl | ⟨lreq, ck, hl, -, -⟩
      · rw [hcall] at habsent
        cases habsent
      · rw [hl] at habsent
        cases habsent
    · cases hf
  | _ =>
    rw [hcall] at hf
    cases hf

theorem recordOf_suspend (id : ℕ) (gated : NeedsApproval) (a : ℕ) :
    (self.suspend id gated).recordOf a = if a = id then gated.record else self.recordOf a := by
  unfold Sockets.recordOf
  rw [suspend_gated]
  by_cases ha : a = id <;> simp [ha]

theorem suspend_relies {id : ℕ} (gated : NeedsApproval) (habsent : self.dialogs.call id = .absent)
    (a : ℕ) :
    ((self.suspend id gated).dialogs.call a).relies =
      if a = id then none else (self.dialogs.call a).relies := by
  unfold Sockets.suspend
  simp only [ApproverSlot.step, habsent, setCall_call]
  by_cases ha : a = id <;> simp [ha, Call.relies]

theorem shared_turns (h : self.Accounted) (hk : Sockets.RecordsKept ssh libs self e)
    (ht : Turns ssh libs self e self') (f l : ℕ)
    (hrelies : (self'.dialogs.call f).relies = some l) : self'.recordOf l = self'.recordOf f := by
  cases ht with
  | suspended _ id peer ctx task gated s hpass habsent hfirst =>
    have hsettled : ((self.settle (self.contextOf peer ctx) s).leave id).dialogs.call id =
        .absent := habsent
    rw [suspend_relies gated hsettled] at hrelies
    split at hrelies
    · cases hrelies
    · rename_i hf
      have hl : l ≠ id := by
        rintro rfl
        exact h.linked.present hrelies habsent
      rw [recordOf_suspend, recordOf_suspend, if_neg hf, if_neg hl]
      exact h.shared f l hrelies
  | passkey id =>
    apply relies_moves self.recordOf (step_moves self.dialogs (.arrive id passkeyRequest)) h.shared
    · intro a req ck leader he
      cases he
    · exact hrelies
  | dialog e hnew =>
    apply relies_moves self.recordOf (step_moves self.dialogs e) h.shared
    · intro a req ck leader he hcall hck hentry
      exact hk.joined a req ck leader (congrArg SocketEvent.dialog he) hcall hck hentry
    · exact hrelies
  | rebound r => cases hrelies
  | _ => exact h.shared f l hrelies

/-- A request is open that was open before, or was suspended by this step. -/
theorem open_turns (h : self.Accounted) (ht : Turns ssh libs self e self') (a : ℕ)
    (waiting : NeedsApproval) (hopen : self'.Open a waiting) :
    self.Open a waiting ∨ self'.daemon.store = self.daemon.store ∧
      ∃ r, self.daemon.store.guardOf waiting.key = some r ∧ waiting.record = some r := by
  obtain ⟨hheld, hunfinished, hwaits⟩ := hopen
  have hopened : ∀ e, self.gated a = some waiting → self.finished a = false →
      ((self.dialogs.step e).call a).waits = true → self.Open a waiting := by
    intro e hheld hunfinished hwaits
    rcases waits_moves (step_moves self.dialogs e) a hwaits with hbefore | habsent
    · exact ⟨hheld, hunfinished, hbefore⟩
    · rw [h.fresh a (by rw [habsent]; rfl)] at hheld
      cases hheld
  cases ht with
  | suspended _ id peer ctx task gated s hpass habsent hfirst =>
    obtain ⟨hstate, -, hevaluated⟩ := firstPass_suspends (congrArg Prod.fst hfirst)
    rw [hfirst] at hstate
    rw [suspend_gated] at hheld
    split at hheld
    · cases hheld
      obtain ⟨r, chain, hguard, hrecord, -, -⟩ := hevaluated.guarded
      have hstore : s.store = self.daemon.store := congrArg State.store hstate
      exact Or.inr ⟨hstore, r, hguard, hrecord⟩
    · rename_i hne
      left
      refine ⟨hheld, hunfinished, ?_⟩
      simpa [Sockets.suspend, Sockets.settle, Sockets.leave, ApproverSlot.step, habsent, hne] using
        hwaits
  | finalized _ id ctx gated completion hpass happroved =>
    left
    refine ⟨hheld, ?_, hwaits⟩
    simp only [Sockets.finish, Sockets.leave, Sockets.settle, Function.update_apply] at hunfinished
    split at hunfinished
    · cases hunfinished
    · exact hunfinished
  | refused _ id hnone =>
    left
    refine ⟨hheld, ?_, hwaits⟩
    simp only [Sockets.finish, Function.update_apply] at hunfinished
    split at hunfinished
    · cases hunfinished
    · exact hunfinished
  | passkey id => exact Or.inl (hopened _ hheld hunfinished hwaits)
  | dialog e hnew => exact Or.inl (hopened _ hheld hunfinished hwaits)
  | rebound r => cases hheld
  | _ => exact Or.inl ⟨hheld, hunfinished, hwaits⟩

theorem inForce_step (h : self.Accounted) (hk : Sockets.RecordsKept ssh libs self e) (a : ℕ)
    (waiting : NeedsApproval) (hopen : (self.step ssh libs e).Open a waiting) (r : GuardRecord)
    (hr : (self.step ssh libs e).daemon.store.guardOf waiting.key = some r) :
    waiting.record = some r ∨ waiting.Refuses r := by
  rcases open_turns h (step_turns ssh libs self e) a waiting hopen with
    hbefore | ⟨hstore, r', hr', hrecord⟩
  · rcases hk.replaced a waiting hbefore r hr with hsame | hkept
    · exact h.inForce a waiting hbefore r hsame
    · exact hkept
  · rw [hstore, hr'] at hr
    rw [← hr]
    exact Or.inl hrecord

theorem accounted_step (h : self.Accounted) (hk : Sockets.RecordsKept ssh libs self e) :
    (self.step ssh libs e).Accounted where
  linked := linked_turns h.linked (step_turns ssh libs self e)
  asked := asked_turns h (step_turns ssh libs self e)
  fresh := fresh_turns h (step_turns ssh libs self e)
  evaluated := evaluated_turns h (step_turns ssh libs self e)
  shared := shared_turns h hk (step_turns ssh libs self e)
  inForce := inForce_step h hk

theorem accounted_starting (daemon : State) (policies : KeyMap (List String))
    (agents : List SocketState) : (Sockets.starting daemon policies agents).Accounted where
  linked := linked_new
  asked id req h := by cases h
  fresh id h := rfl
  evaluated id gated h := by cases h
  shared f l h := by cases h
  inForce id gated h := by cases h.held

/-- The second pass refuses whom the record in force refuses. -/
theorem secondPass_refuses {gated : NeedsApproval} {ctx : HandlerCtx} {completion : Completion}
    {r : GuardRecord} (hr : self.daemon.store.guardOf gated.key = some r)
    (hrefuses : gated.Refuses r) :
    (self.secondPass ssh gated (self.contextOf gated.peer ctx) completion).1.releases = false := by
  by_contra hreleases
  rw [Bool.not_eq_false] at hreleases
  obtain ⟨hguard, -⟩ := secondPass_releases rfl hreleases
  obtain ⟨chain, output, hchain, heval⟩ := hguard r hr
  exact hrefuses chain output hchain heval

theorem finalize_release {id : ℕ} {rel : Release} (hfinalizes : self.finalizes e = some id)
    (h : self.release ssh e = some rel) :
    ∃ gated ctx completion, self.approved id = some gated ∧ rel.key = gated.key ∧
      (self.secondPass ssh gated (self.contextOf gated.peer ctx) completion).1.releases = true := by
  obtain ⟨pass, hpass, hreply, hreleases, hkey, -⟩ := release_eq_some.mp h
  unfold Sockets.finalizes at hfinalizes
  rw [hpass] at hfinalizes
  cases pass with
  | first => cases hfinalizes
  | second id' gated ctx completion =>
    cases hfinalizes
    rw [← reply_second hreply] at hreleases
    exact ⟨gated, ctx, completion, pass_approved hpass, hkey, hreleases⟩

theorem open_of_approved {id : ℕ} {gated : NeedsApproval} (h : self.approved id = some gated) :
    self.Open id gated := by
  unfold Sockets.approved at h
  split at h
  · rename_i hcall
    split at h
    · cases h
    · rename_i hunfinished
      exact ⟨h, by simpa using hunfinished, by rw [hcall]; rfl⟩
  · cases h

/-- The leader of an approval was asked about the same key and was evaluated on
the same record. -/
theorem leader_of_approved (h : self.Accounted) {id : ℕ} {gated : NeedsApproval}
    (happroved : self.approved id = some gated) :
    ∃ leader lgated, self.dialogs.call id = .returned (buildApproveRequest gated) .approved leader ∧
      self.dialogs.call leader = .returned (buildApproveRequest lgated) .approved leader ∧
        self.gated leader = some lgated ∧ lgated.key = gated.key ∧
          lgated.record = gated.record := by
  have hheld := gated_of_approved happroved
  unfold Sockets.approved at happroved
  split at happroved
  · rename_i req leader hcall
    have hreq : req = buildApproveRequest gated := by
      rcases h.asked id req (by rw [hcall]; rfl) with ⟨own, hown, hreq⟩ | ⟨-, hnone⟩
      · rw [hheld] at hown
        cases hown
        exact hreq
      · rw [hheld] at hnone
        cases hnone
    subst hreq
    rcases h.linked.returned id _ leader hcall with rfl | ⟨lreq, ck, hlcall, hck, hlck⟩
    · exact ⟨id, gated, hcall, hcall, hheld, rfl, rfl⟩
    · rcases h.asked leader lreq (by rw [hlcall]; rfl) with ⟨lgated, hlgated, rfl⟩ | ⟨rfl, -⟩
      · refine ⟨leader, lgated, hcall, hlcall, hlgated, ?_, ?_⟩
        · exact congrArg CoalesceKey.key (question_eq hlck hck)
        · have hshared := h.shared id leader (by rw [hcall]; rfl)
          simpa [Sockets.recordOf, hheld, hlgated] using hshared
      · cases hlck
  · cases happroved

end Steps

/-- In every run in which no record replaces the one an open request was
evaluated on, unless it refuses the request, and no request joins the dialog of
another record: a second pass that gives something away under a guard relies on
an approval whose dialog showed the evaluation of that very record. -/
theorem approval_of_record_in_force (ssh : SshKeys) (libs : MatchLibs) (daemon : State)
    (policies : KeyMap (List String)) (agents : List SocketState) (events : List SocketEvent)
    (hkept : Along (Sockets.step ssh libs) (Sockets.RecordsKept ssh libs)
      (.starting daemon policies agents) events)
    (id : ℕ) (e : SocketEvent) (rel : Release) (record : GuardRecord) :
    let self := run (Sockets.step ssh libs) (.starting daemon policies agents) events
    self.finalizes e = some id → self.release ssh e = some rel →
      self.daemon.store.guardOf rel.key = some record →
        self.ApprovedUnder id rel.key record := by
  intro self hfinalizes hrelease hrecord
  have haccounted : self.Accounted :=
    run_invariant (Sockets.step ssh libs) (fun _ _ h hk => accounted_step h hk) _ events hkept
      (accounted_starting daemon policies agents)
  obtain ⟨gated, ctx, completion, happroved, hkey, hreleases⟩ :=
    finalize_release hfinalizes hrelease
  rw [hkey] at hrecord ⊢
  obtain ⟨leader, lgated, hcall, hlcall, hlgated, hlkey, hlrecord⟩ :=
    leader_of_approved haccounted happroved
  have hinForce : gated.record = some record := by
    rcases haccounted.inForce id gated (open_of_approved happroved) record hrecord with h | hrefuses
    · exact h
    · rw [secondPass_refuses hrecord hrefuses] at hreleases
      cases hreleases
  obtain ⟨r, chain, hr, hchain, heval⟩ := haccounted.evaluated leader lgated hlgated
  rw [hlrecord, hinForce] at hr
  cases hr
  exact ⟨gated, leader, lgated, gated_of_approved happroved, rfl, hcall, hlcall, hlgated, hlkey,
    hlrecord.trans hinForce, chain, hchain, heval⟩

namespace Redeclared

def libs : MatchLibs := Stranger.libs

def ssh : SshKeys := Stranger.ssh

def chain : List GetterProcess := [⟨⟨100, none, some (.utf8 "/bin/zsh"), none⟩, some 7⟩]

def peer : Peer := ⟨some [], some chain, some ⟨501, 501, 20, 100, 1⟩⟩

/-- A set of the key under a declaration. -/
def setUnder (declared : List GuardConstraintWire) : Arrival :=
  .control (.kvSet ⟨"ns/k", .static (some [1]), none, none, declared, none, none, none, none⟩)

def get : Arrival := .control (.kvGet "ns/k" false)

def starting : Sockets := .starting (.starting none .absent) ∅ []

/-- The human approves the dialog that the get leads. -/
def approval : List SocketEvent :=
  [.dialog (.answer 1 (some (.ok .approved))), .dialog (.retire 1), .dialog (.publish 1)]

/-- A guarded get whose dialog is approved. -/
def undisturbed : List SocketEvent :=
  [.arrive 0 peer .quiet (setUnder [.sameUser]), .arrive 1 peer .quiet get, .dialog (.enter 1)] ++
    approval

/-- The same, with another declaration set while the dialog is up. -/
def disturbed : List SocketEvent :=
  [.arrive 0 peer .quiet (setUnder [.sameUser]), .arrive 1 peer .quiet get, .dialog (.enter 1),
    .arrive 2 peer .quiet (setUnder [.command "/bin/zsh"])] ++ approval

def waiting : NeedsApproval where
  key := "ns/k"
  access := .get
  peer := peer
  guardEval := ⟨[⟨"same-user", "strong", "same-user", none⟩], none, none⟩
  record := some ⟨[.sameUser], ⟨501, 501⟩⟩

def released (after : Sockets) : Release where
  key := "ns/k"
  reply := .response (.ok (.get [1]))
  ctx := after.contextOf peer .quiet

theorem pass_of_approved {after : Sockets} (happroved : after.approved 1 = some waiting) :
    after.pass (.finalize 1 .quiet) = some (.second 1 waiting .quiet .get) := by
  simp only [Sockets.pass, happroved]
  rfl

theorem release_of_approved {after : Sockets} (happroved : after.approved 1 = some waiting)
    (hpass : (after.secondPass ssh waiting (after.contextOf peer .quiet) .get).1 =
      .response (.ok (.get [1]))) :
    after.release ssh (.finalize 1 .quiet) = some (released after) :=
  release_eq_some.mpr
    ⟨_, pass_of_approved happroved, congrArg some hpass, rfl, rfl, rfl⟩

theorem finalizes_of_approved {after : Sockets} (happroved : after.approved 1 = some waiting) :
    after.finalizes (.finalize 1 .quiet) = some 1 := by
  unfold Sockets.finalizes
  rw [pass_of_approved happroved]

theorem undisturbed_approved :
    (run (Sockets.step ssh libs) starting undisturbed).approved 1 = some waiting := by decide

theorem disturbed_approved :
    (run (Sockets.step ssh libs) starting disturbed).approved 1 = some waiting := by decide

theorem undisturbed_released :
    (run (Sockets.step ssh libs) starting undisturbed).release ssh (.finalize 1 .quiet) =
      some (released (run (Sockets.step ssh libs) starting undisturbed)) :=
  release_of_approved undisturbed_approved (by decide)

theorem disturbed_released :
    (run (Sockets.step ssh libs) starting disturbed).release ssh (.finalize 1 .quiet) =
      some (released (run (Sockets.step ssh libs) starting disturbed)) :=
  release_of_approved disturbed_approved (by decide)

theorem kept_unasked {self : Sockets} {e : SocketEvent} (hnone : self.gated = fun _ => none)
    (he : ∀ id, e ≠ .dialog (.enter id)) : Sockets.RecordsKept ssh libs self e where
  replaced id gated hopen := by
    have hheld := hopen.held
    rw [hnone] at hheld
    cases hheld
  joined id req ck leader henter := absurd henter (he id)

theorem kept_dialog {self : Sockets} {e : DialogEvent}
    (he : ∀ id req ck, e = .enter id → self.dialogs.call id = .arrived req →
      CoalesceKey.fromRequest req = some ck → self.dialogs.inflight ck = none) :
    Sockets.RecordsKept ssh libs self (.dialog e) where
  replaced id gated _ r hr := by
    left
    cases e <;> exact hr
  joined id req ck leader henter hcall hck hentry := by
    cases henter
    rw [he id req ck rfl hcall hck] at hentry
    cases hentry

theorem undisturbed_kept :
    Along (Sockets.step ssh libs) (Sockets.RecordsKept ssh libs) starting undisturbed := by
  refine ⟨?_, ?_, ?_, ?_, ?_, ?_, trivial⟩
  · exact kept_unasked rfl (fun _ h => (by cases h))
  · exact kept_unasked rfl (fun _ h => (by cases h))
  · exact kept_dialog (fun _ _ _ _ _ _ => rfl)
  · exact kept_dialog (fun _ _ _ h => (by cases h))
  · exact kept_dialog (fun _ _ _ h => (by cases h))
  · exact kept_dialog (fun _ _ _ h => (by cases h))

theorem approval_of_record_in_force_undisturbed :
    (run (Sockets.step ssh libs) starting undisturbed).ApprovedUnder 1 "ns/k"
      ⟨[.sameUser], ⟨501, 501⟩⟩ :=
  approval_of_record_in_force ssh libs (.starting none .absent) ∅ [] undisturbed undisturbed_kept 1
    (.finalize 1 .quiet) (released _) ⟨[.sameUser], ⟨501, 501⟩⟩
    (finalizes_of_approved undisturbed_approved) undisturbed_released (by decide)

/-- The value is given away under a declaration that nobody was asked about. -/
theorem approval_of_another_record :
    ¬ ∀ (events : List SocketEvent) (id : ℕ) (e : SocketEvent) (rel : Release)
      (record : GuardRecord),
      let self := run (Sockets.step ssh libs) starting events
      self.finalizes e = some id → self.release ssh e = some rel →
        self.daemon.store.guardOf rel.key = some record → self.ApprovedUnder id rel.key record := by
  intro h
  have hunder := h disturbed 1 (.finalize 1 .quiet) _ ⟨[.command "/bin/zsh"], ⟨501, 501⟩⟩
    (finalizes_of_approved disturbed_approved) disturbed_released (by decide)
  obtain ⟨gated, leader, lgated, -, -, hcall, -, hlgated, -, hrecord, -⟩ := hunder
  have hleader : leader = 1 := by
    have hled :
        ((run (Sockets.step ssh libs) starting disturbed).dialogs.call 1).relies = some 1 := by
      decide
    rw [hcall] at hled
    exact Option.some.inj hled
  subst hleader
  have hheld : (run (Sockets.step ssh libs) starting disturbed).gated 1 = some waiting := by decide
  rw [hheld] at hlgated
  cases hlgated
  exact absurd hrecord (by decide)

end Redeclared

end Daemon

end CacheWarden
