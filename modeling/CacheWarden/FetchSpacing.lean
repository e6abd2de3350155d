import CacheWarden.StoreRuns

/-!
# Spacing of fetches

Both fetch paths keep one discipline: at most one run of the command and one
prompt a call, no run while a live value is there or a backoff is on, and on
failure nothing changed but a dead value and a failure record.
-/

set_option autoImplicit false

namespace CacheWarden

open Transition

/-- One of the runs among the calls failed. -/
def runFailed (runner : SourceRunner) (calls : List ExternalCall) : Bool :=
  calls.any fun
    | .run argv cwd env => (runner argv cwd env).toOption.isNone
    | .prompt _ => false

/-- What a fetch that fails may change. -/
structure FailedFetch (s s' : Store) (key : String) (runner : SourceRunner) (clock : Clock)
    (calls : List ExternalCall) : Prop where
  entries : s'.entries = s.entries ∨ ∃ e, s.entries[key]? = some e ∧
    e.state (clock.now 1) = .hardExpired ∧ s'.entries = s.entries.insert key e.zeroizeValue
  failures : s'.failureBackoffs =
    if runFailed runner calls then
      s.failureBackoffs.insert key ⟨clock.now 2, s.failureBackoffDuration⟩
    else s.failureBackoffs
  definitions : s'.definitions = s.definitions
  guards : s'.accessGuards = s.accessGuards
  owners : s'.owners = s.owners
  versions : s'.versions = s.versions
  claims : s'.refreshClaims = s.refreshClaims
  backoff : s'.failureBackoffDuration = s.failureBackoffDuration
  token : s'.accessToken = s.accessToken

structure Disciplined (s s' : Store) (key : String) (runner : SourceRunner) (clock : Clock)
    (ok : Bool) (calls : List ExternalCall) : Prop where
  runs : calls.countP ExternalCall.isRun ≤ 1
  prompts : calls.countP (fun call => !call.isRun) ≤ 1
  prompted : ∀ pre ctx post, calls = pre ++ .prompt ctx :: post →
    ∃ argv cwd env value, .run argv cwd env ∈ pre ∧ runner argv cwd env = .ok value
  idle : ∀ call ∈ calls, call.isRun →
    ∀ e, s.entries[key]? = some e → e.state (clock.now 1) = .hardExpired
  failed : ok = false → FailedFetch s s' key runner clock calls

/-- The discipline of an operation, if it is a fetch. -/
def StoreOp.Disciplined (clock : Clock) (s : Store) : StoreOp → Prop
  | .regenerate key runner auth requester cap =>
    CacheWarden.Disciplined s (s.regenerate key runner auth requester cap clock).2 key runner clock
      (s.regenerate key runner auth requester cap clock).1.isOk
      (s.regenerateCalls key runner auth requester cap clock)
  | .getOrRegenerate key runner auth requester cap =>
    CacheWarden.Disciplined s (s.getOrRegenerate key runner auth requester cap clock).2 key runner
      clock (s.getOrRegenerate key runner auth requester cap clock).1.isOk
      (s.getOrRegenerateCalls key runner auth requester cap clock)
  | _ => True

/-- When the last failed run of a key's command ended, unless the key has been
removed since. -/
def lastFailure (history : List StoreEvent) : Option Monotonic :=
  history.foldl (fun last event =>
    match event with
    | .ran true _ ended => some ended
    | .forgotten => none
    | _ => last) none

/-- A run begins at least `d` after the failed run before it. -/
def SpacedBy (d : Duration) (pre : List StoreEvent) : StoreEvent → Prop
  | .ran _ began _ => ∀ ended, lastFailure pre = some ended →
      ended.offset.nanos + d.nanos ≤ began.offset.nanos
  | _ => True

namespace StoreEvent

/-- Neither a run nor the removal of the key. -/
def quiet : StoreEvent → Bool
  | .ran .. => false
  | .forgotten => false
  | _ => true

end StoreEvent

theorem lastFailure_concat (history : List StoreEvent) (event : StoreEvent) :
    lastFailure (history ++ [event]) =
      match event with
      | .ran true _ ended => some ended
      | .forgotten => none
      | _ => lastFailure history := by
  unfold lastFailure
  rw [List.foldl_append]
  cases event with
  | ran failed began ended => cases failed <;> rfl
  | _ => rfl

theorem lastFailure_quiet {history : List StoreEvent} {event : StoreEvent} (h : event.quiet = true) :
    lastFailure (history ++ [event]) = lastFailure history := by
  rw [lastFailure_concat]
  cases event with
  | ran failed began ended => cases h
  | forgotten => cases h
  | _ => rfl

section Discipline

variable {s s' : Store} {key : String} {runner : SourceRunner} {auth : Authenticator}
  {requester : Option (List ProcessInfo)} {clock : Clock} {hard : Option Duration} {ok : Bool}
  {calls : List ExternalCall}

theorem Store.Swept.failedFetch {t : List ExternalCall} (h : s.Swept key (clock.now 1) s')
    (hrun : runFailed runner t = false) : FailedFetch s s' key runner clock t := by
  have hentries : s'.entries = s.entries ∨ ∃ e, s.entries[key]? = some e ∧
      e.state (clock.now 1) = .hardExpired ∧ s'.entries = s.entries.insert key e.zeroizeValue := by
    cases h with
    | same => exact Or.inl rfl
    | destroyed e he hstate => exact Or.inr ⟨e, he, hstate, rfl⟩
  have hfailures : s'.failureBackoffs = if runFailed runner t then
      s.failureBackoffs.insert key ⟨clock.now 2, s.failureBackoffDuration⟩
      else s.failureBackoffs := by
    rw [hrun]
    cases h <;> rfl
  cases h <;> exact ⟨hentries, hfailures, rfl, rfl, rfl, rfl, rfl, rfl, rfl⟩

theorem FailedFetch.recordFailure (h : FailedFetch s s' key runner clock [])
    (hd : Duration.zero < s.failureBackoffDuration) (hrun : runFailed runner calls = true) :
    FailedFetch s (s'.recordFailure key (clock.now 2)) key runner clock calls := by
  have hfailures : s'.failureBackoffs = s.failureBackoffs := h.failures
  have hrecord : s'.recordFailure key (clock.now 2) =
      { s' with failureBackoffs :=
          s.failureBackoffs.insert key ⟨clock.now 2, s.failureBackoffDuration⟩ } := by
    unfold Store.recordFailure
    rw [h.backoff, if_pos hd, hfailures]
  rw [hrecord]
  exact ⟨h.entries, by rw [hrun]; rfl, h.definitions, h.guards, h.owners, h.versions, h.claims,
    h.backoff, h.token⟩

theorem Store.Fetches.disciplined (hd : Duration.zero < s.failureBackoffDuration)
    (h : s.Fetches key runner auth requester clock hard ok calls s') :
    Disciplined s s' key runner clock ok calls := by
  have hprompted : ∀ argv cwd env (value : Bytes), runner argv cwd env = .ok value →
      ∀ pre ctx post, [.run argv cwd env, .prompt ⟨key, .regenerate, requester⟩] =
        pre ++ ExternalCall.prompt ctx :: post →
      ∃ argv cwd env value, .run argv cwd env ∈ pre ∧ runner argv cwd env = .ok value := by
    intro argv cwd env value hrun pre ctx post heq
    cases pre with
    | nil => cases heq
    | cons call rest =>
      rw [List.cons_append] at heq
      injection heq with hcall _
      exact ⟨argv, cwd, env, value, by rw [← hcall]; exact List.mem_cons_self, hrun⟩
  cases h with
  | refused _ hs =>
    have hnone : ∀ pre ctx post, ([] : List ExternalCall) = pre ++ .prompt ctx :: post → False := by
      intro pre ctx post heq
      simp at heq
    exact ⟨by simp, by simp, fun pre ctx post heq => (hnone pre ctx post heq).elim,
      by simp, fun _ => hs.failedFetch rfl⟩
  | failed s₁ hs hidle argv cwd env e hrun =>
    refine ⟨by simp [ExternalCall.isRun], by simp [ExternalCall.isRun], ?_,
      fun _ _ _ => hidle.resident, fun _ => ?_⟩
    · intro pre ctx post heq
      cases pre with
      | nil => cases heq
      | cons call rest => simp at heq
    · have hfailed : runFailed runner [.run argv cwd env] = true := by
        simp [runFailed, hrun, Except.toOption]
      exact (hs.failedFetch rfl).recordFailure hd hfailed
  | denied _ hs hidle argv cwd env value hrun =>
    refine ⟨Nat.le_refl 1, Nat.le_refl 1,
      hprompted argv cwd env value hrun, fun _ _ _ => hidle.resident, fun _ => ?_⟩
    have hnone : runFailed runner
        [.run argv cwd env, .prompt ⟨key, .regenerate, requester⟩] = false := by
      simp [runFailed, hrun, Except.toOption]
    exact hs.failedFetch hnone
  | installed s₁ hs hidle argv cwd env value ttl hrun hhard =>
    exact ⟨Nat.le_refl 1, Nat.le_refl 1,
      hprompted argv cwd env value hrun, fun _ _ _ => hidle.resident, by rintro ⟨⟩⟩

end Discipline

/-- The failure record of a key holds back the next run for as long as the
history demands. -/
def HeldBack (d : Duration) (history : List StoreEvent) (record : Option FailureRecord)
    (now : Monotonic) : Prop :=
  ∀ ended, lastFailure history = some ended →
    ended.offset.nanos + d.nanos ≤ now.offset.nanos ∨
      ∃ r, record = some r ∧ r.retryAfter = d ∧ ended ≤ r.failedAt

theorem HeldBack.mono {d : Duration} {history : List StoreEvent} {record : Option FailureRecord}
    {t u : Monotonic} (h : HeldBack d history record t) (htu : t ≤ u) :
    HeldBack d history record u := by
  rw [Monotonic.le_iff] at htu
  intro ended hended
  rcases h ended hended with hle | hr
  · exact Or.inl (by omega)
  · exact Or.inr hr

structure Spaced (d : Duration) (exec : Execution) : Prop where
  duration : exec.store.failureBackoffDuration = d
  checked : ∀ k, Checked (SpacedBy d) (exec.history k)
  held : ∀ k, HeldBack d (exec.history k) exec.store.failureBackoffs[k]? exec.now

section Step

variable {d : Duration} {s s' : Store} {key : String} {history : List StoreEvent}
  {t u : Monotonic}

/-- An event that is no run and no removal asks nothing new. -/
theorem quiet_concat (hc : Checked (SpacedBy d) history)
    (hh : HeldBack d history s.failureBackoffs[key]? t) {event : StoreEvent}
    (hq : event.quiet = true) :
    Checked (SpacedBy d) (history ++ [event]) ∧
      HeldBack d (history ++ [event]) s.failureBackoffs[key]? t := by
  constructor
  · apply checked_concat hc
    cases event <;> first | exact trivial | cases hq
  · intro ended hended
    rw [lastFailure_quiet hq] at hended
    exact hh ended hended

theorem quiet_append {events : List StoreEvent} (hc : Checked (SpacedBy d) history)
    (hh : HeldBack d history s.failureBackoffs[key]? t)
    (hq : ∀ event ∈ events, event.quiet = true) :
    Checked (SpacedBy d) (history ++ events) ∧
      HeldBack d (history ++ events) s.failureBackoffs[key]? t := by
  induction events generalizing history with
  | nil =>
    rw [List.append_nil]
    exact ⟨hc, hh⟩
  | cons event events ih =>
    obtain ⟨hc', hh'⟩ := quiet_concat hc hh (hq event List.mem_cons_self)
    have happ := ih hc' hh' fun e he => hq e (List.mem_cons_of_mem _ he)
    simpa using happ

/-- An idle key has waited out its last failure. -/
theorem waited_of_idle (hd : Duration.zero < d) (hh : HeldBack d history s.failureBackoffs[key]? t)
    (htu : t ≤ u) (hidle : s.Idle key u) {ended : Monotonic}
    (hended : lastFailure history = some ended) :
    ended.offset.nanos + d.nanos ≤ u.offset.nanos := by
  rw [Monotonic.le_iff] at htu
  rcases hh ended hended with hle | ⟨r, hr, hafter, hfailed⟩
  · omega
  have hnone := hidle.backoff
  unfold Store.failureBackoffRemaining at hnone
  simp only [hr] at hnone
  rw [Duration.lt_iff] at hd
  have hzero : ¬ r.retryAfter = Duration.zero := by
    intro h
    rw [hafter] at h
    rw [h] at hd
    exact Nat.lt_irrefl _ hd
  rw [if_neg hzero] at hnone
  by_cases hlt : u.saturatingDurationSince r.failedAt < r.retryAfter
  · rw [if_pos hlt] at hnone
    cases hnone
  rw [Duration.lt_iff, Monotonic.nanos_saturatingDurationSince, hafter] at hlt
  rw [Monotonic.le_iff] at hfailed
  have hzero' : (Duration.zero).nanos = 0 := rfl
  omega

theorem Store.Swept.failureBackoffs (h : s.Swept key t s') :
    s'.failureBackoffs = s.failureBackoffs := by
  cases h <;> rfl

/-- What a fetch adds to a history is spaced, and the record it leaves holds
back the next one. -/
theorem fetch_spaced {runner : SourceRunner} {auth : Authenticator}
    {requester : Option (List ProcessInfo)} {clock : Clock} {hard : Option Duration} {ok : Bool}
    {calls : List ExternalCall} (hd : Duration.zero < d) (hdur : s.failureBackoffDuration = d)
    (hc : Checked (SpacedBy d) history) (hh : HeldBack d history s.failureBackoffs[key]? t)
    (ht : t ≤ clock.now 0) (h : s.Fetches key runner auth requester clock hard ok calls s') :
    Checked (SpacedBy d) (history ++ StoreOp.fetchEvents ok runner clock calls hard) ∧
      HeldBack d (history ++ StoreOp.fetchEvents ok runner clock calls hard)
        s'.failureBackoffs[key]? clock.last := by
  have ht1 : t ≤ clock.now 1 := Monotonic.le_trans ht (clock.mono 0)
  have hlast : t ≤ clock.last := Monotonic.le_trans ht (clock.le_last 0)
  have h1last : clock.now 1 ≤ clock.last := clock.le_last 1
  -- A run begins once the last failure has been waited out.
  have hran : s.Idle key (clock.now 1) → ∀ failed,
      Checked (SpacedBy d) (history ++ [.ran failed (clock.now 1) (clock.now 2)]) := by
    intro hidle failed
    exact checked_concat hc fun ended hended => waited_of_idle hd hh ht1 hidle hended
  cases h with
  | refused _ hs =>
    rw [show StoreOp.fetchEvents false runner clock [] hard = [] from rfl, List.append_nil,
      hs.failureBackoffs]
    exact ⟨hc, hh.mono hlast⟩
  | failed s₁ hs hidle argv cwd env e hrun =>
    have hevents : StoreOp.fetchEvents false runner clock [.run argv cwd env] hard =
        [.ran true (clock.now 1) (clock.now 2)] := by
      simp [StoreOp.fetchEvents, StoreOp.runEvents, hrun, Except.toOption]
    rw [hevents]
    refine ⟨hran hidle true, ?_⟩
    intro ended hended
    rw [lastFailure_concat] at hended
    cases hended
    have hdur₁ : s₁.failureBackoffDuration = d := by
      rw [← hdur]
      cases hs <;> rfl
    refine Or.inr ⟨⟨clock.now 2, d⟩, ?_, rfl, Monotonic.le_refl _⟩
    unfold Store.recordFailure
    rw [hdur₁, if_pos hd]
    exact KeyMap.get_insert_self _ _ _
  | denied _ hs hidle argv cwd env value hrun =>
    have hevents : StoreOp.fetchEvents false runner clock
        [.run argv cwd env, .prompt ⟨key, .regenerate, requester⟩] hard =
        [.ran false (clock.now 1) (clock.now 2)] := by
      simp [StoreOp.fetchEvents, StoreOp.runEvents, hrun, Except.toOption]
    rw [hevents]
    refine ⟨hran hidle false, ?_⟩
    intro ended hended
    rw [lastFailure_concat] at hended
    rw [hs.failureBackoffs]
    exact hh.mono hlast ended hended
  | installed s₁ hs hidle argv cwd env value ttl hrun hhard =>
    have hevents : StoreOp.fetchEvents true runner clock
        [.run argv cwd env, .prompt ⟨key, .regenerate, requester⟩] hard =
        [.ran false (clock.now 1) (clock.now 2)] ++ [.installed value (clock.now 2) hard] := by
      simp [StoreOp.fetchEvents, StoreOp.runEvents, hrun, Except.toOption]
    rw [hevents, ← List.append_assoc]
    refine ⟨checked_concat (hran hidle false) trivial, ?_⟩
    intro ended hended
    rw [lastFailure_concat, lastFailure_concat] at hended
    have hwaited := waited_of_idle hd hh ht1 hidle hended
    rw [Monotonic.le_iff] at h1last
    exact Or.inl (by omega)

/-- Only a fetch and a removal leave more than quiet events. -/
theorem events_quiet {clock : Clock} {op : StoreOp} (h : op.touchesFailure = false) :
    ∀ event ∈ op.events clock s, event.quiet = true := by
  intro event hevent
  cases op with
  | regenerate key runner auth requester cap => cases h
  | getOrRegenerate key runner auth requester cap => cases h
  | deleteWithDefinition key cap => cases h
  | pinAuthenticated key deadline auth requester cap =>
    simp only [StoreOp.events, List.mem_append] at hevent
    rcases hevent with hpin | hreport
    · split at hpin
      · rw [List.mem_singleton.mp hpin]
        rfl
      · cases hpin
    · split at hreport
      · rw [List.mem_singleton.mp hreport]
        rfl
      · cases hreport
  | _ =>
    simp only [StoreOp.events] at hevent
    first
    | cases hevent
    | split at hevent <;> first | (rw [List.mem_singleton.mp hevent]; rfl) | cases hevent

end Step

theorem spaced_step {d : Duration} (hd : Duration.zero < d) {self : Execution}
    (h : Spaced d self) (op : StoreOp × Clock) : Spaced d (self.step op) := by
  obtain ⟨op, clock⟩ := op
  have helse := op.apply_elsewhere (clock.since self.now) self.store
  have hnow := clock.le_last_since self.now
  have hboth : ∀ k, Checked (SpacedBy d) ((self.step (op, clock)).history k) ∧
      HeldBack d ((self.step (op, clock)).history k)
        (self.step (op, clock)).store.failureBackoffs[k]? (self.step (op, clock)).now := by
    intro k
    show Checked (SpacedBy d) (if k = op.key then _ else _) ∧
      HeldBack d (if k = op.key then _ else _) _ _
    by_cases hk : k = op.key
    · simp only [if_pos hk]
      show _ ∧ HeldBack d _ (op.apply (clock.since self.now) self.store).failureBackoffs[k]?
        (clock.since self.now).last
      subst hk
      by_cases htouch : op.touchesFailure = true
      · cases op with
        | regenerate key runner auth requester cap =>
          exact fetch_spaced hd h.duration (h.checked key) (h.held key)
            (clock.le_now_since self.now 0) (self.store.regenerate_fetches key runner auth requester
              cap (clock.since self.now))
        | getOrRegenerate key runner auth requester cap =>
          exact fetch_spaced hd h.duration (h.checked key) (h.held key)
            (clock.le_now_since self.now 0) (self.store.getOrRegenerate_fetches key runner auth
              requester cap (clock.since self.now))
        | deleteWithDefinition key cap =>
          simp only [StoreOp.key, StoreOp.events, StoreOp.apply, Store.deleteWithDefinition]
          cases self.store.checkCap cap with
          | error e =>
            simp only [List.append_nil]
            exact ⟨h.checked key, (h.held key).mono hnow⟩
          | ok _ =>
            refine ⟨checked_concat (h.checked key) trivial, ?_⟩
            intro ended hended
            rw [lastFailure_concat] at hended
            cases hended
        | _ => cases htouch
      · have hquiet : op.touchesFailure = false := by simpa using htouch
        rw [op.apply_failureBackoffs (clock.since self.now) self.store hquiet]
        exact quiet_append (h.checked _) ((h.held _).mono hnow) (events_quiet hquiet)
    · simp only [if_neg hk]
      refine ⟨h.checked k, ?_⟩
      show HeldBack d _ (op.apply (clock.since self.now) self.store).failureBackoffs[k]?
        (clock.since self.now).last
      rw [helse.failures k (Ne.symm hk)]
      exact (h.held k).mono hnow
  exact ⟨helse.duration.trans h.duration, fun k => (hboth k).1, fun k => (hboth k).2⟩

theorem spaced_start (token : BitVec 128) (d : Duration) : Spaced d (Execution.start token d) where
  duration := rfl
  checked _ := checked_nil
  held _ ended h := by cases h

theorem disciplined_of_spaced {d : Duration} (hd : Duration.zero < d) {self : Execution}
    (h : Spaced d self) (op : StoreOp) (clock : Clock) :
    op.Disciplined clock self.store := by
  have hd' : Duration.zero < self.store.failureBackoffDuration := by
    rw [h.duration]
    exact hd
  cases op with
  | regenerate key runner auth requester cap =>
    exact (self.store.regenerate_fetches key runner auth requester cap clock).disciplined hd'
  | getOrRegenerate key runner auth requester cap =>
    exact (self.store.getOrRegenerate_fetches key runner auth requester cap clock).disciplined hd'
  | _ => trivial

theorem along_spaced {d : Duration} (hd : Duration.zero < d) {self : Execution} (h : Spaced d self)
    (ops : List (StoreOp × Clock)) :
    Along Execution.step (fun s op => op.1.Disciplined (op.2.since s.now) s.store) self ops := by
  induction ops generalizing self with
  | nil => trivial
  | cons op ops ih => exact ⟨disciplined_of_spaced hd h op.1 _, ih (spaced_step hd h op)⟩

/-- Over every run of a store with a backoff of `d`: each fetch is disciplined,
and no run of a key's command begins within `d` of the failed one before it. -/
theorem fetches_spaced (token : BitVec 128) (d : Duration) (hd : Duration.zero < d)
    (ops : List (StoreOp × Clock)) :
    Along Execution.step (fun s op => op.1.Disciplined (op.2.since s.now) s.store)
        (Execution.start token d) ops ∧
      ∀ k, Checked (SpacedBy d) ((run Execution.step (Execution.start token d) ops).history k) := by
  have hstart := spaced_start token d
  have hend : Spaced d (run Execution.step (Execution.start token d) ops) :=
    run_invariant Execution.step (P := fun _ _ => True) (I := Spaced d)
      (fun s op hs _ => spaced_step hd hs op) _ ops (along_of_forall _ (fun _ _ => trivial) _ _)
      hstart
  exact ⟨along_spaced hd hstart ops, hend.checked⟩

def oneSecond : Duration := Duration.fromSecs 1

/-- A failing command is run at zero, held back at zero and run again a second
later. -/
theorem fetches_spaced_retry :
    Checked (SpacedBy oneSecond)
      ((run Execution.step (Execution.start 0 oneSecond)
        [(.defineWithMeta "ns/k" (.command ["op"] none ∅) Ttl.never ValueMeta.new SourceMeta.new,
            Clock.constant Monotonic.zero),
          (.getOrRegenerate "ns/k" (fun _ _ _ => .error .emptyOutput) (fun _ => .ok ()) none ⟨0⟩,
            Clock.constant Monotonic.zero),
          (.getOrRegenerate "ns/k" (fun _ _ _ => .error .emptyOutput) (fun _ => .ok ()) none ⟨0⟩,
            Clock.constant Monotonic.zero),
          (.getOrRegenerate "ns/k" (fun _ _ _ => .error .emptyOutput) (fun _ => .ok ()) none ⟨0⟩,
            Clock.constant (Monotonic.zero.saturatingAdd oneSecond))]).history "ns/k") :=
  (fetches_spaced 0 oneSecond (by decide) _).2 "ns/k"

end CacheWarden
