import CacheWarden.Lifetime

/-!
# The soft window

Once the soft window of a value has lapsed the value is to stay out of reach
until someone approves. What an operation may leave of an entry without that is
something that is never Active where the entry was not. An operation that
restarts the window takes a reading to judge the entry and another to start it
from.
-/

set_option autoImplicit false

namespace CacheWarden

open Store

namespace CacheEntry

section

variable {e : CacheEntry} {t u : Monotonic}

/-- A window that has lapsed stays so. -/
theorem not_active_of_softExpired (h : e.state t = .softExpired) (htu : t ≤ u) :
    e.state u ≠ .active := by
  obtain ⟨v, hv⟩ := value_isSome_of_state (show e.state t ≠ .hardExpired by rw [h]; decide)
  rw [Monotonic.le_iff] at htu
  rw [state_of_value hv] at h ⊢
  by_cases hpin : e.pinDeadline.any (t < ·) = true
  · rw [if_pos hpin] at h
    cases h
  rw [if_neg hpin] at h
  have hpin' : ¬ e.pinDeadline.any (u < ·) = true := by
    intro hu
    apply hpin
    cases hd : e.pinDeadline with
    | none => simp [hd] at hu
    | some d =>
      simp only [hd, Option.any_some, decide_eq_true_eq, Monotonic.lt_iff] at hu ⊢
      omega
  rw [if_neg hpin']
  by_cases hhard : e.ttl.hard.any (· ≤ t.saturatingDurationSince e.loadedAt) = true
  · rw [if_pos hhard] at h
    cases h
  rw [if_neg hhard] at h
  have hsoft : e.ttl.soft.any (· ≤ t.saturatingDurationSince e.extendedAt) = true := by
    by_contra hsoft
    rw [if_neg hsoft] at h
    cases h
  have hsoft' : e.ttl.soft.any (· ≤ u.saturatingDurationSince e.extendedAt) = true := by
    cases hd : e.ttl.soft with
    | none => simp [hd] at hsoft
    | some d =>
      simp only [hd, Option.any_some, decide_eq_true_eq, Duration.le_iff,
        Monotonic.nanos_saturatingDurationSince] at hsoft ⊢
      omega
  rw [if_pos hsoft']
  split <;> exact fun hactive => by cases hactive

theorem lt_of_active (h : e.state t = .active) (hu : e.state u = .softExpired) : t < u := by
  by_contra hle
  exact not_active_of_softExpired hu (Monotonic.not_lt.mp hle) h

/-- What is left of an entry whose window nobody restarted. -/
structure Remains (e e' : CacheEntry) : Prop where
  extendedAt : e'.extendedAt = e.extendedAt
  active : ∀ u, e'.state u = .active → e.state u = .active

theorem remains_refl (e : CacheEntry) : Remains e e := ⟨rfl, fun _ h => h⟩

theorem Remains.trans {e e' e'' : CacheEntry} (h : Remains e e') (h' : Remains e' e'') :
    Remains e e'' where
  extendedAt := h'.extendedAt.trans h.extendedAt
  active u hu := h.active u (h'.active u hu)

theorem remains_zeroize (e : CacheEntry) : Remains e e.zeroizeValue where
  extendedAt := rfl
  active u hu := by cases hu

theorem remains_evaluate (e : CacheEntry) (now : Monotonic) : Remains e (e.evaluate now).2 := by
  rw [evaluate_snd]
  split
  · exact remains_zeroize e
  · exact remains_refl e

theorem remains_get (e : CacheEntry) (now : Monotonic) : Remains e (e.get now).2 := by
  rw [get_snd]
  exact remains_evaluate e now

theorem remains_unpin (e : CacheEntry) : Remains e e.unpin where
  extendedAt := rfl
  active u hu := by
    have hlive : e.unpin.state u ≠ .hardExpired := by
      rw [hu]
      decide
    obtain ⟨v, hv⟩ := value_isSome_of_state hlive
    rw [state_of_value hv] at hu
    rw [state_of_value (show e.value = some v from hv)]
    split
    · rfl
    · exact hu

end

end CacheEntry

open CacheEntry

/-- The same of what a key holds. -/
def Stays (before after : Option CacheEntry) : Prop :=
  ∀ e', after = some e' → ∃ e, before = some e ∧ Remains e e'

theorem stays_refl (before : Option CacheEntry) : Stays before before :=
  fun e' he' => ⟨e', he', remains_refl e'⟩

theorem Stays.trans {a b c : Option CacheEntry} (h : Stays a b) (h' : Stays b c) : Stays a c := by
  intro e'' he''
  obtain ⟨e', he', hremains'⟩ := h' e'' he''
  obtain ⟨e, he, hremains⟩ := h e' he'
  exact ⟨e, he, hremains.trans hremains'⟩

theorem stays_none (before : Option CacheEntry) : Stays before none := fun _ he => by cases he

/-- What an operation makes of the entry of its key while nobody approves: what
stays of it, or the entry with its window restarted, found Active at one reading
and not past its window at the next. -/
inductive WindowOutcome (before : Option CacheEntry) (clock : Clock) : Option CacheEntry → Prop
  | stays (after : Option CacheEntry) (h : Stays before after) : WindowOutcome before clock after
  | restarted (e : CacheEntry) (i : ℕ) (he : before = some e)
      (hactive : e.state (clock.now i) = .active)
      (hin : e.state (clock.now (i + 1)) ≠ .softExpired) :
      WindowOutcome before clock (some { e with extendedAt := clock.now (i + 1) })

/-- An approval of the key among the calls. -/
def Approved (auth : Authenticator) (calls : List ExternalCall) (key : String) : Prop :=
  ∃ ctx : AuthContext, .prompt ctx ∈ calls ∧ ctx.key = key ∧ auth ctx = .ok ()

namespace StoreOp

def isSet : StoreOp → Bool
  | .set .. => true
  | _ => false

def auth : StoreOp → Authenticator
  | .extendAuthenticated _ auth _ _ => auth
  | .pinAuthenticated _ _ auth _ _ => auth
  | .regenerate _ _ auth _ _ => auth
  | .getOrRegenerate _ _ auth _ _ => auth
  | _ => fun _ => .error .denied

def calls (clock : Clock) (s : Store) : StoreOp → List ExternalCall
  | .extendAuthenticated key auth requester cap =>
    s.extendAuthenticatedCalls key auth requester cap clock
  | .pinAuthenticated key deadline auth requester cap =>
    s.pinAuthenticatedCalls key deadline auth requester cap clock
  | .regenerate key runner auth requester cap => s.regenerateCalls key runner auth requester cap clock
  | .getOrRegenerate key runner auth requester cap =>
    s.getOrRegenerateCalls key runner auth requester cap clock
  | _ => []

/-- An extension without a prompt falls within the window, from the reading that
judges the entry to the one the new window starts from. -/
def InTime (clock : Clock) (s : Store) : StoreOp → Prop
  | .extend key _ => ∀ e, s.entries[key]? = some e →
      e.state (clock.now 0) ≠ .softExpired ∧ e.state (clock.now 1) ≠ .softExpired
  | .extendAuthenticated key _ _ _ => ∀ e, s.entries[key]? = some e →
      e.state (clock.now 0) = .active →
        e.state (clock.now 1) ≠ .softExpired ∧ e.state (clock.now 2) ≠ .softExpired
  | _ => True

end StoreOp

section Operations

variable {s s' : Store} {key : String} {clock : Clock}

theorem stays_put {e e' : CacheEntry} (he : s.entries[key]? = some e) (h : Remains e e') :
    Stays s.entries[key]? (s.putEntry key e').entries[key]? := by
  rw [putEntry_get]
  intro e'' he''
  cases he''
  exact ⟨e, he, h⟩

theorem stays_swept {t : Monotonic} (h : s.Swept key t s') :
    Stays s.entries[key]? s'.entries[key]? := by
  cases h with
  | same => exact stays_refl _
  | destroyed e he hstate => exact stays_put he (remains_zeroize e)

theorem stays_get (cap : Capability) (now : Monotonic) :
    Stays s.entries[key]? (s.get key cap now).2.entries[key]? := by
  unfold Store.get
  split
  · exact stays_refl _
  split
  · exact stays_refl _
  rename_i e he
  exact stays_put he (remains_get e now)

theorem stays_stateOf (now : Monotonic) :
    Stays s.entries[key]? (s.stateOf key now).2.entries[key]? := by
  unfold Store.stateOf
  split
  · exact stays_refl _
  rename_i e he
  exact stays_put he (remains_evaluate e now)

theorem stays_unpin (cap : Capability) :
    Stays s.entries[key]? (s.unpin key cap).2.entries[key]? := by
  unfold Store.unpin
  split
  · exact stays_refl _
  split
  · exact stays_refl _
  rename_i e he
  exact stays_put he (remains_unpin e)

/-- An extension that found the entry Active and starts the window in time. -/
theorem outcome_extended {e : CacheEntry} (i : ℕ) (he : s.entries[key]? = some e)
    (hnow : e.state (clock.now i) ≠ .softExpired)
    (hnext : e.state (clock.now (i + 1)) ≠ .softExpired) :
    WindowOutcome s.entries[key]? clock
      (s.putEntry key (e.extend (clock.after i)).2).entries[key]? := by
  cases hstate : e.state (clock.now i) with
  | active =>
    have hlive : e.state ((clock.after i).now 0) ≠ .hardExpired := by
      rw [Clock.after_now, Nat.add_zero, hstate]
      decide
    rw [extend_of_live hlive, putEntry_get]
    exact .restarted e i he hstate hnext
  | softExpired => exact absurd hstate hnow
  | hardExpired =>
    rw [extend_of_dead (by rw [Clock.after_now, Nat.add_zero, hstate])]
    exact .stays _ (stays_put he (remains_zeroize e))

theorem outcome_extend {cap : Capability} (hin : (StoreOp.extend key cap).InTime clock s) :
    WindowOutcome s.entries[key]? clock (s.extend key cap clock).2.entries[key]? := by
  unfold Store.extend
  split
  · exact .stays _ (stays_refl _)
  split
  · exact .stays _ (stays_refl _)
  rename_i e he
  have hnow := hin e he
  exact outcome_extended 0 he hnow.1 hnow.2

theorem prompt_of_softExpired {auth : Authenticator} {requester : Option (List ProcessInfo)}
    {cap : Capability} {e : CacheEntry} (hcap : s.checkCap cap = .ok ()) (he : s.entries[key]? = some e)
    (hstate : e.state (clock.now 0) = .softExpired) :
    .prompt ⟨key, .extend, requester⟩ ∈
      s.extendAuthenticatedCalls key auth requester cap clock := by
  unfold Store.extendAuthenticatedCalls Store.extendAuthenticatedAsking
  simp [hcap, he, hstate]

theorem outcome_extendAuthenticated {auth : Authenticator}
    {requester : Option (List ProcessInfo)} {cap : Capability}
    (hin : (StoreOp.extendAuthenticated key auth requester cap).InTime clock s)
    (hunapproved : ¬ Approved auth (s.extendAuthenticatedCalls key auth requester cap clock) key) :
    WindowOutcome s.entries[key]? clock
      (s.extendAuthenticated key auth requester cap clock).2.entries[key]? := by
  unfold Store.extendAuthenticated Store.extendAuthenticatedAsking
  split
  · exact .stays _ (stays_refl _)
  rename_i hcap
  split
  · exact .stays _ (stays_refl _)
  rename_i e he
  simp only [evaluate_fst]
  split
  · rename_i hstate
    have hnow := hin e he hstate
    rw [evaluate_of_live (by rw [hstate]; decide)]
    exact outcome_extended 1 he hnow.1 hnow.2
  · rename_i hstate
    rw [Asking.answer_ask]
    split
    · exact .stays _ (stays_put he (remains_evaluate e _))
    · rename_i hauth
      exact absurd ⟨⟨key, .extend, requester⟩, prompt_of_softExpired hcap he hstate, rfl, hauth⟩
        hunapproved
  · exact .stays _ (stays_put he (remains_evaluate e _))

theorem stays_pinAuthenticated {deadline : Monotonic} {auth : Authenticator}
    {requester : Option (List ProcessInfo)} {cap : Capability}
    (hunapproved : ¬ Approved auth (s.pinAuthenticatedCalls key deadline auth requester cap clock) key) :
    Stays s.entries[key]?
      (s.pinAuthenticated key deadline auth requester cap clock).2.entries[key]? := by
  unfold Store.pinAuthenticated Store.pinAuthenticatedAsking
  split
  · exact stays_refl _
  rename_i hcap
  split
  · exact stays_refl _
  rename_i e he
  split
  · exact stays_refl _
  rename_i hlive
  rw [Asking.answer_ask]
  split
  · exact stays_refl _
  rename_i hauth
  refine absurd ⟨⟨key, .pin, requester⟩, ?_, rfl, hauth⟩ hunapproved
  unfold Store.pinAuthenticatedCalls Store.pinAuthenticatedAsking
  simp [hcap, he, hlive]

/-- A fetch that installs nothing. -/
theorem stays_fetch {runner : SourceRunner} {auth : Authenticator}
    {requester : Option (List ProcessInfo)} {hard : Option Duration} {ok : Bool}
    {calls : List ExternalCall}
    (h : s.Fetches key runner auth requester clock hard ok calls s') (hfailed : ok = false) :
    Stays s.entries[key]? s'.entries[key]? := by
  cases h with
  | refused _ hs => exact stays_swept hs
  | failed s₁ hs _ argv cwd env e hrun =>
    have hentries : (s₁.recordFailure key (clock.now 2)).entries = s₁.entries := by
      unfold Store.recordFailure
      split <;> rfl
    rw [hentries]
    exact stays_swept hs
  | denied _ hs => exact stays_swept hs
  | installed => cases hfailed

variable {runner : SourceRunner} {auth : Authenticator} {requester : Option (List ProcessInfo)}
  {cap : Capability}

theorem regenerate_approved (h : (s.regenerate key runner auth requester cap clock).1 = .ok ()) :
    Approved auth (s.regenerateCalls key runner auth requester cap clock) key := by
  revert h
  unfold Store.regenerate Store.regenerateCalls Store.regenerateAsking
  cases s.checkCap cap with
  | error e => exact fun h => by cases h
  | ok _ =>
  cases s.failureBackoffRemaining key (clock.now 0) with
  | some remaining => exact fun h => by cases h
  | none =>
  cases s.entries[key]? with
  | none => exact fun h => by cases h
  | some entry =>
  cases hsource : entry.source with
  | static =>
    simp only [hsource]
    exact fun h => by cases h
  | command argv cwd env =>
    simp only [hsource]
    split
    · exact fun h => by cases h
    simp only [Asking.answer_ask, Asking.asked_ask, outside_run]
    cases runner argv cwd env with
    | error e => exact fun h => by cases h
    | ok value =>
      simp only [Asking.answer_ask, Asking.asked_ask, outside_prompt]
      cases hauth : auth ⟨key, .regenerate, requester⟩ with
      | error e => exact fun h => by cases h
      | ok _ => exact fun _ => ⟨⟨key, .regenerate, requester⟩, by simp, rfl, hauth⟩

theorem getOrRegenerate_approved
    (h : (s.getOrRegenerate key runner auth requester cap clock).1 = .ok ()) :
    Approved auth (s.getOrRegenerateCalls key runner auth requester cap clock) key := by
  revert h
  unfold Store.getOrRegenerate Store.getOrRegenerateCalls Store.getOrRegenerateAsking
  cases s.checkCap cap with
  | error e => exact fun h => by cases h
  | ok _ =>
  cases s.definitions[key]? with
  | none => exact fun h => by cases h
  | some definition =>
  simp only
  split
  · exact fun h => by cases h
  cases (s.stateOf key (clock.now 0)).2.failureBackoffRemaining key (clock.now 1) with
  | some remaining => exact fun h => by cases h
  | none =>
  cases definition.source with
  | static => exact fun h => by cases h
  | command argv cwd env =>
    simp only [Asking.answer_ask, Asking.asked_ask, outside_run]
    cases runner argv cwd env with
    | error e => exact fun h => by cases h
    | ok value =>
      simp only [Asking.answer_ask, Asking.asked_ask, outside_prompt]
      cases hauth : auth ⟨key, .regenerate, requester⟩ with
      | error e => exact fun h => by cases h
      | ok _ => exact fun _ => ⟨⟨key, .regenerate, requester⟩, by simp, rfl, hauth⟩

theorem isOk_iff {ε : Type} {r : Except ε Unit} : r.isOk = true ↔ r = .ok () := by
  cases r with
  | error e => simp [Except.isOk, Except.toBool]
  | ok u => simp [Except.isOk, Except.toBool]

theorem stays_regenerate
    (hunapproved : ¬ Approved auth (s.regenerateCalls key runner auth requester cap clock) key) :
    Stays s.entries[key]?
      (s.regenerate key runner auth requester cap clock).2.entries[key]? := by
  apply stays_fetch (s.regenerate_fetches key runner auth requester cap clock)
  rw [Bool.eq_false_iff]
  exact fun h => hunapproved (regenerate_approved (isOk_iff.mp h))

theorem stays_getOrRegenerate
    (hunapproved : ¬ Approved auth (s.getOrRegenerateCalls key runner auth requester cap clock) key) :
    Stays s.entries[key]?
      (s.getOrRegenerate key runner auth requester cap clock).2.entries[key]? := by
  apply stays_fetch (s.getOrRegenerate_fetches key runner auth requester cap clock)
  rw [Bool.eq_false_iff]
  exact fun h => hunapproved (getOrRegenerate_approved (isOk_iff.mp h))

theorem stays_delete : Stays s.entries[key]? (s.delete key cap).2.entries[key]? := by
  unfold Store.delete
  split
  · exact stays_refl _
  · rw [KeyMap.get_erase_self]
    exact stays_none _

theorem stays_deleteWithDefinition :
    Stays s.entries[key]? (s.deleteWithDefinition key cap).2.entries[key]? := by
  unfold Store.deleteWithDefinition
  split
  · exact stays_refl _
  · rw [KeyMap.get_erase_self]
    exact stays_none _

theorem stays_defineWithMeta (source : ValueSource) (ttl : Ttl) (valueMeta : ValueMeta)
    (sourceMeta : SourceMeta) :
    Stays s.entries[key]?
      (s.defineWithMeta key source ttl valueMeta sourceMeta).2.entries[key]? := by
  rw [Store.entries_defineWithMeta]
  exact stays_refl _

theorem outcome_op (op : StoreOp) (hin : op.InTime clock s)
    (hunapproved : ¬ Approved op.auth (op.calls clock s) op.key) (hset : op.isSet = false) :
    WindowOutcome s.entries[op.key]? clock (op.apply clock s).entries[op.key]? := by
  cases op with
  | set key source value ttl cap => cases hset
  | get key cap => exact .stays _ (stays_get cap _)
  | stateOf key => exact .stays _ (stays_stateOf _)
  | entryStatePure key => exact .stays _ (stays_refl _)
  | extend key cap => exact outcome_extend hin
  | extendAuthenticated key auth requester cap => exact outcome_extendAuthenticated hin hunapproved
  | pinAuthenticated key deadline auth requester cap =>
    exact .stays _ (stays_pinAuthenticated hunapproved)
  | unpin key cap => exact .stays _ (stays_unpin cap)
  | regenerate key runner auth requester cap => exact .stays _ (stays_regenerate hunapproved)
  | getOrRegenerate key runner auth requester cap =>
    exact .stays _ (stays_getOrRegenerate hunapproved)
  | delete key cap => exact .stays _ stays_delete
  | deleteWithDefinition key cap => exact .stays _ stays_deleteWithDefinition
  | defineWithMeta key source ttl valueMeta sourceMeta =>
    exact .stays _ (stays_defineWithMeta source ttl valueMeta sourceMeta)
  | undefine key => exact .stays _ (stays_refl _)

end Operations

end CacheWarden
