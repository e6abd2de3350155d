import CacheWarden.Lib.Transition
import CacheWarden.StoreCalls

/-!
# Runs of store operations

A run is a list of operations, each with the readings of one clock that never
goes back. What an observer of the store can record of a key is its history:
installations, approved pins, reports of hard expiry, secrets handed out, and
runs of its command.
-/

set_option autoImplicit false

namespace CacheWarden

inductive StoreOp where
  | set (key : String) (source : ValueSource) (value : Bytes) (ttl : Ttl) (cap : Capability)
  | get (key : String) (cap : Capability)
  | stateOf (key : String)
  | entryStatePure (key : String)
  | extend (key : String) (cap : Capability)
  | extendAuthenticated (key : String) (auth : Authenticator)
      (requester : Option (List ProcessInfo)) (cap : Capability)
  | pinAuthenticated (key : String) (deadline : Monotonic) (auth : Authenticator)
      (requester : Option (List ProcessInfo)) (cap : Capability)
  | unpin (key : String) (cap : Capability)
  | regenerate (key : String) (runner : SourceRunner) (auth : Authenticator)
      (requester : Option (List ProcessInfo)) (cap : Capability)
  | getOrRegenerate (key : String) (runner : SourceRunner) (auth : Authenticator)
      (requester : Option (List ProcessInfo)) (cap : Capability)
  | delete (key : String) (cap : Capability)
  | deleteWithDefinition (key : String) (cap : Capability)
  | defineWithMeta (key : String) (source : ValueSource) (ttl : Ttl) (valueMeta : ValueMeta)
      (sourceMeta : SourceMeta)
  | undefine (key : String)

inductive StoreEvent where
  | installed (value : Bytes) (time : Monotonic) (hard : Option Duration)
  | pinApproved (deadline time : Monotonic)
  | reportedHardExpired
  | returned (value : Bytes) (time : Monotonic)
  | ran (failed : Bool) (began ended : Monotonic)
  | forgotten
  deriving DecidableEq

namespace StoreOp

def key : StoreOp → String
  | .set key .. => key
  | .get key _ => key
  | .stateOf key => key
  | .entryStatePure key => key
  | .extend key _ => key
  | .extendAuthenticated key .. => key
  | .pinAuthenticated key .. => key
  | .unpin key _ => key
  | .regenerate key .. => key
  | .getOrRegenerate key .. => key
  | .delete key _ => key
  | .deleteWithDefinition key _ => key
  | .defineWithMeta key .. => key
  | .undefine key => key

def apply (clock : Clock) (s : Store) : StoreOp → Store
  | .set key source value ttl cap => (s.set key source value ttl cap (clock.now 0)).2
  | .get key cap => (s.get key cap (clock.now 0)).2
  | .stateOf key => (s.stateOf key (clock.now 0)).2
  | .entryStatePure _ => s
  | .extend key cap => (s.extend key cap clock).2
  | .extendAuthenticated key auth requester cap =>
    (s.extendAuthenticated key auth requester cap clock).2
  | .pinAuthenticated key deadline auth requester cap =>
    (s.pinAuthenticated key deadline auth requester cap clock).2
  | .unpin key cap => (s.unpin key cap).2
  | .regenerate key runner auth requester cap =>
    (s.regenerate key runner auth requester cap clock).2
  | .getOrRegenerate key runner auth requester cap =>
    (s.getOrRegenerate key runner auth requester cap clock).2
  | .delete key cap => (s.delete key cap).2
  | .deleteWithDefinition key cap => (s.deleteWithDefinition key cap).2
  | .defineWithMeta key source ttl valueMeta sourceMeta =>
    (s.defineWithMeta key source ttl valueMeta sourceMeta).2
  | .undefine key => (s.undefine key).2

/-- The runs among the calls of a fetch. The last reading before the command
starts is the second, the first after it the third. -/
def runEvents (runner : SourceRunner) (clock : Clock) (calls : List ExternalCall) :
    List StoreEvent :=
  calls.filterMap fun
    | .run argv cwd env =>
      some (.ran (runner argv cwd env).toOption.isNone (clock.now 1) (clock.now 2))
    | .prompt _ => none

/-- The value a fetch that succeeded has installed is what its command gave. -/
def fetchEvents (ok : Bool) (runner : SourceRunner) (clock : Clock) (calls : List ExternalCall)
    (hard : Option Duration) : List StoreEvent :=
  runEvents runner clock calls ++
    if ok then
      calls.filterMap fun
        | .run argv cwd env =>
          (runner argv cwd env).toOption.map fun value => .installed value (clock.now 2) hard
        | .prompt _ => none
    else []

/-- What the operation adds to the history of its key. -/
def events (clock : Clock) (s : Store) : StoreOp → List StoreEvent
  | .set key source value ttl cap =>
    match (s.set key source value ttl cap (clock.now 0)).1 with
    | .ok () => [.installed value (clock.now 0) ttl.hard]
    | .error _ => []
  | .get key cap =>
    match (s.get key cap (clock.now 0)).1 with
    | .ok (some value) => [.returned value (clock.now 0)]
    | _ => []
  | .stateOf key =>
    if (s.stateOf key (clock.now 0)).1 = some .hardExpired then [.reportedHardExpired] else []
  | .entryStatePure key =>
    if s.entryStatePure key (clock.now 0) = some .hardExpired then [.reportedHardExpired] else []
  | .extend key cap =>
    match (s.extend key cap clock).1 with
    | .error .hardExpired => [.reportedHardExpired]
    | _ => []
  | .extendAuthenticated key auth requester cap =>
    match (s.extendAuthenticated key auth requester cap clock).1 with
    | .error .hardExpired => [.reportedHardExpired]
    | _ => []
  | .pinAuthenticated key deadline auth requester cap =>
    let ctx : AuthContext := ⟨key, .pin, requester⟩
    (if .prompt ctx ∈ s.pinAuthenticatedCalls key deadline auth requester cap clock ∧
        (auth ctx).toOption.isSome then [.pinApproved deadline (clock.now 1)] else []) ++
      match (s.pinAuthenticated key deadline auth requester cap clock).1 with
      | .error .hardExpired => [.reportedHardExpired]
      | _ => []
  | .regenerate key runner auth requester cap =>
    fetchEvents (s.regenerate key runner auth requester cap clock).1.isOk runner clock
      (s.regenerateCalls key runner auth requester cap clock) ((s.entries[key]?).bind (·.ttl.hard))
  | .getOrRegenerate key runner auth requester cap =>
    fetchEvents (s.getOrRegenerate key runner auth requester cap clock).1.isOk runner clock
      (s.getOrRegenerateCalls key runner auth requester cap clock)
      ((s.definitions[key]?).bind (·.ttl.hard))
  | .deleteWithDefinition key cap =>
    match (s.deleteWithDefinition key cap).1 with
    | .ok _ => [.forgotten]
    | .error _ => []
  | _ => []

end StoreOp

/-- A store at work: its contents, how far the clock has gone, and the history
of each key. -/
structure Execution where
  store : Store
  now : Monotonic
  history : String → List StoreEvent

namespace Execution

def start (token : BitVec 128) (failureBackoffDuration : Duration) : Execution where
  store := Store.newWithToken token failureBackoffDuration
  now := Monotonic.zero
  history _ := []

def step (self : Execution) (op : StoreOp × Clock) : Execution :=
  let clock := op.2.since self.now
  { store := op.1.apply clock self.store
    now := clock.last
    history := fun k =>
      if k = op.1.key then self.history k ++ op.1.events clock self.store else self.history k }

end Execution

namespace CacheEntry

/-- An entry that has hard-expired stays so. -/
theorem state_hardExpired_mono {e : CacheEntry} {t u : Monotonic} (htu : t ≤ u)
    (h : e.state t = .hardExpired) : e.state u = .hardExpired := by
  rw [Monotonic.le_iff] at htu
  unfold state at h ⊢
  by_cases hlatch : (e.hardExpired || e.value.isNone) = true
  · rw [if_pos hlatch]
  rw [if_neg hlatch] at h ⊢
  by_cases hpin : e.pinDeadline.any (t < ·) = true
  · rw [if_pos hpin] at h
    cases h
  rw [if_neg hpin] at h
  have hpin' : ¬ e.pinDeadline.any (u < ·) = true := by
    intro hu
    apply hpin
    cases hd : e.pinDeadline with
    | none => simp [hd] at hu
    | some d =>
      simp only [hd, Option.any_some, decide_eq_true_eq, Monotonic.lt_iff] at hu ⊢
      omega
  rw [if_neg hpin']
  by_cases hhard : e.ttl.hard.any (· ≤ t.saturatingDurationSince e.loadedAt) = true
  · have hhard' : e.ttl.hard.any (· ≤ u.saturatingDurationSince e.loadedAt) = true := by
      cases hd : e.ttl.hard with
      | none => simp [hd] at hhard
      | some d =>
        simp only [hd, Option.any_some, decide_eq_true_eq, Duration.le_iff,
          Monotonic.nanos_saturatingDurationSince] at hhard ⊢
        omega
    rw [if_pos hhard']
  · rw [if_neg hhard] at h
    by_cases hsoft : e.ttl.soft.any (· ≤ t.saturatingDurationSince e.extendedAt) = true
    · rw [if_pos hsoft] at h
      cases h
    · rw [if_neg hsoft] at h
      cases h

end CacheEntry

namespace Store

/-- A backoff that has run out stays so. -/
theorem failureBackoffRemaining_none_mono {s : Store} {key : String} {t u : Monotonic}
    (htu : t ≤ u) (h : s.failureBackoffRemaining key t = none) :
    s.failureBackoffRemaining key u = none := by
  rw [Monotonic.le_iff] at htu
  unfold failureBackoffRemaining at h ⊢
  split at h
  · rfl
  rename_i record hrecord
  by_cases hzero : record.retryAfter = Duration.zero
  · rw [if_pos hzero]
  rw [if_neg hzero] at h ⊢
  simp only at h ⊢
  by_cases hlt : t.saturatingDurationSince record.failedAt < record.retryAfter
  · rw [if_pos hlt] at h
    cases h
  · apply if_neg
    rw [Duration.lt_iff, Monotonic.nanos_saturatingDurationSince] at hlt ⊢
    omega

/-- The store as it is, or with a value that has hard-expired destroyed. -/
inductive Swept (s : Store) (key : String) (t : Monotonic) : Store → Prop
  | same : Swept s key t s
  | destroyed (e : CacheEntry) (he : s.entries[key]? = some e) (hstate : e.state t = .hardExpired) :
      Swept s key t (s.putEntry key e.zeroizeValue)

/-- Nothing stands in the way of a fetch: no value that has not hard-expired,
and no backoff. -/
structure Idle (s : Store) (key : String) (t : Monotonic) : Prop where
  resident : ∀ e, s.entries[key]? = some e → e.state t = .hardExpired
  backoff : s.failureBackoffRemaining key t = none

/-- What one fetch does, on either path: whether it succeeds, the calls it
makes and the store it leaves. -/
inductive Fetches (s : Store) (key : String) (runner : SourceRunner) (auth : Authenticator)
    (requester : Option (List ProcessInfo)) (clock : Clock) (hard : Option Duration) :
    Bool → List ExternalCall → Store → Prop
  | refused (s₁ : Store) (hs : Swept s key (clock.now 1) s₁) :
      Fetches s key runner auth requester clock hard false [] s₁
  | failed (s₁ : Store) (hs : Swept s key (clock.now 1) s₁) (hidle : s.Idle key (clock.now 1))
      (argv : List String) (cwd : Option OsPath) (env : KeyMap String) (e : RunError)
      (hrun : runner argv cwd env = .error e) :
      Fetches s key runner auth requester clock hard false [.run argv cwd env]
        (s₁.recordFailure key (clock.now 2))
  | denied (s₁ : Store) (hs : Swept s key (clock.now 1) s₁) (hidle : s.Idle key (clock.now 1))
      (argv : List String) (cwd : Option OsPath) (env : KeyMap String) (value : Bytes)
      (hrun : runner argv cwd env = .ok value) :
      Fetches s key runner auth requester clock hard false
        [.run argv cwd env, .prompt ⟨key, .regenerate, requester⟩] s₁
  | installed (s₁ : Store) (hs : Swept s key (clock.now 1) s₁) (hidle : s.Idle key (clock.now 1))
      (argv : List String) (cwd : Option OsPath) (env : KeyMap String) (value : Bytes) (ttl : Ttl)
      (hrun : runner argv cwd env = .ok value) (hhard : ttl.hard = hard) :
      Fetches s key runner auth requester clock hard true
        [.run argv cwd env, .prompt ⟨key, .regenerate, requester⟩]
        (s₁.installFetched key (CacheEntry.new (.command argv cwd env) value ttl (clock.now 2)))

theorem putEntry_self {s : Store} {key : String} {e : CacheEntry} (he : s.entries[key]? = some e) :
    s.putEntry key e = s := by
  have hentries : s.entries.insert key e = s.entries := by
    apply KeyMap.ext_get
    intro a
    rw [KeyMap.get_insert]
    by_cases ha : key = a
    · rw [if_pos ha, ← ha, he]
    · rw [if_neg ha]
  unfold putEntry
  rw [hentries]

section Paths

variable (s : Store) (key : String) (runner : SourceRunner) (auth : Authenticator)
  (requester : Option (List ProcessInfo)) (cap : Capability) (clock : Clock)

theorem regenerate_fetches :
    Fetches s key runner auth requester clock ((s.entries[key]?).bind (·.ttl.hard))
      (s.regenerate key runner auth requester cap clock).1.isOk
      (s.regenerateCalls key runner auth requester cap clock)
      (s.regenerate key runner auth requester cap clock).2 := by
  unfold regenerate regenerateCalls regenerateAsking
  cases s.checkCap cap with
  | error _ => exact .refused s .same
  | ok _ =>
  cases hbackoff : s.failureBackoffRemaining key (clock.now 0) with
  | some _ => exact .refused s .same
  | none =>
  cases hentry : s.entries[key]? with
  | none => exact .refused s .same
  | some entry =>
  cases hsource : entry.source with
  | static =>
    simp only [hsource]
    exact .refused s .same
  | command argv cwd env =>
  simp only [hsource, CacheEntry.evaluate_fst, CacheEntry.evaluate_snd]
  by_cases hstate : entry.state (clock.now 1) = .hardExpired
  · rw [if_pos hstate, if_neg (not_not_intro hstate)]
    have hs : s.Swept key (clock.now 1) _ := .destroyed entry hentry hstate
    have hidle : s.Idle key (clock.now 1) := by
      refine ⟨?_, failureBackoffRemaining_none_mono (clock.mono 0) hbackoff⟩
      intro e he
      rw [hentry] at he
      cases he
      exact hstate
    rw [Asking.answer_ask, Asking.asked_ask, outside_run]
    cases hrun : runner argv cwd env with
    | error e => exact .failed _ hs hidle argv cwd env e hrun
    | ok value =>
      rw [Asking.answer_ask, Asking.asked_ask, outside_prompt]
      cases auth ⟨key, .regenerate, requester⟩ with
      | error e => exact .denied _ hs hidle argv cwd env value hrun
      | ok _ => exact .installed _ hs hidle argv cwd env value entry.ttl hrun rfl
  · rw [if_neg hstate, if_pos hstate, putEntry_self hentry]
    exact .refused s .same

theorem stateOf_swept : s.Swept key (clock.now 1) (s.stateOf key (clock.now 0)).2 := by
  unfold stateOf
  split
  · exact .same
  rename_i entry hentry
  simp only [CacheEntry.evaluate_snd]
  by_cases hstate : entry.state (clock.now 0) = .hardExpired
  · rw [if_pos hstate]
    exact .destroyed entry hentry (CacheEntry.state_hardExpired_mono (clock.mono 0) hstate)
  · rw [if_neg hstate, putEntry_self hentry]
    exact .same

theorem stateOf_fst (t : Monotonic) : (s.stateOf key t).1 = s.entryStatePure key t := by
  unfold stateOf entryStatePure
  cases hentry : s.entries[key]? with
  | none => rfl
  | some entry => simp

theorem getOrRegenerate_fetches :
    Fetches s key runner auth requester clock ((s.definitions[key]?).bind (·.ttl.hard))
      (s.getOrRegenerate key runner auth requester cap clock).1.isOk
      (s.getOrRegenerateCalls key runner auth requester cap clock)
      (s.getOrRegenerate key runner auth requester cap clock).2 := by
  have hs := s.stateOf_swept key clock
  unfold getOrRegenerate getOrRegenerateCalls getOrRegenerateAsking
  cases s.checkCap cap with
  | error _ => exact .refused s .same
  | ok _ =>
  cases s.definitions[key]? with
  | none => exact .refused s .same
  | some definition =>
  simp only
  by_cases hresident : ((s.stateOf key (clock.now 0)).1.any (· ≠ .hardExpired)) = true
  · rw [if_pos hresident]
    exact .refused _ hs
  rw [if_neg hresident]
  cases hbackoff : (s.stateOf key (clock.now 0)).2.failureBackoffRemaining key (clock.now 1) with
  | some _ => exact .refused _ hs
  | none =>
  cases definition.source with
  | static => exact .refused _ hs
  | command argv cwd env =>
  have hidle : s.Idle key (clock.now 1) := by
    constructor
    · intro e he
      apply CacheEntry.state_hardExpired_mono (clock.mono 0)
      simpa [stateOf_fst, entryStatePure, he] using hresident
    · generalize (s.stateOf key (clock.now 0)).2 = s₁ at hs hbackoff
      cases hs with
      | same => exact hbackoff
      | destroyed e he hstate => exact hbackoff
  simp only [Asking.answer_ask, Asking.asked_ask, outside_run]
  cases hrun : runner argv cwd env with
  | error e => exact .failed _ hs hidle argv cwd env e hrun
  | ok value =>
    simp only [Asking.answer_ask, Asking.asked_ask, outside_prompt]
    cases auth ⟨key, .regenerate, requester⟩ with
    | error e => exact .denied _ hs hidle argv cwd env value hrun
    | ok _ => exact .installed _ hs hidle argv cwd env value definition.ttl hrun rfl

end Paths

/-- Nothing about any other key has changed. -/
structure Elsewhere (key : String) (s s' : Store) : Prop where
  entries : ∀ a, key ≠ a → s'.entries[a]? = s.entries[a]?
  failures : ∀ a, key ≠ a → s'.failureBackoffs[a]? = s.failureBackoffs[a]?
  duration : s'.failureBackoffDuration = s.failureBackoffDuration

section Elsewhere

variable (s : Store) (key : String)

theorem elsewhere_refl : Elsewhere key s s := ⟨fun _ _ => rfl, fun _ _ => rfl, rfl⟩

theorem elsewhere_putEntry (e : CacheEntry) : Elsewhere key s (s.putEntry key e) :=
  ⟨fun _ ha => KeyMap.get_insert_of_ne _ _ ha, fun _ _ => rfl, rfl⟩

theorem elsewhere_recordFailure (t : Monotonic) : Elsewhere key s (s.recordFailure key t) := by
  unfold recordFailure
  by_cases hd : Duration.zero < s.failureBackoffDuration
  · rw [if_pos hd]
    exact ⟨fun _ _ => rfl, fun _ ha => KeyMap.get_insert_of_ne _ _ ha, rfl⟩
  · rw [if_neg hd]
    exact elsewhere_refl s key

theorem elsewhere_installFetched (e : CacheEntry) : Elsewhere key s (s.installFetched key e) :=
  ⟨fun _ ha => KeyMap.get_insert_of_ne _ _ ha, fun _ ha => KeyMap.get_erase_of_ne _ ha, rfl⟩

variable {s key}

theorem Elsewhere.trans {s' s'' : Store} (h : Elsewhere key s s') (h' : Elsewhere key s' s'') :
    Elsewhere key s s'' where
  entries a ha := (h'.entries a ha).trans (h.entries a ha)
  failures a ha := (h'.failures a ha).trans (h.failures a ha)
  duration := h'.duration.trans h.duration

theorem Swept.elsewhere {t : Monotonic} {s' : Store} (h : s.Swept key t s') :
    Elsewhere key s s' := by
  cases h with
  | same => exact elsewhere_refl s key
  | destroyed e he hstate => exact elsewhere_putEntry s key _

theorem Fetches.elsewhere {runner : SourceRunner} {auth : Authenticator}
    {requester : Option (List ProcessInfo)} {clock : Clock} {hard : Option Duration} {ok : Bool}
    {calls : List ExternalCall} {s' : Store}
    (h : s.Fetches key runner auth requester clock hard ok calls s') : Elsewhere key s s' := by
  cases h with
  | refused _ hs => exact hs.elsewhere
  | failed _ hs => exact hs.elsewhere.trans (elsewhere_recordFailure _ _ _)
  | denied _ hs => exact hs.elsewhere
  | installed _ hs => exact hs.elsewhere.trans (elsewhere_installFetched _ _ _)

end Elsewhere

end Store

namespace StoreOp

/-- The operations that touch the failure record of their key. -/
def touchesFailure : StoreOp → Bool
  | .regenerate .. => true
  | .getOrRegenerate .. => true
  | .deleteWithDefinition .. => true
  | _ => false

theorem apply_failureBackoffs (clock : Clock) (s : Store) {op : StoreOp}
    (h : op.touchesFailure = false) :
    (op.apply clock s).failureBackoffs = s.failureBackoffs := by
  cases op with
  | set key source value ttl cap =>
    show (s.set key source value ttl cap (clock.now 0)).2.failureBackoffs = _
    unfold Store.set
    split
    · rfl
    split <;> rfl
  | get key cap =>
    show (s.get key cap (clock.now 0)).2.failureBackoffs = _
    unfold Store.get
    split
    · rfl
    split <;> rfl
  | stateOf key =>
    show (s.stateOf key (clock.now 0)).2.failureBackoffs = _
    unfold Store.stateOf
    split <;> rfl
  | entryStatePure key => rfl
  | extend key cap =>
    show (s.extend key cap clock).2.failureBackoffs = _
    unfold Store.extend
    split
    · rfl
    split <;> rfl
  | extendAuthenticated key auth requester cap =>
    show (s.extendAuthenticated key auth requester cap clock).2.failureBackoffs = _
    unfold Store.extendAuthenticated Store.extendAuthenticatedAsking
    split
    · rfl
    split
    · rfl
    simp only
    split
    · rfl
    · rw [Asking.answer_ask]
      split <;> rfl
    · rfl
  | pinAuthenticated key deadline auth requester cap =>
    show (s.pinAuthenticated key deadline auth requester cap clock).2.failureBackoffs = _
    unfold Store.pinAuthenticated Store.pinAuthenticatedAsking
    split
    · rfl
    split
    · rfl
    split
    · rfl
    rw [Asking.answer_ask]
    split <;> rfl
  | unpin key cap =>
    show (s.unpin key cap).2.failureBackoffs = _
    unfold Store.unpin
    split
    · rfl
    split <;> rfl
  | regenerate key runner auth requester cap => cases h
  | getOrRegenerate key runner auth requester cap => cases h
  | delete key cap =>
    show (s.delete key cap).2.failureBackoffs = _
    unfold Store.delete
    split <;> rfl
  | deleteWithDefinition key cap => cases h
  | defineWithMeta key source ttl valueMeta sourceMeta =>
    show (s.defineWithMeta key source ttl valueMeta sourceMeta).2.failureBackoffs = _
    rcases s.defineWithMeta_cases key source ttl valueMeta sourceMeta with
      ⟨⟨e, h⟩, -⟩ | ⟨-, d, -, ⟨-, h⟩ | ⟨-, h⟩⟩
    all_goals rw [h]
  | undefine key => rfl

theorem apply_elsewhere (clock : Clock) (s : Store) (op : StoreOp) :
    Store.Elsewhere op.key s (op.apply clock s) := by
  cases op with
  | set key source value ttl cap =>
    show Store.Elsewhere key s (s.set key source value ttl cap (clock.now 0)).2
    unfold Store.set
    split
    · exact s.elsewhere_refl key
    split
    · exact s.elsewhere_refl key
    · exact s.elsewhere_putEntry key _
  | get key cap =>
    show Store.Elsewhere key s (s.get key cap (clock.now 0)).2
    unfold Store.get
    split
    · exact s.elsewhere_refl key
    split
    · exact s.elsewhere_refl key
    · exact s.elsewhere_putEntry key _
  | stateOf key =>
    show Store.Elsewhere key s (s.stateOf key (clock.now 0)).2
    unfold Store.stateOf
    split
    · exact s.elsewhere_refl key
    · exact s.elsewhere_putEntry key _
  | entryStatePure key => exact s.elsewhere_refl key
  | extend key cap =>
    show Store.Elsewhere key s (s.extend key cap clock).2
    unfold Store.extend
    split
    · exact s.elsewhere_refl key
    split
    · exact s.elsewhere_refl key
    · exact s.elsewhere_putEntry key _
  | extendAuthenticated key auth requester cap =>
    show Store.Elsewhere key s (s.extendAuthenticated key auth requester cap clock).2
    unfold Store.extendAuthenticated Store.extendAuthenticatedAsking
    split
    · exact s.elsewhere_refl key
    split
    · exact s.elsewhere_refl key
    simp only
    split
    · exact s.elsewhere_putEntry key _
    · rw [Asking.answer_ask]
      split <;> exact s.elsewhere_putEntry key _
    · exact s.elsewhere_putEntry key _
  | pinAuthenticated key deadline auth requester cap =>
    show Store.Elsewhere key s (s.pinAuthenticated key deadline auth requester cap clock).2
    unfold Store.pinAuthenticated Store.pinAuthenticatedAsking
    split
    · exact s.elsewhere_refl key
    split
    · exact s.elsewhere_refl key
    split
    · exact s.elsewhere_refl key
    rw [Asking.answer_ask]
    split
    · exact s.elsewhere_refl key
    · exact s.elsewhere_putEntry key _
  | unpin key cap =>
    show Store.Elsewhere key s (s.unpin key cap).2
    unfold Store.unpin
    split
    · exact s.elsewhere_refl key
    split
    · exact s.elsewhere_refl key
    · exact s.elsewhere_putEntry key _
  | regenerate key runner auth requester cap =>
    exact (s.regenerate_fetches key runner auth requester cap clock).elsewhere
  | getOrRegenerate key runner auth requester cap =>
    exact (s.getOrRegenerate_fetches key runner auth requester cap clock).elsewhere
  | delete key cap =>
    show Store.Elsewhere key s (s.delete key cap).2
    unfold Store.delete
    split
    · exact s.elsewhere_refl key
    · exact ⟨fun _ ha => KeyMap.get_erase_of_ne _ ha, fun _ _ => rfl, rfl⟩
  | deleteWithDefinition key cap =>
    show Store.Elsewhere key s (s.deleteWithDefinition key cap).2
    unfold Store.deleteWithDefinition
    split
    · exact s.elsewhere_refl key
    · exact ⟨fun _ ha => KeyMap.get_erase_of_ne _ ha, fun _ ha => KeyMap.get_erase_of_ne _ ha, rfl⟩
  | defineWithMeta key source ttl valueMeta sourceMeta =>
    show Store.Elsewhere key s (s.defineWithMeta key source ttl valueMeta sourceMeta).2
    rcases s.defineWithMeta_cases key source ttl valueMeta sourceMeta with
      ⟨⟨e, h⟩, -⟩ | ⟨-, d, -, ⟨-, h⟩ | ⟨-, h⟩⟩
    · rw [h]
      exact s.elsewhere_refl key
    · rw [h]
      exact s.elsewhere_refl key
    · rw [h]
      exact ⟨fun _ _ => rfl, fun _ _ => rfl, rfl⟩
  | undefine key => exact ⟨fun _ _ => rfl, fun _ _ => rfl, rfl⟩

end StoreOp

end CacheWarden
