import CacheWarden.Lifetime
import CacheWarden.SystemClock

/-!
# Loads

What an operation can make of the entry of its key: nothing, the same load with
a moved window or a pin or without its value, or a load of its own, which its
history then records. A load is noted on the timeline of instants, so that it
can be followed from one process to the next.
-/

set_option autoImplicit false

namespace CacheWarden

open Store

/-- A secret as it was loaded, in nanoseconds of the timeline: when, the latest
base of a clock it was carried to since, and what the restarts since can have
added to its life. -/
structure Load where
  value : Bytes
  loadedAt : ℕ
  hard : Option Duration
  reach : ℕ
  delay : ℕ
  deriving DecidableEq

namespace Load

def expiry (self : Load) (hard : Duration) : ℕ :=
  max self.loadedAt self.reach + hard.nanos + self.delay

def note (base : Instant) (load : Option Load) : StoreEvent → Option Load
  | .installed value time hard => some ⟨value, base.nanos + time.offset.nanos, hard, 0, 0⟩
  | _ => load

/-- Carried to a clock with this base by an export that read the two clocks
`spread` nanoseconds apart. -/
def carried (self : Load) (base : Instant) (spread : ℕ) : Load :=
  { self with
    reach := max self.reach base.nanos
    delay := self.delay + (spread + 2000000) }

end Load

section Operations

/-- The same load of the same value, or what is left of it. -/
structure SameLoad (e e' : CacheEntry) : Prop where
  loadedAt : e'.loadedAt = e.loadedAt
  hard : e'.ttl.hard = e.ttl.hard
  value : ∀ v, e'.value = some v → e.value = some v

theorem sameLoad_refl (e : CacheEntry) : SameLoad e e := ⟨rfl, rfl, fun _ hv => hv⟩

theorem SameLoad.trans {e e' e'' : CacheEntry} (h : SameLoad e e') (h' : SameLoad e' e'') :
    SameLoad e e'' where
  loadedAt := h'.loadedAt.trans h.loadedAt
  hard := h'.hard.trans h.hard
  value v hv := h.value v (h'.value v hv)

theorem sameLoad_zeroize (e : CacheEntry) : SameLoad e e.zeroizeValue where
  loadedAt := rfl
  hard := rfl
  value v hv := by cases hv

theorem sameLoad_evaluate (e : CacheEntry) (now : Monotonic) : SameLoad e (e.evaluate now).2 := by
  rw [CacheEntry.evaluate_snd]
  split
  · exact sameLoad_zeroize e
  · exact sameLoad_refl e

theorem sameLoad_get (e : CacheEntry) (now : Monotonic) : SameLoad e (e.get now).2 := by
  rw [CacheEntry.get_snd]
  exact sameLoad_evaluate e now

theorem sameLoad_extend (e : CacheEntry) (clock : Clock) : SameLoad e (e.extend clock).2 := by
  have hevaluate := sameLoad_evaluate e (clock.now 0)
  unfold CacheEntry.extend
  split
  · rename_i e' he
    rw [he] at hevaluate
    exact hevaluate
  · rename_i s e' hs he
    rw [he] at hevaluate
    exact ⟨hevaluate.loadedAt, hevaluate.hard, hevaluate.value⟩

theorem sameLoad_pinUntil (e : CacheEntry) (deadline now : Monotonic) :
    SameLoad e (e.pinUntil deadline now).2 := by
  have hevaluate := sameLoad_evaluate e now
  unfold CacheEntry.pinUntil
  split
  · rename_i e' he
    rw [he] at hevaluate
    exact hevaluate
  · rename_i s e' hs he
    rw [he] at hevaluate
    exact ⟨hevaluate.loadedAt, hevaluate.hard, hevaluate.value⟩

theorem sameLoad_unpin (e : CacheEntry) : SameLoad e e.unpin := ⟨rfl, rfl, fun _ hv => hv⟩

/-- The events record no load. -/
def Unloading (events : List StoreEvent) : Prop :=
  ∀ base load, events.foldl (Load.note base) load = load

theorem unloading_nil : Unloading [] := fun _ _ => rfl

/-- What an operation makes of the entry of its key. -/
inductive Reloads (before : Option CacheEntry) (clock : Clock) (events : List StoreEvent) :
    Option CacheEntry → Prop
  | absent : Reloads before clock events none
  | kept (e e' : CacheEntry) (he : before = some e) (hsame : SameLoad e e')
      (hevents : Unloading events) : Reloads before clock events (some e')
  | loaded (e' : CacheEntry) (value : Bytes) (hvalue : e'.value = some value)
      (hlast : e'.loadedAt ≤ clock.last)
      (hevents : ∀ base load, events.foldl (Load.note base) load =
        some ⟨value, base.nanos + e'.loadedAt.offset.nanos, e'.ttl.hard, 0, 0⟩) :
      Reloads before clock events (some e')

variable {s s' : Store} {key : String} {clock : Clock} {events : List StoreEvent}

theorem reloads_same (hevents : Unloading events) :
    Reloads s.entries[key]? clock events s.entries[key]? := by
  cases he : s.entries[key]? with
  | none => exact .absent
  | some e => exact .kept e e rfl (sameLoad_refl e) hevents

theorem reloads_put {e e' : CacheEntry} (he : s.entries[key]? = some e) (hsame : SameLoad e e')
    (hevents : Unloading events) :
    Reloads s.entries[key]? clock events (s.putEntry key e').entries[key]? := by
  rw [putEntry_get]
  exact .kept e e' he hsame hevents

theorem unloading_report (p : Prop) [Decidable p] :
    Unloading (if p then [.reportedHardExpired] else []) := by
  intro base load
  split <;> rfl

theorem swept_entry {t : Monotonic} (h : s.Swept key t s') (hevents : Unloading events) :
    Reloads s.entries[key]? clock events s'.entries[key]? := by
  cases h with
  | same => exact reloads_same hevents
  | destroyed e he hstate => exact reloads_put he (sameLoad_zeroize e) hevents

theorem reloads_fetch {runner : SourceRunner} {auth : Authenticator}
    {requester : Option (List ProcessInfo)} {hard : Option Duration} {ok : Bool}
    {calls : List ExternalCall}
    (hf : s.Fetches key runner auth requester clock hard ok calls s') :
    Reloads s.entries[key]? clock (StoreOp.fetchEvents ok runner clock calls hard)
      s'.entries[key]? := by
  cases hf with
  | refused _ hs => exact swept_entry hs unloading_nil
  | failed s₁ hs hidle argv cwd env e hrun =>
    have hevents : StoreOp.fetchEvents false runner clock [.run argv cwd env] hard =
        [.ran true (clock.now 1) (clock.now 2)] := by
      simp [StoreOp.fetchEvents, StoreOp.runEvents, hrun, Except.toOption]
    have hentries : (s₁.recordFailure key (clock.now 2)).entries = s₁.entries := by
      unfold Store.recordFailure
      split <;> rfl
    rw [hevents, hentries]
    exact swept_entry hs (fun _ _ => rfl)
  | denied _ hs hidle argv cwd env value hrun =>
    have hevents : StoreOp.fetchEvents false runner clock
        [.run argv cwd env, .prompt ⟨key, .regenerate, requester⟩] hard =
        [.ran false (clock.now 1) (clock.now 2)] := by
      simp [StoreOp.fetchEvents, StoreOp.runEvents, hrun, Except.toOption]
    rw [hevents]
    exact swept_entry hs (fun _ _ => rfl)
  | installed s₁ hs hidle argv cwd env value ttl hrun hhard =>
    have hevents : StoreOp.fetchEvents true runner clock
        [.run argv cwd env, .prompt ⟨key, .regenerate, requester⟩] hard =
        [.ran false (clock.now 1) (clock.now 2), .installed value (clock.now 2) hard] := by
      simp [StoreOp.fetchEvents, StoreOp.runEvents, hrun, Except.toOption]
    have hinstalled : (s₁.installFetched key (CacheEntry.new (.command argv cwd env) value ttl
        (clock.now 2))).entries[key]? =
        some (CacheEntry.new (.command argv cwd env) value ttl (clock.now 2)) :=
      KeyMap.get_insert_self _ _ _
    rw [hevents, hinstalled, ← hhard]
    exact .loaded _ value rfl (clock.le_last 2) (fun _ _ => rfl)

theorem reloads_set (source : ValueSource) (value : Bytes) (ttl : Ttl) (cap : Capability) :
    Reloads s.entries[key]? clock ((StoreOp.set key source value ttl cap).events clock s)
      (s.set key source value ttl cap (clock.now 0)).2.entries[key]? := by
  simp only [StoreOp.events]
  unfold Store.set
  cases s.checkCap cap with
  | error err => exact reloads_same unloading_nil
  | ok _ =>
  cases validateKeySyntax key with
  | error err => exact reloads_same unloading_nil
  | ok _ =>
    simp only [putEntry_get]
    exact .loaded _ value rfl (clock.le_last 0) (fun _ _ => rfl)

theorem reloads_get (cap : Capability) :
    Reloads s.entries[key]? clock ((StoreOp.get key cap).events clock s)
      (s.get key cap (clock.now 0)).2.entries[key]? := by
  have hevents : Unloading ((StoreOp.get key cap).events clock s) := by
    intro base load
    simp only [StoreOp.events]
    split <;> rfl
  unfold Store.get
  split
  · exact reloads_same hevents
  split
  · exact reloads_same hevents
  rename_i entry he
  exact reloads_put he (sameLoad_get entry _) hevents

theorem reloads_stateOf :
    Reloads s.entries[key]? clock ((StoreOp.stateOf key).events clock s)
      (s.stateOf key (clock.now 0)).2.entries[key]? :=
  swept_entry (s.stateOf_swept key clock) (unloading_report _)

theorem reloads_extend (cap : Capability) :
    Reloads s.entries[key]? clock ((StoreOp.extend key cap).events clock s)
      (s.extend key cap clock).2.entries[key]? := by
  have hevents : Unloading ((StoreOp.extend key cap).events clock s) := by
    intro base load
    simp only [StoreOp.events]
    split <;> rfl
  unfold Store.extend
  split
  · exact reloads_same hevents
  split
  · exact reloads_same hevents
  rename_i entry he
  exact reloads_put he (sameLoad_extend entry clock) hevents

theorem reloads_extendAuthenticated (auth : Authenticator)
    (requester : Option (List ProcessInfo)) (cap : Capability) :
    Reloads s.entries[key]? clock
      ((StoreOp.extendAuthenticated key auth requester cap).events clock s)
      (s.extendAuthenticated key auth requester cap clock).2.entries[key]? := by
  have hevents : Unloading
      ((StoreOp.extendAuthenticated key auth requester cap).events clock s) := by
    intro base load
    simp only [StoreOp.events]
    split <;> rfl
  unfold Store.extendAuthenticated Store.extendAuthenticatedAsking
  split
  · exact reloads_same hevents
  split
  · exact reloads_same hevents
  rename_i entry he
  have hevaluated := sameLoad_evaluate entry (clock.now 0)
  have hextended := hevaluated.trans
    (sameLoad_extend (entry.evaluate (clock.now 0)).2 (clock.after 1))
  simp only
  split
  · exact reloads_put he hextended hevents
  · rw [Asking.answer_ask]
    split
    · exact reloads_put he hevaluated hevents
    · exact reloads_put he hextended hevents
  · exact reloads_put he hevaluated hevents

theorem reloads_pinAuthenticated (deadline : Monotonic) (auth : Authenticator)
    (requester : Option (List ProcessInfo)) (cap : Capability) :
    Reloads s.entries[key]? clock
      ((StoreOp.pinAuthenticated key deadline auth requester cap).events clock s)
      (s.pinAuthenticated key deadline auth requester cap clock).2.entries[key]? := by
  have hevents : Unloading
      ((StoreOp.pinAuthenticated key deadline auth requester cap).events clock s) := by
    intro base load
    simp only [StoreOp.events]
    split <;> split <;> rfl
  unfold Store.pinAuthenticated Store.pinAuthenticatedAsking
  split
  · exact reloads_same hevents
  split
  · exact reloads_same hevents
  rename_i entry he
  split
  · exact reloads_same hevents
  rw [Asking.answer_ask]
  split
  · exact reloads_same hevents
  · exact reloads_put he (sameLoad_pinUntil entry deadline (clock.now 1)) hevents

theorem reloads_unpin (cap : Capability) :
    Reloads s.entries[key]? clock ((StoreOp.unpin key cap).events clock s)
      (s.unpin key cap).2.entries[key]? := by
  unfold Store.unpin
  split
  · exact reloads_same unloading_nil
  split
  · exact reloads_same unloading_nil
  rename_i entry he
  exact reloads_put he (sameLoad_unpin entry) unloading_nil

theorem reloads_op (op : StoreOp) :
    Reloads s.entries[op.key]? clock (op.events clock s) (op.apply clock s).entries[op.key]? := by
  cases op with
  | set key source value ttl cap => exact reloads_set source value ttl cap
  | get key cap => exact reloads_get cap
  | stateOf key => exact reloads_stateOf
  | entryStatePure key => exact reloads_same (unloading_report _)
  | extend key cap => exact reloads_extend cap
  | extendAuthenticated key auth requester cap =>
    exact reloads_extendAuthenticated auth requester cap
  | pinAuthenticated key deadline auth requester cap =>
    exact reloads_pinAuthenticated deadline auth requester cap
  | unpin key cap => exact reloads_unpin cap
  | regenerate key runner auth requester cap =>
    exact reloads_fetch (s.regenerate_fetches key runner auth requester cap clock)
  | getOrRegenerate key runner auth requester cap =>
    exact reloads_fetch (s.getOrRegenerate_fetches key runner auth requester cap clock)
  | delete key cap =>
    show Reloads _ _ [] (s.delete key cap).2.entries[key]?
    unfold Store.delete
    split
    · exact reloads_same unloading_nil
    · simp only [KeyMap.get_erase_self]
      exact .absent
  | deleteWithDefinition key cap =>
    have hevents : Unloading ((StoreOp.deleteWithDefinition key cap).events clock s) := by
      intro base load
      simp only [StoreOp.events]
      split <;> rfl
    show Reloads _ _ _ (s.deleteWithDefinition key cap).2.entries[key]?
    unfold Store.deleteWithDefinition
    split
    · exact reloads_same hevents
    · simp only [KeyMap.get_erase_self]
      exact .absent
  | defineWithMeta key source ttl valueMeta sourceMeta =>
    show Reloads _ _ [] (s.defineWithMeta key source ttl valueMeta sourceMeta).2.entries[key]?
    rw [Store.entries_defineWithMeta]
    exact reloads_same unloading_nil
  | undefine key => exact reloads_same unloading_nil

end Operations

end CacheWarden
