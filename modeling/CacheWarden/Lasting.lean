import CacheWarden.FetchSpacing
import CacheWarden.Lifetime

/-!
# Values without a hard limit

A value whose entry has no hard limit stays until it is set again or deleted.
It may have to be extended before it is read; a fetch finds it in its way,
whatever the definition of its key says.
-/

set_option autoImplicit false

namespace CacheWarden

namespace CacheEntry

/-- The value is in its entry, and no time destroys it. -/
structure Lasting (e : CacheEntry) (v : Bytes) : Prop where
  value : e.value = some v
  hard : e.ttl.hard = none

variable {e : CacheEntry} {v : Bytes}

theorem lasting_new (source : ValueSource) (v : Bytes) (ttl : Ttl) (now : Monotonic)
    (h : ttl.hard = none) : (CacheEntry.new source v ttl now).Lasting v := ⟨rfl, h⟩

theorem Lasting.not_hardExpired (h : e.Lasting v) (now : Monotonic) :
    e.state now ≠ .hardExpired := by
  rw [state_of_value h.value, h.hard]
  split
  · exact fun hs => by cases hs
  split
  · rename_i _ hpast
    cases hpast
  split
  · exact fun hs => by cases hs
  · exact fun hs => by cases hs

theorem Lasting.evaluate (h : e.Lasting v) (now : Monotonic) : (e.evaluate now).2 = e := by
  rw [evaluate_snd, if_neg (h.not_hardExpired now)]

theorem Lasting.get (h : e.Lasting v) (now : Monotonic) : (e.get now).2 = e := by
  rw [get_snd, h.evaluate]

theorem Lasting.extend (h : e.Lasting v) (clock : Clock) : (e.extend clock).2.Lasting v := by
  rw [extend_of_live (h.not_hardExpired (clock.now 0))]
  exact ⟨h.value, h.hard⟩

theorem Lasting.pinUntil (h : e.Lasting v) (deadline now : Monotonic) :
    (e.pinUntil deadline now).2.Lasting v := by
  rw [pinUntil_of_live deadline (h.not_hardExpired now)]
  exact ⟨h.value, h.hard⟩

theorem Lasting.unpin (h : e.Lasting v) : e.unpin.Lasting v := ⟨h.value, h.hard⟩

end CacheEntry

namespace Store

/-- The key has this value for good. -/
def Lasts (s : Store) (key : String) (v : Bytes) : Prop :=
  ∃ e, s.entries[key]? = some e ∧ e.Lasting v

variable {s s' : Store} {key : String} {v : Bytes} {clock : Clock}

theorem lasts_of_entry (h : s.Lasts key v) (heq : s'.entries[key]? = s.entries[key]?) :
    s'.Lasts key v := by
  obtain ⟨e, he, hlasting⟩ := h
  exact ⟨e, heq.trans he, hlasting⟩

theorem lasts_put {e : CacheEntry} (h : e.Lasting v) : (s.putEntry key e).Lasts key v :=
  ⟨e, putEntry_get s key e, h⟩

/-- The value is the one the key has for good. -/
theorem Lasts.value_eq (h : s.Lasts key v) {w : Bytes}
    (hw : (s.entries[key]?).bind CacheEntry.value = some w) : w = v := by
  obtain ⟨e, he, hlasting⟩ := h
  rw [he, Option.bind_some, hlasting.value] at hw
  exact (Option.some.inj hw).symm

theorem Lasts.swept (h : s.Lasts key v) {t : Monotonic} (hs : s.Swept key t s') : s' = s := by
  obtain ⟨e, he, hlasting⟩ := h
  cases hs with
  | same => rfl
  | destroyed e' he' hstate =>
    rw [he] at he'
    cases he'
    exact absurd hstate (hlasting.not_hardExpired t)

/-- A fetch of the key finds the value there, runs nothing and leaves the store
as it is. -/
theorem Lasts.fetches (h : s.Lasts key v) {runner : SourceRunner} {auth : Authenticator}
    {requester : Option (List ProcessInfo)} {hard : Option Duration} {ok : Bool}
    {calls : List ExternalCall}
    (hf : s.Fetches key runner auth requester clock hard ok calls s') :
    ok = false ∧ calls = [] ∧ s' = s := by
  have hbusy : ¬ s.Idle key (clock.now 1) := by
    intro hidle
    obtain ⟨e, he, hlasting⟩ := h
    exact hlasting.not_hardExpired _ (hidle.resident e he)
  cases hf with
  | refused _ hs => exact ⟨rfl, rfl, h.swept hs⟩
  | failed _ _ hidle => exact absurd hidle hbusy
  | denied _ _ hidle => exact absurd hidle hbusy
  | installed _ _ hidle => exact absurd hidle hbusy

/-- A property of what a store has under the key that the operations which read
the key keep, all but the fetch by its definition. -/
structure ReadStable (key : String) (P : Store → Prop) : Prop where
  same : ∀ s s', s'.entries[key]? = s.entries[key]? → P s → P s'
  get : ∀ s cap now, P s → P (s.get key cap now).2
  stateOf : ∀ s now, P s → P (s.stateOf key now).2
  extend : ∀ s cap clock, P s → P (s.extend key cap clock).2
  extendAuthenticated : ∀ s auth requester cap clock, P s →
    P (s.extendAuthenticated key auth requester cap clock).2
  pinAuthenticated : ∀ s deadline auth requester cap clock, P s →
    P (s.pinAuthenticated key deadline auth requester cap clock).2
  unpin : ∀ s cap, P s → P (s.unpin key cap).2
  regenerate : ∀ s runner auth requester cap clock, P s →
    P (s.regenerate key runner auth requester cap clock).2

section Lasting

variable {s : Store} {key : String} {v : Bytes}

theorem lasts_get (h : s.Lasts key v) (cap : Capability) (now : Monotonic) :
    (s.get key cap now).2.Lasts key v := by
  obtain ⟨e, he, hlasting⟩ := h
  unfold get
  split
  · exact ⟨e, he, hlasting⟩
  rw [he]
  show (s.putEntry key (e.get now).2).Lasts key v
  rw [hlasting.get]
  exact lasts_put hlasting

theorem lasts_extend (h : s.Lasts key v) (cap : Capability) (clock : Clock) :
    (s.extend key cap clock).2.Lasts key v := by
  obtain ⟨e, he, hlasting⟩ := h
  unfold extend
  split
  · exact ⟨e, he, hlasting⟩
  rw [he]
  exact lasts_put (hlasting.extend clock)

theorem lasts_extendAuthenticated (h : s.Lasts key v) (auth : Authenticator)
    (requester : Option (List ProcessInfo)) (cap : Capability) (clock : Clock) :
    (s.extendAuthenticated key auth requester cap clock).2.Lasts key v := by
  obtain ⟨e, he, hlasting⟩ := h
  unfold extendAuthenticated extendAuthenticatedAsking
  split
  · exact ⟨e, he, hlasting⟩
  rw [he]
  simp only [hlasting.evaluate]
  split
  · exact lasts_put (hlasting.extend _)
  · rw [Asking.answer_ask]
    split
    · exact lasts_put hlasting
    · exact lasts_put (hlasting.extend _)
  · exact lasts_put hlasting

theorem lasts_pinAuthenticated (h : s.Lasts key v) (deadline : Monotonic) (auth : Authenticator)
    (requester : Option (List ProcessInfo)) (cap : Capability) (clock : Clock) :
    (s.pinAuthenticated key deadline auth requester cap clock).2.Lasts key v := by
  obtain ⟨e, he, hlasting⟩ := h
  unfold pinAuthenticated pinAuthenticatedAsking
  split
  · exact ⟨e, he, hlasting⟩
  rw [he]
  simp only
  split
  · exact ⟨e, he, hlasting⟩
  rw [Asking.answer_ask]
  split
  · exact ⟨e, he, hlasting⟩
  · exact lasts_put (hlasting.pinUntil deadline _)

theorem lasts_unpin (h : s.Lasts key v) (cap : Capability) :
    (s.unpin key cap).2.Lasts key v := by
  obtain ⟨e, he, hlasting⟩ := h
  unfold unpin
  split
  · exact ⟨e, he, hlasting⟩
  rw [he]
  exact lasts_put hlasting.unpin

/-- A fetch by the definition of the key is no stand-in for the value. -/
theorem lasts_getOrRegenerate (h : s.Lasts key v) (runner : SourceRunner) (auth : Authenticator)
    (requester : Option (List ProcessInfo)) (cap : Capability) (clock : Clock) :
    (s.getOrRegenerate key runner auth requester cap clock).2.Lasts key v := by
  rw [(h.fetches (s.getOrRegenerate_fetches key runner auth requester cap clock)).2.2]
  exact h

theorem lasts_readStable (key : String) (v : Bytes) : ReadStable key (·.Lasts key v) where
  same s s' heq h := lasts_of_entry h heq
  get s cap now h := lasts_get h cap now
  stateOf s now h := by
    obtain ⟨e, he, hlasting⟩ := h
    unfold stateOf
    rw [he]
    show (s.putEntry key (e.evaluate now).2).Lasts key v
    rw [hlasting.evaluate]
    exact lasts_put hlasting
  extend s cap clock h := lasts_extend h cap clock
  extendAuthenticated s auth requester cap clock h :=
    lasts_extendAuthenticated h auth requester cap clock
  pinAuthenticated s deadline auth requester cap clock h :=
    lasts_pinAuthenticated h deadline auth requester cap clock
  unpin s cap h := lasts_unpin h cap
  regenerate s runner auth requester cap clock h := by
    rw [(h.fetches (s.regenerate_fetches key runner auth requester cap clock)).2.2]
    exact h

end Lasting

/-- A key without a value gets none by being read. -/
theorem absent_readStable (key : String) :
    ReadStable key fun s => s.entries[key]? = none where
  same s s' heq h := heq.trans h
  get s cap now h := by
    unfold get
    split
    · exact h
    rw [h]
    exact h
  stateOf s now h := by
    unfold stateOf
    rw [h]
    exact h
  extend s cap clock h := by
    unfold extend
    split
    · exact h
    rw [h]
    exact h
  extendAuthenticated s auth requester cap clock h := by
    unfold extendAuthenticated extendAuthenticatedAsking
    split
    · exact h
    rw [h]
    exact h
  pinAuthenticated s deadline auth requester cap clock h := by
    unfold pinAuthenticated pinAuthenticatedAsking
    split
    · exact h
    rw [h]
    exact h
  unpin s cap h := by
    unfold unpin
    split
    · exact h
    rw [h]
    exact h
  regenerate s runner auth requester cap clock h := by
    unfold regenerate regenerateAsking
    split
    · exact h
    split
    · exact h
    rw [h]
    exact h

end Store

end CacheWarden
