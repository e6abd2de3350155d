import CacheWarden.StoreRuns

/-!
# How long a secret is handed out

A lease is what the history of a key says about the value last installed under
it: when, for how long, and which pins were approved since. A store hands a
secret out only while its lease is alive.
-/

set_option autoImplicit false

namespace CacheWarden

open Transition

namespace CacheEntry

section Live

variable {e : CacheEntry} {now : Monotonic} {clock : Clock}

theorem evaluate_of_dead (h : e.state now = .hardExpired) :
    e.evaluate now = (.hardExpired, e.zeroizeValue) := by
  unfold evaluate
  rw [h]

theorem evaluate_of_live (h : e.state now ≠ .hardExpired) : e.evaluate now = (e.state now, e) := by
  apply Prod.ext
  · exact evaluate_fst e now
  · rw [evaluate_snd, if_neg h]

theorem extend_of_dead (h : e.state (clock.now 0) = .hardExpired) :
    e.extend clock = (.error .hardExpired, e.zeroizeValue) := by
  unfold extend
  rw [evaluate_of_dead h]

theorem extend_of_live (h : e.state (clock.now 0) ≠ .hardExpired) :
    e.extend clock = (.ok (), { e with extendedAt := clock.now 1 }) := by
  unfold extend
  rw [evaluate_of_live h]
  cases hstate : e.state (clock.now 0) with
  | hardExpired => exact absurd hstate h
  | _ => rfl

theorem pinUntil_of_dead (deadline : Monotonic) (h : e.state now = .hardExpired) :
    e.pinUntil deadline now = (.error .hardExpired, e.zeroizeValue) := by
  unfold pinUntil
  rw [evaluate_of_dead h]

theorem pinUntil_of_live (deadline : Monotonic) (h : e.state now ≠ .hardExpired) :
    e.pinUntil deadline now = (.ok (), { e with pinDeadline := some deadline }) := by
  unfold pinUntil
  rw [evaluate_of_live h]
  cases hstate : e.state now with
  | hardExpired => exact absurd hstate h
  | _ => rfl

end Live

end CacheEntry

structure Lease where
  value : Bytes
  since : Monotonic
  hard : Option Duration
  pins : List (Monotonic × Monotonic)
  reported : Bool
  deriving DecidableEq

namespace Lease

/-- The hard window of the lease is open, or a pin approved while the lease was
alive has not lapsed. -/
inductive AliveAt (lease : Lease) : Monotonic → Prop
  | unlimited {t : Monotonic} (h : lease.hard = none) : AliveAt lease t
  | within {t : Monotonic} (hard : Duration) (h : lease.hard = some hard)
      (hlt : t.offset.nanos < lease.since.offset.nanos + hard.nanos) : AliveAt lease t
  | pinned {t : Monotonic} (deadline approved : Monotonic) (h : (deadline, approved) ∈ lease.pins)
      (halive : AliveAt lease approved) (hlt : t < deadline) : AliveAt lease t

def note (lease : Option Lease) : StoreEvent → Option Lease
  | .installed value time hard => some ⟨value, time, hard, [], false⟩
  | .pinApproved deadline time =>
    lease.map fun l => { l with pins := (deadline, time) :: l.pins }
  | .reportedHardExpired => lease.map fun l => { l with reported := true }
  | _ => lease

/-- The lease of the value last installed. -/
def ofHistory (history : List StoreEvent) : Option Lease := history.foldl note none

/-- A secret handed out is that of a living lease, not reported hard-expired. -/
def Permits (pre : List StoreEvent) : StoreEvent → Prop
  | .returned value time => ∃ lease, ofHistory pre = some lease ∧ lease.value = value ∧
      lease.AliveAt time ∧ lease.reported = false
  | _ => True

theorem ofHistory_concat (history : List StoreEvent) (event : StoreEvent) :
    ofHistory (history ++ [event]) = note (ofHistory history) event := by
  unfold ofHistory
  rw [List.foldl_append]
  rfl

/-- A later pin or report takes no life away. -/
theorem AliveAt.of_pins {lease lease' : Lease} {t : Monotonic} (h : lease.AliveAt t)
    (hsince : lease'.since = lease.since) (hhard : lease'.hard = lease.hard)
    (hpins : ∀ pin ∈ lease.pins, pin ∈ lease'.pins) : lease'.AliveAt t := by
  induction h with
  | unlimited hnone =>
    apply AliveAt.unlimited
    rw [hhard, hnone]
  | within hard hsome hlt =>
    apply AliveAt.within hard
    · rw [hhard, hsome]
    · rw [hsince]
      exact hlt
  | pinned deadline approved hmem _ hlt ih =>
    exact .pinned deadline approved (hpins _ hmem) ih hlt

/-- What a lease knows of the entry it was taken out for. -/
structure Covers (lease : Lease) (e : CacheEntry) (now : Monotonic) : Prop where
  since : lease.since = e.loadedAt
  hard : lease.hard = e.ttl.hard
  value : ∀ v, e.value = some v → lease.value = v
  pin : ∀ d, e.pinDeadline = some d → e.value.isSome →
    ∃ approved, (d, approved) ∈ lease.pins ∧ lease.AliveAt approved
  reported : lease.reported = true → e.state now = .hardExpired

section Covers

variable {lease : Lease} {e : CacheEntry} {now t : Monotonic}

theorem Covers.mono (h : lease.Covers e now) (ht : now ≤ t) : lease.Covers e t where
  since := h.since
  hard := h.hard
  value := h.value
  pin := h.pin
  reported hr := CacheEntry.state_hardExpired_mono ht (h.reported hr)

/-- An entry that has not hard-expired is under a living lease. -/
theorem Covers.alive (h : lease.Covers e now) (ht : now ≤ t) (hstate : e.state t ≠ .hardExpired) :
    lease.AliveAt t ∧ lease.reported = false := by
  obtain ⟨v, hv⟩ := CacheEntry.value_isSome_of_state hstate
  constructor
  · have hunlatched : ¬ (e.hardExpired || e.value.isNone) = true := by
      rw [e.latched, hv]
      simp
    unfold CacheEntry.state at hstate
    rw [if_neg hunlatched] at hstate
    by_cases hpin : e.pinDeadline.any (t < ·) = true
    · cases hd : e.pinDeadline with
      | none => simp [hd] at hpin
      | some d =>
        simp only [hd, Option.any_some, decide_eq_true_eq] at hpin
        obtain ⟨approved, hmem, halive⟩ := h.pin d hd (by rw [hv]; rfl)
        exact .pinned d approved hmem halive hpin
    rw [if_neg hpin] at hstate
    by_cases hhard : e.ttl.hard.any (· ≤ t.saturatingDurationSince e.loadedAt) = true
    · rw [if_pos hhard] at hstate
      exact absurd rfl hstate
    cases hd : e.ttl.hard with
    | none =>
      apply AliveAt.unlimited
      rw [h.hard, hd]
    | some d =>
      simp only [hd, Option.any_some, decide_eq_true_eq, Duration.le_iff,
        Monotonic.nanos_saturatingDurationSince] at hhard
      apply AliveAt.within d
      · rw [h.hard, hd]
      · rw [h.since]
        omega
  · by_contra hr
    rw [Bool.not_eq_false] at hr
    exact hstate (CacheEntry.state_hardExpired_mono ht (h.reported hr))

theorem covers_new (source : ValueSource) (value : Bytes) (ttl : Ttl) (t : Monotonic) :
    Covers ⟨value, t, ttl.hard, [], false⟩ (CacheEntry.new source value ttl t) now where
  since := rfl
  hard := rfl
  value v hv := by
    cases hv
    rfl
  pin d hd := by cases hd
  reported hr := by cases hr

theorem Covers.zeroize (h : lease.Covers e now) : lease.Covers e.zeroizeValue t where
  since := h.since
  hard := h.hard
  value v hv := by cases hv
  pin d _ hv := by cases hv
  reported _ := rfl

theorem Covers.evaluate (h : lease.Covers e now) (ht : now ≤ t) :
    lease.Covers (e.evaluate t).2 t := by
  rw [CacheEntry.evaluate_snd]
  by_cases hstate : e.state t = .hardExpired
  · rw [if_pos hstate]
    exact h.zeroize
  · rw [if_neg hstate]
    exact h.mono ht

/-- Reporting an entry that has hard-expired. -/
theorem Covers.report (h : lease.Covers e t) (hstate : e.state t = .hardExpired) :
    Covers { lease with reported := true } e t where
  since := h.since
  hard := h.hard
  value := h.value
  pin d hd hv := by
    obtain ⟨approved, hmem, halive⟩ := h.pin d hd hv
    exact ⟨approved, hmem, halive.of_pins rfl rfl fun _ hp => hp⟩
  reported _ := hstate

theorem Covers.approve (h : lease.Covers e now) (pin : Monotonic × Monotonic) :
    Covers { lease with pins := pin :: lease.pins } e now where
  since := h.since
  hard := h.hard
  value := h.value
  pin d hd hv := by
    obtain ⟨approved, hmem, halive⟩ := h.pin d hd hv
    exact ⟨approved, List.mem_cons_of_mem _ hmem,
      halive.of_pins rfl rfl fun _ hp => List.mem_cons_of_mem _ hp⟩
  reported := h.reported

theorem Covers.extended (h : lease.Covers e t) (hstate : e.state t ≠ .hardExpired)
    (u w : Monotonic) : lease.Covers { e with extendedAt := u } w where
  since := h.since
  hard := h.hard
  value := h.value
  pin := h.pin
  reported hr := absurd (h.reported hr) hstate

theorem Covers.unpin (h : lease.Covers e now) : lease.Covers e.unpin now where
  since := h.since
  hard := h.hard
  value := h.value
  pin d hd := by cases hd
  reported hr := by
    have hdead := h.reported hr
    unfold CacheEntry.state at hdead ⊢
    by_cases hlatch : (e.hardExpired || e.value.isNone) = true
    · exact if_pos hlatch
    rw [if_neg hlatch] at hdead
    by_cases hpin : e.pinDeadline.any (now < ·) = true
    · rw [if_pos hpin] at hdead
      cases hdead
    rw [if_neg hpin] at hdead
    show (if (e.hardExpired || e.value.isNone) = true then _ else _) = _
    rw [if_neg hlatch]
    exact hdead

/-- A pin that takes, approved while the entry is alive. -/
theorem Covers.pinned (h : lease.Covers e now) (ht : now ≤ t) (hstate : e.state t ≠ .hardExpired)
    (deadline w : Monotonic) :
    Covers { lease with pins := (deadline, t) :: lease.pins }
      { e with pinDeadline := some deadline } w where
  since := h.since
  hard := h.hard
  value := h.value
  pin d hd _ := by
    cases hd
    exact ⟨t, List.mem_cons_self, (h.alive ht hstate).1.of_pins rfl rfl
      fun _ hp => List.mem_cons_of_mem _ hp⟩
  reported hr := absurd hr (by rw [show lease.reported = false from (h.alive ht hstate).2]; simp)

end Covers

end Lease

/-- The history of a key permits what it records, and a resident entry has a
lease that covers it. -/
structure Leased (history : List StoreEvent) (entry : Option CacheEntry) (now : Monotonic) :
    Prop where
  checked : Checked Lease.Permits history
  covers : ∀ e, entry = some e → ∃ lease, Lease.ofHistory history = some lease ∧ lease.Covers e now

section Leased

variable {history : List StoreEvent} {entry : Option CacheEntry} {e : CacheEntry}
  {s : Store} {key : String} {t u : Monotonic}

theorem Leased.mono (h : Leased history entry t) (htu : t ≤ u) : Leased history entry u where
  checked := h.checked
  covers e he := by
    obtain ⟨lease, hlease, hcovers⟩ := h.covers e he
    exact ⟨lease, hlease, hcovers.mono htu⟩

theorem leased_none (hc : Checked Lease.Permits history) : Leased history none t where
  checked := hc
  covers e he := by cases he

theorem leased_some {lease : Lease} (hc : Checked Lease.Permits history)
    (hlease : Lease.ofHistory history = some lease) (hcovers : lease.Covers e t) :
    Leased history (some e) t where
  checked := hc
  covers e' he' := by
    cases he'
    exact ⟨lease, hlease, hcovers⟩

/-- An event that is about no lease. -/
theorem Leased.concat_neutral (h : Leased history entry t) {event : StoreEvent}
    (hnote : Lease.note (Lease.ofHistory history) event = Lease.ofHistory history)
    (hpermits : Lease.Permits history event) : Leased (history ++ [event]) entry t where
  checked := checked_concat h.checked hpermits
  covers e he := by
    rw [Lease.ofHistory_concat, hnote]
    exact h.covers e he

theorem leased_installed (hc : Checked Lease.Permits history) (source : ValueSource)
    (value : Bytes) (ttl : Ttl) :
    Leased (history ++ [.installed value u ttl.hard]) (some (CacheEntry.new source value ttl u))
      t := by
  have hpermits : Lease.Permits history (.installed value u ttl.hard) := trivial
  apply leased_some (checked_concat hc hpermits)
  · rw [Lease.ofHistory_concat]
    rfl
  · exact Lease.covers_new source value ttl u

/-- Reporting an entry that has hard-expired. -/
theorem Leased.report (h : Leased history (some e) t) (hstate : e.state t = .hardExpired) :
    Leased (history ++ [.reportedHardExpired]) (some e) t := by
  obtain ⟨lease, hlease, hcovers⟩ := h.covers e rfl
  have hpermits : Lease.Permits history .reportedHardExpired := trivial
  apply leased_some (checked_concat h.checked hpermits)
  · rw [Lease.ofHistory_concat, hlease]
    rfl
  · exact hcovers.report hstate

theorem Leased.evaluate (h : Leased history (some e) t) (htu : t ≤ u) :
    Leased history (some (e.evaluate u).2) u := by
  obtain ⟨lease, hlease, hcovers⟩ := h.covers e rfl
  exact leased_some h.checked hlease (hcovers.evaluate htu)

theorem Leased.zeroize (h : Leased history (some e) t) :
    Leased history (some e.zeroizeValue) u := by
  obtain ⟨lease, hlease, hcovers⟩ := h.covers e rfl
  exact leased_some h.checked hlease hcovers.zeroize

/-- What an extension leaves, and what it reports. -/
theorem Leased.extend (h : Leased history (some e) t) {clock : Clock} (ht : t ≤ clock.now 0) :
    Leased (history ++ match (e.extend clock).1 with
      | .error .hardExpired => [.reportedHardExpired]
      | .ok () => []) (some (e.extend clock).2) (clock.now 1) := by
  by_cases hstate : e.state (clock.now 0) = .hardExpired
  · rw [CacheEntry.extend_of_dead hstate]
    exact h.zeroize.report rfl
  · obtain ⟨lease, hlease, hcovers⟩ := h.covers e rfl
    rw [CacheEntry.extend_of_live hstate, List.append_nil]
    exact leased_some h.checked hlease ((hcovers.mono ht).extended hstate _ _)

/-- What an approved pin leaves, and what it reports. -/
theorem Leased.pinUntil (h : Leased history (some e) t) (deadline : Monotonic) (htu : t ≤ u) :
    Leased (history ++ ([.pinApproved deadline u] ++ match (e.pinUntil deadline u).1 with
      | .error .hardExpired => [.reportedHardExpired]
      | .ok () => [])) (some (e.pinUntil deadline u).2) u := by
  obtain ⟨lease, hlease, hcovers⟩ := h.covers e rfl
  have hnoted : Lease.ofHistory (history ++ [.pinApproved deadline u]) =
      some { lease with pins := (deadline, u) :: lease.pins } := by
    rw [Lease.ofHistory_concat, hlease]
    rfl
  have hchecked : Checked Lease.Permits (history ++ [.pinApproved deadline u]) :=
    checked_concat h.checked trivial
  rw [← List.append_assoc]
  by_cases hstate : e.state u = .hardExpired
  · rw [CacheEntry.pinUntil_of_dead deadline hstate]
    have happroved := leased_some hchecked hnoted (hcovers.approve (deadline, u))
    exact happroved.zeroize.report rfl
  · rw [CacheEntry.pinUntil_of_live deadline hstate, List.append_nil]
    exact leased_some hchecked hnoted (hcovers.pinned htu hstate deadline u)

end Leased

section Operations

variable {s : Store} {key : String} {history : List StoreEvent} {t : Monotonic} {clock : Clock}

theorem putEntry_get (s : Store) (key : String) (e : CacheEntry) :
    (s.putEntry key e).entries[key]? = some e :=
  KeyMap.get_insert_self _ _ _

theorem leased_get (h : Leased history s.entries[key]? t) (ht : t ≤ clock.now 0)
    (cap : Capability) :
    Leased (history ++ (StoreOp.get key cap).events clock s)
      (s.get key cap (clock.now 0)).2.entries[key]? (clock.now 0) := by
  simp only [StoreOp.events]
  unfold Store.get
  cases s.checkCap cap with
  | error err =>
    simp only [List.append_nil]
    exact h.mono ht
  | ok _ =>
  cases hentry : s.entries[key]? with
  | none =>
    simp only [List.append_nil, hentry]
    exact leased_none h.checked
  | some e =>
    rw [hentry] at h
    simp only [putEntry_get, CacheEntry.get_snd]
    have hevaluated := h.evaluate ht
    cases hvalue : (e.get (clock.now 0)).1 with
    | none =>
      simp only [List.append_nil]
      exact hevaluated
    | some v =>
      obtain ⟨hactive, hv⟩ := CacheEntry.get_some hvalue
      obtain ⟨lease, hlease, hcovers⟩ := h.covers e rfl
      have halive := hcovers.alive ht (by rw [hactive]; decide)
      exact hevaluated.concat_neutral rfl
        ⟨lease, hlease, hcovers.value v hv, halive.1, halive.2⟩

theorem leased_stateOf (h : Leased history s.entries[key]? t) (ht : t ≤ clock.now 0) :
    Leased (history ++ (StoreOp.stateOf key).events clock s)
      (s.stateOf key (clock.now 0)).2.entries[key]? (clock.now 0) := by
  simp only [StoreOp.events]
  unfold Store.stateOf
  cases hentry : s.entries[key]? with
  | none =>
    simp only [reduceCtorEq, if_false, List.append_nil, hentry]
    exact leased_none h.checked
  | some e =>
    rw [hentry] at h
    simp only [putEntry_get, CacheEntry.evaluate_fst, Option.some.injEq]
    by_cases hstate : e.state (clock.now 0) = .hardExpired
    · rw [if_pos hstate, CacheEntry.evaluate_snd, if_pos hstate]
      exact h.zeroize.report rfl
    · rw [if_neg hstate, List.append_nil]
      exact h.evaluate ht

theorem leased_entryStatePure (h : Leased history s.entries[key]? t) (ht : t ≤ clock.now 0) :
    Leased (history ++ (StoreOp.entryStatePure key).events clock s) s.entries[key]?
      (clock.now 0) := by
  simp only [StoreOp.events]
  unfold Store.entryStatePure
  cases hentry : s.entries[key]? with
  | none =>
    simp only [Option.map_none, reduceCtorEq, if_false, List.append_nil]
    exact leased_none h.checked
  | some e =>
    rw [hentry] at h
    simp only [Option.map_some, Option.some.injEq]
    by_cases hstate : e.state (clock.now 0) = .hardExpired
    · rw [if_pos hstate]
      exact (h.mono ht).report hstate
    · rw [if_neg hstate, List.append_nil]
      exact h.mono ht

theorem leased_extend (h : Leased history s.entries[key]? t) (ht : t ≤ clock.now 0)
    (cap : Capability) :
    Leased (history ++ (StoreOp.extend key cap).events clock s)
      (s.extend key cap clock).2.entries[key]? (clock.now 1) := by
  have ht1 := Monotonic.le_trans ht (clock.mono 0)
  simp only [StoreOp.events]
  unfold Store.extend
  cases s.checkCap cap with
  | error err =>
    simp only [List.append_nil]
    exact h.mono ht1
  | ok _ =>
  cases hentry : s.entries[key]? with
  | none =>
    simp only [List.append_nil, hentry]
    exact leased_none h.checked
  | some e =>
    rw [hentry] at h
    have hextended := h.extend ht
    simp only [putEntry_get]
    cases hresult : (e.extend clock).1 with
    | error err =>
      cases err
      rw [hresult] at hextended
      exact hextended
    | ok _ =>
      rw [hresult] at hextended
      exact hextended

theorem leased_unpin (h : Leased history s.entries[key]? t) (cap : Capability) :
    Leased history (s.unpin key cap).2.entries[key]? t := by
  unfold Store.unpin
  cases s.checkCap cap with
  | error err => exact h
  | ok _ =>
  cases hentry : s.entries[key]? with
  | none =>
    simp only [hentry]
    exact leased_none h.checked
  | some e =>
    rw [hentry] at h
    obtain ⟨lease, hlease, hcovers⟩ := h.covers e rfl
    simp only [putEntry_get]
    exact leased_some h.checked hlease hcovers.unpin

theorem leased_extendAuthenticated (h : Leased history s.entries[key]? t)
    (ht : t ≤ clock.now 0) (auth : Authenticator) (requester : Option (List ProcessInfo))
    (cap : Capability) :
    Leased (history ++ (StoreOp.extendAuthenticated key auth requester cap).events clock s)
      (s.extendAuthenticated key auth requester cap clock).2.entries[key]? (clock.now 2) := by
  have ht2 := Monotonic.le_trans ht (clock.now_mono (Nat.zero_le 2))
  simp only [StoreOp.events]
  unfold Store.extendAuthenticated Store.extendAuthenticatedAsking
  cases s.checkCap cap with
  | error err =>
    simp only [Asking.answer_done, List.append_nil]
    exact h.mono ht2
  | ok _ =>
  cases hentry : s.entries[key]? with
  | none =>
    simp only [Asking.answer_done, List.append_nil, hentry]
    exact leased_none h.checked
  | some e =>
    rw [hentry] at h
    have hafter : t ≤ (clock.after 1).now 0 := Monotonic.le_trans ht (clock.mono 0)
    have hextended := h.extend hafter
    by_cases hstate : e.state (clock.now 0) = .hardExpired
    · simp only [CacheEntry.evaluate_of_dead hstate, Asking.answer_done, putEntry_get]
      exact h.zeroize.report rfl
    · simp only [CacheEntry.evaluate_of_live hstate]
      cases hlive : e.state (clock.now 0) with
      | hardExpired => exact absurd hlive hstate
      | active =>
        simp only [Asking.answer_done, putEntry_get]
        cases hresult : (e.extend (clock.after 1)).1 with
        | error err =>
          cases err
          rw [hresult] at hextended
          exact hextended
        | ok _ =>
          rw [hresult] at hextended
          exact hextended
      | softExpired =>
        simp only [Asking.answer_ask]
        cases auth ⟨key, .extend, requester⟩ with
        | error err =>
          simp only [Asking.answer_done, putEntry_get, List.append_nil]
          exact h.mono ht2
        | ok _ =>
          simp only [Asking.answer_done, putEntry_get]
          cases hresult : (e.extend (clock.after 1)).1 with
          | error err =>
            cases err
            rw [hresult] at hextended
            exact hextended
          | ok _ =>
            rw [hresult] at hextended
            exact hextended

theorem leased_pinAuthenticated (h : Leased history s.entries[key]? t) (ht : t ≤ clock.now 0)
    (deadline : Monotonic) (auth : Authenticator) (requester : Option (List ProcessInfo))
    (cap : Capability) :
    Leased (history ++ (StoreOp.pinAuthenticated key deadline auth requester cap).events clock s)
      (s.pinAuthenticated key deadline auth requester cap clock).2.entries[key]?
      (clock.now 1) := by
  have ht1 := Monotonic.le_trans ht (clock.mono 0)
  simp only [StoreOp.events]
  unfold Store.pinAuthenticated Store.pinAuthenticatedCalls Store.pinAuthenticatedAsking
  cases s.checkCap cap with
  | error err =>
    simp only [Asking.answer_done, Asking.asked_done, List.map_nil, List.not_mem_nil, false_and,
      if_false, List.append_nil]
    exact h.mono ht1
  | ok _ =>
  cases hentry : s.entries[key]? with
  | none =>
    simp only [Asking.answer_done, Asking.asked_done, List.map_nil, List.not_mem_nil, false_and,
      if_false, List.append_nil, hentry]
    exact leased_none h.checked
  | some e =>
    rw [hentry] at h
    simp only
    by_cases hstate : e.state (clock.now 0) = .hardExpired
    · simp only [if_pos hstate, Asking.answer_done, Asking.asked_done, List.map_nil,
        List.not_mem_nil, false_and, if_false, List.nil_append, hentry]
      exact ((h.mono ht).report hstate).mono (clock.mono 0)
    · simp only [if_neg hstate, Asking.answer_ask, Asking.asked_ask]
      cases auth ⟨key, .pin, requester⟩ with
      | error err =>
        simp only [Asking.answer_done, Except.toOption, Option.isSome_none, Bool.false_eq_true,
          and_false, if_false, List.append_nil, hentry]
        exact h.mono ht1
      | ok _ =>
        have hpinned := h.pinUntil deadline ht1
        simp only [Asking.answer_done, Asking.asked_done, List.map_cons, List.map_nil,
          Except.toOption, Option.isSome_some, List.mem_singleton, and_self, if_true, putEntry_get]
        cases hresult : (e.pinUntil deadline (clock.now 1)).1 with
        | error err =>
          cases err
          rw [hresult] at hpinned
          exact hpinned
        | ok _ =>
          rw [hresult] at hpinned
          exact hpinned

theorem leased_swept {s' : Store} {u : Monotonic} (h : Leased history s.entries[key]? t)
    (htu : t ≤ u) (hs : s.Swept key u s') : Leased history s'.entries[key]? u := by
  cases hs with
  | same => exact h.mono htu
  | destroyed e he hstate =>
    rw [he] at h
    rw [putEntry_get]
    exact h.zeroize

theorem leased_fetch {runner : SourceRunner} {auth : Authenticator}
    {requester : Option (List ProcessInfo)} {hard : Option Duration} {ok : Bool}
    {calls : List ExternalCall} {s' : Store} (h : Leased history s.entries[key]? t)
    (ht : t ≤ clock.now 0) (hf : s.Fetches key runner auth requester clock hard ok calls s') :
    Leased (history ++ StoreOp.fetchEvents ok runner clock calls hard) s'.entries[key]?
      (clock.now 2) := by
  have ht1 := Monotonic.le_trans ht (clock.mono 0)
  have hstep := clock.mono 1
  -- The run itself is about no lease.
  have hran : ∀ {entry : Option CacheEntry} {u : Monotonic} (failed : Bool),
      Leased history entry u →
        Leased (history ++ [.ran failed (clock.now 1) (clock.now 2)]) entry u := by
    intro entry u failed hl
    exact hl.concat_neutral rfl trivial
  cases hf with
  | refused _ hs =>
    rw [show StoreOp.fetchEvents false runner clock [] hard = [] from rfl, List.append_nil]
    exact (leased_swept h ht1 hs).mono hstep
  | failed s₁ hs hidle argv cwd env e hrun =>
    have hevents : StoreOp.fetchEvents false runner clock [.run argv cwd env] hard =
        [.ran true (clock.now 1) (clock.now 2)] := by
      simp [StoreOp.fetchEvents, StoreOp.runEvents, hrun, Except.toOption]
    have hentries : (s₁.recordFailure key (clock.now 2)).entries = s₁.entries := by
      unfold Store.recordFailure
      split <;> rfl
    rw [hevents, hentries]
    exact hran true ((leased_swept h ht1 hs).mono hstep)
  | denied _ hs hidle argv cwd env value hrun =>
    have hevents : StoreOp.fetchEvents false runner clock
        [.run argv cwd env, .prompt ⟨key, .regenerate, requester⟩] hard =
        [.ran false (clock.now 1) (clock.now 2)] := by
      simp [StoreOp.fetchEvents, StoreOp.runEvents, hrun, Except.toOption]
    rw [hevents]
    exact hran false ((leased_swept h ht1 hs).mono hstep)
  | installed s₁ hs hidle argv cwd env value ttl hrun hhard =>
    have hevents : StoreOp.fetchEvents true runner clock
        [.run argv cwd env, .prompt ⟨key, .regenerate, requester⟩] hard =
        [.ran false (clock.now 1) (clock.now 2)] ++ [.installed value (clock.now 2) hard] := by
      simp [StoreOp.fetchEvents, StoreOp.runEvents, hrun, Except.toOption]
    have hinstalled : (s₁.installFetched key (CacheEntry.new (.command argv cwd env) value ttl
        (clock.now 2))).entries[key]? =
        some (CacheEntry.new (.command argv cwd env) value ttl (clock.now 2)) :=
      KeyMap.get_insert_self _ _ _
    rw [hevents, ← List.append_assoc, hinstalled, ← hhard]
    exact leased_installed (hran false (leased_swept h ht1 hs)).checked _ _ _

theorem leased_set (h : Leased history s.entries[key]? t) (ht : t ≤ clock.now 0)
    (source : ValueSource) (value : Bytes) (ttl : Ttl) (cap : Capability) :
    Leased (history ++ (StoreOp.set key source value ttl cap).events clock s)
      (s.set key source value ttl cap (clock.now 0)).2.entries[key]? (clock.now 0) := by
  simp only [StoreOp.events]
  unfold Store.set
  cases s.checkCap cap with
  | error err =>
    simp only [List.append_nil]
    exact h.mono ht
  | ok _ =>
  cases validateKeySyntax key with
  | error err =>
    simp only [List.append_nil]
    exact h.mono ht
  | ok _ =>
    simp only [putEntry_get]
    exact leased_installed h.checked source value ttl

theorem leased_delete (h : Leased history s.entries[key]? t) (cap : Capability) :
    Leased history (s.delete key cap).2.entries[key]? t := by
  unfold Store.delete
  cases s.checkCap cap with
  | error err => exact h
  | ok _ =>
    simp only [KeyMap.get_erase_self]
    exact leased_none h.checked

theorem leased_deleteWithDefinition (h : Leased history s.entries[key]? t) (cap : Capability) :
    Leased (history ++ (StoreOp.deleteWithDefinition key cap).events clock s)
      (s.deleteWithDefinition key cap).2.entries[key]? t := by
  simp only [StoreOp.events]
  unfold Store.deleteWithDefinition
  cases s.checkCap cap with
  | error err =>
    simp only [List.append_nil]
    exact h
  | ok _ =>
    simp only [KeyMap.get_erase_self]
    exact (leased_none h.checked).concat_neutral rfl trivial

theorem leased_defineWithMeta (h : Leased history s.entries[key]? t) (source : ValueSource)
    (ttl : Ttl) (valueMeta : ValueMeta) (sourceMeta : SourceMeta) :
    Leased history (s.defineWithMeta key source ttl valueMeta sourceMeta).2.entries[key]? t := by
  rw [Store.entries_defineWithMeta]
  exact h

theorem leased_op (op : StoreOp) (h : Leased history s.entries[op.key]? t)
    (ht : t ≤ clock.now 0) :
    Leased (history ++ op.events clock s) (op.apply clock s).entries[op.key]? clock.last := by
  have hlast := Monotonic.le_trans ht (clock.le_last 0)
  cases op with
  | set key source value ttl cap =>
    exact (leased_set h ht source value ttl cap).mono (clock.le_last 0)
  | get key cap => exact (leased_get h ht cap).mono (clock.le_last 0)
  | stateOf key => exact (leased_stateOf h ht).mono (clock.le_last 0)
  | entryStatePure key => exact (leased_entryStatePure h ht).mono (clock.le_last 0)
  | extend key cap => exact (leased_extend h ht cap).mono (clock.le_last 1)
  | extendAuthenticated key auth requester cap =>
    exact (leased_extendAuthenticated h ht auth requester cap).mono (clock.le_last 2)
  | pinAuthenticated key deadline auth requester cap =>
    exact (leased_pinAuthenticated h ht deadline auth requester cap).mono (clock.le_last 1)
  | unpin key cap =>
    rw [show (StoreOp.unpin key cap).events clock s = [] from rfl, List.append_nil]
    exact (leased_unpin h cap).mono hlast
  | regenerate key runner auth requester cap =>
    exact (leased_fetch h ht (s.regenerate_fetches key runner auth requester cap clock)).mono
      (clock.le_last 2)
  | getOrRegenerate key runner auth requester cap =>
    exact (leased_fetch h ht (s.getOrRegenerate_fetches key runner auth requester cap clock)).mono
      (clock.le_last 2)
  | delete key cap =>
    rw [show (StoreOp.delete key cap).events clock s = [] from rfl, List.append_nil]
    exact (leased_delete h cap).mono hlast
  | deleteWithDefinition key cap => exact (leased_deleteWithDefinition h cap).mono hlast
  | defineWithMeta key source ttl valueMeta sourceMeta =>
    rw [show (StoreOp.defineWithMeta key source ttl valueMeta sourceMeta).events clock s = []
      from rfl, List.append_nil]
    exact (leased_defineWithMeta h source ttl valueMeta sourceMeta).mono hlast
  | undefine key =>
    rw [show (StoreOp.undefine key).events clock s = [] from rfl, List.append_nil]
    exact h.mono hlast

end Operations

def AllLeased (exec : Execution) : Prop :=
  ∀ k, Leased (exec.history k) exec.store.entries[k]? exec.now

theorem allLeased_step {exec : Execution} (h : AllLeased exec) (op : StoreOp × Clock) :
    AllLeased (exec.step op) := by
  obtain ⟨op, clock⟩ := op
  intro k
  show Leased (if k = op.key then _ else _) (op.apply (clock.since exec.now) exec.store).entries[k]?
    (clock.since exec.now).last
  by_cases hk : k = op.key
  · rw [if_pos hk, hk]
    exact leased_op op (h op.key) (clock.le_now_since exec.now 0)
  · rw [if_neg hk, (op.apply_elsewhere (clock.since exec.now) exec.store).entries k (Ne.symm hk)]
    exact (h k).mono (clock.le_last_since exec.now)

/-- Over every run of a store, a secret is handed out only if it is the one last
installed, within its hard window or under a pin approved while it was alive,
and not after it has been reported hard-expired. -/
theorem returned_only_alive (token : BitVec 128) (failureBackoffDuration : Duration)
    (ops : List (StoreOp × Clock)) (k : String) :
    Checked Lease.Permits
      ((run Execution.step (Execution.start token failureBackoffDuration) ops).history k) := by
  have hstart : AllLeased (Execution.start token failureBackoffDuration) := by
    intro a
    show Leased [] (∅ : KeyMap CacheEntry)[a]? Monotonic.zero
    rw [KeyMap.get_empty]
    exact leased_none checked_nil
  have hend : AllLeased (run Execution.step (Execution.start token failureBackoffDuration) ops) :=
    run_invariant Execution.step (P := fun _ _ => True) (I := AllLeased)
      (fun s op hs _ => allLeased_step hs op) _ ops (along_of_forall _ (fun _ _ => trivial) _ _)
      hstart
  exact (hend k).checked

end CacheWarden
