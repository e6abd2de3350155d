import CacheWarden.Handoff

/-!
# Time across a hand-over

An instant exported at one reading and imported at another keeps its distance
from now up to a millisecond, as long as the wall clock told the elapsed time
and both timelines have room for it. The lifecycle states follow. A failure
record is re-anchored by a rule of its own.
-/

set_option autoImplicit false

namespace CacheWarden

/-- The readings of a hand-over: the exporting and the importing monotonic
readings, the wall readings in milliseconds beside them, the nanoseconds that
really passed between, and how far the wall readings may be off. -/
structure Passage where
  nowE : Monotonic
  nowI : Monotonic
  wallE : UInt64
  wallI : UInt64
  elapsed : ℕ
  slack : ℕ
  wall_le : 1000000 * wallI.toNat ≤ 1000000 * wallE.toNat + elapsed + slack
  le_wall : 1000000 * wallE.toNat + elapsed ≤ 1000000 * wallI.toNat + slack

namespace Passage

variable (p : Passage)

/-- An instant of the past that both processes can place: the exporting wall
clock and the importing timeline reach back to it. -/
structure Reaches (point : Monotonic) : Prop where
  wall : (p.nowE.offset.nanos - point.offset.nanos) / 1000000 ≤ p.wallE.toNat
  headroom : p.elapsed + (p.nowE.offset.nanos - point.offset.nanos) ≤ p.nowI.offset.nanos

/-- The same real instant on both timelines, at or after the import, in
nanoseconds of the exporting one. -/
structure Same (tE : ℕ) (tI : Monotonic) : Prop where
  later : p.nowI ≤ tI
  same : tE + p.nowI.offset.nanos = p.nowE.offset.nanos + p.elapsed + tI.offset.nanos

theorem Same.le_source {p : Passage} {tE tI : Monotonic} (h : p.Same tE.offset.nanos tI) :
    p.nowE ≤ tE := by
  have h1 := h.later
  have h2 := h.same
  rw [Monotonic.le_iff] at h1 ⊢
  omega

/-- An instant after a hand-over lies as long after a timestamp as before it,
up to a millisecond and the slack of the wall clock. -/
theorem basis_age {point tI : Monotonic} {tE : ℕ} (hp : point ≤ p.nowE) (hr : p.Reaches point)
    (ht : p.Same tE tI) :
    let point' := epochMsToMonotonicTtlBasis p.nowI p.wallI
      (monotonicToEpochMs p.nowE p.wallE point)
    tI.offset.nanos - point'.offset.nanos ≤ tE - point.offset.nanos + p.slack ∧
      tE - point.offset.nanos < tI.offset.nanos - point'.offset.nanos + 1000000 + p.slack := by
  have h1 := p.wall_le
  have h2 := p.le_wall
  have h3 := hr.wall
  have h4 := hr.headroom
  have h5 := ht.later
  have h6 := ht.same
  have h7 := Word64.toNat_lt p.wallE
  rw [Monotonic.le_iff] at h5
  have hp' := Monotonic.le_iff.mp hp
  simp only [nanos_epochMsToMonotonicTtlBasis, toNat_monotonicToEpochMs_of_le p.wallE hp]
  omega

/-- The pin deadline of a handed-over entry, compared with the clock: it is
still ahead exactly when the original is, away from the boundary. -/
theorem pin_ahead {point tI : Monotonic} {tE : ℕ}
    (hfits : p.wallE.toNat + (point.offset.nanos - p.nowE.offset.nanos) / 1000000 <
      18446744073709551616)
    (hr : p.Reaches point) (ht : p.Same tE tI)
    (hend : tI.offset.nanos < 18446744073709551615999999999) :
    let point' := epochMsToMonotonic p.nowI p.wallI (monotonicToEpochMs p.nowE p.wallE point)
    (tE + 1000000 + p.slack ≤ point.offset.nanos → tI < point') ∧
      (point.offset.nanos + 1000000 + p.slack ≤ tE → point' ≤ tI) := by
  have h1 := p.wall_le
  have h2 := p.le_wall
  have h3 := hr.wall
  have h4 := hr.headroom
  have h5 := ht.later
  have h6 := ht.same
  have h7 := Word64.toNat_lt p.wallE
  rw [Monotonic.le_iff] at h5
  simp only [Monotonic.lt_iff, Monotonic.le_iff, nanos_epochMsToMonotonic]
  rcases Nat.le_total point.offset.nanos p.nowE.offset.nanos with hp | hp
  · rw [toNat_monotonicToEpochMs_of_le p.wallE hp]
    split <;> omega
  · rw [toNat_monotonicToEpochMs_of_ge p.wallE hp]
    split <;> omega

end Passage

namespace Store

/-- A span of fewer than 2^64 milliseconds. -/
def FitsMillis (d : Duration) : Prop := d.nanos / 1000000 < 18446744073709551616

instance (d : Duration) : Decidable (FitsMillis d) :=
  inferInstanceAs (Decidable (d.nanos / 1000000 < 18446744073709551616))

/-- A span rounded down to whole milliseconds. -/
def floorMillis (d : Duration) : Duration :=
  ⟨1000000 * (d.nanos / 1000000), by have := d.bound; omega⟩

theorem nanos_narrow (d : Duration) :
    (narrow d).nanos = 1000000 * (d.nanos / 1000000 % 18446744073709551616) := by
  rw [narrow, Duration.nanos_fromMillis, toNat_millisTruncatingU64]

theorem narrow_eq_floorMillis_iff (d : Duration) : narrow d = floorMillis d ↔ FitsMillis d := by
  constructor
  · intro h
    have hn := congrArg Duration.nanos h
    rw [nanos_narrow] at hn
    simp only [floorMillis] at hn
    unfold FitsMillis
    omega
  · intro h
    apply Duration.ext
    rw [nanos_narrow, Nat.mod_eq_of_lt h]
    rfl

def TtlFits (ttl : Ttl) : Prop :=
  (∀ d ∈ ttl.soft, FitsMillis d) ∧ ∀ d ∈ ttl.hard, FitsMillis d

theorem narrowsInOrder_of_fits {ttl : Ttl} (h : TtlFits ttl) : NarrowsInOrder ttl := by
  intro s hs d hd
  have hle := ttl.ordered s hs d hd
  have h1 := h.1 s hs
  have h2 := h.2 d hd
  rw [Duration.le_iff] at hle ⊢
  rw [nanos_narrow, nanos_narrow, Nat.mod_eq_of_lt h1, Nat.mod_eq_of_lt h2]
  omega

/-- The instants at which an entry changes state, in nanoseconds. -/
def boundaries (e : CacheEntry) : List ℕ :=
  (e.pinDeadline.map (·.offset.nanos)).toList ++
    (e.ttl.hard.map (e.loadedAt.offset.nanos + ·.nanos)).toList ++
    (e.ttl.soft.map (e.extendedAt.offset.nanos + ·.nanos)).toList

/-- No boundary of the entry lies within a millisecond and the slack. -/
def ClearOf (e : CacheEntry) (slack t : ℕ) : Prop :=
  ∀ b ∈ boundaries e, t + 1000000 + slack ≤ b ∨ b + 1000000 + slack ≤ t

instance (e : CacheEntry) (slack t : ℕ) : Decidable (ClearOf e slack t) :=
  inferInstanceAs (Decidable
    (∀ b ∈ boundaries e, t + 1000000 + slack ≤ b ∨ b + 1000000 + slack ≤ t))

/-- What both processes must be able to place of one entry. -/
structure Placed (p : Passage) (e : CacheEntry) : Prop where
  fits : TtlFits e.ttl
  loadedAt : p.Reaches e.loadedAt
  extendedAt : p.Reaches e.extendedAt
  pin : ∀ d ∈ e.pinDeadline, p.Reaches d ∧
    p.wallE.toNat + (d.offset.nanos - p.nowE.offset.nanos) / 1000000 < 18446744073709551616

variable {p : Passage} {e e' : CacheEntry}

theorem window_agrees {d : Duration} {point point' tE tI : Monotonic} {slack : ℕ}
    (hfit : FitsMillis d) (hle : point ≤ tE)
    (hage : tI.offset.nanos - point'.offset.nanos ≤
        tE.offset.nanos - point.offset.nanos + slack ∧
      tE.offset.nanos - point.offset.nanos <
        tI.offset.nanos - point'.offset.nanos + 1000000 + slack)
    (hclear : tE.offset.nanos + 1000000 + slack ≤ point.offset.nanos + d.nanos ∨
      point.offset.nanos + d.nanos + 1000000 + slack ≤ tE.offset.nanos) :
    narrow d ≤ tI.saturatingDurationSince point' ↔ d ≤ tE.saturatingDurationSince point := by
  unfold FitsMillis at hfit
  rw [Monotonic.le_iff] at hle
  simp only [Duration.le_iff, nanos_narrow, Nat.mod_eq_of_lt hfit,
    Monotonic.nanos_saturatingDurationSince]
  omega

/-- The imported entry evaluates as the original at the same real instant,
unless that instant is within a millisecond of a boundary. -/
theorem state_agrees (h : Restored p.nowE p.nowI p.wallE p.wallI e e') (htimed : e.Timed p.nowE)
    (hp : Placed p e) {v : Bytes} (hv : e.value = some v) {tE tI : Monotonic} (ht : p.Same tE.offset.nanos tI)
    (hend : tI.offset.nanos < 18446744073709551615999999999)
    (hclear : ClearOf e p.slack tE.offset.nanos) : e'.state tI = e.state tE := by
  have hnow := ht.le_source
  have hext_le := Monotonic.le_trans htimed.2 hnow
  have hload := p.basis_age (Monotonic.le_trans htimed.1 htimed.2) hp.loadedAt ht
  have hext := p.basis_age htimed.2 hp.extendedAt ht
  have hpin : e'.pinDeadline.any (tI < ·) = e.pinDeadline.any (tE < ·) := by
    rw [h.pinDeadline]
    rcases hd : e.pinDeadline with _ | d
    · rfl
    · obtain ⟨hreach, hfit⟩ := hp.pin d hd
      have hahead := p.pin_ahead hfit hreach ht hend
      have hb := hclear d.offset.nanos (by simp [boundaries, hd])
      simp only [Option.map_some, Option.any_some, decide_eq_decide]
      rcases hb with hb | hb
      · have hlt : tE < d := by rw [Monotonic.lt_iff]; omega
        simp [hlt, hahead.1 hb]
      · have hle : d ≤ tE := by rw [Monotonic.le_iff]; omega
        have hle' := hahead.2 hb
        simp only [← Monotonic.not_lt] at hle hle'
        simp [hle, hle']
  have hhard : e'.ttl.hard.any (· ≤ tI.saturatingDurationSince e'.loadedAt) =
      e.ttl.hard.any (· ≤ tE.saturatingDurationSince e.loadedAt) := by
    rw [h.hard, h.loadedAt]
    rcases hd : e.ttl.hard with _ | d
    · rfl
    · simp only [Option.map_some, Option.any_some, decide_eq_decide]
      exact window_agrees (hp.fits.2 d hd) (Monotonic.le_trans htimed.1 hext_le) hload
        (hclear _ (by simp [boundaries, hd]))
  have hsoft : e'.ttl.soft.any (· ≤ tI.saturatingDurationSince e'.extendedAt) =
      e.ttl.soft.any (· ≤ tE.saturatingDurationSince e.extendedAt) := by
    rw [h.soft, h.extendedAt]
    rcases hd : e.ttl.soft with _ | d
    · rfl
    · simp only [Option.map_some, Option.any_some, decide_eq_decide]
      exact window_agrees (hp.fits.1 d hd) hext_le hext (hclear _ (by simp [boundaries, hd]))
  rw [CacheEntry.state_of_value hv, CacheEntry.state_of_value (h.value.trans hv), hpin, hhard,
    hsoft]

theorem hardExpired_iff {v : Bytes} (hv : e.value = some v) (t : Monotonic) :
    e.state t = .hardExpired ↔
      (∀ d ∈ e.pinDeadline, d ≤ t) ∧
        ∃ d ∈ e.ttl.hard, d ≤ t.saturatingDurationSince e.loadedAt := by
  rw [CacheEntry.state_of_value hv]
  have hpin : e.pinDeadline.any (t < ·) = true ↔ ¬ ∀ d ∈ e.pinDeadline, d ≤ t := by
    rcases e.pinDeadline with _ | d
    · simp
    · simp [← Monotonic.not_lt]
  have hhard : e.ttl.hard.any (· ≤ t.saturatingDurationSince e.loadedAt) = true ↔
      ∃ d ∈ e.ttl.hard, d ≤ t.saturatingDurationSince e.loadedAt := by
    rcases e.ttl.hard with _ | d <;> simp
  split
  · rename_i hp
    constructor
    · intro h
      cases h
    · intro h
      exact absurd h.1 (hpin.mp hp)
  · rename_i hp
    have hp' : ∀ d ∈ e.pinDeadline, d ≤ t := by
      by_contra hcon
      exact hp (hpin.mpr hcon)
    split
    · rename_i hh
      exact ⟨fun _ => ⟨hp', hhard.mp hh⟩, fun _ => rfl⟩
    · rename_i hh
      constructor
      · intro h
        split at h <;> cases h
      · intro h
        exact absurd (hhard.mpr h.2) hh

/-- Hard expiry comes at most a millisecond and the slack later than it would
have come to the original. -/
theorem hardExpired_not_later (h : Restored p.nowE p.nowI p.wallE p.wallI e e')
    (htimed : e.Timed p.nowE) (hp : Placed p e) {v : Bytes} (hv : e.value = some v)
    {tE tI tI' : Monotonic}
    (ht : p.Same tE.offset.nanos tI)
    (hend : tI'.offset.nanos < 18446744073709551615999999999)
    (hlater : tI.offset.nanos + 1000000 + p.slack ≤ tI'.offset.nanos)
    (hexp : e.state tE = .hardExpired) : e'.state tI' = .hardExpired := by
  have hsame : p.Same (tE.offset.nanos + (tI'.offset.nanos - tI.offset.nanos)) tI' := by
    refine ⟨Monotonic.le_trans ht.later ?_, ?_⟩
    · rw [Monotonic.le_iff]
      omega
    · have := ht.same
      omega
  rw [hardExpired_iff hv] at hexp
  rw [hardExpired_iff (h.value.trans hv), h.pinDeadline, h.hard, h.loadedAt]
  obtain ⟨hpin, d, hd, hage⟩ := hexp
  constructor
  · intro q hq
    obtain ⟨q0, hq0, rfl⟩ := Option.map_eq_some_iff.mp hq
    obtain ⟨hreach, hfit⟩ := hp.pin q0 hq0
    have hle := Monotonic.le_iff.mp (hpin q0 hq0)
    exact (p.pin_ahead hfit hreach hsame hend).2 (by omega)
  · refine ⟨narrow d, by rw [Option.mem_def.mp hd]; rfl, ?_⟩
    have hload := p.basis_age (Monotonic.le_trans htimed.1 htimed.2) hp.loadedAt hsame
    have hfit := hp.fits.2 d hd
    unfold FitsMillis at hfit
    simp only [Duration.le_iff, nanos_narrow, Nat.mod_eq_of_lt hfit,
      Monotonic.nanos_saturatingDurationSince] at hage hload ⊢
    omega

/-! ## Failure records -/

section Failures

variable {s : Store} {clock : Clock} {wallE wallI : UInt64} {nowI : Monotonic}
  {builder : StoreBuilder} {token : BitVec 128} {bundle : StoreBundle} {k : String}
  {f : FailureRecord}

theorem failureBackoffRemaining_isSome_iff (hf : s.failureBackoffs[k]? = some f) (t : Monotonic) :
    (s.failureBackoffRemaining k t).isSome ↔
      t.offset.nanos - f.failedAt.offset.nanos < f.retryAfter.nanos := by
  unfold failureBackoffRemaining
  rw [hf]
  simp only
  by_cases hzero : f.retryAfter = Duration.zero
  · simp [hzero]
  · rw [if_neg hzero]
    by_cases hlt : t.saturatingDurationSince f.failedAt < f.retryAfter
    · simpa [hlt] using Duration.lt_iff.mp hlt
    · simpa [hlt] using fun h => hlt (Duration.lt_iff.mpr h)

theorem failureBackoffRemaining_nanos {remaining : Duration}
    (hf : s.failureBackoffs[k]? = some f) {t : Monotonic}
    (h : s.failureBackoffRemaining k t = some remaining) :
    remaining.nanos = f.retryAfter.nanos - (t.offset.nanos - f.failedAt.offset.nanos) := by
  unfold failureBackoffRemaining at h
  rw [hf] at h
  simp only at h
  split at h
  · cases h
  · split at h
    · cases h
      rfl
    · cases h

theorem handOver_failure (h : s.handOver clock wallE builder token nowI wallI = .ok bundle)
    (hf : s.failureBackoffs[k]? = some f) :
    bundle.store.failureBackoffs[k]? =
      some (importFailure nowI wallI (exportFailure (clock.now 0) wallE f)) := by
  have hexported : (s.exported clock wallE k).failure =
      some (exportFailure (clock.now 0) wallE f) := by
    simp [exported, exportKey, hf]
  obtain ⟨value, definition, -, hslice⟩ := handOver_slice_of_listed h
    (Or.inr (Or.inr (show (s.failureBackoffs[k]?).isSome by rw [hf]; rfl)))
    (not_skipped_of_failure (by rw [hexported]; rfl))
  have hfailure := congrArg KeySlice.failure hslice
  rw [installedSlice, hexported] at hfailure
  exact hfailure

/-- How far the exported time of a failure lies ahead of the importing wall
clock, in nanoseconds. -/
def failureLead (nowE : Monotonic) (wallE wallI : UInt64) (f : FailureRecord) : ℕ :=
  1000000 * ((monotonicToEpochMs nowE wallE f.failedAt).toNat - wallI.toNat)

theorem importFailure_failedAt_le (nowE nowI : Monotonic) (wallE wallI : UInt64)
    (f : FailureRecord) :
    (importFailure nowI wallI (exportFailure nowE wallE f)).failedAt.offset.nanos ≤
      nowI.offset.nanos + failureLead nowE wallE wallI f := by
  unfold failureLead
  show (epochMsToMonotonicForFailure nowI wallI
    (monotonicToEpochMs nowE wallE f.failedAt)).offset.nanos ≤ _
  rw [nanos_epochMsToMonotonicForFailure]
  split
  · omega
  · split <;> omega

/-- Where both wall clocks agree, a failure comes back no longer ago than it was. -/
theorem importFailure_age_le (nowE nowI : Monotonic) (wall : UInt64) (f : FailureRecord) :
    nowI.offset.nanos -
        (importFailure nowI wall (exportFailure nowE wall f)).failedAt.offset.nanos ≤
      nowE.offset.nanos - f.failedAt.offset.nanos := by
  have hend := nowI.offset.bound
  have hwall := Word64.toNat_lt wall
  show nowI.offset.nanos - (epochMsToMonotonicForFailure nowI wall
    (monotonicToEpochMs nowE wall f.failedAt)).offset.nanos ≤ _
  rw [nanos_epochMsToMonotonicForFailure]
  rcases Nat.le_total f.failedAt.offset.nanos nowE.offset.nanos with hpast | hahead
  · rw [toNat_monotonicToEpochMs_of_le wall hpast]
    split
    · omega
    · split <;> omega
  · rw [toNat_monotonicToEpochMs_of_ge wall hahead]
    split <;> omega

theorem importFailure_retryAfter_le (nowE nowI : Monotonic) (wallE wallI : UInt64)
    (f : FailureRecord) :
    (importFailure nowI wallI (exportFailure nowE wallE f)).retryAfter.nanos ≤
      f.retryAfter.nanos := by
  show (narrow f.retryAfter).nanos ≤ _
  rw [nanos_narrow]
  have := Nat.mod_le (f.retryAfter.nanos / 1000000) 18446744073709551616
  omega

/-- A handed-over failure record holds fetches back for at most its window and
the lead, and where the wall clocks agree for at least the whole milliseconds
of what remained. -/
theorem failure_window_handed_over
    (h : s.handOver clock wallE builder token nowI wallI = .ok bundle)
    (hf : s.failureBackoffs[k]? = some f) :
    (∀ t : Monotonic, nowI.offset.nanos + f.retryAfter.nanos +
        failureLead (clock.now 0) wallE wallI f ≤ t.offset.nanos →
      bundle.store.failureBackoffRemaining k t = none) ∧
    (wallI = wallE → FitsMillis f.retryAfter →
      ∀ remaining, s.failureBackoffRemaining k (clock.now 0) = some remaining →
        ∀ t : Monotonic, nowI ≤ t →
          t.offset.nanos + f.retryAfter.nanos % 1000000 < nowI.offset.nanos + remaining.nanos →
            (bundle.store.failureBackoffRemaining k t).isSome) := by
  have hrecord := handOver_failure h hf
  constructor
  · intro t ht
    have hfailed := importFailure_failedAt_le (clock.now 0) nowI wallE wallI f
    have hretry := importFailure_retryAfter_le (clock.now 0) nowI wallE wallI f
    rw [← Option.not_isSome_iff_eq_none, failureBackoffRemaining_isSome_iff hrecord]
    omega
  · rintro rfl hfits remaining hremaining t hle ht
    have hage := importFailure_age_le (clock.now 0) nowI wallI f
    have hretry : (importFailure nowI wallI (exportFailure (clock.now 0) wallI f)).retryAfter.nanos =
        1000000 * (f.retryAfter.nanos / 1000000) :=
      congrArg Duration.nanos ((narrow_eq_floorMillis_iff f.retryAfter).mpr hfits)
    rw [failureBackoffRemaining_nanos hf hremaining] at ht
    rw [failureBackoffRemaining_isSome_iff hrecord, hretry]
    rw [Monotonic.le_iff] at hle
    omega

end Failures

theorem exists_ok_and {ε α : Type} {x : Except ε α} {P : α → Prop}
    (h : ∃ a ∈ x.toOption, P a) : ∃ a, x = .ok a ∧ P a := by
  obtain ⟨a, ha, hp⟩ := h
  rcases x with e | b
  · cases ha
  · cases ha
    exact ⟨_, rfl, hp⟩

/-- A store whose one fetch has just failed, 100 seconds into its timeline. -/
def failedFetch (backoff : Duration) : Store :=
  let store := newWithToken 0 backoff
  let defined := (store.defineWithMeta "k" (.command ["op"] none ∅) Ttl.never
    ⟨none, ∅⟩ ⟨none, ∅⟩).2
  (defined.getOrRegenerate "k" (fun _ _ _ => .error .emptyOutput) (fun _ => .ok ()) none
    store.controlCap (Clock.constant ⟨Duration.fromSecs 100⟩)).2

/-- Imported when `wallI` is read, at the same monotonic reading. -/
def failedFetchHandedOver (backoff : Duration) (wallE wallI : UInt64) :
    Except HandoffError StoreBundle :=
  (failedFetch backoff).handOver (Clock.constant ⟨Duration.fromSecs 100⟩) wallE ⟨backoff⟩ 1
    ⟨Duration.fromSecs 100⟩ wallI

/-- A wall clock set back five seconds prolongs a ten-second window, and half a
millisecond of a window is lost where the clocks agree. -/
theorem failure_window_stretched_and_cut :
    (∃ bundle, failedFetchHandedOver (Duration.fromSecs 10) 105000 100000 = .ok bundle ∧
      (bundle.store.failureBackoffRemaining "k" ⟨Duration.fromSecs 110⟩).isSome) ∧
    ∃ bundle, failedFetchHandedOver ⟨10000500000, by decide⟩ 100000 100000 = .ok bundle ∧
      (failedFetch ⟨10000500000, by decide⟩).failureBackoffRemaining "k"
        ⟨Duration.fromSecs 100⟩ = some ⟨10000500000, by decide⟩ ∧
      bundle.store.failureBackoffRemaining "k" ⟨⟨110000400000, by decide⟩⟩ = none := by
  constructor
  · apply exists_ok_and
    decide
  · apply exists_ok_and
    decide

theorem failure_window_handed_over_ten_seconds :
    ∃ bundle, failedFetchHandedOver (Duration.fromSecs 10) 100000 100000 = .ok bundle ∧
      bundle.store.failureBackoffRemaining "k" ⟨Duration.fromSecs 110⟩ = none ∧
      (bundle.store.failureBackoffRemaining "k" ⟨Duration.fromSecs 109⟩).isSome := by
  have hrecord : (failedFetch (Duration.fromSecs 10)).failureBackoffs["k"]? =
      some ⟨⟨Duration.fromSecs 100⟩, Duration.fromSecs 10⟩ := by
    decide
  have hover : ∃ bundle, failedFetchHandedOver (Duration.fromSecs 10) 100000 100000 = .ok bundle ∧
      True := by
    apply exists_ok_and
    decide
  obtain ⟨bundle, hbundle, -⟩ := hover
  have hwindow := failure_window_handed_over hbundle hrecord
  refine ⟨bundle, hbundle, hwindow.1 _ (by decide), ?_⟩
  exact hwindow.2 rfl (show FitsMillis (Duration.fromSecs 10) by decide) (Duration.fromSecs 10) (by decide) _ (by decide)
    (by decide)

end Store

end CacheWarden
