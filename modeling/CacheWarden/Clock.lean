import CacheWarden.Lib.Duration

/-!
# Monotonic time and its passage through the wall clock

A `Monotonic` is an offset from an unspecified epoch; only differences carry
meaning. A snapshot crosses a process boundary, so its timestamps travel as
milliseconds of wall-clock time and are re-anchored against the importing
clock. The four conversions are written as the source writes them, each with
the number of nanoseconds it denotes.
-/

set_option autoImplicit false

namespace CacheWarden

structure Monotonic where
  offset : Duration
  deriving DecidableEq

namespace Monotonic

@[ext] theorem ext {a b : Monotonic} (h : a.offset.nanos = b.offset.nanos) : a = b := by
  cases a
  cases b
  simpa using Duration.ext h

instance : LE Monotonic := ⟨fun a b => a.offset ≤ b.offset⟩
instance : LT Monotonic := ⟨fun a b => a.offset < b.offset⟩
instance (a b : Monotonic) : Decidable (a ≤ b) := inferInstanceAs (Decidable (a.offset ≤ b.offset))
instance (a b : Monotonic) : Decidable (a < b) := inferInstanceAs (Decidable (a.offset < b.offset))

theorem le_iff {a b : Monotonic} : a ≤ b ↔ a.offset.nanos ≤ b.offset.nanos := Iff.rfl

theorem lt_iff {a b : Monotonic} : a < b ↔ a.offset.nanos < b.offset.nanos := Iff.rfl

theorem not_lt {a b : Monotonic} : ¬ a < b ↔ b ≤ a := Nat.not_lt

protected theorem le_refl (a : Monotonic) : a ≤ a := Nat.le_refl _

protected theorem le_trans {a b c : Monotonic} (hab : a ≤ b) (hbc : b ≤ c) : a ≤ c :=
  Nat.le_trans hab hbc

def zero : Monotonic := ⟨Duration.zero⟩

def saturatingDurationSince (self earlier : Monotonic) : Duration :=
  self.offset.saturatingSub earlier.offset

def saturatingAdd (self : Monotonic) (delta : Duration) : Monotonic :=
  ⟨self.offset.saturatingAdd delta⟩

def saturatingSub (self : Monotonic) (delta : Duration) : Monotonic :=
  ⟨self.offset.saturatingSub delta⟩

@[simp] theorem nanos_zero : zero.offset.nanos = 0 := rfl

@[simp] theorem nanos_saturatingDurationSince (self earlier : Monotonic) :
    (self.saturatingDurationSince earlier).nanos = self.offset.nanos - earlier.offset.nanos := rfl

@[simp] theorem nanos_saturatingAdd (self : Monotonic) (delta : Duration) :
    (self.saturatingAdd delta).offset.nanos =
      min (self.offset.nanos + delta.nanos) 18446744073709551615999999999 := rfl

@[simp] theorem nanos_saturatingSub (self : Monotonic) (delta : Duration) :
    (self.saturatingSub delta).offset.nanos = self.offset.nanos - delta.nanos := rfl

end Monotonic

/-- The readings one operation takes from its clock, in the order it takes
them. They never go back, and the last bounds them all: the next operation
reads from there on. -/
structure Clock where
  now : ℕ → Monotonic
  last : Monotonic
  mono : ∀ i, now i ≤ now (i + 1)
  le_last : ∀ i, now i ≤ last

namespace Clock

/-- The readings left after the first `n`. -/
def after (clock : Clock) (n : ℕ) : Clock where
  now i := clock.now (n + i)
  last := clock.last
  mono i := clock.mono (n + i)
  le_last i := clock.le_last (n + i)

@[simp] theorem after_now (clock : Clock) (n i : ℕ) : (clock.after n).now i = clock.now (n + i) := rfl

@[simp] theorem after_last (clock : Clock) (n : ℕ) : (clock.after n).last = clock.last := rfl

def constant (t : Monotonic) : Clock where
  now _ := t
  last := t
  mono _ := Monotonic.le_refl t
  le_last _ := Monotonic.le_refl t

/-- The same clock, held at `t` while it reads less: a clock that continues one
whose last reading was `t`. -/
def since (clock : Clock) (t : Monotonic) : Clock where
  now i := if clock.now i ≤ t then t else clock.now i
  last := if clock.last ≤ t then t else clock.last
  mono i := by
    have h := clock.mono i
    simp only [Monotonic.le_iff] at h ⊢
    split <;> split <;> omega
  le_last i := by
    have h := clock.le_last i
    simp only [Monotonic.le_iff] at h ⊢
    split <;> split <;> omega

theorem le_now_since (clock : Clock) (t : Monotonic) (i : ℕ) : t ≤ (clock.since t).now i := by
  simp only [since, Monotonic.le_iff]
  split <;> omega

theorem le_last_since (clock : Clock) (t : Monotonic) : t ≤ (clock.since t).last :=
  Monotonic.le_trans (le_now_since clock t 0) ((clock.since t).le_last 0)

theorem now_mono (clock : Clock) {i j : ℕ} (h : i ≤ j) : clock.now i ≤ clock.now j := by
  induction h with
  | refl => exact Monotonic.le_refl _
  | step _ ih => exact Monotonic.le_trans ih (clock.mono _)

end Clock

/-- Saturating `Duration` to millisecond-`u64` conversion. -/
def millisSaturatingU64 (d : Duration) : UInt64 := Word64.ofNatSaturating d.asMillis

/-- The bare cast `as_millis() as u64`, which keeps the low 64 bits. -/
def millisTruncatingU64 (d : Duration) : UInt64 := UInt64.ofNat d.asMillis

def monotonicToEpochMs (nowMono : Monotonic) (nowWallEpochMs : UInt64) (point : Monotonic) :
    UInt64 :=
  if nowMono ≤ point then
    Word64.saturatingAdd nowWallEpochMs
      (millisSaturatingU64 (point.saturatingDurationSince nowMono))
  else
    Word64.saturatingSub nowWallEpochMs
      (millisSaturatingU64 (nowMono.saturatingDurationSince point))

def epochMsToMonotonic (nowMono : Monotonic) (nowWallEpochMs epochMs : UInt64) : Monotonic :=
  if nowWallEpochMs ≤ epochMs then
    nowMono.saturatingAdd (Duration.fromMillis (epochMs - nowWallEpochMs))
  else
    nowMono.saturatingSub (Duration.fromMillis (nowWallEpochMs - epochMs))

def epochMsToMonotonicTtlBasis (nowMono : Monotonic) (nowWallEpochMs epochMs : UInt64) :
    Monotonic :=
  if nowWallEpochMs < epochMs then nowMono
  else epochMsToMonotonic nowMono nowWallEpochMs epochMs

def epochMsToMonotonicForFailure (nowMono : Monotonic) (nowWallEpochMs epochMs : UInt64) :
    Monotonic :=
  if nowWallEpochMs ≤ epochMs then
    nowMono.saturatingAdd (Duration.fromMillis (epochMs - nowWallEpochMs))
  else
    let behind := Duration.fromMillis (nowWallEpochMs - epochMs)
    if nowMono.offset < behind then nowMono
    else nowMono.saturatingSub behind

theorem toNat_millisSaturatingU64 (d : Duration) :
    (millisSaturatingU64 d).toNat = min (d.nanos / 1000000) 18446744073709551615 :=
  Word64.toNat_ofNatSaturating _

theorem toNat_millisTruncatingU64 (d : Duration) :
    (millisTruncatingU64 d).toNat = d.nanos / 1000000 % 18446744073709551616 :=
  Word64.toNat_ofNat _

theorem toNat_monotonicToEpochMs_of_le {nowMono point : Monotonic} (wall : UInt64)
    (h : point ≤ nowMono) :
    (monotonicToEpochMs nowMono wall point).toNat =
      wall.toNat - min ((nowMono.offset.nanos - point.offset.nanos) / 1000000)
        18446744073709551615 := by
  have hw := Word64.toNat_lt wall
  rw [Monotonic.le_iff] at h
  unfold monotonicToEpochMs
  split
  · rename_i hge
    rw [Monotonic.le_iff] at hge
    rw [Word64.toNat_saturatingAdd, toNat_millisSaturatingU64,
      Monotonic.nanos_saturatingDurationSince]
    omega
  · rw [Word64.toNat_saturatingSub, toNat_millisSaturatingU64,
      Monotonic.nanos_saturatingDurationSince]

theorem toNat_monotonicToEpochMs_of_ge {nowMono point : Monotonic} (wall : UInt64)
    (h : nowMono ≤ point) :
    (monotonicToEpochMs nowMono wall point).toNat =
      min (wall.toNat + min ((point.offset.nanos - nowMono.offset.nanos) / 1000000)
        18446744073709551615) 18446744073709551615 := by
  rw [monotonicToEpochMs, if_pos h, Word64.toNat_saturatingAdd, toNat_millisSaturatingU64,
    Monotonic.nanos_saturatingDurationSince]

/-- Re-anchoring, in nanoseconds: ahead of the importing reading it saturates
at the end of the timeline, behind it at its start. -/
theorem nanos_epochMsToMonotonic (nowMono : Monotonic) (wall epochMs : UInt64) :
    (epochMsToMonotonic nowMono wall epochMs).offset.nanos =
      if wall.toNat ≤ epochMs.toNat then
        min (nowMono.offset.nanos + 1000000 * (epochMs.toNat - wall.toNat))
          18446744073709551615999999999
      else nowMono.offset.nanos - 1000000 * (wall.toNat - epochMs.toNat) := by
  unfold epochMsToMonotonic
  simp only [UInt64.le_iff_toNat_le]
  split
  · rename_i h
    simp [Word64.toNat_sub_of_le h]
  · rename_i h
    simp [Word64.toNat_sub_of_le (a := wall) (b := epochMs) (by omega)]

theorem nanos_epochMsToMonotonicTtlBasis (nowMono : Monotonic) (wall epochMs : UInt64) :
    (epochMsToMonotonicTtlBasis nowMono wall epochMs).offset.nanos =
      nowMono.offset.nanos - 1000000 * (wall.toNat - epochMs.toNat) := by
  have hn := nowMono.offset.bound
  unfold epochMsToMonotonicTtlBasis
  simp only [UInt64.lt_iff_toNat_lt]
  split
  · omega
  · rw [nanos_epochMsToMonotonic]
    split <;> omega

theorem epochMsToMonotonicTtlBasis_le_now (nowMono : Monotonic) (wall epochMs : UInt64) :
    epochMsToMonotonicTtlBasis nowMono wall epochMs ≤ nowMono := by
  rw [Monotonic.le_iff, nanos_epochMsToMonotonicTtlBasis]
  omega

/-- Both conversions of a TTL basis keep the order of two timestamps. -/
theorem monotonicToEpochMs_mono {a b : Monotonic} (now : Monotonic) (wall : UInt64) (h : a ≤ b)
    (hb : b ≤ now) : (monotonicToEpochMs now wall a).toNat ≤ (monotonicToEpochMs now wall b).toNat := by
  rw [toNat_monotonicToEpochMs_of_le wall (Monotonic.le_trans h hb),
    toNat_monotonicToEpochMs_of_le wall hb]
  rw [Monotonic.le_iff] at h hb
  omega

theorem epochMsToMonotonicTtlBasis_mono {a b : UInt64} (now : Monotonic) (wall : UInt64)
    (h : a.toNat ≤ b.toNat) :
    epochMsToMonotonicTtlBasis now wall a ≤ epochMsToMonotonicTtlBasis now wall b := by
  rw [Monotonic.le_iff, nanos_epochMsToMonotonicTtlBasis, nanos_epochMsToMonotonicTtlBasis]
  omega

theorem nanos_epochMsToMonotonicForFailure (nowMono : Monotonic) (wall epochMs : UInt64) :
    (epochMsToMonotonicForFailure nowMono wall epochMs).offset.nanos =
      if wall.toNat ≤ epochMs.toNat then
        min (nowMono.offset.nanos + 1000000 * (epochMs.toNat - wall.toNat))
          18446744073709551615999999999
      else if nowMono.offset.nanos < 1000000 * (wall.toNat - epochMs.toNat) then
        nowMono.offset.nanos
      else nowMono.offset.nanos - 1000000 * (wall.toNat - epochMs.toNat) := by
  unfold epochMsToMonotonicForFailure
  simp only [UInt64.le_iff_toNat_le, Duration.lt_iff, Duration.nanos_fromMillis]
  split
  · rename_i h
    simp [Word64.toNat_sub_of_le h]
  · rename_i h
    have hsub := Word64.toNat_sub_of_le (a := wall) (b := epochMs) (by omega)
    rw [hsub]
    split
    · rfl
    · simp [hsub]

end CacheWarden
