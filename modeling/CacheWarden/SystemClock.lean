import CacheWarden.Clock

/-!
# The system clock

`std::time::Instant` is a point on the timeline of the machine, its seconds in
an `i64`. A `SystemClock` counts from a base on it, and two clocks with
different bases number the same instant differently.
-/

set_option autoImplicit false

namespace CacheWarden

structure Instant where
  nanos : ℕ
  bound : nanos < 9223372036854775808000000000
  deriving DecidableEq

namespace Instant

@[ext] theorem ext {a b : Instant} (h : a.nanos = b.nanos) : a = b := by
  cases a
  cases b
  simpa using h

instance : LE Instant := ⟨fun a b => a.nanos ≤ b.nanos⟩
instance : LT Instant := ⟨fun a b => a.nanos < b.nanos⟩
instance (a b : Instant) : Decidable (a ≤ b) := inferInstanceAs (Decidable (a.nanos ≤ b.nanos))
instance (a b : Instant) : Decidable (a < b) := inferInstanceAs (Decidable (a.nanos < b.nanos))

theorem le_iff {a b : Instant} : a ≤ b ↔ a.nanos ≤ b.nanos := Iff.rfl

theorem lt_iff {a b : Instant} : a < b ↔ a.nanos < b.nanos := Iff.rfl

protected theorem le_refl (a : Instant) : a ≤ a := Nat.le_refl _

protected theorem le_trans {a b c : Instant} (hab : a ≤ b) (hbc : b ≤ c) : a ≤ c :=
  Nat.le_trans hab hbc

def checkedSub (self : Instant) (d : Duration) : Option Instant :=
  if d.nanos ≤ self.nanos then some ⟨self.nanos - d.nanos, by have := self.bound; omega⟩ else none

/-- The source panics where this stops, at the end of the timeline. -/
def add (self : Instant) (d : Duration) : Instant :=
  ⟨min (self.nanos + d.nanos) 9223372036854775807999999999, by omega⟩

end Instant

/-- The instants at which one operation looks at the time, in their order. -/
structure Instants where
  now : ℕ → Instant
  last : Instant
  mono : ∀ i, now i ≤ now (i + 1)
  le_last : ∀ i, now i ≤ last

namespace Instants

def constant (t : Instant) : Instants where
  now _ := t
  last := t
  mono _ := Instant.le_refl t
  le_last _ := Instant.le_refl t

def after (self : Instants) (n : ℕ) : Instants where
  now i := self.now (n + i)
  last := self.last
  mono i := self.mono (n + i)
  le_last i := self.le_last (n + i)

theorem now_mono (self : Instants) {i j : ℕ} (h : i ≤ j) : self.now i ≤ self.now j := by
  induction h with
  | refl => exact Instant.le_refl _
  | step _ ih => exact Instant.le_trans ih (self.mono _)

/-- The same instants, none of them before `t`. -/
def since (self : Instants) (t : Instant) : Instants where
  now i := if self.now i ≤ t then t else self.now i
  last := if self.last ≤ t then t else self.last
  mono i := by
    have h := self.mono i
    simp only [Instant.le_iff] at h ⊢
    split <;> split <;> omega
  le_last i := by
    have h := self.le_last i
    simp only [Instant.le_iff] at h ⊢
    split <;> split <;> omega

theorem le_now_since (self : Instants) (t : Instant) (i : ℕ) : t ≤ (self.since t).now i := by
  simp only [since, Instant.le_iff]
  split <;> omega

theorem le_last_since (self : Instants) (t : Instant) : t ≤ (self.since t).last :=
  Instant.le_trans (le_now_since self t 0) ((self.since t).le_last 0)

end Instants

structure SystemClock where
  base : Instant
  deriving DecidableEq

namespace SystemClock

def new (now : Instant) : SystemClock := ⟨now⟩

/-- Backdated by `offset`, unless the machine has not been up that long: the
time is then read again. -/
def withEpochOffset (instants : Instants) (offset : Duration) : SystemClock :=
  ⟨((instants.now 0).checkedSub offset).getD (instants.now 1)⟩

def now (self : SystemClock) (instant : Instant) : Monotonic :=
  ⟨⟨instant.nanos - self.base.nanos, by have := instant.bound; omega⟩⟩

@[simp] theorem nanos_now (self : SystemClock) (t : Instant) :
    (self.now t).offset.nanos = t.nanos - self.base.nanos := rfl

theorem now_mono (self : SystemClock) {t u : Instant} (h : t ≤ u) : self.now t ≤ self.now u := by
  rw [Instant.le_iff] at h
  rw [Monotonic.le_iff, nanos_now, nanos_now]
  omega

/-- What the clock shows at these instants. -/
def readings (self : SystemClock) (instants : Instants) : Clock where
  now i := self.now (instants.now i)
  last := self.now instants.last
  mono i := self.now_mono (instants.mono i)
  le_last i := self.now_mono (instants.le_last i)

end SystemClock

end CacheWarden
