import CacheWarden.Lib.Word64

/-!
# Spans of time

A span is a count of nanoseconds below the largest the standard library can
hold, a 64-bit count of seconds. The bound is carried by the value, so that
saturation happens where the source saturates and nowhere else.
-/

set_option autoImplicit false

structure Duration where
  nanos : ℕ
  bound : nanos < 18446744073709551616000000000
  deriving DecidableEq

namespace Duration

@[ext] theorem ext {a b : Duration} (h : a.nanos = b.nanos) : a = b := by
  cases a
  cases b
  simpa using h

instance : LE Duration := ⟨fun a b => a.nanos ≤ b.nanos⟩
instance : LT Duration := ⟨fun a b => a.nanos < b.nanos⟩
instance (a b : Duration) : Decidable (a ≤ b) := inferInstanceAs (Decidable (a.nanos ≤ b.nanos))
instance (a b : Duration) : Decidable (a < b) := inferInstanceAs (Decidable (a.nanos < b.nanos))

theorem le_iff {a b : Duration} : a ≤ b ↔ a.nanos ≤ b.nanos := Iff.rfl

theorem lt_iff {a b : Duration} : a < b ↔ a.nanos < b.nanos := Iff.rfl

def zero : Duration := ⟨0, by omega⟩

def saturatingAdd (a b : Duration) : Duration :=
  ⟨min (a.nanos + b.nanos) 18446744073709551615999999999, by omega⟩

def saturatingSub (a b : Duration) : Duration :=
  ⟨a.nanos - b.nanos, by have := a.bound; omega⟩

def fromSecs (secs : UInt64) : Duration :=
  ⟨1000000000 * secs.toNat, by have := Word64.toNat_lt secs; omega⟩

def fromMillis (millis : UInt64) : Duration :=
  ⟨1000000 * millis.toNat, by have := Word64.toNat_lt millis; omega⟩

/-- Whole milliseconds, in the source a 128-bit count. -/
def asMillis (d : Duration) : ℕ := d.nanos / 1000000

def asSecs (d : Duration) : UInt64 := UInt64.ofNat (d.nanos / 1000000000)

@[simp] theorem nanos_zero : zero.nanos = 0 := rfl

@[simp] theorem nanos_saturatingAdd (a b : Duration) :
    (a.saturatingAdd b).nanos = min (a.nanos + b.nanos) 18446744073709551615999999999 := rfl

@[simp] theorem nanos_saturatingSub (a b : Duration) :
    (a.saturatingSub b).nanos = a.nanos - b.nanos := rfl

@[simp] theorem nanos_fromSecs (secs : UInt64) :
    (fromSecs secs).nanos = 1000000000 * secs.toNat := rfl

@[simp] theorem nanos_fromMillis (millis : UInt64) :
    (fromMillis millis).nanos = 1000000 * millis.toNat := rfl

end Duration
