import CacheWarden.Clock
import CacheWarden.Lib.KeyMap

/-!
# The two-stage lifecycle of one cache entry

The soft window runs from the last extend, the hard window from the load, and
an active pin suppresses both. A value is destroyed exactly when the entry is
latched as hard-expired; the entry carries that equivalence, so a live value
under a latched entry cannot be built.
-/

set_option autoImplicit false

namespace CacheWarden

abbrev Bytes := List UInt8

/-- A `PathBuf`: text, or bytes that are not UTF-8. -/
inductive OsPath where
  | utf8 (text : String)
  | raw (bytes : Bytes)
  deriving DecidableEq

inductive ValueSource where
  | static
  | command (argv : List String) (cwd : Option OsPath) (env : KeyMap String)
  deriving DecidableEq

def ValueSource.isRegenerable : ValueSource → Bool
  | .static => false
  | .command .. => true

inductive TtlError where
  | softExceedsHard (soft hard : Duration)
  deriving DecidableEq

structure Ttl where
  soft : Option Duration
  hard : Option Duration
  ordered : ∀ s ∈ soft, ∀ h ∈ hard, s ≤ h
  deriving DecidableEq

namespace Ttl

def new (soft hard : Option Duration) : Except TtlError Ttl :=
  match soft, hard with
  | some s, some h =>
    if hle : s ≤ h then
      .ok ⟨some s, some h, by rintro _ ⟨⟩ _ ⟨⟩; exact hle⟩
    else .error (.softExceedsHard s h)
  | some s, none => .ok ⟨some s, none, by rintro _ _ _ ⟨⟩⟩
  | none, hard => .ok ⟨none, hard, by rintro _ ⟨⟩⟩

def never : Ttl := ⟨none, none, by rintro _ ⟨⟩⟩

@[ext] theorem ext {a b : Ttl} (hs : a.soft = b.soft) (hh : a.hard = b.hard) : a = b := by
  cases a
  cases b
  simp_all

/-- `new` accepts exactly the pairs that are in order. -/
theorem new_ok_iff (soft hard : Option Duration) (ttl : Ttl) :
    new soft hard = .ok ttl ↔ ttl.soft = soft ∧ ttl.hard = hard := by
  constructor
  · intro h
    unfold new at h
    split at h
    · split at h
      · cases h
        exact ⟨rfl, rfl⟩
      · cases h
    · cases h
      exact ⟨rfl, rfl⟩
    · cases h
      exact ⟨rfl, rfl⟩
  · rintro ⟨rfl, rfl⟩
    have hord := ttl.ordered
    unfold new
    split
    · rename_i s h hs hh
      have hle : s ≤ h := hord s hs h hh
      simp only [hle, dite_true, Except.ok.injEq]
      exact ext hs.symm hh.symm
    · rename_i hs hh
      simp only [Except.ok.injEq]
      exact ext hs.symm hh.symm
    · rename_i hs
      simp only [Except.ok.injEq]
      exact ext hs.symm rfl

end Ttl

inductive EntryState where
  | active
  | softExpired
  | hardExpired
  deriving DecidableEq

structure CacheEntry where
  source : ValueSource
  ttl : Ttl
  value : Option Bytes
  loadedAt : Monotonic
  extendedAt : Monotonic
  pinDeadline : Option Monotonic
  hardExpired : Bool
  latched : hardExpired = value.isNone
  deriving DecidableEq

inductive ExtendError where
  | hardExpired
  deriving DecidableEq

inductive PinError where
  | hardExpired
  deriving DecidableEq

namespace CacheEntry

def new (source : ValueSource) (value : Bytes) (ttl : Ttl) (now : Monotonic) : CacheEntry where
  source := source
  ttl := ttl
  value := some value
  loadedAt := now
  extendedAt := now
  pinDeadline := none
  hardExpired := false
  latched := rfl

/-- The lifecycle state at the reading `now`, without side effects. -/
def state (self : CacheEntry) (now : Monotonic) : EntryState :=
  if self.hardExpired || self.value.isNone then .hardExpired
  else if self.pinDeadline.any (now < ·) then .active
  else if self.ttl.hard.any (· ≤ now.saturatingDurationSince self.loadedAt) then .hardExpired
  else if self.ttl.soft.any (· ≤ now.saturatingDurationSince self.extendedAt) then .softExpired
  else .active

def zeroizeValue (self : CacheEntry) : CacheEntry :=
  { self with value := none, hardExpired := true, latched := rfl }

def forceHardExpire (self : CacheEntry) : CacheEntry := self.zeroizeValue

def evaluate (self : CacheEntry) (now : Monotonic) : EntryState × CacheEntry :=
  match self.state now with
  | .hardExpired => (.hardExpired, self.zeroizeValue)
  | s => (s, self)

def get (self : CacheEntry) (now : Monotonic) : Option Bytes × CacheEntry :=
  match self.evaluate now with
  | (.active, e) => (e.value, e)
  | (_, e) => (none, e)

/-- Two readings: one to evaluate, one for the new start of the soft window. -/
def extend (self : CacheEntry) (clock : Clock) : Except ExtendError Unit × CacheEntry :=
  match self.evaluate (clock.now 0) with
  | (.hardExpired, e) => (.error .hardExpired, e)
  | (_, e) => (.ok (), { e with extendedAt := clock.now 1 })

def pinUntil (self : CacheEntry) (deadline now : Monotonic) :
    Except PinError Unit × CacheEntry :=
  match self.evaluate now with
  | (.hardExpired, e) => (.error .hardExpired, e)
  | (_, e) => (.ok (), { e with pinDeadline := some deadline })

def unpin (self : CacheEntry) : CacheEntry := { self with pinDeadline := none }

def fromParts (source : ValueSource) (ttl : Ttl) (value : Bytes)
    (loadedAt extendedAt : Monotonic) (pinDeadline : Option Monotonic) : CacheEntry where
  source := source
  ttl := ttl
  value := some value
  loadedAt := loadedAt
  extendedAt := extendedAt
  pinDeadline := pinDeadline
  hardExpired := false
  latched := rfl

theorem state_of_value {e : CacheEntry} {v : Bytes} (h : e.value = some v) (now : Monotonic) :
    e.state now =
      if e.pinDeadline.any (now < ·) then .active
      else if e.ttl.hard.any (· ≤ now.saturatingDurationSince e.loadedAt) then .hardExpired
      else if e.ttl.soft.any (· ≤ now.saturatingDurationSince e.extendedAt) then .softExpired
      else .active := by
  have hl : e.hardExpired = false := by rw [e.latched, h]; rfl
  simp [state, hl, h]

theorem value_isSome_of_state {e : CacheEntry} {now : Monotonic}
    (h : e.state now ≠ .hardExpired) : ∃ v, e.value = some v := by
  cases hv : e.value with
  | none => exact absurd (by simp [state, hv]) h
  | some v => exact ⟨v, rfl⟩

@[simp] theorem evaluate_fst (e : CacheEntry) (now : Monotonic) :
    (e.evaluate now).1 = e.state now := by
  unfold evaluate
  split
  · rename_i h
    exact h.symm
  · rfl

theorem evaluate_snd (e : CacheEntry) (now : Monotonic) :
    (e.evaluate now).2 = if e.state now = .hardExpired then e.zeroizeValue else e := by
  unfold evaluate
  split
  · rename_i h
    simp [h]
  · rename_i h
    rw [if_neg]
    exact fun hs => h hs

/-- A value that `get` hands out is the entry's own, and the entry is Active. -/
theorem get_some {e : CacheEntry} {now : Monotonic} {v : Bytes} (h : (e.get now).1 = some v) :
    e.state now = .active ∧ e.value = some v := by
  unfold get at h
  split at h
  · rename_i e' he
    have hstate : e.state now = .active := by rw [← evaluate_fst, he]
    have hsame : e' = e := by
      have hsnd := evaluate_snd e now
      rw [he, hstate] at hsnd
      simpa using hsnd
    exact ⟨hstate, hsame ▸ h⟩
  · cases h

end CacheEntry

end CacheWarden
