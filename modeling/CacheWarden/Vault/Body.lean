import CacheWarden.Snapshot

/-!
# What the vault keeps: entries, claims, and the ways an operation fails

An entry carries its value together with the version, the refresh claim and the
authorization that govern it. The guard and the owner are JSON documents to the
vault; `JsonSlot` is such a document as its reader sees it.
-/

set_option autoImplicit false

namespace CacheWarden

namespace Vault

def tokenChars : ℕ := 22

def isBase64UrlChar (c : Char) : Bool := isAsciiAlphanumeric c || c == '-' || c == '_'

structure ClaimToken where
  text : String
  deriving DecidableEq

namespace ClaimToken

/-- Only the shape is checked. A text of ASCII characters has as many bytes as
characters. -/
def parse (s : String) : Option ClaimToken :=
  if s.toList.length = tokenChars ∧ s.toList.all isBase64UrlChar then some ⟨s⟩ else none

def asStr (self : ClaimToken) : String := self.text

def «matches» (self other : ClaimToken) : Bool := self.text == other.text

@[simp] theorem matches_iff (a b : ClaimToken) : a.matches b = true ↔ a = b := by
  cases a
  cases b
  simp [«matches»]

theorem parse_some {s : String} {t : ClaimToken} (h : parse s = some t) : t.asStr = s := by
  unfold parse at h
  split at h
  · cases h
    rfl
  · cases h

end ClaimToken

structure Claim where
  token : ClaimToken
  claimedAtEpochMs : UInt64
  expiresAtEpochMs : UInt64
  deriving DecidableEq

namespace Claim

/-- Exclusive at the boundary: a claim whose expiry is now has lapsed. -/
def isActiveAt (self : Claim) (nowEpochMs : UInt64) : Bool := nowEpochMs < self.expiresAtEpochMs

def remainingMs (self : Claim) (nowEpochMs : UInt64) : UInt64 :=
  Word64.saturatingSub self.expiresAtEpochMs nowEpochMs

/-- A claim that has lapsed stays lapsed. -/
theorem not_active_of_le {c : Claim} {t u : UInt64} (h : c.isActiveAt t = false) (htu : t ≤ u) :
    c.isActiveAt u = false := by
  simp only [isActiveAt, decide_eq_false_iff_not, UInt64.not_lt] at h ⊢
  exact UInt64.le_trans h htu

end Claim

/-- A working directory that is not text cannot be serialized: the write stops
before anything is committed. -/
inductive VaultSource where
  | static
  | command (argv : List String) (cwd : Option String) (env : KeyMap String)
  deriving DecidableEq

structure VaultValueMeta where
  typeName : Option String
  params : KeyMap String
  deriving DecidableEq

structure VaultDefinition where
  source : VaultSource
  softTtlMs : Option UInt64
  hardTtlMs : Option UInt64
  sourceMetaKind : Option String
  sourceMetaFields : KeyMap String
  deriving DecidableEq

/-- A JSON document other than `null`, read as an `α`: one that parses, or the
text of one that does not. -/
inductive JsonSlot (α : Type) where
  | value (a : α)
  | foreign (text : String)
  deriving DecidableEq

structure VaultEntry where
  key : String
  secret : Bytes
  casVersion : UInt64
  refreshClaim : Option Claim
  valueMeta : Option VaultValueMeta
  definition : Option VaultDefinition
  guard : Option (JsonSlot SnapshotGuard)
  owner : Option (JsonSlot OwnerPrincipal)
  updatedAtEpochMs : UInt64
  deriving DecidableEq

namespace VaultEntry

def new (key : String) (secret : Bytes) (nowEpochMs : UInt64) : VaultEntry where
  key := key
  secret := secret
  casVersion := 1
  refreshClaim := none
  valueMeta := none
  definition := none
  guard := none
  owner := none
  updatedAtEpochMs := nowEpochMs

/-- The claim holding the entry at `now`, if one does. -/
def activeClaim (self : VaultEntry) (now : UInt64) : Option Claim :=
  self.refreshClaim.filter (·.isActiveAt now)

end VaultEntry

/-- The three paths a file operation of the vault can fail on. -/
inductive VaultPath where
  | file
  | temp
  | directory
  deriving DecidableEq

inductive VaultError where
  | badMagic
  | unsupportedVersion (got : ℕ)
  | unsupportedAlgorithm (field : String) (id : ℕ)
  | unknownSlotKind (id : ℕ)
  | truncated
  | fieldTooLarge (field : String) (len : ℕ)
  | fileTooLarge (len : ℕ)
  | malformed (reason : String)
  | decryptFailed (stage : String)
  | noMatchingSlot
  | casMismatch (current : UInt64)
  | alreadyClaimed (expiresAtEpochMs : UInt64)
  | claimRequired (expiresAtEpochMs : UInt64)
  | claimTokenMismatch
  | malformedClaimToken
  | entryNotFound
  | slotNotFound
  | lastSlot
  | malformedRecoveryCode
  | vaultIdMismatch
  | nonContributoryExchange
  | malformedBody (detail : String)
  | io (path : VaultPath) (source : String)
  deriving DecidableEq

/-- An active claim demands its own token; a lapsed one demands nothing. -/
def checkClaim (existing : VaultEntry) (token : Option ClaimToken) (now : UInt64) :
    Except VaultError Unit :=
  match existing.activeClaim now with
  | none => .ok ()
  | some active =>
    match token with
    | none => .error (.claimRequired active.expiresAtEpochMs)
    | some t => if active.token.matches t then .ok () else .error .claimTokenMismatch

/-- What `check_claim` lets through. -/
theorem checkClaim_ok_iff {existing : VaultEntry} {token : Option ClaimToken} {now : UInt64} :
    checkClaim existing token now = .ok () ↔
      ∀ c ∈ existing.activeClaim now, token = some c.token := by
  unfold checkClaim
  rcases existing.activeClaim now with _ | c
  · simp
  · rcases token with _ | t
    · simp
    · by_cases h : c.token = t
      · simp [h]
      · have hm : c.token.matches t = false := by
          rw [← Bool.not_eq_true, ClaimToken.matches_iff]
          exact h
        simp [hm, Ne.symm h]

end Vault

end CacheWarden
