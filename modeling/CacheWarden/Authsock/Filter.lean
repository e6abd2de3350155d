import CacheWarden.Authsock.Registry

/-!
# The key filter of an agent socket

A filter is an OR of groups, each an AND of rules, each one matcher with an
optional negation. Every matcher judges the identity alone, but for the
`github` one: it reads a cached key set that a background task fetches, and
answers `false` while it has none. A negated rule turns that `false` round.
-/

set_option autoImplicit false

namespace CacheWarden

/-- The key, glob and pattern libraries: what each reads off a key or a text. -/
structure MatchLibs where
  fingerprint : Blob → Option String
  keyType : Blob → Option String
  globMatch : String → String → Bool
  regexMatch : String → String → Bool
  toLowercase : String → String

inductive CommentMatcher where
  | exact (pattern : String)
  | glob (pattern : String)
  | regex (pattern : String)
  deriving DecidableEq

def CommentMatcher.matches (libs : MatchLibs) (identity : Identity) : CommentMatcher → Bool
  | .exact s => identity.comment == s
  | .glob g => libs.globMatch g identity.comment
  | .regex r => libs.regexMatch r identity.comment

structure FingerprintMatcher where
  pattern : String
  deriving DecidableEq

def FingerprintMatcher.matches (libs : MatchLibs) (self : FingerprintMatcher)
    (identity : Identity) : Bool :=
  match libs.fingerprint identity.keyBlob with
  | some fp => self.pattern.toList.isPrefixOf fp.toList || self.pattern == fp
  | none => false

structure KeyTypeMatcher where
  keyType : String
  deriving DecidableEq

namespace KeyTypeMatcher

def normalize (libs : MatchLibs) (keyType : String) : String :=
  let lower := libs.toLowercase keyType
  if lower = "ssh-ed25519" ∨ lower = "ed25519" then "ed25519"
  else if lower = "ssh-rsa" ∨ lower = "rsa" then "rsa"
  else if lower = "ssh-dss" ∨ lower = "dsa" ∨ lower = "dss" then "dsa"
  else if "ecdsa-sha2-".toList.isPrefixOf lower.toList then "ecdsa"
  else if lower = "ecdsa" then "ecdsa"
  else if "sk-ssh-ed25519".toList.isPrefixOf lower.toList then "sk-ed25519"
  else if lower = "sk-ed25519" then "sk-ed25519"
  else if "sk-ecdsa-sha2-".toList.isPrefixOf lower.toList then "sk-ecdsa"
  else if lower = "sk-ecdsa" then "sk-ecdsa"
  else lower

def new (libs : MatchLibs) (keyType : String) : KeyTypeMatcher := ⟨normalize libs keyType⟩

end KeyTypeMatcher

def KeyTypeMatcher.matches (libs : MatchLibs) (self : KeyTypeMatcher) (identity : Identity) :
    Bool :=
  match libs.keyType identity.keyBlob with
  | some algo => normalize libs algo == self.keyType
  | none => false

structure PubkeyMatcher where
  keyBlob : Blob
  deriving DecidableEq

def PubkeyMatcher.matches (self : PubkeyMatcher) (identity : Identity) : Bool :=
  identity.keyBlob == self.keyBlob

structure KeyfileMatcher where
  path : String
  matchers : List PubkeyMatcher
  deriving DecidableEq

def KeyfileMatcher.matches (self : KeyfileMatcher) (identity : Identity) : Bool :=
  self.matchers.any (·.matches identity)

structure GithubCache where
  keys : List Blob
  fetchedAt : Option Monotonic
  valid : Bool
  deriving DecidableEq

/-- A `github=<user>` matcher, with the cache it reads. -/
structure GithubMatcher where
  user : String
  cache : GithubCache
  deriving DecidableEq

def GithubMatcher.matches (self : GithubMatcher) (identity : Identity) : Bool :=
  self.cache.valid && self.cache.keys.contains identity.keyBlob

namespace GithubMatcher

def new (user : String) : GithubMatcher := ⟨user, ⟨[], none, false⟩⟩

def setKeys (self : GithubMatcher) (keys : List Blob) (now : Monotonic) : GithubMatcher :=
  { self with cache := ⟨keys, some now, true⟩ }

def markFailed (self : GithubMatcher) (now : Monotonic) : GithubMatcher :=
  { self with cache := { self.cache with valid := false, fetchedAt := some now } }

@[simp] theorem matches_setKeys (self : GithubMatcher) (keys : List Blob) (now : Monotonic)
    (identity : Identity) :
    (self.setKeys keys now).matches identity = keys.contains identity.keyBlob := by
  simp [setKeys, GithubMatcher.matches]

theorem matches_of_invalid {self : GithubMatcher} (h : self.cache.valid = false)
    (identity : Identity) : self.matches identity = false := by
  simp [GithubMatcher.matches, h]

end GithubMatcher

inductive Filter where
  | fingerprint (m : FingerprintMatcher)
  | pubkey (m : PubkeyMatcher)
  | keyfile (m : KeyfileMatcher)
  | comment (m : CommentMatcher)
  | keyType (m : KeyTypeMatcher)
  | github (m : GithubMatcher)
  deriving DecidableEq

def Filter.matches (libs : MatchLibs) (identity : Identity) : Filter → Bool
  | .fingerprint m => m.matches libs identity
  | .pubkey m => m.matches identity
  | .keyfile m => m.matches identity
  | .comment m => m.matches libs identity
  | .keyType m => m.matches libs identity
  | .github m => m.matches identity

namespace Filter

def needsComment : Filter → Bool
  | .comment _ => true
  | _ => false

/-- The filter reads a key set it does not have. -/
def unavailable : Filter → Bool
  | .github m => !m.cache.valid
  | _ => false

end Filter

structure FilterRule where
  filter : Filter
  negated : Bool
  deriving DecidableEq

def FilterRule.matches (libs : MatchLibs) (self : FilterRule) (identity : Identity) : Bool :=
  if self.negated then !self.filter.matches libs identity else self.filter.matches libs identity

structure FilterGroup where
  rules : List FilterRule
  deriving DecidableEq

def FilterGroup.matches (libs : MatchLibs) (self : FilterGroup) (identity : Identity) : Bool :=
  if self.rules.isEmpty then true else self.rules.all (·.matches libs identity)

structure FilterEvaluator where
  groups : List FilterGroup
  deriving DecidableEq

def FilterEvaluator.matches (libs : MatchLibs) (self : FilterEvaluator) (identity : Identity) :
    Bool :=
  if self.groups.isEmpty then true else self.groups.any (·.matches libs identity)

def FilterEvaluator.isBlobOnly (self : FilterEvaluator) : Bool :=
  (self.groups.flatMap (·.rules)).all fun r => !r.filter.needsComment

theorem FilterGroup.matches_iff {libs : MatchLibs} {self : FilterGroup} {identity : Identity} :
    self.matches libs identity = true ↔ ∀ r ∈ self.rules, r.matches libs identity = true := by
  unfold FilterGroup.matches
  by_cases h : self.rules.isEmpty = true
  · simp [List.isEmpty_iff.mp h]
  · rw [if_neg h, List.all_eq_true]

theorem FilterEvaluator.matches_iff {libs : MatchLibs} {self : FilterEvaluator}
    {identity : Identity} :
    self.matches libs identity = true ↔
      self.groups = [] ∨ ∃ g ∈ self.groups, g.matches libs identity = true := by
  unfold FilterEvaluator.matches
  by_cases h : self.groups.isEmpty = true
  · simp [List.isEmpty_iff.mp h]
  · rw [if_neg h, List.any_eq_true]
    simp [mt List.isEmpty_iff.mpr h]

theorem Filter.matches_comment {libs : MatchLibs} {self : Filter} (h : self.needsComment = false)
    (keyBlob : Blob) (c c' : String) :
    self.matches libs ⟨keyBlob, c⟩ = self.matches libs ⟨keyBlob, c'⟩ := by
  cases self with
  | comment m => cases h
  | _ => rfl

/-- A blob-only evaluator gives an identity the same verdict under any comment. -/
theorem FilterEvaluator.matches_of_isBlobOnly {libs : MatchLibs} {self : FilterEvaluator}
    (h : self.isBlobOnly = true) (keyBlob : Blob) (c c' : String) :
    self.matches libs ⟨keyBlob, c⟩ = self.matches libs ⟨keyBlob, c'⟩ := by
  have hrule : ∀ g ∈ self.groups, ∀ r ∈ g.rules,
      r.matches libs ⟨keyBlob, c⟩ = r.matches libs ⟨keyBlob, c'⟩ := by
    intro g hg r hr
    simp only [isBlobOnly, List.all_eq_true, List.mem_flatMap] at h
    have hcomment := h r ⟨g, hg, hr⟩
    unfold FilterRule.matches
    rw [Filter.matches_comment (by simpa using hcomment) keyBlob c c']
  rw [Bool.eq_iff_iff, matches_iff, matches_iff]
  simp only [FilterGroup.matches_iff]
  apply or_congr_right
  constructor
  · rintro ⟨g, hg, hall⟩
    exact ⟨g, hg, fun r hr => hrule g hg r hr ▸ hall r hr⟩
  · rintro ⟨g, hg, hall⟩
    exact ⟨g, hg, fun r hr => (hrule g hg r hr).symm ▸ hall r hr⟩

end CacheWarden
