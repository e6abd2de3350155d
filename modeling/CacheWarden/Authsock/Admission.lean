import CacheWarden.Authsock.Filter
import Mathlib.Data.List.Forall2

/-!
# What an unavailable key set can change

Every `github` rule keeps a cache of its own. A completion fills each one that
is not valid with some key set, and changes nothing else. An admission stands
under every completion when it does not rest on the answer `false` that a
negated rule drew from a set it does not have.
-/

set_option autoImplicit false

namespace CacheWarden

/-- The rule with its key set fetched, where it had none. -/
inductive FilterRule.Completes : FilterRule → FilterRule → Prop
  | available (r : FilterRule) (h : r.filter.unavailable = false) : Completes r r
  | fetched (m : GithubMatcher) (negated : Bool) (keys : List Blob) (now : Monotonic)
      (h : m.cache.valid = false) :
      Completes ⟨.github m, negated⟩ ⟨.github (m.setKeys keys now), negated⟩

def FilterGroup.Completes (g g' : FilterGroup) : Prop :=
  List.Forall₂ FilterRule.Completes g.rules g'.rules

def FilterEvaluator.Completes (self self' : FilterEvaluator) : Prop :=
  List.Forall₂ FilterGroup.Completes self.groups self'.groups

/-- What a rule says of an identity from what is known: nothing, where its key
set is unavailable. -/
def FilterRule.verdict (libs : MatchLibs) (self : FilterRule) (identity : Identity) :
    Option Bool :=
  if self.filter.unavailable then none else some (self.matches libs identity)

/-- Some group is passed by known rules alone, or every group whose rules on
unavailable sets are all negated has a known rule that the identity fails. -/
def FilterEvaluator.RestsOnKnown (libs : MatchLibs) (self : FilterEvaluator)
    (identity : Identity) : Prop :=
  (∃ g ∈ self.groups, ∀ r ∈ g.rules, r.verdict libs identity = some true) ∨
    ∀ g ∈ self.groups,
      (∀ r ∈ g.rules, r.verdict libs identity = none → r.negated = true) →
        ∃ r ∈ g.rules, r.verdict libs identity = some false

section Rule

variable {libs : MatchLibs} {identity : Identity}

theorem FilterRule.matches_of_verdict {r : FilterRule} {b : Bool}
    (h : r.verdict libs identity = some b) : r.matches libs identity = b := by
  unfold FilterRule.verdict at h
  split at h
  · cases h
  · exact Option.some.inj h

/-- The answer in place of an unavailable set: the negated rule passes. -/
theorem FilterRule.matches_of_unknown {r : FilterRule} (h : r.verdict libs identity = none) :
    r.matches libs identity = r.negated := by
  obtain ⟨filter, negated⟩ := r
  unfold FilterRule.verdict at h
  split at h
  · rename_i hun
    cases filter with
    | github m =>
      have hfalse := GithubMatcher.matches_of_invalid (by simpa [Filter.unavailable] using hun)
        identity
      cases negated <;> simp [FilterRule.matches, Filter.matches, hfalse]
    | _ => simp [Filter.unavailable] at hun
  · cases h

/-- A known rule has one completion, itself. -/
theorem FilterRule.Completes.eq_of_verdict {r r' : FilterRule} {b : Bool} (hc : r.Completes r')
    (h : r.verdict libs identity = some b) : r' = r := by
  cases hc with
  | available _ hav => rfl
  | fetched m negated keys now hinvalid =>
    simp [FilterRule.verdict, Filter.unavailable, hinvalid] at h

/-- Every rule has a completion, and one that an identity fails unless the rule
is known to pass it. -/
theorem FilterRule.exists_completes (libs : MatchLibs) (identity : Identity) (r : FilterRule) :
    ∃ r', r.Completes r' ∧
      (r.verdict libs identity ≠ some true → r'.matches libs identity = false) := by
  obtain ⟨filter, negated⟩ := r
  by_cases hun : filter.unavailable = true
  · cases filter with
    | github m =>
      have hinvalid : m.cache.valid = false := by simpa [Filter.unavailable] using hun
      refine ⟨_, .fetched m negated (if negated then [identity.keyBlob] else []) Monotonic.zero
        hinvalid, fun _ => ?_⟩
      cases negated <;> simp [FilterRule.matches, Filter.matches]
    | _ => simp [Filter.unavailable] at hun
  · refine ⟨_, .available _ (by simpa using hun), fun h => ?_⟩
    simpa [FilterRule.verdict, hun] using h

end Rule

section Forall₂

variable {α : Type} {R : α → α → Prop}

theorem exists_of_mem_left {l l' : List α} (h : List.Forall₂ R l l') {a : α} (ha : a ∈ l) :
    ∃ b ∈ l', R a b := by
  induction h with
  | nil => cases ha
  | cons hr hrest ih =>
    rcases List.mem_cons.mp ha with rfl | ha
    · exact ⟨_, List.mem_cons_self, hr⟩
    · obtain ⟨b, hb, hab⟩ := ih ha
      exact ⟨b, List.mem_cons_of_mem _ hb, hab⟩

theorem exists_of_mem_right {l l' : List α} (h : List.Forall₂ R l l') {b : α} (hb : b ∈ l') :
    ∃ a ∈ l, R a b :=
  exists_of_mem_left (R := flip R) h.flip hb

end Forall₂

section Evaluator

variable {libs : MatchLibs} {identity : Identity}

theorem FilterGroup.matches_of_known {g g' : FilterGroup} (hc : g.Completes g')
    (h : ∀ r ∈ g.rules, r.verdict libs identity = some true) :
    g'.matches libs identity = true := by
  rw [FilterGroup.matches_iff]
  intro r' hr'
  obtain ⟨r, hr, hrr'⟩ := exists_of_mem_right hc hr'
  rw [hrr'.eq_of_verdict (h r hr)]
  exact FilterRule.matches_of_verdict (h r hr)

/-- A group is passed as things stand when its unknown rules are negated and
the identity fails none of the others. -/
theorem FilterGroup.matches_of_unknown {g : FilterGroup}
    (hnegated : ∀ r ∈ g.rules, r.verdict libs identity = none → r.negated = true)
    (hnone : ∀ r ∈ g.rules, r.verdict libs identity ≠ some false) :
    g.matches libs identity = true := by
  rw [FilterGroup.matches_iff]
  intro r hr
  rcases hv : r.verdict libs identity with _ | b
  · rw [FilterRule.matches_of_unknown hv]
    exact hnegated r hr hv
  · rw [FilterRule.matches_of_verdict hv]
    cases b with
    | false => exact absurd hv (hnone r hr)
    | true => rfl

theorem FilterGroup.rules_of_matches {g : FilterGroup} (h : g.matches libs identity = true) :
    (∀ r ∈ g.rules, r.verdict libs identity = none → r.negated = true) ∧
      ∀ r ∈ g.rules, r.verdict libs identity ≠ some false := by
  rw [FilterGroup.matches_iff] at h
  constructor
  · intro r hr hv
    rw [← FilterRule.matches_of_unknown hv]
    exact h r hr
  · intro r hr hv
    have hpass := h r hr
    rw [FilterRule.matches_of_verdict hv] at hpass
    cases hpass

/-- The evaluator has a completion in which the identity fails every group that
known rules alone do not pass. -/
theorem FilterEvaluator.exists_completes (libs : MatchLibs) (identity : Identity)
    (self : FilterEvaluator)
    (h : ∀ g ∈ self.groups, ∃ r ∈ g.rules, r.verdict libs identity ≠ some true) :
    ∃ self', self.Completes self' ∧ ∀ g' ∈ self'.groups, g'.matches libs identity = false := by
  choose fill hfill hfails using FilterRule.exists_completes libs identity
  refine ⟨⟨self.groups.map fun g => ⟨g.rules.map fill⟩⟩, ?_, ?_⟩
  · apply List.forall₂_map_right_iff.mpr
    apply List.forall₂_same.mpr
    intro g _
    apply List.forall₂_map_right_iff.mpr
    exact List.forall₂_same.mpr fun r _ => hfill r
  · intro g' hg'
    obtain ⟨g, hg, rfl⟩ := List.mem_map.mp hg'
    obtain ⟨r, hr, hv⟩ := h g hg
    by_contra hpass
    have hall := FilterGroup.matches_iff.mp (by simpa using hpass)
    have htrue := hall (fill r) (List.mem_map_of_mem hr)
    rw [hfails r hv] at htrue
    cases htrue

/-- For every filter, state of its caches and identity: what the evaluator
admits it admits under every content of the sets it does not have, exactly when
the admission rests on known rules. -/
theorem admission_stands_iff (libs : MatchLibs) (self : FilterEvaluator) (identity : Identity) :
    (self.matches libs identity = true →
        ∀ self', self.Completes self' → self'.matches libs identity = true) ↔
      self.RestsOnKnown libs identity := by
  constructor
  · intro h
    by_contra hrests
    obtain ⟨hknown, hgroup⟩ := not_or.mp hrests
    push Not at hknown hgroup
    obtain ⟨g, hg, hnegated, hnone⟩ := hgroup
    obtain ⟨self', hc, hfails⟩ := FilterEvaluator.exists_completes libs identity self hknown
    have hadmit : self.matches libs identity = true :=
      FilterEvaluator.matches_iff.mpr (.inr ⟨g, hg, FilterGroup.matches_of_unknown hnegated hnone⟩)
    rcases FilterEvaluator.matches_iff.mp (h hadmit self' hc) with hnil | ⟨g', hg', hpass⟩
    · obtain ⟨g', hg', -⟩ := exists_of_mem_left hc hg
      rw [hnil] at hg'
      cases hg'
    · rw [hfails g' hg'] at hpass
      cases hpass
  · rintro (⟨g, hg, hknown⟩ | hblocked) hadmit self' hc
    · obtain ⟨g', hg', hgg'⟩ := exists_of_mem_left hc hg
      exact FilterEvaluator.matches_iff.mpr
        (.inr ⟨g', hg', FilterGroup.matches_of_known hgg' hknown⟩)
    · rcases FilterEvaluator.matches_iff.mp hadmit with hnil | ⟨g, hg, hpass⟩
      · have hnil' : self'.groups = [] := by
          have hlength := hc.length_eq
          rw [hnil] at hlength
          exact List.length_eq_zero_iff.mp hlength.symm
        exact FilterEvaluator.matches_iff.mpr (.inl hnil')
      · obtain ⟨hnegated, hnone⟩ := FilterGroup.rules_of_matches hpass
        obtain ⟨r, hr, hv⟩ := hblocked g hg hnegated
        exact absurd hv (hnone r hr)

end Evaluator

namespace HiddenKey

def libs : MatchLibs := ⟨fun _ => none, fun _ => none, fun _ _ => false, fun _ _ => false, id⟩

/-- `not-github=octocat`, whose fetch has failed. -/
def filter : FilterEvaluator :=
  ⟨[⟨[⟨.github ((GithubMatcher.new "octocat").markFailed Monotonic.zero), true⟩]⟩]⟩

/-- The same filter once the set is there, with the key in it. -/
def fetched : FilterEvaluator :=
  ⟨[⟨[⟨.github (((GithubMatcher.new "octocat").markFailed Monotonic.zero).setKeys [[7]]
    Monotonic.zero), true⟩]⟩]⟩

/-- A socket meant to hide the published keys shows one while the fetch fails. -/
theorem hidden_key_exposed :
    ¬ ∀ identity, filter.matches libs identity = true →
      ∀ self', filter.Completes self' → self'.matches libs identity = true := by
  intro h
  have hfetched : filter.Completes fetched :=
    .cons (.cons (.fetched _ true [[7]] Monotonic.zero rfl) .nil) .nil
  have hshown := h ⟨[7], "laptop"⟩ (by decide) fetched hfetched
  revert hshown
  decide

end HiddenKey

end CacheWarden
