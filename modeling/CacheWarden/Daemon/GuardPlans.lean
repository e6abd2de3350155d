import CacheWarden.Daemon.Guard
import CacheWarden.SnapshotRoundTrip

/-!
# What a planned guard admits

A planned guard should admit the context it was planned in, and still do so when
a snapshot has carried it to the next daemon.
-/

set_option autoImplicit false

namespace CacheWarden

namespace Daemon

/-- One process on both sides: by the unique ids where both are known, else by
the pid and the start times, which must be known. -/
def SameEntity (g : GetterProcess) (pinned : PinnedProcess) : Prop :=
  if g.uniqueId.isSome ∧ pinned.uniqueId.isSome then g.uniqueId = pinned.uniqueId
  else g.info.pid = pinned.pid ∧ g.info.startTime.isSome ∧ g.info.startTime = pinned.startTime

def GoesBy (name : String) (g : GetterProcess) : Prop :=
  if looksLikePath name then ∃ path, g.info.path = some path ∧ path.samePath (.utf8 name)
  else g.info.name = some name

/-- The getters a record lets through. -/
structure Admits (record : GuardRecord) (chain : List GetterProcess)
    (token : Option GetterAuditToken) : Prop where
  constrained : record.constraints ≠ []
  observed : chain ≠ []
  sameUser : .sameUser ∈ record.constraints →
    ∃ t, token = some t ∧ t.euid = record.setter.euid ∧ t.ruid = record.setter.ruid
  sameAncestor : ∀ declared pinned, .sameAncestor declared pinned ∈ record.constraints →
    ∃ g ∈ chain, SameEntity g pinned
  command : ∀ name, .command name ∈ record.constraints → ∃ g ∈ chain, GoesBy name g

section Evaluation

variable {chain : List GetterProcess} {token : Option GetterAuditToken} {setter : GuardSetter}
variable {record : GuardRecord} {g : GetterProcess} {pinned : PinnedProcess}

theorem sameProcessEntity_iff : sameProcessEntity g pinned = true ↔ SameEntity g pinned := by
  unfold sameProcessEntity SameEntity
  cases hg : g.uniqueId with
  | some a =>
    cases hp : pinned.uniqueId with
    | some b => simp
    | none =>
      cases hstart : g.info.startTime <;> cases hpstart : pinned.startTime <;> simp
  | none =>
    cases hstart : g.info.startTime <;> cases hpstart : pinned.startTime <;> simp

theorem SameEntity.cases (h : SameEntity g pinned) :
    (∃ id, g.uniqueId = some id ∧ pinned.uniqueId = some id) ∨
      g.info.pid = pinned.pid ∧
        ∃ start, g.info.startTime = some start ∧ pinned.startTime = some start := by
  unfold SameEntity at h
  by_cases hboth : g.uniqueId.isSome ∧ pinned.uniqueId.isSome
  · rw [if_pos hboth] at h
    obtain ⟨id, hid⟩ := Option.isSome_iff_exists.mp hboth.1
    exact Or.inl ⟨id, hid, h ▸ hid⟩
  · rw [if_neg hboth] at h
    obtain ⟨hpid, hsome, hstart⟩ := h
    obtain ⟨start, hg⟩ := Option.isSome_iff_exists.mp hsome
    exact Or.inr ⟨hpid, start, hg, hstart ▸ hg⟩

theorem findInChain_isSome :
    (findInChain chain pinned).isSome ↔ ∃ g ∈ chain, SameEntity g pinned := by
  unfold findInChain
  rw [List.find?_isSome]
  simp only [sameProcessEntity_iff]

theorem commandMatchesChain_iff {name : String} :
    commandMatchesChain chain name = true ↔ ∃ g ∈ chain, GoesBy name g := by
  unfold commandMatchesChain GoesBy
  rw [List.any_eq_true]
  by_cases hpath : looksLikePath name = true
  · simp only [if_pos hpath, Option.any_eq_true]
  · simp only [if_neg hpath, decide_eq_true_eq]

/-- What a getter must bring for one constraint. -/
def MeetsConstraint (chain : List GetterProcess) (token : Option GetterAuditToken)
    (setter : GuardSetter) : GuardConstraint → Prop
  | .sameUser => ∃ t, token = some t ∧ t.euid = setter.euid ∧ t.ruid = setter.ruid
  | .sameAncestor _ pinned => ∃ g ∈ chain, SameEntity g pinned
  | .command name => ∃ g ∈ chain, GoesBy name g

theorem evaluateConstraint_isOk {constraint : GuardConstraint} :
    (evaluateConstraint chain token setter constraint).isOk ↔
      MeetsConstraint chain token setter constraint := by
  cases constraint with
  | sameUser =>
    simp only [evaluateConstraint, MeetsConstraint]
    cases token with
    | none => simp [Except.isOk, Except.toBool]
    | some t =>
      by_cases he : t.euid = setter.euid <;> by_cases hr : t.ruid = setter.ruid <;>
        simp [Except.isOk, Except.toBool, he, hr]
  | sameAncestor declared pinned =>
    simp only [evaluateConstraint, MeetsConstraint]
    rw [← findInChain_isSome]
    cases findInChain chain pinned <;> simp [Except.isOk, Except.toBool]
  | command name =>
    simp only [evaluateConstraint, MeetsConstraint]
    rw [← commandMatchesChain_iff]
    by_cases hmatch : commandMatchesChain chain name = true <;>
      simp [Except.isOk, Except.toBool, hmatch]

theorem evaluateConstraints_isOk {constraints : List GuardConstraint} :
    (evaluateConstraints chain token setter constraints).isOk ↔
      ∀ constraint ∈ constraints, MeetsConstraint chain token setter constraint := by
  induction constraints with
  | nil => simp [evaluateConstraints, Except.isOk, Except.toBool]
  | cons constraint rest ih =>
    rw [evaluateConstraints, List.forall_mem_cons, ← ih, ← evaluateConstraint_isOk]
    cases evaluateConstraint chain token setter constraint with
    | error kind => simp [Except.isOk, Except.toBool]
    | ok first =>
      cases evaluateConstraints chain token setter rest <;> simp [Except.isOk, Except.toBool]

theorem admits_iff : Admits record chain token ↔
    record.constraints ≠ [] ∧ chain ≠ [] ∧
      ∀ constraint ∈ record.constraints, MeetsConstraint chain token record.setter constraint := by
  constructor
  · intro h
    refine ⟨h.constrained, h.observed, ?_⟩
    intro constraint hmem
    cases constraint with
    | sameUser => exact h.sameUser hmem
    | sameAncestor declared pinned => exact h.sameAncestor declared pinned hmem
    | command name => exact h.command name hmem
  · rintro ⟨hne, hchain, hmeets⟩
    exact ⟨hne, hchain, hmeets _, fun declared pinned => hmeets _, fun name => hmeets _⟩

theorem evaluate_isOk_iff : (evaluate chain token record).isOk ↔ Admits record chain token := by
  rw [admits_iff]
  unfold evaluate
  by_cases hne : record.constraints = []
  · simp [hne, Except.isOk, Except.toBool]
  by_cases hchain : chain = []
  · simp [hne, hchain, Except.isOk, Except.toBool]
  rw [if_neg (by simpa using hne), if_neg (by simpa using hchain), evaluateConstraints_isOk]
  simp [hne, hchain]

theorem MeetsConstraint.mono {shorter : List GetterProcess} {constraint : GuardConstraint}
    (hsub : shorter ⊆ chain) (h : MeetsConstraint shorter token setter constraint) :
    MeetsConstraint chain token setter constraint := by
  cases constraint with
  | sameUser => exact h
  | sameAncestor declared pinned =>
    obtain ⟨g, hg, hsame⟩ := h
    exact ⟨g, hsub hg, hsame⟩
  | command name =>
    obtain ⟨g, hg, hname⟩ := h
    exact ⟨g, hsub hg, hname⟩

/-- Whoever more constraints and a shorter chain let through, fewer and a longer
one do. -/
theorem Admits.mono {shorter : List GetterProcess} {more : GuardRecord}
    (h : Admits more shorter token) (hne : record.constraints ≠ [])
    (hsetter : more.setter = record.setter)
    (hmore : record.constraints ⊆ more.constraints) (hshorter : shorter ⊆ chain) :
    Admits record chain token := by
  rw [admits_iff] at h ⊢
  obtain ⟨-, hchain, hmeets⟩ := h
  refine ⟨hne, ?_, ?_⟩
  · intro hnil
    rw [hnil, List.subset_nil] at hshorter
    exact hchain hshorter
  · intro constraint hmem
    rw [← hsetter]
    exact (hmeets constraint (hmore hmem)).mono hshorter

end Evaluation

/-- What the next daemon reads for a guard. -/
def carriedOver (record : GuardRecord) : GuardRecord :=
  snapshotToGuardRecord (guardRecordToSnapshot record)

/-- The process a declared constraint pins: the first of the chain that answers
to what is declared. -/
def selected (chain : List GetterProcess) (policy : ResolvedKvPolicy) :
    GuardConstraintWire → Option GetterProcess
  | .sameShell => chain.find? fun g => g.info.name.any (· ∈ policy.shellNames)
  | .sameAncestor target =>
    if looksLikePath target then
      chain.find? fun g => g.info.path.any (OsPath.samePath · (.utf8 target))
    else chain.find? fun g => g.info.name.any (· = target)
  | .sameUser | .command _ => none

/-- A process that the evaluator can tell from another one with its pid. -/
def Recognizable (g : GetterProcess) : Prop := g.uniqueId.isSome ∨ g.info.startTime.isSome

/-- It can do so by the microseconds that a snapshot keeps of a start time. -/
def Portable (g : GetterProcess) : Prop :=
  g.uniqueId.isSome ∨ ∃ start, g.info.startTime = some start ∧
    start.nanos % 1000 = 0 ∧ start.nanos / 1000 < 18446744073709551616

section Plans

variable {chain : List GetterProcess} {token : Option GetterAuditToken}
variable {policy : ResolvedKvPolicy} {record : GuardRecord} {g : GetterProcess}

theorem selected_mem {wire : GuardConstraintWire} (h : selected chain policy wire = some g) :
    g ∈ chain := by
  revert h
  unfold selected
  split
  · exact List.mem_of_find?_eq_some
  · split
    · exact List.mem_of_find?_eq_some
    · exact List.mem_of_find?_eq_some
  · exact fun h => by cases h
  · exact fun h => by cases h

/-- What becomes of one declared constraint. -/
inductive Planned (chain : List GetterProcess) (policy : ResolvedKvPolicy) :
    GuardConstraintWire → GuardConstraint → Prop where
  | sameUser : Planned chain policy .sameUser .sameUser
  | sameAncestor (wire : GuardConstraintWire) (declared : DeclaredAncestor) (g : GetterProcess)
      (hselected : selected chain policy wire = some g) :
      Planned chain policy wire (.sameAncestor declared (getterToPinned g))
  | command (name : String) : Planned chain policy (.command name) (.command name)

theorem planConstraint_planned {wire : GuardConstraintWire} {constraint : GuardConstraint}
    (h : planConstraint chain policy wire = .ok constraint) :
    Planned chain policy wire constraint := by
  cases wire with
  | sameUser =>
    cases h
    exact .sameUser
  | sameShell =>
    revert h
    simp only [planConstraint, pinAncestor]
    cases hg : chain.find? fun g => g.info.name.any (· ∈ policy.shellNames) with
    | none => exact fun h => by cases h
    | some g =>
      intro h
      cases h
      exact .sameAncestor _ _ g hg
  | sameAncestor target =>
    revert h
    simp only [planConstraint, pinAncestor, pinAncestorByPath]
    rw [← apply_ite]
    cases hg : selected chain policy (.sameAncestor target) with
    | none =>
      rw [show (if looksLikePath target = true then _ else _) = none from hg]
      exact fun h => by cases h
    | some g =>
      rw [show (if looksLikePath target = true then _ else _) = some g from hg]
      intro h
      cases h
      exact .sameAncestor _ _ g hg
  | command name =>
    cases h
    exact .command name

theorem planConstraints_planned {wires : List GuardConstraintWire}
    {constraints : List GuardConstraint}
    (h : planConstraints chain policy wires = .ok constraints) :
    ∀ constraint ∈ constraints, ∃ wire ∈ wires, Planned chain policy wire constraint := by
  induction wires generalizing constraints with
  | nil =>
    cases h
    exact fun constraint hmem => by cases hmem
  | cons wire rest ih =>
    revert h
    unfold planConstraints
    split
    · exact fun h => by cases h
    rename_i first hfirst
    split
    · exact fun h => by cases h
    rename_i more hrest
    intro h
    cases h
    intro constraint hmem
    rcases List.mem_cons.mp hmem with heq | hmem
    · rw [heq]
      exact ⟨wire, List.mem_cons_self, planConstraint_planned hfirst⟩
    · obtain ⟨w, hw, hplanned⟩ := ih hrest constraint hmem
      exact ⟨w, List.mem_cons_of_mem _ hw, hplanned⟩

theorem planGuardRecord_planned {declared : List GuardConstraintWire}
    (h : planGuardRecord declared policy token (some chain) = .ok (some record)) :
    (∃ t, token = some t ∧ record.setter = ⟨t.euid, t.ruid⟩) ∧
      ∀ constraint ∈ record.constraints, ∃ wire ∈ effectiveConstraints declared policy,
        Planned chain policy wire constraint := by
  revert h
  unfold planGuardRecord
  split
  · exact fun h => by cases h
  split
  · exact fun h => by cases h
  rename_i t
  split
  · exact fun h => by cases h
  rename_i constraints hplan
  intro h
  cases h
  exact ⟨⟨t, rfl, rfl⟩, planConstraints_planned hplan⟩

/-- The process that is pinned is found again by what is pinned of it. -/
theorem Recognizable.sameEntity (h : Recognizable g) :
    SameEntity g (getterToPinned g) := by
  unfold SameEntity
  by_cases hid : g.uniqueId.isSome
  · rw [if_pos ⟨hid, hid⟩]
    rfl
  · rw [if_neg fun hboth => hid hboth.1]
    exact ⟨rfl, h.resolve_left hid, rfl⟩

/-- What a snapshot leaves of a constraint. -/
def overSnapshot : GuardConstraint → GuardConstraint
  | .sameAncestor declared pinned =>
    .sameAncestor declared
      { pinned with startTime := pinned.startTime.map fun t => fromMicros (microsTruncatingU64 t) }
  | constraint => constraint

theorem constraints_carriedOver :
    (carriedOver record).constraints = record.constraints.map overSnapshot := by
  unfold carriedOver snapshotToGuardRecord guardRecordToSnapshot
  rw [List.map_map]
  apply List.map_congr_left
  intro constraint _
  rcases constraint with _ | ⟨declared, pinned⟩ | name
  · rfl
  · rcases pinned with ⟨pid, startTime, id, path, name⟩
    cases startTime <;> cases declared <;> rfl
  · rfl

theorem setter_carriedOver : (carriedOver record).setter = record.setter := rfl

theorem Portable.sameEntity (h : Portable g) :
    SameEntity g { getterToPinned g with
      startTime := g.info.startTime.map fun t => fromMicros (microsTruncatingU64 t) } := by
  unfold SameEntity
  by_cases hid : g.uniqueId.isSome
  · rw [if_pos ⟨hid, hid⟩]
    rfl
  · rcases h with hsome | ⟨start, hstart, hwhole⟩
    · exact absurd hsome hid
    · rw [if_neg fun hboth => hid hboth.1, hstart]
      refine ⟨rfl, rfl, ?_⟩
      rw [Option.map_some, (fromMicros_micros_iff start).mpr hwhole]

theorem planned_meets {wire : GuardConstraintWire} {constraint : GuardConstraint}
    {t : GetterAuditToken} (h : Planned chain policy wire constraint)
    (hcommand : ∀ name, constraint ≠ .command name)
    (hselected : ∀ g, selected chain policy wire = some g → Recognizable g) :
    MeetsConstraint chain (some t) ⟨t.euid, t.ruid⟩ constraint := by
  cases h with
  | sameUser => exact ⟨t, rfl, rfl, rfl⟩
  | sameAncestor _ declared g hg => exact ⟨g, selected_mem hg, (hselected g hg).sameEntity⟩
  | command name => exact absurd rfl (hcommand name)

theorem planned_meets_carried {wire : GuardConstraintWire} {constraint : GuardConstraint}
    {t : GetterAuditToken} (h : Planned chain policy wire constraint)
    (hcommand : ∀ name, constraint ≠ .command name)
    (hselected : ∀ g, selected chain policy wire = some g → Portable g) :
    MeetsConstraint chain (some t) ⟨t.euid, t.ruid⟩ (overSnapshot constraint) := by
  cases h with
  | sameUser => exact ⟨t, rfl, rfl, rfl⟩
  | sameAncestor _ declared g hg => exact ⟨g, selected_mem hg, (hselected g hg).sameEntity⟩
  | command name => exact absurd rfl (hcommand name)

/-- A guard admits the context it was planned in. -/
theorem planned_admits {declared : List GuardConstraintWire}
    (hplan : planGuardRecord declared policy token (some chain) = .ok (some record))
    (hcommand : ∀ name, .command name ∉ record.constraints) (hchain : chain ≠ [])
    (hselected : ∀ wire ∈ effectiveConstraints declared policy, ∀ g,
      selected chain policy wire = some g → Recognizable g) :
    Admits record chain token := by
  obtain ⟨⟨t, ht, hsetter⟩, hplanned⟩ := planGuardRecord_planned hplan
  rw [admits_iff]
  refine ⟨planned_nonempty hplan, hchain, ?_⟩
  intro constraint hmem
  obtain ⟨wire, hwire, hconstraint⟩ := hplanned constraint hmem
  rw [ht, hsetter]
  apply planned_meets hconstraint
  · intro name heq
    rw [heq] at hmem
    exact hcommand name hmem
  · exact hselected wire hwire

theorem planned_admits_carried {declared : List GuardConstraintWire}
    (hplan : planGuardRecord declared policy token (some chain) = .ok (some record))
    (hcommand : ∀ name, .command name ∉ record.constraints) (hchain : chain ≠ [])
    (hselected : ∀ wire ∈ effectiveConstraints declared policy, ∀ g,
      selected chain policy wire = some g → Portable g) :
    Admits (carriedOver record) chain token := by
  obtain ⟨⟨t, ht, hsetter⟩, hplanned⟩ := planGuardRecord_planned hplan
  rw [admits_iff, constraints_carriedOver, setter_carriedOver]
  refine ⟨?_, hchain, ?_⟩
  · intro hnil
    exact planned_nonempty hplan (List.map_eq_nil_iff.mp hnil)
  · intro constraint hmem
    obtain ⟨original, horiginal, heq⟩ := List.mem_map.mp hmem
    obtain ⟨wire, hwire, hconstraint⟩ := hplanned original horiginal
    rw [← heq, ht, hsetter]
    apply planned_meets_carried hconstraint
    · intro name hname
      rw [hname] at horiginal
      exact hcommand name horiginal
    · exact hselected wire hwire

end Plans

/-- What guards are relied on for: the setter passes its own guard, and only
the getters the guard admits pass. -/
theorem guards_admit :
    (∀ declared policy token chain record,
      planGuardRecord declared policy token (some chain) = .ok (some record) →
      (∀ name, .command name ∉ record.constraints) → chain ≠ [] →
      ((∀ wire ∈ effectiveConstraints declared policy, ∀ g,
          selected chain policy wire = some g → Recognizable g) →
        (evaluate chain token record).isOk) ∧
      ((∀ wire ∈ effectiveConstraints declared policy, ∀ g,
          selected chain policy wire = some g → Portable g) →
        (evaluate chain token (carriedOver record)).isOk)) ∧
    (∀ record chain token, (evaluate chain token record).isOk ↔ Admits record chain token) ∧
    ∀ record more chain shorter token, record.constraints ≠ [] → more.setter = record.setter →
      record.constraints ⊆ more.constraints → shorter ⊆ chain →
      ¬ (evaluate chain token record).isOk → ¬ (evaluate shorter token more).isOk := by
  refine ⟨?_, ?_, ?_⟩
  · intro declared policy token chain record hplan hcommand hchain
    rw [evaluate_isOk_iff, evaluate_isOk_iff]
    exact ⟨planned_admits hplan hcommand hchain, planned_admits_carried hplan hcommand hchain⟩
  · exact fun record chain token => evaluate_isOk_iff
  · intro record more chain shorter token hne hsetter hmore hshorter hdenied hok
    rw [evaluate_isOk_iff] at hdenied hok
    exact hdenied (hok.mono hne hsetter hmore hshorter)

/-- A shell of which only the start time is known. -/
def shellAt (startTime : Option Duration) : GetterProcess :=
  ⟨⟨7, none, some (.raw [47, 122, 115, 104]), startTime⟩, none⟩

def zshPolicy : ResolvedKvPolicy := ⟨false, ["zsh"]⟩

def someone : GetterAuditToken := ⟨501, 501⟩

def pinnedShell (startTime : Option Duration) : GuardRecord :=
  ⟨[.sameAncestor (.sameShell "zsh") (getterToPinned (shellAt startTime)), .sameUser],
    ⟨501, 501⟩⟩

theorem plan_pinnedShell (startTime : Option Duration) :
    planGuardRecord [.sameShell, .sameUser] zshPolicy (some someone) (some [shellAt startTime]) =
      .ok (some (pinnedShell startTime)) := by
  rfl

theorem pinnedShell_uncommanded (startTime : Option Duration) :
    ∀ name, .command name ∉ (pinnedShell startTime).constraints := by
  intro name hmem
  simp [pinnedShell] at hmem

theorem shell_admitted :
    ((evaluate [shellAt (some ⟨5000000000, by decide⟩)] (some someone)
        (pinnedShell (some ⟨5000000000, by decide⟩))).isOk ∧
      (evaluate [shellAt (some ⟨5000000000, by decide⟩)] (some someone)
        (carriedOver (pinnedShell (some ⟨5000000000, by decide⟩)))).isOk) ∧
      ¬ (evaluate [shellAt none] (some someone)
        ⟨[.sameUser, .command "ls"], ⟨501, 501⟩⟩).isOk := by
  have hok := guards_admit.1 _ _ _ _ _ (plan_pinnedShell (some ⟨5000000000, by decide⟩))
    (pinnedShell_uncommanded _) (by decide)
  constructor
  · constructor
    · apply hok.1
      intro wire _ g hg
      rw [List.mem_singleton.mp (selected_mem hg)]
      exact Or.inr rfl
    · apply hok.2
      intro wire _ g hg
      rw [List.mem_singleton.mp (selected_mem hg)]
      exact Or.inr ⟨_, rfl, by decide, by decide⟩
  · exact guards_admit.2.2 ⟨[.command "ls"], ⟨501, 501⟩⟩ _ [shellAt none] _ _ (by decide) rfl
      (by decide) (List.Subset.refl _) (by decide)

/-- A shell without a start time is pinned but never found again, a start time of
half a microsecond is lost to a snapshot, and a guard without constraints, which
nobody passes, is passed once it has one. -/
theorem setter_refused :
    (planGuardRecord [.sameShell, .sameUser] zshPolicy (some someone) (some [shellAt none]) =
        .ok (some (pinnedShell none)) ∧
      ¬ (evaluate [shellAt none] (some someone) (pinnedShell none)).isOk) ∧
    (planGuardRecord [.sameShell, .sameUser] zshPolicy (some someone)
          (some [shellAt (some ⟨500, by decide⟩)]) =
        .ok (some (pinnedShell (some ⟨500, by decide⟩))) ∧
      (evaluate [shellAt (some ⟨500, by decide⟩)] (some someone)
        (pinnedShell (some ⟨500, by decide⟩))).isOk ∧
      ¬ (evaluate [shellAt (some ⟨500, by decide⟩)] (some someone)
        (carriedOver (pinnedShell (some ⟨500, by decide⟩)))).isOk) ∧
    ¬ (evaluate [shellAt none] (some someone) ⟨[], ⟨501, 501⟩⟩).isOk ∧
      (evaluate [shellAt none] (some someone) ⟨[.sameUser], ⟨501, 501⟩⟩).isOk := by
  refine ⟨⟨plan_pinnedShell none, by decide⟩, ⟨plan_pinnedShell _, by decide, by decide⟩, ?_⟩
  exact ⟨by decide, by decide⟩

end Daemon

end CacheWarden
