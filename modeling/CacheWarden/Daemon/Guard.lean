import CacheWarden.Records

/-!
# Access guards: planned at set time, evaluated at get time

A guard is a list of constraints, all of which the getter must meet. What a
constraint pins comes from the daemon's own observation of the setter, never
from the wire.
-/

set_option autoImplicit false

namespace CacheWarden

namespace OsPath

def toBytes : OsPath → Bytes
  | .utf8 text => text.toUTF8.data.toList
  | .raw bytes => bytes

inductive Component where
  | rootDir
  | curDir
  | parentDir
  | normal (name : Bytes)
  deriving DecidableEq

/-- The text between slashes. -/
def segments : Bytes → List Bytes
  | [] => [[]]
  | b :: rest =>
    if b = 47 then [] :: segments rest
    else
      match segments rest with
      | [] => [[b]]
      | seg :: segs => (b :: seg) :: segs

/-- A lone dot counts only at the start of a relative path. -/
def componentsOf : Bool → List Bytes → List Component
  | _, [] => []
  | first, seg :: rest =>
    if seg = [] then componentsOf false rest
    else if seg = [46] then
      if first then .curDir :: componentsOf false rest else componentsOf false rest
    else if seg = [46, 46] then .parentDir :: componentsOf false rest
    else .normal seg :: componentsOf false rest

def components (p : OsPath) : List Component :=
  match p.toBytes with
  | [] => []
  | b :: rest =>
    if b = 47 then .rootDir :: componentsOf false (segments rest)
    else componentsOf true (segments (b :: rest))

/-- `Path` equality compares components. -/
def samePath (p q : OsPath) : Bool := p.components = q.components

/-- `file_name()?.to_str()`. -/
def fileName (p : OsPath) : Option String :=
  match p.components.getLast? with
  | some (.normal name) => String.fromUTF8? ⟨name.toArray⟩
  | _ => none

end OsPath

def ProcessInfo.name (self : ProcessInfo) : Option String := self.path.bind OsPath.fileName

namespace Daemon

structure GetterProcess where
  info : ProcessInfo
  uniqueId : Option UInt64
  deriving DecidableEq

structure GetterAuditToken where
  euid : UInt32
  ruid : UInt32
  deriving DecidableEq

structure ConstraintEval where
  kind : String
  strength : String
  displayLabel : String
  riskNote : Option String
  deriving DecidableEq

structure GuardEvalOutput where
  constraints : List ConstraintEval
  setterPinned : Option PinnedProcess
  getterMatched : Option PinnedProcess
  deriving DecidableEq

inductive DeniedKind where
  | emptyRecord
  | missingContext
  | sameUser
  | sameAncestor
  | command
  deriving DecidableEq

def deniedKindLabel : DeniedKind → String
  | .emptyRecord => "empty-record"
  | .missingContext => "missing-context"
  | .sameUser => "same-user"
  | .sameAncestor => "same-ancestor"
  | .command => "command"

def commandRiskNote : String :=
  "weak: matches by executable basename or full path; any process that can be spawned under the same name in the requester's ancestry chain will pass"

def sameProcessEntity (getter : GetterProcess) (pinned : PinnedProcess) : Bool :=
  match getter.uniqueId, pinned.uniqueId with
  | some a, some b => a = b
  | _, _ =>
    if getter.info.pid ≠ pinned.pid then false
    else
      match getter.info.startTime, pinned.startTime with
      | some a, some b => a = b
      | _, _ => false

def findInChain (chain : List GetterProcess) (pinned : PinnedProcess) : Option GetterProcess :=
  chain.find? (sameProcessEntity · pinned)

def looksLikePath (name : String) : Bool := name.toList.head? = some '/'

def commandMatchesChain (chain : List GetterProcess) (name : String) : Bool :=
  chain.any fun g =>
    if looksLikePath name then g.info.path.any (OsPath.samePath · (.utf8 name))
    else g.info.name = some name

def getterToPinned (g : GetterProcess) : PinnedProcess where
  pid := g.info.pid
  startTime := g.info.startTime
  uniqueId := g.uniqueId
  path := g.info.path.getD (.utf8 "")
  name := g.info.name.getD ""

/-- What one constraint comes to, with the pair it pins if it is of the
ancestor family. -/
def evaluateConstraint (chain : List GetterProcess) (token : Option GetterAuditToken)
    (setter : GuardSetter) :
    GuardConstraint → Except DeniedKind (ConstraintEval × Option (PinnedProcess × PinnedProcess))
  | .sameUser =>
    match token with
    | none => .error .missingContext
    | some t =>
      if t.euid ≠ setter.euid || t.ruid ≠ setter.ruid then .error .sameUser
      else .ok (⟨"same-user", "strong", "same-user", none⟩, none)
  | .sameAncestor declared pinned =>
    match findInChain chain pinned with
    | none => .error .sameAncestor
    | some getter =>
      let eval : ConstraintEval :=
        match declared with
        | .sameShell shellName =>
          ⟨"same-shell", "strong", "same-shell (" ++ shellName ++ ")", none⟩
        | .named name => ⟨"same-ancestor", "strong", "same-ancestor (" ++ name ++ ")", none⟩
      .ok (eval, some (pinned, getterToPinned getter))
  | .command name =>
    if commandMatchesChain chain name then
      .ok (⟨"command", "weak", "command (" ++ name ++ ")", some commandRiskNote⟩, none)
    else .error .command

def evaluateConstraints (chain : List GetterProcess) (token : Option GetterAuditToken)
    (setter : GuardSetter) :
    List GuardConstraint → Except DeniedKind GuardEvalOutput
  | [] => .ok ⟨[], none, none⟩
  | constraint :: rest =>
    match evaluateConstraint chain token setter constraint with
    | .error kind => .error kind
    | .ok (eval, pin) =>
      match evaluateConstraints chain token setter rest with
      | .error kind => .error kind
      | .ok out =>
        .ok ⟨eval :: out.constraints, (pin.map Prod.fst).or out.setterPinned,
          (pin.map Prod.snd).or out.getterMatched⟩

def evaluate (chain : List GetterProcess) (token : Option GetterAuditToken)
    (record : GuardRecord) : Except DeniedKind GuardEvalOutput :=
  if record.constraints.isEmpty then .error .emptyRecord
  else if chain.isEmpty then .error .missingContext
  else evaluateConstraints chain token record.setter record.constraints

inductive GuardConstraintWire where
  | sameUser
  | sameShell
  | sameAncestor (name : String)
  | command (name : String)
  deriving DecidableEq

structure ResolvedKvPolicy where
  defaultRequireSameUser : Bool
  shellNames : List String
  deriving DecidableEq

/-- Why no guard record could be built. -/
inductive GuardPlanError where
  | noAuditToken
  | noShell
  | noAncestor (target : String)
  deriving DecidableEq

def pinAncestor (chain : List GetterProcess) (predicate : String → Bool) : Option PinnedProcess :=
  (chain.find? fun g => g.info.name.any predicate).map getterToPinned

def pinAncestorByPath (chain : List GetterProcess) (fullPath : String) : Option PinnedProcess :=
  (chain.find? fun g => g.info.path.any (OsPath.samePath · (.utf8 fullPath))).map getterToPinned

def planConstraint (chain : List GetterProcess) (policy : ResolvedKvPolicy) :
    GuardConstraintWire → Except GuardPlanError GuardConstraint
  | .sameUser => .ok .sameUser
  | .sameShell =>
    match pinAncestor chain (· ∈ policy.shellNames) with
    | some pinned => .ok (.sameAncestor (.sameShell pinned.name) pinned)
    | none => .error .noShell
  | .sameAncestor target =>
    let pinned :=
      if looksLikePath target then pinAncestorByPath chain target
      else pinAncestor chain (· = target)
    match pinned with
    | some pinned => .ok (.sameAncestor (.named target) pinned)
    | none => .error (.noAncestor target)
  | .command name => .ok (.command name)

def planConstraints (chain : List GetterProcess) (policy : ResolvedKvPolicy) :
    List GuardConstraintWire → Except GuardPlanError (List GuardConstraint)
  | [] => .ok []
  | wire :: rest =>
    match planConstraint chain policy wire with
    | .error e => .error e
    | .ok constraint =>
      match planConstraints chain policy rest with
      | .error e => .error e
      | .ok constraints => .ok (constraint :: constraints)

/-- The declaration in force: what the client sent, or the user constraint the
policy adds to an empty one. -/
def effectiveConstraints (declared : List GuardConstraintWire) (policy : ResolvedKvPolicy) :
    List GuardConstraintWire :=
  if declared.isEmpty then if policy.defaultRequireSameUser then [.sameUser] else []
  else declared

/-- The record a set installs, `none` where the entry ends up unguarded. A
missing chain is an empty one here: a record of users alone needs none. -/
def planGuardRecord (declared : List GuardConstraintWire) (policy : ResolvedKvPolicy)
    (token : Option GetterAuditToken) (chain : Option (List GetterProcess)) :
    Except GuardPlanError (Option GuardRecord) :=
  if (effectiveConstraints declared policy).isEmpty then .ok none
  else
    match token with
    | none => .error .noAuditToken
    | some t =>
      match planConstraints (chain.getD []) policy (effectiveConstraints declared policy) with
      | .error e => .error e
      | .ok constraints => .ok (some ⟨constraints, ⟨t.euid, t.ruid⟩⟩)

def constraintKindLabel : GuardConstraint → String
  | .sameUser => "same-user"
  | .sameAncestor (.sameShell _) _ => "same-shell"
  | .sameAncestor (.named _) _ => "same-ancestor"
  | .command _ => "command"

/-- Whether the allowed basenames admit a requester: a restricted key and an
unknown requester do not go together. -/
def chainGatePasses (requester : Option (List ProcessInfo)) (allowed : List String) : Bool :=
  if allowed.isEmpty then true
  else
    match requester with
    | some chain => chain.any fun info => info.name.any (· ∈ allowed)
    | none => false

section Planned

theorem length_planConstraints {chain : List GetterProcess} {policy : ResolvedKvPolicy}
    {wires : List GuardConstraintWire} {constraints : List GuardConstraint}
    (h : planConstraints chain policy wires = .ok constraints) :
    constraints.length = wires.length := by
  induction wires generalizing constraints with
  | nil =>
    cases h
    rfl
  | cons wire rest ih =>
    unfold planConstraints at h
    split at h
    · cases h
    split at h
    · cases h
    · rename_i hrest
      cases h
      rw [List.length_cons, List.length_cons, ih hrest]

/-- A record that is planned carries one constraint for each that was declared,
so an empty one is never installed. -/
theorem planned_nonempty {declared : List GuardConstraintWire} {policy : ResolvedKvPolicy}
    {token : Option GetterAuditToken} {chain : Option (List GetterProcess)} {record : GuardRecord}
    (h : planGuardRecord declared policy token chain = .ok (some record)) :
    record.constraints ≠ [] := by
  unfold planGuardRecord at h
  split at h
  · cases h
  rename_i hne
  split at h
  · cases h
  split at h
  · cases h
  rename_i constraints hplan
  cases h
  have hlength := length_planConstraints hplan
  intro hnil
  have hempty : constraints = [] := hnil
  rw [hempty, List.length_nil] at hlength
  exact hne (List.isEmpty_iff.mpr (List.length_eq_zero_iff.mp hlength.symm))

end Planned

end Daemon

end CacheWarden
