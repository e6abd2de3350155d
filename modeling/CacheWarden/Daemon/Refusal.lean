import CacheWarden.Daemon.Handler

/-!
# What a caller that is not the owner learns

Straight to the handler, nothing: every request on an owned key is refused the
same way whatever is stored under it. The dispatcher of reveal gets looks at the
guard before the owner, and there the answer depends on the guard.
-/

set_option autoImplicit false

namespace CacheWarden

namespace Daemon

open Vault

/-- What the dispatcher does with a request before it waits for anything: reply,
or show the approval dialog. -/
inductive Dispatched where
  | replied (resp : Response)
  | needsApproval (guardEval : GuardEvalOutput)
  deriving DecidableEq

/-- The first pass of a reveal get. -/
def guardedGetFirstPass (ctx : HandlerCtx) (s : State) (key : String) : Dispatched × State :=
  match s.store.guardOf key with
  | none =>
    let handled := handleRequest { ctx with guardCheckMode := .evaluate } s (.kvGet key false)
    (.replied handled.1, handled.2)
  | some record =>
    match rejectReservedNamespaceRead key with
    | some resp => (.replied resp, s)
    | none =>
      if (ctx.kvProcessPolicies[key]?).any fun allowed => !chainGatePasses ctx.requester allowed then
        (.replied (.error .authFailed [.text "process not permitted to access this key"]), s)
      else
        match ctx.guardChain with
        | none =>
          (.replied (.error .authFailed
            [.text "access denied by entry guard (kind: missing-context)"]), s)
        | some chain =>
          match evaluate chain ctx.guardAuditToken record with
          | .ok output => (.needsApproval output, s)
          | .error kind =>
            (.replied (.error .authFailed [.text "access denied by entry guard (kind: ",
              .text (deniedKindLabel kind), .text ")"]), s)

/-- Only a reveal get takes the guarded path. -/
def dispatch (ctx : HandlerCtx) (s : State) : Request → Dispatched × State
  | .kvGet key false => guardedGetFirstPass ctx s key
  | req => (.replied (handleRequest ctx s req).1, (handleRequest ctx s req).2)

/-- The key a request names. -/
def Request.key? : Request → Option String
  | .kvSet request => some request.key
  | .kvDefine key .. => some key
  | .kvGet key _ => some key
  | .kvDel key _ => some key
  | .kvPin key _ => some key
  | .kvUnpin key => some key
  | .kvClaim key .. => some key
  | .kvUnclaim key _ => some key
  | .kvOwnerClear key => some key
  | _ => none

/-- Two open vaults that differ at most in their entry for `k`. -/
structure VaultsAgree (k : String) (v v' : UnlockedVault) : Prop where
  header : v'.header = v.header
  dek : v'.dek = v.dek
  entries : ∀ a, a ≠ k → v'.entry a = v.entry a

def VaultStatesAgree (k : String) : VaultState → VaultState → Prop
  | .unlocked v, .unlocked v' => VaultsAgree k v v'
  | .locked, .locked => True
  | .notInitialized, .notInitialized => True
  | _, _ => False

def StoredAgree (k : String) : Stored → Stored → Prop
  | .holds v, .holds v' => VaultsAgree k v v'
  | stored, stored' => stored = stored'

/-- Two states of the daemon that agree on the owner of `k` and on everything
that is not about `k`. -/
structure AgreeExcept (k : String) (s s' : State) : Prop where
  owner : s'.store.ownerOf k = s.store.ownerOf k
  entries : ∀ a : String, a ≠ k → s'.store.entries[a]? = s.store.entries[a]?
  definitions : ∀ a : String, a ≠ k → s'.store.definitions[a]? = s.store.definitions[a]?
  failures : ∀ a : String, a ≠ k → s'.store.failureBackoffs[a]? = s.store.failureBackoffs[a]?
  guards : ∀ a : String, a ≠ k → s'.store.accessGuards[a]? = s.store.accessGuards[a]?
  owners : ∀ a : String, a ≠ k → s'.store.owners[a]? = s.store.owners[a]?
  versions : ∀ a : String, a ≠ k → s'.store.versions[a]? = s.store.versions[a]?
  claims : ∀ a : String, a ≠ k → s'.store.refreshClaims[a]? = s.store.refreshClaims[a]?
  backoff : s'.store.failureBackoffDuration = s.store.failureBackoffDuration
  token : s'.store.accessToken = s.store.accessToken
  vault : Option.Rel (VaultStatesAgree k) s.vault s'.vault
  file : StoredAgree k s.file s'.file
  now : s'.now = s.now
  log : s'.log = s.log

/-- The verifier refuses the caller ownership of the key. -/
def Refused (ctx : HandlerCtx) (s : State) (k : String) : Prop :=
  requireOwner ctx s k = some ownerRefusal

theorem refused_iff {ctx : HandlerCtx} {s : State} {k : String} :
    Refused ctx s k ↔
      ∃ owner denied, s.store.ownerOf k = some owner ∧ ctx.satisfies owner = .error denied := by
  unfold Refused requireOwner
  cases s.store.ownerOf k with
  | none => simp
  | some owner =>
    simp only
    cases hsat : ctx.satisfies owner with
    | ok u => simp [hsat]
    | error denied => exact ⟨fun _ => ⟨owner, denied, rfl, hsat⟩, fun _ => rfl⟩

/-- The reply to a request on a key whose owner the caller is not, which is a
function of the request. -/
def refusalOf : Request → Response
  | .kvSet request => (validateProtocolKey request.key).getD ownerRefusal
  | .kvGet key _ => (rejectReservedNamespaceRead key).getD ownerRefusal
  | _ => ownerRefusal

section Refusals

variable {ctx : HandlerCtx} {s : State} {k : String}

theorem ownerOnly_refused (h : Refused ctx s k) (operation : Response × State) :
    ownerOnly ctx s k operation = (ownerRefusal, s) := by
  unfold ownerOnly
  rw [show requireOwner ctx s k = some ownerRefusal from h]

theorem gateSet_refused {r : SetRequest} (h : Refused ctx s r.key) :
    gateSet ctx s r = .error ((validateProtocolKey r.key).getD ownerRefusal) := by
  unfold gateSet
  cases validateProtocolKey r.key with
  | some resp => rfl
  | none =>
    simp only
    rw [show requireOwner ctx s r.key = some ownerRefusal from h]
    rfl

theorem gateGet_refused (h : Refused ctx s k) :
    gateGet ctx s k = some ((rejectReservedNamespaceRead k).getD ownerRefusal) := by
  unfold gateGet
  cases rejectReservedNamespaceRead k with
  | some resp => rfl
  | none =>
    simp only
    rw [show requireOwner ctx s k = some ownerRefusal from h]
    rfl

/-- The handler refuses, and does nothing else. -/
theorem handleRequest_refused {req : Request} (hkey : req.key? = some k) (h : Refused ctx s k) :
    handleRequest ctx s req = (refusalOf req, s) := by
  cases req with
  | ping => cases hkey
  | vaultInit => cases hkey
  | vaultUnlock code => cases hkey
  | vaultLock => cases hkey
  | vaultAddPasskey => cases hkey
  | restartGraceful => cases hkey
  | kvSet request =>
    cases hkey
    show handleKvSet ctx s request = _
    unfold handleKvSet
    rw [gateSet_refused h]
    rfl
  | kvGet key dryRun =>
    cases hkey
    show handleGet ctx s k dryRun = _
    unfold handleGet
    rw [gateGet_refused h]
    rfl
  | kvDefine key source soft hard valueMeta =>
    cases hkey
    exact ownerOnly_refused h _
  | kvDel key withDefine =>
    cases hkey
    exact ownerOnly_refused h _
  | kvPin key durationSecs =>
    cases hkey
    exact ownerOnly_refused h _
  | kvUnpin key =>
    cases hkey
    exact ownerOnly_refused h _
  | kvClaim key expectedVersion durationSecs =>
    cases hkey
    exact ownerOnly_refused h _
  | kvUnclaim key claimToken =>
    cases hkey
    exact ownerOnly_refused h _
  | kvOwnerClear key =>
    cases hkey
    exact ownerOnly_refused h _

end Refusals

/-- A request tells two states apart neither by its reply nor by what it does,
and does nothing in either: the log of outside calls is part of the state. -/
def Unnoticed (serve : HandlerCtx → State → Request → Dispatched × State) (ctx : HandlerCtx)
    (req : Request) (s s' : State) : Prop :=
  ∃ resp, serve ctx s req = (.replied resp, s) ∧ serve ctx s' req = (.replied resp, s')

def handleStraight (ctx : HandlerCtx) (s : State) (req : Request) : Dispatched × State :=
  (.replied (handleRequest ctx s req).1, (handleRequest ctx s req).2)

/-- The guards of the key do not tell the two states apart: there are none, or
the key is refused before they are looked at, or both refuse in the same way. -/
def GuardsSilent (ctx : HandlerCtx) (k : String) (s s' : State) : Prop :=
  (rejectReservedNamespaceRead k).isSome ∨
    (s.store.guardOf k = none ∧ s'.store.guardOf k = none) ∨
    ∃ record record', s.store.guardOf k = some record ∧ s'.store.guardOf k = some record' ∧
      ((ctx.kvProcessPolicies[k]?).any (fun allowed => !chainGatePasses ctx.requester allowed) ∨
        ∀ chain ∈ ctx.guardChain, ∃ kind,
          evaluate chain ctx.guardAuditToken record = .error kind ∧
            evaluate chain ctx.guardAuditToken record' = .error kind)

theorem deniedKindLabel_inj {a b : DeniedKind} (h : deniedKindLabel a = deniedKindLabel b) :
    a = b := by
  cases a <;> cases b <;> first | rfl | exact absurd h (by decide)

section Dispatch

variable {ctx : HandlerCtx} {s s' : State} {k : String}

theorem guardedGetFirstPass_unguarded (h : Refused ctx s k) (hguard : s.store.guardOf k = none) :
    guardedGetFirstPass ctx s k = (.replied (refusalOf (.kvGet k false)), s) := by
  have h' : Refused { ctx with guardCheckMode := .evaluate } s k := h
  unfold guardedGetFirstPass
  rw [hguard]
  simp only
  rw [handleRequest_refused rfl h']

theorem guardedGetFirstPass_guarded {record : GuardRecord}
    (hguard : s.store.guardOf k = some record) (hns : rejectReservedNamespaceRead k = none) :
    guardedGetFirstPass ctx s k =
      (if (ctx.kvProcessPolicies[k]?).any fun allowed =>
          !chainGatePasses ctx.requester allowed then
        .replied (.error .authFailed [.text "process not permitted to access this key"])
      else
        match ctx.guardChain with
        | none => .replied (.error .authFailed
            [.text "access denied by entry guard (kind: missing-context)"])
        | some chain =>
          match evaluate chain ctx.guardAuditToken record with
          | .ok output => .needsApproval output
          | .error kind =>
            .replied (.error .authFailed [.text "access denied by entry guard (kind: ",
              .text (deniedKindLabel kind), .text ")"]), s) := by
  unfold guardedGetFirstPass
  rw [hguard, hns]
  simp only
  split
  · rfl
  split
  · rfl
  split <;> rfl

/-- A reply from the guard is never the refusal of the owner. -/
theorem guarded_ne_unguarded {record : GuardRecord} (hguard : s'.store.guardOf k = some record)
    (hns : rejectReservedNamespaceRead k = none) (t : State) :
    guardedGetFirstPass ctx s' k ≠ (.replied (refusalOf (.kvGet k false)), t) := by
  rw [guardedGetFirstPass_guarded hguard hns]
  have hrefusal : refusalOf (.kvGet k false) = ownerRefusal := by
    show (rejectReservedNamespaceRead k).getD ownerRefusal = _
    rw [hns]
    rfl
  rw [hrefusal]
  intro h
  have hreply := congrArg Prod.fst h
  simp only at hreply
  split at hreply
  · exact absurd hreply (by decide)
  split at hreply
  · exact absurd hreply (by decide)
  split at hreply
  · cases hreply
  · simp [ownerRefusal, Response.error] at hreply

theorem firstPass_unnoticed_iff (h : Refused ctx s k) (h' : Refused ctx s' k) :
    (∃ resp, guardedGetFirstPass ctx s k = (.replied resp, s) ∧
        guardedGetFirstPass ctx s' k = (.replied resp, s')) ↔ GuardsSilent ctx k s s' := by
  cases hns : rejectReservedNamespaceRead k with
  | some resp =>
    have hboth : ∀ t, Refused ctx t k → guardedGetFirstPass ctx t k = (.replied resp, t) := by
      intro t ht
      cases hguard : t.store.guardOf k with
      | none =>
        rw [guardedGetFirstPass_unguarded ht hguard]
        show (Dispatched.replied ((rejectReservedNamespaceRead k).getD ownerRefusal), t) = _
        rw [hns]
        rfl
      | some record =>
        unfold guardedGetFirstPass
        rw [hguard, hns]
    exact ⟨fun _ => Or.inl (by rw [hns]; rfl), fun _ => ⟨resp, hboth s h, hboth s' h'⟩⟩
  | none =>
    cases hguard : s.store.guardOf k with
    | none =>
      cases hguard' : s'.store.guardOf k with
      | none =>
        exact ⟨fun _ => Or.inr (Or.inl ⟨hguard, hguard'⟩), fun _ =>
          ⟨_, guardedGetFirstPass_unguarded h hguard, guardedGetFirstPass_unguarded h' hguard'⟩⟩
      | some record' =>
        constructor
        · rintro ⟨resp, hs, hs'⟩
          rw [guardedGetFirstPass_unguarded h hguard] at hs
          cases hs
          exact absurd hs' (guarded_ne_unguarded hguard' hns s')
        · rintro (hsome | ⟨-, hnone⟩ | ⟨record, _, hsome, -⟩)
          · rw [hns] at hsome
            cases hsome
          · rw [hguard'] at hnone
            cases hnone
          · rw [hguard] at hsome
            cases hsome
    | some record =>
      cases hguard' : s'.store.guardOf k with
      | none =>
        constructor
        · rintro ⟨resp, hs, hs'⟩
          rw [guardedGetFirstPass_unguarded h' hguard'] at hs'
          cases hs'
          exact absurd hs (guarded_ne_unguarded hguard hns s)
        · rintro (hsome | ⟨hnone, -⟩ | ⟨_, record', -, hsome, -⟩)
          · rw [hns] at hsome
            cases hsome
          · rw [hguard] at hnone
            cases hnone
          · rw [hguard'] at hsome
            cases hsome
      | some record' =>
        rw [guardedGetFirstPass_guarded hguard hns, guardedGetFirstPass_guarded hguard' hns]
        unfold GuardsSilent
        rw [hns, hguard, hguard']
        simp only [Option.isSome_none, Bool.false_eq_true, reduceCtorEq, and_self, false_or,
          Option.some.injEq]
        by_cases hpolicy : (ctx.kvProcessPolicies[k]?).any fun allowed =>
            !chainGatePasses ctx.requester allowed
        · simp only [hpolicy, if_true]
          exact ⟨fun _ => ⟨_, _, rfl, rfl, Or.inl trivial⟩, fun _ => ⟨_, rfl, rfl⟩⟩
        · simp only [hpolicy]
          cases hchain : ctx.guardChain with
          | none =>
            exact ⟨fun _ => ⟨_, _, rfl, rfl, Or.inr (by rintro _ ⟨⟩)⟩, fun _ => ⟨_, rfl, rfl⟩⟩
          | some chain =>
            simp only
            constructor
            · rintro ⟨resp, hs, hs'⟩
              refine ⟨_, _, rfl, rfl, Or.inr ?_⟩
              rintro _ ⟨⟩
              cases hev : evaluate chain ctx.guardAuditToken record with
              | ok output =>
                rw [hev] at hs
                cases hs
              | error kind =>
                cases hev' : evaluate chain ctx.guardAuditToken record' with
                | ok output =>
                  rw [hev'] at hs'
                  cases hs'
                | error kind' =>
                  rw [hev] at hs
                  rw [hev'] at hs'
                  cases hs
                  have hlabel : deniedKindLabel kind' = deniedKindLabel kind := by
                    simpa [Response.error] using hs'
                  rw [deniedKindLabel_inj hlabel]
                  exact ⟨kind, rfl, rfl⟩
            · rintro ⟨_, _, rfl, rfl, hor⟩
              rcases hor with hfalse | hall
              · cases hfalse
              · obtain ⟨kind, hev, hev'⟩ := hall chain rfl
                rw [hev, hev']
                exact ⟨_, rfl, rfl⟩

end Dispatch

/-- For a caller the verifier refuses, a request on an owned key tells nothing
about what is stored under it, straight to the handler always, and through the
dispatcher if and only if it is no reveal get or the guards are silent. -/
theorem refused_unnoticed_iff (ctx : HandlerCtx) (k : String) (req : Request) (s s' : State)
    (hkey : req.key? = some k) (hagree : AgreeExcept k s s') (h : Refused ctx s k) :
    (Unnoticed handleStraight ctx req s s' ∧ Unnoticed dispatch ctx req s s') ↔
      (req = .kvGet k false → GuardsSilent ctx k s s') := by
  have h' : Refused ctx s' k := by
    unfold Refused requireOwner at h ⊢
    rw [hagree.owner]
    exact h
  have hstraight : Unnoticed handleStraight ctx req s s' := by
    refine ⟨refusalOf req, ?_, ?_⟩ <;> unfold handleStraight
    · rw [handleRequest_refused hkey h]
    · rw [handleRequest_refused hkey h']
  rw [and_iff_right hstraight]
  by_cases hreveal : req = .kvGet k false
  · subst hreveal
    exact ⟨fun hun _ => (firstPass_unnoticed_iff h h').1 hun,
      fun hsilent => (firstPass_unnoticed_iff h h').2 (hsilent rfl)⟩
  · have hsame : ∀ t, dispatch ctx t req = handleStraight ctx t req := by
      intro t
      unfold dispatch
      split
      · cases hkey
        exact absurd rfl hreveal
      · rfl
    simp only [hreveal, false_implies, iff_true]
    unfold Unnoticed
    rw [hsame s, hsame s']
    exact hstraight

/-- A caller whose signature satisfies no owner. -/
def strangerCtx : HandlerCtx :=
  { HandlerCtx.quiet with satisfies := fun _ => .error .noPeerToken }

def ownedPlain : State :=
  let started := State.starting none .absent
  started.withStore
    (started.store.setOwner "ns/k" ⟨.apple, "TEAM", "com.example.app"⟩ started.store.controlCap).2

/-- The same with a guard on the key that the caller meets. -/
def ownedGuarded : State :=
  ownedPlain.withStore
    (ownedPlain.store.setGuard "ns/k" ⟨[.sameUser], ⟨501, 501⟩⟩ ownedPlain.store.controlCap).2

theorem ownedPlain_agree : AgreeExcept "ns/k" ownedPlain ownedGuarded where
  owner := rfl
  entries _ _ := rfl
  definitions _ _ := rfl
  failures _ _ := rfl
  guards a ha := by
    show (ownedPlain.store.accessGuards.insert "ns/k" _)[a]? = _
    rw [KeyMap.get_insert_of_ne _ _ ha.symm]
  owners _ _ := rfl
  versions _ _ := rfl
  claims _ _ := rfl
  backoff := rfl
  token := rfl
  vault := Option.Rel.none
  file := rfl
  now := rfl
  log := rfl

theorem stranger_refused : Refused strangerCtx ownedPlain "ns/k" := by
  rw [refused_iff]
  exact ⟨⟨.apple, "TEAM", "com.example.app"⟩, .noPeerToken, by decide, rfl⟩

theorem refused_unnoticed_iff_stranger :
    Unnoticed handleStraight strangerCtx (.kvDel "ns/k" true) ownedPlain ownedGuarded ∧
      Unnoticed dispatch strangerCtx (.kvDel "ns/k" true) ownedPlain ownedGuarded :=
  (refused_unnoticed_iff strangerCtx "ns/k" (.kvDel "ns/k" true) ownedPlain ownedGuarded rfl
    ownedPlain_agree stranger_refused).mpr (by rintro ⟨⟩)

/-- The stranger's reveal get of the guarded key is shown to a human, that of
the other is refused. -/
theorem stranger_sees_guard :
    AgreeExcept "ns/k" ownedPlain ownedGuarded ∧ Refused strangerCtx ownedPlain "ns/k" ∧
      ¬ Unnoticed dispatch strangerCtx (.kvGet "ns/k" false) ownedPlain ownedGuarded := by
  refine ⟨ownedPlain_agree, stranger_refused, ?_⟩
  rintro ⟨resp, -, hguarded⟩
  have happroval : (dispatch strangerCtx ownedGuarded (.kvGet "ns/k" false)).1 =
      .needsApproval ⟨[⟨"same-user", "strong", "same-user", none⟩], none, none⟩ := by
    decide
  rw [hguarded] at happroval
  cases happroval

end Daemon

end CacheWarden
