import CacheWarden.Daemon.Persistence
import CacheWarden.Daemon.Runs

/-!
# One claim, recorded twice

A claim on a key the open vault holds stands in the store and in the vault, and
each of the two is a fence of its own. A write is stored before the second one
is asked, so what it does when it is refused rests on the two being in step.
-/

set_option autoImplicit false

namespace CacheWarden

namespace Daemon

open Vault Store Transition

/-- At `now` both records of the claim on the key are active, with one token, or
neither is. -/
def FencesAgree (store : Store) (vault : UnlockedVault) (key : String) (now : UInt64) : Prop :=
  ∀ e, vault.entry key = some e →
    (activeClaimOf store key now).map RefreshClaim.token =
      (e.activeClaim now).map fun claim => claim.token.asStr

/-- The two agree from `since` on. -/
def InStep (s : State) (key : String) (since : UInt64) : Prop :=
  ∀ vault, s.vault = some (.unlocked vault) → ∀ now, since ≤ now → FencesAgree s.store vault key now

/-- The requests that claim, release or set the key. -/
def OnKey (key : String) : Request → Prop
  | .kvClaim k _ _ => k = key
  | .kvUnclaim k _ => k = key
  | .kvSet r => r.key = key
  | _ => False

/-- The readings of the wall clock in one request, which go on from `since`. -/
structure WallForward (since : UInt64) (ctx : HandlerCtx) : Prop where
  first : since ≤ ctx.wall 0
  second : ctx.wall 0 ≤ ctx.wall 1
  third : ctx.wall 1 ≤ ctx.wall 2
  fourth : ctx.wall 2 ≤ ctx.wall 3

/-- A claim that is granted has one expiry in both records. A set that is
accepted while the vault has an active claim is persisted, and nothing but the
claim stops its write. -/
def FenceKept (ctx : HandlerCtx) (s : State) (req : Request) : Prop :=
  ∀ vault, s.vault = some (.unlocked vault) →
    match req with
    | .kvClaim key expected secs => ∀ e, vault.entry key = some e →
        ClaimGranted ctx s key expected secs e →
          Word64.saturatingAdd (ctx.wall 0) (Word64.saturatingMul secs 1000) =
            Word64.saturatingAdd (ctx.wall 1) (Word64.saturatingMul secs 1000)
    | .kvSet r => ∀ e, vault.entry r.key = some e → (e.activeClaim (ctx.wall 3)).isSome →
        ∀ plan persist, Accepts ctx s r plan persist → persist = true ∧ ctx.commit = .done ∧
          ∃ w, persistedEntry ctx (plan.store ctx s r.key) r.key plan.bytes = .ok w
    | _ => True

section Claims

variable {store : Store} {vault : UnlockedVault} {key : String} {now later : UInt64}

theorem activeClaimOf_slice (store : Store) (key : String) (now : UInt64) :
    activeClaimOf store key now =
      (store.slice key).claim.filter fun claim => claim.isActiveAt now := rfl

/-- A claim that is not active stays so. -/
theorem activeClaim_none_later {e : VaultEntry} (h : e.activeClaim now = none) (hle : now ≤ later) :
    e.activeClaim later = none := by
  unfold VaultEntry.activeClaim at h ⊢
  cases hclaim : e.refreshClaim with
  | none => rfl
  | some claim =>
    rw [hclaim] at h
    have hlapsed : claim.isActiveAt now = false := by simpa [Option.filter] using h
    simp [Option.filter, Claim.not_active_of_le hlapsed hle]

/-- A claim that is active was active before. -/
theorem activeClaim_some_earlier {e : VaultEntry} {claim : Claim}
    (h : e.activeClaim later = some claim) (hle : now ≤ later) : e.activeClaim now = some claim := by
  cases hnow : e.activeClaim now with
  | none =>
    rw [activeClaim_none_later hnow hle] at h
    cases h
  | some earlier =>
    unfold VaultEntry.activeClaim at h hnow
    have hsame := (Option.filter_eq_some_iff.mp h).1
    rw [(Option.filter_eq_some_iff.mp hnow).1] at hsame
    exact hsame

/-- The millisecond counts of the two records are the same. -/
theorem grantedClaim_expires (token : ClaimToken) (now secs : UInt64) :
    (UnlockedVault.grantedClaim token now (Duration.fromSecs secs)).expiresAtEpochMs =
      Word64.saturatingAdd now (Word64.saturatingMul secs 1000) := by
  have hmillis : millisSaturatingU64 (Duration.fromSecs secs) = Word64.saturatingMul secs 1000 := by
    unfold millisSaturatingU64 Word64.saturatingMul
    congr 1
    have hfloor : 1000000000 * secs.toNat / 1000000 = secs.toNat * 1000 := by omega
    exact hfloor
  unfold UnlockedVault.grantedClaim
  rw [hmillis]

theorem parse_of_matches {held : ClaimToken} {supplied : String}
    (h : claimTokenMatches held.asStr supplied = true) : ClaimToken.parse supplied = some held := by
  unfold claimTokenMatches at h
  cases hheld : ClaimToken.parse held.asStr with
  | none =>
    rw [hheld] at h
    cases h
  | some a =>
    cases hsupplied : ClaimToken.parse supplied with
    | none =>
      rw [hheld, hsupplied] at h
      cases h
    | some b =>
      rw [hheld, hsupplied] at h
      have htext : a = held := by
        have hsame := ClaimToken.parse_some hheld
        cases a
        cases held
        exact congrArg ClaimToken.mk hsame
      rw [← htext, (ClaimToken.matches_iff a b).mp h]

/-- A set let past the store's fence is let past the vault's, while they agree. -/
theorem allowed_of_fence {token : Option String} {e : VaultEntry}
    (hagree : FencesAgree store vault key now) (hheld : vault.entry key = some e)
    (hfence : checkClaimFence store key token now = none) (hle : now ≤ later) :
    checkClaim e (token.bind ClaimToken.parse) later = .ok () := by
  rw [checkClaim_ok_iff]
  intro claim hclaim
  have hnow := activeClaim_some_earlier hclaim hle
  have hsame := hagree e hheld
  rw [hnow] at hsame
  cases hactive : activeClaimOf store key now with
  | none =>
    rw [hactive] at hsame
    cases hsame
  | some active =>
    rw [hactive] at hsame
    simp only [Option.map_some, Option.some.injEq] at hsame
    unfold checkClaimFence at hfence
    rw [hactive] at hfence
    cases token with
    | none => cases hfence
    | some supplied =>
      simp only at hfence
      by_cases hmatch : claimTokenMatches active.token supplied = true
      · rw [hsame] at hmatch
        exact parse_of_matches hmatch
      · rw [if_neg hmatch] at hfence
        cases hfence

/-- Two records of one claim are active together. -/
theorem both_recorded {claim : RefreshClaim} {granted : Claim}
    (htoken : claim.token = granted.token.asStr)
    (hexpires : claim.expiresAtEpochMs = granted.expiresAtEpochMs) :
    ((some claim).filter fun c => c.isActiveAt now).map RefreshClaim.token =
      ((some granted).filter fun c => c.isActiveAt now).map fun c => c.token.asStr := by
  have hactive : claim.isActiveAt now = granted.isActiveAt now := by
    unfold RefreshClaim.isActiveAt Claim.isActiveAt
    rw [hexpires]
  simp only [Option.filter, hactive]
  by_cases h : granted.isActiveAt now = true
  · simp [h, htoken]
  · simp [h]

theorem inStep_of_cleared {store : Store} {key : String} {vault : UnlockedVault} {since now : UInt64}
    (hstore : (store.slice key).claim = none)
    (hvault : ∀ e, vault.entry key = some e → e.activeClaim since = none) (hle : since ≤ now) :
    FencesAgree store vault key now := by
  intro e he
  rw [activeClaimOf_slice, hstore, activeClaim_none_later (hvault e he) hle]
  rfl

end Claims

section Step

variable {ctx : HandlerCtx} {s s' : State} {key : String} {since : UInt64}

theorem WallForward.le_last (h : WallForward since ctx) : since ≤ ctx.wall 3 :=
  UInt64.le_trans h.first (UInt64.le_trans h.second (UInt64.le_trans h.third h.fourth))

theorem claim_of_plan (plan : SetPlan) (ctx : HandlerCtx) (s : State) (key : String) :
    ((plan.store ctx s key).slice key).claim = none := by
  rw [show (plan.store ctx s key).slice key = _ from acceptedStore_slice s.store key key plan.bytes
    plan.ttl plan.guard plan.declared (ctx.clock.now 0), if_pos rfl]

theorem claim_of_clear (store : Store) (key : String) :
    (((store.clearRefreshClaim key store.controlCap).2).slice key).claim = none := by
  rw [clearRefreshClaim_slice store key key _ store.checkCap_controlCap, if_pos rfl]

theorem claim_of_set (store : Store) (key : String) (claim : RefreshClaim) :
    (((store.setRefreshClaim key claim store.controlCap).2).slice key).claim = some claim := by
  rw [setRefreshClaim_slice store key key _ claim store.checkCap_controlCap, if_pos rfl]

theorem fence_passed {r : SetRequest} {plan : SetPlan} {persist : Bool}
    (h : Accepts ctx s r plan persist) :
    checkClaimFence s.store r.key r.claimToken (ctx.wall 0) = none :=
  (gated_of_gateSet ctx s h.gate).fence

/-- The vault's fence lets a set past that the store's let past. -/
theorem InStep.allowed {r : SetRequest} {plan : SetPlan} {persist : Bool} {vault : UnlockedVault}
    (h : InStep s r.key since) (hwall : WallForward since ctx)
    (hvault : s.vault = some (.unlocked vault)) (haccepts : Accepts ctx s r plan persist) :
    vault.WriteAllowed r.key (r.claimToken.bind ClaimToken.parse) (ctx.wall 2) := by
  intro existing hheld
  exact allowed_of_fence (h vault hvault (ctx.wall 0) hwall.first) hheld (fence_passed haccepts)
    (UInt64.le_trans hwall.second hwall.third)

/-- What one request on the key preserves. -/
theorem inStep_effect {req : Request} {resp : Response} (honly : OnKey key req)
    (hwall : WallForward since ctx) (hkept : FenceKept ctx s req) (h : InStep s key since)
    (heffect : Effect ctx s req resp s') : InStep s' key (ctx.wall 3) := by
  have hsame : InStep s key (ctx.wall 3) :=
    fun vault hvault now hle => h vault hvault now (UInt64.le_trans hwall.le_last hle)
  cases heffect with
  | refused => exact hsame
  | pong | stayedClosed | created | uncreated | opened | closed | deleted | deletedHeld
  | undeleted | defined | read | pinned | unpinned | ownerCleared => exact honly.elim
  | cached r plan owner haccepts =>
    cases honly
    intro vault hvault now hle
    refine inStep_of_cleared (claim_of_plan plan ctx s r.key) (fun e he => ?_) hle
    by_contra hactive
    have hwritten := hkept vault hvault e he (Option.isSome_iff_ne_none.mpr hactive) plan false
      haccepts
    cases hwritten.1
  | persisted r plan owner vault haccepts hvault hallowed =>
    cases honly
    intro next hnext now hle
    cases hnext
    refine inStep_of_cleared (claim_of_plan plan ctx s r.key) (fun e he => ?_) hle
    rw [writtenVault, UnlockedVault.entry_insertEntry, if_pos (by rfl)] at he
    cases he
    rfl
  | unwritable r plan err haccepts he =>
    cases honly
    intro vault hvault now hle
    refine inStep_of_cleared (claim_of_plan plan ctx s r.key) (fun e hheld => ?_) hle
    by_contra hactive
    obtain ⟨-, -, w, hw⟩ := hkept vault hvault e hheld (Option.isSome_iff_ne_none.mpr hactive) plan
      true haccepts
    exact he w hw
  | fenced r plan err vault existing cause haccepts hvault hheld hcheck =>
    cases honly
    rw [h.allowed hwall hvault haccepts existing hheld] at hcheck
    cases hcheck
  | uncommitted r plan err vault file haccepts hvault hcommit hfile =>
    cases honly
    intro vault hvault now hle
    refine inStep_of_cleared (claim_of_plan plan ctx s r.key) (fun e hheld => ?_) hle
    by_contra hactive
    obtain ⟨-, hdone, -⟩ := hkept vault hvault e hheld (Option.isSome_iff_ne_none.mpr hactive) plan
      true haccepts
    exact hcommit hdone
  | claimed key expected secs hheld hversion hidle =>
    cases honly
    intro vault hvault now hle e he
    rw [hheld vault (openVault_of_unlocked _ hvault)] at he
    cases he
  | claimedHeld key expected secs vault e hvault hheld hgranted =>
    cases honly
    intro next hnext now hle e' he'
    cases hnext
    have hkey : e.key = key := UnlockedVault.key_of_entry hheld
    rw [UnlockedVault.entry_insertEntry,
      if_pos (show (claimedEntry ctx e secs).key = key from hkey)] at he'
    cases he'
    have hexpires := grantedClaim_expires ctx.freshToken (ctx.wall 1) secs
    rw [← hkept vault hvault e hheld hgranted] at hexpires
    rw [activeClaimOf_slice, State.withStore, claim_of_set]
    exact both_recorded rfl hexpires.symm
  | unclaimed => exact hsame
  | released key token hheld hfence =>
    cases honly
    intro vault hvault now hle e he
    rw [hheld vault (openVault_of_unlocked _ hvault)] at he
    cases he
  | releasedHeld key token vault next e file hvault hheld hfence hnext =>
    cases honly
    intro next' hnext' now hle
    cases hnext'
    refine inStep_of_cleared (claim_of_clear s.store key) (fun e' he' => ?_) hle
    rcases hnext with ⟨hnone, rfl, -⟩ | ⟨rfl, -⟩
    · rw [hheld] at he'
      cases he'
      unfold VaultEntry.activeClaim
      rw [hnone]
      rfl
    · rw [UnlockedVault.entry_insertEntry,
        if_pos (show e.key = key from UnlockedVault.key_of_entry hheld)] at he'
      cases he'
      rfl
  | unreleased => exact hsame

end Step

section Runs

/-- A set is refused because of a claim: by the store's fence before it is
written, or by the vault's after it. -/
def ClaimRefuses (ctx : HandlerCtx) (s : State) (r : SetRequest) : Prop :=
  (∃ resp, gateSet ctx s r = .error resp ∧
    checkClaimFence s.store r.key r.claimToken (ctx.wall 0) = some resp) ∨
  ∃ plan vault existing cause, Accepts ctx s r plan true ∧ s.vault = some (.unlocked vault) ∧
    vault.entry r.key = some existing ∧
    checkClaim existing (r.claimToken.bind ClaimToken.parse) (ctx.wall 2) = .error cause

/-- The value, guard, owner, version and claim of the key, and its entry in the
vault, are as they were. -/
structure Untouched (key : String) (s s' : State) : Prop where
  store : s'.store.slice key = s.store.slice key
  vault : (s'.openVault.bind fun vault => vault.entry key) =
    s.openVault.bind fun vault => vault.entry key

def RefusalUntouched (s : State) (event : Served) : Prop :=
  ∀ r, event.2 = .kvSet r → ClaimRefuses (s.context event.1) s r → Untouched r.key s (s.serve event)

/-- A state, and what the wall clock has shown. -/
abbrev Timed := State × UInt64

def serveTimed (p : Timed) (event : Served) : Timed := (p.1.serve event, event.1.wall 3)

structure FenceStep (key : String) (p : Timed) (event : Served) : Prop where
  only : OnKey key event.2
  wall : WallForward p.2 event.1
  kept : FenceKept (p.1.context event.1) p.1 event.2

variable {key : String}

theorem inStep_serve (p : Timed) (event : Served) (h : InStep p.1 key p.2)
    (hstep : FenceStep key p event) :
    InStep (serveTimed p event).1 key (serveTimed p event).2 := by
  obtain ⟨s', heffect, hserve⟩ := p.1.serve_effect event
  have hwall : WallForward p.2 (p.1.context event.1) :=
    ⟨hstep.wall.first, hstep.wall.second, hstep.wall.third, hstep.wall.fourth⟩
  have hafter := inStep_effect hstep.only hwall hstep.kept h heffect
  show InStep (p.1.serve event) key (event.1.wall 3)
  rw [hserve]
  exact hafter

theorem refusalUntouched_of_step (p : Timed) (event : Served) (h : InStep p.1 key p.2)
    (hstep : FenceStep key p event) : RefusalUntouched p.1 event := by
  intro r hr hrefuses
  have hkey : r.key = key := by
    have honly := hstep.only
    rw [hr] at honly
    exact honly
  subst hkey
  rcases hrefuses with ⟨resp, hgate, -⟩ | ⟨plan, vault, existing, cause, haccepts, hvault, hheld, hcheck⟩
  · have hstay : (handleRequest (p.1.context event.1) p.1 event.2).2 = p.1 := by
      rw [hr]
      show (handleKvSet (p.1.context event.1) p.1 r).2 = p.1
      unfold handleKvSet
      rw [hgate]
    constructor
    · show (handleRequest (p.1.context event.1) p.1 event.2).2.store.slice r.key = _
      rw [hstay]
    · show ((handleRequest (p.1.context event.1) p.1 event.2).2.openVault.bind _) = _
      rw [hstay]
  · have hwall : WallForward p.2 (p.1.context event.1) :=
      ⟨hstep.wall.first, hstep.wall.second, hstep.wall.third, hstep.wall.fourth⟩
    rw [h.allowed hwall hvault haccepts existing hheld] at hcheck
    cases hcheck

/-- In every run of claims, releases and sets on one key whose steps all meet the
condition, the two records agree at every moment, and a set that is refused
because of a claim changes nothing. -/
theorem fences_in_step (key : String) (s : State) (since : UInt64) (hstart : InStep s key since)
    (events : List Served) (h : Along serveTimed (FenceStep key) (s, since) events) :
    InStep (run serveTimed (s, since) events).1 key (run serveTimed (s, since) events).2 ∧
      Along serveTimed (fun p event => RefusalUntouched p.1 event) (s, since) events := by
  have hinv : ∀ (p : Timed) (event : Served), InStep p.1 key p.2 → FenceStep key p event →
      InStep (serveTimed p event).1 key (serveTimed p event).2 := inStep_serve
  constructor
  · exact run_invariant serveTimed (I := fun p => InStep p.1 key p.2) hinv (s, since) events h hstart
  · exact along_of_invariant serveTimed (I := fun p => InStep p.1 key p.2) hinv
      refusalUntouched_of_step (s, since) events h hstart

/-- A value is persisted, and the key is claimed. -/
def claimedRun : List Served :=
  [(.quiet, .kvSet (setPlain none)), (.quiet, .kvClaim "ns/k" 1 60)]

/-- The holder of the claim sets the key again without persisting it. -/
def halfClearedRun : List Served :=
  claimedRun ++ [(.quiet, .kvSet
    { setPlain none with
      persist := some false
      claimToken := some HandlerCtx.quiet.freshToken.asStr })]

/-- Someone else's write, to be persisted. -/
def setLater : SetRequest := { setPlain none with source := .static (some [2]) }

theorem inStep_openPlain : InStep openPlain "ns/k" 0 := by
  intro vault hvault now _ e he
  cases hvault
  have hempty : Bench.plainVault.entry "ns/k" = none := by decide
  rw [hempty] at he
  cases he

theorem wallForward_quiet : WallForward 0 HandlerCtx.quiet := by
  constructor <;> decide

theorem fences_in_step_claimed :
    InStep (run serveTimed (openPlain, 0) claimedRun).1 "ns/k"
        (run serveTimed (openPlain, 0) claimedRun).2 ∧
      Along serveTimed (fun p event => RefusalUntouched p.1 event) (openPlain, 0) claimedRun := by
  refine fences_in_step "ns/k" openPlain 0 inStep_openPlain claimedRun
    ⟨⟨rfl, wallForward_quiet, ?_⟩, ⟨rfl, wallForward_quiet, ?_⟩, trivial⟩
  · intro vault hvault e he
    cases hvault
    have hempty : Bench.plainVault.entry "ns/k" = none := by decide
    rw [show (setPlain none).key = "ns/k" from rfl, hempty] at he
    cases he
  · intro _ _ _ _ _
    rfl

/-- The state after the run, and the vault's entry in it. -/
def halfCleared : State := (run serveTimed (openPlain, 0) halfClearedRun).1

theorem halfCleared_entry : ∃ vault e, halfCleared.vault = some (.unlocked vault) ∧
    vault.entry "ns/k" = some e ∧ checkClaim e none 0 = .error (.claimRequired 60000) ∧
      e.activeClaim 0 ≠ none := by
  have hheld : (halfCleared.openVault.bind fun vault => (vault.entry "ns/k").map fun e =>
      (checkClaim e none 0, (e.activeClaim 0).isSome)) =
        some (.error (.claimRequired 60000), true) := by decide
  cases hopen : halfCleared.openVault with
  | none =>
    rw [hopen] at hheld
    cases hheld
  | some vault =>
    rw [hopen] at hheld
    simp only [Option.bind_some] at hheld
    cases he : vault.entry "ns/k" with
    | none =>
      rw [he] at hheld
      cases hheld
    | some e =>
      rw [he] at hheld
      simp only [Option.map_some, Option.some.injEq, Prod.mk.injEq] at hheld
      exact ⟨vault, e, unlocked_of_openVault _ hopen, he, hheld.1,
        Option.isSome_iff_ne_none.mp hheld.2⟩

theorem setLater_accepted : Accepts .quiet halfCleared setLater
    ⟨[2], Ttl.never, some ⟨[.sameUser], ⟨501, 501⟩⟩, none⟩ true where
  gate := by decide
  source := rfl
  valid := by decide
  soft := rfl
  hard := rfl
  guard := by decide

/-- After the set the claim stands in the vault alone. A write without its token
is let past the store's fence, replaces the value, and is refused only then. -/
theorem claim_left_in_vault :
    (∀ event ∈ halfClearedRun, OnKey "ns/k" event.2 ∧ WallForward 0 event.1) ∧
      InStep openPlain "ns/k" 0 ∧
      ¬ InStep (run serveTimed (openPlain, 0) halfClearedRun).1 "ns/k" 0 ∧
      ClaimRefuses .quiet (run serveTimed (openPlain, 0) halfClearedRun).1 setLater ∧
      ¬ Untouched "ns/k" (run serveTimed (openPlain, 0) halfClearedRun).1
        ((run serveTimed (openPlain, 0) halfClearedRun).1.serve (.quiet, .kvSet setLater)) := by
  obtain ⟨vault, e, hvault, hheld, hcheck, hactive⟩ := halfCleared_entry
  refine ⟨?_, inStep_openPlain, ?_, Or.inr ⟨_, vault, e, _, setLater_accepted, hvault, hheld, hcheck⟩,
    ?_⟩
  · intro event hmem
    simp only [halfClearedRun, claimedRun, List.cons_append, List.nil_append, List.mem_cons,
      List.not_mem_nil, or_false] at hmem
    rcases hmem with rfl | rfl | rfl <;> exact ⟨rfl, wallForward_quiet⟩
  · intro h
    have hsame := h vault hvault 0 (by decide) e hheld
    have hnone : activeClaimOf halfCleared.store "ns/k" 0 = none := by decide
    rw [show activeClaimOf (run serveTimed (openPlain, 0) halfClearedRun).1.store "ns/k" 0 = none
      from hnone] at hsame
    cases hclaim : e.activeClaim 0 with
    | none => exact hactive hclaim
    | some claim =>
      rw [hclaim] at hsame
      cases hsame
  · intro h
    exact absurd (congrArg KeySlice.entry h.store) (by decide)

end Runs

end Daemon

end CacheWarden
