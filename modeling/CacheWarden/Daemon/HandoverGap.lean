import CacheWarden.Daemon.DefinitionRaces
import CacheWarden.Daemon.RestartChain
import CacheWarden.Daemon.StandIn
import CacheWarden.Daemon.Seeds
import CacheWarden.Daemon.Rollback

/-!
# What falls between the export and the exec

A graceful restart exports the store when it is asked for, takes the key of the
vault afterwards, and replaces the process only when its connections have
drained. The next process has the store of the first moment, opens the vault
with the key of the second, and reads the file of the third. What a request is
acknowledged for in between stays behind with the old process.
-/

set_option autoImplicit false

namespace CacheWarden

namespace Daemon

open Vault Store Transition

/-- A graceful restart and the requests around it: those served before the store
is exported, those before the key of the vault is taken, and those before the
process is replaced. -/
structure GracefulExec where
  start : State
  before : List Served
  exporting : List Served
  draining : List Served
  restart : Restart

namespace GracefulExec

variable (g : GracefulExec)

/-- The requests between the export and the exec. -/
def interim : List Served := g.exporting ++ g.draining

def exported : State := run State.serve g.start g.before

/-- The daemon when the key of its vault is taken. -/
def keyed : State := run State.serve g.exported g.exporting

def last : State := run State.serve g.exported g.interim

/-- The vault's key is handed over if the vault is open. -/
def successorRestart : Restart := { g.restart with keyHandedOver := g.keyed.openVault.isSome }

/-- The next process takes the exported store and the file as it is then. -/
def successor : State :=
  { g.exported with file := g.last.file, log := g.last.log }.restart g.successorRestart

/-- The store is accepted, and the process comes up. -/
structure Accepted : Prop where
  handover : (g.restart.handover g.exported).isOk = true
  vault : (g.successorRestart.initialVault g.last.file).isOk = true

end GracefulExec

/-- What a hand-over makes of the instants, windows and guards it carries. -/
structure Carrying where
  instant : Monotonic → Monotonic
  basis : Monotonic → Monotonic
  window : Duration → Duration
  guard : GuardRecord → GuardRecord

def Restart.carrying (r : Restart) (s : State) : Carrying where
  instant t := epochMsToMonotonic r.nowI r.wallI
    (monotonicToEpochMs ((r.clock.since s.now).now 0) r.wallE t)
  basis t := epochMsToMonotonicTtlBasis r.nowI r.wallI
    (monotonicToEpochMs ((r.clock.since s.now).now 0) r.wallE t)
  window := narrow
  guard record := snapshotToGuardRecord (guardRecordToSnapshot record)

/-- One thing that a request leaves under its key. -/
inductive Fact where
  | value (bytes : Bytes)
  | loaded (instant : Monotonic)
  | windows (soft hard : Option Duration)
  | pinned (deadline : Monotonic)
  | absent
  | guard (record : Option GuardRecord)
  | owner (principal : Option OwnerPrincipal)
  | version (count : UInt64)
  | claim (held : Option RefreshClaim)
  | definition (source : ValueSource) (valueMeta : ValueMeta) (sourceMeta : SourceMeta)
      (soft hard : Option Duration)
  | undefined

namespace Fact

/-- The store has it under the key. -/
def Holds (slice : KeySlice) : Fact → Prop
  | .value bytes => ∃ e, slice.entry = some e ∧ e.value = some bytes
  | .loaded instant => ∃ e, slice.entry = some e ∧ e.loadedAt = instant
  | .windows soft hard => ∃ e, slice.entry = some e ∧ e.ttl.soft = soft ∧ e.ttl.hard = hard
  | .pinned deadline => ∃ e, slice.entry = some e ∧ e.pinDeadline = some deadline
  | .absent => slice.entry = none
  | .guard record => slice.guard = record
  | .owner principal => slice.owner = principal
  | .version count => slice.version.getD 0 = count
  | .claim held => slice.claim = held
  | .definition source valueMeta sourceMeta soft hard => ∃ d, slice.definition = some d ∧
      d.source = source ∧ d.valueMeta = valueMeta ∧ d.sourceMeta = sourceMeta ∧
        d.ttl.soft = soft ∧ d.ttl.hard = hard
  | .undefined => slice.definition = none

def carried (carrying : Carrying) : Fact → Fact
  | .loaded instant => .loaded (carrying.basis instant)
  | .windows soft hard => .windows (soft.map carrying.window) (hard.map carrying.window)
  | .pinned deadline => .pinned (carrying.instant deadline)
  | .guard record => .guard (record.map carrying.guard)
  | .definition source valueMeta sourceMeta soft hard =>
    .definition source valueMeta sourceMeta (soft.map carrying.window) (hard.map carrying.window)
  | fact => fact

/-- A hand-over carries it beside a live value only. -/
def Valued : Fact → Prop
  | .value _ | .loaded _ | .windows _ _ | .pinned _ => True
  | .guard record => record.isSome = true
  | .owner principal => principal.isSome = true
  | .version count => count ≠ 0
  | .claim held => held.isSome = true
  | .absent | .definition _ _ _ _ _ | .undefined => False

/-- The startup does not take it away. -/
def Spared (st : Startup) (store : Store) (k : String) : Fact → Prop
  | .absent => ¬ st.Preloads k
  | .undefined => k ∉ st.configNames ∧
      ∀ persisted, st.persisted = .loaded persisted → k ∉ persisted.map KvDefinition.key
  | .guard (some _) => k ∉ st.configNames ∧ ¬ Purged st store k
  | .claim (some _) => k ∉ st.configNames ∧ ¬ Purged st store k
  | .definition _ _ _ _ _ => k ∉ st.configNames ∧ ¬ Purged st store k
  | _ => True

end Fact

/-- The request is one of those that write, and was acknowledged. -/
def AckedWrite : Request → Response → Prop
  | .kvSet _, .ok _ => True
  | .kvDel _ _, .ok _ => True
  | .kvClaim _ _ _, .ok _ => True
  | .kvDefine _ _ _ _ _, .ok _ => True
  | .kvPin _ _, .ok _ => True
  | _, _ => False

/-- The key a write is about, and all that it leaves there when it is acknowledged. -/
def written (ctx : HandlerCtx) (s : State) : Request → String × List Fact
  | .kvSet r => (r.key,
      match r.source, gateSet ctx s r,
        planGuardRecord r.guardConstraints ctx.kvPolicy ctx.guardAuditToken ctx.guardChain with
      | .static (some bytes), .ok (declared, persist), .ok plan =>
        [.value bytes, .loaded (ctx.clock.now 0),
          .windows (r.softTtlSecs.map Duration.fromSecs)
            ((if persist then none else r.hardTtlSecs).map Duration.fromSecs),
          .guard plan, .owner (declared.or (s.store.ownerOf r.key)),
          .version (Word64.saturatingAdd (s.store.versionOf r.key) 1), .claim none]
      | _, _, _ => [])
  | .kvDel key withDefine => (key,
      if withDefine = true ∨ vaultOwnership ctx s key = .owned then
        [.absent, .undefined, .guard none, .owner none, .version 0, .claim none]
      else [.absent, .guard none, .claim none])
  | .kvClaim key _ secs => (key, [.claim (some (claimFor ctx secs))])
  | .kvDefine key source soft hard valueMeta => (key,
      [.definition source.lower (metaFromWire valueMeta) source.toSourceMeta
        (soft.map Duration.fromSecs) (hard.map Duration.fromSecs)])
  | .kvPin key secs => (key,
      [.pinned ((ctx.clock.now 0).saturatingAdd (Duration.fromSecs secs))])
  | _ => ("", [])

section Acknowledgement

variable {ctx : HandlerCtx} {s : State}

theorem ownerOnly_ok {key : String} {operation : Response × State} {payload : OkPayload}
    (h : (ownerOnly ctx s key operation).1 = .ok payload) :
    ownerOnly ctx s key operation = operation := by
  unfold ownerOnly at h ⊢
  split
  · rename_i resp hgate
    rw [hgate] at h
    obtain ⟨e, rfl⟩ := stops_requireOwner ctx s key resp hgate
    cases h
  · rfl

theorem written_set {r : SetRequest} {payload : OkPayload} {s' : State}
    (heffect : Effect ctx s (.kvSet r) (.ok payload) s') :
    ∀ fact ∈ (written ctx s (.kvSet r)).2, fact.Holds (s'.store.slice r.key) := by
  have hplan : ∀ {plan : SetPlan} {persist : Bool}, Accepts ctx s r plan persist →
      ∀ fact ∈ (written ctx s (.kvSet r)).2, fact.Holds ((plan.store ctx s r.key).slice r.key) := by
    intro plan persist haccepts fact hfact
    have hslice := acceptedStore_slice s.store r.key r.key plan.bytes plan.ttl plan.guard
      plan.declared (ctx.clock.now 0)
    rw [if_pos rfl] at hslice
    rw [show (plan.store ctx s r.key).slice r.key = _ from hslice]
    simp only [written, haccepts.source, haccepts.gate, haccepts.guard, List.mem_cons,
      List.not_mem_nil, or_false] at hfact
    rcases hfact with rfl | rfl | rfl | rfl | rfl | rfl | rfl
    · exact ⟨_, rfl, rfl⟩
    · exact ⟨_, rfl, rfl⟩
    · exact ⟨_, rfl, haccepts.soft, haccepts.hard⟩
    all_goals rfl
  cases heffect with
  | cached _ plan owner haccepts => exact hplan haccepts
  | persisted _ plan owner vault haccepts hvault hallowed => exact hplan haccepts

theorem written_del {key : String} {withDefine : Bool} {payload : OkPayload} {s' : State}
    (heffect : Effect ctx s (.kvDel key withDefine) (.ok payload) s') :
    ∀ fact ∈ (written ctx s (.kvDel key withDefine)).2, fact.Holds (s'.store.slice key) := by
  have hcap := s.store.checkCap_controlCap
  have hbare : (s.store.delete key s.store.controlCap).2.slice key =
      KeySlice.valueless (s.store.slice key) :=
    (delete_slice s.store key key _ hcap).trans (if_pos rfl)
  have hwhole : (s.store.deleteWithDefinition key s.store.controlCap).2.slice key =
      KeySlice.empty :=
    (deleteWithDefinition_slice s.store key key _ hcap).trans (if_pos rfl)
  have hremoved : ∀ fact ∈ [Fact.absent, .undefined, .guard none, .owner none, .version 0,
      .claim none], fact.Holds KeySlice.empty := by
    intro fact hfact
    simp only [List.mem_cons, List.not_mem_nil, or_false] at hfact
    rcases hfact with rfl | rfl | rfl | rfl | rfl | rfl <;> rfl
  intro fact hfact
  cases heffect with
  | deleted _ _ removed hunrelated hgate =>
    have hnot : vaultOwnership ctx s key ≠ .owned := by simp [hunrelated]
    cases withDefine with
    | true =>
      simp only [written, true_or, if_true] at hfact
      show fact.Holds ((s.store.deleteWithDefinition key s.store.controlCap).2.slice key)
      rw [hwhole]
      exact hremoved fact hfact
    | false =>
      simp only [written, Bool.false_eq_true, false_or, if_neg hnot, List.mem_cons,
        List.not_mem_nil, or_false] at hfact
      show fact.Holds ((s.store.delete key s.store.controlCap).2.slice key)
      rw [hbare]
      rcases hfact with rfl | rfl | rfl <;> rfl
  | deletedHeld _ _ vault hvault hheld =>
    have howned : vaultOwnership ctx s key = .owned := by
      unfold vaultOwnership
      rw [hvault]
      exact if_pos hheld
    simp only [written, howned, or_true, if_true] at hfact
    show fact.Holds ((s.store.deleteWithDefinition key s.store.controlCap).2.slice key)
    rw [hwhole]
    exact hremoved fact hfact

theorem written_claim {key : String} {expected secs : UInt64} {payload : OkPayload} {s' : State}
    (heffect : Effect ctx s (.kvClaim key expected secs) (.ok payload) s') :
    (s'.store.slice key).claim = some (claimFor ctx secs) := by
  have hslice := setRefreshClaim_slice s.store key key s.store.controlCap (claimFor ctx secs)
    s.store.checkCap_controlCap
  rw [if_pos rfl] at hslice
  cases heffect with
  | claimed _ _ _ hheld hversion hidle => exact congrArg KeySlice.claim hslice
  | claimedHeld _ _ _ vault e hvault hheld hgranted => exact congrArg KeySlice.claim hslice

theorem written_define {key : String} {source : SourceSpecWire} {soft hard : Option UInt64}
    {valueMeta : ValueMetaWire} {payload : OkPayload}
    (h : (handleRequest ctx s (.kvDefine key source soft hard valueMeta)).1 = .ok payload) :
    ∃ d, (handleRequest ctx s (.kvDefine key source soft hard valueMeta)).2.store.definitions[key]? =
        some d ∧ d.source = source.lower ∧ d.valueMeta = metaFromWire valueMeta ∧
      d.sourceMeta = source.toSourceMeta ∧ d.ttl.soft = soft.map Duration.fromSecs ∧
        d.ttl.hard = hard.map Duration.fromSecs := by
  obtain ⟨-, -, ttl, httl, hdefined, hserved⟩ := define_accepted h
  obtain ⟨hsoft, hhard⟩ := (Ttl.new_ok_iff _ _ ttl).mp httl
  have hnew := Definition.new_of_regenerable ttl source.lower_regenerable
  rw [hserved]
  dsimp only [State.withStore]
  rcases s.store.defineWithMeta_cases key source.lower ttl (metaFromWire valueMeta)
    source.toSourceMeta with ⟨⟨e, heq⟩, -⟩ | ⟨-, d, hd, ⟨hold, heq⟩ | ⟨-, heq⟩⟩
  · rw [heq] at hdefined
    cases hdefined
  · rw [heq]
    cases hnew.symm.trans hd
    exact ⟨_, hold, rfl, rfl, rfl, hsoft, hhard⟩
  · rw [heq]
    cases hnew.symm.trans hd
    exact ⟨_, KeyMap.get_insert_self _ _ _, rfl, rfl, rfl, hsoft, hhard⟩

theorem written_pin {key : String} {secs : UInt64} {payload : OkPayload}
    (h : (handleRequest ctx s (.kvPin key secs)).1 = .ok payload) :
    ∃ e, (handleRequest ctx s (.kvPin key secs)).2.store.entries[key]? = some e ∧
      e.pinDeadline = some ((ctx.clock.now 0).saturatingAdd (Duration.fromSecs secs)) := by
  have howner : handleRequest ctx s (.kvPin key secs) = handlePin ctx s key secs := ownerOnly_ok h
  rw [howner] at h ⊢
  revert h
  unfold handlePin
  simp only
  split
  · rename_i hpinned
    intro _
    show ∃ e, (s.store.pinAuthenticated key _ ctx.auth ctx.requester s.store.controlCap
      (ctx.clock.after 1)).2.entries[key]? = some e ∧ _
    revert hpinned
    unfold Store.pinAuthenticated Store.pinAuthenticatedAsking
    split
    · intro h
      cases h
    split
    · intro h
      cases h
    rename_i entry he
    split
    · intro h
      cases h
    rw [Asking.answer_ask]
    split
    · intro h
      cases h
    · intro hpinned
      refine ⟨_, putEntry_get _ _ _, ?_⟩
      by_cases hlive : entry.state ((ctx.clock.after 1).now 1) = .hardExpired
      · rw [CacheEntry.pinUntil_of_dead _ hlive] at hpinned
        cases hpinned
      · rw [CacheEntry.pinUntil_of_live _ hlive]
  all_goals
    intro h
    cases h

/-- What is acknowledged is in the store. -/
theorem written_of_acknowledged {req : Request}
    (hack : AckedWrite req (handleRequest ctx s req).1) :
    ∀ fact ∈ (written ctx s req).2,
      fact.Holds ((handleRequest ctx s req).2.store.slice (written ctx s req).1) := by
  have heffect := handleRequest_effect ctx s req
  cases hreply : (handleRequest ctx s req).1 with
  | err e =>
    rw [hreply] at hack
    cases req <;> exact hack.elim
  | ok payload =>
    rw [hreply] at heffect
    cases req with
    | kvSet r => exact written_set heffect
    | kvDel key withDefine => exact written_del heffect
    | kvClaim key expected secs =>
      intro fact hfact
      cases List.mem_singleton.mp hfact
      exact written_claim heffect
    | kvDefine key source soft hard valueMeta =>
      intro fact hfact
      cases List.mem_singleton.mp hfact
      exact written_define hreply
    | kvPin key secs =>
      intro fact hfact
      cases List.mem_singleton.mp hfact
      exact written_pin hreply
    | _ => exact fun fact hfact => absurd hfact List.not_mem_nil

end Acknowledgement

section Handover

variable {r : Restart} {s : State} {bundle : StoreBundle} {k : String}

theorem version_of_carried (h : r.handover s = .ok bundle) {e : CacheEntry}
    (he : s.store.Carried (r.clock.since s.now) k e) :
    bundle.store.versionOf k = s.store.versionOf k :=
  (handOver_listed h (Or.inl ⟨e, he⟩)).1

theorem claim_of_carried (h : r.handover s = .ok bundle) {e : CacheEntry}
    (he : s.store.Carried (r.clock.since s.now) k e) :
    bundle.store.refreshClaimOf k = s.store.refreshClaimOf k := by
  obtain ⟨v, hv, -⟩ := carried_exported r.wallE he
  have hvisited : s.store.Visited k := Or.inl (by simp [he.1])
  have hexported : (s.store.exported (r.clock.since s.now) r.wallE k).value.isSome := by simp [hv]
  obtain ⟨value, definition, himports, hslice⟩ := handOver_slice_of_listed h hvisited
    (not_skipped_of_value hexported)
  have hvalue : value.isSome := (importOpt_isSome himports.value).mpr hexported
  rw [show bundle.store.refreshClaimOf k = _ from congrArg KeySlice.claim hslice]
  show (if value.isSome then _ else none) = _
  rw [if_pos hvalue]
  have hclaim : (s.store.exported (r.clock.since s.now) r.wallE k).refreshClaim =
      (s.store.refreshClaimOf k).map refreshClaimToSnapshot := by
    show (if (s.store.exported (r.clock.since s.now) r.wallE k).value.isSome then _ else none) = _
    rw [if_pos hexported]
    rfl
  rw [hclaim, Option.map_map]
  exact congrFun Option.map_id _

theorem definition_of_handOver (h : r.handover s = .ok bundle) {d : Definition}
    (hd : s.store.definitions[k]? = some d) :
    ValidKey k ∧ ∃ d', bundle.store.definitions[k]? = some d' ∧ d'.source = d.source ∧
      d'.valueMeta = d.valueMeta ∧ d'.sourceMeta = d.sourceMeta ∧
        d'.ttl.soft = d.ttl.soft.map narrow ∧ d'.ttl.hard = d.ttl.hard.map narrow := by
  have hvisited : s.store.Visited k := Or.inr (Or.inl (by simp [hd]))
  have hexported : (s.store.exported (r.clock.since s.now) r.wallE k).definition =
      some (exportDefinition d) := by
    show s.store.definitions[k]?.map exportDefinition = _
    rw [hd]
    rfl
  obtain ⟨value, definition, himports, hslice⟩ := handOver_slice_of_listed h hvisited
    (not_skipped_of_definition (by simp [hexported]))
  refine ⟨himports.valid, ?_⟩
  have hdefinition := himports.definition
  rw [hexported] at hdefinition
  unfold importOpt at hdefinition
  simp only at hdefinition
  split at hdefinition
  · cases hdefinition
  · rename_i d' hd'
    cases hdefinition
    exact ⟨d', congrArg KeySlice.definition hslice, importDefinition_restored hd'⟩

theorem absent_of_handOver (h : r.handover s = .ok bundle)
    (habsent : s.store.entries[k]? = none) : bundle.store.entries[k]? = none := by
  cases he' : bundle.store.entries[k]? with
  | none => rfl
  | some e' =>
    obtain ⟨e, he, -⟩ := carried_of_handOver h he'
    rw [habsent] at he
    cases he

/-- A hand-over adds neither a guard nor a claim nor a definition. -/
theorem blank_of_handOver (h : r.handover s = .ok bundle) :
    (s.store.guardOf k = none → bundle.store.guardOf k = none) ∧
      (s.store.refreshClaimOf k = none → bundle.store.refreshClaimOf k = none) ∧
        (s.store.definitions[k]? = none → bundle.store.definitions[k]? = none) := by
  by_cases hlisted : s.store.Visited k ∧
      skipped (s.store.exported (r.clock.since s.now) r.wallE k) = false
  · obtain ⟨value, definition, himports, hslice⟩ := handOver_slice_of_listed h hlisted.1 hlisted.2
    refine ⟨fun hguard => ?_, fun hclaim => ?_, fun hdefinition => ?_⟩
    · rw [show bundle.store.guardOf k = _ from congrArg KeySlice.guard hslice]
      have hguard : s.store.accessGuards[k]? = none := hguard
      simp [Store.installedSlice, exported, exportKey, hguard]
    · rw [show bundle.store.refreshClaimOf k = _ from congrArg KeySlice.claim hslice]
      have hclaim : s.store.refreshClaims[k]? = none := hclaim
      simp [Store.installedSlice, exported, exportKey, hclaim]
    · rw [show bundle.store.definitions[k]? = definition from congrArg KeySlice.definition hslice]
      have hnone := importOpt_isSome himports.definition
      simpa [exported, exportKey, hdefinition] using hnone
  · have hslice := handOver_slice_of_unlisted h hlisted
    exact ⟨fun _ => congrArg KeySlice.guard hslice, fun _ => congrArg KeySlice.claim hslice,
      fun _ => congrArg KeySlice.definition hslice⟩

theorem defined_of_handOver (h : r.handover s = .ok bundle)
    (hd : (bundle.store.definitions[k]?).isSome) : (s.store.definitions[k]?).isSome := by
  by_contra hnone
  rw [(blank_of_handOver h).2.2 (Option.not_isSome_iff_eq_none.mp hnone)] at hd
  cases hd

/-- What is handed over goes by valid names. -/
theorem valid_of_handOver (h : r.handover s = .ok bundle)
    (hk : bundle.store.slice k ≠ KeySlice.empty) : ValidKey k := by
  by_cases hlisted : s.store.Visited k ∧
      skipped (s.store.exported (r.clock.since s.now) r.wallE k) = false
  · obtain ⟨value, definition, himports, -⟩ := handOver_slice_of_listed h hlisted.1 hlisted.2
    exact himports.valid
  · exact absurd (handOver_slice_of_unlisted h hlisted) hk

theorem spared_of_handOver {st : Startup} {fact : Fact} (h : r.handover s = .ok bundle)
    (hspared : fact.Spared st s.store k) : fact.Spared st bundle.store k := by
  have hpurged : ¬ Purged st s.store k → ¬ Purged st bundle.store k := by
    intro hnot
    rintro ⟨persisted, hloaded, hd, hrest⟩
    exact hnot ⟨persisted, hloaded, defined_of_handOver h hd, hrest⟩
  cases fact with
  | guard record =>
    cases record with
    | none => trivial
    | some record => exact ⟨hspared.1, hpurged hspared.2⟩
  | claim held =>
    cases held with
    | none => trivial
    | some held => exact ⟨hspared.1, hpurged hspared.2⟩
  | definition => exact ⟨hspared.1, hpurged hspared.2⟩
  | _ => exact hspared

/-- What the exported store has, the imported one has. -/
theorem holds_handOver (h : r.handover s = .ok bundle) {fact : Fact}
    (hholds : fact.Holds (s.store.slice k))
    (hlive : fact.Valued → ∃ e, s.store.Carried (r.clock.since s.now) k e) :
    (fact.carried (r.carrying s)).Holds (bundle.store.slice k) := by
  have hrestores : ∀ {e : CacheEntry}, s.store.entries[k]? = some e → fact.Valued →
      ∃ e', bundle.store.entries[k]? = some e' ∧
        Restored ((r.clock.since s.now).now 0) r.nowI r.wallE r.wallI e e' := by
    intro e he hvalued
    obtain ⟨e₀, hcarried⟩ := hlive hvalued
    cases hcarried.1.symm.trans he
    exact handOver_restored h hcarried
  cases fact with
  | value bytes =>
    obtain ⟨e, he, hvalue⟩ := hholds
    obtain ⟨e', he', hrestored⟩ := hrestores he trivial
    exact ⟨e', he', hrestored.value.trans hvalue⟩
  | loaded instant =>
    obtain ⟨e, he, hloaded⟩ := hholds
    obtain ⟨e', he', hrestored⟩ := hrestores he trivial
    exact ⟨e', he', hloaded ▸ hrestored.loadedAt⟩
  | windows soft hard =>
    obtain ⟨e, he, hsoft, hhard⟩ := hholds
    obtain ⟨e', he', hrestored⟩ := hrestores he trivial
    exact ⟨e', he', hsoft ▸ hrestored.soft, hhard ▸ hrestored.hard⟩
  | pinned deadline =>
    obtain ⟨e, he, hpin⟩ := hholds
    obtain ⟨e', he', hrestored⟩ := hrestores he trivial
    refine ⟨e', he', ?_⟩
    rw [hrestored.pinDeadline, hpin]
    rfl
  | absent => exact absent_of_handOver h hholds
  | guard record =>
    cases record with
    | none => exact (blank_of_handOver h).1 hholds
    | some record =>
      obtain ⟨e, hcarried⟩ := hlive rfl
      have hguard : s.store.guardOf k = some record := hholds
      refine (handOver_guard h hcarried).2.1.trans ?_
      rw [hguard]
      rfl
  | owner principal =>
    cases principal with
    | none =>
      by_cases hlisted : s.store.Listed (r.clock.since s.now) k
      · exact (handOver_listed h hlisted).2.trans hholds
      · exact (handOver_unlisted h hlisted).2
    | some principal =>
      exact (handOver_listed h (Or.inl (hlive rfl))).2.trans hholds
  | version count =>
    by_cases hzero : count = 0
    · subst hzero
      by_cases hlisted : s.store.Listed (r.clock.since s.now) k
      · exact (handOver_listed h hlisted).1.trans hholds
      · exact (handOver_unlisted h hlisted).1
    · exact (handOver_listed h (Or.inl (hlive hzero))).1.trans hholds
  | claim held =>
    cases held with
    | none => exact (blank_of_handOver h).2.1 hholds
    | some held =>
      obtain ⟨e, hcarried⟩ := hlive rfl
      exact (claim_of_carried h hcarried).trans hholds
  | definition source valueMeta sourceMeta soft hard =>
    obtain ⟨d, hd, hsource, hmeta, hsourceMeta, hsoft, hhard⟩ := hholds
    obtain ⟨-, d', hd', hsource', hmeta', hsourceMeta', hsoft', hhard'⟩ :=
      definition_of_handOver h hd
    exact ⟨d', hd', hsource'.trans hsource, hmeta'.trans hmeta, hsourceMeta'.trans hsourceMeta,
      hsoft ▸ hsoft', hhard ▸ hhard'⟩
  | undefined => exact (blank_of_handOver h).2.2 hholds

end Handover

section Startup

variable {st : Startup} {store : Store} {k : String}

/-- A startup leaves the owners alone, and adds neither guards nor claims. -/
theorem beside_reconcile (st : Startup) (store : Store) :
    (reconcile st store).owners = store.owners ∧
      (store.guardOf k = none → (reconcile st store).guardOf k = none) ∧
        (store.refreshClaimOf k = none → (reconcile st store).refreshClaimOf k = none) := by
  apply kept_reconcile (P := fun s => s.owners = store.owners ∧
    (store.guardOf k = none → s.guardOf k = none) ∧
      (store.refreshClaimOf k = none → s.refreshClaimOf k = none))
  · intro s key source ttl valueMeta sourceMeta h
    obtain ⟨definitions, hafter, -⟩ := defineWithMeta_eq s key source ttl valueMeta sourceMeta
    rw [hafter]
    exact h
  · intro s key source value ttl cap now h
    obtain ⟨entries, heq⟩ := s.set_eq key source value ttl cap now
    rw [heq]
    exact h
  · rintro s key ⟨howners, hguard, hclaim⟩
    have hslice := undefine_slice s key k
    refine ⟨howners, fun hnone => ?_, fun hnone => ?_⟩
    · rw [show (s.undefine key).2.guardOf k = _ from congrArg KeySlice.guard hslice]
      split
      · rfl
      · exact hguard hnone
    · rw [show (s.undefine key).2.refreshClaimOf k = _ from congrArg KeySlice.claim hslice]
      split
      · rfl
      · exact hclaim hnone
  · exact ⟨rfl, id, id⟩

theorem claims_defineWithMeta (store : Store) (key : String) (source : ValueSource) (ttl : Ttl)
    (valueMeta : ValueMeta) (sourceMeta : SourceMeta) :
    (store.defineWithMeta key source ttl valueMeta sourceMeta).2.refreshClaims =
      store.refreshClaims := by
  obtain ⟨definitions, hafter, -⟩ := defineWithMeta_eq store key source ttl valueMeta sourceMeta
  rw [hafter]

theorem claims_registerDefinitions (runner : SourceRunner) (forceEager alreadyLoaded : List String)
    (clock : Clock) (i : ℕ) (entries : List KvDefinition) (store : Store) :
    (registerDefinitions runner forceEager alreadyLoaded clock i entries store).refreshClaims =
      store.refreshClaims := by
  apply kept_registerDefinitions (P := fun s => s.refreshClaims = store.refreshClaims)
  · intro s key source ttl valueMeta sourceMeta h
    exact (claims_defineWithMeta s key source ttl valueMeta sourceMeta).trans h
  · intro s key source value ttl cap now h
    obtain ⟨entries, heq⟩ := s.set_eq key source value ttl cap now
    rw [heq]
    exact h
  · rfl

theorem claims_restorePersisted (configNames : List String) (persisted : List KvDefinition)
    (store : Store) :
    (restorePersistedDefinitions configNames persisted store).refreshClaims =
      store.refreshClaims := by
  apply kept_restorePersisted (P := fun s => s.refreshClaims = store.refreshClaims)
  · intro s key source ttl valueMeta sourceMeta h
    exact (claims_defineWithMeta s key source ttl valueMeta sourceMeta).trans h
  · rfl

theorem configured_claim (hk : k ∉ st.configNames) :
    (configured st store).refreshClaimOf k = store.refreshClaimOf k := by
  unfold configured Store.refreshClaimOf
  rw [claims_registerDefinitions]
  have hslice := congrArg KeySlice.claim (clearConfigOwned_slice st.configNames store k)
  rw [if_neg hk] at hslice
  exact hslice

/-- A claim on a key that the configuration does not name outlasts a startup
that does not purge the key. -/
theorem reconcile_claim_kept (hvalid : ValidKey k) (hk : k ∉ st.configNames)
    (hnot : ¬ Purged st store k) :
    (reconcile st store).refreshClaimOf k = store.refreshClaimOf k := by
  by_cases hloaded : ∃ persisted, st.persisted = .loaded persisted
  · obtain ⟨persisted, hp⟩ := hloaded
    rcases reconcile_slice_loaded hp hvalid with ⟨hpurged, -⟩ | ⟨-, hslice⟩
    · exact absurd hpurged hnot
    · rw [show (reconcile st store).refreshClaimOf k = _ from congrArg KeySlice.claim hslice]
      show (restored st persisted store).refreshClaimOf k = _
      exact (congrArg (·[k]?) (claims_restorePersisted st.configNames persisted _)).trans
        (configured_claim hk)
  · have hnone : ∀ persisted, st.persisted ≠ .loaded persisted := fun p hp => hloaded ⟨p, hp⟩
    rw [reconcile_unloaded hnone, configured_claim hk]

theorem reconcile_definition_kept (hvalid : ValidKey k) (hk : k ∉ st.configNames)
    (hnot : ¬ Purged st store k) {d : Definition} (hd : store.definitions[k]? = some d) :
    (reconcile st store).definitions[k]? = some d := by
  rw [reconcile_definition hvalid, if_neg hk]
  cases hp : st.persisted with
  | disabled | unreadable => exact hd
  | loaded persisted =>
    simp only
    by_cases hlisted : k ∈ persisted.map KvDefinition.key
    · rw [if_pos hlisted, hd]
      rfl
    · exact absurd ⟨persisted, hp, by simp [hd], hk, hlisted⟩ hnot

/-- What the handed-over store has, the store has after startup. -/
theorem holds_reconcile {fact : Fact} (hholds : fact.Holds (store.slice k))
    (hspared : fact.Spared st store k) (hvalid : store.slice k ≠ KeySlice.empty → ValidKey k) :
    fact.Holds ((reconcile st store).slice k) := by
  obtain ⟨howners, hguard, hclaim⟩ := @beside_reconcile k st store
  have hentry : ∀ {e : CacheEntry}, store.entries[k]? = some e →
      (reconcile st store).entries[k]? = some e := fun {e} he =>
    (reconcile_entry st (Or.inl (Option.isSome_of_eq_some he))).trans he
  have hheld : ∀ {β : Type} (f : KeySlice → Option β) {b : β}, f (store.slice k) = some b →
      f KeySlice.empty = none → ValidKey k := by
    intro β f b hb hnone
    refine hvalid fun hempty => ?_
    rw [hempty, hnone] at hb
    cases hb
  cases fact with
  | value bytes => exact hholds.imp fun e he => ⟨hentry he.1, he.2⟩
  | loaded instant => exact hholds.imp fun e he => ⟨hentry he.1, he.2⟩
  | windows soft hard => exact hholds.imp fun e he => ⟨hentry he.1, he.2⟩
  | pinned deadline => exact hholds.imp fun e he => ⟨hentry he.1, he.2⟩
  | absent => exact (reconcile_entry st (Or.inr hspared)).trans hholds
  | guard record =>
    cases record with
    | none => exact hguard hholds
    | some record =>
      have hkey := hheld KeySlice.guard hholds rfl
      exact (reconcile_guard_kept hkey hspared.1 hspared.2).trans hholds
  | owner principal => exact (congrArg (·[k]?) howners).trans hholds
  | version count =>
    exact (congrArg (fun versions => (versions[k]?).getD 0) (versions_reconcile st store)).trans
      hholds
  | claim held =>
    cases held with
    | none => exact hclaim hholds
    | some held =>
      have hkey := hheld KeySlice.claim hholds rfl
      exact (reconcile_claim_kept hkey hspared.1 hspared.2).trans hholds
  | definition source valueMeta sourceMeta soft hard =>
    obtain ⟨d, hd, hrest⟩ := hholds
    have hkey := hheld KeySlice.definition hd rfl
    exact ⟨d, reconcile_definition_kept hkey hspared.1 hspared.2 hd, hrest⟩
  | undefined => exact undefined_reconcile hspared.1 hspared.2 hholds

end Startup

section Handed

variable {r : Restart}

theorem handedOver_of_unlocked {file : Stored} {vault : UnlockedVault}
    (h : r.initialVault file = .ok (some (.unlocked vault))) : r.keyHandedOver = true := by
  by_contra hkey
  unfold Restart.initialVault at h
  rw [if_neg hkey] at h
  split at h
  swap
  · cases h
  split at h
  · cases h
  · cases h
  · rename_i state hnot hopened
    cases h
    unfold Stored.openAt at hopened
    split at hopened
    · cases hopened
    · cases hopened
    · split at hopened <;> cases hopened

end Handed

namespace GracefulExec

variable (g : GracefulExec)

/-- The old store has what the request left, beside a live value where it needs one. -/
def Stands (fact : Fact) (k : String) (s : State) : Prop :=
  fact.Holds (s.store.slice k) ∧
    (fact.Valued → ∃ e, s.store.Carried (g.restart.clock.since s.now) k e)

/-- The next store has it, as the hand-over carries it. -/
def Reflected (fact : Fact) (k : String) : Prop :=
  (fact.carried (g.restart.carrying g.exported)).Holds (g.successor.store.slice k)

/-- All that the request leaves, and that stands in each of the later states, is
in the next store. -/
def Carries (asked : State) (served : Served) (later : State → Prop) : Prop :=
  AckedWrite served.2 (asked.reply served) →
    ∀ fact ∈ (written (asked.context served.1) asked served.2).2,
      (∀ s, later s → g.Stands fact (written (asked.context served.1) asked served.2).1 s) →
        g.Reflected fact (written (asked.context served.1) asked served.2).1

/-- Nothing is lost on the way to the next process: it has all that acknowledged
writes left and that still stood when it was started, and the values and the
versions of its vault. -/
structure Continues : Prop where
  before : ∀ pre served post, g.before = pre ++ served :: post →
    g.Carries (run State.serve g.start pre) served fun s =>
      ∃ mid rest, g.interim = mid ++ rest ∧ s = run State.serve g.exported mid
  interim : ∀ pre served post, g.interim = pre ++ served :: post →
    g.Carries (run State.serve g.exported pre) served fun s =>
      ∃ mid rest, post = mid ++ rest ∧ s = run State.serve g.exported (pre ++ served :: mid)
  vault : ∀ vault k e, g.successor.vault = some (.unlocked vault) → vault.entry k = some e →
    ∃ entry, g.successor.store.entries[k]? = some entry ∧ entry.value = some e.secret ∧
      g.successor.store.versionOf k = e.casVersion

/-- The store is accepted. Nothing is written between the export and the exec,
and what is exported agrees with the vault. The startup takes away nothing that
an acknowledged write left. -/
structure Undisturbed : Prop extends g.Accepted where
  unwritten : Along State.serve (fun s served => ¬ AckedWrite served.2 (s.reply served) ∧
    (s.serve served).file = s.file) g.exported g.interim
  spared : Along State.serve (fun s served => AckedWrite served.2 (s.reply served) →
    ∀ fact ∈ (written (s.context served.1) s served.2).2,
      fact.Holds (g.exported.store.slice (written (s.context served.1) s served.2).1) →
        fact.Spared g.restart.startup g.exported.store
          (written (s.context served.1) s served.2).1) g.start g.before
  current : g.keyed.openVault.isSome → ∀ vault k e, g.exported.file = .holds vault →
    vault.entry k = some e →
      ∃ entry, g.exported.store.Carried (g.restart.clock.since g.exported.now) k entry ∧
        entry.value = some e.secret ∧ g.exported.store.versionOf k = e.casVersion

variable {g}

theorem Undisturbed.handedOver (h : g.Undisturbed) :
    ∃ bundle vault, g.restart.handover g.exported = .ok bundle ∧
      g.successorRestart.initialVault g.last.file = .ok vault ∧
        g.successor.vault = vault ∧
          ∃ clock, g.successor.store =
            reconcile { g.restart.startup with clock := clock } bundle.store := by
  obtain ⟨bundle, hbundle⟩ : ∃ bundle, g.restart.handover g.exported = .ok bundle := by
    cases hhandover : g.restart.handover g.exported with
    | ok bundle => exact ⟨bundle, rfl⟩
    | error e =>
      have hok := h.handover
      rw [hhandover] at hok
      cases hok
  obtain ⟨vault, hvault⟩ :
      ∃ vault, g.successorRestart.initialVault g.last.file = .ok vault := by
    cases hinitial : g.successorRestart.initialVault g.last.file with
    | ok vault => exact ⟨vault, rfl⟩
    | error e =>
      have hok := h.vault
      rw [hinitial] at hok
      cases hok
  have hsuccessor : g.successor =
      { store := reconcile
          { g.restart.startup with
            clock := g.restart.startup.clock.since g.restart.nowI } bundle.store
        vault := vault
        file := g.last.file
        now := (g.restart.startup.clock.since g.restart.nowI).last
        log := g.last.log } := by
    unfold successor State.restart
    simp only
    rw [hvault]
    have hinitial : g.successorRestart.initialStore
        { g.exported with file := g.last.file, log := g.last.log } = bundle.store :=
      Restart.initialStore_of_ok hbundle
    rw [hinitial]
    rfl
  rw [hsuccessor]
  exact ⟨bundle, vault, hbundle, hvault, rfl, _, rfl⟩

theorem Undisturbed.file_kept (h : g.Undisturbed) : g.last.file = g.exported.file := by
  refine run_invariant State.serve (I := fun s => s.file = g.exported.file) ?_ _ _
    h.unwritten rfl
  intro s served hs hkept
  exact hkept.2.trans hs

theorem Undisturbed.reflected (h : g.Undisturbed) {fact : Fact} {k : String}
    (hstands : g.Stands fact k g.exported)
    (hspared : fact.Spared g.restart.startup g.exported.store k) : g.Reflected fact k := by
  obtain ⟨bundle, vault, hbundle, -, -, clock, hstore⟩ := h.handedOver
  have hhanded := holds_handOver hbundle hstands.1 hstands.2
  have hspared : (fact.carried (g.restart.carrying g.exported)).Spared
      { g.restart.startup with clock := clock } bundle.store k := by
    have hkept := spared_of_handOver hbundle hspared
    cases fact with
    | guard record => cases record <;> exact hkept
    | _ => exact hkept
  unfold Reflected
  rw [hstore]
  exact holds_reconcile hhanded hspared fun hk => valid_of_handOver hbundle hk

end GracefulExec

/-- Nothing is taken away by an empty configuration and a file that lists the
definitions there are. -/
theorem spared_unconfigured {st : Startup} {store : Store} {k : String} {fact : Fact}
    {persisted : List KvDefinition} (hconfig : st.config = [])
    (hloaded : st.persisted = .loaded persisted)
    (hlisted : k ∈ persisted.map KvDefinition.key ↔ (store.definitions[k]?).isSome)
    (hholds : fact.Holds (store.slice k)) : fact.Spared st store k := by
  have hnames : k ∉ st.configNames := by
    unfold Startup.configNames
    simp [hconfig]
  have hpurged : ¬ Purged st store k := by
    rintro ⟨persisted', hloaded', hd, -, hnot⟩
    cases hloaded.symm.trans hloaded'
    exact hnot (hlisted.mpr hd)
  cases fact with
  | absent =>
    rintro ⟨entry, hmem, -⟩
    rw [hconfig] at hmem
    cases hmem
  | undefined =>
    refine ⟨hnames, fun persisted' hloaded' hmem => ?_⟩
    cases hloaded.symm.trans hloaded'
    have hd := hlisted.mp hmem
    rw [show store.definitions[k]? = none from hholds] at hd
    cases hd
  | guard record =>
    cases record with
    | none => trivial
    | some record => exact ⟨hnames, hpurged⟩
  | claim held =>
    cases held with
    | none => trivial
    | some held => exact ⟨hnames, hpurged⟩
  | definition => exact ⟨hnames, hpurged⟩
  | _ => trivial

namespace Declared

def onlineListed : KvDefinition :=
  ⟨"d", some "ns", .command ⟨["fetch"], none, ∅⟩, none, none, false, ⟨none, ∅⟩⟩

/-- A restart that hands the key of the vault over, with requests on either side
of its export. -/
def handingOver (before draining : List Served) : GracefulExec where
  start := openPlain
  before := before
  exporting := []
  draining := draining
  restart := { plainRestart (.loaded [onlineListed]) with configuresVault := true }

def setOnce : Served := (.quiet, .kvSet setStored)

def setAgain : Served := (.quiet, .kvSet (setNewer (some true)))

def getOnce : Served := (.quiet, .kvGet "ns/k" false)

/-- A guarded value in the vault, an online definition, and a cached value that
is removed again. -/
def fourWrites : List Served :=
  [(.quiet, .kvSet (setPlain (some 60))),
    (.quiet, .kvDefine "ns/d" (.command ⟨["fetch"], none, ∅⟩) none none ⟨none, ∅⟩),
    (.quiet, .kvSet { setPlain none with key := "ns/e", guardConstraints := [], persist := none }),
    (.quiet, .kvDel "ns/e" true)]

end Declared

end Daemon

end CacheWarden
