import CacheWarden.Authsock.AgentMessage
import CacheWarden.Authsock.Discovery
import CacheWarden.Authsock.Filter
import CacheWarden.Daemon.Handling

/-!
# Signing on an agent socket

A sign request names a public key; the registry and the filter of the socket
say which store key holds its private half. A pass reads the registry, lets go of
it, and takes the store afterwards. A key without a guard is used at once. One
with a guard is evaluated twice, before the dialog and after it.
-/

set_option autoImplicit false

namespace CacheWarden

namespace Daemon

open Store

/-- One agent socket: its registries and the keys it shows. -/
structure SocketState where
  target : DiscoveryTarget
  filter : FilterEvaluator

/-- The registered key a request for this blob may use. -/
def signableKey (libs : MatchLibs) (socket : SocketState) (keyBlob : Blob) : Option RegisteredKey :=
  (socket.target.live.lookup keyBlob).filter fun registered =>
    socket.filter.matches libs ⟨registered.keyBlob, registered.comment⟩

/-- Make the value of a key readable. Only a fetched key is loaded on its first
use. -/
def ensureLoaded (ctx : HandlerCtx) (s : State) (key : String) (source : KeySource) :
    Bool × State :=
  let cap := s.store.controlCap
  let state := s.store.stateOf key (ctx.clock.now 0)
  let s := s.withStore state.2
  let clock := ctx.clock.after 1
  match state.1 with
  | none =>
    match source with
    | .local => (false, s)
    | .op _ _ _ =>
      let fetched := s.store.getOrRegenerate key ctx.runner ctx.auth ctx.requester cap clock
      let s := (s.withStore fetched.2).logged
        (s.store.getOrRegenerateCalls key ctx.runner ctx.auth ctx.requester cap clock)
      match fetched.1 with
      | .ok () => (true, s)
      | .error .valueResident => (true, s)
      | .error _ => (false, s)
  | some .active => (true, s)
  | some .softExpired =>
    let extended := s.store.extendAuthenticated key ctx.auth ctx.requester cap clock
    let s := (s.withStore extended.2).logged
      (s.store.extendAuthenticatedCalls key ctx.auth ctx.requester cap clock)
    match extended.1 with
    | .ok () => (true, s)
    | .error _ => (false, s)
  | some .hardExpired =>
    let fetched := s.store.regenerate key ctx.runner ctx.auth ctx.requester cap clock
    let s := (s.withStore fetched.2).logged
      (s.store.regenerateCalls key ctx.runner ctx.auth ctx.requester cap clock)
    match fetched.1 with
    | .ok () => (true, s)
    | .error _ => (false, s)

/-- Fetch the key, sign, and refresh its idle window. -/
def signBodyAfterGuard (ssh : SshKeys) (ctx : HandlerCtx) (s : State) (kvKey : String)
    (source : KeySource) (fields : SignRequestFields) : AgentMessage × State :=
  let cap := s.store.controlCap
  let loaded := ensureLoaded ctx s kvKey source
  let s := loaded.2
  if !loaded.1 then (.failure, s)
  else
    let read := s.store.get kvKey cap (ctx.clock.now 4)
    let s := s.withStore read.2
    match read.1 with
    | .ok (some pem) =>
      match ssh.sign pem fields.data fields.flags with
      | some blob =>
        (.signResponse blob, s.withStore (s.store.extend kvKey cap (ctx.clock.after 5)).2)
      | none => (.failure, s)
    | _ => (.failure, s)

inductive SignGuardCheck where
  | unguarded
  | passed (output : GuardEvalOutput)
  | chainMissing
  | denied (kind : String)
  deriving DecidableEq

def evalSignGuard (store : Store) (kvKey : String) (guardChain : Option (List GetterProcess))
    (peerToken : Option GetterAuditToken) : SignGuardCheck :=
  match store.guardOf kvKey with
  | none => .unguarded
  | some record =>
    match guardChain with
    | none => .chainMissing
    | some chain =>
      match evaluate chain peerToken record with
      | .ok output => .passed output
      | .error kind => .denied (deniedKindLabel kind)

structure SignNeedsApprovalMaterial where
  guardEval : GuardEvalOutput
  kvKey : String
  source : KeySource
  deriving DecidableEq

inductive SignFirstPass where
  | direct (resp : AgentMessage)
  | needsApproval (material : SignNeedsApprovalMaterial)
  deriving DecidableEq

/-- The part of a first pass that reads the registry: the request's fields, and
the key that its blob leads to. -/
def resolveSign (libs : MatchLibs) (socket : SocketState) (msg : AgentMessage) :
    Option (SignRequestFields × RegisteredKey) :=
  match msg.parseSignRequest with
  | .error _ => none
  | .ok fields => (signableKey libs socket fields.keyBlob).map fun key => (fields, key)

/-- The part of a first pass that is left when the registry has been read. The
requester and the chain that go with the material are those of the context. -/
def signResolved (ssh : SshKeys) (ctx : HandlerCtx) (s : State) (fields : SignRequestFields)
    (key : RegisteredKey) : SignFirstPass × State :=
  if (ctx.kvProcessPolicies[key.kvKey]?).any fun allowed =>
      !chainGatePasses ctx.requester allowed then
    (.direct .failure, s)
  else
    match evalSignGuard s.store key.kvKey ctx.guardChain ctx.guardAuditToken with
    | .unguarded =>
      let signed := signBodyAfterGuard ssh ctx s key.kvKey key.source fields
      (.direct signed.1, signed.2)
    | .passed output => (.needsApproval ⟨output, key.kvKey, key.source⟩, s)
    | .chainMissing => (.direct .failure, s)
    | .denied _ => (.direct .failure, s)

/-- A first pass. The socket is as the registry is read, and the state as the
store is taken, which is later. -/
def localSignFirstPass (ssh : SshKeys) (libs : MatchLibs) (socket : SocketState) (ctx : HandlerCtx)
    (s : State) (msg : AgentMessage) : SignFirstPass × State :=
  match resolveSign libs socket msg with
  | none => (.direct .failure, s)
  | some (fields, key) => signResolved ssh ctx s fields key

/-- The part of a second pass that reads the registry: the blob has to lead to
the key that was approved. -/
def resolveApproved (libs : MatchLibs) (socket : SocketState) (kvKey : String)
    (msg : AgentMessage) : Option SignRequestFields :=
  match msg.parseSignRequest with
  | .error _ => none
  | .ok fields =>
    if (signableKey libs socket fields.keyBlob).any (·.kvKey = kvKey) then some fields else none

/-- The part of a second pass that takes the store: the guard in force has to
admit the caller. -/
def signApproved (ssh : SshKeys) (ctx : HandlerCtx) (s : State) (kvKey : String)
    (source : KeySource) (fields : SignRequestFields) : AgentMessage × State :=
  match evalSignGuard s.store kvKey ctx.guardChain ctx.guardAuditToken with
  | .unguarded => signBodyAfterGuard ssh ctx s kvKey source fields
  | .passed _ => signBodyAfterGuard ssh ctx s kvKey source fields
  | .chainMissing => (.failure, s)
  | .denied _ => (.failure, s)

/-- A second pass, with the socket and the state of two moments as in the first. -/
def localSignFinalizeAfterApproval (ssh : SshKeys) (libs : MatchLibs) (socket : SocketState)
    (ctx : HandlerCtx) (s : State) (kvKey : String) (source : KeySource) (msg : AgentMessage) :
    AgentMessage × State :=
  match resolveApproved libs socket kvKey msg with
  | none => (.failure, s)
  | some fields => signApproved ssh ctx s kvKey source fields

/-- What an agent socket does with a message before it waits for anything. -/
inductive Responded where
  | replied (resp : AgentMessage)
  | upstream
  | localSign
  deriving DecidableEq

/-- A blob that the registry does not know goes to the upstream agents, and they
have a part in every enumeration. -/
def respond (socket : SocketState) (admitted : Bool) (msg : AgentMessage) : Responded :=
  if !admitted then .replied .failure
  else
    match msg.msgType with
    | .requestIdentities => .upstream
    | .signRequest =>
      match msg.parseSignRequest with
      | .error _ => .replied .failure
      | .ok fields =>
        if (socket.target.live.lookup fields.keyBlob).isSome then .localSign else .upstream
    | _ => .replied .failure

section Resolving

variable {libs : MatchLibs} {socket : SocketState} {msg : AgentMessage} {fields : SignRequestFields}

theorem resolveSign_eq_some {key : RegisteredKey} :
    resolveSign libs socket msg = some (fields, key) ↔
      msg.parseSignRequest = .ok fields ∧ signableKey libs socket fields.keyBlob = some key := by
  unfold resolveSign
  cases msg.parseSignRequest with
  | error e => simp
  | ok parsed =>
    simp only [Option.map_eq_some_iff, Prod.mk.injEq, Except.ok.injEq]
    constructor
    · rintro ⟨key', hkey, rfl, rfl⟩
      exact ⟨rfl, hkey⟩
    · rintro ⟨rfl, hkey⟩
      exact ⟨key, hkey, rfl, rfl⟩

theorem resolveApproved_eq_some {kvKey : String} :
    resolveApproved libs socket kvKey msg = some fields ↔
      msg.parseSignRequest = .ok fields ∧
        ∃ key, signableKey libs socket fields.keyBlob = some key ∧ key.kvKey = kvKey := by
  unfold resolveApproved
  cases msg.parseSignRequest with
  | error e => simp
  | ok parsed =>
    simp only [Option.ite_none_right_eq_some, Option.some.injEq, Except.ok.injEq,
      Option.any_eq_true, decide_eq_true_eq]
    constructor
    · rintro ⟨⟨key, hkey, hk⟩, rfl⟩
      exact ⟨rfl, key, hkey, hk⟩
    · rintro ⟨rfl, key, hkey, hk⟩
      exact ⟨⟨key, hkey, hk⟩, rfl⟩

theorem signableKey_lookup {b : Blob} {key : RegisteredKey}
    (h : signableKey libs socket b = some key) : socket.target.live.lookup b = some key :=
  (Option.filter_eq_some_iff.mp h).1

end Resolving

section Signed

variable {ssh : SshKeys} {ctx : HandlerCtx} {s : State} {key : String}

/-- A step that only reads the key: it ages, is fetched, or fails to be. -/
structure Loads (ctx : HandlerCtx) (key : String) (t u : Monotonic) (s s' : State)
    (calls : List ExternalCall) : Prop where
  state : s' = { s with store := s'.store, log := s.log ++ calls }
  reads : Reads ctx.runner key t u s.store s'.store
  origin : Origin ctx.runner calls key s.store s'.store

theorem Loads.trans {s' s'' : State} {calls calls' : List ExternalCall} {t u w : Monotonic}
    (h : Loads ctx key t u s s' calls) (h' : Loads ctx key u w s' s'' calls') :
    Loads ctx key t w s s'' (calls ++ calls') where
  state := by
    rw [h'.state, h.state, List.append_assoc]
  reads := h.reads.trans h'.reads
  origin := h.origin.trans h'.origin

theorem loads_logged {store : Store} {calls : List ExternalCall} {t u : Monotonic}
    (hreads : Reads ctx.runner key t u s.store store)
    (horigin : Origin ctx.runner calls key s.store store) :
    Loads ctx key t u s ((s.withStore store).logged calls) calls := ⟨rfl, hreads, horigin⟩

theorem loads_withStore {store : Store} {t u : Monotonic}
    (h : ∀ runner, Reads runner key t u s.store store) :
    Loads ctx key t u s (s.withStore store) [] where
  state := by
    rw [List.append_nil]
    rfl
  reads := h _
  origin := .of_reads (h _)

theorem loads_refl {t u : Monotonic} (h : t ≤ u) : Loads ctx key t u s s [] :=
  loads_withStore fun _ => .refl s.store h

theorem ensureLoaded_loads (source : KeySource) :
    ∃ calls, Loads ctx key (ctx.clock.now 0) (ctx.clock.now 3) s (ensureLoaded ctx s key source).2
      calls := by
  have h13 := ctx.clock.now_mono (show 1 ≤ 3 by omega)
  have hstate : Loads ctx key (ctx.clock.now 0) (ctx.clock.now 1) s
      (s.withStore (s.store.stateOf key (ctx.clock.now 0)).2) [] :=
    loads_withStore fun runner => s.store.stateOf_reads key runner _ (ctx.clock.mono 0)
  unfold ensureLoaded
  simp only
  generalize s.withStore (s.store.stateOf key (ctx.clock.now 0)).2 = aged at hstate
  split
  · split
    · exact ⟨_, hstate.trans (loads_refl h13)⟩
    · have hfetch := hstate.trans (loads_logged
        (aged.store.getOrRegenerate_reads key s.store.controlCap ctx.runner ctx.auth ctx.requester
          (ctx.clock.after 1))
        (getOrRegenerate_origin ctx.auth ctx.requester s.store.controlCap (ctx.clock.after 1)))
      split <;> exact ⟨_, hfetch⟩
  · exact ⟨_, hstate.trans (loads_refl h13)⟩
  · have hextend := fun runner => aged.store.extendAuthenticated_reads key s.store.controlCap runner
      ctx.auth ctx.requester (ctx.clock.after 1)
    have hprompted : Origin ctx.runner (aged.store.extendAuthenticatedCalls key ctx.auth ctx.requester
        s.store.controlCap (ctx.clock.after 1)) key aged.store _ := .of_reads (hextend _)
    have hextended := hstate.trans (loads_logged (hextend _) hprompted)
    split <;> exact ⟨_, hextended⟩
  · have hfetch := hstate.trans (loads_logged
      (aged.store.regenerate_reads key s.store.controlCap ctx.runner ctx.auth ctx.requester
        (ctx.clock.after 1))
      (regenerate_origin ctx.auth ctx.requester s.store.controlCap (ctx.clock.after 1)))
    split <;> exact ⟨_, hfetch⟩

/-- The value with which a key signs: one it had, or one that a call gave. -/
def SignedWith (runner : SourceRunner) (calls : List ExternalCall) (store : Store) (key : String)
    (pem : Bytes) : Prop :=
  (store.entries[key]?).bind CacheEntry.value = some pem ∨ Yields runner calls pem

/-- What a signature is made with, and what the attempt leaves. -/
structure SignEffect (ssh : SshKeys) (ctx : HandlerCtx) (key : String) (fields : SignRequestFields)
    (s : State) (resp : AgentMessage) (s' : State) (calls : List ExternalCall) : Prop where
  loads : Loads ctx key (ctx.clock.now 0) ctx.clock.last s s' calls
  signed : resp = .failure ∨ ∃ pem sig, resp = .signResponse sig ∧
    ssh.sign pem fields.data fields.flags = some sig ∧
      SignedWith ctx.runner calls s.store key pem

theorem get_value {store : Store} {cap : Capability} {now : Monotonic} {value : Bytes}
    (h : (store.get key cap now).1 = .ok (some value)) :
    (store.entries[key]?).bind CacheEntry.value = some value := by
  unfold Store.get at h
  split at h
  · cases h
  · split at h
    · cases h
    · rename_i e he
      simp only [Except.ok.injEq] at h
      rw [he]
      exact (CacheEntry.get_some h).2

theorem signBody_effect (source : KeySource) (fields : SignRequestFields) :
    ∃ calls, SignEffect ssh ctx key fields s (signBodyAfterGuard ssh ctx s key source fields).1
      (signBodyAfterGuard ssh ctx s key source fields).2 calls := by
  obtain ⟨calls, hloaded⟩ := @ensureLoaded_loads ctx s key source
  have hlast := ctx.clock.le_last 3
  unfold signBodyAfterGuard
  simp only
  generalize (ensureLoaded ctx s key source).2 = loaded at hloaded
  split
  · exact ⟨_, hloaded.trans (loads_refl hlast), Or.inl rfl⟩
  · have hget : Loads ctx key (ctx.clock.now 3) (ctx.clock.now 5) loaded
        (loaded.withStore (loaded.store.get key s.store.controlCap (ctx.clock.now 4)).2) [] :=
      loads_withStore fun runner => loaded.store.get_reads key _ runner _
        (ctx.clock.now_mono (by omega))
    have hread := hloaded.trans hget
    have hfailed := hread.trans (loads_refl (ctx.clock.le_last 5))
    split
    · rename_i pem hpem
      split
      · rename_i sig hsig
        have hextend := fun runner =>
          (loaded.store.get key s.store.controlCap (ctx.clock.now 4)).2.extend_reads key
            s.store.controlCap runner (ctx.clock.after 5)
        have hextended := hread.trans (loads_withStore (s := loaded.withStore _) hextend)
        refine ⟨_, hextended.trans (loads_refl (ctx.clock.le_last 6)),
          Or.inr ⟨pem, sig, rfl, hsig, ?_⟩⟩
        simp only [List.append_nil]
        exact hloaded.origin pem (get_value hpem)
      · exact ⟨_, hfailed, Or.inl rfl⟩
    · exact ⟨_, hfailed, Or.inl rfl⟩

end Signed

end Daemon

end CacheWarden
