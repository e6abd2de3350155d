import CacheWarden.Daemon.Runs
import CacheWarden.Daemon.Signing
import CacheWarden.SoftWindow

/-!
# Values out of reach

A value whose soft window has lapsed is neither returned nor signed with, and
its window does not start again, until someone approves or the value is
replaced. The operations are those of the store, the requests, and the two
halves of a signature: the loading of the key, and its use with the refresh of
the idle window after it. An extension that asks nobody judges the entry at one
reading and starts the window at a later one; the law holds as long as the
window does not lapse in between.
-/

set_option autoImplicit false

namespace CacheWarden

namespace Daemon

open Vault Store CacheEntry Transition

/-- The second half of a signature: read the loaded key, sign, and refresh its
idle window. -/
def signLoaded (ssh : SshKeys) (ctx : HandlerCtx) (s : State) (key : String)
    (fields : SignRequestFields) : AgentMessage × State :=
  let cap := s.store.controlCap
  let read := s.store.get key cap (ctx.clock.now 0)
  let s := s.withStore read.2
  match read.1 with
  | .ok (some pem) =>
    match ssh.sign pem fields.data fields.flags with
    | some blob => (.signResponse blob, s.withStore (s.store.extend key cap (ctx.clock.after 1)).2)
    | none => (.failure, s)
  | _ => (.failure, s)

inductive Operation where
  | store (op : StoreOp) (clock : Clock)
  | request (ctx : HandlerCtx) (req : Request)
  | load (ctx : HandlerCtx) (key : String) (source : KeySource)
  | sign (ssh : SshKeys) (ctx : HandlerCtx) (key : String) (fields : SignRequestFields)

namespace Operation

def clock (s : State) : Operation → Clock
  | .store _ clock => clock.since s.now
  | .request ctx .. => (s.context ctx).clock
  | .load ctx _ _ => (s.context ctx).clock
  | .sign _ ctx _ _ => (s.context ctx).clock

def auth : Operation → Authenticator
  | .store op _ => op.auth
  | .request ctx _ => ctx.auth
  | .load ctx _ _ => ctx.auth
  | .sign _ ctx _ _ => ctx.auth

def perform (s : State) : Operation → State
  | .store op clock =>
    let clock := clock.since s.now
    { (s.withStore (op.apply clock s.store)).logged (op.calls clock s.store) with
      now := clock.last }
  | .request ctx req => s.serve (ctx, req)
  | .load ctx key source =>
    { (ensureLoaded (s.context ctx) s key source).2 with now := (s.context ctx).clock.last }
  | .sign ssh ctx key fields =>
    { (signLoaded ssh (s.context ctx) s key fields).2 with now := (s.context ctx).clock.last }

/-- The calls the operation makes. -/
def calls (s : State) (op : Operation) : List ExternalCall :=
  (op.perform s).log.drop s.log.length

/-- The operation may set the value of the key. -/
def sets (k : String) : Operation → Prop
  | .store op _ => op.isSet = true ∧ op.key = k
  | .request _ (.kvSet r) => r.key = k
  | .request _ (.vaultUnlock _) => True
  | _ => False

/-- Someone approves of the key, or its value is replaced. -/
def Renews (s : State) (k : String) (op : Operation) : Prop :=
  Approved op.auth (op.calls s) k ∨
    op.sets k ∧ (op.perform s).store.entries[k]? ≠ s.store.entries[k]?

/-- The operation returns the value of the key, or signs with it. -/
def Releases (s : State) (k : String) : Operation → Prop
  | .store (.get key cap) clock => key = k ∧ ∃ v,
      (s.store.get key cap ((clock.since s.now).now 0)).1 = .ok (some v)
  | .store _ _ => False
  | .request ctx req => ∃ dryRun v, req = .kvGet k dryRun ∧ s.reply (ctx, req) = .ok (.get v)
  | .load _ _ _ => False
  | .sign ssh ctx key fields => key = k ∧ ∃ blob,
      (signLoaded ssh (s.context ctx) s key fields).1 = .signResponse blob

/-- The reading at which a value that nobody approves of is released. -/
def releaseReading : Operation → ℕ
  | .request _ _ => 1
  | _ => 0

/-- The operation moves the start of the soft window of the key. -/
def RestartsAt (s : State) (k : String) (op : Operation) (t : Monotonic) : Prop :=
  ∃ e e', s.store.entries[k]? = some e ∧ (op.perform s).store.entries[k]? = some e' ∧
    e'.extendedAt ≠ e.extendedAt ∧ e'.extendedAt = t

/-- An extension that asks nobody falls within the window. A signature extends
the entry it read Active at the reading before. -/
def InTime (s : State) : Operation → Prop
  | .store op clock => op.InTime (clock.since s.now) s.store
  | .sign ssh ctx key fields =>
    let clock := (s.context ctx).clock
    ∀ e pem, s.store.entries[key]? = some e → e.value = some pem →
      (ssh.sign pem fields.data fields.flags).isSome → e.state (clock.now 0) = .active →
        e.state (clock.now 1) ≠ .softExpired ∧ e.state (clock.now 2) ≠ .softExpired
  | _ => True

end Operation

/-- The soft window of the key's value had lapsed at some reading. -/
def Lapsed (s : State) (k : String) : Prop :=
  ∃ e, s.store.entries[k]? = some e ∧ ∃ t, t ≤ s.now ∧ e.state t = .softExpired

/-- From a reading of the operation at which the window has lapsed, nothing is
released and no window starts. -/
def Respects (k : String) (s : State) (op : Operation) : Prop :=
  ∀ e, s.store.entries[k]? = some e → ∀ m, e.state ((op.clock s).now m) = .softExpired →
    (op.Releases s k → (op.clock s).now op.releaseReading < (op.clock s).now m) ∧
      ∀ t, op.RestartsAt s k t → t < (op.clock s).now m

/-- A get that someone approved of on the way reads the value within the window
that the approval opened. -/
def RespectsApproved (k : String) (s : State) (op : Operation) : Prop :=
  ∀ ctx req, op = .request ctx req → op.Releases s k → op.Renews s k →
    ∃ e, (op.perform s).store.entries[k]? = some e ∧ e.state ((op.clock s).now 6) = .active

/-- A signature is the loading of its key, and what follows on the readings that
are left. -/
theorem signBodyAfterGuard_eq (ssh : SshKeys) (ctx : HandlerCtx) (s : State) (key : String)
    (source : KeySource) (fields : SignRequestFields) :
    signBodyAfterGuard ssh ctx s key source fields =
      if (ensureLoaded ctx s key source).1 then
        signLoaded ssh { ctx with clock := ctx.clock.after 4 } (ensureLoaded ctx s key source).2 key
          fields
      else (.failure, (ensureLoaded ctx s key source).2) := by
  obtain ⟨calls, hloads⟩ := @ensureLoaded_loads ctx s key source
  have hcap : (ensureLoaded ctx s key source).2.store.controlCap = s.store.controlCap :=
    congrArg Capability.mk (reads_kept hloads.reads).token
  have hextend : ∀ store : Store, store.extend key s.store.controlCap (ctx.clock.after 5) =
      store.extend key s.store.controlCap ((ctx.clock.after 4).after 1) := fun _ => rfl
  unfold signBodyAfterGuard signLoaded
  simp only [hcap, hextend]
  cases (ensureLoaded ctx s key source).1 with
  | false => rfl
  | true => rfl

section Reading

variable {ctx : HandlerCtx} {s : State} {key : String}

/-- What a get does to the entry of its key: stays while nobody approves, and
is Active at the reading at which it is released. -/
structure GetLaw (ctx : HandlerCtx) (s : State) (key : String) (r : ℕ) (out : Response × State) :
    Prop where
  stays : ∃ calls, out.2.log = s.log ++ calls ∧ (¬ Approved ctx.auth calls key →
    Stays s.store.entries[key]? out.2.store.entries[key]?)
  active : ∀ v, out.1 = .ok (.get v) →
    ∃ e, out.2.store.entries[key]? = some e ∧ e.state (ctx.clock.now r) = .active

theorem GetLaw.of_stays {s' : State} {r : ℕ} {out : Response × State}
    (h : GetLaw ctx s' key r out) (hstays : Stays s.store.entries[key]? s'.store.entries[key]?)
    (hlog : s'.log = s.log) : GetLaw ctx s key r out where
  stays := by
    obtain ⟨calls, hcalls, hafter⟩ := h.stays
    exact ⟨calls, by rw [hcalls, hlog], fun hu => hstays.trans (hafter hu)⟩
  active := h.active

theorem getLaw_err {r : ℕ} (e : WireError) : GetLaw ctx s key r (.err e, s) where
  stays := ⟨[], (List.append_nil _).symm, fun _ => stays_refl _⟩
  active v hv := by cases hv

theorem get_active {store : Store} {cap : Capability} {now : Monotonic} {v : Bytes}
    (h : (store.get key cap now).1 = .ok (some v)) :
    ∃ e, store.entries[key]? = some e ∧ (store.get key cap now).2.entries[key]? = some e ∧
      e.state now = .active ∧ e.value = some v := by
  unfold Store.get at h ⊢
  split at h
  · cases h
  rename_i hcap
  split at h
  · cases h
  rename_i e he
  simp only [Except.ok.injEq] at h
  obtain ⟨hactive, hvalue⟩ := get_some h
  refine ⟨e, he, ?_, hactive, hvalue⟩
  simp only [putEntry_get]
  rw [get_snd, evaluate_of_live (by rw [hactive]; decide)]

theorem finishGet_state (dryRun : Bool) (now : Monotonic) :
    (finishGet ctx s key dryRun now).2 =
      s.withStore (s.store.get key s.store.controlCap now).2 := by
  unfold finishGet
  simp only
  split
  · split
    · rfl
    · rfl
    · split <;> rfl
  · split <;> rfl

theorem finishGet_law (dryRun : Bool) (r : ℕ) :
    GetLaw ctx s key r (finishGet ctx s key dryRun (ctx.clock.now r)) where
  stays := by
    rw [finishGet_state]
    exact ⟨[], (List.append_nil _).symm, fun _ => stays_get _ _⟩
  active v hv := by
    rw [finishGet_state]
    have hread : ∃ value, (s.store.get key s.store.controlCap (ctx.clock.now r)).1 =
        .ok (some value) := by
      revert hv
      unfold finishGet
      simp only
      split
      · split
        · exact fun hv => by cases hv
        · exact fun hv => by cases hv
        · rename_i seed hseed
          exact fun _ => ⟨seed, hseed⟩
      · split
        · rename_i value hvalue
          exact fun _ => ⟨value, hvalue⟩
        · exact fun hv => by cases hv
    obtain ⟨value, hvalue⟩ := hread
    obtain ⟨e, -, he', hactive, -⟩ := get_active hvalue
    exact ⟨e, he', hactive⟩

theorem getAgain_law (dryRun : Bool) (gone : String) :
    GetLaw ctx s key 6 (getAgain ctx s key dryRun gone) := by
  have hstays : Stays s.store.entries[key]?
      (s.store.get key s.store.controlCap (ctx.clock.now 5)).2.entries[key]? := stays_get _ _
  unfold getAgain
  simp only
  split
  · exact (finishGet_law dryRun 6).of_stays hstays rfl
  · exact (getLaw_err _).of_stays hstays rfl

/-- A call of the store that may be approved, and what follows it. -/
theorem GetLaw.of_calls {store : Store} {calls : List ExternalCall} {r : ℕ}
    {out : Response × State} (h : GetLaw ctx ((s.withStore store).logged calls) key r out)
    (hstays : ¬ Approved ctx.auth calls key →
      Stays s.store.entries[key]? store.entries[key]?) : GetLaw ctx s key r out where
  stays := by
    obtain ⟨rest, hrest, hafter⟩ := h.stays
    refine ⟨calls ++ rest, ?_, ?_⟩
    · rw [hrest]
      exact List.append_assoc _ _ _
    · intro hunapproved
      have hboth : ¬ Approved ctx.auth calls key ∧ ¬ Approved ctx.auth rest key := by
        constructor
        · rintro ⟨asked, hmem, hrest⟩
          exact hunapproved ⟨asked, List.mem_append_left _ hmem, hrest⟩
        · rintro ⟨asked, hmem, hrest⟩
          exact hunapproved ⟨asked, List.mem_append_right _ hmem, hrest⟩
      exact (hstays hboth.1).trans (hafter hboth.2)
  active := h.active

theorem lazyGenerate_law (dryRun : Bool) :
    GetLaw ctx s key 6 (lazyGenerate ctx s key dryRun) := by
  have hstays : ¬ Approved ctx.auth (s.store.getOrRegenerateCalls key ctx.runner ctx.auth ctx.requester
      s.store.controlCap (ctx.clock.after 2)) key → _ := stays_getOrRegenerate
  unfold lazyGenerate
  simp only
  split
  · exact (getAgain_law dryRun _).of_calls hstays
  · exact (getLaw_err _).of_calls hstays
  · exact (getAgain_law dryRun _).of_calls hstays
  all_goals exact (getLaw_err _).of_calls hstays

theorem regenerateAndGet_law (dryRun : Bool) :
    GetLaw ctx s key 6 (regenerateAndGet ctx s key dryRun) := by
  have hstays : ¬ Approved ctx.auth (s.store.regenerateCalls key ctx.runner ctx.auth ctx.requester
      s.store.controlCap (ctx.clock.after 2)) key → _ := stays_regenerate
  unfold regenerateAndGet
  simp only
  split
  · exact (getAgain_law dryRun _).of_calls hstays
  all_goals exact (getLaw_err _).of_calls hstays

theorem stateOf_softExpired {store : Store} {now : Monotonic}
    (h : (store.stateOf key now).1 = some .softExpired) :
    ∃ e, (store.stateOf key now).2.entries[key]? = some e ∧ e.state now = .softExpired := by
  unfold Store.stateOf at h ⊢
  split at h
  · cases h
  rename_i e he
  simp only [evaluate_fst, Option.some.injEq] at h
  refine ⟨e, ?_, h⟩
  rw [putEntry_get, evaluate_of_live (by rw [h]; decide)]

/-- An extension of an entry whose window has lapsed before. -/
theorem stays_extendLapsed {store : Store} {clock : Clock} {t : Monotonic} {e : CacheEntry}
    {auth : Authenticator} {requester : Option (List ProcessInfo)} {cap : Capability}
    (he : store.entries[key]? = some e) (hlapsed : e.state t = .softExpired) (ht : t ≤ clock.now 0)
    (hunapproved : ¬ Approved auth (store.extendAuthenticatedCalls key auth requester cap clock) key) :
    Stays store.entries[key]?
      (store.extendAuthenticated key auth requester cap clock).2.entries[key]? := by
  have hnever : ∀ i, e.state (clock.now i) ≠ .active := fun i =>
    not_active_of_softExpired hlapsed (Monotonic.le_trans ht (clock.now_mono (Nat.zero_le i)))
  have hin : (StoreOp.extendAuthenticated key auth requester cap).InTime clock store := by
    intro e' he' hactive
    rw [he] at he'
    cases he'
    exact absurd hactive (hnever 0)
  have houtcome := outcome_extendAuthenticated hin hunapproved
  generalize (store.extendAuthenticated key auth requester cap clock).2.entries[key]? = after
    at houtcome
  cases houtcome with
  | stays _ hstays => exact hstays
  | restarted e' i he' hactive _ =>
    rw [he] at he'
    cases he'
    exact absurd hactive (hnever i)

theorem extendAndGet_law (dryRun : Bool) {e : CacheEntry} (he : s.store.entries[key]? = some e)
    (hlapsed : e.state (ctx.clock.now 1) = .softExpired) :
    GetLaw ctx s key 6 (extendAndGet ctx s key dryRun) := by
  have hstays : ¬ Approved ctx.auth (s.store.extendAuthenticatedCalls key ctx.auth ctx.requester
      s.store.controlCap (ctx.clock.after 2)) key → _ :=
    stays_extendLapsed he hlapsed (ctx.clock.mono 1)
  unfold extendAndGet
  simp only
  split
  · exact (getAgain_law dryRun _).of_calls hstays
  all_goals exact (getLaw_err _).of_calls hstays

/-- A value is released at once, with no call, or at the last reading. -/
theorem handleGet_law (dryRun : Bool) :
    (handleGet ctx s key dryRun).2.log = s.log ∧
        GetLaw ctx s key 1 (handleGet ctx s key dryRun) ∨
      GetLaw ctx s key 6 (handleGet ctx s key dryRun) := by
  unfold handleGet
  cases hgate : gateGet ctx s key with
  | some resp =>
    obtain ⟨e, rfl⟩ := stops_gateGet key resp hgate
    exact Or.inr (getLaw_err e)
  | none =>
    have hread : Stays s.store.entries[key]?
        (s.store.get key s.store.controlCap (ctx.clock.now 0)).2.entries[key]? := stays_get _ _
    simp only
    unfold retrieve
    simp only
    split
    · left
      refine ⟨?_, (finishGet_law dryRun 1).of_stays hread rfl⟩
      rw [finishGet_state]
      rfl
    right
    have hstate := hread.trans (stays_stateOf (ctx.clock.now 1))
    split
    · split
      · rename_i resp hownership
        obtain ⟨e, rfl⟩ := vaultOwnership_unavailable ctx _ key hownership
        exact (getLaw_err e).of_stays hstate rfl
      · split
        · exact (lazyGenerate_law dryRun).of_stays hstate rfl
        · split <;> exact (getLaw_err _).of_stays hstate rfl
    · exact (getLaw_err _).of_stays hstate rfl
    · rename_i hsoft
      obtain ⟨e, he, hlapsed⟩ := stateOf_softExpired hsoft
      exact (extendAndGet_law dryRun he hlapsed).of_stays hstate rfl
    · split
      · exact (lazyGenerate_law dryRun).of_stays hstate rfl
      · exact (regenerateAndGet_law dryRun).of_stays hstate rfl

end Reading

section Signing

variable {ctx : HandlerCtx} {s : State} {key : String}

theorem ensureLoaded_stays (source : KeySource) :
    ∃ calls, (ensureLoaded ctx s key source).2.log = s.log ++ calls ∧
      (¬ Approved ctx.auth calls key →
        Stays s.store.entries[key]? (ensureLoaded ctx s key source).2.store.entries[key]?) := by
  have hstate : Stays s.store.entries[key]?
      (s.store.stateOf key (ctx.clock.now 0)).2.entries[key]? := stays_stateOf _
  have hnone : s.log = s.log ++ [] := (List.append_nil _).symm
  unfold ensureLoaded
  simp only
  split
  · split
    · exact ⟨[], hnone, fun _ => hstate⟩
    · split <;> exact ⟨_, rfl, fun h => hstate.trans (stays_getOrRegenerate h)⟩
  · exact ⟨[], hnone, fun _ => hstate⟩
  · rename_i hsoft
    obtain ⟨e, he, hlapsed⟩ := stateOf_softExpired hsoft
    split <;> exact ⟨_, rfl, fun h =>
      hstate.trans (stays_extendLapsed he hlapsed (ctx.clock.mono 0) h)⟩
  · split <;> exact ⟨_, rfl, fun h => hstate.trans (stays_regenerate h)⟩

theorem signLoaded_signed {ssh : SshKeys} {fields : SignRequestFields} {blob : Bytes}
    (h : (signLoaded ssh ctx s key fields).1 = .signResponse blob) :
    ∃ e, s.store.entries[key]? = some e ∧ e.state (ctx.clock.now 0) = .active := by
  revert h
  unfold signLoaded
  simp only
  split
  · rename_i pem hpem
    intro _
    obtain ⟨e, he, -, hactive, -⟩ := get_active hpem
    exact ⟨e, he, hactive⟩
  · exact fun h => by cases h

/-- The refresh of the idle window restarts it in time, or not at all. -/
theorem signLoaded_outcome {ssh : SshKeys} {fields : SignRequestFields}
    (hin : ∀ e pem, s.store.entries[key]? = some e → e.value = some pem →
      (ssh.sign pem fields.data fields.flags).isSome → e.state (ctx.clock.now 0) = .active →
        e.state (ctx.clock.now 1) ≠ .softExpired ∧ e.state (ctx.clock.now 2) ≠ .softExpired) :
    WindowOutcome s.store.entries[key]? ctx.clock
      (signLoaded ssh ctx s key fields).2.store.entries[key]? := by
  have hget : Stays s.store.entries[key]?
      (s.store.get key s.store.controlCap (ctx.clock.now 0)).2.entries[key]? := stays_get _ _
  unfold signLoaded
  simp only
  split
  · rename_i pem hpem
    obtain ⟨e, he, he', hactive, hvalue⟩ := get_active hpem
    split
    · rename_i blob hblob
      have hnow := hin e pem he hvalue (by rw [hblob]; rfl) hactive
      show WindowOutcome _ _ ((s.store.get key s.store.controlCap (ctx.clock.now 0)).2.extend key
        s.store.controlCap (ctx.clock.after 1)).2.entries[key]?
      rw [he.trans he'.symm]
      unfold Store.extend
      split
      · exact .stays _ (stays_refl _)
      split
      · exact .stays _ (stays_refl _)
      rename_i e₁ he₁
      rw [he'] at he₁
      cases he₁
      exact outcome_extended 1 he' hnow.1 hnow.2
    · exact .stays _ hget
  · exact .stays _ hget

end Signing

section Requests

variable {ctx : HandlerCtx} {s s' : State} {req : Request} {resp : Response} {k : String}

theorem stays_of_slice {store store' : Store} (h : store'.slice k = store.slice k) :
    Stays store.entries[k]? store'.entries[k]? := by
  rw [show store'.entries[k]? = store.entries[k]? from congrArg KeySlice.entry h]
  exact stays_refl _

theorem stays_of_valueless {store store' : Store}
    (h : store'.slice k = KeySlice.valueless (store.slice k)) :
    Stays store.entries[k]? store'.entries[k]? := by
  rw [show store'.entries[k]? = none from congrArg KeySlice.entry h]
  exact stays_none _

/-- The key whose value a request reads, pins or unpins. -/
def readKey : Request → Option String
  | .kvGet key _ => some key
  | .kvPin key _ => some key
  | .kvUnpin key => some key
  | _ => none

/-- What any other request leaves of a value it does not set. -/
theorem request_stays (h : Effect ctx s req resp s') (hread : readKey req ≠ some k)
    (hset : ∀ r, req = .kvSet r → r.key ≠ k) (hunlock : ∀ code, req ≠ .vaultUnlock code) :
    Stays s.store.entries[k]? s'.store.entries[k]? := by
  have haccepted : ∀ (r : SetRequest) (plan : SetPlan), req = .kvSet r →
      Stays s.store.entries[k]? (plan.store ctx s r.key).entries[k]? := by
    intro r plan hr
    apply stays_of_slice
    rw [SetPlan.store, acceptedStore_slice, if_neg (hset r hr)]
  have helsewhere : ∀ (key : String) (t u : Monotonic) (store : Store), key ≠ k →
      Reads ctx.runner key t u s.store store → Stays s.store.entries[k]? store.entries[k]? :=
    fun key t u store hne hreads => stays_of_slice ((reads_kept hreads).elsewhere k hne)
  have hdeleted : ∀ key, Stays s.store.entries[k]?
      (s.store.delete key s.store.controlCap).2.entries[k]? := by
    intro key
    have hslice := delete_slice s.store key k _ (checkCap_controlCap s.store)
    by_cases hk : key = k
    · exact stays_of_valueless (by rw [hslice, if_pos hk])
    · exact stays_of_slice (by rw [hslice, if_neg hk])
  have hforgotten : ∀ key, Stays s.store.entries[k]?
      (s.store.deleteWithDefinition key s.store.controlCap).2.entries[k]? := by
    intro key
    have hslice := deleteWithDefinition_slice s.store key k _ (checkCap_controlCap s.store)
    by_cases hk : key = k
    · rw [show (s.store.deleteWithDefinition key s.store.controlCap).2.entries[k]? = none from
        congrArg KeySlice.entry (hslice.trans (if_pos hk))]
      exact stays_none _
    · exact stays_of_slice (by rw [hslice, if_neg hk])
  have hclaimed : ∀ key claim, Stays s.store.entries[k]?
      (s.store.setRefreshClaim key claim s.store.controlCap).2.entries[k]? := by
    intro key claim
    rw [setRefreshClaim_controlCap]
    exact stays_refl _
  have hunclaimed : ∀ key, Stays s.store.entries[k]?
      (s.store.clearRefreshClaim key s.store.controlCap).2.entries[k]? := by
    intro key
    rw [clearRefreshClaim_eq s.store (checkCap_controlCap s.store)]
    exact stays_refl _
  cases h with
  | refused => exact stays_refl _
  | pong => exact stays_refl _
  | stayedClosed => exact stays_refl _
  | cached r plan => exact haccepted r plan rfl
  | persisted r plan => exact haccepted r plan rfl
  | unwritable r plan => exact haccepted r plan rfl
  | fenced r plan => exact haccepted r plan rfl
  | uncommitted r plan => exact haccepted r plan rfl
  | created => exact stays_refl _
  | uncreated => exact stays_refl _
  | opened code => exact absurd rfl (hunlock (some (some code)))
  | closed vault state hvault hstate =>
    have hslice := deleteAll_slice s.store k _ vault.entries.keys (checkCap_controlCap s.store)
    by_cases hk : k ∈ vault.entries.keys
    · exact stays_of_valueless (hslice.trans (if_pos hk))
    · exact stays_of_slice (hslice.trans (if_neg hk))
  | deleted key withDefine =>
    cases withDefine with
    | true => exact hforgotten key
    | false => exact hdeleted key
  | deletedHeld key => exact hforgotten key
  | undeleted => exact stays_refl _
  | claimed key => exact hclaimed key _
  | claimedHeld key => exact hclaimed key _
  | unclaimed => exact stays_refl _
  | released key => exact hunclaimed key
  | releasedHeld key => exact hunclaimed key
  | unreleased => exact stays_refl _
  | defined key source soft hard valueMeta ttl =>
    obtain ⟨definitions, hdefined, -⟩ := defineWithMeta_eq s.store key source.lower ttl
      (metaFromWire valueMeta) source.toSourceMeta
    show Stays _ (s.store.defineWithMeta key source.lower ttl (metaFromWire valueMeta)
      source.toSourceMeta).2.entries[k]?
    rw [hdefined]
    exact stays_refl _
  | read key dryRun resp store calls hreads =>
    exact helsewhere key _ _ store (fun hk => hread (by rw [hk]; rfl)) hreads
  | pinned key secs resp store log hreads =>
    exact helsewhere key _ _ store (fun hk => hread (by rw [hk]; rfl)) hreads
  | unpinned key resp store hreads =>
    exact helsewhere key _ _ store (fun hk => hread (by rw [hk]; rfl)) hreads
  | ownerCleared key =>
    show Stays _ (s.store.clearOwner key s.store.controlCap).2.entries[k]?
    unfold Store.clearOwner
    rw [checkCap_controlCap]
    exact stays_refl _

end Requests

section Steps

variable {s : State} {k : String} {op : Operation}

/-- The calls of an operation are what its log has gained. -/
theorem calls_of_log {calls : List ExternalCall} (h : (op.perform s).log = s.log ++ calls) :
    op.calls s = calls := by
  rw [Operation.calls, h, List.drop_left]

theorem outcome_of_unset (hunrenewed : ¬ op.Renews s k) (hsets : op.sets k) (clock : Clock) :
    WindowOutcome s.store.entries[k]? clock (op.perform s).store.entries[k]? := by
  have hsame : (op.perform s).store.entries[k]? = s.store.entries[k]? := by
    by_contra hne
    exact hunrenewed (Or.inr ⟨hsets, hne⟩)
  rw [hsame]
  exact .stays _ (stays_refl _)

/-- What a request that reads or pins its key leaves of it. -/
theorem readRequest_stays (ctx : HandlerCtx) (s : State) {req : Request}
    (hread : readKey req = some k) :
    ∃ calls, (handleRequest ctx s req).2.log = s.log ++ calls ∧
      (¬ Approved ctx.auth calls k →
        Stays s.store.entries[k]? (handleRequest ctx s req).2.store.entries[k]?) := by
  have hsame : s.log = s.log ++ [] := (List.append_nil _).symm
  cases req with
  | kvGet key dryRun =>
    cases hread
    rcases @handleGet_law ctx s k dryRun with ⟨-, hlaw⟩ | hlaw
    · exact hlaw.stays
    · exact hlaw.stays
  | kvPin key secs =>
    cases hread
    show ∃ calls, (ownerOnly ctx s k (handlePin ctx s k secs)).2.log = s.log ++ calls ∧
      (¬ Approved ctx.auth calls k → Stays s.store.entries[k]?
        (ownerOnly ctx s k (handlePin ctx s k secs)).2.store.entries[k]?)
    unfold ownerOnly
    split
    · exact ⟨[], hsame, fun _ => stays_refl _⟩
    · unfold handlePin
      simp only
      split <;> exact ⟨_, rfl, stays_pinAuthenticated⟩
  | kvUnpin key =>
    cases hread
    show ∃ calls, (ownerOnly ctx s k (handleUnpin s k)).2.log = s.log ++ calls ∧
      (¬ Approved ctx.auth calls k → Stays s.store.entries[k]?
        (ownerOnly ctx s k (handleUnpin s k)).2.store.entries[k]?)
    unfold ownerOnly
    split
    · exact ⟨[], hsame, fun _ => stays_refl _⟩
    · have hunpin : Stays s.store.entries[k]?
          (s.store.unpin k s.store.controlCap).2.entries[k]? := stays_unpin _
      refine ⟨[], ?_, fun _ => ?_⟩
      · rw [List.append_nil]
        unfold handleUnpin
        split <;> rfl
      · unfold handleUnpin
        split <;> rename_i hresult <;> rw [hresult] at hunpin <;> exact hunpin
  | _ => cases hread

theorem signLoaded_elsewhere {ssh : SshKeys} {ctx : HandlerCtx} {fields : SignRequestFields}
    {key : String} (hk : key ≠ k) :
    (signLoaded ssh ctx s key fields).2.store.slice k = s.store.slice k := by
  have hget := (reads_kept (s.store.get_reads key s.store.controlCap ctx.runner (ctx.clock.now 0)
    (Monotonic.le_refl (ctx.clock.now 0)))).elsewhere k hk
  unfold signLoaded
  simp only
  split
  · split
    · have hextend := (reads_kept ((s.store.get key s.store.controlCap
        (ctx.clock.now 0)).2.extend_reads key s.store.controlCap ctx.runner
          (ctx.clock.after 1))).elsewhere k hk
      exact hextend.trans hget
    · exact hget
  · exact hget

theorem step_outcome (hin : op.InTime s) (hunrenewed : ¬ op.Renews s k) :
    WindowOutcome s.store.entries[k]? (op.clock s) (op.perform s).store.entries[k]? := by
  by_cases hsets : op.sets k
  · exact outcome_of_unset hunrenewed hsets _
  have hunapproved : ∀ calls, (op.perform s).log = s.log ++ calls →
      ¬ Approved op.auth calls k := by
    intro calls hlog happroved
    exact hunrenewed (Or.inl (by rw [calls_of_log hlog]; exact happroved))
  cases op with
  | store op clock =>
    have hcalls := hunapproved (op.calls (clock.since s.now) s.store) rfl
    by_cases hk : op.key = k
    · subst hk
      have hset : op.isSet = false := by
        rw [Bool.eq_false_iff]
        exact fun h => hsets ⟨h, rfl⟩
      exact outcome_op op hin hcalls hset
    · show WindowOutcome _ _ (op.apply (clock.since s.now) s.store).entries[k]?
      rw [(op.apply_elsewhere (clock.since s.now) s.store).entries k hk]
      exact .stays _ (stays_refl _)
  | request ctx req =>
    by_cases hread : readKey req = some k
    · obtain ⟨calls, hlog, hstays⟩ := readRequest_stays (s.context ctx) s hread
      exact .stays _ (hstays (hunapproved calls hlog))
    · have hset : ∀ r, req = .kvSet r → r.key ≠ k := by
        rintro r rfl hr
        exact hsets hr
      have hunlock : ∀ code, req ≠ .vaultUnlock code := by
        rintro code rfl
        exact hsets trivial
      have hstays := request_stays (handleRequest_effect (s.context ctx) s req) hread hset hunlock
      exact .stays _ hstays
  | load ctx key source =>
    by_cases hk : key = k
    · subst hk
      obtain ⟨calls, hlog, hstays⟩ := @ensureLoaded_stays (s.context ctx) s key source
      exact .stays _ (hstays (hunapproved calls hlog))
    · obtain ⟨calls, hloads⟩ := @ensureLoaded_loads (s.context ctx) s key source
      exact .stays _ (stays_of_slice ((reads_kept hloads.reads).elsewhere k hk))
  | sign ssh ctx key fields =>
    by_cases hk : key = k
    · subst hk
      exact signLoaded_outcome hin
    · exact .stays _ (stays_of_slice (signLoaded_elsewhere hk))

/-- Nothing of the key is to be had any more, at the time the daemon has read. -/
def OutOfReach (s : State) (k : String) : Prop :=
  ∀ e, s.store.entries[k]? = some e → ∀ u, s.now ≤ u → e.state u ≠ .active

theorem outOfReach_of_lapsed (h : Lapsed s k) : OutOfReach s k := by
  obtain ⟨e, he, t, ht, hlapsed⟩ := h
  intro e' he' u hu
  rw [he] at he'
  cases he'
  exact not_active_of_softExpired hlapsed (Monotonic.le_trans ht hu)

theorem le_clock (i : ℕ) : s.now ≤ (op.clock s).now i := by
  cases op with
  | store op clock => exact clock.le_now_since s.now i
  | request ctx req => exact ctx.clock.le_now_since s.now i
  | load ctx key source => exact ctx.clock.le_now_since s.now i
  | sign ssh ctx key fields => exact ctx.clock.le_now_since s.now i

theorem le_perform : s.now ≤ (op.perform s).now := by
  cases op with
  | store op clock => exact clock.le_last_since s.now
  | request ctx req => exact ctx.clock.le_last_since s.now
  | load ctx key source => exact ctx.clock.le_last_since s.now
  | sign ssh ctx key fields => exact ctx.clock.le_last_since s.now

/-- A value nobody approves of is released while it is Active. -/
theorem active_of_releases (hunrenewed : ¬ op.Renews s k) (hreleases : op.Releases s k) :
    ∃ e r, s.store.entries[k]? = some e ∧ op.releaseReading ≤ r ∧
      e.state ((op.clock s).now r) = .active := by
  cases op with
  | store op clock =>
    cases op with
    | get key cap =>
      obtain ⟨rfl, v, hv⟩ := hreleases
      obtain ⟨e, he, -, hactive, -⟩ := get_active hv
      exact ⟨e, 0, he, Nat.le_refl 0, hactive⟩
    | _ => exact hreleases.elim
  | request ctx req =>
    obtain ⟨dryRun, v, rfl, hv⟩ := hreleases
    obtain ⟨r, hr, hlaw⟩ : ∃ r, 1 ≤ r ∧ GetLaw (s.context ctx) s k r
        (handleGet (s.context ctx) s k dryRun) := by
      rcases @handleGet_law (s.context ctx) s k dryRun with ⟨-, h⟩ | h
      · exact ⟨1, by omega, h⟩
      · exact ⟨6, by omega, h⟩
    obtain ⟨calls, hlog, hstays⟩ := hlaw.stays
    obtain ⟨e', he', hactive⟩ := hlaw.active v hv
    have hunapproved : ¬ Approved ctx.auth calls k := by
      intro happroved
      apply hunrenewed
      left
      rw [@calls_of_log s (.request ctx (.kvGet k dryRun)) _ hlog]
      exact happroved
    obtain ⟨e, he, hremains⟩ := hstays hunapproved e' he'
    exact ⟨e, r, he, hr, hremains.active _ hactive⟩
  | load ctx key source => exact hreleases.elim
  | sign ssh ctx key fields =>
    obtain ⟨rfl, blob, hblob⟩ := hreleases
    obtain ⟨e, he, hactive⟩ := signLoaded_signed hblob
    exact ⟨e, 0, he, Nat.le_refl 0, hactive⟩

theorem respects_step (hin : op.InTime s) (hunrenewed : ¬ op.Renews s k) : Respects k s op := by
  intro e he m hm
  constructor
  · intro hreleases
    obtain ⟨e', r, he', hr, hactive⟩ := active_of_releases hunrenewed hreleases
    rw [he] at he'
    cases he'
    have hlt := lt_of_active hactive hm
    have hle := (op.clock s).now_mono hr
    rw [Monotonic.lt_iff] at hlt ⊢
    rw [Monotonic.le_iff] at hle
    omega
  · rintro t ⟨e₀, e', he₀, he', hne, rfl⟩
    rw [he] at he₀
    cases he₀
    have houtcome := step_outcome hin hunrenewed
    rw [he'] at houtcome
    cases houtcome with
    | stays _ hstays =>
      obtain ⟨e₁, he₁, hremains⟩ := hstays e' rfl
      rw [he] at he₁
      cases he₁
      exact absurd hremains.extendedAt hne
    | restarted e₁ i he₁ hactive hnext =>
      rw [he] at he₁
      cases he₁
      -- The lapse comes after the reading that judged the entry, so not before the next.
      have hlater : i < m := by
        by_contra hle
        exact not_active_of_softExpired hm ((op.clock s).now_mono (Nat.le_of_not_lt hle)) hactive
      show (op.clock s).now (i + 1) < (op.clock s).now m
      cases hstate : e.state ((op.clock s).now (i + 1)) with
      | active => exact lt_of_active hstate hm
      | softExpired => exact absurd hstate hnext
      | hardExpired =>
        have hdead := state_hardExpired_mono ((op.clock s).now_mono hlater) hstate
        rw [hm] at hdead
        cases hdead

theorem outOfReach_step (hreach : OutOfReach s k) (hin : op.InTime s)
    (hunrenewed : ¬ op.Renews s k) :
    OutOfReach (op.perform s) k ∧ ¬ op.Releases s k ∧ ∀ t, ¬ op.RestartsAt s k t := by
  have hstays : Stays s.store.entries[k]? (op.perform s).store.entries[k]? := by
    have houtcome := step_outcome hin hunrenewed
    generalize (op.perform s).store.entries[k]? = after at houtcome
    cases houtcome with
    | stays _ h => exact h
    | restarted e i he hactive _ => exact absurd hactive (hreach e he _ (le_clock i))
  refine ⟨?_, ?_, ?_⟩
  · intro e' he' u hu hactive
    obtain ⟨e, he, hremains⟩ := hstays e' he'
    exact hreach e he u (Monotonic.le_trans le_perform hu) (hremains.active u hactive)
  · intro hreleases
    obtain ⟨e, r, he, -, hactive⟩ := active_of_releases hunrenewed hreleases
    exact hreach e he _ (le_clock r) hactive
  · rintro t ⟨e₀, e', he₀, he', hne, rfl⟩
    obtain ⟨e, he, hremains⟩ := hstays e' he'
    rw [he₀] at he
    cases he
    exact hne hremains.extendedAt

theorem respectsApproved_step : RespectsApproved k s op := by
  rintro ctx req rfl ⟨dryRun, v, rfl, hv⟩ hrenews
  rcases @handleGet_law (s.context ctx) s k dryRun with ⟨hlog, -⟩ | hlaw
  · exfalso
    rcases hrenews with happroved | ⟨hsets, -⟩
    · obtain ⟨asked, hmem, -⟩ := happroved
      rw [@calls_of_log s (.request ctx (.kvGet k dryRun)) _
        (hlog.trans (List.append_nil _).symm)] at hmem
      cases hmem
    · exact hsets
  · exact hlaw.active v hv

end Steps

/-- In every run of store operations, requests and signatures whose extensions
without a prompt fall within the window: once the soft window of a value has
lapsed, nothing returns the value, signs with it or restarts the window until
someone approves or the value is replaced; and within one operation nothing does
from the reading at which the window lapses. -/
theorem lapsed_out_of_reach (s₀ : State) (pre mid : List Operation) (op : Operation) (k : String)
    (hin : Along Operation.perform Operation.InTime s₀ (pre ++ (mid ++ [op]))) :
    let before := run Operation.perform s₀ pre
    let s := run Operation.perform before mid
    RespectsApproved k s op ∧
      (¬ op.Renews s k → Respects k s op ∧
        (Lapsed before k → Along Operation.perform (fun s op => ¬ op.Renews s k) before mid →
          ¬ op.Releases s k ∧ ∀ t, ¬ op.RestartsAt s k t)) := by
  intro before s
  rw [along_append, along_append] at hin
  obtain ⟨-, hmid, hop⟩ := hin
  refine ⟨respectsApproved_step, fun hunrenewed => ⟨respects_step hop.1 hunrenewed, ?_⟩⟩
  intro hlapsed hquiet
  have hreach : OutOfReach s k :=
    run_invariant Operation.perform (I := fun s => OutOfReach s k)
      (fun _ _ h hp => (outOfReach_step h hp.1 hp.2).1) before mid
      (along_and Operation.perform before mid hmid hquiet) (outOfReach_of_lapsed hlapsed)
  exact (outOfReach_step hreach hop.1 hunrenewed).2

namespace Idle

def second (n : UInt64) : Monotonic := ⟨Duration.fromSecs n⟩

def value : CacheEntry :=
  CacheEntry.new .static [1] ⟨some (Duration.fromSecs 10), none, by rintro _ _ _ ⟨⟩⟩ Monotonic.zero

/-- A value whose window closes ten seconds after its last use. -/
def daemon : State :=
  (State.starting none .absent).withStore
    ((Store.newWithToken 0 Duration.zero).putEntry "default/k" value)

def extended : Operation := .store (.extend "default/k" ⟨0⟩) (Clock.constant (second 5))

def looked : Operation := .store (.stateOf "default/k") (Clock.constant (second 15))

def asked (n : UInt64) : Operation :=
  .request { HandlerCtx.quiet with clock := Clock.constant (second n) } (.kvGet "default/k" false)

/-- The first reading within the window, the others after it. -/
def crossing : Clock where
  now
    | 0 => second 9
    | _ + 1 => second 11
  last := second 11
  mono
    | 0 => by decide
    | _ + 1 => Monotonic.le_refl _
  le_last
    | 0 => by decide
    | _ + 1 => Monotonic.le_refl _

def ssh : SshKeys where
  publicKeyBlobFromPem pem := some (pem, none)
  publicKeyFromOpenssh _ := none
  sign pem data _ := some (pem ++ data)

def signed : Operation :=
  .sign ssh { HandlerCtx.quiet with clock := crossing } "default/k" ⟨[1], [9], 0⟩

theorem unrenewed (s : State) (n : UInt64) : ¬ (asked n).Renews s "default/k" := by
  rintro (⟨_, -, -, hauth⟩ | ⟨hsets, -⟩)
  · cases hauth
  · exact hsets

theorem lapsed_out_of_reach_asked :
    ¬ (asked 16).Releases (run Operation.perform daemon [extended, looked]) "default/k" := by
  have hin : extended.InTime daemon := by
    intro e he
    rw [show daemon.store.entries["default/k"]? = some value by decide] at he
    cases he
    decide
  have hlapsed : Lapsed (run Operation.perform daemon [extended, looked]) "default/k" :=
    ⟨{ value with extendedAt := second 5 }, by decide, second 15, by decide, by decide⟩
  exact (((lapsed_out_of_reach daemon [extended, looked] [] (asked 16) "default/k"
    ⟨hin, trivial, trivial, trivial⟩).2 (unrenewed _ 16)).2 hlapsed trivial).1

/-- The window lapses between the reading with which the key is signed with and
the one that refreshes it. Nobody approves, the window starts again, and a get
four seconds later returns the value. -/
theorem refreshed_after_lapse :
    ¬ signed.Renews daemon "default/k" ∧ ¬ Respects "default/k" daemon signed ∧
      ¬ (asked 15).Renews (signed.perform daemon) "default/k" ∧
      (asked 15).Releases (signed.perform daemon) "default/k" := by
  refine ⟨?_, ?_, unrenewed _ 15, false, [1], rfl, by decide⟩
  · rintro (⟨_, -, -, hauth⟩ | ⟨hsets, -⟩)
    · cases hauth
    · exact hsets
  · intro h
    have hrestarts : signed.RestartsAt daemon "default/k" (second 11) :=
      ⟨value, { value with extendedAt := second 11 }, by decide, by decide, by decide, rfl⟩
    have hlt := (h value (by decide) 1 (by decide)).2 (second 11) hrestarts
    exact absurd hlt (by decide)

end Idle

end Daemon

end CacheWarden
