import CacheWarden.Daemon.TwoCounters

/-!
# An acknowledged value and the copies of older ones

The vault has its own copies of a value, one in memory and one in its file, and
an unlock puts a copy back into the store. A set that is acknowledged is followed
here through a run of any requests, up to a get of its key.
-/

set_option autoImplicit false

namespace CacheWarden

namespace Daemon

open Vault Store Transition

/-- The vault has the entry for the key, in memory or in its file. -/
def Copy (k : String) (s : State) (e : VaultEntry) : Prop :=
  (∃ vault, s.vault = some (.unlocked vault) ∧ vault.entry k = some e) ∨
    s.file.entry k = some e

/-- The value an unlock puts back from an entry. -/
def broughtBack (e : VaultEntry) : Option Bytes := if Restorable e then some e.secret else none

/-- The value the store has for the key, whatever its state. -/
def heldValue (store : Store) (k : String) : Option Bytes :=
  (store.slice k).entry.bind CacheEntry.value

/-- No set of the key is let through. -/
def Unwritten (k : String) (ctx : HandlerCtx) (s : State) : Request → Prop
  | .kvSet r => r.key = k → ∀ plan persist, ¬ Accepts ctx s r plan persist
  | _ => True

section Copies

variable {ctx : HandlerCtx} {s s' : State} {k key : String} {vault : UnlockedVault}
  {e e' : VaultEntry}

theorem Copy.opened (hvault : s.vault = some (.unlocked vault)) (he : vault.entry k = some e) :
    Copy k s e := Or.inl ⟨vault, hvault, he⟩

/-- The copies are those of the vault in memory and of the file. -/
theorem Copy.same (h : Copy k s' e) (hvault : s'.vault = s.vault) (hfile : s'.file = s.file) :
    Copy k s e := by
  unfold Copy at h ⊢
  rw [hvault, hfile] at h
  exact h

theorem broughtBack_claim (e : VaultEntry) (claim : Option Claim) :
    broughtBack { e with refreshClaim := claim } = broughtBack e := by
  unfold broughtBack
  by_cases hr : Restorable e
  · rw [if_pos hr, if_pos ⟨hr.valid, hr.guard, hr.owner⟩]
  · rw [if_neg hr, if_neg fun hr' => hr ⟨hr'.valid, hr'.guard, hr'.owner⟩]

/-- An entry of the vault with another claim on it brings back the same. -/
theorem claimed_back (he : vault.entry key = some e) (claim : Option Claim)
    (he' : (vault.insertEntry { e with refreshClaim := claim }).entry k = some e') :
    ∃ e, vault.entry k = some e ∧ broughtBack e' = broughtBack e := by
  rw [UnlockedVault.entry_insertEntry] at he'
  by_cases hk : e.key = k
  · rw [if_pos (show ({ e with refreshClaim := claim } : VaultEntry).key = k from hk)] at he'
    rw [← hk, UnlockedVault.key_of_entry he]
    cases he'
    exact ⟨e, he, broughtBack_claim e claim⟩
  · rw [if_neg (show ({ e with refreshClaim := claim } : VaultEntry).key ≠ k from hk)] at he'
    exact ⟨e', he', rfl⟩

/-- The vault moved on to a next one, in memory or in its file, that brings back
the same. -/
theorem Copy.moved {next : UnlockedVault} (h : Copy k s' e')
    (hvault : s.vault = some (.unlocked vault))
    (hnext : ∀ e', next.entry k = some e' →
      ∃ e, vault.entry k = some e ∧ broughtBack e' = broughtBack e)
    (hvault' : s'.vault = s.vault ∨ s'.vault = some (.unlocked next))
    (hfile' : s'.file = s.file ∨ s'.file = .holds next) :
    ∃ e, Copy k s e ∧ broughtBack e' = broughtBack e := by
  have hback : next.entry k = some e' → ∃ e, Copy k s e ∧ broughtBack e' = broughtBack e := by
    intro he'
    obtain ⟨e, he, hsame⟩ := hnext e' he'
    exact ⟨e, Copy.opened hvault he, hsame⟩
  rcases h with ⟨v, hv, he'⟩ | he'
  · rcases hvault' with hsame | hmoved
    · rw [hsame] at hv
      exact ⟨e', Copy.opened hv he', rfl⟩
    · rw [hmoved] at hv
      cases hv
      exact hback he'
  · rcases hfile' with hsame | hmoved
    · rw [hsame] at he'
      exact ⟨e', Or.inr he', rfl⟩
    · rw [hmoved] at he'
      exact hback he'

/-- Without a set of the key, every copy of it is one there was. -/
theorem copies_effect {req : Request} {resp : Response} (hunwritten : Unwritten k ctx s req)
    (heffect : Effect ctx s req resp s') (h : Copy k s' e') :
    ∃ e, Copy k s e ∧ broughtBack e' = broughtBack e := by
  have hwritten : ∀ {r : SetRequest} {plan : SetPlan} {vault : UnlockedVault} {e' : VaultEntry},
      r.key ≠ k →
      (writtenVault ctx vault (plan.store ctx s r.key) r.key plan.bytes).entry k = some e' →
        ∃ e, vault.entry k = some e ∧ broughtBack e' = broughtBack e := by
    intro r plan vault e' hk he'
    rw [writtenVault_entry, if_neg hk] at he'
    exact ⟨e', he', rfl⟩
  have herased : ∀ {key : String} {vault : UnlockedVault} {e' : VaultEntry},
      (vault.eraseEntry key).entry k = some e' →
        ∃ e, vault.entry k = some e ∧ broughtBack e' = broughtBack e := by
    intro key vault e' he'
    rw [UnlockedVault.entry_eraseEntry] at he'
    split at he'
    · cases he'
    · exact ⟨e', he', rfl⟩
  cases heffect with
  | persisted r plan owner vault haccepts hvault hallowed =>
    have hk : r.key ≠ k := fun hk => hunwritten hk plan true haccepts
    exact h.moved hvault (fun _ => hwritten hk) (Or.inr rfl) (Or.inr rfl)
  | uncommitted r plan err vault file haccepts hvault hcommit hfile =>
    have hk : r.key ≠ k := fun hk => hunwritten hk plan true haccepts
    exact h.moved hvault (fun _ => hwritten hk) (Or.inl rfl) hfile.cases
  | created vault code hempty hfile hstate =>
    rcases h with ⟨v, hv, he'⟩ | he'
    · cases hv
      rw [UnlockedVault.entry, hempty, KeyMap.get_empty] at he'
      cases he'
    · rw [show State.file _ = _ from rfl, Stored.entry, UnlockedVault.entry, hempty,
        KeyMap.get_empty] at he'
      cases he'
  | uncreated e file hstate hfile =>
    rcases h with ⟨v, hv, he'⟩ | he'
    · rw [show s.vault = some (.unlocked v) from hv] at hstate
      cases hstate
    · rw [show State.file _ = _ from rfl] at he'
      cases hstored : file with
      | holds v =>
        rw [hstored, Stored.entry, UnlockedVault.entry, hfile.2 v hstored, KeyMap.get_empty] at he'
        cases he'
      | absent =>
        rw [hstored] at he'
        cases he'
      | damaged e =>
        rw [hstored] at he'
        cases he'
  | opened code vault hvault =>
    rcases h with ⟨v, hv, he'⟩ | he'
    · cases hv
      rcases hvault with hopen | ⟨-, hfile⟩
      · exact ⟨e', Copy.opened hopen he', rfl⟩
      · refine ⟨e', Or.inr ?_, rfl⟩
        rw [hfile]
        exact he'
    · exact ⟨e', Or.inr he', rfl⟩
  | closed vault state hvault hstate =>
    rcases h with ⟨v, hv, he'⟩ | he'
    · rcases hstate with ⟨rfl, -⟩ | ⟨rfl, -⟩ <;> cases hv
    · exact ⟨e', Or.inr he', rfl⟩
  | deletedHeld key withDefine vault hvault hheld =>
    exact h.moved hvault (fun _ => herased) (Or.inr rfl) (Or.inr rfl)
  | undeleted key withDefine e vault file hvault hheld hcommit hfile =>
    exact h.moved hvault (fun _ => herased) (Or.inl rfl) hfile.cases
  | claimedHeld key expected secs vault e hvault hheld hgranted =>
    exact h.moved hvault (fun _ => claimed_back hheld _) (Or.inr rfl) (Or.inr rfl)
  | unclaimed key expected secs err vault e file hvault hheld hcommit hfile =>
    exact h.moved hvault (fun _ => claimed_back hheld _) (Or.inl rfl) hfile.cases
  | releasedHeld key token vault next e file hvault hheld hfence hnext =>
    rcases hnext with ⟨-, rfl, rfl⟩ | ⟨rfl, rfl⟩
    · exact ⟨e', h.same hvault.symm rfl, rfl⟩
    · exact h.moved hvault (fun _ => claimed_back hheld none) (Or.inr rfl) (Or.inr rfl)
  | unreleased key token err vault e file hvault hheld hcommit hfile =>
    exact h.moved hvault (fun _ => claimed_back hheld none) (Or.inl rfl) hfile.cases
  | refused | pong | stayedClosed | cached | unwritable | fenced | deleted | claimed | released
  | defined | read | pinned | unpinned | ownerCleared => exact ⟨e', h.same rfl rfl, rfl⟩

end Copies

section Values

variable {ctx : HandlerCtx} {s s' : State} {k : String} {value : Bytes}

/-- The values the commands among the calls give. -/
def sourceValues (runner : SourceRunner) (calls : List ExternalCall) : List Bytes :=
  calls.filterMap fun
    | .run argv cwd env => (runner argv cwd env).toOption
    | .prompt _ => none

theorem sourceValues_mem {runner : SourceRunner} {calls : List ExternalCall}
    (h : Yields runner calls value) : value ∈ sourceValues runner calls := by
  obtain ⟨argv, cwd, env, hcall, hrun⟩ := h
  refine List.mem_filterMap.mpr ⟨_, hcall, ?_⟩
  simp only [hrun]
  rfl

/-- What the source of the key gave while the request was served. -/
def produced (k : String) (ctx : HandlerCtx) (before after : State) : Request → List Bytes
  | .kvGet key _ =>
    if key = k then sourceValues ctx.runner (after.log.drop before.log.length) else []
  | _ => []

/-- A request can put this value under the key: it is a set that is let through,
or unlocks a vault with a copy of it, or the source of the key gave it. -/
inductive PutIn (k : String) (ctx : HandlerCtx) (s s' : State) : Request → Bytes → Prop
  | set (r : SetRequest) (plan : SetPlan) (persist : Bool) (hk : r.key = k)
      (haccepts : Accepts ctx s r plan persist) : PutIn k ctx s s' (.kvSet r) plan.bytes
  | unlocked (code : Option (Option Key)) (e : VaultEntry) (value : Bytes) (hcopy : Copy k s e)
      (hback : broughtBack e = some value) : PutIn k ctx s s' (.vaultUnlock code) value
  | produced (req : Request) (value : Bytes) (h : value ∈ produced k ctx s s' req) :
      PutIn k ctx s s' req value

theorem heldValue_of_entry {store store' : Store}
    (h : (store'.slice k).entry = (store.slice k).entry)
    (hvalue : heldValue store' k = some value) : heldValue store k = some value := by
  unfold heldValue at hvalue ⊢
  rw [← h]
  exact hvalue

/-- One key's slice was replaced, its entry kept or dropped. -/
theorem heldValue_replaced {store store' : Store} {key : String} {slice : KeySlice}
    (h : store'.slice k = if key = k then slice else store.slice k)
    (hentry : slice.entry = none ∨ slice.entry = (store.slice k).entry)
    (hvalue : heldValue store' k = some value) : heldValue store k = some value := by
  by_cases hk : key = k
  · rw [if_pos hk] at h
    rcases hentry with hnone | hsame
    · rw [heldValue, h, hnone] at hvalue
      cases hvalue
    · exact heldValue_of_entry (by rw [h, hsame]) hvalue
  · rw [if_neg hk] at h
    exact heldValue_of_entry (congrArg KeySlice.entry h) hvalue

theorem heldValue_accepted {plan : SetPlan} {key : String} :
    heldValue (plan.store ctx s key) key = some plan.bytes := by
  have hslice := acceptedStore_slice s.store key key plan.bytes plan.ttl plan.guard plan.declared
    (ctx.clock.now 0)
  rw [if_pos rfl] at hslice
  rw [heldValue, SetPlan.store, hslice]
  rfl

theorem heldValue_plan {plan : SetPlan} {key : String}
    (hvalue : heldValue (plan.store ctx s key) k = some value) :
    heldValue s.store k = some value ∨ key = k ∧ plan.bytes = value := by
  by_cases hk : key = k
  · subst hk
    rw [heldValue_accepted] at hvalue
    exact Or.inr ⟨rfl, Option.some.inj hvalue⟩
  · refine Or.inl (heldValue_of_entry (congrArg KeySlice.entry ?_) hvalue)
    exact (acceptedStore_slice _ _ _ _ _ _ _ _).trans (if_neg hk)

theorem heldValue_read {runner : SourceRunner} {key : String} {t u : Monotonic}
    {calls : List ExternalCall} {store : Store} (hreads : Reads runner key t u s.store store)
    (horigin : Origin runner calls key s.store store)
    (hvalue : heldValue store k = some value) :
    heldValue s.store k = some value ∨ key = k ∧ Yields runner calls value := by
  by_cases hk : key = k
  · subst hk
    rcases horigin value hvalue with hbefore | hyields
    · exact Or.inl hbefore
    · exact Or.inr ⟨rfl, hyields⟩
  · have hslice := (reads_kept hreads).elsewhere k hk
    exact Or.inl (heldValue_of_entry (congrArg KeySlice.entry hslice) hvalue)

/-- A value the store has for the key was there, or the request put it there. -/
theorem heldValue_effect {req : Request} {resp : Response} (heffect : Effect ctx s req resp s')
    (hvalue : heldValue s'.store k = some value) :
    heldValue s.store k = some value ∨ PutIn k ctx s s' req value := by
  have hplan : ∀ {r : SetRequest} {plan : SetPlan} {persist : Bool}, req = .kvSet r →
      Accepts ctx s r plan persist → heldValue (plan.store ctx s r.key) k = some value →
        heldValue s.store k = some value ∨ PutIn k ctx s s' req value := by
    intro r plan persist hreq haccepts hafter
    subst hreq
    rcases heldValue_plan hafter with hbefore | ⟨hk, rfl⟩
    · exact Or.inl hbefore
    · exact Or.inr (.set r plan persist hk haccepts)
  have hcap := s.store.checkCap_controlCap
  cases heffect with
  | cached r plan owner haccepts => exact hplan rfl haccepts hvalue
  | persisted r plan owner vault haccepts hvault hallowed =>
    exact hplan rfl haccepts hvalue
  | unwritable r plan err haccepts he => exact hplan rfl haccepts hvalue
  | fenced r plan err vault existing cause haccepts hvault hheld hcheck =>
    exact hplan rfl haccepts hvalue
  | uncommitted r plan err vault file haccepts hvault hcommit hfile =>
    exact hplan rfl haccepts hvalue
  | opened code vault hvault =>
    have hslice := installVaultEntries_slice ctx.clock ctx.wall vault hcap k
    have hsame : installedSlice vault ctx.clock ctx.wall (vault.entries.keys.idxOf k) k
        (s.store.slice k) = s.store.slice k → heldValue s.store k = some value := by
      intro h
      rw [h] at hslice
      exact heldValue_of_entry (congrArg KeySlice.entry hslice) hvalue
    cases he : vault.entry k with
    | none =>
      refine Or.inl (hsame ?_)
      rw [installedSlice, he]
    | some e =>
      by_cases hr : Restorable e
      · have hcopy : Copy k s e := by
          rcases hvault with hopen | ⟨-, hfile⟩
          · exact Copy.opened hopen he
          · right
            rw [hfile]
            exact he
        refine Or.inr (.unlocked _ e value hcopy ?_)
        rw [installedSlice, he] at hslice
        simp only at hslice
        rw [if_pos hr] at hslice
        rw [show heldValue _ k = _ from congrArg (fun slice => slice.entry.bind CacheEntry.value)
          hslice] at hvalue
        rw [broughtBack, if_pos hr]
        exact hvalue
      · refine Or.inl (hsame ?_)
        rw [installedSlice, he]
        simp only
        rw [if_neg hr]
  | closed vault state hvault hstate =>
    left
    have hslice := deleteAll_slice s.store k s.store.controlCap vault.entries.keys hcap
    by_cases hmem : k ∈ vault.entries.keys
    · rw [if_pos hmem] at hslice
      rw [show heldValue _ k = _ from congrArg (fun slice => slice.entry.bind CacheEntry.value)
        hslice] at hvalue
      cases hvalue
    · rw [if_neg hmem] at hslice
      exact heldValue_of_entry (congrArg KeySlice.entry hslice) hvalue
  | deleted key withDefine removed hunrelated hgate =>
    left
    cases withDefine with
    | true =>
      exact heldValue_replaced (deleteWithDefinition_slice s.store key k _ hcap) (Or.inl rfl) hvalue
    | false => exact heldValue_replaced (delete_slice s.store key k _ hcap) (Or.inl rfl) hvalue
  | deletedHeld key withDefine vault hvault hheld =>
    left
    exact heldValue_replaced (deleteWithDefinition_slice s.store key k _ hcap) (Or.inl rfl) hvalue
  | claimed key expected secs hheld hversion hidle =>
    exact Or.inl (heldValue_replaced (setRefreshClaim_slice s.store key k _ _ hcap) (Or.inr rfl) hvalue)
  | claimedHeld key expected secs vault e hvault hheld hgranted =>
    exact Or.inl (heldValue_replaced (setRefreshClaim_slice s.store key k _ _ hcap) (Or.inr rfl) hvalue)
  | released key token hheld hfence =>
    exact Or.inl (heldValue_replaced (clearRefreshClaim_slice s.store key k _ hcap) (Or.inr rfl) hvalue)
  | releasedHeld key token vault next e file hvault hheld hfence hnext =>
    exact Or.inl (heldValue_replaced (clearRefreshClaim_slice s.store key k _ hcap) (Or.inr rfl) hvalue)
  | defined key source soft hard valueMeta ttl hdefine =>
    obtain ⟨definitions, hstore, -⟩ := defineWithMeta_eq s.store key source.lower ttl
      (metaFromWire valueMeta) source.toSourceMeta
    left
    rw [show State.store _ = _ from hstore] at hvalue
    exact hvalue
  | read key dryRun resp store calls hreads hvalue' horigin =>
    rcases heldValue_read hreads horigin hvalue with hbefore | ⟨hk, hyields⟩
    · exact Or.inl hbefore
    · refine Or.inr (.produced _ value ?_)
      rw [produced, if_pos hk]
      simp only [List.drop_left]
      exact sourceValues_mem hyields
  | pinned key secs resp store log hreads horigin =>
    rcases heldValue_read hreads horigin hvalue with hbefore | ⟨-, argv, cwd, env, hcall, -⟩
    · exact Or.inl hbefore
    · cases hcall
  | unpinned key resp store hreads horigin =>
    rcases heldValue_read hreads horigin hvalue with hbefore | ⟨-, argv, cwd, env, hcall, -⟩
    · exact Or.inl hbefore
    · cases hcall
  | ownerCleared key hgate howner =>
    exact Or.inl (heldValue_replaced (clearOwner_slice s.store key k _ hcap) (Or.inr rfl) hvalue)
  | refused | pong | stayedClosed | created | uncreated | undeleted | unclaimed | unreleased =>
    exact Or.inl hvalue

end Values

section Runs

variable {ctx : HandlerCtx} {s s' : State} {k : String} {values : List Bytes}

/-- Whatever the store has for the key, or an unlock could put back, is one of
the values. -/
structure Fresh (k : String) (values : List Bytes) (s : State) : Prop where
  held : ∀ v, heldValue s.store k = some v → v ∈ values
  copies : ∀ e, Copy k s e → ∀ v, broughtBack e = some v → v ∈ values

/-- What one request preserves. -/
theorem fresh_effect {req : Request} {resp : Response} (h : Fresh k values s)
    (hunwritten : Unwritten k ctx s req) (heffect : Effect ctx s req resp s') :
    Fresh k (values ++ produced k ctx s s' req) s' where
  held v hv := by
    rw [List.mem_append]
    rcases heldValue_effect heffect hv with hbefore | hput
    · exact Or.inl (h.held v hbefore)
    · cases hput with
      | set r plan persist hk haccepts => exact absurd haccepts (hunwritten hk plan persist)
      | unlocked code e v hcopy hback => exact Or.inl (h.copies e hcopy v hback)
      | produced req v hproduced => exact Or.inr hproduced
  copies e' hcopy' v hv := by
    obtain ⟨e, hcopy, hsame⟩ := copies_effect hunwritten heffect hcopy'
    rw [hsame] at hv
    exact List.mem_append_left _ (h.copies e hcopy v hv)

/-- The set goes through to the vault, or the vault has no copy of another value
that it could put back. -/
def Lasting (ctx : HandlerCtx) (s : State) (r : SetRequest) (bytes : Bytes) : Prop :=
  (r.persist.getD false || decide (r.key ∈ ctx.persistedKeys)) = true ∨
    ∀ e, Copy r.key s e → ∀ v, broughtBack e = some v → v = bytes

/-- An acknowledged set leaves no value but its own. -/
theorem fresh_set {r : SetRequest} {bytes : Bytes} {payload : OkPayload}
    (hsource : r.source = .static (some bytes)) (hlasting : Lasting ctx s r bytes)
    (heffect : Effect ctx s (.kvSet r) (.ok payload) s') : Fresh r.key [bytes] s' := by
  have hbytes : ∀ {plan : SetPlan} {persist : Bool}, Accepts ctx s r plan persist →
      plan.bytes = bytes := by
    intro plan persist haccepts
    have hsame := haccepts.source
    rw [hsource] at hsame
    simpa using hsame.symm
  have hheld : ∀ {plan : SetPlan} {persist : Bool}, Accepts ctx s r plan persist →
      ∀ v, heldValue (plan.store ctx s r.key) r.key = some v → v ∈ [bytes] := by
    intro plan persist haccepts v hv
    rw [heldValue_accepted, hbytes haccepts] at hv
    cases hv
    exact List.mem_singleton_self _
  cases heffect with
  | cached _ plan owner haccepts =>
    refine ⟨hheld haccepts, fun e hcopy v hv => List.mem_singleton.mpr ?_⟩
    rcases hlasting with hpersist | hcopies
    · have hfalse := (gated_of_gateSet ctx s haccepts.gate).chosen
      rw [hpersist] at hfalse
      cases hfalse
    · exact hcopies e (hcopy.same rfl rfl) v hv
  | persisted _ plan owner vault haccepts hvault hallowed =>
    refine ⟨hheld haccepts, fun e hcopy v hv => List.mem_singleton.mpr ?_⟩
    have he : (writtenVault ctx vault (plan.store ctx s r.key) r.key plan.bytes).entry r.key =
        some e := by
      rcases hcopy with ⟨next, hnext, he⟩ | he
      · cases hnext
        exact he
      · exact he
    rw [writtenVault_entry, if_pos rfl] at he
    cases he
    rw [broughtBack] at hv
    split at hv
    · rw [← hbytes haccepts]
      exact (Option.some.inj hv).symm
    · cases hv

/-- A daemon, and the values set or fetched for the key so far. -/
def serveProducing (k : String) (p : State × List Bytes) (event : Served) : State × List Bytes :=
  (p.1.serve event,
    p.2 ++ produced k (p.1.context event.1) p.1 (p.1.serve event) event.2)

def UnwrittenStep (k : String) (p : State × List Bytes) (event : Served) : Prop :=
  Unwritten k (p.1.context event.1) p.1 event.2

/-- The reply of a get is one of the values, or the code one of them derives. -/
def GivenBy (ctx : HandlerCtx) (after : State) (k : String) (v : Bytes) (values : List Bytes) :
    Prop :=
  ∃ seed ∈ values,
    if metaIsOtp (metaOf after.store k) then ctx.deriveCode seed (metaOf after.store k) = .ok v
    else v = seed

/-- After an acknowledged set that lasts, no get of its key gives a value from
before it, whatever is locked, unlocked or asked for in between. -/
theorem acknowledged_set_lasts (ctx : HandlerCtx) (s : State) (r : SetRequest) (bytes : Bytes)
    (payload : OkPayload) (hsource : r.source = .static (some bytes))
    (hack : s.reply (ctx, .kvSet r) = .ok payload) (hlasting : Lasting (s.context ctx) s r bytes)
    (events : List Served)
    (hrun : Along (serveProducing r.key) (UnwrittenStep r.key)
      (s.serve (ctx, .kvSet r), [bytes]) events)
    (getCtx : HandlerCtx) (dryRun : Bool) (v : Bytes) :
    let p := run (serveProducing r.key) (s.serve (ctx, .kvSet r), [bytes]) events
    p.1.reply (getCtx, .kvGet r.key dryRun) = .ok (.get v) →
      GivenBy getCtx (p.1.serve (getCtx, .kvGet r.key dryRun)) r.key v
        (serveProducing r.key p (getCtx, .kvGet r.key dryRun)).2 := by
  intro p hreply
  have hstart : Fresh r.key [bytes] (s.serve (ctx, .kvSet r)) := by
    obtain ⟨s', heffect, hserve⟩ := s.serve_effect (ctx, .kvSet r)
    rw [hack] at heffect
    have hafter := fresh_set hsource hlasting heffect
    rw [hserve]
    exact ⟨hafter.held, fun e hcopy => hafter.copies e (hcopy.same rfl rfl)⟩
  have hstep : ∀ (p : State × List Bytes) (event : Served), Fresh r.key p.2 p.1 →
      UnwrittenStep r.key p event →
        Fresh r.key (serveProducing r.key p event).2 (serveProducing r.key p event).1 := by
    intro p event hfresh hunwritten
    obtain ⟨s', heffect, hserve⟩ := p.1.serve_effect event
    have hafter := fresh_effect hfresh hunwritten heffect
    show Fresh r.key (p.2 ++ produced r.key _ p.1 (p.1.serve event) event.2) (p.1.serve event)
    rw [hserve]
    exact ⟨hafter.held, fun e hcopy => hafter.copies e (hcopy.same rfl rfl)⟩
  have hfresh : Fresh r.key p.2 p.1 :=
    run_invariant (serveProducing r.key) (I := fun p => Fresh r.key p.2 p.1) hstep _ events hrun
      hstart
  have hafter := hstep p (getCtx, .kvGet r.key dryRun) hfresh trivial
  obtain ⟨s', heffect, hserve⟩ := p.1.serve_effect (getCtx, .kvGet r.key dryRun)
  rw [hreply] at heffect
  cases heffect with
  | read _ _ _ store calls hreads hvalue horigin =>
    obtain ⟨seed, hseed, hgiven⟩ := hvalue v rfl
    refine ⟨seed, hafter.held seed ?_, ?_⟩
    · show heldValue (p.1.serve _).store r.key = some seed
      rw [hserve]
      exact hseed
    · rw [hserve]
      exact hgiven

/-- A plain set of a key the open vault holds never lasts: the next unlock puts
the vault's value back. -/
theorem plain_set_rolled_back {ctx unlockCtx : HandlerCtx} {s s₁ s₂ : State} {r : SetRequest}
    {payload : OkPayload} {code : Option (Option Key)} {n : ℕ} {vault : UnlockedVault}
    {e : VaultEntry} (hvault : s.vault = some (.unlocked vault))
    (he : vault.entry r.key = some e) (hr : Restorable e)
    (hplain : (r.persist.getD false || decide (r.key ∈ ctx.persistedKeys)) = false)
    (hset : handleRequest ctx s (.kvSet r) = (.ok payload, s₁))
    (hunlock : handleRequest unlockCtx s₁ (.vaultUnlock code) = (.ok (.vaultUnlocked n), s₂)) :
    heldValue s₂.store r.key = some e.secret := by
  have hstored := handleRequest_effect ctx s (.kvSet r)
  rw [hset] at hstored
  have hopened := handleRequest_effect unlockCtx s₁ (.vaultUnlock code)
  rw [hunlock] at hopened
  have hsame : s₁.vault = some (.unlocked vault) := by
    cases hstored with
    | cached _ plan owner haccepts => exact hvault
    | persisted _ plan owner _ haccepts _ _ =>
      have htrue := (gated_of_gateSet ctx s haccepts.gate).chosen
      rw [hplain] at htrue
      cases htrue
  cases hopened with
  | opened code vault' hopen =>
    have hvault' : vault' = vault := by
      rcases hopen with hopen | ⟨hlocked, -⟩
      · rw [hsame] at hopen
        cases hopen
        rfl
      · rw [hsame] at hlocked
        cases hlocked
    subst hvault'
    have hslice := installVaultEntries_slice unlockCtx.clock unlockCtx.wall vault'
      s₁.store.checkCap_controlCap r.key
    unfold installedSlice at hslice
    rw [he] at hslice
    simp only at hslice
    rw [if_pos hr] at hslice
    exact congrArg (fun slice => slice.entry.bind CacheEntry.value) hslice

end Runs

section Bench

def storedPlain : State := openPlain.serve (.quiet, .kvSet setStored)

/-- A newer value for the key that the vault holds in it. -/
def setNewer (persist : Option Bool) : SetRequest :=
  { setStored with source := .static (some [2]), persist := persist }

def lockedAndOpened : List Served := [(.quiet, .vaultLock), unlockPlain]

theorem acknowledged_set_lasts_newer :
    GivenBy .quiet
      ((run (serveProducing "ns/k") (storedPlain.serve (.quiet, .kvSet (setNewer (some true))), [[2]])
        lockedAndOpened).1.serve (.quiet, .kvGet "ns/k" false)) "ns/k" [2]
      (serveProducing "ns/k" (run (serveProducing "ns/k")
        (storedPlain.serve (.quiet, .kvSet (setNewer (some true))), [[2]]) lockedAndOpened)
        (.quiet, .kvGet "ns/k" false)).2 := by
  have hack : storedPlain.reply (.quiet, .kvSet (setNewer (some true))) =
      .ok (.set [] (some 2) none) := by decide
  have hget : (run (serveProducing "ns/k")
      (storedPlain.serve (.quiet, .kvSet (setNewer (some true))), [[2]]) lockedAndOpened).1.reply
        (.quiet, .kvGet "ns/k" false) = .ok (.get [2]) := by decide
  exact acknowledged_set_lasts .quiet storedPlain (setNewer (some true)) [2] _ rfl hack
    (Or.inl rfl) lockedAndOpened ⟨trivial, trivial, trivial⟩ .quiet false [2] hget

/-- A plain set of a key the open vault holds is acknowledged, and the next
unlock puts the older value back. -/
theorem rolled_back :
    (storedPlain.openVault.bind fun vault => vault.entry "ns/k").isSome ∧
      storedPlain.reply (.quiet, .kvSet (setNewer none)) = .ok (.set [] (some 2) none) ∧
      (run State.serve storedPlain [(.quiet, .kvSet (setNewer none)), unlockPlain]).reply
        (.quiet, .kvGet "ns/k" false) = .ok (.get [1]) := by
  refine ⟨?_, ?_, ?_⟩
  · decide
  · decide
  · decide

end Bench

end Daemon

end CacheWarden
