import CacheWarden.Daemon.Persistence
import CacheWarden.Daemon.Runs

/-!
# Owners of the keys the vault holds

The owner of a key is recorded in the store, and in the vault's entry for it.
Only a persisted set writes the second; what the other requests on owners may do
without the two drifting apart is said here, and that nothing else parts them.
-/

set_option autoImplicit false

namespace CacheWarden

namespace Daemon

open Vault Store Transition

/-- The owner an unlock would install for a key. -/
def recordedOwner (vault : UnlockedVault) (k : String) : Option OwnerPrincipal :=
  (vault.entry k).bind fun e => if Restorable e then restoredOwner e else none

/-- The vault has an entry for the key. -/
def Holds (vault : UnlockedVault) (k : String) : Prop := (vault.entry k).isSome

section Recorded

variable {vault : UnlockedVault}

theorem recordedOwner_of_entry {k : String} {e : VaultEntry} (h : vault.entry k = some e) :
    recordedOwner vault k = if Restorable e then restoredOwner e else none := by
  unfold recordedOwner
  rw [h]
  rfl

theorem recordedOwner_insertEntry_of_ne {e : VaultEntry} {k : String} (h : e.key ≠ k) :
    recordedOwner (vault.insertEntry e) k = recordedOwner vault k := by
  unfold recordedOwner
  rw [UnlockedVault.entry_insertEntry, if_neg h]

/-- The claim on an entry says nothing about its owner. -/
theorem recordedOwner_claim {key : String} {e : VaultEntry} (h : vault.entry key = some e)
    (claim : Option Claim) (k : String) :
    recordedOwner (vault.insertEntry { e with refreshClaim := claim }) k =
      recordedOwner vault k := by
  have hkey := UnlockedVault.key_of_entry h
  by_cases hk : key = k
  · subst hk
    have hentry : (vault.insertEntry { e with refreshClaim := claim }).entry key =
        some { e with refreshClaim := claim } := by
      rw [UnlockedVault.entry_insertEntry]
      exact if_pos hkey
    rw [recordedOwner_of_entry hentry, recordedOwner_of_entry h]
    have hrestorable : Restorable { e with refreshClaim := claim } ↔ Restorable e :=
      ⟨fun hr => ⟨hr.valid, hr.guard, hr.owner⟩, fun hr => ⟨hr.valid, hr.guard, hr.owner⟩⟩
    by_cases hr : Restorable e
    · rw [if_pos hr, if_pos (hrestorable.mpr hr)]
      rfl
    · rw [if_neg hr, if_neg (fun hc => hr (hrestorable.mp hc))]
  · exact recordedOwner_insertEntry_of_ne (by rw [← hkey] at hk; exact hk)

theorem holds_claim {key : String} {e : VaultEntry} (h : vault.entry key = some e)
    (claim : Option Claim) (k : String) :
    Holds (vault.insertEntry { e with refreshClaim := claim }) k ↔ Holds vault k := by
  have hkey := UnlockedVault.key_of_entry h
  unfold Holds
  rw [UnlockedVault.entry_insertEntry]
  by_cases hk : key = k
  · subst hk
    simp [h, hkey]
  · rw [if_neg (by rw [← hkey] at hk; exact hk)]

theorem recordedOwner_eraseEntry (key k : String) :
    recordedOwner (vault.eraseEntry key) k = if key = k then none else recordedOwner vault k := by
  unfold recordedOwner
  rw [UnlockedVault.entry_eraseEntry]
  by_cases hk : key = k
  · rw [if_pos hk, if_pos hk]
    rfl
  · rw [if_neg hk, if_neg hk]

theorem holds_eraseEntry {key k : String} (h : Holds (vault.eraseEntry key) k) :
    key ≠ k ∧ Holds vault k := by
  unfold Holds at h ⊢
  rw [UnlockedVault.entry_eraseEntry] at h
  by_cases hk : key = k
  · rw [if_pos hk] at h
    cases h
  · rw [if_neg hk] at h
    exact ⟨hk, h⟩

/-- A value written through carries the owner the store has. -/
theorem recordedOwner_writtenVault (ctx : HandlerCtx) (store : Store) {key : String} (bytes : Bytes)
    (k : String) (hvalid : ValidKey key) :
    recordedOwner (writtenVault ctx vault store key bytes) k =
      if key = k then store.ownerOf k else recordedOwner vault k := by
  by_cases hk : key = k
  · subst hk
    have hentry : (writtenVault ctx vault store key bytes).entry key = _ :=
      writtenVault_entry vault store key key bytes
    rw [if_pos rfl] at hentry
    rw [recordedOwner_of_entry hentry, if_pos rfl,
      if_pos (restorable_entryFor store bytes _ _ hvalid), restoredOwner_entryFor]
  · unfold recordedOwner
    rw [writtenVault_entry, if_neg hk, if_neg hk]

theorem holds_writtenVault {ctx : HandlerCtx} {store : Store} {key k : String} {bytes : Bytes}
    (hk : key ≠ k) :
    Holds (writtenVault ctx vault store key bytes) k ↔ Holds vault k := by
  unfold Holds
  rw [writtenVault_entry, if_neg hk]

/-- An unlock puts the recorded owner in force, and leaves the one in force where
none is recorded. -/
theorem ownerOf_install (store : Store) (clock : Clock) (wall : ℕ → UInt64) (k : String) :
    (installVaultEntries store store.controlCap clock wall vault).2.ownerOf k =
      (recordedOwner vault k).or (store.ownerOf k) := by
  have hslice := congrArg KeySlice.owner
    (installVaultEntries_slice clock wall vault store.checkCap_controlCap k)
  rw [show (installVaultEntries store store.controlCap clock wall vault).2.ownerOf k = _ from hslice]
  unfold installedSlice recordedOwner
  cases vault.entry k with
  | none => rfl
  | some e =>
    simp only [Option.bind_some]
    by_cases hr : Restorable e
    · rw [if_pos hr, if_pos hr]
      rfl
    · rw [if_neg hr, if_neg hr]
      rfl

end Recorded

theorem ownerOf_deleteAll (store : Store) (keys : List String) (k : String) :
    (deleteAll store.controlCap keys store).ownerOf k = store.ownerOf k := by
  have hslice := congrArg KeySlice.owner
    (deleteAll_slice store k store.controlCap keys store.checkCap_controlCap)
  rw [show (deleteAll store.controlCap keys store).ownerOf k = _ from hslice]
  split <;> rfl

theorem ownerOf_plan (plan : SetPlan) (ctx : HandlerCtx) (s : State) (key k : String) :
    (plan.store ctx s key).ownerOf k =
      if key = k then plan.declared.or (s.store.ownerOf k) else s.store.ownerOf k := by
  have hslice := congrArg KeySlice.owner
    (acceptedStore_slice s.store key k plan.bytes plan.ttl plan.guard plan.declared
      (ctx.clock.now 0))
  rw [show (plan.store ctx s key).ownerOf k = _ from hslice]
  split <;> rfl

/-- Wherever an owner is recorded for a key the open vault holds, in memory or
in the file, it is the one in force. -/
structure OwnersAgree (store : Store) (vault : UnlockedVault) (file : Stored) : Prop where
  stored : ∃ v, file = .holds v
  memory : ∀ k, Holds vault k → ∀ p, recordedOwner vault k = some p → store.ownerOf k = some p
  file : ∀ v, file = .holds v → ∀ k, Holds vault k → ∀ p, recordedOwner v k = some p →
    store.ownerOf k = some p

def OwnersSound (s : State) : Prop :=
  ∀ vault, s.vault = some (.unlocked vault) → OwnersAgree s.store vault s.file

/-- The vault and its file both record `owner` for the key. -/
def RecordedAs (s : State) (vault : UnlockedVault) (k : String) (owner : Option OwnerPrincipal) :
    Prop :=
  recordedOwner vault k = owner ∧ ∀ v, s.file = .holds v → recordedOwner v k = owner

/-- Neither the vault nor its file records an owner other than `p`. -/
def NoOtherOwner (s : State) (vault : UnlockedVault) (k : String) (p : OwnerPrincipal) : Prop :=
  (∀ q, recordedOwner vault k = some q → q = p) ∧
    ∀ v, s.file = .holds v → ∀ q, recordedOwner v k = some q → q = p

/-- Nothing stops the write through to the vault. -/
structure WritesThrough (ctx : HandlerCtx) (s : State) (r : SetRequest) (plan : SetPlan)
    (vault : UnlockedVault) : Prop where
  entry : ∃ e, persistedEntry ctx (plan.store ctx s r.key) r.key plan.bytes = .ok e
  allowed : vault.WriteAllowed r.key (r.claimToken.bind ClaimToken.parse) (ctx.wall 2)
  commit : ctx.commit = .done

/-- A set that declares an owner for a key the open vault holds is persisted and
goes through, or declares the owner recorded already. -/
def OwnedSet (ctx : HandlerCtx) (s : State) (vault : UnlockedVault) (r : SetRequest) : Prop :=
  ∀ plan persist p, Accepts ctx s r plan persist → plan.declared = some p → Holds vault r.key →
    (persist = true ∧ (WritesThrough ctx s r plan vault ∨ NoOtherOwner s vault r.key p)) ∨
      RecordedAs s vault r.key (some p)

/-- No owner that is recorded is cleared. -/
def OwnedClear (ctx : HandlerCtx) (s : State) (vault : UnlockedVault) (key : String) : Prop :=
  requireOwner ctx s key = none → (s.store.ownerOf key).isSome → Holds vault key →
    RecordedAs s vault key none

/-- The condition on one request. -/
def OwnerKept (ctx : HandlerCtx) (s : State) (req : Request) : Prop :=
  ∀ vault, s.vault = some (.unlocked vault) →
    match req with
    | .kvSet r => OwnedSet ctx s vault r
    | .kvOwnerClear key => OwnedClear ctx s vault key
    | _ => True

section Step

variable {ctx : HandlerCtx} {s s' : State} {store : Store} {vault next : UnlockedVault}
  {file : Stored}

/-- The file after a request: as it was, or with nothing new recorded. -/
def NothingNew (vault : UnlockedVault) (before after : Stored) : Prop :=
  after = before ∨ ∃ v, after = .holds v ∧
    ∀ k, Holds vault k → ∀ p, recordedOwner v k = some p → recordedOwner vault k = some p

/-- A change that leaves the owners of the held keys, and records nothing new. -/
theorem OwnersAgree.replace {store' : Store} {file' : Stored} (h : OwnersAgree store vault file)
    (howners : ∀ k, Holds next k → store'.ownerOf k = store.ownerOf k)
    (hholds : ∀ k, Holds next k → Holds vault k)
    (hnext : ∀ k, Holds next k → recordedOwner next k = recordedOwner vault k)
    (hfile : NothingNew vault file file') : OwnersAgree store' next file' where
  stored := by
    rcases hfile with rfl | ⟨v, rfl, -⟩
    · exact h.stored
    · exact ⟨v, rfl⟩
  memory k hk p hp := by
    rw [howners k hk]
    rw [hnext k hk] at hp
    exact h.memory k (hholds k hk) p hp
  file v hv k hk p hp := by
    rw [howners k hk]
    rcases hfile with rfl | ⟨v', rfl, hv'⟩
    · exact h.file v hv k (hholds k hk) p hp
    · cases hv
      exact h.memory k (hholds k hk) p (hv' k (hholds k hk) p hp)

/-- A change of the store alone that leaves the owners of the held keys. -/
theorem OwnersSound.owners (h : OwnersSound s)
    (howners : ∀ v, s.vault = some (.unlocked v) → ∀ k, Holds v k →
      store.ownerOf k = s.store.ownerOf k) : OwnersSound (s.withStore store) := by
  intro v hv
  exact (h v hv).replace (howners v hv) (fun _ hk => hk) (fun _ _ => rfl) (Or.inl rfl)

theorem nothingNew_erase {key : String} :
    NothingNew vault file (.holds (vault.eraseEntry key)) := by
  refine Or.inr ⟨_, rfl, fun k _ p hp => ?_⟩
  rw [recordedOwner_eraseEntry] at hp
  by_cases hk : key = k
  · rw [if_pos hk] at hp
    cases hp
  · rw [if_neg hk] at hp
    exact hp

theorem nothingNew_claim {key : String} {e : VaultEntry} {claim : Option Claim}
    (hheld : vault.entry key = some e) :
    NothingNew vault file (.holds (vault.insertEntry { e with refreshClaim := claim })) := by
  refine Or.inr ⟨_, rfl, fun k _ p hp => ?_⟩
  rw [recordedOwner_claim hheld] at hp
  exact hp

/-- A claim put on an entry or taken off it, in memory and in the file. -/
theorem OwnersAgree.claim {store' : Store} {key : String} {e : VaultEntry} {claim : Option Claim}
    (h : OwnersAgree store vault file) (hheld : vault.entry key = some e)
    (howners : ∀ k, store'.ownerOf k = store.ownerOf k) :
    OwnersAgree store' (vault.insertEntry { e with refreshClaim := claim })
      (.holds (vault.insertEntry { e with refreshClaim := claim })) :=
  h.replace (fun k _ => howners k) (fun k hk => (holds_claim hheld claim k).mp hk)
    (fun k _ => recordedOwner_claim hheld claim k) (nothingNew_claim hheld)

/-- A commit that fails leaves a file with nothing new in it. -/
theorem OwnersSound.spilled {file : Stored} (h : OwnersSound s)
    (hvault : s.vault = some (.unlocked vault)) (hspilled : Spilled ctx s next file)
    (hnew : NothingNew vault s.file (.holds next)) : OwnersSound { s with file := file } := by
  intro v hv
  have hv' : s.vault = some (.unlocked v) := hv
  rw [hvault] at hv'
  cases hv'
  refine (h vault hvault).replace (fun _ _ => rfl) (fun _ hk => hk) (fun _ _ => rfl) ?_
  rcases hspilled.cases with rfl | rfl
  · exact Or.inl rfl
  · exact hnew

/-- A set keeps the agreement for every key: for the others nothing changes, and
for its own the owner recorded is none, or the one now in force. -/
theorem OwnersAgree.set {r : SetRequest} {plan : SetPlan} (h : OwnersAgree s.store vault s.file)
    (hself : Holds vault r.key → ∀ p, plan.declared = some p → NoOtherOwner s vault r.key p) :
    OwnersAgree (plan.store ctx s r.key) vault s.file where
  stored := h.stored
  memory k hk p hp := by
    have hold := h.memory k hk p hp
    rw [ownerOf_plan]
    by_cases hkey : r.key = k
    · subst hkey
      rw [if_pos rfl]
      cases hdeclared : plan.declared with
      | none => exact hold
      | some q =>
        rw [(hself hk q hdeclared).1 p hp]
        rfl
    · rw [if_neg hkey]
      exact hold
  file v hv k hk p hp := by
    have hold := h.file v hv k hk p hp
    rw [ownerOf_plan]
    by_cases hkey : r.key = k
    · subst hkey
      rw [if_pos rfl]
      cases hdeclared : plan.declared with
      | none => exact hold
      | some q =>
        rw [(hself hk q hdeclared).2 v hv p hp]
        rfl
    · rw [if_neg hkey]
      exact hold

/-- The written value takes the owner in force with it. -/
theorem recorded_written {r : SetRequest} {plan : SetPlan} (h : OwnersAgree s.store vault s.file)
    (hvalid : ValidKey r.key) (k : String) (p : OwnerPrincipal)
    (hp : recordedOwner (writtenVault ctx vault (plan.store ctx s r.key) r.key plan.bytes) k =
      some p) (hk : r.key = k ∨ Holds vault k) :
    (plan.store ctx s r.key).ownerOf k = some p := by
  rw [recordedOwner_writtenVault ctx _ _ k hvalid] at hp
  by_cases hkey : r.key = k
  · rw [if_pos hkey] at hp
    exact hp
  · rw [if_neg hkey] at hp
    rw [ownerOf_plan, if_neg hkey]
    exact h.memory k (hk.resolve_left hkey) p hp

theorem OwnersAgree.written {r : SetRequest} {plan : SetPlan}
    (h : OwnersAgree s.store vault s.file) (hvalid : ValidKey r.key) :
    OwnersAgree (plan.store ctx s r.key)
      (writtenVault ctx vault (plan.store ctx s r.key) r.key plan.bytes)
      (.holds (writtenVault ctx vault (plan.store ctx s r.key) r.key plan.bytes)) := by
  have hmemory : ∀ k, Holds (writtenVault ctx vault (plan.store ctx s r.key) r.key plan.bytes) k →
      ∀ p, recordedOwner (writtenVault ctx vault (plan.store ctx s r.key) r.key plan.bytes) k =
        some p → (plan.store ctx s r.key).ownerOf k = some p := by
    intro k hk p hp
    refine recorded_written h hvalid k p hp ?_
    by_cases hkey : r.key = k
    · exact Or.inl hkey
    · exact Or.inr ((holds_writtenVault hkey).mp hk)
  refine ⟨⟨_, rfl⟩, hmemory, ?_⟩
  intro v hv
  cases hv
  exact hmemory

/-- The owners agree after a set, whatever became of the vault's part of it. -/
theorem ownersAgree_of_accepted {r : SetRequest} {plan : SetPlan} {persist : Bool}
    (h : OwnersAgree s.store vault s.file) (hset : OwnedSet ctx s vault r)
    (haccepts : Accepts ctx s r plan persist)
    (hnot : persist = true → ¬ WritesThrough ctx s r plan vault) :
    OwnersAgree (plan.store ctx s r.key) vault s.file := by
  apply h.set
  intro hk p hp
  rcases hset plan persist p haccepts hp hk with ⟨hpersist, hwrites | hother⟩ | ⟨hmemory, hfile⟩
  · exact absurd hwrites (hnot hpersist)
  · exact hother
  · constructor
    · intro q hq
      rw [hmemory] at hq
      cases hq
      rfl
    · intro v hv q hq
      rw [hfile v hv] at hq
      cases hq
      rfl

/-- A write that failed but landed leaves a file with the owner now in force. -/
theorem OwnersAgree.uncommitted {r : SetRequest} {plan : SetPlan}
    (h : OwnersAgree s.store vault s.file) (hvalid : ValidKey r.key)
    (hafter : OwnersAgree (plan.store ctx s r.key) vault s.file)
    (hfile : Spilled ctx s (writtenVault ctx vault (plan.store ctx s r.key) r.key plan.bytes) file) :
    OwnersAgree (plan.store ctx s r.key) vault file := by
  rcases hfile.cases with rfl | rfl
  · exact hafter
  · refine ⟨⟨_, rfl⟩, hafter.memory, ?_⟩
    intro v hv k hk p hp
    cases hv
    exact recorded_written h hvalid k p hp (Or.inr hk)

end Step

theorem ownerOf_clearOwner (store : Store) (key k : String) :
    (store.clearOwner key store.controlCap).2.ownerOf k =
      if key = k then none else store.ownerOf k := by
  have hslice := congrArg KeySlice.owner
    (clearOwner_slice store key k store.controlCap store.checkCap_controlCap)
  rw [show (store.clearOwner key store.controlCap).2.ownerOf k = _ from hslice]
  split <;> rfl

theorem ownerOf_setRefreshClaim (store : Store) (key k : String) (claim : RefreshClaim) :
    (store.setRefreshClaim key claim store.controlCap).2.ownerOf k = store.ownerOf k :=
  slice_field KeySlice.owner
    (setRefreshClaim_slice store key k _ claim store.checkCap_controlCap) rfl

theorem ownerOf_clearRefreshClaim (store : Store) (key k : String) :
    (store.clearRefreshClaim key store.controlCap).2.ownerOf k = store.ownerOf k :=
  slice_field KeySlice.owner (clearRefreshClaim_slice store key k _ store.checkCap_controlCap) rfl

/-- A removal touches the owner of the key it names only. -/
theorem ownerOf_removed (store : Store) (key k : String) (withDefine : Bool) (hk : key ≠ k) :
    (if withDefine then (store.deleteWithDefinition key store.controlCap).2
      else (store.delete key store.controlCap).2).ownerOf k = store.ownerOf k := by
  have hcap := store.checkCap_controlCap
  cases withDefine with
  | true =>
    have hslice := deleteWithDefinition_slice store key k store.controlCap hcap
    rw [if_neg hk] at hslice
    exact congrArg KeySlice.owner hslice
  | false =>
    have hslice := delete_slice store key k store.controlCap hcap
    rw [if_neg hk] at hslice
    exact congrArg KeySlice.owner hslice

theorem entry_of_unrelated {ctx : HandlerCtx} {s : State} {vault : UnlockedVault} {key : String}
    (hvault : s.vault = some (.unlocked vault)) (h : vaultOwnership ctx s key = .unrelated) :
    ¬ Holds vault key := by
  intro hheld
  unfold vaultOwnership at h
  rw [hvault] at h
  simp only at h
  rw [if_pos (show (vault.entry key).isSome from hheld)] at h
  cases h

/-- Opening a vault puts every owner it records in force. -/
theorem OwnersSound.opened {s : State} {vault : UnlockedVault} {clock : Clock} {wall : ℕ → UInt64}
    (h : OwnersSound s)
    (hvault : s.vault = some (.unlocked vault) ∨ s.vault = some .locked ∧ s.file = .holds vault) :
    OwnersAgree (installVaultEntries s.store s.store.controlCap clock wall vault).2 vault
      s.file where
  stored := by
    rcases hvault with hopen | ⟨-, hfile⟩
    · exact (h vault hopen).stored
    · exact ⟨vault, hfile⟩
  memory k _ p hp := by
    rw [ownerOf_install, hp]
    rfl
  file v hv k hk p hp := by
    rcases hvault with hopen | ⟨-, hfile⟩
    · have hold := (h vault hopen).file v hv k hk p hp
      rw [ownerOf_install, hold]
      cases hrecorded : recordedOwner vault k with
      | none => rfl
      | some q =>
        have hq := (h vault hopen).memory k hk q hrecorded
        rw [hold] at hq
        exact hq.symm
    · rw [hfile] at hv
      cases hv
      rw [ownerOf_install, hp]
      rfl

/-- What one request preserves. -/
theorem ownersSound_effect {ctx : HandlerCtx} {s s' : State} {req : Request} {resp : Response}
    (h : OwnersSound s) (hkept : OwnerKept ctx s req) (heffect : Effect ctx s req resp s') :
    OwnersSound s' := by
  cases heffect with
  | refused | pong | stayedClosed => exact h
  | cached r plan owner haccepts =>
    intro vault hvault
    exact ownersAgree_of_accepted (h vault hvault) (hkept vault hvault) haccepts (by simp)
  | persisted r plan owner vault haccepts hvault =>
    intro v hv
    cases hv
    exact (h vault hvault).written haccepts.valid
  | unwritable r plan err haccepts he =>
    intro vault hvault
    refine ownersAgree_of_accepted (h vault hvault) (hkept vault hvault) haccepts
      fun _ hwrites => ?_
    obtain ⟨e, hentry⟩ := hwrites.entry
    exact he e hentry
  | fenced r plan err vault existing cause haccepts hvault hheld hcheck =>
    intro v hv
    refine ownersAgree_of_accepted (h v hv) (hkept v hv) haccepts fun _ hwrites => ?_
    have hv' : s.vault = some (.unlocked v) := hv
    rw [hvault] at hv'
    cases hv'
    rw [hwrites.allowed existing hheld] at hcheck
    cases hcheck
  | uncommitted r plan err vault file haccepts hvault hcommit hfile =>
    intro v hv
    have hv' : s.vault = some (.unlocked v) := hv
    rw [hvault] at hv'
    cases hv'
    refine (h vault hvault).uncommitted haccepts.valid ?_ hfile
    exact ownersAgree_of_accepted (h vault hvault) (hkept vault hvault) haccepts
      fun _ hwrites => hcommit hwrites.commit
  | created vault code hempty =>
    intro v hv
    cases hv
    have hnone : ∀ k, ¬ Holds vault k := by
      intro k hk
      simp [Holds, UnlockedVault.entry, hempty] at hk
    exact ⟨⟨_, rfl⟩, fun k hk => absurd hk (hnone k), fun _ _ k hk => absurd hk (hnone k)⟩
  | uncreated e file hstate =>
    intro v hv
    have hv' : s.vault = some (.unlocked v) := hv
    rw [hstate] at hv'
    cases hv'
  | opened code vault hvault =>
    intro v hv
    cases hv
    exact h.opened hvault
  | closed vault state hvault hstate =>
    intro v hv
    rcases hstate with ⟨rfl, -⟩ | ⟨rfl, -⟩ <;> cases hv
  | deleted key withDefine removed hunrelated =>
    refine h.owners fun v hv k hk => ownerOf_removed _ _ _ _ ?_
    intro hkey
    subst hkey
    exact entry_of_unrelated hv hunrelated hk
  | deletedHeld key withDefine vault hvault hheld =>
    intro v hv
    cases hv
    refine (h vault hvault).replace (fun k hk => ?_) (fun k hk => (holds_eraseEntry hk).2)
      (fun k hk => ?_) nothingNew_erase
    · exact ownerOf_removed s.store key k true (holds_eraseEntry hk).1
    · rw [recordedOwner_eraseEntry, if_neg (holds_eraseEntry hk).1]
  | undeleted key withDefine e vault file hvault hheld hcommit hfile =>
    exact h.spilled hvault hfile nothingNew_erase
  | claimed key expected secs hheld hversion hidle =>
    exact h.owners fun _ _ k _ => ownerOf_setRefreshClaim s.store key k _
  | claimedHeld key expected secs vault e hvault hheld hgranted =>
    intro v hv
    cases hv
    exact (h vault hvault).claim hheld fun k => ownerOf_setRefreshClaim s.store key k _
  | unclaimed key expected secs err vault e file hvault hheld hcommit hfile =>
    exact h.spilled hvault hfile (nothingNew_claim hheld)
  | released key token hheld hfence =>
    exact h.owners fun _ _ k _ => ownerOf_clearRefreshClaim s.store key k
  | releasedHeld key token vault next e file hvault hheld hfence hnext =>
    intro v hv
    cases hv
    rcases hnext with ⟨-, rfl, rfl⟩ | ⟨rfl, rfl⟩
    · exact (h next hvault).replace (fun k _ => ownerOf_clearRefreshClaim s.store key k)
        (fun _ hk => hk) (fun _ _ => rfl) (Or.inl rfl)
    · exact (h vault hvault).claim hheld fun k => ownerOf_clearRefreshClaim s.store key k
  | unreleased key token err vault e file hvault hheld hcommit hfile =>
    exact h.spilled hvault hfile (nothingNew_claim hheld)
  | defined key source soft hard valueMeta ttl hdefine =>
    refine h.owners fun _ _ k _ => ?_
    obtain ⟨definitions, hafter, -⟩ := defineWithMeta_eq s.store key source.lower ttl
      (metaFromWire valueMeta) source.toSourceMeta
    rw [hafter]
    rfl
  | read key dryRun resp store log hreads | pinned key secs resp store log hreads
  | unpinned key resp store hreads =>
    have howners : ∀ k, store.ownerOf k = s.store.ownerOf k := by
      intro k
      rw [ownerOf, ownerOf, (reads_kept hreads).owners]
    exact h.owners fun _ _ k _ => howners k
  | ownerCleared key hgate howner =>
    intro vault hvault
    have hclear := hkept vault hvault hgate howner
    refine ⟨(h vault hvault).stored, fun k hk p hp => ?_, fun v hv k hk p hp => ?_⟩
    · show (s.store.clearOwner key s.store.controlCap).2.ownerOf k = some p
      rw [ownerOf_clearOwner]
      by_cases hkey : key = k
      · subst hkey
        rw [(hclear hk).1] at hp
        cases hp
      · rw [if_neg hkey]
        exact (h vault hvault).memory k hk p hp
    · show (s.store.clearOwner key s.store.controlCap).2.ownerOf k = some p
      rw [ownerOf_clearOwner]
      by_cases hkey : key = k
      · subst hkey
        rw [(hclear hk).2 v hv] at hp
        cases hp
      · rw [if_neg hkey]
        exact (h vault hvault).file v hv k hk p hp

section Runs

def OwnerStep (s : State) (event : Served) : Prop := OwnerKept (s.context event.1) s event.2

theorem ownersSound_serve (s : State) (event : Served) (h : OwnersSound s)
    (hstep : OwnerStep s event) : OwnersSound (s.serve event) := by
  obtain ⟨s', heffect, hserve⟩ := s.serve_effect event
  have hafter := ownersSound_effect h hstep heffect
  rw [hserve]
  exact hafter

/-- Closing the vault and opening it again leaves the owner of every key it
holds. -/
def OwnerSurvives (s : State) : Prop :=
  ∀ vault, s.vault = some (.unlocked vault) →
    ∀ lockCtx unlockCtx s₂ s₃ code n,
      handleRequest lockCtx s .vaultLock = (.ok .vaultLocked, s₂) →
      handleRequest unlockCtx s₂ (.vaultUnlock (some (some code))) = (.ok (.vaultUnlocked n), s₃) →
      ∀ k, Holds vault k → s₃.store.ownerOf k = s.store.ownerOf k

/-- The owner in force is the one the vault's file records. -/
def OwnerDurable (s : State) (k : String) : Prop :=
  ∃ v, s.file = .holds v ∧ recordedOwner v k = s.store.ownerOf k

/-- A change of owner that is acknowledged, for a key the open vault holds, is in
its file. -/
def OwnerChangeDurable (s : State) (event : Served) : Prop :=
  ∀ vault payload, (s.serve event).vault = some (.unlocked vault) →
    s.reply event = .ok payload →
    match event.2 with
    | .kvSet r => r.signedBy.isSome → Holds vault r.key → OwnerDurable (s.serve event) r.key
    | .kvOwnerClear key => Holds vault key → OwnerDurable (s.serve event) key
    | _ => True

theorem ownerSurvives_of_sound {s : State} (h : OwnersSound s) : OwnerSurvives s := by
  intro vault hvault lockCtx unlockCtx s₂ s₃ code n hlock hunlock k hk
  obtain ⟨hstored, -, hfileOwner⟩ := h vault hvault
  obtain ⟨v, hfile⟩ := hstored
  rw [lock_unlock hvault hfile hlock hunlock, ownerOf_install, ownerOf_deleteAll]
  cases hrecorded : recordedOwner v k with
  | none => rfl
  | some p => exact (hfileOwner v hfile k hk p hrecorded).symm

/-- A set that is accepted with a signer declares its owner. -/
theorem declared_of_signedBy {ctx : HandlerCtx} {s : State} {r : SetRequest}
    {declared : Option OwnerPrincipal} {persist : Bool}
    (h : gateSet ctx s r = .ok (declared, persist)) (hsigned : r.signedBy.isSome) :
    ∃ p, declared = some p := by
  have hparsed := (gated_of_gateSet ctx s h).signed
  obtain ⟨decl, hdecl⟩ := Option.isSome_iff_exists.mp hsigned
  rw [hdecl] at hparsed
  cases declared with
  | none => cases hparsed
  | some p => exact ⟨p, rfl⟩

theorem ownerOf_plan_declared {ctx : HandlerCtx} {s : State} {plan : SetPlan} {key : String}
    {p : OwnerPrincipal} (h : plan.declared = some p) :
    (plan.store ctx s key).ownerOf key = some p := by
  rw [ownerOf_plan, if_pos rfl, h]
  rfl

theorem ownerChangeDurable_of_step (s : State) (event : Served) (h : OwnersSound s)
    (hstep : OwnerStep s event) : OwnerChangeDurable s event := by
  intro vault payload hvault hack
  obtain ⟨s', heffect, hserve⟩ := s.serve_effect event
  rw [hack] at heffect
  rw [hserve] at hvault ⊢
  unfold OwnerStep at hstep
  generalize event.2 = req at *
  generalize s.context event.1 = ctx at *
  cases heffect with
  | cached r plan owner haccepts =>
    intro hsigned hk
    obtain ⟨p, hp⟩ := declared_of_signedBy haccepts.gate hsigned
    obtain ⟨v, hv⟩ := (h vault hvault).stored
    rcases hstep vault hvault plan false p haccepts hp hk with ⟨hfalse, -⟩ | ⟨-, hfile⟩
    · cases hfalse
    · refine ⟨v, hv, ?_⟩
      rw [hfile v hv]
      exact (ownerOf_plan_declared hp).symm
  | persisted r plan owner open' haccepts hopen =>
    intro hsigned hk
    refine ⟨_, rfl, ?_⟩
    rw [recordedOwner_writtenVault ctx _ _ _ haccepts.valid, if_pos rfl]
    rfl
  | ownerCleared key hgate howner =>
    intro hk
    obtain ⟨v, hv⟩ := (h vault hvault).stored
    refine ⟨v, hv, ?_⟩
    rw [(hstep vault hvault hgate howner hk).2 v hv]
    show none = (s.store.clearOwner key s.store.controlCap).2.ownerOf key
    rw [ownerOf_clearOwner, if_pos rfl]
  | _ => trivial

/-- In every run whose requests change recorded owners only through the vault,
the owners survive closing and opening it, and every acknowledged change is
durable. -/
theorem owners_survive (s : State) (hclosed : s.openVault = none) (events : List Served)
    (h : Along State.serve OwnerStep s events) :
    OwnerSurvives (run State.serve s events) ∧ Along State.serve OwnerChangeDurable s events := by
  have hsound : OwnersSound s := by
    intro vault hvault
    have hopen := openVault_of_unlocked _ hvault
    rw [hclosed] at hopen
    cases hopen
  constructor
  · exact ownerSurvives_of_sound (run_invariant State.serve ownersSound_serve s events h hsound)
  · exact along_of_invariant State.serve ownersSound_serve ownerChangeDurable_of_step s events h
      hsound

/-- A daemon whose vault is closed, with nothing in it. -/
def closedPlain : State := State.starting (some .locked) (.holds Bench.plainVault)

def plainSigner : SignedByWire := ⟨"apple-generic", "TEAM123456", "com.example.tool"⟩

def setOwned : SetRequest := { setPlain none with signedBy := some plainSigner }

def unlockPlain : Served := (.quiet, .vaultUnlock (some (some plainCode)))

/-- An owner declared by a persisted set. -/
def ownedRun : List Served := [unlockPlain, (.quiet, .kvSet setOwned)]

def setHandedOn : SetRequest :=
  { setPlain none with
    guardConstraints := []
    signedBy := some ⟨"apple-generic", "TEAM654321", "com.example.other"⟩ }

/-- A key the vault holds gets its owner, and then another. -/
def handedOnRun : List Served :=
  [unlockPlain, (.quiet, .kvSet (setPlain none)), (.quiet, .kvSet setOwned),
    (.quiet, .kvSet setHandedOn)]

def ownedAfter (n : ℕ) : State := run State.serve closedPlain (handedOnRun.take n)

/-- Nobody owns the key the vault holds before the second set. -/
theorem handedOn_declared : OwnerStep (ownedAfter 2) (.quiet, .kvSet setOwned) := by
  intro vault hvault plan persist p haccepts _ _
  obtain ⟨unowned, hopen, hfile, hnone⟩ : ∃ unowned, (ownedAfter 2).vault =
      some (.unlocked unowned) ∧ (ownedAfter 2).file = .holds unowned ∧
        recordedOwner unowned setOwned.key = none := ⟨_, rfl, rfl, by decide⟩
  rw [hvault] at hopen
  cases hopen
  refine Or.inl ⟨(gated_of_gateSet _ _ haccepts.gate).chosen, Or.inr ⟨?_, ?_⟩⟩
  · intro q hq
    rw [hnone] at hq
    cases hq
  · intro v hv q hq
    rw [hfile] at hv
    cases hv
    rw [hnone] at hq
    cases hq

/-- The third set goes through. -/
theorem handedOn_replaced : OwnerStep (ownedAfter 3) (.quiet, .kvSet setHandedOn) := by
  intro vault hvault plan persist p haccepts _ _
  have hchosen := (gated_of_gateSet _ _ haccepts.gate).chosen
  have hplanned : Except.ok none = Except.ok plan.guard := haccepts.guard
  have hguard : (plan.store ((ownedAfter 3).context .quiet) (ownedAfter 3)
      setHandedOn.key).guardOf setHandedOn.key = plan.guard :=
    (congrArg KeySlice.guard (acceptedStore_slice _ _ _ _ _ _ _ _)).trans (by rw [if_pos rfl])
  rw [← Except.ok.inj hplanned] at hguard
  refine Or.inl ⟨hchosen, Or.inl
    ⟨⟨_, persistedEntry_unguarded _ plan.bytes hguard⟩, ?_, rfl⟩⟩
  obtain ⟨owned, hopen, hunclaimed⟩ : ∃ owned, (ownedAfter 3).vault = some (.unlocked owned) ∧
      (owned.entry setHandedOn.key).map (checkClaim · none 0) = some (.ok ()) :=
    ⟨_, rfl, by decide⟩
  rw [hvault] at hopen
  cases hopen
  obtain ⟨existing, hexisting, hcheck⟩ := Option.map_eq_some_iff.mp hunclaimed
  exact UnlockedVault.writeAllowed_of_check hexisting hcheck

theorem owners_survive_handed_on :
    OwnerSurvives (ownedAfter 4) ∧ Along State.serve OwnerChangeDurable closedPlain handedOnRun ∧
      (ownedAfter 4).store.ownerOf "ns/k" =
        some ⟨.appleGeneric, "TEAM654321", "com.example.other"⟩ := by
  have hsets : Along State.serve OwnerStep closedPlain handedOnRun := by
    refine ⟨fun _ _ => trivial, ?_, handedOn_declared, handedOn_replaced, trivial⟩
    intro vault hvault plan persist p haccepts hdeclared _
    have hparsed := (gated_of_gateSet _ _ haccepts.gate).signed
    rw [hdeclared] at hparsed
    cases hparsed
  obtain ⟨hsurvives, hdurable⟩ := owners_survive closedPlain rfl handedOnRun hsets
  exact ⟨hsurvives, hdurable, by decide⟩

/-- The same, with the owner cleared while the vault is open. -/
def clearedRun : List Served := ownedRun ++ [(.quiet, .kvOwnerClear "ns/k")]

def clearedLocked : State := (handleRequest .quiet (run State.serve closedPlain clearedRun) .vaultLock).2

/-- An owner whose clearing was acknowledged is back after the vault has been
closed and opened. -/
theorem cleared_owner_returns :
    closedPlain.openVault = none ∧
      (run State.serve closedPlain ownedRun).reply (.quiet, .kvOwnerClear "ns/k") =
        .ok .ownerCleared ∧
      ¬ OwnerSurvives (run State.serve closedPlain clearedRun) := by
  refine ⟨rfl, by decide, ?_⟩
  intro h
  have hheld : ((run State.serve closedPlain clearedRun).openVault.bind
      fun vault => vault.entry "ns/k").isSome := by decide
  cases hopen : (run State.serve closedPlain clearedRun).openVault with
  | none =>
    rw [hopen] at hheld
    cases hheld
  | some vault =>
    rw [hopen] at hheld
    have hsame := h vault (unlocked_of_openVault _ hopen) .quiet .quiet clearedLocked _ plainCode 1
      (Prod.ext (by decide) rfl) (Prod.ext (by decide) rfl) "ns/k" hheld
    exact absurd hsame (by decide)

end Runs

end Daemon

end CacheWarden
