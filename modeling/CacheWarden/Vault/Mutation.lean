import CacheWarden.Vault.Unlock

/-!
# The mutations of an open vault, one spec for all

A mutation is refused, finds nothing to do, or makes exactly one commit of the
state it intends. `Intended` says which slots, credentials and entries that
state has.
-/

set_option autoImplicit false

namespace CacheWarden

namespace Vault

inductive Mutation where
  | upsert (e : VaultEntry) (token : Option ClaimToken)
  | upsertCas (e : VaultEntry) (expectedVersion : UInt64) (token : Option ClaimToken)
  | claimRefresh (key : String) (expectedVersion : UInt64) (ttl : Duration) (mint : ClaimToken)
  | releaseClaim (key : String) (token : ClaimToken)
  | delete (key : String)
  | addRecoverySlot (draws : SlotDraws) (code salt : Key) (label : String)
  | addPasskeySlot (draws : SlotDraws) (prfOutput : Bytes) (salt : Key) (rpId : String)
      (credentialId credentialPublicKey : Bytes) (label : String)
  | removeSlot (draws : RotationDraws) (id : SlotId)
  | rotateDek (draws : RotationDraws)

/-- What a slot shows of itself in the header, its keys and wraps apart. -/
structure SlotShape where
  id : SlotId
  kind : SlotKind
  rpId : String
  credentialId : Bytes
  label : String
  credentialPublicKey : Bytes
  deriving DecidableEq

def Slot.shape (s : Slot) : SlotShape :=
  ⟨s.id, s.kind, s.rpId, s.credentialId, s.label, s.credentialPublicKey⟩

/-- A result whose value does not matter. -/
def discard {α β : Type} (r : Except VaultError α × β) : Except VaultError Unit × β :=
  (r.1.map fun _ => (), r.2)

namespace Mutation

/-- Run the mutation, reading the clock as `t` and then as `u`. -/
def apply {W : Type} (c : Crypto) (commit : Commit W) (t u : UInt64) (self : UnlockedVault)
    (w : W) : Mutation → Except VaultError Unit × UnlockedVault × W
  | .upsert e token => discard (self.upsert commit t u e token w)
  | .upsertCas e expected token => discard (self.upsertCas commit t u e expected token w)
  | .claimRefresh key expected ttl mint =>
    discard (self.claimRefresh commit t mint key expected ttl w)
  | .releaseClaim key token => self.releaseClaim commit t key token w
  | .delete key => discard (self.delete commit key w)
  | .addRecoverySlot draws code salt label =>
    discard (self.addRecoverySlot c commit draws code salt label w)
  | .addPasskeySlot draws prfOutput salt rpId credentialId credentialPublicKey label =>
    discard (self.addPasskeySlot c commit draws prfOutput salt rpId credentialId
      credentialPublicKey label w)
  | .removeSlot draws id => self.removeSlot c commit draws id w
  | .rotateDek draws => self.rotateDek c commit draws w

/-- The credentials of the slots once the mutation has succeeded. -/
def credentialsAfter (self : UnlockedVault) (credentials : List Bytes) : Mutation → List Bytes
  | .addRecoverySlot _ code _ _ => credentials ++ [code.1]
  | .addPasskeySlot _ prfOutput _ _ _ _ _ => credentials ++ [prfOutput]
  | .removeSlot _ id =>
    match self.slots.findIdx? (·.id = id) with
    | none => credentials
    | some index => credentials.eraseIdx index
  | _ => credentials

/-- The slots once the mutation has succeeded. -/
def shapesAfter (self : UnlockedVault) : Mutation → List SlotShape
  | .addRecoverySlot draws _ _ label =>
    self.slots.map Slot.shape ++ [⟨draws.slotId, .recovery, "", [], label, []⟩]
  | .addPasskeySlot draws _ _ rpId credentialId credentialPublicKey label =>
    self.slots.map Slot.shape ++
      [⟨draws.slotId, .passkeyPrf, rpId, credentialId, label, credentialPublicKey⟩]
  | .removeSlot _ id =>
    match self.slots.findIdx? (·.id = id) with
    | none => self.slots.map Slot.shape
    | some index => (self.slots.map Slot.shape).eraseIdx index
  | _ => self.slots.map Slot.shape

/-- The entries once the mutation has succeeded. -/
def entriesAfter (u t : UInt64) (self : UnlockedVault) : Mutation → KeyMap VaultEntry
  | .upsert e _ =>
    self.entries.insert e.key
      (UnlockedVault.written e (Word64.saturatingAdd (self.casOf e.key) 1) u)
  | .upsertCas e expected _ =>
    self.entries.insert e.key (UnlockedVault.written e (expected + 1) u)
  | .claimRefresh key _ ttl mint =>
    match self.entry key with
    | none => self.entries
    | some e => self.entries.insert e.key
        { e with refreshClaim := some (UnlockedVault.grantedClaim mint t ttl) }
  | .releaseClaim key _ =>
    match self.entry key with
    | none => self.entries
    | some e =>
      if e.refreshClaim = none then self.entries
      else self.entries.insert e.key { e with refreshClaim := none }
  | .delete key =>
    match self.entry key with
    | none => self.entries
    | some _ => self.entries.erase key
  | _ => self.entries

end Mutation

/-- How one attempt ends, `P` being what its success would establish: refused
before any commit, content with the vault as it is, or with one commit made. -/
inductive Attempted {W α : Type} (commit : Commit W) (P : UnlockedVault → Prop)
    (self : UnlockedVault) (w : W) : Except VaultError α × UnlockedVault × W → Prop
  | refused (e : VaultError) : Attempted commit P self w (.error e, self, w)
  | settled (a : α) (h : P self) : Attempted commit P self w (.ok a, self, w)
  | landed (a : α) (next : UnlockedVault) (h : P next) (hok : (commit next w).1 = .ok ()) :
      Attempted commit P self w (.ok a, next, (commit next w).2)
  | failed (e : VaultError) (next : UnlockedVault) (h : P next)
      (herr : (commit next w).1 = .error e) :
      Attempted commit P self w (.error e, self, (commit next w).2)

section Attempts

variable {W α : Type} {commit : Commit W} {P : UnlockedVault → Prop} {self : UnlockedVault} {w : W}

theorem commitThen_attempted {next : UnlockedVault} (h : P next) (a : α) :
    Attempted commit P self w (UnlockedVault.commitThen commit self next a w) := by
  rcases UnlockedVault.commitThen_cases commit self next a w with ⟨hok, heq⟩ | ⟨e, herr, heq⟩
  · rw [heq]
    exact .landed a next h hok
  · rw [heq]
    exact .failed e next h herr

theorem attempted_discard {r : Except VaultError α × UnlockedVault × W}
    (h : Attempted commit P self w r) : Attempted commit P self w (discard r) := by
  cases h with
  | refused e => exact .refused e
  | settled a h => exact .settled () h
  | landed a next h hok => exact .landed () next h hok
  | failed e next h herr => exact .failed e next h herr

theorem Attempted.mono {Q : UnlockedVault → Prop} {r : Except VaultError α × UnlockedVault × W}
    (h : Attempted commit P self w r) (hweaker : ∀ v, P v → Q v) :
    Attempted commit Q self w r := by
  cases h with
  | refused e => exact .refused e
  | settled a h => exact .settled a (hweaker _ h)
  | landed a next h hok => exact .landed a next (hweaker _ h) hok
  | failed e next h herr => exact .failed e next (hweaker _ h) herr

end Attempts

/-- What a mutation that succeeds leaves. -/
structure Intended (c : Crypto) (m : Mutation) (t u : UInt64) (v : UnlockedVault)
    (credentials : List Bytes) (next : UnlockedVault) : Prop where
  wrapped : next.Wrapped c (m.credentialsAfter v credentials)
  shapes : next.slots.map Slot.shape = m.shapesAfter v
  entries : next.entries = m.entriesAfter u t v
  formatVersion : next.formatVersion = v.formatVersion
  nonempty : v.slots ≠ [] → next.slots ≠ []

section Intentions

variable {W : Type} {c : Crypto} {commit : Commit W} {t u : UInt64} {self : UnlockedVault}
  {credentials : List Bytes}

/-- A mutation of the entries alone. -/
theorem intended_entries {m : Mutation} {next : UnlockedVault}
    (h : self.Wrapped c credentials) (hcredentials : m.credentialsAfter self credentials = credentials)
    (hshapes : m.shapesAfter self = self.slots.map Slot.shape)
    (hnext : next = { self with entries := next.entries, keyed := next.keyed })
    (hentries : next.entries = m.entriesAfter u t self) :
    Intended c m t u self credentials next := by
  refine ⟨?_, ?_, hentries, ?_, ?_⟩
  · rw [hcredentials, hnext]
    exact h
  · rw [hshapes, hnext]
  · rw [hnext]
  · rw [hnext]
    exact id

theorem upsert_attempted (h : self.Wrapped c credentials) (e : VaultEntry)
    (token : Option ClaimToken) (w : W) :
    Attempted commit (Intended c (.upsert e token) t u self credentials) self w
      (self.upsert commit t u e token w) := by
  have hnext : Intended c (.upsert e token) t u self credentials (self.insertEntry
      (UnlockedVault.written e (Word64.saturatingAdd (self.casOf e.key) 1) u)) :=
    intended_entries h rfl rfl rfl rfl
  unfold UnlockedVault.upsert
  simp only
  split
  · exact commitThen_attempted hnext _
  · split
    · exact .refused _
    · exact commitThen_attempted hnext _

theorem upsertCas_attempted (h : self.Wrapped c credentials) (e : VaultEntry)
    (expected : UInt64) (token : Option ClaimToken) (w : W) :
    Attempted commit (Intended c (.upsertCas e expected token) t u self credentials) self w
      (self.upsertCas commit t u e expected token w) := by
  unfold UnlockedVault.upsertCas
  simp only
  split
  · exact .refused _
  rename_i hversion
  rw [ne_eq, Decidable.not_not] at hversion
  subst hversion
  have hnext : Intended c (.upsertCas e (self.casOf e.key) token) t u self credentials
      (self.insertEntry (UnlockedVault.written e (self.casOf e.key + 1) u)) :=
    intended_entries h rfl rfl rfl rfl
  split
  · exact commitThen_attempted hnext _
  · split
    · exact .refused _
    · exact commitThen_attempted hnext _

theorem claimRefresh_attempted (h : self.Wrapped c credentials) (key : String) (expected : UInt64)
    (ttl : Duration) (mint : ClaimToken) (w : W) :
    Attempted commit (Intended c (.claimRefresh key expected ttl mint) t u self credentials) self w
      (self.claimRefresh commit t mint key expected ttl w) := by
  unfold UnlockedVault.claimRefresh
  split
  · exact .refused _
  rename_i e he
  split
  · exact .refused _
  split
  · exact .refused _
  · refine commitThen_attempted (intended_entries h rfl rfl rfl ?_) _
    simp only [Mutation.entriesAfter, he]
    rfl

theorem releaseClaim_attempted (h : self.Wrapped c credentials) (key : String) (token : ClaimToken)
    (w : W) :
    Attempted commit (Intended c (.releaseClaim key token) t u self credentials) self w
      (self.releaseClaim commit t key token w) := by
  have hclear : ∀ e, self.entry key = some e → e.refreshClaim ≠ none →
      Intended c (.releaseClaim key token) t u self credentials
        (self.insertEntry { e with refreshClaim := none }) := by
    intro e he hclaim
    refine intended_entries h rfl rfl rfl ?_
    simp only [Mutation.entriesAfter, he, if_neg hclaim]
    rfl
  unfold UnlockedVault.releaseClaim
  split
  · exact .refused _
  rename_i e he
  split
  · split
    · rename_i hnone
      refine .settled () (intended_entries h rfl rfl rfl ?_)
      rw [Option.isNone_iff_eq_none] at hnone
      simp only [Mutation.entriesAfter, he, if_pos hnone]
    · rename_i hsome
      exact commitThen_attempted (hclear e he (by simpa using hsome)) _
  · rename_i active hactive
    split
    · refine commitThen_attempted (hclear e he ?_) _
      intro hnone
      simp [VaultEntry.activeClaim, hnone] at hactive
    · exact .refused _

theorem delete_attempted (h : self.Wrapped c credentials) (key : String) (w : W) :
    Attempted commit (Intended c (.delete key) t u self credentials) self w
      (self.delete commit key w) := by
  unfold UnlockedVault.delete
  split
  · rename_i hnone
    refine .settled false (intended_entries h rfl rfl rfl ?_)
    rw [Option.isNone_iff_eq_none] at hnone
    simp only [Mutation.entriesAfter, hnone]
  · rename_i hsome
    refine commitThen_attempted (intended_entries h rfl rfl rfl ?_) _
    rw [Option.isNone_iff_eq_none] at hsome
    obtain ⟨e, he⟩ := Option.ne_none_iff_exists'.mp hsome
    simp only [Mutation.entriesAfter, he]
    rfl

theorem addSlot_attempted {m : Mutation} {slot : Slot} {secret : Bytes} (w : W)
    (h : self.Wrapped c credentials)
    (hslot : slot.Holds c self.vaultId self.formatVersion self.dek secret)
    (hcredentials : m.credentialsAfter self credentials = credentials ++ [secret])
    (hshapes : m.shapesAfter self = self.slots.map Slot.shape ++ [slot.shape])
    (hentries : m.entriesAfter u t self = self.entries) :
    Attempted commit (Intended c m t u self credentials) self w
      (self.addSlot commit slot w) := by
  refine commitThen_attempted ⟨?_, ?_, hentries.symm, rfl, fun _ => by simp⟩ _
  · rw [hcredentials]
    exact List.rel_append h (.cons hslot .nil)
  · rw [hshapes, List.map_append]
    rfl

theorem map_shape_of_same {slots slots' : List Slot} (h : List.Forall₂ SameButWrap slots slots') :
    slots'.map Slot.shape = slots.map Slot.shape := by
  induction h with
  | nil => rfl
  | cons hslot _ ih =>
    obtain ⟨wrapped, rfl⟩ := hslot
    rw [List.map_cons, List.map_cons, ih]
    rfl

theorem forall₂_eraseIdx {α β : Type} {R : α → β → Prop} {as : List α} {bs : List β}
    (h : List.Forall₂ R as bs) (i : ℕ) : List.Forall₂ R (as.eraseIdx i) (bs.eraseIdx i) := by
  induction h generalizing i with
  | nil => exact .nil
  | cons hab hrest ih =>
    cases i with
    | zero => exact hrest
    | succ i => exact .cons hab (ih i)

variable (hc : c.Ideal)

include hc

theorem addRecoverySlot_attempted (h : self.Wrapped c credentials) (draws : SlotDraws)
    (code salt : Key) (label : String) (w : W) :
    Attempted commit (Intended c (.addRecoverySlot draws code salt label) t u self credentials)
      self w (self.addRecoverySlot c commit draws code salt label w) := by
  obtain ⟨slot, hbuild, hholds, hid, hkind, hrp, hcred, hlabel, hpub⟩ :=
    buildSlot_ok hc draws .recovery self.dek self.vaultId self.formatVersion code.1 salt "" [] []
      label
  unfold UnlockedVault.addRecoverySlot
  rw [hbuild]
  refine addSlot_attempted w h hholds rfl ?_ rfl
  simp [Mutation.shapesAfter, Slot.shape, hid, hkind, hrp, hcred, hlabel, hpub]

theorem addPasskeySlot_attempted (h : self.Wrapped c credentials) (draws : SlotDraws)
    (prfOutput : Bytes) (salt : Key) (rpId : String) (credentialId credentialPublicKey : Bytes)
    (label : String) (w : W) :
    Attempted commit (Intended c (.addPasskeySlot draws prfOutput salt rpId credentialId
        credentialPublicKey label) t u self credentials) self w
      (self.addPasskeySlot c commit draws prfOutput salt rpId credentialId credentialPublicKey label
        w) := by
  obtain ⟨slot, hbuild, hholds, hid, hkind, hrp, hcred, hlabel, hpub⟩ :=
    buildSlot_ok hc draws .passkeyPrf self.dek self.vaultId self.formatVersion prfOutput salt rpId
      credentialId credentialPublicKey label
  unfold UnlockedVault.addPasskeySlot
  split
  · exact .refused _
  rw [hbuild]
  refine addSlot_attempted w h hholds rfl ?_ rfl
  simp [Mutation.shapesAfter, Slot.shape, hid, hkind, hrp, hcred, hlabel, hpub]

theorem rotateOnto_attempted {m : Mutation} {slots : List Slot} {credentials' : List Bytes}
    (draws : RotationDraws) (w : W)
    (h : List.Forall₂ (Slot.Holds c self.vaultId self.formatVersion self.dek) slots credentials')
    (hcredentials : m.credentialsAfter self credentials = credentials')
    (hshapes : m.shapesAfter self = slots.map Slot.shape)
    (hnonempty : self.slots ≠ [] → slots ≠ [])
    (hentries : m.entriesAfter u t self = self.entries) :
    Attempted commit (Intended c m t u self credentials) self w
      (self.rotateOnto c commit draws slots w) := by
  obtain ⟨slots', hrewrap, hholds, hsame⟩ := rewrap_ok hc draws h 0
  unfold UnlockedVault.rotateOnto
  rw [hrewrap]
  refine commitThen_attempted ⟨?_, ?_, hentries.symm, rfl, ?_⟩ _
  · rw [hcredentials]
    exact hholds
  · rw [hshapes]
    exact map_shape_of_same hsame
  · intro hself hnil
    have hempty : slots' = [] := hnil
    have hlength := hsame.length_eq
    rw [hempty, List.length_nil, List.length_eq_zero_iff] at hlength
    exact hnonempty hself hlength

theorem removeSlot_attempted (h : self.Wrapped c credentials) (draws : RotationDraws) (id : SlotId)
    (w : W) :
    Attempted commit (Intended c (.removeSlot draws id) t u self credentials) self w
      (self.removeSlot c commit draws id w) := by
  unfold UnlockedVault.removeSlot
  split
  · exact .refused _
  rename_i index hindex
  split
  · exact .refused _
  rename_i hmany
  refine rotateOnto_attempted hc draws w (forall₂_eraseIdx h index) ?_ ?_ ?_ rfl
  · simp only [Mutation.credentialsAfter, hindex]
  · simp only [Mutation.shapesAfter, hindex]
    exact List.eraseIdx_map ..
  · intro hself hnil
    have hlength := List.length_pos_iff.mpr hself
    have herased := congrArg List.length hnil
    rw [List.length_eraseIdx, List.length_nil] at herased
    split at herased <;> omega

/-- Every mutation, on a vault whose slots are wrapped, ends in one of the four
ways with its own intention. -/
theorem apply_attempted (h : self.Wrapped c credentials) (m : Mutation) (w : W) :
    Attempted commit (Intended c m t u self credentials) self w
      (m.apply c commit t u self w) := by
  cases m with
  | upsert e token => exact attempted_discard (upsert_attempted h e token w)
  | upsertCas e expected token =>
    exact attempted_discard (upsertCas_attempted h e expected token w)
  | claimRefresh key expected ttl mint =>
    exact attempted_discard (claimRefresh_attempted h key expected ttl mint w)
  | releaseClaim key token => exact releaseClaim_attempted h key token w
  | delete key => exact attempted_discard (delete_attempted h key w)
  | addRecoverySlot draws code salt label =>
    exact attempted_discard (addRecoverySlot_attempted hc h draws code salt label w)
  | addPasskeySlot draws prfOutput salt rpId credentialId credentialPublicKey label =>
    exact attempted_discard (addPasskeySlot_attempted hc h draws prfOutput salt rpId credentialId
      credentialPublicKey label w)
  | removeSlot draws id => exact removeSlot_attempted hc h draws id w
  | rotateDek draws => exact rotateOnto_attempted hc draws w h rfl rfl id rfl

end Intentions

end Vault

end CacheWarden
