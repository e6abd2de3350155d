import CacheWarden.Daemon.Ceremony
import CacheWarden.Lib.Transition
import Mathlib.Logic.Function.Basic

/-!
# Registering a passkey

`vault add-passkey` arms a window, and a page that begins while it is open is
given its salt. The page derives a PRF output from that salt and posts it; the
slot is salted from the window that is open by then. Which arming a page began
under, and which one a slot was added under, is kept for the statements alone.
-/

set_option autoImplicit false

namespace CacheWarden

namespace Daemon

open Vault Transition

/-- A page in the middle of a registration. -/
structure BegunPage where
  salt : Key
  arming : ℕ
  deriving DecidableEq

/-- A slot that was added: the vault it was added to, the credential, the salt
its PRF output was derived from, and the window at the instant it was looked
at. -/
structure AddedSlot where
  slot : Slot
  vault : UnlockedVault
  credential : Bytes
  evaluated : Key
  arming : ℕ
  window : ArmedRegistration
  instant : Instant
  deriving DecidableEq

structure Registrations where
  ceremony : Ceremony
  daemon : State
  pages : ℕ → Option BegunPage
  armings : ℕ
  window : ℕ → Option ArmedRegistration
  added : List AddedSlot
  now : Instant

inductive RegistrationEvent where
  | arm (salt : Key) (label : String) (instants : Instants)
  | begin (page : ℕ) (origin : Option String) (ctx : CeremonyCtx)
  | registerEvaluate (origin : Option String) (ctx : CeremonyCtx)
  | registerFinish (page : ℕ) (origin : Option String) (ctx : CeremonyCtx)
      (credential clientDataJson attestationObject : Bytes)
  | unlockFinish (origin : Option String) (ctx : CeremonyCtx) (body : Body UnlockBody)
  | elsewhere (daemon : State)

namespace Registrations

def starting (rp : RelyingParty) (daemon : State) (now : Instant) : Registrations :=
  ⟨Ceremony.new rp, daemon, fun _ => none, 0, fun _ => none, [], now⟩

def context (self : Registrations) (ctx : CeremonyCtx) : CeremonyCtx :=
  { ctx with instants := ctx.instants.since self.now }

variable (c : Crypto) (web : WebAuthn) (prf : Bytes → Key → Bytes)

/-- The window, the ceremony and the daemon that an answer leaves. -/
def answered (self : Registrations) (ctx : CeremonyCtx)
    (answer : CeremonyReply × Ceremony × State) : Registrations :=
  { self with ceremony := answer.2.1, daemon := answer.2.2, now := ctx.instants.last }

def handle (self : Registrations) (ctx : CeremonyCtx) (origin : Option String)
    (endpoint : Endpoint) : CeremonyReply × Ceremony × State :=
  self.ceremony.handle c web ctx self.daemon ⟨origin, endpoint⟩

/-- An honest page derives its output from the salt that it was given. -/
def finishBody (page : BegunPage) (credential clientDataJson attestationObject : Bytes) :
    Body RegisterBody :=
  .complete ⟨clientDataJson, attestationObject, prf credential page.salt, credential⟩

/-- What is noted of the slot that the vault has gained. -/
def noteAdded (self : Registrations) (ctx : CeremonyCtx) (page : BegunPage) (credential : Bytes)
    (answer : CeremonyReply × Ceremony × State) : List AddedSlot :=
  match answer.1, (self.ceremony.lapse (ctx.instants.now 0)).armed, answer.2.2.openVault with
  | .registered _, some window, some vault =>
    (vault.slots.getLast?.map fun slot =>
      ⟨slot, vault, credential, page.salt, self.armings, window, ctx.instants.now 0⟩).toList
  | _, _, _ => []

def step (self : Registrations) : RegistrationEvent → Registrations
  | .arm salt label instants =>
    let instants := instants.since self.now
    if self.ceremony.poisoned then self
    else
      { self with
        ceremony := self.ceremony.armRegistration (instants.now 0) salt label
        armings := self.armings + 1
        window := Function.update self.window (self.armings + 1)
          (some ⟨salt, label, (instants.now 0).add registrationWindow⟩)
        now := instants.last }
  | .begin page origin ctx =>
    let ctx := self.context ctx
    let answer := self.handle c web ctx origin .begin
    match answer.1 with
    | .register _ salt _ =>
      { self.answered ctx answer with
        pages := Function.update self.pages page (some ⟨salt, self.armings⟩) }
    | _ => self.answered ctx answer
  | .registerEvaluate origin ctx =>
    let ctx := self.context ctx
    self.answered ctx (self.handle c web ctx origin .registerEvaluate)
  | .registerFinish page origin ctx credential clientDataJson attestationObject =>
    match self.pages page with
    | none => self
    | some begun =>
      let ctx := self.context ctx
      let answer := self.handle c web ctx origin
        (.registerFinish (finishBody prf begun credential clientDataJson attestationObject))
      { self.answered ctx answer with
        added := self.added ++ self.noteAdded ctx begun credential answer }
  | .unlockFinish origin ctx body =>
    let ctx := self.context ctx
    self.answered ctx (self.handle c web ctx origin (.unlockFinish body))
  | .elsewhere daemon => { self with daemon := daemon }

end Registrations

end Daemon

namespace Vault

/-- The secret opens the slot's private key, and that the data key, as an unlock
goes about it. -/
def Slot.OpensWith (c : Crypto) (vaultId : VaultId) (formatVersion : UInt32) (slot : Slot)
    (secret : Bytes) (dek : Key) : Prop :=
  ∃ privkey : Key,
    c.open (c.deriveKek secret slot.salt vaultId formatVersion slot.id)
        (slot.ownBindingAad vaultId formatVersion) slot.wrappedPrivkey "slot private key" =
      .ok privkey.1 ∧
    c.unwrapDek slot.wrappedDek privkey vaultId slot.id
        (slot.ownBindingAad vaultId formatVersion) = .ok dek.1

theorem Slot.Holds.opensWith {c : Crypto} (hc : c.Ideal) {vaultId : VaultId}
    {formatVersion : UInt32} {dek : Key} {slot : Slot} {secret : Bytes}
    (h : slot.Holds c vaultId formatVersion dek secret) :
    slot.OpensWith c vaultId formatVersion secret dek := by
  obtain ⟨recipientSecret, hpub, ⟨nonce, hpriv⟩, ephemeralSecret, dekNonce, hwrap⟩ := h
  rw [hpub] at hwrap
  refine ⟨recipientSecret, ?_, unwrapDek_wrapDek hc hwrap⟩
  rw [hpriv]
  exact open_seal hc _ _ _ _ _

theorem buildSlot_salt {c : Crypto} {draws : SlotDraws} {kind : SlotKind} {dek : Key}
    {vaultId : VaultId} {formatVersion : UInt32} {secret : Bytes} {salt : Key} {rpId : String}
    {credentialId credentialPublicKey : Bytes} {label : String} {slot : Slot}
    (h : UnlockedVault.buildSlot c draws kind dek vaultId formatVersion secret salt rpId
      credentialId credentialPublicKey label = .ok slot) : slot.salt = salt := by
  unfold UnlockedVault.buildSlot at h
  simp only at h
  split at h
  · cases h
  · cases h
    rfl

/-- A passkey slot that was added is salted as it was asked to be, and opens for
the output it was built from. -/
theorem addPasskeySlot_ok {c : Crypto} (hc : c.Ideal) {W : Type} {commit : Commit W}
    {draws : SlotDraws} {self next : UnlockedVault} {prfOutput : Bytes} {salt : Key}
    {rpId label : String} {credentialId credentialPublicKey : Bytes} {id : SlotId} {w w' : W}
    (h : self.addPasskeySlot c commit draws prfOutput salt rpId credentialId credentialPublicKey
      label w = (.ok id, next, w')) :
    ∃ slot, next.slots = self.slots ++ [slot] ∧ slot.salt = salt ∧
      slot.OpensWith c next.vaultId next.formatVersion prfOutput next.dek := by
  unfold UnlockedVault.addPasskeySlot at h
  split at h
  · cases h
  obtain ⟨slot, hbuilt, hholds, -⟩ := buildSlot_ok hc draws .passkeyPrf self.dek self.vaultId
    self.formatVersion prfOutput salt rpId credentialId credentialPublicKey label
  rw [hbuilt] at h
  simp only at h
  unfold UnlockedVault.addSlot UnlockedVault.commitThen at h
  split at h
  · cases h
    exact ⟨slot, rfl, buildSlot_salt hbuilt, hholds.opensWith hc⟩
  · cases h

end Vault

namespace Daemon

open Vault Transition

section Answers

variable {c : Crypto} {web : WebAuthn} {ctx : CeremonyCtx} {cer : Ceremony} {s : State}

/-- A window that is still open after the look has not run out. -/
theorem lapse_open {now : Instant} {window : ArmedRegistration}
    (h : (cer.lapse now).armed = some window) :
    cer.armed = some window ∧ now < window.expiresAt := by
  unfold Ceremony.lapse at h
  split at h
  · rename_i a ha
    split at h
    · cases h
    · rename_i hopen
      rw [ha] at h
      cases h
      exact ⟨ha, Nat.not_le.mp hopen⟩
  · rename_i hnone
    rw [hnone] at h
    cases h

theorem issuing_armed (instants : Instants) (bytes : Bytes) (purpose : Purpose)
    (reply : Bytes → CeremonyReply) :
    (cer.issuing instants bytes purpose reply).2.armed = cer.armed := by
  unfold Ceremony.issuing
  split <;> rfl

/-- The window that a request leaves open was open before. -/
def Narrows (cer cer' : Ceremony) : Prop := ∀ w, cer'.armed = some w → cer.armed = some w

theorem narrows_of_eq {cer' : Ceremony} (h : cer'.armed = cer.armed) : Narrows cer cer' := by
  intro w hw
  rw [← h, hw]

theorem narrows_lapse (now : Instant) : Narrows cer (cer.lapse now) :=
  fun _ hw => (lapse_open hw).1

theorem Narrows.trans {cer' cer'' : Ceremony} (h : Narrows cer cer') (h' : Narrows cer' cer'') :
    Narrows cer cer'' := fun w hw => h w (h' w hw)

theorem begin_narrows : Narrows cer (cer.begin ctx s).2 := by
  have hlapse : Narrows cer (cer.lapse (ctx.instants.now 0)) := narrows_lapse _
  have hissue := fun cer' : Ceremony => fun instants bytes purpose reply =>
    narrows_of_eq (@issuing_armed cer' instants bytes purpose reply)
  unfold Ceremony.begin
  simp only
  split
  · have hagain := hlapse.trans (narrows_lapse (ctx.instants.now 1))
    split
    · exact hagain.trans (narrows_of_eq rfl)
    · exact hagain.trans (hissue _ _ _ _ _)
  · split
    · split
      · exact hlapse
      · exact hlapse.trans (hissue _ _ _ _ _)
    · exact hlapse
    · exact hlapse

theorem begin_register {rpId : String} {salt : Key} {challenge : Bytes}
    (h : (cer.begin ctx s).1 = .register rpId salt challenge) :
    ∃ window, cer.armed = some window ∧ window.salt = salt := by
  revert h
  unfold Ceremony.begin
  simp only
  split
  · split
    · intro h
      cases h
    · rename_i window hwindow
      intro h
      refine ⟨window, narrows_lapse _ _ (narrows_lapse _ _ hwindow), ?_⟩
      unfold Ceremony.issuing at h
      split at h <;> cases h
      rfl
  · split
    · split
      · intro h
        cases h
      · unfold Ceremony.issuing
        split <;> intro h <;> cases h
    · intro h
      cases h
    · intro h
      cases h

theorem registerEvaluate_narrows : Narrows cer (cer.registerEvaluate ctx).2 := by
  have hlapse : Narrows cer (cer.lapse (ctx.instants.now 0)) := narrows_lapse _
  unfold Ceremony.registerEvaluate
  simp only
  split
  · exact hlapse
  · exact hlapse.trans (narrows_of_eq (issuing_armed _ _ _ _))

theorem verifiedRegistration_armed (body : RegisterBody) :
    (cer.verifiedRegistration web ctx body).2.armed = cer.armed := by
  unfold Ceremony.verifiedRegistration
  split
  · rfl
  split
  · rfl
  simp only
  split
  · rfl
  split <;> rfl

/-- A finish leaves the window as it is, or closes it. -/
theorem registerFinish_narrows (body : Body RegisterBody) :
    Narrows cer (cer.registerFinish c web ctx s body).2.1 := by
  have hlapse : Narrows cer (cer.lapse (ctx.instants.now 0)) := narrows_lapse _
  unfold Ceremony.registerFinish
  simp only
  split
  · exact hlapse
  split
  · exact hlapse
  · exact hlapse
  rename_i body
  have hverified := hlapse.trans (narrows_of_eq (@verifiedRegistration_armed web ctx _ body))
  split
  · rename_i heq
    rw [heq] at hverified
    exact hverified
  rename_i heq
  rw [heq] at hverified
  split
  · exact hverified
  split
  · intro w hw
    cases hw
  · exact hverified

/-- What a finish that registers has met, and what it has done. -/
structure Registered (c : Crypto) (ctx : CeremonyCtx) (cer : Ceremony) (body : Body RegisterBody)
    (cer' : Ceremony) (s' : State) (window : ArmedRegistration) (vault : UnlockedVault)
    (slot : Slot) : Prop where
  looked : (cer.lapse (ctx.instants.now 0)).armed = some window
  closed : cer'.armed = none
  opened : s'.openVault = some vault
  last : vault.slots.getLast? = some slot
  salted : slot.salt = window.salt
  opens : ∀ b, body = .complete b →
    slot.OpensWith c vault.vaultId vault.formatVersion b.prfOutput vault.dek

theorem registerFinish_registered (hc : c.Ideal) {body : Body RegisterBody} {id : SlotId}
    (h : (cer.registerFinish c web ctx s body).1 = .registered id) :
    ∃ window vault slot, Registered c ctx cer body (cer.registerFinish c web ctx s body).2.1
      (cer.registerFinish c web ctx s body).2.2 window vault slot := by
  revert h
  unfold Ceremony.registerFinish
  simp only
  split
  · intro h
    cases h
  rename_i window hwindow
  split
  · intro h
    cases h
  · intro h
    cases h
  rename_i body
  split
  · rename_i reply cer' heq
    intro h
    unfold Ceremony.verifiedRegistration at heq
    split at heq
    · cases heq
      cases h
    split at heq
    · cases heq
      cases h
    simp only at heq
    split at heq
    · cases heq
      cases h
    split at heq
    · cases heq
      cases h
    · cases heq
  split
  · intro h
    cases h
  rename_i vault hvault
  split
  swap
  · intro h
    cases h
  rename_i slotId hadded
  intro _
  obtain ⟨slot, hslots, hsalt, hopens⟩ := addPasskeySlot_ok hc (Prod.ext hadded rfl)
  refine ⟨window, _, slot, hwindow, rfl, rfl, ?_, hsalt, ?_⟩
  · rw [hslots, List.getLast?_append, List.getLast?_singleton, Option.some_or]
  · intro b hb
    cases hb
    exact hopens

theorem unlockFinish_narrows (body : Body UnlockBody) :
    Narrows cer (cer.unlockFinish web ctx s body).2.1 := by
  apply narrows_of_eq
  unfold Ceremony.unlockFinish
  split
  · rfl
  · rfl
  split
  swap
  · rfl
  split
  · rfl
  split
  · rfl
  split
  · rfl
  split
  · rfl
  simp only
  split
  · rfl
  split
  · rfl
  split <;> rfl

theorem handle_narrows (request : CeremonyRequest) :
    Narrows cer (cer.handle c web ctx s request).2.1 := by
  unfold Ceremony.handle
  split
  · exact narrows_of_eq rfl
  split
  · exact narrows_of_eq rfl
  · exact narrows_of_eq rfl
  · exact narrows_of_eq rfl
  split
  · exact narrows_of_eq rfl
  split
  · exact begin_narrows
  · exact registerEvaluate_narrows
  · exact registerFinish_narrows _
  · exact unlockFinish_narrows _
  · exact narrows_of_eq rfl

theorem handle_register {origin : Option String} {rpId : String} {salt : Key} {challenge : Bytes}
    (h : (cer.handle c web ctx s ⟨origin, .begin⟩).1 = .register rpId salt challenge) :
    ∃ window, cer.armed = some window ∧ window.salt = salt := by
  unfold Ceremony.handle at h
  split at h
  · cases h
  simp only at h
  split at h
  · cases h
  · exact begin_register h

theorem handle_registered (hc : c.Ideal) {origin : Option String} {body : Body RegisterBody}
    {id : SlotId}
    (h : (cer.handle c web ctx s ⟨origin, .registerFinish body⟩).1 = .registered id) :
    ∃ window vault slot,
      Registered c ctx cer body (cer.handle c web ctx s ⟨origin, .registerFinish body⟩).2.1
        (cer.handle c web ctx s ⟨origin, .registerFinish body⟩).2.2 window vault slot := by
  revert h
  unfold Ceremony.handle
  split
  · intro h
    cases h
  simp only
  split
  · intro h
    cases h
  · exact registerFinish_registered hc

end Answers

/-- Every window has a number of its own; a page holds the salt of the one it
began under, and a slot was added once under an open one, with its salt. -/
structure Windowed (c : Crypto) (prf : Bytes → Key → Bytes) (reg : Registrations) : Prop where
  current : ∀ w, reg.ceremony.armed = some w → reg.window reg.armings = some w
  fresh : reg.ceremony.armed.isSome → ∀ a ∈ reg.added, a.arming ≠ reg.armings
  begun : ∀ p b, reg.pages p = some b → b.arming ≤ reg.armings ∧
    ∃ w, reg.window b.arming = some w ∧ w.salt = b.salt
  numbered : ∀ a ∈ reg.added, a.arming ≤ reg.armings
  live : ∀ a ∈ reg.added, reg.window a.arming = some a.window ∧ a.instant < a.window.expiresAt
  salted : ∀ a ∈ reg.added, a.slot.salt = a.window.salt ∧
    a.slot.OpensWith c a.vault.vaultId a.vault.formatVersion (prf a.credential a.evaluated)
      a.vault.dek
  once : (reg.added.map AddedSlot.arming).Nodup

section Steps

variable {c : Crypto} {web : WebAuthn} {prf : Bytes → Key → Bytes} {self : Registrations}

theorem windowed_starting (rp : RelyingParty) (daemon : State) (now : Instant) :
    Windowed c prf (Registrations.starting rp daemon now) where
  current w h := by cases h
  fresh h := by cases h
  begun p b h := by cases h
  numbered a h := by cases h
  live a h := by cases h
  salted a h := by cases h
  once := List.nodup_nil

/-- An answer that adds nothing and arms nothing. -/
theorem Windowed.answered (h : Windowed c prf self) (ctx : CeremonyCtx)
    {answer : CeremonyReply × Ceremony × State} (hn : Narrows self.ceremony answer.2.1) :
    Windowed c prf (self.answered ctx answer) where
  current w hw := h.current w (hn w hw)
  fresh hw a ha := by
    obtain ⟨w, hw⟩ := Option.isSome_iff_exists.mp hw
    exact h.fresh (by rw [hn w hw]; rfl) a ha
  begun := h.begun
  numbered := h.numbered
  live := h.live
  salted := h.salted
  once := h.once

theorem Windowed.armed (h : Windowed c prf self) (salt : Key) (label : String)
    (instants : Instants) : Windowed c prf (self.step c web prf (.arm salt label instants)) := by
  unfold Registrations.step
  simp only
  split
  · exact h
  rename_i hsound
  have hold : ∀ n ≤ self.armings, ∀ w, Function.update self.window (self.armings + 1) w n =
      self.window n := by
    intro n hn w
    exact Function.update_of_ne (by omega) _ _
  constructor
  · intro w hw
    simp only [Ceremony.armRegistration, hsound] at hw
    cases hw
    exact Function.update_self _ _ _
  · intro _ a ha
    have hle := h.numbered a ha
    show a.arming ≠ self.armings + 1
    omega
  · intro p b hb
    obtain ⟨hle, w, hw, hsalt⟩ := h.begun p b hb
    refine ⟨Nat.le_succ_of_le hle, w, ?_, hsalt⟩
    show Function.update _ _ _ _ = _
    rw [hold _ hle, hw]
  · intro a ha
    exact Nat.le_succ_of_le (h.numbered a ha)
  · intro a ha
    refine ⟨?_, (h.live a ha).2⟩
    show Function.update _ _ _ _ = _
    rw [hold _ (h.numbered a ha), (h.live a ha).1]
  · exact h.salted
  · exact h.once

theorem Windowed.began (h : Windowed c prf self) (page : ℕ) (origin : Option String)
    (ctx : CeremonyCtx) : Windowed c prf (self.step c web prf (.begin page origin ctx)) := by
  have hanswered : Windowed c prf (self.answered (self.context ctx)
      (self.handle c web (self.context ctx) origin .begin)) :=
    h.answered (self.context ctx) (handle_narrows _)
  unfold Registrations.step
  simp only
  split
  swap
  · exact hanswered
  rename_i rpId salt challenge hreply
  obtain ⟨w, hw, hsalt⟩ := handle_register hreply
  constructor
  · exact hanswered.current
  · exact hanswered.fresh
  · intro p b hb
    change Function.update self.pages page _ p = some b at hb
    by_cases hp : p = page
    · subst hp
      rw [Function.update_self] at hb
      cases hb
      exact ⟨Nat.le_refl _, w, h.current w hw, hsalt⟩
    · rw [Function.update_of_ne hp] at hb
      exact h.begun p b hb
  · exact hanswered.numbered
  · exact hanswered.live
  · exact hanswered.salted
  · exact hanswered.once

/-- A finish is noted if and only if it registers. -/
theorem noteAdded_cases (hc : c.Ideal) (self : Registrations) (ctx : CeremonyCtx)
    (origin : Option String) (begun : BegunPage) (credential : Bytes) (body : Body RegisterBody) :
    let answer := self.handle c web ctx origin (.registerFinish body)
    self.noteAdded ctx begun credential answer = [] ∨
      ∃ window vault slot, Registered c ctx self.ceremony body answer.2.1 answer.2.2 window vault slot ∧
        self.noteAdded ctx begun credential answer =
          [⟨slot, vault, credential, begun.salt, self.armings, window, ctx.instants.now 0⟩] := by
  intro answer
  unfold Registrations.noteAdded
  split
  · rename_i id window vault hreply hwindow hvault
    obtain ⟨window', vault', slot, hregistered⟩ := handle_registered hc hreply
    have hv : answer.2.2.openVault = some vault' := hregistered.opened
    have hw := hregistered.looked
    rw [hwindow] at hw
    rw [hvault] at hv
    cases hw
    cases hv
    right
    refine ⟨window, vault, slot, hregistered, ?_⟩
    rw [hregistered.last]
    rfl
  · exact Or.inl rfl

/-- A finish that registers adds the one slot of the window it closes. -/
theorem Windowed.finished (hc : c.Ideal) (h : Windowed c prf self) (page : ℕ)
    (origin : Option String) (ctx : CeremonyCtx)
    (credential clientDataJson attestationObject : Bytes) :
    Windowed c prf (self.step c web prf
      (.registerFinish page origin ctx credential clientDataJson attestationObject)) := by
  unfold Registrations.step
  simp only
  split
  · exact h
  rename_i begun hbegun
  have hanswered : Windowed c prf (self.answered (self.context ctx) (self.handle c web
      (self.context ctx) origin (.registerFinish (Registrations.finishBody prf begun credential
        clientDataJson attestationObject)))) :=
    h.answered (self.context ctx) (handle_narrows _)
  rcases @noteAdded_cases c web hc self (self.context ctx) origin begun credential
    (Registrations.finishBody prf begun credential clientDataJson attestationObject) with
    hnone | ⟨window, vault, slot, hregistered, hnoted⟩
  · rw [hnone, List.append_nil]
    exact hanswered
  obtain ⟨harmed, hopen⟩ := lapse_open hregistered.looked
  have hfresh : ∀ a ∈ self.added, a.arming ≠ self.armings := h.fresh (by rw [harmed]; rfl)
  rw [hnoted]
  constructor
  · exact hanswered.current
  · intro hsome
    rw [show (Registrations.answered self _ _).ceremony.armed = none from hregistered.closed] at hsome
    cases hsome
  · exact hanswered.begun
  · intro a ha
    rcases List.mem_append.mp ha with ha | ha
    · exact h.numbered a ha
    · rw [List.mem_singleton.mp ha]
      exact Nat.le_refl _
  · intro a ha
    rcases List.mem_append.mp ha with ha | ha
    · exact h.live a ha
    · rw [List.mem_singleton.mp ha]
      exact ⟨h.current window harmed, hopen⟩
  · intro a ha
    rcases List.mem_append.mp ha with ha | ha
    · exact h.salted a ha
    · rw [List.mem_singleton.mp ha]
      exact ⟨hregistered.salted, hregistered.opens _ rfl⟩
  · show ((self.added ++ [_]).map AddedSlot.arming).Nodup
    rw [List.map_append, List.nodup_append]
    refine ⟨h.once, List.nodup_singleton _, ?_⟩
    intro n hn m hm
    obtain ⟨a, ha, rfl⟩ := List.mem_map.mp hn
    rw [List.mem_singleton.mp hm]
    exact hfresh a ha

theorem windowed_step (hc : c.Ideal) (h : Windowed c prf self) (event : RegistrationEvent) :
    Windowed c prf (self.step c web prf event) := by
  cases event with
  | arm salt label instants => exact h.armed salt label instants
  | begin page origin ctx => exact h.began page origin ctx
  | registerEvaluate origin ctx => exact h.answered _ (handle_narrows _)
  | registerFinish page origin ctx credential clientDataJson attestationObject =>
    exact h.finished hc page origin ctx credential clientDataJson attestationObject
  | unlockFinish origin ctx body => exact h.answered _ (handle_narrows _)
  | elsewhere daemon =>
    exact ⟨h.current, h.fresh, h.begun, h.numbered, h.live, h.salted, h.once⟩

/-- No window has been armed since the page began that now finishes. -/
def OwnWindow (reg : Registrations) : RegistrationEvent → Prop
  | .registerFinish page _ _ _ _ _ => ∀ begun ∈ reg.pages page, begun.arming = reg.armings
  | _ => True

/-- Every slot was added by a page that was given the salt of its window. -/
def Matched (reg : Registrations) : Prop := ∀ a ∈ reg.added, a.evaluated = a.window.salt

theorem matched_step (hc : c.Ideal) (h : Windowed c prf self) (hm : Matched self)
    (event : RegistrationEvent) (hown : OwnWindow self event) :
    Matched (self.step c web prf event) := by
  cases event with
  | arm salt label instants =>
    unfold Registrations.step
    simp only
    split <;> exact hm
  | begin page origin ctx =>
    unfold Registrations.step
    simp only
    split <;> exact hm
  | registerEvaluate origin ctx => exact hm
  | registerFinish page origin ctx credential clientDataJson attestationObject =>
    unfold Registrations.step
    simp only
    split
    · exact hm
    rename_i begun hbegun
    rcases @noteAdded_cases c web hc self (self.context ctx) origin begun credential
      (Registrations.finishBody prf begun credential clientDataJson attestationObject) with
      hnone | ⟨window, vault, slot, hregistered, hnoted⟩
    · rw [hnone, List.append_nil]
      exact hm
    rw [hnoted]
    intro a ha
    rcases List.mem_append.mp ha with ha | ha
    · exact hm a ha
    rw [List.mem_singleton.mp ha]
    have hcurrent := h.current window (lapse_open hregistered.looked).1
    obtain ⟨-, w, hw, hsalt⟩ := h.begun page begun hbegun
    rw [hown begun hbegun, hcurrent] at hw
    cases hw
    exact hsalt.symm
  | unlockFinish origin ctx body => exact hm
  | elsewhere daemon => exact hm

end Steps

/-- What the claim of a registration comes to, for all slots added so far. -/
structure WellRegistered (c : Crypto) (prf : Bytes → Key → Bytes) (reg : Registrations) : Prop where
  salted : ∀ a ∈ reg.added, a.slot.salt = a.evaluated
  opens : ∀ a ∈ reg.added, a.slot.OpensWith c a.vault.vaultId a.vault.formatVersion
    (prf a.credential a.slot.salt) a.vault.dek
  once : (reg.added.map AddedSlot.arming).Nodup
  armed : ∀ a ∈ reg.added, reg.window a.arming = some a.window ∧ a.instant < a.window.expiresAt

/-- In a run in which no window is armed between the begin of a page and its
finish, every slot that is added holds the salt its output was derived from and
opens for it; and each arming leads to one slot at most, while its window is
open. -/
theorem registrations_salted (c : Crypto) (web : WebAuthn) (prf : Bytes → Key → Bytes)
    (hc : c.Ideal) (rp : RelyingParty) (daemon : State) (now : Instant)
    (events : List RegistrationEvent)
    (hown : Along (Registrations.step c web prf) OwnWindow
      (Registrations.starting rp daemon now) events) :
    WellRegistered c prf
      (run (Registrations.step c web prf) (Registrations.starting rp daemon now) events) := by
  have hrun := run_invariant (Registrations.step c web prf)
    (I := fun reg => Windowed c prf reg ∧ Matched reg)
    (fun reg event h hown => ⟨windowed_step hc h.1 event, matched_step hc h.1 h.2 event hown⟩)
    _ events hown ⟨windowed_starting rp daemon now, fun a ha => by cases ha⟩
  obtain ⟨hwindowed, hmatched⟩ := hrun
  have hsalted : ∀ a ∈ (run (Registrations.step c web prf)
      (Registrations.starting rp daemon now) events).added, a.slot.salt = a.evaluated := by
    intro a ha
    rw [(hwindowed.salted a ha).1, hmatched a ha]
  constructor
  · exact hsalted
  · intro a ha
    rw [hsalted a ha]
    exact (hwindowed.salted a ha).2
  · exact hwindowed.once
  · exact hwindowed.live

namespace Rearmed

def instants : Instants := Instants.constant ⟨1000000000, by decide⟩

def ctx : CeremonyCtx where
  instants := instants
  clock := SystemClock.new (instants.now 0)
  wall _ := 0
  challenge := [9]
  slot := Bench.plainInitial.slot
  held := Bench.plainVault.header
  commit := .done
  opened := .ok ()

/-- A browser that answers with its one credential. -/
def web : WebAuthn where
  challengeIn := some
  verifyRegistration _ _ _ _ := some ⟨[7], [8]⟩
  readableKey _ := true
  verifyAssertion _ _ _ _ := true

def prf (_ : Bytes) (salt : Key) : Bytes := salt.1

def start : Registrations :=
  Registrations.starting ⟨"localhost", []⟩
    (State.starting (some (.unlocked Bench.plainVault)) (.holds Bench.plainVault)) (instants.now 0)

def arm (salt : UInt8) : RegistrationEvent := .arm (Bench.fill 32 salt) "passkey" instants

def finish : RegistrationEvent := .registerFinish 0 none ctx [7] [9] []

def events : List RegistrationEvent := [arm 1, .begin 0 none ctx, finish]

/-- A second passkey is asked for while the page of the first is at work. -/
def crossed : List RegistrationEvent := [arm 1, .begin 0 none ctx, arm 2, finish]

end Rearmed

theorem registrations_salted_alone :
    WellRegistered plainCrypto Rearmed.prf
        (run (Registrations.step plainCrypto Rearmed.web Rearmed.prf) Rearmed.start
          Rearmed.events) ∧
      (run (Registrations.step plainCrypto Rearmed.web Rearmed.prf) Rearmed.start
        Rearmed.events).added.length = 1 :=
  ⟨registrations_salted plainCrypto Rearmed.web Rearmed.prf plainCrypto_ideal ⟨"localhost", []⟩ _ _
      Rearmed.events ⟨trivial, trivial, by unfold Rearmed.finish OwnWindow; decide, trivial⟩,
    by decide⟩

/-- The slot is salted from the second window, its output derived from the salt of
the first. -/
theorem registration_crossed :
    ¬ WellRegistered plainCrypto Rearmed.prf
      (run (Registrations.step plainCrypto Rearmed.web Rearmed.prf) Rearmed.start
        Rearmed.crossed) := by
  intro h
  have hcrossed : ∃ a ∈ (run (Registrations.step plainCrypto Rearmed.web Rearmed.prf) Rearmed.start
      Rearmed.crossed).added, a.slot.salt ≠ a.evaluated := by
    decide
  obtain ⟨a, ha, hne⟩ := hcrossed
  exact hne (h.salted a ha)

end Daemon

end CacheWarden
