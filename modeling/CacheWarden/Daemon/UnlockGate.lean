import CacheWarden.Daemon.Assertion
import CacheWarden.Daemon.CeremonyAnswers
import CacheWarden.Lib.Transition
import CacheWarden.Vault.Mutation

/-!
# The gate of a passkey unlock

Any number of pages begin ceremonies and answer them, while the vault is locked,
opened with a recovery code, written to and given other slots, and time goes by.
A begin that runs into the end of the registration window panics, and with the
lock it holds it takes every challenge that is still outstanding.
-/

set_option autoImplicit false

namespace CacheWarden

namespace Daemon

open Vault Transition

/-- Read the file and parse its header. The bytes are those of the vault it holds,
its body sealed with this nonce. -/
def readBack (c : Crypto) (serde : BodySerde) (nonce : Nonce) : Stored → Except VaultError LockedVault
  | .absent => .error (.io .file "No such file or directory")
  | .damaged e => .error e
  | .holds vault => LockedVault.open (some (vault.encodeWithDek c serde nonce))

def State.closed (s : State) : Bool :=
  match s.vault with
  | some .locked => true
  | _ => false

/-- The daemon, with the header of its closed vault as it was last read. -/
structure Gate where
  ceremony : Ceremony
  daemon : State
  nonce : Nonce
  held : Option HeaderView
  deeds : List Deed
  now : Instant

inductive GateEvent where
  | request (ctx : CeremonyCtx) (request : PageRequest)
  | arm (salt : Key) (label : String) (instants : Instants)
  | control (ctx : HandlerCtx) (request : Request)
  | change (m : Mutation) (t u : UInt64) (commit : CommitOutcome)
  | reseal (nonce : Nonce)
  | wait (instants : Instants)

namespace Gate

variable (c : Crypto) (serde : BodySerde) (w : WebCrates)

/-- A process as it comes up, with the vault a predecessor had open or the file
classified. -/
def starting (rp : RelyingParty) (store : Store) (handedOver : Option UnlockedVault)
    (file : Stored) (nonce : Nonce) (now : Instant) : Gate where
  ceremony := Ceremony.new rp
  daemon :=
    { State.starting
        (match handedOver with
        | some vault => some (.unlocked vault)
        | none => (file.openAt ((readBack c serde nonce file).map fun _ => ())).toOption) file with
      store := store }
  nonce := nonce
  held := (readBack c serde nonce file).toOption.map fun locked => locked.file.header
  deeds := []
  now := now

def readFile (self : Gate) : Except VaultError LockedVault :=
  readBack c serde self.nonce self.daemon.file

/-- The request is served from here: later than what came before, against the
header that is held, with the file read again. -/
def ceremonyCtx (self : Gate) (ctx : CeremonyCtx) (request : CeremonyRequest) : CeremonyCtx :=
  { ctx with
    instants := ctx.instants.since self.now
    held := self.held.getD ctx.held
    opened :=
      match request.endpoint with
      | .unlockFinish (.complete body) =>
        ((self.readFile c serde).bind fun locked =>
          locked.unlockWithPrfOutput c serde body.prfOutput).map fun _ => ()
      | _ => ctx.opened }

def handlerCtx (self : Gate) (ctx : HandlerCtx) (request : Request) : HandlerCtx :=
  { ctx with
    opened :=
      match request with
      | .vaultLock => (self.readFile c serde).map fun _ => ()
      | .vaultUnlock (some (some code)) =>
        ((self.readFile c serde).bind fun locked =>
          locked.unlockWithRecoveryCode c serde code).map fun _ => ()
      | _ => ctx.opened }

def answer (self : Gate) (ctx : CeremonyCtx) (request : PageRequest) :
    CeremonyReply × Ceremony × State :=
  self.ceremony.handle c w.webAuthn (self.ceremonyCtx c serde ctx (request.read w)) self.daemon
    (request.read w)

/-- Closing the vault reads its header anew. A begin that panics holds the lock of
the vault too, and nothing that needs the vault is answered after it. -/
def step (self : Gate) : GateEvent → Gate
  | .request ctx request =>
    let given := self.ceremonyCtx c serde ctx (request.read w)
    let answer := self.answer c serde w ctx request
    { self with
      ceremony := answer.2.1
      daemon := answer.2.2
      deeds := self.deeds ++
        self.ceremony.deedsOf w.webAuthn given self.daemon (request.read w) answer.1
      now := given.instants.last }
  | .arm salt label instants =>
    let instants := instants.since self.now
    { self with
      ceremony := self.ceremony.armRegistration (instants.now 0) salt label
      now := instants.last }
  | .control ctx request =>
    if self.ceremony.poisoned then self
    else
      let after := (handleRequest (self.handlerCtx c serde ctx request) self.daemon request).2
      { self with
        daemon := after
        held :=
          if self.daemon.closed || !after.closed then self.held
          else (readBack c serde self.nonce after.file).toOption.map fun locked =>
            locked.file.header }
  | .change m t u commit =>
    match self.daemon.openVault with
    | none => self
    | some vault =>
      if self.ceremony.poisoned then self
      else
        let changed := m.apply c (Stored.commitTo commit) t u vault self.daemon.file
        { self with daemon := self.daemon.withVault changed.2.1 changed.2.2 }
  | .reseal nonce => if self.daemon.closed then self else { self with nonce := nonce }
  | .wait instants => { self with now := (instants.since self.now).last }

end Gate

section Control

variable {ctx : HandlerCtx} {s s' : State} {req : Request} {resp : Response}

theorem closed_iff : s.closed = true ↔ s.vault = some .locked := by
  unfold State.closed
  constructor
  · intro h
    split at h
    · assumption
    · cases h
  · intro h
    rw [h]

/-- The file of a closed vault stays as it is. -/
theorem effect_closed (h : Effect ctx s req resp s') (hclosed : s.vault = some .locked) :
    s'.file = s.file := by
  cases h with
  | persisted _ _ _ _ _ hvault => cases hclosed.symm.trans hvault
  | uncommitted _ _ _ _ _ _ hvault => cases hclosed.symm.trans hvault
  | created _ _ _ _ hstate => cases hclosed.symm.trans hstate
  | uncreated _ _ hstate => cases hclosed.symm.trans hstate
  | deletedHeld _ _ _ hvault => cases hclosed.symm.trans hvault
  | undeleted _ _ _ _ _ hvault => cases hclosed.symm.trans hvault
  | claimedHeld _ _ _ _ _ hvault => cases hclosed.symm.trans hvault
  | unclaimed _ _ _ _ _ _ _ hvault => cases hclosed.symm.trans hvault
  | releasedHeld _ _ _ _ _ _ hvault => cases hclosed.symm.trans hvault
  | unreleased _ _ _ _ _ _ hvault => cases hclosed.symm.trans hvault
  | _ => rfl

theorem effect_closes (h : Effect ctx s req resp s') (hopen : s.vault ≠ some .locked)
    (hclosed : s'.vault = some .locked) : req = .vaultLock := by
  cases h with
  | closed => rfl
  | stayedClosed => rfl
  | persisted => cases hclosed
  | created => cases hclosed
  | opened => cases hclosed
  | deletedHeld => cases hclosed
  | claimedHeld => cases hclosed
  | releasedHeld => cases hclosed
  | _ => exact absurd hclosed hopen

theorem handleVaultLock_closes (hopen : s.vault ≠ some .locked)
    (h : (handleVaultLock ctx s).2.vault = some .locked) :
    ctx.opened = .ok () ∧ (handleVaultLock ctx s).2.file = s.file := by
  revert h
  unfold handleVaultLock
  split
  · exact fun h => absurd h hopen
  split
  · exact fun h => absurd h hopen
  rename_i state _ _ vault hvault
  cases state with
  | notInitialized => cases hvault
  | locked => cases hvault
  | unlocked v =>
  unfold VaultState.lock Stored.openAt
  cases s.file with
  | absent =>
    intro h
    cases h
  | damaged e =>
    intro h
    cases h
  | holds stored =>
    cases hopened : ctx.opened with
    | error e =>
      intro h
      cases h
    | ok u => exact fun _ => ⟨rfl, rfl⟩

end Control

section Slots

variable {c : Crypto} {serde : BodySerde}

/-- A slot that lets a vault be opened opens for the secret. -/
theorem unlockSlot_opens {locked : LockedVault} {slot : Slot} {secret : Bytes} {privkey : Bytes}
    {vault : UnlockedVault}
    (hopen : c.open (c.deriveKek secret slot.salt locked.file.vaultId locked.file.formatVersion
        slot.id) (slot.ownBindingAad locked.file.vaultId locked.file.formatVersion)
        slot.wrappedPrivkey "slot private key" = .ok privkey)
    (h : locked.unlockSlot c serde slot privkey = .ok vault) :
    slot.OpensWith c locked.file.vaultId locked.file.formatVersion secret vault.dek := by
  unfold LockedVault.unlockSlot at h
  simp only at h
  split at h
  · cases h
  rename_i key hkey
  split at h
  · cases h
  rename_i dekBytes hunwrap
  split at h
  · cases h
  rename_i dek hdek
  split at h
  · cases h
  split at h
  · cases h
  cases h
  refine ⟨key, ?_, ?_⟩
  · rw [hopen, blockOf_some hkey]
  · rw [hunwrap, blockOf_some hdek]

theorem trySlots_opens {locked : LockedVault} {secret : Bytes} {kind : SlotKind}
    {slots : List Slot} {vault : UnlockedVault}
    (h : locked.trySlots c serde secret kind slots = .ok vault) :
    ∃ slot ∈ slots, slot.kind = kind ∧
      slot.OpensWith c locked.file.vaultId locked.file.formatVersion secret vault.dek := by
  induction slots with
  | nil => cases h
  | cons slot rest ih =>
    unfold LockedVault.trySlots at h
    split at h
    · obtain ⟨slot', hmem, hrest⟩ := ih h
      exact ⟨slot', List.mem_cons_of_mem _ hmem, hrest⟩
    rename_i hkind
    split at h
    · obtain ⟨slot', hmem, hrest⟩ := ih h
      exact ⟨slot', List.mem_cons_of_mem _ hmem, hrest⟩
    · rename_i hopen
      exact ⟨slot, List.mem_cons_self, not_not.mp hkind, unlockSlot_opens hopen h⟩

end Slots

section Invariants

variable (c : Crypto) (serde : BodySerde) (w : WebCrates)

/-- Every challenge that is outstanding was issued and stands, and the header of a
closed vault is that of its file. -/
structure Gate.Sound (rp : RelyingParty) (gate : Gate) : Prop where
  rp : gate.ceremony.rp = rp
  issued : ∀ p ∈ gate.ceremony.challenges.outstanding,
    ∃ instant, Standing gate.deeds p.1 p.2.purpose instant ∧
      p.2.expiresAt = instant.add challengeTtl
  read : gate.daemon.vault = some .locked →
    ∃ locked, gate.readFile c serde = .ok locked ∧ gate.held = some locked.file.header

/-- What a request meets that opens the closed vault. -/
structure Gate.Admitted (signed : CredentialPublicKey w → Bytes → Prop) (rp : RelyingParty)
    (gate : Gate) (now : Instant) (body : UnlockBody) (locked : LockedVault) (slot opener : Slot)
    (challenge : Bytes) (instant : Instant) : Prop where
  file : gate.readFile c serde = .ok locked
  named : w.challengeIn body.clientDataJson = some challenge
  standing : Standing gate.deeds challenge
    (.unlock locked.file.vaultId locked.file.dekGeneration) instant
  fresh : now < instant.add challengeTtl
  listed : slot ∈ locked.file.slots
  kind : slot.kind = .passkeyPrf
  credential : slot.credentialId = body.credentialId
  asserted : ∃ key, CredentialPublicKey.fromStoredBytes w slot.credentialPublicKey = .ok key ∧
    Asserted w signed rp challenge key body
  opener_listed : opener ∈ locked.file.slots
  opener_kind : opener.kind = .passkeyPrf
  opens : ∃ dek, opener.OpensWith c locked.file.vaultId locked.file.formatVersion body.prfOutput dek

/-- A request opens the closed vault only where it is admitted, and one that is
refused leaves the vault and the store as they are. -/
structure Gate.Guards (signed : CredentialPublicKey w → Bytes → Prop) (rp : RelyingParty)
    (gate : Gate) (ctx : CeremonyCtx) (request : PageRequest) : Prop where
  opened : ∀ vault, gate.daemon.vault = some .locked →
    (gate.answer c serde w ctx request).2.2.vault = some (.unlocked vault) →
      ∃ body locked slot opener challenge instant,
        request.endpoint w = .unlockFinish (.complete body) ∧
          Gate.Admitted c serde w signed rp gate
            ((gate.ceremonyCtx c serde ctx (request.read w)).instants.now 0) body locked slot opener
            challenge instant
  refused : ∀ status message,
    (gate.answer c serde w ctx request).1 = .refused status message →
      (gate.answer c serde w ctx request).2.2.vault = gate.daemon.vault ∧
        (gate.answer c serde w ctx request).2.2.store = gate.daemon.store

variable {c serde w} {rp : RelyingParty} {gate : Gate}

theorem sound_starting (store : Store) (handedOver : Option UnlockedVault) (file : Stored)
    (nonce : Nonce) (now : Instant) :
    (Gate.starting c serde rp store handedOver file nonce now).Sound c serde rp where
  rp := rfl
  issued p hp := by cases hp
  read hclosed := by
    cases handedOver with
    | some vault => cases hclosed
    | none =>
    simp only [Gate.starting] at hclosed
    cases hread : readBack c serde nonce file with
    | ok locked =>
      refine ⟨locked, hread, ?_⟩
      simp only [Gate.starting, hread]
      rfl
    | error e =>
      rw [hread] at hclosed
      cases file with
      | absent => cases hclosed
      | damaged e => cases hclosed
      | holds vault => cases hclosed

theorem sound_request (h : gate.Sound c serde rp) (ctx : CeremonyCtx) (request : PageRequest) :
    (gate.step c serde w (.request ctx request)).Sound c serde rp := by
  have hcarried := @handle_carried c w.webAuthn (gate.ceremonyCtx c serde ctx (request.read w))
    gate.ceremony gate.daemon (request.read w)
  have hanswered := @handle_answered c w.webAuthn (gate.ceremonyCtx c serde ctx (request.read w))
    gate.ceremony gate.daemon (request.read w)
  constructor
  · exact hcarried.rp.trans h.rp
  · intro p hp
    rcases hcarried.outstanding p hp with ⟨hin, hne⟩ | ⟨instant, hdeeds, hexpires⟩
    · obtain ⟨instant, hstanding, hexpires⟩ := h.issued p hin
      exact ⟨instant, hstanding.append hne, hexpires⟩
    · refine ⟨instant, ?_, hexpires⟩
      have hissued := standing_issued gate.deeds p.1 p.2.purpose instant
      rw [← hdeeds] at hissued
      exact hissued
  · intro hclosed
    have hsame : (gate.answer c serde w ctx request).2.2 = gate.daemon :=
      answered_closed hanswered hclosed
    show ∃ locked, readBack c serde gate.nonce (gate.answer c serde w ctx request).2.2.file = _ ∧ _
    rw [hsame]
    apply h.read
    rw [← hsame]
    exact hclosed

theorem sound_control (h : gate.Sound c serde rp) (ctx : HandlerCtx) (request : Request) :
    (gate.step c serde w (.control ctx request)).Sound c serde rp := by
  unfold Gate.step
  simp only
  split
  · exact h
  have heffect := handleRequest_effect (gate.handlerCtx c serde ctx request) gate.daemon request
  constructor
  · exact h.rp
  · exact h.issued
  intro hclosed
  simp only at hclosed
  have hafter := closed_iff.mpr hclosed
  by_cases hbefore : gate.daemon.vault = some .locked
  · have hkept : gate.daemon.closed = true := closed_iff.mpr hbefore
    simp only [hkept, Bool.true_or, if_true, Gate.readFile]
    rw [effect_closed heffect hbefore]
    exact h.read hbefore
  · have hopen : gate.daemon.closed = false := by
      rw [← Bool.not_eq_true, closed_iff]
      exact hbefore
    have hlock := effect_closes heffect hbefore hclosed
    subst hlock
    obtain ⟨hread, hfile⟩ := handleVaultLock_closes hbefore hclosed
    simp only [hopen, hafter, Bool.not_true, Bool.or_self, Bool.false_eq_true, if_false,
      Gate.readFile]
    cases hback : gate.readFile c serde with
    | error e =>
      simp only [Gate.handlerCtx, hback] at hread
      cases hread
    | ok locked =>
      have hagain : readBack c serde gate.nonce
          (handleRequest (gate.handlerCtx c serde ctx .vaultLock) gate.daemon .vaultLock).2.file =
          .ok locked := (congrArg (readBack c serde gate.nonce) hfile).trans hback
      rw [hagain]
      exact ⟨locked, rfl, rfl⟩

theorem sound_step (h : gate.Sound c serde rp) (event : GateEvent) :
    (gate.step c serde w event).Sound c serde rp := by
  cases event with
  | request ctx request => exact sound_request h ctx request
  | control ctx request => exact sound_control h ctx request
  | arm salt label instants =>
    unfold Gate.step Ceremony.armRegistration
    simp only
    split
    · exact ⟨h.rp, h.issued, h.read⟩
    · exact ⟨h.rp, h.issued, h.read⟩
  | change m t u commit =>
    simp only [Gate.step]
    split
    · exact h
    split
    · exact h
    · exact ⟨h.rp, h.issued, fun hclosed => by cases hclosed⟩
  | reseal nonce =>
    simp only [Gate.step]
    split
    · exact h
    · rename_i hopen
      exact ⟨h.rp, h.issued, fun hclosed => absurd (closed_iff.mpr hclosed) hopen⟩
  | wait instants => exact ⟨h.rp, h.issued, h.read⟩

/-- Where the invariant holds a request is guarded. -/
theorem guards_of_sound {signed : CredentialPublicKey w → Bytes → Prop}
    (hforge : Unforgeable w signed) (h : gate.Sound c serde rp) (ctx : CeremonyCtx)
    (request : PageRequest) : gate.Guards c serde w signed rp ctx request := by
  have hanswered := @handle_answered c w.webAuthn (gate.ceremonyCtx c serde ctx (request.read w))
    gate.ceremony gate.daemon (request.read w)
  constructor
  · intro vault hclosed hopen
    obtain ⟨body, slot, challenge, hbody, hmet⟩ := answered_opened hanswered hclosed hopen
    obtain ⟨locked, hread, hheld⟩ := h.read hclosed
    have hheader : (gate.ceremonyCtx c serde ctx (request.read w)).held = locked.file.header := by
      simp only [Gate.ceremonyCtx, hheld]
      rfl
    obtain ⟨record, hmem, hpurpose, hlive⟩ := redeem_ok hmet.redeemed
    obtain ⟨instant, hstanding, hexpires⟩ := h.issued _ hmem
    obtain ⟨key, hkey, hasserted⟩ := webAuthn_verifyAssertion hforge hmet.asserted
    have hunlocked : ∃ opened, locked.unlockWithPrfOutput c serde body.prfOutput = .ok opened := by
      have hopened := hmet.opened
      simp only [Gate.ceremonyCtx, hbody, hread, Except.bind] at hopened
      cases hunlock : locked.unlockWithPrfOutput c serde body.prfOutput with
      | ok opened => exact ⟨opened, rfl⟩
      | error e =>
        rw [hunlock] at hopened
        cases hopened
    obtain ⟨opened, hunlocked⟩ := hunlocked
    obtain ⟨opener, hlisted, hkind, hopens⟩ := trySlots_opens hunlocked
    refine ⟨body, locked, slot, opener, challenge, instant, hbody, ?_⟩
    constructor
    · exact hread
    · exact hmet.named
    · rw [hheader] at hpurpose
      rw [hpurpose] at hstanding
      exact hstanding
    · rw [← hexpires]
      exact hlive
    · have hslot := hmet.listed
      rw [hheader] at hslot
      exact hslot
    · exact hmet.kind
    · exact hmet.credential
    · rw [h.rp] at hasserted
      exact ⟨key, hkey, hasserted⟩
    · exact hlisted
    · exact hkind
    · exact ⟨opened.dek, hopens⟩
  · intro status message hreply
    have hrefused : Answered w.webAuthn (gate.ceremonyCtx c serde ctx (request.read w))
        gate.ceremony gate.daemon (request.read w).endpoint (.refused status message)
        (gate.answer c serde w ctx request).2.2 := by
      rw [← hreply]
      exact hanswered
    exact answered_refused hrefused

end Invariants

section Runs

variable (c : Crypto) (serde : BodySerde) (w : WebCrates)

/-- The challenge would be redeemed for this at that instant. -/
def Gate.Live (gate : Gate) (challenge : Bytes) (purpose : Purpose) (t : Instant) : Prop :=
  gate.ceremony.poisoned = false ∧
    (gate.ceremony.challenges.redeem t challenge purpose).1 = .ok ()

/-- A begin, drawing another challenge. -/
def BeginsAnew (challenge : Bytes) : GateEvent → Prop
  | .request ctx request => request.endpoint w = .begin ∧ ctx.challenge ≠ challenge
  | _ => False

/-- No begin that is let in finds the registration window open at its first look
and over at its second. -/
def Unhurried (gate : Gate) : GateEvent → Prop
  | .request ctx request =>
    request.endpoint w = .begin → gate.ceremony.originAllowed request.origin →
      ∀ a, gate.ceremony.armed = some a → (ctx.instants.since gate.now).now 0 < a.expiresAt →
        (ctx.instants.since gate.now).now 1 < a.expiresAt
  | _ => True

/-- Every request of the run is guarded, and no begins at its end have put an end
to a challenge that is still live. -/
structure Gatekept (signed : CredentialPublicKey w → Bytes → Prop) (rp : RelyingParty)
    (start : Gate) (events : List GateEvent) : Prop where
  guarded : Along (Gate.step c serde w)
    (fun gate event => ∀ ctx request, event = .request ctx request →
      gate.Guards c serde w signed rp ctx request) start events
  spared : ∀ before begins challenge purpose t, events = before ++ begins →
    (∀ e ∈ begins, BeginsAnew w challenge e) → (run (Gate.step c serde w) start events).now ≤ t →
      (run (Gate.step c serde w) start before).Live challenge purpose t →
        (run (Gate.step c serde w) start events).Live challenge purpose t

variable {c serde w} {gate : Gate}

theorem now_le_step (event : GateEvent) : gate.now ≤ (gate.step c serde w event).now := by
  cases event with
  | request ctx request => exact ctx.instants.le_last_since gate.now
  | arm salt label instants => exact instants.le_last_since gate.now
  | wait instants => exact instants.le_last_since gate.now
  | control ctx request =>
    simp only [Gate.step]
    split <;> exact Instant.le_refl _
  | change m t u commit =>
    simp only [Gate.step]
    split
    · exact Instant.le_refl _
    split <;> exact Instant.le_refl _
  | reseal nonce =>
    simp only [Gate.step]
    split <;> exact Instant.le_refl _

theorem now_le_run (events : List GateEvent) :
    gate.now ≤ (run (Gate.step c serde w) gate events).now := by
  induction events generalizing gate with
  | nil => exact Instant.le_refl _
  | cons event events ih => exact Instant.le_trans (now_le_step event) ih

/-- A begin that is not caught by the end of the window spares a live challenge. -/
theorem live_begin {challenge : Bytes} {purpose : Purpose} {t : Instant} {event : GateEvent}
    (hbegins : BeginsAnew w challenge event) (hunhurried : Unhurried w gate event)
    (hlate : (gate.step c serde w event).now ≤ t) (hlive : gate.Live challenge purpose t) :
    (gate.step c serde w event).Live challenge purpose t := by
  cases event with
  | request ctx request =>
    obtain ⟨hbegin, hne⟩ := hbegins
    obtain ⟨hpoisoned, hredeem⟩ := hlive
    have hread : (request.read w).endpoint = .begin := hbegin
    show (gate.answer c serde w ctx request).2.1.poisoned = false ∧
      ((gate.answer c serde w ctx request).2.1.challenges.redeem t challenge purpose).1 = .ok ()
    unfold Gate.answer Ceremony.handle
    simp only [hpoisoned, hread, Bool.false_eq_true, if_false]
    cases hallowed : gate.ceremony.originAllowed (request.read w).origin with
    | false => exact ⟨hpoisoned, hredeem⟩
    | true =>
    simp only [Bool.not_true, Bool.false_eq_true, if_false]
    have hbegun := @begin_begun (gate.ceremonyCtx c serde ctx (request.read w)) gate.ceremony
      gate.daemon
    have hreply : (gate.ceremony.begin (gate.ceremonyCtx c serde ctx (request.read w))
        gate.daemon).1 ≠ .panicked := by
      intro hpanicked
      obtain ⟨a, harmed, hopen, hover⟩ := begin_panicked hpanicked
      have hstill := hunhurried hbegin hallowed a harmed hopen
      exact absurd hover (Nat.not_le.mpr hstill)
    obtain ⟨hsame, hspared⟩ := begun_spares hbegun hreply hne hlate
    exact ⟨hsame.trans hpoisoned, (redeem_ok_congr hspared).trans hredeem⟩
  | _ => exact hbegins.elim

theorem live_begins {challenge : Bytes} {purpose : Purpose} {t : Instant}
    {begins : List GateEvent} (hbegins : ∀ e ∈ begins, BeginsAnew w challenge e)
    (hunhurried : Along (Gate.step c serde w) (Unhurried w) gate begins)
    (hlate : (run (Gate.step c serde w) gate begins).now ≤ t)
    (hlive : gate.Live challenge purpose t) :
    (run (Gate.step c serde w) gate begins).Live challenge purpose t := by
  induction begins generalizing gate with
  | nil => exact hlive
  | cons event begins ih =>
    have hstep := live_begin (hbegins event List.mem_cons_self) hunhurried.1
      (Instant.le_trans (now_le_run begins) hlate) hlive
    exact ih (fun e he => hbegins e (List.mem_cons_of_mem _ he)) hunhurried.2 hlate hstep

/-- In a run in which no begin meets the end of the registration window, the
closed vault is opened by none but who holds a passkey of it and answers a
challenge that stands, and a live challenge is lost to no begin. -/
theorem unlocks_gated {signed : CredentialPublicKey w → Bytes → Prop}
    (hforge : Unforgeable w signed) (rp : RelyingParty) (store : Store)
    (handedOver : Option UnlockedVault) (file : Stored) (nonce : Nonce) (now : Instant)
    (events : List GateEvent)
    (hunhurried : Along (Gate.step c serde w) (Unhurried w)
      (Gate.starting c serde rp store handedOver file nonce now) events) :
    Gatekept c serde w signed rp (Gate.starting c serde rp store handedOver file nonce now)
      events := by
  constructor
  · apply along_of_invariant (Gate.step c serde w) (I := Gate.Sound c serde rp)
      (P := fun _ _ => True)
    · exact fun gate event h _ => sound_step h event
    · intro gate event h _ ctx request _
      exact guards_of_sound hforge h ctx request
    · exact along_of_forall _ (fun _ _ => trivial) _ _
    · exact sound_starting store handedOver file nonce now
  · intro before begins challenge purpose t hsplit hbegins hlate hlive
    subst hsplit
    rw [along_append] at hunhurried
    rw [run_append] at hlate ⊢
    exact live_begins hbegins hunhurried.2 hlate hlive

end Runs

namespace Window

/-- No response is read, and no key is known. -/
def crates : WebCrates where
  P256Key := Empty
  Ed25519Key := Empty
  json _ := none
  cbor _ := none
  encodeUrlSafe _ := ""
  decodeUrlSafe _ := none
  sha256 bytes := bytes
  p256FromSec1 _ := none
  p256ToSec1 _ := []
  p256Verify _ _ _ := false
  ed25519FromBytes _ := none
  ed25519ToBytes _ := []
  ed25519Verify _ _ _ := false

def signed (key : CredentialPublicKey crates) (_ : Bytes) : Prop :=
  match key with
  | .es256 key => nomatch key
  | .ed25519 key => nomatch key

def rp : RelyingParty := ⟨"localhost", ["http://localhost"]⟩

def start : Gate :=
  .starting plainCrypto Bench.plainSerde rp (Store.newWithToken 0 Duration.zero) none .absent Bench.plainInitial.bodyNonce
    ⟨0, by decide⟩

def ctx (instants : Instants) (challenge : Bytes) : CeremonyCtx :=
  { HandedOver.ctx with instants := instants, challenge := challenge }

def post (path : String) : PageRequest := ⟨"POST", path, some "http://localhost", []⟩

def armed : GateEvent := .arm Vault.zeroKey "laptop" (Instants.constant ⟨0, by decide⟩)

/-- A challenge, two hundred seconds into the window. -/
def evaluated : GateEvent :=
  .request (ctx (Instants.constant ⟨200000000000, by decide⟩) [9]) (post "/register/evaluate")

def begun : GateEvent :=
  .request (ctx (Instants.constant ⟨299000000000, by decide⟩) [8]) (post "/begin")

/-- A begin whose first look is in the window, and whose second is not. -/
def straddling : Instants where
  now i := if i = 0 then ⟨299999999999, by decide⟩ else ⟨300000000000, by decide⟩
  last := ⟨300000000000, by decide⟩
  mono i := by
    rw [Instant.le_iff]
    by_cases h : i = 0 <;> simp [h]
  le_last i := by
    rw [Instant.le_iff]
    by_cases h : i = 0 <;> simp [h]

def late : GateEvent := .request (ctx straddling [8]) (post "/begin")

theorem unforgeable : Unforgeable crates signed := by
  intro key message signature _
  cases key with
  | es256 key => cases key
  | ed25519 key => cases key

end Window

namespace Passkey

def text (bytes : Bytes) : String := String.ofList (bytes.map fun b => Char.ofNat b.toNat)

def clientData : JsonValue :=
  .object [("type", .text "webauthn.get"), ("challenge", .text (text [9])),
    ("origin", .text "http://localhost")]

def sha256 (bytes : Bytes) : Bytes := (bytes ++ List.replicate 32 0).take 32

def authenticatorData : Bytes := sha256 (utf8 "localhost") ++ [5, 0, 0, 0, 1]

def response : JsonValue :=
  .object [("credential_id", .text (text [3])),
    ("authenticator_data", .text (text authenticatorData)),
    ("client_data_json", .text (text [1])), ("signature", .text (text [4])),
    ("prf_output", .text (text (List.replicate 32 6)))]

/-- What the one authenticator has signed. -/
def message : Bytes := authenticatorData ++ sha256 [1]

/-- One key, which has signed one message. -/
def crates : WebCrates where
  P256Key := Unit
  Ed25519Key := Empty
  json bytes := if bytes = [1] then some clientData else if bytes = [2] then some response else none
  cbor _ := none
  encodeUrlSafe := text
  decodeUrlSafe s := some (s.toList.map fun c => c.toNat.toUInt8)
  sha256 := sha256
  p256FromSec1 bytes := if bytes = [7] then some () else none
  p256ToSec1 _ := [7]
  p256Verify _ bytes signature := bytes = message && signature = [4]
  ed25519FromBytes _ := none
  ed25519ToBytes _ := []
  ed25519Verify _ _ _ := false

def signed (_ : CredentialPublicKey crates) (bytes : Bytes) : Prop := bytes = message

theorem unforgeable : Unforgeable crates signed := by
  intro key bytes signature h
  cases key with
  | es256 key =>
    have hverified : (decide (bytes = message) && decide (signature = [4])) = true := h
    rw [Bool.and_eq_true, decide_eq_true_eq] at hverified
    exact hverified.1
  | ed25519 key => cases key

/-- The vault with the passkey among its slots. -/
def vault : UnlockedVault :=
  (Bench.plainVault.addPasskeySlot plainCrypto (Stored.commitTo .done) (Bench.plainDraws 7)
    (List.replicate 32 6) (Bench.fill 32 8) "localhost" [3] [1, 7] "laptop"
      (.holds Bench.plainVault)).2.1

def start : Gate :=
  .starting plainCrypto Bench.plainSerde Window.rp (Store.newWithToken 0 Duration.zero) none
    (.holds vault) Bench.plainInitial.bodyNonce ⟨0, by decide⟩

def begun : GateEvent :=
  .request (Window.ctx (Instants.constant ⟨1100000000, by decide⟩) [9]) (Window.post "/begin")

def begunAgain : GateEvent :=
  .request (Window.ctx (Instants.constant ⟨1500000000, by decide⟩) [8]) (Window.post "/begin")

/-- An answer that is empty, and the authenticator's to the first challenge. -/
def unsigned : GateEvent :=
  .request (Window.ctx (Instants.constant ⟨2000000000, by decide⟩) [8])
    ⟨"POST", "/unlock/finish", some "http://localhost", []⟩

def finished : GateEvent :=
  .request (Window.ctx (Instants.constant ⟨3000000000, by decide⟩) [8])
    ⟨"POST", "/unlock/finish", some "http://localhost", [2]⟩

def events : List GateEvent := [begun, begunAgain, unsigned, finished]

def after (events : List GateEvent) : Gate :=
  run (Gate.step plainCrypto Bench.plainSerde crates) start events

end Passkey

theorem unlocks_gated_by_passkey :
    ((Passkey.after [Passkey.begun, Passkey.begunAgain, Passkey.unsigned]).daemon.closed = true ∧
      (Passkey.after Passkey.events).daemon.openVault.isSome = true ∧
      Gatekept plainCrypto Bench.plainSerde Passkey.crates Passkey.signed Window.rp
        Passkey.start Passkey.events) ∧
    (run (Gate.step plainCrypto Bench.plainSerde Window.crates) Window.start
        [Window.armed, Window.evaluated]).Live [9] .registerPasskey ⟨300000000000, by decide⟩ ∧
      Gatekept plainCrypto Bench.plainSerde Window.crates Window.signed Window.rp
        Window.start [Window.armed, Window.evaluated, Window.begun] := by
  refine ⟨⟨by decide +kernel, by decide +kernel, ?_⟩, ⟨rfl, rfl⟩, ?_⟩
  · apply unlocks_gated Passkey.unforgeable
    exact ⟨fun _ _ _ _ hlive => hlive, fun _ _ _ _ hlive => hlive, fun _ _ _ _ hlive => hlive,
      fun _ _ _ _ hlive => hlive, trivial⟩
  · apply unlocks_gated Window.unforgeable
    refine ⟨trivial, ?_, ?_, trivial⟩
    · intro h
      cases h
    · intro _ _ a ha hlive
      exact hlive

/-- A begin that is caught by the end of the window takes the live challenge of
another page with it. -/
theorem begin_takes_live_challenge :
    ¬ Gatekept plainCrypto Bench.plainSerde Window.crates Window.signed Window.rp
      Window.start [Window.armed, Window.evaluated, Window.late] := by
  intro h
  have hlive := h.spared [Window.armed, Window.evaluated] [Window.late] [9] .registerPasskey
    ⟨300000000000, by decide⟩ rfl (by
      intro e he
      rw [List.mem_singleton.mp he]
      exact ⟨rfl, by decide⟩) (Instant.le_refl _) ⟨rfl, rfl⟩
  exact Bool.noConfusion hlive.1

end Daemon

end CacheWarden
