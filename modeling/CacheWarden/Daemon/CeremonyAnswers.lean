import CacheWarden.Daemon.CeremonyUnlock
import CacheWarden.Daemon.Handling
import CacheWarden.Daemon.Registration
import CacheWarden.Vault.UnlockedSpec

/-!
# What the ceremony answers

What a request does to the challenges that are outstanding, and to the vault. A
begin issues one challenge or none, a finish redeems the one it names, and no
other request touches any. What has been issued and what has been redeemed is
kept for the statements alone.
-/

set_option autoImplicit false

namespace CacheWarden

namespace Daemon

open Vault

section Deeds

/-- What happened to a challenge. -/
inductive Deed where
  | issued (challenge : Bytes) (purpose : Purpose) (instant : Instant)
  | redeemed (challenge : Bytes)
  deriving DecidableEq

def Deed.challenge : Deed → Bytes
  | .issued challenge _ _ => challenge
  | .redeemed challenge => challenge

/-- The challenge was issued for this at that instant, and neither redeemed nor
issued anew since. -/
def Standing (deeds : List Deed) (challenge : Bytes) (purpose : Purpose) (instant : Instant) :
    Prop :=
  ∃ before after, deeds = before ++ .issued challenge purpose instant :: after ∧
    ∀ d ∈ after, d.challenge ≠ challenge

theorem standing_issued (deeds : List Deed) (challenge : Bytes) (purpose : Purpose)
    (instant : Instant) :
    Standing (deeds ++ [.issued challenge purpose instant]) challenge purpose instant :=
  ⟨deeds, [], rfl, fun d hd => by cases hd⟩

theorem Standing.append {deeds more : List Deed} {challenge : Bytes} {purpose : Purpose}
    {instant : Instant} (h : Standing deeds challenge purpose instant)
    (hmore : ∀ d ∈ more, d.challenge ≠ challenge) :
    Standing (deeds ++ more) challenge purpose instant := by
  obtain ⟨before, after, rfl, hafter⟩ := h
  refine ⟨before, after ++ more, by rw [List.append_assoc]; rfl, ?_⟩
  intro d hd
  rcases List.mem_append.mp hd with hd | hd
  · exact hafter d hd
  · exact hmore d hd

end Deeds

namespace Ceremony

/-- The challenge that a finish comes to redeem, as far as it is read. -/
def namedByRegistration (web : WebAuthn) (ctx : CeremonyCtx) (self : Ceremony) :
    Body RegisterBody → Option Bytes
  | .complete body =>
    if (self.lapse (ctx.instants.now 0)).armed.isSome then web.challengeIn body.clientDataJson
    else none
  | _ => none

def namedByUnlock (web : WebAuthn) (ctx : CeremonyCtx) (s : State) : Body UnlockBody → Option Bytes
  | .complete body =>
    match s.vault with
    | some .locked =>
      match ctx.held.slots.find? fun slot =>
        slot.kind = .passkeyPrf && slot.credentialId = body.credentialId with
      | none => none
      | some slot =>
        if web.readableKey slot.credentialPublicKey then web.challengeIn body.clientDataJson
        else none
    | _ => none
  | _ => none

def redeeming (web : WebAuthn) (ctx : CeremonyCtx) (self : Ceremony) (s : State)
    (request : CeremonyRequest) : Option Bytes :=
  if self.poisoned || !self.originAllowed request.origin then none
  else
    match request.endpoint with
    | .registerFinish body => self.namedByRegistration web ctx body
    | .unlockFinish body => namedByUnlock web ctx s body
    | _ => none

/-- The challenge that an answer hands out. -/
def issuedBy (ctx : CeremonyCtx) : CeremonyReply → List Deed
  | .register _ _ challenge => [.issued challenge .registerPasskey (ctx.instants.now 3)]
  | .evaluate _ challenge => [.issued challenge .registerPasskey (ctx.instants.now 2)]
  | .unlock _ _ challenge =>
    [.issued challenge (.unlock ctx.held.vaultId ctx.held.dekGeneration) (ctx.instants.now 2)]
  | _ => []

/-- What a request does to a challenge. -/
def deedsOf (web : WebAuthn) (ctx : CeremonyCtx) (self : Ceremony) (s : State)
    (request : CeremonyRequest) (reply : CeremonyReply) : List Deed :=
  match request.endpoint with
  | .registerFinish _ | .unlockFinish _ =>
    ((self.redeeming web ctx s request).map Deed.redeemed).toList
  | _ => issuedBy ctx reply

end Ceremony

section Challenges

variable {store : ChallengeStore} {now : Instant} {challenge : Bytes} {purpose : Purpose}

theorem mem_dropExpired {p : Bytes × ChallengeRecord} :
    p ∈ (store.dropExpired now).outstanding ↔ p ∈ store.outstanding ∧ now < p.2.expiresAt := by
  simp [ChallengeStore.dropExpired]

theorem mem_remove {p : Bytes × ChallengeRecord} :
    p ∈ (store.remove challenge).outstanding ↔ p ∈ store.outstanding ∧ p.1 ≠ challenge := by
  simp [ChallengeStore.remove]

/-- Whatever comes of it, a challenge that was named is gone. -/
theorem mem_redeem {p : Bytes × ChallengeRecord}
    (h : p ∈ (store.redeem now challenge purpose).2.outstanding) :
    p ∈ store.outstanding ∧ p.1 ≠ challenge := by
  unfold ChallengeStore.redeem at h
  simp only at h
  have hremoved : p ∈ ((store.dropExpired now).remove challenge).outstanding →
      p ∈ store.outstanding ∧ p.1 ≠ challenge := by
    intro hp
    rw [mem_remove, mem_dropExpired] at hp
    exact ⟨hp.1.1, hp.2⟩
  split at h
  · rename_i hnone
    refine ⟨(mem_dropExpired.mp h).1, ?_⟩
    intro heq
    have hne := List.lookup_eq_none_iff.mp hnone p h
    simp [heq] at hne
  · split at h
    · exact hremoved h
    split at h
    · exact hremoved h
    · exact hremoved h

theorem redeem_ok (h : (store.redeem now challenge purpose).1 = .ok ()) :
    ∃ record, (challenge, record) ∈ store.outstanding ∧ record.purpose = purpose ∧
      now < record.expiresAt := by
  unfold ChallengeStore.redeem at h
  simp only at h
  split at h
  · cases h
  rename_i record hfound
  split at h
  · cases h
  rename_i hlive
  split at h
  · cases h
  rename_i hpurpose
  obtain ⟨front, back, hsplit, -⟩ := List.lookup_eq_some_iff.mp hfound
  have hmem : (challenge, record) ∈ (store.dropExpired now).outstanding := by
    rw [hsplit]
    simp
  exact ⟨record, (mem_dropExpired.mp hmem).1, not_not.mp hpurpose, Nat.not_le.mp hlive⟩

end Challenges

section Requests

variable {c : Crypto} {web : WebAuthn} {ctx : CeremonyCtx} {cer : Ceremony} {s : State}

/-- The ceremony with another window, and nothing else changed. -/
def Ceremony.withWindow (self : Ceremony) (armed : Option ArmedRegistration) : Ceremony :=
  { self with armed := armed }

theorem lapse_eq_withWindow (cer : Ceremony) (now : Instant) :
    cer.lapse now = cer.withWindow (cer.lapse now).armed := by
  unfold Ceremony.lapse Ceremony.withWindow
  split
  · split <;> rfl
  · rfl

/-- The answers of a request that may issue a challenge. -/
inductive Begun (ctx : CeremonyCtx) (cer : Ceremony) : CeremonyReply × Ceremony → Prop
  | panicked (armed : Option ArmedRegistration) :
      Begun ctx cer (.panicked, { cer.withWindow armed with poisoned := true })
  | refused (armed : Option ArmedRegistration) (status : ℕ) (message : String) :
      Begun ctx cer (.refused status message, cer.withWindow armed)
  | registering (armed : Option ArmedRegistration) (salt : Key) :
      Begun ctx cer ((cer.withWindow armed).issuing (ctx.instants.after 2) ctx.challenge
        .registerPasskey (.register cer.rp.rpId salt))
  | evaluating (armed : Option ArmedRegistration) :
      Begun ctx cer ((cer.withWindow armed).issuing (ctx.instants.after 1) ctx.challenge
        .registerPasskey (.evaluate cer.rp.rpId))
  | unlocking (armed : Option ArmedRegistration) (salts : List (Bytes × Key)) :
      Begun ctx cer ((cer.withWindow armed).issuing (ctx.instants.after 1) ctx.challenge
        (.unlock ctx.held.vaultId ctx.held.dekGeneration) (.unlock cer.rp.rpId salts))

theorem begin_begun : Begun ctx cer (cer.begin ctx s) := by
  unfold Ceremony.begin
  simp only
  rw [lapse_eq_withWindow cer]
  split
  · rw [lapse_eq_withWindow (cer.withWindow _) (ctx.instants.now 1)]
    split
    · exact .panicked _
    · exact .registering _ _
  · split
    · split
      · exact .refused _ _ _
      · exact .unlocking _ _
    · exact .refused _ _ _
    · exact .refused _ _ _

theorem registerEvaluate_begun : Begun ctx cer (cer.registerEvaluate ctx) := by
  unfold Ceremony.registerEvaluate
  simp only
  rw [lapse_eq_withWindow cer]
  split
  · exact .refused _ _ _
  · exact .evaluating _

theorem lapse_of_live {now : Instant} {a : ArmedRegistration} (h : cer.armed = some a)
    (hlive : now < a.expiresAt) : cer.lapse now = cer := by
  unfold Ceremony.lapse
  rw [h]
  simp only
  exact if_neg (Nat.not_le.mpr hlive)

/-- A begin panics only where the window ends between its two looks. -/
theorem begin_panicked (h : (cer.begin ctx s).1 = .panicked) :
    ∃ a, cer.armed = some a ∧ ctx.instants.now 0 < a.expiresAt ∧
      a.expiresAt ≤ ctx.instants.now 1 := by
  revert h
  unfold Ceremony.begin
  simp only
  split
  · rename_i hsome
    obtain ⟨a, ha⟩ := Option.isSome_iff_exists.mp hsome
    obtain ⟨harmed, hopen⟩ := lapse_open ha
    split
    · rename_i hnone
      intro _
      refine ⟨a, harmed, hopen, ?_⟩
      by_contra hlate
      have hkeep : ((cer.lapse (ctx.instants.now 0)).lapse (ctx.instants.now 1)).armed =
          some a := by
        rw [lapse_of_live harmed hopen, lapse_of_live harmed (Nat.not_le.mp hlate)]
        exact harmed
      rw [hkeep] at hnone
      cases hnone
    · intro h
      unfold Ceremony.issuing at h
      split at h <;> cases h
  · split
    · split
      · intro h
        cases h
      · intro h
        unfold Ceremony.issuing at h
        split at h <;> cases h
    · intro h
      cases h
    · intro h
      cases h

/-- What became of the challenges: those that stay were there and were not named,
and one may have been issued. -/
structure CarriedOn (cer cer' : Ceremony) (deeds : List Deed) : Prop where
  rp : cer'.rp = cer.rp
  outstanding : ∀ p ∈ cer'.challenges.outstanding,
    (p ∈ cer.challenges.outstanding ∧ ∀ d ∈ deeds, d.challenge ≠ p.1) ∨
      ∃ instant, deeds = [.issued p.1 p.2.purpose instant] ∧
        p.2.expiresAt = instant.add challengeTtl

theorem carried_of_mem {cer' : Ceremony} {deeds : List Deed} (hrp : cer'.rp = cer.rp)
    (hmem : ∀ p ∈ cer'.challenges.outstanding,
      p ∈ cer.challenges.outstanding ∧ ∀ d ∈ deeds, d.challenge ≠ p.1) : CarriedOn cer cer' deeds :=
  ⟨hrp, fun p hp => Or.inl (hmem p hp)⟩

theorem carried_same {cer' : Ceremony} (hrp : cer'.rp = cer.rp)
    (hchallenges : cer'.challenges = cer.challenges) : CarriedOn cer cer' [] :=
  carried_of_mem hrp fun p hp => ⟨hchallenges ▸ hp, fun d hd => by cases hd⟩

/-- A challenge that is issued takes the place of one with its bytes. -/
theorem carried_issuing {instants : Instants} {bytes : Bytes} {purpose : Purpose}
    {reply : Bytes → CeremonyReply} {deeds : CeremonyReply → List Deed}
    (hreply : deeds (reply bytes) = [.issued bytes purpose (instants.now 1)])
    (hrefused : ∀ status message, deeds (.refused status message) = []) :
    CarriedOn cer (cer.issuing instants bytes purpose reply).2
      (deeds (cer.issuing instants bytes purpose reply).1) := by
  unfold Ceremony.issuing ChallengeStore.issue
  simp only
  by_cases hmany :
      maxOutstanding ≤ (cer.challenges.dropExpired (instants.now 0)).outstanding.length
  · rw [if_pos hmany]
    simp only
    rw [hrefused]
    exact carried_of_mem rfl fun p hp => ⟨(mem_dropExpired.mp hp).1, fun d hd => by cases hd⟩
  · rw [if_neg hmany]
    simp only
    rw [hreply]
    refine ⟨rfl, ?_⟩
    intro p hp
    rcases List.mem_cons.mp hp with rfl | hp
    · exact Or.inr ⟨instants.now 1, rfl, rfl⟩
    · obtain ⟨hin, hne⟩ := mem_remove.mp hp
      refine Or.inl ⟨(mem_dropExpired.mp hin).1, ?_⟩
      intro d hd
      rw [List.mem_singleton.mp hd]
      exact Ne.symm hne

/-- The deed of a request that has issued a challenge is that it did. -/
theorem carried_begun {made : CeremonyReply × Ceremony} (h : Begun ctx cer made) :
    CarriedOn cer made.2 (Ceremony.issuedBy ctx made.1) := by
  cases h with
  | panicked armed => exact carried_same rfl rfl
  | refused armed status message => exact carried_same rfl rfl
  | registering armed salt =>
    obtain ⟨hrp, hout⟩ := @carried_issuing (cer.withWindow armed) (ctx.instants.after 2)
      ctx.challenge .registerPasskey (.register cer.rp.rpId salt) (Ceremony.issuedBy ctx) rfl
      fun _ _ => rfl
    exact ⟨hrp, hout⟩
  | evaluating armed =>
    obtain ⟨hrp, hout⟩ := @carried_issuing (cer.withWindow armed) (ctx.instants.after 1)
      ctx.challenge .registerPasskey (.evaluate cer.rp.rpId) (Ceremony.issuedBy ctx) rfl
      fun _ _ => rfl
    exact ⟨hrp, hout⟩
  | unlocking armed salts =>
    obtain ⟨hrp, hout⟩ := @carried_issuing (cer.withWindow armed) (ctx.instants.after 1)
      ctx.challenge (.unlock ctx.held.vaultId ctx.held.dekGeneration)
      (.unlock cer.rp.rpId salts) (Ceremony.issuedBy ctx) rfl fun _ _ => rfl
    exact ⟨hrp, hout⟩

/-- A finish that comes to a challenge redeems it, and another one none. -/
inductive Finished (cer : Ceremony) : Option Bytes → Ceremony → Prop
  | stopped (armed : Option ArmedRegistration) : Finished cer none (cer.withWindow armed)
  | redeemed (armed : Option ArmedRegistration) (now : Instant) (challenge : Bytes)
      (purpose : Purpose) :
      Finished cer (some challenge)
        ((cer.withWindow armed).withChallenges (cer.challenges.redeem now challenge purpose).2)

theorem carried_finished {named : Option Bytes} {cer' : Ceremony} (h : Finished cer named cer') :
    CarriedOn cer cer' (named.map Deed.redeemed).toList := by
  cases h with
  | stopped armed => exact carried_same rfl rfl
  | redeemed armed now challenge purpose =>
    apply carried_of_mem
    · rfl
    intro p hp
    obtain ⟨hin, hne⟩ := mem_redeem hp
    refine ⟨hin, ?_⟩
    intro d hd
    rw [List.mem_singleton.mp hd]
    exact Ne.symm hne

theorem verifiedRegistration_eq (body : RegisterBody) :
    (cer.verifiedRegistration web ctx body).2 =
      match web.challengeIn body.clientDataJson with
      | none => cer
      | some challenge =>
        cer.withChallenges
          (cer.challenges.redeem (ctx.instants.now 1) challenge .registerPasskey).2 := by
  unfold Ceremony.verifiedRegistration
  cases web.challengeIn body.clientDataJson with
  | none => rfl
  | some challenge =>
  simp only
  rcases cer.challenges.redeem (ctx.instants.now 1) challenge .registerPasskey with
    ⟨e | ⟨⟩, challenges⟩
  · rfl
  simp only
  split
  · rfl
  split <;> rfl

theorem finished_withWindow {named : Option Bytes} {cer' : Ceremony} (h : Finished cer named cer')
    (armed : Option ArmedRegistration) : Finished cer named (cer'.withWindow armed) := by
  cases h with
  | stopped _ => exact .stopped armed
  | redeemed _ now challenge purpose => exact .redeemed armed now challenge purpose

theorem registerFinish_finished (body : Body RegisterBody) :
    Finished cer (cer.namedByRegistration web ctx body)
      (cer.registerFinish c web ctx s body).2.1 := by
  unfold Ceremony.namedByRegistration
  unfold Ceremony.registerFinish
  simp only
  have hstopped : Finished cer none (cer.lapse (ctx.instants.now 0)) := by
    rw [lapse_eq_withWindow]
    exact .stopped _
  cases hwindow : (cer.lapse (ctx.instants.now 0)).armed with
  | none =>
    cases body with
    | unreadable => exact hstopped
    | incomplete => exact hstopped
    | complete body => exact hstopped
  | some window =>
  simp only [Option.isSome_some, if_true]
  cases body with
  | unreadable => exact hstopped
  | incomplete => exact hstopped
  | complete body =>
  simp only
  have hverified : Finished cer (web.challengeIn body.clientDataJson)
      ((cer.lapse (ctx.instants.now 0)).verifiedRegistration web ctx body).2 := by
    rw [verifiedRegistration_eq, lapse_eq_withWindow]
    cases web.challengeIn body.clientDataJson with
    | none => exact .stopped _
    | some challenge => exact .redeemed _ _ _ _
  split
  · rename_i heq
    rw [heq] at hverified
    exact hverified
  rename_i heq
  rw [heq] at hverified
  split
  · exact hverified
  split
  · exact finished_withWindow hverified none
  · exact hverified

theorem unlockFinish_finished (body : Body UnlockBody) :
    Finished cer (Ceremony.namedByUnlock web ctx s body) (cer.unlockFinish web ctx s body).2.1 := by
  unfold Ceremony.namedByUnlock
  unfold Ceremony.unlockFinish
  have hstopped : Finished cer none cer := .stopped cer.armed
  cases body with
  | unreadable => exact hstopped
  | incomplete => exact hstopped
  | complete body =>
  simp only
  cases s.vault with
  | none => exact hstopped
  | some state =>
  cases state with
  | notInitialized => exact hstopped
  | unlocked vault => exact hstopped
  | locked =>
  simp only
  cases ctx.held.slots.find? fun slot =>
    slot.kind = .passkeyPrf && slot.credentialId = body.credentialId with
  | none => exact hstopped
  | some slot =>
  simp only
  cases web.readableKey slot.credentialPublicKey with
  | false => exact hstopped
  | true =>
  simp only [Bool.not_true, Bool.false_eq_true, if_false, if_true]
  cases web.challengeIn body.clientDataJson with
  | none => exact hstopped
  | some challenge =>
  simp only
  have hredeemed : Finished cer (some challenge) (cer.withChallenges
      (cer.challenges.redeem (ctx.instants.now 0) challenge
        (.unlock ctx.held.vaultId ctx.held.dekGeneration)).2) := .redeemed cer.armed _ _ _
  split
  · rename_i heq
    rw [heq] at hredeemed
    exact hredeemed
  rename_i heq
  rw [heq] at hredeemed
  split
  · exact hredeemed
  split
  · exact hredeemed
  split
  · exact hredeemed
  · exact hredeemed

/-- What a finish that opens the vault has met. -/
structure Opening (web : WebAuthn) (ctx : CeremonyCtx) (cer : Ceremony) (s : State)
    (body : UnlockBody) (slot : Slot) (challenge : Bytes) (vault : UnlockedVault) : Prop where
  closed : s.vault = some .locked
  file : s.file = .holds vault
  listed : slot ∈ ctx.held.slots
  kind : slot.kind = .passkeyPrf
  credential : slot.credentialId = body.credentialId
  named : web.challengeIn body.clientDataJson = some challenge
  redeemed : (cer.challenges.redeem (ctx.instants.now 0) challenge
    (.unlock ctx.held.vaultId ctx.held.dekGeneration)).1 = .ok ()
  asserted : web.verifyAssertion cer.rp challenge ⟨body.credentialId, slot.credentialPublicKey⟩
    body = true
  opened : ctx.opened = .ok ()

/-- What an answer leaves of the daemon. -/
inductive Answered (web : WebAuthn) (ctx : CeremonyCtx) (cer : Ceremony) (s : State)
    (endpoint : Endpoint) : CeremonyReply → State → Prop
  | kept (reply : CeremonyReply) : Answered web ctx cer s endpoint reply s
  | registered (id : SlotId) (vault next : UnlockedVault) (file : Stored)
      (hvault : s.vault = some (.unlocked vault)) :
      Answered web ctx cer s endpoint (.registered id) (s.withVault next file)
  | unregistered (status : ℕ) (message : String) (vault : UnlockedVault) (file : Stored)
      (hvault : s.vault = some (.unlocked vault)) :
      Answered web ctx cer s endpoint (.refused status message) (s.withVault vault file)
  | opened (n : ℕ) (body : UnlockBody) (slot : Slot) (challenge : Bytes) (vault : UnlockedVault)
      (store : Store) (hbody : endpoint = .unlockFinish (.complete body))
      (h : Opening web ctx cer s body slot challenge vault) :
      Answered web ctx cer s endpoint (.unlocked n)
        { s with vault := some (.unlocked vault), store := store }

theorem addPasskeySlot_failed {W : Type} {commit : Commit W} {draws : SlotDraws}
    {self : UnlockedVault} {prfOutput : Bytes} {salt : Key} {rpId label : String}
    {credentialId credentialPublicKey : Bytes} {w : W} {e : VaultError}
    (h : (self.addPasskeySlot c commit draws prfOutput salt rpId credentialId credentialPublicKey
      label w).1 = .error e) :
    (self.addPasskeySlot c commit draws prfOutput salt rpId credentialId credentialPublicKey
      label w).2.1 = self := by
  revert h
  unfold UnlockedVault.addPasskeySlot
  split
  · exact fun _ => rfl
  split
  · exact fun _ => rfl
  rename_i slot hbuilt
  rcases UnlockedVault.commitThen_cases commit self { self with slots := self.slots ++ [slot] }
    slot.id w with ⟨-, h⟩ | ⟨_, -, h⟩
  · unfold UnlockedVault.addSlot
    rw [h]
    intro h
    cases h
  · unfold UnlockedVault.addSlot
    rw [h]
    exact fun _ => rfl

theorem registerFinish_answered (endpoint : Endpoint) (body : Body RegisterBody) :
    Answered web ctx cer s endpoint (cer.registerFinish c web ctx s body).1
      (cer.registerFinish c web ctx s body).2.2 := by
  unfold Ceremony.registerFinish
  simp only
  split
  · exact .kept _
  split
  · exact .kept _
  · exact .kept _
  split
  · exact .kept _
  split
  · exact .kept _
  rename_i vault hvault
  have hopen := unlocked_of_openVault s hvault
  split
  · exact .registered _ vault _ _ hopen
  · rename_i hfailed
    rw [addPasskeySlot_failed hfailed]
    exact .unregistered _ _ vault _ hopen

theorem unlockFinish_answered (body : Body UnlockBody) :
    Answered web ctx cer s (.unlockFinish body) (cer.unlockFinish web ctx s body).1
      (cer.unlockFinish web ctx s body).2.2 := by
  unfold Ceremony.unlockFinish
  split
  · exact .kept _
  · exact .kept _
  rename_i body
  split
  swap
  · exact .kept _
  rename_i hlocked
  split
  · exact .kept _
  rename_i slot hslot
  split
  · exact .kept _
  split
  · exact .kept _
  rename_i challenge hchallenge
  split
  · exact .kept _
  rename_i hredeem
  simp only
  split
  · exact .kept _
  rename_i hasserted
  rw [Bool.not_eq_true, Bool.not_eq_false'] at hasserted
  split
  · rename_i hunlock
    rw [unlock_failed hunlock, ← hlocked]
    exact .kept _
  rename_i state hunlock
  obtain ⟨vault, hfile, rfl⟩ := unlock_locked hunlock
  simp only [VaultState.unlockedVault]
  have hfound := List.find?_some hslot
  simp only [Bool.and_eq_true, decide_eq_true_eq] at hfound
  apply Answered.opened _ body slot challenge vault _ rfl
  constructor
  · exact hlocked
  · exact hfile
  · exact List.mem_of_find?_eq_some hslot
  · exact hfound.1
  · exact hfound.2
  · exact hchallenge
  · rw [hredeem]
  · exact hasserted
  · exact opened_of_unlock hunlock

/-- Every answer of the ceremony, by what it leaves of the daemon. -/
theorem handle_answered (request : CeremonyRequest) :
    Answered web ctx cer s request.endpoint (cer.handle c web ctx s request).1
      (cer.handle c web ctx s request).2.2 := by
  unfold Ceremony.handle
  split
  · exact .kept _
  split
  · exact .kept _
  · exact .kept _
  · exact .kept _
  simp only
  split
  · exact .kept _
  split
  · exact .kept _
  · exact .kept _
  · exact registerFinish_answered _ _
  · rename_i heq
    rw [heq]
    exact unlockFinish_answered _
  · exact .kept _

/-- Every answer carries the challenges on. -/
theorem handle_carried (request : CeremonyRequest) :
    CarriedOn cer (cer.handle c web ctx s request).2.1
      (cer.deedsOf web ctx s request (cer.handle c web ctx s request).1) := by
  obtain ⟨origin, endpoint⟩ := request
  have hstopped : CarriedOn cer cer [] := carried_same rfl rfl
  unfold Ceremony.deedsOf Ceremony.redeeming Ceremony.handle
  simp only
  cases hpoisoned : cer.poisoned with
  | true => cases endpoint <;> exact hstopped
  | false =>
  simp only [Bool.false_eq_true, if_false, Bool.false_or]
  cases hallowed : cer.originAllowed origin with
  | false =>
    cases endpoint with
    | unknown posted => cases posted <;> exact hstopped
    | page => exact hstopped
    | begin => exact hstopped
    | registerEvaluate => exact hstopped
    | registerFinish body => exact hstopped
    | unlockFinish body => exact hstopped
    | unsupported => exact hstopped
  | true =>
    cases endpoint with
    | unknown posted => cases posted <;> exact hstopped
    | page => exact hstopped
    | begin => exact carried_begun begin_begun
    | registerEvaluate => exact carried_begun registerEvaluate_begun
    | registerFinish body => exact carried_finished (registerFinish_finished body)
    | unlockFinish body => exact carried_finished (unlockFinish_finished body)
    | unsupported => exact hstopped

theorem answered_closed {web : WebAuthn} {ctx : CeremonyCtx} {cer : Ceremony} {s s' : State}
    {endpoint : Endpoint} {reply : CeremonyReply} (h : Answered web ctx cer s endpoint reply s')
    (hclosed : s'.vault = some .locked) : s' = s := by
  cases h with
  | kept => rfl
  | registered => cases hclosed
  | unregistered => cases hclosed
  | opened => cases hclosed

theorem answered_refused {web : WebAuthn} {ctx : CeremonyCtx} {cer : Ceremony} {s s' : State}
    {endpoint : Endpoint} {status : ℕ} {message : String}
    (h : Answered web ctx cer s endpoint (.refused status message) s') :
    s'.vault = s.vault ∧ s'.store = s.store := by
  cases h with
  | kept => exact ⟨rfl, rfl⟩
  | unregistered _ _ vault file hvault => exact ⟨hvault.symm, rfl⟩

theorem answered_opened {web : WebAuthn} {ctx : CeremonyCtx} {cer : Ceremony} {s s' : State}
    {endpoint : Endpoint} {reply : CeremonyReply} {vault : UnlockedVault}
    (h : Answered web ctx cer s endpoint reply s') (hclosed : s.vault = some .locked)
    (hopen : s'.vault = some (.unlocked vault)) :
    ∃ body slot challenge, endpoint = .unlockFinish (.complete body) ∧
      Opening web ctx cer s body slot challenge vault := by
  cases h with
  | kept => cases hclosed.symm.trans hopen
  | registered _ _ _ _ hvault => cases hclosed.symm.trans hvault
  | unregistered _ _ _ _ hvault => cases hclosed.symm.trans hvault
  | opened _ body slot challenge _ _ hbody h =>
    cases hopen
    exact ⟨body, slot, challenge, hbody, h⟩

end Requests

section Begins

variable {store : ChallengeStore} {challenge bytes : Bytes} {purpose : Purpose} {t : Instant}

/-- A challenge is looked up among those that are live then. -/
def ChallengeStore.liveAt (self : ChallengeStore) (t : Instant) (challenge : Bytes) :
    Option ChallengeRecord :=
  (self.dropExpired t).outstanding.lookup challenge

theorem dropExpired_dropExpired {now : Instant} (h : now ≤ t) :
    (store.dropExpired now).dropExpired t = store.dropExpired t := by
  unfold ChallengeStore.dropExpired
  congr 1
  rw [List.filter_filter]
  apply List.filter_congr
  intro p _
  rw [Instant.le_iff] at h
  simp only [Instant.lt_iff, ← Bool.decide_and, decide_eq_decide]
  omega

theorem lookup_filter_ne (l : List (Bytes × ChallengeRecord)) (hne : bytes ≠ challenge) :
    (l.filter fun p => p.1 ≠ bytes).lookup challenge = l.lookup challenge := by
  induction l with
  | nil => rfl
  | cons p l ih =>
    obtain ⟨b, record⟩ := p
    by_cases hb : b = bytes
    · have hskip : (challenge == b) = false := by
        rw [hb]
        exact beq_false_of_ne (Ne.symm hne)
      simp only [List.filter_cons, hb, ne_eq, not_true_eq_false, decide_false, Bool.false_eq_true,
        if_false]
      rw [ih, ← hb, List.lookup_cons, hskip]
    · simp only [List.filter_cons, ne_eq, hb, not_false_eq_true, decide_true, if_true]
      rw [List.lookup_cons, List.lookup_cons, ih]

/-- Issuing a challenge is no concern of another. -/
theorem liveAt_issue {instants : Instants} (hne : bytes ≠ challenge) (hlate : instants.now 0 ≤ t) :
    (store.issue instants bytes purpose).2.liveAt t challenge = store.liveAt t challenge := by
  unfold ChallengeStore.issue
  simp only
  split
  · unfold ChallengeStore.liveAt
    rw [dropExpired_dropExpired hlate]
  · have hskip : (challenge == bytes) = false := beq_false_of_ne (Ne.symm hne)
    have hrest : ((store.dropExpired (instants.now 0)).remove bytes).liveAt t challenge =
        store.liveAt t challenge := by
      unfold ChallengeStore.liveAt
      rw [← @dropExpired_dropExpired store t _ hlate]
      unfold ChallengeStore.dropExpired ChallengeStore.remove
      rw [List.filter_comm]
      exact lookup_filter_ne _ hne
    rw [← hrest]
    unfold ChallengeStore.liveAt ChallengeStore.dropExpired
    simp only [List.filter_cons]
    split
    · rw [List.lookup_cons, hskip]
    · rfl

theorem redeem_ok_congr {store' : ChallengeStore}
    (h : store'.liveAt t challenge = store.liveAt t challenge) :
    (store'.redeem t challenge purpose).1 = (store.redeem t challenge purpose).1 := by
  unfold ChallengeStore.liveAt at h
  unfold ChallengeStore.redeem
  simp only [h]
  split
  · rfl
  split
  · rfl
  split <;> rfl

/-- A begin that does not panic leaves the other challenges alone. -/
theorem begun_spares {ctx : CeremonyCtx} {cer : Ceremony} {made : CeremonyReply × Ceremony}
    (h : Begun ctx cer made) (hreply : made.1 ≠ .panicked) (hne : ctx.challenge ≠ challenge)
    (hlate : ctx.instants.last ≤ t) :
    made.2.poisoned = cer.poisoned ∧
      made.2.challenges.liveAt t challenge = cer.challenges.liveAt t challenge := by
  have hissuing : ∀ (cer' : Ceremony) (n : ℕ) (purpose : Purpose) (reply : Bytes → CeremonyReply),
      cer'.poisoned = cer.poisoned → cer'.challenges = cer.challenges →
      (cer'.issuing (ctx.instants.after n) ctx.challenge purpose reply).2.poisoned =
          cer.poisoned ∧
        (cer'.issuing (ctx.instants.after n) ctx.challenge purpose reply).2.challenges.liveAt t
            challenge =
          cer.challenges.liveAt t challenge := by
    intro cer' n purpose reply hpoisoned hchallenges
    have hissue := @liveAt_issue cer'.challenges challenge ctx.challenge purpose t
      (ctx.instants.after n) hne (Instant.le_trans ((ctx.instants.after n).le_last 0) hlate)
    rw [hchallenges] at hissue
    unfold Ceremony.issuing
    rw [hchallenges]
    split
    · rename_i heq
      rw [heq] at hissue
      exact ⟨hpoisoned, hissue⟩
    · rename_i heq
      rw [heq] at hissue
      exact ⟨hpoisoned, hissue⟩
  cases h with
  | panicked armed => exact absurd rfl hreply
  | refused armed status message => exact ⟨rfl, rfl⟩
  | registering armed salt => exact hissuing _ 2 _ _ rfl rfl
  | evaluating armed => exact hissuing _ 1 _ _ rfl rfl
  | unlocking armed salts => exact hissuing _ 1 _ _ rfl rfl

end Begins

end Daemon

end CacheWarden
