import CacheWarden.Daemon.Ceremony
import CacheWarden.Daemon.Restore

/-!
# Two ways to open the vault

A recovery code opens the vault over the control socket and a passkey through
the ceremony. Both restore the entries through one function, with two clocks
that a process builds one after the other, the first of them backdated where a
store was handed over.
-/

set_option autoImplicit false

namespace CacheWarden

namespace Daemon

open Vault Store

def gracefulRestartClockHeadroom : Duration := Duration.fromSecs 86400

section Clocks

/-- The clock of a process, built as it comes up. -/
def daemonClock (handedOver : Bool) (started : Instants) : SystemClock :=
  if handedOver then SystemClock.withEpochOffset started gracefulRestartClockHeadroom
  else SystemClock.new (started.now 0)

/-- The clock its ceremony restores entries with, built after that. -/
def ceremonyClock (started : Instants) : SystemClock := SystemClock.new (started.now 2)

theorem daemonClock_base_le (handedOver : Bool) (started : Instants) :
    (daemonClock handedOver started).base ≤ (ceremonyClock started).base := by
  have h02 := started.now_mono (show 0 ≤ 2 by omega)
  have h12 := started.now_mono (show 1 ≤ 2 by omega)
  rw [Instant.le_iff] at h02 h12 ⊢
  unfold daemonClock ceremonyClock SystemClock.new SystemClock.withEpochOffset
  cases handedOver with
  | false => exact h02
  | true =>
    simp only [if_true]
    unfold Instant.checkedSub
    split
    · simp only [Option.getD_some]
      omega
    · exact h12

end Clocks

/-- A request of the ceremony of a process that was started then. -/
def CeremonyCtx.startedAt (ctx : CeremonyCtx) (started : Instants) : CeremonyCtx :=
  { ctx with clock := ceremonyClock started, instants := ctx.instants.since (started.now 2) }

/-- The same restoring with the clock of the daemon, over the control socket. -/
def HandlerCtx.besides (ctx : HandlerCtx) (handedOver : Bool) (started : Instants)
    (ceremony : CeremonyCtx) : HandlerCtx :=
  { ctx with
    clock := (daemonClock handedOver started).readings
      (((ceremony.startedAt started).instants).after 1)
    wall := ceremony.wall }

/-- Two slices of a key that nothing read with this clock tells apart, from the
moment the first of them is loaded. -/
structure ReadAlike (a b : KeySlice) : Prop where
  rest : { a with entry := none } = { b with entry := none }
  absent : a.entry = none ↔ b.entry = none
  entry : ∀ e e', a.entry = some e → b.entry = some e' →
    e'.value = e.value ∧ e'.source = e.source ∧ e'.ttl = e.ttl ∧
      ∀ now, e.loadedAt ≤ now → e'.state now = e.state now

theorem readAlike_refl (a : KeySlice) : ReadAlike a a where
  rest := rfl
  absent := Iff.rfl
  entry e e' he he' := by
    rw [he] at he'
    cases he'
    exact ⟨rfl, rfl, rfl, fun _ _ => rfl⟩

section Windows

variable {secret : Bytes} {ttl : Ttl} {t u now : Monotonic}

theorem state_new (hhard : ttl.hard = none) :
    (CacheEntry.new .static secret ttl t).state now =
      if ttl.soft.any (· ≤ now.saturatingDurationSince t) then .softExpired else .active := by
  rw [CacheEntry.state_of_value (show (CacheEntry.new .static secret ttl t).value = some secret
    from rfl)]
  simp only [CacheEntry.new, hhard, Option.any_none, Bool.false_eq_true, if_false]
  rfl

/-- Loaded with a reading that lags behind, an entry reads as it should if and
only if it has no soft window to be late for. -/
theorem lagging_state_iff (hhard : ttl.hard = none) (hlag : u < t)
    (hroom : ∀ s ∈ ttl.soft, t.offset.nanos + s.nanos < 18446744073709551616000000000) :
    (∀ now, t ≤ now → (CacheEntry.new .static secret ttl u).state now =
        (CacheEntry.new .static secret ttl t).state now) ↔
      ∀ s ∈ ttl.soft, s.nanos = 0 := by
  rw [Monotonic.lt_iff] at hlag
  constructor
  · intro h s hs
    by_contra hpos
    have hbound := hroom s hs
    have hnow : ∃ now : Monotonic, now.offset.nanos =
        t.offset.nanos + (s.nanos - (t.offset.nanos - u.offset.nanos)) :=
      ⟨⟨⟨_, by omega⟩⟩, rfl⟩
    obtain ⟨now, hnow⟩ := hnow
    have halike := h now (by rw [Monotonic.le_iff]; omega)
    rw [state_new hhard, state_new hhard, Option.mem_def.mp hs] at halike
    simp only [Option.any_some, Duration.le_iff, Monotonic.nanos_saturatingDurationSince,
      decide_eq_true_eq] at halike
    rw [if_pos (by omega), if_neg (by omega)] at halike
    cases halike
  · intro h now hnow
    rw [state_new hhard, state_new hhard]
    cases hs : ttl.soft with
    | none => rfl
    | some s =>
      have hzero := h s hs
      simp only [Option.any_some, Duration.le_iff, hzero, Nat.zero_le, decide_true, if_true]

/-- One entry restored at two readings, the second of them behind. -/
theorem restored_alike_iff (before : KeySlice) (e : VaultEntry) (wall : UInt64) (hle : u ≤ t)
    (hroom : ∀ s ∈ (restoredTtl e).soft,
      t.offset.nanos + s.nanos < 18446744073709551616000000000) :
    ReadAlike (restoredSlice before e t wall) (restoredSlice before e u wall) ↔
      u = t ∨ ∀ s ∈ (restoredTtl e).soft, s.nanos = 0 := by
  by_cases heq : u = t
  · subst heq
    exact iff_of_true (readAlike_refl _) (Or.inl rfl)
  have hlag : u < t := by
    rw [Monotonic.lt_iff]
    exact Nat.lt_of_le_of_ne hle fun hn => heq (Monotonic.ext hn)
  rw [or_iff_right heq, ← @lagging_state_iff e.secret (restoredTtl e) t u rfl hlag hroom]
  constructor
  · intro h now hnow
    exact (h.entry _ _ rfl rfl).2.2.2 now hnow
  · intro h
    refine ⟨rfl, ?_, ?_⟩
    · simp [restoredSlice]
    · intro a b ha hb
      cases ha
      cases hb
      exact ⟨rfl, rfl, rfl, h⟩

end Windows

section Readings

variable {handedOver : Bool} {started : Instants} {instant : Instant}

theorem ceremony_reading_le :
    (ceremonyClock started).now instant ≤ (daemonClock handedOver started).now instant := by
  have hbase := daemonClock_base_le handedOver started
  rw [Instant.le_iff] at hbase
  rw [Monotonic.le_iff, SystemClock.nanos_now, SystemClock.nanos_now]
  omega

theorem readings_eq_iff (hlater : started.now 2 ≤ instant) :
    (ceremonyClock started).now instant = (daemonClock handedOver started).now instant ↔
      (daemonClock handedOver started).base = (ceremonyClock started).base := by
  have hbase := daemonClock_base_le handedOver started
  rw [Instant.le_iff] at hbase hlater
  have hceremony : (ceremonyClock started).base.nanos = (started.now 2).nanos := rfl
  constructor
  · intro h
    have hnanos := congrArg (fun m : Monotonic => m.offset.nanos) h
    simp only [SystemClock.nanos_now] at hnanos
    apply Instant.ext
    omega
  · intro h
    apply Monotonic.ext
    rw [SystemClock.nanos_now, SystemClock.nanos_now, h]

/-- The windows of the vault end within the range of a reading. -/
theorem reading_room (e : VaultEntry) (s : Duration) (hs : s ∈ (restoredTtl e).soft) :
    ((daemonClock handedOver started).now instant).offset.nanos + s.nanos <
      18446744073709551616000000000 := by
  have hbound := instant.bound
  simp only [restoredTtl, Option.mem_def, Option.map_eq_some_iff] at hs
  obtain ⟨millis, -, rfl⟩ := hs
  have hmillis := Word64.toNat_lt millis
  rw [SystemClock.nanos_now, Duration.nanos_fromMillis]
  omega

end Readings

section Unlock

variable {web : WebAuthn} {ctx : CeremonyCtx} {cer : Ceremony} {s : State} {body : Body UnlockBody}
  {n : ℕ}

theorem unlock_locked {opened : Except VaultError Unit} {file : Stored} {state : VaultState}
    (h : VaultState.locked.unlock opened file = (.ok (), state)) :
    ∃ vault, file = .holds vault ∧ state = .unlocked vault := by
  unfold VaultState.unlock Stored.unlockWith at h
  cases file with
  | absent => cases h
  | damaged e => cases h
  | holds vault =>
    cases opened with
    | error e => cases h
    | ok u =>
      cases h
      exact ⟨vault, rfl, rfl⟩

theorem unlock_failed {opened : Except VaultError Unit} {file : Stored} {state : VaultState}
    {e : VaultUnlockError} (h : VaultState.locked.unlock opened file = (.error e, state)) :
    state = .locked := by
  unfold VaultState.unlock at h
  simp only at h
  split at h <;> cases h
  rfl

theorem opened_of_unlock {opened : Except VaultError Unit} {file : Stored} {state : VaultState}
    (h : VaultState.locked.unlock opened file = (.ok (), state)) : opened = .ok () := by
  obtain ⟨vault, rfl, -⟩ := unlock_locked h
  cases opened with
  | ok u => rfl
  | error e => cases h

/-- A ceremony that unlocks opens the closed vault from its file and restores its
entries. -/
theorem unlockFinish_unlocked (h : (cer.unlockFinish web ctx s body).1 = .unlocked n) :
    ∃ vault, s.vault = some .locked ∧ s.file = .holds vault ∧
      (cer.unlockFinish web ctx s body).2.2 =
        { s with
          vault := some (.unlocked vault)
          store := (installVaultEntries s.store s.store.controlCap
            (ctx.clock.readings (ctx.instants.after 1)) ctx.wall vault).2 } := by
  revert h
  unfold Ceremony.unlockFinish
  split
  · intro h; cases h
  · intro h; cases h
  split
  swap
  · intro h; cases h
  rename_i hlocked
  split
  · intro h; cases h
  split
  · intro h; cases h
  split
  · intro h; cases h
  split
  · intro h; cases h
  simp only
  split
  · intro h; cases h
  split
  · intro h; cases h
  rename_i state hstate
  split
  · intro h; cases h
  rename_i vault hvault
  intro _
  obtain ⟨v, hfile, rfl⟩ := unlock_locked hstate
  cases hvault
  exact ⟨vault, hlocked, hfile, rfl⟩

/-- A recovery code that opens a closed vault restores the entries of its file. -/
theorem handleVaultUnlock_unlocked {hctx : HandlerCtx} {code : Option Key} {m : ℕ}
    {vault : UnlockedVault} (hlocked : s.vault = some .locked) (hfile : s.file = .holds vault)
    (h : (handleVaultUnlock hctx s code).1 = .ok (.vaultUnlocked m)) :
    (handleVaultUnlock hctx s code).2 =
      { s with
        vault := some (.unlocked vault)
        store := (installVaultEntries s.store s.store.controlCap hctx.clock hctx.wall vault).2 } := by
  revert h
  unfold handleVaultUnlock unlockAndInstall VaultState.unlock
  rw [hlocked, hfile]
  simp only
  split
  · intro h; cases h
  unfold Stored.unlockWith
  cases hctx.opened with
  | error e =>
    intro h
    cases h
  | ok u =>
    intro _
    rfl

end Unlock

/-- Unlocking through the ceremony and with a recovery code at the same instants
leave a store that the daemon's clock cannot tell apart if and only if the two
clocks count from one base, or no entry that is restored has a soft window. -/
theorem passkey_unlock_alike_iff (web : WebAuthn) (handedOver : Bool) (started : Instants)
    (ctx : CeremonyCtx) (hctx : HandlerCtx) (cer : Ceremony) (s : State) (body : Body UnlockBody)
    (code : Option Key) (n m : ℕ)
    (hpasskey : (cer.unlockFinish web (ctx.startedAt started) s body).1 = .unlocked n)
    (hrecovery : (handleVaultUnlock (hctx.besides handedOver started ctx) s code).1 =
      .ok (.vaultUnlocked m)) :
    (∀ k, ReadAlike
        ((handleVaultUnlock (hctx.besides handedOver started ctx) s code).2.store.slice k)
        ((cer.unlockFinish web (ctx.startedAt started) s body).2.2.store.slice k)) ↔
      (daemonClock handedOver started).base = (ceremonyClock started).base ∨
        ∀ k e vault, s.file = .holds vault → vault.entry k = some e → Restorable e →
          ∀ soft ∈ (restoredTtl e).soft, soft.nanos = 0 := by
  obtain ⟨vault, hlocked, hfile, hopened⟩ := unlockFinish_unlocked hpasskey
  rw [hopened, handleVaultUnlock_unlocked hlocked hfile hrecovery]
  have hcap := s.store.checkCap_controlCap
  simp only [installVaultEntries_slice _ _ _ hcap]
  have hone : ∀ k e, vault.entry k = some e → Restorable e → ∀ before,
      (ReadAlike
          (installedSlice vault (hctx.besides handedOver started ctx).clock ctx.wall
            (installedAt vault k) k before)
          (installedSlice vault ((ctx.startedAt started).clock.readings
            ((ctx.startedAt started).instants.after 1)) ctx.wall (installedAt vault k) k before) ↔
        (daemonClock handedOver started).base = (ceremonyClock started).base ∨
          ∀ soft ∈ (restoredTtl e).soft, soft.nanos = 0) := by
    intro k e he hr before
    unfold installedSlice
    rw [he]
    simp only
    rw [if_pos hr, if_pos hr, ← readings_eq_iff (ctx.instants.le_now_since (started.now 2)
      (1 + installedAt vault k))]
    exact restored_alike_iff before e _ ceremony_reading_le (reading_room e)
  constructor
  · intro h
    by_cases hbase : (daemonClock handedOver started).base = (ceremonyClock started).base
    · exact Or.inl hbase
    · right
      intro k e v hv he hr
      rw [hfile] at hv
      cases hv
      exact ((hone k e he hr (s.store.slice k)).mp (h k)).resolve_left hbase
  · intro h k
    cases he : vault.entry k with
    | none =>
      unfold installedSlice
      rw [he]
      exact readAlike_refl _
    | some e =>
      by_cases hr : Restorable e
      · exact (hone k e he hr (s.store.slice k)).mpr (h.imp_right fun h => h k e vault hfile he hr)
      · unfold installedSlice
        rw [he]
        simp only
        rw [if_neg hr, if_neg hr]
        exact readAlike_refl _

namespace HandedOver

/-- A vault with one entry, to be asked about again after an hour. -/
def vault : UnlockedVault :=
  Bench.plainVault.insertEntry
    { VaultEntry.new "ns/k" [1] 0 with definition := some ⟨.static, some 3600000, none, none, ∅⟩ }

/-- Twenty-five hours after the machine came up. -/
def uptime : Instants := Instants.constant ⟨90000000000000, by decide⟩

def ctx : CeremonyCtx where
  instants := uptime
  clock := SystemClock.new (uptime.now 0)
  wall _ := 0
  challenge := [9]
  slot := Bench.plainInitial.slot
  held :=
    { vault.header with
      slots := vault.slots.map fun slot => { slot with kind := .passkeyPrf, credentialId := [7] } }
  commit := .done
  opened := .ok ()

/-- A ceremony that has issued one challenge, for this unlock. -/
def ceremony : Ceremony :=
  (Ceremony.new ⟨"localhost", []⟩).withChallenges
    ((⟨[]⟩ : ChallengeStore).issue uptime [9] (.unlock vault.vaultId vault.dekGeneration)).2

def web : WebAuthn where
  challengeIn := some
  verifyRegistration _ _ _ _ := none
  readableKey _ := true
  verifyAssertion _ _ _ _ := true

def state : State := State.starting (some .locked) (.holds vault)

def body : Body UnlockBody := .complete ⟨[7], [], [9], [], [5]⟩

end HandedOver

theorem passkey_unlock_alike_iff_handed_over :
    (∀ k, ReadAlike
        ((handleVaultUnlock (HandlerCtx.quiet.besides true HandedOver.uptime HandedOver.ctx)
          HandedOver.state (some Vault.zeroKey)).2.store.slice k)
        ((HandedOver.ceremony.unlockFinish HandedOver.web
          (HandedOver.ctx.startedAt HandedOver.uptime) HandedOver.state
            HandedOver.body).2.2.store.slice k)) ↔
      (daemonClock true HandedOver.uptime).base = (ceremonyClock HandedOver.uptime).base ∨
        ∀ k e vault, HandedOver.state.file = .holds vault → vault.entry k = some e →
          Restorable e → ∀ soft ∈ (restoredTtl e).soft, soft.nanos = 0 :=
  passkey_unlock_alike_iff HandedOver.web true HandedOver.uptime HandedOver.ctx HandlerCtx.quiet
    HandedOver.ceremony HandedOver.state HandedOver.body (some Vault.zeroKey) 1 1 (by decide)
    (by decide)

/-- After a graceful restart a passkey restores a value that the daemon takes for
a day old, where a recovery code restores a fresh one. -/
theorem passkey_unlock_stale :
    let now := (daemonClock true HandedOver.uptime).now (HandedOver.uptime.now 0)
    ((handleVaultUnlock (HandlerCtx.quiet.besides true HandedOver.uptime HandedOver.ctx)
        HandedOver.state (some Vault.zeroKey)).2.store.entryStatePure "ns/k" now,
      (HandedOver.ceremony.unlockFinish HandedOver.web (HandedOver.ctx.startedAt HandedOver.uptime)
        HandedOver.state HandedOver.body).2.2.store.entryStatePure "ns/k" now) =
      (some .active, some .softExpired) := by
  decide

end Daemon

end CacheWarden
