import CacheWarden.Vault.UnlockedSpec
import CacheWarden.Lib.Transition

/-!
# Refresh arbitration between callers of one open vault

Any number of callers take turns at one vault. The wall clock never goes back,
and the commit behind each turn may fail in any way. Between two deletes of a
key its version counts the successful writes; of the claims granted on it and
not ended since, at most one is active, and only its token gets a write or a
release through.
-/

set_option autoImplicit false

namespace CacheWarden

namespace Vault

inductive Call where
  | upsert (e : VaultEntry) (token : Option ClaimToken)
  | upsertCas (e : VaultEntry) (expectedVersion : UInt64) (token : Option ClaimToken)
  | claimRefresh (key : String) (expectedVersion : UInt64) (ttl : Duration) (mint : ClaimToken)
  | releaseClaim (key : String) (token : ClaimToken)
  | delete (key : String)
  deriving DecidableEq

inductive Reply where
  | written (version : UInt64)
  | claimed (token : ClaimToken)
  | released
  | deleted (found : Bool)
  | refused (e : VaultError)
  deriving DecidableEq

/-- A call, with what the wall clock shows when the claim is looked at and when
the entry is stamped. -/
structure Turn where
  call : Call
  checkMs : UInt64
  writeMs : UInt64
  deriving DecidableEq

structure Session (W : Type) where
  vault : UnlockedVault
  wall : UInt64
  world : W

def Call.key : Call → String
  | .upsert e _ => e.key
  | .upsertCas e _ _ => e.key
  | .claimRefresh key _ _ _ => key
  | .releaseClaim key _ => key
  | .delete key => key

/-- Whether the call is a write, and the token it presents. -/
def Call.presents : Call → Option (Option ClaimToken)
  | .upsert _ token => some token
  | .upsertCas _ _ token => some token
  | _ => none

namespace Session

variable {W : Type}

/-- The reading at which a turn looks at the claim: the clock is held where it
was while it shows less. -/
def reading (s : Session W) (turn : Turn) : UInt64 := max s.wall turn.checkMs

def perform (commit : Commit W) (s : Session W) (turn : Turn) : Reply × Session W :=
  let t := s.reading turn
  let u := max t turn.writeMs
  match turn.call with
  | .upsert e token =>
    match s.vault.upsert commit t u e token s.world with
    | (.ok v, vault, w) => (.written v, ⟨vault, u, w⟩)
    | (.error err, vault, w) => (.refused err, ⟨vault, u, w⟩)
  | .upsertCas e expected token =>
    match s.vault.upsertCas commit t u e expected token s.world with
    | (.ok v, vault, w) => (.written v, ⟨vault, u, w⟩)
    | (.error err, vault, w) => (.refused err, ⟨vault, u, w⟩)
  | .claimRefresh key expected ttl mint =>
    match s.vault.claimRefresh commit t mint key expected ttl s.world with
    | (.ok token, vault, w) => (.claimed token, ⟨vault, u, w⟩)
    | (.error err, vault, w) => (.refused err, ⟨vault, u, w⟩)
  | .releaseClaim key token =>
    match s.vault.releaseClaim commit t key token s.world with
    | (.ok (), vault, w) => (.released, ⟨vault, u, w⟩)
    | (.error err, vault, w) => (.refused err, ⟨vault, u, w⟩)
  | .delete key =>
    match s.vault.delete commit key s.world with
    | (.ok found, vault, w) => (.deleted found, ⟨vault, u, w⟩)
    | (.error err, vault, w) => (.refused err, ⟨vault, u, w⟩)

def step (commit : Commit W) (s : Session W) (turn : Turn) : Session W := (s.perform commit turn).2

/-- The turn wrote key `k`. -/
def wrote (commit : Commit W) (k : String) (s : Session W) (turn : Turn) : Bool :=
  match (s.perform commit turn).1 with
  | .written _ => turn.call.key = k
  | _ => false

/-- The turn was a compare-and-swap on `k` that expected `v` and won. -/
def wonCas (commit : Commit W) (k : String) (v : UInt64) (s : Session W) (turn : Turn) : Bool :=
  match turn.call with
  | .upsertCas _ expected _ => expected = v && s.wrote commit k turn
  | _ => false

/-- The turn removed the entry of `k`. -/
def removed (commit : Commit W) (k : String) (s : Session W) (turn : Turn) : Bool :=
  (s.perform commit turn).1 = .deleted true && turn.call.key = k

end Session

def casIn (entry : Option VaultEntry) : UInt64 := (entry.map VaultEntry.casVersion).getD 0

@[simp] theorem casIn_some (e : VaultEntry) : casIn (some e) = e.casVersion := rfl

/-- What one call can do to the entry of `k`, `t` being the reading at which it
looked at the claim. -/
inductive Touched (k : String) (t : UInt64) (before : Option VaultEntry) :
    Call → Reply → Option VaultEntry → Prop
  | refused (call : Call) (err : VaultError) : Touched k t before call (.refused err) before
  | elsewhere (call : Call) (reply : Reply) (h : call.key ≠ k) : Touched k t before call reply before
  | upserted (e : VaultEntry) (token : Option ClaimToken) (after : VaultEntry) (hkey : e.key = k)
      (hallowed : ∀ x ∈ before, checkClaim x token t = .ok ())
      (hversion : after.casVersion = Word64.saturatingAdd (casIn before) 1)
      (hclaim : after.refreshClaim = none) :
      Touched k t before (.upsert e token) (.written after.casVersion) (some after)
  | swapped (e : VaultEntry) (expected : UInt64) (token : Option ClaimToken) (after : VaultEntry)
      (hkey : e.key = k) (hexpected : casIn before = expected)
      (hallowed : ∀ x ∈ before, checkClaim x token t = .ok ())
      (hversion : after.casVersion = casIn before + 1) (hclaim : after.refreshClaim = none) :
      Touched k t before (.upsertCas e expected token) (.written after.casVersion) (some after)
  | claimed (x : VaultEntry) (hx : before = some x) (hidle : x.activeClaim t = none)
      (expected : UInt64) (ttl : Duration) (mint : ClaimToken) :
      Touched k t before (.claimRefresh k expected ttl mint) (.claimed mint)
        (some { x with refreshClaim := some (UnlockedVault.grantedClaim mint t ttl) })
  | released (x : VaultEntry) (hx : before = some x) (token : ClaimToken)
      (hfree : ∀ c ∈ x.activeClaim t, c.token = token) :
      Touched k t before (.releaseClaim k token) .released (some { x with refreshClaim := none })
  | absent (hnone : before = none) : Touched k t before (.delete k) (.deleted false) before
  | deleted : Touched k t before (.delete k) (.deleted true) none

namespace Session

variable {W : Type} (commit : Commit W) (k : String) (s : Session W) (turn : Turn)

theorem entry_insert_self (v : UnlockedVault) {e : VaultEntry} (h : e.key = k) :
    (v.insertEntry e).entry k = some e := by
  simp [UnlockedVault.entry_insertEntry, h]

theorem entry_insert_of_ne (v : UnlockedVault) {e : VaultEntry} (h : e.key ≠ k) :
    (v.insertEntry e).entry k = v.entry k := by
  simp [UnlockedVault.entry_insertEntry, h]

/-- Everything a turn can do to one key. -/
theorem perform_touched :
    Touched k (s.reading turn) (s.vault.entry k) turn.call (s.perform commit turn).1
      ((s.perform commit turn).2.vault.entry k) := by
  unfold perform
  simp only
  rcases turn.call with ⟨e, token⟩ | ⟨e, expected, token⟩ | ⟨key, expected, ttl, mint⟩ |
    ⟨key, token⟩ | ⟨key⟩
  · rcases s.vault.upsert_cases commit (s.reading turn) (max (s.reading turn) turn.writeMs) e token
      s.world with ⟨err, w', h⟩ | ⟨hallowed, w', h⟩
    · simp only [h]
      exact .refused _ _
    · simp only [h]
      by_cases hk : e.key = k
      · rw [entry_insert_self k s.vault (by exact hk)]
        subst hk
        exact .upserted e token (UnlockedVault.written e _ _) rfl hallowed rfl rfl
      · rw [entry_insert_of_ne k s.vault (by exact hk)]
        exact .elsewhere _ _ hk
  · rcases s.vault.upsertCas_cases commit (s.reading turn) (max (s.reading turn) turn.writeMs) e
      expected token s.world with ⟨err, w', h⟩ | ⟨hexpected, hallowed, w', h⟩
    · simp only [h]
      exact .refused _ _
    · simp only [h]
      by_cases hk : e.key = k
      · rw [entry_insert_self k s.vault (by exact hk)]
        subst hk
        exact .swapped e expected token (UnlockedVault.written e _ _) rfl hexpected hallowed rfl rfl
      · rw [entry_insert_of_ne k s.vault (by exact hk)]
        exact .elsewhere _ _ hk
  · rcases s.vault.claimRefresh_cases commit (s.reading turn) mint key expected ttl s.world with
      ⟨err, w', h⟩ | ⟨e, he, hversion, hidle, w', h⟩
    · simp only [h]
      exact .refused _ _
    · simp only [h]
      have hkey := UnlockedVault.key_of_entry he
      by_cases hk : key = k
      · subst hk
        rw [entry_insert_self key s.vault (by exact hkey)]
        exact .claimed e he hidle expected ttl mint
      · rw [entry_insert_of_ne k s.vault (by rw [hkey]; exact hk)]
        exact .elsewhere _ _ hk
  · rcases s.vault.releaseClaim_cases commit (s.reading turn) key token s.world with
      ⟨err, w', h⟩ | ⟨e, he, hfree, ⟨hnone, h⟩ | ⟨w', h⟩⟩
    · simp only [h]
      exact .refused _ _
    · simp only [h]
      by_cases hk : key = k
      · subst hk
        have hsame : e = { e with refreshClaim := none } := by rw [← hnone]
        have hreleased := Touched.released (k := key) e he token hfree
        rw [← hsame, ← he] at hreleased
        exact hreleased
      · exact .elsewhere _ _ hk
    · simp only [h]
      have hkey := UnlockedVault.key_of_entry he
      by_cases hk : key = k
      · subst hk
        rw [entry_insert_self key s.vault (by exact hkey)]
        exact .released e he token hfree
      · rw [entry_insert_of_ne k s.vault (by rw [hkey]; exact hk)]
        exact .elsewhere _ _ hk
  · rcases s.vault.delete_cases commit key s.world with
      ⟨err, w', h⟩ | ⟨hnone, h⟩ | ⟨w', h⟩
    · simp only [h]
      exact .refused _ _
    · simp only [h]
      by_cases hk : key = k
      · subst hk
        exact .absent hnone
      · exact .elsewhere _ _ hk
    · simp only [h]
      rw [UnlockedVault.entry_eraseEntry]
      by_cases hk : key = k
      · subst hk
        rw [if_pos rfl]
        exact .deleted
      · rw [if_neg hk]
        exact .elsewhere _ _ hk

section Versions

theorem casOf_eq (v : UnlockedVault) : v.casOf k = casIn (v.entry k) := rfl

theorem perform_wall : (s.perform commit turn).2.wall = max (s.reading turn) turn.writeMs := by
  unfold perform
  simp only
  rcases turn.call with ⟨e, token⟩ | ⟨e, expected, token⟩ | ⟨key, expected, ttl, mint⟩ |
    ⟨key, token⟩ | ⟨key⟩ <;> simp only <;> split <;> rfl

theorem toNat_saturatingAdd_one {v : UInt64} (h : v < Word64.maxValue) :
    (Word64.saturatingAdd v 1).toNat = v.toNat + 1 := by
  rw [UInt64.lt_iff_toNat_lt, Word64.toNat_maxValue] at h
  rw [Word64.toNat_saturatingAdd, UInt64.toNat_one]
  omega

theorem toNat_add_one {v : UInt64} (h : v < Word64.maxValue) : (v + 1).toNat = v.toNat + 1 := by
  rw [UInt64.lt_iff_toNat_lt, Word64.toNat_maxValue] at h
  have hsum : (v + 1).toNat = (v.toNat + 1) % 18446744073709551616 := UInt64.toNat_add v 1
  omega

/-- A turn that removes nothing moves the version by one when it writes, and
not at all otherwise. -/
theorem step_version (hkept : s.removed commit k turn = false)
    (hroom : s.wrote commit k turn = true → s.vault.casOf k < Word64.maxValue) :
    ((s.step commit turn).vault.casOf k).toNat =
      (s.vault.casOf k).toNat + if s.wrote commit k turn then 1 else 0 := by
  have htouched := s.perform_touched commit k turn
  unfold removed at hkept
  unfold wrote at hroom ⊢
  rw [casOf_eq] at hroom
  rw [casOf_eq, casOf_eq]
  show (casIn ((s.perform commit turn).2.vault.entry k)).toNat = _
  generalize (s.perform commit turn).2.vault.entry k = after at htouched
  generalize (s.perform commit turn).1 = reply at htouched hkept hroom ⊢
  generalize s.vault.entry k = before at htouched hroom ⊢
  generalize turn.call = call at htouched hkept hroom ⊢
  cases htouched with
  | refused => simp
  | elsewhere call reply h =>
    cases reply <;> simp [h]
  | upserted e token after hkey hallowed hversion hclaim =>
    have hlt := hroom (by simp [Call.key, hkey])
    simp [Call.key, hkey, hversion, toNat_saturatingAdd_one hlt]
  | swapped e expected token after hkey hexpected hallowed hversion hclaim =>
    have hlt := hroom (by simp [Call.key, hkey])
    rw [casIn_some, hversion, toNat_add_one hlt]
    simp [Call.key, hkey]
  | claimed x hx =>
    subst hx
    rfl
  | released x hx =>
    subst hx
    rfl
  | absent hnone => simp
  | deleted => simp [Call.key] at hkept

theorem wonCas_reads {v : UInt64} (h : s.wonCas commit k v turn = true) :
    s.vault.casOf k = v ∧ s.wrote commit k turn = true := by
  have htouched := s.perform_touched commit k turn
  unfold wonCas wrote at h
  unfold wrote
  rw [casOf_eq]
  generalize (s.perform commit turn).2.vault.entry k = after at htouched
  generalize (s.perform commit turn).1 = reply at htouched h ⊢
  generalize s.vault.entry k = before at htouched ⊢
  generalize turn.call = call at htouched h ⊢
  cases htouched with
  | refused call err => cases call <;> simp at h
  | elsewhere call reply hne =>
    cases call with
    | upsertCas e expected token => cases reply <;> simp_all [Call.key]
    | _ => simp at h
  | swapped e expected token after hkey hexpected hallowed hversion hclaim =>
    simp only [Bool.and_eq_true, decide_eq_true_eq] at h
    exact ⟨hexpected.trans h.1, by simp [Call.key, hkey]⟩
  | upserted => simp at h
  | claimed => simp at h
  | released => simp at h
  | absent => simp at h
  | deleted => simp at h

end Versions

section Claims

/-- The claims granted on `k` and not ended since: a successful write, release
or delete ends them all. -/
def grant (granted : List Claim) (s : Session W) (turn : Turn) : List Claim :=
  match (s.perform commit turn).1, turn.call with
  | .refused _, _ => granted
  | _, .claimRefresh key _ ttl mint =>
    if key = k then UnlockedVault.grantedClaim mint (s.reading turn) ttl :: granted else granted
  | _, call => if call.key = k then [] else granted

/-- The same over a run, from the claim the vault already holds. -/
def outstanding (granted : List Claim) (s : Session W) : List Turn → List Claim
  | [] => granted
  | turn :: turns =>
    outstanding (grant commit k granted s turn) (s.step commit turn) turns

/-- Whatever is active among the granted claims is the claim on the entry. -/
def Accounted (granted : List Claim) (s : Session W) : Prop :=
  granted.filter (·.isActiveAt s.wall) = [] ∨
    ∃ c, granted.filter (·.isActiveAt s.wall) = [c] ∧
      ∃ x, s.vault.entry k = some x ∧ x.refreshClaim = some c

theorem filter_active_later {granted : List Claim} {t u : UInt64} (h : t ≤ u) :
    granted.filter (·.isActiveAt u) =
      (granted.filter (·.isActiveAt t)).filter (·.isActiveAt u) := by
  rw [List.filter_filter]
  apply List.filter_congr
  intro c _
  cases hc : c.isActiveAt t with
  | true => simp
  | false => simp [Claim.not_active_of_le hc h]

theorem wall_le_reading : s.wall ≤ s.reading turn := by
  exact Word64.left_le_max s.wall turn.checkMs

theorem reading_le_wall : s.reading turn ≤ (s.step commit turn).wall := by
  unfold step
  rw [perform_wall]
  exact Word64.left_le_max _ _

/-- An active outstanding claim, seen at a turn's reading, is the active claim
of the entry. -/
theorem activeClaim_of_outstanding {granted : List Claim} (h : Accounted k granted s) {c : Claim}
    (hc : c ∈ granted) (hactive : c.isActiveAt (s.reading turn) = true) :
    ∃ x, s.vault.entry k = some x ∧ x.activeClaim (s.reading turn) = some c := by
  have hwall : c.isActiveAt s.wall = true := by
    by_contra hno
    have hlater := Claim.not_active_of_le (Bool.eq_false_iff.mpr hno) (s.wall_le_reading turn)
    rw [hactive] at hlater
    cases hlater
  have hmem : c ∈ granted.filter (·.isActiveAt s.wall) := List.mem_filter.mpr ⟨hc, hwall⟩
  rcases h with h | ⟨c', h, x, hx, hclaim⟩
  · rw [h] at hmem
    cases hmem
  · rw [h, List.mem_singleton] at hmem
    subst hmem
    exact ⟨x, hx, by simp [VaultEntry.activeClaim, hclaim, hactive]⟩

theorem accounted_step {granted : List Claim} (h : Accounted k granted s) :
    Accounted k (grant commit k granted s turn) (s.step commit turn) := by
  have htouched := s.perform_touched commit k turn
  have hle := s.reading_le_wall commit turn
  have hread := s.wall_le_reading turn
  have hheld : ∀ x, s.vault.entry k = some x → x.activeClaim (s.reading turn) = none →
      granted.filter (·.isActiveAt (s.reading turn)) = [] := by
    intro x hx hidle
    rw [List.filter_eq_nil_iff]
    intro c hc hactive
    obtain ⟨x', hx', hclaim⟩ := s.activeClaim_of_outstanding k turn h hc hactive
    rw [hx] at hx'
    cases hx'
    rw [hidle] at hclaim
    cases hclaim
  have hsame : ∀ s' : Session W, s'.wall = (s.step commit turn).wall →
      s'.vault.entry k = s.vault.entry k → Accounted k granted s' := by
    intro s' hwall hentry
    unfold Accounted
    rw [hwall, hentry, filter_active_later (UInt64.le_trans hread hle)]
    rcases h with h | ⟨c, h, hx⟩
    · rw [h]
      exact Or.inl rfl
    · rw [h]
      cases hc : c.isActiveAt (s.step commit turn).wall with
      | true => exact Or.inr ⟨c, by simp [hc], hx⟩
      | false => exact Or.inl (by simp [hc])
  unfold grant
  have hstep : (s.step commit turn).vault.entry k = (s.perform commit turn).2.vault.entry k := rfl
  generalize (s.perform commit turn).2.vault.entry k = after at htouched hstep
  generalize (s.perform commit turn).1 = reply at htouched ⊢
  generalize hbefore : s.vault.entry k = before at htouched
  generalize turn.call = call at htouched ⊢
  cases htouched with
  | refused call err => exact hsame _ rfl (by rw [hstep, hbefore])
  | elsewhere call reply hne =>
    have hkeep := hsame (s.step commit turn) rfl (by rw [hstep, hbefore])
    cases call <;> cases reply <;> simp_all [Call.key]
  | upserted e token after hkey => exact Or.inl (by simp [Call.key, hkey])
  | swapped e expected token after hkey => exact Or.inl (by simp [Call.key, hkey])
  | claimed x hx hidle expected ttl mint =>
    subst hx
    have hnone : granted.filter (·.isActiveAt (s.step commit turn).wall) = [] := by
      rw [filter_active_later hle, hheld x hbefore hidle]
      rfl
    simp only [if_true]
    unfold Accounted
    cases hc : (UnlockedVault.grantedClaim mint (s.reading turn) ttl).isActiveAt
        (s.step commit turn).wall with
    | true =>
      right
      exact ⟨_, by simp only [List.filter_cons, hc, hnone, if_true], _, hstep, rfl⟩
    | false =>
      left
      simp only [List.filter_cons, hc, hnone, Bool.false_eq_true, if_false]
  | released x hx token hfree => exact Or.inl (by simp [Call.key])
  | absent hnone => exact Or.inl (by simp [Call.key])
  | deleted => exact Or.inl (by simp [Call.key])

theorem accounted_outstanding {granted : List Claim} {s : Session W} (turns : List Turn)
    (h : Accounted k granted s) :
    Accounted k (outstanding commit k granted s turns)
      (Transition.run (step commit) s turns) := by
  induction turns generalizing granted s with
  | nil => exact h
  | cons turn turns ih => exact ih (s.accounted_step commit k turn h)

/-- The claim the vault holds on `k` when the session starts. -/
def held : List Claim := ((s.vault.entry k).bind VaultEntry.refreshClaim).toList

theorem accounted_held : Accounted k (s.held k) s := by
  unfold Accounted held
  rcases hx : s.vault.entry k with _ | x
  · exact Or.inl rfl
  rcases hc : x.refreshClaim with _ | c
  · exact Or.inl (by simp [hc])
  · cases hactive : c.isActiveAt s.wall with
    | true => exact Or.inr ⟨c, by simp [hc, hactive], x, rfl, hc⟩
    | false => exact Or.inl (by simp [hc, hactive])

theorem active_length_le {granted : List Claim} (h : Accounted k granted s) :
    (granted.filter (·.isActiveAt (s.reading turn))).length ≤ 1 := by
  rw [filter_active_later (s.wall_le_reading turn)]
  rcases h with h | ⟨c, h, -⟩
  · simp [h]
  · rw [h]
    exact List.length_filter_le _ _

/-- While a claim is active, a turn on its key that succeeds presented its
token. -/
theorem fenced {x : VaultEntry} {c : Claim} (hx : s.vault.entry k = some x)
    (hc : x.activeClaim (s.reading turn) = some c) (hkey : turn.call.key = k) :
    (∀ token, turn.call.presents = some token → token ≠ some c.token →
        ∃ err, (s.perform commit turn).1 = .refused err) ∧
      (∀ token, turn.call = .releaseClaim k token → token ≠ c.token →
        ∃ err, (s.perform commit turn).1 = .refused err) ∧
      ∀ expected ttl mint, turn.call = .claimRefresh k expected ttl mint →
        ∃ err, (s.perform commit turn).1 = .refused err := by
  have htouched := s.perform_touched commit k turn
  rw [hx] at htouched
  generalize (s.perform commit turn).2.vault.entry k = after at htouched
  generalize (s.perform commit turn).1 = reply at htouched ⊢
  generalize turn.call = call at htouched hkey ⊢
  cases htouched with
  | refused call err => exact ⟨fun _ _ _ => ⟨err, rfl⟩, fun _ _ _ => ⟨err, rfl⟩, fun _ _ _ _ => ⟨err, rfl⟩⟩
  | elsewhere call reply hne => exact absurd hkey hne
  | upserted e token after _ hallowed =>
    refine ⟨?_, by rintro _ ⟨⟩, by rintro _ _ _ ⟨⟩⟩
    rintro token' ⟨⟩ hne
    exact absurd (checkClaim_ok_iff.mp (hallowed x rfl) c hc) hne
  | swapped e expected token after _ _ hallowed =>
    refine ⟨?_, by rintro _ ⟨⟩, by rintro _ _ _ ⟨⟩⟩
    rintro token' ⟨⟩ hne
    exact absurd (checkClaim_ok_iff.mp (hallowed x rfl) c hc) hne
  | claimed x' hx' hidle =>
    cases hx'
    rw [hc] at hidle
    cases hidle
  | released x' hx' token hfree =>
    cases hx'
    refine ⟨by rintro _ ⟨⟩, ?_, by rintro _ _ _ ⟨⟩⟩
    rintro token' ⟨⟩ hne
    exact absurd (hfree c hc).symm hne
  | absent hnone => cases hnone
  | deleted => exact ⟨by rintro _ ⟨⟩, by rintro _ ⟨⟩, by rintro _ _ _ ⟨⟩⟩

end Claims

/-- A turn that removes nothing under `k`, and writes it only below the last
version. -/
def Undisturbed (s : Session W) (turn : Turn) : Prop :=
  s.removed commit k turn = false ∧
    (s.wrote commit k turn = true → s.vault.casOf k < Word64.maxValue)

/-- Arbitration on one key, at any point of any session: the version counts the
writes since the last delete, one compare-and-swap wins for each version, one
claim is active at most, and while it is, a turn that does not present its token
is refused. -/
theorem session_arbitrates (turns : List Turn) :
    let now := Transition.run (step commit) s turns
    let granted := outstanding commit k (s.held k) s turns
    (Transition.Along (step commit) (Undisturbed commit k) s (turns ++ [turn]) →
      (now.vault.casOf k).toNat =
          (s.vault.casOf k).toNat + Transition.tally (step commit) (wrote commit k) s turns ∧
        ((now.step commit turn).vault.casOf k).toNat =
          (now.vault.casOf k).toNat + (if now.wrote commit k turn then 1 else 0) ∧
        ∀ v, Transition.tally (step commit) (wonCas commit k v) s (turns ++ [turn]) ≤ 1) ∧
      (granted.filter (·.isActiveAt (now.reading turn))).length ≤ 1 ∧
      ∀ c ∈ granted, c.isActiveAt (now.reading turn) = true → turn.call.key = k →
        (∀ token, turn.call.presents = some token → token ≠ some c.token →
            ∃ err, (now.perform commit turn).1 = .refused err) ∧
          (∀ token, turn.call = .releaseClaim k token → token ≠ c.token →
            ∃ err, (now.perform commit turn).1 = .refused err) ∧
          ∀ expected ttl mint, turn.call = .claimRefresh k expected ttl mint →
            ∃ err, (now.perform commit turn).1 = .refused err := by
  intro now granted
  have haccounted := accounted_outstanding commit k turns (s.accounted_held k)
  refine ⟨?_, now.active_length_le k turn haccounted, ?_⟩
  · intro halong
    obtain ⟨hturns, hturn, -⟩ := (Transition.along_append _ _ _ _ _).mp halong
    refine ⟨?_, now.step_version commit k turn hturn.1 hturn.2, ?_⟩
    · exact Transition.run_tally (step commit) (fun s => (s.vault.casOf k).toNat) (wrote commit k)
        (fun s turn h => s.step_version commit k turn h.1 h.2) s turns hturns
    · intro v
      refine Transition.tally_le_one (step commit) (I := fun _ => True)
        (fun s => (s.vault.casOf k).toNat) (wonCas commit k v) v.toNat (fun _ _ _ _ => trivial)
        ?_ ?_ ?_ s _ halong trivial
      · intro s turn _ h
        rw [s.step_version commit k turn h.1 h.2]
        omega
      · intro s turn _ h hwon
        rw [(s.wonCas_reads commit k turn hwon).1]
      · intro s turn _ h hwon
        rw [s.step_version commit k turn h.1 h.2, (s.wonCas_reads commit k turn hwon).2]
        simp
  · intro c hc hactive hkey
    obtain ⟨x, hx, hclaim⟩ := now.activeClaim_of_outstanding k turn haccounted hc hactive
    exact now.fenced commit k turn hx hclaim hkey

section Lapsed

theorem length_zeros : (List.replicate 16 (0 : UInt8)).length = 16 := rfl

/-- A vault with no slot and no entry, under a key of zeroes. -/
def blankVault : UnlockedVault where
  vaultId := ⟨List.replicate 16 0, length_zeros⟩
  formatVersion := formatVersion
  dekGeneration := 1
  aeadAlg := .xChaCha20Poly1305
  kdfAlg := .hkdfSha256
  slots := []
  dek := zeroKey
  entries := ∅
  keyed := keyed_empty

def sureCommit : Commit Unit := fun _ w => (.ok (), w)

def openingAt (version : UInt64) : Session Unit where
  vault := blankVault.insertEntry { VaultEntry.new "ns/token" [1] 0 with casVersion := version }
  wall := 0
  world := ()

def oneMillisecond : Duration := Duration.fromMillis 1

/-- The first caller claims and lapses, the second takes over and lapses, and
the write of the first, under its old token, still goes through. A write at the
last version does not raise it. -/
theorem lapsed_holder_writes :
    let first : Turn := ⟨.claimRefresh "ns/token" 1 oneMillisecond ⟨"first"⟩, 10, 10⟩
    let second : Turn := ⟨.claimRefresh "ns/token" 1 oneMillisecond ⟨"second"⟩, 20, 20⟩
    let write : Turn := ⟨.upsert (VaultEntry.new "ns/token" [2] 0) (some ⟨"first"⟩), 30, 30⟩
    let s := openingAt 1
    let s' := s.step sureCommit first
    let s'' := s'.step sureCommit second
    (s.perform sureCommit first).1 = .claimed ⟨"first"⟩ ∧
      (s'.perform sureCommit second).1 = .claimed ⟨"second"⟩ ∧
      (s''.perform sureCommit write).1 = .written 2 ∧
      ((openingAt Word64.maxValue).perform sureCommit write).1 = .written Word64.maxValue := by
  decide

end Lapsed

end Session

end Vault

end CacheWarden
