import CacheWarden.Vault.Unlocked

/-!
# What one mutation of the open vault can do

Whatever the commit does, a mutation that fails leaves the vault as it was, and
one that succeeds leaves exactly the state it committed. Each operation's
successes are said once here; later modules do not unfold it again.
-/

set_option autoImplicit false

namespace CacheWarden

namespace Vault

namespace UnlockedVault

section Entries

variable (self : UnlockedVault)

theorem entry_insertEntry (e : VaultEntry) (k : String) :
    (self.insertEntry e).entry k = if e.key = k then some e else self.entry k :=
  KeyMap.get_insert _ _ _ _

theorem entry_eraseEntry (key k : String) :
    (self.eraseEntry key).entry k = if key = k then none else self.entry k :=
  KeyMap.get_erase _ _ _

theorem casOf_of_entry {self : UnlockedVault} {k : String} {e : VaultEntry}
    (h : self.entry k = some e) : self.casOf k = e.casVersion := by
  simp [casOf, h]

theorem casOf_of_none {self : UnlockedVault} {k : String} (h : self.entry k = none) :
    self.casOf k = 0 := by
  simp [casOf, h]

theorem key_of_entry {self : UnlockedVault} {k : String} {e : VaultEntry}
    (h : self.entry k = some e) : e.key = k :=
  self.keyed k e h

/-- The entry a write installs. -/
def written (e : VaultEntry) (version now : UInt64) : VaultEntry :=
  { e with casVersion := version, refreshClaim := none, updatedAtEpochMs := now }

end Entries

section Outcomes

variable {W : Type} (commit : Commit W) {self : UnlockedVault} {w : W}

theorem commitThen_cases {α : Type} (self next : UnlockedVault) (value : α) (w : W) :
    ((commit next w).1 = .ok () ∧
        commitThen commit self next value w = (.ok value, next, (commit next w).2)) ∨
      ∃ e, (commit next w).1 = .error e ∧
        commitThen commit self next value w = (.error e, self, (commit next w).2) := by
  unfold commitThen
  rcases commit next w with ⟨_ | ⟨⟩, w'⟩
  · right
    exact ⟨_, rfl, rfl⟩
  · left
    exact ⟨rfl, rfl⟩

/-- The claim on the entry a write replaces lets it through. -/
def WriteAllowed (self : UnlockedVault) (k : String) (token : Option ClaimToken) (now : UInt64) :
    Prop :=
  ∀ existing, self.entry k = some existing → checkClaim existing token now = .ok ()

theorem writeAllowed_of_none {k : String} {token : Option ClaimToken} {now : UInt64}
    (h : self.entry k = none) : self.WriteAllowed k token now := by
  intro existing hsome
  rw [h] at hsome
  cases hsome

theorem writeAllowed_of_check {k : String} {existing : VaultEntry} {token : Option ClaimToken}
    {now : UInt64} (h : self.entry k = some existing)
    (hcheck : checkClaim existing token now = .ok ()) : self.WriteAllowed k token now := by
  intro existing' hsome
  rw [h] at hsome
  cases hsome
  exact hcheck

theorem writeEntry_cases (now : UInt64) (self : UnlockedVault) (e : VaultEntry)
    (version : UInt64) (w : W) :
    (∃ err w', writeEntry commit now self e version w = (.error err, self, w')) ∨
      ∃ w', writeEntry commit now self e version w =
        (.ok version, self.insertEntry (written e version now), w') := by
  rcases commitThen_cases commit self (self.insertEntry (written e version now)) version w with
    ⟨-, h⟩ | ⟨err, -, h⟩
  · exact Or.inr ⟨_, h⟩
  · exact Or.inl ⟨err, _, h⟩

theorem upsert_cases (checkNow now : UInt64) (self : UnlockedVault) (e : VaultEntry)
    (token : Option ClaimToken) (w : W) :
    (∃ err w', upsert commit checkNow now self e token w = (.error err, self, w')) ∨
      (self.WriteAllowed e.key token checkNow ∧
        ∃ w', upsert commit checkNow now self e token w =
          (.ok (Word64.saturatingAdd (self.casOf e.key) 1),
            self.insertEntry (written e (Word64.saturatingAdd (self.casOf e.key) 1) now), w')) := by
  have hwrite := writeEntry_cases commit now self e (Word64.saturatingAdd (self.casOf e.key) 1) w
  unfold upsert
  simp only
  split
  · rename_i hnone
    exact hwrite.imp_right fun h => ⟨writeAllowed_of_none hnone, h⟩
  · rename_i existing hsome
    split
    · left
      exact ⟨_, _, rfl⟩
    · rename_i hcheck
      exact hwrite.imp_right fun h => ⟨writeAllowed_of_check hsome hcheck, h⟩

theorem upsertCas_cases (checkNow now : UInt64) (self : UnlockedVault) (e : VaultEntry)
    (expectedVersion : UInt64) (token : Option ClaimToken) (w : W) :
    (∃ err w', upsertCas commit checkNow now self e expectedVersion token w =
        (.error err, self, w')) ∨
      (self.casOf e.key = expectedVersion ∧ self.WriteAllowed e.key token checkNow ∧
        ∃ w', upsertCas commit checkNow now self e expectedVersion token w =
          (.ok (self.casOf e.key + 1),
            self.insertEntry (written e (self.casOf e.key + 1) now), w')) := by
  have hwrite := writeEntry_cases commit now self e (self.casOf e.key + 1) w
  unfold upsertCas
  simp only
  split
  · left
    exact ⟨_, _, rfl⟩
  rename_i hversion
  rw [ne_eq, Decidable.not_not] at hversion
  split
  · rename_i hnone
    exact hwrite.imp_right fun h => ⟨hversion, writeAllowed_of_none hnone, h⟩
  · rename_i existing hsome
    split
    · left
      exact ⟨_, _, rfl⟩
    · rename_i hcheck
      exact hwrite.imp_right fun h => ⟨hversion, writeAllowed_of_check hsome hcheck, h⟩

theorem claimRefresh_cases (now : UInt64) (mint : ClaimToken) (self : UnlockedVault) (key : String)
    (expectedVersion : UInt64) (ttl : Duration) (w : W) :
    (∃ err w', claimRefresh commit now mint self key expectedVersion ttl w =
        (.error err, self, w')) ∨
      ∃ e, self.entry key = some e ∧ e.casVersion = expectedVersion ∧ e.activeClaim now = none ∧
        ∃ w', claimRefresh commit now mint self key expectedVersion ttl w =
          (.ok mint,
            self.insertEntry { e with refreshClaim := some (grantedClaim mint now ttl) }, w') := by
  unfold claimRefresh
  split
  · left
    exact ⟨_, _, rfl⟩
  rename_i e he
  split
  · left
    exact ⟨_, _, rfl⟩
  rename_i hversion
  rw [ne_eq, Decidable.not_not] at hversion
  split
  · left
    exact ⟨_, _, rfl⟩
  rename_i hidle
  rcases commitThen_cases commit self
    (self.insertEntry { e with refreshClaim := some (grantedClaim mint now ttl) }) mint w with
    ⟨-, h⟩ | ⟨err, -, h⟩
  · right
    exact ⟨e, he, hversion, hidle, _, h⟩
  · left
    exact ⟨err, _, h⟩

theorem releaseClaim_cases (now : UInt64) (self : UnlockedVault) (key : String)
    (token : ClaimToken) (w : W) :
    (∃ err w', releaseClaim commit now self key token w = (.error err, self, w')) ∨
      ∃ e, self.entry key = some e ∧ (∀ c ∈ e.activeClaim now, c.token = token) ∧
        ((e.refreshClaim = none ∧ releaseClaim commit now self key token w = (.ok (), self, w)) ∨
          ∃ w', releaseClaim commit now self key token w =
            (.ok (), self.insertEntry { e with refreshClaim := none }, w')) := by
  unfold releaseClaim
  split
  · left
    exact ⟨_, _, rfl⟩
  rename_i e he
  have hclear := commitThen_cases commit self (self.insertEntry { e with refreshClaim := none })
    () w
  split
  · rename_i hidle
    have hfree : ∀ c ∈ e.activeClaim now, c.token = token := by
      intro c hc
      rw [hidle] at hc
      cases hc
    split
    · rename_i hnone
      right
      exact ⟨e, he, hfree, Or.inl ⟨by simpa using hnone, rfl⟩⟩
    · rcases hclear with ⟨-, h⟩ | ⟨err, -, h⟩
      · right
        exact ⟨e, he, hfree, Or.inr ⟨_, h⟩⟩
      · left
        exact ⟨err, _, h⟩
  · rename_i active hactive
    split
    · rename_i hmatch
      have hfree : ∀ c ∈ e.activeClaim now, c.token = token := by
        intro c hc
        rw [hactive] at hc
        cases hc
        exact (ClaimToken.matches_iff _ _).mp hmatch
      rcases hclear with ⟨-, h⟩ | ⟨err, -, h⟩
      · right
        exact ⟨e, he, hfree, Or.inr ⟨_, h⟩⟩
      · left
        exact ⟨err, _, h⟩
    · left
      exact ⟨_, _, rfl⟩

theorem delete_cases (self : UnlockedVault) (key : String) (w : W) :
    (∃ err w', delete commit self key w = (.error err, self, w')) ∨
      (self.entry key = none ∧ delete commit self key w = (.ok false, self, w)) ∨
        ∃ w', delete commit self key w = (.ok true, self.eraseEntry key, w') := by
  unfold delete
  split
  · rename_i hnone
    right
    left
    exact ⟨by simpa using hnone, rfl⟩
  · rcases commitThen_cases commit self (self.eraseEntry key) true w with ⟨-, h⟩ | ⟨err, -, h⟩
    · right
      right
      exact ⟨_, h⟩
    · left
      exact ⟨err, _, h⟩

end Outcomes

end UnlockedVault

end Vault

end CacheWarden
