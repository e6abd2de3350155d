import CacheWarden.Vault.Ledger

/-!
# What the removal of a slot revokes

A removal rotates the data key. The files written since list the slot no more,
and their data keys were never wrapped to it; whoever holds nothing but what
opened that slot, and every file, reads none of them.
-/

set_option autoImplicit false

namespace CacheWarden

namespace Vault

open Transition

/-- The state has no slot of the identifier or the key of `s`, and a data key
that none of the earlier files has. -/
structure UnlockedVault.Rid (s : Slot) (early : List Written) (v : UnlockedVault) : Prop where
  slots : ∀ slot ∈ v.slots, slot.id ≠ s.id ∧ slot.pubkey ≠ s.pubkey
  dek : ∀ w ∈ early, w.1.dek ≠ v.dek

/-- The slot `s` is gone from the open vault and from every file written since. -/
structure Ledger.Revoked (c : Crypto) (serde : BodySerde) (s : Slot) (early : List Written)
    (l : Ledger) : Prop where
  vault : l.vault.Rid s early
  minted : ∃ m ∈ l.minted, m.slot.id = s.id ∧ m.slot.pubkey = s.pubkey
  written : ∃ later, l.written = early ++ later ∧ (∀ w ∈ later, w.1.Rid s early) ∧
    ∃ w ∈ later, l.disk.file = some (w.1.encodeWithDek c serde w.2)

section Revoking

variable {c : Crypto} {serde : BodySerde} {vaultId : VaultId} {formatVersion : UInt32}
  {s : Slot} {early : List Written} {v next : UnlockedVault} {l : Ledger}

theorem UnlockedVault.Rid.same {w : UnlockedVault} (h : w.Rid s early)
    (hheader : v.header = w.header) (hdek : v.dek = w.dek) : v.Rid s early where
  slots := by
    rw [show v.slots = w.slots from congrArg HeaderView.slots hheader]
    exact h.slots
  dek := by
    rw [hdek]
    exact h.dek

theorem UnlockedVault.Rid.revised {mutation : Mutation} (h : v.Rid s early)
    (hrevised : Revised c v mutation next)
    (hdeks : ∀ dek ∈ mutation.newDek, ∀ w ∈ early, w.1.dek ≠ dek)
    (hfresh : ∀ m ∈ mutation.mints c v, m.slot.id ≠ s.id ∧ m.slot.pubkey ≠ s.pubkey) :
    next.Rid s early := by
  cases hrevised with
  | entries hheader hdek => exact h.same hheader hdek
  | @added m hm =>
    refine ⟨?_, h.dek⟩
    intro slot hslot
    rcases List.mem_append.mp hslot with hold | hnew
    · exact h.slots slot hold
    · rw [List.mem_singleton] at hnew
      subst hnew
      exact hfresh m hm
  | @rotated draws base slots hdraws hbase hslots =>
    refine ⟨?_, hdeks draws.dek hdraws⟩
    intro slot' hslot'
    have hwraps := rewrap_carries hslots
    obtain ⟨i, hi, rfl⟩ := List.mem_iff_getElem.mp hslot'
    have hi' : i < base.length := by
      rw [hwraps.length_eq]
      exact hi
    obtain ⟨hsame, -⟩ := hwraps.get hi' hi
    have hslot := h.slots base[i] (hbase.subset (List.getElem_mem hi'))
    rw [show slots.get ⟨i, hi⟩ = slots[i] from rfl] at hsame
    rw [hsame.id, hsame.pubkey]
    exact hslot

theorem Ledger.Revoked.step (hc : c.Exclusive) (h : l.Revoked c serde s early)
    {event : LedgerEvent} (hpermitted : l.Permitted c event) :
    (l.step c serde event).Revoked c serde s early := by
  obtain ⟨m₀, hm₀, hid, hpubkey⟩ := h.minted
  obtain ⟨later, hwritten, hlater, w, hw, hdisk⟩ := h.written
  cases event with
  | mutate a =>
    obtain ⟨hdeks, hfresh⟩ := hpermitted
    have hminted : ∃ m ∈ l.minted ++ a.mutation.mints c l.vault,
        m.slot.id = s.id ∧ m.slot.pubkey = s.pubkey :=
      ⟨m₀, List.mem_append_left _ hm₀, hid, hpubkey⟩
    have hnext : ∀ next, Revised c l.vault a.mutation next → next.Rid s early := by
      intro next hrevised
      refine h.vault.revised hrevised ?_ ?_
      · intro dek hdek w hw
        exact hdeks dek hdek w (by rw [hwritten]; exact List.mem_append_left _ hw)
      · intro m hm
        obtain ⟨hne, hneId⟩ := hfresh m hm m₀ hm₀
        rw [hid] at hneId
        rw [hpubkey] at hne
        exact ⟨hneId, hne⟩
    have happend : ∀ next, Revised c l.vault a.mutation next →
        ∀ w ∈ later ++ [(next, a.bodyNonce)], w.1.Rid s early := by
      intro next hrevised w hw
      rcases List.mem_append.mp hw with hold | hlast
      · exact hlater w hold
      · rw [List.mem_singleton] at hlast
        subst hlast
        exact hnext next hrevised
    have hrecorded := @Ledger.attempt_recorded c serde l a
    unfold Ledger.step
    simp only
    generalize l.attempt c serde a = result at hrecorded
    cases hrecorded with
    | unwritten _ => exact ⟨h.vault, hminted, later, hwritten, hlater, w, hw, hdisk⟩
    | @landed next disk hrevised hlanded =>
      refine ⟨hnext next hrevised, hminted, later ++ [(next, a.bodyNonce)], ?_,
        happend next hrevised, _, List.mem_append_right _ (List.mem_singleton_self _), hlanded⟩
      rw [hwritten, List.append_assoc]
    | @failed e next disk hrevised hleft =>
      refine ⟨h.vault, hminted, later ++ [(next, a.bodyNonce)], ?_, happend next hrevised, ?_⟩
      · rw [hwritten, List.append_assoc]
      · rcases hleft with hsame | hlanded
        · exact ⟨w, List.mem_append_left _ hw, hsame.trans hdisk⟩
        · exact ⟨_, List.mem_append_right _ (List.mem_singleton_self _), hlanded⟩
  | reopen u =>
    unfold Ledger.step
    simp only
    split
    · exact h
    rename_i locked hopen
    split
    · exact h
    rename_i v hunlock
    obtain ⟨hheader, hdek⟩ := reopened_written hc hdisk hopen hunlock
    exact ⟨(hlater w hw).same hheader hdek, h.minted, h.written⟩

/-- A removal that succeeds has written the other slots under the new data key. -/
theorem removal_landed {a : Attempt} {rotation : RotationDraws} {id : SlotId}
    (ha : a.mutation = .removeSlot rotation id) (hok : (l.attempt c serde a).1 = .ok ()) :
    ∃ index slots disk, l.vault.slots.findIdx? (·.id = id) = some index ∧
      UnlockedVault.rewrap c rotation l.vault.vaultId l.vault.formatVersion 0
        (l.vault.slots.eraseIdx index) = .ok slots ∧
      l.attempt c serde a = (.ok (), l.vault.rotated rotation slots, disk,
        l.written ++ [(l.vault.rotated rotation slots, a.bodyNonce)]) ∧
      disk.file = some ((l.vault.rotated rotation slots).encodeWithDek c serde a.bodyNonce) := by
  revert hok
  unfold Ledger.attempt
  rw [ha]
  unfold Mutation.apply UnlockedVault.removeSlot UnlockedVault.rotateOnto
  simp only
  split
  · intro hok
    cases hok
  rename_i index hindex
  split
  · intro hok
    cases hok
  split
  · intro hok
    cases hok
  rename_i slots hslots
  intro hok
  have hcases := UnlockedVault.commitThen_cases (ledgerCommit c serde a.bodyNonce a.faults) l.vault
    (l.vault.rotated rotation slots) () (l.disk, l.written)
  rcases hcases with ⟨hcommit, heq⟩ | ⟨e, -, heq⟩
  · refine ⟨index, slots, _, hindex, hslots, heq, ?_⟩
    exact (Storage.commit_file _ _ _).2.2 hcommit
  · have herr := hok.symm.trans (congrArg Prod.fst heq)
    cases herr

/-- In a vault whose slots differ, those that are left after one is taken out
differ from it. -/
theorem ne_of_mem_eraseIdx {β : Type} {f : Slot → β} {slots : List Slot} {i : ℕ}
    (hnodup : (slots.map f).Nodup) (hi : i < slots.length) {slot : Slot}
    (hslot : slot ∈ slots.eraseIdx i) : f slot ≠ f slots[i] := by
  obtain ⟨j, hj, hne, rfl⟩ : ∃ j, ∃ hj : j < slots.length, j ≠ i ∧ slots[j] = slot := by
    obtain ⟨j, hne, hj⟩ := List.mem_eraseIdx_iff_getElem?.mp hslot
    obtain ⟨hlt, heq⟩ := List.getElem?_eq_some_iff.mp hj
    exact ⟨j, hlt, hne, heq⟩
  intro heq
  apply hne
  have hinjective := List.nodup_iff_injective_get.mp hnodup
  have hfin := @hinjective ⟨j, by simpa using hj⟩ ⟨i, by simpa using hi⟩ (by simpa using heq)
  exact congrArg Fin.val hfin

theorem Ledger.Accounted.removed (h : l.Accounted c serde vaultId formatVersion) {a : Attempt}
    {rotation : RotationDraws} {id : SlotId} (ha : a.mutation = .removeSlot rotation id)
    (hs : s ∈ l.vault.slots) (hid : s.id = id) (hok : (l.attempt c serde a).1 = .ok ())
    (hpermitted : l.Permitted c (.mutate a)) :
    (l.step c serde (.mutate a)).Revoked c serde s l.written := by
  obtain ⟨index, slots, disk, hindex, hslots, hattempt, hdisk⟩ := removal_landed ha hok
  obtain ⟨hlt, hfound, -⟩ := List.findIdx?_eq_some_iff_getElem.mp hindex
  have hsame : l.vault.slots[index] = s := by
    have hinjective := List.inj_on_of_nodup_map h.vault.ids
    refine hinjective (List.getElem_mem hlt) hs ?_
    rw [hid]
    exact of_decide_eq_true hfound
  obtain ⟨⟨m₀, hm₀, hbuilt⟩, -⟩ := h.vault.slots s hs
  have hrid : (l.vault.rotated rotation slots).Rid s l.written := by
    refine ⟨?_, ?_⟩
    · intro slot' hslot'
      have hwraps := rewrap_carries hslots
      obtain ⟨i, hi, rfl⟩ := List.mem_iff_getElem.mp hslot'
      have hi' : i < (l.vault.slots.eraseIdx index).length := by
        rw [hwraps.length_eq]
        exact hi
      obtain ⟨hkept, -⟩ := hwraps.get hi' hi
      have hmem : (l.vault.slots.eraseIdx index)[i] ∈ l.vault.slots.eraseIdx index :=
        List.getElem_mem hi'
      have hne := ne_of_mem_eraseIdx h.vault.ids hlt hmem
      rw [hsame] at hne
      obtain ⟨⟨m, hm, hminted⟩, -⟩ := h.vault.slots _ (List.mem_of_mem_eraseIdx hmem)
      have hid' : (l.vault.rotated rotation slots).slots[i].id =
          (l.vault.slots.eraseIdx index)[i].id := hkept.id
      have hpubkey' : (l.vault.rotated rotation slots).slots[i].pubkey =
          (l.vault.slots.eraseIdx index)[i].pubkey := hkept.pubkey
      rw [hid', hpubkey']
      refine ⟨hne, ?_⟩
      intro hpubkey
      apply hne
      rw [hminted.id, hbuilt.id]
      rw [hminted.pubkey, hbuilt.pubkey] at hpubkey
      rw [List.inj_on_of_nodup_map h.pubkeys hm hm₀ hpubkey]
    · intro w hw
      refine hpermitted.1 rotation.dek ?_ w hw
      rw [ha]
      rfl
  unfold Ledger.step
  simp only
  rw [hattempt]
  refine ⟨hrid, ⟨m₀, List.mem_append_left _ hm₀, hbuilt.id.symm, hbuilt.pubkey.symm⟩, _, rfl, ?_,
    _, List.mem_singleton_self _, hdisk⟩
  intro w hw
  rw [List.mem_singleton] at hw
  subst hw
  exact hrid

end Revoking

/-- The private keys that the secrets open in the slots of the files. -/
def PrivateKey (c : Crypto) (held : Set Bytes) (files : List LockedVault) (key : Key) : Prop :=
  ∃ f ∈ files, ∃ slot ∈ f.file.slots, ∃ secret ∈ held,
    c.open (c.deriveKek secret slot.salt f.file.vaultId f.file.formatVersion slot.id)
      (slot.ownBindingAad f.file.vaultId f.file.formatVersion) slot.wrappedPrivkey
      "slot private key" = .ok key.1

/-- The data keys that those private keys unwrap. -/
def DataKey (c : Crypto) (held : Set Bytes) (files : List LockedVault) (dek : Key) : Prop :=
  ∃ key, PrivateKey c held files key ∧ ∃ f ∈ files, ∃ slot ∈ f.file.slots,
    c.unwrapDek slot.wrappedDek key f.file.vaultId slot.id
      (slot.ownBindingAad f.file.vaultId f.file.formatVersion) = .ok dek.1

/-- The holder of the secrets and of the files reads the body of `f`. -/
def ReadsBody (c : Crypto) (held : Set Bytes) (files : List LockedVault) (f : LockedVault)
    (plaintext : Bytes) : Prop :=
  ∃ dek, DataKey c held files dek ∧
    c.open dek f.headerAad f.file.sealedBody "contents" = .ok plaintext

/-- Secrets that differ derive keys that differ, and so do recipients that
differ. -/
structure Ledger.KeysDiffer (c : Crypto) (held : Set Bytes) (l : Ledger) : Prop where
  secrets : ∀ x ∈ held, ∀ m ∈ l.minted, ∀ salt vaultId formatVersion id,
    c.deriveKek x salt vaultId formatVersion id =
      c.deriveKek m.secret salt vaultId formatVersion id → x = m.secret
  recipients : ∀ w ∈ l.written, ∀ slot ∈ w.1.slots, ∀ m ∈ l.minted, ∀ ephemeralSecret,
    c.deriveWrapKey (c.diffieHellman m.recipient (c.publicKey ephemeralSecret)) w.1.vaultId slot.id
        (c.publicKey ephemeralSecret) (c.publicKey m.recipient) =
      c.deriveWrapKey (c.diffieHellman ephemeralSecret slot.pubkey) w.1.vaultId slot.id
        (c.publicKey ephemeralSecret) slot.pubkey →
      c.publicKey m.recipient = slot.pubkey

/-- None of the secrets is that of a slot in the files. -/
def Ledger.Outside (held : Set Bytes) (later : List Written) (l : Ledger) : Prop :=
  ∀ w ∈ later, ∀ slot ∈ w.1.slots, ∀ m ∈ l.minted, m.slot.pubkey = slot.pubkey → m.secret ∉ held

section Knowledge

variable {c : Crypto} {serde : BodySerde} {vaultId : VaultId} {formatVersion : UInt32}
  {s : Slot} {early later : List Written} {l : Ledger} {held : Set Bytes}

/-- A private key that is opened is that of a slot built for one of the secrets. -/
theorem minted_of_privateKey (hc : c.Exclusive) (h : l.Accounted c serde vaultId formatVersion)
    (hdiffer : l.KeysDiffer c held) {key : Key} (hkey : PrivateKey c held (l.files c serde) key) :
    ∃ m ∈ l.minted, m.recipient = key ∧ m.secret ∈ held := by
  obtain ⟨f, hf, slot, hslot, secret, hheld, hopen⟩ := hkey
  obtain ⟨w, hw, rfl⟩ := List.mem_map.mp hf
  have hbacked := h.written w hw
  obtain ⟨⟨m, hm, wrapped, rfl⟩, -⟩ := hbacked.slots slot hslot
  obtain ⟨nonce, hsealed⟩ := (h.formed m hm).wrapped
  have hfile : (lockedOf c serde w.2 w.1).file.vaultId = vaultId ∧
      (lockedOf c serde w.2 w.1).file.formatVersion = formatVersion :=
    ⟨hbacked.sameVault, hbacked.sameVersion⟩
  rw [hfile.1, hfile.2] at hopen
  rw [show ({ m.slot with wrappedDek := wrapped } : Slot).wrappedPrivkey = _ from hsealed] at hopen
  obtain ⟨hkek, -, hplain⟩ := open_seal_exclusive hc hopen
  have hsecret := hdiffer.secrets secret hheld m hm _ _ _ _ hkek
  exact ⟨m, hm, (Subtype.ext hplain).symm, hsecret ▸ hheld⟩

/-- A data key is unwrapped by the recipient of a slot of the file it seals. -/
theorem recipient_of_unwrapDek (hc : c.Exclusive) {dek dek' recipientPub key : Key}
    {ephemeralSecret : Key} {nonce : Nonce} {slotId : SlotId} {aad : Bytes} {wrapped : WrappedDek}
    (hwrap : c.wrapDek ephemeralSecret nonce dek recipientPub vaultId slotId aad = .ok wrapped)
    (hunwrap : c.unwrapDek wrapped key vaultId slotId aad = .ok dek'.1) :
    dek' = dek ∧ c.deriveWrapKey (c.diffieHellman key (c.publicKey ephemeralSecret)) vaultId slotId
        (c.publicKey ephemeralSecret) (c.publicKey key) =
      c.deriveWrapKey (c.diffieHellman ephemeralSecret recipientPub) vaultId slotId
        (c.publicKey ephemeralSecret) recipientPub := by
  unfold Crypto.wrapDek at hwrap
  simp only at hwrap
  split at hwrap
  · cases hwrap
  cases hwrap
  unfold Crypto.unwrapDek at hunwrap
  simp only at hunwrap
  split at hunwrap
  · cases hunwrap
  obtain ⟨hkey, -, hplain⟩ := open_seal_exclusive hc hunwrap
  exact ⟨Subtype.ext hplain, hkey⟩

/-- Whose credentials were revoked reads no later file. -/
theorem unread_of_revoked (hc : c.Exclusive) (h : l.Accounted c serde vaultId formatVersion)
    (hwritten : l.written = early ++ later) (hlater : ∀ w ∈ later, w.1.Rid s early)
    (hdiffer : l.KeysDiffer c held) (houtside : l.Outside held later) {w : Written}
    (hw : w ∈ later) (plaintext : Bytes) :
    ¬ ReadsBody c held (l.files c serde) (lockedOf c serde w.2 w.1) plaintext := by
  rintro ⟨dek, ⟨key, hkey, f, hf, slot, hslot, hunwrap⟩, hopen⟩
  obtain ⟨hdek, -, -⟩ := open_seal_exclusive hc hopen
  obtain ⟨w', hw', rfl⟩ := List.mem_map.mp hf
  have hbacked := h.written w' hw'
  obtain ⟨-, ephemeralSecret, nonce, hwrap⟩ := hbacked.slots slot hslot
  rw [← hbacked.sameVault, ← hbacked.sameVersion] at hwrap
  obtain ⟨hsame, hwrapKey⟩ := recipient_of_unwrapDek hc hwrap hunwrap
  have hlate : w' ∈ later := by
    rw [hwritten] at hw'
    rcases List.mem_append.mp hw' with hearly | hlate
    · exact absurd (hsame.symm.trans hdek) ((hlater w hw).dek w' hearly)
    · exact hlate
  obtain ⟨m, hm, hrecipient, hheld⟩ := minted_of_privateKey hc h hdiffer hkey
  rw [← hrecipient] at hwrapKey
  have hpubkey := hdiffer.recipients w' hw' slot hslot m hm ephemeralSecret hwrapKey
  exact houtside w' hlate slot hslot m hm ((h.formed m hm).pubkey.trans hpubkey) hheld

end Knowledge

/-- What the removal of `s` comes to, `later` being the files written since.
Their slots are others, and no file under a data key of theirs has a slot of the
key of `s`. Who holds secrets of slots that are in none of them reads none of
them. And no file of the run opens behind another header. -/
structure Ledger.Revokes (c : Crypto) (serde : BodySerde) (s : Slot) (later : List Written)
    (l : Ledger) : Prop where
  unlisted : ∀ w ∈ later, ∀ slot ∈ w.1.slots, slot.id ≠ s.id ∧ slot.pubkey ≠ s.pubkey
  unsealed : ∀ w ∈ later, ∀ w' ∈ l.written, w'.1.dek = w.1.dek →
    ∀ slot ∈ w'.1.slots, slot.pubkey ≠ s.pubkey
  unread : ∀ held : Set Bytes, l.KeysDiffer c held → l.Outside held later →
    ∀ w ∈ later, ∀ plaintext, ¬ ReadsBody c held (l.files c serde) (lockedOf c serde w.2 w.1) plaintext
  bound : ∀ w ∈ l.written, ∀ locked : LockedVault,
    locked.file.sealedBody = w.1.sealedBody c serde w.2 → locked.headerAad ≠ w.1.header.encode →
      ∀ u, ∃ e, locked.unlockBy c serde u = .error e

theorem removal_revokes (c : Crypto) (hc : c.Exclusive) (serde : BodySerde)
    (draws : UnlockedVault.InitialDraws) (faults : Faults) (d d' : Disk) (vault : UnlockedVault)
    (hcreated : UnlockedVault.initializeVault c serde draws faults d = (.ok vault, d'))
    (before after : List LedgerEvent) (a : Attempt) (rotation : RotationDraws) (id : SlotId)
    (ha : a.mutation = .removeSlot rotation id) (s : Slot)
    (hs : s ∈ (run (Ledger.step c serde) (Ledger.opening vault draws d') before).vault.slots)
    (hid : s.id = id)
    (hok : ((run (Ledger.step c serde) (Ledger.opening vault draws d') before).attempt c serde
      a).1 = .ok ())
    (hpermitted : Along (Ledger.step c serde) (Ledger.Permitted c)
      (Ledger.opening vault draws d') (before ++ .mutate a :: after)) :
    (run (Ledger.step c serde) (Ledger.opening vault draws d')
      (before ++ .mutate a :: after)).Revokes c serde s
        ((run (Ledger.step c serde) (Ledger.opening vault draws d')
          (before ++ .mutate a :: after)).written.drop
            (run (Ledger.step c serde) (Ledger.opening vault draws d') before).written.length) := by
  have haccounted := accounted_opening hcreated
  generalize Ledger.opening vault draws d' = start at haccounted hs hok hpermitted ⊢
  have hkeep := fun l event (h : Ledger.Accounted c serde vault.vaultId vault.formatVersion l)
    (hp : l.Permitted c event) => h.step hc hp
  have hbefore := (along_append _ _ _ _ _).mp hpermitted
  have hmid := run_invariant _ hkeep start before hbefore.1 haccounted
  have hfinal := run_invariant _ hkeep start _ hpermitted haccounted
  rw [run_append] at hfinal ⊢
  generalize run (Ledger.step c serde) start before = mid at hs hok hbefore hmid hfinal ⊢
  have hrevoked := hmid.removed ha hs hid hok hbefore.2.1
  have hrest := run_invariant _ (fun l event (h : Ledger.Revoked c serde s mid.written l)
    (hp : l.Permitted c event) => h.step hc hp) _ after hbefore.2.2 hrevoked
  rw [run_cons] at hfinal ⊢
  generalize run (Ledger.step c serde) (mid.step c serde (.mutate a)) after = final
    at hfinal hrest ⊢
  obtain ⟨later, hwritten, hlater, -⟩ := hrest.written
  have hdrop : final.written.drop mid.written.length = later := by
    rw [hwritten, List.drop_left]
  rw [hdrop]
  refine ⟨fun w hw => (hlater w hw).slots, ?_, ?_, ?_⟩
  · intro w hw w' hw' hdek slot hslot
    rw [hwritten] at hw'
    rcases List.mem_append.mp hw' with hearly | hlate
    · exact absurd hdek ((hlater w hw).dek w' hearly)
    · exact ((hlater w' hlate).slots slot hslot).2
  · intro held hdiffer houtside w hw plaintext
    exact unread_of_revoked hc hfinal hwritten hlater hdiffer houtside hw plaintext
  · intro w hw locked hbody haad u
    cases hunlock : locked.unlockBy c serde u with
    | error e => exact ⟨e, rfl⟩
    | ok v => exact absurd ((LockedVault.opened_of_unlockBy hunlock).sealed hc hbody).2 haad

/-- A file to put in place of another, made from what anyone sees of that one:
its slots wrap another data key, and under that another body is sealed. -/
def replacing (c : Crypto) (file : VaultFile) (draws : RotationDraws) (bodyNonce : Nonce)
    (plaintext : Bytes) : Except VaultError Bytes :=
  match UnlockedVault.rewrap c draws file.vaultId file.formatVersion 0 file.slots with
  | .error e => .error e
  | .ok slots =>
    let header := { file.header with slots := slots }.encode
    .ok (encodeFile header (c.seal draws.dek bodyNonce header plaintext))

section Recorded

/-- What a record ties its text to: the key, and the associated data with its
length in unary. -/
def recordTag (key : Key) (aad : Bytes) : Bytes :=
  key.1 ++ (List.replicate aad.length 1 ++ 0 :: aad)

/-- Primitives that write the key and the associated data beside the text. -/
def recordCrypto : Crypto where
  hkdf salt input info :=
    match salt with
    | some _ => ⟨(input ++ List.replicate 32 0).take 32, length_padded input⟩
    | none => ⟨(info.drop (info.length - 32) ++ List.replicate 32 0).take 32, length_padded _⟩
  encrypt key _ aad text := recordTag key aad ++ text
  decrypt key _ aad text :=
    if recordTag key aad = text.take (recordTag key aad).length then
      some (text.drop (recordTag key aad).length)
    else none
  publicKey key := key
  diffieHellman a b := ⟨1 :: (List.zipWith (· + ·) a.1 b.1).tail, length_agreed a b⟩

theorem recordTag_cancel {key key' : Key} {aad aad' text text' : Bytes}
    (h : recordTag key aad ++ text = recordTag key' aad' ++ text') :
    key = key' ∧ aad = aad' ∧ text = text' := by
  unfold recordTag at h
  simp only [List.append_assoc, List.cons_append] at h
  have hlength : key.1.length = key'.1.length := by rw [key.2, key'.2]
  obtain ⟨hkey, hrest⟩ := List.append_inj h hlength
  have hunary : ∀ (m n : ℕ) (a b : Bytes), List.replicate m (1 : UInt8) ++ 0 :: a =
      List.replicate n 1 ++ 0 :: b → m = n ∧ a = b := by
    intro m
    induction m with
    | zero =>
      intro n a b h
      cases n with
      | zero => exact ⟨rfl, (List.cons.inj h).2⟩
      | succ n => exact absurd (List.cons.inj h).1 (by decide)
    | succ m ih =>
      intro n a b h
      cases n with
      | zero => exact absurd (List.cons.inj h).1 (by decide)
      | succ n =>
        obtain ⟨hn, hab⟩ := ih n a b (List.cons.inj h).2
        exact ⟨congrArg Nat.succ hn, hab⟩
  obtain ⟨haad, htext⟩ := hunary _ _ _ _ hrest
  obtain ⟨haad, htext⟩ := List.append_inj htext haad
  exact ⟨Subtype.ext hkey, haad, htext⟩

theorem recordCrypto_exclusive : recordCrypto.Exclusive where
  decrypt_exclusive k k' n aad aad' p p' h := by
    have hdecrypt : (if recordTag k' aad' =
        (recordTag k aad ++ p).take (recordTag k' aad').length then
          some ((recordTag k aad ++ p).drop (recordTag k' aad').length) else none) = some p' := h
    split at hdecrypt
    · rename_i htag
      have htext := Option.some.inj hdecrypt
      have hwhole : recordTag k' aad' ++ p' = recordTag k aad ++ p := by
        calc recordTag k' aad' ++ p'
            = (recordTag k aad ++ p).take (recordTag k' aad').length ++
                (recordTag k aad ++ p).drop (recordTag k' aad').length := by rw [← htag, htext]
          _ = recordTag k aad ++ p := List.take_append_drop _ _
      exact recordTag_cancel hwhole
    · cases hdecrypt

def plainNote (secret : Bytes) : VaultEntry where
  key := "ns/k"
  secret := secret
  casVersion := 1
  refreshClaim := none
  valueMeta := none
  definition := none
  guard := none
  owner := none
  updatedAtEpochMs := 0

/-- A serializer of bodies with one note at most. -/
def noteSerde : BodySerde where
  toPlaintext body := ((body.entries.head?).map VaultEntry.secret).getD []
  fromPlaintext plaintext :=
    .ok (VaultBody.new (if plaintext = [] then [] else [plainNote plaintext]))

def noteAttempt (mutation : Mutation) : Attempt where
  mutation := mutation
  checkMs := 0
  writeMs := 0
  bodyNonce := Bench.fill 24 10
  faults := Faults.none

def passkeyAdded (b : UInt8) (prfOutput : Bytes) : Mutation :=
  .addPasskeySlot (Bench.plainDraws b) prfOutput (Bench.fill 32 b) "localhost" [b] [b] ""

def slotRemoved (b : UInt8) : Mutation :=
  .removeSlot ⟨Bench.fill 32 11, fun _ => Bench.fill 32 12, fun _ => Bench.fill 24 13⟩
    (Bench.fill 16 b)

def noteStored : Mutation := .upsert (plainNote [42]) none

def recordVault : UnlockedVault :=
  { Bench.plainVault with
    slots :=
      match UnlockedVault.initial recordCrypto Bench.plainInitial with
      | .ok vault => vault.slots
      | .error _ => [] }

/-- The ledger after the creation, whose recovery slot is the fifth drawn. -/
def recorded : Ledger :=
  Ledger.opening recordVault Bench.plainInitial
    ⟨some (recordVault.encodeWithDek recordCrypto noteSerde Bench.plainInitial.bodyNonce), none⟩

/-- The ledger after these mutations. -/
def noted (mutations : List Mutation) : Ledger :=
  run (Ledger.step recordCrypto noteSerde) recorded
    (mutations.map fun m => .mutate (noteAttempt m))

theorem recorded_created :
    UnlockedVault.initializeVault recordCrypto noteSerde Bench.plainInitial Faults.none
      ⟨none, none⟩ = (.ok recordVault, recorded.disk) := rfl

set_option maxRecDepth 20000 in
theorem removal_revokes_recorded :
    (noted [passkeyAdded 7 [8], slotRemoved 5, noteStored]).Revokes recordCrypto noteSerde
      (recordVault.slots[0])
      ((noted [passkeyAdded 7 [8], slotRemoved 5, noteStored]).written.drop
        (noted [passkeyAdded 7 [8]]).written.length) := by
  have hlisted : recordVault.slots[0] ∈ (noted [passkeyAdded 7 [8]]).vault.slots := by decide
  have hok : ((noted [passkeyAdded 7 [8]]).attempt recordCrypto noteSerde
    (noteAttempt (slotRemoved 5))).1 = .ok () := by decide
  have hpermitted : Along (Ledger.step recordCrypto noteSerde)
      (Ledger.Permitted recordCrypto) recorded
      [.mutate (noteAttempt (passkeyAdded 7 [8])), .mutate (noteAttempt (slotRemoved 5)),
        .mutate (noteAttempt noteStored)] := by
    refine ⟨?_, ?_, ?_, trivial⟩
    all_goals
      unfold Ledger.Permitted
      decide
  exact removal_revokes recordCrypto recordCrypto_exclusive noteSerde Bench.plainInitial
    Faults.none ⟨none, none⟩ recorded.disk recordVault recorded_created
    [.mutate (noteAttempt (passkeyAdded 7 [8]))] [.mutate (noteAttempt noteStored)]
    (noteAttempt (slotRemoved 5)) _ _ rfl _ hlisted rfl hok hpermitted

/-- The file made from the one the creation left. -/
def replacement : Except VaultError Bytes :=
  replacing recordCrypto (lockedOf recordCrypto noteSerde Bench.plainInitial.bodyNonce
    recordVault).file ⟨Bench.fill 32 21, fun _ => Bench.fill 32 22, fun _ => Bench.fill 24 23⟩
      (Bench.fill 24 24) [66]

/-- What the recovery code gets out of it, and whether its header is the same. -/
def replacedNote : Option (Option VaultEntry × Bool) := do
  let bytes ← replacement.toOption
  let locked ← (LockedVault.open (some bytes)).toOption
  let vault ← (locked.unlockBy recordCrypto noteSerde
    (.secret Bench.plainInitial.code.1 .recovery)).toOption
  return (vault.entry "ns/k", locked.headerAad = recordVault.header.encode)

/-- A passkey that was registered twice. One of its slots is removed. -/
def registeredTwice : Ledger :=
  noted [passkeyAdded 7 [8], passkeyAdded 9 [8], slotRemoved 7, noteStored]

set_option maxRecDepth 20000 in
/-- What is stored after the removal is read with the credential of the removed
slot. And a file made without the data key, behind another header, opens with
the credential of a slot. -/
theorem registered_twice_and_replaced :
    ((noted [passkeyAdded 7 [8], passkeyAdded 9 [8]]).attempt recordCrypto noteSerde
        (noteAttempt (slotRemoved 7))).1 = .ok () ∧
      ReadsBody recordCrypto {[8]} (registeredTwice.files recordCrypto noteSerde)
        (lockedOf recordCrypto noteSerde (Bench.fill 24 10) registeredTwice.vault) [42] ∧
      replacedNote = some (some (plainNote [66]), false) := by
  have hwritten : (registeredTwice.vault, Bench.fill 24 10) ∈ registeredTwice.written :=
    List.mem_append_right _ (List.mem_singleton_self _)
  have hlast := List.mem_map_of_mem (f := fun w => lockedOf recordCrypto noteSerde w.2 w.1) hwritten
  refine ⟨by decide, ⟨Bench.fill 32 11, ⟨Bench.fill 32 9, ⟨_, hlast, registeredTwice.vault.slots[1],
    List.getElem_mem _, [8], rfl, ?_⟩, _, hlast, registeredTwice.vault.slots[1],
      List.getElem_mem _, ?_⟩, ?_⟩, ?_⟩ <;> decide +kernel

end Recorded

end Vault

end CacheWarden
