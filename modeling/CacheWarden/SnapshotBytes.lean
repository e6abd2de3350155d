import CacheWarden.Handoff

/-!
# The snapshot on the wire

Each entry travels behind its length in four bytes, and the entries behind
their count. A snapshot that fits reads back as itself, so the hand-over through
bytes succeeds where the one in memory does and the snapshot fits.
-/

set_option autoImplicit false

namespace CacheWarden

namespace StoreSnapshot

variable {serde : Serde}

/-- Every payload fits the length in front of it, and their number the count. -/
structure Fits (serde : Serde) (entries : List SnapshotEntry) : Prop where
  count : entries.length < 2 ^ 32
  payloads : ∀ e ∈ entries, ∀ payload, serde.toVec e = .ok payload → payload.length < 2 ^ 32

theorem encodeFrames_ok_iff {entries : List SnapshotEntry} (hserde : serde.Lossless entries) :
    (∃ frames, encodeFrames serde entries = .ok frames) ↔
      ∀ e ∈ entries, ∀ payload, serde.toVec e = .ok payload → payload.length < 2 ^ 32 := by
  induction entries with
  | nil => simp [encodeFrames]
  | cons entry rest ih =>
    obtain ⟨⟨payload, hpayload, -⟩, hrest⟩ := List.forall_mem_cons.mp hserde
    simp only [encodeFrames, hpayload, List.forall_mem_cons, Except.ok.injEq, forall_eq']
    rw [← ih hrest]
    by_cases hlen : payload.length < 2 ^ 32
    · rw [if_pos hlen]
      rcases encodeFrames serde rest with e | frames
      · simp
      · exact ⟨fun _ => ⟨hlen, frames, rfl⟩, fun _ => ⟨_, rfl⟩⟩
    · rw [if_neg hlen]
      constructor
      · rintro ⟨frames, h⟩
        cases h
      · intro h
        exact absurd h.1 hlen

theorem decodeFrames_encodeFrames {entries : List SnapshotEntry} (hserde : serde.Lossless entries)
    {frames : Bytes} (h : encodeFrames serde entries = .ok frames) (after : Bytes) :
    decodeFrames serde entries.length (frames ++ after) = .ok entries := by
  induction entries generalizing frames with
  | nil => rfl
  | cons entry rest ih =>
    obtain ⟨⟨payload, hpayload, hread⟩, hrest⟩ := List.forall_mem_cons.mp hserde
    simp only [encodeFrames, hpayload] at h
    by_cases hlen : payload.length < 2 ^ 32
    · rw [if_pos hlen] at h
      cases htail : encodeFrames serde rest with
      | error e =>
        rw [htail] at h
        cases h
      | ok tail =>
        rw [htail] at h
        cases h
        have hword : Wire.ofBe (Wire.beBytes 4 payload.length) = payload.length :=
          Wire.ofBe_beBytes_of_lt hlen
        rw [List.length_cons, decodeFrames, List.append_assoc, List.append_assoc,
          Wire.take_beBytes]
        simp only
        rw [Wire.take_append hword.symm]
        simp only [hread, ih hrest htail]
    · rw [if_neg hlen] at h
      cases h

theorem toBytes_ok_iff {snapshot : StoreSnapshot} (hserde : serde.Lossless snapshot.entries) :
    (∃ bytes, snapshot.toBytes serde = .ok bytes) ↔ Fits serde snapshot.entries := by
  have hframes := encodeFrames_ok_iff hserde
  unfold toBytes
  by_cases hcount : snapshot.entries.length < 2 ^ 32
  · rw [if_pos hcount]
    constructor
    · intro h
      refine ⟨hcount, hframes.mp ?_⟩
      obtain ⟨bytes, h⟩ := h
      split at h
      · cases h
      · rename_i frames hok
        exact ⟨frames, hok⟩
    · intro h
      obtain ⟨frames, hok⟩ := hframes.mpr h.payloads
      rw [hok]
      exact ⟨_, rfl⟩
  · rw [if_neg hcount]
    constructor
    · rintro ⟨bytes, h⟩
      cases h
    · intro h
      exact absurd h.count hcount

theorem supported_lt {v : ℕ} (h : versionIsSupported v = true) : v < 256 ^ 4 := by
  simp only [versionIsSupported, Bool.and_eq_true, decide_eq_true_eq] at h
  have hle : v ≤ 6 := h.2
  omega

/-- A snapshot reads back as itself, whatever follows it. -/
theorem fromBytes_toBytes_append {snapshot : StoreSnapshot} {bytes : Bytes}
    (hserde : serde.Lossless snapshot.entries)
    (hversion : versionIsSupported snapshot.formatVersion = true)
    (h : snapshot.toBytes serde = .ok bytes) (after : Bytes) :
    fromBytes serde (bytes ++ after) = .ok snapshot := by
  unfold toBytes at h
  split at h
  · rename_i hcount
    split at h
    · cases h
    rename_i frames hframes
    cases h
    have hcountWord : Wire.ofBe (Wire.beBytes 4 snapshot.entries.length) =
        snapshot.entries.length := Wire.ofBe_beBytes_of_lt hcount
    have hversionWord : Wire.ofBe (Wire.beBytes 4 snapshot.formatVersion) =
        snapshot.formatVersion := Wire.ofBe_beBytes_of_lt (supported_lt hversion)
    have hmagic : snapshotMagic.length = 8 := rfl
    unfold fromBytes
    rw [List.append_assoc, List.append_assoc, List.append_assoc, Wire.take_append hmagic]
    simp only [ne_eq, not_true_eq_false, if_false]
    rw [Wire.take_beBytes]
    simp only [hversionWord, hversion, Bool.not_true, Bool.false_eq_true, if_false]
    rw [Wire.take_beBytes]
    simp only [hcountWord, decodeFrames_encodeFrames hserde hframes]
  · cases h

theorem fromBytes_toBytes {snapshot : StoreSnapshot} {bytes : Bytes}
    (hserde : serde.Lossless snapshot.entries)
    (hversion : versionIsSupported snapshot.formatVersion = true)
    (h : snapshot.toBytes serde = .ok bytes) : fromBytes serde bytes = .ok snapshot := by
  have happend := fromBytes_toBytes_append hserde hversion h []
  rwa [List.append_nil] at happend

end StoreSnapshot

namespace Store

open StoreSnapshot

variable {serde : Serde} {s : Store} {clock : Clock} {wallE wallI : UInt64} {nowI : Monotonic}
  {builder : StoreBuilder} {token : BitVec 128} {bundle : StoreBundle}

/-- Passing the snapshot on as bytes adds nothing but the limits of the framing. -/
theorem handOverBytes_ok_iff (hserde : serde.Lossless (s.exportEntries clock wallE)) :
    s.handOverBytes serde clock wallE builder token nowI wallI = .ok bundle ↔
      Fits serde (s.exportEntries clock wallE) ∧
        s.handOver clock wallE builder token nowI wallI = .ok bundle := by
  have hversion := supported_fromEntries (s.exportEntries clock wallE)
  have hbytes := toBytes_ok_iff (show serde.Lossless
    (fromEntries (s.exportEntries clock wallE)).entries from hserde)
  unfold handOverBytes handOver
  rw [exportSnapshot_eq]
  simp only
  cases hto : (fromEntries (s.exportEntries clock wallE)).toBytes serde with
  | error e =>
    have hunfit : ¬ Fits serde (s.exportEntries clock wallE) := by
      intro hfits
      obtain ⟨bytes, hok⟩ := hbytes.mpr hfits
      rw [hto] at hok
      cases hok
    simp [hunfit]
  | ok bytes =>
    have hfits : Fits serde (s.exportEntries clock wallE) := hbytes.mp ⟨bytes, hto⟩
    have hback := fromBytes_toBytes hserde hversion hto
    simp only [hback, hfits, true_and]

end Store

end CacheWarden
