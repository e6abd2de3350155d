import CacheWarden.DekFrame
import CacheWarden.Lib.Arrivals
import CacheWarden.SnapshotRoundTrip
import Mathlib.Data.Bool.AllAny

/-!
# The hand-over stream

The old process sends the snapshot and, where the vault was open, the data key after
it. The new process reads what the header and the frames declare and waits for a key
exactly when the version of the snapshot says that one follows.
-/

set_option autoImplicit false

namespace CacheWarden

namespace Daemon

open Arrivals StoreSnapshot

/-- The bytes of a hand-over. The exec target is verified and the sockets are made
after them, and a failure of either sends nothing. -/
def prepare (serde : Serde) (snapshot : StoreSnapshot) (dek : Option Bytes) :
    Except ExportError Bytes :=
  let declared := if dek.isSome then snapshot.declareDekFrame else snapshot
  match declared.toBytes serde with
  | .error e => .error e
  | .ok bytes =>
    match dek with
    | some key => .ok (appendDekFrame bytes key)
    | none => .ok bytes

inductive ReceiveError where
  | ended
  | malformed (e : ImportError)
  deriving DecidableEq

/-- `read_exact_into`; `none` where the stream ends or stays silent too long. -/
def readExactInto (stream : Stream) (buf : Bytes) (n : ℕ) : Option Bytes × Stream :=
  ((readExact n stream).1.map (buf ++ ·), (readExact n stream).2)

/-- The frames that the header counts. -/
def readFrames : ℕ → Bytes → Stream → Option Bytes × Stream
  | 0, buf, stream => (some buf, stream)
  | count + 1, buf, stream =>
    match readExactInto stream buf 4 with
    | (none, stream) => (none, stream)
    | (some buf, stream) =>
      match readExactInto stream buf (Wire.ofBe (buf.drop (buf.length - 4))) with
      | (none, stream) => (none, stream)
      | (some buf, stream) => readFrames count buf stream

def readSnapshot (serde : Serde) (stream : Stream) :
    Except ReceiveError (StoreSnapshot × Option Bytes) × Stream :=
  match readExactInto stream [] 16 with
  | (none, stream) => (.error .ended, stream)
  | (some buf, stream) =>
    match readFrames (Wire.ofBe ((buf.drop 12).take 4)) buf stream with
    | (none, stream) => (.error .ended, stream)
    | (some buf, stream) =>
      match fromBytes serde buf with
      | .error e => (.error (.malformed e), stream)
      | .ok snapshot =>
        if snapshot.declaresDekFrame then
          match readExactInto stream buf dekFrameLen with
          | (none, stream) => (.error .ended, stream)
          | (some buf, stream) => (.ok (snapshot, readDekFrame buf), stream)
        else (.ok (snapshot, none), stream)

section Reading

variable {serde : Serde} {stream : Stream}

theorem readExactInto_append (buf : Bytes) {head tail : Bytes} {n : ℕ}
    (h : stream.flatten = head ++ tail) (hlength : head.length = n) :
    ∃ rest, readExactInto stream buf n = (some (buf ++ head), rest) ∧ rest.flatten = tail := by
  obtain ⟨hsome, hrest⟩ := readExact_append h hlength
  refine ⟨(readExact n stream).2, ?_, hrest⟩
  unfold readExactInto
  rw [hsome]
  rfl

theorem readFrames_payloads {payloads : List Bytes} {buf tail : Bytes}
    (hsmall : ∀ p ∈ payloads, p.length < 2 ^ 32)
    (h : stream.flatten = payloads.flatMap (fun p => Wire.beBytes 4 p.length ++ p) ++ tail) :
    ∃ rest, readFrames payloads.length buf stream =
        (some (buf ++ payloads.flatMap fun p => Wire.beBytes 4 p.length ++ p), rest) ∧
      rest.flatten = tail := by
  induction payloads generalizing buf stream with
  | nil =>
    refine ⟨stream, ?_, h⟩
    rw [List.flatMap_nil, List.append_nil]
    rfl
  | cons payload payloads ih =>
    obtain ⟨hlt, hrest⟩ := List.forall_mem_cons.mp hsmall
    rw [List.flatMap_cons, List.append_assoc, List.append_assoc] at h
    obtain ⟨afterLen, hlen, hflat⟩ :=
      readExactInto_append buf h (Wire.length_beBytes 4 payload.length)
    obtain ⟨afterPayload, hpayload, hflat'⟩ :=
      readExactInto_append (buf ++ Wire.beBytes 4 payload.length) hflat rfl
    obtain ⟨rest, hframes, htail⟩ := ih hrest hflat'
    have hdeclared : Wire.ofBe ((buf ++ Wire.beBytes 4 payload.length).drop
        ((buf ++ Wire.beBytes 4 payload.length).length - 4)) = payload.length := by
      rw [List.length_append, Wire.length_beBytes, Nat.add_sub_cancel, List.drop_left]
      exact Wire.ofBe_beBytes_of_lt hlt
    refine ⟨rest, ?_, htail⟩
    rw [List.length_cons, readFrames, hlen]
    simp only [hdeclared]
    rw [hpayload]
    simp only
    rw [hframes, List.flatMap_cons]
    simp only [List.append_assoc]

/-- The receiver takes a snapshot off the front of a stream, and what its version
declares after it. -/
theorem readSnapshot_toBytes {snapshot : StoreSnapshot} {bytes tail : Bytes}
    (hserde : serde.Lossless snapshot.entries)
    (hversion : versionIsSupported snapshot.formatVersion = true)
    (hbytes : snapshot.toBytes serde = .ok bytes) (h : stream.flatten = bytes ++ tail) :
    ∃ rest, rest.flatten = tail ∧ readSnapshot serde stream =
      if snapshot.declaresDekFrame then
        match readExactInto rest bytes dekFrameLen with
        | (none, stream) => (.error .ended, stream)
        | (some buf, stream) => (.ok (snapshot, readDekFrame buf), stream)
      else (.ok (snapshot, none), rest) := by
  obtain ⟨payloads, hcount, hlt, hsplit, hall⟩ := toBytes_payloads hbytes
  have hmagic : snapshotMagic.length = 8 := rfl
  have hheader : (snapshotMagic ++ Wire.beBytes 4 snapshot.formatVersion ++
      Wire.beBytes 4 snapshot.entries.length).length = 16 := by
    simp only [List.length_append, Wire.length_beBytes, hmagic]
  have hdeclared : Wire.ofBe (((snapshotMagic ++ Wire.beBytes 4 snapshot.formatVersion ++
      Wire.beBytes 4 snapshot.entries.length).drop 12).take 4) = payloads.length := by
    rw [List.drop_append_of_le_length (by simp [hmagic]), List.drop_of_length_le (by simp [hmagic]),
      List.nil_append, List.take_of_length_le (by simp), hcount]
    exact Wire.ofBe_beBytes_of_lt hlt
  rw [hsplit, List.append_assoc] at h
  obtain ⟨afterHeader, hread, hflat⟩ := readExactInto_append [] h hheader
  obtain ⟨rest, hframes, htail⟩ := readFrames_payloads (fun p hp => (hall p hp).1) hflat
  refine ⟨rest, htail, ?_⟩
  unfold readSnapshot
  rw [hread]
  simp only [List.nil_append, hdeclared]
  rw [hframes, ← hsplit]
  simp only [fromBytes_toBytes hserde hversion hbytes]

theorem declares_fromEntries (entries : List SnapshotEntry) :
    (fromEntries entries).declaresDekFrame = false := by
  unfold fromEntries declaresDekFrame
  simp only
  split
  · rfl
  · split
    · rfl
    · split
      · rfl
      · rfl

/-- A key adds nothing that could fail. -/
theorem prepare_ok_iff {entries : List SnapshotEntry} (hserde : serde.Lossless entries)
    (dek : Option Bytes) :
    (∃ bytes, prepare serde (fromEntries entries) dek = .ok bytes) ↔ Fits serde entries := by
  cases dek with
  | none =>
    have hbytes : (∃ bytes, toBytes serde (fromEntries entries) = .ok bytes) ↔
        Fits serde entries := toBytes_ok_iff hserde
    rw [← hbytes]
    simp only [prepare, Option.isSome_none, Bool.false_eq_true, if_false]
    cases toBytes serde (fromEntries entries) <;> simp
  | some key =>
    have hbytes : (∃ bytes, toBytes serde (fromEntries entries).declareDekFrame = .ok bytes) ↔
        Fits serde entries := toBytes_ok_iff hserde
    rw [← hbytes]
    simp only [prepare, Option.isSome_some, if_true]
    cases toBytes serde (fromEntries entries).declareDekFrame <;> simp

/-- What `prepare` builds is read to its last byte, with the key that was given. -/
theorem readSnapshot_prepare {entries : List SnapshotEntry} {dek : Option Bytes}
    {bytes tail : Bytes} (hserde : serde.Lossless entries)
    (hdek : ∀ key, dek = some key → key.length = 32)
    (hprepare : prepare serde (fromEntries entries) dek = .ok bytes)
    (h : stream.flatten = bytes ++ tail) :
    ∃ received rest, readSnapshot serde stream = (.ok (received, dek), rest) ∧
      received.entries = entries ∧ rest.flatten = tail := by
  have hsupported := Store.supported_fromEntries entries
  unfold prepare at hprepare
  cases dek with
  | none =>
    simp only [Option.isSome_none, Bool.false_eq_true, if_false] at hprepare
    split at hprepare
    · cases hprepare
    rename_i snapshotBytes hbytes
    cases hprepare
    obtain ⟨rest, htail, hread⟩ := readSnapshot_toBytes hserde hsupported hbytes h
    rw [declares_fromEntries] at hread
    exact ⟨fromEntries entries, rest, hread, rfl, htail⟩
  | some key =>
    simp only [Option.isSome_some, if_true] at hprepare
    split at hprepare
    · cases hprepare
    rename_i snapshotBytes hbytes
    cases hprepare
    have hlength := hdek key rfl
    rw [appendDekFrame, List.append_assoc] at h
    obtain ⟨afterFrames, hflat, hread⟩ := readSnapshot_toBytes
      (show serde.Lossless (fromEntries entries).declareDekFrame.entries from hserde) rfl hbytes h
    have hframe : (dekFrameMagic ++ (Wire.beBytes 4 key.length ++ key)).length = dekFrameLen := by
      rw [List.length_append, List.length_append, Wire.length_beBytes, hlength]
      rfl
    obtain ⟨rest, hkey, htail⟩ := readExactInto_append snapshotBytes hflat hframe
    have hfound := readDekFrame_append snapshotBytes hlength
    have hdeclares : (fromEntries entries).declareDekFrame.declaresDekFrame = true := rfl
    refine ⟨(fromEntries entries).declareDekFrame, rest, ?_, rfl, htail⟩
    rw [hread, if_pos hdeclares, hkey]
    simp only
    rw [← appendDekFrame, hfound]

end Reading

/-- A snapshot whose lengths fit their words reads back as itself, with a data key
behind it or without, and the key is found if and only if it is there. What is
accepted holds every frame that it declares. The receiver takes exactly what
`prepare` built, in whatever pieces. -/
theorem handoff_read_back (serde : Serde) (entries : List SnapshotEntry) (version : ℕ)
    (key : Bytes) (hserde : serde.Lossless entries) (htext : serde.Textual entries)
    (hversion : versionIsSupported version = true) (hkey : key.length = 32) :
    ((∃ bytes, toBytes serde ⟨version, entries⟩ = .ok bytes) ↔ Fits serde entries) ∧
    (∀ bytes, toBytes serde ⟨version, entries⟩ = .ok bytes →
      fromBytes serde bytes = .ok ⟨version, entries⟩ ∧
      fromBytes serde (appendDekFrame bytes key) = .ok ⟨version, entries⟩ ∧
      readDekFrame (appendDekFrame bytes key) = some key ∧ readDekFrame bytes = none) ∧
    (∀ bytes snapshot, fromBytes serde bytes = .ok snapshot →
      ∃ (payloads : List Bytes) (rest : Bytes),
        bytes = snapshotMagic ++ Wire.beBytes 4 snapshot.formatVersion ++
          Wire.beBytes 4 payloads.length ++
            payloads.flatMap (fun p => Wire.beBytes 4 p.length ++ p) ++ rest ∧
        payloads.map serde.fromSlice = snapshot.entries.map .ok) ∧
    ∀ (s : Store) (cap : Capability) (clock : Clock) (wall : UInt64) (snapshot : StoreSnapshot)
      (dek : Option Bytes), s.exportSnapshot cap clock wall = .ok snapshot →
      snapshot.entries = entries → (∀ k, dek = some k → k.length = 32) →
      ((∃ bytes, prepare serde snapshot dek = .ok bytes) ↔ Fits serde entries) ∧
      ∀ bytes, prepare serde snapshot dek = .ok bytes →
        ∀ (stream : Stream) (tail : Bytes), stream.flatten = bytes ++ tail →
          ∃ received rest, readSnapshot serde stream = (.ok (received, dek), rest) ∧
            received.entries = entries ∧ rest.flatten = tail := by
  refine ⟨toBytes_ok_iff hserde, ?_, fun bytes snapshot h => fromBytes_ok h, ?_⟩
  · intro bytes hbytes
    refine ⟨fromBytes_toBytes hserde hversion hbytes,
      fromBytes_toBytes_append hserde hversion hbytes _, readDekFrame_append bytes hkey, ?_⟩
    exact readDekFrame_toBytes htext hbytes
  · intro s cap clock wall snapshot dek hexport hentries hdek
    have hsnapshot : snapshot = fromEntries entries := by
      unfold Store.exportSnapshot at hexport
      split at hexport
      · cases hexport
      · cases hexport
        rw [← hentries]
        rfl
    rw [hsnapshot]
    exact ⟨prepare_ok_iff hserde dek,
      fun bytes hprepare stream tail hstream => readSnapshot_prepare hserde hdek hprepare hstream⟩

section Sample

/-- A store with one value, its guard and its owner. -/
def sampleStore : Store :=
  let store := ((Store.newWithToken 0 Duration.zero).set "ns/k" .static [7] Ttl.never ⟨0⟩
    Monotonic.zero).2
  let guarded := (store.setGuard "ns/k" ⟨[.sameUser], ⟨501, 501⟩⟩ store.controlCap).2
  (guarded.setOwner "ns/k" ⟨.apple, "T", "a.b"⟩ guarded.controlCap).2

def sampleEntry : SnapshotEntry :=
  ⟨"ns/k", some ⟨.static, [7], none, none, 1000, 1000, none⟩, none, none,
    some ⟨[.sameUser], 501, 501⟩, some ⟨.apple, "T", "a.b"⟩, none, none⟩

/-- The text of a member of the sample. -/
def sampleText (name : String) : Bytes :=
  if name = "key" then "\"ns/k\"".toUTF8.data.toList
  else if name = "value" then
    ("\x7b\"source\":\"Static\",\"secret\":[7],\"soft_ttl_ms\":null,\"hard_ttl_ms\":null," ++
      "\"loaded_at_epoch_ms\":1000,\"extended_at_epoch_ms\":1000," ++
      "\"pin_deadline_epoch_ms\":null\x7d").toUTF8.data.toList
  else if name = "guard" then
    ("\x7b\"constraints\":[\x7b\"kind\":\"same-user\"\x7d]," ++
      "\"setter_euid\":501,\"setter_ruid\":501\x7d").toUTF8.data.toList
  else if name = "owner" then
    "\x7b\"anchor\":\"apple\",\"team_id\":\"T\",\"identifier\":\"a.b\"\x7d".toUTF8.data.toList
  else "null".toUTF8.data.toList

def samplePayload : Bytes :=
  jsonObject (SnapshotEntry.fieldNames.map fun name => jsonMember name (sampleText name))

def sampleSerde : Serde where
  toVec e := if e = sampleEntry then .ok samplePayload else .error ⟨"not the sample"⟩
  fromSlice payload :=
    if payload = samplePayload then .ok sampleEntry else .error ⟨"not the sample"⟩

theorem sampleEntry_exported :
    sampleStore.exportSnapshot sampleStore.controlCap (Clock.constant Monotonic.zero) 1000 =
      .ok (fromEntries [sampleEntry]) := by decide

theorem sample_read_back :
    ∃ bytes, prepare sampleSerde (fromEntries [sampleEntry]) (some (List.replicate 32 9)) =
        .ok bytes ∧
      ∀ (stream : Stream) (tail : Bytes), stream.flatten = bytes ++ tail →
        ∃ received rest,
          readSnapshot sampleSerde stream = (.ok (received, some (List.replicate 32 9)), rest) ∧
            received.entries = [sampleEntry] ∧ rest.flatten = tail := by
  have hvec : sampleSerde.toVec sampleEntry = .ok samplePayload := by simp [sampleSerde]
  have hread : sampleSerde.fromSlice samplePayload = .ok sampleEntry := by simp [sampleSerde]
  have hserde : sampleSerde.Lossless [sampleEntry] := by
    intro e he
    cases List.mem_singleton.mp he
    exact ⟨samplePayload, hvec, hread⟩
  have hprintable : ∀ b ∈ samplePayload, 0x20 ≤ b := List.all_iff_forall_prop.mp (by decide +kernel)
  have htext : sampleSerde.Textual [sampleEntry] := by
    intro e he payload hpayload
    cases List.mem_singleton.mp he
    rw [hvec] at hpayload
    cases hpayload
    exact ⟨hprintable, sampleText, rfl⟩
  have hfits : Fits sampleSerde [sampleEntry] := by
    refine ⟨by decide, fun e he payload hpayload => ?_⟩
    cases List.mem_singleton.mp he
    rw [hvec] at hpayload
    cases hpayload
    decide +kernel
  obtain ⟨hprepared, hreceived⟩ := (handoff_read_back sampleSerde [sampleEntry] 1
    (List.replicate 32 9) hserde htext (by decide) (by decide)).2.2.2 sampleStore
    sampleStore.controlCap (Clock.constant Monotonic.zero) 1000 (fromEntries [sampleEntry])
    (some (List.replicate 32 9)) sampleEntry_exported rfl (fun k hk => by cases hk; rfl)
  obtain ⟨bytes, hbytes⟩ := hprepared.mpr hfits
  exact ⟨bytes, hbytes, hreceived bytes hbytes⟩

end Sample

end Daemon

end CacheWarden
