import CacheWarden.SnapshotBytes

/-!
# The data-key frame

The data key of the vault may follow the entry frames of a snapshot. It is looked
for at one offset from the end, where the end of the last payload stands when there
is no frame, and no JSON text can pass for one: the length of a key begins with a
byte below every byte of a text.
-/

set_option autoImplicit false

namespace CacheWarden

namespace StoreSnapshot

/-- `b"CWVDEK01"`. -/
def dekFrameMagic : Bytes := [0x43, 0x57, 0x56, 0x44, 0x45, 0x4B, 0x30, 0x31]

def dekFrameLen : ℕ := dekFrameMagic.length + 4 + 32

def declareDekFrame (self : StoreSnapshot) : StoreSnapshot :=
  { self with formatVersion := CacheWarden.formatVersion }

def declaresDekFrame (self : StoreSnapshot) : Bool :=
  CacheWarden.formatVersion ≤ self.formatVersion

def appendDekFrame (buf dek : Bytes) : Bytes :=
  buf ++ (dekFrameMagic ++ (Wire.beBytes 4 dek.length ++ dek))

def readDekFrame (bytes : Bytes) : Option Bytes :=
  if bytes.length < dekFrameLen then none
  else
    let start := bytes.length - dekFrameLen
    if (bytes.drop start).take dekFrameMagic.length ≠ dekFrameMagic then none
    else
      match Wire.take 4 (bytes.drop (start + dekFrameMagic.length)) with
      | none => none
      | some (len, body) =>
        if Wire.ofBe len ≠ 32 then none else (Wire.take (Wire.ofBe len) body).map Prod.fst

end StoreSnapshot

/-- The fields of an entry, under the names they are written with. -/
def SnapshotEntry.fieldNames : List String :=
  ["key", "value", "definition", "failure", "guard", "owner", "version", "refresh_claim"]

/-- A member of a JSON object. -/
def jsonMember (name : String) (value : Bytes) : Bytes :=
  0x22 :: (name.toUTF8.data.toList ++ (0x22 :: 0x3a :: value))

/-- A JSON object without white space. -/
def jsonObject (members : List Bytes) : Bytes :=
  0x7b :: (List.intercalate [0x2c] members ++ [0x7d])

/-- `serde_json` writes an entry as one object with all of its fields, and escapes
the characters below the space. -/
def Serde.Textual (serde : Serde) (entries : List SnapshotEntry) : Prop :=
  ∀ e ∈ entries, ∀ payload, serde.toVec e = .ok payload → (∀ b ∈ payload, 0x20 ≤ b) ∧
    ∃ text : String → Bytes,
      payload = jsonObject (SnapshotEntry.fieldNames.map fun name => jsonMember name (text name))

namespace StoreSnapshot

variable {serde : Serde}

section Frame

theorem readDekFrame_append (buf : Bytes) {key : Bytes} (h : key.length = 32) :
    readDekFrame (appendDekFrame buf key) = some key := by
  have hframe : (dekFrameMagic ++ (Wire.beBytes 4 key.length ++ key)).length = dekFrameLen := by
    rw [List.length_append, List.length_append, Wire.length_beBytes, h]
    rfl
  have hstart : (appendDekFrame buf key).length - dekFrameLen = buf.length := by
    rw [appendDekFrame, List.length_append, hframe]
    omega
  have hlong : ¬ (appendDekFrame buf key).length < dekFrameLen := by
    rw [appendDekFrame, List.length_append, hframe]
    omega
  unfold readDekFrame
  rw [if_neg hlong]
  simp only [hstart]
  rw [appendDekFrame, List.drop_left, List.take_left, if_neg (by simp), ← List.drop_drop,
    List.drop_left, List.drop_left, h, Wire.take_beBytes]
  have hword : Wire.ofBe (Wire.beBytes 4 32) = 32 := Wire.ofBe_beBytes_of_lt (by decide)
  have hbody : Wire.take 32 key = some (key, []) := by
    have happend := Wire.take_append h []
    rwa [List.append_nil] at happend
  simp only [hword]
  rw [if_neg (by simp), hbody]
  rfl

/-- Where a key is found, its frame ends the bytes. -/
theorem readDekFrame_some {bytes key : Bytes} (h : readDekFrame bytes = some key) :
    key.length = 32 ∧ Wire.beBytes 4 32 ++ key <:+ bytes := by
  unfold readDekFrame at h
  split at h
  · cases h
  rename_i hlong
  simp only at h
  split at h
  · cases h
  split at h
  · cases h
  rename_i len body htake
  split at h
  · cases h
  rename_i hlen
  obtain ⟨⟨found, rest⟩, hfound, rfl⟩ := Option.map_eq_some_iff.mp h
  obtain ⟨hdrop, hfour⟩ := Wire.take_some htake
  obtain ⟨hbody, hlength⟩ := Wire.take_some hfound
  have hlen : Wire.ofBe len = 32 := not_not.mp hlen
  have htail : (bytes.drop (bytes.length - dekFrameLen + dekFrameMagic.length)).length = 36 := by
    rw [List.length_drop]
    have hmagic : dekFrameMagic.length = 8 := rfl
    have hframe : dekFrameLen = 44 := rfl
    omega
  have hrest : rest = [] := by
    rw [hdrop, hbody, List.length_append, List.length_append, hfour, hlength, hlen] at htail
    exact List.length_eq_zero_iff.mp (by omega)
  have hword : Wire.beBytes 4 32 = len := by
    rw [← hlen, ← hfour]
    exact Wire.beBytes_ofBe len
  refine ⟨by rw [hlength, hlen], ?_⟩
  rw [hword, ← List.append_nil found, ← hrest, ← hbody, ← hdrop]
  exact List.drop_suffix _ _

/-- What encoding wrote: a payload of each entry behind its length. -/
theorem encodeFrames_payloads {entries : List SnapshotEntry} {frames : Bytes}
    (h : encodeFrames serde entries = .ok frames) :
    ∃ payloads : List Bytes, payloads.length = entries.length ∧
      frames = payloads.flatMap (fun p => Wire.beBytes 4 p.length ++ p) ∧
      ∀ p ∈ payloads, p.length < 2 ^ 32 ∧ ∃ e ∈ entries, serde.toVec e = .ok p := by
  induction entries generalizing frames with
  | nil =>
    cases h
    exact ⟨[], rfl, rfl, fun p hp => absurd hp List.not_mem_nil⟩
  | cons entry rest ih =>
    unfold encodeFrames at h
    split at h
    · cases h
    rename_i payload hpayload
    split at h
    · rename_i hlen
      split at h
      · cases h
      rename_i tail htail
      cases h
      obtain ⟨payloads, hcount, hframes, hall⟩ := ih htail
      refine ⟨payload :: payloads, by rw [List.length_cons, hcount, List.length_cons], ?_, ?_⟩
      · rw [List.flatMap_cons, hframes]
      · intro p hp
        rcases List.mem_cons.mp hp with rfl | hp
        · exact ⟨hlen, entry, List.mem_cons_self, hpayload⟩
        · obtain ⟨hlt, e, he, hvec⟩ := hall p hp
          exact ⟨hlt, e, List.mem_cons_of_mem _ he, hvec⟩
    · cases h

theorem toBytes_payloads {snapshot : StoreSnapshot} {bytes : Bytes}
    (h : snapshot.toBytes serde = .ok bytes) :
    ∃ payloads : List Bytes, payloads.length = snapshot.entries.length ∧
      snapshot.entries.length < 2 ^ 32 ∧
      bytes = snapshotMagic ++ Wire.beBytes 4 snapshot.formatVersion ++
        Wire.beBytes 4 snapshot.entries.length ++
          payloads.flatMap (fun p => Wire.beBytes 4 p.length ++ p) ∧
      ∀ p ∈ payloads, p.length < 2 ^ 32 ∧ ∃ e ∈ snapshot.entries, serde.toVec e = .ok p := by
  unfold toBytes at h
  split at h
  · rename_i hcount
    split at h
    · cases h
    rename_i frames hframes
    cases h
    obtain ⟨payloads, hlength, rfl, hall⟩ := encodeFrames_payloads hframes
    exact ⟨payloads, hlength, hcount, rfl, hall⟩
  · cases h

theorem length_intercalate_ge (sep : Bytes) (parts : List Bytes) :
    (parts.map List.length).sum ≤ (List.intercalate sep parts).length := by
  induction parts with
  | nil => exact Nat.le_refl 0
  | cons part parts ih =>
    cases parts with
    | nil => simp [List.intercalate]
    | cons next parts =>
      have hcons : List.intercalate sep (part :: next :: parts) =
          part ++ sep ++ List.intercalate sep (next :: parts) := by
        simp [List.intercalate]
      rw [hcons, List.map_cons, List.sum_cons, List.length_append, List.length_append]
      omega

/-- The names of its fields alone make an entry longer than the frame of a key. -/
theorem long_of_textual {entries : List SnapshotEntry} (htext : serde.Textual entries)
    {e : SnapshotEntry} (he : e ∈ entries) {payload : Bytes} (h : serde.toVec e = .ok payload) :
    36 < payload.length := by
  obtain ⟨-, text, rfl⟩ := htext e he payload h
  have hge := length_intercalate_ge [0x2c]
    (SnapshotEntry.fieldNames.map fun name => jsonMember name (text name))
  have hlast : ("refresh_claim".toUTF8.data.toList).length = 13 := by decide
  have hmiddle : ("definition".toUTF8.data.toList).length = 10 := by decide
  have hfailure : ("failure".toUTF8.data.toList).length = 7 := by decide
  simp only [SnapshotEntry.fieldNames, List.map_cons, List.map_nil, List.sum_cons, jsonMember,
    List.length_cons, List.length_append, hlast, hmiddle, hfailure] at hge
  simp only [jsonObject, List.length_cons, List.length_append, SnapshotEntry.fieldNames,
    List.map_cons, List.map_nil, jsonMember]
  omega

/-- Without a frame there is nothing that passes for one, whatever the entries
hold. -/
theorem readDekFrame_toBytes {snapshot : StoreSnapshot} {bytes : Bytes}
    (htext : serde.Textual snapshot.entries) (h : snapshot.toBytes serde = .ok bytes) :
    readDekFrame bytes = none := by
  obtain ⟨payloads, -, -, hbytes, hall⟩ := toBytes_payloads h
  rw [Option.eq_none_iff_forall_ne_some]
  intro key hkey
  obtain ⟨hlength, hsuffix⟩ := readDekFrame_some hkey
  rcases List.eq_nil_or_concat payloads with rfl | ⟨before, payload, rfl⟩
  · have hle := hsuffix.length_le
    have hmagic : snapshotMagic.length = 8 := rfl
    rw [hbytes, List.flatMap_nil, List.append_nil] at hle
    simp only [List.length_append, Wire.length_beBytes] at hle
    omega
  · obtain ⟨-, e, he, hvec⟩ := hall payload (by simp)
    have hlong := long_of_textual htext he hvec
    have hend : payload <:+ bytes := by
      rw [hbytes, List.concat_eq_append, List.flatMap_append, List.flatMap_singleton]
      simp only [← List.append_assoc]
      exact List.suffix_append _ _
    have hinside : Wire.beBytes 4 32 ++ key <:+ payload := by
      apply List.suffix_of_suffix_length_le hsuffix hend
      rw [List.length_append, Wire.length_beBytes]
      omega
    have hzero : (0 : UInt8) ∈ payload :=
      hinside.subset (List.mem_append_left _ (by decide))
    have hprintable := (htext e he payload hvec).1 0 hzero
    exact absurd hprintable (by decide)

end Frame

section Accepted

theorem decodeFrames_ok {count : ℕ} {cursor : Bytes} {entries : List SnapshotEntry}
    (h : decodeFrames serde count cursor = .ok entries) :
    ∃ (payloads : List Bytes) (rest : Bytes), payloads.length = count ∧
      cursor = payloads.flatMap (fun p => Wire.beBytes 4 p.length ++ p) ++ rest ∧
      payloads.map serde.fromSlice = entries.map .ok := by
  induction count generalizing cursor entries with
  | zero =>
    cases h
    exact ⟨[], cursor, rfl, rfl, rfl⟩
  | succ count ih =>
    unfold decodeFrames at h
    split at h
    · cases h
    rename_i len cursor' hlen
    split at h
    · cases h
    rename_i payload cursor'' hpayload
    split at h
    · cases h
    rename_i entry hentry
    split at h
    · cases h
    rename_i others hothers
    cases h
    obtain ⟨payloads, rest, hcount, hcursor, hmap⟩ := ih hothers
    obtain ⟨hsplit, hfour⟩ := Wire.take_some hlen
    obtain ⟨hbody, hlength⟩ := Wire.take_some hpayload
    have hword : Wire.beBytes 4 payload.length = len := by
      rw [hlength, ← hfour]
      exact Wire.beBytes_ofBe len
    refine ⟨payload :: payloads, rest, by rw [List.length_cons, hcount], ?_, ?_⟩
    · rw [hsplit, hbody, hcursor, List.flatMap_cons, hword]
      simp only [List.append_assoc]
    · rw [List.map_cons, List.map_cons, hentry, hmap]

/-- What is accepted holds every frame that it declares. -/
theorem fromBytes_ok {bytes : Bytes} {snapshot : StoreSnapshot}
    (h : fromBytes serde bytes = .ok snapshot) :
    ∃ (payloads : List Bytes) (rest : Bytes),
      bytes = snapshotMagic ++ Wire.beBytes 4 snapshot.formatVersion ++
        Wire.beBytes 4 payloads.length ++
          payloads.flatMap (fun p => Wire.beBytes 4 p.length ++ p) ++ rest ∧
      payloads.map serde.fromSlice = snapshot.entries.map .ok := by
  unfold fromBytes at h
  split at h
  · cases h
  rename_i magic cursor hmagic
  split at h
  · cases h
  rename_i hsame
  split at h
  · cases h
  rename_i version cursor' hversion
  split at h
  · cases h
  split at h
  · cases h
  rename_i count cursor'' hcount
  split at h
  · cases h
  rename_i entries hentries
  cases h
  obtain ⟨payloads, rest, hlength, hcursor, hmap⟩ := decodeFrames_ok hentries
  obtain ⟨hbytes, -⟩ := Wire.take_some hmagic
  obtain ⟨hrest, hfour⟩ := Wire.take_some hversion
  obtain ⟨hrest', hfour'⟩ := Wire.take_some hcount
  have hword : Wire.beBytes 4 (Wire.ofBe version) = version := by
    rw [← hfour]
    exact Wire.beBytes_ofBe version
  have hword' : Wire.beBytes 4 payloads.length = count := by
    rw [hlength, ← hfour']
    exact Wire.beBytes_ofBe count
  refine ⟨payloads, rest, ?_, hmap⟩
  simp only [hword, hword']
  rw [hbytes, not_not.mp hsame, hrest, hrest', hcursor]
  simp only [List.append_assoc]

end Accepted

end StoreSnapshot

end CacheWarden
