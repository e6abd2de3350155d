import CacheWarden.Authsock.AgentMessage
import CacheWarden.Lib.Arrivals
import CacheWarden.Lib.LossyText

/-!
# The framing of agent messages

A message travels behind its length in four bytes: a type byte and a payload. The
payload of an identities answer counts its identities and carries the blob and the
comment of each behind their lengths. The reader bounds the length of a message,
the number of identities and the length of a field; the writer bounds none of them.
-/

set_option autoImplicit false

namespace CacheWarden

open Arrivals

namespace MessageType

def ofByte (value : UInt8) : MessageType :=
  match value with
  | 11 => .requestIdentities
  | 13 => .signRequest
  | 17 => .addIdentity
  | 18 => .removeIdentity
  | 19 => .removeAllIdentities
  | 25 => .addIdConstrained
  | 20 => .addSmartcardKey
  | 21 => .removeSmartcardKey
  | 22 => .lock
  | 23 => .unlock
  | 26 => .addSmartcardKeyConstrained
  | 27 => .extension
  | 5 => .failure
  | 6 => .success
  | 12 => .identitiesAnswer
  | 14 => .signResponse
  | 28 => .extensionFailure
  | _ => .unknown

def toByte : MessageType → UInt8
  | .requestIdentities => 11
  | .signRequest => 13
  | .addIdentity => 17
  | .removeIdentity => 18
  | .removeAllIdentities => 19
  | .addIdConstrained => 25
  | .addSmartcardKey => 20
  | .removeSmartcardKey => 21
  | .lock => 22
  | .unlock => 23
  | .addSmartcardKeyConstrained => 26
  | .extension => 27
  | .failure => 5
  | .success => 6
  | .identitiesAnswer => 12
  | .signResponse => 14
  | .extensionFailure => 28
  | .unknown => 0

@[simp] theorem ofByte_toByte (t : MessageType) : ofByte t.toByte = t := by
  cases t <;> rfl

end MessageType

/-- Why a message could not be read off a stream. -/
inductive CodecError where
  | unexpectedEof
  | zeroLength
  | messageTooLarge (len : ℕ)
  | emptyMessage
  deriving DecidableEq

/-- Why an identities answer could not be read. -/
inductive AnswerError where
  | notIdentitiesAnswer (got : MessageType)
  | tooShort
  | tooMany (count : ℕ)
  | field (e : MessageError)
  deriving DecidableEq

def maxIdentities : ℕ := 10000

/-- `put_u32` of a length narrowed by `u32::try_from`, which panics where it does
not fit, and the bytes. -/
def putSized (bytes : Bytes) : Option Bytes :=
  if bytes.length < 2 ^ 32 then some (Wire.beBytes 4 bytes.length ++ bytes) else none

def commentBytes (comment : String) : Bytes := comment.toUTF8.data.toList

def identityBytes (identity : Identity) : Option Bytes :=
  match putSized identity.keyBlob, putSized (commentBytes identity.comment) with
  | some blob, some comment => some (blob ++ comment)
  | _, _ => none

def identitiesBytes : List Identity → Option Bytes
  | [] => some []
  | identity :: rest =>
    match identityBytes identity, identitiesBytes rest with
    | some bytes, some more => some (bytes ++ more)
    | _, _ => none

namespace AgentMessage

/-- `none` where the builder panics. -/
def buildIdentitiesAnswer (identities : List Identity) : Option AgentMessage :=
  if identities.length < 2 ^ 32 then
    (identitiesBytes identities).map fun bytes =>
      ⟨.identitiesAnswer, Wire.beBytes 4 identities.length ++ bytes⟩
  else none

/-- The loop of `parse_identities`. -/
def readIdentities : ℕ → Bytes → Except AnswerError (List Identity)
  | 0, _ => .ok []
  | count + 1, buf =>
    match readSizePrefixed buf "Key blob" with
    | .error e => .error (.field e)
    | .ok (keyBlob, buf) =>
      match readSizePrefixed buf "Comment" with
      | .error e => .error (.field e)
      | .ok (comment, buf) =>
        match readIdentities count buf with
        | .error e => .error e
        | .ok identities => .ok (⟨keyBlob, LossyText.decode comment⟩ :: identities)

def parseIdentities (self : AgentMessage) : Except AnswerError (List Identity) :=
  if self.msgType ≠ .identitiesAnswer then .error (.notIdentitiesAnswer self.msgType)
  else
    match Wire.take 4 self.payload with
    | none => .error .tooShort
    | some (count, buf) =>
      if maxIdentities < Wire.ofBe count then .error (.tooMany (Wire.ofBe count))
      else readIdentities (Wire.ofBe count) buf

/-- `none` where the length of the message does not fit its four bytes. -/
def encode (self : AgentMessage) : Option Bytes :=
  let totalLen := 1 + self.payload.length
  if totalLen < 2 ^ 32 then
    some (Wire.beBytes 4 totalLen ++ (self.msgType.toByte :: self.payload))
  else none

def decode : Bytes → Except CodecError AgentMessage
  | [] => .error .emptyMessage
  | b :: payload => .ok ⟨MessageType.ofByte b, payload⟩

end AgentMessage

namespace AgentCodec

def maxMessageSize : ℕ := 16 * 1024 * 1024

/-- One message off a stream, and what is left of it. -/
def read (stream : Stream) : Except CodecError (Option AgentMessage) × Stream :=
  let header := readExact 4 stream
  match header.1 with
  | none => (.ok none, header.2)
  | some lenBuf =>
    let len := Wire.ofBe lenBuf
    if len = 0 then (.error .zeroLength, header.2)
    else if maxMessageSize < len then (.error (.messageTooLarge len), header.2)
    else
      let body := readExact len header.2
      match body.1 with
      | none => (.error .unexpectedEof, body.2)
      | some buf =>
        match AgentMessage.decode buf with
        | .error e => (.error e, body.2)
        | .ok msg => (.ok (some msg), body.2)

/-- The messages written one after another; `none` where one cannot be. -/
def writeAll : List AgentMessage → Option Bytes
  | [] => some []
  | msg :: rest =>
    match msg.encode, writeAll rest with
    | some bytes, some more => some (bytes ++ more)
    | _, _ => none

/-- What one read can come to: it takes the length and no more than it declares. -/
inductive Outcome (bytes : Bytes) : Except CodecError (Option AgentMessage) → Bytes → Prop
  | ended (h : bytes.length < 4) : Outcome bytes (.ok none) []
  | message (b : UInt8) (payload rest : Bytes) (hlen : payload.length < maxMessageSize)
      (h : bytes = Wire.beBytes 4 (1 + payload.length) ++ (b :: payload) ++ rest) :
      Outcome bytes (.ok (some ⟨MessageType.ofByte b, payload⟩)) rest
  | zero (rest : Bytes) (h : bytes = Wire.beBytes 4 0 ++ rest) :
      Outcome bytes (.error .zeroLength) rest
  | large (len : ℕ) (rest : Bytes) (hlen : maxMessageSize < len) (hword : len < 2 ^ 32)
      (h : bytes = Wire.beBytes 4 len ++ rest) : Outcome bytes (.error (.messageTooLarge len)) rest
  | cut (len : ℕ) (body : Bytes) (hlen : len ≤ maxMessageSize) (hbody : body.length < len)
      (h : bytes = Wire.beBytes 4 len ++ body) : Outcome bytes (.error .unexpectedEof) []

theorem read_outcome (stream : Stream) :
    Outcome stream.flatten (read stream).1 (read stream).2.flatten := by
  unfold read
  rcases readExact_cases 4 stream with ⟨lenBuf, hsome, hfour, hsplit⟩ | ⟨hnone, hshort, hrest⟩
  · have hword : Wire.beBytes 4 (Wire.ofBe lenBuf) = lenBuf := by
      rw [← hfour]
      exact Wire.beBytes_ofBe lenBuf
    have hlt : Wire.ofBe lenBuf < 2 ^ 32 := by
      have hbound := Wire.ofBe_lt lenBuf
      rw [hfour] at hbound
      exact hbound
    simp only [hsome]
    by_cases hzero : Wire.ofBe lenBuf = 0
    · rw [if_pos hzero]
      apply Outcome.zero
      rw [← hzero, hword, hsplit]
    rw [if_neg hzero]
    by_cases hlarge : maxMessageSize < Wire.ofBe lenBuf
    · rw [if_pos hlarge]
      apply Outcome.large _ _ hlarge hlt
      rw [hword, hsplit]
    rw [if_neg hlarge]
    rcases readExact_cases (Wire.ofBe lenBuf) (readExact 4 stream).2 with
      ⟨buf, hbuf, hlength, hbody⟩ | ⟨hnone, hshort, hrest⟩
    · simp only [hbuf]
      cases buf with
      | nil => exact absurd hlength.symm hzero
      | cons b payload =>
        rw [List.length_cons] at hlength
        simp only [AgentMessage.decode]
        apply Outcome.message b payload _ (by omega)
        rw [Nat.add_comm, hlength, hword, hsplit, hbody, List.append_assoc]
    · simp only [hnone, hrest]
      apply Outcome.cut _ _ (by omega) hshort
      rw [hword, hsplit]
  · simp only [hnone, hrest]
    exact Outcome.ended hshort

/-- Each message takes at least its length and its type. -/
theorem read_message_shorter {stream rest : Stream} {msg : AgentMessage}
    (h : read stream = (.ok (some msg), rest)) : rest.flatten.length < stream.flatten.length := by
  have houtcome := read_outcome stream
  rw [h] at houtcome
  generalize stream.flatten = bytes at houtcome
  generalize rest.flatten = left at houtcome
  cases houtcome with
  | message b payload _ hlen heq =>
    rw [heq]
    simp only [List.length_append, List.length_cons, Wire.length_beBytes]
    omega

/-- Every message up to the end of the stream, or to the first error. -/
def readAll (stream : Stream) : List AgentMessage × Except CodecError Unit :=
  match h : read stream with
  | (.error e, _) => ([], .error e)
  | (.ok none, _) => ([], .ok ())
  | (.ok (some msg), rest) =>
    have _hshorter : rest.flatten.length < stream.flatten.length := read_message_shorter h
    let more := readAll rest
    (msg :: more.1, more.2)
termination_by stream.flatten.length
decreasing_by exact _hshorter

theorem readAll_ended {stream : Stream} (h : (read stream).1 = .ok none) :
    readAll stream = ([], .ok ()) := by
  rw [readAll]
  split
  · rename_i hread
    rw [hread] at h
    cases h
  · rfl
  · rename_i hread
    rw [hread] at h
    cases h

theorem readAll_error {stream : Stream} {e : CodecError} (h : (read stream).1 = .error e) :
    readAll stream = ([], .error e) := by
  rw [readAll]
  split
  · rename_i hread
    rw [hread] at h
    cases h
    rfl
  · rename_i hread
    rw [hread] at h
    cases h
  · rename_i hread
    rw [hread] at h
    cases h

theorem readAll_message {stream : Stream} {msg : AgentMessage}
    (h : (read stream).1 = .ok (some msg)) :
    readAll stream = (msg :: (readAll (read stream).2).1, (readAll (read stream).2).2) := by
  rw [readAll]
  split
  · rename_i hread
    rw [hread] at h
    cases h
  · rename_i hread
    rw [hread] at h
    cases h
  · rename_i hread
    rw [hread] at h
    cases h
    have hrest := congrArg Prod.snd hread
    simp only at hrest
    rw [hrest]

section Written

variable {msg : AgentMessage} {bytes tail : Bytes} {stream : Stream}

theorem encode_some (h : msg.encode = some bytes) :
    1 + msg.payload.length < 2 ^ 32 ∧
      bytes = Wire.beBytes 4 (1 + msg.payload.length) ++ (msg.msgType.toByte :: msg.payload) := by
  unfold AgentMessage.encode at h
  simp only at h
  split at h
  · rename_i hlt
    cases h
    exact ⟨hlt, rfl⟩
  · cases h

/-- A message that was written is read back within the limit of the reader, and
refused beyond it. -/
theorem read_written (hencode : msg.encode = some bytes)
    (hstream : stream.flatten = bytes ++ tail) :
    (msg.payload.length < maxMessageSize ∧ (read stream).1 = .ok (some msg) ∧
      (read stream).2.flatten = tail) ∨
    (maxMessageSize ≤ msg.payload.length ∧ ∃ e, (read stream).1 = .error e) := by
  obtain ⟨hlt, hbytes⟩ := encode_some hencode
  have hmax : maxMessageSize < 2 ^ 32 := by decide
  have hflat : stream.flatten = Wire.beBytes 4 (1 + msg.payload.length) ++
      (msg.msgType.toByte :: msg.payload ++ tail) := by
    rw [hstream, hbytes, List.append_assoc]
  have houtcome := read_outcome stream
  generalize (read stream).1 = result at houtcome ⊢
  generalize (read stream).2.flatten = rest at houtcome ⊢
  rw [hflat] at houtcome
  cases houtcome with
  | ended h =>
    rw [List.length_append, Wire.length_beBytes] at h
    omega
  | message b payload _ hlen h =>
    rw [List.append_assoc] at h
    obtain ⟨hlength, hbody⟩ := Wire.beBytes_append_inj hlt (by omega) h
    obtain ⟨hmsg, htail⟩ := List.append_inj hbody (by simpa using hlength)
    cases hmsg
    refine Or.inl ⟨hlen, ?_, htail.symm⟩
    rw [MessageType.ofByte_toByte]
  | zero _ h =>
    obtain ⟨hlength, -⟩ := Wire.beBytes_append_inj hlt (by decide) h
    omega
  | large len _ hlen hword h =>
    obtain ⟨hlength, -⟩ := Wire.beBytes_append_inj hlt hword h
    exact Or.inr ⟨by omega, _, rfl⟩
  | cut len body hlen hbody h =>
    obtain ⟨hlength, htail⟩ := Wire.beBytes_append_inj hlt (by omega) h
    rw [← htail, List.length_append, List.length_cons] at hbody
    omega

theorem writeAll_some {msgs : List AgentMessage}
    (h : ∀ m ∈ msgs, m.payload.length < maxMessageSize) :
    ∃ bytes, writeAll msgs = some bytes := by
  have hmax : maxMessageSize < 2 ^ 32 := by decide
  induction msgs with
  | nil => exact ⟨[], rfl⟩
  | cons m msgs ih =>
    obtain ⟨hm, hrest⟩ := List.forall_mem_cons.mp h
    obtain ⟨more, hmore⟩ := ih hrest
    have hencode : ∃ bytes, m.encode = some bytes := by
      unfold AgentMessage.encode
      exact ⟨_, if_pos (by omega)⟩
    obtain ⟨bytes, hencode⟩ := hencode
    exact ⟨bytes ++ more, by simp only [writeAll, hencode, hmore]⟩

/-- The reader goes through what was written until a message that is too large. -/
theorem readAll_written {msgs : List AgentMessage} (hwrite : writeAll msgs = some bytes)
    (hstream : stream.flatten = bytes) :
    ((∀ m ∈ msgs, m.payload.length < maxMessageSize) ∧ readAll stream = (msgs, .ok ())) ∨
    ((∃ m ∈ msgs, maxMessageSize ≤ m.payload.length) ∧ ∃ e, (readAll stream).2 = .error e) := by
  induction msgs generalizing bytes stream with
  | nil =>
    cases hwrite
    have hread : (read stream).1 = .ok none := by
      have houtcome := read_outcome stream
      rw [hstream] at houtcome
      generalize (read stream).1 = result at houtcome ⊢
      generalize (read stream).2.flatten = rest at houtcome
      cases houtcome with
      | ended h => rfl
      | message b payload _ hlen h => cases h
      | zero _ h => cases h
      | large len _ hlen hword h => cases h
      | cut len body hlen hbody h => cases h
    exact Or.inl ⟨fun m hm => absurd hm (List.not_mem_nil), readAll_ended hread⟩
  | cons m msgs ih =>
    unfold writeAll at hwrite
    split at hwrite
    · rename_i head more hencode hmore
      cases hwrite
      rcases read_written hencode hstream with ⟨hsmall, hread, hrest⟩ | ⟨hlarge, e, hread⟩
      · rw [readAll_message hread]
        rcases ih hmore hrest with ⟨hall, hreadAll⟩ | ⟨⟨m', hm', hlarge⟩, e, hreadAll⟩
        · left
          rw [hreadAll]
          exact ⟨List.forall_mem_cons.mpr ⟨hsmall, hall⟩, rfl⟩
        · exact Or.inr ⟨⟨m', List.mem_cons_of_mem _ hm', hlarge⟩, e, hreadAll⟩
      · right
        rw [readAll_error hread]
        exact ⟨⟨m, List.mem_cons_self, hlarge⟩, e, rfl⟩
    · cases hwrite

/-- What is written is read back message by message, to the end of the stream. -/
def Replays (msgs : List AgentMessage) : Prop :=
  ∃ bytes, writeAll msgs = some bytes ∧
    ∀ stream : Stream, stream.flatten = bytes → readAll stream = (msgs, .ok ())

theorem replays_iff (msgs : List AgentMessage) :
    Replays msgs ↔ ∀ m ∈ msgs, m.payload.length < maxMessageSize := by
  constructor
  · rintro ⟨bytes, hwrite, hreads⟩
    have hread := hreads [bytes] List.flatten_singleton
    rcases readAll_written hwrite (List.flatten_singleton) with ⟨hall, -⟩ | ⟨-, e, herror⟩
    · exact hall
    · rw [hread] at herror
      cases herror
  · intro hall
    obtain ⟨bytes, hwrite⟩ := writeAll_some hall
    refine ⟨bytes, hwrite, ?_⟩
    intro stream hstream
    rcases readAll_written hwrite hstream with ⟨-, hread⟩ | ⟨⟨m, hm, hlarge⟩, -⟩
    · exact hread
    · have hsmall := hall m hm
      omega

end Written

end AgentCodec

section Fields

/-- A field behind its length. -/
def sized (field : Bytes) : Bytes := Wire.beBytes 4 field.length ++ field

/-- A blob and the bytes of its comment, as they travel. -/
def rawBytes (fields : Bytes × Bytes) : Bytes := sized fields.1 ++ sized fields.2

def toRaw (identity : Identity) : Bytes × Bytes :=
  (identity.keyBlob, commentBytes identity.comment)

/-- The identities of raw fields, the comments read as text. -/
def ofRaw (raw : List (Bytes × Bytes)) : List Identity :=
  raw.map fun fields => ⟨fields.1, LossyText.decode fields.2⟩

theorem ofRaw_toRaw (identities : List Identity) : ofRaw (identities.map toRaw) = identities := by
  induction identities with
  | nil => rfl
  | cons identity identities ih =>
    have hdecode : LossyText.decode (commentBytes identity.comment) = identity.comment :=
      LossyText.decode_toUTF8 identity.comment
    show ⟨identity.keyBlob, LossyText.decode (commentBytes identity.comment)⟩ ::
      ofRaw (identities.map toRaw) = _
    rw [ih, hdecode]

theorem length_sized (field : Bytes) : (sized field).length = 4 + field.length := by
  rw [sized, List.length_append, Wire.length_beBytes]

/-- `read_size_prefixed` operation by operation: `get_u32` panics on fewer than
four bytes, a slice and an advance beyond the end of the buffer. -/
def readField (buf : Bytes) (label : String) : Option (Except MessageError (Bytes × Bytes)) :=
  if buf.length < 4 then some (.error (.lengthMissing label))
  else
    (Wire.take 4 buf).bind fun (len, buf) =>
      if maxBlobSize < Wire.ofBe len then some (.error (.tooLarge label (Wire.ofBe len)))
      else if buf.length < Wire.ofBe len then some (.error (.truncated label))
      else (Wire.take (Wire.ofBe len) buf).map .ok

theorem take_of_le {n : ℕ} {cursor : Bytes} (h : n ≤ cursor.length) :
    Wire.take n cursor = some (cursor.splitAt n) := by
  unfold Wire.take
  rw [if_neg (by omega)]

theorem take_of_lt {n : ℕ} {cursor : Bytes} (h : cursor.length < n) :
    Wire.take n cursor = none := by
  unfold Wire.take
  rw [if_pos h]

/-- The checks of `read_size_prefixed` keep it from every panic. -/
theorem readField_eq (buf : Bytes) (label : String) :
    readField buf label = some (readSizePrefixed buf label) := by
  unfold readField readSizePrefixed
  by_cases hshort : buf.length < 4
  · rw [if_pos hshort, take_of_lt hshort]
  rw [if_neg hshort, take_of_le (by omega)]
  simp only [Option.bind_some]
  by_cases hlarge : maxBlobSize < Wire.ofBe (buf.splitAt 4).1
  · rw [if_pos hlarge, if_pos hlarge]
  rw [if_neg hlarge, if_neg hlarge]
  by_cases hcut : (buf.splitAt 4).2.length < Wire.ofBe (buf.splitAt 4).1
  · rw [if_pos hcut, take_of_lt hcut]
  · rw [if_neg hcut, take_of_le (by omega)]
    rfl

/-- A field that is read is as long as it declares. -/
theorem readSizePrefixed_ok {buf field rest : Bytes} {label : String}
    (h : readSizePrefixed buf label = .ok (field, rest)) :
    buf = sized field ++ rest ∧ field.length ≤ maxBlobSize := by
  unfold readSizePrefixed at h
  split at h
  · cases h
  rename_i len buf htake
  split at h
  · cases h
  rename_i hlarge
  split at h
  · cases h
  rename_i taken hfield
  cases h
  obtain ⟨hbuf, hfour⟩ := Wire.take_some htake
  obtain ⟨hrest, hlength⟩ := Wire.take_some hfield
  refine ⟨?_, by omega⟩
  rw [sized, hlength, hbuf, hrest, ← hfour, Wire.beBytes_ofBe, List.append_assoc]

theorem readSizePrefixed_sized {field : Bytes} (h : field.length ≤ maxBlobSize) (rest : Bytes)
    (label : String) : readSizePrefixed (sized field ++ rest) label = .ok (field, rest) :=
  readSizePrefixed_append h rest label

theorem readIdentities_raw {raw : List (Bytes × Bytes)} (rest : Bytes)
    (h : ∀ fields ∈ raw, fields.1.length ≤ maxBlobSize ∧ fields.2.length ≤ maxBlobSize) :
    AgentMessage.readIdentities raw.length (raw.flatMap rawBytes ++ rest) = .ok (ofRaw raw) := by
  induction raw with
  | nil => rfl
  | cons fields raw ih =>
    obtain ⟨⟨hblob, hcomment⟩, hrest⟩ := List.forall_mem_cons.mp h
    rw [List.length_cons, List.flatMap_cons, AgentMessage.readIdentities, rawBytes,
      List.append_assoc, List.append_assoc, readSizePrefixed_sized hblob]
    simp only
    rw [readSizePrefixed_sized hcomment]
    simp only
    rw [ih hrest]
    rfl

/-- An answer within the limits is read as what it carries. -/
theorem parseIdentities_raw {raw : List (Bytes × Bytes)} (hcount : raw.length ≤ maxIdentities)
    (h : ∀ fields ∈ raw, fields.1.length ≤ maxBlobSize ∧ fields.2.length ≤ maxBlobSize) :
    (AgentMessage.mk .identitiesAnswer
      (Wire.beBytes 4 raw.length ++ raw.flatMap rawBytes)).parseIdentities = .ok (ofRaw raw) := by
  have hlt : maxIdentities < 256 ^ 4 := by decide
  have hword : Wire.ofBe (Wire.beBytes 4 raw.length) = raw.length :=
    Wire.ofBe_beBytes_of_lt (by omega)
  have hread := readIdentities_raw [] h
  rw [List.append_nil] at hread
  unfold AgentMessage.parseIdentities
  rw [if_neg (by simp)]
  simp only
  rw [Wire.take_beBytes]
  simp only [hword]
  rw [if_neg (by omega)]
  exact hread

theorem readIdentities_ok {count : ℕ} {buf : Bytes} {identities : List Identity}
    (h : AgentMessage.readIdentities count buf = .ok identities) :
    ∃ raw rest, identities = ofRaw raw ∧ raw.length = count ∧
      buf = raw.flatMap rawBytes ++ rest := by
  induction count generalizing buf identities with
  | zero =>
    cases h
    exact ⟨[], buf, rfl, rfl, rfl⟩
  | succ count ih =>
    unfold AgentMessage.readIdentities at h
    split at h
    · cases h
    rename_i keyBlob buf' hblob
    split at h
    · cases h
    rename_i comment buf'' hcomment
    split at h
    · cases h
    rename_i tail htail
    cases h
    obtain ⟨raw, rest, rfl, hcount, hrest⟩ := ih htail
    refine ⟨(keyBlob, comment) :: raw, rest, rfl, by rw [List.length_cons, hcount], ?_⟩
    rw [(readSizePrefixed_ok hblob).1, (readSizePrefixed_ok hcomment).1, hrest, List.flatMap_cons]
    simp only [rawBytes, List.append_assoc]

/-- An answer that is read holds the identities it counts, each field as long as
it declares. -/
theorem parseIdentities_ok {msg : AgentMessage} {identities : List Identity}
    (h : msg.parseIdentities = .ok identities) :
    ∃ raw rest, identities = ofRaw raw ∧ raw.length ≤ maxIdentities ∧
      msg.payload = Wire.beBytes 4 raw.length ++ raw.flatMap rawBytes ++ rest := by
  unfold AgentMessage.parseIdentities at h
  split at h
  · cases h
  split at h
  · cases h
  rename_i count buf htake
  split at h
  · cases h
  rename_i hmax
  obtain ⟨hpayload, hfour⟩ := Wire.take_some htake
  obtain ⟨raw, rest, hids, hcount, hbuf⟩ := readIdentities_ok h
  refine ⟨raw, rest, hids, by omega, ?_⟩
  rw [hpayload, hbuf, hcount, ← hfour, Wire.beBytes_ofBe, List.append_assoc]

theorem parseSignRequest_ok {msg : AgentMessage} {fields : SignRequestFields}
    (h : msg.parseSignRequest = .ok fields) :
    ∃ rest, msg.payload = sized fields.keyBlob ++ (sized fields.data ++ rest) := by
  unfold AgentMessage.parseSignRequest at h
  split at h
  · cases h
  split at h
  · cases h
  rename_i keyBlob buf hblob
  split at h
  · cases h
  rename_i data buf' hdata
  rw [(readSizePrefixed_ok hblob).1, (readSizePrefixed_ok hdata).1]
  split at h
  · cases h
    exact ⟨_, rfl⟩
  · cases h
    exact ⟨_, rfl⟩

end Fields

section RoundTrip

theorem putSized_some {field bytes : Bytes} (h : putSized field = some bytes) :
    bytes = sized field := by
  unfold putSized at h
  split at h
  · cases h
    rfl
  · cases h

theorem putSized_of_lt {field : Bytes} (h : field.length < 2 ^ 32) :
    putSized field = some (sized field) := if_pos h

theorem identitiesBytes_some {identities : List Identity} {bytes : Bytes}
    (h : identitiesBytes identities = some bytes) :
    bytes = (identities.map toRaw).flatMap rawBytes := by
  induction identities generalizing bytes with
  | nil =>
    cases h
    rfl
  | cons identity identities ih =>
    unfold identitiesBytes at h
    split at h
    · rename_i head more hhead hmore
      cases h
      rw [List.map_cons, List.flatMap_cons, ih hmore]
      unfold identityBytes at hhead
      split at hhead
      · rename_i blob comment hblob hcomment
        cases hhead
        rw [putSized_some hblob, putSized_some hcomment]
        rfl
      · cases hhead
    · cases h

theorem identitiesBytes_of_small {identities : List Identity}
    (h : ∀ fields ∈ identities.map toRaw, fields.1.length < 2 ^ 32 ∧ fields.2.length < 2 ^ 32) :
    identitiesBytes identities = some ((identities.map toRaw).flatMap rawBytes) := by
  induction identities with
  | nil => rfl
  | cons identity identities ih =>
    rw [List.map_cons, List.forall_mem_cons] at h
    obtain ⟨hfields, hrest⟩ := h
    have hblob : identity.keyBlob.length < 2 ^ 32 := hfields.1
    have hcomment : (commentBytes identity.comment).length < 2 ^ 32 := hfields.2
    unfold identitiesBytes identityBytes
    rw [putSized_of_lt hblob, putSized_of_lt hcomment, ih hrest, List.map_cons, List.flatMap_cons]
    rfl

/-- The length of the message that carries the identities, without its prefix. -/
def answerSize (identities : List Identity) : ℕ :=
  5 + (identities.map fun i => 8 + i.keyBlob.length + (commentBytes i.comment).length).sum

/-- What the reader lets through. -/
structure AnswerFits (identities : List Identity) : Prop where
  count : identities.length ≤ maxIdentities
  size : answerSize identities ≤ AgentCodec.maxMessageSize

/-- The identities a client reads are the ones the answer was built from. -/
def RoundTrips (identities : List Identity) : Prop :=
  ∃ msg bytes, AgentMessage.buildIdentitiesAnswer identities = some msg ∧
    msg.encode = some bytes ∧ ∀ stream : Stream, stream.flatten = bytes →
      ∃ received, (AgentCodec.read stream).1 = .ok (some received) ∧
        received.parseIdentities = .ok identities

theorem length_rawBytes (fields : Bytes × Bytes) :
    (rawBytes fields).length = 8 + fields.1.length + fields.2.length := by
  rw [rawBytes, List.length_append, length_sized, length_sized]
  omega

theorem length_flatMap_rawBytes (identities : List Identity) :
    5 + ((identities.map toRaw).flatMap rawBytes).length = answerSize identities := by
  rw [List.length_flatMap, answerSize, List.map_map]
  apply congrArg (5 + List.sum ·)
  exact List.map_congr_left fun i _ => length_rawBytes (toRaw i)

theorem size_le_answerSize {identities : List Identity} {fields : Bytes × Bytes}
    (h : fields ∈ identities.map toRaw) :
    8 + fields.1.length + fields.2.length ≤ answerSize identities := by
  have hmem : rawBytes fields ∈ (identities.map toRaw).map rawBytes := List.mem_map_of_mem h
  have hle := (List.sublist_flatten_of_mem hmem).length_le
  rw [length_rawBytes] at hle
  have hall := length_flatMap_rawBytes identities
  unfold List.flatMap at hall
  omega

theorem buildIdentitiesAnswer_some {identities : List Identity} {msg : AgentMessage}
    (h : AgentMessage.buildIdentitiesAnswer identities = some msg) :
    identities.length < 2 ^ 32 ∧ msg = ⟨.identitiesAnswer,
      Wire.beBytes 4 identities.length ++ (identities.map toRaw).flatMap rawBytes⟩ := by
  unfold AgentMessage.buildIdentitiesAnswer at h
  split at h
  · rename_i hcount
    obtain ⟨bytes, hbytes, rfl⟩ := Option.map_eq_some_iff.mp h
    rw [identitiesBytes_some hbytes]
    exact ⟨hcount, rfl⟩
  · cases h

/-- The reader gets the identities back if and only if they are within its limits. -/
theorem roundTrips_iff (identities : List Identity) :
    RoundTrips identities ↔ AnswerFits identities := by
  have hmax : AgentCodec.maxMessageSize = maxBlobSize := rfl
  have hblob : maxBlobSize < 2 ^ 32 := by decide
  have hids : maxIdentities < 2 ^ 32 := by decide
  have hlength := length_flatMap_rawBytes identities
  constructor
  · rintro ⟨msg, bytes, hbuild, hencode, hreads⟩
    obtain ⟨hcount, rfl⟩ := buildIdentitiesAnswer_some hbuild
    obtain ⟨received, hreceived, hparse⟩ := hreads [bytes] List.flatten_singleton
    have hflat : ([bytes] : Stream).flatten = bytes ++ [] := by simp
    rcases AgentCodec.read_written hencode hflat with ⟨hsmall, hread, -⟩ | ⟨-, e, herror⟩
    · rw [hread] at hreceived
      cases hreceived
      rw [List.length_append, Wire.length_beBytes] at hsmall
      refine ⟨?_, by omega⟩
      obtain ⟨raw, rest, hraw, hfew, -⟩ := parseIdentities_ok hparse
      rw [hraw, ofRaw, List.length_map]
      exact hfew
    · rw [herror] at hreceived
      cases hreceived
  · rintro ⟨hcount, hsize⟩
    have hfields : ∀ fields ∈ identities.map toRaw,
        fields.1.length ≤ maxBlobSize ∧ fields.2.length ≤ maxBlobSize := by
      intro fields hi
      have hle := size_le_answerSize hi
      omega
    have hbytes : identitiesBytes identities =
        some ((identities.map toRaw).flatMap rawBytes) := by
      apply identitiesBytes_of_small
      intro fields hi
      have hle := hfields fields hi
      omega
    have hbuild : AgentMessage.buildIdentitiesAnswer identities = some ⟨.identitiesAnswer,
        Wire.beBytes 4 identities.length ++ (identities.map toRaw).flatMap rawBytes⟩ := by
      unfold AgentMessage.buildIdentitiesAnswer
      rw [if_pos (by omega), hbytes]
      rfl
    have hpayload : (Wire.beBytes 4 identities.length ++
        (identities.map toRaw).flatMap rawBytes).length = answerSize identities - 1 := by
      rw [List.length_append, Wire.length_beBytes]
      omega
    refine ⟨_, _, hbuild, if_pos (by simp only [hpayload]; omega), ?_⟩
    intro stream hstream
    have hflat := hstream.trans (List.append_nil _).symm
    rcases AgentCodec.read_written (if_pos (by simp only [hpayload]; omega)) hflat with
      ⟨-, hread, -⟩ | ⟨hlarge, -⟩
    · refine ⟨_, hread, ?_⟩
      have hparse := parseIdentities_raw (by rw [List.length_map]; exact hcount) hfields
      rwa [List.length_map, ofRaw_toRaw] at hparse
    · simp only [hpayload] at hlarge
      omega

end RoundTrip

end CacheWarden
