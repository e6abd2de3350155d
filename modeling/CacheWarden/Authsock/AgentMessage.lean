import CacheWarden.Authsock.Registry
import CacheWarden.Lib.Wire

/-!
# Messages of the agent protocol

A sign request names a key by its public blob and carries what is to be signed.
Both fields are length-prefixed; the flags after them may be left out.
-/

set_option autoImplicit false

namespace CacheWarden

inductive MessageType where
  | requestIdentities
  | signRequest
  | addIdentity
  | removeIdentity
  | removeAllIdentities
  | addIdConstrained
  | addSmartcardKey
  | removeSmartcardKey
  | lock
  | unlock
  | addSmartcardKeyConstrained
  | extension
  | failure
  | success
  | identitiesAnswer
  | signResponse
  | extensionFailure
  | unknown
  deriving DecidableEq

structure AgentMessage where
  msgType : MessageType
  payload : Bytes
  deriving DecidableEq

structure SignRequestFields where
  keyBlob : Blob
  data : Bytes
  flags : UInt32
  deriving DecidableEq

/-- Why a sign request could not be read. -/
inductive MessageError where
  | notSignRequest (got : MessageType)
  | lengthMissing (label : String)
  | tooLarge (label : String) (len : ℕ)
  | truncated (label : String)
  deriving DecidableEq

def maxBlobSize : ℕ := 16 * 1024 * 1024

/-- A field behind its length, and what follows it. -/
def readSizePrefixed (buf : Bytes) (label : String) : Except MessageError (Bytes × Bytes) :=
  match Wire.take 4 buf with
  | none => .error (.lengthMissing label)
  | some (prefixed, rest) =>
    if maxBlobSize < Wire.ofBe prefixed then .error (.tooLarge label (Wire.ofBe prefixed))
    else
      match Wire.take (Wire.ofBe prefixed) rest with
      | none => .error (.truncated label)
      | some field => .ok field

namespace AgentMessage

def failure : AgentMessage := ⟨.failure, []⟩

def signResponse (signatureBlob : Bytes) : AgentMessage :=
  ⟨.signResponse, Wire.beBytes 4 signatureBlob.length ++ signatureBlob⟩

def parseSignRequest (self : AgentMessage) : Except MessageError SignRequestFields :=
  if self.msgType ≠ .signRequest then .error (.notSignRequest self.msgType)
  else
    match readSizePrefixed self.payload "Key blob" with
    | .error e => .error e
    | .ok (keyBlob, buf) =>
      match readSizePrefixed buf "Sign data" with
      | .error e => .error e
      | .ok (data, buf) =>
        match Wire.take 4 buf with
        | some (flags, _) => .ok ⟨keyBlob, data, UInt32.ofNat (Wire.ofBe flags)⟩
        | none => .ok ⟨keyBlob, data, 0⟩

/-- The request a client sends for a signature. -/
def signRequest (fields : SignRequestFields) : AgentMessage :=
  ⟨.signRequest,
    Wire.beBytes 4 fields.keyBlob.length ++ fields.keyBlob ++
      (Wire.beBytes 4 fields.data.length ++ fields.data) ++ Wire.beBytes 4 fields.flags.toNat⟩

end AgentMessage

section Parse

theorem readSizePrefixed_append {field : Bytes} (h : field.length ≤ maxBlobSize) (rest : Bytes)
    (label : String) :
    readSizePrefixed (Wire.beBytes 4 field.length ++ field ++ rest) label = .ok (field, rest) := by
  have hlength : Wire.ofBe (Wire.beBytes 4 field.length) = field.length := by
    apply Wire.ofBe_beBytes_of_lt
    unfold maxBlobSize at h
    omega
  unfold readSizePrefixed
  rw [List.append_assoc, Wire.take_beBytes]
  simp only [hlength]
  rw [if_neg (by omega), Wire.take_append rfl]

/-- A request within the size limit is read back as it was meant. -/
theorem parseSignRequest_signRequest {fields : SignRequestFields}
    (hkey : fields.keyBlob.length ≤ maxBlobSize) (hdata : fields.data.length ≤ maxBlobSize) :
    (AgentMessage.signRequest fields).parseSignRequest = .ok fields := by
  have hflags : Wire.ofBe (Wire.beBytes 4 fields.flags.toNat) = fields.flags.toNat := by
    apply Wire.ofBe_beBytes_of_lt
    exact fields.flags.toNat_lt
  unfold AgentMessage.parseSignRequest AgentMessage.signRequest
  rw [if_neg (by simp)]
  simp only [List.append_assoc]
  rw [← List.append_assoc (Wire.beBytes 4 fields.keyBlob.length), readSizePrefixed_append hkey]
  simp only
  rw [← List.append_assoc, readSizePrefixed_append hdata]
  simp only
  rw [show Wire.beBytes 4 fields.flags.toNat = Wire.beBytes 4 fields.flags.toNat ++ [] by simp,
    Wire.take_beBytes]
  simp only [hflags, UInt32.ofNat_toNat]

end Parse

end CacheWarden
