import CacheWarden.Authsock.Codec
import CacheWarden.Daemon.Signing

/-!
# What a client is shown

A request for identities is answered with the local keys and then the keys of each
upstream in turn, those the filter hides left out and one kept for each blob. The
answer is built whatever its size, and a client reads it only within the limits
that the daemon itself reads an upstream with.
-/

set_option autoImplicit false

namespace CacheWarden

namespace Daemon

open Arrivals

/-- What an upstream sends until it closes; `none` for one that cannot be reached
or does not answer in time. -/
abbrev UpstreamAnswer := Option Stream

inductive UpstreamError where
  | unavailable
  | read (e : CodecError)
  | closed
  | answer (e : AnswerError)
  deriving DecidableEq

def upstreamIdentities : UpstreamAnswer → Except UpstreamError (List Identity)
  | none => .error .unavailable
  | some stream =>
    match (AgentCodec.read stream).1 with
    | .error e => .error (.read e)
    | .ok none => .error .closed
    | .ok (some response) =>
      if response.msgType ≠ .identitiesAnswer then .ok []
      else
        match response.parseIdentities with
        | .error e => .error (.answer e)
        | .ok identities => .ok identities

/-- The identities gathered so far, their blobs, and the upstream of each blob
that an upstream offered. -/
structure Merge where
  merged : List Identity
  seen : List Blob
  routes : Std.ExtTreeMap Blob ℕ

namespace Merge

/-- The local identities that the socket shows. -/
def start (libs : MatchLibs) (socket : SocketState) : Merge :=
  let merged := socket.target.live.identities.filter (socket.filter.matches libs)
  ⟨merged, merged.map Identity.keyBlob, ∅⟩

def offer (libs : MatchLibs) (filter : FilterEvaluator) (idx : ℕ) (self : Merge)
    (identity : Identity) : Merge :=
  if !filter.matches libs identity then self
  else if identity.keyBlob ∈ self.seen then self
  else ⟨self.merged ++ [identity], identity.keyBlob :: self.seen,
    self.routes.insert identity.keyBlob idx⟩

def upstreams (libs : MatchLibs) (filter : FilterEvaluator) :
    ℕ → List UpstreamAnswer → Merge → Merge
  | _, [], merge => merge
  | idx, answer :: answers, merge =>
    match upstreamIdentities answer with
    | .ok identities =>
      upstreams libs filter (idx + 1) answers (identities.foldl (offer libs filter idx) merge)
    | .error _ => upstreams libs filter (idx + 1) answers merge

end Merge

/-- What `request_identities` gathers of its registry and its upstreams. -/
def gather (libs : MatchLibs) (socket : SocketState) (answers : List UpstreamAnswer) : Merge :=
  Merge.upstreams libs socket.filter 0 answers (Merge.start libs socket)

/-- The answer, or `none` where building it panics, and the routes of its blobs. -/
def requestIdentities (libs : MatchLibs) (socket : SocketState) (answers : List UpstreamAnswer) :
    Option AgentMessage × Std.ExtTreeMap Blob ℕ :=
  (AgentMessage.buildIdentitiesAnswer (gather libs socket answers).merged,
    (gather libs socket answers).routes)

/-- A client reads what was gathered if and only if it is within the limits of the
reader. Messages come back in order if and only if each is within its size. What
arrives is never read beyond the length it declares. -/
theorem answers_round_trip (libs : MatchLibs) (socket : SocketState)
    (answers : List UpstreamAnswer) (msgs : List AgentMessage) (stream : Stream) (buf : Bytes)
    (label : String) (msg : AgentMessage) :
    (RoundTrips (gather libs socket answers).merged ↔
      AnswerFits (gather libs socket answers).merged) ∧
    (AgentCodec.Replays msgs ↔ ∀ m ∈ msgs, m.payload.length < AgentCodec.maxMessageSize) ∧
    AgentCodec.Outcome stream.flatten (AgentCodec.read stream).1
      (AgentCodec.read stream).2.flatten ∧
    (readField buf label = some (readSizePrefixed buf label) ∧
      ∀ field rest, readSizePrefixed buf label = .ok (field, rest) →
        buf = sized field ++ rest ∧ field.length ≤ maxBlobSize) ∧
    (∀ identities, msg.parseIdentities = .ok identities →
      ∃ raw rest, identities = ofRaw raw ∧ raw.length ≤ maxIdentities ∧
        msg.payload = Wire.beBytes 4 raw.length ++ raw.flatMap rawBytes ++ rest) ∧
    ∀ fields, msg.parseSignRequest = .ok fields →
      ∃ rest, msg.payload = sized fields.keyBlob ++ (sized fields.data ++ rest) := by
  refine ⟨roundTrips_iff _, AgentCodec.replays_iff msgs, AgentCodec.read_outcome stream,
    ⟨readField_eq buf label, ?_⟩, ?_, ?_⟩
  · exact fun field rest h => readSizePrefixed_ok h
  · exact fun identities h => parseIdentities_ok h
  · exact fun fields h => parseSignRequest_ok h

section Growth

def blindLibs : MatchLibs where
  fingerprint _ := none
  keyType _ := none
  globMatch _ _ := false
  regexMatch _ _ := false
  toLowercase := id

def bareSocket : SocketState where
  target := ⟨PublicKeyRegistry.new, PublicKeyRegistry.new⟩
  filter := ⟨[]⟩

/-- The fields of an identity whose comment is bytes that start no character. -/
def grownFields (n : ℕ) : List (Bytes × Bytes) := [([1], List.replicate n 0xff)]

def grownPayload (n : ℕ) : Bytes :=
  Wire.beBytes 4 (grownFields n).length ++ (grownFields n).flatMap rawBytes

def grownStream (n : ℕ) : Stream :=
  [Wire.beBytes 4 (1 + (grownPayload n).length) ++ (12 :: grownPayload n)]

def grownIdentity (n : ℕ) : Identity := ⟨[1], LossyText.decode (List.replicate n 0xff)⟩

theorem length_grownPayload (n : ℕ) : (grownPayload n).length = 13 + n := by
  unfold grownPayload grownFields
  rw [List.length_append, Wire.length_beBytes, List.flatMap_singleton, length_rawBytes,
    List.length_replicate, List.length_singleton]
  omega

theorem parse_grownPayload {n : ℕ} (hn : n ≤ maxBlobSize) :
    (AgentMessage.mk .identitiesAnswer (grownPayload n)).parseIdentities =
      .ok [grownIdentity n] := by
  have hcount : (grownFields n).length ≤ maxIdentities := (by decide : 1 ≤ maxIdentities)
  apply parseIdentities_raw hcount
  intro fields hfields
  cases List.mem_singleton.mp hfields
  have hblob : 1 ≤ maxBlobSize := by decide
  exact ⟨hblob, by rw [List.length_replicate]; exact hn⟩

theorem length_grownComment (n : ℕ) : (commentBytes (grownIdentity n).comment).length = 3 * n :=
  LossyText.length_toUTF8_decode (by decide) n

theorem read_grownStream {n : ℕ} (hn : n + 13 < AgentCodec.maxMessageSize) :
    (AgentCodec.read (grownStream n)).1 = .ok (some ⟨.identitiesAnswer, grownPayload n⟩) := by
  have hmax : AgentCodec.maxMessageSize < 2 ^ 32 := by decide
  have hlength := length_grownPayload n
  have hencode : (AgentMessage.mk .identitiesAnswer (grownPayload n)).encode =
      some (Wire.beBytes 4 (1 + (grownPayload n).length) ++ (12 :: grownPayload n)) := by
    apply if_pos
    simp only
    omega
  have hflat : (grownStream n).flatten =
      Wire.beBytes 4 (1 + (grownPayload n).length) ++ (12 :: grownPayload n) ++ [] := by
    unfold grownStream
    rw [List.flatten_singleton, List.append_nil]
  rcases AgentCodec.read_written hencode hflat with ⟨-, hread, -⟩ | ⟨hlarge, -⟩
  · exact hread
  · simp only at hlarge
    omega

theorem gather_grown {n : ℕ} (hn : n + 13 < AgentCodec.maxMessageSize) :
    (gather blindLibs bareSocket [some (grownStream n)]).merged = [grownIdentity n] := by
  have hmax : AgentCodec.maxMessageSize = maxBlobSize := rfl
  have hidentities : upstreamIdentities (some (grownStream n)) = .ok [grownIdentity n] := by
    have hparsed : n ≤ maxBlobSize := by omega
    unfold upstreamIdentities
    simp only [read_grownStream hn, parse_grownPayload hparsed, ne_eq,
      not_true_eq_false, if_false]
  have hstart : Merge.start blindLibs bareSocket = ⟨[], [], ∅⟩ := rfl
  unfold gather Merge.upstreams
  rw [hidentities, hstart]
  rfl

theorem not_roundTrips_grown {n : ℕ} (hn : n + 13 < AgentCodec.maxMessageSize)
    (hbig : AgentCodec.maxMessageSize < 3 * n) :
    ¬ RoundTrips (gather blindLibs bareSocket [some (grownStream n)]).merged := by
  rw [roundTrips_iff, gather_grown hn]
  rintro ⟨-, hsize⟩
  have hmem : toRaw (grownIdentity n) ∈ [grownIdentity n].map toRaw := List.mem_cons_self
  have hle := size_le_answerSize hmem
  have hgrown := length_grownComment n
  unfold toRaw at hle
  simp only [hgrown] at hle
  omega

/-- An answer that is let through holds a comment that grows threefold when it is
read as text, and the client of the daemon cannot read it any more. -/
theorem grown_answer_unread :
    ¬ RoundTrips (gather blindLibs bareSocket [some (grownStream 6000000)]).merged :=
  not_roundTrips_grown (by decide) (by decide)

end Growth

end Daemon

end CacheWarden
