import CacheWarden.Daemon.Wire
import CacheWarden.Lib.JsonRecord

/-!
# The control-socket protocol as JSON

Each request is one object, told from the others by its `cmd`; each response is one object, told
from the others by the members it has. A member that says nothing is mostly left out, and a
member that is not there says nothing, so that an older side can be talked to.
-/

set_option autoImplicit false

namespace CacheWarden

namespace Protocol

open JsonRecord Fields

open Daemon (ErrorKind GuardConstraintWire SignedByWire ValueMetaWire CommandSpecWire OpSpecWire
  SourceSpecWire)

section Sources

theorem empty_params (params : KeyMap String) (h : params.isEmpty = true) :
    some ∅ = some params := by
  congr 1
  apply KeyMap.ext_get
  intro k
  simp [Std.ExtTreeMap.isEmpty_iff.mp h]

/-- A map that is left out where it is empty. -/
def params (name : String) : Fields (KeyMap String) :=
  field name (JsonRecord.map str) Std.ExtTreeMap.isEmpty (some ∅) empty_params

theorem empty_items {α : Type} (items : List α) (h : items.isEmpty = true) :
    some [] = some items := by
  rw [List.isEmpty_iff.mp h]

/-- A list that is left out where it is empty. -/
def items {α : Type} (name : String) (c : Codec α) : Fields (List α) :=
  field name (list c) List.isEmpty (some []) empty_items

theorem unset_flag (b : Bool) (h : (!b) = true) : some false = some b := by
  cases b with
  | false => rfl
  | true => cases h

/-- A flag that is left out where it is not set. -/
def flag (name : String) : Fields Bool := field name bool Bool.not (some false) unset_flag

def valueMeta : Fields ValueMetaWire :=
  ((optional "type" str str_ne_null).and (params "params") (by decide)).as
    (fun p => ⟨p.1, p.2⟩) (fun m => (m.typeLabel, m.params)) fun _ => rfl

def commandSpec : Fields CommandSpecWire :=
  ((required "argv" (list str)).and ((optional "cwd" str str_ne_null).and (params "env")
    (by decide)) (by decide)).as
    (fun p => ⟨p.1, p.2.1, p.2.2⟩) (fun c => (c.argv, c.cwd, c.env)) fun _ => rfl

def opSpec : Fields OpSpecWire :=
  ((required "uri" str).and (optional "account" str str_ne_null) (by decide)).as
    (fun p => ⟨p.1, p.2⟩) (fun o => (o.uri, o.account)) fun _ => rfl

def sourceVariants : List (Variant SourceSpecWire) :=
  [(required "command" commandSpec.codec).variant "command" .command
      (fun | .command spec => some spec | _ => Option.none)
      (by intro a b h; cases a <;> cases h; rfl),
    (required "op" opSpec.codec).variant "op" .op
      (fun | .op spec => some spec | _ => Option.none)
      (by intro a b h; cases a <;> cases h; rfl)]

theorem sourceVariants_covers : Covers sourceVariants :=
  covers_of_any fun a => by cases a <;> rfl

def sourceSpec : Fields SourceSpecWire :=
  tagged "source" sourceVariants sourceVariants_covers (by decide) (by decide)

def guardVariants : List (Variant GuardConstraintWire) :=
  [Fields.none.variant "same-user" (fun _ => .sameUser)
      (fun | .sameUser => some () | _ => Option.none)
      (by intro a b h; cases a <;> cases h; rfl),
    Fields.none.variant "same-shell" (fun _ => .sameShell)
      (fun | .sameShell => some () | _ => Option.none)
      (by intro a b h; cases a <;> cases h; rfl),
    (required "name" str).variant "same-ancestor" .sameAncestor
      (fun | .sameAncestor name => some name | _ => Option.none)
      (by intro a b h; cases a <;> cases h; rfl),
    (required "name" str).variant "command" .command
      (fun | .command name => some name | _ => Option.none)
      (by intro a b h; cases a <;> cases h; rfl)]

theorem guardVariants_covers : Covers guardVariants :=
  covers_of_any fun a => by cases a <;> rfl

def guardConstraint : Fields GuardConstraintWire :=
  tagged "kind" guardVariants guardVariants_covers (by decide) (by decide)

/-- The value of a `kv.set`, in base64. -/
inductive SetSource where
  | static (valueB64 : String)
  deriving DecidableEq

def setSourceVariants : List (Variant SetSource) :=
  [(required "value_b64" str).variant "static" .static (fun | .static v => some v)
    (by intro a b h; cases a; cases h; rfl)]

theorem setSourceVariants_covers : Covers setSourceVariants := by
  exact covers_of_any fun a => by cases a; rfl

def setSource : Fields SetSource :=
  tagged "kind" setSourceVariants setSourceVariants_covers (by decide) (by decide)

def signedBy : Fields SignedByWire :=
  ((required "anchor" str).and ((required "team_id" str).and (required "identifier" str)
    (by decide)) (by decide)).as
    (fun p => ⟨p.1, p.2.1, p.2.2⟩) (fun s => (s.anchor, s.teamId, s.identifier)) fun _ => rfl

end Sources

section Requests

structure SetRequest where
  key : String
  source : SetSource
  softTtlSecs : Option UInt64
  hardTtlSecs : Option UInt64
  guardConstraints : List GuardConstraintWire
  expectedVersion : Option UInt64
  claimToken : Option String
  persist : Option Bool
  signedBy : Option SignedByWire
  deriving DecidableEq

structure DefineRequest where
  key : String
  source : SourceSpecWire
  softTtlSecs : Option UInt64
  hardTtlSecs : Option UInt64
  valueMeta : ValueMetaWire
  deriving DecidableEq

inductive Request where
  | ping
  | status
  | kvSet (request : SetRequest)
  | kvDefine (request : DefineRequest)
  | kvGet (key : String) (dryRun : Bool)
  | kvDel (key : String) (withDefine : Bool)
  | kvList
  | kvPin (key : String) (durationSecs : UInt64)
  | kvUnpin (key : String)
  | kvClaim (key : String) (expectedVersion durationSecs : UInt64)
  | kvUnclaim (key claimToken : String)
  | vaultInit
  | vaultUnlock (recoveryCode : Option String)
  | kvOwnerClear (key : String)
  | vaultLock
  | vaultAddPasskey (label : String) (allowWithoutLocalApproval : Bool)
  | restartGraceful
  deriving DecidableEq

/-- A number that is written as `null` where there is none. -/
def secs (name : String) : Fields (Option UInt64) :=
  defaulted name (nullable u64 u64_ne_null) Option.none

def setRequest : Fields SetRequest :=
  ((required "key" str).and ((required "source" setSource.codec).and
    ((secs "soft_ttl_secs").and ((secs "hard_ttl_secs").and
    ((items "guard_constraints" guardConstraint.codec).and
    ((optional "expected_version" u64 u64_ne_null).and
    ((optional "claim_token" str str_ne_null).and
    ((optional "persist" bool bool_ne_null).and
    (optional "signed_by" signedBy.codec signedBy.codec_ne_null)
    (by decide)) (by decide)) (by decide)) (by decide)) (by decide)) (by decide)) (by decide))
    (by decide)).as
    (fun (key, source, soft, hard, guard, version, token, persist, signed) =>
      ⟨key, source, soft, hard, guard, version, token, persist, signed⟩)
    (fun r => (r.key, r.source, r.softTtlSecs, r.hardTtlSecs, r.guardConstraints,
      r.expectedVersion, r.claimToken, r.persist, r.signedBy)) fun _ => rfl

def emptyMeta (m : ValueMetaWire) : Bool := m.typeLabel.isNone && m.params.isEmpty

theorem emptyMeta_skipped (m : ValueMetaWire) (h : emptyMeta m = true) :
    some ⟨Option.none, ∅⟩ = some m := by
  obtain ⟨typeLabel, params⟩ := m
  rw [emptyMeta, Bool.and_eq_true, Option.isNone_iff_eq_none] at h
  have htype : typeLabel = Option.none := h.1
  rw [htype]
  congr 2
  exact Option.some.inj (empty_params params h.2)

/-- The members of the source stand beside the others. -/
def defineRequest : Fields DefineRequest :=
  ((required "key" str).and (sourceSpec.and ((secs "soft_ttl_secs").and
    ((secs "hard_ttl_secs").and
    (field "meta" valueMeta.codec emptyMeta (some ⟨Option.none, ∅⟩) emptyMeta_skipped)
    (by decide)) (by decide)) (by decide)) (by decide)).as
    (fun (key, source, soft, hard, m) => ⟨key, source, soft, hard, m⟩)
    (fun r => (r.key, r.source, r.softTtlSecs, r.hardTtlSecs, r.valueMeta)) fun _ => rfl

def requestVariants : List (Variant Request) :=
  [Fields.none.variant "ping" (fun _ => .ping)
      (fun | .ping => some () | _ => Option.none)
      (by intro a b h; cases a <;> cases h; rfl),
    Fields.none.variant "status" (fun _ => .status)
      (fun | .status => some () | _ => Option.none)
      (by intro a b h; cases a <;> cases h; rfl),
    setRequest.variant "kv.set" .kvSet
      (fun | .kvSet r => some r | _ => Option.none)
      (by intro a b h; cases a <;> cases h; rfl),
    defineRequest.variant "kv.define" .kvDefine
      (fun | .kvDefine r => some r | _ => Option.none)
      (by intro a b h; cases a <;> cases h; rfl),
    ((required "key" str).and
      (defaulted "dry_run" bool false) (by decide)).variant "kv.get"
      (fun p => .kvGet p.1 p.2)
      (fun | .kvGet key dryRun => some (key, dryRun) | _ => Option.none)
      (by intro a b h; cases a <;> cases h; rfl),
    ((required "key" str).and
      (defaulted "with_define" bool false) (by decide)).variant "kv.del"
      (fun p => .kvDel p.1 p.2)
      (fun | .kvDel key withDefine => some (key, withDefine) | _ => Option.none)
      (by intro a b h; cases a <;> cases h; rfl),
    Fields.none.variant "kv.list" (fun _ => .kvList)
      (fun | .kvList => some () | _ => Option.none)
      (by intro a b h; cases a <;> cases h; rfl),
    ((required "key" str).and
      (required "duration_secs" u64) (by decide)).variant "kv.pin"
      (fun p => .kvPin p.1 p.2)
      (fun | .kvPin key duration => some (key, duration) | _ => Option.none)
      (by intro a b h; cases a <;> cases h; rfl),
    (required "key" str).variant "kv.unpin" .kvUnpin
      (fun | .kvUnpin key => some key | _ => Option.none)
      (by intro a b h; cases a <;> cases h; rfl),
    ((required "key" str).and
      ((required "expected_version" u64).and
      (required "duration_secs" u64) (by decide)) (by decide)).variant "kv.claim"
      (fun p => .kvClaim p.1 p.2.1 p.2.2)
      (fun | .kvClaim key version duration => some (key, version, duration) | _ => Option.none)
      (by intro a b h; cases a <;> cases h; rfl),
    ((required "key" str).and
      (required "claim_token" str) (by decide)).variant "kv.unclaim"
      (fun p => .kvUnclaim p.1 p.2)
      (fun | .kvUnclaim key token => some (key, token) | _ => Option.none)
      (by intro a b h; cases a <;> cases h; rfl),
    Fields.none.variant "vault.init" (fun _ => .vaultInit)
      (fun | .vaultInit => some () | _ => Option.none)
      (by intro a b h; cases a <;> cases h; rfl),
    (defaulted "recovery_code" (nullable str str_ne_null) Option.none).variant "vault.unlock"
      .vaultUnlock
      (fun | .vaultUnlock code => some code | _ => Option.none)
      (by intro a b h; cases a <;> cases h; rfl),
    (required "key" str).variant "kv.owner_clear" .kvOwnerClear
      (fun | .kvOwnerClear key => some key | _ => Option.none)
      (by intro a b h; cases a <;> cases h; rfl),
    Fields.none.variant "vault.lock" (fun _ => .vaultLock)
      (fun | .vaultLock => some () | _ => Option.none)
      (by intro a b h; cases a <;> cases h; rfl),
    ((required "label" str).and
      (defaulted "allow_without_local_approval" bool false) (by decide)).variant "vault.add_passkey"
      (fun p => .vaultAddPasskey p.1 p.2)
      (fun | .vaultAddPasskey label allow => some (label, allow) | _ => Option.none)
      (by intro a b h; cases a <;> cases h; rfl),
    Fields.none.variant "daemon.restart_graceful" (fun _ => .restartGraceful)
      (fun | .restartGraceful => some () | _ => Option.none)
      (by intro a b h; cases a <;> cases h; rfl)]

theorem requestVariants_covers : Covers requestVariants :=
  covers_of_any fun a => by cases a <;> rfl

def request : Fields Request :=
  tagged "cmd" requestVariants requestVariants_covers (by decide) (by decide)

def encodeRequest (r : Request) : Json := request.codec.write r

def decodeRequest (j : Json) : Option Request := request.codec.read j

theorem decodeRequest_encodeRequest (r : Request) : decodeRequest (encodeRequest r) = some r :=
  request.codec.read_write r

/-- A request is read as it was meant, in whatever order its members come, and among members
that the protocol does not know. -/
theorem decodeRequest_among (r : Request) (ms others : Members)
    (hperm : ms.Perm (request.write r ++ others))
    (hothers : ∀ m ∈ others, m.1 ∉ request.names) :
    decodeRequest (.obj ms) = some r :=
  request.read_among r hperm hothers

/-- A definition of a one-time password, and a guarded and owned value. -/
def sampleDefine : DefineRequest where
  key := "ns/otp"
  source := .command ⟨["op", "read"], some "/srv", (∅ : KeyMap String).insert "LANG" "C"⟩
  softTtlSecs := some 60
  hardTtlSecs := none
  valueMeta := ⟨some "otp", (∅ : KeyMap String).insert "digits" "6"⟩

def sampleSet : SetRequest where
  key := "ns/token"
  source := .static "AQI="
  softTtlSecs := none
  hardTtlSecs := some 3600
  guardConstraints := [.sameUser, .sameAncestor "zsh"]
  expectedVersion := some 3
  claimToken := none
  persist := some true
  signedBy := some ⟨"apple-generic", "TEAM123456", "com.example.tool"⟩

/-- Both of them, their members the other way round and after one that is not known. -/
theorem decodeRequest_among_reversed :
    decodeRequest (.obj (("zeal", .bool true) ::
      (request.write (.kvDefine sampleDefine)).reverse)) = some (.kvDefine sampleDefine) ∧
    decodeRequest (.obj (("zeal", .bool true) ::
      (request.write (.kvSet sampleSet)).reverse)) = some (.kvSet sampleSet) := by
  have hperm : ∀ r, (("zeal", .bool true) :: (request.write r).reverse).Perm
      (request.write r ++ [("zeal", .bool true)]) := fun r =>
    ((List.reverse_perm _).cons _).trans (List.perm_append_singleton _ _).symm
  have hothers : ∀ m ∈ [("zeal", Json.bool true)], m.1 ∉ request.names := by decide
  exact ⟨decodeRequest_among _ _ _ (hperm _) hothers, decodeRequest_among _ _ _ (hperm _) hothers⟩

end Requests

section Responses

inductive FdaStatusWire where
  | granted
  | notGranted
  | notApplicable
  | unknown
  deriving DecidableEq

def FdaStatusWire.label : FdaStatusWire → String
  | .granted => "granted"
  | .notGranted => "not-granted"
  | .notApplicable => "not-applicable"
  | .unknown => "unknown"

theorem find_fda (a : FdaStatusWire) :
    [FdaStatusWire.granted, .notGranted, .notApplicable, .unknown].find?
      (fun b => b.label = a.label) = some a := by
  cases a <;> decide

def fdaStatus : Codec FdaStatusWire :=
  oneOf [.granted, .notGranted, .notApplicable, .unknown] FdaStatusWire.label find_fda

inductive VaultStateWire where
  | unlocked
  | locked
  | notInitialized
  deriving DecidableEq

def VaultStateWire.label : VaultStateWire → String
  | .unlocked => "unlocked"
  | .locked => "locked"
  | .notInitialized => "not-initialized"

theorem find_vaultState (a : VaultStateWire) :
    [VaultStateWire.unlocked, .locked, .notInitialized].find?
      (fun b => b.label = a.label) = some a := by
  cases a <;> decide

def vaultState : Codec VaultStateWire :=
  oneOf [.unlocked, .locked, .notInitialized] VaultStateWire.label find_vaultState

structure VaultStatusWire where
  state : VaultStateWire
  vaultId : Option String
  slots : Option UInt64
  dekGeneration : Option UInt64
  devRpSlot : Bool
  deriving DecidableEq

def vaultStatus : Fields VaultStatusWire :=
  ((required "state" vaultState).and ((optional "vault_id" str str_ne_null).and
    ((optional "slots" u64 u64_ne_null).and ((optional "dek_generation" u64 u64_ne_null).and
    (flag "dev_rp_slot") (by decide)) (by decide)) (by decide)) (by decide)).as
    (fun (state, id, slots, generation, dev) => ⟨state, id, slots, generation, dev⟩)
    (fun v => (v.state, v.vaultId, v.slots, v.dekGeneration, v.devRpSlot)) fun _ => rfl

/-- What `status` and `kv.list` say of an entry. -/
structure EntryInfo where
  name : String
  state : String
  regenerable : Bool
  defined : Bool
  hasValue : Bool
  pinRemainingSecs : Option UInt64
  valueType : Option String
  source : Option String
  backoffUntilSecs : Option UInt64
  guardSummary : Option (List String)
  ownerSummary : Option String
  version : Option UInt64
  claimExpiresInSecs : Option UInt64
  locked : Bool
  deriving DecidableEq

def entryInfo : Fields EntryInfo :=
  ((required "name" str).and ((required "state" str).and ((required "regenerable" bool).and
    ((required "defined" bool).and ((required "has_value" bool).and
    ((optional "pin_remaining_secs" u64 u64_ne_null).and
    ((optional "value_type" str str_ne_null).and ((optional "source" str str_ne_null).and
    ((optional "backoff_until_secs" u64 u64_ne_null).and
    ((optional "guard_summary" (list str) (list_ne_null str)).and
    ((optional "owner_summary" str str_ne_null).and ((optional "version" u64 u64_ne_null).and
    ((optional "claim_expires_in_secs" u64 u64_ne_null).and (flag "locked")
    (by decide)) (by decide)) (by decide)) (by decide)) (by decide)) (by decide)) (by decide))
    (by decide)) (by decide)) (by decide)) (by decide)) (by decide)) (by decide)).as
    (fun (name, state, regenerable, defined, hasValue, pin, type, source, backoff, guard, owner,
        version, claim, locked) =>
      ⟨name, state, regenerable, defined, hasValue, pin, type, source, backoff, guard, owner,
        version, claim, locked⟩)
    (fun e => (e.name, e.state, e.regenerable, e.defined, e.hasValue, e.pinRemainingSecs,
      e.valueType, e.source, e.backoffUntilSecs, e.guardSummary, e.ownerSummary, e.version,
      e.claimExpiresInSecs, e.locked)) fun _ => rfl

structure StatusPayload where
  pid : UInt32
  version : String
  socket : String
  entries : List EntryInfo
  fullDiskAccess : Option FdaStatusWire
  vault : Option VaultStatusWire
  deriving DecidableEq

def statusPayload : Fields StatusPayload :=
  ((required "pid" u32).and ((required "version" str).and ((required "socket" str).and
    ((required "entries" (list entryInfo.codec)).and
    ((optional "full_disk_access" fdaStatus (oneOf_ne_null find_fda)).and
    (optional "vault" vaultStatus.codec vaultStatus.codec_ne_null)
    (by decide)) (by decide)) (by decide)) (by decide)) (by decide)).as
    (fun (pid, version, socket, entries, fda, vault) =>
      ⟨pid, version, socket, entries, fda, vault⟩)
    (fun s => (s.pid, s.version, s.socket, s.entries, s.fullDiskAccess, s.vault)) fun _ => rfl

inductive OkPayload where
  | pong (pong : Bool)
  | status (status : StatusPayload)
  | get (valueB64 : String)
  | getVerified (verified : Bool) (state : String)
  | list (keys : List String) (entries : List EntryInfo)
  | deleted (deleted : Bool)
  | set (set : Bool) (guardApplied : List String) (version : Option UInt64)
      (ownerApplied : Option String)
  | defined (defined : Bool)
  | pinned (pinned : Bool) (pinRemainingSecs : UInt64)
  | unpinned (unpinned : Bool)
  | claimed (claimed : Bool) (version : UInt64) (claimToken : String)
      (claimExpiresInSecs : UInt64)
  | unclaimed (unclaimed : Bool)
  | vaultInitialized (initialized : Bool) (vaultId recoveryCode : String)
  | ceremonyOpened (ceremony : Bool) (url : String) (expiresInSecs : UInt64)
  | ownerCleared (ownerCleared : Bool)
  | vaultUnlocked (unlocked : Bool) (entriesRestored : UInt64)
  | vaultLocked (locked : Bool)
  | restarting (restarting : Bool)
  deriving DecidableEq

structure WireError where
  kind : ErrorKind
  message : String
  currentVersion : Option UInt64
  claimExpiresInSecs : Option UInt64
  deriving DecidableEq

inductive Response where
  | ok (ok : Bool) (payload : OkPayload)
  | err (ok : Bool) (error : WireError)
  deriving DecidableEq

def allKinds : List ErrorKind :=
  [.badRequest, .notFound, .authFailed, .notRegenerable, .hardExpired, .upstreamFailed, .internal,
    .casMismatch, .alreadyClaimed, .claimTokenMismatch, .vaultLocked, .vaultNotInitialized,
    .restartAborted]

def kindLabel : ErrorKind → String
  | .badRequest => "bad_request"
  | .notFound => "not_found"
  | .authFailed => "auth_failed"
  | .notRegenerable => "not_regenerable"
  | .hardExpired => "hard_expired"
  | .upstreamFailed => "upstream_failed"
  | .internal => "internal"
  | .casMismatch => "cas_mismatch"
  | .alreadyClaimed => "already_claimed"
  | .claimTokenMismatch => "claim_token_mismatch"
  | .vaultLocked => "vault_locked"
  | .vaultNotInitialized => "vault_not_initialized"
  | .restartAborted => "restart_aborted"

theorem find_kind (a : ErrorKind) :
    allKinds.find? (fun b => kindLabel b = kindLabel a) = some a := by
  cases a <;> decide

def wireError : Fields WireError :=
  ((required "kind" (oneOf allKinds kindLabel find_kind)).and ((required "message" str).and
    ((optional "current_version" u64 u64_ne_null).and
    (optional "claim_expires_in_secs" u64 u64_ne_null)
    (by decide)) (by decide)) (by decide)).as
    (fun (kind, message, version, claim) => ⟨kind, message, version, claim⟩)
    (fun e => (e.kind, e.message, e.currentVersion, e.claimExpiresInSecs)) fun _ => rfl

def payloadVariants : List (Variant OkPayload) :=
  [(required "pong" bool).variant "Pong" .pong
      (fun | .pong pong => some pong | _ => Option.none)
      (by intro a b h; cases a <;> cases h; rfl),
    statusPayload.variant "Status" .status
      (fun | .status s => some s | _ => Option.none)
      (by intro a b h; cases a <;> cases h; rfl),
    (required "value_b64" str).variant "Get" .get
      (fun | .get value => some value | _ => Option.none)
      (by intro a b h; cases a <;> cases h; rfl),
    ((required "verified" bool).and
      (required "state" str) (by decide)).variant "GetVerified"
      (fun p => .getVerified p.1 p.2)
      (fun | .getVerified verified state => some (verified, state) | _ => Option.none)
      (by intro a b h; cases a <;> cases h; rfl),
    ((required "keys" (JsonRecord.list str)).and
      (items "entries" entryInfo.codec) (by decide)).variant "List"
      (fun p => .list p.1 p.2)
      (fun | .list keys entries => some (keys, entries) | _ => Option.none)
      (by intro a b h; cases a <;> cases h; rfl),
    (required "deleted" bool).variant "Deleted" .deleted
      (fun | .deleted deleted => some deleted | _ => Option.none)
      (by intro a b h; cases a <;> cases h; rfl),
    ((required "set" bool).and
      ((items "guard_applied" str).and
      ((optional "version" u64 u64_ne_null).and
      (optional "owner_applied" str str_ne_null) (by decide)) (by decide)) (by decide)).variant
        "Set"
      (fun p => .set p.1 p.2.1 p.2.2.1 p.2.2.2)
      (fun | .set set guard version owner => some (set, guard, version, owner) | _ => Option.none)
      (by intro a b h; cases a <;> cases h; rfl),
    (required "defined" bool).variant "Defined" .defined
      (fun | .defined defined => some defined | _ => Option.none)
      (by intro a b h; cases a <;> cases h; rfl),
    ((required "pinned" bool).and
      (required "pin_remaining_secs" u64) (by decide)).variant "Pinned"
      (fun p => .pinned p.1 p.2)
      (fun | .pinned pinned secs => some (pinned, secs) | _ => Option.none)
      (by intro a b h; cases a <;> cases h; rfl),
    (required "unpinned" bool).variant "Unpinned" .unpinned
      (fun | .unpinned unpinned => some unpinned | _ => Option.none)
      (by intro a b h; cases a <;> cases h; rfl),
    ((required "claimed" bool).and
      ((required "version" u64).and
      ((required "claim_token" str).and
      (required "claim_expires_in_secs" u64) (by decide)) (by decide)) (by decide)).variant
        "Claimed"
      (fun p => .claimed p.1 p.2.1 p.2.2.1 p.2.2.2)
      (fun
        | .claimed done version token secs => some (done, version, token, secs)
        | _ => Option.none)
      (by intro a b h; cases a <;> cases h; rfl),
    (required "unclaimed" bool).variant "Unclaimed" .unclaimed
      (fun | .unclaimed unclaimed => some unclaimed | _ => Option.none)
      (by intro a b h; cases a <;> cases h; rfl),
    ((required "initialized" bool).and
      ((required "vault_id" str).and
      (required "recovery_code" str) (by decide)) (by decide)).variant "VaultInitialized"
      (fun p => .vaultInitialized p.1 p.2.1 p.2.2)
      (fun | .vaultInitialized done id code => some (done, id, code) | _ => Option.none)
      (by intro a b h; cases a <;> cases h; rfl),
    ((required "ceremony" bool).and
      ((required "url" str).and
      (required "expires_in_secs" u64) (by decide)) (by decide)).variant "CeremonyOpened"
      (fun p => .ceremonyOpened p.1 p.2.1 p.2.2)
      (fun | .ceremonyOpened ceremony url secs => some (ceremony, url, secs) | _ => Option.none)
      (by intro a b h; cases a <;> cases h; rfl),
    (required "owner_cleared" bool).variant "OwnerCleared" .ownerCleared
      (fun | .ownerCleared cleared => some cleared | _ => Option.none)
      (by intro a b h; cases a <;> cases h; rfl),
    ((required "unlocked" bool).and
      (required "entries_restored" u64) (by decide)).variant "VaultUnlocked"
      (fun p => .vaultUnlocked p.1 p.2)
      (fun | .vaultUnlocked unlocked restored => some (unlocked, restored) | _ => Option.none)
      (by intro a b h; cases a <;> cases h; rfl),
    (required "locked" bool).variant "VaultLocked" .vaultLocked
      (fun | .vaultLocked locked => some locked | _ => Option.none)
      (by intro a b h; cases a <;> cases h; rfl),
    (required "restarting" bool).variant "Restarting" .restarting
      (fun | .restarting restarting => some restarting | _ => Option.none)
      (by intro a b h; cases a <;> cases h; rfl)]

theorem payloadVariants_covers : Covers payloadVariants :=
  covers_of_any fun a => by cases a <;> rfl

theorem payloadVariants_distinct : Distinct payloadVariants := by
  decide

def okPayload : Fields OkPayload :=
  untagged payloadVariants payloadVariants_covers payloadVariants_distinct

def responseVariants : List (Variant Response) :=
  [((required "ok" bool).and okPayload (by decide)).variant "Ok" (fun p => .ok p.1 p.2)
      (fun | .ok ok payload => some (ok, payload) | _ => Option.none)
      (by intro a b h; cases a <;> cases h; rfl),
    ((required "ok" bool).and (required "error" wireError.codec) (by decide)).variant "Err"
      (fun p => .err p.1 p.2)
      (fun | .err ok error => some (ok, error) | _ => Option.none)
      (by intro a b h; cases a <;> cases h; rfl)]

theorem responseVariants_covers : Covers responseVariants :=
  covers_of_any fun a => by cases a <;> rfl

theorem responseVariants_distinct : Distinct responseVariants := by
  decide

def response : Fields Response :=
  untagged responseVariants responseVariants_covers responseVariants_distinct

def decodeResponse (j : Json) : Option Response := response.codec.read j

/-- A response is read as it was meant, in whatever order its members come, and among members
that the protocol does not know: no payload is taken for another, and no error for a success. -/
theorem decodeResponse_among (r : Response) (ms others : Members)
    (hperm : ms.Perm (response.write r ++ others))
    (hothers : ∀ m ∈ others, m.1 ∉ response.names) :
    decodeResponse (.obj ms) = some r :=
  response.read_among r hperm hothers

theorem decodeResponse_among_reversed :
    decodeResponse (.obj (("zeal", .bool true) ::
      (response.write (.ok true (.getVerified true "active"))).reverse)) =
        some (.ok true (.getVerified true "active")) := by
  apply decodeResponse_among _ _ [("zeal", .bool true)]
  · exact ((List.reverse_perm _).cons _).trans (List.perm_append_singleton _ _).symm
  · decide

end Responses

end Protocol

end CacheWarden
