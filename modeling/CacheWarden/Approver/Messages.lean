import CacheWarden.Daemon.ApproverClient
import CacheWarden.Lib.CutLines
import Mathlib.Tactic.Ring

/-!
# What the daemon and the approver helper say to each other

Each message is one line. The helper's lines carry the id of what they answer; the daemon's
are requests for a dialog, and the one request for the explainer of Full Disk Access.
-/

set_option autoImplicit false

namespace CacheWarden

namespace Approver

open Daemon (WireAuditToken WireOutcome)

/-- `WIRE_VERSION`. -/
def wireVersion : UInt32 := 2

structure ProcessChainEntry where
  pid : UInt32
  ppid : UInt32
  path : String
  startTime : UInt64
  deriving DecidableEq

structure Requester where
  chain : List ProcessChainEntry
  auditToken : WireAuditToken
  responsibleBundleId : Option String
  deriving DecidableEq

structure ApproveRequest where
  v : UInt32
  requestId : String
  key : String
  operation : String
  requester : Requester
  timeoutSecs : UInt32
  deriving DecidableEq

structure FdaPromptRequest where
  v : UInt32
  requestId : String
  deriving DecidableEq

inductive HelperRequest where
  | approve (req : ApproveRequest)
  | fdaPrompt (req : FdaPromptRequest)
  deriving DecidableEq

structure ApproveResponse where
  v : UInt32
  requestId : String
  outcome : WireOutcome
  biometricKind : Option String
  deriving DecidableEq

inductive FdaOutcome where
  | granted
  | dismissed
  deriving DecidableEq

structure FdaPromptResponse where
  v : UInt32
  requestId : String
  outcome : FdaOutcome
  deriving DecidableEq

inductive HelperResponse where
  | approve (resp : ApproveResponse)
  | fdaPrompt (resp : FdaPromptResponse)
  deriving DecidableEq

/-- `file_name` of a path, or the whole of it. -/
def baseName (path : String) : String :=
  (((OsPath.utf8 path).fileName).filter (· ≠ "")).getD path

/-- Who asks, as the dialog shows it. -/
def requesterDisplayName (req : ApproveRequest) : String :=
  match req.requester.responsibleBundleId with
  | some bundleId => bundleId
  | none =>
    ((req.requester.chain.head?.map fun entry => baseName entry.path).filter (· ≠ "")).getD
      "requester"

def verb (operation : String) : String :=
  if operation = "sign" then "sign with"
  else if operation ∈ ["get", "extend", "regenerate", "pin"] then "read"
  else operation

def summaryLine (req : ApproveRequest) : String :=
  "Allow " ++ requesterDisplayName req ++ " to " ++ verb req.operation ++ " " ++ req.key

/-- What the person is asked, before it has an id. -/
structure Question where
  key : String
  operation : String
  requester : Requester
  timeoutSecs : UInt32
  deriving DecidableEq

/-- `mint_approver_request_id`, of a counter that wraps. -/
def mintApproverRequestId (pid : UInt32) (n : ℕ) : String :=
  toString pid.toNat ++ "-" ++ toString (n % 2 ^ 64)

def buildApproveRequest (pid : UInt32) (n : ℕ) (question : Question) : ApproveRequest where
  v := wireVersion
  requestId := mintApproverRequestId pid n
  key := question.key
  operation := question.operation
  requester := question.requester
  timeoutSecs := question.timeoutSecs

end Approver

end CacheWarden
