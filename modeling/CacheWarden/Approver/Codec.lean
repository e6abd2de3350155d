import CacheWarden.Approver.Messages

/-!
# A codec of the messages

On the wire the messages are JSON, which stays a parameter of what follows. That what is
asked of it can be had is shown by a codec of numbers, in which messages known beforehand
are short.
-/

set_option autoImplicit false

namespace CacheWarden

namespace Approver

open CutLines
open Daemon (WireAuditToken WireOutcome)

/-- Values that are written as numbers one after the other. -/
class Numbered (α : Type) where
  put : α → List ℕ
  get : List ℕ → Option (α × List ℕ)
  get_put : ∀ a rest, get (put a ++ rest) = some (a, rest)

namespace Numbered

variable {α β : Type}

theorem getNat_put (n : ℕ) (rest : List ℕ) :
    ([n] ++ rest).head?.map (fun n => (n, ([n] ++ rest).tail)) = some (n, rest) := rfl

instance : Numbered ℕ where
  put n := [n]
  get ns := ns.head?.map fun n => (n, ns.tail)
  get_put := getNat_put

/-- Values that are told by others. -/
def Tells (f : α → β) (g : β → Option α) : Prop := ∀ a, g (f a) = some a

theorem get_put_via [Numbered β] {f : α → β} {g : β → Option α} (h : Tells f g) (a : α)
    (rest : List ℕ) :
    ((get (put (f a) ++ rest)).bind fun x : β × List ℕ => (g x.1).map fun a => (a, x.2)) =
      some (a, rest) := by
  simp [get_put, h a]

@[reducible] def via [Numbered β] (f : α → β) (g : β → Option α) (h : Tells f g) :
    Numbered α where
  put a := put (f a)
  get ns := (get ns).bind fun x : β × List ℕ => (g x.1).map fun a => (a, x.2)
  get_put := get_put_via h

theorem get_put_prod [Numbered α] [Numbered β] (x : α × β) (rest : List ℕ) :
    ((get (put x.1 ++ put x.2 ++ rest)).bind fun y : α × List ℕ =>
      (get y.2).map fun z : β × List ℕ => ((y.1, z.1), z.2)) = some (x, rest) := by
  simp [List.append_assoc, get_put]

instance [Numbered α] [Numbered β] : Numbered (α × β) where
  put x := put x.1 ++ put x.2
  get ns := (get ns).bind fun y : α × List ℕ =>
    (get y.2).map fun z : β × List ℕ => ((y.1, z.1), z.2)
  get_put := get_put_prod

def getMany [Numbered α] : ℕ → List ℕ → Option (List α × List ℕ)
  | 0, ns => some ([], ns)
  | n + 1, ns => (get ns).bind fun x : α × List ℕ =>
    (getMany n x.2).map fun y => (x.1 :: y.1, y.2)

def getList [Numbered α] : List ℕ → Option (List α × List ℕ)
  | [] => none
  | n :: ns => getMany n ns

theorem getList_put [Numbered α] (xs : List α) (rest : List ℕ) :
    getList (xs.length :: xs.flatMap put ++ rest) = some (xs, rest) := by
  simp only [List.cons_append, getList]
  induction xs with
  | nil => rfl
  | cons x xs ih => simp [getMany, List.append_assoc, get_put, ih]

instance [Numbered α] : Numbered (List α) where
  put xs := xs.length :: xs.flatMap put
  get := getList
  get_put := getList_put

theorem tells_word : Tells UInt32.toNat fun n => some (.ofNat n) := fun a => by simp

theorem tells_long : Tells UInt64.toNat fun n => some (.ofNat n) := fun a => by simp

theorem tells_char : Tells Char.toNat fun n => some (.ofNat n) := fun a => by simp

instance : Numbered UInt32 := via _ _ tells_word

instance : Numbered UInt64 := via _ _ tells_long

instance : Numbered Char := via _ _ tells_char

theorem tells_string : Tells String.toList fun cs => some (.ofList cs) := fun a => by simp

instance : Numbered String := via _ _ tells_string

def optionOf (xs : List α) : Option (Option α) := some xs.head?

theorem tells_option : Tells Option.toList (optionOf : List α → Option (Option α)) := fun a => by
  cases a <;> rfl

instance [Numbered α] : Numbered (Option α) := via _ _ tells_option

def entryParts (a : ProcessChainEntry) := (a.pid, a.ppid, a.path, a.startTime)

theorem tells_entry : Tells entryParts fun x => some ⟨x.1, x.2.1, x.2.2.1, x.2.2.2⟩ := fun _ => rfl

instance : Numbered ProcessChainEntry := via _ _ tells_entry

def tokenParts (a : WireAuditToken) := (a.euid, a.ruid, a.egid, a.pid, a.pidVersion)

theorem tells_token :
    Tells tokenParts fun x => some ⟨x.1, x.2.1, x.2.2.1, x.2.2.2.1, x.2.2.2.2⟩ := fun _ => rfl

instance : Numbered WireAuditToken := via _ _ tells_token

def requesterParts (a : Requester) := (a.chain, a.auditToken, a.responsibleBundleId)

theorem tells_requester : Tells requesterParts fun x => some ⟨x.1, x.2.1, x.2.2⟩ := fun _ => rfl

instance : Numbered Requester := via _ _ tells_requester

def requestParts (a : ApproveRequest) :=
  (a.v, a.requestId, a.key, a.operation, a.requester, a.timeoutSecs)

theorem tells_request : Tells requestParts fun x =>
    some ⟨x.1, x.2.1, x.2.2.1, x.2.2.2.1, x.2.2.2.2.1, x.2.2.2.2.2⟩ := fun _ => rfl

instance : Numbered ApproveRequest := via _ _ tells_request

def helperRequestParts : HelperRequest → Option ApproveRequest × UInt32 × String
  | .approve req => (some req, 0, "")
  | .fdaPrompt req => (none, req.v, req.requestId)

def ofHelperRequestParts (x : Option ApproveRequest × UInt32 × String) : Option HelperRequest :=
  some (x.1.elim (.fdaPrompt ⟨x.2.1, x.2.2⟩) .approve)

theorem tells_helperRequest : Tells helperRequestParts ofHelperRequestParts := fun a => by
  cases a <;> rfl

instance : Numbered HelperRequest := via _ _ tells_helperRequest

def outcomes : List WireOutcome :=
  [.approved, .denied, .cancelled, .timeout, .peerGone, .biometricFailed]

theorem tells_outcome : Tells (outcomes.idxOf ·) (outcomes[·]?) := fun a => by cases a <;> rfl

instance : Numbered WireOutcome := via _ _ tells_outcome

/-- An answer of either kind, the outcome of the explainer after those of the dialogs. -/
def helperResponseParts : HelperResponse → Option WireOutcome × UInt32 × String × Option String
  | .approve resp => (some resp.outcome, resp.v, resp.requestId, resp.biometricKind)
  | .fdaPrompt resp =>
    (none, resp.v, resp.requestId, if resp.outcome = .granted then some "" else none)

def ofHelperResponseParts (x : Option WireOutcome × UInt32 × String × Option String) :
    Option HelperResponse :=
  some (x.1.elim
    (.fdaPrompt ⟨x.2.1, x.2.2.1, if x.2.2.2.isSome then .granted else .dismissed⟩)
    fun outcome => .approve ⟨x.2.1, x.2.2.1, outcome, x.2.2.2⟩)

theorem tells_helperResponse : Tells helperResponseParts ofHelperResponseParts := fun a => by
  cases a with
  | approve resp => rfl
  | fdaPrompt resp =>
    obtain ⟨v, requestId, outcome⟩ := resp
    cases outcome <;> rfl

instance : Numbered HelperResponse := via _ _ tells_helperResponse

end Numbered

def unary (ns : List ℕ) : Text := ns.flatMap fun n => List.replicate n 4 ++ [5]

/-- The number that is being read, and those behind it. -/
def ofUnary : ℕ → Text → List ℕ
  | _, [] => []
  | k, byte :: rest => if byte = 4 then ofUnary (k + 1) rest else k :: ofUnary 0 rest

theorem ofUnary_replicate (k n : ℕ) (rest : Text) :
    ofUnary k (List.replicate n 4 ++ 5 :: rest) = (k + n) :: ofUnary 0 rest := by
  induction n generalizing k with
  | zero => simp [ofUnary]
  | succ n ih =>
    rw [List.replicate_succ, List.cons_append, ofUnary, if_pos rfl, ih]
    congr 1
    omega

theorem ofUnary_unary (ns : List ℕ) : ofUnary 0 (unary ns) = ns := by
  induction ns with
  | nil => rfl
  | cons n ns ih =>
    have hcons : unary (n :: ns) = List.replicate n 4 ++ 5 :: unary ns := by simp [unary]
    rw [hcons, ofUnary_replicate, ih, Nat.zero_add]

section Codec

variable {α : Type} [DecidableEq α] [Numbered α]

def encode (known : List α) (a : α) : Text :=
  if a ∈ known then List.replicate (known.idxOf a + 1) 6
  else 7 :: unary (Numbered.put a)

def decode (known : List α) : Text → Option α
  | [] => none
  | byte :: rest =>
    if byte = 6 then known[rest.length]?
    else (Numbered.get (ofUnary 0 rest)).map Prod.fst

theorem brackets (known : List α) : Brackets (encode known) (decode known) where
  decode_encode a := by
    unfold encode
    by_cases hknown : a ∈ known
    · rw [if_pos hknown, List.replicate_succ, decode, if_pos rfl, List.length_replicate,
        List.getElem?_idxOf hknown]
    · rw [if_neg hknown, decode, if_neg (by decide), ofUnary_unary]
      have hget := Numbered.get_put a []
      rw [List.append_nil] at hget
      rw [hget]
      rfl
  free a byte hmem := by
    unfold encode at hmem
    split at hmem
    · rw [List.eq_of_mem_replicate hmem]
      decide
    · rcases List.mem_cons.mp hmem with rfl | hmem
      · decide
      · obtain ⟨n, _, hin⟩ := List.mem_flatMap.mp hmem
        rcases List.mem_append.mp hin with hin | hin
        · rw [List.eq_of_mem_replicate hin]
          decide
        · rw [List.mem_singleton.mp hin]
          decide

def codec (known : List α) : Codec α := bracketed (encode known) (decode known)

theorem codec_lawful (known : List α) : (codec known).Lawful := bracketed_lawful (brackets known)

end Codec

end Approver

end CacheWarden
