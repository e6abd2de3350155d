import CacheWarden.Lib.KeyMap

/-!
# Composed keys

The core accepts one or two identifier segments joined by a slash; the wire
adapter asks for exactly two. Both gates split the same text.
-/

set_option autoImplicit false

namespace CacheWarden

/-- A key refused for its syntax, carrying the offending text. -/
structure InvalidKey where
  key : String
  deriving DecidableEq

def isAsciiAlphanumeric (c : Char) : Bool :=
  ('a' ≤ c && c ≤ 'z') || ('A' ≤ c && c ≤ 'Z') || ('0' ≤ c && c ≤ '9')

def isIdentifierSegment (seg : List Char) : Bool :=
  !seg.isEmpty && seg.all fun c => isAsciiAlphanumeric c || c == '_'

/-- `key.split('/')`: the segments between slashes, at least one. -/
def splitSlash : List Char → List (List Char)
  | [] => [[]]
  | c :: rest =>
    if c = '/' then [] :: splitSlash rest
    else
      match splitSlash rest with
      | [] => [[c]]
      | seg :: segs => (c :: seg) :: segs

def segmentsOk : List (List Char) → Bool
  | [only] => isIdentifierSegment only
  | [ns, key] => isIdentifierSegment ns && isIdentifierSegment key
  | _ => false

def validateKeySyntax (key : String) : Except InvalidKey Unit :=
  if segmentsOk (splitSlash key.toList) then .ok () else .error ⟨key⟩

def ValidKey (key : String) : Prop := validateKeySyntax key = .ok ()

instance (key : String) : Decidable (ValidKey key) :=
  match h : validateKeySyntax key with
  | .ok () => .isTrue h
  | .error _ => .isFalse (by rw [ValidKey, h]; exact fun hc => by cases hc)

/-- `key.split_once('/')`: the text before the first slash and the text after. -/
def splitOnceSlash : List Char → Option (List Char × List Char)
  | [] => none
  | c :: rest =>
    if c = '/' then some ([], rest)
    else (splitOnceSlash rest).map fun p => (c :: p.1, p.2)

def splitComposed (s : String) : Option (List Char × List Char) :=
  match splitOnceSlash s.toList with
  | some (ns, key) =>
    if isIdentifierSegment ns && isIdentifierSegment key then some (ns, key) else none
  | none => none

def reservedNamespaceAuthsock : List Char := "authsock".toList

def isReservedNamespace (ns : List Char) : Bool := ns == reservedNamespaceAuthsock

theorem slash_not_mem_of_identifier {seg : List Char} (h : isIdentifierSegment seg) :
    '/' ∉ seg := by
  intro hmem
  simp only [isIdentifierSegment, Bool.and_eq_true, List.all_eq_true] at h
  exact absurd (h.2 '/' hmem) (by decide)

theorem splitSlash_of_not_mem {seg : List Char} (h : '/' ∉ seg) : splitSlash seg = [seg] := by
  induction seg with
  | nil => rfl
  | cons c rest ih =>
    simp only [List.mem_cons, not_or] at h
    simp [splitSlash, Ne.symm h.1, ih h.2]

theorem splitSlash_append {ns : List Char} (h : '/' ∉ ns) (key : List Char) :
    splitSlash (ns ++ '/' :: key) = ns :: splitSlash key := by
  induction ns with
  | nil => simp [splitSlash]
  | cons c rest ih =>
    simp only [List.mem_cons, not_or] at h
    simp [splitSlash, Ne.symm h.1, ih h.2]

theorem splitOnceSlash_some {s ns key : List Char} (h : splitOnceSlash s = some (ns, key)) :
    s = ns ++ '/' :: key := by
  induction s generalizing ns with
  | nil => cases h
  | cons c rest ih =>
    unfold splitOnceSlash at h
    split at h
    · rename_i hc
      cases h
      simp [hc]
    · rw [Option.map_eq_some_iff] at h
      obtain ⟨⟨a, b⟩, hrest, heq⟩ := h
      cases heq
      rw [ih hrest]
      rfl

/-- A key the wire adapter admits is one the core admits. -/
theorem validKey_of_splitComposed {key : String} (h : (splitComposed key).isSome) :
    ValidKey key := by
  unfold splitComposed at h
  split at h
  · rename_i ns k hsplit
    split at h
    · rename_i hok
      rw [Bool.and_eq_true] at hok
      have hns := slash_not_mem_of_identifier hok.1
      have hk := slash_not_mem_of_identifier hok.2
      unfold ValidKey validateKeySyntax
      rw [splitOnceSlash_some hsplit, splitSlash_append hns, splitSlash_of_not_mem hk]
      simp [segmentsOk, hok]
    · cases h
  · cases h

theorem validateKeySyntax_eq (key : String) :
    validateKeySyntax key = if ValidKey key then .ok () else .error ⟨key⟩ := by
  unfold ValidKey validateKeySyntax
  split <;> simp

example : ValidKey "ns/key_1" := by decide
example : ¬ ValidKey "a/b/c" := by decide

end CacheWarden
