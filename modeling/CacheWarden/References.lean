import CacheWarden.Entry
import CacheWarden.Key
import CacheWarden.Lib.KeyMap
import CacheWarden.Lib.LossyText
import Mathlib.Data.List.Sort

/-!
# Secret references in templates

A reference is the scheme followed by a key, with or without a namespace. A
template is scanned byte by byte, and each reference found is replaced by what
its key resolves to.
-/

set_option autoImplicit false

namespace CacheWarden

namespace Refs

def textBytes (s : String) : Bytes := s.toUTF8.data.toList

def schemeText : String := "cache-warden://"

def scheme : Bytes := textBytes schemeText

def isKeyChar (c : Char) : Bool := isAsciiAlphanumeric c || c = '_'

def isKeyByte (b : UInt8) : Bool := isKeyChar (Char.ofNat b.toNat)

def seg (t : Bytes) : ℕ := (t.takeWhile isKeyByte).length

/-- The length of the longest key at the start. -/
def matchReferenceKey (t : Bytes) : Option ℕ :=
  let first := seg t
  if first = 0 then none
  else
    let rest := t.drop first
    if rest.head? = some 47 then
      let second := seg rest.tail
      if 0 < second then some (first + 1 + second) else some first
    else some first

def wholeValueKey (s : String) : Option String :=
  if schemeText.toList.isPrefixOf s.toList then
    let rest := String.ofList (s.toList.drop schemeText.length)
    match matchReferenceKey (textBytes rest) with
    | some len => if len = (textBytes rest).length then some rest else none
    | none => none
  else none

structure Located where
  key : String
  start : ℕ
  stop : ℕ
  deriving DecidableEq

/-- `template[i..j]`. -/
def slice (template : Bytes) (i j : ℕ) : Bytes := (template.drop i).take (j - i)

/-- The scan from `i` on. Every pass moves on, so there are no more than bytes. -/
def scan (template : Bytes) : ℕ → ℕ → List Located
  | 0, _ => []
  | fuel + 1, i =>
    if template.length ≤ i then []
    else if scheme.isPrefixOf (template.drop i) then
      let keyStart := i + scheme.length
      match matchReferenceKey (template.drop keyStart) with
      | some len =>
        ⟨LossyText.decode (slice template keyStart (keyStart + len)), i, keyStart + len⟩ ::
          scan template fuel (keyStart + len)
      | none => scan template fuel keyStart
    else scan template fuel (i + 1)

def findReferencesBytes (template : Bytes) : List Located := scan template template.length 0

def findReferences (s : String) : List Located := findReferencesBytes (textBytes s)

def mask (key : String) (ok : Bool) : String :=
  "<cache-warden:" ++ key ++ ":" ++ (if ok then "masked" else "failed") ++ ">"

inductive ResolvedValue where
  | value (bytes : Bytes)
  | verified
  deriving DecidableEq

abbrev ResolveResult := Except String ResolvedValue

inductive Mode where
  | reveal
  | dryRun
  deriving DecidableEq

def qualify (referenceKey ctxNs : String) : String :=
  if referenceKey.toList.contains '/' then referenceKey else ctxNs ++ "/" ++ referenceKey

/-- What the loop of `render_template` carries. -/
structure Rendering where
  out : Bytes
  cursor : ℕ
  failures : List String
  deriving DecidableEq

structure RenderedTemplate where
  bytes : Bytes
  failures : List String
  deriving DecidableEq

def Rendering.take (template : Bytes) (resolved : KeyMap ResolveResult) (mode : Mode)
    (ctxNs : String) (self : Rendering) (loc : Located) : Rendering :=
  let out := self.out ++ slice template self.cursor loc.start
  let qkey := qualify loc.key ctxNs
  match resolved[qkey]? with
  | some (.ok (.value bytes)) =>
    match mode with
    | .dryRun => ⟨out ++ textBytes (mask qkey true), loc.stop, self.failures⟩
    | .reveal => ⟨out ++ bytes, loc.stop, self.failures⟩
  | some (.ok .verified) => ⟨out ++ textBytes (mask qkey true), loc.stop, self.failures⟩
  | _ =>
    match mode with
    | .dryRun => ⟨out ++ textBytes (mask qkey false), loc.stop, self.failures ++ [qkey]⟩
    | .reveal => ⟨out ++ slice template loc.start loc.stop, loc.stop, self.failures ++ [qkey]⟩

def sortDedup (keys : List String) : List String := (keys.insertionSort (· ≤ ·)).eraseReps

def renderTemplate (template : Bytes) (resolved : KeyMap ResolveResult) (mode : Mode)
    (ctxNs : String) : Except (List String) RenderedTemplate :=
  let rendering := (findReferencesBytes template).foldl
    (Rendering.take template resolved mode ctxNs) ⟨[], 0, []⟩
  let out := rendering.out ++ template.drop rendering.cursor
  if mode = .reveal ∧ rendering.failures ≠ [] then .error (sortDedup rendering.failures)
  else .ok ⟨out, sortDedup rendering.failures⟩

/-- The grammar of a key. -/
def IsSegment (s : Bytes) : Prop := s ≠ [] ∧ ∀ b ∈ s, isKeyByte b = true

def IsKey (k : Bytes) : Prop :=
  IsSegment k ∨ ∃ ns key, IsSegment ns ∧ IsSegment key ∧ k = ns ++ 47 :: key

/-- The span from `s` to `e` is a reference. -/
def Reference (template : Bytes) (s e : ℕ) : Prop :=
  s ≤ e ∧ e ≤ template.length ∧ ∃ k, IsKey k ∧ slice template s e = scheme ++ k

/-- Spans from `i` on, each the longest reference at the first place where there
is one after the span before. -/
inductive Leftmost (template : Bytes) : ℕ → List (ℕ × ℕ) → Prop where
  | done (i : ℕ) (hnone : ∀ s e, i ≤ s → ¬ Reference template s e) : Leftmost template i []
  | next (i s e : ℕ) (rest : List (ℕ × ℕ)) (hle : i ≤ s)
      (hgap : ∀ s' e', i ≤ s' → s' < s → ¬ Reference template s' e')
      (href : Reference template s e) (hmax : ∀ e', Reference template s e' → e' ≤ e)
      (hrest : Leftmost template e rest) : Leftmost template i ((s, e) :: rest)

/-- The template with each span replaced, from `i` on. -/
def splice (template : Bytes) : ℕ → List ((ℕ × ℕ) × Bytes) → Bytes
  | i, [] => template.drop i
  | i, ((s, e), v) :: rest => slice template i s ++ v ++ splice template e rest

section Keys

variable {t : Bytes} {n m : ℕ}

theorem seg_le (t : Bytes) : seg t ≤ t.length := by
  exact (List.takeWhile_prefix _).length_le

theorem take_seg (t : Bytes) : t.take (seg t) = t.takeWhile isKeyByte :=
  (List.prefix_iff_eq_take.mp (List.takeWhile_prefix _)).symm

theorem isSegment_take_seg (h : seg t ≠ 0) : IsSegment (t.take (seg t)) := by
  rw [take_seg]
  refine ⟨fun hnil => h (by rw [seg, hnil]; rfl), ?_⟩
  exact List.all_eq_true.mp List.all_takeWhile

theorem seg_append {ns : Bytes} (h : ∀ b ∈ ns, isKeyByte b = true) (rest : Bytes) :
    seg (ns ++ rest) = ns.length + seg rest := by
  unfold seg
  rw [List.takeWhile_append_of_pos h, List.length_append]

/-- A run of key bytes ends where the first other byte is. -/
theorem le_seg (hn : n ≤ t.length) (h : ∀ b ∈ t.take n, isKeyByte b = true) : n ≤ seg t := by
  have hsplit : t.take n ++ t.drop n = t := List.take_append_drop n t
  rw [← hsplit, seg_append h, List.length_take_of_le hn]
  exact Nat.le_add_right _ _

theorem seg_slash (rest : Bytes) : seg (47 :: rest) = 0 := rfl

theorem IsSegment.length_pos {s : Bytes} (h : IsSegment s) : 0 < s.length :=
  List.length_pos_of_ne_nil h.1

theorem matchReferenceKey_some (h : matchReferenceKey t = some n) :
    n ≤ t.length ∧ 0 < n ∧ IsKey (t.take n) := by
  revert h
  unfold matchReferenceKey
  have hle := seg_le t
  by_cases hfirst : seg t = 0
  · simp only [if_pos hfirst]
    exact fun h => by cases h
  have hsegment := isSegment_take_seg hfirst
  simp only [if_neg hfirst]
  by_cases hslash : (t.drop (seg t)).head? = some 47
  · obtain ⟨tail, htail⟩ : ∃ tail, t.drop (seg t) = 47 :: tail := by
      cases hdrop : t.drop (seg t) with
      | nil =>
        rw [hdrop] at hslash
        cases hslash
      | cons b tail =>
        rw [hdrop] at hslash
        cases hslash
        exact ⟨tail, rfl⟩
    rw [if_pos hslash, htail, List.tail_cons]
    by_cases hsecond : 0 < seg tail
    · rw [if_pos hsecond]
      intro h
      cases h
      have hlength : seg t + (tail.length + 1) = t.length := by
        have hdrop := congrArg List.length htail
        rw [List.length_drop, List.length_cons] at hdrop
        omega
      have htake : t.take (seg t + 1 + seg tail) =
          t.take (seg t) ++ 47 :: tail.take (seg tail) := by
        rw [Nat.add_assoc, List.take_add, htail, Nat.add_comm 1, List.take_succ_cons]
      have hlt := seg_le tail
      refine ⟨by omega, by omega, Or.inr ⟨_, _, hsegment, ?_, htake⟩⟩
      exact isSegment_take_seg (by omega)
    · rw [if_neg hsecond]
      intro h
      cases h
      exact ⟨hle, by omega, Or.inl hsegment⟩
  · rw [if_neg hslash]
    intro h
    cases h
    exact ⟨hle, by omega, Or.inl hsegment⟩

/-- No key at the start is longer than the one that is matched. -/
theorem matchReferenceKey_longest (hm : m ≤ t.length) (hkey : IsKey (t.take m)) :
    ∃ n, matchReferenceKey t = some n ∧ m ≤ n := by
  have hlength : (t.take m).length = m := List.length_take_of_le hm
  unfold matchReferenceKey
  rcases hkey with hsegment | ⟨ns, key, hns, hkey, heq⟩
  · have hle := le_seg hm hsegment.2
    have hpos := hsegment.length_pos
    rw [if_neg (by omega)]
    simp only
    split
    · split
      · exact ⟨_, rfl, by omega⟩
      · exact ⟨_, rfl, hle⟩
    · exact ⟨_, rfl, hle⟩
  · have ht : t = ns ++ 47 :: (key ++ t.drop m) := by
      calc t = t.take m ++ t.drop m := (List.take_append_drop m t).symm
        _ = ns ++ 47 :: (key ++ t.drop m) := by rw [heq, List.append_assoc, List.cons_append]
    generalize t.drop m = more at ht
    have hfirst : seg t = ns.length := by
      rw [ht, seg_append hns.2, seg_slash, Nat.add_zero]
    have hdrop : t.drop (seg t) = 47 :: (key ++ more) := by
      rw [hfirst, ht, List.drop_left]
    have hpos := hns.length_pos
    have hkeyPos := hkey.length_pos
    have hsecond : seg (key ++ more) = key.length + seg more := seg_append hkey.2 more
    rw [heq, List.length_append, List.length_cons] at hlength
    rw [if_neg (by omega)]
    simp only [hdrop, List.head?_cons, List.tail_cons, hsecond]
    rw [if_pos trivial, if_pos (by omega)]
    exact ⟨_, rfl, by omega⟩

end Keys

section Scan

variable {template : Bytes} {i j s e : ℕ} {spans : List (ℕ × ℕ)}

theorem slice_append (h : i ≤ j) (he : j ≤ e) :
    slice template i e = slice template i j ++ slice template j e := by
  unfold slice
  rw [show e - i = (j - i) + (e - j) by omega, List.take_add, List.drop_drop,
    show i + (j - i) = j by omega]

theorem length_slice (h : s ≤ e) (he : e ≤ template.length) :
    (slice template s e).length = e - s := by
  unfold slice
  rw [List.length_take, List.length_drop]
  omega

theorem scheme_length : scheme.length = 15 := by decide

/-- What a reference has at its start. -/
theorem Reference.begins (h : Reference template s e) : scheme <+: template.drop s := by
  obtain ⟨-, -, k, -, hslice⟩ := h
  have hpre : slice template s e <+: template.drop s := List.take_prefix _ _
  rw [hslice] at hpre
  exact (List.prefix_append _ _).trans hpre

theorem Reference.lt (h : Reference template s e) : s < template.length := by
  have hlength := h.begins.length_le
  rw [scheme_length, List.length_drop] at hlength
  omega

/-- The scheme does not begin inside itself. -/
theorem scheme_apart (hi : scheme <+: template.drop i) (hj : scheme <+: template.drop j)
    (hle : i ≤ j) (hlt : j < i + scheme.length) : i = j := by
  have hall : ∀ d < 15, d ≠ 0 → scheme.drop d ≠ scheme.take (15 - d) := by decide
  rw [scheme_length] at hlt
  obtain ⟨more, hmore⟩ := hi
  by_contra hne
  apply hall (j - i) (by omega) (by omega)
  have hdrop : template.drop j = scheme.drop (j - i) ++ more := by
    rw [← List.drop_append_of_le_length (by rw [scheme_length]; omega), hmore, List.drop_drop,
      show i + (j - i) = j by omega]
  rw [hdrop] at hj
  have hlength : (scheme.drop (j - i)).length = 15 - (j - i) := by
    rw [List.length_drop, scheme_length]
  calc scheme.drop (j - i)
      = (scheme.drop (j - i) ++ more).take (15 - (j - i)) := by
        rw [← hlength, List.take_left]
    _ = scheme.take (15 - (j - i)) := by
        obtain ⟨other, hother⟩ := hj
        rw [← hother, List.take_append_of_le_length (by rw [scheme_length]; omega)]

/-- Where a reference begins, its longest one ends where a key is matched. -/
theorem reference_iff (hs : scheme <+: template.drop s) :
    Reference template s e ↔ s + 15 ≤ e ∧ e ≤ template.length ∧
      IsKey ((template.drop (s + 15)).take (e - (s + 15))) := by
  obtain ⟨more, hmore⟩ := hs
  have hdrop : template.drop (s + 15) = more := by
    rw [← List.drop_drop, ← hmore, ← scheme_length, List.drop_left]
  have hsplit : s + 15 ≤ e → slice template s e = scheme ++ more.take (e - (s + 15)) := by
    intro hle
    unfold slice
    rw [← hmore, List.take_append, scheme_length,
      List.take_of_length_le (by rw [scheme_length]; omega),
      show e - s - 15 = e - (s + 15) by omega]
  rw [hdrop]
  constructor
  · rintro ⟨hle, hlength, k, hkey, hslice⟩
    have hcount := congrArg List.length hslice
    rw [length_slice hle hlength, List.length_append, scheme_length] at hcount
    refine ⟨by omega, hlength, ?_⟩
    rw [hsplit (by omega)] at hslice
    rw [List.append_cancel_left hslice]
    exact hkey
  · rintro ⟨hle, hlength, hkey⟩
    exact ⟨by omega, hlength, _, hkey, hsplit hle⟩

theorem Leftmost.skip (h : Leftmost template j spans) (hle : i ≤ j)
    (hgap : ∀ s e, i ≤ s → s < j → ¬ Reference template s e) : Leftmost template i spans := by
  cases h with
  | done _ hnone =>
    refine .done i fun s e hs => ?_
    by_cases hlt : s < j
    · exact hgap s e hs hlt
    · exact hnone s e (by omega)
  | next _ s e rest hj hbefore href hmax hrest =>
    refine .next i s e rest (by omega) (fun s' e' hs' hlt => ?_) href hmax hrest
    by_cases hlt' : s' < j
    · exact hgap s' e' hs' hlt'
    · exact hbefore s' e' (by omega) hlt

/-- There is one such list of spans. -/
theorem Leftmost.unique {others : List (ℕ × ℕ)} (h : Leftmost template i spans)
    (h' : Leftmost template i others) : spans = others := by
  induction h generalizing others with
  | done i hnone =>
    cases h' with
    | done => rfl
    | next _ s e rest hle hgap href => exact absurd href (hnone s e hle)
  | next i s e rest hle hgap href hmax hrest ih =>
    cases h' with
    | done _ hnone => exact absurd href (hnone s e hle)
    | next _ s' e' rest' hle' hgap' href' hmax' hrest' =>
      have hs : s = s' := by
        by_contra hne
        rcases Nat.lt_or_gt_of_ne hne with hlt | hlt
        · exact hgap' s e hle hlt href
        · exact hgap s' e' hle' hlt href'
      rw [← hs] at href' hmax'
      have he : e = e' := Nat.le_antisymm (hmax' e href) (hmax e' href')
      rw [← he] at hrest'
      rw [← hs, ← he, ih hrest']

def Located.span (loc : Located) : ℕ × ℕ := (loc.start, loc.stop)

theorem scan_leftmost {fuel : ℕ} (hfuel : template.length ≤ i + fuel) :
    Leftmost template i ((scan template fuel i).map Located.span) := by
  induction fuel generalizing i with
  | zero => exact .done i fun s e hs href => absurd href.lt (by omega)
  | succ fuel ih =>
    unfold scan
    by_cases hend : template.length ≤ i
    · rw [if_pos hend]
      exact .done i fun s e hs href => absurd href.lt (by omega)
    rw [if_neg hend]
    by_cases hscheme : scheme <+: template.drop i
    · rw [if_pos (List.isPrefixOf_iff_prefix.mpr hscheme)]
      have hapart : ∀ s e, i < s → s < i + 15 → ¬ Reference template s e := by
        intro s e hs hlt href
        have heq := scheme_apart hscheme href.begins (by omega) (by rw [scheme_length]; omega)
        omega
      simp only [scheme_length]
      cases hmatch : matchReferenceKey (template.drop (i + 15)) with
      | some len =>
        obtain ⟨hlen, hpos, hkey⟩ := matchReferenceKey_some hmatch
        rw [List.length_drop] at hlen
        refine .next i i (i + 15 + len) _ (Nat.le_refl _) (fun s' e' h h' => by omega) ?_ ?_
          (ih (by omega))
        · rw [reference_iff hscheme]
          refine ⟨by omega, by omega, ?_⟩
          rw [Nat.add_sub_cancel_left]
          exact hkey
        · intro e' href
          obtain ⟨hle, hlength, hkey'⟩ := (reference_iff hscheme).mp href
          obtain ⟨n, hn, hle'⟩ := matchReferenceKey_longest
            (by rw [List.length_drop]; omega) hkey'
          rw [hmatch] at hn
          cases hn
          omega
      | none =>
        apply (ih (i := i + 15) (by omega)).skip (by omega)
        intro s e hs hlt href
        rcases Nat.eq_or_lt_of_le hs with heq | hlt'
        · rw [← heq] at href
          obtain ⟨hle, hlength, hkey'⟩ := (reference_iff hscheme).mp href
          obtain ⟨n, hn, -⟩ := matchReferenceKey_longest
            (by rw [List.length_drop]; omega) hkey'
          rw [hmatch] at hn
          cases hn
        · exact hapart s e hlt' hlt href
    · rw [if_neg fun h => hscheme (List.isPrefixOf_iff_prefix.mp h)]
      apply (ih (i := i + 1) (by omega)).skip (by omega)
      intro s e hs hlt href
      have heq : s = i := by omega
      rw [heq] at href
      exact hscheme href.begins

end Scan

section Text

theorem textBytes_ofList (chars : List Char) :
    textBytes (String.ofList chars) = chars.flatMap String.utf8EncodeChar := by
  show (String.ofList chars).toByteArray.data.toList = _
  rw [String.toByteArray_ofList]
  unfold List.utf8Encode
  simp

theorem decode_textBytes (s : String) : LossyText.decode (textBytes s) = s :=
  LossyText.decode_toUTF8 s

/-- Key bytes and the slash are ASCII characters. -/
theorem utf8EncodeChar_ascii {b : UInt8} (h : b.toNat < 128) :
    String.utf8EncodeChar (Char.ofNat b.toNat) = [b] := by
  have hall : ∀ n < 128, String.utf8EncodeChar (Char.ofNat n) = [UInt8.ofNat n] := by decide
  rw [hall b.toNat h, UInt8.ofNat_toNat]

set_option maxRecDepth 4000 in
theorem isKeyByte_ascii {b : UInt8} (h : isKeyByte b = true) : b.toNat < 128 := by
  have hall : ∀ n < 256, isKeyChar (Char.ofNat n) = true → n < 128 := by decide
  exact hall b.toNat b.toNat_lt h

theorem IsKey.ascii {k : Bytes} (h : IsKey k) : ∀ b ∈ k, b.toNat < 128 := by
  rcases h with h | ⟨ns, key, hns, hkey, heq⟩
  · exact fun b hb => isKeyByte_ascii (h.2 b hb)
  · intro b hb
    rw [heq, List.mem_append, List.mem_cons] at hb
    rcases hb with hb | hb | hb
    · exact isKeyByte_ascii (hns.2 b hb)
    · rw [hb]
      decide
    · exact isKeyByte_ascii (hkey.2 b hb)

/-- A key is read as the text it is. -/
theorem textBytes_decode {k : Bytes} (h : ∀ b ∈ k, b.toNat < 128) :
    textBytes (LossyText.decode k) = k := by
  have htext : textBytes (String.ofList (k.map fun b => Char.ofNat b.toNat)) = k := by
    rw [textBytes_ofList, List.flatMap_map]
    induction k with
    | nil => rfl
    | cons b rest ih =>
      rw [List.flatMap_cons, utf8EncodeChar_ascii (h b List.mem_cons_self),
        ih fun c hc => h c (List.mem_cons_of_mem _ hc)]
      rfl
  rw [← htext, decode_textBytes, htext]

end Text

section Located

variable {template : Bytes} {i fuel : ℕ} {loc : Located}

/-- A key is the text after the scheme. -/
theorem slice_scan (h : loc ∈ scan template fuel i) :
    slice template loc.start loc.stop = scheme ++ textBytes loc.key ∧
      IsKey (textBytes loc.key) := by
  induction fuel generalizing i with
  | zero => cases h
  | succ fuel ih =>
    unfold scan at h
    by_cases hend : template.length ≤ i
    · rw [if_pos hend] at h
      cases h
    rw [if_neg hend] at h
    by_cases hscheme : scheme <+: template.drop i
    · rw [if_pos (List.isPrefixOf_iff_prefix.mpr hscheme)] at h
      simp only [scheme_length] at h
      cases hmatch : matchReferenceKey (template.drop (i + 15)) with
      | some len =>
        rw [hmatch] at h
        rcases List.mem_cons.mp h with heq | hmem
        · obtain ⟨hlen, hpos, hkey⟩ := matchReferenceKey_some hmatch
          have hslice : slice template (i + 15) (i + 15 + len) =
              (template.drop (i + 15)).take len := by
            unfold slice
            rw [Nat.add_sub_cancel_left]
          rw [← hslice] at hkey
          rw [heq]
          show slice template i (i + 15 + len) = scheme ++ textBytes (LossyText.decode _) ∧
            IsKey (textBytes (LossyText.decode _))
          rw [textBytes_decode hkey.ascii]
          refine ⟨?_, hkey⟩
          rw [slice_append (j := i + 15) (by omega) (by omega)]
          congr 1
          unfold slice
          rw [Nat.add_sub_cancel_left, ← scheme_length]
          exact (List.prefix_iff_eq_take.mp hscheme).symm
        · exact ih hmem
      | none =>
        rw [hmatch] at h
        exact ih h
    · rw [if_neg fun h => hscheme (List.isPrefixOf_iff_prefix.mp h)] at h
      exact ih h

end Located

/-- What is written for a reference. -/
def replacement (template : Bytes) (resolved : KeyMap ResolveResult) (mode : Mode)
    (ctxNs : String) (loc : Located) : Bytes :=
  let qkey := qualify loc.key ctxNs
  match resolved[qkey]?, mode with
  | some (.ok (.value bytes)), .reveal => bytes
  | some (.ok _), _ => textBytes (mask qkey true)
  | _, .dryRun => textBytes (mask qkey false)
  | _, .reveal => slice template loc.start loc.stop

def failed (resolved : KeyMap ResolveResult) (ctxNs : String) (loc : Located) : Bool :=
  match resolved[qualify loc.key ctxNs]? with
  | some (.ok _) => false
  | _ => true

section Render

variable {template : Bytes} {resolved : KeyMap ResolveResult} {mode : Mode} {ctxNs : String}

theorem take_eq (self : Rendering) (loc : Located) :
    self.take template resolved mode ctxNs loc =
      ⟨self.out ++ slice template self.cursor loc.start ++
          replacement template resolved mode ctxNs loc, loc.stop,
        self.failures ++ if failed resolved ctxNs loc then [qualify loc.key ctxNs] else []⟩ := by
  unfold Rendering.take replacement failed
  simp only
  cases resolved[qualify loc.key ctxNs]? with
  | none => cases mode <;> rfl
  | some result =>
    cases result with
    | error e => cases mode <;> rfl
    | ok value =>
      cases value with
      | value bytes => cases mode <;> simp
      | verified => cases mode <;> simp

def spliced (template : Bytes) (resolved : KeyMap ResolveResult) (mode : Mode) (ctxNs : String)
    (locs : List Located) : List ((ℕ × ℕ) × Bytes) :=
  locs.map fun loc => (loc.span, replacement template resolved mode ctxNs loc)

/-- The loop writes the template with the spans replaced. -/
theorem foldl_take (template : Bytes) (resolved : KeyMap ResolveResult) (mode : Mode)
    (ctxNs : String) (locs : List Located) (self : Rendering) :
    let rendering := locs.foldl (Rendering.take template resolved mode ctxNs) self
    rendering.out ++ template.drop rendering.cursor =
        self.out ++ splice template self.cursor (spliced template resolved mode ctxNs locs) ∧
      rendering.failures = self.failures ++
        (locs.filter (failed resolved ctxNs)).map fun loc => qualify loc.key ctxNs := by
  induction locs generalizing self with
  | nil => exact ⟨rfl, (List.append_nil _).symm⟩
  | cons loc rest ih =>
    obtain ⟨hout, hfailures⟩ := ih (self.take template resolved mode ctxNs loc)
    rw [take_eq] at hout hfailures
    rw [List.foldl_cons, take_eq]
    refine ⟨?_, ?_⟩
    · rw [hout]
      unfold spliced
      rw [List.map_cons, splice]
      simp only [List.append_assoc]
      rfl
    · rw [hfailures, List.filter_cons]
      split <;> simp

theorem renderTemplate_eq :
    renderTemplate template resolved mode ctxNs =
      let failures := ((findReferencesBytes template).filter (failed resolved ctxNs)).map
        fun loc => qualify loc.key ctxNs
      if mode = .reveal ∧ failures ≠ [] then .error (sortDedup failures)
      else .ok ⟨splice template 0 (spliced template resolved mode ctxNs
        (findReferencesBytes template)), sortDedup failures⟩ := by
  obtain ⟨hout, hfailures⟩ := foldl_take template resolved mode ctxNs
    (findReferencesBytes template) ⟨[], 0, []⟩
  unfold renderTemplate
  simp only
  rw [hfailures, hout]
  rfl

/-- Every reference has resolved. -/
def Resolved (template : Bytes) (resolved : KeyMap ResolveResult) (ctxNs : String) : Prop :=
  ∀ loc ∈ findReferencesBytes template, ∃ v, resolved[qualify loc.key ctxNs]? = some (.ok v)

theorem failed_eq_false (loc : Located) :
    failed resolved ctxNs loc = false ↔ ∃ v, resolved[qualify loc.key ctxNs]? = some (.ok v) := by
  unfold failed
  cases resolved[qualify loc.key ctxNs]? with
  | none => simp
  | some result => cases result <;> simp

theorem failures_nil_iff :
    ((findReferencesBytes template).filter (failed resolved ctxNs)).map
        (fun loc => qualify loc.key ctxNs) = [] ↔ Resolved template resolved ctxNs := by
  rw [List.map_eq_nil_iff, List.filter_eq_nil_iff]
  unfold Resolved
  simp only [Bool.not_eq_true, failed_eq_false]

theorem render_reveal_isOk :
    (∃ out, renderTemplate template resolved .reveal ctxNs = .ok out) ↔
      Resolved template resolved ctxNs := by
  rw [renderTemplate_eq, ← failures_nil_iff]
  simp only [true_and]
  split
  · rename_i hne
    constructor
    · rintro ⟨out, hout⟩
      cases hout
    · exact fun hnil => absurd hnil hne
  · rename_i hnil
    exact ⟨fun _ => not_not.mp hnil, fun _ => ⟨_, rfl⟩⟩

theorem render_reveal {out : RenderedTemplate}
    (h : renderTemplate template resolved .reveal ctxNs = .ok out) :
    out = ⟨splice template 0 (spliced template resolved .reveal ctxNs
      (findReferencesBytes template)), []⟩ := by
  have hnil := failures_nil_iff.mpr (render_reveal_isOk.mp ⟨out, h⟩)
  rw [renderTemplate_eq, hnil] at h
  cases h
  rfl

/-- The same keys have resolved, to whatever. -/
def SameOutcomes (resolved resolved' : KeyMap ResolveResult) : Prop :=
  ∀ k : String, (∃ v, resolved[k]? = some (Except.ok v)) ↔ ∃ v, resolved'[k]? = some (Except.ok v)

theorem render_dryRun :
    renderTemplate template resolved .dryRun ctxNs =
      .ok ⟨splice template 0 ((findReferencesBytes template).map fun loc =>
          (loc.span, textBytes (mask (qualify loc.key ctxNs) (!failed resolved ctxNs loc)))),
        sortDedup (((findReferencesBytes template).filter (failed resolved ctxNs)).map
          fun loc => qualify loc.key ctxNs)⟩ := by
  have hreplacement : ∀ loc, replacement template resolved .dryRun ctxNs loc =
      textBytes (mask (qualify loc.key ctxNs) (!failed resolved ctxNs loc)) := by
    intro loc
    simp only [replacement, failed]
    cases resolved[qualify loc.key ctxNs]? with
    | none => rfl
    | some result =>
      cases result with
      | error e => rfl
      | ok v => cases v <;> rfl
  rw [renderTemplate_eq]
  simp only [spliced, hreplacement]
  rfl

/-- A dry run shows no value. -/
theorem render_dryRun_congr {resolved' : KeyMap ResolveResult}
    (h : SameOutcomes resolved resolved') :
    renderTemplate template resolved .dryRun ctxNs =
      renderTemplate template resolved' .dryRun ctxNs := by
  have hfailed : failed resolved ctxNs = failed resolved' ctxNs := by
    funext loc
    have hiff := h (qualify loc.key ctxNs)
    rw [← failed_eq_false loc, ← failed_eq_false loc] at hiff
    cases hfirst : failed resolved ctxNs loc with
    | false => exact (hiff.mp hfirst).symm
    | true =>
      cases hsecond : failed resolved' ctxNs loc with
      | true => rfl
      | false =>
        rw [hiff.mpr hsecond] at hfirst
        cases hfirst
  rw [render_dryRun, render_dryRun, hfailed]

/-- Spans replaced by what they are leave the template as it is. -/
theorem splice_self {i : ℕ} {spans : List (ℕ × ℕ)} (h : Leftmost template i spans) :
    splice template i (spans.map fun span => (span, slice template span.1 span.2)) =
      template.drop i := by
  induction h with
  | done i hnone => rfl
  | next i s e rest hle hgap href hmax hrest ih =>
    rw [List.map_cons, splice, ih, ← slice_append hle href.1]
    unfold slice
    have hdrop : template.drop e = (template.drop i).drop (e - i) := by
      have hie : i ≤ e := Nat.le_trans hle href.1
      rw [List.drop_drop, show i + (e - i) = e by omega]
    rw [hdrop, List.take_append_drop]

end Render

section WholeValue

theorem textBytes_append (s : String) (chars : List Char) :
    textBytes (String.ofList (s.toList ++ chars)) =
      textBytes s ++ textBytes (String.ofList chars) := by
  have hs : textBytes s = textBytes (String.ofList s.toList) := by rw [String.ofList_toList]
  rw [hs, textBytes_ofList, textBytes_ofList, textBytes_ofList, List.flatMap_append]

theorem textBytes_scheme (rest : String) :
    textBytes (String.ofList (schemeText.toList ++ rest.toList)) = scheme ++ textBytes rest := by
  rw [textBytes_append, String.ofList_toList]
  rfl

theorem findReferences_whole {rest : Bytes} (h : matchReferenceKey rest = some rest.length) :
    findReferencesBytes (scheme ++ rest) =
      [⟨LossyText.decode rest, 0, (scheme ++ rest).length⟩] := by
  have hlength : (scheme ++ rest).length = 14 + rest.length + 1 := by
    rw [List.length_append, scheme_length]
    omega
  have hdrop : (scheme ++ rest).drop 15 = rest := by
    rw [← scheme_length, List.drop_left]
  have hslice : slice (scheme ++ rest) 15 (15 + rest.length) = rest := by
    unfold slice
    rw [hdrop, Nat.add_sub_cancel_left, List.take_length]
  have hrest : scan (scheme ++ rest) (14 + rest.length) (15 + rest.length) = [] := by
    cases hfuel : 14 + rest.length with
    | zero => rfl
    | succ fuel =>
      unfold scan
      rw [if_pos (by omega)]
  unfold findReferencesBytes
  rw [hlength]
  unfold scan
  rw [if_neg (by omega), List.drop_zero,
    if_pos (List.isPrefixOf_iff_prefix.mpr (List.prefix_append _ _))]
  simp only [scheme_length, Nat.zero_add, hdrop, h, hslice, hrest]
  rw [show 15 + rest.length = 14 + rest.length + 1 by omega]

theorem matchReferenceKey_whole {k : Bytes} (h : IsKey k) :
    matchReferenceKey k = some k.length := by
  obtain ⟨n, hn, hle⟩ := matchReferenceKey_longest (Nat.le_refl _) (by rwa [List.take_length])
  rw [hn, Nat.le_antisymm (matchReferenceKey_some hn).1 hle]

/-- A value is a reference exactly where the scan finds that one. -/
theorem wholeValueKey_iff (s key : String) :
    wholeValueKey s = some key ↔ findReferences s = [⟨key, 0, (textBytes s).length⟩] := by
  unfold wholeValueKey findReferences
  constructor
  · intro h
    split at h
    · rename_i hscheme
      obtain ⟨chars, hchars⟩ := List.isPrefixOf_iff_prefix.mp hscheme
      rw [← hchars, show schemeText.length = schemeText.toList.length from rfl, List.drop_left] at h
      simp only at h
      split at h
      · rename_i len hmatch
        split at h
        · rename_i hlen
          cases h
          rw [hlen] at hmatch
          have hbytes : textBytes s = scheme ++ textBytes (String.ofList chars) := by
            rw [← textBytes_scheme, String.toList_ofList, hchars, String.ofList_toList]
          rw [hbytes, findReferences_whole hmatch, decode_textBytes]
        · cases h
      · cases h
    · cases h
  · intro h
    have hmem : (⟨key, 0, (textBytes s).length⟩ : Located) ∈ findReferencesBytes (textBytes s) := by
      rw [h]
      exact List.mem_singleton_self _
    obtain ⟨hslice, hkey⟩ := slice_scan hmem
    have hall : slice (textBytes s) 0 (textBytes s).length = textBytes s := by
      unfold slice
      rw [List.drop_zero, Nat.sub_zero, List.take_length]
    rw [hall, ← textBytes_scheme] at hslice
    have hs : s = String.ofList (schemeText.toList ++ key.toList) := by
      rw [← decode_textBytes s, hslice, decode_textBytes]
    have hlist : s.toList = schemeText.toList ++ key.toList := by rw [hs, String.toList_ofList]
    rw [hlist, if_pos (List.isPrefixOf_iff_prefix.mpr (List.prefix_append _ _)),
      show schemeText.length = schemeText.toList.length from rfl, List.drop_left,
      String.ofList_toList]
    simp only [matchReferenceKey_whole hkey]
    rw [if_pos trivial]

end WholeValue

/-- What a resolved reference stands for: the value, or the mask where there was
none to carry. -/
def shown (resolved : KeyMap ResolveResult) (ctxNs : String) (loc : Located) : Bytes :=
  match resolved[qualify loc.key ctxNs]? with
  | some (.ok (.value bytes)) => bytes
  | _ => textBytes (mask (qualify loc.key ctxNs) true)

theorem spliced_reveal {template : Bytes} {resolved : KeyMap ResolveResult} {ctxNs : String}
    (h : Resolved template resolved ctxNs) :
    spliced template resolved .reveal ctxNs (findReferencesBytes template) =
      (findReferencesBytes template).map fun loc => (loc.span, shown resolved ctxNs loc) := by
  apply List.map_congr_left
  intro loc hmem
  obtain ⟨v, hv⟩ := h loc hmem
  simp only [replacement, shown, hv]
  cases v <;> rfl

/-- What a template is rendered to. -/
theorem render_references (template : Bytes) (ctxNs : String) (resolved : KeyMap ResolveResult) :
    (∀ spans, Leftmost template 0 spans ↔
      spans = (findReferencesBytes template).map Located.span) ∧
    (∀ loc ∈ findReferencesBytes template,
      slice template loc.start loc.stop = scheme ++ textBytes loc.key) ∧
    ((∃ out, renderTemplate template resolved .reveal ctxNs = .ok out) ↔
      Resolved template resolved ctxNs) ∧
    (∀ out, renderTemplate template resolved .reveal ctxNs = .ok out →
      out.bytes = splice template 0
        ((findReferencesBytes template).map fun loc => (loc.span, shown resolved ctxNs loc))) ∧
    (∀ resolved', SameOutcomes resolved resolved' →
      ∃ out, renderTemplate template resolved .dryRun ctxNs = .ok out ∧
        renderTemplate template resolved' .dryRun ctxNs = .ok out) ∧
    ∀ s key, wholeValueKey s = some key ↔ findReferences s = [⟨key, 0, (textBytes s).length⟩] := by
  have hscan : Leftmost template 0 ((findReferencesBytes template).map Located.span) :=
    scan_leftmost (by omega)
  refine ⟨?_, ?_, render_reveal_isOk, ?_, ?_, wholeValueKey_iff⟩
  · intro spans
    constructor
    · exact fun h => h.unique hscan
    · intro heq
      rw [heq]
      exact hscan
  · exact fun loc hmem => (slice_scan hmem).1
  · intro out hout
    rw [render_reveal hout, spliced_reveal (render_reveal_isOk.mp ⟨out, hout⟩)]
  · intro resolved' hsame
    rw [← render_dryRun_congr hsame, render_dryRun]
    exact ⟨_, rfl, rfl⟩

def greeting : Bytes := textBytes "a=cache-warden://K."

def answered (v : ResolvedValue) : KeyMap ResolveResult :=
  KeyMap.insertOpt ∅ "default/K" (some (.ok v))

theorem sameOutcomes_answered (v w : ResolvedValue) : SameOutcomes (answered v) (answered w) := by
  intro k
  unfold answered
  rw [KeyMap.get_insertOpt, KeyMap.get_insertOpt]
  by_cases hk : "default/K" = k
  · rw [if_pos hk, if_pos hk]
    exact ⟨fun _ => ⟨w, rfl⟩, fun _ => ⟨v, rfl⟩⟩
  · rw [if_neg hk, if_neg hk]

theorem greeting_rendered :
    (∃ out, renderTemplate greeting (answered (.value [118])) .reveal "default" = .ok out ∧
      out.bytes = textBytes "a=v.") ∧
    ∃ out, renderTemplate greeting (answered (.value [118])) .dryRun "default" = .ok out ∧
      renderTemplate greeting (answered .verified) .dryRun "default" = .ok out := by
  have hreveal : renderTemplate greeting (answered (.value [118])) .reveal "default" =
      .ok ⟨textBytes "a=v.", []⟩ := by decide
  constructor
  · refine ⟨_, hreveal, ?_⟩
    rw [(render_references _ _ _).2.2.2.1 _ hreveal]
    decide
  · exact (render_references _ _ _).2.2.2.2.1 _ (sameOutcomes_answered _ _)

/-- A key that resolved without a value is revealed as its mask. -/
theorem verified_revealed :
    renderTemplate greeting (answered .verified) .reveal "default" =
      .ok ⟨textBytes "a=<cache-warden:default/K:masked>.", []⟩ := by
  decide

end Refs

end CacheWarden
