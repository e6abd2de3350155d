import CacheWarden.Lib.LossyText
import CacheWarden.Lib.Transition
import CacheWarden.Lib.UnixPath
import CacheWarden.Vault.Format
import Mathlib.Logic.Function.Basic
import Mathlib.Data.List.Infix

/-!
# Links to protected sockets

On macOS a socket under `Library/Group Containers/` is reached through a link in
the state directory. The name of the link is made from the last component of the
path and nothing else, and a link that points elsewhere is replaced. The file
system is what each path links to, and every operation on it may fail.
-/

set_option autoImplicit false

namespace CacheWarden

namespace Daemon

open Vault Transition UnixPath

section Names

structure UpstreamEnv where
  xdgStateHome : Option Bytes
  home : Option Bytes
  deriving DecidableEq

def stateUpstreamsDir (env : UpstreamEnv) : Option Bytes :=
  (env.xdgStateHome.or (env.home.map fun h => join h (utf8 ".local/state"))).map fun base =>
    join base (utf8 "cache-warden/upstreams")

def isGroupContainerPath (path : Bytes) : Bool :=
  "Library/Group Containers/".toList <:+: (LossyText.decode path).toList

/-- The bytes as a text, if they are one. -/
def toStr (bytes : Bytes) : Option String :=
  let text := LossyText.decode bytes
  if utf8 text = bytes then some text else none

/-- Take `.sock` off the end of a text, given backwards, as often as it is there. -/
def trimSock : List Char → List Char
  | 'k' :: 'c' :: 'o' :: 's' :: '.' :: rest => trimSock rest
  | chars => chars

def safeChar (c : Char) : Char := if c.isAlphanum ∨ c = '-' ∨ c = '_' then c else '_'

def sanitizeComponent (name : String) : String :=
  let cleaned := (trimSock name.toList.reverse).reverse.map safeChar
  if cleaned = [] then "agent" else String.ofList cleaned

def linkStem (target : Bytes) : String :=
  sanitizeComponent (((fileName target).bind toStr).getD "agent")

def linkFor (env : UpstreamEnv) (target : Bytes) : Option Bytes :=
  (stateUpstreamsDir env).map fun dir => join dir (utf8 (linkStem target ++ ".sock"))

end Names

section Resolving

/-- The text that each path links to. -/
abbrev Links := List Component → Option Bytes

/-- Which operations of one resolution fail. -/
structure LinkFailures where
  readLink : Bool
  createDir : Bool
  remove : Bool
  symlink : Bool
  deriving DecidableEq

def LinkFailures.none : LinkFailures := ⟨false, false, false, false⟩

def makeStateSymlink (env : UpstreamEnv) (fails : LinkFailures) (target : Bytes) (links : Links) :
    Option Bytes × Links :=
  match linkFor env target with
  | .none => (.none, links)
  | some link =>
    let place := components link
    if !fails.readLink && (links place).any (fun existing => Same existing target) then
      (some link, links)
    else if fails.createDir then (.none, links)
    else
      let links := if fails.remove then links else Function.update links place .none
      if fails.symlink || (links place).isSome then (.none, links)
      else (some link, Function.update links place (some target))

/-- The link that a path is answered with, if it is answered with one. -/
def redirect (env : UpstreamEnv) (fails : LinkFailures) (configured : Bytes) (links : Links) :
    Option Bytes × Links :=
  if isGroupContainerPath configured then makeStateSymlink env fails configured links
  else (.none, links)

def resolveUpstreamPath (env : UpstreamEnv) (fails : LinkFailures) (configured : Bytes)
    (links : Links) : Bytes × Links :=
  let made := redirect env fails configured links
  (made.1.getD configured, made.2)

/-- A configured path, and the link it was answered with. -/
structure ResolvedPath where
  configured : Bytes
  link : Option Bytes
  deriving DecidableEq

def ResolvedPath.returned (self : ResolvedPath) : Bytes := self.link.getD self.configured

structure Resolution where
  links : Links
  answers : List ResolvedPath

namespace Resolution

def starting (links : Links) : Resolution := ⟨links, []⟩

/-- Resolve one path of the list. -/
def step (env : UpstreamEnv) (self : Resolution) (e : Bytes × LinkFailures) : Resolution :=
  let made := redirect env e.2 e.1 self.links
  ⟨made.2, self.answers ++ [⟨e.1, made.1⟩]⟩

/-- What is returned is what the resolution of one path returns. -/
theorem returned_step (env : UpstreamEnv) (self : Resolution) (e : Bytes × LinkFailures) :
    (self.step env e).answers.map ResolvedPath.returned =
      self.answers.map ResolvedPath.returned ++
        [(resolveUpstreamPath env e.2 e.1 self.links).1] := by
  simp [step, resolveUpstreamPath, ResolvedPath.returned]

end Resolution

/-- How one path is answered, and what becomes of the links. -/
inductive Redirected (env : UpstreamEnv) (configured : Bytes) (fails : LinkFailures)
    (links : Links) : Option Bytes × Links → Prop
  | direct (h : isGroupContainerPath configured = false ∨ linkFor env configured = .none) :
      Redirected env configured fails links (.none, links)
  | found (l t : Bytes) (hgroup : isGroupContainerPath configured = true)
      (hlink : linkFor env configured = some l) (hread : fails.readLink = false)
      (ht : links (components l) = some t) (hsame : Same t configured) :
      Redirected env configured fails links (some l, links)
  | untouched (l : Bytes) (hgroup : isGroupContainerPath configured = true)
      (hlink : linkFor env configured = some l)
      (hmiss : fails.readLink = true ∨ ∀ t, links (components l) = some t → ¬ Same t configured)
      (hfails : fails.createDir = true ∨
        fails.remove = true ∧ (fails.symlink = true ∨ (links (components l)).isSome = true)) :
      Redirected env configured fails links (.none, links)
  | lost (l : Bytes) (hgroup : isGroupContainerPath configured = true)
      (hlink : linkFor env configured = some l)
      (hmiss : fails.readLink = true ∨ ∀ t, links (components l) = some t → ¬ Same t configured)
      (hdir : fails.createDir = false) (hremove : fails.remove = false)
      (hsymlink : fails.symlink = true) :
      Redirected env configured fails links
        (.none, Function.update links (components l) .none)
  | linked (l : Bytes) (hgroup : isGroupContainerPath configured = true)
      (hlink : linkFor env configured = some l)
      (hmiss : fails.readLink = true ∨ ∀ t, links (components l) = some t → ¬ Same t configured)
      (hdir : fails.createDir = false) (hsymlink : fails.symlink = false)
      (hfree : fails.remove = false ∨ links (components l) = .none) :
      Redirected env configured fails links
        (some l, Function.update links (components l) (some configured))

theorem redirect_cases (env : UpstreamEnv) (fails : LinkFailures) (configured : Bytes)
    (links : Links) :
    Redirected env configured fails links (redirect env fails configured links) := by
  unfold redirect
  split
  swap
  · exact .direct (Or.inl (by simpa using ‹¬ isGroupContainerPath configured = true›))
  rename_i hgroup
  unfold makeStateSymlink
  split
  · exact .direct (Or.inr ‹_›)
  rename_i l hlink
  simp only
  split
  · rename_i hfound
    rw [Bool.and_eq_true, Bool.not_eq_true', Option.any_eq_true] at hfound
    obtain ⟨hread, t, ht, hsame⟩ := hfound
    exact .found l t hgroup hlink hread ht (by simpa using hsame)
  rename_i hnot
  have hmiss : fails.readLink = true ∨
      ∀ t, links (components l) = some t → ¬ Same t configured := by
    by_cases hread : fails.readLink = true
    · exact Or.inl hread
    · right
      intro t ht hsame
      apply hnot
      rw [ht]
      simp [hread, hsame]
  split
  · rename_i hdir
    exact .untouched l hgroup hlink hmiss (Or.inl hdir)
  rename_i hdir
  have hdir : fails.createDir = false := by simpa using hdir
  by_cases hremove : fails.remove = true
  · simp only [hremove, if_true]
    split
    · rename_i hfails
      rw [Bool.or_eq_true] at hfails
      exact .untouched l hgroup hlink hmiss (Or.inr ⟨hremove, hfails⟩)
    · rename_i hdone
      simp only [Bool.or_eq_true, not_or, Bool.not_eq_true, Option.isSome_eq_false_iff,
        Option.isNone_iff_eq_none] at hdone
      exact .linked l hgroup hlink hmiss hdir hdone.1 (Or.inr hdone.2)
  · have hremove : fails.remove = false := by simpa using hremove
    simp only [hremove, Bool.false_eq_true, if_false, Function.update_self, Option.isSome_none,
      Bool.or_false, Function.update_idem]
    split
    · rename_i hsymlink
      exact .lost l hgroup hlink hmiss hdir hremove hsymlink
    · rename_i hsymlink
      exact .linked l hgroup hlink hmiss hdir (by simpa using hsymlink) (Or.inl hremove)

end Resolving

section Stems

theorem isAlphanum_or_safe (c : Char) :
    (safeChar c).isAlphanum ∨ safeChar c = '-' ∨ safeChar c = '_' := by
  unfold safeChar
  split
  · assumption
  · exact Or.inr (Or.inr rfl)

theorem slash_not_mem_linkStem (target : Bytes) : '/' ∉ (linkStem target).toList := by
  unfold linkStem sanitizeComponent
  simp only
  split
  · decide
  · rw [String.toList_ofList]
    intro h
    obtain ⟨c, -, hc⟩ := List.mem_map.mp h
    rcases isAlphanum_or_safe c with halpha | heq | heq
    · rw [hc] at halpha
      exact absurd halpha (by decide)
    · rw [hc] at heq
      exact absurd heq (by decide)
    · rw [hc] at heq
      exact absurd heq (by decide)

theorem encode_slash {v : ℕ} (h : 47 ∈ LossyText.encode v) : v = 47 := by
  unfold LossyText.encode at h
  split at h
  · exact (List.mem_singleton.mp h).symm
  split at h
  · simp only [List.mem_cons, List.not_mem_nil, or_false] at h
    omega
  split at h
  · simp only [List.mem_cons, List.not_mem_nil, or_false] at h
    omega
  · simp only [List.mem_cons, List.not_mem_nil, or_false] at h
    omega

/-- A slash among the bytes of a text is one of its characters. -/
theorem slash_mem_utf8 {s : String} (h : slash ∈ utf8 s) : '/' ∈ s.toList := by
  unfold utf8 at h
  rw [LossyText.toUTF8_eq_flatMap] at h
  obtain ⟨c, hc, hb⟩ := List.mem_flatMap.mp h
  have hcode : 47 ∈ LossyText.encode c.val.toNat := by
    rw [← LossyText.utf8EncodeChar_toNat]
    exact List.mem_map_of_mem (f := UInt8.toNat) hb
  have hval := encode_slash hcode
  have hchar : c = '/' := by
    rw [← Char.ofNat_toNat c]
    show Char.ofNat c.val.toNat = '/'
    rw [hval]
  exact hchar ▸ hc

theorem utf8_injective {s s' : String} (h : utf8 s = utf8 s') : s = s' := by
  rw [← LossyText.decode_toUTF8 s, ← LossyText.decode_toUTF8 s']
  exact congrArg LossyText.decode h

theorem name_linkStem (target : Bytes) : Name (utf8 (linkStem target ++ ".sock")) := by
  have happend : utf8 (linkStem target ++ ".sock") =
      utf8 (linkStem target) ++ [46, 115, 111, 99, 107] := by
    unfold utf8
    simp [String.toUTF8_eq_toByteArray]
    rfl
  have hlen : 5 ≤ (utf8 (linkStem target ++ ".sock")).length := by
    rw [happend, List.length_append]
    simp
  constructor
  · intro hslash
    have hmem := slash_mem_utf8 hslash
    rw [String.toList_append, List.mem_append] at hmem
    rcases hmem with hmem | hmem
    · exact slash_not_mem_linkStem target hmem
    · exact absurd hmem (by decide)
  · intro h
    rw [h] at hlen
    exact absurd hlen (by decide)
  · intro h
    rw [h] at hlen
    exact absurd hlen (by decide)
  · intro h
    rw [h] at hlen
    exact absurd hlen (by decide)

/-- The link of a path is named after its stem, behind the directory. -/
theorem linkFor_eq {env : UpstreamEnv} {target l : Bytes} (h : linkFor env target = some l) :
    ∃ dir, stateUpstreamsDir env = some dir ∧
      l = dir ++ slash :: utf8 (linkStem target ++ ".sock") := by
  unfold linkFor at h
  obtain ⟨dir, hdir, rfl⟩ := Option.map_eq_some_iff.mp h
  refine ⟨dir, hdir, ?_⟩
  have hend : dir.getLast? = some 115 := by
    unfold stateUpstreamsDir at hdir
    obtain ⟨base, -, rfl⟩ := Option.map_eq_some_iff.mp hdir
    have hrest : (utf8 "cache-warden/upstreams").getLast? = some 115 := by decide
    have happend : ∀ front : Bytes,
        (front ++ utf8 "cache-warden/upstreams").getLast? = some 115 := by
      intro front
      rw [List.getLast?_append, hrest]
      rfl
    unfold join
    rw [if_neg (by decide)]
    split
    · have hcons := happend (base ++ [slash])
      rw [List.append_assoc] at hcons
      exact hcons
    · exact happend base
  have hname := name_linkStem target
  unfold join
  rw [if_neg, hend, if_pos (by decide)]
  intro hhead
  exact hname.whole (List.mem_of_head? hhead)

/-- Two paths share a link exactly when they have one stem. -/
theorem same_linkFor_iff {env : UpstreamEnv} {target target' l l' : Bytes}
    (h : linkFor env target = some l) (h' : linkFor env target' = some l') :
    components l = components l' ↔ linkStem target = linkStem target' := by
  obtain ⟨dir, hdir, hl⟩ := linkFor_eq h
  obtain ⟨dir', hdir', hl'⟩ := linkFor_eq h'
  rw [hdir] at hdir'
  cases hdir'
  constructor
  · intro hsame
    rw [hl, hl'] at hsame
    have hbytes := name_of_same (name_linkStem target) (name_linkStem target') hsame
    have htext := congrArg String.toList (utf8_injective hbytes)
    rw [String.toList_append, String.toList_append] at htext
    exact String.toList_inj.mp (List.append_inj' htext rfl).1
  · intro hstem
    rw [hl, hl', hstem]

end Stems

section Lists

variable (env : UpstreamEnv)

/-- A path leads to what it stands for, through one link at most. -/
def Reaches (links : Links) (returned configured : Bytes) : Prop :=
  Same returned configured ∨
    ∃ target, links (components returned) = some target ∧ Same target configured

/-- A list that has been resolved, from the links there were. -/
def resolved (links : Links) (list : List (Bytes × LinkFailures)) : Resolution :=
  run (Resolution.step env) (Resolution.starting links) list

/-- What is expected of a whole list. -/
structure WellResolved (links : Links) (list : List (Bytes × LinkFailures)) : Prop where
  reached : ∀ a ∈ (resolved env links list).answers,
    Reaches (resolved env links list).links a.returned a.configured
  apart : ∀ a ∈ (resolved env links list).answers, ∀ b ∈ (resolved env links list).answers,
    ∀ l l', a.link = some l → b.link = some l' → Same l l' → Same a.configured b.configured
  again : (∀ e ∈ list, e.2 = LinkFailures.none) →
    resolved env (resolved env links list).links list = resolved env links list

/-- The path leaves alone every link that an earlier one of its stem was answered
with, or is the same path and does not lose it. -/
def SparesLinks (r : Resolution) (e : Bytes × LinkFailures) : Prop :=
  isGroupContainerPath e.1 = true → ∀ a ∈ r.answers, ∀ l, a.link = some l →
    linkStem e.1 = linkStem a.configured →
      e.2.createDir = true ∨
        e.2.remove = true ∧ (r.links (components l)).isSome = true ∨
        Same e.1 a.configured ∧ (e.2.readLink = false ∨ e.2.symlink = false) ∨
        Same l a.configured ∧ e.2.symlink = true

/-- Every link that was handed out still points where it should. `calm` says that
nothing has failed; where something has, a link may be missing that stood for
itself. -/
structure Holding (calm : Prop) (r : Resolution) : Prop where
  named : ∀ a ∈ r.answers, ∀ l, a.link = some l → linkFor env a.configured = some l
  held : ∀ a ∈ r.answers, ∀ l, a.link = some l →
    (∃ t, r.links (components l) = some t ∧ Same t a.configured) ∨
      ¬ calm ∧ Same l a.configured ∧ r.links (components l) = none
  apart : ∀ a ∈ r.answers, ∀ b ∈ r.answers, ∀ l l', a.link = some l → b.link = some l' →
    Same l l' → Same a.configured b.configured

variable {env} {calm : Prop} {r : Resolution} {e : Bytes × LinkFailures}

theorem holding_starting (links : Links) : Holding env calm (Resolution.starting links) where
  named a ha := by cases ha
  held a ha := by cases ha
  apart a ha := by cases ha

theorem Holding.reached (h : Holding env calm r) (a : ResolvedPath) (ha : a ∈ r.answers) :
    Reaches r.links a.returned a.configured := by
  unfold ResolvedPath.returned
  cases hlink : a.link with
  | none => exact Or.inl (Same.refl _)
  | some l =>
    rcases h.held a ha l hlink with htarget | ⟨-, hself, -⟩
    · exact Or.inr htarget
    · exact Or.inl hself

/-- An answer without a link asks for nothing, as long as the links of the others
stay. -/
theorem Holding.direct (h : Holding env calm r) {links : Links} (configured : Bytes)
    (hlinks : ∀ a ∈ r.answers, ∀ l, a.link = some l →
      (∃ t, links (components l) = some t ∧ Same t a.configured) ∨
        ¬ calm ∧ Same l a.configured ∧ links (components l) = none) :
    Holding env calm ⟨links, r.answers ++ [⟨configured, none⟩]⟩ where
  named a ha l hl := by
    rcases List.mem_append.mp ha with ha | ha
    · exact h.named a ha l hl
    · rw [List.mem_singleton.mp ha] at hl
      cases hl
  held a ha l hl := by
    rcases List.mem_append.mp ha with ha | ha
    · exact hlinks a ha l hl
    · rw [List.mem_singleton.mp ha] at hl
      cases hl
  apart a ha b hb l l' hl hl' hsame := by
    rcases List.mem_append.mp ha with ha | ha
    · rcases List.mem_append.mp hb with hb | hb
      · exact h.apart a ha b hb l l' hl hl' hsame
      · rw [List.mem_singleton.mp hb] at hl'
        cases hl'
    · rw [List.mem_singleton.mp ha] at hl
      cases hl

/-- An answer with a link needs it to point at its path, and the earlier answers of
that link to be the same path. -/
theorem Holding.linked (h : Holding env calm r) {links : Links} {configured l t : Bytes}
    (hlink : linkFor env configured = some l) (ht : links (components l) = some t)
    (hsame : Same t configured)
    (hothers : ∀ a ∈ r.answers, ∀ l', a.link = some l' → components l' ≠ components l →
      links (components l') = r.links (components l'))
    (hearlier : ∀ a ∈ r.answers, ∀ l', a.link = some l' → Same l' l →
      Same a.configured configured) :
    Holding env calm ⟨links, r.answers ++ [⟨configured, some l⟩]⟩ where
  named a ha l' hl' := by
    rcases List.mem_append.mp ha with ha | ha
    · exact h.named a ha l' hl'
    · rw [List.mem_singleton.mp ha] at hl' ⊢
      cases hl'
      exact hlink
  held a ha l' hl' := by
    rcases List.mem_append.mp ha with ha | ha
    · by_cases hplace : components l' = components l
      · left
        refine ⟨t, ?_, hsame.trans (hearlier a ha l' hl' hplace).symm⟩
        show links (components l') = _
        rw [hplace, ht]
      · show (∃ t, links (components l') = some t ∧ _) ∨ _ ∧ _ ∧ links (components l') = none
        rw [hothers a ha l' hl' hplace]
        exact h.held a ha l' hl'
    · rw [List.mem_singleton.mp ha] at hl' ⊢
      cases hl'
      exact Or.inl ⟨t, ht, hsame⟩
  apart a ha b hb l₁ l₂ hl₁ hl₂ hpath := by
    rcases List.mem_append.mp ha with ha | ha
    · rcases List.mem_append.mp hb with hb | hb
      · exact h.apart a ha b hb l₁ l₂ hl₁ hl₂ hpath
      · rw [List.mem_singleton.mp hb] at hl₂ ⊢
        cases hl₂
        exact hearlier a ha l₁ hl₁ hpath
    · rw [List.mem_singleton.mp ha] at hl₁ ⊢
      cases hl₁
      rcases List.mem_append.mp hb with hb | hb
      · exact (hearlier b hb l₂ hl₂ hpath.symm).symm
      · rw [List.mem_singleton.mp hb]
        exact Same.refl _

/-- Where the right link was missed, an earlier answer with it was of another path
or was not read. -/
theorem Holding.not_read (h : Holding env calm r) {l : Bytes}
    (hmiss : e.2.readLink = true ∨ ∀ t, r.links (components l) = some t → ¬ Same t e.1)
    {a : ResolvedPath} (ha : a ∈ r.answers) {l' : Bytes} (hl' : a.link = some l')
    (hplace : components l' = components l) (hpath : Same e.1 a.configured)
    (hthere : r.links (components l') ≠ none) : e.2.readLink = true := by
  rcases hmiss with hread | hother
  · exact hread
  rcases h.held a ha l' hl' with ⟨t, ht, hsame⟩ | ⟨-, -, hnone⟩
  · rw [hplace] at ht
    exact absurd (hsame.trans hpath.symm) (hother t ht)
  · exact absurd hnone hthere

/-- A path that spares what was handed out keeps it in order. -/
theorem holding_step (h : Holding env calm r) (hcalm : calm → e.2 = LinkFailures.none)
    (hspares : SparesLinks r e) : Holding env calm (r.step env e) := by
  have hstem : ∀ {l l' : Bytes} {a : ResolvedPath}, linkFor env e.1 = some l → a ∈ r.answers →
      a.link = some l' → (components l' = components l ↔ linkStem e.1 = linkStem a.configured) := by
    intro l l' a hl ha hl'
    rw [same_linkFor_iff (h.named a ha l' hl') hl]
    exact eq_comm
  unfold Resolution.step
  have hcases := redirect_cases env e.2 e.1 r.links
  generalize redirect env e.2 e.1 r.links = made at hcases
  cases hcases with
  | direct _ => exact h.direct e.1 h.held
  | untouched l hgroup hlink hmiss hfails => exact h.direct e.1 h.held
  | found l t hgroup hlink hread ht hsame =>
    apply h.linked hlink ht hsame
    · intro a ha l' hl' hne
      rfl
    · intro a ha l' hl' hpath
      rcases h.held a ha l' hl' with ⟨t', ht', hsame'⟩ | ⟨-, -, hnone⟩
      · rw [show components l' = components l from hpath, ht] at ht'
        cases ht'
        exact hsame'.symm.trans hsame
      · rw [show components l' = components l from hpath, ht] at hnone
        cases hnone
  | lost l hgroup hlink hmiss hdir hremove hsymlink =>
    apply h.direct e.1
    simp only
    intro a ha l' hl'
    by_cases hplace : components l' = components l
    · have hspared := hspares hgroup a ha l' hl' ((hstem hlink ha hl').mp hplace)
      rw [hdir, hremove, hsymlink] at hspared
      have hloud : ¬ calm := by
        intro hc
        rw [hcalm hc] at hsymlink
        cases hsymlink
      by_cases hself : Same l' a.configured
      · right
        refine ⟨hloud, hself, ?_⟩
        rw [hplace, Function.update_self]
      · exfalso
        rcases hspared with hc | ⟨hc, -⟩ | ⟨hpath, hread⟩ | ⟨hc, -⟩
        · cases hc
        · cases hc
        · rcases hread with hread | hc
          · have hthere : r.links (components l') ≠ none := by
              intro hnone
              rcases h.held a ha l' hl' with ⟨t, ht, -⟩ | ⟨-, hc, -⟩
              · rw [ht] at hnone
                cases hnone
              · exact hself hc
            rw [h.not_read hmiss ha hl' hplace hpath hthere] at hread
            cases hread
          · cases hc
        · exact hself hc
    · rw [Function.update_of_ne hplace]
      exact h.held a ha l' hl'
  | linked l hgroup hlink hmiss hdir hsymlink hfree =>
    apply h.linked hlink (Function.update_self _ _ _) (Same.refl _)
    · intro a ha l' hl' hne
      exact Function.update_of_ne hne _ _
    · intro a ha l' hl' hpath
      have hspared := hspares hgroup a ha l' hl' ((hstem hlink ha hl').mp hpath)
      rw [hdir, hsymlink] at hspared
      rcases hspared with hc | ⟨hremove, hthere⟩ | ⟨hsame, -⟩ | ⟨-, hc⟩
      · cases hc
      · rcases hfree with hc | hnone
        · rw [hc] at hremove
          cases hremove
        · rw [show components l' = components l from hpath, hnone] at hthere
          cases hthere
      · exact hsame.symm
      · cases hc

/-- A path that does not spare them leaves some answer in the wrong. -/
theorem spares_of_reached (h : Holding env calm r)
    (hreached : ∀ a ∈ (r.step env e).answers,
      Reaches (r.step env e).links a.returned a.configured)
    (hapart : ∀ a ∈ (r.step env e).answers, ∀ b ∈ (r.step env e).answers,
      ∀ l l', a.link = some l → b.link = some l' → Same l l' → Same a.configured b.configured) :
    SparesLinks r e := by
  intro hgroup a ha l' hl' hstem
  have hmem : a ∈ (r.step env e).answers := List.mem_append_left _ ha
  have hagain := hreached a hmem
  have hplace : ∀ l, linkFor env e.1 = some l → components l' = components l :=
    fun l hlink => (same_linkFor_iff (h.named a ha l' hl') hlink).mpr hstem.symm
  revert hagain hapart
  unfold Resolution.step
  have hcases := redirect_cases env e.2 e.1 r.links
  generalize redirect env e.2 e.1 r.links = made at hcases
  intro hapart hagain
  have hnew : (⟨e.1, made.1⟩ : ResolvedPath) ∈ r.answers ++ [⟨e.1, made.1⟩] := by simp
  cases hcases with
  | direct hdirect =>
    exfalso
    rcases hdirect with hc | hnone
    · rw [hgroup] at hc
      cases hc
    · have hnamed := h.named a ha l' hl'
      unfold linkFor at hnone hnamed
      obtain ⟨dir, hdir, -⟩ := Option.map_eq_some_iff.mp hnamed
      rw [hdir] at hnone
      cases hnone
  | found l t hgroup hlink hread ht hsame =>
    have hpath : Same a.configured e.1 := hapart a (List.mem_append_left _ ha) _ hnew l' l hl' rfl
      (hplace l hlink)
    exact Or.inr (Or.inr (Or.inl ⟨hpath.symm, Or.inl hread⟩))
  | untouched l hgroup hlink hmiss hfails =>
    rcases hfails with hdir | ⟨hremove, hrest⟩
    · exact Or.inl hdir
    right
    cases hthere : r.links (components l') with
    | some t => exact Or.inl ⟨hremove, rfl⟩
    | none =>
      right
      right
      rcases h.held a ha l' hl' with ⟨t, ht, -⟩ | ⟨-, hself, -⟩
      · rw [ht] at hthere
        cases hthere
      refine ⟨hself, ?_⟩
      rcases hrest with hsymlink | hc
      · exact hsymlink
      · rw [← hplace l hlink, hthere] at hc
        cases hc
  | lost l hgroup hlink hmiss hdir hremove hsymlink =>
    right
    right
    right
    refine ⟨?_, hsymlink⟩
    unfold ResolvedPath.returned at hagain
    rw [hl'] at hagain
    rcases hagain with hself | ⟨t, ht, -⟩
    · exact hself
    · simp only [Option.getD_some] at ht
      rw [hplace l hlink, Function.update_self] at ht
      cases ht
  | linked l hgroup hlink hmiss hdir hsymlink hfree =>
    have hpath : Same a.configured e.1 := hapart a (List.mem_append_left _ ha) _ hnew l' l hl' rfl
      (hplace l hlink)
    exact Or.inr (Or.inr (Or.inl ⟨hpath.symm, Or.inr hsymlink⟩))

section Again

/-- Where nothing fails, a path is answered by its link whatever the links are. -/
theorem redirect_calm (configured : Bytes) (links : Links) :
    (redirect env LinkFailures.none configured links).1 =
      if isGroupContainerPath configured then linkFor env configured else none := by
  have hcases := redirect_cases env LinkFailures.none configured links
  generalize redirect env LinkFailures.none configured links = made at hcases
  cases hcases with
  | direct h =>
    rcases h with hout | hnone
    · rw [hout]
      rfl
    · rw [hnone, ite_self]
  | found l t hgroup hlink => rw [if_pos hgroup, hlink]
  | untouched l hgroup hlink hmiss hfails =>
    rcases hfails with hc | ⟨hc, -⟩
    · cases hc
    · cases hc
  | lost l hgroup hlink hmiss hdir hremove hsymlink => cases hsymlink
  | linked l hgroup hlink => rw [if_pos hgroup, hlink]

theorem answers_calm (list : List (Bytes × LinkFailures))
    (hcalm : ∀ e ∈ list, e.2 = LinkFailures.none) (r : Resolution) :
    (run (Resolution.step env) r list).answers = r.answers ++ list.map fun e =>
      ⟨e.1, if isGroupContainerPath e.1 then linkFor env e.1 else none⟩ := by
  induction list generalizing r with
  | nil => simp
  | cons e list ih =>
    rw [run_cons, ih (fun e' he' => hcalm e' (List.mem_cons_of_mem _ he'))]
    have hanswer : (r.step env e).answers = r.answers ++
        [⟨e.1, if isGroupContainerPath e.1 then linkFor env e.1 else none⟩] := by
      unfold Resolution.step
      simp only
      rw [hcalm e List.mem_cons_self, redirect_calm]
    rw [hanswer, List.append_assoc, List.map_cons]
    rfl

/-- Links that point where they should are left as they are. -/
theorem links_settled (list : List (Bytes × LinkFailures))
    (hcalm : ∀ e ∈ list, e.2 = LinkFailures.none) (r : Resolution)
    (hsettled : ∀ e ∈ list, isGroupContainerPath e.1 = true → ∀ l, linkFor env e.1 = some l →
      ∃ t, r.links (components l) = some t ∧ Same t e.1) :
    (run (Resolution.step env) r list).links = r.links := by
  induction list generalizing r with
  | nil => rfl
  | cons e list ih =>
    have hkept : (r.step env e).links = r.links := by
      have hcases := redirect_cases env e.2 e.1 r.links
      unfold Resolution.step
      have hnone := hcalm e List.mem_cons_self
      have hset := hsettled e List.mem_cons_self
      generalize redirect env e.2 e.1 r.links = made at hcases
      have hread : ∀ l, isGroupContainerPath e.1 = true → linkFor env e.1 = some l →
          ¬ (e.2.readLink = true ∨ ∀ t, r.links (components l) = some t → ¬ Same t e.1) := by
        intro l hgroup hlink hmiss
        obtain ⟨t, ht, hsame⟩ := hset hgroup l hlink
        rcases hmiss with hc | hother
        · rw [hnone] at hc
          cases hc
        · exact hother t ht hsame
      cases hcases with
      | direct => rfl
      | found => rfl
      | untouched => rfl
      | lost l hgroup hlink hmiss => exact absurd hmiss (hread l hgroup hlink)
      | linked l hgroup hlink hmiss => exact absurd hmiss (hread l hgroup hlink)
    rw [run_cons, ih (fun e' he' => hcalm e' (List.mem_cons_of_mem _ he')), hkept]
    intro e' he'
    rw [hkept]
    exact hsettled e' (List.mem_cons_of_mem _ he')

theorem resolved_again {links : Links} {list : List (Bytes × LinkFailures)}
    (h : Holding env True (resolved env links list))
    (hcalm : ∀ e ∈ list, e.2 = LinkFailures.none) :
    resolved env (resolved env links list).links list = resolved env links list := by
  have hanswers : ∀ links, (resolved env links list).answers = list.map fun e =>
      ⟨e.1, if isGroupContainerPath e.1 then linkFor env e.1 else none⟩ :=
    fun links => answers_calm list hcalm (Resolution.starting links)
  have hlinks := @links_settled env list hcalm
    (Resolution.starting (resolved env links list).links) (by
      intro e he hgroup l hlink
      have ha : (⟨e.1, some l⟩ : ResolvedPath) ∈ (resolved env links list).answers := by
        rw [hanswers]
        refine List.mem_map.mpr ⟨e, he, ?_⟩
        rw [if_pos hgroup, hlink]
      rcases h.held _ ha l rfl with htarget | ⟨hc, -⟩
      · exact htarget
      · exact absurd trivial hc)
  have hext : ∀ r r' : Resolution, r.links = r'.links → r.answers = r'.answers → r = r' := by
    intro r r' hl ha
    cases r
    cases r'
    cases hl
    cases ha
    rfl
  exact hext _ _ hlinks ((hanswers _).trans (hanswers _).symm)

end Again

end Lists

/-- A list is resolved well, however far it is taken, if and only if every path in
it spares the links that the paths before it were answered with. -/
theorem well_resolved_iff (env : UpstreamEnv) (links : Links)
    (list : List (Bytes × LinkFailures)) :
    (∀ front rest, list = front ++ rest → WellResolved env links front) ↔
      Along (Resolution.step env) SparesLinks (Resolution.starting links) list := by
  have hholding : ∀ (calm : Prop) (front : List (Bytes × LinkFailures)),
      (calm → ∀ e ∈ front, e.2 = LinkFailures.none) →
      Along (Resolution.step env) SparesLinks (Resolution.starting links) front →
      Holding env calm (resolved env links front) := by
    intro calm front hcalm hspares
    have hquiet := along_of_mem (Resolution.step env) (P := fun e => calm → e.2 = LinkFailures.none)
      (Resolution.starting links) front (fun e he hc => hcalm hc e he)
    exact run_invariant (Resolution.step env) (I := Holding env calm)
      (fun r e h hp => holding_step h hp.1 hp.2) _ front
      (along_and (Resolution.step env) _ front hquiet hspares) (holding_starting links)
  constructor
  · intro h
    induction list using List.reverseRecOn with
    | nil => trivial
    | append_singleton front e ih =>
      have hfront := ih (fun first rest heq =>
        h first (rest ++ [e]) (by rw [heq, List.append_assoc]))
      have hwell := h (front ++ [e]) [] (List.append_nil _).symm
      refine (along_append _ _ _ _ _).mpr ⟨hfront, ?_, trivial⟩
      have hstep : resolved env links (front ++ [e]) = (resolved env links front).step env e := by
        unfold resolved
        rw [run_append]
        rfl
      apply spares_of_reached (hholding False front (fun hc => hc.elim) hfront)
      · rw [← hstep]
        exact hwell.reached
      · rw [← hstep]
        exact hwell.apart
  · intro h front rest heq
    rw [heq, along_append] at h
    have hany := hholding False front (fun hc => hc.elim) h.1
    refine ⟨hany.reached, hany.apart, fun hcalm => ?_⟩
    exact resolved_again (hholding True front (fun _ => hcalm) h.1) hcalm

namespace TwoContainers

def env : UpstreamEnv := ⟨none, some (utf8 "/u")⟩

def first : Bytes := utf8 "/u/Library/Group Containers/a/agent.sock"

def second : Bytes := utf8 "/u/Library/Group Containers/b/agent.sock"

def list : List (Bytes × LinkFailures) := [(first, LinkFailures.none), (second, LinkFailures.none)]

end TwoContainers

/-- Two sockets of one name in different containers share a link. -/
theorem two_containers_share :
    ¬ WellResolved TwoContainers.env (fun _ => none) TwoContainers.list := by
  intro h
  have hanswers : (resolved TwoContainers.env (fun _ => none) TwoContainers.list).answers =
      [⟨TwoContainers.first, some (utf8 "/u/.local/state/cache-warden/upstreams/agent.sock")⟩,
        ⟨TwoContainers.second, some (utf8 "/u/.local/state/cache-warden/upstreams/agent.sock")⟩] := by
    decide
  have hsame := h.apart ⟨TwoContainers.first, _⟩ (by rw [hanswers]; exact List.mem_cons_self)
    ⟨TwoContainers.second, _⟩ (by rw [hanswers]; exact List.mem_cons_of_mem _ List.mem_cons_self)
    _ _ rfl rfl (Same.refl _)
  revert hsame
  decide

end Daemon

end CacheWarden
