import Mathlib.Data.List.Nodup
import Mathlib.Logic.Function.Basic

/-!
# Process tables

A table gives each number the process that has it. Processes fork and exit, the
children of one that exits go to the root, and numbers are used again. Parents
change in no other way, so whoever is an ancestor at one moment, the root apart,
was an ancestor at every earlier moment at which the descendant lived.
-/

set_option autoImplicit false

namespace ProcessTree

variable {π ι : Type*}

/-- A process: who it is, and the number of its parent. -/
structure Node (π ι : Type*) where
  self : ι
  parent : Option π
  deriving DecidableEq

abbrev Table (π ι : Type*) := π → Option (Node π ι)

/-- `q` is the number of the process at `p`, of its parent, or of its parent's
parent, and so on. -/
inductive Kin (t : Table π ι) (p : π) : π → Prop
  | refl (h : (t p).isSome) : Kin t p p
  | parent {q r : π} {n : Node π ι} (h : Kin t p q) (hq : t q = some n) (hr : n.parent = some r)
      (hsome : (t r).isSome) : Kin t p r

/-- The numbers from `p` up to a process that has no parent. -/
inductive Line (t : Table π ι) : π → List π → Prop
  | top {p : π} {n : Node π ι} (h : t p = some n) (htop : n.parent = none) : Line t p [p]
  | up {p r : π} {n : Node π ι} {line : List π} (h : t p = some n) (hr : n.parent = some r)
      (hline : Line t r line) : Line t p (p :: line)

/-- Everything alive descends from the root, which has no parent. -/
structure Tree (root : π) (t : Table π ι) : Prop where
  top : ∃ n, t root = some n ∧ n.parent = none
  rooted : ∀ p, (t p).isSome → Kin t p root

inductive Change (π ι : Type*) where
  | fork (parent new : π) (self : ι)
  | exit (p : π)
  deriving DecidableEq

/-- The parent is the root if it was the process that has gone. -/
def Node.orphaned [DecidableEq π] (root gone : π) (n : Node π ι) : Node π ι :=
  { n with parent := if n.parent = some gone then some root else n.parent }

def Table.change [DecidableEq π] (root : π) (t : Table π ι) : Change π ι → Table π ι
  | .fork parent new self => fun p => if p = new then some ⟨self, some parent⟩ else t p
  | .exit gone => fun p => if p = gone then none else (t p).map (Node.orphaned root gone)

/-- A fork takes a free number and has a living parent. The root does not exit. -/
def Table.Possible (root : π) (t : Table π ι) : Change π ι → Prop
  | .fork parent new _ => (t parent).isSome ∧ t new = none
  | .exit gone => gone ≠ root

/-- Who has the number now, had it then. -/
def Held (t t' : Table π ι) (p : π) : Prop :=
  ∀ n', t' p = some n' → ∃ n, t p = some n ∧ n.self = n'.self

/-- What the later table makes of those in the earlier one: each has the parent
it had, or the root. -/
def Follows (root : π) (t t' : Table π ι) : Prop :=
  ∀ p n n', t p = some n → t' p = some n' → n.self = n'.self →
    n'.parent = some root ∨ n'.parent = n.parent

section Lineage

variable {t t' : Table π ι} {p q r root : π}

theorem Kin.start (h : Kin t p q) : (t p).isSome := by
  induction h with
  | refl h => exact h
  | parent _ _ _ _ ih => exact ih

theorem Kin.finish (h : Kin t p q) : (t q).isSome := by
  cases h with
  | refl h => exact h
  | parent _ _ _ hsome => exact hsome

theorem Kin.trans (h : Kin t p q) (h' : Kin t q r) : Kin t p r := by
  induction h' with
  | refl _ => exact h
  | parent _ hq hr hsome ih => exact ih.parent hq hr hsome

/-- An ancestor is the process itself, or an ancestor of its parent. -/
theorem Kin.cases_parent {n : Node π ι} (hp : t p = some n) (h : Kin t p q) :
    q = p ∨ ∃ r, n.parent = some r ∧ Kin t r q := by
  induction h with
  | refl _ => exact Or.inl rfl
  | @parent q r m h hq hr hsome ih =>
    right
    rcases ih with rfl | ⟨r', hparent, hkin⟩
    · rw [hp] at hq
      cases hq
      exact ⟨r, hr, .refl hsome⟩
    · exact ⟨r', hparent, hkin.parent hq hr hsome⟩

theorem Tree.parent_alive (h : Tree root t) {n : Node π ι} (hp : t p = some n)
    (hr : n.parent = some r) : (t r).isSome := by
  rcases (h.rooted p (by rw [hp]; rfl)).cases_parent hp with heq | ⟨r', hr', hkin⟩
  · obtain ⟨m, hm, htop⟩ := h.top
    rw [heq, hp] at hm
    cases hm
    rw [htop] at hr
    cases hr
  · rw [hr] at hr'
    cases hr'
    exact hkin.start

theorem Line.unique {line line' : List π} (h : Line t p line) (h' : Line t p line') :
    line = line' := by
  induction h generalizing line' with
  | top h htop =>
    cases h' with
    | top _ _ => rfl
    | up h' hr' _ =>
      rw [h] at h'
      cases h'
      rw [htop] at hr'
      cases hr'
  | up h hr _ ih =>
    cases h' with
    | top h' htop' =>
      rw [h] at h'
      cases h'
      rw [htop'] at hr
      cases hr
    | up h' hr' hline' =>
      rw [h] at h'
      cases h'
      rw [hr] at hr'
      cases hr'
      rw [ih hline']

/-- The line of whoever is on a line is the rest of it. -/
theorem Line.rest {line : List π} (h : Line t p line) (hq : q ∈ line) :
    ∃ rest, Line t q rest ∧ rest.length ≤ line.length := by
  induction h with
  | top h htop =>
    rw [List.mem_singleton] at hq
    subst hq
    exact ⟨[_], .top h htop, Nat.le_refl _⟩
  | up h hr hline ih =>
    rcases List.mem_cons.mp hq with rfl | hq
    · exact ⟨_, .up h hr hline, Nat.le_refl _⟩
    · obtain ⟨rest, hrest, hlength⟩ := ih hq
      exact ⟨rest, hrest, Nat.le_succ_of_le hlength⟩

/-- No number comes twice on the way up: from there the way would never end. -/
theorem Line.nodup {line : List π} (h : Line t p line) : line.Nodup := by
  induction h with
  | top _ _ => exact List.nodup_singleton _
  | @up p r n line h hr hline ih =>
    rw [List.nodup_cons]
    refine ⟨?_, ih⟩
    intro hmem
    obtain ⟨rest, hrest, hlength⟩ := hline.rest hmem
    have heq : p :: line = rest := (Line.up h hr hline).unique hrest
    rw [← heq, List.length_cons] at hlength
    omega

theorem Kin.line {rest : List π} (h : Kin t p q) (hrest : Line t q rest) :
    ∃ line, Line t p line := by
  induction h generalizing rest with
  | refl _ => exact ⟨rest, hrest⟩
  | parent _ hq hr _ ih => exact ih (.up hq hr hrest)

theorem Line.mem_of_kin {line : List π} (h : Line t p line) (hkin : Kin t p q) : q ∈ line := by
  induction h with
  | top h htop =>
    rcases hkin.cases_parent h with rfl | ⟨r, hr, -⟩
    · exact List.mem_singleton.mpr rfl
    · rw [htop] at hr
      cases hr
  | up h hr _ ih =>
    rcases hkin.cases_parent h with rfl | ⟨r', hr', hkin⟩
    · exact List.mem_cons_self
    · rw [hr] at hr'
      cases hr'
      exact List.mem_cons_of_mem _ (ih hkin)

theorem Tree.line (h : Tree root t) (hp : (t p).isSome) : ∃ line, Line t p line := by
  obtain ⟨n, hn, htop⟩ := h.top
  exact (h.rooted p hp).line (.top hn htop)

theorem follows_refl : Follows root t t := by
  intro p n n' hn hn' _
  rw [hn] at hn'
  cases hn'
  exact Or.inr rfl

/-- The parent a process has now was an ancestor of its descendants before. -/
theorem Follows.kin (h : Follows root t t') (htree : Tree root t) {n' : Node π ι}
    (hkin : Kin t p q) (hheld : Held t t' q) (hq : t' q = some n') (hr : n'.parent = some r) :
    Kin t p r := by
  obtain ⟨n, hn, hself⟩ := hheld n' hq
  rcases h q n n' hn hq hself with horphan | hsame
  · rw [hr] at horphan
    cases horphan
    exact htree.rooted p hkin.start
  · rw [hr] at hsame
    exact hkin.parent hn hsame.symm (htree.parent_alive hn hsame.symm)

end Lineage

section Changes

variable [DecidableEq π] {root : π} {t t' : Table π ι} {p q : π}

@[simp] theorem change_fork (parent new : π) (self : ι) (p : π) :
    t.change root (.fork parent new self) p =
      if p = new then some ⟨self, some parent⟩ else t p := rfl

@[simp] theorem change_exit (gone p : π) :
    t.change root (.exit gone) p =
      if p = gone then none else (t p).map (Node.orphaned root gone) := rfl

theorem Kin.fork {parent new : π} {self : ι} (hfree : t new = none) (h : Kin t p q) :
    Kin (t.change root (.fork parent new self)) p q := by
  have hstays : ∀ r, (t r).isSome → t.change root (.fork parent new self) r = t r := by
    intro r hr
    rw [change_fork, if_neg]
    rintro rfl
    rw [hfree] at hr
    cases hr
  induction h with
  | refl h =>
    apply Kin.refl
    rw [hstays p h]
    exact h
  | @parent q r n h hq hr hsome ih =>
    apply ih.parent (n := n) _ hr
    · rw [hstays r hsome]
      exact hsome
    · rw [hstays q (by rw [hq]; rfl)]
      exact hq

/-- Without one of its links, a line of descent still ends at the root. -/
theorem Kin.exit {gone : π} (hroot : gone ≠ root) (halive : (t root).isSome) (hp : p ≠ gone)
    (h : Kin t p q) :
    Kin (t.change root (.exit gone)) p root ∨
      q ≠ gone ∧ Kin (t.change root (.exit gone)) p q := by
  have hsome : ∀ r, r ≠ gone → (t r).isSome → (t.change root (.exit gone) r).isSome := by
    intro r hr hsome
    rw [change_exit, if_neg hr, Option.isSome_map]
    exact hsome
  induction h with
  | refl h => exact Or.inr ⟨hp, .refl (hsome p hp h)⟩
  | @parent q r n h hq hr hr' ih =>
    rcases ih with hdone | ⟨hne, hkin⟩
    · exact Or.inl hdone
    have hnode : t.change root (.exit gone) q = some (n.orphaned root gone) := by
      rw [change_exit, if_neg hne, hq]
      rfl
    by_cases hgone : r = gone
    · left
      apply hkin.parent hnode _ (hsome root (Ne.symm hroot) halive)
      unfold Node.orphaned
      rw [hr, hgone]
      exact if_pos rfl
    · right
      refine ⟨hgone, hkin.parent hnode ?_ (hsome r hgone hr')⟩
      unfold Node.orphaned
      rw [if_neg]
      · exact hr
      · rw [hr]
        intro heq
        exact hgone (Option.some.inj heq)

theorem Tree.fork {parent new : π} {self : ι} (h : Tree root t)
    (hpossible : t.Possible root (.fork parent new self)) :
    Tree root (t.change root (.fork parent new self)) := by
  obtain ⟨hparent, hfree⟩ := hpossible
  obtain ⟨n, hn, htop⟩ := h.top
  constructor
  · refine ⟨n, ?_, htop⟩
    rw [change_fork, if_neg]
    · exact hn
    · rintro rfl
      rw [hfree] at hn
      cases hn
  · intro p hp
    by_cases hnew : p = new
    · subst hnew
      have hup : Kin (t.change root (.fork parent p self)) parent root :=
        (h.rooted parent hparent).fork hfree
      have hself : t.change root (.fork parent p self) p = some ⟨self, some parent⟩ := by
        rw [change_fork, if_pos rfl]
      have hone : Kin (t.change root (.fork parent p self)) p parent :=
        (Kin.refl hp).parent hself rfl hup.start
      exact hone.trans hup
    · rw [change_fork, if_neg hnew] at hp
      exact (h.rooted p hp).fork hfree

theorem Tree.exit {gone : π} (h : Tree root t) (hroot : gone ≠ root) :
    Tree root (t.change root (.exit gone)) := by
  obtain ⟨n, hn, htop⟩ := h.top
  constructor
  · refine ⟨n.orphaned root gone, ?_, ?_⟩
    · rw [change_exit, if_neg (Ne.symm hroot), hn]
      rfl
    · unfold Node.orphaned
      rw [htop]
      rfl
  · intro p hp
    rw [change_exit] at hp
    by_cases hgone : p = gone
    · rw [if_pos hgone] at hp
      cases hp
    · rw [if_neg hgone, Option.isSome_map] at hp
      rcases (h.rooted p hp).exit hroot (by rw [hn]; rfl) hgone with hdone | ⟨-, hdone⟩
      · exact hdone
      · exact hdone

theorem Tree.change {c : Change π ι} (h : Tree root t) (hpossible : t.Possible root c) :
    Tree root (t.change root c) := by
  cases c with
  | fork parent new self => exact h.fork hpossible
  | exit gone => exact h.exit hpossible

/-- Changes by processes that are new keep the earlier table behind. -/
theorem Follows.change {c : Change π ι} (h : Follows root t t')
    (hfresh : ∀ parent new self, c = .fork parent new self → ∀ p n, t p = some n → n.self ≠ self) :
    Follows root t (t'.change root c) := by
  intro p n n' hn hn' hself
  cases c with
  | fork parent new self =>
    rw [change_fork] at hn'
    split at hn'
    · cases hn'
      exact absurd hself (hfresh parent new self rfl p n hn)
    · exact h p n n' hn hn' hself
  | exit gone =>
    rw [change_exit] at hn'
    split at hn'
    · cases hn'
    obtain ⟨m, hm, rfl⟩ := Option.map_eq_some_iff.mp hn'
    show (if m.parent = some gone then some root else m.parent) = some root ∨
      (if m.parent = some gone then some root else m.parent) = n.parent
    split
    · exact Or.inl rfl
    · exact h p n m hn hm hself

end Changes

end ProcessTree
