import CacheWarden.Records
import CacheWarden.Lib.ProcessTree
import Mathlib.Data.List.Perm.Subperm

/-!
# The ancestry walk

An inspector answers for one pid. The walk goes from a pid to the parent each
answer names, and stops at a process without a parent, at a pid it has seen, and
at a parent that has gone.
-/

set_option autoImplicit false

namespace CacheWarden

open ProcessTree

inductive InspectError where
  | notFound (pid : UInt32)
  | unavailable (message : String)
  deriving DecidableEq

/-- What `inspect` answers for each pid. -/
abbrev ProcessInspector := UInt32 → Except InspectError ProcessInfo

/-- What the loop of `ancestry` carries. -/
structure Walk where
  chain : List ProcessInfo
  visited : List UInt32
  current : Option UInt32
  deriving DecidableEq

inductive Walked where
  | again (walk : Walk)
  | ended (result : Except InspectError (List ProcessInfo))

namespace Walk

def start (pid : UInt32) : Walk := ⟨[], [], some pid⟩

/-- One pass of the loop. The first pid must exist; a parent that has gone ends
the chain. -/
def step (self : Walk) (inspect : ProcessInspector) : Walked :=
  match self.current with
  | none => .ended (.ok self.chain)
  | some p =>
    if p = 0 || p ∈ self.visited then .ended (.ok self.chain)
    else
      match inspect p with
      | .ok info => .again ⟨self.chain ++ [info], p :: self.visited, info.ppid⟩
      | .error (.notFound pid) =>
        if self.chain.isEmpty then .ended (.error (.notFound pid)) else .ended (.ok self.chain)
      | .error e => .ended (.error e)

def run (inspect : ProcessInspector) : ℕ → Walk → Option (Except InspectError (List ProcessInfo))
  | 0, _ => none
  | fuel + 1, walk =>
    match walk.step inspect with
    | .again walk => run inspect fuel walk
    | .ended result => some result

theorem again_cases {self walk : Walk} {inspect : ProcessInspector}
    (h : self.step inspect = .again walk) :
    ∃ p info, self.current = some p ∧ p ≠ 0 ∧ p ∉ self.visited ∧ inspect p = .ok info ∧
      walk = ⟨self.chain ++ [info], p :: self.visited, info.ppid⟩ := by
  revert h
  unfold step
  split
  · exact fun h => by cases h
  rename_i p hcurrent
  split
  · exact fun h => by cases h
  rename_i hgo
  split
  · rename_i info hinfo
    intro h
    cases h
    rw [Bool.or_eq_true, decide_eq_true_eq, decide_eq_true_eq, not_or] at hgo
    exact ⟨p, info, hcurrent, hgo.1, hgo.2, hinfo, rfl⟩
  · split
    · exact fun h => by cases h
    · exact fun h => by cases h
  · exact fun h => by cases h

/-- The chain a walk returns is the one it has carried. -/
theorem ended_ok {self : Walk} {inspect : ProcessInspector} {chain : List ProcessInfo}
    (h : self.step inspect = .ended (.ok chain)) : chain = self.chain := by
  revert h
  unfold step
  split
  · intro h
    cases h
    rfl
  split
  · intro h
    cases h
    rfl
  split
  · exact fun h => by cases h
  · split
    · exact fun h => by cases h
    · intro h
      cases h
      rfl
  · exact fun h => by cases h

end Walk

/-- Every pass but the last inspects a pid for the first time, so there are no
more passes than this. -/
def ancestry (inspect : ProcessInspector) (pid : UInt32) :
    Option (Except InspectError (List ProcessInfo)) :=
  Walk.run inspect (2 ^ 32 + 1) (.start pid)

section Termination

theorem length_le_of_nodup {pids : List UInt32} (h : pids.Nodup) : pids.length ≤ 2 ^ 32 := by
  have hinjective : Function.Injective UInt32.toNat := fun _ _ => UInt32.toNat_inj.mp
  have hnodup := h.map hinjective
  have hsub : pids.map UInt32.toNat ⊆ List.range (2 ^ 32) := by
    intro n hn
    obtain ⟨p, -, rfl⟩ := List.mem_map.mp hn
    exact List.mem_range.mpr p.toNat_lt
  have hle := (hnodup.subperm hsub).length_le
  rwa [List.length_map, List.length_range] at hle

theorem Walk.run_returns (inspect : ProcessInspector) (fuel : ℕ) (walk : Walk)
    (hnodup : walk.visited.Nodup) (hfuel : 2 ^ 32 < fuel + walk.visited.length) :
    ∃ result, walk.run inspect fuel = some result := by
  induction fuel generalizing walk with
  | zero =>
    have hle := length_le_of_nodup hnodup
    omega
  | succ fuel ih =>
    unfold Walk.run
    split
    · rename_i next hnext
      obtain ⟨p, info, -, -, hnew, -, rfl⟩ := again_cases hnext
      apply ih
      · exact List.nodup_cons.mpr ⟨hnew, hnodup⟩
      · rw [List.length_cons]
        omega
    · rename_i result _
      exact ⟨result, rfl⟩

/-- The walk ends, whatever the inspector answers. -/
theorem ancestry_returns (inspect : ProcessInspector) (pid : UInt32) :
    ∃ result, ancestry inspect pid = some result :=
  Walk.run_returns inspect _ _ List.nodup_nil (by simp [Walk.start])

end Termination

section Still

variable {ι : Type*} {t : Table UInt32 ι} {inspect : ProcessInspector} {p root : UInt32}

theorem Walk.run_line {line : List UInt32} (hline : Line t p line) (hkernel : t 0 = none)
    (hinspect : ∀ q n, t q = some n → ∃ info, inspect q = .ok info ∧ info.ppid = n.parent)
    (fuel : ℕ) (walk : Walk) (hcurrent : walk.current = some p)
    (hnew : ∀ q ∈ line, q ∉ walk.visited) (hnodup : line.Nodup) (hfuel : line.length < fuel) :
    ∃ infos, walk.run inspect fuel = some (.ok (walk.chain ++ infos)) ∧
      ∀ q ∈ line, ∃ info ∈ infos, inspect q = .ok info := by
  have hzero : ∀ q n, t q = some n → q ≠ 0 := by
    rintro q n hq rfl
    rw [hkernel] at hq
    cases hq
  have hpass : ∀ q info (w : Walk), w.current = some q → q ≠ 0 → q ∉ w.visited →
      inspect q = .ok info →
      w.step inspect = .again ⟨w.chain ++ [info], q :: w.visited, info.ppid⟩ := by
    intro q info w hq hne hnew hinfo
    unfold Walk.step
    rw [hq]
    simp [hne, hnew, hinfo]
  induction hline generalizing fuel walk with
  | @top p n hp htop =>
    obtain ⟨info, hinfo, hppid⟩ := hinspect p n hp
    have hfirst := hpass p info walk hcurrent (hzero p n hp) (hnew p List.mem_cons_self) hinfo
    match fuel, hfuel with
    | fuel + 2, _ =>
      refine ⟨[info], ?_, ?_⟩
      · unfold Walk.run
        rw [hfirst]
        show Walk.run inspect (fuel + 1) _ = _
        unfold Walk.run Walk.step
        rw [hppid, htop]
      · intro q hq
        rw [List.mem_singleton] at hq
        subst hq
        exact ⟨info, List.mem_cons_self, hinfo⟩
  | @up p r n line hp hr hline ih =>
    obtain ⟨info, hinfo, hppid⟩ := hinspect p n hp
    have hfirst := hpass p info walk hcurrent (hzero p n hp) (hnew p List.mem_cons_self) hinfo
    rw [List.nodup_cons] at hnodup
    match fuel, hfuel with
    | fuel + 1, hfuel =>
      obtain ⟨infos, hrun, hall⟩ := ih fuel ⟨walk.chain ++ [info], p :: walk.visited, info.ppid⟩
        (hppid.trans hr) (by
          intro q hq hmem
          rcases List.mem_cons.mp hmem with rfl | hmem
          · exact hnodup.1 hq
          · exact hnew q (List.mem_cons_of_mem _ hq) hmem) hnodup.2
        (by rw [List.length_cons] at hfuel; omega)
      refine ⟨info :: infos, ?_, ?_⟩
      · unfold Walk.run
        rw [hfirst]
        show Walk.run inspect fuel _ = _
        rw [hrun, List.append_assoc]
        rfl
      · intro q hq
        rcases List.mem_cons.mp hq with rfl | hq
        · exact ⟨info, List.mem_cons_self, hinfo⟩
        · obtain ⟨found, hfound, heq⟩ := hall q hq
          exact ⟨found, List.mem_cons_of_mem _ hfound, heq⟩

/-- While the processes stand still the walk finds every ancestor. -/
theorem ancestry_complete (htree : Tree root t) (hkernel : t 0 = none)
    (hinspect : ∀ q n, t q = some n → ∃ info, inspect q = .ok info ∧ info.ppid = n.parent)
    (hp : (t p).isSome) :
    ∃ infos, ancestry inspect p = some (.ok infos) ∧
      ∀ q, Kin t p q → ∃ info ∈ infos, inspect q = .ok info := by
  obtain ⟨line, hline⟩ := htree.line hp
  have hlength := length_le_of_nodup hline.nodup
  obtain ⟨infos, hrun, hall⟩ := Walk.run_line hline hkernel hinspect (2 ^ 32 + 1) (.start p) rfl
    (fun _ _ => List.not_mem_nil) hline.nodup (Nat.lt_succ_of_le hlength)
  exact ⟨infos, hrun, fun q hq => hall q (hline.mem_of_kin hq)⟩

end Still

end CacheWarden
