import CacheWarden.Lib.Transition
import Mathlib.Logic.Function.Basic
import Mathlib.Tactic.Common
import Mathlib.Tactic.Ring

/-!
# A child process behind two pipes

A child writes to two pipes of bounded capacity and exits; a write into a full pipe
waits. Its parent looks whether it has exited, and may give up after a time limit.
The pipes are read from the start, or only once the parent has seen the exit. The
clock, the child, the readers and the parent take their steps in any order.
-/

set_option autoImplicit false

namespace Piped

open Transition

inductive Port where
  | out
  | err
  deriving DecidableEq

structure Pipes where
  capacity : Port → ℕ
  pos : ∀ p, 0 < capacity p

/-- What a child writes, in its order, and the code it exits with. -/
structure Child where
  writes : List (Port × List UInt8)
  code : Option ℤ

/-- What is written to a pipe, in all. -/
def written (p : Port) (writes : List (Port × List UInt8)) : List UInt8 :=
  writes.flatMap fun w => if w.1 = p then w.2 else []

/-- How the parent waits: with readers from the start or without, and for how long. -/
structure Runner where
  concurrent : Bool
  limit : Option ℕ

inductive Ending where
  | output (out err : List UInt8)
  | timeout
  deriving DecidableEq

inductive Phase where
  | polling
  | looked
  | collecting
  | killed
  | ended (e : Ending)
  deriving DecidableEq

structure State where
  writes : List (Port × List UInt8)
  exited : Option ℕ
  killed : Bool
  pipe : Port → List UInt8
  got : Port → List UInt8
  eof : Port → Bool
  phase : Phase
  clock : ℕ
  lost : ℕ

inductive Event where
  | write (n : ℕ)
  | next
  | exit
  | read (p : Port) (n : ℕ)
  | eof (p : Port)
  | poll
  | check
  | finish
  | tick
  deriving DecidableEq

namespace State

def start (child : Child) : State where
  writes := child.writes
  exited := none
  killed := false
  pipe _ := []
  got _ := []
  eof _ := false
  phase := .polling
  clock := 0
  lost := 0

def alive (s : State) : Bool := s.exited.isNone && !s.killed

/-- The pipe that the child waits for. -/
def blocked (pipes : Pipes) (s : State) : Option Port :=
  match s.writes with
  | (p, _ :: _) :: _ =>
    if s.alive ∧ pipes.capacity p ≤ (s.pipe p).length then some p else none
  | _ => none

/-- Somebody reads the pipe. -/
def reading (r : Runner) (s : State) (p : Port) : Bool :=
  (r.concurrent || s.phase == .collecting) && !s.eof p

/-- The child waits for a pipe that nobody reads. -/
def unread (r : Runner) (pipes : Pipes) (s : State) : Bool :=
  match s.blocked pipes with
  | some p => !s.reading r p
  | none => false

end State

variable (r : Runner) (pipes : Pipes)

def step (s : State) : Event → State
  | .write n =>
    match s.writes with
    | (p, bytes) :: rest =>
      if s.alive ∧ n ≤ bytes.length ∧ (s.pipe p).length + n ≤ pipes.capacity p then
        { s with
          writes := (p, bytes.drop n) :: rest
          pipe := Function.update s.pipe p (s.pipe p ++ bytes.take n) }
      else s
    | [] => s
  | .next =>
    match s.writes with
    | (_, []) :: rest => if s.alive then { s with writes := rest } else s
    | _ => s
  | .exit => if s.alive ∧ s.writes = [] then { s with exited := some s.clock } else s
  | .read p n =>
    if s.reading r p then
      { s with
        got := Function.update s.got p (s.got p ++ (s.pipe p).take n)
        pipe := Function.update s.pipe p ((s.pipe p).drop n) }
    else s
  | .eof p =>
    if s.reading r p ∧ s.pipe p = [] ∧ s.alive = false then
      { s with eof := Function.update s.eof p true }
    else s
  | .poll =>
    if s.phase = .polling then
      if s.exited.isSome then { s with phase := .collecting }
      else if r.limit.isSome then { s with phase := .looked }
      else s
    else s
  | .check =>
    if s.phase = .looked then
      match r.limit with
      | some limit =>
        if limit ≤ s.clock then { s with phase := .killed, killed := true }
        else { s with phase := .polling }
      | none => { s with phase := .polling }
    else s
  | .finish =>
    match s.phase with
    | .collecting =>
      if s.eof .out ∧ s.eof .err then
        { s with phase := .ended (.output (s.got .out) (s.got .err)) }
      else s
    | .killed =>
      if r.concurrent = false ∨ (s.eof .out ∧ s.eof .err) then { s with phase := .ended .timeout }
      else s
    | _ => s
  | .tick =>
    { s with
      clock := s.clock + 1
      lost := if s.unread r pipes then s.lost + 1 else s.lost }

def reach (child : Child) (events : List Event) : State :=
  run (step r pipes) (State.start child) events

/-- A deadlock: the child waits for a pipe, and whatever happens it goes on waiting
for as long as it lives. -/
def Stuck (s : State) : Prop :=
  (s.blocked pipes).isSome ∧
    ∀ events, (run (step r pipes) s events).alive = true →
      ((run (step r pipes) s events).blocked pipes).isSome

/-- The pipes are read while the child lives, or they hold all that it writes. -/
def Drained (child : Child) : Prop :=
  r.concurrent = true ∨ ∀ p, (written p child.writes).length ≤ pipes.capacity p

/-- The clock does not reach the limit after the exit of a child that the last look
still saw running, before the parent reads it. -/
def Prompt (child : Child) (events : List Event) : Prop :=
  Along (step r pipes) (fun s e => s.phase = .looked → s.exited.isSome → e = .tick →
    ∀ limit, r.limit = some limit → s.clock + 1 ≠ limit) (State.start child) events

section Bytes

variable {r pipes} {s : State} {p q : Port}

@[simp] theorem written_nil (p : Port) : written p [] = [] := rfl

theorem written_cons_self (p : Port) (bytes : List UInt8) (rest : List (Port × List UInt8)) :
    written p ((p, bytes) :: rest) = bytes ++ written p rest := by
  rw [written, List.flatMap_cons, if_pos rfl]
  rfl

theorem written_cons_ne (h : q ≠ p) (bytes : List UInt8) (rest : List (Port × List UInt8)) :
    written p ((q, bytes) :: rest) = written p rest := by
  rw [written, List.flatMap_cons, if_neg h]
  rfl

theorem written_cons_nil (p q : Port) (rest : List (Port × List UInt8)) :
    written p ((q, []) :: rest) = written p rest := by
  by_cases h : q = p
  · rw [h, written_cons_self, List.nil_append]
  · exact written_cons_ne h [] rest

/-- A child is blocked before a byte that its full pipe does not take. -/
theorem blocked_some (h : s.blocked pipes = some p) :
    s.alive = true ∧ pipes.capacity p ≤ (s.pipe p).length ∧
      ∃ b bytes rest, s.writes = (p, b :: bytes) :: rest := by
  unfold State.blocked at h
  split at h
  · rename_i q b bytes rest hwrites
    split at h
    · rename_i hfull
      cases h
      exact ⟨hfull.1, hfull.2, b, bytes, rest, hwrites⟩
    · cases h
  · cases h

theorem blocked_of_full {b : UInt8} {bytes : List UInt8} {rest : List (Port × List UInt8)}
    (halive : s.alive = true) (hwrites : s.writes = (p, b :: bytes) :: rest)
    (hfull : pipes.capacity p ≤ (s.pipe p).length) : s.blocked pipes = some p := by
  unfold State.blocked
  rw [hwrites]
  exact if_pos ⟨halive, hfull⟩

end Bytes

/-- What holds of every state: no byte is lost or made up, a pipe holds no more than
it can, and the phase of the parent agrees with the child. -/
structure Inv (child : Child) (s : State) : Prop where
  bytes : ∀ p, s.got p ++ (s.pipe p ++ written p s.writes) = written p child.writes
  fits : ∀ p, (s.pipe p).length ≤ pipes.capacity p
  done : s.exited.isSome → s.writes = []
  eof : ∀ p, s.eof p = true → s.pipe p = [] ∧ s.alive = false
  waiting : s.phase = .polling ∨ s.phase = .looked → s.killed = false
  collecting : s.phase = .collecting → s.killed = false ∧ s.exited.isSome
  output : ∀ out err, s.phase = .ended (.output out err) → s.killed = false ∧
    s.exited.isSome ∧ out = written .out child.writes ∧ err = written .err child.writes
  gaveUp : s.killed = true ↔ s.phase = .killed ∨ s.phase = .ended .timeout

section Steps

variable {r pipes} {child : Child} {s : State}

theorem inv_start (child : Child) : Inv pipes child (State.start child) := by
  refine ⟨fun _ => rfl, fun _ => Nat.zero_le _, ?_, ?_, fun _ => rfl, ?_, ?_, ?_⟩
  · intro h
    cases h
  · intro p h
    cases h
  · intro h
    cases h
  · intro out err h
    cases h
  · exact iff_of_false (by simp [State.start]) (by simp [State.start])

theorem Inv.write (h : Inv pipes child s) (n : ℕ) : Inv pipes child (step r pipes s (.write n)) := by
  simp only [step]
  split
  · rename_i p bytes rest hwrites
    split
    · rename_i hroom
      obtain ⟨halive, hlen, hcap⟩ := hroom
      refine ⟨?_, ?_, ?_, ?_, h.waiting, h.collecting, h.output, h.gaveUp⟩
      · intro q
        have hbytes := h.bytes q
        rw [hwrites] at hbytes
        by_cases hq : p = q
        · subst hq
          rw [written_cons_self] at hbytes
          simp only [Function.update_self]
          rw [written_cons_self, List.append_assoc (s.pipe p), ← List.append_assoc (bytes.take n),
            List.take_append_drop]
          exact hbytes
        · rw [written_cons_ne hq] at hbytes
          simp only [Function.update_of_ne (Ne.symm hq)]
          rw [written_cons_ne hq]
          exact hbytes
      · intro q
        by_cases hq : q = p
        · subst hq
          simp only [Function.update_self]
          rw [List.length_append, List.length_take]
          omega
        · simp only [Function.update_of_ne hq]
          exact h.fits q
      · intro hexited
        have hnil := h.done hexited
        rw [hwrites] at hnil
        cases hnil
      · intro q heof
        have hdead := (h.eof q heof).2
        rw [halive] at hdead
        cases hdead
    · exact h
  · exact h

theorem Inv.next (h : Inv pipes child s) : Inv pipes child (step r pipes s .next) := by
  simp only [step]
  split
  · rename_i p rest hwrites
    split
    · refine ⟨?_, h.fits, ?_, h.eof, h.waiting, h.collecting, h.output, h.gaveUp⟩
      · intro q
        have hbytes := h.bytes q
        rw [hwrites, written_cons_nil] at hbytes
        exact hbytes
      · intro hexited
        have hnil := h.done hexited
        rw [hwrites] at hnil
        cases hnil
    · exact h
  · exact h

theorem Inv.exit (h : Inv pipes child s) : Inv pipes child (step r pipes s .exit) := by
  simp only [step]
  split
  · rename_i hdone
    obtain ⟨halive, hwrites⟩ := hdone
    refine ⟨h.bytes, h.fits, fun _ => hwrites, ?_, h.waiting, ?_, ?_, h.gaveUp⟩
    · intro p heof
      have hdead := (h.eof p heof).2
      rw [halive] at hdead
      cases hdead
    · exact fun hphase => ⟨(h.collecting hphase).1, rfl⟩
    · intro out err hphase
      obtain ⟨hkilled, -, hout⟩ := h.output out err hphase
      exact ⟨hkilled, rfl, hout⟩
  · exact h

theorem Inv.read (h : Inv pipes child s) (p : Port) (n : ℕ) :
    Inv pipes child (step r pipes s (.read p n)) := by
  simp only [step]
  split
  · rename_i hreading
    refine ⟨?_, ?_, h.done, ?_, h.waiting, h.collecting, h.output, h.gaveUp⟩
    · intro q
      by_cases hq : q = p
      · subst hq
        simp only [Function.update_self]
        rw [List.append_assoc, ← List.append_assoc (List.take n (s.pipe q)),
          List.take_append_drop]
        exact h.bytes q
      · simp only [Function.update_of_ne hq]
        exact h.bytes q
    · intro q
      by_cases hq : q = p
      · subst hq
        simp only [Function.update_self]
        have hfits := h.fits q
        rw [List.length_drop]
        omega
      · simp only [Function.update_of_ne hq]
        exact h.fits q
    · intro q heof
      obtain ⟨hempty, hdead⟩ := h.eof q heof
      refine ⟨?_, hdead⟩
      by_cases hq : q = p
      · subst hq
        simp only [Function.update_self]
        rw [hempty, List.drop_nil]
      · simp only [Function.update_of_ne hq]
        exact hempty
  · exact h

theorem Inv.closes (h : Inv pipes child s) (p : Port) :
    Inv pipes child (step r pipes s (.eof p)) := by
  simp only [step]
  split
  · rename_i hclosed
    refine ⟨h.bytes, h.fits, h.done, ?_, h.waiting, h.collecting, h.output, h.gaveUp⟩
    intro q heof
    by_cases hq : q = p
    · subst hq
      exact ⟨hclosed.2.1, hclosed.2.2⟩
    · simp only [Function.update_of_ne hq] at heof
      exact h.eof q heof
  · exact h

theorem Inv.poll (h : Inv pipes child s) : Inv pipes child (step r pipes s .poll) := by
  simp only [step]
  split
  · rename_i hphase
    have hkilled := h.waiting (Or.inl hphase)
    have hnot : ¬ s.killed = true := by simp [hkilled]
    split
    · rename_i hexited
      refine ⟨h.bytes, h.fits, h.done, h.eof, ?_, fun _ => ⟨hkilled, hexited⟩, ?_,
        iff_of_false hnot (by simp)⟩
      · rintro (hp | hp) <;> cases hp
      · intro out err hp
        cases hp
    · split
      · refine ⟨h.bytes, h.fits, h.done, h.eof, fun _ => hkilled, ?_, ?_,
          iff_of_false hnot (by simp)⟩
        · intro hp
          cases hp
        · intro out err hp
          cases hp
      · exact h
  · exact h

theorem Inv.check (h : Inv pipes child s) : Inv pipes child (step r pipes s .check) := by
  simp only [step]
  split
  · rename_i hphase
    have hkilled := h.waiting (Or.inr hphase)
    have hnot : ¬ s.killed = true := by simp [hkilled]
    have hpolling : Inv pipes child { s with phase := .polling } := by
      refine ⟨h.bytes, h.fits, h.done, h.eof, fun _ => hkilled, ?_, ?_,
        iff_of_false hnot (by simp)⟩
      · intro hp
        cases hp
      · intro out err hp
        cases hp
    split
    · split
      · refine ⟨h.bytes, h.fits, h.done, ?_, ?_, ?_, ?_, iff_of_true rfl (Or.inl rfl)⟩
        · intro p heof
          exact ⟨(h.eof p heof).1, by simp [State.alive]⟩
        · rintro (hp | hp) <;> cases hp
        · intro hp
          cases hp
        · intro out err hp
          cases hp
      · exact hpolling
    · exact hpolling
  · exact h

theorem Inv.finish (h : Inv pipes child s) : Inv pipes child (step r pipes s .finish) := by
  simp only [step]
  split
  · rename_i hphase
    split
    · rename_i heof
      obtain ⟨hkilled, hexited⟩ := h.collecting hphase
      have hall : ∀ p, s.eof p = true → s.got p = written p child.writes := by
        intro p hp
        have hbytes := h.bytes p
        rw [(h.eof p hp).1, h.done hexited, written_nil, List.append_nil, List.append_nil] at hbytes
        exact hbytes
      refine ⟨h.bytes, h.fits, h.done, h.eof, ?_, ?_, ?_, ?_⟩
      · rintro (hp | hp) <;> cases hp
      · intro hp
        cases hp
      · intro out err hp
        cases hp
        exact ⟨hkilled, hexited, hall .out heof.1, hall .err heof.2⟩
      · exact iff_of_false (by simp [hkilled]) (by simp)
    · exact h
  · rename_i hphase
    have hkilled := h.gaveUp.mpr (Or.inl hphase)
    split
    · refine ⟨h.bytes, h.fits, h.done, h.eof, ?_, ?_, ?_, iff_of_true hkilled (Or.inr rfl)⟩
      · rintro (hp | hp) <;> cases hp
      · intro hp
        cases hp
      · intro out err hp
        cases hp
    · exact h
  · exact h

theorem Inv.step (h : Inv pipes child s) (e : Event) : Inv pipes child (step r pipes s e) := by
  cases e with
  | write n => exact h.write n
  | next => exact h.next
  | exit => exact h.exit
  | read p n => exact h.read p n
  | eof p => exact h.closes p
  | poll => exact h.poll
  | check => exact h.check
  | finish => exact h.finish
  | tick => exact ⟨h.bytes, h.fits, h.done, h.eof, h.waiting, h.collecting, h.output, h.gaveUp⟩

theorem inv_run (h : Inv pipes child s) (events : List Event) :
    Inv pipes child (run (Piped.step r pipes) s events) := by
  apply run_invariant (P := fun _ _ => True) (I := Inv pipes child)
  · exact fun s e hs _ => hs.step e
  · exact along_of_forall _ (fun _ _ => trivial) s events
  · exact h

theorem inv_reach (r : Runner) (pipes : Pipes) (child : Child) (events : List Event) :
    Inv pipes child (reach r pipes child events) :=
  inv_run (inv_start child) events

end Steps

section Deadlock

variable {r pipes} {child : Child} {s : State} {p : Port}

/-- A full pipe with a byte to come holds less than what is written to it. -/
theorem capacity_lt_written (h : Inv pipes child s) (hblocked : s.blocked pipes = some p) :
    pipes.capacity p < (written p child.writes).length := by
  obtain ⟨-, hfull, b, bytes, rest, hwrites⟩ := blocked_some hblocked
  rw [← h.bytes p, hwrites, written_cons_self]
  simp only [List.length_append, List.length_cons]
  omega

theorem reading_of_alive (h : Inv pipes child s) (hconcurrent : r.concurrent = true)
    (halive : s.alive = true) (p : Port) : s.reading r p = true := by
  have heof : s.eof p = false := by
    by_contra hne
    have hdead := (h.eof p (by simpa using hne)).2
    rw [halive] at hdead
    cases hdead
  simp [State.reading, hconcurrent, heof]

theorem not_unread (h : Inv pipes child s) (hdrained : Drained r pipes child) :
    s.unread r pipes = false := by
  unfold State.unread
  split
  · rename_i p hblocked
    rcases hdrained with hconcurrent | hfits
    · rw [reading_of_alive h hconcurrent (blocked_some hblocked).1]
      rfl
    · have hlt := capacity_lt_written h hblocked
      have hle := hfits p
      omega
  · rfl

theorem not_stuck (h : Inv pipes child s) (hdrained : Drained r pipes child) :
    ¬ Stuck r pipes s := by
  rintro ⟨hsome, hforever⟩
  obtain ⟨p, hblocked⟩ := Option.isSome_iff_exists.mp hsome
  obtain ⟨halive, hfull, b, bytes, rest, hwrites⟩ := blocked_some hblocked
  rcases hdrained with hconcurrent | hfits
  · have hreading := reading_of_alive h hconcurrent halive p
    have hstep : run (step r pipes) s [.read p (s.pipe p).length] =
        { s with
          got := Function.update s.got p (s.got p ++ (s.pipe p).take (s.pipe p).length)
          pipe := Function.update s.pipe p ((s.pipe p).drop (s.pipe p).length) } := by
      simp only [run_cons, run_nil, step]
      rw [if_pos hreading]
    have hstill := hforever [.read p (s.pipe p).length] (by rw [hstep]; exact halive)
    rw [hstep] at hstill
    obtain ⟨q, hq⟩ := Option.isSome_iff_exists.mp hstill
    obtain ⟨-, hfull', b', bytes', rest', hwrites'⟩ := blocked_some hq
    simp only at hfull' hwrites'
    rw [hwrites] at hwrites'
    cases hwrites'
    have hpos := pipes.pos p
    rw [Function.update_self, List.drop_length, List.length_nil] at hfull'
    omega
  · have hlt := capacity_lt_written h hblocked
    have hle := hfits p
    omega

theorem step_dead (h : s.alive = false) (e : Event) : (step r pipes s e).alive = false := by
  cases e with
  | write n =>
    simp only [step]
    split
    · split
      · exact h
      · exact h
    · exact h
  | next =>
    simp only [step]
    split
    · split
      · exact h
      · exact h
    · exact h
  | exit =>
    simp only [step]
    rw [if_neg (by simp [h])]
    exact h
  | read p n =>
    simp only [step]
    split
    · exact h
    · exact h
  | eof p =>
    simp only [step]
    split
    · exact h
    · exact h
  | poll =>
    simp only [step]
    split
    · split
      · exact h
      · split
        · exact h
        · exact h
    · exact h
  | check =>
    simp only [step]
    split
    · split
      · split
        · simp [State.alive]
        · exact h
      · exact h
    · exact h
  | finish =>
    simp only [step]
    split
    · split
      · exact h
      · exact h
    · split
      · exact h
      · exact h
    · exact h
  | tick => exact h

/-- The child stands before a full pipe and the parent does not read. -/
def Starved (p : Port) (writes : List (Port × List UInt8)) (full : List UInt8) (s : State) : Prop :=
  s.alive = true →
    s.writes = writes ∧ s.pipe p = full ∧ (s.phase = .polling ∨ s.phase = .looked)

theorem Starved.step {writes rest : List (Port × List UInt8)} {full : List UInt8} {b : UInt8}
    {bytes : List UInt8} (hnone : r.concurrent = false) (hwrites : writes = (p, b :: bytes) :: rest)
    (hfull : pipes.capacity p ≤ full.length) (h : Starved p writes full s) (e : Event) :
    Starved p writes full (step r pipes s e) := by
  subst hwrites
  by_cases halive : s.alive = true
  · obtain ⟨hw, hp, hphase⟩ := h halive
    have hsilent : ∀ q, s.reading r q = false := by
      intro q
      rcases hphase with hphase | hphase <;> simp [State.reading, hnone, hphase]
    cases e with
    | write n =>
      simp only [Piped.step]
      rw [hw]
      simp only
      split
      · rename_i hroom
        have hzero : n = 0 := by
          rw [hp] at hroom
          omega
        rw [hzero, List.drop_zero, List.take_zero, List.append_nil, Function.update_eq_self]
        intro _
        exact ⟨rfl, hp, hphase⟩
      · exact h
    | next =>
      simp only [Piped.step]
      rw [hw]
      exact h
    | exit =>
      simp only [Piped.step]
      rw [if_neg (by rw [hw]; simp)]
      exact h
    | read q n =>
      simp only [Piped.step]
      rw [if_neg (by rw [hsilent q]; simp)]
      exact h
    | eof q =>
      simp only [Piped.step]
      rw [if_neg (by rw [hsilent q]; simp)]
      exact h
    | poll =>
      have hexited : s.exited.isSome = false := by
        revert halive
        unfold State.alive
        cases s.exited <;> simp
      simp only [Piped.step]
      split
      · rw [if_neg (by simp [hexited])]
        split
        · exact fun _ => ⟨hw, hp, Or.inr rfl⟩
        · exact h
      · exact h
    | check =>
      simp only [Piped.step]
      split
      · split
        · split
          · intro hdead
            simp [State.alive] at hdead
          · exact fun _ => ⟨hw, hp, Or.inl rfl⟩
        · exact fun _ => ⟨hw, hp, Or.inl rfl⟩
      · exact h
    | finish =>
      simp only [Piped.step]
      split
      · rename_i hcollecting
        rw [hcollecting] at hphase
        simp at hphase
      · rename_i hkilled
        rw [hkilled] at hphase
        simp at hphase
      · exact h
    | tick => exact h
  · intro hstill
    rw [step_dead (by simpa using halive)] at hstill
    cases hstill

theorem stuck_of_blocked (hnone : r.concurrent = false) (hblocked : s.blocked pipes = some p)
    (hphase : s.phase = .polling) : Stuck r pipes s := by
  obtain ⟨halive, hfull, b, bytes, rest, hwrites⟩ := blocked_some hblocked
  refine ⟨by rw [hblocked]; rfl, ?_⟩
  intro events hstill
  have hstarved : Starved p s.writes (s.pipe p) (run (step r pipes) s events) := by
    apply run_invariant (P := fun _ _ => True) (I := Starved p s.writes (s.pipe p))
    · exact fun s' e hs _ => hs.step hnone hwrites hfull e
    · exact along_of_forall _ (fun _ _ => trivial) s events
    · exact fun _ => ⟨rfl, rfl, Or.inl hphase⟩
  obtain ⟨hw, hp, -⟩ := hstarved hstill
  rw [hwrites] at hw
  rw [← hp] at hfull
  rw [blocked_of_full hstill hw hfull]
  rfl

/-- Left to itself the child writes until it is through or waits for a pipe. -/
theorem writes_until {writes : List (Port × List UInt8)} (halive : s.alive = true)
    (hinv : Inv pipes child s) (hwrites : s.writes = writes) : ∃ events,
    (run (step r pipes) s events).phase = s.phase ∧ (run (step r pipes) s events).alive = true ∧
      (∀ q, (run (step r pipes) s events).got q = s.got q) ∧
      (((run (step r pipes) s events).blocked pipes).isSome ∨
        (run (step r pipes) s events).writes = []) := by
  induction writes generalizing s with
  | nil => exact ⟨[], rfl, halive, fun _ => rfl, Or.inr hwrites⟩
  | cons w rest ih =>
    obtain ⟨p, bytes⟩ := w
    have hfits := hinv.fits p
    -- the write goes as far as the pipe has room
    let n := min bytes.length (pipes.capacity p - (s.pipe p).length)
    have hstep : step r pipes s (.write n) =
        { s with
          writes := (p, bytes.drop n) :: rest
          pipe := Function.update s.pipe p (s.pipe p ++ bytes.take n) } := by
      simp only [step]
      rw [hwrites]
      exact if_pos ⟨halive, by omega, by omega⟩
    have hinv' := hinv.step (r := r) (.write n)
    rw [hstep] at hinv'
    by_cases hroom : (s.pipe p).length + bytes.length ≤ pipes.capacity p
    · have hall : bytes.drop n = [] := by
        rw [List.drop_eq_nil_iff]
        omega
      rw [hall] at hstep hinv'
      have hnext : step r pipes (step r pipes s (.write n)) .next =
          { s with
            writes := rest
            pipe := Function.update s.pipe p (s.pipe p ++ bytes.take n) } := by
        rw [hstep]
        simp only [step]
        exact if_pos halive
      have hinv'' := hinv'.step (r := r) .next
      rw [← hstep, hnext] at hinv''
      obtain ⟨events, hphase, halive', hgot, hend⟩ := ih (s := { s with
        writes := rest
        pipe := Function.update s.pipe p (s.pipe p ++ bytes.take n) }) halive hinv'' rfl
      refine ⟨.write n :: .next :: events, ?_⟩
      rw [run_cons, run_cons, hnext]
      exact ⟨hphase, halive', hgot, hend⟩
    · cases htail : bytes.drop n with
      | nil =>
        rw [List.drop_eq_nil_iff] at htail
        omega
      | cons b more =>
        refine ⟨[.write n], ?_, ?_, ?_, Or.inl ?_⟩
        · rw [run_cons, run_nil, hstep]
        · rw [run_cons, run_nil, hstep]
          exact halive
        · rw [run_cons, run_nil, hstep]
          exact fun _ => rfl
        · rw [run_cons, run_nil, hstep, htail]
          have hfull : pipes.capacity p ≤
              (Function.update s.pipe p (s.pipe p ++ bytes.take n) p).length := by
            rw [Function.update_self, List.length_append, List.length_take]
            omega
          have hblocked : State.blocked pipes { s with
              writes := (p, b :: more) :: rest
              pipe := Function.update s.pipe p (s.pipe p ++ bytes.take n) } = some p :=
            blocked_of_full halive rfl hfull
          rw [hblocked]
          rfl

/-- A child that writes more than a pipe holds is brought to a deadlock. -/
theorem exists_stuck (hundrained : ¬ Drained r pipes child) :
    ∃ events, Stuck r pipes (reach r pipes child events) := by
  obtain ⟨hnone, hbig⟩ := not_or.mp hundrained
  have hnone : r.concurrent = false := by simpa using hnone
  obtain ⟨p, hp⟩ := not_forall.mp hbig
  obtain ⟨events, hphase, halive, hgot, hend⟩ :=
    writes_until (r := r) (s := State.start child) rfl (inv_start child) rfl
  have hinv : Inv pipes child (run (step r pipes) (State.start child) events) :=
    inv_run (inv_start child) events
  refine ⟨events, ?_⟩
  unfold reach
  rcases hend with hblocked | hwrites
  · obtain ⟨q, hq⟩ := Option.isSome_iff_exists.mp hblocked
    exact stuck_of_blocked hnone hq hphase
  · have hbytes := hinv.bytes p
    have hfits := hinv.fits p
    rw [hgot p, hwrites, written_nil, List.append_nil] at hbytes
    have hempty : (State.start child).got p = [] := rfl
    rw [hempty, List.nil_append] at hbytes
    rw [hbytes] at hfits
    exact absurd hfits hp

theorem never_stuck_iff (child : Child) :
    (∀ events, ¬ Stuck r pipes (reach r pipes child events)) ↔ Drained r pipes child := by
  constructor
  · intro h
    by_contra hundrained
    obtain ⟨events, hstuck⟩ := exists_stuck hundrained
    exact h events hstuck
  · exact fun hdrained events => not_stuck (inv_reach r pipes child events) hdrained

end Deadlock

section Timeouts

variable {r pipes} {child : Child} {s : State}

/-- The parent gives up only after its limit, none of it lost to a pipe that nobody
read, and on a child that had not exited by then. -/
structure Earned (r : Runner) (s : State) : Prop where
  lost : s.lost = 0
  looked : s.phase = .looked → ∀ t, s.exited = some t → ∀ limit, r.limit = some limit →
    limit ≤ s.clock → limit ≤ t
  killed : s.killed = true → ∃ limit, r.limit = some limit ∧ limit ≤ s.clock ∧
    ∀ t, s.exited = some t → limit ≤ t

theorem Earned.step (h : Earned r s) (hinv : Inv pipes child s) (hdrained : Drained r pipes child)
    {e : Event} (hprompt : s.phase = .looked → s.exited.isSome → e = .tick →
      ∀ limit, r.limit = some limit → s.clock + 1 ≠ limit) : Earned r (step r pipes s e) := by
  cases e with
  | write n =>
    simp only [Piped.step]
    split
    · split
      · exact ⟨h.lost, h.looked, h.killed⟩
      · exact h
    · exact h
  | next =>
    simp only [Piped.step]
    split
    · split
      · exact ⟨h.lost, h.looked, h.killed⟩
      · exact h
    · exact h
  | exit =>
    simp only [Piped.step]
    split
    · rename_i hdone
      refine ⟨h.lost, ?_, ?_⟩
      · intro _ t ht limit _ hpast
        cases ht
        exact hpast
      · intro hkilled
        have halive := hdone.1
        simp only at hkilled
        simp [State.alive, hkilled] at halive
    · exact h
  | read p n =>
    simp only [Piped.step]
    split
    · exact ⟨h.lost, h.looked, h.killed⟩
    · exact h
  | eof p =>
    simp only [Piped.step]
    split
    · exact ⟨h.lost, h.looked, h.killed⟩
    · exact h
  | poll =>
    simp only [Piped.step]
    split
    · split
      · refine ⟨h.lost, ?_, h.killed⟩
        intro hp
        cases hp
      · rename_i hexited
        split
        · refine ⟨h.lost, ?_, h.killed⟩
          intro _ t ht
          simp only at ht
          rw [ht] at hexited
          exact absurd rfl hexited
        · exact h
    · exact h
  | check =>
    have hpolling : Earned r { s with phase := .polling } := by
      refine ⟨h.lost, ?_, h.killed⟩
      intro hp
      cases hp
    simp only [Piped.step]
    split
    · rename_i hlooked
      split
      · rename_i limit hlimit
        split
        · rename_i hpast
          refine ⟨h.lost, ?_, ?_⟩
          · intro hp
            cases hp
          · intro _
            refine ⟨limit, hlimit, hpast, ?_⟩
            exact fun t ht => h.looked hlooked t ht limit hlimit hpast
        · exact hpolling
      · exact hpolling
    · exact h
  | finish =>
    simp only [Piped.step]
    split
    · split
      · refine ⟨h.lost, ?_, h.killed⟩
        intro hp
        cases hp
      · exact h
    · split
      · refine ⟨h.lost, ?_, h.killed⟩
        intro hp
        cases hp
      · exact h
    · exact h
  | tick =>
    simp only [Piped.step, not_unread hinv hdrained, Bool.false_eq_true, if_false]
    refine ⟨h.lost, ?_, ?_⟩
    · intro hlooked t ht limit hlimit hpast
      have hne := hprompt hlooked (Option.isSome_of_eq_some ht) rfl limit hlimit
      simp only at hpast
      exact h.looked hlooked t ht limit hlimit (by omega)
    · intro hkilled
      obtain ⟨limit, hlimit, hpast, hexited⟩ := h.killed hkilled
      exact ⟨limit, hlimit, Nat.le_succ_of_le hpast, hexited⟩

theorem earned_reach (hdrained : Drained r pipes child) {events : List Event}
    (hprompt : Prompt r pipes child events) : Earned r (reach r pipes child events) := by
  have hstart : Earned r (State.start child) := by
    refine ⟨rfl, ?_, ?_⟩
    · intro hp
      cases hp
    · intro hk
      cases hk
  have hboth : Inv pipes child (reach r pipes child events) ∧
      Earned r (reach r pipes child events) := by
    apply run_invariant (I := fun s => Inv pipes child s ∧ Earned r s) _ _ _ _ hprompt
    · exact ⟨inv_start child, hstart⟩
    · exact fun s e hs hp => ⟨hs.1.step e, hs.2.step hs.1 hdrained hp⟩
  exact hboth.2

end Timeouts

section Delivery

variable {r pipes} {child : Child} {s s' s'' : State}

/-- One state leads to another without time passing. -/
def Leads (r : Runner) (pipes : Pipes) (s s' : State) : Prop :=
  ∃ events, Event.tick ∉ events ∧ run (step r pipes) s events = s'

theorem Leads.refl (r : Runner) (pipes : Pipes) (s : State) : Leads r pipes s s :=
  ⟨[], List.not_mem_nil, rfl⟩

theorem Leads.trans (h : Leads r pipes s s') (h' : Leads r pipes s' s'') :
    Leads r pipes s s'' := by
  obtain ⟨events, hfree, rfl⟩ := h
  obtain ⟨events', hfree', rfl⟩ := h'
  refine ⟨events ++ events', ?_, run_append _ _ _ _⟩
  rw [List.mem_append]
  rintro (h | h)
  · exact hfree h
  · exact hfree' h

theorem Leads.step {e : Event} (h : Leads r pipes s s') (he : e ≠ .tick) :
    Leads r pipes s (step r pipes s' e) := by
  apply h.trans
  refine ⟨[e], ?_, rfl⟩
  rw [List.mem_singleton]
  exact Ne.symm he

theorem Leads.inv (h : Leads r pipes s s') (hinv : Inv pipes child s) : Inv pipes child s' := by
  obtain ⟨events, -, rfl⟩ := h
  exact inv_run hinv events

/-- How much the child still has to do. -/
def work (writes : List (Port × List UInt8)) : ℕ := (writes.map fun w => w.2.length + 1).sum

/-- The parent and the clock stand where they stood, and the child lives. -/
def Beside (s s' : State) : Prop :=
  s'.alive = true ∧ s'.phase = s.phase ∧ s'.clock = s.clock

/-- There is room in a pipe, or its reader makes some. -/
theorem leads_room {p : Port} {b : UInt8} {bytes : List UInt8}
    {rest : List (Port × List UInt8)} (hinv : Inv pipes child s) (hdrained : Drained r pipes child)
    (halive : s.alive = true) (hwrites : s.writes = (p, b :: bytes) :: rest) :
    ∃ s', Leads r pipes s s' ∧ Beside s s' ∧ s'.writes = s.writes ∧
      (s'.pipe p).length < pipes.capacity p := by
  by_cases hroom : (s.pipe p).length < pipes.capacity p
  · exact ⟨s, Leads.refl r pipes s, ⟨halive, rfl, rfl⟩, rfl, hroom⟩
  · have hblocked : s.blocked pipes = some p := blocked_of_full halive hwrites (by omega)
    rcases hdrained with hconcurrent | hfits
    · have hreading := reading_of_alive hinv hconcurrent halive p
      have hleads := (Leads.refl r pipes s).step
        (e := .read p (s.pipe p).length) (by simp)
      have hstep : step r pipes s (.read p (s.pipe p).length) =
          { s with
            got := Function.update s.got p (s.got p ++ (s.pipe p).take (s.pipe p).length)
            pipe := Function.update s.pipe p ((s.pipe p).drop (s.pipe p).length) } := by
        simp only [step]
        exact if_pos hreading
      rw [hstep] at hleads
      refine ⟨_, hleads, ⟨halive, rfl, rfl⟩, rfl, ?_⟩
      simp only [Function.update_self, List.drop_length]
      exact pipes.pos p
    · have hlt := capacity_lt_written hinv hblocked
      have hle := hfits p
      omega

theorem leads_written (hinv : Inv pipes child s) (hdrained : Drained r pipes child)
    (halive : s.alive = true) :
    ∃ s', Leads r pipes s s' ∧ Beside s s' ∧ s'.writes = [] := by
  generalize hwork : work s.writes = n
  induction n using Nat.strongRecOn generalizing s with
  | _ n ih =>
    match hwrites : s.writes with
    | [] => exact ⟨s, Leads.refl r pipes s, ⟨halive, rfl, rfl⟩, hwrites⟩
    | (p, []) :: rest =>
      have hleads := (Leads.refl r pipes s).step (e := .next) (by simp)
      have hstep : step r pipes s .next = { s with writes := rest } := by
        simp only [step]
        rw [hwrites]
        exact if_pos halive
      rw [hstep] at hleads
      have hless : work rest < n := by
        rw [← hwork, hwrites]
        simp [work]
      obtain ⟨s', hs', hbeside, hnil⟩ := ih (work rest) hless (hleads.inv hinv) halive rfl
      exact ⟨s', hleads.trans hs', hbeside, hnil⟩
    | (p, b :: bytes) :: rest =>
      obtain ⟨room, hroom, ⟨halive', hphase, hclock⟩, hsame, hlt⟩ :=
        leads_room hinv hdrained halive hwrites
      rw [hwrites] at hsame
      have hleads := hroom.step (e := .write 1) (by simp)
      have hstep : step r pipes room (.write 1) =
          { room with
            writes := (p, bytes) :: rest
            pipe := Function.update room.pipe p (room.pipe p ++ [b]) } := by
        simp only [step]
        rw [hsame]
        exact if_pos ⟨halive', by simp, by omega⟩
      rw [hstep] at hleads
      have hless : work ((p, bytes) :: rest) < n := by
        rw [← hwork, hwrites]
        simp [work]
      obtain ⟨s', hs', hbeside, hnil⟩ := ih _ hless (hleads.inv hinv) halive' rfl
      exact ⟨s', hleads.trans hs',
        ⟨hbeside.1, hbeside.2.1.trans hphase, hbeside.2.2.trans hclock⟩, hnil⟩

/-- A child that nobody has killed gets to its exit. -/
theorem leads_exited (hinv : Inv pipes child s) (hdrained : Drained r pipes child)
    (hkilled : s.killed = false) :
    ∃ s', Leads r pipes s s' ∧ s'.exited.isSome ∧ s'.phase = s.phase ∧ s'.clock = s.clock := by
  by_cases halive : s.alive = true
  · obtain ⟨s', hleads, ⟨halive', hphase, hclock⟩, hnil⟩ := leads_written hinv hdrained halive
    have hnext := hleads.step (e := .exit) (by simp)
    have hstep : step r pipes s' .exit = { s' with exited := some s'.clock } := by
      simp only [step]
      exact if_pos ⟨halive', hnil⟩
    rw [hstep] at hnext
    exact ⟨_, hnext, rfl, hphase, hclock⟩
  · refine ⟨s, Leads.refl r pipes s, ?_, rfl, rfl⟩
    revert halive
    unfold State.alive
    rw [hkilled]
    cases s.exited <;> simp

theorem leads_eof (hinv : Inv pipes child s) (hphase : s.phase = .collecting) (p : Port) :
    ∃ s', Leads r pipes s s' ∧ s'.phase = .collecting ∧ s'.eof p = true ∧
      ∀ q, s.eof q = true → s'.eof q = true := by
  by_cases heof : s.eof p = true
  · exact ⟨s, Leads.refl r pipes s, hphase, heof, fun q hq => hq⟩
  · have hreading : s.reading r p = true := by simp [State.reading, hphase, heof]
    have hread := (Leads.refl r pipes s).step
      (e := .read p (s.pipe p).length) (by simp)
    have hstep : step r pipes s (.read p (s.pipe p).length) =
        { s with
          got := Function.update s.got p (s.got p ++ (s.pipe p).take (s.pipe p).length)
          pipe := Function.update s.pipe p ((s.pipe p).drop (s.pipe p).length) } := by
      simp only [step]
      exact if_pos hreading
    have hclose := hread.step (e := .eof p) (by simp)
    have hdead : s.alive = false := by
      have hexited := (hinv.collecting hphase).2
      unfold State.alive
      rw [← Option.not_isSome, hexited]
      rfl
    rw [hstep] at hclose
    have hstep' : step r pipes { s with
        got := Function.update s.got p (s.got p ++ (s.pipe p).take (s.pipe p).length)
        pipe := Function.update s.pipe p ((s.pipe p).drop (s.pipe p).length) } (.eof p) =
        { s with
          got := Function.update s.got p (s.got p ++ (s.pipe p).take (s.pipe p).length)
          pipe := Function.update s.pipe p ((s.pipe p).drop (s.pipe p).length)
          eof := Function.update s.eof p true } := by
      simp only [step]
      refine if_pos ⟨hreading, ?_, hdead⟩
      rw [Function.update_self, List.drop_length]
    rw [hstep'] at hclose
    refine ⟨_, hclose, hphase, ?_, ?_⟩
    · simp only [Function.update_self]
    · intro q hq
      by_cases hqp : q = p
      · simp only [hqp, Function.update_self]
      · simp only [Function.update_of_ne hqp]
        exact hq

theorem leads_collected (hinv : Inv pipes child s) (hphase : s.phase = .collecting) :
    ∃ s', Leads r pipes s s' ∧ s'.phase =
      .ended (.output (written .out child.writes) (written .err child.writes)) := by
  obtain ⟨s₁, hleads₁, hphase₁, heof₁, -⟩ := leads_eof (r := r) hinv hphase .out
  obtain ⟨s₂, hleads₂, hphase₂, heof₂, hkept⟩ := leads_eof (r := r) (hleads₁.inv hinv) hphase₁ .err
  have hleads := (hleads₁.trans hleads₂).step (e := .finish) (by simp)
  have hstep : step r pipes s₂ .finish =
      { s₂ with phase := .ended (.output (s₂.got .out) (s₂.got .err)) } := by
    simp only [step]
    rw [hphase₂]
    exact if_pos ⟨hkept .out heof₁, heof₂⟩
  rw [hstep] at hleads
  obtain ⟨-, -, hout, herr⟩ := (hleads.inv hinv).output _ _ rfl
  refine ⟨_, hleads, ?_⟩
  rw [← hout, ← herr]

/-- As long as the parent has not given up, and is not about to, the child can get
to its end and all of its output be delivered before the clock moves. -/
theorem leads_delivered (hinv : Inv pipes child s) (hdrained : Drained r pipes child)
    (hphase : s.phase = .polling ∨ s.phase = .collecting ∨
      s.phase = .looked ∧ ∀ limit, r.limit = some limit → s.clock < limit) :
    ∃ s', Leads r pipes s s' ∧ s'.phase =
      .ended (.output (written .out child.writes) (written .err child.writes)) := by
  have hpolling : ∀ s, Inv pipes child s → s.phase = .polling →
      ∃ s', Leads r pipes s s' ∧ s'.phase =
        .ended (.output (written .out child.writes) (written .err child.writes)) := by
    intro s hinv hphase
    obtain ⟨s', hleads, hexited, hsame, -⟩ :=
      leads_exited hinv hdrained (hinv.waiting (Or.inl hphase))
    have hnext := hleads.step (e := .poll) (by simp)
    have hstep : step r pipes s' .poll = { s' with phase := .collecting } := by
      simp only [step]
      rw [if_pos (hsame.trans hphase), if_pos hexited]
    rw [hstep] at hnext
    obtain ⟨s'', hleads', hend⟩ := leads_collected (r := r) (hnext.inv hinv) rfl
    exact ⟨s'', hnext.trans hleads', hend⟩
  rcases hphase with hphase | hphase | ⟨hphase, hearly⟩
  · exact hpolling s hinv hphase
  · exact leads_collected hinv hphase
  · have hnext := (Leads.refl r pipes s).step (e := .check) (by simp)
    have hstep : step r pipes s .check = { s with phase := .polling } := by
      simp only [step]
      rw [if_pos hphase]
      split
      · rename_i limit hlimit
        have hlt := hearly limit hlimit
        rw [if_neg (by omega)]
      · rfl
    rw [hstep] at hnext
    obtain ⟨s', hleads, hend⟩ := hpolling _ (hnext.inv hinv) rfl
    exact ⟨s', hnext.trans hleads, hend⟩

end Delivery

/-- What a runner owes a child: no deadlock, its whole output once it has exited, a
timeout only when the child had its time and did not exit in it, and an end that is
always in reach. -/
structure Serves (child : Child) : Prop where
  live : ∀ events, ¬ Stuck r pipes (reach r pipes child events)
  complete : ∀ events out err, (reach r pipes child events).phase = .ended (.output out err) →
    out = written .out child.writes ∧ err = written .err child.writes
  earned : ∀ events, Prompt r pipes child events → (reach r pipes child events).killed = true →
    ∃ limit, r.limit = some limit ∧
      limit ≤ (reach r pipes child events).clock - (reach r pipes child events).lost ∧
      ∀ t, (reach r pipes child events).exited = some t → limit ≤ t
  delivered : ∀ events, (reach r pipes child events).killed = false →
    ((reach r pipes child events).phase = .looked →
      ∀ limit, r.limit = some limit → (reach r pipes child events).clock < limit) →
    ∃ s, Leads r pipes (reach r pipes child events) s ∧ s.phase =
      .ended (.output (written .out child.writes) (written .err child.writes))

theorem serves_iff (child : Child) : Serves r pipes child ↔ Drained r pipes child := by
  constructor
  · exact fun h => (never_stuck_iff child).mp h.live
  · intro hdrained
    refine ⟨(never_stuck_iff child).mpr hdrained, ?_, ?_, ?_⟩
    · intro events out err hphase
      exact ((inv_reach r pipes child events).output out err hphase).2.2
    · intro events hprompt hkilled
      have hearned := earned_reach hdrained hprompt
      obtain ⟨limit, hlimit, hpast, hexited⟩ := hearned.killed hkilled
      refine ⟨limit, hlimit, ?_, hexited⟩
      rw [hearned.lost]
      exact hpast
    · intro events hkilled hearly
      have hinv := inv_reach r pipes child events
      cases hphase : (reach r pipes child events).phase with
      | polling => exact leads_delivered hinv hdrained (Or.inl hphase)
      | collecting => exact leads_delivered hinv hdrained (Or.inr (Or.inl hphase))
      | looked => exact leads_delivered hinv hdrained (Or.inr (Or.inr ⟨hphase, hearly hphase⟩))
      | killed =>
        rw [hinv.gaveUp.mpr (Or.inl hphase)] at hkilled
        cases hkilled
      | ended e =>
        cases e with
        | output out err =>
          obtain ⟨-, -, rfl, rfl⟩ := hinv.output out err hphase
          exact ⟨_, Leads.refl _ _ _, hphase⟩
        | timeout =>
          rw [hinv.gaveUp.mpr (Or.inr hphase)] at hkilled
          cases hkilled

end Piped
