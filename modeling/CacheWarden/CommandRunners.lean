import CacheWarden.Lib.Piped
import CacheWarden.Records

/-!
# The two runners of commands

The runner of the agent side waits for its child and reads what it wrote once it has
exited. The runner of the store reads both pipes from the start. Each gives up after
a limit; the second may have none.
-/

set_option autoImplicit false

namespace CacheWarden

open Piped

/-- Why the agent side's command gave no output. -/
inductive OpRunError where
  | failed (stderr : Bytes)
  | timedOut
  deriving DecidableEq

/-- How `run_command_with_timeout` waits. -/
def opRunner (timeout : ℕ) : Runner := ⟨false, some timeout⟩

/-- What it makes of the end of a child with this code. -/
def opResult (code : Option ℤ) : Ending → Except OpRunError Bytes
  | .output stdout stderr => if code = some 0 then .ok stdout else .error (.failed stderr)
  | .timeout => .error .timedOut

inductive TrailingNewline where
  | trimOne
  | keep
  deriving DecidableEq

def TrailingNewline.apply (self : TrailingNewline) (buf : Bytes) : Bytes :=
  if self = .trimOne ∧ buf.getLast? = some 0x0a then
    if buf.dropLast.getLast? = some 0x0d then buf.dropLast.dropLast else buf.dropLast
  else buf

structure CommandRunner where
  newline : TrailingNewline
  timeout : Option ℕ

namespace CommandRunner

/-- How `collect` and `wait_with_timeout` wait. -/
def waiting (self : CommandRunner) : Runner := ⟨true, self.timeout⟩

/-- What `run` makes of the end of a child with this code. -/
def result (self : CommandRunner) (elapsed : Duration) (code : Option ℤ) :
    Ending → Except RunError Bytes
  | .output stdout stderr =>
    if code ≠ some 0 then .error (.nonZeroExit code stderr.length)
    else if (self.newline.apply stdout).isEmpty then .error .emptyOutput
    else .ok (self.newline.apply stdout)
  | .timeout => .error (.timeout elapsed)

end CommandRunner

/-- A line terminator, or none. -/
def terminators : List Bytes := [[], [0x0a], [0x0d, 0x0a]]

/-- At most one terminator is taken off the end. -/
theorem apply_append (newline : TrailingNewline) (buf : Bytes) :
    ∃ terminator ∈ terminators, buf = newline.apply buf ++ terminator := by
  unfold TrailingNewline.apply
  split
  · rename_i hline
    have hbuf : buf.dropLast ++ [0x0a] = buf := List.dropLast_append_getLast? _ hline.2
    split
    · rename_i hreturn
      have hrest : buf.dropLast.dropLast ++ [0x0d] = buf.dropLast :=
        List.dropLast_append_getLast? _ hreturn
      refine ⟨[0x0d, 0x0a], by simp [terminators], ?_⟩
      calc buf = buf.dropLast ++ [0x0a] := hbuf.symm
        _ = buf.dropLast.dropLast ++ [0x0d] ++ [0x0a] := by rw [hrest]
        _ = buf.dropLast.dropLast ++ [0x0d, 0x0a] := by rw [List.append_assoc]; rfl
    · exact ⟨[0x0a], by simp [terminators], hbuf.symm⟩
  · exact ⟨[], by simp [terminators], (List.append_nil buf).symm⟩

/-- The first runner serves a child exactly when the pipes hold all that it writes,
the second always. A child that exits with 0 gives its standard output, to the
second less one line terminator unless nothing is left. -/
theorem runners_serve (pipes : Pipes) (child : Child) (timeout : ℕ) (self : CommandRunner)
    (elapsed : Duration) :
    (Serves (opRunner timeout) pipes child ↔
      ∀ p, (written p child.writes).length ≤ pipes.capacity p) ∧
    Serves self.waiting pipes child ∧
    ∀ stdout stderr, child.code = some 0 →
      opResult child.code (.output stdout stderr) = .ok stdout ∧
      (∃ terminator ∈ terminators, stdout = self.newline.apply stdout ++ terminator) ∧
      self.result elapsed child.code (.output stdout stderr) =
        if self.newline.apply stdout = [] then .error .emptyOutput
        else .ok (self.newline.apply stdout) := by
  refine ⟨?_, (serves_iff _ _ child).mpr (Or.inl rfl), ?_⟩
  · rw [serves_iff]
    constructor
    · rintro (hconcurrent | hfits)
      · cases hconcurrent
      · exact hfits
    · exact Or.inr
  · intro stdout stderr hcode
    refine ⟨if_pos hcode, apply_append _ _, ?_⟩
    unfold CommandRunner.result
    simp only [hcode, ne_eq, not_true_eq_false, if_false, List.isEmpty_iff]

section Narrow

def narrowPipes : Pipes := ⟨fun _ => 1, fun _ => Nat.one_pos⟩

/-- Two bytes for a pipe that holds one. -/
def chatty : Child := ⟨[(.out, [1, 2])], some 0⟩

def silent : Child := ⟨[], some 0⟩

/-- The child waits for a pipe until it is killed, having had no time of its own. And
a child that exits at once is reported as timed out where the clock reaches the limit
between the look at it and the reading of the clock. -/
theorem chatty_times_out :
    Stuck (opRunner 1) narrowPipes (reach (opRunner 1) narrowPipes chatty [.write 1]) ∧
      (reach (opRunner 1) narrowPipes chatty
        [.write 1, .poll, .tick, .check, .finish]).phase = .ended .timeout ∧
      (reach (opRunner 1) narrowPipes chatty [.write 1, .poll, .tick, .check, .finish]).lost = 1 ∧
      (reach (CommandRunner.waiting ⟨.trimOne, some 1⟩) narrowPipes silent
        [.poll, .exit, .tick, .check, .eof .out, .eof .err, .finish]).phase = .ended .timeout ∧
      (reach (CommandRunner.waiting ⟨.trimOne, some 1⟩) narrowPipes silent
        [.poll, .exit, .tick, .check, .eof .out, .eof .err, .finish]).exited = some 0 := by
  refine ⟨stuck_of_blocked rfl rfl rfl, ?_, ?_, ?_, ?_⟩ <;> decide

end Narrow

end CacheWarden
