import CacheWarden.Daemon.HandoffReader
import CacheWarden.Handoff
import CacheWarden.Lib.Transition

/-!
# The two sides of a hand-over

The holder child has the bytes of `prepare` in memory and one end of a socket pair, the
new process has the other. The holder sends, the new process reads, imports, comes up and
sends COMMIT, and the holder erases its memory whatever the end. Sends and reads move any
number of bytes that fit, either side may fail or be killed between any two of them, and
each side has a timeout of its own.
-/

set_option autoImplicit false

namespace CacheWarden

namespace Daemon

namespace HandoffCommit

open StoreSnapshot Transition HandoffReader

/-- `COMMIT`. -/
def commitFrame : Bytes := [0x43, 0x4F, 0x4D, 0x4D, 0x49, 0x54]

/-- Where the holder child is. What it exits with: 0 for a commit, 2 for an abort, 3 for a
timeout, 4 and 5 for a memory it could not protect. -/
inductive HolderPhase where
  | denyAttach
  | lockMemory
  | sending (sent : ℕ)
  | awaiting (got : Bytes)
  | erasing (code : ℕ)
  | closing (code : ℕ)
  | exited (code : ℕ)
  | killed
  deriving DecidableEq

/-- Where the new process is. It holds its end of the pair until it has sent COMMIT or given
the hand-over up. -/
inductive SuccessorPhase where
  | booting
  | receiving (stage : ReadStage) (buf : Bytes) (missing : ℕ)
  | received (snapshot : StoreSnapshot) (dek : Option Bytes)
  | starting (bundle : StoreBundle) (dek : Option Bytes)
  | committing (written : ℕ)
  | serving
  | cold
  | dead
  deriving DecidableEq

/-- The pair of processes, with the bytes in flight each way. `adopted` is what the new
process has come up with. -/
structure Handoff where
  holder : HolderPhase
  memory : Bytes
  down : Bytes
  up : Bytes
  successor : SuccessorPhase
  adopted : Option (StoreBundle × Option Bytes)
  deriving DecidableEq

structure Env where
  serde : Serde
  builder : StoreBuilder
  token : BitVec 128
  downRoom : ℕ
  upRoom : ℕ

inductive Event where
  | denyAttach (ok : Bool)
  | lockMemory (ok : Bool)
  | send (n : ℕ)
  | sendError
  | sendTimeout
  | recv (n : ℕ)
  | recvEnd
  | recvError
  | recvTimeout
  | erase
  | exit
  | killHolder
  | boot
  | read (n : ℕ)
  | readEnd
  | readError
  | advance
  | importSnapshot (nowMono : Monotonic) (wall : UInt64)
  | started
  | commit (n : ℕ)
  | commitError
  | die
  deriving DecidableEq

/-- Whether the holder still has its end. -/
def HolderPhase.open : HolderPhase → Bool
  | .exited _ => false
  | .killed => false
  | _ => true

def SuccessorPhase.open : SuccessorPhase → Bool
  | .serving => false
  | .cold => false
  | .dead => false
  | _ => true

def holderExplicitBzero (memory : Bytes) : Bytes := memory.map fun _ => 0

def phaseOf : Reading → SuccessorPhase
  | .wants stage buf missing => .receiving stage buf missing
  | .read snapshot dek => .received snapshot dek
  | .failed => .cold

/-- The holder after the fork. -/
def forked (bytes : Bytes) : Handoff := ⟨.denyAttach, bytes, [], [], .booting, none⟩

/-- What a write of at most `n` bytes puts on the wire. -/
def written (n room : ℕ) (rest : Bytes) : Bytes := rest.take (min n room)

/-- An event that its process is not at leaves everything as it is. -/
def step (env : Env) (s : Handoff) : Event → Handoff
  | .denyAttach ok =>
    match s.holder with
    | .denyAttach => { s with holder := if ok then .lockMemory else .erasing 4 }
    | _ => s
  | .lockMemory ok =>
    match s.holder with
    | .lockMemory =>
      { s with holder := if !ok then .erasing 5
          else if s.memory.length = 0 then .awaiting [] else .sending 0 }
    | _ => s
  | .send n =>
    match s.holder with
    | .sending sent =>
      let bytes := written n (env.downRoom - s.down.length) (s.memory.drop sent)
      if bytes = [] ∨ s.successor.open = false then s
      else
        { s with
          holder := if sent + bytes.length < s.memory.length then .sending (sent + bytes.length)
            else .awaiting []
          down := s.down ++ bytes }
    | _ => s
  | .sendError =>
    match s.holder with
    | .sending _ => { s with holder := .erasing 2 }
    | _ => s
  | .sendTimeout =>
    match s.holder with
    | .sending _ => { s with holder := .erasing 3 }
    | _ => s
  | .recv n =>
    match s.holder with
    | .awaiting got =>
      let bytes := written n (commitFrame.length - got.length) s.up
      if bytes = [] then s
      else
        { s with
          holder := if (got ++ bytes).length < commitFrame.length then .awaiting (got ++ bytes)
            else .erasing (if got ++ bytes = commitFrame then 0 else 2)
          up := s.up.drop bytes.length }
    | _ => s
  | .recvEnd =>
    match s.holder with
    | .awaiting _ =>
      if s.up = [] ∧ s.successor.open = false then { s with holder := .erasing 2 } else s
    | _ => s
  | .recvError =>
    match s.holder with
    | .awaiting _ => { s with holder := .erasing 2 }
    | _ => s
  | .recvTimeout =>
    match s.holder with
    | .awaiting _ => { s with holder := .erasing 3 }
    | _ => s
  | .erase =>
    match s.holder with
    | .erasing code => { s with holder := .closing code, memory := holderExplicitBzero s.memory }
    | _ => s
  | .exit =>
    match s.holder with
    | .closing code => { s with holder := .exited code }
    | _ => s
  | .killHolder => if s.holder.open then { s with holder := .killed, memory := [] } else s
  | .boot =>
    match s.successor with
    | .booting => { s with successor := .receiving .header [] 16 }
    | _ => s
  | .read n =>
    match s.successor with
    | .receiving stage buf missing =>
      let bytes := written n missing s.down
      if bytes = [] then s
      else
        { s with
          successor := .receiving stage (buf ++ bytes) (missing - bytes.length)
          down := s.down.drop bytes.length }
    | _ => s
  | .readEnd =>
    match s.successor with
    | .receiving _ _ missing =>
      if missing ≠ 0 ∧ s.down = [] ∧ s.holder.open = false then { s with successor := .cold } else s
    | _ => s
  | .readError =>
    match s.successor with
    | .receiving _ _ missing => if missing ≠ 0 then { s with successor := .cold } else s
    | _ => s
  | .advance =>
    match s.successor with
    | .receiving stage buf missing =>
      if missing = 0 then { s with successor := phaseOf (HandoffReader.advance env.serde stage buf) } else s
    | _ => s
  | .importSnapshot nowMono wall =>
    match s.successor with
    | .received snapshot dek =>
      match Store.importSnapshot env.builder env.token snapshot nowMono wall with
      | .ok bundle => { s with successor := .starting bundle dek }
      | .error _ => { s with successor := .cold }
    | _ => s
  | .started =>
    match s.successor with
    | .starting bundle dek => { s with successor := .committing 0, adopted := some (bundle, dek) }
    | _ => s
  | .commit n =>
    match s.successor with
    | .committing sent =>
      let bytes := written n (env.upRoom - s.up.length) (commitFrame.drop sent)
      if bytes = [] ∨ s.holder.open = false then s
      else
        { s with
          successor := if sent + bytes.length < commitFrame.length
            then .committing (sent + bytes.length) else .serving
          up := s.up ++ bytes }
    | _ => s
  | .commitError =>
    match s.successor with
    | .committing _ => { s with successor := .serving }
    | _ => s
  | .die => { s with successor := .dead }

/-- The holder is at work: it has not given up, been killed or heard COMMIT. -/
def HolderPhase.working : HolderPhase → Bool
  | .denyAttach => true
  | .lockMemory => true
  | .sending _ => true
  | .awaiting _ => true
  | _ => false

/-- Neither process fails, is killed or waits for longer than its timeout. The end of the
other side's end is no failure. -/
def Event.faultless : Event → Bool
  | .denyAttach ok => ok
  | .lockMemory ok => ok
  | .sendError => false
  | .sendTimeout => false
  | .recvError => false
  | .recvTimeout => false
  | .killHolder => false
  | .readError => false
  | .commitError => false
  | .die => false
  | _ => true

/-- What a step does, where it does something. -/
inductive Moves (env : Env) (s : Handoff) : Event → Handoff → Prop
  | idle (e : Event) : Moves env s e s
  | giveUp (e : Event) (code : ℕ) (hcode : code ≠ 0) (hfault : e.faultless = false)
      (h : s.holder.working = true) : Moves env s e { s with holder := .erasing code }
  | recvEnded (got : Bytes) (h : s.holder = .awaiting got) (hnone : s.up = [])
      (hclosed : s.successor.open = false) :
      Moves env s .recvEnd { s with holder := .erasing 2 }
  | hardened (h : s.holder = .denyAttach) :
      Moves env s (.denyAttach true) { s with holder := .lockMemory }
  | locked (h : s.holder = .lockMemory) (hsome : s.memory ≠ []) :
      Moves env s (.lockMemory true) { s with holder := .sending 0 }
  | lockedEmpty (h : s.holder = .lockMemory) (hnone : s.memory = []) :
      Moves env s (.lockMemory true) { s with holder := .awaiting [] }
  | send (n sent : ℕ) (bytes rest : Bytes) (h : s.holder = .sending sent) (hsome : bytes ≠ [])
      (hrest : s.memory.drop sent = bytes ++ rest) (hopen : s.successor.open = true) :
      Moves env s (.send n)
        { s with
          holder := if sent + bytes.length < s.memory.length then .sending (sent + bytes.length)
            else .awaiting []
          down := s.down ++ bytes }
  | recv (n : ℕ) (got bytes rest : Bytes) (h : s.holder = .awaiting got) (hsome : bytes ≠ [])
      (hrest : s.up = bytes ++ rest) :
      Moves env s (.recv n)
        { s with
          holder := if (got ++ bytes).length < commitFrame.length then .awaiting (got ++ bytes)
            else .erasing (if got ++ bytes = commitFrame then 0 else 2)
          up := rest }
  | erase (code : ℕ) (h : s.holder = .erasing code) :
      Moves env s .erase
        { s with holder := .closing code, memory := holderExplicitBzero s.memory }
  | exit (code : ℕ) (h : s.holder = .closing code) :
      Moves env s .exit { s with holder := .exited code }
  | killed : Moves env s .killHolder { s with holder := .killed, memory := [] }
  | boot (h : s.successor = .booting) :
      Moves env s .boot { s with successor := .receiving .header [] 16 }
  | read (n : ℕ) (stage : ReadStage) (buf : Bytes) (missing : ℕ) (bytes rest : Bytes)
      (h : s.successor = .receiving stage buf missing) (hsome : bytes ≠ [])
      (hrest : s.down = bytes ++ rest) (hle : bytes.length ≤ missing) :
      Moves env s (.read n)
        { s with
          successor := .receiving stage (buf ++ bytes) (missing - bytes.length)
          down := rest }
  | readFails (stage : ReadStage) (buf : Bytes) (missing : ℕ)
      (h : s.successor = .receiving stage buf missing) :
      Moves env s .readError { s with successor := .cold }
  | readEnded (stage : ReadStage) (buf : Bytes) (missing : ℕ)
      (h : s.successor = .receiving stage buf missing) (hclosed : s.holder.open = false) :
      Moves env s .readEnd { s with successor := .cold }
  | advance (stage : ReadStage) (buf : Bytes) (h : s.successor = .receiving stage buf 0) :
      Moves env s .advance { s with successor := phaseOf (HandoffReader.advance env.serde stage buf) }
  | imported (nowMono : Monotonic) (wall : UInt64) (snapshot : StoreSnapshot)
      (dek : Option Bytes) (bundle : StoreBundle) (h : s.successor = .received snapshot dek)
      (hok : Store.importSnapshot env.builder env.token snapshot nowMono wall = .ok bundle) :
      Moves env s (.importSnapshot nowMono wall) { s with successor := .starting bundle dek }
  | rejected (nowMono : Monotonic) (wall : UInt64) (snapshot : StoreSnapshot)
      (dek : Option Bytes) (err : ImportError) (h : s.successor = .received snapshot dek)
      (herror : Store.importSnapshot env.builder env.token snapshot nowMono wall = .error err) :
      Moves env s (.importSnapshot nowMono wall) { s with successor := .cold }
  | started (bundle : StoreBundle) (dek : Option Bytes) (h : s.successor = .starting bundle dek) :
      Moves env s .started { s with successor := .committing 0, adopted := some (bundle, dek) }
  | commit (n sent : ℕ) (bytes rest : Bytes) (h : s.successor = .committing sent)
      (hsome : bytes ≠ []) (hrest : commitFrame.drop sent = bytes ++ rest) :
      Moves env s (.commit n)
        { s with
          successor := if sent + bytes.length < commitFrame.length
            then .committing (sent + bytes.length) else .serving
          up := s.up ++ bytes }
  | commitFails (sent : ℕ) (h : s.successor = .committing sent) :
      Moves env s .commitError { s with successor := .serving }
  | die : Moves env s .die { s with successor := .dead }

section Moves

variable {env : Env} {s : Handoff}

theorem written_rest (n room : ℕ) (rest : Bytes) :
    rest = written n room rest ++ rest.drop (written n room rest).length := by
  by_cases hle : min n room ≤ rest.length
  · simp [written, Nat.min_eq_left hle]
  · simp [written, List.take_of_length_le (Nat.le_of_not_le hle)]

theorem length_written_le (n room : ℕ) (rest : Bytes) : (written n room rest).length ≤ room := by
  simp [written]

theorem step_moves (env : Env) (s : Handoff) (e : Event) : Moves env s e (step env s e) := by
  cases e with
  | denyAttach ok =>
    cases h : s.holder with
    | denyAttach =>
      cases ok with
      | true => simpa [step, h] using Moves.hardened h
      | false => simpa [step, h] using Moves.giveUp _ 4 (by omega) rfl (by simp [h, HolderPhase.working])
    | _ => simpa [step, h] using Moves.idle _
  | lockMemory ok =>
    cases h : s.holder with
    | lockMemory =>
      cases ok with
      | true =>
        by_cases hmemory : s.memory = []
        · simpa [step, h, hmemory] using Moves.lockedEmpty h hmemory
        · simpa [step, h, hmemory] using Moves.locked h hmemory
      | false => simpa [step, h] using Moves.giveUp _ 5 (by omega) rfl (by simp [h, HolderPhase.working])
    | _ => simpa [step, h] using Moves.idle _
  | send n =>
    cases h : s.holder with
    | sending sent =>
      by_cases hstop : written n (env.downRoom - s.down.length) (s.memory.drop sent) = [] ∨
          s.successor.open = false
      · simpa [step, h, hstop] using Moves.idle _
      · have hgo := not_or.mp hstop
        simpa [step, h, hstop] using
          Moves.send n sent _ _ h hgo.1 (written_rest _ _ _) (by simpa using hgo.2)
    | _ => simpa [step, h] using Moves.idle _
  | sendError =>
    cases h : s.holder with
    | sending sent =>
      simpa [step, h] using Moves.giveUp _ 2 (by omega) rfl (by simp [h, HolderPhase.working])
    | _ => simpa [step, h] using Moves.idle _
  | sendTimeout =>
    cases h : s.holder with
    | sending sent =>
      simpa [step, h] using Moves.giveUp _ 3 (by omega) rfl (by simp [h, HolderPhase.working])
    | _ => simpa [step, h] using Moves.idle _
  | recv n =>
    cases h : s.holder with
    | awaiting got =>
      by_cases hstop : written n (commitFrame.length - got.length) s.up = []
      · simpa [step, h, hstop] using Moves.idle _
      · simpa [step, h, hstop] using Moves.recv n got _ _ h hstop (written_rest _ _ _)
    | _ => simpa [step, h] using Moves.idle _
  | recvEnd =>
    cases h : s.holder with
    | awaiting got =>
      by_cases hend : s.up = [] ∧ s.successor.open = false
      · have hmoves : Moves env s .recvEnd { s with holder := .erasing 2 } :=
          Moves.recvEnded got h hend.1 hend.2
        simpa [step, h, hend] using hmoves
      · simpa [step, h, hend] using Moves.idle _
    | _ => simpa [step, h] using Moves.idle _
  | recvError =>
    cases h : s.holder with
    | awaiting got =>
      simpa [step, h] using Moves.giveUp _ 2 (by omega) rfl (by simp [h, HolderPhase.working])
    | _ => simpa [step, h] using Moves.idle _
  | recvTimeout =>
    cases h : s.holder with
    | awaiting got =>
      simpa [step, h] using Moves.giveUp _ 3 (by omega) rfl (by simp [h, HolderPhase.working])
    | _ => simpa [step, h] using Moves.idle _
  | erase =>
    cases h : s.holder with
    | erasing code => simpa [step, h] using Moves.erase code h
    | _ => simpa [step, h] using Moves.idle _
  | exit =>
    cases h : s.holder with
    | closing code => simpa [step, h] using Moves.exit code h
    | _ => simpa [step, h] using Moves.idle _
  | killHolder =>
    by_cases hopen : s.holder.open
    · simpa [step, hopen] using Moves.killed
    · simpa [step, hopen] using Moves.idle _
  | boot =>
    cases h : s.successor with
    | booting => simpa [step, h] using Moves.boot h
    | _ => simpa [step, h] using Moves.idle _
  | read n =>
    cases h : s.successor with
    | receiving stage buf missing =>
      by_cases hstop : written n missing s.down = []
      · simpa [step, h, hstop] using Moves.idle _
      · simpa [step, h, hstop] using Moves.read n stage buf missing _ _ h hstop
          (written_rest _ _ _) (length_written_le _ _ _)
    | _ => simpa [step, h] using Moves.idle _
  | readEnd =>
    cases h : s.successor with
    | receiving stage buf missing =>
      by_cases hend : missing ≠ 0 ∧ s.down = [] ∧ s.holder.open = false
      · have hmoves : Moves env s .readEnd { s with successor := .cold } :=
          Moves.readEnded stage buf missing h hend.2.2
        simpa [step, h, hend] using hmoves
      · simpa [step, h, hend] using Moves.idle _
    | _ => simpa [step, h] using Moves.idle _
  | readError =>
    cases h : s.successor with
    | receiving stage buf missing =>
      by_cases hmissing : missing = 0
      · simpa [step, h, hmissing] using Moves.idle _
      · simpa [step, h, hmissing] using Moves.readFails stage buf missing h
    | _ => simpa [step, h] using Moves.idle _
  | advance =>
    cases h : s.successor with
    | receiving stage buf missing =>
      by_cases hmissing : missing = 0
      · subst hmissing
        simpa [step, h] using Moves.advance stage buf h
      · simpa [step, h, hmissing] using Moves.idle _
    | _ => simpa [step, h] using Moves.idle _
  | importSnapshot nowMono wall =>
    cases h : s.successor with
    | received snapshot dek =>
      cases hok : Store.importSnapshot env.builder env.token snapshot nowMono wall with
      | ok bundle =>
        simpa [step, h, hok] using Moves.imported nowMono wall snapshot dek bundle h hok
      | error err => simpa [step, h, hok] using Moves.rejected nowMono wall snapshot dek err h hok
    | _ => simpa [step, h] using Moves.idle _
  | started =>
    cases h : s.successor with
    | starting bundle dek => simpa [step, h] using Moves.started bundle dek h
    | _ => simpa [step, h] using Moves.idle _
  | commit n =>
    cases h : s.successor with
    | committing sent =>
      by_cases hstop : written n (env.upRoom - s.up.length) (commitFrame.drop sent) = [] ∨
          s.holder.open = false
      · simpa [step, h, hstop] using Moves.idle _
      · have hgo := not_or.mp hstop
        simpa [step, h, hstop] using Moves.commit n sent _ _ h hgo.1 (written_rest _ _ _)
    | _ => simpa [step, h] using Moves.idle _
  | commitError =>
    cases h : s.successor with
    | committing sent => simpa [step, h] using Moves.commitFails sent h
    | _ => simpa [step, h] using Moves.idle _
  | die => simpa [step] using Moves.die

end Moves

/-- What the holder has in memory. -/
def Remembers (bytes : Bytes) : HolderPhase → Bytes → Prop
  | .closing _, memory => memory = bytes.map fun _ => 0
  | .exited _, memory => memory = bytes.map fun _ => 0
  | .killed, memory => memory = []
  | _, memory => memory = bytes

/-- How much of the bytes has left the holder. -/
def Sent (bytes : Bytes) : HolderPhase → Bytes → Prop
  | .denyAttach, sent => sent = []
  | .lockMemory, sent => sent = []
  | .sending n, sent => n < bytes.length ∧ sent = bytes.take n
  | .awaiting _, sent => sent = bytes
  | _, sent => sent <+: bytes

/-- What the new process has taken, while it holds on to it. -/
def SuccessorPhase.taken (bytes : Bytes) : SuccessorPhase → Option Bytes
  | .booting => some []
  | .receiving _ buf _ => some buf
  | .cold => none
  | .dead => none
  | _ => some bytes

/-- The holder has not sent everything. -/
def HolderPhase.early : HolderPhase → Bool
  | .denyAttach => true
  | .lockMemory => true
  | .sending _ => true
  | _ => false

/-- The new process has not come up. -/
def SuccessorPhase.early : SuccessorPhase → Bool
  | .booting => true
  | .receiving _ _ _ => true
  | .received _ _ => true
  | .starting _ _ => true
  | _ => false

/-- What the holder exits with, once that is settled. -/
def HolderPhase.code : HolderPhase → Option ℕ
  | .erasing code => some code
  | .closing code => some code
  | .exited code => some code
  | _ => none

/-- A store imported from the snapshot, with the key that came behind it. -/
def Imported (env : Env) (snapshot : StoreSnapshot) (dek : Option Bytes) (bundle : StoreBundle)
    (key : Option Bytes) : Prop :=
  key = dek ∧ ∃ nowMono wall,
    Store.importSnapshot env.builder env.token snapshot nowMono wall = .ok bundle

/-- Where the new process may be. -/
def Follows (env : Env) (snapshot : StoreSnapshot) (dek : Option Bytes) (payloads : List Bytes)
    (bytes : Bytes) : SuccessorPhase → Prop
  | .receiving stage buf missing =>
    Ends snapshot dek payloads bytes stage (buf.length + missing)
  | .received found key => found = snapshot ∧ key = dek
  | .starting bundle key => Imported env snapshot dek bundle key
  | .committing sent => sent < commitFrame.length
  | _ => True

/-- What holds of the two processes at any moment. -/
structure Sound (env : Env) (snapshot : StoreSnapshot) (dek : Option Bytes)
    (payloads : List Bytes) (bytes : Bytes) (s : Handoff) : Prop where
  memory : Remembers bytes s.holder s.memory
  flow : ∀ taken, s.successor.taken bytes = some taken → Sent bytes s.holder (taken ++ s.down)
  follows : Follows env snapshot dek payloads bytes s.successor
  quiet : s.holder.early = true ∨ s.successor.early = true → s.up = [] ∧ s.adopted = none
  heard : ∀ got, s.holder = .awaiting got →
    got ++ s.up <+: commitFrame ∧ (got ++ s.up ≠ [] → s.adopted.isSome) ∧
      (∀ sent, s.successor = .committing sent → got ++ s.up = commitFrame.take sent)
  adopted : ∀ bundle key, s.adopted = some (bundle, key) → Imported env snapshot dek bundle key
  up : s.successor = .serving ∨ (∃ sent, s.successor = .committing sent) → s.adopted.isSome
  settled : s.holder.code = some 0 → s.adopted.isSome

section Sound

variable {env : Env} {snapshot : StoreSnapshot} {dek : Option Bytes} {payloads : List Bytes}
  {bytes : Bytes} {serde : Serde} {s s' : Handoff} {e : Event}

theorem Sent.initial {holder : HolderPhase} {sent : Bytes} (h : Sent bytes holder sent) :
    sent <+: bytes := by
  cases holder with
  | denyAttach => simp [show sent = [] from h]
  | lockMemory => simp [show sent = [] from h]
  | sending n =>
    rw [h.2]
    exact List.take_prefix n bytes
  | awaiting got => rw [show sent = bytes from h]
  | _ => exact h

/-- Giving up changes nothing of what has been sent. -/
theorem Sent.erasing {holder : HolderPhase} {sent : Bytes} (h : Sent bytes holder sent)
    (code : ℕ) : Sent bytes (.erasing code) sent := h.initial

/-- Where the new process has everything, the holder has sent everything. -/
theorem Sound.late (h : Sound env snapshot dek payloads bytes s) (hbytes : bytes ≠ [])
    (htaken : s.successor.taken bytes = some bytes) : s.holder.early = false ∧ s.down = [] := by
  have hsent := h.flow bytes htaken
  have hdown : s.down = [] := by
    have hlength := hsent.initial.length_le
    simp at hlength
    exact hlength
  refine ⟨?_, hdown⟩
  rw [hdown, List.append_nil] at hsent
  cases hholder : s.holder with
  | denyAttach => exact absurd (show bytes = [] by simpa [hholder, Sent] using hsent) hbytes
  | lockMemory => exact absurd (show bytes = [] by simpa [hholder, Sent] using hsent) hbytes
  | sending n =>
    rw [hholder] at hsent
    have hlength := congrArg List.length hsent.2
    have hlt := hsent.1
    simp at hlength
    omega
  | _ => rfl

theorem sound_forked (env : Env) (snapshot : StoreSnapshot) (dek : Option Bytes)
    (payloads : List Bytes) (bytes : Bytes) :
    Sound env snapshot dek payloads bytes (forked bytes) where
  memory := rfl
  flow taken h := by
    cases h
    rfl
  follows := trivial
  quiet _ := ⟨rfl, rfl⟩
  heard got h := by cases h
  adopted bundle key h := by cases h
  up h := by
    rcases h with h | ⟨sent, h⟩ <;> cases h
  settled h := by cases h

theorem Sound.giveUp (h : Sound env snapshot dek payloads bytes s) {code : ℕ} (hcode : code ≠ 0)
    (hworking : s.holder.working = true) :
    Sound env snapshot dek payloads bytes { s with holder := .erasing code } where
  memory := by
    have hmemory := h.memory
    cases hholder : s.holder <;> simp_all [Remembers, HolderPhase.working]
  flow taken htaken := (h.flow taken htaken).erasing code
  follows := h.follows
  quiet hearly := h.quiet (hearly.elim (fun hholder => by cases hholder) Or.inr)
  heard got hgot := by cases hgot
  adopted := h.adopted
  up := h.up
  settled hzero := by
    cases hzero
    exact absurd rfl hcode

theorem Sound.hardened (h : Sound env snapshot dek payloads bytes s)
    (hholder : s.holder = .denyAttach) :
    Sound env snapshot dek payloads bytes { s with holder := .lockMemory } where
  memory := by simpa [hholder, Remembers] using h.memory
  flow taken htaken := by simpa [hholder, Sent] using h.flow taken htaken
  follows := h.follows
  quiet _ := h.quiet (Or.inl (by simp [hholder, HolderPhase.early]))
  heard got hgot := by cases hgot
  adopted := h.adopted
  up := h.up
  settled hzero := by cases hzero

theorem Sound.locked (h : Sound env snapshot dek payloads bytes s) (hbytes : bytes ≠ [])
    (hholder : s.holder = .lockMemory) :
    Sound env snapshot dek payloads bytes { s with holder := .sending 0 } where
  memory := by simpa [hholder, Remembers] using h.memory
  flow taken htaken := by
    have hsent := h.flow taken htaken
    rw [hholder] at hsent
    exact ⟨List.length_pos_iff.mpr hbytes, by rw [show taken ++ s.down = [] from hsent]; simp⟩
  follows := h.follows
  quiet _ := h.quiet (Or.inl (by simp [hholder, HolderPhase.early]))
  heard got hgot := by cases hgot
  adopted := h.adopted
  up := h.up
  settled hzero := by cases hzero

theorem Sound.memory_eq (h : Sound env snapshot dek payloads bytes s)
    (hworking : s.holder.working = true) : s.memory = bytes := by
  have hmemory := h.memory
  cases hholder : s.holder <;> simp_all [Remembers, HolderPhase.working]

theorem Sound.send (h : Sound env snapshot dek payloads bytes s) {sent : ℕ} {sending rest : Bytes}
    (hholder : s.holder = .sending sent) (hrest : s.memory.drop sent = sending ++ rest) :
    Sound env snapshot dek payloads bytes
      { s with
        holder := if sent + sending.length < s.memory.length then .sending (sent + sending.length)
          else .awaiting []
        down := s.down ++ sending } := by
  have hmemory := h.memory_eq (by simp [hholder, HolderPhase.working])
  have hquiet := h.quiet (Or.inl (by simp [hholder, HolderPhase.early]))
  have hnext : ∀ taken, s.successor.taken bytes = some taken →
      taken ++ s.down ++ sending = bytes.take (sent + sending.length) := by
    intro taken htaken
    have hsent := h.flow taken htaken
    rw [hholder] at hsent
    rw [hmemory] at hrest
    rw [hsent.2, List.take_add, hrest, List.take_left]
  by_cases hmore : sent + sending.length < s.memory.length
  · rw [if_pos hmore]
    exact
      { memory := by simpa [hholder, Remembers] using h.memory
        flow := fun taken htaken =>
          ⟨hmemory ▸ hmore, by rw [← hnext taken htaken, List.append_assoc]⟩
        follows := h.follows
        quiet := fun _ => hquiet
        heard := fun got hgot => by cases hgot
        adopted := h.adopted
        up := h.up
        settled := fun hzero => by cases hzero }
  · rw [if_neg hmore]
    have hall : bytes.take (sent + sending.length) = bytes :=
      List.take_of_length_le (by rw [← hmemory]; omega)
    exact
      { memory := by simpa [hholder, Remembers] using h.memory
        flow := fun taken htaken => by
          rw [← List.append_assoc, hnext taken htaken]
          exact hall
        follows := h.follows
        quiet := fun _ => hquiet
        heard := fun got hgot => by
          cases hgot
          refine ⟨by simp [hquiet.1], fun hne => absurd hquiet.1 (by simpa using hne), ?_⟩
          intro n hcommitting
          have hsome := h.up (Or.inr ⟨n, hcommitting⟩)
          rw [hquiet.2] at hsome
          cases hsome
        adopted := h.adopted
        up := h.up
        settled := fun hzero => by cases hzero }

theorem Sound.recv (h : Sound env snapshot dek payloads bytes s) {got heard rest : Bytes}
    (hholder : s.holder = .awaiting got) (hsome : heard ≠ []) (hrest : s.up = heard ++ rest) :
    Sound env snapshot dek payloads bytes
      { s with
        holder := if (got ++ heard).length < commitFrame.length then .awaiting (got ++ heard)
          else .erasing (if got ++ heard = commitFrame then 0 else 2)
        up := rest } := by
  obtain ⟨hpre, hadopted, hexact⟩ := h.heard got hholder
  have hmemory := h.memory_eq (by simp [hholder, HolderPhase.working])
  rw [hrest, ← List.append_assoc] at hpre hadopted hexact
  have hup : s.adopted.isSome := hadopted (by simp [hsome])
  have hearly : s.successor.early = false := by
    cases hphase : s.successor.early with
    | false => rfl
    | true =>
      have hnone := (h.quiet (Or.inr hphase)).2
      rw [hnone] at hup
      cases hup
  by_cases hmore : (got ++ heard).length < commitFrame.length
  · rw [if_pos hmore]
    exact
      { memory := hmemory
        flow := fun taken htaken => by simpa [hholder, Sent] using h.flow taken htaken
        follows := h.follows
        quiet := fun hquiet => by simp [HolderPhase.early, hearly] at hquiet
        heard := fun got' hgot => by
          cases hgot
          exact ⟨hpre, fun _ => hup, hexact⟩
        adopted := h.adopted
        up := h.up
        settled := fun hzero => by cases hzero }
  · rw [if_neg hmore]
    exact
      { memory := hmemory
        flow := fun taken htaken => (h.flow taken htaken).erasing _
        follows := h.follows
        quiet := fun hquiet => by simp [HolderPhase.early, hearly] at hquiet
        heard := fun got' hgot => by cases hgot
        adopted := h.adopted
        up := h.up
        settled := fun _ => hup }

theorem Sound.erase (h : Sound env snapshot dek payloads bytes s) {code : ℕ}
    (hholder : s.holder = .erasing code) :
    Sound env snapshot dek payloads bytes
      { s with holder := .closing code, memory := holderExplicitBzero s.memory } where
  memory := by
    have hmemory := h.memory
    rw [hholder] at hmemory
    simp [Remembers, holderExplicitBzero, show s.memory = bytes from hmemory]
  flow taken htaken := (h.flow taken htaken).initial
  follows := h.follows
  quiet hquiet := h.quiet (hquiet.elim (fun hearly => by cases hearly) Or.inr)
  heard got hgot := by cases hgot
  adopted := h.adopted
  up := h.up
  settled hzero := h.settled (by rw [hholder]; exact hzero)

theorem Sound.exit (h : Sound env snapshot dek payloads bytes s) {code : ℕ}
    (hholder : s.holder = .closing code) :
    Sound env snapshot dek payloads bytes { s with holder := .exited code } where
  memory := by
    have hmemory := h.memory
    rw [hholder] at hmemory
    exact hmemory
  flow taken htaken := (h.flow taken htaken).initial
  follows := h.follows
  quiet hquiet := h.quiet (hquiet.elim (fun hearly => by cases hearly) Or.inr)
  heard got hgot := by cases hgot
  adopted := h.adopted
  up := h.up
  settled hzero := h.settled (by rw [hholder]; exact hzero)

theorem Sound.killed (h : Sound env snapshot dek payloads bytes s) :
    Sound env snapshot dek payloads bytes { s with holder := .killed, memory := [] } where
  memory := rfl
  flow taken htaken := (h.flow taken htaken).initial
  follows := h.follows
  quiet hquiet := h.quiet (hquiet.elim (fun hearly => by cases hearly) Or.inr)
  heard got hgot := by cases hgot
  adopted := h.adopted
  up := h.up
  settled hzero := by cases hzero

/-- A new process that has not come up goes on to a phase before it does. -/
theorem Sound.succeed (h : Sound env snapshot dek payloads bytes s) (down : Bytes)
    {next : SuccessorPhase} (hearly : s.successor.early = true)
    (hflow : ∀ taken, next.taken bytes = some taken → Sent bytes s.holder (taken ++ down))
    (hfollows : Follows env snapshot dek payloads bytes next)
    (hnext : next.early = true ∨ next = .cold ∨ next = .dead) :
    Sound env snapshot dek payloads bytes { s with successor := next, down := down } where
  memory := h.memory
  flow := hflow
  follows := hfollows
  quiet _ := h.quiet (Or.inr hearly)
  heard got hgot := by
    obtain ⟨hpre, hadopted, -⟩ := h.heard got hgot
    refine ⟨hpre, hadopted, fun sent hcommitting => ?_⟩
    rcases hnext with hnext | rfl | rfl
    · simp only at hcommitting
      rw [hcommitting] at hnext
      cases hnext
    · cases hcommitting
    · cases hcommitting
  adopted := h.adopted
  up hup := by
    rcases hnext with hnext | rfl | rfl
    · rcases hup with hserving | ⟨sent, hcommitting⟩
      · simp only at hserving
        rw [hserving] at hnext
        cases hnext
      · simp only at hcommitting
        rw [hcommitting] at hnext
        cases hnext
    · rcases hup with hserving | ⟨sent, hcommitting⟩
      · cases hserving
      · cases hcommitting
    · rcases hup with hserving | ⟨sent, hcommitting⟩
      · cases hserving
      · cases hcommitting
  settled := h.settled

theorem Sound.boot (h : Sound env snapshot dek payloads bytes s)
    (hbooting : s.successor = .booting) :
    Sound env snapshot dek payloads bytes { s with successor := .receiving .header [] 16 } := by
  apply h.succeed s.down (by simp [hbooting, SuccessorPhase.early])
  · intro taken htaken
    cases htaken
    exact h.flow [] (by rw [hbooting]; rfl)
  · exact Ends.header
  · exact Or.inl rfl

theorem Sound.read (h : Sound env snapshot dek payloads bytes s) {stage : ReadStage}
    {buf got rest : Bytes} {missing : ℕ} (hreceiving : s.successor = .receiving stage buf missing)
    (hrest : s.down = got ++ rest) (hle : got.length ≤ missing) :
    Sound env snapshot dek payloads bytes
      { s with
        successor := .receiving stage (buf ++ got) (missing - got.length)
        down := rest } := by
  apply h.succeed _ (by simp [hreceiving, SuccessorPhase.early])
  · intro taken htaken
    cases htaken
    have hsent := h.flow buf (by rw [hreceiving]; rfl)
    rw [hrest, ← List.append_assoc] at hsent
    exact hsent
  · have hends := h.follows
    rw [hreceiving] at hends
    have hstop : (buf ++ got).length + (missing - got.length) = buf.length + missing := by
      simp
      omega
    simp only [Follows, hstop]
    exact hends
  · exact Or.inl rfl

theorem Sound.cold (h : Sound env snapshot dek payloads bytes s)
    (hearly : s.successor.early = true) :
    Sound env snapshot dek payloads bytes { s with successor := .cold } := by
  apply h.succeed s.down hearly
  · intro taken htaken
    cases htaken
  · trivial
  · exact Or.inr (Or.inl rfl)

theorem Sound.advance (h : Sound env snapshot dek payloads bytes s)
    (hlaid : Laid env.serde snapshot dek payloads bytes) {stage : ReadStage} {buf : Bytes}
    (hreceiving : s.successor = .receiving stage buf 0) :
    Sound env snapshot dek payloads bytes
      { s with successor := phaseOf (HandoffReader.advance env.serde stage buf) } := by
  have hsent := h.flow buf (by rw [hreceiving]; rfl)
  have hpre : buf <+: bytes := (List.prefix_append buf s.down).trans hsent.initial
  have hends := h.follows
  rw [hreceiving] at hends
  have hreads := advance_reads hlaid hpre stage hends
  apply h.succeed s.down (by simp [hreceiving, SuccessorPhase.early])
  · intro taken htaken
    cases hread : HandoffReader.advance env.serde stage buf with
    | wants next held missing =>
      rw [hread] at hreads htaken
      cases htaken
      rw [hreads.1]
      exact hsent
    | read found key =>
      rw [hread] at hreads htaken
      cases htaken
      rwa [hreads.2.2] at hsent
    | failed =>
      rw [hread] at hreads
      exact hreads.elim
  · cases hread : HandoffReader.advance env.serde stage buf with
    | wants next held missing =>
      rw [hread] at hreads
      have hheld : held = buf := hreads.1
      subst hheld
      exact hreads.2
    | read found key =>
      rw [hread] at hreads
      exact ⟨hreads.1, hreads.2.1⟩
    | failed =>
      rw [hread] at hreads
      exact hreads.elim
  · cases hread : HandoffReader.advance env.serde stage buf with
    | failed =>
      rw [hread] at hreads
      exact hreads.elim
    | _ => exact Or.inl rfl

theorem Sound.imported (h : Sound env snapshot dek payloads bytes s) {found : StoreSnapshot}
    {key : Option Bytes} {bundle : StoreBundle} {nowMono : Monotonic} {wall : UInt64}
    (hreceived : s.successor = .received found key)
    (hok : Store.importSnapshot env.builder env.token found nowMono wall = .ok bundle) :
    Sound env snapshot dek payloads bytes { s with successor := .starting bundle key } := by
  have hfollows := h.follows
  rw [hreceived] at hfollows
  obtain ⟨rfl, hkey⟩ := hfollows
  apply h.succeed s.down (by simp [hreceived, SuccessorPhase.early])
  · intro taken htaken
    cases htaken
    exact h.flow bytes (by rw [hreceived]; rfl)
  · exact ⟨hkey, nowMono, wall, hok⟩
  · exact Or.inl rfl

theorem Sound.started (h : Sound env snapshot dek payloads bytes s) (hbytes : bytes ≠ [])
    {bundle : StoreBundle} {key : Option Bytes} (hstarting : s.successor = .starting bundle key) :
    Sound env snapshot dek payloads bytes
      { s with successor := .committing 0, adopted := some (bundle, key) } := by
  have htaken : s.successor.taken bytes = some bytes := by rw [hstarting]; rfl
  have hlate := h.late hbytes htaken
  have hquiet := h.quiet (Or.inr (by simp [hstarting, SuccessorPhase.early]))
  have hfollows := h.follows
  rw [hstarting] at hfollows
  exact
    { memory := h.memory
      flow := fun taken htaken' => by
        cases htaken'
        exact h.flow bytes htaken
      follows := by simp [Follows, commitFrame]
      quiet := fun hearly => by simp [hlate.1, SuccessorPhase.early] at hearly
      heard := fun got hgot => by
        obtain ⟨hpre, hsome, -⟩ := h.heard got hgot
        refine ⟨hpre, fun _ => rfl, fun sent hcommitting => ?_⟩
        cases hcommitting
        by_contra hne
        have hadopted := hsome (by simpa using hne)
        rw [hquiet.2] at hadopted
        cases hadopted
      adopted := fun bundle' key' hadopted => by
        cases hadopted
        exact hfollows
      up := fun _ => rfl
      settled := fun _ => rfl }

theorem Sound.commit (h : Sound env snapshot dek payloads bytes s) (hbytes : bytes ≠ [])
    {sent : ℕ} {sending rest : Bytes} (hcommitting : s.successor = .committing sent)
    (hrest : commitFrame.drop sent = sending ++ rest) :
    Sound env snapshot dek payloads bytes
      { s with
        successor := if sent + sending.length < commitFrame.length
          then .committing (sent + sending.length) else .serving
        up := s.up ++ sending } := by
  have htaken : s.successor.taken bytes = some bytes := by
    rw [hcommitting]
    rfl
  have hlate := h.late hbytes htaken
  have hup := h.up (Or.inr ⟨sent, hcommitting⟩)
  have hheard : ∀ got, s.holder = .awaiting got →
      got ++ (s.up ++ sending) = commitFrame.take (sent + sending.length) := by
    intro got hgot
    rw [← List.append_assoc, (h.heard got hgot).2.2 sent hcommitting, List.take_add, hrest,
      List.take_left]
  by_cases hmore : sent + sending.length < commitFrame.length
  · rw [if_pos hmore]
    exact
      { memory := h.memory
        flow := fun taken htaken' => by
          cases htaken'
          exact h.flow bytes htaken
        follows := hmore
        quiet := fun hearly => by simp [hlate.1, SuccessorPhase.early] at hearly
        heard := fun got hgot => by
          refine ⟨?_, fun _ => hup, fun n hn => ?_⟩
          · rw [hheard got hgot]
            exact List.take_prefix _ _
          · cases hn
            exact hheard got hgot
        adopted := h.adopted
        up := fun _ => hup
        settled := h.settled }
  · rw [if_neg hmore]
    exact
      { memory := h.memory
        flow := fun taken htaken' => by
          cases htaken'
          exact h.flow bytes htaken
        follows := trivial
        quiet := fun hearly => by simp [hlate.1, SuccessorPhase.early] at hearly
        heard := fun got hgot => by
          refine ⟨?_, fun _ => hup, fun n hn => by cases hn⟩
          rw [hheard got hgot]
          exact List.take_prefix _ _
        adopted := h.adopted
        up := fun _ => hup
        settled := h.settled }

theorem Sound.commitFails (h : Sound env snapshot dek payloads bytes s) (hbytes : bytes ≠ [])
    {sent : ℕ} (hcommitting : s.successor = .committing sent) :
    Sound env snapshot dek payloads bytes { s with successor := .serving } := by
  have htaken : s.successor.taken bytes = some bytes := by
    rw [hcommitting]
    rfl
  have hlate := h.late hbytes htaken
  have hup := h.up (Or.inr ⟨sent, hcommitting⟩)
  exact
    { memory := h.memory
      flow := fun taken htaken' => by
        cases htaken'
        exact h.flow bytes htaken
      follows := trivial
      quiet := fun hearly => by simp [hlate.1, SuccessorPhase.early] at hearly
      heard := fun got hgot =>
        ⟨(h.heard got hgot).1, (h.heard got hgot).2.1, fun n hn => by cases hn⟩
      adopted := h.adopted
      up := fun _ => hup
      settled := h.settled }

theorem Sound.die (h : Sound env snapshot dek payloads bytes s) :
    Sound env snapshot dek payloads bytes { s with successor := .dead } where
  memory := h.memory
  flow taken htaken := by cases htaken
  follows := trivial
  quiet hquiet := h.quiet (hquiet.elim Or.inl fun hearly => by cases hearly)
  heard got hgot :=
    ⟨(h.heard got hgot).1, (h.heard got hgot).2.1, fun n hn => by cases hn⟩
  adopted := h.adopted
  up hup := by
    rcases hup with hserving | ⟨sent, hcommitting⟩
    · cases hserving
    · cases hcommitting
  settled := h.settled

theorem Sound.moves (h : Sound env snapshot dek payloads bytes s)
    (hlaid : Laid env.serde snapshot dek payloads bytes) (hbytes : bytes ≠ [])
    (hm : Moves env s e s') : Sound env snapshot dek payloads bytes s' := by
  cases hm with
  | idle => exact h
  | giveUp _ code hcode hfault hworking => exact h.giveUp hcode hworking
  | recvEnded got hholder hnone hclosed =>
    exact h.giveUp (by omega) (by simp [hholder, HolderPhase.working])
  | hardened hholder => exact h.hardened hholder
  | locked hholder hsome => exact h.locked hbytes hholder
  | lockedEmpty hholder hnone =>
    rw [h.memory_eq (by simp [hholder, HolderPhase.working])] at hnone
    exact absurd hnone hbytes
  | send n sent sending rest hholder hsome hrest hopen => exact h.send hholder hrest
  | recv n got heard rest hholder hsome hrest => exact h.recv hholder hsome hrest
  | erase code hholder => exact h.erase hholder
  | exit code hholder => exact h.exit hholder
  | killed => exact h.killed
  | boot hbooting => exact h.boot hbooting
  | read n stage buf missing got rest hreceiving hsome hrest hle => exact h.read hreceiving hrest hle
  | readFails stage buf missing hreceiving =>
    exact h.cold (by simp [hreceiving, SuccessorPhase.early])
  | readEnded stage buf missing hreceiving hclosed =>
    exact h.cold (by simp [hreceiving, SuccessorPhase.early])
  | advance stage buf hreceiving => exact h.advance hlaid hreceiving
  | imported nowMono wall found key bundle hreceived hok => exact h.imported hreceived hok
  | rejected nowMono wall found key err hreceived herror =>
    exact h.cold (by simp [hreceived, SuccessorPhase.early])
  | started bundle key hstarting => exact h.started hbytes hstarting
  | commit n sent sending rest hcommitting hsome hrest => exact h.commit hbytes hcommitting hrest
  | commitFails sent hcommitting => exact h.commitFails hbytes hcommitting
  | die => exact h.die

theorem sound_run (hlaid : Laid env.serde snapshot dek payloads bytes) (hbytes : bytes ≠ [])
    (es : List Event) : Sound env snapshot dek payloads bytes (run (step env) (forked bytes) es) :=
  run_invariant (step env) (P := fun _ _ => True)
    (fun s e h _ => h.moves hlaid hbytes (step_moves env s e)) _ _
    (along_of_forall _ (fun _ _ => trivial) _ _) (sound_forked env snapshot dek payloads bytes)

end Sound

section Completion

variable {env : Env} {snapshot : StoreSnapshot} {dek : Option Bytes} {payloads : List Bytes}
  {bytes : Bytes} {s s' : Handoff} {e : Event}

/-- What holds besides where neither process has failed. -/
structure Clean (env : Env) (snapshot : StoreSnapshot) (s : Handoff) : Prop where
  holder : s.holder ≠ .killed
  successor : s.successor ≠ .dead
  short : ∀ got, s.holder = .awaiting got → got.length < commitFrame.length
  ended : ∀ code, s.holder.code = some code →
    code = 0 ∧ s.successor = .serving ∨ code = 2 ∧ s.successor = .cold
  cold : s.successor = .cold → s.holder.early = false ∧ s.up = [] ∧
    ∃ nowMono wall err,
      Store.importSnapshot env.builder env.token snapshot nowMono wall = .error err
  serving : s.successor = .serving → ∀ got, s.holder = .awaiting got → got ++ s.up = commitFrame

theorem clean_forked (env : Env) (snapshot : StoreSnapshot) (bytes : Bytes) :
    Clean env snapshot (forked bytes) where
  holder h := by cases h
  successor h := by cases h
  short got h := by cases h
  ended code h := by cases h
  cold h := by cases h
  serving h := by cases h

/-- A holder that has not heard anything goes on. -/
theorem Clean.hold (h : Clean env snapshot s) (down : Bytes) {next : HolderPhase}
    (hearly : s.holder.early = true) (hclosed : s.successor ≠ .serving)
    (hnext : next.early = true ∨ next = .awaiting []) :
    Clean env snapshot { s with holder := next, down := down } where
  holder hkilled := by
    simp only at hkilled
    rw [hkilled] at hnext
    rcases hnext with hnext | hnext <;> cases hnext
  successor := h.successor
  short got hgot := by
    simp only at hgot
    rw [hgot] at hnext
    rcases hnext with hnext | hnext
    · cases hnext
    · cases hnext
      decide
  ended code hcode := by
    rcases hnext with hnext | rfl
    · cases next <;> simp [HolderPhase.early, HolderPhase.code] at hnext hcode
    · cases hcode
  cold hcold := by
    rw [(h.cold hcold).1] at hearly
    cases hearly
  serving hserving := absurd hserving hclosed

/-- The new process goes on, before it is done. -/
theorem Clean.succeed (h : Clean env snapshot s) (down : Bytes)
    (adopted : Option (StoreBundle × Option Bytes)) {next : SuccessorPhase} (hopen : s.successor.open = true)
    (hnext : next.open = true) :
    Clean env snapshot { s with successor := next, down := down, adopted := adopted } where
  holder := h.holder
  successor hdead := by
    simp only at hdead
    rw [hdead] at hnext
    cases hnext
  short := h.short
  ended code hcode := by
    rcases h.ended code hcode with ⟨-, hserving⟩ | ⟨-, hcold⟩
    · rw [hserving] at hopen
      cases hopen
    · rw [hcold] at hopen
      cases hopen
  cold hcold := by
    simp only at hcold
    rw [hcold] at hnext
    cases hnext
  serving hserving := by
    simp only at hserving
    rw [hserving] at hnext
    cases hnext

theorem Sound.not_serving (h : Sound env snapshot dek payloads bytes s)
    (hearly : s.holder.early = true) : s.successor ≠ .serving := by
  intro hserving
  have hsome := h.up (Or.inl hserving)
  rw [(h.quiet (Or.inl hearly)).2] at hsome
  cases hsome

theorem Clean.recv (hsound : Sound env snapshot dek payloads bytes s)
    (h : Clean env snapshot s) {got heard rest : Bytes} (hholder : s.holder = .awaiting got)
    (hsome : heard ≠ []) (hrest : s.up = heard ++ rest) :
    Clean env snapshot
      { s with
        holder := if (got ++ heard).length < commitFrame.length then .awaiting (got ++ heard)
          else .erasing (if got ++ heard = commitFrame then 0 else 2)
        up := rest } := by
  have hnotCold : s.successor ≠ .cold := by
    intro hcold
    have hup := (h.cold hcold).2.1
    rw [hrest] at hup
    exact hsome (List.append_eq_nil_iff.mp hup).1
  by_cases hmore : (got ++ heard).length < commitFrame.length
  · rw [if_pos hmore]
    exact
      { holder := fun hkilled => by cases hkilled
        successor := h.successor
        short := fun got' hgot => by
          cases hgot
          exact hmore
        ended := fun code hcode => by cases hcode
        cold := fun hcold => absurd hcold hnotCold
        serving := fun hserving got' hgot => by
          cases hgot
          have hall := h.serving hserving got hholder
          rw [hrest, ← List.append_assoc] at hall
          exact hall }
  · rw [if_neg hmore]
    obtain ⟨hpre, hadopted, hexact⟩ := hsound.heard got hholder
    rw [hrest, ← List.append_assoc] at hpre hexact hadopted
    have hall : got ++ heard = commitFrame := by
      have hheard := (List.prefix_append (got ++ heard) rest).trans hpre
      exact hheard.eq_of_length (Nat.le_antisymm hheard.length_le (Nat.le_of_not_lt hmore))
    have hserving : s.successor = .serving := by
      have hup : s.adopted.isSome := hadopted (by simp [hsome])
      cases hphase : s.successor with
      | serving => rfl
      | cold => exact absurd hphase hnotCold
      | dead => exact absurd hphase h.successor
      | committing sent =>
        have hlt := hsound.follows
        rw [hphase] at hlt
        have hlength := congrArg List.length (hexact sent hphase)
        rw [hall] at hlength
        simp only [List.length_append, List.length_take] at hlength
        simp only [Follows] at hlt
        omega
      | _ =>
        rw [(hsound.quiet (Or.inr (by simp [hphase, SuccessorPhase.early]))).2] at hup
        cases hup
    rw [if_pos hall]
    exact
      { holder := fun hkilled => by cases hkilled
        successor := h.successor
        short := fun got' hgot => by cases hgot
        ended := fun code hcode => by
          cases hcode
          exact Or.inl ⟨rfl, hserving⟩
        cold := fun hcold => absurd hcold hnotCold
        serving := fun _ got' hgot => by cases hgot }

theorem Clean.commit (hsound : Sound env snapshot dek payloads bytes s)
    (h : Clean env snapshot s) {sent : ℕ} {sending rest : Bytes}
    (hcommitting : s.successor = .committing sent)
    (hrest : commitFrame.drop sent = sending ++ rest) :
    Clean env snapshot
      { s with
        successor := if sent + sending.length < commitFrame.length
          then .committing (sent + sending.length) else .serving
        up := s.up ++ sending } := by
  have hopen : ∀ code, s.holder.code ≠ some code := by
    intro code hcode
    rcases h.ended code hcode with ⟨-, hserving⟩ | ⟨-, hcold⟩
    · rw [hcommitting] at hserving
      cases hserving
    · rw [hcommitting] at hcold
      cases hcold
  by_cases hmore : sent + sending.length < commitFrame.length
  · rw [if_pos hmore]
    exact
      { holder := h.holder
        successor := fun hdead => by cases hdead
        short := h.short
        ended := fun code hcode => absurd hcode (hopen code)
        cold := fun hcold => by cases hcold
        serving := fun hserving => by cases hserving }
  · rw [if_neg hmore]
    exact
      { holder := h.holder
        successor := fun hdead => by cases hdead
        short := h.short
        ended := fun code hcode => absurd hcode (hopen code)
        cold := fun hcold => by cases hcold
        serving := fun _ got hgot => by
          rw [← List.append_assoc, (hsound.heard got hgot).2.2 sent hcommitting]
          have hlast : commitFrame = commitFrame.take sent ++ sending ++ rest := by
            rw [List.append_assoc, ← hrest, List.take_append_drop]
          have hnone : rest = [] := by
            have hlength := congrArg List.length hrest
            simp only [List.length_drop, List.length_append] at hlength
            exact List.length_eq_zero_iff.mp (by omega)
          rw [hnone, List.append_nil] at hlast
          exact hlast.symm }

/-- The holder erases and leaves. -/
theorem Clean.leave (h : Clean env snapshot s) (memory : Bytes) {next : HolderPhase}
    (hcode : next.code = s.holder.code) (hsome : s.holder.code.isSome) :
    Clean env snapshot { s with holder := next, memory := memory } where
  holder hkilled := by
    simp only at hkilled
    rw [hkilled] at hcode
    rw [← hcode] at hsome
    cases hsome
  successor := h.successor
  short got hgot := by
    simp only at hgot
    rw [hgot] at hcode
    rw [← hcode] at hsome
    cases hsome
  ended code hnext := h.ended code (by rw [← hcode]; exact hnext)
  cold hcold := by
    refine ⟨?_, (h.cold hcold).2⟩
    rw [← hcode] at hsome
    cases next <;> simp [HolderPhase.code, HolderPhase.early] at hsome ⊢
  serving _ got hgot := by
    simp only at hgot
    rw [hgot] at hcode
    rw [← hcode] at hsome
    cases hsome

theorem clean_moves (hlaid : Laid env.serde snapshot dek payloads bytes) (hbytes : bytes ≠ [])
    (hsound : Sound env snapshot dek payloads bytes s) (h : Clean env snapshot s)
    (hm : Moves env s e s') (he : e.faultless = true) : Clean env snapshot s' := by
  cases hm with
  | idle => exact h
  | giveUp _ code hcode hfault hworking =>
    rw [he] at hfault
    cases hfault
  | recvEnded got hholder hnone hclosed =>
    have hcold : s.successor = .cold := by
      cases hphase : s.successor with
      | serving =>
        have hall := h.serving hphase got hholder
        have hlt := h.short got hholder
        rw [hnone, List.append_nil] at hall
        rw [hall] at hlt
        exact absurd hlt (lt_irrefl _)
      | cold => rfl
      | dead => exact absurd hphase h.successor
      | _ =>
        rw [hphase] at hclosed
        cases hclosed
    exact
      { holder := fun hkilled => by cases hkilled
        successor := h.successor
        short := fun got' hgot => by cases hgot
        ended := fun code hcode => by
          cases hcode
          exact Or.inr ⟨rfl, hcold⟩
        cold := fun _ => ⟨rfl, (h.cold hcold).2⟩
        serving := fun _ got' hgot => by cases hgot }
  | hardened hholder =>
    have hearly : s.holder.early = true := by simp [hholder, HolderPhase.early]
    exact h.hold s.down hearly (hsound.not_serving hearly) (Or.inl rfl)
  | locked hholder hsome =>
    have hearly : s.holder.early = true := by simp [hholder, HolderPhase.early]
    exact h.hold s.down hearly (hsound.not_serving hearly) (Or.inl rfl)
  | lockedEmpty hholder hnone =>
    have hearly : s.holder.early = true := by simp [hholder, HolderPhase.early]
    exact h.hold s.down hearly (hsound.not_serving hearly) (Or.inr rfl)
  | send n sent sending rest hholder hsome hrest hopen =>
    have hearly : s.holder.early = true := by simp [hholder, HolderPhase.early]
    apply h.hold _ hearly (hsound.not_serving hearly)
    by_cases hmore : sent + sending.length < s.memory.length
    · rw [if_pos hmore]
      exact Or.inl rfl
    · rw [if_neg hmore]
      exact Or.inr rfl
  | recv n got heard rest hholder hsome hrest => exact Clean.recv hsound h hholder hsome hrest
  | erase code hholder =>
    exact h.leave _ (by simp [hholder, HolderPhase.code]) (by simp [hholder, HolderPhase.code])
  | exit code hholder =>
    exact h.leave s.memory (by simp [hholder, HolderPhase.code])
      (by simp [hholder, HolderPhase.code])
  | killed => cases he
  | boot hbooting =>
    exact h.succeed s.down s.adopted
      (by simp [hbooting, SuccessorPhase.open]) rfl
  | read n stage buf missing got rest hreceiving hsome hrest hle =>
    exact h.succeed _ s.adopted (by simp [hreceiving, SuccessorPhase.open]) rfl
  | readFails stage buf missing hreceiving => cases he
  | readEnded stage buf missing hreceiving hclosed =>
    cases hholder : s.holder with
    | exited code =>
      rcases h.ended code (by simp [hholder, HolderPhase.code]) with ⟨-, hserving⟩ | ⟨-, hcold⟩
      · rw [hreceiving] at hserving
        cases hserving
      · rw [hreceiving] at hcold
        cases hcold
    | killed => exact absurd hholder h.holder
    | _ =>
      rw [hholder] at hclosed
      cases hclosed
  | advance stage buf hreceiving =>
    have hsent := hsound.flow buf (by rw [hreceiving]; rfl)
    have hends := hsound.follows
    rw [hreceiving] at hends
    have hreads := advance_reads hlaid ((List.prefix_append buf s.down).trans hsent.initial)
      stage hends
    apply h.succeed s.down s.adopted
      (by simp [hreceiving, SuccessorPhase.open])
    cases hread : HandoffReader.advance env.serde stage buf with
    | failed =>
      rw [hread] at hreads
      exact hreads.elim
    | _ => rfl
  | imported nowMono wall found key bundle hreceived hok =>
    exact h.succeed s.down s.adopted
      (by simp [hreceived, SuccessorPhase.open]) rfl
  | rejected nowMono wall found key err hreceived herror =>
    have hfollows := hsound.follows
    rw [hreceived] at hfollows
    obtain ⟨rfl, -⟩ := hfollows
    have hlate := hsound.late hbytes (by rw [hreceived]; rfl)
    have hquiet := hsound.quiet (Or.inr (by simp [hreceived, SuccessorPhase.early]))
    have hopen : ∀ code, s.holder.code ≠ some code := by
      intro code hcode
      rcases h.ended code hcode with ⟨-, hphase⟩ | ⟨-, hphase⟩ <;>
        rw [hreceived] at hphase <;> cases hphase
    exact
      { holder := h.holder
        successor := fun hdead => by cases hdead
        short := h.short
        ended := fun code hcode => absurd hcode (hopen code)
        cold := fun _ => ⟨hlate.1, hquiet.1, nowMono, wall, err, herror⟩
        serving := fun hserving => by cases hserving }
  | started bundle key hstarting =>
    exact h.succeed s.down _ (by simp [hstarting, SuccessorPhase.open]) rfl
  | commit n sent sending rest hcommitting hsome hrest =>
    exact Clean.commit hsound h hcommitting hrest
  | commitFails sent hcommitting => cases he
  | die => cases he

def HolderPhase.rank : HolderPhase → ℕ
  | .denyAttach => 6
  | .lockMemory => 5
  | .sending _ => 4
  | .awaiting _ => 3
  | .erasing _ => 2
  | .closing _ => 1
  | _ => 0

def HolderPhase.unsent (memory : Bytes) : HolderPhase → ℕ
  | .denyAttach => memory.length
  | .lockMemory => memory.length
  | .sending sent => memory.length - sent
  | _ => 0

def SuccessorPhase.rank (frames : ℕ) : SuccessorPhase → ℕ
  | .booting => 2 * frames + 6
  | .receiving stage _ _ => stage.work frames + 3
  | .received _ _ => 3
  | .starting _ _ => 2
  | .committing _ => 1
  | _ => 0

def SuccessorPhase.uncommitted : SuccessorPhase → ℕ
  | .committing sent => commitFrame.length - sent
  | .serving => 0
  | .cold => 0
  | .dead => 0
  | _ => commitFrame.length

/-- What is left to do: a byte counts twice before it is sent and once on the wire. -/
def work (frames : ℕ) (s : Handoff) : ℕ :=
  s.holder.rank + 2 * s.holder.unsent s.memory + s.down.length + s.successor.rank frames +
    2 * s.successor.uncommitted + s.up.length

theorem work_moves (hlaid : Laid env.serde snapshot dek payloads bytes)
    (hsound : Sound env snapshot dek payloads bytes s) (hm : Moves env s e s')
    (he : e.faultless = true) : s' = s ∨ work payloads.length s' < work payloads.length s := by
  cases hm with
  | idle => exact Or.inl rfl
  | giveUp _ code hcode hfault hworking =>
    rw [he] at hfault
    cases hfault
  | send n sent sending rest hholder hsome hrest hopen =>
    right
    have hpos := List.length_pos_iff.mpr hsome
    have hlength := congrArg List.length hrest
    simp only [List.length_drop, List.length_append] at hlength
    by_cases hmore : sent + sending.length < s.memory.length
    · simp [work, hholder, if_pos hmore, HolderPhase.rank, HolderPhase.unsent]
      omega
    · simp [work, hholder, if_neg hmore, HolderPhase.rank, HolderPhase.unsent]
      omega
  | recv n got heard rest hholder hsome hrest =>
    right
    have hpos := List.length_pos_iff.mpr hsome
    by_cases hmore : (got ++ heard).length < commitFrame.length
    · rw [if_pos hmore]
      simp only [work, hholder, hrest, HolderPhase.rank, HolderPhase.unsent, List.length_append]
      omega
    · rw [if_neg hmore]
      simp only [work, hholder, hrest, HolderPhase.rank, HolderPhase.unsent, List.length_append]
      omega
  | killed => cases he
  | read n stage buf missing got rest hreceiving hsome hrest hle =>
    right
    have hpos := List.length_pos_iff.mpr hsome
    simp only [work, hreceiving, hrest, SuccessorPhase.rank, SuccessorPhase.uncommitted,
      List.length_append]
    omega
  | readFails stage buf missing hreceiving => cases he
  | advance stage buf hreceiving =>
    right
    have hsent := hsound.flow buf (by rw [hreceiving]; rfl)
    have hends := hsound.follows
    rw [hreceiving] at hends
    have hless := advance_work hlaid ((List.prefix_append buf s.down).trans hsent.initial)
      stage hends
    cases hread : HandoffReader.advance env.serde stage buf with
    | wants next held missing =>
      rw [hread] at hless
      simp only [work, hreceiving, phaseOf, SuccessorPhase.rank, SuccessorPhase.uncommitted]
      simp only [Reading.work] at hless
      omega
    | read found key =>
      rw [hread] at hless
      simp only [work, hreceiving, phaseOf, SuccessorPhase.rank, SuccessorPhase.uncommitted]
      simp only [Reading.work] at hless
      omega
    | failed =>
      simp only [work, hreceiving, phaseOf, SuccessorPhase.rank, SuccessorPhase.uncommitted]
      omega
  | commit n sent sending rest hcommitting hsome hrest =>
    right
    have hpos := List.length_pos_iff.mpr hsome
    have hlength := congrArg List.length hrest
    simp only [List.length_drop, List.length_append] at hlength
    by_cases hmore : sent + sending.length < commitFrame.length
    · simp only [work, if_pos hmore, hcommitting, SuccessorPhase.rank,
        SuccessorPhase.uncommitted, List.length_append]
      omega
    · simp only [work, if_neg hmore, hcommitting, SuccessorPhase.rank,
        SuccessorPhase.uncommitted, List.length_append]
      omega
  | commitFails sent hcommitting => cases he
  | die => cases he
  | recvEnded got h => right; simp [work, h, HolderPhase.rank, HolderPhase.unsent]
  | hardened h => right; simp [work, h, HolderPhase.rank, HolderPhase.unsent]
  | locked h => right; simp [work, h, HolderPhase.rank, HolderPhase.unsent]
  | lockedEmpty h hnone => right; simp [work, h, hnone, HolderPhase.rank, HolderPhase.unsent]
  | erase code h => right; simp [work, h, HolderPhase.rank, HolderPhase.unsent]
  | exit code h => right; simp [work, h, HolderPhase.rank, HolderPhase.unsent]
  | boot h =>
    right
    simp [work, h, SuccessorPhase.rank, SuccessorPhase.uncommitted, ReadStage.work]
  | readEnded stage buf missing h =>
    right
    simp [work, h, SuccessorPhase.rank, SuccessorPhase.uncommitted]
    omega
  | imported nowMono wall found key bundle h =>
    right
    simp [work, h, SuccessorPhase.rank, SuccessorPhase.uncommitted]
  | rejected nowMono wall found key err h =>
    right
    simp [work, h, SuccessorPhase.rank, SuccessorPhase.uncommitted]
    omega
  | started bundle key h =>
    right
    simp [work, h, SuccessorPhase.rank, SuccessorPhase.uncommitted]

/-- Both sides are done: committed, or given up because the snapshot was refused. -/
def Final (env : Env) (snapshot : StoreSnapshot) (s : Handoff) : Prop :=
  s.holder = .exited 0 ∧ s.successor = .serving ∨
  s.holder = .exited 2 ∧ s.successor = .cold ∧ ∃ nowMono wall err,
    Store.importSnapshot env.builder env.token snapshot nowMono wall = .error err

theorem written_ne_nil (n room : ℕ) {rest : Bytes} (hn : 0 < n) (hroom : 0 < room)
    (hrest : rest ≠ []) : written n room rest ≠ [] := by
  simp [written, hrest]
  omega

theorem send_moves (hroom : 0 < env.downRoom) {sent : ℕ} (hholder : s.holder = .sending sent)
    (hrest : s.memory.drop sent ≠ []) (hdown : s.down = []) (hopen : s.successor.open = true) :
    step env s (.send 1) ≠ s := by
  have hsome := written_ne_nil 1 (env.downRoom - s.down.length) (by omega)
    (by simpa [hdown] using hroom) hrest
  intro hsame
  have hlength := congrArg (fun t : Handoff => t.down.length) hsame
  simp [step, hholder, hsome, hopen] at hlength

theorem recv_moves {got : Bytes} (hholder : s.holder = .awaiting got)
    (hshort : got.length < commitFrame.length) (hup : s.up ≠ []) : step env s (.recv 1) ≠ s := by
  have hsome := written_ne_nil 1 (commitFrame.length - got.length) (by omega)
    (by omega) hup
  intro hsame
  have hlength := congrArg (fun t : Handoff => t.up.length) hsame
  have hpos := List.length_pos_iff.mpr hsome
  have hall := List.length_pos_iff.mpr hup
  simp [step, hholder, hsome] at hlength
  omega

theorem read_moves {stage : ReadStage} {buf : Bytes} {missing : ℕ}
    (hreceiving : s.successor = .receiving stage buf missing) (hmissing : 0 < missing)
    (hdown : s.down ≠ []) : step env s (.read 1) ≠ s := by
  have hsome := written_ne_nil 1 _ (by omega) hmissing hdown
  intro hsame
  have hlength := congrArg (fun t : Handoff => t.down.length) hsame
  have hpos := List.length_pos_iff.mpr hsome
  have hall := List.length_pos_iff.mpr hdown
  simp [step, hreceiving, hsome] at hlength
  omega

theorem commit_moves (hroom : 0 < env.upRoom) {sent : ℕ}
    (hcommitting : s.successor = .committing sent) (hlt : sent < commitFrame.length)
    (hup : s.up = []) (hopen : s.holder.open = true) : step env s (.commit 1) ≠ s := by
  have hrest : commitFrame.drop sent ≠ [] := by
    intro hnil
    have hle := List.drop_eq_nil_iff.mp hnil
    omega
  have hsome := written_ne_nil 1 (env.upRoom - s.up.length) (by omega)
    (by simpa [hup] using hroom) hrest
  intro hsame
  have hlength := congrArg (fun t : Handoff => t.up.length) hsame
  simp [step, hcommitting, hsome, hopen] at hlength

theorem advance_moves (hlaid : Laid env.serde snapshot dek payloads bytes)
    (hsound : Sound env snapshot dek payloads bytes s) {stage : ReadStage} {buf : Bytes}
    (hreceiving : s.successor = .receiving stage buf 0) : step env s .advance ≠ s := by
  have hsent := hsound.flow buf (by rw [hreceiving]; rfl)
  have hends := hsound.follows
  rw [hreceiving] at hends
  have hless := advance_work hlaid ((List.prefix_append buf s.down).trans hsent.initial)
    stage hends
  intro hsame
  have hphase := congrArg Handoff.successor hsame
  simp only [step, hreceiving, if_true] at hphase
  cases hread : HandoffReader.advance env.serde stage buf with
  | wants next held missing =>
    rw [hread] at hphase hless
    cases hphase
    exact absurd hless (lt_irrefl _)
  | read found key =>
    rw [hread] at hphase
    cases hphase
  | failed =>
    rw [hread] at hphase
    cases hphase

theorem import_moves {found : StoreSnapshot} {key : Option Bytes}
    (hreceived : s.successor = .received found key) (nowMono : Monotonic) (wall : UInt64) :
    step env s (.importSnapshot nowMono wall) ≠ s := by
  intro hsame
  have hphase := congrArg Handoff.successor hsame
  simp only [step, hreceived] at hphase
  cases hresult : Store.importSnapshot env.builder env.token found nowMono wall with
  | ok bundle => simp [hresult] at hphase
  | error err => simp [hresult] at hphase

theorem exit_moves (next : HolderPhase) (hstep : (step env s e).holder = next)
    (hne : next ≠ s.holder) : step env s e ≠ s := by
  intro hsame
  rw [hsame] at hstep
  exact hne hstep.symm

/-- A receiver that has not got everything, with nothing left on the wire, waits for a
sender. -/
theorem receiving_moves (hlaid : Laid env.serde snapshot dek payloads bytes)
    (hroom : 0 < env.downRoom) (hsound : Sound env snapshot dek payloads bytes s)
    {stage : ReadStage} {buf : Bytes} {missing : ℕ}
    (hreceiving : s.successor = .receiving stage buf missing)
    (hholder : (∃ sent, s.holder = .sending sent) ∨ ∃ got, s.holder = .awaiting got) :
    ∃ e : Event, e.faultless = true ∧ step env s e ≠ s := by
  have hsent := hsound.flow buf (by rw [hreceiving]; rfl)
  rcases Nat.eq_zero_or_pos missing with hmissing | hmissing
  · subst hmissing
    exact ⟨.advance, rfl, advance_moves hlaid hsound hreceiving⟩
  by_cases hdown : s.down = []
  · rcases hholder with ⟨sent, hholder⟩ | ⟨got, hholder⟩
    · refine ⟨.send 1, rfl, send_moves hroom hholder ?_ hdown ?_⟩
      · rw [hsound.memory_eq (by simp [hholder, HolderPhase.working])]
        rw [hholder] at hsent
        intro hnil
        have hle := List.drop_eq_nil_iff.mp hnil
        exact absurd hsent.1 (Nat.not_lt.mpr hle)
      · simp [hreceiving, SuccessorPhase.open]
    · have hends := hsound.follows
      rw [hreceiving] at hends
      have hle := Ends.le hlaid hends
      rw [hholder, hdown, List.append_nil] at hsent
      rw [show buf = bytes from hsent] at hle
      omega
  · exact ⟨.read 1, rfl, read_moves hreceiving hmissing hdown⟩

theorem moves_or_final (hlaid : Laid env.serde snapshot dek payloads bytes) (hbytes : bytes ≠ [])
    (hdownRoom : 0 < env.downRoom) (hupRoom : 0 < env.upRoom)
    (hsound : Sound env snapshot dek payloads bytes s) (h : Clean env snapshot s) :
    (∃ e : Event, e.faultless = true ∧ step env s e ≠ s) ∨ Final env snapshot s := by
  cases hholder : s.holder with
  | denyAttach =>
    refine Or.inl ⟨.denyAttach true, rfl, exit_moves .lockMemory ?_ ?_⟩
    · simp [step, hholder]
    · simp [hholder]
  | lockMemory =>
    have hmemory : s.memory ≠ [] := by
      rw [hsound.memory_eq (by simp [hholder, HolderPhase.working])]
      exact hbytes
    refine Or.inl ⟨.lockMemory true, rfl, exit_moves (.sending 0) ?_ ?_⟩
    · simp [step, hholder, hmemory]
    · simp [hholder]
  | sending sent =>
    have hearly : s.holder.early = true := by simp [hholder, HolderPhase.early]
    have hwait : ∀ phase, s.successor = phase → phase.taken bytes ≠ some bytes := by
      intro phase hphase htaken
      rw [← hphase] at htaken
      rw [(hsound.late hbytes htaken).1] at hearly
      cases hearly
    cases hphase : s.successor with
    | booting =>
      refine Or.inl ⟨.boot, rfl, fun hsame => ?_⟩
      have hnext := congrArg Handoff.successor hsame
      simp [step, hphase] at hnext
    | receiving stage buf missing =>
      exact Or.inl (receiving_moves hlaid hdownRoom hsound hphase (Or.inl ⟨sent, hholder⟩))
    | cold =>
      rw [(h.cold hphase).1] at hearly
      cases hearly
    | dead => exact absurd hphase h.successor
    | _ => exact absurd rfl (hwait _ hphase)
  | awaiting got =>
    left
    have hshort := h.short got hholder
    by_cases hup : s.up = []
    · cases hphase : s.successor with
      | booting =>
        refine ⟨.boot, rfl, fun hsame => ?_⟩
        have hnext := congrArg Handoff.successor hsame
        simp [step, hphase] at hnext
      | receiving stage buf missing =>
        exact receiving_moves hlaid hdownRoom hsound hphase (Or.inr ⟨got, hholder⟩)
      | received found key =>
        exact ⟨.importSnapshot Monotonic.zero 0, rfl, import_moves hphase Monotonic.zero 0⟩
      | starting bundle key =>
        refine ⟨.started, rfl, fun hsame => ?_⟩
        have hnext := congrArg Handoff.successor hsame
        simp [step, hphase] at hnext
      | committing sent =>
        have hlt := hsound.follows
        rw [hphase] at hlt
        exact ⟨.commit 1, rfl,
          commit_moves hupRoom hphase hlt hup (by simp [hholder, HolderPhase.open])⟩
      | serving =>
        have hall := h.serving hphase got hholder
        rw [hup, List.append_nil] at hall
        rw [hall] at hshort
        exact absurd hshort (lt_irrefl _)
      | cold =>
        refine ⟨.recvEnd, rfl, exit_moves (.erasing 2) ?_ ?_⟩
        · simp [step, hholder, hup, hphase, SuccessorPhase.open]
        · simp [hholder]
      | dead => exact absurd hphase h.successor
    · exact ⟨.recv 1, rfl, recv_moves hholder hshort hup⟩
  | erasing code =>
    refine Or.inl ⟨.erase, rfl, exit_moves (.closing code) ?_ ?_⟩
    · simp [step, hholder]
    · simp [hholder]
  | closing code =>
    refine Or.inl ⟨.exit, rfl, exit_moves (.exited code) ?_ ?_⟩
    · simp [step, hholder]
    · simp [hholder]
  | exited code =>
    right
    rcases h.ended code (by simp [hholder, HolderPhase.code]) with ⟨rfl, hserving⟩ | ⟨rfl, hcold⟩
    · exact Or.inl ⟨hholder, hserving⟩
    · exact Or.inr ⟨hholder, hcold, (h.cold hcold).2.2⟩
  | killed => exact absurd hholder h.holder

/-- Neither process has failed in the run. -/
theorem clean_run (hlaid : Laid env.serde snapshot dek payloads bytes) (hbytes : bytes ≠ [])
    {es : List Event} (hes : ∀ e ∈ es, e.faultless = true) :
    Sound env snapshot dek payloads bytes (run (step env) (forked bytes) es) ∧
      Clean env snapshot (run (step env) (forked bytes) es) :=
  run_invariant (step env) (P := fun _ e => e.faultless = true)
    (I := fun t => Sound env snapshot dek payloads bytes t ∧ Clean env snapshot t)
    (fun s e h he => ⟨h.1.moves hlaid hbytes (step_moves env s e),
      clean_moves hlaid hbytes h.1 h.2 (step_moves env s e) he⟩) _ _
    (along_of_mem _ _ _ hes)
    ⟨sound_forked env snapshot dek payloads bytes, clean_forked env snapshot bytes⟩

/-- A run in which every step moves is no longer than the work there is. -/
theorem length_le_work (hlaid : Laid env.serde snapshot dek payloads bytes) (hbytes : bytes ≠ [])
    {es : List Event} (hsound : Sound env snapshot dek payloads bytes s)
    (hes : ∀ e ∈ es, e.faultless = true)
    (hmoving : Along (step env) (fun t e => step env t e ≠ t) s es) :
    es.length ≤ work payloads.length s := by
  induction es generalizing s with
  | nil => simp
  | cons e es ih =>
    have hless := (work_moves hlaid hsound (step_moves env s e) (hes e (by simp))).resolve_left
      hmoving.1
    have hrest := ih (hsound.moves hlaid hbytes (step_moves env s e))
      (fun e' he' => hes e' (by simp [he'])) hmoving.2
    simp only [List.length_cons]
    omega

end Completion

section Theorems

variable {env : Env} {old : Store} {clock : Clock} {wallE : UInt64} {found : StoreSnapshot}

/-- Only the entries of a readable snapshot matter to the import. -/
theorem importSnapshot_congr {snapshot : StoreSnapshot} {builder : StoreBuilder}
    {token : BitVec 128} {nowMono : Monotonic} {wall : UInt64}
    (hentries : snapshot.entries = found.entries)
    (hsnapshot : versionIsSupported snapshot.formatVersion = true)
    (hfound : versionIsSupported found.formatVersion = true) :
    Store.importSnapshot builder token snapshot nowMono wall =
      Store.importSnapshot builder token found nowMono wall := by
  unfold Store.importSnapshot
  rw [hsnapshot, hfound, hentries]
  rfl

theorem handOver_ok {builder : StoreBuilder} {token : BitVec 128} {nowMono : Monotonic}
    {wall : UInt64} {bundle : StoreBundle}
    (hok : Store.importSnapshot builder token (fromEntries (old.exportEntries clock wallE))
      nowMono wall = .ok bundle) :
    old.handOver clock wallE builder token nowMono wall = .ok bundle := by
  unfold Store.handOver
  rw [Store.exportSnapshot_eq]
  simp only [hok]

theorem handOver_error {builder : StoreBuilder} {token : BitVec 128} {nowMono : Monotonic}
    {wall : UInt64} {err : ImportError}
    (herror : Store.importSnapshot builder token (fromEntries (old.exportEntries clock wallE))
      nowMono wall = .error err) :
    old.handOver clock wallE builder token nowMono wall = .error (.import err) := by
  unfold Store.handOver
  rw [Store.exportSnapshot_eq]
  simp only [herror]

/-- What was prepared from the store is laid out, and importing it hands the store over. -/
theorem laid_export {dek : Option Bytes} {bytes : Bytes}
    (hserde : env.serde.Lossless (old.exportEntries clock wallE))
    (hdek : ∀ key, dek = some key → key.length = 32)
    (hexport : old.exportSnapshot old.controlCap clock wallE = .ok found)
    (hprepare : prepare env.serde found dek = .ok bytes) :
    ∃ snapshot payloads, Laid env.serde snapshot dek payloads bytes ∧ bytes ≠ [] ∧
      ∀ nowMono wall, Store.importSnapshot env.builder env.token snapshot nowMono wall =
        Store.importSnapshot env.builder env.token
          (fromEntries (old.exportEntries clock wallE)) nowMono wall := by
  rw [Store.exportSnapshot_eq] at hexport
  cases hexport
  obtain ⟨snapshot, payloads, hentries, hversion, hlaid⟩ := laid_prepare hserde hdek hprepare
  refine ⟨snapshot, payloads, hlaid, ?_, fun nowMono wall => ?_⟩
  · have hle := hlaid.length_le
    exact List.length_pos_iff.mp (by omega)
  · exact importSnapshot_congr hentries hversion (Store.supported_fromEntries _)

/-- However sends, reads, failures and deaths of the two processes fall: what the new process
comes up with is the store of the old one, handed over whole, with the data key that was put
in; the holder exits with 0 only where the new process has come up with it; and a holder that
has exited has nothing left of the bytes. -/
theorem handoff_all_or_nothing (env : Env) (old : Store) (clock : Clock) (wallE : UInt64)
    (found : StoreSnapshot) (dek : Option Bytes) (bytes : Bytes)
    (hserde : env.serde.Lossless (old.exportEntries clock wallE))
    (hdek : ∀ key, dek = some key → key.length = 32)
    (hexport : old.exportSnapshot old.controlCap clock wallE = .ok found)
    (hprepare : prepare env.serde found dek = .ok bytes) (es : List Event) :
    (∀ bundle key, (run (step env) (forked bytes) es).adopted = some (bundle, key) →
      key = dek ∧ ∃ nowMono wall,
        old.handOver clock wallE env.builder env.token nowMono wall = .ok bundle) ∧
    ((run (step env) (forked bytes) es).holder = .exited 0 →
      (run (step env) (forked bytes) es).adopted.isSome) ∧
    ∀ code, (run (step env) (forked bytes) es).holder = .exited code →
      (run (step env) (forked bytes) es).memory = List.replicate bytes.length 0 := by
  obtain ⟨snapshot, payloads, hlaid, hbytes, himport⟩ := laid_export hserde hdek hexport hprepare
  have hsound := sound_run hlaid hbytes es
  refine ⟨fun bundle key hadopted => ?_, fun hexited => ?_, fun code hexited => ?_⟩
  · obtain ⟨hkey, nowMono, wall, hok⟩ := hsound.adopted bundle key hadopted
    refine ⟨hkey, nowMono, wall, ?_⟩
    rw [himport] at hok
    exact handOver_ok hok
  · exact hsound.settled (by rw [hexited]; rfl)
  · have hmemory := hsound.memory
    rw [hexited] at hmemory
    rw [show (run (step env) (forked bytes) es).memory = bytes.map fun _ => 0 from hmemory]
    exact List.map_const'

/-- A store with one value. -/
def heldStore : Store :=
  ((StoreBuilder.build ⟨Duration.zero⟩ 0).store.set "ns/k" .static [1] Ttl.never ⟨0⟩
    Monotonic.zero).2

def heldClock : Clock := Clock.constant Monotonic.zero

def heldSnapshot : StoreSnapshot := fromEntries (heldStore.exportEntries heldClock 0)

/-- A serializer of the one entry of that store. -/
def heldSerde : Serde where
  toVec _ := .ok [0x7b, 0x7d]
  fromSlice _ := heldSnapshot.entries.head?.elim (.error ⟨"no entry"⟩) .ok

def heldEnv : Env := ⟨heldSerde, ⟨Duration.zero⟩, 1, 40, 4⟩

def heldKey : Bytes := List.replicate 32 9

def heldBytes : Bytes := (prepare heldSerde heldSnapshot (some heldKey)).toOption.getD []

theorem held_lossless : heldSerde.Lossless (heldStore.exportEntries heldClock 0) := by
  intro e he
  refine ⟨_, rfl, ?_⟩
  revert e
  decide

theorem held_key (key : Bytes) (h : some heldKey = some key) : key.length = 32 := by
  cases h
  rfl

theorem held_prepare : prepare heldSerde heldSnapshot (some heldKey) = .ok heldBytes := by
  decide

/-- A hand-over in small pieces, up to the moment before COMMIT. -/
def heldSteps : List Event :=
  [.denyAttach true, .lockMemory true, .send 30, .boot, .read 12, .read 12, .advance, .read 3,
    .send 100, .read 9, .advance, .read 9, .advance, .read 20, .send 100, .read 20, .read 20,
    .advance, .importSnapshot Monotonic.zero 0, .started]

def heldCommit : List Event := [.commit 6, .recv 3, .commit 6, .recv 6, .erase, .exit]

theorem handoff_all_or_nothing_held :
    (∃ bundle, (run (step heldEnv) (forked heldBytes) (heldSteps ++ [.recvTimeout])).adopted =
        some (bundle, some heldKey) ∧ ∃ nowMono wall,
      heldStore.handOver heldClock 0 heldEnv.builder heldEnv.token nowMono wall = .ok bundle) ∧
    (run (step heldEnv) (forked heldBytes) (heldSteps ++ heldCommit)).memory =
      List.replicate heldBytes.length 0 := by
  have hall := handoff_all_or_nothing heldEnv heldStore heldClock 0 heldSnapshot (some heldKey)
    heldBytes held_lossless held_key (Store.exportSnapshot_eq ..) held_prepare
  refine ⟨?_, (hall (heldSteps ++ heldCommit)).2.2 0 (by decide)⟩
  have hsome : (run (step heldEnv) (forked heldBytes)
      (heldSteps ++ [.recvTimeout])).adopted.isSome := by decide
  obtain ⟨⟨bundle, key⟩, hadopted⟩ := Option.isSome_iff_exists.mp hsome
  obtain ⟨hkey, himported⟩ := (hall _).1 bundle key hadopted
  exact ⟨bundle, by rw [hadopted, hkey], himported⟩

/-- Where neither process fails, the hand-over cannot stall: sends and reads of whatever
sizes, over sockets of whatever room, go on until the holder has erased everything and exited
with 0 and the new process serves, unless the import refuses the snapshot. -/
theorem handoff_completes (env : Env) (old : Store) (clock : Clock) (wallE : UInt64)
    (found : StoreSnapshot) (dek : Option Bytes) (bytes : Bytes)
    (hserde : env.serde.Lossless (old.exportEntries clock wallE))
    (hdek : ∀ key, dek = some key → key.length = 32)
    (hexport : old.exportSnapshot old.controlCap clock wallE = .ok found)
    (hprepare : prepare env.serde found dek = .ok bytes)
    (hdown : 0 < env.downRoom) (hup : 0 < env.upRoom) :
    ∃ bound, ∀ es : List Event, (∀ e ∈ es, e.faultless = true) →
      (Along (step env) (fun s e => step env s e ≠ s) (forked bytes) es → es.length ≤ bound) ∧
      ((∀ e : Event, e.faultless = true →
          step env (run (step env) (forked bytes) es) e = run (step env) (forked bytes) es) →
        (run (step env) (forked bytes) es).holder = .exited 0 ∧
          (run (step env) (forked bytes) es).successor = .serving ∧
          (run (step env) (forked bytes) es).adopted.isSome ∨
        (run (step env) (forked bytes) es).holder = .exited 2 ∧
          (run (step env) (forked bytes) es).successor = .cold ∧
          ∃ nowMono wall e, old.handOver clock wallE env.builder env.token nowMono wall =
            .error e) := by
  obtain ⟨snapshot, payloads, hlaid, hbytes, himport⟩ := laid_export hserde hdek hexport hprepare
  refine ⟨work payloads.length (forked bytes), fun es hes => ⟨fun hmoving => ?_, fun hstuck => ?_⟩⟩
  · exact length_le_work hlaid hbytes (sound_forked env snapshot dek payloads bytes) hes hmoving
  · obtain ⟨hsound, hclean⟩ := clean_run hlaid hbytes hes
    rcases moves_or_final hlaid hbytes hdown hup hsound hclean with ⟨e, he, hmoves⟩ | hfinal
    · exact absurd (hstuck e he) hmoves
    rcases hfinal with ⟨hexited, hserving⟩ | ⟨hexited, hcold, nowMono, wall, err, herror⟩
    · exact Or.inl ⟨hexited, hserving, hsound.up (Or.inl hserving)⟩
    · refine Or.inr ⟨hexited, hcold, nowMono, wall, .import err, ?_⟩
      rw [himport] at herror
      exact handOver_error herror

theorem handoff_completes_held :
    ∃ bound, (heldSteps ++ heldCommit).length ≤ bound ∧
      (run (step heldEnv) (forked heldBytes) (heldSteps ++ heldCommit)).holder = .exited 0 := by
  obtain ⟨bound, hbound⟩ := handoff_completes heldEnv heldStore heldClock 0 heldSnapshot
    (some heldKey) heldBytes held_lossless held_key (Store.exportSnapshot_eq ..) held_prepare
    (by decide) (by decide)
  refine ⟨bound, (hbound _ (by decide)).1 ?_, by decide⟩
  decide

end Theorems

end HandoffCommit

end Daemon

end CacheWarden
