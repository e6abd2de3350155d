import CacheWarden.Ancestry
import CacheWarden.Daemon.GuardPlans
import CacheWarden.Lib.Transition

/-!
# The capture of a requester

A connection remembers its peer by pid. Each request walks the ancestry from that
pid, one inspection at a time, and then reads a unique id for each pid of the
chain, while processes fork, exit and take over pids that have become free.
-/

set_option autoImplicit false

namespace CacheWarden

namespace Daemon

namespace Capture

open ProcessTree Transition

structure Life where
  pid : UInt32
  uniqueId : UInt64
  start : Duration
  deriving DecidableEq

abbrev Processes := Table UInt32 Life

/-- Orphans become children of the first process. -/
def initPid : UInt32 := 1

/-- How much of a process the system shows: nothing, an error, or an answer that
may lack the parent or the start time. -/
inductive Sight where
  | missed
  | unavailable (message : String)
  | shown (ppid : Bool) (path : Option OsPath) (startTime : Bool)
  deriving DecidableEq

def inspect (processes : Processes) (sight : Sight) : ProcessInspector := fun pid =>
  match sight, processes pid with
  | .unavailable message, _ => .error (.unavailable message)
  | .missed, _ => .error (.notFound pid)
  | .shown _ _ _, none => .error (.notFound pid)
  | .shown ppid path startTime, some n =>
    .ok ⟨pid, if ppid then n.parent else none, path, if startTime then some n.self.start else none⟩

/-- `unique_id(pid).ok()`. -/
def uniqueId (processes : Processes) (known : Bool) (pid : UInt32) : Option UInt64 :=
  if known then (processes pid).map (·.self.uniqueId) else none

/-- How far the capture of the current request has come. -/
inductive Phase where
  | idle
  | walking (walk : Walk)
  | identifying (rest : List ProcessInfo) (chain : List GetterProcess)
  | captured (guardChain : Option (List GetterProcess))
  deriving DecidableEq

/-- The pid the next step looks up. -/
def Phase.lookup : Phase → Option UInt32
  | .idle => none
  | .walking walk => walk.current
  | .identifying rest _ => rest.head?.map ProcessInfo.pid
  | .captured _ => none

/-- A connection, with the process that opened it and what the process table has
been since. -/
structure Connection where
  peer : Option UInt32
  opener : Life
  atAccept : Processes
  moments : List Processes
  phase : Phase

structure World where
  processes : Processes
  born : List Life
  connection : Option Connection

inductive Event where
  | fork (parent new : UInt32) (uniqueId : UInt64) (start : Duration)
  | exit (pid : UInt32)
  | accept (pid : UInt32) (known : Bool)
  | request
  | inspect (sight : Sight)
  | identify (known : Bool)
  deriving DecidableEq

def Phase.identified (rest : List ProcessInfo) (chain : List GetterProcess) : Phase :=
  if rest.isEmpty then .captured (some chain) else .identifying rest chain

def Connection.request (self : Connection) : Connection :=
  match self.phase with
  | .idle | .captured _ =>
    { self with
      phase :=
        match self.peer with
        | some pid => .walking (.start pid)
        | none => .captured none }
  | _ => self

def Connection.inspect (self : Connection) (processes : Processes) (sight : Sight) : Connection :=
  match self.phase with
  | .walking walk =>
    { self with
      phase :=
        match walk.step (Capture.inspect processes sight) with
        | .again walk => .walking walk
        | .ended (.ok chain) => .identified chain []
        | .ended (.error _) => .captured none }
  | _ => self

def Connection.identify (self : Connection) (processes : Processes) (known : Bool) : Connection :=
  match self.phase with
  | .identifying (info :: rest) chain =>
    { self with
      phase := .identified rest (chain ++ [⟨info, uniqueId processes known info.pid⟩]) }
  | _ => self

def World.change (self : World) (c : Change UInt32 Life) : World where
  processes := self.processes.change initPid c
  born :=
    match c with
    | .fork _ _ life => life :: self.born
    | .exit _ => self.born
  connection := self.connection.map fun conn =>
    { conn with moments := conn.moments ++ [self.processes.change initPid c] }

def World.accept (self : World) (pid : UInt32) (known : Bool) : World :=
  match self.processes pid with
  | some n =>
    { self with
      connection := some ⟨if known then some pid else none, n.self, self.processes,
        [self.processes], .idle⟩ }
  | none => self

def step (self : World) : Event → World
  | .fork parent new uniqueId start => self.change (.fork parent new ⟨new, uniqueId, start⟩)
  | .exit pid => self.change (.exit pid)
  | .accept pid known => self.accept pid known
  | .request => { self with connection := self.connection.map Connection.request }
  | .inspect sight =>
    { self with connection := self.connection.map (·.inspect self.processes sight) }
  | .identify known =>
    { self with connection := self.connection.map (·.identify self.processes known) }

/-- Neither a unique id nor a pid with a start time comes twice. -/
def Permitted (self : World) : Event → Prop
  | .fork parent new uniqueId start =>
    self.processes.Possible initPid (.fork parent new ⟨new, uniqueId, start⟩) ∧ new ≠ 0 ∧
      ∀ life ∈ self.born, life.uniqueId ≠ uniqueId ∧ ¬(life.pid = new ∧ life.start = start)
  | .exit pid => pid ≠ initPid
  | _ => True

/-- Whoever has the pid that is looked up now, had it when the connection was
accepted. -/
def Undisturbed (self : World) : Event → Prop
  | .inspect _ | .identify _ =>
    ∀ conn pid, self.connection = some conn → conn.phase.lookup = some pid →
      Held conn.atAccept self.processes pid
  | _ => True

/-- A process table as the system keeps it. -/
structure Settled (processes : Processes) (born : List Life) : Prop where
  tree : Tree initPid processes
  kernel : processes 0 = none
  pid : ∀ p n, processes p = some n → n.self.pid = p
  born : ∀ p n, processes p = some n → n.self ∈ born

structure Orderly (s : World) : Prop where
  settled : Settled s.processes s.born
  uniqueId : ∀ a ∈ s.born, ∀ b ∈ s.born, a.uniqueId = b.uniqueId → a = b
  start : ∀ a ∈ s.born, ∀ b ∈ s.born, a.pid = b.pid → a.start = b.start → a = b

/-- At this moment the one is the other or an ancestor of it. -/
def Above (processes : Processes) (life opener : Life) : Prop :=
  (processes opener.pid).map Node.self = some opener ∧
    (processes life.pid).map Node.self = some life ∧ Kin processes opener.pid life.pid

/-- The record's facts are those of the process. -/
structure Pins (pinned : PinnedProcess) (life : Life) : Prop where
  pid : pinned.pid = life.pid
  startTime : ∀ start, pinned.startTime = some start → start = life.start
  uniqueId : ∀ id, pinned.uniqueId = some id → id = life.uniqueId

/-- The capture sees every process, each under its path. -/
def inspectAll (processes : Processes) (paths : UInt32 → Option OsPath) : ProcessInspector :=
  fun pid => inspect processes (.shown true (paths pid) true) pid

/-- A capture that nothing interrupts and from which nothing is hidden. -/
def Uninterrupted (processes : Processes) (paths : UInt32 → Option OsPath) (pid : UInt32)
    (chain : List GetterProcess) : Prop :=
  ∃ infos, ancestry (inspectAll processes paths) pid = some (.ok infos) ∧
    chain = infos.map fun info => ⟨info, uniqueId processes true info.pid⟩

/-- What an approval of the captured chain stands for: a pinned process was the
opener or an ancestor of it, and a capture that nothing interrupts finds it too.
Where the record pins what there has been, that capture, with the paths that the
captured chain shows, is approved as well. -/
def Sound (self : World) : Prop :=
  ∀ conn chain token record out,
    self.connection = some conn → conn.phase = .captured (some chain) →
    evaluate chain token record = .ok out →
    ∃ paths calm, (∀ g ∈ chain, paths g.info.pid = g.info.path) ∧
      Uninterrupted conn.atAccept paths conn.opener.pid calm ∧
      (∀ declared pinned life, .sameAncestor declared pinned ∈ record.constraints →
        life ∈ self.born → Pins pinned life →
        (∃ processes ∈ conn.moments, Above processes life conn.opener) ∧
          (findInChain calm pinned).isSome) ∧
      ((∀ declared pinned, .sameAncestor declared pinned ∈ record.constraints →
          ∃ life ∈ self.born, Pins pinned life) →
        (evaluate calm token record).isOk)

section Facts

/-- The facts are of the opener or an ancestor of it, as they were at the accept. -/
structure Shown (processes : Processes) (opener : UInt32) (info : ProcessInfo) : Prop where
  kin : Kin processes opener info.pid
  startTime : ∀ start, info.startTime = some start →
    ∀ n, processes info.pid = some n → n.self.start = start

structure Known (processes : Processes) (opener : UInt32) (g : GetterProcess) : Prop where
  info : Shown processes opener g.info
  uniqueId : ∀ id, g.uniqueId = some id →
    ∀ n, processes g.info.pid = some n → n.self.uniqueId = id

def Reflects (processes : Processes) (opener : UInt32) : Phase → Prop
  | .idle => True
  | .walking walk =>
    (∀ pid, walk.current = some pid → Kin processes opener pid) ∧
      ∀ info ∈ walk.chain, Shown processes opener info
  | .identifying rest chain =>
    (∀ info ∈ rest, Shown processes opener info) ∧ ∀ g ∈ chain, Known processes opener g
  | .captured guardChain => ∀ chain, guardChain = some chain → ∀ g ∈ chain, Known processes opener g

structure Faithful (s : World) (conn : Connection) : Prop where
  settled : Settled conn.atAccept s.born
  follows : Follows initPid conn.atAccept s.processes
  opener : (conn.atAccept conn.opener.pid).map Node.self = some conn.opener
  peer : ∀ pid, conn.peer = some pid → pid = conn.opener.pid
  moment : conn.atAccept ∈ conn.moments
  reflects : Reflects conn.atAccept conn.opener.pid conn.phase

structure Kept (s : World) : Prop where
  orderly : Orderly s
  faithful : ∀ conn, s.connection = some conn → Faithful s conn

variable {processes later : Processes} {opener pid : UInt32} {sight : Sight} {known : Bool}

theorem inspect_ok {info : ProcessInfo} (h : inspect processes sight pid = .ok info) :
    ∃ n, processes pid = some n ∧ info.pid = pid ∧
      (∀ ppid, info.ppid = some ppid → n.parent = some ppid) ∧
      ∀ start, info.startTime = some start → n.self.start = start := by
  revert h
  unfold inspect
  split
  · exact fun h => by cases h
  · exact fun h => by cases h
  · exact fun h => by cases h
  rename_i ppid path startTime n hn
  intro h
  cases h
  refine ⟨n, hn, rfl, ?_, ?_⟩
  · intro q hq
    cases ppid with
    | false => cases hq
    | true => exact hq
  · intro start hstart
    cases startTime with
    | false => cases hstart
    | true => exact Option.some.inj hstart

theorem uniqueId_some {id : UInt64} (h : uniqueId processes known pid = some id) :
    ∃ n, processes pid = some n ∧ n.self.uniqueId = id := by
  unfold uniqueId at h
  cases known with
  | false => cases h
  | true => exact Option.map_eq_some_iff.mp h

/-- What is read of a pid that has not changed hands is what held at the accept. -/
theorem Held.self_eq (h : Held processes later pid) {n n' : Node UInt32 Life}
    (hn : processes pid = some n) (hn' : later pid = some n') : n.self = n'.self := by
  obtain ⟨m, hm, hself⟩ := h n' hn'
  rw [hn] at hm
  cases hm
  exact hself

theorem Reflects.identified {rest : List ProcessInfo} {chain : List GetterProcess}
    (hrest : ∀ info ∈ rest, Shown processes opener info)
    (hchain : ∀ g ∈ chain, Known processes opener g) :
    Reflects processes opener (.identified rest chain) := by
  unfold Phase.identified
  split
  · intro found hfound
    cases hfound
    exact hchain
  · exact ⟨hrest, hchain⟩

/-- The parent that an inspection names was an ancestor at the accept. -/
theorem Reflects.again {walk next : Walk} (htree : Tree initPid processes)
    (hfollows : Follows initPid processes later)
    (h : Reflects processes opener (.walking walk))
    (hheld : ∀ pid, walk.current = some pid → Held processes later pid)
    (hnext : walk.step (inspect later sight) = .again next) :
    Reflects processes opener (.walking next) := by
  obtain ⟨hcurrent, hchain⟩ := h
  obtain ⟨p, info, hp, -, -, hinfo, rfl⟩ := Walk.again_cases hnext
  obtain ⟨n', hn', hpid, hppid, hstart⟩ := inspect_ok hinfo
  have hkin := hcurrent p hp
  constructor
  · intro q hq
    exact hfollows.kin htree hkin (hheld p hp) hn' (hppid q hq)
  · intro found hfound
    rcases List.mem_append.mp hfound with hfound | hfound
    · exact hchain found hfound
    rw [List.mem_singleton] at hfound
    subst hfound
    constructor
    · rw [hpid]
      exact hkin
    · intro start hs n hn
      rw [hpid] at hn
      rw [Held.self_eq (hheld p hp) hn hn']
      exact hstart start hs

end Facts

section Steps

variable {s : World} {conn : Connection}

theorem Settled.mono {processes : Processes} {born more : List Life}
    (h : Settled processes born) (hsub : ∀ life ∈ born, life ∈ more) :
    Settled processes more where
  tree := h.tree
  kernel := h.kernel
  pid := h.pid
  born p n hn := hsub _ (h.born p n hn)

theorem Settled.fork {processes : Processes} {born : List Life} {parent : UInt32} {life : Life}
    (h : Settled processes born)
    (hpossible : processes.Possible initPid (.fork parent life.pid life)) (hne : life.pid ≠ 0) :
    Settled (processes.change initPid (.fork parent life.pid life)) (life :: born) where
  tree := h.tree.fork hpossible
  kernel := by
    rw [change_fork, if_neg hne.symm]
    exact h.kernel
  pid p n hn := by
    rw [change_fork] at hn
    split at hn
    · rename_i hp
      cases hn
      exact hp.symm
    · exact h.pid p n hn
  born p n hn := by
    rw [change_fork] at hn
    split at hn
    · cases hn
      exact List.mem_cons_self
    · exact List.mem_cons_of_mem _ (h.born p n hn)

theorem Settled.exit {processes : Processes} {born : List Life} {gone : UInt32}
    (h : Settled processes born) (hne : gone ≠ initPid) :
    Settled (processes.change initPid (.exit gone)) born := by
  have hwas : ∀ p n, processes.change initPid (.exit gone) p = some n →
      ∃ m, processes p = some m ∧ m.self = n.self := by
    intro p n hn
    rw [change_exit] at hn
    split at hn
    · cases hn
    obtain ⟨m, hm, rfl⟩ := Option.map_eq_some_iff.mp hn
    exact ⟨m, hm, rfl⟩
  constructor
  · exact h.tree.exit hne
  · rw [change_exit, h.kernel]
    split
    · rfl
    · rfl
  · intro p n hn
    obtain ⟨m, hm, hself⟩ := hwas p n hn
    rw [← hself]
    exact h.pid p m hm
  · intro p n hn
    obtain ⟨m, hm, hself⟩ := hwas p n hn
    rw [← hself]
    exact h.born p m hm

theorem Orderly.fork {parent : UInt32} {life : Life} (h : Orderly s)
    (hpossible : s.processes.Possible initPid (.fork parent life.pid life)) (hne : life.pid ≠ 0)
    (hnew : ∀ a ∈ s.born, a.uniqueId ≠ life.uniqueId ∧ ¬(a.pid = life.pid ∧ a.start = life.start)) :
    Orderly (s.change (.fork parent life.pid life)) where
  settled := h.settled.fork hpossible hne
  uniqueId := by
    intro a ha b hb heq
    rcases List.mem_cons.mp ha with hlife | hold
    · rcases List.mem_cons.mp hb with hlife' | hold'
      · exact hlife.trans hlife'.symm
      · rw [hlife] at heq
        exact absurd heq.symm (hnew b hold').1
    · rcases List.mem_cons.mp hb with hlife' | hold'
      · rw [hlife'] at heq
        exact absurd heq (hnew a hold).1
      · exact h.uniqueId a hold b hold' heq
  start := by
    intro a ha b hb hpid hstart
    rcases List.mem_cons.mp ha with hlife | hold
    · rcases List.mem_cons.mp hb with hlife' | hold'
      · exact hlife.trans hlife'.symm
      · rw [hlife] at hpid hstart
        exact absurd ⟨hpid.symm, hstart.symm⟩ (hnew b hold').2
    · rcases List.mem_cons.mp hb with hlife' | hold'
      · rw [hlife'] at hpid hstart
        exact absurd ⟨hpid, hstart⟩ (hnew a hold).2
      · exact h.start a hold b hold' hpid hstart

theorem Orderly.exit {gone : UInt32} (h : Orderly s) (hne : gone ≠ initPid) :
    Orderly (s.change (.exit gone)) where
  settled := h.settled.exit hne
  uniqueId := h.uniqueId
  start := h.start

/-- What the processes do leaves what has been read as it is. -/
theorem Faithful.change {c : Change UInt32 Life} (h : Faithful s conn)
    (hnew : ∀ parent new life, c = .fork parent new life → life ∉ s.born) :
    Faithful (s.change c)
      { conn with moments := conn.moments ++ [s.processes.change initPid c] } where
  settled := by
    apply h.settled.mono
    intro life hlife
    cases c with
    | fork parent new life => exact List.mem_cons_of_mem _ hlife
    | exit gone => exact hlife
  follows := by
    apply h.follows.change
    intro parent new life hc p n hn hself
    apply hnew parent new life hc
    rw [← hself]
    exact h.settled.born p n hn
  opener := h.opener
  peer := h.peer
  moment := List.mem_append_left _ h.moment
  reflects := h.reflects

/-- What the daemon does changes the phase alone. -/
theorem Faithful.phase {phase : Phase} {connection : Option Connection} (h : Faithful s conn)
    (hreflects : Reflects conn.atAccept conn.opener.pid phase) :
    Faithful { s with connection } { conn with phase } where
  settled := h.settled
  follows := h.follows
  opener := h.opener
  peer := h.peer
  moment := h.moment
  reflects := hreflects

theorem Faithful.kin_refl (h : Faithful s conn) :
    Kin conn.atAccept conn.opener.pid conn.opener.pid := by
  apply Kin.refl
  obtain ⟨n, hn, -⟩ := Option.map_eq_some_iff.mp h.opener
  rw [hn]
  rfl

theorem Faithful.request {connection : Option Connection} (h : Faithful s conn) :
    Faithful { s with connection } conn.request := by
  have hstart : Faithful { s with connection }
      { conn with
        phase :=
          match conn.peer with
          | some pid => .walking (.start pid)
          | none => .captured none } := by
    apply h.phase
    split
    · rename_i pid hpid
      constructor
      · intro q hq
        cases hq
        rw [h.peer pid hpid]
        exact h.kin_refl
      · intro info hinfo
        cases hinfo
    · intro chain hchain
      cases hchain
  unfold Connection.request
  split
  · exact hstart
  · exact hstart
  · exact h.phase h.reflects

theorem Faithful.inspect {connection : Option Connection} {sight : Sight} (h : Faithful s conn)
    (hheld : ∀ pid, conn.phase.lookup = some pid → Held conn.atAccept s.processes pid) :
    Faithful { s with connection } (conn.inspect s.processes sight) := by
  unfold Connection.inspect
  split
  · rename_i walk hwalk
    have hreflects := h.reflects
    rw [hwalk] at hreflects hheld
    apply h.phase
    split
    · rename_i next hnext
      exact hreflects.again h.settled.tree h.follows hheld hnext
    · rename_i chain hchain
      apply Reflects.identified
      · rw [Walk.ended_ok hchain]
        exact hreflects.2
      · intro g hg
        cases hg
    · intro chain hchain
      cases hchain
  · exact h.phase h.reflects

theorem Faithful.identify {connection : Option Connection} {known : Bool} (h : Faithful s conn)
    (hheld : ∀ pid, conn.phase.lookup = some pid → Held conn.atAccept s.processes pid) :
    Faithful { s with connection } (conn.identify s.processes known) := by
  unfold Connection.identify
  split
  · rename_i info rest chain hphase
    have hreflects := h.reflects
    rw [hphase] at hreflects hheld
    obtain ⟨hrest, hchain⟩ := hreflects
    apply h.phase
    apply Reflects.identified
    · intro found hfound
      exact hrest found (List.mem_cons_of_mem _ hfound)
    · intro g hg
      rcases List.mem_append.mp hg with hg | hg
      · exact hchain g hg
      rw [List.mem_singleton] at hg
      subst hg
      constructor
      · exact hrest info List.mem_cons_self
      · intro id hid n hn
        obtain ⟨n', hn', hself⟩ := uniqueId_some hid
        rw [Held.self_eq (hheld info.pid rfl) hn hn']
        exact hself
  · exact h.phase h.reflects

theorem Kept.accept {pid : UInt32} {known : Bool} (h : Kept s) : Kept (s.accept pid known) := by
  unfold World.accept
  split
  · rename_i n hn
    have hpid := h.orderly.settled.pid pid n hn
    constructor
    · exact ⟨h.orderly.settled, h.orderly.uniqueId, h.orderly.start⟩
    · intro conn hconn
      cases hconn
      constructor
      · exact h.orderly.settled
      · exact follows_refl
      · show (s.processes n.self.pid).map Node.self = some n.self
        rw [hpid, hn]
        rfl
      · intro p hp
        cases known with
        | false => cases hp
        | true =>
          cases hp
          exact hpid.symm
      · exact List.mem_cons_self
      · trivial
  · exact h

theorem Kept.change {c : Change UInt32 Life} (h : Kept s) (horderly : Orderly (s.change c))
    (hnew : ∀ parent new life, c = .fork parent new life → life ∉ s.born) : Kept (s.change c) where
  orderly := horderly
  faithful conn hconn := by
    obtain ⟨before, hbefore, rfl⟩ := Option.map_eq_some_iff.mp hconn
    exact (h.faithful before hbefore).change hnew

/-- What the daemon does to the connection, one at a time. -/
theorem Kept.daemon {act : Connection → Connection} (h : Kept s)
    (hact : ∀ conn, s.connection = some conn →
      Faithful { s with connection := s.connection.map act } (act conn)) :
    Kept { s with connection := s.connection.map act } where
  orderly := ⟨h.orderly.settled, h.orderly.uniqueId, h.orderly.start⟩
  faithful conn hconn := by
    obtain ⟨before, hbefore, rfl⟩ := Option.map_eq_some_iff.mp hconn
    exact hact before hbefore

theorem Kept.step {e : Event} (h : Kept s) (hpermitted : Permitted s e)
    (hundisturbed : Undisturbed s e) : Kept (step s e) := by
  cases e with
  | fork parent new uniqueId start =>
    obtain ⟨hpossible, hne, hfresh⟩ := hpermitted
    apply h.change
    · exact @Orderly.fork s parent ⟨new, uniqueId, start⟩ h.orderly hpossible hne hfresh
    · intro _ _ life hlife hborn
      cases hlife
      exact (hfresh _ hborn).1 rfl
  | exit pid =>
    apply h.change (h.orderly.exit hpermitted)
    intro _ _ _ hlife
    cases hlife
  | accept pid known => exact h.accept
  | request => exact h.daemon fun conn hconn => (h.faithful conn hconn).request
  | inspect sight =>
    apply h.daemon
    intro conn hconn
    exact (h.faithful conn hconn).inspect fun pid hpid => hundisturbed conn pid hconn hpid
  | identify known =>
    apply h.daemon
    intro conn hconn
    exact (h.faithful conn hconn).identify fun pid hpid => hundisturbed conn pid hconn hpid

end Steps

section Once

/-- No pid is read twice for one chain. -/
def Phase.Distinct : Phase → Prop
  | .idle => True
  | .walking walk =>
    (walk.chain.map ProcessInfo.pid).Nodup ∧ ∀ info ∈ walk.chain, info.pid ∈ walk.visited
  | .identifying rest chain =>
    (chain.map (·.info.pid) ++ rest.map ProcessInfo.pid).Nodup
  | .captured guardChain =>
    ∀ chain, guardChain = some chain → (chain.map (·.info.pid)).Nodup

def Distinct (s : World) : Prop := ∀ conn, s.connection = some conn → conn.phase.Distinct

theorem distinct_identified {rest : List ProcessInfo} {chain : List GetterProcess}
    (h : (chain.map (·.info.pid) ++ rest.map ProcessInfo.pid).Nodup) :
    (Phase.identified rest chain).Distinct := by
  unfold Phase.identified
  split
  · intro found hfound
    cases hfound
    exact (List.nodup_append.mp h).1
  · exact h

theorem distinct_request {conn : Connection} (h : conn.phase.Distinct) :
    conn.request.phase.Distinct := by
  have hstart : (match conn.peer with
      | some pid => Phase.walking (.start pid)
      | none => .captured none).Distinct := by
    split
    · exact ⟨List.nodup_nil, fun info hinfo => by cases hinfo⟩
    · intro chain hchain
      cases hchain
  unfold Connection.request
  split
  · exact hstart
  · exact hstart
  · exact h

theorem distinct_inspect {conn : Connection} {processes : Processes} {sight : Sight}
    (h : conn.phase.Distinct) : (conn.inspect processes sight).phase.Distinct := by
  unfold Connection.inspect
  split
  · rename_i walk hwalk
    rw [hwalk] at h
    obtain ⟨hnodup, hvisited⟩ := h
    show Phase.Distinct (match walk.step (Capture.inspect processes sight) with
      | .again walk => .walking walk
      | .ended (.ok chain) => .identified chain []
      | .ended (.error _) => .captured none)
    split
    · rename_i next hnext
      obtain ⟨p, info, -, -, hnew, hinfo, rfl⟩ := Walk.again_cases hnext
      obtain ⟨n, -, hpid, -⟩ := inspect_ok hinfo
      constructor
      · rw [List.map_append, List.nodup_append]
        refine ⟨hnodup, List.nodup_singleton _, ?_⟩
        intro a ha b hb hab
        obtain ⟨found, hfound, rfl⟩ := List.mem_map.mp ha
        rw [List.map_singleton, List.mem_singleton, hpid] at hb
        rw [← hb, ← hab] at hnew
        exact hnew (hvisited found hfound)
      · intro found hfound
        rcases List.mem_append.mp hfound with hfound | hfound
        · exact List.mem_cons_of_mem _ (hvisited found hfound)
        · rw [List.mem_singleton] at hfound
          rw [hfound, hpid]
          exact List.mem_cons_self
    · rename_i chain hchain
      apply distinct_identified
      rw [Walk.ended_ok hchain]
      exact hnodup
    · intro chain hchain
      cases hchain
  · exact h

theorem distinct_identify {conn : Connection} {processes : Processes} {known : Bool}
    (h : conn.phase.Distinct) : (conn.identify processes known).phase.Distinct := by
  unfold Connection.identify
  split
  · rename_i info rest chain hphase
    rw [hphase] at h
    apply distinct_identified
    rw [List.map_append, List.append_assoc]
    exact h
  · exact h

theorem distinct_step {s : World} (h : Distinct s) (e : Event) : Distinct (step s e) := by
  have hdaemon : ∀ act : Connection → Connection,
      (∀ conn, conn.phase.Distinct → (act conn).phase.Distinct) →
        Distinct { s with connection := s.connection.map act } := by
    intro act hact conn hconn
    obtain ⟨before, hbefore, rfl⟩ := Option.map_eq_some_iff.mp hconn
    exact hact before (h before hbefore)
  have hchange : ∀ c : Change UInt32 Life, Distinct (s.change c) := by
    intro c conn hconn
    obtain ⟨before, hbefore, rfl⟩ := Option.map_eq_some_iff.mp hconn
    exact h before hbefore
  cases e with
  | fork parent new uniqueId start => exact hchange _
  | exit pid => exact hchange _
  | accept pid known =>
    show Distinct (s.accept pid known)
    unfold World.accept
    split
    · intro conn hconn
      cases hconn
      trivial
    · exact h
  | request => exact hdaemon _ fun conn => distinct_request
  | inspect sight => exact hdaemon _ fun conn => distinct_inspect
  | identify known => exact hdaemon _ fun conn => distinct_identify

end Once

section Approval

variable {chain : List GetterProcess} {token : Option GetterAuditToken} {out : GuardEvalOutput}
  {declared : DeclaredAncestor} {pinned : PinnedProcess} {processes : Processes} {opener : UInt32}
  {born : List Life} {life : Life}

/-- The process of the chain that matches is the pinned one. -/
theorem Known.life_eq {s : World} {g : GetterProcess} (horderly : Orderly s)
    (hsettled : Settled processes s.born) (hknown : Known processes opener g)
    (hpins : Pins pinned life) (hlife : life ∈ s.born) (hsame : SameEntity g pinned) :
    Kin processes opener life.pid ∧ ∃ n, processes life.pid = some n ∧ n.self = life := by
  have hkin := hknown.info.kin
  obtain ⟨n, hn⟩ := Option.isSome_iff_exists.mp hkin.finish
  have hpid := hsettled.pid _ n hn
  have hborn := hsettled.born _ n hn
  have heq : n.self = life := by
    rcases hsame.cases with ⟨id, hg, hp⟩ | ⟨hsamePid, start, hg, hp⟩
    · apply horderly.uniqueId _ hborn _ hlife
      rw [hknown.uniqueId id hg n hn]
      exact hpins.uniqueId id hp
    · apply horderly.start _ hborn _ hlife
      · rw [hpid, hsamePid]
        exact hpins.pid
      · rw [hknown.info.startTime start hg n hn]
        exact hpins.startTime start hp
  rw [← heq, hpid]
  exact ⟨hkin, n, hn, rfl⟩

/-- A process that matches on some of its facts matches on all of them. -/
theorem sameEntity_whole {g whole : GetterProcess} (hpins : Pins pinned life)
    (hsame : SameEntity g pinned) (hpid : whole.info.pid = life.pid)
    (hstart : whole.info.startTime = some life.start)
    (huniqueId : whole.uniqueId = some life.uniqueId) : SameEntity whole pinned := by
  unfold SameEntity
  rw [huniqueId]
  cases hid : pinned.uniqueId with
  | some id =>
    rw [if_pos ⟨rfl, rfl⟩, hpins.uniqueId id hid]
  | none =>
    rcases hsame.cases with ⟨id, -, hp⟩ | ⟨-, start, -, hp⟩
    · rw [hid] at hp
      cases hp
    · have heq := hpins.startTime start hp
      simp [hpid, hpins.pid, hstart, hp, heq]

/-- An uninterrupted capture shows all there is of the opener and its ancestors. -/
theorem uninterrupted_exists (hsettled : Settled processes born)
    (hopener : (processes opener).isSome) (paths : UInt32 → Option OsPath) :
    ∃ calm, Uninterrupted processes paths opener calm ∧
      ∀ pid n, Kin processes opener pid → processes pid = some n →
        (⟨⟨pid, n.parent, paths pid, some n.self.start⟩, some n.self.uniqueId⟩ : GetterProcess) ∈
          calm := by
  have hinspect : ∀ q m, processes q = some m →
      inspectAll processes paths q = .ok ⟨q, m.parent, paths q, some m.self.start⟩ := by
    intro q m hm
    unfold inspectAll inspect
    rw [hm]
    rfl
  obtain ⟨infos, hwalk, hall⟩ := ancestry_complete hsettled.tree hsettled.kernel
    (fun q m hm => ⟨_, hinspect q m hm, rfl⟩) hopener
  refine ⟨_, ⟨infos, hwalk, rfl⟩, ?_⟩
  intro pid n hkin hn
  obtain ⟨info, hinfo, hshown⟩ := hall pid hkin
  rw [hinspect pid n hn] at hshown
  cases hshown
  refine List.mem_map.mpr ⟨_, hinfo, ?_⟩
  simp [uniqueId, hn]

theorem uninterrupted_finds {g : GetterProcess} {n : Node UInt32 Life}
    {paths : UInt32 → Option OsPath} {calm : List GetterProcess}
    (hcalm : (⟨⟨life.pid, n.parent, paths life.pid, some n.self.start⟩,
      some n.self.uniqueId⟩ : GetterProcess) ∈ calm)
    (hself : n.self = life) (hpins : Pins pinned life) (hsame : SameEntity g pinned) :
    (findInChain calm pinned).isSome := by
  apply findInChain_isSome.mpr
  refine ⟨_, hcalm, ?_⟩
  apply sameEntity_whole hpins hsame
  · rfl
  · rw [hself]
  · rw [hself]

/-- The path that the chain shows for a pid. -/
def pathOf (chain : List GetterProcess) (pid : UInt32) : Option OsPath :=
  (chain.find? fun g => g.info.pid = pid).bind (·.info.path)

theorem pathOf_mem {g : GetterProcess} (hnodup : (chain.map (·.info.pid)).Nodup) (hg : g ∈ chain) :
    pathOf chain g.info.pid = g.info.path := by
  unfold pathOf
  cases hfind : chain.find? fun g' => g'.info.pid = g.info.pid with
  | none =>
    have hnone := List.find?_eq_none.mp hfind g hg
    simp at hnone
  | some g' =>
    have hpid : g'.info.pid = g.info.pid := by simpa using List.find?_some hfind
    rw [List.inj_on_of_nodup_map hnodup (List.mem_of_find?_eq_some hfind) hg hpid]
    rfl

/-- A name is matched by the path alone. -/
theorem goesBy_of_path {name : String} {g g' : GetterProcess} (h : GoesBy name g)
    (hpath : g'.info.path = g.info.path) : GoesBy name g' := by
  unfold GoesBy ProcessInfo.name at *
  rw [hpath]
  exact h

theorem Kept.sound {s : World} (h : Kept s) (hdistinct : Distinct s) : Sound s := by
  intro conn chain token record out hconn hphase hout
  have hfaithful := h.faithful conn hconn
  have hreflects := hfaithful.reflects
  have hnodup := hdistinct conn hconn
  rw [hphase] at hreflects hnodup
  have hadmits : Admits record chain token := by
    apply evaluate_isOk_iff.mp
    rw [hout]
    rfl
  have hopener : (conn.atAccept conn.opener.pid).isSome := hfaithful.kin_refl.start
  obtain ⟨calm, hcalm, hall⟩ :=
    uninterrupted_exists hfaithful.settled hopener (pathOf chain)
  have hfound : ∀ declared pinned life, .sameAncestor declared pinned ∈ record.constraints →
      life ∈ s.born → Pins pinned life →
      (∃ processes ∈ conn.moments, Above processes life conn.opener) ∧
        (findInChain calm pinned).isSome := by
    intro declared pinned life hmem hlife hpins
    obtain ⟨g, hg, hsame⟩ := hadmits.sameAncestor declared pinned hmem
    have hknown := hreflects chain rfl g hg
    obtain ⟨hkin, n, hn, hself⟩ := hknown.life_eq h.orderly hfaithful.settled hpins hlife hsame
    constructor
    · refine ⟨conn.atAccept, hfaithful.moment, hfaithful.opener, ?_, hkin⟩
      rw [hn, Option.map_some, hself]
    · exact uninterrupted_finds (hall life.pid n hkin hn) hself hpins hsame
  have hpaths : ∀ g ∈ chain, pathOf chain g.info.pid = g.info.path :=
    fun g hg => pathOf_mem (hnodup chain rfl) hg
  refine ⟨pathOf chain, calm, hpaths, hcalm, hfound, ?_⟩
  intro hborn
  rw [evaluate_isOk_iff]
  constructor
  · exact hadmits.constrained
  · obtain ⟨n, hn⟩ := Option.isSome_iff_exists.mp hopener
    exact List.ne_nil_of_mem (hall _ n hfaithful.kin_refl hn)
  · exact hadmits.sameUser
  · intro declared pinned hmem
    obtain ⟨life, hlife, hpins⟩ := hborn declared pinned hmem
    exact findInChain_isSome.mp (hfound declared pinned life hmem hlife hpins).2
  · intro name hmem
    obtain ⟨g, hg, hgoes⟩ := hadmits.command name hmem
    have hkin := (hreflects chain rfl g hg).info.kin
    obtain ⟨n, hn⟩ := Option.isSome_iff_exists.mp hkin.finish
    exact ⟨_, hall g.info.pid n hkin hn, goesBy_of_path hgoes (hpaths g hg)⟩

/-- While no pid the capture looks up has changed hands since the connection was
accepted, an approval is one of an ancestor that the opener had then. -/
theorem approved_of_ancestor (s : World) (events : List Event) (hs : Orderly s)
    (hnone : s.connection = none) (hpermitted : Along step Permitted s events)
    (hundisturbed : Along step Undisturbed s events) : Sound (run step s events) := by
  have hstart : Kept s := by
    refine ⟨hs, ?_⟩
    intro conn hconn
    rw [hnone] at hconn
    cases hconn
  have hboth := along_and step s events hpermitted hundisturbed
  have hdistinct : Distinct (run step s events) := by
    apply run_invariant step (I := Distinct) (P := Permitted)
      (fun s e h _ => distinct_step h e) s events hpermitted
    intro conn hconn
    rw [hnone] at hconn
    cases hconn
  exact (run_invariant step (I := Kept) (fun s e h hp => h.step hp.1 hp.2) s events hboth
    hstart).sound hdistinct

end Approval

section Takeover

def village : World where
  processes pid :=
    if pid = 1 then some ⟨⟨1, 1, .fromSecs 0⟩, none⟩
    else if pid = 100 then some ⟨⟨100, 10, .fromSecs 50⟩, some 1⟩
    else if pid = 200 then some ⟨⟨200, 20, .fromSecs 60⟩, some 1⟩
    else none
  born := [⟨1, 1, .fromSecs 0⟩, ⟨100, 10, .fromSecs 50⟩, ⟨200, 20, .fromSecs 60⟩]
  connection := none

def shellOnly : GuardRecord where
  constraints :=
    [.sameAncestor (.sameShell "zsh")
      ⟨100, some (.fromSecs 50), some 10, .utf8 "/bin/zsh", "zsh"⟩]
  setter := ⟨501, 501⟩

/-- A request from the connection, and the capture for it. -/
def request : List Event :=
  .request :: List.replicate 4 (.inspect (.shown true none true)) ++
    List.replicate 3 (.identify true)

/-- The peer exits, and the shell's next child gets its pid. -/
def reuse : List Event := [.exit 200, .fork 100 200 30 (.fromSecs 90)]

def approves (s : World) (record : GuardRecord) : Bool :=
  match s.connection.map Connection.phase with
  | some (.captured (some chain)) => (evaluate chain none record).isOk
  | _ => false

theorem orderly_village : Orderly village where
  settled := by
    have hcases : ∀ p n, village.processes p = some n →
        (p = 1 ∧ n = ⟨⟨1, 1, .fromSecs 0⟩, none⟩) ∨
          (p = 100 ∧ n = ⟨⟨100, 10, .fromSecs 50⟩, some 1⟩) ∨ (p = 200 ∧ n = ⟨⟨200, 20, .fromSecs 60⟩, some 1⟩) := by
      intro p n hn
      simp only [village] at hn
      split at hn
      · exact Or.inl ⟨‹_›, by cases hn; rfl⟩
      split at hn
      · exact Or.inr (Or.inl ⟨‹_›, by cases hn; rfl⟩)
      split at hn
      · exact Or.inr (Or.inr ⟨‹_›, by cases hn; rfl⟩)
      · cases hn
    constructor
    · constructor
      · exact ⟨_, rfl, rfl⟩
      · intro p hp
        obtain ⟨n, hn⟩ := Option.isSome_iff_exists.mp hp
        rcases hcases p n hn with ⟨rfl, rfl⟩ | ⟨rfl, rfl⟩ | ⟨rfl, rfl⟩
        · exact .refl rfl
        · exact Kin.parent (.refl rfl) hn rfl rfl
        · exact Kin.parent (.refl rfl) hn rfl rfl
    · rfl
    · intro p n hn
      rcases hcases p n hn with ⟨rfl, rfl⟩ | ⟨rfl, rfl⟩ | ⟨rfl, rfl⟩
      · rfl
      · rfl
      · rfl
    · intro p n hn
      rcases hcases p n hn with ⟨rfl, rfl⟩ | ⟨rfl, rfl⟩ | ⟨rfl, rfl⟩
      · decide
      · decide
      · decide
  uniqueId := by decide
  start := by decide

theorem permitted_takeover :
    Along step Permitted village (.accept 200 true :: (reuse ++ request)) := by
  refine ⟨trivial, ?_, ⟨⟨rfl, rfl⟩, ?_, ?_⟩, ?_⟩
  · show (200 : UInt32) ≠ 1
    decide
  · decide
  · decide
  · exact ⟨trivial, trivial, trivial, trivial, trivial, trivial, trivial, trivial, trivial⟩

/-- A child of the shell asks, while a stranger exits. -/
def child : List Event :=
  [.fork 100 300 30 (.fromSecs 90), .accept 300 true, .exit 200] ++ request

theorem held_of_self_eq {processes later : Processes} {pid : UInt32}
    (heq : (processes pid).map Node.self = (later pid).map Node.self) :
    Held processes later pid := by
  intro n' hn'
  rw [hn', Option.map_some] at heq
  exact Option.map_eq_some_iff.mp heq

theorem undisturbed_of_self_eq {s : World} {e : Event} {conn : Connection} {pid : UInt32}
    (hconn : s.connection = some conn) (hpid : conn.phase.lookup = some pid)
    (heq : (conn.atAccept pid).map Node.self = (s.processes pid).map Node.self) :
    Undisturbed s e := by
  have hheld : ∀ conn pid, s.connection = some conn → conn.phase.lookup = some pid →
      Held conn.atAccept s.processes pid := by
    intro conn' pid' hconn' hpid'
    rw [hconn] at hconn'
    cases hconn'
    rw [hpid] at hpid'
    cases hpid'
    exact held_of_self_eq heq
  cases e with
  | inspect sight => exact hheld
  | identify known => exact hheld
  | _ => trivial

theorem child_approved :
    approves (run step village child) shellOnly = true ∧ Sound (run step village child) := by
  refine ⟨by decide, approved_of_ancestor village child orderly_village rfl ?_ ?_⟩
  · refine ⟨⟨⟨rfl, rfl⟩, by decide, by decide⟩, trivial, ?_, ?_⟩
    · show (200 : UInt32) ≠ 1
      decide
    · exact ⟨trivial, trivial, trivial, trivial, trivial, trivial, trivial, trivial, trivial⟩
  · have hlookup := @undisturbed_of_self_eq
    refine ⟨trivial, trivial, trivial, trivial, hlookup rfl rfl rfl, hlookup rfl rfl rfl,
      hlookup rfl rfl rfl, ?_, hlookup rfl rfl rfl, hlookup rfl rfl rfl, hlookup rfl rfl rfl,
      trivial⟩
    intro conn pid hconn hpid
    cases hconn
    cases hpid

theorem stranger_village : ¬ Kin village.processes 200 100 := by
  intro h
  rcases h.cases_parent (n := ⟨⟨200, 20, .fromSecs 60⟩, some 1⟩) rfl with heq | ⟨r, hr, hup⟩
  · cases heq
  cases hr
  rcases hup.cases_parent (n := ⟨⟨1, 1, .fromSecs 0⟩, none⟩) rfl with heq | ⟨r, hr, -⟩
  · cases heq
  · cases hr

/-- The pid of the peer is free again before the request, and a child of the
pinned shell takes it: the connection of a stranger is approved as the shell's. -/
theorem stranger_approved :
    Orderly village ∧ village.connection = none ∧
      Along step Permitted village (.accept 200 true :: (reuse ++ request)) ∧
      approves (run step village (.accept 200 true :: request)) shellOnly = false ∧
      approves (run step village (.accept 200 true :: (reuse ++ request))) shellOnly = true ∧
      ¬ Sound (run step village (.accept 200 true :: (reuse ++ request))) := by
  refine ⟨orderly_village, rfl, permitted_takeover, by decide, by decide, ?_⟩
  intro hsound
  have hpins : Pins ⟨100, some (.fromSecs 50), some 10, .utf8 "/bin/zsh", "zsh"⟩
      ⟨100, 10, .fromSecs 50⟩ :=
    ⟨rfl, fun _ h => (Option.some.inj h).symm, fun _ h => (Option.some.inj h).symm⟩
  have happroved := hsound _ _ none shellOnly _ rfl rfl rfl
  obtain ⟨_, _, -, -, hancestor, -⟩ := happroved
  obtain ⟨⟨processes, hmoment, hopener, -, hkin⟩, -⟩ :=
    hancestor _ _ _ List.mem_cons_self (by decide) hpins
  rcases List.mem_cons.mp hmoment with rfl | hmoment
  · exact stranger_village hkin
  rcases List.mem_cons.mp hmoment with rfl | hmoment
  · cases hopener
  rcases List.mem_cons.mp hmoment with rfl | hmoment
  · cases hopener
  · cases hmoment

end Takeover

end Capture

end Daemon

end CacheWarden
