import CacheWarden.Authsock.FilterRules
import CacheWarden.Lib.LossyText
import CacheWarden.Lib.Transition

/-!
# The keys that GitHub publishes

One task fetches the keys of every `github` rule, one rule after the other, and looks again at
each tick which of them are due. The rules are read meanwhile, at any moment. A rule admits what
its last fetch listed, and nothing once that fetch has failed.
-/

set_option autoImplicit false

namespace CacheWarden

namespace GithubRefresh

open Daemon

section Fetching

/-- What `curl` left behind. -/
structure CurlOutput where
  success : Bool
  stdout : Bytes
  stderr : Bytes

variable {Key : Type} (ssh : SshKeyCrate Key)

def curlArgs (user : String) (timeout : Duration) : List String :=
  ["-fsSL", "--max-time", toString (max (timeout.nanos / 1000000000) 1), "--",
    "https://github.com/" ++ user ++ ".keys"]

def blobFromOpenssh (line : String) : Except String Blob :=
  match ssh.fromOpenssh line with
  | .error e => .error ("invalid public key: " ++ e)
  | .ok key => .ok (ssh.encode key)

def publishedLines (body : String) : List (List Char) :=
  ((body.toList.splitOn '\n').map trim).filter (· ≠ [])

def parseKeys (body : String) : List Blob :=
  (publishedLines body).filterMap fun line =>
    (blobFromOpenssh ssh (String.ofList line)).toOption

def fetchKeys (user : String) : Except String CurlOutput → Except String (List Blob)
  | .error e => .error ("failed to execute curl for github keys: " ++ e)
  | .ok output =>
    if !output.success then
      .error ("curl failed fetching github keys for " ++ user ++ ": " ++
        String.ofList (trim (LossyText.decode output.stderr).toList))
    else .ok (parseKeys ssh (LossyText.decode output.stdout))

/-- The answer lists a key with this blob. -/
def Lists (output : CurlOutput) (blob : Blob) : Prop :=
  output.success = true ∧ ∃ line ∈ publishedLines (LossyText.decode output.stdout),
    ∃ key, ssh.fromOpenssh (String.ofList line) = .ok key ∧ ssh.encode key = blob

end Fetching

section Task

structure GithubSettings where
  cacheTtl : Duration
  timeout : Duration

/-- The timer of the runtime: the periods it starts with, and the deadline after one that has
been met. -/
structure TimerCrate where
  starts : Duration → Bool
  next : Duration → Monotonic → Monotonic → Monotonic

/-- A period of zero panics. A tick that comes late is made up for at once. -/
structure TimerCrate.Documented (timer : TimerCrate) : Prop where
  starts_iff : ∀ period, timer.starts period = true ↔ period ≠ Duration.zero
  next_eq : ∀ period deadline now, timer.next period deadline now = deadline.saturatingAdd period

def needsRefresh (m : GithubMatcher) (ttl : Duration) (now : Monotonic) : Bool :=
  match m.cache.fetchedAt with
  | none => true
  | some at' => decide (ttl ≤ now.saturatingDurationSince at')

/-- The first rule from `i` on that is due. -/
def nextDue (ttl : Duration) (now : Monotonic) (matchers : List GithubMatcher) (i : ℕ) :
    Option ℕ :=
  (List.range matchers.length).find? fun j =>
    decide (i ≤ j) && (matchers[j]?).any fun m => needsRefresh m ttl now

/-- The rule `index` is fetched in a pass that began at `now`; before the first pass is over there
is no timer. -/
inductive Phase
  | fetching (now : Monotonic) (deadline : Option Monotonic) (index : ℕ)
  | waiting (deadline : Monotonic)
  | stopped
  | panicked
  deriving DecidableEq

/-- A fetch that is over. The task it ran on may have panicked. -/
structure Attempt where
  index : ℕ
  args : List String
  started : Monotonic
  finished : Monotonic
  answer : Option (Except String CurlOutput)

/-- The task, the caches it fills, and what has been fetched so far, the last first. -/
structure Refresh where
  now : Monotonic
  entered : Monotonic
  phase : Phase
  matchers : List GithubMatcher
  log : List Attempt

inductive Event
  | elapse (until' : Monotonic)
  | fetched (answer : Option (Except String CurlOutput))
  | tick
  | shutdown (flag : Bool)

variable {Key : Type} (ssh : SshKeyCrate Key) (timer : TimerCrate) (settings : GithubSettings)

def enter (passStart : Monotonic) (deadline : Option Monotonic) (i : ℕ) (self : Refresh) :
    Phase :=
  match nextDue settings.cacheTtl passStart self.matchers i with
  | some j => .fetching passStart deadline j
  | none =>
    match deadline with
    | some d => .waiting d
    | none =>
      if timer.starts settings.cacheTtl then
        .waiting (timer.next settings.cacheTtl self.now self.now)
      else .panicked

/-- `refresh_due_matchers` from rule `i` on. -/
def refreshDueMatchers (passStart : Monotonic) (deadline : Option Monotonic) (i : ℕ)
    (self : Refresh) : Refresh :=
  { self with
    entered := self.now
    phase := enter timer settings passStart deadline i self }

def answered (m : GithubMatcher) (answer : Option (Except String CurlOutput))
    (now : Monotonic) : GithubMatcher :=
  match answer.map (fetchKeys ssh m.user) with
  | some (.ok keys) => m.setKeys keys now
  | some (.error _) => m.markFailed now
  | none => m.markFailed now

def finish (i : ℕ) (answer : Option (Except String CurlOutput)) (self : Refresh) : Refresh :=
  match self.matchers[i]? with
  | none => self
  | some m =>
    { self with
      matchers := self.matchers.set i (answered ssh m answer self.now)
      log := ⟨i, curlArgs m.user settings.timeout, self.entered, self.now, answer⟩ :: self.log }

def unfetched (users : List String) (now : Monotonic) : Refresh :=
  ⟨now, now, .stopped, users.map GithubMatcher.new, []⟩

def start (users : List String) (now : Monotonic) : Refresh :=
  refreshDueMatchers timer settings now none 0 (unfetched users now)

def step (self : Refresh) : Event → Refresh
  | .elapse until' => { self with now := until' }
  | .fetched answer =>
    match self.phase with
    | .fetching passStart deadline i =>
      refreshDueMatchers timer settings passStart deadline (i + 1) (finish ssh settings i answer self)
    | _ => self
  | .tick =>
    match self.phase with
    | .waiting d =>
      refreshDueMatchers timer settings self.now (some (timer.next settings.cacheTtl d self.now)) 0
        self
    | _ => self
  | .shutdown flag =>
    match self.phase with
    | .waiting _ => if flag then { self with entered := self.now, phase := .stopped } else self
    | _ => self

/-- How long one fetch may take, and waking up. -/
structure Pace where
  fetch : ℕ
  wake : ℕ

/-- The moment by which the phase is over. -/
def Phase.limit (pace : Pace) (entered : Monotonic) : Phase → Option ℕ
  | .fetching _ _ _ => some (entered.offset.nanos + pace.fetch)
  | .waiting d => some (max d.offset.nanos entered.offset.nanos + pace.wake)
  | _ => none

def Phase.deadline : Phase → Option Monotonic
  | .waiting d => some d
  | _ => none

/-- Time does not go back, and nothing takes longer than it may. -/
def Timely (pace : Pace) (self : Refresh) : Event → Prop
  | .elapse until' => self.now ≤ until' ∧
    ∀ limit ∈ self.phase.limit pace self.entered, until'.offset.nanos ≤ limit
  | .tick => ∀ d ∈ self.phase.deadline, d ≤ self.now
  | _ => True

instance (pace : Pace) (self : Refresh) : (e : Event) → Decidable (Timely pace self e)
  | .elapse until' => inferInstanceAs (Decidable (self.now ≤ until' ∧
      ∀ limit ∈ self.phase.limit pace self.entered, until'.offset.nanos ≤ limit))
  | .tick => inferInstanceAs (Decidable (∀ d ∈ self.phase.deadline, d ≤ self.now))
  | .fetched _ => isTrue trivial
  | .shutdown _ => isTrue trivial

/-- The last fetch of a rule. -/
def latest (self : Refresh) (i : ℕ) : Option Attempt := self.log.find? (·.index == i)

def Phase.running : Phase → Bool
  | .fetching _ _ _ => true
  | .waiting _ => true
  | _ => false

end Task

section Due

theorem needsRefresh_false {m : GithubMatcher} {ttl : Duration} {now : Monotonic}
    (h : needsRefresh m ttl now = false) : ∃ c, m.cache.fetchedAt = some c ∧
      now.offset.nanos ≤ c.offset.nanos + ttl.nanos := by
  unfold needsRefresh at h
  split at h
  · cases h
  · rename_i c hc
    refine ⟨c, hc, ?_⟩
    have hnot := of_decide_eq_false h
    rw [Duration.le_iff, Monotonic.nanos_saturatingDurationSince] at hnot
    omega

theorem needsRefresh_true {m : GithubMatcher} {ttl : Duration} {now c t : Monotonic}
    (h : needsRefresh m ttl now = true) (hc : m.cache.fetchedAt = some c) (hle : c ≤ t)
    (hnow : now ≤ t) : c.offset.nanos + ttl.nanos ≤ t.offset.nanos := by
  unfold needsRefresh at h
  rw [hc] at h
  have hdue := of_decide_eq_true h
  rw [Duration.le_iff, Monotonic.nanos_saturatingDurationSince] at hdue
  rw [Monotonic.le_iff] at hle hnow
  omega

variable {ttl : Duration} {now : Monotonic} {matchers : List GithubMatcher} {i : ℕ}

theorem nextDue_some {k : ℕ} (h : nextDue ttl now matchers i = some k) :
    i ≤ k ∧ (∃ m, matchers[k]? = some m ∧ needsRefresh m ttl now = true) ∧
      ∀ j m, i ≤ j → j < k → matchers[j]? = some m → needsRefresh m ttl now = false := by
  unfold nextDue at h
  rw [List.find?_range_eq_some] at h
  obtain ⟨hk, -, hbefore⟩ := h
  simp only [Bool.and_eq_true, decide_eq_true_eq, Option.any_eq_true] at hk
  refine ⟨hk.1, hk.2, fun j m hij hjk hm => ?_⟩
  have hnot := hbefore j hjk
  simpa [hm, hij] using hnot

theorem nextDue_none (h : nextDue ttl now matchers i = none) {j : ℕ} {m : GithubMatcher}
    (hij : i ≤ j) (hm : matchers[j]? = some m) : needsRefresh m ttl now = false := by
  unfold nextDue at h
  rw [List.find?_range_eq_none] at h
  have hnot := h j (List.getElem?_eq_some_iff.mp hm).1
  simpa [hm, hij] using hnot

end Due

section Invariant

variable {Key : Type} (ssh : SshKeyCrate Key) (timer : TimerCrate) (settings : GithubSettings)
  (pace : Pace) (users : List String)

def fetchedAt (self : Refresh) (i : ℕ) : Option Monotonic :=
  (self.matchers[i]?).bind (·.cache.fetchedAt)

/-- The cache of a rule holds what its last fetch came to. -/
def Holds (m : GithubMatcher) : Option Attempt → Prop
  | none => m.cache = ⟨[], none, false⟩
  | some a => a.args = curlArgs m.user settings.timeout ∧ m.cache.fetchedAt = some a.finished ∧
    ∀ blob, (m.cache.valid = true ∧ blob ∈ m.cache.keys) ↔
      ∃ output, a.answer = some (.ok output) ∧ Lists ssh output blob

structure Filled (s : Refresh) : Prop where
  users : s.matchers.map GithubMatcher.user = users
  holds : ∀ (i : ℕ) m, s.matchers[i]? = some m → Holds ssh settings m (latest s i)

/-- Two fetches of one rule are as far apart as the settings say. -/
def Spaced (b a : Attempt) : Prop :=
  a.index = b.index → a.finished.offset.nanos + settings.cacheTtl.nanos ≤ b.started.offset.nanos

structure Sparing (s : Refresh) : Prop where
  apart : s.log.Pairwise (Spaced settings)
  fetched : ∀ a ∈ s.log, ∃ c, fetchedAt s a.index = some c ∧ a.finished ≤ c
  past : ∀ (i : ℕ) c, fetchedAt s i = some c → c ≤ s.now

/-- A rule that is being fetched was due. -/
structure Spared (s : Refresh) : Prop where
  sparing : Sparing settings s
  entered : s.entered ≤ s.now
  due : ∀ passStart deadline i, s.phase = .fetching passStart deadline i →
    (i < s.matchers.length ∧ passStart ≤ s.entered) ∧ ∀ c, fetchedAt s i = some c →
      c.offset.nanos + settings.cacheTtl.nanos ≤ s.entered.offset.nanos

/-- How long a whole pass may take. -/
def passTime (self : Refresh) : ℕ := self.matchers.length * pace.fetch

/-- How old what a rule holds may be when a pass begins. -/
def age (self : Refresh) : ℕ :=
  2 * settings.cacheTtl.nanos + passTime pace self + pace.wake

/-- What holds at rule `i` of a pass, before it is known which of the rest are due. -/
structure Passing (passStart : Monotonic) (deadline : Option Monotonic) (i : ℕ)
    (s : Refresh) : Prop where
  begun : passStart ≤ s.now
  within : s.now.offset.nanos ≤ passStart.offset.nanos + i * pace.fetch
  soon : ∀ d, deadline = some d → d.offset.nanos ≤
    passStart.offset.nanos + passTime pace s + settings.cacheTtl.nanos
  done : ∀ j < i, j < s.matchers.length → ∃ c, fetchedAt s j = some c ∧
    passStart.offset.nanos ≤ c.offset.nanos + settings.cacheTtl.nanos
  left : ∀ (j : ℕ) c, i ≤ j → fetchedAt s j = some c →
    passStart.offset.nanos ≤ c.offset.nanos + age settings pace s

structure Paced (s : Refresh) : Prop where
  entered : s.entered ≤ s.now
  fetching : ∀ passStart deadline i, s.phase = .fetching passStart deadline i →
    i < s.matchers.length ∧
      Passing settings pace passStart deadline i { s with now := s.entered } ∧
      s.now.offset.nanos ≤ s.entered.offset.nanos + pace.fetch
  waiting : ∀ d, s.phase = .waiting d →
    s.now.offset.nanos ≤ max d.offset.nanos s.entered.offset.nanos + pace.wake ∧
      ∃ passStart : Monotonic,
        s.entered.offset.nanos ≤ passStart.offset.nanos + passTime pace s ∧
        d.offset.nanos ≤
          passStart.offset.nanos + passTime pace s + settings.cacheTtl.nanos ∧
        ∀ j < s.matchers.length, ∃ c, fetchedAt s j = some c ∧
          passStart.offset.nanos ≤ c.offset.nanos + settings.cacheTtl.nanos

/-- Without a timer there is one pass. -/
structure Once (s : Refresh) : Prop where
  untimed : ∀ d, s.phase ≠ .waiting d
  first : ∀ passStart deadline i, s.phase = .fetching passStart deadline i →
    deadline = none ∧ ∀ a ∈ s.log, a.index < i
  nodup : (s.log.map Attempt.index).Nodup

end Invariant

section Answer

variable {Key : Type} {ssh : SshKeyCrate Key} {m : GithubMatcher}
  {answer : Option (Except String CurlOutput)} {now : Monotonic}

theorem mem_parseKeys {body : String} {blob : Blob} :
    blob ∈ parseKeys ssh body ↔ ∃ line ∈ publishedLines body, ∃ key,
      ssh.fromOpenssh (String.ofList line) = .ok key ∧ ssh.encode key = blob := by
  simp only [parseKeys, List.mem_filterMap, blobFromOpenssh]
  constructor
  · rintro ⟨line, hline, hblob⟩
    split at hblob
    · cases hblob
    · rename_i key hkey
      cases hblob
      exact ⟨line, hline, key, hkey, rfl⟩
  · rintro ⟨line, hline, key, hkey, hblob⟩
    refine ⟨line, hline, ?_⟩
    rw [hkey, ← hblob]
    rfl

theorem fetchKeys_ok {user : String} {out : Except String CurlOutput} {keys : List Blob}
    (h : fetchKeys ssh user out = .ok keys) :
    ∃ output, out = .ok output ∧ ∀ blob, blob ∈ keys ↔ Lists ssh output blob := by
  unfold fetchKeys at h
  split at h
  · cases h
  · rename_i output
    split at h
    · cases h
    · rename_i hsuccess
      cases h
      refine ⟨output, rfl, fun blob => ?_⟩
      rw [mem_parseKeys, Lists]
      exact (and_iff_right (by simpa using hsuccess)).symm

theorem fetchKeys_error {user : String} {out : Except String CurlOutput} {e : String}
    (h : fetchKeys ssh user out = .error e) (output : CurlOutput) (hout : out = .ok output)
    (blob : Blob) : ¬Lists ssh output blob := by
  intro hlists
  rw [hout, fetchKeys, hlists.1] at h
  cases h

@[simp] theorem user_answered : (answered ssh m answer now).user = m.user := by
  unfold answered
  split <;> rfl

@[simp] theorem fetchedAt_answered :
    (answered ssh m answer now).cache.fetchedAt = some now := by
  unfold answered
  split <;> rfl

theorem mem_answered (blob : Blob) :
    ((answered ssh m answer now).cache.valid = true ∧
        blob ∈ (answered ssh m answer now).cache.keys) ↔
      ∃ output, answer = some (.ok output) ∧ Lists ssh output blob := by
  unfold answered
  cases answer with
  | none => simp [GithubMatcher.markFailed]
  | some out =>
    cases hkeys : fetchKeys ssh m.user out with
    | error e =>
      simp only [Option.map_some, hkeys, GithubMatcher.markFailed, Bool.false_eq_true, false_and,
        Option.some_inj, false_iff]
      rintro ⟨output, hout, hlists⟩
      exact fetchKeys_error hkeys output hout blob hlists
    | ok keys =>
      obtain ⟨output, rfl, hkeys'⟩ := fetchKeys_ok hkeys
      simp [hkeys, GithubMatcher.setKeys, hkeys' blob]

end Answer

section Steps

variable {Key : Type} {ssh : SshKeyCrate Key} {timer : TimerCrate} {settings : GithubSettings}
  {pace : Pace} {users : List String} {self : Refresh} {i : ℕ}
  {answer : Option (Except String CurlOutput)}

variable (ssh settings answer) in
theorem finish_of_lt (hi : i < self.matchers.length) :
    ∃ m, self.matchers[i]? = some m ∧ finish ssh settings i answer self =
      { self with
        matchers := self.matchers.set i (answered ssh m answer self.now)
        log := ⟨i, curlArgs m.user settings.timeout, self.entered, self.now, answer⟩ ::
          self.log } := by
  have hm := List.getElem?_eq_getElem hi
  refine ⟨_, hm, ?_⟩
  rw [finish, hm]

@[simp] theorem now_finish : (finish ssh settings i answer self).now = self.now := by
  unfold finish
  split <;> rfl

@[simp] theorem length_finish :
    (finish ssh settings i answer self).matchers.length = self.matchers.length := by
  unfold finish
  split <;> simp

theorem fetchedAt_finish (hi : i < self.matchers.length) (j : ℕ) :
    fetchedAt (finish ssh settings i answer self) j =
      if j = i then some self.now else fetchedAt self j := by
  obtain ⟨m, -, hfinish⟩ := finish_of_lt ssh settings answer hi
  rw [hfinish]
  unfold fetchedAt
  by_cases hj : j = i
  · subst hj
    simp [hi]
  · simp [hj, List.getElem?_set_ne (Ne.symm hj)]

theorem fetchedAt_of_needsRefresh {ttl : Duration} {now : Monotonic} {j : ℕ} {m : GithubMatcher}
    (hm : self.matchers[j]? = some m) (h : needsRefresh m ttl now = false) :
    ∃ c, fetchedAt self j = some c ∧ now.offset.nanos ≤ c.offset.nanos + ttl.nanos := by
  obtain ⟨c, hc, hle⟩ := needsRefresh_false h
  exact ⟨c, by rw [fetchedAt, hm]; exact hc, hle⟩

theorem paced_refreshDueMatchers {passStart : Monotonic} {deadline : Option Monotonic}
    (hdoc : timer.Documented) (hi : i ≤ self.matchers.length)
    (h : Passing settings pace passStart deadline i self) :
    Paced settings pace (refreshDueMatchers timer settings passStart deadline i self) := by
  have hpass : i * pace.fetch ≤ passTime pace self := Nat.mul_le_mul_right _ hi
  have hwithin := h.within
  refine ⟨Monotonic.le_refl _, fun passStart' deadline' k hphase => ?_, fun d hphase => ?_⟩
  · change enter timer settings passStart deadline i self = _ at hphase
    unfold enter at hphase
    split at hphase
    · rename_i k' hnext
      cases hphase
      obtain ⟨hik, ⟨m, hm, -⟩, hskipped⟩ := nextDue_some hnext
      have hreach : i * pace.fetch ≤ k * pace.fetch := Nat.mul_le_mul_right _ hik
      refine ⟨(List.getElem?_eq_some_iff.mp hm).1, ⟨h.begun, ?_, h.soon, ?_, ?_⟩, ?_⟩
      · change self.now.offset.nanos ≤ _
        omega
      · intro j hj hlen
        by_cases hji : j < i
        · exact h.done j hji hlen
        · have hm' := List.getElem?_eq_getElem hlen
          exact fetchedAt_of_needsRefresh hm' (hskipped j _ (Nat.le_of_not_lt hji) hj hm')
      · intro j c hj hc
        exact h.left j c (Nat.le_trans hik hj) hc
      · exact Nat.le_add_right _ _
    · split at hphase
      · cases hphase
      · split at hphase <;> cases hphase
  · change enter timer settings passStart deadline i self = _ at hphase
    refine ⟨?_, passStart, ?_, ?_, fun j hj => ?_⟩
    · change self.now.offset.nanos ≤ max _ self.now.offset.nanos + _
      omega
    · change self.now.offset.nanos ≤ _ + passTime pace self
      omega
    · change _ ≤ _ + passTime pace self + _
      unfold enter at hphase
      split at hphase
      · cases hphase
      · split at hphase
        · rename_i d' _
          cases hphase
          exact h.soon d rfl
        · split at hphase
          · cases hphase
            rw [hdoc.next_eq, Monotonic.nanos_saturatingAdd]
            omega
          · cases hphase
    · by_cases hji : j < i
      · exact h.done j hji hj
      · unfold enter at hphase
        split at hphase
        · cases hphase
        · rename_i hnext
          have hm := List.getElem?_eq_getElem hj
          exact fetchedAt_of_needsRefresh hm (nextDue_none hnext (Nat.le_of_not_lt hji) hm)

theorem fetchedAt_unfetched (now : Monotonic) (j : ℕ) :
    fetchedAt (unfetched users now) j = none := by
  change ((users.map GithubMatcher.new)[j]?).bind _ = none
  rw [List.getElem?_map]
  cases users[j]? <;> rfl

theorem paced_start (hdoc : timer.Documented) (now : Monotonic) :
    Paced settings pace (start timer settings users now) := by
  apply paced_refreshDueMatchers hdoc (Nat.zero_le _)
  refine ⟨Monotonic.le_refl _, Nat.le_add_right _ _, fun d hd => (by cases hd),
    fun j hj => absurd hj (Nat.not_lt_zero j), fun j c _ hc => ?_⟩
  rw [fetchedAt_unfetched] at hc
  cases hc

theorem paced_step (hdoc : timer.Documented) (h : Paced settings pace self) (e : Event)
    (htimely : Timely pace self e) : Paced settings pace (step ssh timer settings self e) := by
  cases e with
  | elapse until' =>
    obtain ⟨hnow, hlimit⟩ := htimely
    refine ⟨Monotonic.le_trans h.entered hnow, fun passStart deadline i hphase => ?_,
      fun d hphase => ?_⟩
    · change self.phase = _ at hphase
      obtain ⟨hi, hpassing, -⟩ := h.fetching _ _ _ hphase
      exact ⟨hi, hpassing, hlimit _ (by rw [hphase]; rfl)⟩
    · change self.phase = _ at hphase
      obtain ⟨-, hwaiting⟩ := h.waiting _ hphase
      exact ⟨hlimit _ (by rw [hphase]; rfl), hwaiting⟩
  | fetched answer =>
    unfold step
    simp only
    split
    · rename_i passStart deadline i hphase
      obtain ⟨hi, hpassing, hfetch⟩ := h.fetching _ _ _ hphase
      have hentered := h.entered
      have hbegun : passStart ≤ self.entered := hpassing.begun
      have hwithin : self.entered.offset.nanos ≤ passStart.offset.nanos + i * pace.fetch :=
        hpassing.within
      rw [Monotonic.le_iff] at hentered hbegun
      apply paced_refreshDueMatchers hdoc (by rw [length_finish]; exact hi)
      refine ⟨?_, ?_, ?_, fun j hj hlen => ?_, fun j c hj hc => ?_⟩
      · rw [now_finish, Monotonic.le_iff]
        omega
      · rw [now_finish, Nat.add_mul]
        omega
      · rw [passTime, length_finish]
        exact hpassing.soon
      · rw [fetchedAt_finish hi]
        by_cases hji : j = i
        · rw [if_pos hji]
          exact ⟨self.now, rfl, by omega⟩
        · rw [if_neg hji]
          rw [length_finish] at hlen
          exact hpassing.done j (by omega) hlen
      · rw [fetchedAt_finish hi, if_neg (by omega)] at hc
        rw [age, passTime, length_finish]
        exact hpassing.left j c (by omega) hc
    · exact h
  | tick =>
    unfold step
    simp only
    split
    · rename_i d hphase
      obtain ⟨hwake, passStart, hentered, hd, hdone⟩ := h.waiting _ hphase
      have hdue : d ≤ self.now := htimely d (by rw [hphase]; rfl)
      rw [Monotonic.le_iff] at hdue
      apply paced_refreshDueMatchers hdoc (Nat.zero_le _)
      refine ⟨Monotonic.le_refl _, Nat.le_add_right _ _, fun d' hd' => ?_,
        fun j hj => absurd hj (Nat.not_lt_zero j), fun j c _ hc => ?_⟩
      · rw [Option.some_inj] at hd'
        rw [← hd', hdoc.next_eq, Monotonic.nanos_saturatingAdd]
        omega
      · have hj : j < self.matchers.length := by
          by_contra hge
          rw [fetchedAt, List.getElem?_eq_none (Nat.le_of_not_lt hge)] at hc
          cases hc
        obtain ⟨c', hc', hle⟩ := hdone j hj
        rw [hc', Option.some_inj] at hc
        rw [← hc]
        unfold age
        omega
    · exact h
  | shutdown flag =>
    unfold step
    simp only
    split
    · split
      · exact ⟨Monotonic.le_refl _, fun _ _ _ hphase => (by cases hphase),
          fun _ hphase => by cases hphase⟩
      · exact h
    · exact h

/-- While the task runs, nothing it holds is older than two reuse windows and two passes. -/
theorem Paced.fresh (h : Paced settings pace self) (hrunning : self.phase.running = true)
    {j : ℕ} {c : Monotonic} (hc : fetchedAt self j = some c) :
    self.now.offset.nanos ≤
      c.offset.nanos + (age settings pace self + passTime pace self) := by
  have hj : j < self.matchers.length := by
    by_contra hge
    rw [fetchedAt, List.getElem?_eq_none (Nat.le_of_not_lt hge)] at hc
    cases hc
  unfold age
  cases hphase : self.phase with
  | fetching passStart deadline i =>
    obtain ⟨hi, hpassing, hfetch⟩ := h.fetching _ _ _ hphase
    have hwithin : self.entered.offset.nanos ≤ passStart.offset.nanos + i * pace.fetch :=
      hpassing.within
    have hpass : (i + 1) * pace.fetch ≤ passTime pace self := Nat.mul_le_mul_right _ hi
    rw [Nat.add_mul] at hpass
    by_cases hji : j < i
    · obtain ⟨c', hc', hle⟩ := hpassing.done j hji hj
      change fetchedAt self j = _ at hc'
      rw [hc', Option.some_inj] at hc
      rw [hc] at hle
      omega
    · have hle : _ ≤ _ + age settings pace self := hpassing.left j c (Nat.le_of_not_lt hji) hc
      unfold age at hle
      omega
  | waiting d =>
    obtain ⟨hwake, passStart, hentered, hd, hdone⟩ := h.waiting _ hphase
    obtain ⟨c', hc', hle⟩ := hdone j hj
    rw [hc', Option.some_inj] at hc
    rw [hc] at hle
    omega
  | stopped =>
    rw [hphase] at hrunning
    cases hrunning
  | panicked =>
    rw [hphase] at hrunning
    cases hrunning

theorem filled_start (now : Monotonic) :
    Filled ssh settings users (start timer settings users now) := by
  refine ⟨?_, fun i m hm => ?_⟩
  · change (users.map GithubMatcher.new).map GithubMatcher.user = users
    rw [List.map_map]
    exact List.map_id users
  · change (users.map GithubMatcher.new)[i]? = some m at hm
    rw [List.getElem?_map] at hm
    cases hi : users[i]? with
    | none => simp [hi] at hm
    | some user =>
      rw [hi, Option.map_some, Option.some_inj] at hm
      rw [← hm]
      rfl

theorem filled_finish (h : Filled ssh settings users self) :
    Filled ssh settings users (finish ssh settings i answer self) := by
  by_cases hi : i < self.matchers.length
  · obtain ⟨m, hm, hfinish⟩ := finish_of_lt ssh settings answer hi
    rw [hfinish]
    refine ⟨?_, fun j m' hm' => ?_⟩
    · rw [← h.users]
      apply List.ext_getElem?
      intro j
      simp only [List.getElem?_map, List.getElem?_set]
      by_cases hj : i = j
      · subst hj
        simp [hi, (List.getElem?_eq_some_iff.mp hm).2]
      · simp [hj]
    · simp only [List.getElem?_set] at hm'
      by_cases hj : i = j
      · subst hj
        rw [if_pos rfl, if_pos hi, Option.some_inj] at hm'
        rw [← hm']
        have hlatest : latest { self with
            matchers := self.matchers.set i (answered ssh m answer self.now)
            log := ⟨i, curlArgs m.user settings.timeout, self.entered, self.now, answer⟩ ::
              self.log } i =
            some ⟨i, curlArgs m.user settings.timeout, self.entered, self.now, answer⟩ := by
          simp [latest]
        rw [hlatest]
        exact ⟨by rw [user_answered], fetchedAt_answered, mem_answered⟩
      · rw [if_neg hj] at hm'
        have hlatest := h.holds j m' hm'
        unfold latest at hlatest ⊢
        rw [List.find?_cons_of_neg (by simpa using hj)]
        exact hlatest
  · rw [finish, List.getElem?_eq_none (Nat.le_of_not_lt hi)]
    exact h

theorem filled_step (h : Filled ssh settings users self) (e : Event) :
    Filled ssh settings users (step ssh timer settings self e) := by
  cases e with
  | elapse until' => exact ⟨h.users, h.holds⟩
  | fetched answer =>
    unfold step
    simp only
    split
    · rename_i i _
      have hfinish : Filled ssh settings users (finish ssh settings i answer self) :=
        filled_finish h
      exact ⟨hfinish.users, hfinish.holds⟩
    · exact h
  | tick =>
    unfold step
    simp only
    split
    · exact ⟨h.users, h.holds⟩
    · exact h
  | shutdown flag =>
    unfold step
    simp only
    split
    · split
      · exact ⟨h.users, h.holds⟩
      · exact h
    · exact h

variable (ssh settings answer) in
theorem log_finish (hi : i < self.matchers.length) :
    ∃ args, (finish ssh settings i answer self).log =
      ⟨i, args, self.entered, self.now, answer⟩ :: self.log := by
  obtain ⟨m, -, hfinish⟩ := finish_of_lt ssh settings answer hi
  rw [hfinish]
  exact ⟨_, rfl⟩

theorem sparing_finish (h : Sparing settings self) (hi : i < self.matchers.length)
    (hdue : ∀ c, fetchedAt self i = some c →
      c.offset.nanos + settings.cacheTtl.nanos ≤ self.entered.offset.nanos) :
    Sparing settings (finish ssh settings i answer self) := by
  obtain ⟨args, hlog⟩ := log_finish ssh settings answer hi
  refine ⟨?_, fun a ha => ?_, fun j c hc => ?_⟩
  · rw [hlog]
    refine List.pairwise_cons.mpr ⟨fun a ha hindex => ?_, h.apart⟩
    obtain ⟨c, hc, hle⟩ := h.fetched a ha
    rw [hindex] at hc
    have hfar := hdue c hc
    rw [Monotonic.le_iff] at hle
    change _ ≤ self.entered.offset.nanos
    omega
  · rw [hlog] at ha
    rw [fetchedAt_finish hi]
    rcases List.mem_cons.mp ha with ha | ha
    · rw [ha, if_pos rfl]
      exact ⟨self.now, rfl, Monotonic.le_refl _⟩
    · obtain ⟨c, hc, hle⟩ := h.fetched a ha
      by_cases hindex : a.index = i
      · rw [if_pos hindex]
        exact ⟨self.now, rfl, Monotonic.le_trans hle (h.past _ _ hc)⟩
      · rw [if_neg hindex]
        exact ⟨c, hc, hle⟩
  · rw [fetchedAt_finish hi] at hc
    rw [now_finish]
    by_cases hj : j = i
    · rw [if_pos hj, Option.some_inj] at hc
      rw [hc]
      exact Monotonic.le_refl _
    · rw [if_neg hj] at hc
      exact h.past j c hc

theorem spared_refreshDueMatchers {passStart : Monotonic} {deadline : Option Monotonic}
    (hbegun : passStart ≤ self.now) (h : Sparing settings self) :
    Spared settings (refreshDueMatchers timer settings passStart deadline i self) := by
  refine ⟨⟨h.apart, h.fetched, h.past⟩, Monotonic.le_refl _, fun passStart' deadline' k hphase => ?_⟩
  change enter timer settings passStart deadline i self = _ at hphase
  unfold enter at hphase
  split at hphase
  · rename_i k' hnext
    cases hphase
    obtain ⟨-, ⟨m, hm, hdue⟩, -⟩ := nextDue_some hnext
    refine ⟨⟨(List.getElem?_eq_some_iff.mp hm).1, hbegun⟩, fun c hc => ?_⟩
    have hpast := h.past k c hc
    change fetchedAt self k = _ at hc
    rw [fetchedAt, hm] at hc
    exact needsRefresh_true hdue hc hpast hbegun
  · split at hphase
    · cases hphase
    · split at hphase <;> cases hphase

theorem spared_start (now : Monotonic) : Spared settings (start timer settings users now) := by
  apply spared_refreshDueMatchers (Monotonic.le_refl _)
  refine ⟨List.Pairwise.nil, fun a ha => absurd ha List.not_mem_nil, fun i c hc => ?_⟩
  rw [fetchedAt_unfetched] at hc
  cases hc

theorem spared_step (h : Spared settings self) (e : Event) (htimely : Timely pace self e) :
    Spared settings (step ssh timer settings self e) := by
  cases e with
  | elapse until' =>
    obtain ⟨hnow, -⟩ := htimely
    exact ⟨⟨h.sparing.apart, h.sparing.fetched,
      fun i c hc => Monotonic.le_trans (h.sparing.past i c hc) hnow⟩,
      Monotonic.le_trans h.entered hnow, h.due⟩
  | fetched answer =>
    unfold step
    simp only
    split
    · rename_i passStart deadline i hphase
      obtain ⟨⟨hi, hbegun⟩, hdue⟩ := h.due _ _ _ hphase
      apply spared_refreshDueMatchers
      · rw [now_finish]
        exact Monotonic.le_trans hbegun h.entered
      · exact sparing_finish h.sparing hi hdue
    · exact h
  | tick =>
    unfold step
    simp only
    split
    · exact spared_refreshDueMatchers (Monotonic.le_refl _) h.sparing
    · exact h
  | shutdown flag =>
    unfold step
    simp only
    split
    · split
      · exact ⟨⟨h.sparing.apart, h.sparing.fetched, h.sparing.past⟩, Monotonic.le_refl _,
          fun _ _ _ hphase => (by cases hphase)⟩
      · exact h
    · exact h

theorem once_refreshDueMatchers {passStart : Monotonic} (hstarts : timer.starts settings.cacheTtl = false)
    (hbefore : ∀ a ∈ self.log, a.index < i) (hnodup : (self.log.map Attempt.index).Nodup) :
    Once (refreshDueMatchers timer settings passStart none i self) := by
  refine ⟨fun d hphase => ?_, fun passStart' deadline k hphase => ?_, hnodup⟩
  · change enter timer settings passStart none i self = _ at hphase
    unfold enter at hphase
    split at hphase
    · cases hphase
    · simp [hstarts] at hphase
  · change enter timer settings passStart none i self = _ at hphase
    unfold enter at hphase
    split at hphase
    · rename_i hnext
      cases hphase
      exact ⟨rfl, fun a ha => Nat.lt_of_lt_of_le (hbefore a ha) (nextDue_some hnext).1⟩
    · simp [hstarts] at hphase

theorem once_start (hstarts : timer.starts settings.cacheTtl = false) (now : Monotonic) :
    Once (start timer settings users now) :=
  once_refreshDueMatchers hstarts (fun _ ha => absurd ha List.not_mem_nil) List.nodup_nil

theorem once_step (hstarts : timer.starts settings.cacheTtl = false) (h : Once self) (e : Event) :
    Once (step ssh timer settings self e) := by
  cases e with
  | elapse until' => exact ⟨h.untimed, h.first, h.nodup⟩
  | fetched answer =>
    unfold step
    simp only
    split
    · rename_i passStart deadline i hphase
      obtain ⟨hdeadline, hbefore⟩ := h.first _ _ _ hphase
      rw [hdeadline]
      by_cases hi : i < self.matchers.length
      · obtain ⟨args, hlog⟩ := log_finish ssh settings answer hi
        apply once_refreshDueMatchers hstarts
        · intro a ha
          rw [hlog] at ha
          rcases List.mem_cons.mp ha with ha | ha
          · rw [ha]
            exact Nat.lt_succ_self i
          · exact Nat.lt_succ_of_lt (hbefore a ha)
        · rw [hlog, List.map_cons, List.nodup_cons]
          refine ⟨fun hmem => ?_, h.nodup⟩
          obtain ⟨a, ha, hindex⟩ := List.mem_map.mp hmem
          exact absurd hindex (hbefore a ha).ne
      · rw [finish, List.getElem?_eq_none (Nat.le_of_not_lt hi)]
        exact once_refreshDueMatchers hstarts
          (fun a ha => Nat.lt_succ_of_lt (hbefore a ha)) h.nodup
    · exact h
  | tick =>
    unfold step
    simp only
    split
    · rename_i d hphase
      exact absurd hphase (h.untimed d)
    · exact h
  | shutdown flag =>
    unfold step
    simp only
    split
    · rename_i d hphase
      exact absurd hphase (h.untimed d)
    · exact h

theorem enter_ne_panicked {passStart : Monotonic} {deadline : Option Monotonic}
    (hstarts : timer.starts settings.cacheTtl = true) :
    enter timer settings passStart deadline i self ≠ .panicked := by
  unfold enter
  rw [if_pos hstarts]
  split
  · simp
  · split <;> simp

theorem alive_step (hstarts : timer.starts settings.cacheTtl = true) (h : self.phase ≠ .panicked)
    (e : Event) : (step ssh timer settings self e).phase ≠ .panicked := by
  cases e with
  | elapse until' => exact h
  | fetched answer =>
    unfold step
    simp only
    split
    · exact enter_ne_panicked hstarts
    · exact h
  | tick =>
    unfold step
    simp only
    split
    · exact enter_ne_panicked hstarts
    · exact h
  | shutdown flag =>
    unfold step
    simp only
    split
    · split
      · simp
      · exact h
    · exact h

end Steps

section Runs

variable {Key : Type} {ssh : SshKeyCrate Key} {timer : TimerCrate} {settings : GithubSettings}
  {pace : Pace} {users : List String}

/-- The task over any run, whatever `curl` answers and when. A rule admits a key just where its
last fetch was answered, for the user of the rule, by a list with that key. Until the task is
stopped that fetch is no older than two reuse windows, two passes and one wake-up; two fetches of
a rule are a reuse window apart. With a window of zero there is no second pass, and what the first
one fetched stays; with any other the task does not die. -/
theorem github_keys_followed (hdoc : timer.Documented) (now : Monotonic) (events : List Event)
    (htimely : Transition.Along (step ssh timer settings) (Timely pace)
      (start timer settings users now) events) :
    let s := Transition.run (step ssh timer settings) (start timer settings users now) events
    (s.matchers.map GithubMatcher.user = users ∧
      ∀ (i : ℕ) m, s.matchers[i]? = some m →
        (∀ identity : Identity, m.matches identity = true ↔
          ∃ a output, latest s i = some a ∧ a.args = curlArgs m.user settings.timeout ∧
            a.answer = some (.ok output) ∧ Lists ssh output identity.keyBlob) ∧
        (s.phase.running = true → ∀ a, latest s i = some a →
          s.now.offset.nanos ≤ a.finished.offset.nanos +
            (2 * settings.cacheTtl.nanos + 2 * (users.length * pace.fetch) + pace.wake))) ∧
    s.log.Pairwise (Spaced settings) ∧
    (settings.cacheTtl = Duration.zero →
      s.phase.deadline = none ∧ (s.log.map Attempt.index).Nodup) ∧
    (settings.cacheTtl ≠ Duration.zero → s.phase ≠ .panicked) := by
  intro s
  have hfilled : Filled ssh settings users s :=
    Transition.run_invariant (I := Filled ssh settings users) _
      (fun s e h _ => filled_step h e) _ _ htimely (filled_start now)
  have hpaced : Paced settings pace s :=
    Transition.run_invariant (I := Paced settings pace) _
      (fun s e h ht => paced_step hdoc h e ht) _ _ htimely (paced_start hdoc now)
  have hspared : Spared settings s :=
    Transition.run_invariant (I := Spared settings) _
      (fun s e h ht => spared_step h e ht) _ _ htimely (spared_start now)
  refine ⟨⟨hfilled.users, fun i m hm => ⟨fun identity => ?_, fun hrunning a ha => ?_⟩⟩,
    hspared.sparing.apart, fun hzero => ?_, fun hpositive => ?_⟩
  · have hholds := hfilled.holds i m hm
    have hmatches : m.matches identity = true ↔
        m.cache.valid = true ∧ identity.keyBlob ∈ m.cache.keys := by
      simp [GithubMatcher.matches]
    rw [hmatches]
    cases hlatest : latest s i with
    | none =>
      rw [hlatest, Holds] at hholds
      simp [hholds]
    | some a =>
      rw [hlatest] at hholds
      rw [hholds.2.2]
      constructor
      · rintro ⟨output, hanswer, hlists⟩
        exact ⟨a, output, rfl, hholds.1, hanswer, hlists⟩
      · rintro ⟨a', output, ha', _, hanswer, hlists⟩
        cases ha'
        exact ⟨output, hanswer, hlists⟩
  · have hholds := hfilled.holds i m hm
    rw [ha] at hholds
    have hfetched : fetchedAt s i = some a.finished := by
      rw [fetchedAt, hm]
      exact hholds.2.1
    have hlength : s.matchers.length = users.length := by
      rw [← hfilled.users, List.length_map]
    have hfresh := hpaced.fresh hrunning hfetched
    rw [age, passTime, hlength] at hfresh
    omega
  · have hstarts : timer.starts settings.cacheTtl = false := by
      rw [Bool.eq_false_iff]
      intro hstarts
      exact (hdoc.starts_iff _).mp hstarts hzero
    have honce : Once s :=
      Transition.run_invariant (I := Once) _ (fun s e h _ => once_step hstarts h e) _ _ htimely
        (once_start hstarts now)
    refine ⟨?_, honce.nodup⟩
    cases hphase : s.phase with
    | waiting d => exact absurd hphase (honce.untimed d)
    | fetching _ _ _ => rfl
    | stopped => rfl
    | panicked => rfl
  · have hstarts := (hdoc.starts_iff _).mpr hpositive
    exact Transition.run_invariant (I := fun s => s.phase ≠ .panicked) _
      (fun s e h _ => alive_step hstarts h e) _ _ htimely (enter_ne_panicked hstarts)

def sampleTimer : TimerCrate where
  starts period := decide (period ≠ Duration.zero)
  next period deadline _ := deadline.saturatingAdd period

theorem sampleTimer_documented : sampleTimer.Documented where
  starts_iff _ := decide_eq_true_iff
  next_eq _ _ _ := rfl

def second (n : UInt64) : Monotonic := ⟨Duration.fromSecs n⟩

def sampleSettings : GithubSettings := ⟨Duration.fromSecs 60, Duration.fromSecs 10⟩

/-- A line that is no key, and one that is. -/
def sampleList : CurlOutput :=
  ⟨true, ("# keys\n" ++ SampleKey.line .plain ++ "\r\n").toUTF8.data.toList, []⟩

set_option maxRecDepth 8000 in
theorem sampleList_lists : Lists sampleCrate sampleList (SampleKey.blob .plain) := by
  have hplain : (SampleKey.line .plain).toList = _ := String.toList_ofList
  have hlines : publishedLines ("# keys\n" ++ SampleKey.line .plain ++ "\r\n") =
      ["# keys".toList, (SampleKey.line .plain).toList] := by
    rw [publishedLines, String.toList_append, String.toList_append, hplain]
    decide
  refine ⟨rfl, (SampleKey.line .plain).toList, ?_, .plain, ?_, rfl⟩
  · rw [sampleList, LossyText.decode_toUTF8, hlines]
    simp
  · rw [String.ofList_toList]
    rfl

/-- Two rules, each fetched once. -/
def sampleFetches : List Event :=
  [.elapse (second 1), .fetched (some (.ok sampleList)), .elapse (second 3),
    .fetched (some (.ok ⟨true, [], []⟩))]

/-- A minute later there is no `curl`, and one task panics. -/
def sampleEvents : List Event :=
  sampleFetches ++
    [.elapse (second 64), .tick, .elapse (second 66),
      .fetched (some (.error "No such file or directory")), .elapse (second 67), .fetched none,
      .elapse (second 124), .tick, .elapse (second 184), .tick]

def sampleRun (events : List Event) : Refresh :=
  Transition.run (step sampleCrate sampleTimer sampleSettings)
    (start sampleTimer sampleSettings ["a", "b"] (second 0)) events

def sampleAdmits (events : List Event) (i : ℕ) : Option Bool :=
  ((sampleRun events).matchers[i]?).map fun m => m.matches ⟨SampleKey.blob .plain, "me"⟩

/-- The key that was listed is admitted until a fetch fails. -/
theorem sample_followed :
    sampleAdmits sampleFetches 0 = some true ∧
    sampleAdmits sampleFetches 1 = some false ∧
    sampleAdmits sampleEvents 0 = some false ∧
    (sampleRun sampleEvents).log.Pairwise (Spaced sampleSettings) := by
  have hfetched := @github_keys_followed _ sampleCrate sampleTimer sampleSettings
    ⟨10000000000, 5000000000⟩ ["a", "b"] sampleTimer_documented (second 0) sampleFetches (by decide)
  have hfailed := @github_keys_followed _ sampleCrate sampleTimer sampleSettings
    ⟨10000000000, 5000000000⟩ ["a", "b"] sampleTimer_documented (second 0) sampleEvents (by decide)
  have hadmits : ∀ events i m, (sampleRun events).matchers[i]? = some m →
      sampleAdmits events i = some (m.matches ⟨SampleKey.blob .plain, "me"⟩) := by
    intro events i m hm
    rw [sampleAdmits, hm]
    rfl
  refine ⟨?_, ?_, ?_, hfailed.2.1⟩
  · obtain ⟨m, hm, huser⟩ : ∃ m, (sampleRun sampleFetches).matchers[0]? = some m ∧ m.user = "a" :=
      ⟨_, rfl, rfl⟩
    have hargs : curlArgs "a" sampleSettings.timeout = curlArgs m.user sampleSettings.timeout := by
      rw [huser]
    rw [hadmits _ _ m hm, ((hfetched.1.2 0 m hm).1 _).mpr
      ⟨_, sampleList, rfl, hargs, rfl, sampleList_lists⟩]
  · obtain ⟨m, hm⟩ : ∃ m, (sampleRun sampleFetches).matchers[1]? = some m := ⟨_, rfl⟩
    rw [hadmits _ _ m hm, Option.some_inj, Bool.eq_false_iff]
    intro hmatches
    obtain ⟨a, output, hlatest, -, hanswer, -, line, hline, -⟩ :=
      ((hfetched.1.2 1 m hm).1 _).mp hmatches
    cases hlatest
    cases hanswer
    cases hline
  · obtain ⟨m, hm⟩ : ∃ m, (sampleRun sampleEvents).matchers[0]? = some m := ⟨_, rfl⟩
    rw [hadmits _ _ m hm, Option.some_inj, Bool.eq_false_iff]
    intro hmatches
    obtain ⟨a, output, hlatest, -, hanswer, -⟩ := ((hfailed.1.2 0 m hm).1 _).mp hmatches
    cases hlatest
    cases hanswer

end Runs

end GithubRefresh

end CacheWarden
