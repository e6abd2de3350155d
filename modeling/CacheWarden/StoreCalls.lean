import CacheWarden.StoreInvariant

/-!
# The calls an operation makes outside the store

Two functions fetch a value and two more ask for authentication. What they ask
of the runner and of the authenticator, in order, is part of what they compute;
a value that a fetch leaves was there before, or one of these calls gave it.
-/

set_option autoImplicit false

namespace CacheWarden

namespace Store

section Calls

variable (self : Store) (key : String) (deadline : Monotonic) (runner : SourceRunner)
  (auth : Authenticator) (requester : Option (List ProcessInfo)) (cap : Capability) (clock : Clock)

def extendAuthenticatedCalls : List ExternalCall :=
  ((self.extendAuthenticatedAsking key requester cap clock).asked auth).map .prompt

def regenerateCalls : List ExternalCall :=
  (self.regenerateAsking key requester cap clock).asked (outside runner auth)

def getOrRegenerateCalls : List ExternalCall :=
  (self.getOrRegenerateAsking key requester cap clock).asked (outside runner auth)

def pinAuthenticatedCalls : List ExternalCall :=
  ((self.pinAuthenticatedAsking key deadline requester cap clock).asked auth).map .prompt

end Calls

section Origin

/-- The command of one of the calls gives the value. -/
def Yields (runner : SourceRunner) (calls : List ExternalCall) (value : Bytes) : Prop :=
  ∃ argv cwd env, ExternalCall.run argv cwd env ∈ calls ∧ runner argv cwd env = .ok value

/-- The value the key has afterwards it had before, or one of the calls gave it. -/
def Origin (runner : SourceRunner) (calls : List ExternalCall) (key : String)
    (before after : Store) : Prop :=
  ∀ value, (after.entries[key]?).bind CacheEntry.value = some value →
    (before.entries[key]?).bind CacheEntry.value = some value ∨ Yields runner calls value

/-- The runner that answers the calls and no others. -/
def answering (runner : SourceRunner) (calls : List ExternalCall) : SourceRunner :=
  fun argv cwd env =>
    if .run argv cwd env ∈ calls then runner argv cwd env else .error .noProgram

variable {runner : SourceRunner} {calls calls' : List ExternalCall} {key : String}
  {s s' s'' : Store} {t u : Monotonic}

theorem answering_same (auth : Authenticator) :
    ∀ call ∈ calls, outside runner auth call = outside (answering runner calls) auth call := by
  intro call hcall
  cases call with
  | prompt ctx => rfl
  | run argv cwd env => rw [outside_run, outside_run, answering, if_pos hcall]

theorem reads_value (h : Reads runner key t u s s') {value : Bytes}
    (hvalue : (s'.entries[key]?).bind CacheEntry.value = some value) :
    (s.entries[key]?).bind CacheEntry.value = some value ∨
      ∃ argv cwd env, runner argv cwd env = .ok value := by
  induction h with
  | refl s htu => exact Or.inl hvalue
  | aged s e e' he ha =>
    left
    rw [putEntry, KeyMap.get_insert_self, Option.bind_some] at hvalue
    rw [he, Option.bind_some]
    rcases ha.value with hsame | hnone
    · exact hsame.symm.trans hvalue
    · rw [hnone] at hvalue
      cases hvalue
  | failed s htu hk =>
    left
    unfold recordFailure at hvalue
    split at hvalue <;> exact hvalue
  | installed s htu hk argv cwd env installed ttl hrun =>
    rw [installFetched, KeyMap.get_insert_self, Option.bind_some] at hvalue
    cases hvalue
    exact Or.inr ⟨argv, cwd, env, hrun⟩
  | trans _ _ ih ih' =>
    rcases ih' hvalue with hbefore | hrun
    · exact ih hbefore
    · exact Or.inr hrun

/-- A store read with no answers but those to the calls. -/
theorem Origin.of_reads (h : Reads (answering runner calls) key t u s s') :
    Origin runner calls key s s' := by
  intro value hvalue
  rcases reads_value h hvalue with hbefore | ⟨argv, cwd, env, hrun⟩
  · exact Or.inl hbefore
  · unfold answering at hrun
    split at hrun
    · rename_i hcall
      exact Or.inr ⟨argv, cwd, env, hcall, hrun⟩
    · cases hrun

theorem Origin.trans (h : Origin runner calls key s s') (h' : Origin runner calls' key s' s'') :
    Origin runner (calls ++ calls') key s s'' := by
  intro value hvalue
  rcases h' value hvalue with hbetween | ⟨argv, cwd, env, hcall, hrun⟩
  · rcases h value hbetween with hbefore | ⟨argv, cwd, env, hcall, hrun⟩
    · exact Or.inl hbefore
    · exact Or.inr ⟨argv, cwd, env, List.mem_append_left _ hcall, hrun⟩
  · exact Or.inr ⟨argv, cwd, env, List.mem_append_right _ hcall, hrun⟩

variable (auth : Authenticator) (requester : Option (List ProcessInfo)) (cap : Capability)
  (clock : Clock)

theorem getOrRegenerate_origin :
    Origin runner (s.getOrRegenerateCalls key runner auth requester cap clock) key s
      (s.getOrRegenerate key runner auth requester cap clock).2 := by
  have hsame : s.getOrRegenerate key runner auth requester cap clock = s.getOrRegenerate key
      (answering runner (s.getOrRegenerateCalls key runner auth requester cap clock)) auth requester
      cap clock :=
    Asking.answer_congr _ (answering_same auth)
  rw [hsame]
  exact .of_reads (s.getOrRegenerate_reads key cap _ auth requester clock)

theorem regenerate_origin :
    Origin runner (s.regenerateCalls key runner auth requester cap clock) key s
      (s.regenerate key runner auth requester cap clock).2 := by
  have hsame : s.regenerate key runner auth requester cap clock = s.regenerate key
      (answering runner (s.regenerateCalls key runner auth requester cap clock)) auth requester
      cap clock :=
    Asking.answer_congr _ (answering_same auth)
  rw [hsame]
  exact .of_reads (s.regenerate_reads key cap _ auth requester clock)

end Origin

end Store

end CacheWarden
