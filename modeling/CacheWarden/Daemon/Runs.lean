import CacheWarden.Daemon.Handling
import CacheWarden.Lib.Transition

/-!
# Runs of the daemon

A run is a list of requests from any number of clients, each with the context it
is served in. The clock of a context is held at what the daemon has read
already.
-/

set_option autoImplicit false

namespace CacheWarden

namespace Daemon

open Vault Store Transition

/-- A request and the context it meets. -/
abbrev Served := HandlerCtx × Request

namespace State

/-- The context on a clock that does not go back. -/
def context (s : State) (ctx : HandlerCtx) : HandlerCtx := { ctx with clock := ctx.clock.since s.now }

def reply (s : State) (event : Served) : Response :=
  (handleRequest (s.context event.1) s event.2).1

def serve (s : State) (event : Served) : State :=
  { (handleRequest (s.context event.1) s event.2).2 with now := (s.context event.1).clock.last }

/-- The reply and the next state are those of an effect. -/
theorem serve_effect (s : State) (event : Served) :
    ∃ s', Effect (s.context event.1) s event.2 (s.reply event) s' ∧
      s.serve event = { s' with now := (s.context event.1).clock.last } :=
  ⟨_, handleRequest_effect (s.context event.1) s event.2, rfl⟩

end State

/-- What reading a key leaves alone. -/
structure Kept (key : String) (s s' : Store) : Prop where
  definitions : s'.definitions = s.definitions
  owners : s'.owners = s.owners
  versions : s'.versions = s.versions
  token : s'.accessToken = s.accessToken
  elsewhere : ∀ a, key ≠ a → s'.slice a = s.slice a

theorem kept_refl (key : String) (s : Store) : Kept key s s := ⟨rfl, rfl, rfl, rfl, fun _ _ => rfl⟩

theorem Kept.trans {key : String} {s s' s'' : Store} (h : Kept key s s') (h' : Kept key s' s'') :
    Kept key s s'' where
  definitions := h'.definitions.trans h.definitions
  owners := h'.owners.trans h.owners
  versions := h'.versions.trans h.versions
  token := h'.token.trans h.token
  elsewhere a ha := (h'.elsewhere a ha).trans (h.elsewhere a ha)

theorem reads_kept {runner : SourceRunner} {key : String} {t u : Monotonic} {s s' : Store}
    (h : Reads runner key t u s s') : Kept key s s' := by
  induction h with
  | refl s htu => exact kept_refl key s
  | aged s e e' he ha =>
    refine ⟨rfl, rfl, rfl, rfl, fun a hne => ?_⟩
    simp [slice, putEntry, KeyMap.get_insert, hne]
  | failed s htu hk =>
    unfold recordFailure
    split
    · refine ⟨rfl, rfl, rfl, rfl, fun a hne => ?_⟩
      simp [slice, KeyMap.get_insert, hne]
    · exact kept_refl key s
  | installed s htu hk argv cwd env value ttl hrun =>
    refine ⟨rfl, rfl, rfl, rfl, fun a hne => ?_⟩
    simp [slice, installFetched, KeyMap.get_insert, KeyMap.get_erase, hne]
  | trans _ _ ih ih' => exact ih.trans ih'

end Daemon

end CacheWarden
