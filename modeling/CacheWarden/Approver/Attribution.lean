import CacheWarden.Approver.Codec
import CacheWarden.Approver.Dialogs

/-!
# An approval belongs to the request that was shown

Answers of the helper that come late lie on the stream for the next exchange to find, and
lines that were given up run into the next. None of them is taken for the answer to another
request.
-/

set_option autoImplicit false

namespace CacheWarden

namespace Approver

open CutLines Transition
open Daemon (WireOutcome RequestError)

section Parts

def Slot.finalizer : Slot → Option Finalizer
  | .pending => none
  | .taken finalizer => some finalizer
  | .written finalizer => some finalizer
  | .signalled finalizer => some finalizer

/-- The request whose exchange is on. -/
def Client.current : Client → Option ApproveRequest
  | .writing req _ _ => some req
  | .reading req _ _ => some req
  | .respawning req => some req
  | _ => none

/-- What the client is writing, and what is left of it. -/
def Client.saying : Client → Option (HelperRequest × Text)
  | .writing req _ rest => some (.approve req, rest)
  | .notifying prompt rest => some (.fdaPrompt prompt, rest)
  | _ => none

def Client.line : Client → Text
  | .reading _ _ line => line
  | _ => []

def Reader.line : Reader → Text
  | .reading line => line
  | _ => []

/-- What the helper is writing. -/
def Helper.saying (self : Helper) : Option (HelperResponse × Text) :=
  match self.writer with
  | some (_, resp, byte :: rest) => some (resp, byte :: rest)
  | _ => none

/-- A dialog later on: it asks what it asked, and its outcome stands once it is taken. -/
structure Dialog.Grows (d d' : Dialog) : Prop where
  req : d'.req = d.req
  summary : d'.summary = d.summary
  finalizer : ∀ f, d.slot.finalizer = some f → d'.slot.finalizer = some f

variable {d d' d'' : Dialog}

theorem Dialog.Grows.refl (d : Dialog) : d.Grows d := ⟨rfl, rfl, fun _ h => h⟩

theorem Dialog.Grows.of_eq (hreq : d'.req = d.req) (hsummary : d'.summary = d.summary)
    (hslot : d'.slot = d.slot) : d.Grows d' :=
  ⟨hreq, hsummary, fun f h => by rw [hslot, h]⟩

theorem Dialog.grows_take (d : Dialog) (finalizer : Finalizer) : d.Grows (d.take finalizer) := by
  unfold Dialog.take
  cases hslot : d.slot with
  | pending => exact ⟨rfl, rfl, fun f h => by rw [hslot] at h; cases h⟩
  | _ => exact Dialog.Grows.refl d

theorem Dialog.grows_evaluated (ok : Bool) (d : Dialog) : d.Grows (d.evaluated ok) := by
  unfold Dialog.evaluated
  split
  · have h := d.grows_take (.evaluated ok)
    exact ⟨h.req, h.summary, h.finalizer⟩
  · exact Dialog.Grows.refl d

theorem Dialog.grows_cancel (d : Dialog) : d.Grows d.cancel := by
  have h := d.grows_take .cancelled
  exact ⟨h.req, h.summary, h.finalizer⟩

theorem Dialog.grows_countdown (d : Dialog) : d.Grows d.countdown := by
  unfold Dialog.countdown
  split
  · split
    · have h := d.grows_take .timedOut
      exact ⟨h.req, h.summary, h.finalizer⟩
    · exact Dialog.Grows.of_eq rfl rfl rfl
  · exact Dialog.Grows.refl d

theorem Dialog.grows_disarm (d : Dialog) : d.Grows d.disarm := by
  unfold Dialog.disarm
  split
  · exact Dialog.Grows.refl d
  · exact Dialog.Grows.of_eq rfl rfl rfl

theorem Dialog.grows_spoken (d : Dialog) : d.Grows d.spoken := by
  unfold Dialog.spoken
  cases hslot : d.slot with
  | taken finalizer => exact ⟨rfl, rfl, fun f h => by rwa [hslot] at h⟩
  | _ => exact Dialog.Grows.refl d

theorem Dialog.grows_signal (d : Dialog) : d.Grows d.signal := by
  unfold Dialog.signal
  cases hslot : d.slot with
  | written finalizer => exact ⟨rfl, rfl, fun f h => by rwa [hslot] at h⟩
  | _ => exact Dialog.Grows.refl d

end Parts

section Sound

/-- What may stand on the daemon's stream. -/
def Asked (minted : List HelperRequest) : HelperRequest → Prop
  | .approve req => .approve req ∈ minted
  | .fdaPrompt _ => True

/-- What may stand on the helper's stream: for an approval, the outcome that was taken of the
dialog that showed the request. -/
def Said (dialogs : List Dialog) : HelperResponse → Prop
  | .approve resp => ∃ d ∈ dialogs, ∃ f, d.slot.finalizer = some f ∧ resp = respond d.req f
  | .fdaPrompt _ => True

/-- A request that was answered, the dialog that showed it, and the callback that answered. -/
def Answers (d : Dialog) (req : ApproveRequest) (outcome : WireOutcome) : Prop :=
  d.req = req ∧ d.summary = summaryLine req ∧
    ∃ f, d.slot.finalizer = some f ∧ f.outcome = outcome

def Down (env : Env) (minted : List HelperRequest) (client : Client) (line down : Text) : Prop :=
  ∃ cuts piece, Carries env.requests (Asked minted) (env.requests.Cut (Asked minted))
      (line ++ down) cuts piece ∧
    Writing env.requests (Asked minted) piece client.saying ∧ newline ∉ line

def Up (env : Env) (dialogs : List Dialog) (saying : Option (HelperResponse × Text))
    (line up : Text) : Prop :=
  ∃ lost piece, Carries env.responses (Said dialogs) (fun _ => False) (lost ++ line ++ up) []
      piece ∧
    Writing env.responses (Said dialogs) piece saying ∧ newline ∉ lost ++ line

/-- What holds of the two sides at any moment. -/
structure Sound (env : Env) (s : System) : Prop where
  minted : ∀ i req, s.minted[i]? = some (.approve req) → ∃ q, req = buildApproveRequest env.pid i q
  placed : (s.waiting ++ s.client.current.toList ++ s.results.map Prod.fst).Nodup
  known : ∀ req ∈ s.waiting ++ s.client.current.toList ++ s.results.map Prod.fst,
    .approve req ∈ s.minted
  dialogs : ∀ d ∈ s.past ++ s.helper.dialogs, .approve d.req ∈ s.minted ∧ d.summary = summaryLine d.req
  showing : ∀ req, s.helper.reader = .showing req → .approve req ∈ s.minted
  down : s.helper.reader ≠ .ended → Down env s.minted s.client s.helper.reader.line s.down
  up : s.client ≠ .gone → Up env s.helper.dialogs s.helper.saying s.client.line s.up
  results : ∀ req outcome, (req, .ok outcome) ∈ s.results →
    ∃ d ∈ s.past ++ s.helper.dialogs, Answers d req outcome

variable {env : Env} {s : System} {minted minted' : List HelperRequest}
  {dialogs dialogs' : List Dialog} {client client' : Client} {line down up piece : Text}
  {saying : Option (HelperResponse × Text)} {req : ApproveRequest} {byte : UInt8} {e : Event}

theorem Asked.mono (hsub : ∀ x ∈ minted, x ∈ minted') (x : HelperRequest)
    (h : Asked minted x) : Asked minted' x := by
  cases x with
  | approve req => exact hsub _ h
  | fdaPrompt _ => trivial

/-- Each dialog of the first list is in the second, perhaps further on. -/
def Later (dialogs dialogs' : List Dialog) : Prop :=
  ∀ d ∈ dialogs, ∃ d' ∈ dialogs', d.Grows d'

theorem Later.refl (dialogs : List Dialog) : Later dialogs dialogs :=
  fun d hd => ⟨d, hd, Dialog.Grows.refl d⟩

theorem Said.mono (hlater : Later dialogs dialogs') (x : HelperResponse)
    (h : Said dialogs x) : Said dialogs' x := by
  cases x with
  | approve resp =>
    obtain ⟨d, hd, f, hf, hresp⟩ := h
    obtain ⟨d', hd', hgrows⟩ := hlater d hd
    exact ⟨d', hd', f, hgrows.finalizer f hf, by rw [hresp, hgrows.req]⟩
  | fdaPrompt _ => trivial

theorem Answers.mono {d d' : Dialog} {outcome : WireOutcome} (h : Answers d req outcome)
    (hgrows : d.Grows d') : Answers d' req outcome := by
  obtain ⟨hreq, hsummary, f, hf, houtcome⟩ := h
  exact ⟨by rw [hgrows.req, hreq], by rw [hgrows.summary, hsummary], f, hgrows.finalizer f hf,
    houtcome⟩

theorem Down.congr (h : Down env minted client line down) (hsaying : client'.saying = client.saying) :
    Down env minted client' line down := by
  unfold Down
  rw [hsaying]
  exact h

theorem Down.mono (h : Down env minted client line down) (hsub : ∀ x ∈ minted, x ∈ minted') :
    Down env minted' client line down := by
  obtain ⟨cuts, piece, hcarries, hwriting, hline⟩ := h
  exact ⟨cuts, piece, hcarries.mono (Asked.mono hsub) fun p hp => hp.mono (Asked.mono hsub),
    hwriting.mono (Asked.mono hsub), hline⟩

theorem Down.drop (h : Down env minted client line down) (hsaying : client'.saying = none) :
    Down env minted client' line down := by
  obtain ⟨cuts, piece, hcarries, hwriting, hline⟩ := h
  obtain ⟨cuts', hleft⟩ := hcarries.giveUp hwriting
  exact ⟨cuts', [], hleft, by rw [hsaying]; rfl, hline⟩

theorem Down.ask (h : Down env minted client line down) {x : HelperRequest}
    (hasked : Asked minted x) (hsaying : client'.saying = some (x, env.requests.line x ++ [newline])) :
    Down env minted client' line down := by
  obtain ⟨cuts, piece, hcarries, hwriting, hline⟩ := h
  obtain ⟨cuts', hleft⟩ := hcarries.giveUp hwriting
  exact ⟨cuts', [], hleft, by rw [hsaying]; exact writing_start hasked, hline⟩

theorem Down.say (h : Down env minted client line down) {x : HelperRequest} {byte : UInt8}
    {rest : Text} (hsaying : client.saying = some (x, byte :: rest))
    (hnext : client'.saying = if rest = [] then none else some (x, rest)) :
    Down env minted client' line (down ++ [byte]) := by
  obtain ⟨cuts, piece, hcarries, hwriting, hline⟩ := h
  rw [hsaying] at hwriting
  obtain ⟨piece', hcarries', hwriting'⟩ := hcarries.say hwriting
  rw [List.append_assoc] at hcarries'
  exact ⟨_, piece', hcarries', by rw [hnext]; exact hwriting', hline⟩

theorem Down.read (h : Down env minted client line (byte :: down)) (hbyte : byte ≠ newline) :
    Down env minted client (line ++ [byte]) down := by
  obtain ⟨cuts, piece, hcarries, hwriting, hline⟩ := h
  exact ⟨cuts, piece, by simpa using hcarries, hwriting, by simpa using ⟨hline, hbyte.symm⟩⟩

theorem Down.heard (hc : env.requests.Lawful)
    (h : Down env minted client line (newline :: down)) :
    Down env minted client [] down ∧
      ∀ x, env.requests.read line = some x → Asked minted x := by
  obtain ⟨cuts, piece, hcarries, hwriting, hline⟩ := h
  obtain ⟨hrest, hread⟩ := hcarries.heard hc (hwriting.plain hc) hline
  exact ⟨⟨cuts, piece, hrest, hwriting, by simp⟩, hread⟩

theorem Down.ended (hc : env.requests.Lawful) (h : Down env minted client line [])
    (x : HelperRequest) (hread : env.requests.read line = some x) : Asked minted x := by
  obtain ⟨cuts, piece, hcarries, hwriting, hline⟩ := h
  rw [List.append_nil] at hcarries
  exact hcarries.heard_last hc hline hwriting hread

theorem down_start (hsaying : client.saying = none) : Down env minted client [] [] :=
  ⟨[], [], carries_nil, by rw [hsaying]; rfl, by simp⟩

theorem Up.later (h : Up env dialogs saying line up) (hlater : Later dialogs dialogs') :
    Up env dialogs' saying line up := by
  obtain ⟨lost, piece, hcarries, hwriting, hline⟩ := h
  exact ⟨lost, piece, hcarries.mono (Said.mono hlater) fun _ hp => hp,
    hwriting.mono (Said.mono hlater), hline⟩

/-- What the daemon has taken of a line is lost when it gives the exchange up. -/
theorem Up.lose (h : Up env dialogs saying line up) : Up env dialogs saying [] up := by
  obtain ⟨lost, piece, hcarries, hwriting, hline⟩ := h
  exact ⟨lost ++ line, piece, by simpa using hcarries, hwriting, by simpa using hline⟩

theorem Up.hear (h : Up env dialogs saying line (byte :: up)) (hbyte : byte ≠ newline) :
    Up env dialogs saying (line ++ [byte]) up := by
  obtain ⟨lost, piece, hcarries, hwriting, hline⟩ := h
  refine ⟨lost, piece, by simpa using hcarries, hwriting, ?_⟩
  simp only [List.mem_append, not_or] at hline
  simp [hline.1, hline.2, hbyte.symm]

theorem Up.heard (hc : env.responses.Lawful) (h : Up env dialogs saying line (newline :: up)) :
    Up env dialogs saying [] up ∧
      ∀ x, env.responses.read line = some x → Said dialogs x := by
  obtain ⟨lost, piece, hcarries, hwriting, hline⟩ := h
  obtain ⟨hrest, hread⟩ := hcarries.heard_late hc (hwriting.plain hc) hline
  exact ⟨⟨[], piece, hrest, hwriting, by simp⟩, hread⟩

theorem Up.ended (hc : env.responses.Lawful) (h : Up env dialogs saying line [])
    (hsome : line ≠ []) (x : HelperResponse) (hread : env.responses.read line = some x) :
    Said dialogs x := by
  obtain ⟨lost, piece, hcarries, hwriting, hline⟩ := h
  rw [List.append_nil] at hcarries
  exact hcarries.heard_late_last hc hline hwriting hsome hread

theorem Up.lock (h : Up env dialogs none line up) {resp : HelperResponse} (hsaid : Said dialogs resp) :
    Up env dialogs (some (resp, env.responses.line resp ++ [newline])) line up := by
  obtain ⟨lost, piece, hcarries, hwriting, hline⟩ := h
  rw [show piece = [] from hwriting] at hcarries
  exact ⟨lost, [], hcarries, writing_start hsaid, hline⟩

theorem Up.write {resp : HelperResponse} {rest : Text}
    (h : Up env dialogs (some (resp, byte :: rest)) line up) :
    Up env dialogs (if rest = [] then none else some (resp, rest)) line (up ++ [byte]) := by
  obtain ⟨lost, piece, hcarries, hwriting, hline⟩ := h
  obtain ⟨piece', hcarries', hwriting'⟩ := hcarries.say hwriting
  refine ⟨lost, piece', ?_, hwriting', hline⟩
  rw [ite_self, List.append_assoc] at hcarries'
  simpa using hcarries'

theorem up_start : Up env dialogs none [] [] := ⟨[], [], carries_nil, rfl, by simp⟩

/-- Every request that has not been dropped, in one list. -/
def System.placed (s : System) : List ApproveRequest :=
  s.waiting ++ s.client.current.toList ++ s.results.map Prod.fst

theorem sound_start (env : Env) : Sound env System.start where
  minted i req h := by simp [System.start] at h
  placed := by simp [System.start, Client.current]
  known req h := by simp [System.start, Client.current] at h
  dialogs d h := by simp [System.start, Helper.start] at h
  showing req h := by simp [System.start, Helper.start] at h
  down _ := down_start rfl
  up _ := up_start
  results req outcome h := by simp [System.start] at h

variable {s' : System}

/-- The daemon moves: requests only go from one place to the next, and the dialogs stay. -/
theorem Sound.moved (h : Sound env s) (hminted : s'.minted = s.minted)
    (hplaced : List.Subperm s'.placed s.placed) (hpast : s'.past = s.past)
    (hdialogs : s'.helper.dialogs = s.helper.dialogs)
    (hreader : s'.helper.reader = s.helper.reader)
    (hdown : Down env s.minted s.client s.helper.reader.line s.down →
      Down env s.minted s'.client s.helper.reader.line s'.down)
    (hup : s'.client ≠ .gone → Up env s.helper.dialogs s'.helper.saying s'.client.line s'.up)
    (hresults : ∀ req outcome, (req, .ok outcome) ∈ s'.results → (req, .ok outcome) ∈ s.results ∨
      ∃ d ∈ s.helper.dialogs, Answers d req outcome) : Sound env s' where
  minted := by rw [hminted]; exact h.minted
  placed := by
    obtain ⟨l, hperm, hsub⟩ := hplaced
    exact (hperm.nodup_iff).mp (hsub.nodup h.placed)
  known req hreq := by rw [hminted]; exact h.known req (hplaced.subset hreq)
  dialogs := by rw [hpast, hdialogs, hminted]; exact h.dialogs
  showing := by rw [hreader, hminted]; exact h.showing
  down hended := by
    rw [hreader] at hended ⊢
    rw [hminted]
    exact hdown (h.down hended)
  up := by rw [hdialogs]; exact hup
  results req outcome hmem := by
    rw [hpast, hdialogs]
    rcases hresults req outcome hmem with hold | ⟨d, hd, hanswers⟩
    · exact h.results req outcome hold
    · exact ⟨d, List.mem_append_right _ hd, hanswers⟩

/-- The helper moves: its dialogs only get further, and new ones show what was asked. -/
theorem Sound.helped (h : Sound env s) (hclient : s'.client = s.client)
    (hminted : s'.minted = s.minted) (hplaced : s'.placed = s.placed)
    (hresults : s'.results = s.results) (hpast : s'.past = s.past)
    (hlater : Later s.helper.dialogs s'.helper.dialogs)
    (hdialogs : ∀ d ∈ s'.helper.dialogs, (∃ d₀ ∈ s.helper.dialogs, d₀.Grows d) ∨
      .approve d.req ∈ s.minted ∧ d.summary = summaryLine d.req)
    (hshowing : ∀ req, s'.helper.reader = .showing req → .approve req ∈ s.minted)
    (hdown : s'.helper.reader ≠ .ended →
      Down env s.minted s.client s'.helper.reader.line s'.down)
    (hup : s.client ≠ .gone → Up env s'.helper.dialogs s'.helper.saying s.client.line s'.up) :
    Sound env s' where
  minted := by rw [hminted]; exact h.minted
  placed := by
    have hsame := h.placed
    change s'.placed.Nodup
    rw [hplaced]
    exact hsame
  known := by
    change ∀ req ∈ s'.placed, .approve req ∈ s'.minted
    rw [hplaced, hminted]
    exact h.known
  dialogs d hd := by
    rw [hpast] at hd
    rw [hminted]
    rcases List.mem_append.mp hd with hold | hnew
    · exact h.dialogs d (List.mem_append_left _ hold)
    rcases hdialogs d hnew with ⟨d₀, hd₀, hgrows⟩ | hhonest
    · have hhonest := h.dialogs d₀ (List.mem_append_right _ hd₀)
      rw [hgrows.req, hgrows.summary]
      exact hhonest
    · exact hhonest
  showing := by rw [hminted]; exact hshowing
  down := by rw [hminted, hclient]; exact hdown
  up := by rw [hclient]; exact hup
  results req outcome hmem := by
    rw [hresults] at hmem
    rw [hpast]
    obtain ⟨d, hd, hanswers⟩ := h.results req outcome hmem
    rcases List.mem_append.mp hd with hold | hnew
    · exact ⟨d, List.mem_append_left _ hold, hanswers⟩
    · obtain ⟨d', hd', hgrows⟩ := hlater d hnew
      exact ⟨d', List.mem_append_right _ hd', hanswers.mono hgrows⟩

/-- The reader or the explainer moves and the dialogs stay. -/
theorem Sound.read (h : Sound env s) (hclient : s'.client = s.client)
    (hminted : s'.minted = s.minted) (hplaced : s'.placed = s.placed)
    (hresults : s'.results = s.results) (hpast : s'.past = s.past)
    (hdialogs : s'.helper.dialogs = s.helper.dialogs)
    (hsaying : s'.helper.saying = s.helper.saying) (hup : s'.up = s.up)
    (hshowing : ∀ req, s'.helper.reader = .showing req → .approve req ∈ s.minted)
    (hdown : s'.helper.reader ≠ .ended →
      Down env s.minted s.client s'.helper.reader.line s'.down) : Sound env s' := by
  apply h.helped hclient hminted hplaced hresults hpast
  · rw [hdialogs]
    exact Later.refl _
  · intro d hd
    rw [hdialogs] at hd
    exact Or.inl ⟨d, hd, Dialog.Grows.refl d⟩
  · exact hshowing
  · exact hdown
  · intro hgone
    rw [hdialogs, hsaying, hup]
    exact h.up hgone

theorem toString_injective {n m : ℕ} (h : toString n = toString m) : n = m := by
  have hdigits : Nat.toDigits 10 n = Nat.toDigits 10 m := by
    rw [← Nat.toList_repr, ← Nat.toList_repr]
    exact congrArg String.toList h
  rw [← Nat.ofDigitChars_ten_toDigits (n := n), hdigits, Nat.ofDigitChars_ten_toDigits]

/-- Ids differ until the counter wraps. -/
theorem minted_unique (h : Sound env s) (hfew : s.minted.length ≤ 2 ^ 64)
    {req' : ApproveRequest} (hreq : .approve req ∈ s.minted) (hreq' : .approve req' ∈ s.minted)
    (hid : req.requestId = req'.requestId) : req = req' := by
  obtain ⟨i, hi, hget⟩ := List.getElem_of_mem hreq
  obtain ⟨j, hj, hget'⟩ := List.getElem_of_mem hreq'
  obtain ⟨q, hq⟩ := h.minted i req (by rw [List.getElem?_eq_getElem hi, hget])
  obtain ⟨q', hq'⟩ := h.minted j req' (by rw [List.getElem?_eq_getElem hj, hget'])
  rw [hq, hq'] at hid
  have hcount := toString_injective ((String.append_right_inj _).mp hid)
  rw [Nat.mod_eq_of_lt (by omega), Nat.mod_eq_of_lt (by omega)] at hcount
  subst hcount
  exact HelperRequest.approve.inj (hget.symm.trans hget')

theorem minted_fresh (h : Sound env s) (hfew : s.minted.length < 2 ^ 64) (question : Question) :
    .approve (buildApproveRequest env.pid s.minted.length question) ∉ s.minted := by
  intro hmem
  obtain ⟨i, hi, hget⟩ := List.getElem_of_mem hmem
  obtain ⟨q, hq⟩ := h.minted i _ (by rw [List.getElem?_eq_getElem hi, hget])
  have hid := congrArg ApproveRequest.requestId hq
  have hcount := toString_injective ((String.append_right_inj _).mp hid)
  rw [Nat.mod_eq_of_lt (by omega), Nat.mod_eq_of_lt (by omega)] at hcount
  omega

theorem Sound.mint (h : Sound env s) (hfew : s.minted.length < 2 ^ 64) (question : Question) :
    Sound env (s.clientStep env (.mint question)) := by
  have hfresh := minted_fresh h hfew question
  have hsub : ∀ x ∈ s.minted,
      x ∈ s.minted ++ [.approve (buildApproveRequest env.pid s.minted.length question)] :=
    fun x hx => List.mem_append_left _ hx
  refine
    { minted := ?_, placed := ?_, known := ?_, dialogs := ?_, showing := ?_, down := ?_
      up := h.up, results := h.results }
  · intro i req hget
    by_cases hi : i < s.minted.length
    · exact h.minted i req (by simpa [System.clientStep, List.getElem?_append_left hi] using hget)
    · have hlast : i = s.minted.length := by
        have hlt := (List.getElem?_eq_some_iff.mp hget).1
        simp only [System.clientStep, List.length_append, List.length_singleton] at hlt
        omega
      subst hlast
      simp only [System.clientStep, List.getElem?_concat_length, Option.some.injEq] at hget
      exact ⟨question, (HelperRequest.approve.inj hget).symm⟩
  · have hperm : (s.waiting ++ [buildApproveRequest env.pid s.minted.length question] ++
        s.client.current.toList ++ s.results.map Prod.fst).Perm
        (buildApproveRequest env.pid s.minted.length question ::
          (s.waiting ++ s.client.current.toList ++ s.results.map Prod.fst)) := by
      simp [List.append_assoc]
    refine hperm.nodup_iff.mpr (List.nodup_cons.mpr ⟨fun hmem => ?_, h.placed⟩)
    exact hfresh (h.known _ hmem)
  · intro req hreq
    have hcases : req ∈ s.placed ∨ req = buildApproveRequest env.pid s.minted.length question := by
      simp only [System.clientStep, List.mem_append, List.mem_singleton] at hreq
      unfold System.placed
      simp only [List.mem_append]
      tauto
    rcases hcases with hold | hnew
    · exact hsub _ (h.known req hold)
    · rw [hnew]
      exact List.mem_append_right _ (List.mem_singleton_self _)
  · exact fun d hd => ⟨hsub _ (h.dialogs d hd).1, (h.dialogs d hd).2⟩
  · exact fun req hreq => hsub _ (h.showing req hreq)
  · exact fun hended => (h.down hended).mono hsub

theorem Sound.withPrompts (h : Sound env s) (prompts : List FdaPromptRequest) :
    Sound env { s with prompts := prompts } :=
  ⟨h.minted, h.placed, h.known, h.dialogs, h.showing, h.down, h.up, h.results⟩

theorem Sound.mintPrompt (h : Sound env s) : Sound env (s.clientStep env .mintPrompt) := by
  have hsub : ∀ x ∈ s.minted, x ∈ (s.clientStep env .mintPrompt).minted :=
    fun x hx => List.mem_append_left _ hx
  refine
    { minted := ?_, placed := h.placed, known := ?_, dialogs := ?_, showing := ?_, down := ?_
      up := h.up, results := h.results }
  · intro i req hget
    by_cases hi : i < s.minted.length
    · exact h.minted i req (by simpa [System.clientStep, List.getElem?_append_left hi] using hget)
    · have hlt := (List.getElem?_eq_some_iff.mp hget).1
      simp only [System.clientStep, List.length_append, List.length_singleton] at hlt
      have hlast : i = s.minted.length := by omega
      subst hlast
      simp only [System.clientStep, List.getElem?_concat_length, Option.some.injEq] at hget
      cases hget
  · exact fun req hreq => hsub _ (h.known req hreq)
  · exact fun d hd => ⟨hsub _ (h.dialogs d hd).1, (h.dialogs d hd).2⟩
  · exact fun req hreq => hsub _ (h.showing req hreq)
  · exact fun hended => (h.down hended).mono hsub

/-- The exchange of a request is over, with an outcome only where its dialog had it. -/
theorem Sound.finish (h : Sound env s) {result : Except RequestError WireOutcome}
    (hcurrent : s.client.current = some req)
    (hanswered : ∀ outcome, result = .ok outcome → ∃ d ∈ s.helper.dialogs, Answers d req outcome)
    (hgone : s.client ≠ .gone) : Sound env (s.finish req result) := by
  refine h.moved rfl ?_ rfl rfl rfl ?_ ?_ ?_
  · have hperm : (s.finish req result).placed.Perm s.placed := by
      have hnext : (s.finish req result).client.current = none := rfl
      unfold System.placed
      rw [hnext, hcurrent]
      simp only [System.finish, Option.toList_none, Option.toList_some, List.map_append,
        List.map_cons, List.map_nil, List.append_nil, List.append_assoc]
      exact List.Perm.append_left _ List.perm_append_comm
    exact hperm.subperm
  · exact fun hdown => hdown.drop rfl
  · exact fun _ => (h.up hgone).lose
  · intro req' outcome hmem
    rcases List.mem_append.mp hmem with hold | hnew
    · exact Or.inl hold
    · rw [List.mem_singleton, Prod.mk.injEq] at hnew
      obtain ⟨rfl, hresult⟩ := hnew
      exact Or.inr (hanswered outcome hresult.symm)

theorem Sound.fails (h : Sound env s) {err : RequestError} (hcurrent : s.client.current = some req)
    (hgone : s.client ≠ .gone) : Sound env (s.finish req (.error err)) :=
  h.finish hcurrent (fun outcome herr => by cases herr) hgone

theorem Sound.connDeath (h : Sound env s) (hcurrent : s.client.current = some req)
    (hgone : s.client ≠ .gone) (retried : Bool) : Sound env (s.connDeath req retried) := by
  unfold System.connDeath
  by_cases hretried : retried
  · rw [if_pos hretried]
    exact h.fails hcurrent hgone
  rw [if_neg hretried]
  refine h.moved rfl ?_ rfl rfl rfl ?_ ?_ ?_
  · unfold System.placed
    rw [hcurrent]
    exact List.Subperm.refl _
  · exact fun hdown => hdown.drop rfl
  · exact fun _ => (h.up hgone).lose
  · exact fun req outcome hmem => Or.inl hmem

/-- The daemon is done with what it was doing. -/
theorem Sound.idle (h : Sound env s) (hgone : s.client ≠ .gone) :
    Sound env { s with client := .idle } := by
  refine h.moved rfl ?_ rfl rfl rfl ?_ ?_ ?_
  · refine List.Sublist.subperm ?_
    simp only [System.placed, Client.current, Option.toList_none, List.append_nil]
    exact (List.sublist_append_left _ _).append_right _
  · exact fun hdown => hdown.drop rfl
  · exact fun _ => (h.up hgone).lose
  · exact fun req outcome hmem => Or.inl hmem

theorem Sound.ask (h : Sound env s) (hcurrent : s.client.current = some req)
    (hline : s.client.line = []) (hgone : s.client ≠ .gone) (retried : Bool) :
    Sound env (s.ask env req retried) := by
  refine h.moved rfl ?_ rfl rfl rfl ?_ ?_ ?_
  · unfold System.placed
    rw [hcurrent]
    exact List.Subperm.refl _
  · refine fun hdown => hdown.ask ?_ rfl
    apply h.known
    simp [hcurrent]
  · intro _
    have hup := h.up hgone
    rw [hline] at hup
    exact hup
  · exact fun req outcome hmem => Or.inl hmem

theorem Sound.skip {retried : Bool} (h : Sound env s) (hclient : s.client = .reading req retried []) :
    Sound env { s with client := .reading req retried [] } := by
  rw [← hclient]
  exact h

/-- A line of the helper's that says what it may say. -/
theorem Sound.hearLine {retried : Bool} (h : Sound env s)
    (hclient : s.client = .reading req retried []) (hfew : s.minted.length ≤ 2 ^ 64)
    (hsaid : ∀ x, env.responses.read line = some x → Said s.helper.dialogs x) :
    Sound env (s.hearLine env req retried line) := by
  have hcurrent : s.client.current = some req := by rw [hclient]; rfl
  have hgone : s.client ≠ .gone := by rw [hclient]; simp
  unfold System.hearLine
  cases hread : env.responses.read line with
  | none => exact h.fails hcurrent hgone
  | some x =>
    cases x with
    | fdaPrompt _ => exact h.skip hclient
    | approve resp =>
      dsimp only
      by_cases hversion : resp.v ≠ wireVersion
      · rw [if_pos hversion]
        exact h.fails hcurrent hgone
      rw [if_neg hversion]
      by_cases hid : resp.requestId ≠ req.requestId
      · rw [if_pos hid]
        exact h.skip hclient
      rw [if_neg hid]
      apply h.finish hcurrent ?_ hgone
      intro outcome houtcome
      cases houtcome
      obtain ⟨d, hd, f, hf, hresp⟩ := hsaid _ hread
      obtain ⟨hminted, hsummary⟩ := h.dialogs d (List.mem_append_right _ hd)
      have hknown : .approve req ∈ s.minted := h.known req (by simp [hcurrent])
      have hsame : d.req = req := by
        apply minted_unique h hfew hminted hknown
        rw [← Classical.not_not.mp hid, hresp]
        rfl
      exact ⟨d, hd, hsame, by rw [hsummary, hsame], f, hf, by rw [hresp]; rfl⟩

theorem Sound.hear {retried : Bool} (hc : env.responses.Lawful) (h : Sound env s)
    (hclient : s.client = .reading req retried line) (hfew : s.minted.length ≤ 2 ^ 64)
    (hup : s.up = byte :: up) : Sound env (s.clientStep env .hear) := by
  have hgone : s.client ≠ .gone := by rw [hclient]; simp
  have hcurrent : s.client.current = some req := by rw [hclient]; rfl
  have hline : s.client.line = line := by rw [hclient]; rfl
  have hsaying : s.client.saying = none := by rw [hclient]; rfl
  have hstream := h.up hgone
  rw [hup, hline] at hstream
  have hmoves : ∀ line', Up env s.helper.dialogs s.helper.saying line' up →
      Sound env { s with client := .reading req retried line', up := up } := by
    intro line' hnext
    refine h.moved rfl ?_ rfl rfl rfl ?_ ?_ ?_
    · unfold System.placed
      rw [hcurrent]
      exact List.Subperm.refl _
    · exact fun hdown => hdown.congr hsaying.symm
    · exact fun _ => hnext
    · exact fun req outcome hmem => Or.inl hmem
  simp only [System.clientStep, hclient, hup]
  by_cases hbyte : byte = newline
  · rw [if_pos hbyte]
    rw [hbyte] at hstream
    obtain ⟨hnext, hsaid⟩ := hstream.heard hc
    exact (hmoves [] hnext).hearLine rfl hfew hsaid
  · rw [if_neg hbyte]
    exact hmoves _ (hstream.hear hbyte)

theorem Sound.hearEnd {retried : Bool} (hc : env.responses.Lawful) (h : Sound env s)
    (hclient : s.client = .reading req retried line) (hfew : s.minted.length ≤ 2 ^ 64)
    (hup : s.up = []) : Sound env (s.clientStep env .hearEnd) := by
  have hgone : s.client ≠ .gone := by rw [hclient]; simp
  have hcurrent : s.client.current = some req := by rw [hclient]; rfl
  have hline : s.client.line = line := by rw [hclient]; rfl
  have hsaying : s.client.saying = none := by rw [hclient]; rfl
  have hstream := h.up hgone
  rw [hup, hline] at hstream
  simp only [System.clientStep, hclient, hup]
  by_cases halive : s.helper.alive
  · rw [if_pos halive]
    exact h
  rw [if_neg halive]
  by_cases hnil : line = []
  · rw [if_pos hnil]
    exact h.connDeath hcurrent hgone retried
  rw [if_neg hnil]
  have hnext : Sound env { s with client := .reading req retried [], up := [] } := by
    refine h.moved rfl ?_ rfl rfl rfl ?_ ?_ ?_
    · unfold System.placed
      rw [hcurrent]
      exact List.Subperm.refl _
    · exact fun hdown => hdown.congr hsaying.symm
    · exact fun _ => hstream.lose
    · exact fun req outcome hmem => Or.inl hmem
  have hheard := hnext.hearLine rfl hfew (hstream.ended hc hnil)
  rw [← hup] at hheard
  exact hheard

theorem Sound.respawned (h : Sound env s) (hclient : s.client = .respawning req) :
    Sound env s.respawned := by
  have hsaying : s.client.saying = none := by rw [hclient]; rfl
  have hline : s.client.line = [] := by rw [hclient]; rfl
  refine
    { minted := h.minted, placed := h.placed, known := h.known, dialogs := ?_, showing := ?_
      down := fun _ => down_start hsaying, up := ?_, results := ?_ }
  · intro d hd
    apply h.dialogs d
    simpa [System.respawned, Helper.start] using hd
  · intro req hreq
    cases hreq
  · intro _
    change Up env [] none s.client.line []
    rw [hline]
    exact up_start
  · intro req outcome hmem
    obtain ⟨d, hd, hanswers⟩ := h.results req outcome hmem
    exact ⟨d, List.mem_append_left _ hd, hanswers⟩

theorem Sound.say (h : Sound env s) {x : HelperRequest} {rest : Text}
    (hsaying : s.client.saying = some (x, byte :: rest))
    (hnext : client.saying = if rest = [] then none else some (x, rest))
    (hcurrent : client.current.toList.Sublist s.client.current.toList) (hline : client.line = [])
    (hgone : s.client ≠ .gone) :
    Sound env { s with down := s.down ++ [byte], client := client } := by
  refine h.moved rfl ?_ rfl rfl rfl ?_ ?_ ?_
  · exact (((List.Sublist.refl _).append hcurrent).append_right _).subperm
  · exact fun hdown => hdown.say hsaying hnext
  · intro _
    have hup := (h.up hgone).lose
    rw [← hline] at hup
    exact hup
  · exact fun req outcome hmem => Or.inl hmem

/-- A request leaves the queue. -/
theorem placed_leave {i : ℕ} (hwait : s.waiting[i]? = some req)
    (hresults : s'.results.map Prod.fst = s.results.map Prod.fst ∧
        s'.client.current.toList = s.client.current.toList ++ [req] ∨
      s'.results.map Prod.fst = s.results.map Prod.fst ++ [req] ∧
        s'.client.current = s.client.current)
    (hwaiting : s'.waiting = s.waiting.eraseIdx i) : List.Subperm s'.placed s.placed := by
  have hperm : (req :: s.waiting.eraseIdx i).Perm s.waiting := by
    obtain ⟨hi, hget⟩ := List.getElem?_eq_some_iff.mp hwait
    rw [← hget]
    exact List.getElem_cons_eraseIdx_perm hi
  unfold System.placed
  rw [hwaiting]
  have hmoved : (s.waiting.eraseIdx i ++ s'.client.current.toList ++ s'.results.map Prod.fst).Perm
      (req :: s.waiting.eraseIdx i ++ s.client.current.toList ++ s.results.map Prod.fst) := by
    rcases hresults with ⟨hmap, hcurrent⟩ | ⟨hmap, hcurrent⟩ <;>
      · rw [hmap, hcurrent]
        simp only [List.append_assoc, List.cons_append]
        refine List.Perm.trans ?_ List.perm_middle
        grind -ring -linarith
  exact (hmoved.trans ((hperm.append_right _).append_right _)).subperm

theorem Sound.turn (h : Sound env s) (i : ℕ) : Sound env (s.clientStep env (.turn i)) := by
  simp only [System.clientStep]
  cases hclient : s.client with
  | idle =>
    have hgone : s.client ≠ .gone := by rw [hclient]; simp
    have hup := (h.up hgone).lose
    cases hwait : s.waiting[i]? with
    | none => exact h
    | some req =>
      dsimp only
      have hknown : .approve req ∈ s.minted := by
        apply h.known
        have hmem := List.mem_of_getElem? hwait
        simp [hmem]
      by_cases hconnected : s.connected
      · rw [if_pos hconnected]
        refine h.moved rfl ?_ rfl rfl rfl ?_ ?_ ?_
        · exact placed_leave hwait (Or.inl ⟨rfl, by rw [hclient]; rfl⟩) rfl
        · exact fun hdown => hdown.ask (x := .approve req) hknown rfl
        · exact fun _ => hup
        · exact fun req outcome hmem => Or.inl hmem
      · rw [if_neg hconnected]
        refine h.moved rfl ?_ rfl rfl rfl ?_ ?_ ?_
        · exact placed_leave hwait (Or.inl ⟨rfl, by rw [hclient]; rfl⟩) rfl
        · exact fun hdown => hdown.drop rfl
        · exact fun _ => hup
        · exact fun req outcome hmem => Or.inl hmem
  | _ => exact h

theorem Sound.lockTimeout (h : Sound env s) (i : ℕ) :
    Sound env (s.clientStep env (.lockTimeout i)) := by
  simp only [System.clientStep]
  cases hwait : s.waiting[i]? with
  | none => exact h
  | some req =>
    refine h.moved rfl ?_ rfl rfl rfl ?_ ?_ ?_
    · exact placed_leave hwait (Or.inr ⟨by simp, rfl⟩) rfl
    · exact fun hdown => hdown
    · exact h.up
    · intro req' outcome hmem
      rcases List.mem_append.mp hmem with hold | hnew
      · exact Or.inl hold
      · simp at hnew

theorem minted_hearLine (env : Env) (s : System) (req : ApproveRequest) (retried : Bool)
    (line : Text) : (s.hearLine env req retried line).minted = s.minted := by
  unfold System.hearLine
  split
  · rfl
  · rfl
  · split
    · rfl
    · split <;> rfl

theorem minted_connDeath (s : System) (req : ApproveRequest) (retried : Bool) :
    (s.connDeath req retried).minted = s.minted := by
  unfold System.connDeath
  split <;> rfl

/-- One id is drawn at a time. -/
theorem minted_clientStep (env : Env) (s : System) (e : Event) :
    (s.clientStep env e).minted = s.minted ∨
      ∃ x, (s.clientStep env e).minted = s.minted ++ [x] := by
  cases e with
  | mint question => exact Or.inr ⟨_, rfl⟩
  | mintPrompt => exact Or.inr ⟨_, rfl⟩
  | hear =>
    refine Or.inl ?_
    simp only [System.clientStep]
    split
    · split
      · exact minted_hearLine ..
      · rfl
    · rfl
  | hearEnd =>
    refine Or.inl ?_
    simp only [System.clientStep]
    split
    · split
      · rfl
      · split
        · exact minted_connDeath ..
        · exact minted_hearLine ..
    · rfl
  | sayError =>
    refine Or.inl ?_
    simp only [System.clientStep]
    split
    · rfl
    · split
      · exact minted_connDeath ..
      · rfl
      · rfl
  | _ =>
    refine Or.inl ?_
    simp only [System.clientStep]
    repeat' split
    all_goals rfl

theorem minted_step_le (env : Env) (s : System) (e : Event) :
    s.minted.length ≤ (s.clientStep env e).minted.length ∧
      (s.clientStep env e).minted.length ≤ s.minted.length + 1 := by
  rcases minted_clientStep env s e with hsame | ⟨req, hnew⟩
  · rw [hsame]
    omega
  · rw [hnew]
    simp

/-- The daemon's steps keep both streams and every answer in order. -/
theorem Sound.clientStep (hc : env.responses.Lawful) (h : Sound env s)
    (hfew : (s.clientStep env e).minted.length ≤ 2 ^ 64) : Sound env (s.clientStep env e) := by
  have hfew' := (minted_step_le env s e).1.trans hfew
  cases e with
  | mint question =>
    have hlt : s.minted.length < 2 ^ 64 := by
      simp only [System.clientStep, List.length_append, List.length_singleton] at hfew
      omega
    exact h.mint hlt question
  | mintPrompt => exact h.mintPrompt
  | turn i => exact h.turn i
  | lockTimeout i => exact h.lockTimeout i
  | say =>
    simp only [System.clientStep]
    by_cases halive : s.helper.alive
    · rw [if_pos halive]
      cases hclient : s.client with
      | writing req retried rest =>
        cases rest with
        | nil => exact h
        | cons byte rest =>
          apply h.say (x := .approve req) (by rw [hclient]; rfl)
          · by_cases hrest : rest = [] <;> simp [hrest, Client.saying]
          · rw [hclient]
            by_cases hrest : rest = [] <;> simp [hrest, Client.current]
          · by_cases hrest : rest = [] <;> simp [hrest, Client.line]
          · rw [hclient]
            simp
      | notifying prompt rest =>
        cases rest with
        | nil => exact h
        | cons byte rest =>
          apply h.say (x := .fdaPrompt prompt) (by rw [hclient]; rfl)
          · by_cases hrest : rest = [] <;> simp [hrest, Client.saying]
          · rw [hclient]
            by_cases hrest : rest = [] <;> simp [hrest, Client.current]
          · by_cases hrest : rest = [] <;> simp [hrest, Client.line]
          · rw [hclient]
            simp
      | _ => exact h
    · rw [if_neg halive]
      exact h
  | sayError =>
    simp only [System.clientStep]
    by_cases halive : s.helper.alive
    · rw [if_pos halive]
      exact h
    rw [if_neg halive]
    cases hclient : s.client with
    | writing req retried rest =>
      exact h.connDeath (by rw [hclient]; rfl) (by rw [hclient]; simp) retried
    | notifying prompt rest => exact h.idle (by rw [hclient]; simp)
    | _ => exact h
  | hear =>
    cases hclient : s.client with
    | reading req retried line =>
      cases hup : s.up with
      | nil => simpa only [System.clientStep, hclient, hup] using h
      | cons byte rest => exact h.hear hc hclient hfew' hup
    | _ => simpa only [System.clientStep, hclient] using h
  | hearEnd =>
    cases hclient : s.client with
    | reading req retried line =>
      cases hup : s.up with
      | nil => exact h.hearEnd hc hclient hfew' hup
      | cons byte rest => simpa only [System.clientStep, hclient, hup] using h
    | _ => simpa only [System.clientStep, hclient] using h
  | timeout =>
    simp only [System.clientStep]
    cases hclient : s.client with
    | writing req retried rest =>
      exact h.fails (by rw [hclient]; rfl) (by rw [hclient]; simp)
    | reading req retried line =>
      exact h.fails (by rw [hclient]; rfl) (by rw [hclient]; simp)
    | notifying prompt rest => exact h.idle (by rw [hclient]; simp)
    | _ => exact h
  | abandon =>
    simp only [System.clientStep]
    cases hclient : s.client with
    | gone => exact h
    | _ => exact h.idle (by rw [hclient]; simp)
  | respawn =>
    simp only [System.clientStep]
    cases hclient : s.client with
    | respawning req =>
      apply (h.respawned hclient).ask
      · change s.client.current = some req
        rw [hclient]
        rfl
      · change s.client.line = []
        rw [hclient]
        rfl
      · change s.client ≠ .gone
        rw [hclient]
        simp
    | _ => exact h
  | respawnFail =>
    simp only [System.clientStep]
    cases hclient : s.client with
    | respawning req => exact h.fails (by rw [hclient]; rfl) (by rw [hclient]; simp)
    | _ => exact h
  | notify i =>
    simp only [System.clientStep]
    cases hclient : s.client with
    | idle =>
      cases hprompt : s.prompts[i]? with
      | none => exact h
      | some prompt =>
      dsimp only
      by_cases hconnected : s.connected
      · rw [if_pos hconnected]
        refine h.moved rfl ?_ rfl rfl rfl ?_ ?_ ?_
        · unfold System.placed
          rw [hclient]
          exact List.Subperm.refl _
        · exact fun hdown => hdown.ask (x := .fdaPrompt prompt) trivial rfl
        · exact fun _ => (h.up (by rw [hclient]; simp)).lose
        · exact fun req outcome hmem => Or.inl hmem
      · rw [if_neg hconnected, ← hclient]
        exact h.withPrompts _
    | _ => exact h
  | dropPrompt i => exact h.withPrompts _
  | hangUp =>
    refine h.moved rfl ?_ rfl rfl rfl ?_ ?_ ?_
    · refine List.Sublist.subperm ?_
      simp only [System.clientStep, System.placed, Client.current, Option.toList_none,
        List.append_nil]
      exact (List.sublist_append_left _ _).append_right _
    · exact fun hdown => hdown.drop rfl
    · exact fun hgone => absurd rfl hgone
    · exact fun req outcome hmem => Or.inl hmem
  | _ => exact h

theorem later_modify (dialogs : List Dialog) (d : ℕ) {f : Dialog → Dialog} (hf : ∀ dialog : Dialog, dialog.Grows (f dialog)) :
    Later dialogs (dialogs.modify d f) ∧
      ∀ dialog ∈ dialogs.modify d f, ∃ d₀ ∈ dialogs, d₀.Grows dialog := by
  constructor
  · intro dialog hmem
    obtain ⟨i, hi, hget⟩ := List.getElem_of_mem hmem
    have hlength : i < (dialogs.modify d f).length := by simpa using hi
    refine ⟨(dialogs.modify d f)[i], List.getElem_mem hlength, ?_⟩
    rw [List.getElem_modify, hget]
    split
    · exact hf dialog
    · exact Dialog.Grows.refl dialog
  · intro dialog hmem
    obtain ⟨i, hi, hget⟩ := List.getElem_of_mem hmem
    have hlength : i < dialogs.length := by simpa using hi
    refine ⟨dialogs[i], List.getElem_mem hlength, ?_⟩
    rw [← hget, List.getElem_modify]
    split
    · exact hf _
    · exact Dialog.Grows.refl _

/-- A callback of a dialog. -/
theorem Sound.change (h : Sound env s) (d : ℕ) {f : Dialog → Dialog}
    (hf : ∀ dialog : Dialog, dialog.Grows (f dialog)) :
    Sound env { s with helper := s.helper.change d f } := by
  obtain ⟨hlater, hold⟩ := later_modify s.helper.dialogs d hf
  refine h.helped rfl rfl rfl rfl rfl hlater ?_ h.showing h.down fun hgone => ?_
  · exact fun dialog hmem => Or.inl (hold dialog hmem)
  · exact (h.up hgone).later hlater

/-- A line of the daemon's, as the reader takes it. -/
theorem Sound.readLine (h : Sound env s)
    (hdown : Down env s.minted s.client [] down)
    (hasked : ∀ x, env.requests.read line = some x → Asked s.minted x) :
    Sound env { s with down := down, helper := s.helper.readLine env line } := by
  have hends : Sound env
      { s with down := down, helper := { s.helper with reader := .ended } } := by
    refine h.read rfl rfl rfl rfl rfl rfl rfl rfl ?_ fun hended => absurd rfl hended
    intro req hreq
    cases hreq
  unfold Helper.readLine
  cases hread : env.requests.read line with
  | none => exact hends
  | some x =>
    cases x with
    | approve req =>
      dsimp only
      by_cases hversion : req.v ≠ wireVersion
      · rw [if_pos hversion]
        exact hends
      rw [if_neg hversion]
      refine h.read rfl rfl rfl rfl rfl rfl rfl rfl ?_ fun _ => hdown
      intro req' hreq
      cases hreq
      exact hasked _ hread
    | fdaPrompt prompt =>
      dsimp only
      by_cases hversion : prompt.v ≠ wireVersion
      · rw [if_pos hversion]
        exact hends
      rw [if_neg hversion]
      refine h.read rfl rfl rfl rfl rfl rfl rfl rfl ?_ fun _ => hdown
      intro req' hreq
      cases hreq

theorem Sound.readByte (hc : env.requests.Lawful) (h : Sound env s)
    (hreader : s.helper.reader = .reading line) (hdown : s.down = byte :: down) :
    Sound env (s.helperStep env .read) := by
  have hstream := h.down (by rw [hreader]; simp)
  rw [hreader, hdown] at hstream
  simp only [System.helperStep, hreader, hdown]
  by_cases hbyte : byte = newline
  · rw [if_pos hbyte]
    rw [hbyte] at hstream
    obtain ⟨hnext, hasked⟩ := hstream.heard hc
    exact h.readLine hnext hasked
  · rw [if_neg hbyte]
    refine h.read rfl rfl rfl rfl rfl rfl rfl rfl ?_ fun _ => hstream.read hbyte
    intro req hreq
    cases hreq

theorem Sound.readEnd (hc : env.requests.Lawful) (h : Sound env s)
    (hreader : s.helper.reader = .reading line) (hdown : s.down = []) :
    Sound env (s.helperStep env .readEnd) := by
  have hstream := h.down (by rw [hreader]; simp)
  rw [hreader, hdown] at hstream
  simp only [System.helperStep, hreader, hdown]
  by_cases hgone : s.client = .gone
  · rw [if_pos hgone]
    by_cases hnil : line = []
    · rw [if_pos hnil]
      refine h.read rfl rfl rfl rfl rfl rfl rfl rfl ?_ fun hended => absurd rfl hended
      intro req hreq
      cases hreq
    · rw [if_neg hnil]
      have hnext : Down env s.minted s.client [] [] := down_start (by rw [hgone]; rfl)
      exact h.readLine hnext (hstream.ended hc)
  · rw [if_neg hgone]
    exact h

theorem Sound.spoken (h : Sound env s) (speaker : Speaker) {said : List HelperResponse}
    (hsaying : s.client ≠ .gone → s.helper.saying = none) :
    Sound env { s with helper := { s.helper.spoken speaker with said := said } } := by
  cases speaker with
  | dialog d =>
    obtain ⟨hlater, hold⟩ := later_modify s.helper.dialogs d Dialog.grows_spoken
    refine h.helped rfl rfl rfl rfl rfl hlater ?_ h.showing h.down fun hgone => ?_
    · exact fun dialog hmem => Or.inl (hold dialog hmem)
    · have hup := (h.up hgone).later hlater
      rw [hsaying hgone] at hup
      exact hup
  | explainer =>
    refine h.helped rfl rfl rfl rfl rfl (Later.refl _) ?_ h.showing h.down fun hgone => ?_
    · exact fun dialog hmem => Or.inl ⟨dialog, hmem, Dialog.Grows.refl dialog⟩
    · have hup := h.up hgone
      rw [hsaying hgone] at hup
      exact hup

theorem saying_eq {self : Helper} {speaker : Speaker} {resp : HelperResponse} {rest : Text}
    (hwriter : self.writer = some (speaker, resp, rest)) :
    self.saying = if rest = [] then none else some (resp, rest) := by
  unfold Helper.saying
  rw [hwriter]
  cases rest <;> simp

theorem owes_said (self : Helper) {speaker : Speaker} {resp : HelperResponse}
    (howes : self.owes speaker = some resp) : Said self.dialogs resp := by
  cases speaker with
  | dialog d =>
    simp only [Helper.owes] at howes
    cases hget : self.dialogs[d]? with
    | none => simp [hget] at howes
    | some dialog =>
      simp only [hget] at howes
      cases hslot : dialog.slot with
      | taken finalizer =>
        simp only [hslot, Option.some.injEq] at howes
        rw [← howes]
        exact ⟨dialog, List.mem_of_getElem? hget, finalizer, by rw [hslot]; rfl, rfl⟩
      | _ => simp [hslot] at howes
  | explainer =>
    simp only [Helper.owes] at howes
    cases hexplainer : self.explainer with
    | granting requestId =>
      simp only [hexplainer, Option.some.injEq] at howes
      rw [← howes]
      trivial
    | dismissing requestId =>
      simp only [hexplainer, Option.some.injEq] at howes
      rw [← howes]
      trivial
    | _ => simp [hexplainer] at howes

theorem Sound.quiet (h : Sound env s) (hdialogs : s'.helper.dialogs = s.helper.dialogs)
    (hreader : s'.helper.reader = s.helper.reader)
    (hsaying : s'.helper.saying = s.helper.saying) (hsame : s' = { s with helper := s'.helper }) :
    Sound env s' := by
  rw [hsame]
  refine h.read rfl rfl rfl rfl rfl hdialogs hsaying rfl ?_ ?_
  · simp only [hreader]
    exact h.showing
  · simp only [hreader]
    exact h.down

/-- So do the helper's. -/
theorem Sound.helperStep (hc : env.requests.Lawful) (h : Sound env s) :
    Sound env (s.helperStep env e) := by
  cases e with
  | read =>
    cases hreader : s.helper.reader with
    | reading line =>
      cases hdown : s.down with
      | nil => simpa only [System.helperStep, hreader, hdown] using h
      | cons byte rest => exact h.readByte hc hreader hdown
    | _ => simpa only [System.helperStep, hreader] using h
  | readEnd =>
    cases hreader : s.helper.reader with
    | reading line =>
      cases hdown : s.down with
      | nil => exact h.readEnd hc hreader hdown
      | cons byte rest => simpa only [System.helperStep, hreader, hdown] using h
    | _ => simpa only [System.helperStep, hreader] using h
  | readError =>
    simp only [System.helperStep]
    cases hreader : s.helper.reader with
    | reading line =>
      refine h.read rfl rfl rfl rfl rfl rfl rfl rfl ?_ fun hended => absurd rfl hended
      intro req hreq
      cases hreq
    | _ => exact h
  | showDialog =>
    simp only [System.helperStep]
    cases hreader : s.helper.reader with
    | showing req =>
      have hlater : Later s.helper.dialogs (s.helper.dialogs ++ [Dialog.open req]) :=
        fun d hd => ⟨d, List.mem_append_left _ hd, Dialog.Grows.refl d⟩
      refine h.helped rfl rfl rfl rfl rfl hlater ?_ ?_ ?_ ?_
      · intro d hd
        rcases List.mem_append.mp hd with hold | hnew
        · exact Or.inl ⟨d, hold, Dialog.Grows.refl d⟩
        · cases List.mem_singleton.mp hnew
          exact Or.inr ⟨h.showing req hreader, rfl⟩
      · intro req' hreq
        cases hreq
      · intro _
        have hdown := h.down (by rw [hreader]; simp)
        rw [hreader] at hdown
        exact hdown
      · exact fun hgone => (h.up hgone).later hlater
    | _ => exact h
  | resume =>
    simp only [System.helperStep, Helper.resume]
    cases hreader : s.helper.reader with
    | waiting d =>
      dsimp only
      cases hget : s.helper.dialogs[d]? with
      | none => exact h
      | some dialog =>
        dsimp only
        cases hslot : dialog.slot with
        | signalled finalizer =>
          refine h.read rfl rfl rfl rfl rfl rfl rfl rfl ?_ fun _ => ?_
          · intro req hreq
            cases hreq
          · have hdown := h.down (by rw [hreader]; simp)
            rw [hreader] at hdown
            exact hdown
        | _ => exact h
    | _ => exact h
  | terminate =>
    simp only [System.helperStep]
    split
    · exact h.quiet rfl rfl rfl rfl
    · exact h
  | kill => exact h.quiet rfl rfl rfl rfl
  | evaluated d ok => exact h.change d (Dialog.grows_evaluated ok)
  | cancel d => exact h.change d Dialog.grows_cancel
  | countdown d => exact h.change d Dialog.grows_countdown
  | disarm d => exact h.change d Dialog.grows_disarm
  | signal d => exact h.change d Dialog.grows_signal
  | explain granted =>
    simp only [System.helperStep, Helper.explain]
    cases hqueue : s.helper.explainers with
    | nil => exact h
    | cons prompt rest =>
      dsimp only
      cases hexplainer : s.helper.explainer <;> exact h.quiet rfl rfl rfl rfl
  | probe =>
    simp only [System.helperStep]
    cases hexplainer : s.helper.explainer with
    | shown requestId => exact h.quiet rfl rfl rfl rfl
    | _ => exact h
  | dismiss =>
    simp only [System.helperStep]
    cases hexplainer : s.helper.explainer with
    | shown requestId => exact h.quiet rfl rfl rfl rfl
    | granted requestId => exact h.quiet rfl rfl rfl rfl
    | _ => exact h
  | lock speaker =>
    simp only [System.helperStep]
    cases hwriter : s.helper.writer with
    | some writer => exact h
    | none =>
      cases howes : s.helper.owes speaker with
      | none => exact h
      | some resp =>
        refine h.helped rfl rfl rfl rfl rfl (Later.refl _) ?_ h.showing h.down fun hgone => ?_
        · exact fun dialog hmem => Or.inl ⟨dialog, hmem, Dialog.Grows.refl dialog⟩
        · have hup := h.up hgone
          have hsaying : s.helper.saying = none := by
            unfold Helper.saying
            rw [hwriter]
          rw [hsaying] at hup
          have hlock := hup.lock (owes_said s.helper howes)
          rw [saying_eq rfl, if_neg (by simp)]
          exact hlock
  | write =>
    simp only [System.helperStep]
    cases hwriter : s.helper.writer with
    | none => exact h
    | some writer =>
      obtain ⟨speaker, resp, rest⟩ := writer
      cases rest with
      | nil => exact h
      | cons byte rest =>
        dsimp only
        by_cases hgone : s.client = .gone
        · rw [if_pos hgone]
          exact h
        rw [if_neg hgone]
        refine h.helped rfl rfl rfl rfl rfl (Later.refl _) ?_ h.showing h.down fun _ => ?_
        · exact fun dialog hmem => Or.inl ⟨dialog, hmem, Dialog.Grows.refl dialog⟩
        · have hup := h.up hgone
          rw [saying_eq hwriter, if_neg (by simp)] at hup
          have hwrite := hup.write
          rw [saying_eq rfl]
          exact hwrite
  | writeError =>
    simp only [System.helperStep]
    cases hwriter : s.helper.writer with
    | none => exact h
    | some writer =>
      obtain ⟨speaker, resp, rest⟩ := writer
      cases rest with
      | nil => exact h
      | cons byte rest =>
        dsimp only
        by_cases hgone : s.client = .gone
        · rw [if_pos hgone]
          exact h.spoken speaker fun hopen => absurd hgone hopen
        · rw [if_neg hgone]
          exact h
  | unlock =>
    simp only [System.helperStep]
    cases hwriter : s.helper.writer with
    | none => exact h
    | some writer =>
      obtain ⟨speaker, resp, rest⟩ := writer
      cases rest with
      | nil =>
        apply h.spoken speaker
        intro _
        rw [saying_eq hwriter, if_pos rfl]
      | cons byte rest => exact h
  | _ => exact h

theorem Sound.step (hreq : env.requests.Lawful) (hresp : env.responses.Lawful)
    (h : Sound env s) (hfew : (s.clientStep env e).minted.length ≤ 2 ^ 64) :
    Sound env (s.step env e) := by
  have hclient := h.clientStep hresp hfew
  unfold System.step
  split
  · exact hclient.helperStep hreq
  · exact hclient

theorem minted_helperStep (env : Env) (s : System) (e : Event) :
    (s.helperStep env e).minted = s.minted := by
  cases e <;> simp only [System.helperStep] <;> repeat' split
  all_goals rfl

theorem minted_mono (env : Env) (s : System) (e : Event) :
    (s.clientStep env e).minted = (s.step env e).minted := by
  unfold System.step
  split
  · rw [minted_helperStep]
  · rfl

end Sound

/-- The system after a run. -/
def after (env : Env) (es : List Event) : System := run (System.step env) System.start es

theorem after_concat (env : Env) (es : List Event) (e : Event) :
    after env (es ++ [e]) = (after env es).step env e := by
  unfold after
  rw [run_append]
  rfl

theorem minted_after (env : Env) (es : List Event) : (after env es).minted.length ≤ es.length := by
  induction es using List.reverseRecOn with
  | nil => exact le_refl _
  | append_singleton es e ih =>
    rw [after_concat, ← minted_mono, List.length_append]
    exact (minted_step_le env _ e).2.trans (Nat.add_le_add_right ih 1)

theorem sound_after {env : Env} (hreq : env.requests.Lawful) (hresp : env.responses.Lawful)
    (es : List Event) (hfew : (after env es).minted.length ≤ 2 ^ 64) : Sound env (after env es) := by
  induction es using List.reverseRecOn with
  | nil => exact sound_start env
  | append_singleton es e ih =>
    rw [after_concat, ← minted_mono] at hfew
    rw [after_concat]
    exact (ih ((minted_step_le env _ e).1.trans hfew)).step hreq hresp hfew

theorem approved_iff (f : Finalizer) : f.outcome = .approved ↔ f = .evaluated true := by
  cases f with
  | evaluated ok => cases ok <;> simp [Finalizer.outcome]
  | _ => simp [Finalizer.outcome]

/-- Whatever is lost, late or cut off on the way: an exchange comes back with an outcome only
where the dialog that showed its request, all of it, ended with that outcome, and with an
approval only where the sensor took it there; no request gets two results; and no dialog
shows anything but what was asked. -/
theorem approvals_attributed (env : Env) (hreq : env.requests.Lawful)
    (hresp : env.responses.Lawful) (es : List Event)
    (hfew : (after env es).minted.length ≤ 2 ^ 64) :
    (∀ req outcome, (req, .ok outcome) ∈ (after env es).results →
      ∃ d ∈ (after env es).past ++ (after env es).helper.dialogs, Answers d req outcome ∧
        (outcome = .approved → d.slot.finalizer = some (.evaluated true))) ∧
    ((after env es).results.map Prod.fst).Nodup ∧
    ∀ d ∈ (after env es).past ++ (after env es).helper.dialogs,
      .approve d.req ∈ (after env es).minted ∧ d.summary = summaryLine d.req := by
  have hsound := sound_after hreq hresp es hfew
  refine ⟨fun req outcome hmem => ?_, ?_, hsound.dialogs⟩
  · obtain ⟨d, hd, hanswers⟩ := hsound.results req outcome hmem
    refine ⟨d, hd, hanswers, fun happroved => ?_⟩
    obtain ⟨_, _, f, hf, houtcome⟩ := hanswers
    rw [happroved, approved_iff] at houtcome
    rw [hf, houtcome]
  · exact (List.nodup_append.mp hsound.placed).2.1

section Sample

/-- A shell that asks for a key. -/
def asks (key : String) : Question :=
  ⟨key, "get", ⟨[⟨4242, 1, "/bin/zsh", 1⟩], ⟨501, 501, 20, 4242, 7⟩, none⟩, 60⟩

def first : ApproveRequest := buildApproveRequest 77 0 (asks "ns/first")

def second : ApproveRequest := buildApproveRequest 77 2 (asks "ns/second")

def sampleEnv : Env where
  requests := codec [.approve first, .approve second]
  responses := codec
    [.approve (respond first (.evaluated true)), .approve (respond second (.evaluated true))]
  pid := 77

/-- A prompt draws the id between two requests. The daemon gives the first request up, and its
approval comes while it waits for the second, which is approved too. -/
def lateApproval : List Event :=
  List.flatten
    [[.mint (asks "ns/first"), .mintPrompt, .mint (asks "ns/second"), .dropPrompt 0, .turn 0],
      List.replicate 4 .say, List.replicate 4 .read, [.showDialog, .timeout, .turn 0],
      List.replicate 5 .say, [.evaluated 0 true, .lock (.dialog 0)], List.replicate 4 .write,
      [.unlock, .signal 0], List.replicate 4 .hear, [.resume], List.replicate 5 .read,
      [.showDialog, .evaluated 1 true, .lock (.dialog 1)], List.replicate 5 .write,
      [.unlock, .signal 1], List.replicate 5 .hear]

set_option maxRecDepth 10000 in
theorem lateApproval_results : (after sampleEnv lateApproval).results =
    [(first, .error .timedOut), (second, .ok .approved)] := by
  decide

theorem approvals_attributed_late :
    (first, .error .timedOut) ∈ (after sampleEnv lateApproval).results ∧
      ∃ d ∈ (after sampleEnv lateApproval).past ++ (after sampleEnv lateApproval).helper.dialogs,
        Answers d second .approved ∧ d.slot.finalizer = some (.evaluated true) := by
  have hfew : (after sampleEnv lateApproval).minted.length ≤ 2 ^ 64 :=
    (minted_after _ _).trans (by decide)
  obtain ⟨d, hd, hanswers, htaken⟩ := (approvals_attributed sampleEnv (codec_lawful _)
    (codec_lawful _) lateApproval hfew).1 second .approved (by simp [lateApproval_results])
  exact ⟨by simp [lateApproval_results], d, hd, hanswers, htaken rfl⟩

end Sample

end Approver

end CacheWarden
