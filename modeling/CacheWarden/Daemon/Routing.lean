import CacheWarden.Daemon.Enumeration
import CacheWarden.Lib.Transition

/-!
# Which signer a request reaches

A client of an agent socket asks which keys there are, and asks for signatures.
What it is shown is put together from the registry and from every upstream, and
each shown key of an upstream is recorded with its upstream. A later request goes
to the registry when it holds the blob, to the recorded upstream otherwise, and
to one upstream after another when that one does not sign. In between, agents
come and go, and the registry and the caches of the filter change.
-/

set_option autoImplicit false

namespace CacheWarden

namespace Daemon

namespace Routing

open Transition

inductive Signer where
  | local
  | upstream (idx : ℕ)
  deriving DecidableEq

/-- An upstream agent: what it sends when asked for its identities, and when
asked for a signature. -/
structure UpstreamAgent where
  listing : UpstreamAnswer
  signing : AgentMessage → UpstreamAnswer

/-- The identities it offers; none while it is down. -/
def UpstreamAgent.offered (self : UpstreamAgent) : List Identity :=
  match upstreamIdentities self.listing with
  | .ok identities => identities
  | .error _ => []

/-- `forward_sign`: a reply counts only if it is a signature. -/
def forwardSign (agent : UpstreamAgent) (msg : AgentMessage) : Option AgentMessage :=
  match agent.signing msg with
  | none => none
  | some stream =>
    match (AgentCodec.read stream).1 with
    | .ok (some resp) => if resp.msgType = .signResponse then some resp else none
    | _ => none

/-- Where the connection's task stands: at its next message, between two
upstreams of an enumeration, in the two passes of a local signature, before the
fallback, or between two upstreams of it. -/
inductive Phase where
  | idle
  | enumerating (next : ℕ) (merge : Merge) (sources : List (Identity × Signer))
  | signing (msg : AgentMessage)
  | approving (msg : AgentMessage) (kvKey : String) (source : KeySource)
  | falling (msg : AgentMessage) (keyBlob : Blob)
  | trying (msg : AgentMessage) (keyBlob : Blob) (next : ℕ)
  | closed

/-- A connection, the socket it is on, and the upstreams as they are now.
`listed` is the last answer, each identity with the source it came from. -/
structure Connection where
  socket : SocketState
  agents : List UpstreamAgent
  admitted : Bool
  routes : Std.ExtTreeMap Blob ℕ
  listed : List (Identity × Signer)
  phase : Phase

inductive Event where
  | message (msg : AgentMessage)
  | resume
  | localPass (ctx : HandlerCtx) (daemon : State)
  | decided (approved : Bool) (ctx : HandlerCtx) (daemon : State)
  | registry (live : PublicKeyRegistry)
  | caches (update : ℕ → ℕ → GithubCache → GithubCache)
  | agent (idx : ℕ) (agent : UpstreamAgent)

/-- What one step does: the signer it puts a request to, and for which blob; the
reply it sends; and what it leaves. -/
structure Outcome where
  contact : Option (Signer × Blob)
  reply : Option AgentMessage
  next : Connection

def refreshedFilter (update : GithubCache → GithubCache) : Filter → Filter
  | .github m => .github { m with cache := update m.cache }
  | filter => filter

/-- The filter after fetches: only the caches of its rules are others. -/
def refreshed (update : ℕ → ℕ → GithubCache → GithubCache) (filter : FilterEvaluator) :
    FilterEvaluator where
  groups := filter.groups.mapIdx fun i g =>
    ⟨g.rules.mapIdx fun j r => ⟨refreshedFilter (update i j) r.filter, r.negated⟩⟩

theorem isBlobOnly_refreshed (update : ℕ → ℕ → GithubCache → GithubCache)
    {filter : FilterEvaluator} (h : filter.isBlobOnly = true) :
    (refreshed update filter).isBlobOnly = true := by
  unfold FilterEvaluator.isBlobOnly at h ⊢
  rw [List.all_eq_true] at h ⊢
  intro r hr
  rcases List.mem_flatMap.mp hr with ⟨g', hg', hr'⟩
  rcases List.mem_mapIdx.mp hg' with ⟨i, hi, rfl⟩
  rcases List.mem_mapIdx.mp hr' with ⟨j, hj, rfl⟩
  have hold := h _ (List.mem_flatMap.mpr ⟨_, List.getElem_mem hi, List.getElem_mem hj⟩)
  revert hold
  cases filter.groups[i].rules[j].filter <;> exact id

namespace Connection

variable (ssh : SshKeys) (libs : MatchLibs)

def replied (self : Connection) (resp : AgentMessage) : Outcome :=
  ⟨none, some resp, { self with phase := .idle }⟩

def tryUpstream (self : Connection) (msg : AgentMessage) (keyBlob : Blob) (idx : ℕ) : Outcome :=
  match self.agents[idx]? with
  | none => self.replied .failure
  | some agent =>
    match forwardSign agent msg with
    | some resp => ⟨some (.upstream idx, keyBlob), some resp, { self with phase := .idle }⟩
    | none =>
      ⟨some (.upstream idx, keyBlob), none,
        { self with phase := .trying msg keyBlob (idx + 1) }⟩

/-- The filter is asked once, without a comment, before the first upstream. -/
def fallback (self : Connection) (msg : AgentMessage) (keyBlob : Blob) : Outcome :=
  if !self.socket.filter.isBlobOnly || !self.socket.filter.matches libs ⟨keyBlob, ""⟩ then
    self.replied .failure
  else self.tryUpstream msg keyBlob 0

def signRequest (self : Connection) (msg : AgentMessage) : Outcome :=
  match msg.parseSignRequest with
  | .error _ => self.replied .failure
  | .ok fields =>
    if (self.socket.target.live.lookup fields.keyBlob).isSome then
      ⟨none, none, { self with phase := .signing msg }⟩
    else if self.agents.isEmpty then self.replied .failure
    else
      match (self.routes[fields.keyBlob]?).bind fun idx =>
          (self.agents[idx]?).map fun agent => (idx, agent) with
      | none => self.fallback libs msg fields.keyBlob
      | some (idx, agent) =>
        match forwardSign agent msg with
        | some resp =>
          ⟨some (.upstream idx, fields.keyBlob), some resp, { self with phase := .idle }⟩
        | none =>
          ⟨some (.upstream idx, fields.keyBlob), none,
            { self with phase := .falling msg fields.keyBlob }⟩

/-- The local identities are read at once, and the routes cleared. -/
def requestIdentities (self : Connection) : Outcome :=
  let merge := Merge.start libs self.socket
  ⟨none, none, { self with
    routes := ∅
    phase := .enumerating 0 merge (merge.merged.map fun identity => (identity, .local)) }⟩

/-- One upstream's identities, or the answer after the last. -/
def enumerate (self : Connection) (next : ℕ) (merge : Merge)
    (sources : List (Identity × Signer)) : Outcome :=
  match self.agents[next]? with
  | some agent =>
    let merge' := agent.offered.foldl (Merge.offer libs self.socket.filter next) merge
    let found := merge'.merged.drop merge.merged.length
    ⟨none, none, { self with
      phase := .enumerating (next + 1) merge'
        (sources ++ found.map fun identity => (identity, .upstream next)) }⟩
  | none =>
    match AgentMessage.buildIdentitiesAnswer merge.merged with
    | some answer =>
      ⟨none, some answer, { self with routes := merge.routes, listed := sources, phase := .idle }⟩
    | none => ⟨none, none, { self with phase := .closed }⟩

/-- The local key that a pass goes on to sign with. -/
def localContact (self : Connection) (msg : AgentMessage) (usable : RegisteredKey → Bool) :
    Option (Signer × Blob) :=
  match msg.parseSignRequest with
  | .error _ => none
  | .ok fields =>
    ((signableKey libs self.socket fields.keyBlob).filter usable).map fun _ =>
      (.local, fields.keyBlob)

def localPass (self : Connection) (msg : AgentMessage) (ctx : HandlerCtx) (daemon : State) :
    Outcome :=
  match (localSignFirstPass ssh libs self.socket ctx daemon msg).1 with
  | .direct resp =>
    ⟨self.localContact libs msg fun _ => true, some resp, { self with phase := .idle }⟩
  | .needsApproval material =>
    ⟨self.localContact libs msg fun _ => true, none,
      { self with phase := .approving msg material.kvKey material.source }⟩

def decided (self : Connection) (msg : AgentMessage) (kvKey : String) (source : KeySource)
    (approved : Bool) (ctx : HandlerCtx) (daemon : State) : Outcome :=
  if approved then
    ⟨self.localContact libs msg (·.kvKey = kvKey),
      some (localSignFinalizeAfterApproval ssh libs self.socket ctx daemon kvKey source msg).1,
      { self with phase := .idle }⟩
  else self.replied .failure

def respond (self : Connection) (msg : AgentMessage) : Outcome :=
  if !self.admitted then self.replied .failure
  else
    match msg.msgType with
    | .requestIdentities => self.requestIdentities libs
    | .signRequest => self.signRequest libs msg
    | _ => self.replied .failure

/-- What no step of the connection's own changes. -/
def changed (self : Connection) : Event → Connection
  | .registry live => { self with socket := { self.socket with target :=
      { self.socket.target with live := live } } }
  | .caches update => { self with socket := { self.socket with
      filter := refreshed update self.socket.filter } }
  | .agent idx agent => { self with agents := self.agents.set idx agent }
  | _ => self

def perform (self : Connection) (e : Event) : Outcome :=
  match e, self.phase with
  | .message msg, .idle => self.respond libs msg
  | .resume, .enumerating next merge sources => self.enumerate libs next merge sources
  | .resume, .falling msg keyBlob => self.fallback libs msg keyBlob
  | .resume, .trying msg keyBlob next => self.tryUpstream msg keyBlob next
  | .localPass ctx daemon, .signing msg => self.localPass ssh libs msg ctx daemon
  | .decided approved ctx daemon, .approving msg kvKey source =>
    self.decided ssh libs msg kvKey source approved ctx daemon
  | e, _ => ⟨none, none, self.changed e⟩

def step (self : Connection) (e : Event) : Connection := (self.perform ssh libs e).next

/-- A connection that has just been accepted. -/
def accepted (socket : SocketState) (agents : List UpstreamAgent) (admitted : Bool) : Connection :=
  ⟨socket, agents, admitted, ∅, [], .idle⟩

/-- What an upstream has on offer. -/
def offered (self : Connection) (idx : ℕ) : List Identity :=
  ((self.agents[idx]?).map UpstreamAgent.offered).getD []

/-- The source holds the key. -/
def Offers (self : Connection) (b : Blob) : Signer → Prop
  | .local => (self.socket.target.live.lookup b).isSome = true
  | .upstream idx => ∃ identity ∈ self.offered idx, identity.keyBlob = b

/-- The filter accepts the key under every comment the source gives it. -/
def Shows (self : Connection) (b : Blob) : Signer → Prop
  | .local => (self.socket.target.live.lookup b).all (fun key =>
      self.socket.filter.matches libs ⟨key.keyBlob, key.comment⟩) = true
  | .upstream idx => ∀ identity ∈ self.offered idx, identity.keyBlob = b →
      self.socket.filter.matches libs identity = true

/-- `source` is the only one to sign for a blob that it still has of those it was
listed from. -/
def Owned (self : Connection) (b : Blob) (source : Signer) : Prop :=
  ∀ entry ∈ self.listed, entry.1.keyBlob = b → self.Offers b entry.2 → entry.2 = source

/-- The signature that an upstream gives. -/
def signature (self : Connection) (msg : AgentMessage) (idx : ℕ) : Option AgentMessage :=
  (self.agents[idx]?).bind fun agent => forwardSign agent msg

/-- The request goes to the source, and what the source signs is the reply. -/
def Asks (self : Connection) (msg : AgentMessage) (b : Blob) : Signer → Prop
  | .local => (self.perform ssh libs (.message msg)).contact = none ∧
      (self.perform ssh libs (.message msg)).next.phase = .signing msg
  | .upstream idx =>
      (self.perform ssh libs (.message msg)).contact = some (.upstream idx, b) ∧
      (self.perform ssh libs (.message msg)).reply = self.signature msg idx

/-- A signature is from the one source that may sign, and no source is asked for
a key that the filter hides. -/
structure Kept (conn : Connection) (o : Outcome) : Prop where
  signed : ∀ resp, o.reply = some resp → resp.msgType = .signResponse →
    ∃ source b, o.contact = some (source, b) ∧ conn.Owned b source
  shown : ∀ source b, o.contact = some (source, b) → conn.Shows libs b source

/-- What the client was shown, it gets: each listed blob that its source still has
is asked of that source, and of no other while it has it. -/
structure Faithful (conn : Connection) (e : Event) : Prop where
  asked : ∀ msg fields, e = .message msg → conn.phase = .idle → msg.msgType = .signRequest →
    msg.parseSignRequest = .ok fields → ∀ entry ∈ conn.listed,
      entry.1.keyBlob = fields.keyBlob → conn.Offers fields.keyBlob entry.2 →
      conn.Asks ssh libs msg fields.keyBlob entry.2
  kept : conn.Kept libs (conn.perform ssh libs e)
  answered : ∀ next merge sources answer, conn.phase = .enumerating next merge sources →
    (conn.perform ssh libs e).reply = some answer →
      AgentMessage.buildIdentitiesAnswer
        ((conn.perform ssh libs e).next.listed.map Prod.fst) = some answer

/-- The registry holds no blob that was listed from an upstream which still has
it. -/
def Unshadowed (self : Connection) (b : Blob) : Prop :=
  (self.socket.target.live.lookup b).isSome = true → self.Owned b .local

/-- Where it does not hold the blob, the filter accepts it under the comments of
the upstream that it was listed from. -/
def Visible (self : Connection) (b : Blob) : Prop :=
  self.socket.target.live.lookup b = none →
    ∀ entry ∈ self.listed, entry.1.keyBlob = b → self.Shows libs b entry.2

end Connection

/-- What is decided next about a request: whom to ask, with what local key to sign,
or whether to try one more upstream. -/
inductive Decision where
  | ask (b : Blob)
  | pass (b : Blob)
  | attempt (msg : AgentMessage) (b : Blob) (idx : ℕ)

def requested (msg : AgentMessage) : Option Blob :=
  match msg.parseSignRequest with
  | .error _ => none
  | .ok fields => some fields.keyBlob

namespace Connection

variable (libs : MatchLibs)

def decision (self : Connection) (e : Event) : Option Decision :=
  match e, self.phase with
  | .message msg, .idle =>
    if msg.msgType = .signRequest then (requested msg).map .ask else none
  | .localPass _ _, .signing msg => (requested msg).map .pass
  | .decided _ _ _, .approving msg _ _ => (requested msg).map .pass
  | .resume, .falling msg keyBlob =>
    if self.socket.filter.isBlobOnly && self.socket.filter.matches libs ⟨keyBlob, ""⟩ then
      some (.attempt msg keyBlob 0)
    else none
  | .resume, .trying msg keyBlob next =>
    if next < self.agents.length then some (.attempt msg keyBlob next) else none
  | _, _ => none

/-- What the decision rests on is as it was at the listing. An upstream that is
tried is to sign only where the record of the blob is out of date. -/
def Settled (self : Connection) : Decision → Prop
  | .ask b => self.Unshadowed b ∧ self.Visible libs b
  | .pass b => self.Unshadowed b
  | .attempt msg b idx => self.socket.filter.matches libs ⟨b, ""⟩ = true ∧
      ((self.signature msg idx).isSome = true → self.Owned b (.upstream idx))

def Steady (self : Connection) (e : Event) : Prop :=
  ∀ d ∈ self.decision libs e, self.Settled libs d

section Decidability

instance (self : Connection) (b : Blob) : DecidablePred (self.Offers b)
  | .local => inferInstanceAs (Decidable (_ = true))
  | .upstream idx =>
    inferInstanceAs (Decidable (∃ identity ∈ self.offered idx, identity.keyBlob = b))

instance (self : Connection) (b : Blob) : DecidablePred (self.Shows libs b)
  | .local => inferInstanceAs (Decidable (_ = true))
  | .upstream idx => inferInstanceAs (Decidable (∀ identity ∈ self.offered idx,
      identity.keyBlob = b → self.socket.filter.matches libs identity = true))

instance (self : Connection) (b : Blob) (source : Signer) : Decidable (self.Owned b source) :=
  inferInstanceAs (Decidable (∀ entry ∈ self.listed, entry.1.keyBlob = b →
    self.Offers b entry.2 → entry.2 = source))

instance (self : Connection) (b : Blob) : Decidable (self.Unshadowed b) :=
  inferInstanceAs (Decidable (_ → _))

instance (self : Connection) (b : Blob) : Decidable (self.Visible libs b) :=
  inferInstanceAs (Decidable (_ → ∀ entry ∈ self.listed, _ → _))

instance (self : Connection) : DecidablePred (self.Settled libs)
  | .ask _ => inferInstanceAs (Decidable (_ ∧ _))
  | .pass b => inferInstanceAs (Decidable (self.Unshadowed b))
  | .attempt _ _ _ => inferInstanceAs (Decidable (_ ∧ (_ → _)))

instance (self : Connection) (e : Event) : Decidable (self.Steady libs e) :=
  inferInstanceAs (Decidable (∀ d ∈ self.decision libs e, self.Settled libs d))

end Decidability

end Connection

/-- The routes are those of the identities that were listed from upstreams. -/
def Routed (routes : Std.ExtTreeMap Blob ℕ) (listed : List (Identity × Signer)) : Prop :=
  ∀ b idx, routes[b]? = some idx ↔ ∃ entry ∈ listed, entry.1.keyBlob = b ∧ entry.2 = .upstream idx

structure Gathered (merge : Merge) (sources : List (Identity × Signer)) : Prop where
  merged : merge.merged = sources.map Prod.fst
  seen : ∀ entry ∈ sources, entry.1.keyBlob ∈ merge.seen
  routed : Routed merge.routes sources

namespace Connection

def Standing (self : Connection) : Phase → Prop
  | .enumerating _ merge sources => self.admitted = true ∧ Gathered merge sources
  | .trying _ _ _ => Routed self.routes self.listed ∧ self.socket.filter.isBlobOnly = true
  | .closed => True
  | _ => Routed self.routes self.listed

/-- What holds of a connection at every moment. -/
structure Sound (conn : Connection) : Prop where
  rejected : conn.admitted = false → conn.listed = []
  standing : conn.Standing conn.phase

end Connection

section Enumerated

variable {libs : MatchLibs}

theorem gathered_start (socket : SocketState) :
    Gathered (Merge.start libs socket)
      ((Merge.start libs socket).merged.map fun identity => (identity, .local)) where
  merged := by
    rw [List.map_map]
    exact (List.map_id _).symm
  seen := by
    intro entry hentry
    rcases List.mem_map.mp hentry with ⟨identity, hidentity, rfl⟩
    exact List.mem_map_of_mem hidentity
  routed := by
    intro b idx
    constructor
    · intro h
      have hempty : (Merge.start libs socket).routes[b]? = none := Std.ExtTreeMap.getElem?_empty
      rw [hempty] at h
      cases h
    · rintro ⟨entry, hentry, -, hsource⟩
      rcases List.mem_map.mp hentry with ⟨identity, -, rfl⟩
      cases hsource

theorem gathered_offer (libs : MatchLibs) (filter : FilterEvaluator) (idx : ℕ) {merge : Merge}
    {sources : List (Identity × Signer)} (h : Gathered merge sources) (identity : Identity) :
    ∃ found, (merge.offer libs filter idx identity).merged = merge.merged ++ found ∧
      Gathered (merge.offer libs filter idx identity)
        (sources ++ found.map fun identity => (identity, .upstream idx)) := by
  unfold Merge.offer
  by_cases hshown : (!filter.matches libs identity) = true
  · rw [if_pos hshown]
    exact ⟨[], (List.append_nil _).symm, by rwa [List.map_nil, List.append_nil]⟩
  · by_cases hseen : identity.keyBlob ∈ merge.seen
    · rw [if_neg hshown, if_pos hseen]
      exact ⟨[], (List.append_nil _).symm, by rwa [List.map_nil, List.append_nil]⟩
    · rw [if_neg hshown, if_neg hseen]
      refine ⟨[identity], rfl, ?_, ?_, ?_⟩
      · rw [List.map_append, ← h.merged]
        rfl
      · intro entry hentry
        rcases List.mem_append.mp hentry with hold | hnew
        · exact List.mem_cons_of_mem _ (h.seen entry hold)
        · cases List.mem_singleton.mp hnew
          exact List.mem_cons_self
      · intro b i
        rw [Std.ExtTreeMap.getElem?_insert]
        by_cases hb : identity.keyBlob = b
        · rw [if_pos (by simpa using hb)]
          constructor
          · intro hi
            cases hi
            exact ⟨_, List.mem_append_right _ (List.mem_singleton_self _), hb, rfl⟩
          · rintro ⟨entry, hentry, hblob, hsource⟩
            rcases List.mem_append.mp hentry with hold | hnew
            · exact absurd (h.seen entry hold) (by rw [hblob, ← hb]; exact hseen)
            · cases List.mem_singleton.mp hnew
              cases hsource
              rfl
        · rw [if_neg (by simpa using hb), h.routed b i]
          constructor
          · rintro ⟨entry, hentry, hrest⟩
            exact ⟨entry, List.mem_append_left _ hentry, hrest⟩
          · rintro ⟨entry, hentry, hblob, hsource⟩
            rcases List.mem_append.mp hentry with hold | hnew
            · exact ⟨entry, hold, hblob, hsource⟩
            · cases List.mem_singleton.mp hnew
              exact absurd hblob hb

theorem gathered_foldl (libs : MatchLibs) (filter : FilterEvaluator) (idx : ℕ)
    (identities : List Identity) {merge : Merge} {sources : List (Identity × Signer)} (h : Gathered merge sources) :
    ∃ found, (identities.foldl (Merge.offer libs filter idx) merge).merged =
        merge.merged ++ found ∧
      Gathered (identities.foldl (Merge.offer libs filter idx) merge)
        (sources ++ found.map fun identity => (identity, .upstream idx)) := by
  induction identities generalizing merge sources with
  | nil => exact ⟨[], (List.append_nil _).symm, by rwa [List.map_nil, List.append_nil]⟩
  | cons identity identities ih =>
    obtain ⟨found, hmerged, hfound⟩ := gathered_offer libs filter idx h identity
    obtain ⟨rest, hmerged', hrest⟩ := ih hfound
    refine ⟨found ++ rest, ?_, ?_⟩
    · rw [List.foldl_cons, hmerged', hmerged, List.append_assoc]
    · rw [List.foldl_cons, List.map_append, ← List.append_assoc]
      exact hrest

end Enumerated

namespace Connection

variable {ssh : SshKeys} {libs : MatchLibs} {self : Connection}

section Soundness

theorem Sound.moved (h : self.Sound) {p : Phase} (hp : self.Standing p) :
    Sound { self with phase := p } where
  rejected := h.rejected
  standing := by cases p <;> exact hp

theorem sound_replied (h : self.Sound) (hr : Routed self.routes self.listed)
    (resp : AgentMessage) : (self.replied resp).next.Sound :=
  Sound.moved h (p := .idle) hr

theorem sound_tryUpstream (h : self.Sound) (hr : Routed self.routes self.listed)
    (hblob : self.socket.filter.isBlobOnly = true) (msg : AgentMessage) (keyBlob : Blob)
    (idx : ℕ) : (self.tryUpstream msg keyBlob idx).next.Sound := by
  unfold tryUpstream
  cases self.agents[idx]? with
  | none => exact sound_replied h hr _
  | some agent =>
    simp only
    cases forwardSign agent msg with
    | some resp => exact Sound.moved h (p := .idle) hr
    | none => exact Sound.moved h (p := .trying msg keyBlob (idx + 1)) ⟨hr, hblob⟩

theorem sound_fallback (h : self.Sound) (hr : Routed self.routes self.listed)
    (msg : AgentMessage) (keyBlob : Blob) : (self.fallback libs msg keyBlob).next.Sound := by
  unfold fallback
  by_cases hhidden : (!self.socket.filter.isBlobOnly ||
      !self.socket.filter.matches libs ⟨keyBlob, ""⟩) = true
  · rw [if_pos hhidden]
    exact sound_replied h hr _
  · rw [if_neg hhidden]
    have hblob : self.socket.filter.isBlobOnly = true := by
      by_contra hno
      simp [hno] at hhidden
    exact sound_tryUpstream h hr hblob msg keyBlob 0

theorem sound_signRequest (h : self.Sound) (hr : Routed self.routes self.listed)
    (msg : AgentMessage) : (self.signRequest libs msg).next.Sound := by
  unfold signRequest
  cases msg.parseSignRequest with
  | error e => exact sound_replied h hr _
  | ok fields =>
    by_cases hlocal : (self.socket.target.live.lookup fields.keyBlob).isSome = true
    · simp only [hlocal, if_true]
      exact Sound.moved h (p := .signing msg) hr
    · simp only [hlocal]
      by_cases hempty : self.agents.isEmpty = true
      · simp only [hempty, if_true]
        exact sound_replied h hr _
      · simp only [hempty]
        cases (self.routes[fields.keyBlob]?).bind fun idx =>
            (self.agents[idx]?).map fun agent => (idx, agent) with
        | none => exact sound_fallback h hr msg _
        | some routed =>
          simp only
          cases forwardSign routed.2 msg with
          | some resp => exact Sound.moved h (p := .idle) hr
          | none => exact Sound.moved h (p := .falling msg fields.keyBlob) hr

theorem sound_respond (h : self.Sound) (hr : Routed self.routes self.listed)
    (msg : AgentMessage) : (self.respond libs msg).next.Sound := by
  unfold respond
  cases hadmitted : self.admitted with
  | false => exact sound_replied h hr _
  | true =>
    simp only [Bool.not_true, Bool.false_eq_true, if_false]
    cases msg.msgType with
    | requestIdentities =>
      have hrejected : self.admitted = false → self.listed = [] := h.rejected
      exact ⟨hrejected, hadmitted, gathered_start _⟩
    | signRequest => exact sound_signRequest h hr msg
    | _ => exact sound_replied h hr _

theorem sound_enumerate (hadmitted : self.admitted = true) {next : ℕ}
    {merge : Merge} {sources : List (Identity × Signer)} (hg : Gathered merge sources) :
    (self.enumerate libs next merge sources).next.Sound := by
  have hrejected : ∀ listed : List (Identity × Signer), self.admitted = false → listed = [] :=
    fun _ hno => absurd hno (by rw [hadmitted]; decide)
  unfold enumerate
  cases self.agents[next]? with
  | some agent =>
    obtain ⟨found, hmerged, hfound⟩ := gathered_foldl libs self.socket.filter next
      agent.offered hg
    refine ⟨hrejected _, hadmitted, ?_⟩
    rw [hmerged, List.drop_left]
    exact hfound
  | none =>
    simp only
    cases AgentMessage.buildIdentitiesAnswer merge.merged with
    | some answer => exact ⟨hrejected _, hg.routed⟩
    | none => exact ⟨hrejected _, trivial⟩

theorem sound_localPass (h : self.Sound) (hr : Routed self.routes self.listed)
    (msg : AgentMessage) (ctx : HandlerCtx) (daemon : State) :
    (self.localPass ssh libs msg ctx daemon).next.Sound := by
  unfold localPass
  cases (localSignFirstPass ssh libs self.socket ctx daemon msg).1 with
  | direct resp => exact Sound.moved h (p := .idle) hr
  | needsApproval material =>
    exact Sound.moved h (p := .approving msg material.kvKey material.source) hr

theorem sound_decided (h : self.Sound) (hr : Routed self.routes self.listed)
    (msg : AgentMessage) (kvKey : String) (source : KeySource) (approved : Bool)
    (ctx : HandlerCtx) (daemon : State) :
    (self.decided ssh libs msg kvKey source approved ctx daemon).next.Sound := by
  unfold decided
  cases approved with
  | true => exact Sound.moved h (p := .idle) hr
  | false => exact sound_replied h hr _

theorem sound_changed (h : self.Sound) (e : Event) : (self.changed e).Sound := by
  cases e with
  | caches update =>
    refine ⟨h.rejected, ?_⟩
    have hstanding := h.standing
    revert hstanding
    unfold changed
    simp only
    cases self.phase with
    | trying msg keyBlob next => exact fun hs => ⟨hs.1, isBlobOnly_refreshed update hs.2⟩
    | _ => exact id
  | registry live =>
    refine ⟨h.rejected, ?_⟩
    have hstanding := h.standing
    revert hstanding
    unfold changed
    simp only
    cases self.phase <;> exact id
  | agent idx agent =>
    refine ⟨h.rejected, ?_⟩
    have hstanding := h.standing
    revert hstanding
    unfold changed
    simp only
    cases self.phase <;> exact id
  | _ => exact h

/-- What an event can lead to. -/
inductive Performs (ssh : SshKeys) (libs : MatchLibs) (self : Connection) :
    Event → Outcome → Prop where
  | message (msg : AgentMessage) (hphase : self.phase = .idle) :
      Performs ssh libs self (.message msg) (self.respond libs msg)
  | enumerating (next : ℕ) (merge : Merge) (sources : List (Identity × Signer))
      (hphase : self.phase = .enumerating next merge sources) :
      Performs ssh libs self .resume (self.enumerate libs next merge sources)
  | falling (msg : AgentMessage) (keyBlob : Blob) (hphase : self.phase = .falling msg keyBlob) :
      Performs ssh libs self .resume (self.fallback libs msg keyBlob)
  | trying (msg : AgentMessage) (keyBlob : Blob) (next : ℕ)
      (hphase : self.phase = .trying msg keyBlob next) :
      Performs ssh libs self .resume (self.tryUpstream msg keyBlob next)
  | localPass (msg : AgentMessage) (ctx : HandlerCtx) (daemon : State)
      (hphase : self.phase = .signing msg) :
      Performs ssh libs self (.localPass ctx daemon) (self.localPass ssh libs msg ctx daemon)
  | decided (msg : AgentMessage) (kvKey : String) (source : KeySource) (approved : Bool)
      (ctx : HandlerCtx) (daemon : State) (hphase : self.phase = .approving msg kvKey source) :
      Performs ssh libs self (.decided approved ctx daemon)
        (self.decided ssh libs msg kvKey source approved ctx daemon)
  | changed (e : Event) : Performs ssh libs self e ⟨none, none, self.changed e⟩

theorem performs (ssh : SshKeys) (libs : MatchLibs) (self : Connection) (e : Event) :
    Performs ssh libs self e (self.perform ssh libs e) := by
  unfold perform
  cases e with
  | message msg =>
    cases hphase : self.phase with
    | idle => exact .message msg hphase
    | _ => exact .changed _
  | resume =>
    cases hphase : self.phase with
    | enumerating next merge sources => exact .enumerating next merge sources hphase
    | falling msg keyBlob => exact .falling msg keyBlob hphase
    | trying msg keyBlob next => exact .trying msg keyBlob next hphase
    | _ => exact .changed _
  | localPass ctx daemon =>
    cases hphase : self.phase with
    | signing msg => exact .localPass msg ctx daemon hphase
    | _ => exact .changed _
  | decided approved ctx daemon =>
    cases hphase : self.phase with
    | approving msg kvKey source => exact .decided msg kvKey source approved ctx daemon hphase
    | _ => exact .changed _
  | _ => exact .changed _

theorem sound_step (h : self.Sound) (e : Event) : (self.step ssh libs e).Sound := by
  have hstanding := h.standing
  unfold step
  generalize hout : self.perform ssh libs e = out
  have hperforms := performs ssh libs self e
  rw [hout] at hperforms
  cases hperforms with
  | message msg hphase =>
    rw [hphase] at hstanding
    exact sound_respond h hstanding msg
  | enumerating next merge sources hphase =>
    rw [hphase] at hstanding
    exact sound_enumerate hstanding.1 hstanding.2
  | falling msg keyBlob hphase =>
    rw [hphase] at hstanding
    exact sound_fallback h hstanding msg keyBlob
  | trying msg keyBlob next hphase =>
    rw [hphase] at hstanding
    exact sound_tryUpstream h hstanding.1 hstanding.2 msg keyBlob next
  | localPass msg ctx daemon hphase =>
    rw [hphase] at hstanding
    exact sound_localPass h hstanding msg ctx daemon
  | decided msg kvKey source approved ctx daemon hphase =>
    rw [hphase] at hstanding
    exact sound_decided h hstanding msg kvKey source approved ctx daemon
  | changed e => exact sound_changed h e

theorem sound_accepted (socket : SocketState) (agents : List UpstreamAgent) (admitted : Bool) :
    (accepted socket agents admitted).Sound where
  rejected := fun _ => rfl
  standing := by
    intro b idx
    constructor
    · intro h
      have hempty : (accepted socket agents admitted).routes[b]? = none :=
        Std.ExtTreeMap.getElem?_empty
      rw [hempty] at h
      cases h
    · rintro ⟨entry, hentry, -⟩
      cases hentry

end Soundness

section Signatures

theorem mem_requested {msg : AgentMessage} {fields : SignRequestFields}
    (hparse : msg.parseSignRequest = .ok fields) : fields.keyBlob ∈ requested msg := by
  unfold requested
  rw [hparse]
  rfl

theorem kept_of_nothing {o : Outcome} (hreply : o.reply = none) (hcontact : o.contact = none) :
    self.Kept libs o where
  signed := by
    intro resp h
    rw [hreply] at h
    cases h
  shown := by
    intro source b h
    rw [hcontact] at h
    cases h

theorem kept_replied {resp : AgentMessage} (hresp : resp.msgType ≠ .signResponse) :
    self.Kept libs (self.replied resp) where
  signed := by
    intro resp' h htype
    cases h
    exact absurd htype hresp
  shown := by
    intro source b h
    cases h

theorem failure_msgType : AgentMessage.failure.msgType ≠ .signResponse := by decide

theorem kept_of_upstream {o : Outcome} {msg : AgentMessage} {b : Blob} {idx : ℕ}
    (hcontact : o.contact = some (.upstream idx, b)) (hreply : o.reply = self.signature msg idx)
    (howned : (self.signature msg idx).isSome = true → self.Owned b (.upstream idx))
    (hshown : self.Shows libs b (.upstream idx)) : self.Kept libs o where
  signed := by
    intro resp h _
    rw [hreply] at h
    exact ⟨_, _, hcontact, howned (by rw [h]; rfl)⟩
  shown := by
    intro source b' h
    rw [hcontact] at h
    cases h
    exact hshown

theorem shows_of_isBlobOnly {b : Blob} (hblob : self.socket.filter.isBlobOnly = true)
    (hshown : self.socket.filter.matches libs ⟨b, ""⟩ = true) (idx : ℕ) :
    self.Shows libs b (.upstream idx) := by
  intro identity _ hb
  have hsame : self.socket.filter.matches libs ⟨b, identity.comment⟩ =
      self.socket.filter.matches libs ⟨b, ""⟩ :=
    FilterEvaluator.matches_of_isBlobOnly hblob b identity.comment ""
  rw [hshown, ← hb] at hsame
  exact hsame

theorem tryUpstream_spec (self : Connection) (msg : AgentMessage) (b : Blob) {idx : ℕ} (h : idx < self.agents.length) :
    (self.tryUpstream msg b idx).contact = some (.upstream idx, b) ∧
      (self.tryUpstream msg b idx).reply = self.signature msg idx := by
  unfold tryUpstream signature
  rw [List.getElem?_eq_getElem h]
  simp only [Option.bind_some]
  cases forwardSign self.agents[idx] msg with
  | some resp => exact ⟨rfl, rfl⟩
  | none => exact ⟨rfl, rfl⟩

theorem kept_tryUpstream {msg : AgentMessage} {b : Blob} {idx : ℕ}
    (hsteady : idx < self.agents.length → self.Shows libs b (.upstream idx) ∧
      ((self.signature msg idx).isSome = true → self.Owned b (.upstream idx))) :
    self.Kept libs (self.tryUpstream msg b idx) := by
  by_cases hidx : idx < self.agents.length
  · have hspec := tryUpstream_spec self msg b hidx
    exact kept_of_upstream hspec.1 hspec.2 (hsteady hidx).2 (hsteady hidx).1
  · have hnone : self.agents[idx]? = none := List.getElem?_eq_none (by omega)
    unfold tryUpstream
    rw [hnone]
    exact kept_replied failure_msgType

theorem kept_fallback {msg : AgentMessage} {b : Blob}
    (howned : self.socket.filter.isBlobOnly = true →
      self.socket.filter.matches libs ⟨b, ""⟩ = true →
      (self.signature msg 0).isSome = true → self.Owned b (.upstream 0)) :
    self.Kept libs (self.fallback libs msg b) := by
  unfold fallback
  by_cases hhidden : (!self.socket.filter.isBlobOnly ||
      !self.socket.filter.matches libs ⟨b, ""⟩) = true
  · rw [if_pos hhidden]
    exact kept_replied failure_msgType
  · rw [if_neg hhidden]
    have hboth : self.socket.filter.isBlobOnly = true ∧
        self.socket.filter.matches libs ⟨b, ""⟩ = true := by simpa using hhidden
    exact kept_tryUpstream fun _ => ⟨shows_of_isBlobOnly hboth.1 hboth.2 0,
      howned hboth.1 hboth.2⟩

/-- The recorded upstream of a blob, if it is still configured. -/
theorem routed_eq_some {b : Blob} {idx : ℕ} {agent : UpstreamAgent} :
    ((self.routes[b]?).bind fun idx => (self.agents[idx]?).map fun agent => (idx, agent)) =
        some (idx, agent) ↔
      self.routes[b]? = some idx ∧ self.agents[idx]? = some agent := by
  rw [Option.bind_eq_some_iff]
  constructor
  · rintro ⟨i, hroute, hagent⟩
    rcases Option.map_eq_some_iff.mp hagent with ⟨agent', hsome, hpair⟩
    cases hpair
    exact ⟨hroute, hsome⟩
  · rintro ⟨hroute, hagent⟩
    exact ⟨idx, hroute, by rw [hagent]; rfl⟩

theorem agent_of_offers {b : Blob} {idx : ℕ} (h : self.Offers b (.upstream idx)) :
    ∃ agent, self.agents[idx]? = some agent := by
  rcases h with ⟨identity, hmem, -⟩
  unfold offered at hmem
  cases hagent : self.agents[idx]? with
  | some agent => exact ⟨agent, rfl⟩
  | none =>
    rw [hagent] at hmem
    cases hmem

/-- Where the registry does not hold a blob, a source that does and that it was
listed from is the recorded upstream. -/
theorem recorded_of_listed (hr : Routed self.routes self.listed) {b : Blob}
    (hlocal : ¬ (self.socket.target.live.lookup b).isSome = true)
    {entry : Identity × Signer} (hentry : entry ∈ self.listed) (hblob : entry.1.keyBlob = b)
    (hoffers : self.Offers b entry.2) :
    ∃ idx agent, entry.2 = .upstream idx ∧ self.routes[b]? = some idx ∧
      self.agents[idx]? = some agent := by
  cases hsource : entry.2 with
  | «local» =>
    rw [hsource] at hoffers
    exact absurd hoffers hlocal
  | upstream idx =>
    rw [hsource] at hoffers
    rcases agent_of_offers hoffers with ⟨agent, hagent⟩
    exact ⟨idx, agent, rfl, (hr b idx).mpr ⟨entry, hentry, hblob, hsource⟩, hagent⟩

/-- What a request for a blob that the registry does not hold comes to. -/
theorem signRequest_upstream (libs : MatchLibs) {msg : AgentMessage} {fields : SignRequestFields}
    (hparse : msg.parseSignRequest = .ok fields)
    (hlocal : ¬ (self.socket.target.live.lookup fields.keyBlob).isSome = true) :
    self.signRequest libs msg = self.replied .failure ∧ self.agents = [] ∨
      self.signRequest libs msg = self.fallback libs msg fields.keyBlob ∧
        (∀ idx agent, self.routes[fields.keyBlob]? = some idx → self.agents[idx]? ≠ some agent) ∨
      ∃ idx, self.routes[fields.keyBlob]? = some idx ∧
        (self.signRequest libs msg).contact = some (.upstream idx, fields.keyBlob) ∧
        (self.signRequest libs msg).reply = self.signature msg idx := by
  unfold signRequest
  simp only [hparse, hlocal]
  by_cases hempty : self.agents.isEmpty = true
  · exact .inl ⟨by simp only [hempty]; rfl, List.isEmpty_iff.mp hempty⟩
  · simp only [hempty]
    cases hrouted : (self.routes[fields.keyBlob]?).bind fun idx =>
        (self.agents[idx]?).map fun agent => (idx, agent) with
    | none =>
      refine .inr (.inl ⟨rfl, ?_⟩)
      intro idx agent hroute hagent
      rw [routed_eq_some.mpr ⟨hroute, hagent⟩] at hrouted
      cases hrouted
    | some routed =>
      have hsome := routed_eq_some.mp hrouted
      refine .inr (.inr ⟨routed.1, hsome.1, ?_⟩)
      have hsignature : self.signature msg routed.1 = forwardSign routed.2 msg := by
        unfold signature
        rw [hsome.2]
        rfl
      rw [hsignature]
      simp only
      cases forwardSign routed.2 msg with
      | some resp => exact ⟨rfl, rfl⟩
      | none => exact ⟨rfl, rfl⟩

theorem kept_signRequest (hr : Routed self.routes self.listed) {msg : AgentMessage}
    (hvisible : ∀ b ∈ requested msg, self.Visible libs b) : self.Kept libs (self.signRequest libs msg) := by
  cases hparse : msg.parseSignRequest with
  | error e =>
    unfold signRequest
    rw [hparse]
    exact kept_replied failure_msgType
  | ok fields =>
    by_cases hlocal : (self.socket.target.live.lookup fields.keyBlob).isSome = true
    · unfold signRequest
      simp only [hparse, hlocal, if_true]
      exact kept_of_nothing rfl rfl
    · rcases signRequest_upstream libs hparse hlocal with ⟨heq, -⟩ | ⟨heq, hnone⟩ |
        ⟨idx, hroute, hcontact, hreply⟩
      · rw [heq]
        exact kept_replied failure_msgType
      · rw [heq]
        apply kept_fallback
        intro _ _ _ entry hentry hblob hoffers
        rcases recorded_of_listed hr hlocal hentry hblob hoffers with
          ⟨idx, agent, -, hroute, hagent⟩
        exact absurd hagent (hnone idx agent hroute)
      · apply kept_of_upstream hcontact hreply
        · intro _ entry hentry hblob hoffers
          rcases recorded_of_listed hr hlocal hentry hblob hoffers with
            ⟨idx', agent, hsource, hroute', -⟩
          rw [hsource, Option.some.inj (hroute.symm.trans hroute')]
        · rcases (hr _ idx).mp hroute with ⟨entry, hentry, hblob, hsource⟩
          have hnone : self.socket.target.live.lookup fields.keyBlob = none :=
            Option.not_isSome_iff_eq_none.mp hlocal
          rw [← hsource]
          exact hvisible _ (mem_requested hparse) hnone entry hentry hblob

theorem asks_of_listed (hr : Routed self.routes self.listed) (hphase : self.phase = .idle)
    (hadmitted : self.admitted = true) {msg : AgentMessage} (htype : msg.msgType = .signRequest)
    {fields : SignRequestFields} (hparse : msg.parseSignRequest = .ok fields)
    (hunshadowed : self.Unshadowed fields.keyBlob) {entry : Identity × Signer}
    (hentry : entry ∈ self.listed) (hblob : entry.1.keyBlob = fields.keyBlob)
    (hoffers : self.Offers fields.keyBlob entry.2) :
    self.Asks ssh libs msg fields.keyBlob entry.2 := by
  have hperform : self.perform ssh libs (.message msg) = self.signRequest libs msg := by
    unfold perform respond
    rw [hphase]
    simp only [hadmitted, htype, Bool.not_true, Bool.false_eq_true, if_false]
  cases hsource : entry.2 with
  | «local» =>
    rw [hsource] at hoffers
    have hlocal : (self.socket.target.live.lookup fields.keyBlob).isSome = true := hoffers
    unfold Asks
    rw [hperform]
    unfold signRequest
    simp only [hparse, hlocal, if_true, and_self]
  | upstream idx =>
    have hlocal : ¬ (self.socket.target.live.lookup fields.keyBlob).isSome = true := by
      intro hlocal
      have hown := hunshadowed hlocal entry hentry hblob hoffers
      rw [hsource] at hown
      cases hown
    rcases recorded_of_listed hr hlocal hentry hblob hoffers with
      ⟨idx', agent, hsource', hroute, hagent⟩
    rw [hsource] at hsource'
    cases hsource'
    unfold Asks
    rw [hperform]
    rcases signRequest_upstream libs hparse hlocal with ⟨-, hempty⟩ | ⟨-, hnone⟩ |
      ⟨idx', hroute', hcontact, hreply⟩
    · rw [hempty] at hagent
      cases hagent
    · exact absurd hagent (hnone idx agent hroute)
    · cases Option.some.inj (hroute.symm.trans hroute')
      exact ⟨hcontact, hreply⟩

theorem signableKey_some {b : Blob} {key : RegisteredKey}
    (h : signableKey libs self.socket b = some key) :
    self.Shows libs b .local ∧ (self.socket.target.live.lookup b).isSome = true := by
  unfold signableKey at h
  rcases Option.filter_eq_some_iff.mp h with ⟨hlookup, hshown⟩
  unfold Shows
  rw [hlookup]
  exact ⟨hshown, rfl⟩

/-- A key that the registry holds is used for a blob, if any. -/
theorem localContact_some {msg : AgentMessage} {usable : RegisteredKey → Bool} {source : Signer}
    {b : Blob} (h : self.localContact libs msg usable = some (source, b)) :
    source = .local ∧ ∃ fields key, msg.parseSignRequest = .ok fields ∧ fields.keyBlob = b ∧
      signableKey libs self.socket b = some key := by
  unfold localContact at h
  cases hparse : msg.parseSignRequest with
  | error e =>
    rw [hparse] at h
    cases h
  | ok fields =>
    rw [hparse] at h
    rcases Option.map_eq_some_iff.mp h with ⟨key, hkey, hpair⟩
    cases hpair
    exact ⟨rfl, fields, key, rfl, rfl, (Option.filter_eq_some_iff.mp hkey).1⟩

theorem kept_local {msg : AgentMessage} {usable : RegisteredKey → Bool} {o : Outcome}
    (hcontact : o.contact = self.localContact libs msg usable)
    (hreply : ∀ resp, o.reply = some resp → resp.msgType = .signResponse →
      (self.localContact libs msg usable).isSome = true)
    (hunshadowed : ∀ b ∈ requested msg, self.Unshadowed b) : self.Kept libs o where
  signed := by
    intro resp hresp htype
    rcases Option.isSome_iff_exists.mp (hreply resp hresp htype) with ⟨⟨source, b⟩, hsome⟩
    refine ⟨source, b, hcontact.trans hsome, ?_⟩
    rcases localContact_some hsome with ⟨rfl, fields, key, hparse, rfl, hkey⟩
    exact hunshadowed _ (mem_requested hparse) (signableKey_some hkey).2
  shown := by
    intro source b hsome
    rw [hcontact] at hsome
    rcases localContact_some hsome with ⟨rfl, fields, key, hparse, rfl, hkey⟩
    exact (signableKey_some hkey).1

theorem localContact_isSome {msg : AgentMessage} {usable : RegisteredKey → Bool}
    {fields : SignRequestFields} {key : RegisteredKey}
    (hparse : msg.parseSignRequest = .ok fields)
    (hkey : signableKey libs self.socket fields.keyBlob = some key) (husable : usable key = true) :
    (self.localContact libs msg usable).isSome = true := by
  unfold localContact
  simp only [hparse, hkey, Option.filter_some, husable, if_true, Option.map_some,
    Option.isSome_some]

/-- The first pass signs only with a key that the socket may use. -/
theorem localContact_of_direct {ctx : HandlerCtx} {daemon : State} {msg resp : AgentMessage}
    (h : (localSignFirstPass ssh libs self.socket ctx daemon msg).1 = .direct resp)
    (htype : resp.msgType = .signResponse) :
    (self.localContact libs msg fun _ => true).isSome = true := by
  unfold localSignFirstPass at h
  split at h
  · cases h
    exact absurd htype failure_msgType
  · rename_i fields key hresolved
    obtain ⟨hparse, hkey⟩ := resolveSign_eq_some.mp hresolved
    exact localContact_isSome hparse hkey rfl

theorem kept_localPass {msg : AgentMessage} (ctx : HandlerCtx) (daemon : State)
    (hunshadowed : ∀ b ∈ requested msg, self.Unshadowed b) :
    self.Kept libs (self.localPass ssh libs msg ctx daemon) := by
  unfold localPass
  cases hpass : (localSignFirstPass ssh libs self.socket ctx daemon msg).1 with
  | direct resp =>
    apply kept_local rfl _ hunshadowed
    intro resp' hresp htype
    cases hresp
    exact localContact_of_direct hpass htype
  | needsApproval material =>
    apply kept_local rfl _ hunshadowed
    intro resp' hresp
    cases hresp

/-- The second pass signs only with the key that was approved. -/
theorem localContact_of_finalize {ctx : HandlerCtx} {daemon : State} {msg : AgentMessage}
    {kvKey : String} {source : KeySource}
    (htype : (localSignFinalizeAfterApproval ssh libs self.socket ctx daemon kvKey source
      msg).1.msgType = .signResponse) :
    (self.localContact libs msg (·.kvKey = kvKey)).isSome = true := by
  unfold localSignFinalizeAfterApproval at htype
  split at htype
  · exact absurd htype failure_msgType
  · rename_i fields hresolved
    obtain ⟨hparse, key, hkey, hkv⟩ := resolveApproved_eq_some.mp hresolved
    exact localContact_isSome hparse hkey (decide_eq_true hkv)

theorem kept_decided {msg : AgentMessage} (kvKey : String) (source : KeySource) (approved : Bool)
    (ctx : HandlerCtx) (daemon : State) (hunshadowed : ∀ b ∈ requested msg, self.Unshadowed b) :
    self.Kept libs (self.decided ssh libs msg kvKey source approved ctx daemon) := by
  unfold decided
  cases approved with
  | false => exact kept_replied failure_msgType
  | true =>
    apply kept_local rfl _ hunshadowed
    intro resp hresp htype
    cases hresp
    exact localContact_of_finalize htype

theorem kept_respond (hr : Routed self.routes self.listed) {msg : AgentMessage}
    (hvisible : msg.msgType = .signRequest → ∀ b ∈ requested msg, self.Visible libs b) :
    self.Kept libs (self.respond libs msg) := by
  unfold respond
  by_cases hadmitted : (!self.admitted) = true
  · rw [if_pos hadmitted]
    exact kept_replied failure_msgType
  · rw [if_neg hadmitted]
    cases htype : msg.msgType with
    | requestIdentities => exact kept_of_nothing rfl rfl
    | signRequest => exact kept_signRequest hr (hvisible htype)
    | _ => exact kept_replied failure_msgType

theorem kept_enumerate (next : ℕ) (merge : Merge) (sources : List (Identity × Signer)) :
    self.Kept libs (self.enumerate libs next merge sources) := by
  unfold enumerate
  cases self.agents[next]? with
  | some agent => exact kept_of_nothing rfl rfl
  | none =>
    simp only
    cases hanswer : AgentMessage.buildIdentitiesAnswer merge.merged with
    | none => exact kept_of_nothing rfl rfl
    | some answer =>
      have htype : answer.msgType = .identitiesAnswer := by
        rw [(buildIdentitiesAnswer_some hanswer).2]
      constructor
      · intro resp hresp hsign
        cases hresp
        rw [htype] at hsign
        cases hsign
      · intro source b hcontact
        cases hcontact

theorem answered_enumerate {next : ℕ} {merge : Merge} {sources : List (Identity × Signer)}
    (hg : Gathered merge sources) {answer : AgentMessage}
    (h : (self.enumerate libs next merge sources).reply = some answer) :
    AgentMessage.buildIdentitiesAnswer
      ((self.enumerate libs next merge sources).next.listed.map Prod.fst) = some answer := by
  unfold enumerate at h ⊢
  cases hagent : self.agents[next]? with
  | some agent =>
    rw [hagent] at h
    cases h
  | none =>
    simp only [hagent] at h ⊢
    cases hanswer : AgentMessage.buildIdentitiesAnswer merge.merged with
    | none =>
      rw [hanswer] at h
      cases h
    | some answer' =>
      rw [hanswer] at h
      simp only [← hg.merged, hanswer]
      exact h

theorem kept_step (h : self.Sound) {e : Event} (hsteady : self.Steady libs e) :
    self.Kept libs (self.perform ssh libs e) := by
  have hstanding := h.standing
  unfold Steady decision at hsteady
  generalize hout : self.perform ssh libs e = out
  have hperforms := performs ssh libs self e
  rw [hout] at hperforms
  cases hperforms with
  | message msg hphase =>
    rw [hphase] at hstanding hsteady
    apply kept_respond hstanding
    intro htype b hb
    exact (hsteady (.ask b) (by simpa [htype] using hb)).2
  | enumerating next merge sources hphase => exact kept_enumerate next merge sources
  | falling msg keyBlob hphase =>
    rw [hphase] at hsteady
    apply kept_fallback
    intro hblob hshown
    exact (hsteady (.attempt msg keyBlob 0) (by simp [hblob, hshown])).2
  | trying msg keyBlob next hphase =>
    rw [hphase] at hstanding hsteady
    apply kept_tryUpstream
    intro hnext
    have hsettled := hsteady (.attempt msg keyBlob next) (by simp [hnext])
    exact ⟨shows_of_isBlobOnly hstanding.2 hsettled.1 next, hsettled.2⟩
  | localPass msg ctx daemon hphase =>
    rw [hphase] at hsteady
    apply kept_localPass ctx daemon
    intro b hb
    exact hsteady (.pass b) (by simpa using hb)
  | decided msg kvKey source approved ctx daemon hphase =>
    rw [hphase] at hsteady
    apply kept_decided kvKey source approved ctx daemon
    intro b hb
    exact hsteady (.pass b) (by simpa using hb)
  | changed e => exact kept_of_nothing rfl rfl

theorem answered_step (h : self.Sound) {e : Event} {next : ℕ} {merge : Merge}
    {sources : List (Identity × Signer)} (hphase : self.phase = .enumerating next merge sources)
    {answer : AgentMessage} (hreply : (self.perform ssh libs e).reply = some answer) :
    AgentMessage.buildIdentitiesAnswer
      ((self.perform ssh libs e).next.listed.map Prod.fst) = some answer := by
  have hstanding := h.standing
  rw [hphase] at hstanding
  unfold perform at hreply ⊢
  rw [hphase] at hreply ⊢
  cases e with
  | resume => exact answered_enumerate hstanding.2 hreply
  | _ => cases hreply

theorem faithful_step (h : self.Sound) {e : Event} (hsteady : self.Steady libs e) :
    self.Faithful ssh libs e where
  asked := by
    rintro msg fields rfl hphase htype hparse entry hentry hblob hoffers
    have hadmitted : self.admitted = true := by
      by_contra hno
      rw [h.rejected (by simpa using hno)] at hentry
      cases hentry
    have hr := h.standing
    unfold Steady decision at hsteady
    rw [hphase] at hr hsteady
    have hask := hsteady (.ask fields.keyBlob) (by simpa [htype] using mem_requested hparse)
    exact asks_of_listed hr hphase hadmitted htype hparse hask.1 hentry hblob hoffers
  kept := kept_step h hsteady
  answered := fun _ _ _ _ hphase hreply => answered_step h hphase hreply

end Signatures

end Connection

section Enumerations

variable {ssh : SshKeys} {libs : MatchLibs}

theorem upstreams_cons (filter : FilterEvaluator) (idx : ℕ) (agent : UpstreamAgent)
    (answers : List UpstreamAnswer) (merge : Merge) :
    Merge.upstreams libs filter idx (agent.listing :: answers) merge =
      Merge.upstreams libs filter (idx + 1) answers
        (agent.offered.foldl (Merge.offer libs filter idx) merge) := by
  unfold UpstreamAgent.offered
  rw [Merge.upstreams]
  cases upstreamIdentities agent.listing with
  | ok identities => rfl
  | error e => rfl

theorem run_resumes (ssh : SshKeys) (libs : MatchLibs) (rest : List UpstreamAgent) {self : Connection} {next : ℕ} {merge : Merge}
    {sources : List (Identity × Signer)} (hphase : self.phase = .enumerating next merge sources)
    (hrest : self.agents.drop next = rest) :
    ∃ sources', run (Connection.step ssh libs) self (List.replicate rest.length .resume) =
      { self with
        phase := .enumerating (next + rest.length)
          (Merge.upstreams libs self.socket.filter next (rest.map UpstreamAgent.listing) merge)
          sources' } := by
  induction rest generalizing self next merge sources with
  | nil =>
    refine ⟨sources, ?_⟩
    cases self
    cases hphase
    rfl
  | cons agent rest ih =>
    have hagent : self.agents[next]? = some agent := by
      have hzero := congrArg (fun l => l[0]?) hrest
      simpa using hzero
    have hstep : self.step ssh libs .resume = (self.enumerate libs next merge sources).next := by
      unfold Connection.step Connection.perform
      rw [hphase]
    unfold Connection.enumerate at hstep
    rw [hagent] at hstep
    have htail : self.agents.drop (next + 1) = rest := by
      rw [← List.drop_drop, hrest]
      rfl
    have hphase' : (self.step ssh libs .resume).phase = .enumerating (next + 1)
        (agent.offered.foldl (Merge.offer libs self.socket.filter next) merge)
        (sources ++ ((agent.offered.foldl (Merge.offer libs self.socket.filter next)
          merge).merged.drop merge.merged.length).map fun identity =>
            (identity, .upstream next)) := by
      rw [hstep]
    have htail' : (self.step ssh libs .resume).agents.drop (next + 1) = rest := by
      rw [hstep]
      exact htail
    obtain ⟨sources', hrun⟩ := ih hphase' htail'
    refine ⟨sources', ?_⟩
    rw [List.length_cons, List.replicate_succ, run_cons, hrun, hstep, List.map_cons,
      upstreams_cons, Nat.add_assoc, Nat.add_comm 1]

/-- While no agent changes, the steps of an enumeration come to what is gathered
in one go. -/
theorem enumeration_gathers {self : Connection} (hphase : self.phase = .idle)
    (hadmitted : self.admitted = true) {msg : AgentMessage}
    (htype : msg.msgType = .requestIdentities) :
    ∃ outcome, (run (Connection.step ssh libs) self
        (.message msg :: List.replicate self.agents.length .resume)).perform ssh libs .resume =
          outcome ∧
      outcome.reply =
        (requestIdentities libs self.socket (self.agents.map UpstreamAgent.listing)).1 ∧
      (outcome.reply.isSome = true → outcome.next.routes =
        (requestIdentities libs self.socket (self.agents.map UpstreamAgent.listing)).2) := by
  have hstep : self.step ssh libs (.message msg) = (self.requestIdentities libs).next := by
    unfold Connection.step Connection.perform
    rw [hphase]
    unfold Connection.respond
    simp only [hadmitted, htype, Bool.not_true, Bool.false_eq_true, if_false]
  have hphase' : (self.step ssh libs (.message msg)).phase = .enumerating 0
      (Merge.start libs self.socket)
      ((Merge.start libs self.socket).merged.map fun identity => (identity, .local)) := by
    rw [hstep]
    rfl
  have hagents : (self.step ssh libs (.message msg)).agents = self.agents := by
    rw [hstep]
    rfl
  have hsocket : (self.step ssh libs (.message msg)).socket = self.socket := by
    rw [hstep]
    rfl
  obtain ⟨sources, hrun⟩ := run_resumes ssh libs self.agents hphase'
    (by rw [hagents]; rfl)
  refine ⟨_, rfl, ?_⟩
  rw [run_cons, hrun, hsocket]
  unfold Connection.perform Connection.enumerate requestIdentities gather
  simp only [Nat.zero_add, hagents, List.getElem?_length]
  cases AgentMessage.buildIdentitiesAnswer (Merge.upstreams libs self.socket.filter 0
      (self.agents.map UpstreamAgent.listing) (Merge.start libs self.socket)).merged with
  | some answer => exact ⟨rfl, fun _ => rfl⟩
  | none => exact ⟨rfl, fun h => by cases h⟩

end Enumerations

section Histories

variable (ssh : SshKeys) (libs : MatchLibs)

/-- In every history in which what a request rests on stays as it was listed, what
a connection is shown is what it gets. -/
theorem listed_keys_signed_by_their_source (socket : SocketState) (agents : List UpstreamAgent)
    (admitted : Bool) (events : List Event)
    (hsteady : Along (Connection.step ssh libs) (fun conn e => conn.Steady libs e)
      (Connection.accepted socket agents admitted) events) :
    Along (Connection.step ssh libs) (fun conn e => conn.Faithful ssh libs e)
      (Connection.accepted socket agents admitted) events :=
  along_of_invariant (Connection.step ssh libs) (I := Connection.Sound)
    (fun _ e hsound _ => Connection.sound_step hsound e)
    (fun _ _ hsound hsteady => Connection.faithful_step hsound hsteady)
    (Connection.accepted socket agents admitted) events hsteady
    (Connection.sound_accepted socket agents admitted)

end Histories

section Shadowing

def exactLibs : MatchLibs where
  fingerprint _ := none
  keyType _ := none
  globMatch _ _ := false
  regexMatch _ _ := false
  toLowercase := id

def echoing : SshKeys where
  publicKeyBlobFromPem _ := none
  publicKeyFromOpenssh _ := none
  sign _ data _ := some data

def sent (msg : Option AgentMessage) : UpstreamAnswer :=
  (msg.bind AgentMessage.encode).map fun bytes => [bytes]

def holding (identities : List Identity) : UpstreamAgent where
  listing := sent (AgentMessage.buildIdentitiesAnswer identities)
  signing msg := sent (some (.signResponse msg.payload))

def away : UpstreamAgent := ⟨none, fun _ => none⟩

def registryOf (keys : List RegisteredKey) : PublicKeyRegistry :=
  keys.foldl PublicKeyRegistry.insert PublicKeyRegistry.new

def listAll (n : ℕ) : List Event :=
  .message ⟨.requestIdentities, []⟩ :: List.replicate (n + 1) .resume

def signing (b : Blob) : AgentMessage := AgentMessage.signRequest ⟨b, [7], 0⟩

def notComment (comment : String) : FilterEvaluator := ⟨[⟨[⟨.comment (.exact comment), true⟩]⟩]⟩

def socketOf (keys : List RegisteredKey) (filter : FilterEvaluator) : SocketState :=
  ⟨⟨registryOf keys, registryOf keys⟩, filter⟩

/-- The registry holds one key under a comment that the filter hides, and an
upstream has the same key under another. -/
def shadowed : Connection :=
  Connection.accepted (socketOf [⟨[1], "hidden", "ns/k", .local⟩] (notComment "hidden"))
    [holding [⟨[1], ""⟩]] true

/-- The client is shown the key of the upstream, and its request goes to the local
copy, which the filter hides. -/
theorem hidden_copy_shadows_upstream :
    ¬ Along (Connection.step echoing exactLibs)
      (fun conn e => conn.Faithful echoing exactLibs e) shadowed
      (listAll 1 ++ [.message (signing [1])]) := by
  intro h
  rw [along_append] at h
  have hasked := h.2.1.asked (signing [1]) ⟨[1], [7], 0⟩ rfl rfl rfl rfl (⟨[1], ""⟩, .upstream 0)
    (by decide) rfl (by decide)
  revert hasked
  unfold Connection.Asks
  decide

def unfetched : GithubCache → GithubCache := fun cache => { cache with valid := false }

/-- A fetch fails between the listing and the request: the filter hides the key,
and the recorded upstream is asked all the same. -/
theorem revoked_key_still_routed :
    ¬ Along (Connection.step echoing exactLibs)
      (fun conn e => conn.Faithful echoing exactLibs e)
      (Connection.accepted
        (socketOf [] ⟨[⟨[⟨.github ⟨"user", ⟨[[1]], none, true⟩⟩, false⟩]⟩]⟩)
        [holding [⟨[1], ""⟩]] true)
      (listAll 1 ++ [.caches fun _ _ => unfetched, .message (signing [1])]) := by
  intro h
  rw [along_append] at h
  have hshown := h.2.2.1.kept.shown (.upstream 0) [1] rfl
  revert hshown
  decide

def second : Connection :=
  Connection.accepted (socketOf [⟨[2], "here", "ns/k", .local⟩] (notComment "hidden"))
    [away, holding [⟨[2], "there"⟩, ⟨[1], "there"⟩, ⟨[3], "hidden"⟩]] true

/-- The daemon that holds the local key. -/
def keeper : State :=
  (State.starting none .absent).withStore
    ((Store.newWithToken 0 Duration.zero).set "ns/k" .static [1] Ttl.never ⟨0⟩ Monotonic.zero).2

def history : List Event :=
  listAll 2 ++ [.message (signing [1]), .message (signing [2]),
    .localPass HandlerCtx.quiet keeper, .agent 1 away, .message (signing [1]), .resume,
    .message (signing [3])]

/-- Two keys are listed, one of them local, and each is signed where it is. -/
theorem listed_keys_signed_by_their_source_of_two :
    (run (Connection.step echoing exactLibs) second (listAll 2)).listed =
        [(⟨[2], "here"⟩, .local), (⟨[1], "there"⟩, .upstream 1)] ∧
      Along (Connection.step echoing exactLibs)
        (fun conn e => conn.Faithful echoing exactLibs e) second history :=
  ⟨by decide, listed_keys_signed_by_their_source echoing exactLibs _ _ _ _
    ⟨by decide, by decide, by decide, by decide, by decide, by decide, by decide, by decide,
      by decide, by decide, by decide, trivial⟩⟩

end Shadowing

end Routing

end Daemon

end CacheWarden
