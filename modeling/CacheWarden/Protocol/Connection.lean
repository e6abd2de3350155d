import CacheWarden.Daemon.PersistedFile
import CacheWarden.Lib.Gathering
import CacheWarden.Lib.StrictText
import CacheWarden.Protocol.Wire
import CacheWarden.References

/-!
# A connection of the control socket

A client writes its requests as lines, and the daemon answers each before it reads the next.
What arrives is cut into pieces anywhere and may end anywhere, and the answers may find nobody
there any more.
-/

set_option autoImplicit false

namespace CacheWarden

namespace Protocol

namespace Connection

open Gathering JsonRecord

open Daemon (isWhitespace)

open Refs (textBytes)

section Lines

/-- Where the first line break is. -/
def findBreak : Bytes → Option ℕ
  | [] => none
  | b :: rest => if b = 10 then some 0 else (findBreak rest).map (· + 1)

/-- How a connection ends after its last piece. -/
inductive Ending where
  | closed
  | failed
  deriving DecidableEq

/-- A line that ends with a break loses a carriage return before it. -/
def chomp (line : Bytes) : Bytes :=
  if line.getLast? = some 13 then line.dropLast else line

/-- What a reader holds of the bytes that have come, and what is to come. -/
structure Reading where
  held : Bytes
  pieces : List Bytes

def Reading.left (self : Reading) : Bytes := self.held ++ self.pieces.flatten

/-- The next line. The last one needs no break. -/
def nextLine (ending : Ending) (r : Reading) : Option (Bytes × Reading) :=
  match gather findBreak (fun _ => false) r.held r.pieces with
  | .found stop held rest => some (chomp (held.take stop), ⟨held.drop (stop + 1), rest⟩)
  | _ => if ending = .closed ∧ r.left ≠ [] then some (r.left, ⟨[], []⟩) else none

theorem findBreak_lt {s : Bytes} :
    ∀ {stop : ℕ}, findBreak s = some stop → stop < s.length := by
  induction s with
  | nil => simp [findBreak]
  | cons b rest ih =>
    intro stop h
    rw [findBreak] at h
    by_cases hb : b = 10
    · rw [if_pos hb] at h
      cases h
      exact Nat.zero_lt_succ _
    · rw [if_neg hb, Option.map_eq_some_iff] at h
      obtain ⟨n, hn, hstop⟩ := h
      have := ih hn
      rw [List.length_cons]
      omega

theorem findBreak_lasting : Lasting findBreak := by
  intro s t
  induction s with
  | nil => simp [findBreak]
  | cons b rest ih =>
    intro stop h
    rw [List.cons_append]
    rw [findBreak] at h ⊢
    by_cases hb : b = 10
    · rw [if_pos hb] at h ⊢
      exact h
    · rw [if_neg hb, Option.map_eq_some_iff] at h
      obtain ⟨n, hn, hstop⟩ := h
      rw [if_neg hb, ih n hn, Option.map_some, hstop]

theorem findBreak_line {line : Bytes} (h : (10 : UInt8) ∉ line) (rest : Bytes) :
    findBreak (line ++ 10 :: rest) = some line.length := by
  induction line with
  | nil => rfl
  | cons b line ih =>
    rw [List.mem_cons, not_or] at h
    rw [List.cons_append, findBreak, if_neg (Ne.symm h.1), ih h.2]
    rfl

theorem findBreak_none {line : Bytes} (h : (10 : UInt8) ∉ line) : findBreak line = none := by
  induction line with
  | nil => rfl
  | cons b line ih =>
    rw [List.mem_cons, not_or] at h
    rw [findBreak, if_neg (Ne.symm h.1), ih h.2]
    rfl

/-- However it comes, the next line is the one that the bytes begin with. -/
theorem nextLine_found (ending : Ending) {r : Reading} {stop : ℕ}
    (h : findBreak r.left = some stop) :
    ∃ r', nextLine ending r = some (chomp (r.left.take stop), r') ∧
      r'.left = r.left.drop (stop + 1) := by
  obtain ⟨held, rest, hgather, hall⟩ := gather_of_answer (fun _ => false) findBreak_lasting
    r.pieces r.held h fun _ _ _ => rfl
  have hlt := findBreak_lt (gather_found _ _ hgather).1
  change held ++ rest.flatten = r.left at hall
  refine ⟨⟨held.drop (stop + 1), rest⟩, ?_, ?_⟩
  · simp only [nextLine, hgather]
    rw [← hall, List.take_append_of_le_length (by omega)]
  · change held.drop (stop + 1) ++ rest.flatten = _
    rw [← hall, List.drop_append_of_le_length (by omega)]

theorem nextLine_last (ending : Ending) {r : Reading} (h : findBreak r.left = none) :
    nextLine ending r =
      if ending = .closed ∧ r.left ≠ [] then some (r.left, ⟨[], []⟩) else none := by
  have hgather := gather_of_open (fun _ => false) findBreak_lasting (fun _ _ h => h)
    r.pieces r.held h
  simp only [Bool.false_eq_true, if_false] at hgather
  simp only [nextLine, hgather]

theorem nextLine_shorter {ending : Ending} {r r' : Reading} {line : Bytes}
    (h : nextLine ending r = some (line, r')) : r'.left.length < r.left.length := by
  cases hbreak : findBreak r.left with
  | some stop =>
    obtain ⟨next, hnext, hleft⟩ := nextLine_found ending hbreak
    rw [hnext] at h
    cases h
    have hlt := findBreak_lt hbreak
    rw [hleft, List.length_drop]
    omega
  | none =>
    rw [nextLine_last ending hbreak] at h
    split at h
    · rename_i hlast
      cases h
      exact List.length_pos_of_ne_nil hlast.2
    · cases h

end Lines

section Conversation

variable {σ : Type}

def blank (text : List Char) : Bool := text.all isWhitespace

/-- Read request lines, reply per line. `room` is how many replies the client still takes. -/
def handleConnection (dispatch : String → σ → Response × σ) (ending : Ending) (room : ℕ)
    (r : Reading) (s : σ) : List Response × σ :=
  match _h : nextLine ending r with
  | none => ([], s)
  | some (line, rest) =>
    match StrictText.decode line with
    | none => ([], s)
    | some text =>
      if blank text then handleConnection dispatch ending room rest s
      else
        let answered := dispatch (String.ofList text) s
        match room with
        | 0 => ([], answered.2)
        | room + 1 =>
          let more := handleConnection dispatch ending room rest answered.2
          (answered.1 :: more.1, more.2)
termination_by r.left.length
decreasing_by all_goals exact nextLine_shorter _h

variable {serve : String → σ → Response × σ} {ending : Ending} {room : ℕ}
  {r rest : Reading} {line : Bytes} {cs : List Char} {s : σ}

theorem handle_end (h : nextLine ending r = none) :
    handleConnection serve ending room r s = ([], s) := by
  rw [handleConnection]
  split
  · rfl
  · rename_i hline
    rw [h] at hline
    cases hline

theorem handle_garbled (h : nextLine ending r = some (line, rest))
    (hline : StrictText.decode line = none) :
    handleConnection serve ending room r s = ([], s) := by
  rw [handleConnection]
  split
  · rfl
  · rename_i hnext
    rw [h] at hnext
    cases hnext
    rw [hline]

theorem handle_unheard (h : nextLine ending r = some (line, rest))
    (hline : StrictText.decode line = some cs) (hblank : blank cs = false) :
    handleConnection serve ending 0 r s = ([], (serve (String.ofList cs) s).2) := by
  rw [handleConnection]
  split
  · rename_i hnext
    rw [h] at hnext
    cases hnext
  · rename_i hnext
    rw [h] at hnext
    cases hnext
    simp [hline, hblank]

theorem handle_answered (h : nextLine ending r = some (line, rest))
    (hline : StrictText.decode line = some cs) (hblank : blank cs = false) :
    handleConnection serve ending (room + 1) r s =
      ((serve (String.ofList cs) s).1 ::
          (handleConnection serve ending room rest (serve (String.ofList cs) s).2).1,
        (handleConnection serve ending room rest (serve (String.ofList cs) s).2).2) := by
  rw [handleConnection]
  split
  · rename_i hnext
    rw [h] at hnext
    cases hnext
  · rename_i hnext
    rw [h] at hnext
    cases hnext
    simp [hline, hblank]

/-- The text that JSON is written as and read from, and what is said of a text that is not
read. -/
structure JsonText where
  write : Json → String
  read : String → Option Json
  explain : String → String

/-- The text of an object is one line, begins with its brace, and nothing that is cut off it is
the text of anything. -/
structure JsonText.Writes (text : JsonText) (j : Json) : Prop where
  read_write : text.read (text.write j) = some j
  one_line : ∀ c ∈ (text.write j).toList, c ≠ '\n' ∧ c ≠ '\r'
  brace : (text.write j).toList.head? = some '{'
  whole : ∀ part : String, part.toList <+: (text.write j).toList → part ≠ text.write j →
    text.read part = none

def malformed (text : JsonText) (line : String) : Response :=
  .err false ⟨.badRequest, "malformed request: " ++ text.explain line, none, none⟩

/-- Parse one request line and run it. -/
def dispatch (text : JsonText) (run : Request → σ → Response × σ) (line : String) (s : σ) :
    Response × σ :=
  match (text.read line).bind decodeRequest with
  | none => (malformed text line, s)
  | some request => run request s

def requestText (text : JsonText) (r : Request) : String := text.write (encodeRequest r)

/-- What a client writes that makes these requests. -/
def wireOf (text : JsonText) (rs : List Request) : Bytes :=
  rs.flatMap fun r => textBytes (requestText text r) ++ [10]

/-- One request after the other. -/
def answers (run : Request → σ → Response × σ) : List Request → σ → List Response × σ
  | [], s => ([], s)
  | r :: rs, s =>
    let more := answers run rs (run r s).2
    ((run r s).1 :: more.1, more.2)

variable {text : JsonText} {run : Request → σ → Response × σ}

theorem dispatch_request {r : Request} (h : text.Writes (encodeRequest r)) (s : σ) :
    dispatch text run (requestText text r) s = run r s := by
  rw [dispatch, requestText, h.read_write, Option.bind_some, decodeRequest_encodeRequest]

theorem dispatch_cut {part : String} (h : text.read part = none) (s : σ) :
    dispatch text run part s = (malformed text part, s) := by
  rw [dispatch, h, Option.bind_none]

theorem textBytes_eq (s : String) : textBytes s = StrictText.encode s.toList := by
  rw [← StrictText.toUTF8_ofList, String.ofList_toList]
  rfl

theorem not_blank {cs : List Char} (h : cs.head? = some '{') : blank cs = false := by
  cases cs with
  | nil => cases h
  | cons c cs =>
    cases h
    simp [blank, isWhitespace]

theorem JsonText.Writes.plain {j : Json} (h : text.Writes j) :
    (10 : UInt8) ∉ textBytes (text.write j) ∧ (13 : UInt8) ∉ textBytes (text.write j) := by
  rw [textBytes_eq]
  constructor
  · exact StrictText.not_mem_encode (c := '\n') (by decide) rfl fun hc => (h.one_line _ hc).1 rfl
  · exact StrictText.not_mem_encode (c := '\r') (by decide) rfl fun hc => (h.one_line _ hc).2 rfl

theorem chomp_plain {line : Bytes} (h : (13 : UInt8) ∉ line) : chomp line = line := by
  rw [chomp, if_neg fun hlast => h (List.mem_of_getLast? hlast)]

theorem textBytes_decode_line {t : String} :
    StrictText.decode (textBytes t) = some t.toList := by
  rw [textBytes_eq, StrictText.decode_encode]

/-- What has come of the requests of a client: the first of them, each in its turn and with its
own answer, and at most a complaint of what is left of the next. -/
structure Heard (text : JsonText) (run : Request → σ → Response × σ) (rs : List Request)
    (sent : Bytes) (room : ℕ) (s : σ) (out : List Response × σ) (k : ℕ)
    (last : List Response) : Prop where
  counted : k ≤ rs.length
  few : last.length ≤ 1
  complaint : ∀ r ∈ last, ∃ line, r = malformed text line
  answered : out = (((answers run (rs.take k) s).1 ++ last).take room,
    (answers run (rs.take k) s).2)
  arrived : (wireOf text (rs.take k)).dropLast <+: sent
  enough : ∀ j ≤ rs.length, j ≤ room + 1 → wireOf text (rs.take j) <+: sent → j ≤ k

theorem wireOf_cons (text : JsonText) (q : Request) (rs : List Request) :
    wireOf text (q :: rs) = textBytes (requestText text q) ++ 10 :: wireOf text rs := by
  simp [wireOf]

theorem wireOf_short {q : Request} {rs : List Request} {sent : Bytes}
    (hcut : sent <+: textBytes (requestText text q)) (j : ℕ)
    (h : wireOf text ((q :: rs).take j) <+: sent) : j = 0 := by
  cases j with
  | zero => rfl
  | succ j =>
    have hlen := (h.trans hcut).length_le
    rw [List.take_succ_cons, wireOf_cons, List.length_append, List.length_cons] at hlen
    omega

theorem dropLast_line (line more : Bytes) :
    (line ++ 10 :: more).dropLast <+: line ++ 10 :: more.dropLast := by
  cases more with
  | nil =>
    rw [List.dropLast_concat]
    exact List.prefix_append _ _
  | cons b more =>
    rw [List.dropLast_append_cons]
    exact List.prefix_refl _

theorem handle_nothing (serve : String → σ → Response × σ) (ending : Ending) (room : ℕ) (s : σ) :
    handleConnection serve ending room ⟨[], []⟩ s = ([], s) := by
  apply handle_end
  rw [nextLine_last ending rfl, if_neg fun h => h.2 rfl]

/-- Of a request that is cut off nothing is run, but for one that lacks no more than the end of
its line. -/
theorem heard_cut {q : Request} (rs : List Request) (h : text.Writes (encodeRequest q))
    (hcut : r.left <+: textBytes (requestText text q)) (room : ℕ) (s : σ) :
    ∃ k last, Heard text run (q :: rs) r.left room s
      (handleConnection (dispatch text run) ending room r s) k last := by
  have hbreak : findBreak r.left = none :=
    findBreak_none fun hmem => h.plain.1 (hcut.subset hmem)
  have henough : ∀ k : ℕ, ∀ j ≤ (q :: rs).length, j ≤ room + 1 →
      wireOf text ((q :: rs).take j) <+: r.left → j ≤ k := by
    intro k j _ _ hj
    rw [wireOf_short hcut j hj]
    exact Nat.zero_le k
  have hnothing : ∀ out : List Response × σ, out = ([], s) →
      ∃ k last, Heard text run (q :: rs) r.left room s out k last := by
    intro out hout
    refine ⟨0, [], Nat.zero_le _, Nat.zero_le _, fun _ hmem => absurd hmem List.not_mem_nil, ?_,
      List.nil_prefix, henough 0⟩
    rw [hout]
    simp [answers]
  have hnext := nextLine_last ending hbreak
  by_cases hlast : ending = .closed ∧ r.left ≠ []
  · rw [if_pos hlast] at hnext
    cases hdecode : StrictText.decode r.left with
    | none => exact hnothing _ (handle_garbled hnext hdecode)
    | some cs =>
      have hbytes := StrictText.encode_decode hdecode
      have hcs : cs <+: (requestText text q).toList := by
        apply StrictText.prefix_of_encode
        rw [hbytes, ← textBytes_eq]
        exact hcut
      have hhead : cs.head? = some '{' := by
        obtain ⟨more, hmore⟩ := hcs
        cases cs with
        | nil => exact absurd hbytes.symm hlast.2
        | cons c cs =>
          have hbrace := h.brace
          change (requestText text q).toList.head? = _ at hbrace
          rw [← hmore] at hbrace
          exact hbrace
      by_cases hwhole : String.ofList cs = requestText text q
      · have hleft : r.left = textBytes (requestText text q) := by
          rw [← hbytes, ← hwhole, textBytes_eq, String.toList_ofList]
        have harrived : (wireOf text ((q :: rs).take 1)).dropLast <+: r.left := by
          rw [List.take_succ_cons, List.take_zero, wireOf_cons, hleft]
          simp [wireOf]
        refine ⟨1, [], by simp, Nat.zero_le _, fun _ hmem => absurd hmem List.not_mem_nil, ?_,
          harrived, henough 1⟩
        cases room with
        | zero =>
          rw [handle_unheard hnext hdecode (not_blank hhead), hwhole, dispatch_request h]
          simp [answers]
        | succ room =>
          rw [handle_answered hnext hdecode (not_blank hhead), hwhole, dispatch_request h,
            handle_nothing]
          simp [answers]
      · have hnone : text.read (String.ofList cs) = none := by
          apply h.whole _ _ hwhole
          rw [String.toList_ofList]
          exact hcs
        cases room with
        | zero =>
          apply hnothing
          rw [handle_unheard hnext hdecode (not_blank hhead), dispatch_cut hnone]
        | succ room =>
          refine ⟨0, [malformed text (String.ofList cs)], Nat.zero_le _, Nat.le_refl _, ?_, ?_,
            List.nil_prefix, henough 0⟩
          · intro r hmem
            exact ⟨_, List.mem_singleton.mp hmem⟩
          · rw [handle_answered hnext hdecode (not_blank hhead), dispatch_cut hnone,
              handle_nothing]
            simp [answers]
  · rw [if_neg hlast] at hnext
    exact hnothing _ (handle_end hnext)

/-- In whatever pieces the lines of a client come, wherever they end and whoever takes the
answers: what has been run is the first of its requests, each once and in its turn. They are as
many as came with their lines, as long as somebody took the answers; what was cut off is not run,
and is complained of where it is heard at all. -/
theorem heard_of_requests {rs : List Request}
    (h : ∀ q ∈ rs, text.Writes (encodeRequest q)) :
    ∀ (r : Reading) (room : ℕ) (s : σ), r.left <+: wireOf text rs →
      ∃ k last, Heard text run rs r.left room s
        (handleConnection (dispatch text run) ending room r s) k last := by
  induction rs with
  | nil =>
    intro r room s hleft
    have hnil : r.left = [] := List.prefix_nil.mp hleft
    have hend : handleConnection (dispatch text run) ending room r s = ([], s) := by
      apply handle_end
      rw [nextLine_last ending (by rw [hnil]; rfl), if_neg fun h => h.2 hnil]
    refine ⟨0, [], Nat.zero_le _, Nat.zero_le _, fun _ hmem => absurd hmem List.not_mem_nil, ?_,
      List.nil_prefix, fun j hj _ _ => hj⟩
    rw [hend]
    simp [answers]
  | cons q rs ih =>
    intro r room s hleft
    have hq := h q List.mem_cons_self
    have hrs : ∀ q' ∈ rs, text.Writes (encodeRequest q') :=
      fun q' hmem => h q' (List.mem_cons_of_mem _ hmem)
    rw [wireOf_cons] at hleft
    by_cases hshort : r.left.length ≤ (textBytes (requestText text q)).length
    · exact heard_cut rs hq
        (List.prefix_of_prefix_length_le hleft (List.prefix_append _ _) hshort) room s
    · obtain ⟨more, hmore⟩ : textBytes (requestText text q) ++ [10] <+: r.left := by
        have hwire : textBytes (requestText text q) ++ [10] <+:
            textBytes (requestText text q) ++ 10 :: wireOf text rs := ⟨wireOf text rs, by simp⟩
        apply List.prefix_of_prefix_length_le hwire hleft
        rw [List.length_append]
        simp only [List.length_cons, List.length_nil]
        omega
      rw [List.append_assoc, List.singleton_append] at hmore
      have hmorewire : more <+: wireOf text rs := by
        rw [← hmore, List.prefix_append_right_inj, List.cons_prefix_cons] at hleft
        exact hleft.2
      have hfound : findBreak r.left = some (textBytes (requestText text q)).length := by
        rw [← hmore]
        exact findBreak_line hq.plain.1 more
      obtain ⟨rest, hnext, hrest⟩ := nextLine_found ending hfound
      have hline : chomp (r.left.take (textBytes (requestText text q)).length) =
          textBytes (requestText text q) := by
        rw [← hmore, List.take_left]
        exact chomp_plain hq.plain.2
      have hleftrest : rest.left = more := by
        rw [hrest, ← hmore, ← List.drop_drop, List.drop_left]
        rfl
      rw [hline] at hnext
      have hblank := not_blank hq.brace
      change blank (requestText text q).toList = false at hblank
      cases room with
      | zero =>
        refine ⟨1, [], by simp, Nat.zero_le _, fun _ hmem => absurd hmem List.not_mem_nil, ?_,
          ?_, fun j _ hj _ => hj⟩
        · rw [handle_unheard hnext textBytes_decode_line hblank, String.ofList_toList,
            dispatch_request hq]
          simp [answers]
        · rw [List.take_succ_cons, List.take_zero, wireOf_cons, ← hmore]
          simp [wireOf]
      | succ room =>
        obtain ⟨k, last, hheard⟩ := ih hrs rest room (run q s).2
          (by rw [hleftrest]; exact hmorewire)
        refine ⟨k + 1, last, Nat.succ_le_succ hheard.counted, hheard.few, hheard.complaint,
          ?_, ?_, ?_⟩
        · rw [handle_answered hnext textBytes_decode_line hblank, String.ofList_toList,
            dispatch_request hq, hheard.answered]
          simp [answers]
        · have harrived := hheard.arrived
          rw [List.take_succ_cons, wireOf_cons, ← hmore]
          rw [hleftrest] at harrived
          apply (dropLast_line _ _).trans
          rw [List.prefix_append_right_inj, List.cons_prefix_cons]
          exact ⟨rfl, harrived⟩
        · intro j hj hroom hwire
          cases j with
          | zero => exact Nat.zero_le _
          | succ j =>
            apply Nat.succ_le_succ
            apply hheard.enough j (Nat.le_of_succ_le_succ hj) (Nat.le_of_succ_le_succ hroom)
            rw [List.take_succ_cons, wireOf_cons, ← hmore, List.prefix_append_right_inj,
              List.cons_prefix_cons] at hwire
            rw [hleftrest]
            exact hwire.2

end Conversation

section Sample

def pingText : String := "\x7b\"cmd\":\"ping\"\x7d"

/-- A text layer that knows a ping. -/
def pings : JsonText where
  write _ := pingText
  read t := if t = pingText then some (encodeRequest .ping) else none
  explain _ := "expected value"

theorem pings_writes : pings.Writes (encodeRequest .ping) where
  read_write := by simp [pings]
  one_line := by simp [pings, pingText]
  brace := by decide
  whole := fun _ _ hne => if_neg hne

def pongs : Request → ℕ → Response × ℕ := fun _ n => (.ok true (.pong true), n + 1)

/-- Two pings, the second of which is cut off, come in three pieces. -/
def twoPings : Reading :=
  ⟨[], [(wireOf pings [.ping, .ping]).take 7, ((wireOf pings [.ping, .ping]).drop 7).take 9,
    ((wireOf pings [.ping, .ping]).drop 16).take 5]⟩

theorem heard_of_two_pings : ∃ k last, Heard pings pongs [.ping, .ping] twoPings.left 3 0
    (handleConnection (dispatch pings pongs) .closed 3 twoPings 0) k last := by
  apply heard_of_requests
  · intro q hq
    simp only [List.mem_cons, List.not_mem_nil, or_false, or_self] at hq
    rw [hq]
    exact pings_writes
  · decide

end Sample

end Connection

end Protocol

end CacheWarden
