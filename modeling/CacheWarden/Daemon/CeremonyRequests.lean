import CacheWarden.Daemon.CeremonyHttp
import CacheWarden.Daemon.CeremonyUnlock

/-!
# What the ceremony page asks

A client writes its request as lines of text, a blank line and the bytes of the body. What it
wrote is what is read, and so what the ceremony answers, in whatever pieces it arrives and
whatever comes after it.
-/

set_option autoImplicit false

namespace CacheWarden

namespace Daemon

namespace CeremonyHttp

open Gathering

open Refs (textBytes)

open Vault

section Framing

/-- Lines, a blank line and a body. -/
def framed (lines : List Bytes) (body : Bytes) : Bytes :=
  (lines.flatMap fun line => line ++ [13, 10]) ++ ([13, 10] ++ body)

/-- A line that does not end the head, and is not broken. -/
def Unbroken (line : Bytes) : Prop := line ≠ [] ∧ (13 : UInt8) ∉ line

theorem framed_cons (line : Bytes) (lines : List Bytes) (body : Bytes) :
    framed (line :: lines) body = line ++ (13 :: 10 :: framed lines body) := by
  simp [framed]

theorem not_prefix_of_first {b : UInt8} {rest : Bytes} (h : b ≠ 13) :
    ¬ headEnd <+: b :: rest := by
  rintro ⟨t, ht⟩
  simp only [headEnd, List.cons_append, List.cons.injEq] at ht
  exact h ht.1.symm

theorem findHeadEnd_skip {b : UInt8} (rest : Bytes) (h : b ≠ 13) :
    findHeadEnd (b :: rest) = (findHeadEnd rest).map (· + 1) := by
  rw [findHeadEnd_cons, if_neg (not_prefix_of_first h)]

theorem findHeadEnd_line {line : Bytes} (h : (13 : UInt8) ∉ line) (rest : Bytes) :
    findHeadEnd (line ++ rest) = (findHeadEnd rest).map (· + line.length) := by
  induction line with
  | nil => simp
  | cons b line ih =>
    rw [List.mem_cons, not_or] at h
    rw [List.cons_append, findHeadEnd_skip _ (Ne.symm h.1), ih h.2, Option.map_map]
    rfl

theorem findHeadEnd_break {rest : Bytes} (h : ¬ [13, 10] <+: rest) :
    findHeadEnd (13 :: 10 :: rest) = (findHeadEnd rest).map (· + 2) := by
  have hnot : ¬ headEnd <+: 13 :: 10 :: rest := by
    rintro ⟨t, ht⟩
    simp only [headEnd, List.cons_append, List.cons.injEq, true_and] at ht
    exact h ⟨t, ht⟩
  rw [findHeadEnd_cons, if_neg hnot, findHeadEnd_skip _ (by decide), Option.map_map]
  rfl

theorem framed_not_prefix {line : Bytes} (h : Unbroken line) (lines : List Bytes)
    (body : Bytes) : ¬ [13, 10] <+: framed (line :: lines) body := by
  obtain ⟨hne, hbreak⟩ := h
  cases line with
  | nil => exact absurd rfl hne
  | cons b line =>
    rw [framed_cons]
    rintro ⟨t, ht⟩
    simp only [List.cons_append, List.cons.injEq] at ht
    exact hbreak (by rw [← ht.1]; exact List.mem_cons_self)

def crlf : Bytes := [13, 10]

theorem intercalate_cons (line next : Bytes) (lines : List Bytes) :
    crlf.intercalate (line :: next :: lines) =
      line ++ (13 :: 10 :: crlf.intercalate (next :: lines)) := by
  simp [crlf, List.intercalate]

/-- The head ends where its lines end. -/
theorem findHeadEnd_framed (body : Bytes) (lines : List Bytes) (hne : lines ≠ [])
    (h : ∀ line ∈ lines, Unbroken line) :
    findHeadEnd (framed lines body) = some (crlf.intercalate lines).length ∧
      framed lines body = crlf.intercalate lines ++ (headEnd ++ body) := by
  induction lines with
  | nil => exact absurd rfl hne
  | cons line lines ih =>
    have hline := h line List.mem_cons_self
    cases lines with
    | nil =>
      have hend : findHeadEnd (13 :: 10 :: 13 :: 10 :: body) = some 0 := by
        rw [findHeadEnd_cons, if_pos ⟨body, rfl⟩]
      rw [framed_cons, findHeadEnd_line hline.2]
      change Option.map _ (findHeadEnd (13 :: 10 :: 13 :: 10 :: body)) = _ ∧ _
      rw [hend]
      simp [crlf, List.intercalate, framed, headEnd]
    | cons next lines =>
      obtain ⟨hfound, hsame⟩ := ih (by simp) fun l hl => h l (List.mem_cons_of_mem _ hl)
      have hnot := framed_not_prefix (h next (by simp)) lines body
      rw [framed_cons, findHeadEnd_line hline.2, findHeadEnd_break hnot, hfound,
        intercalate_cons]
      constructor
      · simp only [Option.map_some, List.length_append, List.length_cons]
        congr 1
        omega
      · rw [hsame]
        simp

end Framing

section Text

def lineBytes (line : List Char) : Bytes := textBytes (String.ofList line)

theorem lineBytes_eq (line : List Char) : lineBytes line = StrictText.encode line :=
  StrictText.toUTF8_ofList line

theorem unbroken_text {line : List Char} (hne : line ≠ []) (h : '\r' ∉ line) :
    Unbroken (lineBytes line) := by
  rw [lineBytes_eq]
  constructor
  · cases line with
    | nil => exact absurd rfl hne
    | cons c rest =>
      intro hnil
      rw [StrictText.encode, List.flatMap_cons, List.append_eq_nil_iff] at hnil
      exact String.utf8EncodeChar_ne_nil hnil.1
  · exact StrictText.not_mem_encode (by decide) rfl h

theorem decode_lineBytes (line : List Char) : StrictText.decode (lineBytes line) = some line := by
  rw [lineBytes_eq, StrictText.decode_encode]

theorem splitCrlf_step {c : Char} {rest line : List Char} {lines : List (List Char)}
    (hc : c ≠ '\r') (h : splitCrlf rest = line :: lines) :
    splitCrlf (c :: rest) = (c :: line) :: lines := by
  rw [splitCrlf]
  · rw [h]
  · rintro rest' rfl -
    exact hc rfl

theorem splitCrlf_line {line : List Char} (h : '\r' ∉ line) (rest : List Char) :
    splitCrlf (line ++ ('\r' :: '\n' :: rest)) = line :: splitCrlf rest := by
  induction line with
  | nil => rfl
  | cons c line ih =>
    rw [List.mem_cons, not_or] at h
    exact splitCrlf_step (Ne.symm h.1) (ih h.2)

theorem splitCrlf_last {line : List Char} (h : '\r' ∉ line) : splitCrlf line = [line] := by
  induction line with
  | nil => rfl
  | cons c line ih =>
    rw [List.mem_cons, not_or] at h
    exact splitCrlf_step (Ne.symm h.1) (ih h.2)

/-- The text of a head, whose lines are its own. -/
def joined (lines : List (List Char)) : List Char := ['\r', '\n'].intercalate lines

theorem joined_cons (line next : List Char) (lines : List (List Char)) :
    joined (line :: next :: lines) = line ++ ('\r' :: '\n' :: joined (next :: lines)) := by
  simp [joined, List.intercalate]

theorem splitCrlf_joined {lines : List (List Char)} (hne : lines ≠ [])
    (h : ∀ line ∈ lines, '\r' ∉ line) : splitCrlf (joined lines) = lines := by
  induction lines with
  | nil => exact absurd rfl hne
  | cons line lines ih =>
    have hline := h line List.mem_cons_self
    cases lines with
    | nil =>
      rw [show joined [line] = line by simp [joined, List.intercalate]]
      exact splitCrlf_last hline
    | cons next lines =>
      rw [joined_cons, splitCrlf_line hline,
        ih (by simp) fun l hl => h l (List.mem_cons_of_mem _ hl)]

theorem lineBytes_joined (lines : List (List Char)) :
    crlf.intercalate (lines.map lineBytes) = lineBytes (joined lines) := by
  induction lines with
  | nil => rfl
  | cons line lines ih =>
    cases lines with
    | nil => simp [joined, List.intercalate]
    | cons next lines =>
      rw [List.map_cons, List.map_cons, intercalate_cons, ← List.map_cons, ih, joined_cons]
      simp only [lineBytes_eq, StrictText.encode, List.flatMap_append, List.flatMap_cons]
      rfl

end Text

section Asking

def headerLine (h : List Char × List Char) : List Char := h.1 ++ (':' :: h.2)

def named (key : String) (headers : List (List Char × List Char)) : Option String :=
  ((headers.filter fun h => Otp.lowercase (trim h.1) = key).getLast?).map fun h =>
    String.ofList (trim h.2)

/-- The length of the body, as the headers declare it. -/
def declared (headers : List (List Char × List Char)) : ℕ :=
  (((named "content-length" headers).bind fun v => parseU64 v.toList).map UInt64.toNat).getD 0

theorem spaceless_of_all {line : List Char} (h : (line.all fun c => c != ' ' && c != '\r') = true) :
    ∀ c ∈ line, c ≠ ' ' ∧ c ≠ '\r' := by simpa using h

/-- A request as a client means it. Its body is as long as its headers declare, and
empty where they do not. -/
structure Asked where
  method : List Char
  target : List Char
  headers : List (List Char × List Char)
  body : Bytes
  method_plain : ∀ c ∈ method, c ≠ ' ' ∧ c ≠ '\r'
  target_plain : ∀ c ∈ target, c ≠ ' ' ∧ c ≠ '\r'
  headers_plain : ∀ h ∈ headers, ':' ∉ h.1 ∧ '\r' ∉ h.1 ∧ '\r' ∉ h.2
  body_declared : declared headers = body.length
  body_small : body.length ≤ maxBody

namespace Asked

variable (self : Asked)

def requestLine : List Char := self.method ++ (' ' :: (self.target ++ (' ' :: "HTTP/1.1".toList)))

def lines : List (List Char) := self.requestLine :: self.headers.map headerLine

/-- What the client writes. -/
def wire : Bytes := framed (self.lines.map lineBytes) self.body

def head : Bytes := lineBytes (joined self.lines)

def request : Request :=
  ⟨String.ofList self.method, String.ofList (self.target.takeWhile (· ≠ '?')), self.body,
    named "origin" self.headers⟩

theorem lines_plain : ∀ line ∈ self.lines, line ≠ [] ∧ '\r' ∉ line := by
  intro line hline
  rcases List.mem_cons.mp hline with hline | hline
  · rw [hline, requestLine]
    constructor
    · simp
    · intro hmem
      simp only [List.mem_append, List.mem_cons] at hmem
      rcases hmem with hmem | hmem | hmem | hmem | hmem
      · exact (self.method_plain _ hmem).2 rfl
      · exact absurd hmem (by decide)
      · exact (self.target_plain _ hmem).2 rfl
      · exact absurd hmem (by decide)
      · exact absurd hmem (by decide)
  · obtain ⟨h, hmem, hheader⟩ := List.mem_map.mp hline
    obtain ⟨-, hname, hvalue⟩ := self.headers_plain h hmem
    rw [← hheader, headerLine]
    constructor
    · simp
    · intro hbreak
      simp only [List.mem_append, List.mem_cons] at hbreak
      rcases hbreak with hbreak | hbreak | hbreak
      · exact hname hbreak
      · exact absurd hbreak (by decide)
      · exact hvalue hbreak

theorem wire_found : findHeadEnd self.wire = some self.head.length ∧
    self.wire = self.head ++ (headEnd ++ self.body) := by
  have hunbroken : ∀ line ∈ self.lines.map lineBytes, Unbroken line := by
    intro line hline
    obtain ⟨text, htext, hbytes⟩ := List.mem_map.mp hline
    rw [← hbytes]
    exact unbroken_text (self.lines_plain text htext).1 (self.lines_plain text htext).2
  have hframed := findHeadEnd_framed self.body (self.lines.map lineBytes)
    (by simp [lines]) hunbroken
  rw [lineBytes_joined] at hframed
  exact hframed

end Asked

theorem splitOnceColon_line {name : List Char} (h : ':' ∉ name) (value : List Char) :
    splitOnceColon (name ++ (':' :: value)) = some (name, value) := by
  induction name with
  | nil => simp [splitOnceColon]
  | cons c name ih =>
    rw [List.mem_cons, not_or] at h
    rw [List.cons_append, splitOnceColon, if_neg (Ne.symm h.1), ih h.2]
    rfl

theorem addHeader_line {h : List Char × List Char} (hname : ':' ∉ h.1)
    (headers : KeyMap String) :
    addHeader headers (headerLine h) =
      headers.insert (Otp.lowercase (trim h.1)) (String.ofList (trim h.2)) := by
  simp only [addHeader, headerLine, splitOnceColon_line hname]

/-- Of the headers of one name the last counts. -/
theorem get_foldl_addHeader (key : String) (hs : List (List Char × List Char))
    (hnames : ∀ h ∈ hs, ':' ∉ h.1) : ∀ headers : KeyMap String,
      ((hs.map headerLine).foldl addHeader headers)[key]? = (named key hs).or headers[key]? := by
  induction hs with
  | nil => intro headers; rfl
  | cons h hs ih =>
    intro headers
    rw [List.map_cons, List.foldl_cons, addHeader_line (hnames h List.mem_cons_self),
      ih (fun h' hh' => hnames h' (List.mem_cons_of_mem _ hh')), KeyMap.get_insert]
    unfold named
    by_cases hkey : Otp.lowercase (trim h.1) = key
    · rw [if_pos hkey, List.filter_cons_of_pos (by simpa using hkey), List.getLast?_cons]
      cases (hs.filter fun h => Otp.lowercase (trim h.1) = key).getLast? <;> rfl
    · rw [if_neg hkey, List.filter_cons_of_neg (by simpa using hkey)]

theorem splitOn_requestLine (self : Asked) :
    self.requestLine.splitOn ' ' = [self.method, self.target, "HTTP/1.1".toList] := by
  have hspace : ∀ cs : List Char, (∀ c ∈ cs, c ≠ ' ' ∧ c ≠ '\r') →
      ∀ c ∈ cs, (c == ' ') = false := by
    intro cs hcs c hc
    simpa using (hcs c hc).1
  unfold Asked.requestLine
  rw [List.splitOn_eq_splitOnP,
    List.splitOnP_append_cons_of_forall_mem (hspace _ self.method_plain) ' ' (by decide),
    List.splitOnP_append_cons_of_forall_mem (hspace _ self.target_plain) ' ' (by decide)]
  rfl

/-- A header block says what was meant. -/
theorem parseHead_lines (self : Asked) : ∃ head : Head,
    parseHead (joined self.lines) = .ok head ∧ head.contentLength = self.body.length ∧
      ∀ body : Bytes, body.take self.body.length = self.body →
        head.request body = self.request := by
  let headers : KeyMap String := (self.headers.map headerLine).foldl addHeader ∅
  have hnamed : ∀ key, headers[key]? = named key self.headers := by
    intro key
    rw [get_foldl_addHeader _ _ fun h hmem => (self.headers_plain h hmem).1, KeyMap.get_empty,
      Option.or_none]
  let head : Head :=
    ⟨String.ofList self.method, String.ofList (self.target.takeWhile (· ≠ '?')), headers⟩
  have hcount : head.contentLength = self.body.length := by
    rw [← self.body_declared]
    change ((headers["content-length"]?.bind fun v => parseU64 v.toList).map UInt64.toNat).getD 0 = _
    rw [hnamed]
    rfl
  refine ⟨head, ?_, hcount, ?_⟩
  · rw [parseHead, splitCrlf_joined (by simp [Asked.lines]) fun line hline =>
      (self.lines_plain line hline).2]
    simp only [Asked.lines, splitOn_requestLine]
    rfl
  · intro body hbody
    rw [Head.request, hcount, hbody]
    change (⟨_, _, _, headers["origin"]?⟩ : Request) = _
    rw [hnamed]
    rfl

theorem acceptHead_head (self : Asked) : ∃ head : Head,
    acceptHead self.head = .ok head ∧ head.contentLength = self.body.length ∧
      ∀ body : Bytes, body.take self.body.length = self.body →
        head.request body = self.request := by
  obtain ⟨head, hparse, hcount, hrequest⟩ := parseHead_lines self
  refine ⟨head, ?_, hcount, hrequest⟩
  have htext : StrictText.decode self.head = some (joined self.lines) := by
    rw [Asked.head, decode_lineBytes]
  simp only [acceptHead, htext, hparse, hcount, if_neg (Nat.not_lt.mpr self.body_small)]

/-- What was written is what is read, whatever comes after it. -/
theorem whole_wire (self : Asked) (ending : Ending) (more : Bytes)
    (hshort : self.head.length + 3 < maxHead + chunkSize) :
    whole (self.wire ++ more) ending = some (.ok self.request) := by
  obtain ⟨hfound, hwire⟩ := self.wire_found
  obtain ⟨head, haccept, hcount, hrequest⟩ := acceptHead_head self
  have hsent := findHeadEnd_lasting self.wire more _ hfound
  have hsplit : self.wire ++ more = self.head ++ (headEnd ++ (self.body ++ more)) := by
    rw [hwire]
    simp
  have htake : (self.wire ++ more).take self.head.length = self.head := by
    rw [hsplit, List.take_left]
  have hdrop : (self.wire ++ more).drop (self.head.length + 4) = self.body ++ more := by
    rw [hsplit, ← List.drop_drop, List.drop_left]
    rfl
  have hsmall : ¬ maxHead + chunkSize ≤ self.head.length + 3 := Nat.not_le.mpr hshort
  have henough : ¬ (self.body ++ more).length < head.contentLength := by
    rw [hcount, List.length_append]
    omega
  simp only [whole, hsent, htake, hdrop, if_neg hsmall, haccept, if_neg henough]
  rw [hrequest _ List.take_left]

/-- A request that is cut off is not heard. -/
theorem whole_cut (self : Asked) (ending : Ending) {sent rest : Bytes} (hrest : rest ≠ [])
    (hcut : sent ++ rest = self.wire) (request : Request) :
    whole sent ending ≠ some (.ok request) := by
  have hnever : ∀ closed failed, ending.refusal closed failed ≠ some (.ok request) := by
    intro closed failed
    cases ending <;> simp [Ending.refusal]
  obtain ⟨hfound, hwire⟩ := self.wire_found
  cases hsent : findHeadEnd sent with
  | none =>
    simp only [whole, hsent]
    split
    · simp
    · exact hnever _ _
  | some stop =>
    have hsame := findHeadEnd_lasting sent rest stop hsent
    rw [hcut, hfound] at hsame
    cases hsame
    have hlong := findHeadEnd_le hsent
    obtain ⟨head, haccept, hcount, -⟩ := acceptHead_head self
    have htake : sent.take self.head.length = self.head := by
      have hhead : self.wire.take self.head.length = self.head := by
        rw [hwire, List.take_left]
      rw [← hcut, List.take_append_of_le_length (by omega)] at hhead
      exact hhead
    have hbody : (sent.drop (self.head.length + 4)).length < head.contentLength := by
      have hlen := congrArg List.length (hcut.trans hwire)
      have hpos := List.length_pos_of_ne_nil hrest
      simp only [List.length_append, headEnd, List.length_cons, List.length_nil] at hlen
      rw [hcount, List.length_drop]
      omega
    simp only [whole, hsent, htake, haccept, if_pos hbody]
    split
    · simp
    · exact hnever _ _

end Asking

section Replying

/-- A response whose headers are lines. -/
def Response.Plain (self : Response) : Prop :=
  '\r' ∉ self.contentType.toList ∧
    ∀ line ∈ self.extraHeaders, line ≠ "" ∧ '\r' ∉ line.toList

theorem plain_nat (n : ℕ) : '\r' ∉ Nat.toDigits 10 n := by
  intro hmem
  exact absurd (Nat.isDigit_of_mem_toDigits (by decide) (by decide) hmem) (by decide)

theorem plain_reason (self : Response) : '\r' ∉ self.reason.toList := by
  unfold Response.reason
  split <;> decide

theorem headLines_plain {self : Response} (h : self.Plain) :
    ∀ line ∈ self.headLines, line.toList ≠ [] ∧ '\r' ∉ line.toList := by
  intro line hline
  rcases List.mem_append.mp hline with hline | hline
  · simp only [List.mem_cons, List.not_mem_nil, or_false] at hline
    rcases hline with hline | hline | hline | hline | hline | hline | hline | hline <;> rw [hline]
    · simp [plain_nat, plain_reason]
    · simp [h.1]
    · simp [plain_nat]
    all_goals decide
  · have hextra := h.2 line hline
    simpa using hextra

theorem encode_framed (self : Response) :
    self.encode = framed ((self.headLines.map String.toList).map lineBytes) self.body := by
  have hlines : (self.headLines.map String.toList).map lineBytes = self.headLines.map textBytes := by
    rw [List.map_map]
    apply List.map_congr_left
    intro line _
    simp [lineBytes]
  rw [hlines]
  simp [Response.encode, framed, List.flatMap_map]

/-- The other side reads the lines and the body of a response back. -/
theorem encode_read_back (self : Response) (h : self.Plain) :
    ∃ stop text, findHeadEnd self.encode = some stop ∧
      StrictText.decode (self.encode.take stop) = some text ∧
      splitCrlf text = self.headLines.map String.toList ∧
      self.encode.drop (stop + 4) = self.body := by
  have hplain : ∀ line ∈ self.headLines.map String.toList, line ≠ [] ∧ '\r' ∉ line := by
    intro line hline
    obtain ⟨text, htext, heq⟩ := List.mem_map.mp hline
    rw [← heq]
    exact headLines_plain h text htext
  have hne : self.headLines.map String.toList ≠ [] := by simp [Response.headLines]
  obtain ⟨hfound, hsplit⟩ := findHeadEnd_framed self.body
    ((self.headLines.map String.toList).map lineBytes) (by simpa using hne) (by
      intro line hline
      obtain ⟨text, htext, hbytes⟩ := List.mem_map.mp hline
      rw [← hbytes]
      exact unbroken_text (hplain text htext).1 (hplain text htext).2)
  rw [← encode_framed, lineBytes_joined] at hfound hsplit
  refine ⟨_, joined (self.headLines.map String.toList), hfound, ?_, ?_, ?_⟩
  · rw [hsplit, List.take_left, decode_lineBytes]
  · exact splitCrlf_joined hne fun line hline => (hplain line hline).2
  · rw [hsplit, ← List.drop_drop, List.drop_left]
    rfl

end Replying

section Serving

/-- The bodies of the two finishing requests, read as JSON. -/
structure BodyReader where
  register : Bytes → Body RegisterBody
  unlock : Bytes → Body UnlockBody

/-- Which endpoint a request is for. -/
def Request.endpoint (reader : BodyReader) (self : Request) : Endpoint :=
  if self.method = "GET" then if self.path = "/" then .page else .unknown false
  else if self.method = "POST" then
    if self.path = "/begin" then .begin
    else if self.path = "/register/evaluate" then .registerEvaluate
    else if self.path = "/register/finish" then .registerFinish (reader.register self.body)
    else if self.path = "/unlock/finish" then .unlockFinish (reader.unlock self.body)
    else .unknown true
  else .unsupported

/-- What the listener serves with: the libraries, and how a reply is written. -/
structure Site where
  crypto : Crypto
  web : WebAuthn
  reader : BodyReader
  render : CeremonyReply → Response

def Site.answer (site : Site) (ctx : CeremonyCtx) (request : Request) (s : Ceremony × State) :
    Response × (Ceremony × State) :=
  let handled := s.1.handle site.crypto site.web ctx s.2
    ⟨request.origin, request.endpoint site.reader⟩
  (site.render handled.1, handled.2)

/-- A connection of a client: its request is on it with whatever follows, or is cut off
somewhere. -/
structure Visit where
  asked : Asked
  conn : Connection
  ctx : CeremonyCtx
  short : asked.head.length + 3 ≤ maxHead
  carried : asked.wire <+: conn.sent ∨ conn.sent <+: asked.wire

def Visit.arrived (self : Visit) : Bool := self.asked.wire.isPrefixOf self.conn.sent

/-- One connection after the other. -/
def serve (site : Site) (s : Ceremony × State) (visits : List Visit) : Ceremony × State :=
  visits.foldl (fun s visit => (serveOne (site.answer visit.ctx) visit.conn s).2) s

variable (site : Site)

theorem readRequest_arrived (visit : Visit) (h : visit.arrived = true) :
    readRequest visit.conn = some (.ok visit.asked.request) := by
  rw [Visit.arrived, List.isPrefixOf_iff_prefix] at h
  obtain ⟨more, hsent⟩ := h
  have hsmall : visit.asked.head.length + 3 < maxHead + chunkSize :=
    Nat.lt_of_le_of_lt visit.short (by decide)
  have hwhole := whole_wire visit.asked visit.conn.ending more hsmall
  rw [hsent] at hwhole
  rcases readRequest_whole visit.conn with hread | ⟨⟨stop, hstop, habove, -⟩, -⟩
  · rw [hread, hwhole]
  · have hfound := findHeadEnd_lasting _ more _ visit.asked.wire_found.1
    rw [hsent, hstop] at hfound
    cases hfound
    have hshort := visit.short
    omega

theorem readRequest_cut (visit : Visit) (h : visit.arrived = false) (request : Request) :
    readRequest visit.conn ≠ some (.ok request) := by
  have hnot : ¬ visit.asked.wire <+: visit.conn.sent := by
    intro hpre
    rw [Visit.arrived, List.isPrefixOf_iff_prefix.mpr hpre] at h
    cases h
  obtain ⟨rest, hcut⟩ := visit.carried.resolve_left hnot
  have hrest : rest ≠ [] := by
    rintro rfl
    rw [List.append_nil] at hcut
    exact hnot (by rw [hcut])
  rcases readRequest_whole visit.conn with hread | ⟨-, hread⟩
  · rw [hread]
    exact whole_cut visit.asked visit.conn.ending hrest hcut request
  · rw [hread]
    simp

theorem serveOne_arrived (visit : Visit) (h : visit.arrived = true) (s : Ceremony × State) :
    serveOne (site.answer visit.ctx) visit.conn s =
      ((site.answer visit.ctx visit.asked.request s).1.encode,
        (site.answer visit.ctx visit.asked.request s).2) := by
  rw [serveOne, readRequest_arrived visit h]

theorem serveOne_cut (visit : Visit) (h : visit.arrived = false) (s : Ceremony × State) :
    (serveOne (site.answer visit.ctx) visit.conn s).2 = s := by
  rw [serveOne]
  split
  · rfl
  · rfl
  · rename_i request hread
    exact absurd hread (readRequest_cut visit h request)

/-- The ceremony hears the requests that arrived, each as it was meant and in their order,
and nothing of those that were cut off. -/
theorem ceremony_hears_what_arrived (s : Ceremony × State) (visits : List Visit) :
    serve site s visits =
      (visits.filter Visit.arrived).foldl
        (fun s visit => (site.answer visit.ctx visit.asked.request s).2) s := by
  induction visits generalizing s with
  | nil => rfl
  | cons visit rest ih =>
    rw [serve, List.foldl_cons, ← serve, ih]
    by_cases h : visit.arrived = true
    · rw [List.filter_cons_of_pos h, List.foldl_cons, serveOne_arrived site visit h]
    · rw [List.filter_cons_of_neg h, serveOne_cut site visit (by simpa using h)]

end Serving

namespace Posted

/-- What a browser asks for first, with no length. -/
def page : Asked where
  method := "GET".toList
  target := "/?".toList
  headers := [("Host".toList, " localhost:7777".toList)]
  body := []
  method_plain := spaceless_of_all (by decide)
  target_plain := spaceless_of_all (by decide)
  headers_plain := by decide
  body_declared := by decide
  body_small := by decide

/-- The answer of a passkey, with the length before the origin. -/
def finish : Asked where
  method := "POST".toList
  target := "/unlock/finish".toList
  headers := [("Host".toList, " localhost:7777".toList), ("content-length".toList, " 2 ".toList),
    ("Origin".toList, "http://localhost:7777".toList)]
  body := [123, 125]
  method_plain := spaceless_of_all (by decide)
  target_plain := spaceless_of_all (by decide)
  headers_plain := by decide
  body_declared := by decide
  body_small := by decide

def within (ending : Ending) (b : Bytes) : Connection :=
  ⟨singly b, ending, fun _ => singly_within⟩

def ctx : CeremonyCtx := HandedOver.ctx.startedAt HandedOver.uptime

def asked (asked : Asked) (short : asked.head.length + 3 ≤ maxHead) : Visit :=
  ⟨asked, within .closed asked.wire, ctx, short,
    Or.inl (by
      unfold within Connection.sent
      rw [singly_flatten])⟩

/-- The same answer, cut off before its last byte. -/
def cut (short : finish.head.length + 3 ≤ maxHead) : Visit :=
  ⟨finish, within .closed finish.wire.dropLast, ctx, short,
    Or.inr (by
      unfold within Connection.sent
      rw [singly_flatten]
      exact List.dropLast_prefix _)⟩

def site : Site where
  crypto := plainCrypto
  web := HandedOver.web
  reader := ⟨fun _ => .unreadable, fun b => if b = [123, 125] then HandedOver.body else .unreadable⟩
  render
    | .unlocked _ => Response.text 200 "unlocked"
    | _ => Response.text 403 "refused"

def ceremony : Ceremony :=
  { HandedOver.ceremony with rp := ⟨"localhost", ["http://localhost:7777"]⟩ }

theorem asked_arrived (asked : Asked) (short : asked.head.length + 3 ≤ maxHead) :
    (Posted.asked asked short).arrived = true :=
  List.isPrefixOf_iff_prefix.mpr (by
    unfold Posted.asked within Connection.sent
    rw [singly_flatten])

theorem cut_arrived (short : finish.head.length + 3 ≤ maxHead) : (cut short).arrived = false := by
  by_contra harrived
  have hprefix := List.isPrefixOf_iff_prefix.mp (Bool.not_eq_false _ ▸ harrived)
  unfold cut within Connection.sent at hprefix
  rw [singly_flatten] at hprefix
  have hlength : finish.wire.length ≤ finish.wire.dropLast.length := hprefix.length_le
  have hwire := congrArg List.length finish.wire_found.2
  rw [List.length_append, List.length_append] at hwire
  have hend : headEnd.length = 4 := rfl
  rw [List.length_dropLast] at hlength
  omega

theorem page_short : page.head.length + 3 ≤ maxHead := by
  rw [Asked.head, lineBytes_eq]
  decide

theorem finish_short : finish.head.length + 3 ≤ maxHead := by
  rw [Asked.head, lineBytes_eq]
  decide

/-- The page is asked for, an answer is cut off, and the next one unlocks the vault. -/
theorem unlock_heard :
    serve site (ceremony, HandedOver.state)
        [asked page page_short, cut finish_short, asked finish finish_short] =
      (site.answer ctx ⟨"POST", "/unlock/finish", [123, 125], some "http://localhost:7777"⟩
        (site.answer ctx ⟨"GET", "/", [], none⟩ (ceremony, HandedOver.state)).2).2 ∧
      (serve site (ceremony, HandedOver.state)
        [asked page page_short, cut finish_short, asked finish finish_short]).2.openVault.isSome =
          true := by
  have hpage : page.request = ⟨"GET", "/", [], none⟩ := by decide
  have hfinish : finish.request =
      ⟨"POST", "/unlock/finish", [123, 125], some "http://localhost:7777"⟩ := by decide
  have hheard : serve site (ceremony, HandedOver.state)
      [asked page page_short, cut finish_short, asked finish finish_short] =
        (site.answer ctx finish.request
          (site.answer ctx page.request (ceremony, HandedOver.state)).2).2 := by
    rw [ceremony_hears_what_arrived site, List.filter_cons_of_pos (asked_arrived page page_short),
      List.filter_cons_of_neg (by rw [cut_arrived]; decide),
      List.filter_cons_of_pos (asked_arrived finish finish_short), List.filter_nil]
    rfl
  rw [hpage, hfinish] at hheard
  exact ⟨hheard, by rw [hheard]; decide⟩

/-- A request with a header of any length. -/
def padded (n : ℕ) : Asked where
  method := "GET".toList
  target := "/".toList
  headers := [("X".toList, List.replicate n 'A')]
  body := []
  method_plain := spaceless_of_all (by decide)
  target_plain := spaceless_of_all (by decide)
  headers_plain h hmem := by
    have hname : ':' ∉ "X".toList ∧ '\r' ∉ "X".toList := by decide
    rw [List.mem_singleton.mp hmem]
    refine ⟨hname.1, hname.2, fun hbreak => ?_⟩
    exact absurd (List.eq_of_mem_replicate hbreak) (by decide)
  body_declared := by
    have hname : Otp.lowercase (trim "X".toList) ≠ "content-length" := by decide
    unfold declared named
    rw [List.filter_cons_of_neg (by simpa using hname)]
    rfl
  body_small := by decide

theorem padded_head (n : ℕ) : (padded n).head.length = 18 + n := by
  have hpad : (StrictText.encode (List.replicate n 'A')).length = n := by
    induction n with
    | zero => rfl
    | succ n ih =>
      rw [List.replicate_succ, StrictText.encode, List.flatMap_cons, List.length_append,
        ← StrictText.encode, ih]
      exact Nat.add_comm 1 n
  have hlines : joined (padded n).lines =
      ((padded n).requestLine ++ ['\r', '\n', 'X', ':']) ++ List.replicate n 'A' := by
    simp [joined, List.intercalate, Asked.lines, headerLine, padded]
  have hfirst : (StrictText.encode ((padded n).requestLine ++ ['\r', '\n', 'X', ':'])).length = 18 :=
    rfl
  rw [Asked.head, lineBytes_eq, hlines, StrictText.encode, List.flatMap_append,
    List.length_append]
  exact congrArg₂ (· + ·) hfirst hpad

/-- A request whose header block ends above the limit is served or refused, as its
bytes arrive. -/
theorem padded_either_way :
    (∃ conn : Connection, conn.sent = (padded 8172).wire ∧ conn.ending = .closed ∧
      readRequest conn = some (.ok (padded 8172).request)) ∧
    ∃ conn : Connection, conn.sent = (padded 8172).wire ∧ conn.ending = .closed ∧
      readRequest conn = some (.error headTooLarge) := by
  have hlength := padded_head 8172
  have hedge : OnTheEdge (padded 8172).wire := by
    refine ⟨_, (padded 8172).wire_found.1, ?_⟩
    rw [hlength]
    decide
  have hwhole := whole_wire (padded 8172) .closed [] (by rw [hlength]; decide)
  rw [List.append_nil] at hwhole
  obtain ⟨-, hread, hrefused⟩ := (reading_of_pieces (padded 8172).wire .closed).2 hedge
  rw [hwhole] at hread
  exact ⟨hread, hrefused⟩

end Posted

end CeremonyHttp

end Daemon

end CacheWarden
