import CacheWarden.Daemon.Ceremony
import CacheWarden.Daemon.OneTimeCodes
import CacheWarden.Lib.Gathering
import CacheWarden.Lib.StrictText
import CacheWarden.References

/-!
# The requests of the ceremony page

The page is served over a small HTTP: a request line, a header block and a body of a declared
length. A connection carries one request, in pieces of any size, and the limits are checked
between one piece and the next.
-/

set_option autoImplicit false

namespace CacheWarden

namespace Daemon

namespace CeremonyHttp

open Gathering

open Refs (textBytes)

/-- Longest request line plus header block accepted. -/
def maxHead : ℕ := 8 * 1024

/-- Largest body accepted. -/
def maxBody : ℕ := 64 * 1024

/-- The most that one read takes. -/
def chunkSize : ℕ := 1024

structure Request where
  method : String
  path : String
  body : Bytes
  origin : Option String
  deriving DecidableEq

structure Response where
  status : ℕ
  contentType : String
  body : Bytes
  extraHeaders : List String
  deriving DecidableEq

namespace Response

def text (status : ℕ) (message : String) : Response :=
  ⟨status, "text/plain; charset=utf-8", textBytes message, []⟩

def reason (self : Response) : String :=
  match self.status with
  | 200 => "OK"
  | 400 => "Bad Request"
  | 403 => "Forbidden"
  | 404 => "Not Found"
  | 405 => "Method Not Allowed"
  | 408 => "Request Timeout"
  | 413 => "Payload Too Large"
  | 429 => "Too Many Requests"
  | 500 => "Internal Server Error"
  | _ => "Error"

/-- The lines of the head, each of which `encode` ends with a line break. -/
def headLines (self : Response) : List String :=
  ["HTTP/1.1 " ++ toString self.status ++ " " ++ self.reason,
    "Content-Type: " ++ self.contentType,
    "Content-Length: " ++ toString self.body.length,
    "Cache-Control: no-store", "Pragma: no-cache", "X-Content-Type-Options: nosniff",
    "Referrer-Policy: no-referrer", "Connection: close"] ++ self.extraHeaders

def encode (self : Response) : Bytes :=
  (self.headLines.flatMap fun line => textBytes line ++ [13, 10]) ++ [13, 10] ++ self.body

end Response

def headEnd : Bytes := [13, 10, 13, 10]

/-- Offset of the blank line that ends the header block. -/
def findHeadEnd : Bytes → Option ℕ
  | [] => none
  | b :: rest =>
    if headEnd.isPrefixOf (b :: rest) then some 0 else (findHeadEnd rest).map (· + 1)

def headFull (held : Bytes) : Bool := maxHead < held.length

/-- `str::split` at line breaks. -/
def splitCrlf : List Char → List (List Char)
  | [] => [[]]
  | '\r' :: '\n' :: rest => [] :: splitCrlf rest
  | c :: rest =>
    match splitCrlf rest with
    | [] => [[c]]
    | line :: lines => (c :: line) :: lines

/-- `str::split_once` at a colon. -/
def splitOnceColon : List Char → Option (List Char × List Char)
  | [] => none
  | c :: rest =>
    if c = ':' then some ([], rest)
    else (splitOnceColon rest).map fun p => (c :: p.1, p.2)

def addHeader (headers : KeyMap String) (line : List Char) : KeyMap String :=
  match splitOnceColon line with
  | none => headers
  | some (name, value) =>
    headers.insert (Otp.lowercase (trim name)) (String.ofList (trim value))

structure Head where
  method : String
  path : String
  headers : KeyMap String

/-- The request line and the headers. A header that comes twice counts as it comes last. -/
def parseHead (head : List Char) : Except Response Head :=
  match splitCrlf head with
  | [] => .error (Response.text 400 "no request line")
  | requestLine :: lines =>
    match requestLine.splitOn ' ' with
    | [] => .error (Response.text 400 "no method")
    | [_] => .error (Response.text 400 "no target")
    | method :: target :: _ =>
      .ok ⟨String.ofList method, String.ofList (target.takeWhile (· ≠ '?')),
        lines.foldl addHeader ∅⟩

def Head.contentLength (self : Head) : ℕ :=
  ((self.headers["content-length"]?.bind fun v => parseU64 v.toList).map UInt64.toNat).getD 0

/-- What is checked between the header block and the body. -/
def acceptHead (head : Bytes) : Except Response Head :=
  match StrictText.decode head with
  | none => .error (Response.text 400 "the request head is not text")
  | some text =>
    match parseHead text with
    | .error refusal => .error refusal
    | .ok head =>
      if maxBody < head.contentLength then
        .error (Response.text 413 "the request body is too large")
      else .ok head

/-- What comes after the last piece of a connection: its end, an error, or nothing before
the time for a request is up. -/
inductive Ending where
  | closed
  | failed
  | timedOut
  deriving DecidableEq

/-- A connection as the reads of it see it. -/
structure Connection where
  pieces : List Bytes
  ending : Ending
  sized : ∀ piece ∈ pieces, 0 < piece.length ∧ piece.length ≤ chunkSize

def Connection.sent (self : Connection) : Bytes := self.pieces.flatten

/-- The refusal that an ending gives, and none where the request just never comes. -/
def Ending.refusal (self : Ending) (closed failed : String) : Option (Except Response Request) :=
  match self with
  | .closed => some (.error (Response.text 400 closed))
  | .failed => some (.error (Response.text 400 failed))
  | .timedOut => none

def Ending.cutHead (self : Ending) : Option (Except Response Request) :=
  self.refusal "the connection closed mid-request" "the request could not be read"

def Ending.cutBody (self : Ending) : Option (Except Response Request) :=
  self.refusal "the body was shorter than declared" "the body could not be read"

def headTooLarge : Response := Response.text 413 "the request head is too large"

def enough (length : ℕ) (body : Bytes) : Option Unit :=
  if body.length < length then none else some ()

def Head.request (self : Head) (body : Bytes) : Request :=
  ⟨self.method, self.path, body.take self.contentLength, self.headers["origin"]?⟩

/-- Read and parse one request, or produce the response that refuses it. -/
def readRequest (conn : Connection) : Option (Except Response Request) :=
  match gather findHeadEnd headFull [] conn.pieces with
  | .tooMuch => some (.error headTooLarge)
  | .short => conn.ending.cutHead
  | .found stop buf rest =>
    match acceptHead (buf.take stop) with
    | .error refusal => some (.error refusal)
    | .ok head =>
      match gather (enough head.contentLength) (fun _ => false) (buf.drop (stop + 4)) rest with
      | .found _ body _ => some (.ok (head.request body))
      | _ => conn.ending.cutBody

/-- Read one request, hand it to `handle`, and write the response. -/
def serveOne {σ : Type} (handle : Request → σ → Response × σ) (conn : Connection) (s : σ) :
    Bytes × σ :=
  match readRequest conn with
  | none => ((Response.text 408 "the request did not arrive in time").encode, s)
  | some (.error refusal) => (refusal.encode, s)
  | some (.ok request) =>
    let answered := handle request s
    (answered.1.encode, answered.2)

section Reading

theorem findHeadEnd_cons (b : UInt8) (rest : Bytes) :
    findHeadEnd (b :: rest) =
      if headEnd <+: b :: rest then some 0 else (findHeadEnd rest).map (· + 1) := by
  rw [findHeadEnd]
  simp only [List.isPrefixOf_iff_prefix]

/-- The blank line is all there where it has been found. -/
theorem findHeadEnd_le {s : Bytes} : ∀ {stop : ℕ}, findHeadEnd s = some stop →
    stop + 4 ≤ s.length := by
  induction s with
  | nil => simp [findHeadEnd]
  | cons b rest ih =>
    intro stop h
    rw [findHeadEnd_cons] at h
    by_cases hpre : headEnd <+: b :: rest
    · rw [if_pos hpre] at h
      cases h
      exact hpre.length_le
    · rw [if_neg hpre, Option.map_eq_some_iff] at h
      obtain ⟨n, hn, hstop⟩ := h
      have := ih hn
      rw [List.length_cons]
      omega

theorem findHeadEnd_lasting : Lasting findHeadEnd := by
  intro s t
  induction s with
  | nil => simp [findHeadEnd]
  | cons b rest ih =>
    intro stop h
    rw [findHeadEnd_cons] at h
    rw [List.cons_append, findHeadEnd_cons]
    by_cases hpre : headEnd <+: b :: rest
    · rw [if_pos hpre] at h
      have hext : headEnd <+: b :: (rest ++ t) := hpre.trans (List.prefix_append (b :: rest) t)
      rw [if_pos hext, h]
    · have hfound := h
      rw [if_neg hpre, Option.map_eq_some_iff] at h
      obtain ⟨n, hn, hstop⟩ := h
      have hlong := findHeadEnd_le hn
      have hnot : ¬ headEnd <+: b :: (rest ++ t) := fun hext =>
        hpre (List.prefix_of_prefix_length_le hext (List.prefix_append (b :: rest) t)
          (by rw [List.length_cons]; show 4 ≤ _; omega))
      rw [if_neg hnot, ih n hn, Option.map_some, hstop]

/-- The blank line is found as soon as it is there. -/
theorem findHeadEnd_of_append {s t : Bytes} : ∀ {stop : ℕ},
    findHeadEnd (s ++ t) = some stop → stop + 4 ≤ s.length → findHeadEnd s = some stop := by
  intro stop h hlong
  cases hs : findHeadEnd s with
  | some stop' => rw [← h, findHeadEnd_lasting s t stop' hs]
  | none =>
    exfalso
    induction s generalizing stop with
    | nil => simp at hlong
    | cons b rest ih =>
      rw [List.cons_append, findHeadEnd_cons] at h
      rw [findHeadEnd_cons] at hs
      by_cases hpre : headEnd <+: b :: rest
      · rw [if_pos hpre] at hs
        cases hs
      · rw [if_neg hpre, Option.map_eq_none_iff] at hs
        by_cases hext : headEnd <+: b :: (rest ++ t)
        · rw [if_pos hext] at h
          cases h
          exact hpre (List.prefix_of_prefix_length_le hext (List.prefix_append (b :: rest) t)
            hlong)
        · rw [if_neg hext, Option.map_eq_some_iff] at h
          obtain ⟨n, hn, hstop⟩ := h
          rw [List.length_cons] at hlong
          exact ih hn (by omega) hs

theorem headFull_growing : Growing headFull := by
  intro s t h
  simp only [headFull, decide_eq_true_eq, List.length_append] at h ⊢
  omega

theorem enough_lasting (length : ℕ) : Lasting (enough length) := by
  intro s t a h
  by_cases hshort : s.length < length
  · simp [enough, hshort] at h
  · rw [enough, if_neg (by rw [List.length_append]; omega)]

theorem Head.request_append (self : Head) {s : Bytes} (t : Bytes)
    (h : self.contentLength ≤ s.length) : self.request (s ++ t) = self.request s := by
  simp only [Head.request, List.take_append_of_le_length h]

/-- The body is read whole or not at all, however it comes. -/
theorem gather_body (head : Head) (held : Bytes) (pieces : List Bytes) :
    (held ++ pieces.flatten).length < head.contentLength ∧
      gather (enough head.contentLength) (fun _ => false) held pieces = .short ∨
    head.contentLength ≤ (held ++ pieces.flatten).length ∧
      ∃ a body rest, gather (enough head.contentLength) (fun _ => false) held pieces =
          .found a body rest ∧
        head.request body = head.request (held ++ pieces.flatten) := by
  by_cases hshort : (held ++ pieces.flatten).length < head.contentLength
  · left
    refine ⟨hshort, ?_⟩
    have hopen : enough head.contentLength (held ++ pieces.flatten) = none := by
      simp only [enough, if_pos hshort]
    have hgather := gather_of_open (fun _ => false) (enough_lasting _)
      (fun _ _ h => h) pieces held hopen
    simpa using hgather
  · right
    have hask : enough head.contentLength (held ++ pieces.flatten) = some () := by
      simp only [enough, if_neg hshort]
    obtain ⟨body, rest, hgather, hall⟩ :=
      gather_of_answer (fun _ => false) (enough_lasting _) pieces held hask
        (fun _ _ _ => rfl)
    refine ⟨by omega, (), body, rest, hgather, ?_⟩
    have hbody : enough head.contentLength body = some () := (gather_found _ _ hgather).1
    rw [← hall, Head.request_append]
    by_cases hless : body.length < head.contentLength
    · simp [enough, hless] at hbody
    · omega

end Reading

section Whole

/-- What a request comes to by its bytes alone. -/
def whole (sent : Bytes) (ending : Ending) : Option (Except Response Request) :=
  match findHeadEnd sent with
  | none => if headFull sent then some (.error headTooLarge) else ending.cutHead
  | some stop =>
    if maxHead + chunkSize ≤ stop + 3 then some (.error headTooLarge)
    else
      match acceptHead (sent.take stop) with
      | .error refusal => some (.error refusal)
      | .ok head =>
        if (sent.drop (stop + 4)).length < head.contentLength then ending.cutBody
        else some (.ok (head.request (sent.drop (stop + 4))))

/-- A header block that ends just above the limit. -/
def OnTheEdge (sent : Bytes) : Prop :=
  ∃ stop, findHeadEnd sent = some stop ∧ maxHead < stop + 3 ∧ stop + 3 < maxHead + chunkSize

variable (conn : Connection)

/-- What follows once the header block has been found. -/
theorem readRequest_found {stop : ℕ} {buf : Bytes} {rest : List Bytes}
    (h : gather findHeadEnd headFull [] conn.pieces = .found stop buf rest)
    (hsmall : stop + 3 < maxHead + chunkSize) :
    readRequest conn = whole conn.sent conn.ending := by
  obtain ⟨hfound, hall⟩ := gather_found _ _ h
  rw [List.nil_append] at hall
  change buf ++ rest.flatten = conn.sent at hall
  have hlong := findHeadEnd_le hfound
  have hsent : findHeadEnd conn.sent = some stop := by
    rw [← hall]
    exact findHeadEnd_lasting _ _ _ hfound
  have htake : conn.sent.take stop = buf.take stop := by
    rw [← hall, List.take_append_of_le_length (by omega)]
  have hdrop : conn.sent.drop (stop + 4) = buf.drop (stop + 4) ++ rest.flatten := by
    rw [← hall, List.drop_append_of_le_length hlong]
  simp only [readRequest, whole, h, hsent, htake, hdrop, if_neg (Nat.not_le.mpr hsmall)]
  cases acceptHead (buf.take stop) with
  | error refusal => rfl
  | ok head =>
    rcases gather_body head (buf.drop (stop + 4)) rest with
      ⟨hshort, hgather⟩ | ⟨hlength, a, body, rest', hgather, hrequest⟩
    · simp only [hgather, if_pos hshort]
    · simp only [hgather, if_neg (Nat.not_lt.mpr hlength), hrequest]

theorem prefix_open {sent b : Bytes} {stop : ℕ} (h : findHeadEnd sent = some stop)
    (hb : b <+: sent) (hshort : b.length ≤ stop + 3) : findHeadEnd b = none := by
  obtain ⟨t, ht⟩ := hb
  cases hfound : findHeadEnd b with
  | none => rfl
  | some stop' =>
    rw [← ht, findHeadEnd_lasting b t stop' hfound] at h
    cases h
    have := findHeadEnd_le hfound
    omega

theorem prefix_found {sent b : Bytes} {stop : ℕ} (h : findHeadEnd sent = some stop)
    (hb : b <+: sent) (hopen : findHeadEnd b = none) : b.length ≤ stop + 3 := by
  obtain ⟨t, ht⟩ := hb
  by_contra hlong
  rw [← ht] at h
  rw [findHeadEnd_of_append h (by omega)] at hopen
  cases hopen

/-- How the bytes of a request are cut into pieces does not matter, but for a header block
that ends just above the limit: that one may also be refused. -/
theorem readRequest_whole :
    readRequest conn = whole conn.sent conn.ending ∨
      OnTheEdge conn.sent ∧ readRequest conn = some (.error headTooLarge) := by
  cases hsent : findHeadEnd conn.sent with
  | none =>
    left
    have hgather := gather_of_open headFull findHeadEnd_lasting headFull_growing
      conn.pieces [] hsent
    rw [List.nil_append] at hgather
    change _ = if headFull conn.sent then _ else _ at hgather
    by_cases hfull : headFull conn.sent = true <;>
      simp [readRequest, whole, hgather, hsent, hfull]
  | some stop =>
    by_cases hbig : maxHead + chunkSize ≤ stop + 3
    · left
      have hlong := findHeadEnd_le hsent
      have hover : gather findHeadEnd headFull [] conn.pieces = .tooMuch := by
        apply gather_over (n := maxHead) (m := chunkSize) (fun _ => rfl) conn.pieces
          (fun piece hpiece => (conn.sized piece hpiece).2) [] (Nat.zero_le _)
        · change maxHead < conn.sent.length
          omega
        · intro b hb hlen
          exact prefix_open hsent hb (by omega)
      simp [readRequest, whole, hover, hsent, hbig]
    · cases hgather : gather findHeadEnd headFull [] conn.pieces with
      | found stop' buf rest =>
        obtain ⟨hfound, hall⟩ := gather_found _ _ hgather
        change buf ++ rest.flatten = conn.sent at hall
        have hsame := findHeadEnd_lasting buf rest.flatten stop' hfound
        rw [hall, hsent] at hsame
        cases hsame
        exact Or.inl (readRequest_found conn hgather (by omega))
      | short =>
        have hopen := gather_short conn.pieces [] hgather
        rw [List.nil_append] at hopen
        change findHeadEnd conn.sent = none at hopen
        rw [hsent] at hopen
        cases hopen
      | tooMuch =>
        right
        refine ⟨⟨stop, hsent, ?_, by omega⟩, by simp [readRequest, hgather]⟩
        by_contra hsmall
        obtain ⟨b, rest, hfound, _⟩ := gather_of_answer headFull findHeadEnd_lasting
          conn.pieces [] hsent (fun b hb hopen => by
            have := prefix_found hsent hb hopen
            simp only [headFull, decide_eq_false_iff_not]
            omega)
        rw [hfound] at hgather
        cases hgather

/-- Bytes that come one at a time. -/
def singly (b : Bytes) : List Bytes := b.map fun x => [x]

theorem singly_flatten (b : Bytes) : (singly b).flatten = b := by
  induction b with
  | nil => rfl
  | cons x rest ih => rw [singly, List.map_cons, List.flatten_cons, ← singly, ih]; rfl

theorem singly_sized {b piece : Bytes} (h : piece ∈ singly b) : piece.length = 1 := by
  obtain ⟨x, -, hpiece⟩ := List.mem_map.mp h
  rw [← hpiece]
  rfl

theorem singly_within {b piece : Bytes} (h : piece ∈ singly b) :
    0 < piece.length ∧ piece.length ≤ chunkSize := by
  rw [singly_sized h]
  decide

/-- Just above the limit, a header block that comes byte by byte is refused. -/
theorem refused_on_the_edge {sent : Bytes} (ending : Ending) (h : OnTheEdge sent) :
    ∃ conn : Connection, conn.sent = sent ∧ conn.ending = ending ∧
      readRequest conn = some (.error headTooLarge) := by
  obtain ⟨stop, hsent, habove, -⟩ := h
  have hlong := findHeadEnd_le hsent
  refine ⟨⟨singly sent, ending, fun _ => singly_within⟩, singly_flatten sent, rfl, ?_⟩
  have hover : gather findHeadEnd headFull [] (singly sent) = .tooMuch := by
    apply gather_over (n := maxHead) (m := 1) (fun _ => rfl) (singly sent)
      (fun piece hpiece => (singly_sized hpiece).le) [] (Nat.zero_le _)
    · rw [List.nil_append, singly_flatten]
      omega
    · intro b hb hlen
      rw [List.nil_append, singly_flatten] at hb
      exact prefix_open hsent hb (by omega)
  simp [readRequest, hover]

/-- Just above the limit, a header block whose last piece steps over the limit is read. -/
theorem read_on_the_edge {sent : Bytes} (ending : Ending) (h : OnTheEdge sent) :
    ∃ conn : Connection, conn.sent = sent ∧ conn.ending = ending ∧
      readRequest conn = whole sent ending := by
  obtain ⟨stop, hsent, habove, hbelow⟩ := h
  have hlong := findHeadEnd_le hsent
  let last := (sent.drop maxHead).take (stop + 4 - maxHead)
  let conn : Connection :=
    ⟨singly (sent.take maxHead) ++ last :: singly (sent.drop (stop + 4)), ending, by
      intro piece hpiece
      rcases List.mem_append.mp hpiece with hpiece | hpiece
      · exact singly_within hpiece
      · rcases List.mem_cons.mp hpiece with hpiece | hpiece
        · rw [hpiece]
          simp only [last, List.length_take, List.length_drop]
          omega
        · exact singly_within hpiece⟩
  have htake : sent.take maxHead ++ last = sent.take (stop + 4) := by
    have hsum : stop + 4 = maxHead + (stop + 4 - maxHead) := by omega
    rw [hsum, List.take_add]
  have hconn : conn.sent = sent := by
    change (singly (sent.take maxHead) ++ last :: singly (sent.drop (stop + 4))).flatten = sent
    rw [List.flatten_append, List.flatten_cons, singly_flatten, singly_flatten,
      ← List.append_assoc, htake, List.take_append_drop]
  refine ⟨conn, hconn, rfl, ?_⟩
  have hgather : gather findHeadEnd headFull [] conn.pieces =
      .found stop (sent.take (stop + 4)) (singly (sent.drop (stop + 4))) := by
    change gather findHeadEnd headFull []
      (singly (sent.take maxHead) ++ last :: singly (sent.drop (stop + 4))) = _
    have hopen : ∀ b, b <+: [] ++ (singly (sent.take maxHead)).flatten →
        findHeadEnd b = none ∧ headFull b = false := by
      intro b hb
      rw [List.nil_append, singly_flatten] at hb
      have hlen : b.length ≤ maxHead := Nat.le_trans hb.length_le (List.length_take_le _ _)
      exact ⟨prefix_open hsent (hb.trans (List.take_prefix _ _)) (by omega),
        by simpa [headFull] using hlen⟩
    have hheld := hopen _ (List.prefix_refl _)
    rw [gather_append _ _ _ hopen, gather_more _ _ hheld.1 hheld.2, List.nil_append,
      singly_flatten, htake]
    apply gather_found_now
    apply findHeadEnd_of_append (t := sent.drop (stop + 4))
    · rw [List.take_append_drop, hsent]
    · rw [List.length_take]
      omega
  rw [← hconn]
  exact readRequest_found conn hgather hbelow

/-- A request comes to what its bytes are, in whatever pieces they arrive, where its header
block does not end just above the limit; and where it does, the pieces decide whether it is
read or refused. -/
theorem reading_of_pieces (sent : Bytes) (ending : Ending) :
    (¬ OnTheEdge sent → ∀ conn : Connection, conn.sent = sent → conn.ending = ending →
      readRequest conn = whole sent ending) ∧
    (OnTheEdge sent →
      (∀ conn : Connection, conn.sent = sent → conn.ending = ending →
        readRequest conn = whole sent ending ∨ readRequest conn = some (.error headTooLarge)) ∧
      (∃ conn : Connection, conn.sent = sent ∧ conn.ending = ending ∧
        readRequest conn = whole sent ending) ∧
      ∃ conn : Connection, conn.sent = sent ∧ conn.ending = ending ∧
        readRequest conn = some (.error headTooLarge)) := by
  constructor
  · intro hoff conn hsent hending
    have hwhole := readRequest_whole conn
    rw [hsent, hending] at hwhole
    exact hwhole.resolve_right fun h => hoff h.1
  · intro hon
    refine ⟨fun conn hsent hending => ?_, read_on_the_edge ending hon,
      refused_on_the_edge ending hon⟩
    have hwhole := readRequest_whole conn
    rw [hsent, hending] at hwhole
    exact hwhole.imp_right And.right

end Whole

end CeremonyHttp

end Daemon

end CacheWarden
