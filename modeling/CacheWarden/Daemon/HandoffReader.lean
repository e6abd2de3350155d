import CacheWarden.Daemon.HandoffStream

/-!
# The receiver of a hand-over, read by read

The new process asks for the bytes of one `read_exact` at a time and gets them in any
pieces. What it asks for next is decided by what it has. On the bytes that `prepare`
built it never asks for more than there is, and it ends with the snapshot and the key
that were put in.
-/

set_option autoImplicit false

namespace CacheWarden

namespace Daemon

namespace HandoffReader

open StoreSnapshot

/-- The read the receiver is in: the header, the length of a frame or its payload with
so many frames to come, or the data key behind the snapshot. -/
inductive ReadStage where
  | header
  | length (left : ℕ)
  | payload (left : ℕ)
  | key (snapshot : StoreSnapshot)
  deriving DecidableEq

inductive Reading where
  | wants (stage : ReadStage) (buf : Bytes) (missing : ℕ)
  | read (snapshot : StoreSnapshot) (dek : Option Bytes)
  | failed
  deriving DecidableEq

/-- What comes behind the loop over the frames. -/
def afterFrames (serde : Serde) (buf : Bytes) : Reading :=
  match fromBytes serde buf with
  | .error _ => .failed
  | .ok snapshot =>
    if snapshot.declaresDekFrame then .wants (.key snapshot) buf dekFrameLen
    else .read snapshot none

/-- The head of the loop over the frames. -/
def framesLeft (serde : Serde) : ℕ → Bytes → Reading
  | 0, buf => afterFrames serde buf
  | left + 1, buf => .wants (.length left) buf 4

/-- A read that has all its bytes gives way to the next. -/
def advance (serde : Serde) : ReadStage → Bytes → Reading
  | .header, buf => framesLeft serde (Wire.ofBe ((buf.drop 12).take 4)) buf
  | .length left, buf => .wants (.payload left) buf (Wire.ofBe (buf.drop (buf.length - 4)))
  | .payload left, buf => framesLeft serde left buf
  | .key snapshot, buf => .read snapshot (readDekFrame buf)

def frame (payload : Bytes) : Bytes := Wire.beBytes 4 payload.length ++ payload

def handoffHeader (snapshot : StoreSnapshot) : Bytes :=
  snapshotMagic ++ Wire.beBytes 4 snapshot.formatVersion ++
    Wire.beBytes 4 snapshot.entries.length

/-- What the bytes are when the payloads are these. -/
def handoffBytes (snapshot : StoreSnapshot) (payloads : List Bytes) : Option Bytes → Bytes
  | none => handoffHeader snapshot ++ payloads.flatMap frame
  | some key => appendDekFrame (handoffHeader snapshot ++ payloads.flatMap frame) key

/-- The bytes of a hand-over, taken apart. -/
structure Laid (serde : Serde) (snapshot : StoreSnapshot) (dek : Option Bytes)
    (payloads : List Bytes) (bytes : Bytes) : Prop where
  count : payloads.length = snapshot.entries.length
  few : payloads.length < 2 ^ 32
  small : ∀ p ∈ payloads, p.length < 2 ^ 32
  declared : snapshot.declaresDekFrame = dek.isSome
  readable : fromBytes serde (handoffHeader snapshot ++ payloads.flatMap frame) = .ok snapshot
  layout : bytes = handoffBytes snapshot payloads dek
  sized : ∀ key, dek = some key → key.length = 32

/-- Where the read of a stage ends in the bytes. -/
inductive Ends (snapshot : StoreSnapshot) (dek : Option Bytes) (payloads : List Bytes)
    (bytes : Bytes) : ReadStage → ℕ → Prop
  | header : Ends snapshot dek payloads bytes .header 16
  | length (pre : List Bytes) (p : Bytes) (post : List Bytes) (h : payloads = pre ++ p :: post) :
      Ends snapshot dek payloads bytes (.length post.length) (16 + (pre.flatMap frame).length + 4)
  | payload (pre : List Bytes) (p : Bytes) (post : List Bytes) (h : payloads = pre ++ p :: post) :
      Ends snapshot dek payloads bytes (.payload post.length)
        (16 + (pre.flatMap frame).length + (frame p).length)
  | key (h : dek.isSome = true) : Ends snapshot dek payloads bytes (.key snapshot) bytes.length

/-- What the receiver of these bytes may be at, with `buf` of them in hand. -/
def Reads (snapshot : StoreSnapshot) (dek : Option Bytes) (payloads : List Bytes)
    (bytes buf : Bytes) : Reading → Prop
  | .wants stage held missing =>
    held = buf ∧ Ends snapshot dek payloads bytes stage (buf.length + missing)
  | .read found key => found = snapshot ∧ key = dek ∧ buf = bytes
  | .failed => False

section Laid

variable {serde : Serde} {snapshot : StoreSnapshot} {dek : Option Bytes}
  {payloads : List Bytes} {bytes buf : Bytes}

@[simp] theorem length_handoffHeader : (handoffHeader snapshot).length = 16 := by
  have hmagic : snapshotMagic.length = 8 := rfl
  simp [handoffHeader, hmagic]

theorem eq_of_isPrefix {head rest : Bytes} (h : buf <+: head ++ rest)
    (hlength : buf.length = head.length) : buf = head := by
  obtain ⟨tail, htail⟩ := h
  exact List.append_inj_left htail hlength

theorem Laid.split (h : Laid serde snapshot dek payloads bytes) :
    ∃ tail, bytes = handoffHeader snapshot ++ payloads.flatMap frame ++ tail ∧
      (dek = none → tail = []) := by
  have hlayout := h.layout
  cases dek with
  | none => exact ⟨[], by rw [List.append_nil]; exact hlayout, fun _ => rfl⟩
  | some key => exact ⟨_, hlayout, fun hnone => by cases hnone⟩

theorem Laid.length_le (h : Laid serde snapshot dek payloads bytes) :
    16 + (payloads.flatMap frame).length ≤ bytes.length := by
  obtain ⟨tail, hbytes, -⟩ := h.split
  rw [hbytes]
  simp

theorem Ends.le {stage : ReadStage} {stop : ℕ} (h : Laid serde snapshot dek payloads bytes)
    (hends : Ends snapshot dek payloads bytes stage stop) : stop ≤ bytes.length := by
  have hle := h.length_le
  induction hends with
  | header => omega
  | length pre p post hsplit =>
    rw [hsplit] at hle
    simp [frame] at hle ⊢
    omega
  | payload pre p post hsplit =>
    rw [hsplit] at hle
    simp [frame] at hle ⊢
    omega
  | key => exact le_rfl

/-- Behind the last frame the whole snapshot is in hand. -/
theorem afterFrames_reads (h : Laid serde snapshot dek payloads bytes) (hpre : buf <+: bytes)
    (hlength : buf.length = 16 + (payloads.flatMap frame).length) :
    Reads snapshot dek payloads bytes buf (afterFrames serde buf) := by
  obtain ⟨tail, hbytes, hnone⟩ := h.split
  rw [hbytes] at hpre
  have hbuf := eq_of_isPrefix hpre (by simp [hlength])
  have hread := h.readable
  rw [← hbuf] at hread
  unfold afterFrames
  simp only [hread, h.declared]
  cases hdek : dek with
  | none =>
    simp only [Option.isSome_none, Bool.false_eq_true, if_false]
    refine ⟨rfl, rfl, ?_⟩
    rw [hbytes, hnone hdek, List.append_nil]
    exact hbuf
  | some key =>
    simp only [Option.isSome_some, if_true]
    have hstop : bytes.length = buf.length + dekFrameLen := by
      have hlayout : bytes = appendDekFrame buf key := by
        rw [h.layout, hdek, hbuf]
        rfl
      have hkey := h.sized key hdek
      have hmagic : dekFrameMagic.length = 8 := rfl
      have hframe : dekFrameLen = 44 := rfl
      simp [hlayout, appendDekFrame, hkey, hmagic, hframe]
    refine ⟨rfl, ?_⟩
    rw [← hstop]
    exact Ends.key rfl

theorem framesLeft_reads (h : Laid serde snapshot dek payloads bytes) (hpre : buf <+: bytes)
    {pre post : List Bytes} (hsplit : payloads = pre ++ post)
    (hlength : buf.length = 16 + (pre.flatMap frame).length) :
    Reads snapshot dek payloads bytes buf (framesLeft serde post.length buf) := by
  cases post with
  | nil =>
    rw [List.append_nil] at hsplit
    rw [← hsplit] at hlength
    exact afterFrames_reads h hpre hlength
  | cons p post =>
    refine ⟨rfl, ?_⟩
    rw [hlength]
    exact Ends.length pre p post hsplit

/-- The header counts the payloads. -/
theorem headerCount (h : Laid serde snapshot dek payloads bytes) (hpre : buf <+: bytes)
    (hlength : buf.length = 16) : Wire.ofBe ((buf.drop 12).take 4) = payloads.length := by
  obtain ⟨tail, hbytes, -⟩ := h.split
  rw [hbytes, List.append_assoc] at hpre
  have hbuf := eq_of_isPrefix hpre (by simp [hlength])
  have hmagic : snapshotMagic.length = 8 := rfl
  rw [hbuf, handoffHeader, List.drop_append_of_le_length (by simp [hmagic]),
    List.drop_of_length_le (by simp [hmagic]), List.nil_append,
    List.take_of_length_le (by simp), ← h.count]
  exact Wire.ofBe_beBytes_of_lt h.few

theorem advance_header (h : Laid serde snapshot dek payloads bytes) (hpre : buf <+: bytes)
    (hlength : buf.length = 16) :
    Reads snapshot dek payloads bytes buf (advance serde .header buf) := by
  have hcount := headerCount h hpre hlength
  have hnext : advance serde .header buf = framesLeft serde payloads.length buf := by
    rw [← hcount]
    rfl
  rw [hnext]
  exact framesLeft_reads h hpre (List.nil_append payloads).symm (by simp [hlength])

theorem advance_length (h : Laid serde snapshot dek payloads bytes) (hpre : buf <+: bytes)
    {pre post : List Bytes} {p : Bytes} (hsplit : payloads = pre ++ p :: post)
    (hlength : buf.length = 16 + (pre.flatMap frame).length + 4) :
    Reads snapshot dek payloads bytes buf (advance serde (.length post.length) buf) := by
  obtain ⟨tail, hbytes, -⟩ := h.split
  have hsmall : p.length < 2 ^ 32 := h.small p (by simp [hsplit])
  have hshape : bytes = (handoffHeader snapshot ++ pre.flatMap frame ++
      Wire.beBytes 4 p.length) ++ (p ++ post.flatMap frame ++ tail) := by
    rw [hbytes, hsplit]
    simp [frame]
  have hbuf := eq_of_isPrefix (hshape ▸ hpre) (by simp [hlength, Nat.add_assoc])
  have hdeclared : Wire.ofBe (buf.drop (buf.length - 4)) = p.length := by
    rw [hbuf, List.length_append, Wire.length_beBytes, Nat.add_sub_cancel, List.drop_left]
    exact Wire.ofBe_beBytes_of_lt hsmall
  have hnext : advance serde (.length post.length) buf =
      .wants (.payload post.length) buf p.length := by
    rw [← hdeclared]
    rfl
  rw [hnext]
  refine ⟨rfl, ?_⟩
  have hstop : buf.length + p.length = 16 + (pre.flatMap frame).length + (frame p).length := by
    rw [hlength]
    simp [frame]
    omega
  rw [hstop]
  exact Ends.payload pre p post hsplit

theorem advance_payload (h : Laid serde snapshot dek payloads bytes) (hpre : buf <+: bytes)
    {pre post : List Bytes} {p : Bytes} (hsplit : payloads = pre ++ p :: post)
    (hlength : buf.length = 16 + (pre.flatMap frame).length + (frame p).length) :
    Reads snapshot dek payloads bytes buf (advance serde (.payload post.length) buf) := by
  have hsplit' : payloads = (pre ++ [p]) ++ post := by simpa using hsplit
  exact framesLeft_reads h hpre hsplit' (by simp [hlength, Nat.add_assoc])

theorem advance_key (h : Laid serde snapshot dek payloads bytes) (hpre : buf <+: bytes)
    (hsome : dek.isSome = true) (hlength : buf.length = bytes.length) :
    Reads snapshot dek payloads bytes buf (advance serde (.key snapshot) buf) := by
  have hbuf : buf = bytes := hpre.eq_of_length hlength
  obtain ⟨key, hdek⟩ := Option.isSome_iff_exists.mp hsome
  have hlayout := h.layout
  rw [hdek] at hlayout
  refine ⟨rfl, ?_, hbuf⟩
  rw [hbuf, hlayout, handoffBytes, readDekFrame_append _ (h.sized key hdek), hdek]

/-- A read that is over leaves the receiver at the next one, or with what was sent. -/
theorem advance_reads (h : Laid serde snapshot dek payloads bytes) (hpre : buf <+: bytes)
    (stage : ReadStage) (hends : Ends snapshot dek payloads bytes stage buf.length) :
    Reads snapshot dek payloads bytes buf (advance serde stage buf) := by
  generalize hstop : buf.length = stop at hends
  induction hends with
  | header => exact advance_header h hpre hstop
  | length pre p post hsplit => exact advance_length h hpre hsplit hstop
  | payload pre p post hsplit => exact advance_payload h hpre hsplit hstop
  | key hsome => exact advance_key h hpre hsome hstop

end Laid

/-- How many reads are still to be ended. -/
def ReadStage.work (frames : ℕ) : ReadStage → ℕ
  | .header => 2 * frames + 2
  | .length left => 2 * left + 3
  | .payload left => 2 * left + 2
  | .key _ => 1

def Reading.work (frames : ℕ) : Reading → ℕ
  | .wants stage _ _ => stage.work frames
  | _ => 0

theorem afterFrames_work (serde : Serde) (frames : ℕ) (buf : Bytes) :
    (afterFrames serde buf).work frames ≤ 1 := by
  unfold afterFrames
  cases fromBytes serde buf with
  | error e => simp [Reading.work]
  | ok snapshot => by_cases hdeclares : snapshot.declaresDekFrame <;>
      simp [Reading.work, ReadStage.work, hdeclares]

theorem framesLeft_work (serde : Serde) (frames left : ℕ) (buf : Bytes) :
    (framesLeft serde left buf).work frames < 2 * left + 2 := by
  cases left with
  | zero =>
    have hafter := afterFrames_work serde frames buf
    simp only [framesLeft]
    omega
  | succ left =>
    simp [framesLeft, Reading.work, ReadStage.work]
    omega

theorem advance_work {serde : Serde} {snapshot : StoreSnapshot} {dek : Option Bytes}
    {payloads : List Bytes} {bytes buf : Bytes} (h : Laid serde snapshot dek payloads bytes)
    (hpre : buf <+: bytes) (stage : ReadStage)
    (hends : Ends snapshot dek payloads bytes stage buf.length) :
    (advance serde stage buf).work payloads.length < stage.work payloads.length := by
  cases stage with
  | header =>
    have hlength : buf.length = 16 := by
      generalize hstop : buf.length = stop at hends
      cases hends
      rfl
    have hnext := framesLeft_work serde payloads.length payloads.length buf
    simpa [advance, headerCount h hpre hlength, ReadStage.work] using hnext
  | length left =>
    simp [advance, Reading.work, ReadStage.work]
  | payload left => exact framesLeft_work serde payloads.length left buf
  | key found => simp [advance, Reading.work, ReadStage.work]

section Prepare

variable {serde : Serde} {entries : List SnapshotEntry} {dek : Option Bytes} {bytes : Bytes}

theorem laid_toBytes (dek : Option Bytes) (snapshot : StoreSnapshot)
    (hserde : serde.Lossless snapshot.entries)
    (hversion : versionIsSupported snapshot.formatVersion = true)
    (hdeclares : snapshot.declaresDekFrame = dek.isSome)
    (hdek : ∀ key, dek = some key → key.length = 32) {body : Bytes}
    (hbody : snapshot.toBytes serde = .ok body)
    (hbytes : bytes = dek.elim body (appendDekFrame body)) :
    ∃ payloads, Laid serde snapshot dek payloads bytes := by
  obtain ⟨payloads, hcount, hfew, hsplit, hall⟩ := toBytes_payloads hbody
  have hlayout : body = handoffHeader snapshot ++ payloads.flatMap frame := hsplit
  refine ⟨payloads, ⟨hcount, hcount ▸ hfew, fun p hp => (hall p hp).1, hdeclares, ?_, ?_, hdek⟩⟩
  · rw [← hlayout]
    exact fromBytes_toBytes hserde hversion hbody
  · rw [hbytes, hlayout]
    cases dek <;> rfl

/-- What `prepare` builds is laid out for the receiver. -/
theorem laid_prepare (hserde : serde.Lossless entries)
    (hdek : ∀ key, dek = some key → key.length = 32)
    (hprepare : prepare serde (fromEntries entries) dek = .ok bytes) :
    ∃ snapshot payloads, snapshot.entries = entries ∧
      versionIsSupported snapshot.formatVersion = true ∧
      Laid serde snapshot dek payloads bytes := by
  unfold prepare at hprepare
  cases dek with
  | none =>
    simp only [Option.isSome_none, Bool.false_eq_true, if_false] at hprepare
    split at hprepare
    · cases hprepare
    rename_i body hbody
    cases hprepare
    obtain ⟨payloads, hlaid⟩ := laid_toBytes none _ hserde
      (Store.supported_fromEntries entries) (declares_fromEntries entries) hdek hbody rfl
    exact ⟨_, payloads, rfl, Store.supported_fromEntries entries, hlaid⟩
  | some key =>
    simp only [Option.isSome_some, if_true] at hprepare
    split at hprepare
    · cases hprepare
    rename_i body hbody
    cases hprepare
    obtain ⟨payloads, hlaid⟩ := laid_toBytes (some key) (fromEntries entries).declareDekFrame
      hserde rfl rfl hdek hbody rfl
    exact ⟨_, payloads, rfl, rfl, hlaid⟩

end Prepare

end HandoffReader

end Daemon

end CacheWarden
