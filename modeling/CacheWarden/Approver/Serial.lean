import CacheWarden.Approver.Attribution

/-!
# One dialog at a time, one answer each

The reader takes no further request until the dialog it waits for has been answered, and of
all the callbacks of a dialog the first answers. So the answers go out in the order of the
requests.
-/

set_option autoImplicit false

namespace CacheWarden

namespace Approver

open CutLines Transition

/-- The answer of a dialog that has gone out. -/
def Dialog.answer (self : Dialog) : Option ApproveResponse :=
  match self.slot with
  | .written finalizer => some (respond self.req finalizer)
  | .signalled finalizer => some (respond self.req finalizer)
  | _ => none

def HelperResponse.approval : HelperResponse → Option ApproveResponse
  | .approve resp => some resp
  | .fdaPrompt _ => none

def Dialog.settled (self : Dialog) : Prop := ∃ f, self.slot = .signalled f

/-- What holds of the helper at any moment. -/
structure Serial (h : Helper) : Prop where
  order : ∀ d dialog, h.dialogs[d]? = some dialog → dialog.settled ∨ h.reader = .waiting d
  last : ∀ d, h.reader = .waiting d → d + 1 = h.dialogs.length
  writer : ∀ d resp rest, h.writer = some (.dialog d, resp, rest) →
    ∃ dialog f, h.dialogs[d]? = some dialog ∧ dialog.slot = .taken f ∧
      resp = .approve (respond dialog.req f)
  explains : ∀ resp rest, h.writer = some (.explainer, resp, rest) → resp.approval = none

/-- The answers on the wire are those of the dialogs. -/
def Told (h : Helper) : Prop :=
  h.said.filterMap HelperResponse.approval = h.dialogs.filterMap Dialog.answer

variable {h h' : Helper} {env : Env} {s : System} {e : Event}

theorem serial_start : Serial Helper.start where
  order d dialog hget := by simp [Helper.start] at hget
  last d hreader := by simp [Helper.start] at hreader
  writer d resp rest hwriter := by simp [Helper.start] at hwriter
  explains resp rest hwriter := by simp [Helper.start] at hwriter

/-- A callback, or the end of a write, of one dialog. -/
structure Callback (f : Dialog → Dialog) : Prop where
  settled : ∀ d : Dialog, d.settled → (f d).settled
  taken : ∀ (d : Dialog) g, d.slot = .taken g → (f d).slot = .taken g
  req : ∀ d : Dialog, (f d).req = d.req
  answer : ∀ d : Dialog, (f d).answer = d.answer

theorem callback_take (finalizer : Finalizer) : Callback fun d => d.take finalizer where
  settled d := by
    rintro ⟨f, hf⟩
    exact ⟨f, by simp [Dialog.take, hf]⟩
  taken d g hg := by simp [Dialog.take, hg]
  req d := by
    unfold Dialog.take
    split <;> rfl
  answer d := by
    unfold Dialog.take
    cases hslot : d.slot <;> simp [Dialog.answer, hslot]

theorem callback_evaluated (ok : Bool) : Callback fun d => d.evaluated ok := by
  have htake := callback_take (.evaluated ok)
  constructor
  · intro d hsettled
    unfold Dialog.evaluated
    split
    · exact htake.settled d hsettled
    · exact hsettled
  · intro d g hg
    unfold Dialog.evaluated
    split
    · exact htake.taken d g hg
    · exact hg
  · intro d
    unfold Dialog.evaluated
    split
    · exact htake.req d
    · rfl
  · intro d
    unfold Dialog.evaluated
    split
    · exact htake.answer d
    · rfl

theorem callback_cancel : Callback Dialog.cancel := by
  have htake := callback_take .cancelled
  exact ⟨htake.settled, htake.taken, htake.req, htake.answer⟩

theorem callback_countdown : Callback Dialog.countdown := by
  have htake := callback_take .timedOut
  constructor
  · intro d hsettled
    unfold Dialog.countdown
    split
    · split
      · exact htake.settled d hsettled
      · exact hsettled
    · exact hsettled
  · intro d g hg
    unfold Dialog.countdown
    split
    · split
      · exact htake.taken d g hg
      · exact hg
    · exact hg
  · intro d
    unfold Dialog.countdown
    split
    · split
      · exact htake.req d
      · rfl
    · rfl
  · intro d
    unfold Dialog.countdown
    split
    · split
      · exact htake.answer d
      · rfl
    · rfl

theorem callback_disarm : Callback Dialog.disarm := by
  constructor
  · rintro d ⟨f, hf⟩
    exact ⟨f, by simp [Dialog.disarm, hf]⟩
  · intro d g hg
    simp [Dialog.disarm, hg]
  · intro d
    unfold Dialog.disarm
    split <;> rfl
  · intro d
    unfold Dialog.disarm
    split
    · rfl
    · rfl

theorem callback_signal : Callback Dialog.signal := by
  constructor
  · rintro d ⟨f, hf⟩
    exact ⟨f, by simp [Dialog.signal, hf]⟩
  · intro d g hg
    simp [Dialog.signal, hg]
  · intro d
    unfold Dialog.signal
    split <;> rfl
  · intro d
    unfold Dialog.signal
    cases hslot : d.slot <;> simp [Dialog.answer, hslot]

theorem Serial.congr (hs : Serial h) (hdialogs : h'.dialogs = h.dialogs)
    (hreader : h'.reader = h.reader) (hwriter : h'.writer = h.writer) : Serial h' where
  order := by rw [hdialogs, hreader]; exact hs.order
  last := by rw [hdialogs, hreader]; exact hs.last
  writer := by rw [hdialogs, hwriter]; exact hs.writer
  explains := by rw [hwriter]; exact hs.explains

theorem get_change (h : Helper) (d i : ℕ) (f : Dialog → Dialog) :
    (h.change d f).dialogs[i]? = if d = i then h.dialogs[i]?.map f else h.dialogs[i]? := by
  simp only [Helper.change, List.getElem?_modify]
  split <;> simp

theorem Serial.change (hs : Serial h) (d : ℕ) {f : Dialog → Dialog} (hf : Callback f) :
    Serial (h.change d f) where
  order i dialog hget := by
    rw [get_change] at hget
    split at hget
    · obtain ⟨old, hold, rfl⟩ := Option.map_eq_some_iff.mp hget
      rcases hs.order i old hold with hsettled | hwaiting
      · exact Or.inl (hf.settled old hsettled)
      · exact Or.inr hwaiting
    · exact hs.order i dialog hget
  last i hreader := by
    have hlast := hs.last i hreader
    simpa [Helper.change] using hlast
  writer i resp rest hwriter := by
    obtain ⟨dialog, g, hget, hslot, hresp⟩ := hs.writer i resp rest hwriter
    by_cases hd : d = i
    · refine ⟨f dialog, g, ?_, hf.taken dialog g hslot, by rw [hresp, hf.req]⟩
      rw [get_change, if_pos hd, hget]
      rfl
    · exact ⟨dialog, g, by rw [get_change, if_neg hd, hget], hslot, hresp⟩
  explains := hs.explains

theorem filterMap_modify {f : Dialog → Dialog} (hf : ∀ d : Dialog, (f d).answer = d.answer)
    (dialogs : List Dialog) (d : ℕ) :
    (dialogs.modify d f).filterMap Dialog.answer = dialogs.filterMap Dialog.answer := by
  induction dialogs generalizing d with
  | nil => simp
  | cons dialog dialogs ih =>
    cases d with
    | zero => simp [List.filterMap_cons, hf]
    | succ d => simp [List.filterMap_cons, ih]

theorem Told.change (ht : Told h) (d : ℕ) {f : Dialog → Dialog} (hf : Callback f) :
    Told (h.change d f) := by
  unfold Told
  rw [show (h.change d f).dialogs = h.dialogs.modify d f from rfl,
    filterMap_modify hf.answer]
  exact ht

theorem Told.congr (ht : Told h) (hdialogs : h'.dialogs = h.dialogs) (hsaid : h'.said = h.said) :
    Told h' := by
  unfold Told
  rw [hdialogs, hsaid]
  exact ht

/-- The reader goes on from a place where no dialog is open. -/
theorem Serial.reads (hs : Serial h) (hreader : ∀ d, h.reader ≠ .waiting d)
    (hdialogs : h'.dialogs = h.dialogs) (hwriter : h'.writer = h.writer)
    (hnext : ∀ d, h'.reader ≠ .waiting d) : Serial h' where
  order d dialog hget := by
    rw [hdialogs] at hget
    rcases hs.order d dialog hget with hsettled | hwaiting
    · exact Or.inl hsettled
    · exact absurd hwaiting (hreader d)
  last d hwaiting := absurd hwaiting (hnext d)
  writer := by rw [hdialogs, hwriter]; exact hs.writer
  explains := by rw [hwriter]; exact hs.explains

theorem Serial.readLine (hs : Serial h) (hreader : ∀ d, h.reader ≠ .waiting d) (line : Text) :
    Serial (h.readLine env line) ∧ (Told h → Told (h.readLine env line)) := by
  unfold Helper.readLine
  split
  · exact ⟨hs.reads hreader rfl rfl (by simp), fun ht => ht⟩
  · split
    · exact ⟨hs.reads hreader rfl rfl (by simp), fun ht => ht⟩
    · exact ⟨hs.reads hreader rfl rfl (by simp), fun ht => ht⟩
  · split
    · exact ⟨hs.reads hreader rfl rfl (by simp), fun ht => ht⟩
    · exact ⟨hs.reads hreader rfl rfl (by simp), fun ht => ht⟩

theorem Serial.shown (hs : Serial h) {req : ApproveRequest} (hreader : h.reader = .showing req) :
    Serial { h with reader := .waiting h.dialogs.length, dialogs := h.dialogs ++ [.open req] } where
  order d dialog hget := by
    by_cases hd : d < h.dialogs.length
    · rw [List.getElem?_append_left hd] at hget
      rcases hs.order d dialog hget with hsettled | hwaiting
      · exact Or.inl hsettled
      · rw [hreader] at hwaiting
        cases hwaiting
    · have hlast : d = h.dialogs.length := by
        have hlt := (List.getElem?_eq_some_iff.mp hget).1
        rw [List.length_append, List.length_singleton] at hlt
        omega
      exact Or.inr (by rw [hlast])
  last d hwaiting := by
    cases hwaiting
    simp
  writer d resp rest hwriter := by
    obtain ⟨dialog, f, hget, hslot, hresp⟩ := hs.writer d resp rest hwriter
    refine ⟨dialog, f, ?_, hslot, hresp⟩
    rw [List.getElem?_append_left (List.getElem?_eq_some_iff.mp hget).1]
    exact hget
  explains := hs.explains

theorem Told.shown (ht : Told h) {reader : Reader} (req : ApproveRequest) :
    Told { h with reader := reader, dialogs := h.dialogs ++ [.open req] } := by
  unfold Told
  rw [List.filterMap_append, show [Dialog.open req].filterMap Dialog.answer = [] from rfl,
    List.append_nil]
  exact ht

theorem Serial.resume (hs : Serial h) :
    Serial h.resume ∧ (Told h → Told h.resume) := by
  unfold Helper.resume
  cases hreader : h.reader with
  | waiting d =>
    dsimp only
    cases hget : h.dialogs[d]? with
    | none => exact ⟨hs, fun ht => ht⟩
    | some dialog =>
      dsimp only
      cases hslot : dialog.slot with
      | signalled f =>
        refine ⟨?_, fun ht => ht⟩
        refine ⟨fun i other hother => ?_, fun i hi => (by cases hi), hs.writer, hs.explains⟩
        rcases hs.order i other hother with hsettled | hwaiting
        · exact Or.inl hsettled
        · rw [hreader, Reader.waiting.injEq] at hwaiting
          rw [← hwaiting, hget] at hother
          cases hother
          exact Or.inl ⟨f, hslot⟩
      | _ => exact ⟨hs, fun ht => ht⟩
  | _ => exact ⟨hs, fun ht => ht⟩

/-- The write of a dialog's answer is over. The answers before it have gone out. -/
theorem Serial.spoken (hs : Serial h) {speaker : Speaker} {resp : HelperResponse} {rest : Text}
    (hwriter : h.writer = some (speaker, resp, rest)) :
    Serial (h.spoken speaker) ∧
      (Told h → Told { h.spoken speaker with said := h.said ++ [resp] }) := by
  cases speaker with
  | explainer =>
    refine ⟨⟨hs.order, hs.last, fun d resp rest hnone => ?_, fun resp rest hnone => ?_⟩, ?_⟩
    · cases hnone
    · cases hnone
    · intro ht
      unfold Told
      rw [List.filterMap_append]
      simp only [List.filterMap_cons, hs.explains resp rest hwriter, List.filterMap_nil,
        List.append_nil]
      exact ht
  | dialog d =>
    obtain ⟨dialog, f, hget, hslot, hresp⟩ := hs.writer d resp rest hwriter
    have hopen : h.reader = .waiting d := by
      rcases hs.order d dialog hget with ⟨g, hg⟩ | hwaiting
      · rw [hslot] at hg
        cases hg
      · exact hwaiting
    have hlength := hs.last d hopen
    have hspoken : dialog.spoken.slot = .written f := by simp [Dialog.spoken, hslot]
    refine ⟨⟨fun i other hother => ?_, ?_, fun i resp rest hnone => ?_,
      fun resp rest hnone => ?_⟩, fun ht => ?_⟩
    · have hold : (h.change d Dialog.spoken).dialogs[i]? = some other := hother
      rw [get_change] at hold
      by_cases hi : d = i
      · rw [← hi]
        exact Or.inr hopen
      · rw [if_neg hi] at hold
        exact hs.order i other hold
    · intro i hi
      have hlast := hs.last i hi
      simpa [Helper.spoken, Helper.change] using hlast
    · cases hnone
    · cases hnone
    · have hdrop : h.dialogs.drop d = [dialog] := by
        rw [List.getElem?_eq_getElem (by omega), Option.some.injEq] at hget
        rw [List.drop_eq_getElem_cons (by omega), hget, List.drop_of_length_le (by omega)]
      have hsplit : h.dialogs = h.dialogs.take d ++ [dialog] := by
        rw [← hdrop, List.take_append_drop]
      have hmodify : h.dialogs.modify d Dialog.spoken = h.dialogs.take d ++ [dialog.spoken] := by
        rw [List.modify_eq_take_drop, hdrop]
        rfl
      have hreq : dialog.spoken.req = dialog.req := by simp [Dialog.spoken, hslot]
      change (h.said ++ [resp]).filterMap HelperResponse.approval =
        (h.dialogs.modify d Dialog.spoken).filterMap Dialog.answer
      unfold Told at ht
      rw [hsplit, List.filterMap_append] at ht
      rw [hmodify, List.filterMap_append, List.filterMap_append, ht, hresp]
      simp [Dialog.answer, hslot, hspoken, HelperResponse.approval, hreq]

theorem Serial.lock (hs : Serial h) {speaker : Speaker} {resp : HelperResponse} (rest : Text)
    (howes : h.owes speaker = some resp) :
    Serial { h with writer := some (speaker, resp, rest) } where
  order := hs.order
  last := hs.last
  writer d resp' rest' hwriter := by
    cases hwriter
    simp only [Helper.owes] at howes
    cases hget : h.dialogs[d]? with
    | none => simp [hget] at howes
    | some dialog =>
      simp only [hget] at howes
      cases hslot : dialog.slot with
      | taken f =>
        simp only [hslot, Option.some.injEq] at howes
        exact ⟨dialog, f, rfl, hslot, howes.symm⟩
      | _ => simp [hslot] at howes
  explains resp' rest' hwriter := by
    cases hwriter
    simp only [Helper.owes] at howes
    split at howes <;> cases howes <;> rfl

/-- What holds of the helper while the daemon is there. -/
structure InTurn (s : System) : Prop where
  serial : Serial s.helper
  told : s.client ≠ .gone → Told s.helper

theorem InTurn.moved {s' : System} (h : InTurn s) (hdialogs : s'.helper.dialogs = s.helper.dialogs)
    (hreader : s'.helper.reader = s.helper.reader) (hwriter : s'.helper.writer = s.helper.writer)
    (hsaid : s'.helper.said = s.helper.said) (hgone : s'.client ≠ .gone → s.client ≠ .gone) :
    InTurn s' :=
  ⟨h.serial.congr hdialogs hreader hwriter, fun hopen => (h.told (hgone hopen)).congr hdialogs hsaid⟩

theorem InTurn.change (h : InTurn s) (d : ℕ) {f : Dialog → Dialog} (hf : Callback f) :
    InTurn { s with helper := s.helper.change d f } :=
  ⟨h.serial.change d hf, fun hopen => (h.told hopen).change d hf⟩

theorem InTurn.helper {s' : System} (h : InTurn s) (hclient : s'.client = s.client)
    (hserial : Serial s'.helper ∧ (Told s.helper → Told s'.helper)) : InTurn s' :=
  ⟨hserial.1, fun hopen => hserial.2 (h.told (by rwa [hclient] at hopen))⟩

theorem inTurn_helperStep (h : InTurn s) : InTurn (s.helperStep env e) := by
  have hs := h.serial
  cases e with
  | read =>
    simp only [System.helperStep]
    cases hreader : s.helper.reader with
    | reading line =>
      have hfree : ∀ d, s.helper.reader ≠ .waiting d := by simp [hreader]
      cases hdown : s.down with
      | nil => exact h
      | cons byte rest =>
        refine h.helper rfl ?_
        dsimp only
        split
        · exact hs.readLine hfree line
        · exact ⟨hs.reads hfree rfl rfl (by simp), fun ht => ht⟩
    | _ => exact h
  | readEnd =>
    simp only [System.helperStep]
    cases hreader : s.helper.reader with
    | reading line =>
      have hfree : ∀ d, s.helper.reader ≠ .waiting d := by simp [hreader]
      cases hdown : s.down with
      | cons byte rest => exact h
      | nil =>
        dsimp only
        split
        · refine h.helper rfl ?_
          dsimp only
          split
          · exact ⟨hs.reads hfree rfl rfl (by simp), fun ht => ht⟩
          · exact hs.readLine hfree line
        · exact h
    | _ => exact h
  | readError =>
    simp only [System.helperStep]
    cases hreader : s.helper.reader with
    | reading line =>
      exact h.helper rfl ⟨hs.reads (by simp [hreader]) rfl rfl (by simp), fun ht => ht⟩
    | _ => exact h
  | showDialog =>
    simp only [System.helperStep]
    cases hreader : s.helper.reader with
    | showing req => exact h.helper rfl ⟨hs.shown hreader, fun ht => ht.shown req⟩
    | _ => exact h
  | resume => exact h.helper rfl hs.resume
  | terminate =>
    simp only [System.helperStep]
    split
    · exact h.moved rfl rfl rfl rfl id
    · exact h
  | kill => exact h.moved rfl rfl rfl rfl id
  | evaluated d ok => exact h.change d (callback_evaluated ok)
  | cancel d => exact h.change d callback_cancel
  | countdown d => exact h.change d callback_countdown
  | disarm d => exact h.change d callback_disarm
  | signal d => exact h.change d callback_signal
  | explain granted =>
    simp only [System.helperStep, Helper.explain]
    cases s.helper.explainers with
    | nil => exact h
    | cons prompt rest => cases s.helper.explainer <;> exact h.moved rfl rfl rfl rfl id
  | probe =>
    simp only [System.helperStep]
    split
    · exact h.moved rfl rfl rfl rfl id
    · exact h
  | dismiss =>
    simp only [System.helperStep]
    split
    · exact h.moved rfl rfl rfl rfl id
    · exact h.moved rfl rfl rfl rfl id
    · exact h
  | lock speaker =>
    simp only [System.helperStep]
    cases hwriter : s.helper.writer with
    | some writer => exact h
    | none =>
      cases howes : s.helper.owes speaker with
      | none => exact h
      | some resp => exact h.helper rfl ⟨hs.lock _ howes, fun ht => ht⟩
  | write =>
    simp only [System.helperStep]
    cases hwriter : s.helper.writer with
    | none => exact h
    | some writer =>
      obtain ⟨speaker, resp, rest⟩ := writer
      cases rest with
      | nil => exact h
      | cons byte rest =>
        dsimp only
        split
        · exact h
        · refine h.helper rfl ⟨⟨hs.order, hs.last, ?_, ?_⟩, fun ht => ht⟩
          · intro d resp' rest' hnext
            cases hnext
            exact hs.writer d _ _ hwriter
          · intro resp' rest' hnext
            cases hnext
            exact hs.explains _ _ hwriter
  | writeError =>
    simp only [System.helperStep]
    cases hwriter : s.helper.writer with
    | none => exact h
    | some writer =>
      obtain ⟨speaker, resp, rest⟩ := writer
      cases rest with
      | nil => exact h
      | cons byte rest =>
        dsimp only
        split
        · rename_i hgone
          exact ⟨(hs.spoken hwriter).1, fun hopen => absurd hgone hopen⟩
        · exact h
  | unlock =>
    simp only [System.helperStep]
    cases hwriter : s.helper.writer with
    | none => exact h
    | some writer =>
      obtain ⟨speaker, resp, rest⟩ := writer
      cases rest with
      | cons byte rest => exact h
      | nil =>
        obtain ⟨hserial, htold⟩ := hs.spoken hwriter
        refine h.helper rfl ⟨hserial.congr rfl rfl rfl, fun ht => ?_⟩
        cases speaker <;> exact htold ht
  | _ => exact h

/-- What the daemon does to its helper. -/
inductive Treated (h : Helper) : Helper → Prop
  | kept : Treated h h
  | disposed : Treated h { h with alive := false }
  | replaced : Treated h Helper.start

theorem treated_connDeath (s : System) (req : ApproveRequest) (retried : Bool) :
    Treated s.helper (s.connDeath req retried).helper := by
  unfold System.connDeath
  split
  · exact .kept
  · exact .disposed

theorem helper_hearLine (env : Env) (s : System) (req : ApproveRequest) (retried : Bool)
    (line : Text) : (s.hearLine env req retried line).helper = s.helper := by
  unfold System.hearLine
  split
  · rfl
  · rfl
  · split
    · rfl
    · split <;> rfl

theorem treated_clientStep (env : Env) (s : System) (e : Event) :
    Treated s.helper (s.clientStep env e).helper := by
  cases e with
  | hear =>
    simp only [System.clientStep]
    split
    · split
      · rw [helper_hearLine]
        exact .kept
      · exact .kept
    · exact .kept
  | hearEnd =>
    simp only [System.clientStep]
    split
    · split
      · exact .kept
      · split
        · exact treated_connDeath ..
        · rw [helper_hearLine]
          exact .kept
    · exact .kept
  | sayError =>
    simp only [System.clientStep]
    split
    · exact .kept
    · split
      · exact treated_connDeath ..
      · exact .kept
      · exact .kept
  | respawn =>
    simp only [System.clientStep]
    split
    · exact .replaced
    · exact .kept
  | _ =>
    simp only [System.clientStep]
    repeat' split
    all_goals exact .kept

theorem gone_clientStep (env : Env) (s : System) (e : Event) (hgone : s.client = .gone) :
    (s.clientStep env e).client = .gone := by
  cases e with
  | lockTimeout i =>
    simp only [System.clientStep]
    split <;> exact hgone
  | _ => simp [System.clientStep, hgone]

theorem InTurn.treated {s' : System} (h : InTurn s) (htreated : Treated s.helper s'.helper)
    (hgone : s'.client ≠ .gone → s.client ≠ .gone) : InTurn s' := by
  generalize hhelper : s'.helper = helper at htreated
  cases htreated with
  | kept => exact h.moved (by rw [hhelper]) (by rw [hhelper]) (by rw [hhelper]) (by rw [hhelper]) hgone
  | disposed =>
    exact h.moved (by rw [hhelper]) (by rw [hhelper]) (by rw [hhelper]) (by rw [hhelper]) hgone
  | replaced => exact ⟨by rw [hhelper]; exact serial_start, fun _ => by rw [hhelper]; rfl⟩

theorem inTurn_after (env : Env) (es : List Event) : InTurn (after env es) := by
  induction es using List.reverseRecOn with
  | nil => exact ⟨serial_start, fun _ => rfl⟩
  | append_singleton es e ih =>
    have hclient : InTurn ((after env es).clientStep env e) :=
      ih.treated (treated_clientStep env _ e) fun hopen hgone =>
        hopen (gone_clientStep env _ e hgone)
    rw [after_concat]
    unfold System.step
    split
    · exact inTurn_helperStep hclient
    · exact hclient

/-- On every helper, whatever the order of its threads and of the person's doing: a dialog is
put up only when every one before it has been answered and the reader told; the reader waits
for the last one or for none; and as long as the daemon is there, the answers that have gone
out are one for each dialog that was answered, in the order of the dialogs, and the one that
is going out is that of the dialog in front. -/
theorem dialogs_one_at_a_time (env : Env) (es : List Event) :
    (∀ d dialog, (after env es).helper.dialogs[d]? = some dialog →
      dialog.settled ∨
        (after env es).helper.reader = .waiting d ∧ d + 1 = (after env es).helper.dialogs.length) ∧
    (∀ d, (after env es).helper.reader = .waiting d →
      d + 1 = (after env es).helper.dialogs.length) ∧
    (∀ d resp rest, (after env es).helper.writer = some (.dialog d, resp, rest) →
      (after env es).helper.reader = .waiting d ∧
        ∃ dialog f, (after env es).helper.dialogs[d]? = some dialog ∧
          dialog.slot = .taken f ∧ resp = .approve (respond dialog.req f)) ∧
    ((after env es).client ≠ .gone →
      (after env es).helper.said.filterMap HelperResponse.approval =
        (after env es).helper.dialogs.filterMap Dialog.answer) := by
  obtain ⟨hserial, htold⟩ := inTurn_after env es
  refine ⟨fun d dialog hget => ?_, hserial.last, fun d resp rest hwriter => ?_, htold⟩
  · rcases hserial.order d dialog hget with hsettled | hwaiting
    · exact Or.inl hsettled
    · exact Or.inr ⟨hwaiting, hserial.last d hwaiting⟩
  · obtain ⟨dialog, f, hget, hslot, hresp⟩ := hserial.writer d resp rest hwriter
    refine ⟨?_, dialog, f, hget, hslot, hresp⟩
    rcases hserial.order d dialog hget with ⟨g, hg⟩ | hwaiting
    · rw [hslot] at hg
      cases hg
    · exact hwaiting

end Approver

end CacheWarden
