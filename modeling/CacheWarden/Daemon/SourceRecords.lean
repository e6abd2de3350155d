import CacheWarden.Daemon.DefinitionFile

/-!
# Reading a source's record back

A typed source is recorded as named texts, its arguments one a line and its
variables one a line. The record reads back as the source exactly when no text
in it breaks a line or stands in for the mark between a name and its value.
-/

set_option autoImplicit false

namespace CacheWarden

namespace Daemon

section Lines

/-- The text breaks no line. -/
def OneLine (s : String) : Prop := '\n' ∉ s.toList

instance (s : String) : Decidable (OneLine s) := inferInstanceAs (Decidable (¬ _))

theorem not_mem_splitOn (c : Char) (cs : List Char) : ∀ piece ∈ cs.splitOn c, c ∉ piece := by
  induction cs with
  | nil => simp
  | cons d cs ih =>
    rw [List.splitOn_cons_eq_if_modifyHead]
    by_cases hd : (d == c) = true
    · rw [if_pos hd]
      intro piece hpiece
      rcases List.mem_cons.mp hpiece with rfl | hpiece
      · exact List.not_mem_nil
      · exact ih piece hpiece
    · rw [if_neg hd]
      intro piece hpiece
      cases hpieces : cs.splitOn c with
      | nil => exact absurd hpieces (List.splitOn_ne_nil c cs)
      | cons first rest =>
        rw [hpieces] at hpiece ih
        rcases List.mem_cons.mp hpiece with rfl | hpiece
        · intro hmem
          rcases List.mem_cons.mp hmem with rfl | hmem
          · exact hd (by simp)
          · exact ih first List.mem_cons_self hmem
        · exact ih piece (List.mem_cons_of_mem _ hpiece)

theorem oneLine_of_splitLines {s line : String} (h : line ∈ splitLines s) : OneLine line := by
  unfold splitLines at h
  obtain ⟨piece, hpiece, rfl⟩ := List.mem_map.mp h
  unfold OneLine
  rw [String.toList_ofList]
  exact not_mem_splitOn '\n' s.toList piece hpiece

theorem splitLines_intercalate {lines : List String} (hne : lines ≠ [])
    (h : ∀ line ∈ lines, OneLine line) : splitLines ("\n".intercalate lines) = lines := by
  unfold splitLines
  rw [String.toList_intercalate]
  have hsplit : List.splitOn '\n' (['\n'].intercalate (lines.map String.toList)) =
      lines.map String.toList := by
    apply List.splitOn_intercalate
    · intro line hline
      obtain ⟨s, hs, rfl⟩ := List.mem_map.mp hline
      exact h s hs
    · simpa using hne
  rw [show "\n".toList = ['\n'] from rfl, hsplit]
  simp [List.map_map, Function.comp_def]

theorem splitOnceEq_some {cs name value : List Char} (h : splitOnceEq cs = some (name, value)) :
    cs = name ++ '=' :: value ∧ '=' ∉ name := by
  induction cs generalizing name with
  | nil => cases h
  | cons c cs ih =>
    unfold splitOnceEq at h
    by_cases hc : c = '='
    · rw [if_pos hc] at h
      cases h
      exact ⟨by rw [hc]; rfl, List.not_mem_nil⟩
    · rw [if_neg hc] at h
      obtain ⟨⟨name', value'⟩, hrest, heq⟩ := Option.map_eq_some_iff.mp h
      cases heq
      obtain ⟨hcs, hname⟩ := ih hrest
      refine ⟨by rw [hcs]; rfl, ?_⟩
      intro hmem
      rcases List.mem_cons.mp hmem with heq | hmem
      · exact hc heq.symm
      · exact hname hmem

theorem splitOnceEq_append {name : List Char} (h : '=' ∉ name) (value : List Char) :
    splitOnceEq (name ++ '=' :: value) = some (name, value) := by
  induction name with
  | nil => rfl
  | cons c name ih =>
    rw [List.mem_cons, not_or] at h
    rw [List.cons_append]
    unfold splitOnceEq
    rw [if_neg (Ne.symm h.1), ih h.2]
    rfl

end Lines

section Variables

/-- The variable's line splits back into it. -/
structure SplitsBack (p : String × String) : Prop where
  name : OneLine p.1
  noMark : '=' ∉ p.1.toList
  value : OneLine p.2

instance (p : String × String) : Decidable (SplitsBack p) :=
  decidable_of_iff (OneLine p.1 ∧ '=' ∉ p.1.toList ∧ OneLine p.2)
    ⟨fun h => ⟨h.1, h.2.1, h.2.2⟩, fun h => ⟨h.name, h.noMark, h.value⟩⟩

def lineOf (p : String × String) : String := p.1 ++ "=" ++ p.2

theorem toList_lineOf (p : String × String) :
    (lineOf p).toList = p.1.toList ++ '=' :: p.2.toList := by
  simp [lineOf]

theorem SplitsBack.oneLine {p : String × String} (h : SplitsBack p) : OneLine (lineOf p) := by
  have hname := h.name
  have hvalue := h.value
  unfold OneLine at hname hvalue ⊢
  rw [toList_lineOf]
  simp [hname, hvalue]

theorem envOfLines_lines {pairs : List (String × String)} (h : ∀ p ∈ pairs, SplitsBack p) :
    envOfLines (pairs.map lineOf) = pairs.foldl (fun env p => env.insert p.1 p.2) ∅ := by
  unfold envOfLines
  rw [List.foldl_map]
  apply List.foldl_ext
  intro env p hp
  rw [toList_lineOf, splitOnceEq_append (h p hp).noMark]
  simp

theorem envOfLines_skip {lines : List String} {line : String}
    (h : splitOnceEq line.toList = none) : envOfLines (lines ++ [line]) = envOfLines lines := by
  unfold envOfLines
  rw [List.foldl_append, List.foldl_cons, List.foldl_nil]
  simp only [h]

theorem envOfLines_add {lines : List String} {line : String} {name value : List Char}
    (h : splitOnceEq line.toList = some (name, value)) :
    envOfLines (lines ++ [line]) =
      (envOfLines lines).insert (String.ofList name) (String.ofList value) := by
  unfold envOfLines
  rw [List.foldl_append, List.foldl_cons, List.foldl_nil]
  simp only [h]

/-- What a list of lines yields comes from one of them. -/
theorem envOfLines_some {lines : List String} {name value : String}
    (h : (envOfLines lines)[name]? = some value) :
    ∃ line ∈ lines, splitOnceEq line.toList = some (name.toList, value.toList) := by
  induction lines using List.reverseRecOn with
  | nil =>
    rw [show envOfLines [] = ∅ from rfl, KeyMap.get_empty] at h
    cases h
  | append_singleton lines line ih =>
    have hearlier : (envOfLines lines)[name]? = some value →
        ∃ line' ∈ lines ++ [line],
          splitOnceEq line'.toList = some (name.toList, value.toList) := by
      intro h
      obtain ⟨line', hline', hsplit⟩ := ih h
      exact ⟨line', List.mem_append_left _ hline', hsplit⟩
    cases hline : splitOnceEq line.toList with
    | none =>
      rw [envOfLines_skip hline] at h
      exact hearlier h
    | some p =>
      obtain ⟨k, v⟩ := p
      rw [envOfLines_add hline, KeyMap.get_insert] at h
      by_cases hk : String.ofList k = name
      · rw [if_pos hk] at h
        cases h
        refine ⟨line, by simp, ?_⟩
        rw [hline, ← hk, String.toList_ofList, String.toList_ofList]
      · rw [if_neg hk] at h
        exact hearlier h

theorem splitsBack_of_lines {text name value : String}
    (h : (envOfLines (splitLines text))[name]? = some value) : SplitsBack (name, value) := by
  obtain ⟨line, hline, hsplit⟩ := envOfLines_some h
  obtain ⟨htext, hmark⟩ := splitOnceEq_some hsplit
  have hone := oneLine_of_splitLines hline
  unfold OneLine at hone
  rw [htext, List.mem_append, not_or, List.mem_cons, not_or] at hone
  exact ⟨hone.1, hmark, hone.2.2⟩

end Variables

namespace SourceSpecWire

/-- No text of the source breaks the line it is recorded on. -/
structure LegibleCommand (spec : CommandSpecWire) : Prop where
  notBlank : spec.argv ≠ [""]
  argv : ∀ arg ∈ spec.argv, OneLine arg
  env : ∀ p ∈ spec.env.toList, SplitsBack p

instance (spec : CommandSpecWire) : Decidable (LegibleCommand spec) :=
  decidable_of_iff
    (spec.argv ≠ [""] ∧ (∀ arg ∈ spec.argv, OneLine arg) ∧ ∀ p ∈ spec.env.toList, SplitsBack p)
    ⟨fun h => ⟨h.1, h.2.1, h.2.2⟩, fun h => ⟨h.notBlank, h.argv, h.env⟩⟩

def Legible : SourceSpecWire → Prop
  | .command spec => LegibleCommand spec
  | .op _ => True

instance : DecidablePred Legible
  | .command spec => inferInstanceAs (Decidable (LegibleCommand spec))
  | .op _ => inferInstanceAs (Decidable True)

end SourceSpecWire

/-- The variables, as the record of a command has them. -/
theorem toSourceMeta_env (spec : CommandSpecWire) :
    (SourceSpecWire.command spec).toSourceMeta.fields["env"]? =
      if spec.env.isEmpty then none else some ("\n".intercalate (spec.env.toList.map lineOf)) := by
  unfold SourceSpecWire.toSourceMeta
  dsimp only
  by_cases hempty : spec.env.isEmpty = true
  · rw [if_pos hempty, if_pos hempty, KeyMap.get_insertOpt, if_neg (by decide),
      KeyMap.get_insert_of_ne _ _ (by decide), KeyMap.get_empty]
  · rw [if_neg hempty, if_neg hempty, KeyMap.get_insert_self]
    rfl

theorem toSourceMeta_cwd (spec : CommandSpecWire) :
    (SourceSpecWire.command spec).toSourceMeta.fields["cwd"]? = spec.cwd := by
  have hcwd : (KeyMap.insertOpt ((∅ : KeyMap String).insert "argv" ("\n".intercalate spec.argv))
      "cwd" spec.cwd)["cwd"]? = spec.cwd := by
    rw [KeyMap.get_insertOpt, if_pos rfl, KeyMap.get_insert_of_ne _ _ (by decide),
      KeyMap.get_empty, Option.or_none]
  unfold SourceSpecWire.toSourceMeta
  dsimp only
  by_cases hempty : spec.env.isEmpty = true
  · rw [if_pos hempty]
    exact hcwd
  · rw [if_neg hempty, KeyMap.get_insert_of_ne _ _ (by decide)]
    exact hcwd

/-- What the record of a command reads back as. -/
def readBackAs (spec : CommandSpecWire) : CommandSpecWire where
  argv := splitLines ("\n".intercalate spec.argv)
  cwd := spec.cwd
  env :=
    if spec.env.isEmpty then ∅
    else envOfLines (splitLines ("\n".intercalate (spec.env.toList.map lineOf)))

theorem fromSourceMeta_command {spec : CommandSpecWire} (hne : spec.argv ≠ [])
    (hblank : spec.argv ≠ [""]) :
    SourceSpecWire.fromSourceMeta (SourceSpecWire.command spec).toSourceMeta =
      some (.command (readBackAs spec)) := by
  have hargv : ("\n".intercalate spec.argv).isEmpty = false := by
    rw [Bool.eq_false_iff]
    intro hempty
    rcases intercalate_eq_empty (by decide) (String.isEmpty_iff.mp hempty) with h | h
    · exact hne h
    · exact hblank h
  have hkind : (SourceSpecWire.command spec).toSourceMeta.kind = some "command" := rfl
  unfold SourceSpecWire.fromSourceMeta
  rw [hkind]
  dsimp only
  rw [if_pos rfl, toSourceMeta_argv, toSourceMeta_env, toSourceMeta_cwd]
  dsimp only
  rw [if_neg (by rw [hargv]; decide)]
  unfold readBackAs
  by_cases henv : spec.env.isEmpty = true
  · rw [if_pos henv, if_pos henv]
  · rw [if_neg henv, if_neg henv]

theorem fromSourceMeta_op (spec : OpSpecWire) :
    SourceSpecWire.fromSourceMeta (SourceSpecWire.op spec).toSourceMeta = some (.op spec) := by
  simp [SourceSpecWire.fromSourceMeta, SourceSpecWire.toSourceMeta, KeyMap.get_insertOpt]

theorem readBackAs_eq {spec : CommandSpecWire} (hne : spec.argv ≠ [])
    (h : SourceSpecWire.LegibleCommand spec) : readBackAs spec = spec := by
  have hargv := splitLines_intercalate hne h.argv
  have henv : (readBackAs spec).env = spec.env := by
    unfold readBackAs
    dsimp only
    by_cases hempty : spec.env.isEmpty = true
    · rw [if_pos hempty]
      exact (Std.ExtTreeMap.isEmpty_iff.mp hempty).symm
    · rw [if_neg hempty]
      have hlist : spec.env.toList.map lineOf ≠ [] := by
        intro hnil
        apply hempty
        rw [← Std.ExtTreeMap.isEmpty_toList, List.map_eq_nil_iff.mp hnil]
        rfl
      have hlines : ∀ line ∈ spec.env.toList.map lineOf, OneLine line := by
        intro line hline
        obtain ⟨p, hp, rfl⟩ := List.mem_map.mp hline
        exact (h.env p hp).oneLine
      rw [splitLines_intercalate hlist hlines, envOfLines_lines h.env,
        KeyMap.foldl_insert_toList]
  cases spec with
  | mk argv cwd env =>
    unfold readBackAs at henv ⊢
    dsimp only at hargv henv ⊢
    rw [hargv, henv]

/-- The record of a source that passed its checks is the source's own exactly
when the source is legible. -/
theorem fromSourceMeta_eq_iff {source : SourceSpecWire} (h : source.validate = .ok ()) :
    SourceSpecWire.fromSourceMeta source.toSourceMeta = some source ↔ source.Legible := by
  cases source with
  | op spec => exact iff_of_true (fromSourceMeta_op spec) trivial
  | command spec =>
    have hne : spec.argv ≠ [] := by
      intro hnil
      simp [SourceSpecWire.validate, hnil] at h
    constructor
    · intro heq
      have hblank : spec.argv ≠ [""] :=
        (fromSourceMeta_isSome_iff h).mp (Option.isSome_of_eq_some heq)
      rw [fromSourceMeta_command hne hblank] at heq
      have hspec : readBackAs spec = spec := by
        injection Option.some.inj heq
      constructor
      · exact hblank
      · intro arg harg
        rw [← hspec] at harg
        exact oneLine_of_splitLines harg
      · intro p hp
        rw [KeyMap.mem_toList] at hp
        rw [← hspec] at hp
        unfold readBackAs at hp
        dsimp only at hp
        by_cases hempty : spec.env.isEmpty = true
        · rw [if_pos hempty, KeyMap.get_empty] at hp
          cases hp
        · rw [if_neg hempty] at hp
          exact splitsBack_of_lines hp
    · intro hlegible
      have hlegible : SourceSpecWire.LegibleCommand spec := hlegible
      rw [fromSourceMeta_command hne hlegible.notBlank, readBackAs_eq hne hlegible]

end Daemon

end CacheWarden
