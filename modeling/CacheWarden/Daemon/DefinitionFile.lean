import CacheWarden.Daemon.Startup

/-!
# The definitions a daemon writes down

With persistence on, a daemon writes the definitions of its registry to a file,
all but those its configuration has. A definition is written from the typed
source kept beside it: one whose record does not read back as a typed source is
left out.
-/

set_option autoImplicit false

namespace CacheWarden

namespace Daemon

open Store

/-- `split('\n')`, over texts. -/
def splitLines (s : String) : List String := (s.toList.splitOn '\n').map String.ofList

/-- `split_once('=')`: the text before the first sign and the text after. -/
def splitOnceEq : List Char → Option (List Char × List Char)
  | [] => none
  | c :: rest =>
    if c = '=' then some ([], rest)
    else (splitOnceEq rest).map fun p => (c :: p.1, p.2)

def envOfLines (lines : List String) : KeyMap String :=
  lines.foldl
    (fun env line =>
      match splitOnceEq line.toList with
      | some (k, v) => env.insert (String.ofList k) (String.ofList v)
      | none => env)
    ∅

namespace SourceSpecWire

def fromSourceMeta (m : SourceMeta) : Option SourceSpecWire :=
  match m.kind with
  | none => none
  | some kind =>
    if kind = "command" then
      match m.fields["argv"]? with
      | none => none
      | some argv =>
        if argv.isEmpty then none
        else
          let env :=
            match m.fields["env"]? with
            | some rendered => envOfLines (splitLines rendered)
            | none => ∅
          some (.command ⟨splitLines argv, m.fields["cwd"]?, env⟩)
    else if kind = "op" then
      (m.fields["uri"]?).map fun uri => .op ⟨uri, m.fields["account"]?⟩
    else none

end SourceSpecWire

/-- `meta_to_wire`. -/
def metaToWire (m : ValueMeta) : ValueMetaWire := ⟨m.typeLabel, m.params⟩

/-- The entry a definition is written as, if its source reads back and its key
has a namespace. -/
def writtenAs (key : String) (d : Definition) : Option KvDefinition :=
  (SourceSpecWire.fromSourceMeta d.sourceMeta).bind fun source =>
    (splitComposed key).map fun (ns, name) =>
      { name := String.ofList name
        pinnedNamespace := some (String.ofList ns)
        source := source
        softTtlSecs := d.ttl.soft.map Duration.asSecs
        hardTtlSecs := d.ttl.hard.map Duration.asSecs
        preload := false
        valueMeta := metaToWire d.valueMeta }

/-- `snapshot_definitions`: in the order of their keys. -/
def snapshotDefinitions (store : Store) : List KvDefinition :=
  store.definitions.keys.filterMap fun key =>
    (store.definitions[key]?).bind (writtenAs key)

def onlineDefinitions (configNames : List String) (store : Store) : List KvDefinition :=
  (snapshotDefinitions store).filter fun d => d.key ∉ configNames

section SourceMeta

theorem intercalate_eq_empty {sep : String} (hsep : sep ≠ "") {l : List String}
    (h : sep.intercalate l = "") : l = [] ∨ l = [""] := by
  match l with
  | [] => exact .inl rfl
  | [a] =>
    rw [String.intercalate_singleton] at h
    exact .inr (by rw [h])
  | a :: b :: rest =>
    rw [String.intercalate_cons_cons] at h
    simp [hsep] at h

/-- The recorded arguments of a command, whatever else is recorded. -/
theorem toSourceMeta_argv (spec : CommandSpecWire) :
    (SourceSpecWire.command spec).toSourceMeta.fields["argv"]? =
      some ("\n".intercalate spec.argv) := by
  unfold SourceSpecWire.toSourceMeta
  dsimp only
  split
  · rw [KeyMap.get_insertOpt, if_neg (by decide), KeyMap.get_insert_self]
  · rw [KeyMap.get_insert_of_ne _ _ (by decide), KeyMap.get_insertOpt, if_neg (by decide),
      KeyMap.get_insert_self]

/-- A command of one empty argument is recorded as if it had none. -/
def SourceSpecWire.Blank : SourceSpecWire → Prop
  | .command spec => spec.argv = [""]
  | .op _ => False

/-- The record of a source that passed its checks reads back, unless it is blank. -/
theorem fromSourceMeta_isSome_iff {source : SourceSpecWire} (h : source.validate = .ok ()) :
    (SourceSpecWire.fromSourceMeta source.toSourceMeta).isSome ↔ ¬ source.Blank := by
  cases source with
  | command spec =>
    have hargv : spec.argv ≠ [] := by
      intro hnil
      simp [SourceSpecWire.validate, hnil] at h
    unfold SourceSpecWire.fromSourceMeta
    rw [toSourceMeta_argv]
    by_cases hempty : "\n".intercalate spec.argv = ""
    · have hblank := (intercalate_eq_empty (by decide) hempty).resolve_left hargv
      simp [SourceSpecWire.toSourceMeta, SourceSpecWire.Blank, hblank]
    · have hnot : spec.argv ≠ [""] := by
        intro hblank
        exact hempty (by rw [hblank, String.intercalate_singleton])
      simp [SourceSpecWire.toSourceMeta, SourceSpecWire.Blank, hempty, hnot]
  | op spec =>
    simp [SourceSpecWire.fromSourceMeta, SourceSpecWire.toSourceMeta, SourceSpecWire.Blank,
      KeyMap.get_insertOpt]

end SourceMeta

theorem writtenAs_key {key : String} {d : Definition} {entry : KvDefinition}
    (h : writtenAs key d = some entry) : entry.key = key := by
  unfold writtenAs at h
  obtain ⟨source, -, h⟩ := Option.bind_eq_some_iff.mp h
  obtain ⟨⟨ns, name⟩, hsplit, rfl⟩ := Option.map_eq_some_iff.mp h
  have htext : key.toList = ns ++ '/' :: name := by
    unfold splitComposed at hsplit
    split at hsplit
    · rename_i ns' name' hslash
      split at hsplit
      · cases hsplit
        exact splitOnceSlash_some hslash
      · cases hsplit
    · cases hsplit
  apply String.toList_injective
  rw [htext]
  simp [KvDefinition.key, KvDefinition.fullKey, compose]

theorem writtenAs_isSome {key : String} {d : Definition} :
    (writtenAs key d).isSome ↔
      (SourceSpecWire.fromSourceMeta d.sourceMeta).isSome ∧ (splitComposed key).isSome := by
  unfold writtenAs
  cases SourceSpecWire.fromSourceMeta d.sourceMeta with
  | none => simp
  | some source => simp

/-- The snapshot has what each definition is written as. -/
theorem mem_snapshot {store : Store} {entry : KvDefinition} :
    entry ∈ snapshotDefinitions store ↔
      ∃ d, store.definitions[entry.key]? = some d ∧ writtenAs entry.key d = some entry := by
  unfold snapshotDefinitions
  simp only [List.mem_filterMap]
  constructor
  · rintro ⟨key, -, hentry⟩
    obtain ⟨d, hd, hwritten⟩ := Option.bind_eq_some_iff.mp hentry
    rw [writtenAs_key hwritten]
    exact ⟨d, hd, hwritten⟩
  · rintro ⟨d, hd, hwritten⟩
    refine ⟨entry.key, (KeyMap.mem_keys_iff _ _).mpr (Option.isSome_of_eq_some hd), ?_⟩
    rw [hd]
    exact hwritten

theorem mem_online {configNames : List String} {store : Store} {entry : KvDefinition} :
    entry ∈ onlineDefinitions configNames store ↔ entry.key ∉ configNames ∧
      ∃ d, store.definitions[entry.key]? = some d ∧ writtenAs entry.key d = some entry := by
  unfold onlineDefinitions
  rw [List.mem_filter, mem_snapshot, decide_eq_true_eq, and_comm]

theorem mem_online_keys {configNames : List String} {store : Store} {k : String} :
    k ∈ (onlineDefinitions configNames store).map KvDefinition.key ↔
      k ∉ configNames ∧ ∃ d, store.definitions[k]? = some d ∧ (writtenAs k d).isSome := by
  simp only [List.mem_map, mem_online]
  constructor
  · rintro ⟨entry, ⟨hk, d, hd, hwritten⟩, rfl⟩
    exact ⟨hk, d, hd, Option.isSome_of_eq_some hwritten⟩
  · rintro ⟨hk, d, hd, hwritten⟩
    obtain ⟨entry, hentry⟩ := Option.isSome_iff_exists.mp hwritten
    have hkey := writtenAs_key hentry
    exact ⟨entry, by rw [hkey]; exact ⟨hk, d, hd, hentry⟩, hkey⟩

end Daemon

end CacheWarden
