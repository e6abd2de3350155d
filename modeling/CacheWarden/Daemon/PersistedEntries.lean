import CacheWarden.Daemon.PersistedDocument

/-!
# The entries of a persisted document

The tree that a definition's table denotes decodes to the entry of the
definition, field by field.
-/

set_option autoImplicit false

namespace CacheWarden

namespace Daemon

open Toml

section Tree

theorem under_map {ι : Type} (k : String) (a : ι → String) (f : ι → List String × Value)
    (l : List ι) :
    under k (l.map fun i => (a i :: (f i).1, (f i).2)) = (l.filter fun i => a i = k).map f := by
  induction l with
  | nil => rfl
  | cons i l ih =>
    unfold under at ih ⊢
    rw [List.map_cons, List.filterMap_cons, ih, List.filter_cons]
    by_cases ha : a i = k <;> simp [ha]

theorem under_const {ι : Type} (k a : String) (f : ι → List String × Value) (l : List ι) :
    under k (l.map fun i => (a :: (f i).1, (f i).2)) = if a = k then l.map f else [] := by
  rw [under_map k (fun _ => a) f l]
  by_cases ha : a = k
  · rw [if_pos ha, List.filter_eq_self.mpr fun _ _ => decide_eq_true ha]
  · rw [if_neg ha, List.filter_eq_nil_iff.mpr fun _ _ h => ha (of_decide_eq_true h)]
    rfl

/-- Of things with names of their own, one has the name of a given one. -/
theorem filter_named {ι : Type} {name : ι → String} {l : List ι} (hnodup : (l.map name).Nodup)
    {i : ι} (hi : i ∈ l) : (l.filter fun j => name j = name i) = [i] := by
  induction l with
  | nil => cases hi
  | cons j l ih =>
    rw [List.map_cons, List.nodup_cons] at hnodup
    rw [List.filter_cons]
    rcases List.mem_cons.mp hi with rfl | hi
    · have hnone : (l.filter fun j => name j = name i) = [] := by
        rw [List.filter_eq_nil_iff]
        intro j hj hsame
        exact hnodup.1 (List.mem_map.mpr ⟨j, hj, of_decide_eq_true hsame⟩)
      rw [if_pos (by simp), hnone]
    · have hne : name j ≠ name i := by
        intro heq
        exact hnodup.1 (List.mem_map.mpr ⟨i, hi, heq.symm⟩)
      rw [if_neg (by simpa using hne), ih hnodup.2 hi]

def assigned (body : List Assignment) : List (List String × Value) :=
  body.map fun a => (a.path, a.scalar.value)

theorem assigned_append (body rest : List Assignment) :
    assigned (body ++ rest) = assigned body ++ assigned rest := List.map_append

theorem under_line (k a : String) (path : List String) (scalar : Scalar) (body : List Assignment) :
    under k (assigned (⟨a :: path, scalar⟩ :: body)) =
      (if a = k then [(path, scalar.value)] else []) ++ under k (assigned body) := by
  unfold assigned under
  rw [List.map_cons]
  by_cases ha : a = k <;> simp [ha]

theorem under_lineOpt (k a : String) (path : List String) (scalar : Option Scalar) :
    under k (assigned (lineOpt (a :: path) scalar)) =
      if a = k then scalar.toList.map fun s => (path, s.value) else [] := by
  unfold assigned lineOpt
  rw [List.map_map]
  exact under_const k a (fun s : Scalar => (path, s.value)) scalar.toList

theorem under_envLines (env : List (String × String)) (k : String) :
    under k (assigned (env.map fun p => ⟨["command", "env", p.1], .string p.2⟩)) =
      if "command" = k then env.map fun p => (["env", p.1], Value.string p.2) else [] := by
  unfold assigned
  rw [List.map_map]
  exact under_const k "command" (fun p : String × String => (["env", p.1], Value.string p.2)) env

theorem under_sourceBody {k : String} {source : SourceSpecWire} (hsource : k ≠ "source")
    (hcommand : k ≠ "command") (hop : k ≠ "op") : under k (assigned (sourceBody source)) = [] := by
  cases source with
  | op spec =>
    unfold sourceBody
    rw [under_line, under_line, under_lineOpt, if_neg hsource.symm, if_neg hop.symm,
      if_neg hop.symm]
    rfl
  | command spec =>
    unfold sourceBody
    rw [under_line, under_line, assigned_append, under_append, under_lineOpt, under_envLines,
      if_neg hsource.symm, if_neg hcommand.symm, if_neg hcommand.symm, if_neg hcommand.symm]
    rfl

variable {fields : List (List String × Value)} {k : String}

/-- A field that is there when a value is, decodes to it. -/
theorem optional_leaf {α β : Type} {decode : Value → Except DecodeError β} {given : Option α}
    {value : α → Value} {f : α → β}
    (hunder : under k fields = given.toList.map fun a => ([], value a))
    (hdecode : ∀ a, given = some a → decode (value a) = .ok (f a)) :
    optional decode (insertAll fields []) k = .ok (given.map f) := by
  unfold optional
  cases given with
  | none =>
    rw [get_absent hunder]
    rfl
  | some a =>
    rw [get_leaf hunder]
    dsimp only
    rw [hdecode a rfl]
    rfl

theorem denyUnknown_insertAll {known : List String}
    (h : ∀ p ∈ fields, ∃ a path, p.1 = a :: path ∧ a ∈ known) :
    denyUnknown known (insertAll fields []) = .ok () := by
  have hnone : (insertAll fields []).find? (fun p => p.1 ∉ known) = none := by
    rw [List.find?_eq_none]
    rintro ⟨name, v⟩ hmem hunknown
    have hnodup : ((insertAll fields []).map Prod.fst).Nodup := nodup_insertAll fields List.nodup_nil
    have hget := (mem_iff_get hnodup).mp hmem
    have hunder : under name fields ≠ [] := by
      intro hnil
      rw [get_absent hnil] at hget
      cases hget
    obtain ⟨q, hq⟩ := List.exists_mem_of_ne_nil _ hunder
    unfold under at hq
    obtain ⟨p, hp, hhead⟩ := List.mem_filterMap.mp hq
    obtain ⟨a, path, hpath, hknown⟩ := h p hp
    rw [hpath] at hhead
    dsimp only at hhead
    by_cases ha : a = name
    · rw [ha] at hknown
      simp [hknown] at hunknown
    · rw [if_neg ha] at hhead
      cases hhead
  unfold denyUnknown
  rw [hnone]

theorem decodeFields_ok {α : Type} {decode : Value → Except DecodeError α} {fields : Table}
    (hnodup : (fields.map Prod.fst).Nodup)
    (h : ∀ k v, fields.get k = some v → ∃ a, decode v = .ok a) :
    ∃ m, decodeFields decode fields = .ok m ∧
      ∀ (k : String) a, m[k]? = some a ↔ ∃ v, fields.get k = some v ∧ decode v = .ok a := by
  induction fields with
  | nil =>
    refine ⟨∅, rfl, ?_⟩
    intro k a
    simp [Table.get]
  | cons p fields ih =>
    obtain ⟨name, v⟩ := p
    rw [List.map_cons, List.nodup_cons] at hnodup
    have hfresh : Table.get fields name = none := by
      cases hget : Table.get fields name with
      | none => rfl
      | some w =>
        exact absurd (List.mem_map.mpr ⟨(name, w), (mem_iff_get hnodup.2).mpr hget, rfl⟩) hnodup.1
    obtain ⟨a, ha⟩ := h name v (by rw [get_cons, if_pos rfl])
    have hrest : ∀ k w, Table.get fields k = some w → ∃ a, decode w = .ok a := by
      intro k w hget
      apply h k w
      have hne : name ≠ k := by
        rintro rfl
        rw [hfresh] at hget
        cases hget
      rw [get_cons, if_neg hne, hget]
    obtain ⟨m, hm, hmap⟩ := ih hnodup.2 hrest
    refine ⟨m.insert name a, ?_, ?_⟩
    · unfold decodeFields
      rw [ha, hm]
      rfl
    · intro k b
      rw [KeyMap.get_insert, get_cons]
      by_cases hk : name = k
      · rw [if_pos hk, if_pos hk]
        constructor
        · intro hb
          exact ⟨v, rfl, by rw [ha, Option.some.inj hb]⟩
        · rintro ⟨w, hw, hb⟩
          cases hw
          rw [ha] at hb
          exact congrArg some (Except.ok.inj hb)
      · rw [if_neg hk, if_neg hk]
        exact hmap k b

/-- A table of values with names of their own decodes to a map of them. -/
theorem decodeMap_named {ι α : Type} {decode : Value → Except DecodeError α} {l : List ι}
    {name : ι → String} {value : ι → Value} {result : ι → α} (hnodup : (l.map name).Nodup)
    (hdecode : ∀ i ∈ l, decode (value i) = .ok (result i)) :
    ∃ m, decodeMap decode (.table (insertAll (l.map fun i => ([name i], value i)) [])) = .ok m ∧
      ∀ (k : String) a, m[k]? = some a ↔ ∃ i ∈ l, name i = k ∧ result i = a := by
  have hunder : ∀ k, under k (l.map fun i => ([name i], value i)) =
      (l.filter fun i => name i = k).map fun i => ([], value i) :=
    fun k => under_map k name (fun i => ([], value i)) l
  have hget : ∀ k v, Table.get (insertAll (l.map fun i => ([name i], value i)) []) k = some v ↔
      ∃ i ∈ l, name i = k ∧ value i = v := by
    intro k v
    by_cases hk : ∃ i ∈ l, name i = k
    · obtain ⟨i, hi, rfl⟩ := hk
      have hleaf := hunder (name i)
      rw [filter_named hnodup hi] at hleaf
      rw [get_leaf hleaf]
      constructor
      · intro hv
        exact ⟨i, hi, rfl, Option.some.inj hv⟩
      · rintro ⟨j, hj, hname, rfl⟩
        rw [List.inj_on_of_nodup_map hnodup hj hi hname]
    · have hnone : (l.filter fun i => name i = k) = [] := by
        rw [List.filter_eq_nil_iff]
        intro i hi hname
        exact hk ⟨i, hi, of_decide_eq_true hname⟩
      have habsent := hunder k
      rw [hnone] at habsent
      rw [get_absent habsent]
      constructor
      · intro hv
        cases hv
      · rintro ⟨i, hi, hname, -⟩
        exact absurd ⟨i, hi, hname⟩ hk
  have hfields : ((insertAll (l.map fun i => ([name i], value i)) []).map Prod.fst).Nodup :=
    nodup_insertAll _ List.nodup_nil
  obtain ⟨m, hm, hmap⟩ := @decodeFields_ok _ decode _ hfields (by
    intro k v hv
    obtain ⟨i, hi, -, rfl⟩ := (hget k v).mp hv
    exact ⟨result i, hdecode i hi⟩)
  refine ⟨m, hm, ?_⟩
  intro k a
  rw [hmap]
  constructor
  · rintro ⟨v, hv, ha⟩
    obtain ⟨i, hi, hname, rfl⟩ := (hget k v).mp hv
    rw [hdecode i hi] at ha
    exact ⟨i, hi, hname, Except.ok.inj ha⟩
  · rintro ⟨i, hi, hname, rfl⟩
    exact ⟨value i, (hget k _).mpr ⟨i, hi, hname, rfl⟩, hdecode i hi⟩

end Tree

section Entry

theorem decodeStrings_map (items : List String) :
    decodeStrings (.array (items.map .string)) = .ok items := by
  unfold decodeStrings
  induction items with
  | nil => rfl
  | cons s items ih =>
    dsimp only at ih ⊢
    rw [List.map_cons, List.mapM_cons, ih]
    rfl

theorem decodeU32_ofNat (d : UInt32) : decodeU32 (.integer (Int64.ofNat d.toNat)) = .ok d := by
  have hd := d.toNat_lt
  have hint : (Int64.ofNat d.toNat).toInt = d.toNat := Int64.toInt_ofNat_of_lt (by omega)
  unfold decodeU32
  dsimp only
  rw [hint, if_pos (by omega), Int.toNat_natCast, UInt32.ofNat_toNat]

theorem decodeU64_ofNat {p : UInt64} (h : p.toNat < 2 ^ 63) :
    decodeU64 (.integer (Int64.ofNat p.toNat)) = .ok p := by
  have hint : (Int64.ofNat p.toNat).toInt = p.toNat := Int64.toInt_ofNat_of_lt h
  unfold decodeU64
  dsimp only
  rw [hint, if_pos (by omega), Int.toNat_natCast, UInt64.ofNat_toNat]

/-- The values under a command, as its table has them. -/
def commandFields (spec : CommandSpecWire) : List (List String × Value) :=
  (["argv"], .array (spec.argv.map .string)) ::
    ((spec.cwd.toList.map fun cwd => (["cwd"], .string cwd)) ++
      spec.env.toList.map fun p => (["env", p.1], .string p.2))

theorem under_command (spec : CommandSpecWire) :
    under "command" (assigned (sourceBody (.command spec))) = commandFields spec := by
  unfold sourceBody commandFields
  rw [under_line, under_line, assigned_append, under_append, under_lineOpt, under_envLines,
    if_neg (by decide), if_pos rfl, if_pos rfl, if_pos rfl]
  cases spec.cwd <;> rfl

theorem under_env (env : List (String × String)) (k : String) :
    under k (env.map fun p => (["env", p.1], Value.string p.2)) =
      if k = "env" then env.map fun p => ([p.1], Value.string p.2) else [] := by
  simp only [eq_comm (a := k)]
  exact under_const k "env" (fun p : String × String => ([p.1], Value.string p.2)) env

theorem decode_env {fields : List (List String × Value)} {env : KeyMap String}
    (hunder : under "env" fields = env.toList.map fun p => ([p.1], .string p.2)) :
    ∃ decoded, optional (decodeMap decodeString) (insertAll fields []) "env" = .ok decoded ∧
      decoded.getD ∅ = env := by
  by_cases hempty : env.toList = []
  · rw [hempty] at hunder
    refine ⟨none, ?_, ?_⟩
    · unfold optional
      rw [get_absent hunder]
    · apply KeyMap.ext_get
      intro k
      apply Option.ext
      intro v
      rw [← KeyMap.mem_toList env, hempty]
      simp
  · have hpaths : ∀ p ∈ env.toList.map fun p => ([p.1], Value.string p.2), p.1 ≠ [] := by
      intro p hp
      obtain ⟨q, -, rfl⟩ := List.mem_map.mp hp
      exact List.cons_ne_nil _ _
    have hget := get_table hunder (by simpa using hempty) hpaths
    obtain ⟨m, hm, hmap⟩ := @decodeMap_named (String × String) String decodeString env.toList
      Prod.fst (fun p => .string p.2) Prod.snd (KeyMap.nodup_toList env) (fun _ _ => rfl)
    refine ⟨some m, ?_, ?_⟩
    · unfold optional
      rw [hget]
      dsimp only
      rw [hm]
      rfl
    · apply KeyMap.ext_get
      intro k
      apply Option.ext
      intro v
      rw [← KeyMap.mem_toList env]
      refine (hmap k v).trans ?_
      constructor
      · rintro ⟨⟨a, b⟩, hmem, rfl, rfl⟩
        exact hmem
      · intro hmem
        exact ⟨(k, v), hmem, rfl, rfl⟩

theorem commandTable_decode (spec : CommandSpecWire) :
    CommandTable.decode (.table (insertAll (commandFields spec) [])) =
      .ok ⟨some spec.argv, spec.cwd, spec.env⟩ := by
  obtain ⟨argv, cwd, env⟩ := spec
  have hcwdUnder : ∀ k, under k (cwd.toList.map fun cwd => (["cwd"], Value.string cwd)) =
      if k = "cwd" then cwd.toList.map fun cwd => ([], Value.string cwd) else [] := by
    intro k
    cases cwd with
    | none => simp [under]
    | some cwd => by_cases hk : k = "cwd" <;> simp [under, hk, eq_comm]
  have hunder : ∀ k, under k (commandFields ⟨argv, cwd, env⟩) =
      (if k = "argv" then [([], Value.array (argv.map .string))] else []) ++
        ((if k = "cwd" then cwd.toList.map fun cwd => ([], Value.string cwd) else []) ++
          if k = "env" then env.toList.map fun p => ([p.1], Value.string p.2) else []) := by
    intro k
    unfold commandFields
    rw [← hcwdUnder, ← under_env, ← under_append]
    by_cases hk : k = "argv"
    · simp [under, hk]
    · simp [under, hk, Ne.symm hk]
  have hknown : denyUnknown ["argv", "cwd", "env"] (insertAll (commandFields ⟨argv, cwd, env⟩) []) =
      .ok () := by
    apply denyUnknown_insertAll
    intro p hp
    unfold commandFields at hp
    rcases List.mem_cons.mp hp with rfl | hp
    · exact ⟨"argv", [], rfl, by decide⟩
    · rcases List.mem_append.mp hp with hp | hp
      · obtain ⟨cwd, -, rfl⟩ := List.mem_map.mp hp
        exact ⟨"cwd", [], rfl, by decide⟩
      · obtain ⟨q, -, rfl⟩ := List.mem_map.mp hp
        exact ⟨"env", [q.1], rfl, by decide⟩
  have hargv := @optional_leaf (commandFields ⟨argv, cwd, env⟩) "argv" _ _ decodeStrings
    (some argv) (fun argv => .array (argv.map .string)) id (by rw [hunder]; simp)
    (fun a _ => decodeStrings_map a)
  have hcwd := @optional_leaf (commandFields ⟨argv, cwd, env⟩) "cwd" _ _ decodeString
    cwd Value.string id (by rw [hunder]; simp) (fun _ _ => rfl)
  obtain ⟨decoded, henv, hdecoded⟩ :=
    @decode_env (commandFields ⟨argv, cwd, env⟩) env (by rw [hunder]; simp)
  unfold CommandTable.decode
  dsimp only
  rw [hknown, hargv, hcwd, henv, Option.map_id, Option.map_id]
  exact congrArg (fun env => Except.ok (CommandTable.mk (some argv) cwd env)) hdecoded

def opFields (spec : OpSpecWire) : List (List String × Value) :=
  (["uri"], .string spec.uri) ::
    spec.account.toList.map fun account => (["account"], .string account)

theorem under_op (spec : OpSpecWire) :
    under "op" (assigned (sourceBody (.op spec))) = opFields spec := by
  unfold sourceBody opFields
  rw [under_line, under_line, under_lineOpt, if_neg (by decide), if_pos rfl, if_pos rfl]
  cases spec.account <;> rfl

theorem opTable_decode (spec : OpSpecWire) :
    OpTable.decode (.table (insertAll (opFields spec) [])) = .ok ⟨some spec.uri, spec.account⟩ := by
  obtain ⟨uri, account⟩ := spec
  cases account <;> rfl

theorem under_metaBody (settings : Option OtpSettings) (k : String) :
    under k (assigned (metaBody settings)) =
      (if "type" = k then settings.toList.map fun _ => ([], Value.string "otp") else []) ++
        ((if "otp-digits" = k then
            (settings.bind OtpSettings.digits).toList.map fun d =>
              ([], Value.integer (Int64.ofNat d.toNat))
          else []) ++
          ((if "otp-period" = k then
              (settings.bind OtpSettings.period).toList.map fun p =>
                ([], Value.integer (Int64.ofNat p.toNat))
            else []) ++
            if "otp-algorithm" = k then
              (settings.bind OtpSettings.algorithm).toList.map fun a => ([], Value.string a.label)
            else [])) := by
  cases settings with
  | none => simp [metaBody, assigned, under]
  | some s =>
    obtain ⟨digits, period, algorithm, -, -⟩ := s
    unfold metaBody
    rw [under_line, assigned_append, under_append, assigned_append, under_append, under_lineOpt,
      under_lineOpt, under_lineOpt]
    cases digits <;> cases period <;> cases algorithm <;> rfl

variable {d : KvDefinition} {settings : Option OtpSettings}

theorem under_definition (d : KvDefinition) (settings : Option OtpSettings) (k : String) :
    under k (assigned (definitionBody d settings)) =
      under k (assigned (sourceBody d.source)) ++
        ((if "soft-ttl" = k then
            d.softTtlSecs.toList.map fun secs => ([], Value.string (ttlText secs))
          else []) ++
          ((if "hard-ttl" = k then
              d.hardTtlSecs.toList.map fun secs => ([], Value.string (ttlText secs))
            else []) ++ under k (assigned (metaBody settings)))) := by
  unfold definitionBody ttlBody
  rw [assigned_append, under_append, assigned_append, under_append, assigned_append, under_append,
    under_lineOpt, under_lineOpt]
  cases d.softTtlSecs <;> cases d.hardTtlSecs <;> rfl

/-- The number of seconds in a period fits the file's integers. -/
def FitsFile (settings : Option OtpSettings) : Prop :=
  ∀ p, settings.bind OtpSettings.period = some p → p.toNat < 2 ^ 63

def kindOf : SourceSpecWire → String
  | .command _ => "command"
  | .op _ => "op"

def commandOf : SourceSpecWire → Option Value
  | .command spec => some (.table (insertAll (commandFields spec) []))
  | .op _ => none

def opOf : SourceSpecWire → Option OpTable
  | .command _ => none
  | .op spec => some ⟨some spec.uri, spec.account⟩

/-- The entry that the table of a definition decodes to. -/
def entryOf (d : KvDefinition) (settings : Option OtpSettings) : DefEntry where
  source := some (kindOf d.source)
  command := commandOf d.source
  op := opOf d.source
  softTtl := d.softTtlSecs.map ttlText
  hardTtl := d.hardTtlSecs.map ttlText
  valueType := settings.map fun _ => "otp"
  otpDigits := settings.bind OtpSettings.digits
  otpPeriod := settings.bind OtpSettings.period
  otpAlgorithm := (settings.bind OtpSettings.algorithm).map OtpAlgorithm.label
  pinnedNamespace := none
  preload := none
  value := none
  valueStdin := none
  static := none

theorem known_definition (d : KvDefinition) (settings : Option OtpSettings) :
    denyUnknown DefEntry.fields (definitionSection d settings).tree = .ok () := by
  have hopt : ∀ {a : String} {path : List String} {scalar : Option Scalar} {p},
      a ∈ DefEntry.fields → p ∈ assigned (lineOpt (a :: path) scalar) →
        ∃ a path, p.1 = a :: path ∧ a ∈ DefEntry.fields := by
    intro a path scalar p ha hp
    unfold assigned lineOpt at hp
    rw [List.map_map] at hp
    obtain ⟨s, -, rfl⟩ := List.mem_map.mp hp
    exact ⟨a, path, rfl, ha⟩
  have hline : ∀ {a : String} {path : List String} {scalar : Scalar} {body : List Assignment} {p},
      a ∈ DefEntry.fields → p ∈ assigned (⟨a :: path, scalar⟩ :: body) →
        (∀ p ∈ assigned body, ∃ a path, p.1 = a :: path ∧ a ∈ DefEntry.fields) →
          ∃ a path, p.1 = a :: path ∧ a ∈ DefEntry.fields := by
    intro a path scalar body p ha hp hrest
    rcases List.mem_cons.mp hp with rfl | hp
    · exact ⟨a, path, rfl, ha⟩
    · exact hrest p hp
  have hsource : ∀ p ∈ assigned (sourceBody d.source),
      ∃ a path, p.1 = a :: path ∧ a ∈ DefEntry.fields := by
    intro p hp
    cases hd : d.source with
    | op spec =>
      rw [hd] at hp
      exact hline (by decide) hp fun p hp => hline (by decide) hp fun p hp => hopt (by decide) hp
    | command spec =>
      rw [hd] at hp
      apply hline (by decide) hp
      intro p hp
      apply hline (by decide) hp
      intro p hp
      rw [assigned_append] at hp
      rcases List.mem_append.mp hp with hp | hp
      · exact hopt (by decide) hp
      · unfold assigned at hp
        rw [List.map_map] at hp
        obtain ⟨q, -, rfl⟩ := List.mem_map.mp hp
        exact ⟨"command", ["env", q.1], rfl, by decide⟩
  have hmeta : ∀ p ∈ assigned (metaBody settings),
      ∃ a path, p.1 = a :: path ∧ a ∈ DefEntry.fields := by
    intro p hp
    cases settings with
    | none => cases hp
    | some s =>
      apply hline (by decide) hp
      intro p hp
      rw [assigned_append, assigned_append] at hp
      rcases List.mem_append.mp hp with hp | hp
      · exact hopt (by decide) hp
      · rcases List.mem_append.mp hp with hp | hp
        · exact hopt (by decide) hp
        · exact hopt (by decide) hp
  apply denyUnknown_insertAll
  intro p hp
  have hp : p ∈ assigned (definitionBody d settings) := hp
  unfold definitionBody at hp
  rw [assigned_append, assigned_append, assigned_append] at hp
  rcases List.mem_append.mp hp with hp | hp
  · exact hsource p hp
  · rcases List.mem_append.mp hp with hp | hp
    · exact hopt (by decide) hp
    · rcases List.mem_append.mp hp with hp | hp
      · exact hopt (by decide) hp
      · exact hmeta p hp

/-- Where no other field shares its name, a field of the source stands alone. -/
theorem under_source {k : String} (h : k ∈ ["source", "command", "op"]) :
    under k (assigned (definitionBody d settings)) = under k (assigned (sourceBody d.source)) := by
  rw [under_definition, under_metaBody]
  simp only [List.mem_cons, List.not_mem_nil, or_false] at h
  rcases h with rfl | rfl | rfl
  · simp
  · simp
  · simp

theorem get_command (d : KvDefinition) (settings : Option OtpSettings) :
    Table.get (definitionSection d settings).tree "command" = commandOf d.source := by
  have hsource := @under_source d settings "command" (by decide)
  cases hd : d.source with
  | command spec =>
    rw [hd, under_command] at hsource
    apply get_table hsource (List.cons_ne_nil _ _)
    intro p hp
    unfold commandFields at hp
    rcases List.mem_cons.mp hp with rfl | hp
    · exact List.cons_ne_nil _ _
    · rcases List.mem_append.mp hp with hp | hp
      · obtain ⟨cwd, -, rfl⟩ := List.mem_map.mp hp
        exact List.cons_ne_nil _ _
      · obtain ⟨q, -, rfl⟩ := List.mem_map.mp hp
        exact List.cons_ne_nil _ _
  | op spec =>
    rw [hd] at hsource
    unfold sourceBody at hsource
    rw [under_line, under_line, under_lineOpt, if_neg (by decide), if_neg (by decide),
      if_neg (by decide)] at hsource
    exact get_absent hsource

theorem decode_op (d : KvDefinition) (settings : Option OtpSettings) :
    optional OpTable.decode (definitionSection d settings).tree "op" = .ok (opOf d.source) := by
  have hsource := @under_source d settings "op" (by decide)
  unfold optional
  cases hd : d.source with
  | op spec =>
    rw [hd, under_op] at hsource
    have hget : Table.get (definitionSection d settings).tree "op" =
        some (.table (insertAll (opFields spec) [])) := by
      apply get_table hsource (List.cons_ne_nil _ _)
      intro p hp
      unfold opFields at hp
      rcases List.mem_cons.mp hp with rfl | hp
      · exact List.cons_ne_nil _ _
      · obtain ⟨account, -, rfl⟩ := List.mem_map.mp hp
        exact List.cons_ne_nil _ _
    rw [hget]
    dsimp only
    rw [opTable_decode]
    rfl
  | command spec =>
    rw [hd] at hsource
    have hnone : Table.get (definitionSection d settings).tree "op" = none := by
      apply get_absent
      refine hsource.trans ?_
      unfold sourceBody
      rw [under_line, under_line, assigned_append, under_append, under_lineOpt, under_envLines,
        if_neg (by decide), if_neg (by decide), if_neg (by decide), if_neg (by decide)]
      rfl
    rw [hnone]
    rfl

theorem under_kind (source : SourceSpecWire) :
    under "source" (assigned (sourceBody source)) = [([], .string (kindOf source))] := by
  cases source with
  | op spec =>
    unfold sourceBody
    rw [under_line, under_line, under_lineOpt, if_pos rfl, if_neg (by decide), if_neg (by decide)]
    rfl
  | command spec =>
    unfold sourceBody
    rw [under_line, under_line, assigned_append, under_append, under_lineOpt, under_envLines,
      if_pos rfl, if_neg (by decide), if_neg (by decide), if_neg (by decide)]
    rfl

theorem decode_definition (hfits : FitsFile settings) :
    DefEntry.decode (.table (definitionSection d settings).tree) = .ok (entryOf d settings) := by
  have hunder := under_definition d settings
  have hmeta := under_metaBody settings
  have hplain : ∀ {k}, k ≠ "source" → k ≠ "command" → k ≠ "op" →
      under k (assigned (sourceBody d.source)) = [] := under_sourceBody
  have htree : (definitionSection d settings).tree =
      insertAll (assigned (definitionBody d settings)) [] := rfl
  have habsent : ∀ k, k ∉ ["source", "command", "op", "soft-ttl", "hard-ttl", "type", "otp-digits",
      "otp-period", "otp-algorithm"] →
        Table.get (definitionSection d settings).tree k = none := by
    intro k hk
    simp only [List.mem_cons, List.not_mem_nil, or_false, not_or] at hk
    obtain ⟨hsource, hcommand, hop, hsoft, hhard, htype, hdigits, hperiod, halgorithm⟩ := hk
    rw [htree]
    apply get_absent
    rw [hunder, hmeta, hplain hsource hcommand hop, if_neg (Ne.symm hsoft), if_neg (Ne.symm hhard),
      if_neg (Ne.symm htype), if_neg (Ne.symm hdigits), if_neg (Ne.symm hperiod),
      if_neg (Ne.symm halgorithm)]
    rfl
  have hleaf : ∀ {k}, k ≠ "source" → k ≠ "command" → k ≠ "op" →
      under k (assigned (definitionBody d settings)) =
        (if "soft-ttl" = k then
            d.softTtlSecs.toList.map fun secs => ([], Value.string (ttlText secs))
          else []) ++
          ((if "hard-ttl" = k then
              d.hardTtlSecs.toList.map fun secs => ([], Value.string (ttlText secs))
            else []) ++ under k (assigned (metaBody settings))) := by
    intro k hsource hcommand hop
    rw [hunder, hplain hsource hcommand hop]
    rfl
  have hkind := @optional_leaf (assigned (definitionBody d settings)) "source" _ _ decodeString
    (some (kindOf d.source)) Value.string id
    (by rw [under_source (by decide), under_kind]; rfl) (fun _ _ => rfl)
  have hsoft := @optional_leaf (assigned (definitionBody d settings)) "soft-ttl" _ _ decodeString
    d.softTtlSecs (fun secs => Value.string (ttlText secs)) ttlText
    (by rw [hleaf (by decide) (by decide) (by decide), hmeta]; simp) (fun _ _ => rfl)
  have hhard := @optional_leaf (assigned (definitionBody d settings)) "hard-ttl" _ _ decodeString
    d.hardTtlSecs (fun secs => Value.string (ttlText secs)) ttlText
    (by rw [hleaf (by decide) (by decide) (by decide), hmeta]; simp) (fun _ _ => rfl)
  have htype := @optional_leaf (assigned (definitionBody d settings)) "type" _ _ decodeString
    settings (fun _ => Value.string "otp") (fun _ => "otp")
    (by rw [hleaf (by decide) (by decide) (by decide), hmeta]; simp) (fun _ _ => rfl)
  have hdigits := @optional_leaf (assigned (definitionBody d settings)) "otp-digits" _ _ decodeU32
    (settings.bind OtpSettings.digits) (fun d => Value.integer (Int64.ofNat d.toNat)) id
    (by rw [hleaf (by decide) (by decide) (by decide), hmeta]; simp)
    (fun digits _ => decodeU32_ofNat digits)
  have hperiod := @optional_leaf (assigned (definitionBody d settings)) "otp-period" _ _ decodeU64
    (settings.bind OtpSettings.period) (fun p => Value.integer (Int64.ofNat p.toNat)) id
    (by rw [hleaf (by decide) (by decide) (by decide), hmeta]; simp)
    (fun p hp => decodeU64_ofNat (hfits p hp))
  have halgorithm := @optional_leaf (assigned (definitionBody d settings)) "otp-algorithm" _ _
    decodeString (settings.bind OtpSettings.algorithm) (fun a => Value.string a.label)
    OtpAlgorithm.label (by rw [hleaf (by decide) (by decide) (by decide), hmeta]; simp)
    (fun _ _ => rfl)
  have hnamespace : optional decodeString (definitionSection d settings).tree "namespace" =
      .ok none := by
    unfold optional
    rw [habsent "namespace" (by decide)]
  rw [← htree, Option.map_id] at hkind hdigits hperiod
  rw [← htree] at hsoft hhard htype halgorithm
  unfold DefEntry.decode
  dsimp only
  rw [known_definition, hkind, decode_op, hsoft, hhard, htype, hdigits, hperiod, halgorithm,
    hnamespace, get_command, habsent "preload" (by decide), habsent "value" (by decide),
    habsent "value-stdin" (by decide), habsent "static" (by decide)]
  rfl

end Entry

end Daemon

end CacheWarden
