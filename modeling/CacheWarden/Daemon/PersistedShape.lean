import CacheWarden.Daemon.PersistedLoad
import CacheWarden.Lib.TomlReader

/-!
# The shape of a persisted document

The document of definitions with keys of their own assigns no path twice and
goes through no value. It is clean when no text of a source holds a control
character, and every period fits the integers of the format.
-/

set_option autoImplicit false

namespace CacheWarden

namespace Daemon

open Toml

section Shape

/-- Neither assignment goes through the other. -/
def Apart (a b : Assignment) : Prop := ¬ a.path <+: b.path ∧ ¬ b.path <+: a.path

theorem apart_of_heads {a b : Assignment} {m n : String} {p q : List String}
    (ha : a.path = m :: p) (hb : b.path = n :: q) (hne : m ≠ n) : Apart a b := by
  unfold Apart
  rw [ha, hb, List.cons_prefix_cons, List.cons_prefix_cons]
  exact ⟨fun h => hne h.1, fun h => hne h.1.symm⟩

/-- Every path starts with one of the names. -/
def StartsIn (names : List String) (body : List Assignment) : Prop :=
  ∀ a ∈ body, ∃ n ∈ names, ∃ path, a.path = n :: path

theorem startsIn_lineOpt {n : String} {path : List String} (scalar : Option Scalar) :
    StartsIn [n] (lineOpt (n :: path) scalar) := by
  intro a ha
  obtain ⟨s, -, rfl⟩ := List.mem_map.mp ha
  exact ⟨n, List.mem_singleton_self n, path, rfl⟩

theorem startsIn_cons {names : List String} {a : Assignment} {body : List Assignment} {n : String}
    {path : List String} (ha : a.path = n :: path) (hbody : StartsIn names body) :
    StartsIn (n :: names) (a :: body) := by
  intro b hb
  rcases List.mem_cons.mp hb with rfl | hb
  · exact ⟨n, List.mem_cons_self, path, ha⟩
  · obtain ⟨m, hm, hpath⟩ := hbody b hb
    exact ⟨m, List.mem_cons_of_mem _ hm, hpath⟩

theorem startsIn_append {names rest : List String} {body tail : List Assignment}
    (hbody : StartsIn names body) (htail : StartsIn rest tail) :
    StartsIn (names ++ rest) (body ++ tail) := by
  intro a ha
  rcases List.mem_append.mp ha with ha | ha
  · obtain ⟨n, hn, hpath⟩ := hbody a ha
    exact ⟨n, List.mem_append_left _ hn, hpath⟩
  · obtain ⟨n, hn, hpath⟩ := htail a ha
    exact ⟨n, List.mem_append_right _ hn, hpath⟩

theorem apart_append {names rest : List String} {body tail : List Assignment}
    (hbody : body.Pairwise Apart) (htail : tail.Pairwise Apart) (hnames : StartsIn names body)
    (hrest : StartsIn rest tail) (hdisjoint : ∀ n ∈ names, n ∉ rest) :
    (body ++ tail).Pairwise Apart := by
  rw [List.pairwise_append]
  refine ⟨hbody, htail, ?_⟩
  intro a ha b hb
  obtain ⟨m, hm, p, hpath⟩ := hnames a ha
  obtain ⟨n, hn, q, hpath'⟩ := hrest b hb
  apply apart_of_heads hpath hpath'
  rintro rfl
  exact hdisjoint m hm hn

theorem apart_cons {rest : List String} {a : Assignment} {tail : List Assignment} {n : String}
    {path : List String} (ha : a.path = n :: path) (htail : tail.Pairwise Apart)
    (hrest : StartsIn rest tail) (hn : n ∉ rest) : (a :: tail).Pairwise Apart := by
  apply @apart_append [n] rest [a] tail (List.pairwise_singleton _ a) htail _ hrest
  · intro m hm
    rw [List.mem_singleton.mp hm]
    exact hn
  · intro b hb
    rw [List.mem_singleton.mp hb]
    exact ⟨n, List.mem_singleton_self n, path, ha⟩

theorem apart_lineOpt (path : List String) (scalar : Option Scalar) :
    (lineOpt path scalar).Pairwise Apart := by
  cases scalar with
  | none => exact List.Pairwise.nil
  | some s => exact List.pairwise_singleton _ _

def below (n : String) (body : List Assignment) : List Assignment :=
  body.map fun a => ⟨n :: a.path, a.scalar⟩

theorem apart_below {n : String} {body : List Assignment} (h : body.Pairwise Apart) :
    (below n body).Pairwise Apart := by
  unfold below
  rw [List.pairwise_map]
  apply h.imp
  intro a b hab
  unfold Apart at hab ⊢
  dsimp only
  rw [List.cons_prefix_cons, List.cons_prefix_cons]
  exact ⟨fun h => hab.1 h.2, fun h => hab.2 h.2⟩

theorem startsIn_below {n : String} {body : List Assignment} : StartsIn [n] (below n body) := by
  intro a ha
  obtain ⟨b, -, rfl⟩ := List.mem_map.mp ha
  exact ⟨n, List.mem_singleton_self n, b.path, rfl⟩

theorem apart_sourceBody (source : SourceSpecWire) : (sourceBody source).Pairwise Apart := by
  cases source with
  | op spec =>
    have hbody : sourceBody (.op spec) = ⟨["source"], .string "op"⟩ :: below "op"
        (⟨["uri"], .string spec.uri⟩ :: lineOpt ["account"] (spec.account.map .string)) := by
      unfold sourceBody below lineOpt
      rw [List.map_cons, List.map_map]
      rfl
    rw [hbody]
    apply apart_cons rfl _ startsIn_below (by decide)
    apply apart_below
    exact apart_cons rfl (apart_lineOpt _ _) (startsIn_lineOpt _) (by decide)
  | command spec =>
    have hbody : sourceBody (.command spec) = ⟨["source"], .string "command"⟩ :: below "command"
        (⟨["argv"], .strings spec.argv⟩ :: (lineOpt ["cwd"] (spec.cwd.map .string) ++
          below "env" (spec.env.toList.map fun p => ⟨[p.1], .string p.2⟩))) := by
      unfold sourceBody below lineOpt
      rw [List.map_cons, List.map_append, List.map_map, List.map_map, List.map_map]
      rfl
    have henv : (spec.env.toList.map fun p => Assignment.mk [p.1] (.string p.2)).Pairwise Apart := by
      have hnodup := KeyMap.nodup_toList spec.env
      rw [List.Nodup, List.pairwise_map] at hnodup
      rw [List.pairwise_map]
      apply hnodup.imp
      intro p q hne
      exact apart_of_heads rfl rfl hne
    rw [hbody]
    apply apart_cons rfl _ startsIn_below (by decide)
    apply apart_below
    apply apart_cons rfl _ (startsIn_append (startsIn_lineOpt _) startsIn_below) (by decide)
    exact apart_append (apart_lineOpt _ _) (apart_below henv) (startsIn_lineOpt _) startsIn_below
      (by decide)

theorem startsIn_sourceBody (source : SourceSpecWire) :
    StartsIn ["source", "command", "op"] (sourceBody source) := by
  have hwiden : ∀ {names body}, (∀ n ∈ names, n ∈ ["source", "command", "op"]) →
      StartsIn names body → StartsIn ["source", "command", "op"] body := by
    intro names body hsub h a ha
    obtain ⟨n, hn, hpath⟩ := h a ha
    exact ⟨n, hsub n hn, hpath⟩
  cases source with
  | op spec =>
    exact hwiden (by decide) (startsIn_cons rfl (startsIn_cons rfl (startsIn_lineOpt _)))
  | command spec =>
    have henv : StartsIn ["command"]
        (spec.env.toList.map fun p => Assignment.mk ["command", "env", p.1] (.string p.2)) := by
      intro a ha
      obtain ⟨p, -, rfl⟩ := List.mem_map.mp ha
      exact ⟨"command", List.mem_singleton_self _, _, rfl⟩
    exact hwiden (by decide)
      (startsIn_cons rfl (startsIn_cons rfl (startsIn_append (startsIn_lineOpt _) henv)))

theorem apart_metaBody (settings : Option OtpSettings) : (metaBody settings).Pairwise Apart := by
  cases settings with
  | none => exact List.Pairwise.nil
  | some s =>
    apply apart_cons rfl _
      (startsIn_append (startsIn_lineOpt _) (startsIn_append (startsIn_lineOpt _)
        (startsIn_lineOpt _))) (by decide)
    apply apart_append (apart_lineOpt _ _) _ (startsIn_lineOpt _)
      (startsIn_append (startsIn_lineOpt _) (startsIn_lineOpt _)) (by decide)
    exact apart_append (apart_lineOpt _ _) (apart_lineOpt _ _) (startsIn_lineOpt _)
      (startsIn_lineOpt _) (by decide)

theorem startsIn_metaBody (settings : Option OtpSettings) :
    StartsIn ["type", "otp-digits", "otp-period", "otp-algorithm"] (metaBody settings) := by
  cases settings with
  | none => exact fun a ha => absurd ha List.not_mem_nil
  | some s =>
    exact startsIn_cons rfl (startsIn_append (startsIn_lineOpt _)
      (startsIn_append (startsIn_lineOpt _) (startsIn_lineOpt _)))

theorem apart_definitionBody (d : KvDefinition) (settings : Option OtpSettings) :
    (definitionBody d settings).Pairwise Apart := by
  have hmeta := startsIn_metaBody settings
  apply apart_append (apart_sourceBody d.source) _ (startsIn_sourceBody d.source)
    (startsIn_append (startsIn_lineOpt _) (startsIn_append (startsIn_lineOpt _) hmeta)) (by decide)
  apply apart_append (apart_lineOpt _ _) _ (startsIn_lineOpt _)
    (startsIn_append (startsIn_lineOpt _) hmeta) (by decide)
  exact apart_append (apart_lineOpt _ _) (apart_metaBody settings) (startsIn_lineOpt _) hmeta
    (by decide)

theorem named_definitionBody (d : KvDefinition) (settings : Option OtpSettings) :
    ∀ a ∈ definitionBody d settings, a.path ≠ [] := by
  intro a ha
  obtain ⟨n, -, path, hpath⟩ := startsIn_append (startsIn_sourceBody d.source)
    (startsIn_append (startsIn_lineOpt _) (startsIn_append (startsIn_lineOpt _)
      (startsIn_metaBody settings))) a ha
  rw [hpath]
  exact List.cons_ne_nil n path

/-- The document of definitions with keys of their own is a TOML document. -/
theorem wellFormed_doc {settings : KvDefinition → Option OtpSettings} {defs : List KvDefinition}
    (hkeys : (defs.map KvDefinition.key).Nodup) : (definitionsDoc settings defs).WellFormed where
  headers := by
    refine ⟨3, by decide, ?_⟩
    intro s hs
    obtain ⟨d, -, rfl⟩ := List.mem_map.mp hs
    rfl
  distinct := by
    rw [List.Nodup, List.pairwise_map] at hkeys
    unfold definitionsDoc
    rw [List.map_map, List.Nodup, List.pairwise_map]
    apply hkeys.imp
    intro d d' hne hheader
    have hpath : d.inNamespace = d'.inNamespace ∧ d.name = d'.name := by
      simpa [definitionSection, KvDefinition.inNamespace] using hheader
    apply hne
    show compose d.inNamespace d.name = compose d'.inNamespace d'.name
    rw [hpath.1, hpath.2]
  paths := by
    intro s hs
    obtain ⟨d, -, rfl⟩ := List.mem_map.mp hs
    exact apart_definitionBody d (settings d)
  named := by
    intro s hs
    obtain ⟨d, -, rfl⟩ := List.mem_map.mp hs
    exact named_definitionBody d (settings d)

end Shape

section Clean

def CleanSource : SourceSpecWire → Prop
  | .command spec => (∀ arg ∈ spec.argv, CleanString arg) ∧
      (∀ cwd, spec.cwd = some cwd → CleanString cwd) ∧
        ∀ p ∈ spec.env.toList, CleanString p.1 ∧ CleanString p.2
  | .op spec => CleanString spec.uri ∧ ∀ account, spec.account = some account → CleanString account

theorem clean_lineOpt {path : List String} {scalar : Option Scalar}
    (hpath : ∀ k ∈ path, CleanString k) :
    (∀ a ∈ lineOpt path scalar, a.Clean) ↔ ∀ s, scalar = some s → s.Clean := by
  unfold lineOpt Assignment.Clean
  cases scalar with
  | none => simp
  | some s => simpa using fun _ => hpath

theorem clean_names {names : List String}
    (h : ∀ k ∈ names, (k.toList.all fun c => !isControl c) = true) :
    ∀ k ∈ names, CleanString k := by
  intro k hk c hc
  have hc := List.all_eq_true.mp (h k hk) c hc
  rw [Bool.not_eq_true'] at hc
  exact hc

theorem clean_opBody (spec : OpSpecWire) :
    (∀ a ∈ sourceBody (.op spec), a.Clean) ↔ CleanSource (.op spec) := by
  have hsource : ∀ k ∈ ["source"], CleanString k := clean_names (by decide)
  have hkind : ∀ k ∈ ["op"], CleanString k := clean_names (by decide)
  have huriPath : ∀ k ∈ ["op", "uri"], CleanString k := clean_names (by decide)
  have haccountPath : ∀ k ∈ ["op", "account"], CleanString k := clean_names (by decide)
  unfold sourceBody CleanSource
  rw [List.forall_mem_cons, List.forall_mem_cons, clean_lineOpt haccountPath]
  constructor
  · rintro ⟨-, huri, haccount⟩
    refine ⟨huri.2, ?_⟩
    intro account h
    have hscalar : (Scalar.string account).Clean := haccount _ (by rw [h]; rfl)
    exact hscalar
  · rintro ⟨huri, haccount⟩
    refine ⟨⟨hsource, hkind "op" (List.mem_singleton_self _)⟩, ⟨huriPath, huri⟩, ?_⟩
    intro s hs
    obtain ⟨account, haccounts, rfl⟩ := Option.map_eq_some_iff.mp hs
    exact haccount account haccounts

theorem clean_commandBody (spec : CommandSpecWire) :
    (∀ a ∈ sourceBody (.command spec), a.Clean) ↔ CleanSource (.command spec) := by
  have hsource : ∀ k ∈ ["source"], CleanString k := clean_names (by decide)
  have hkind : ∀ k ∈ ["command", "env"], CleanString k := clean_names (by decide)
  have hargvPath : ∀ k ∈ ["command", "argv"], CleanString k := clean_names (by decide)
  have hcwdPath : ∀ k ∈ ["command", "cwd"], CleanString k := clean_names (by decide)
  unfold sourceBody CleanSource
  rw [List.forall_mem_cons, List.forall_mem_cons, List.forall_mem_append, clean_lineOpt hcwdPath,
    List.forall_mem_map]
  constructor
  · rintro ⟨-, hargv, hcwd, henv⟩
    refine ⟨hargv.2, ?_, ?_⟩
    · intro cwd h
      have hscalar : (Scalar.string cwd).Clean := hcwd _ (by rw [h]; rfl)
      exact hscalar
    · intro p hp
      obtain ⟨hpath, hvalue⟩ := henv p hp
      exact ⟨hpath p.1 (by simp), hvalue⟩
  · rintro ⟨hargv, hcwd, henv⟩
    refine ⟨⟨hsource, hkind "command" (by simp)⟩, ⟨hargvPath, hargv⟩, ?_, ?_⟩
    · intro s hs
      obtain ⟨cwd, hcwds, rfl⟩ := Option.map_eq_some_iff.mp hs
      exact hcwd cwd hcwds
    · intro p hp
      refine ⟨?_, (henv p hp).2⟩
      intro k hk
      rw [show ["command", "env", p.1] = ["command", "env"] ++ [p.1] from rfl,
        List.mem_append] at hk
      rcases hk with hk | hk
      · exact hkind k hk
      · rw [List.mem_singleton.mp hk]
        exact (henv p hp).1

theorem clean_sourceBody (source : SourceSpecWire) :
    (∀ a ∈ sourceBody source, a.Clean) ↔ CleanSource source := by
  cases source with
  | command spec => exact clean_commandBody spec
  | op spec => exact clean_opBody spec

theorem clean_ttlText (secs : UInt64) : CleanString (ttlText secs) := by
  intro c hc
  unfold ttlText at hc
  rw [String.toList_append, Nat.toList_repr, List.mem_append] at hc
  rcases hc with hc | hc
  · have hdigit := Nat.isDigit_of_mem_toDigits (by decide) (by decide) hc
    obtain ⟨hlow, hhigh⟩ := Char.isDigit_iff_toNat.mp hdigit
    rw [show '0'.toNat = 48 from rfl] at hlow
    rw [show '9'.toNat = 57 from rfl] at hhigh
    unfold isControl
    simp
    omega
  · rw [List.mem_singleton.mp hc]
    decide

theorem clean_ttlBody {name : String} (hname : ∀ k ∈ [name], CleanString k)
    (secs : Option UInt64) : ∀ a ∈ ttlBody name secs, a.Clean := by
  apply (clean_lineOpt hname).mpr
  intro s hs
  obtain ⟨secs, -, rfl⟩ := Option.map_eq_some_iff.mp hs
  exact clean_ttlText secs

theorem clean_metaBody (settings : Option OtpSettings) :
    (∀ a ∈ metaBody settings, a.Clean) ↔ FitsFile settings := by
  cases settings with
  | none =>
    apply iff_of_true
    · exact fun a ha => absurd ha List.not_mem_nil
    · intro p hp
      cases hp
  | some s =>
    have htype : ∀ k ∈ ["type"], CleanString k := clean_names (by decide)
    have hkind : ∀ k ∈ ["otp"], CleanString k := clean_names (by decide)
    have hdigits : ∀ k ∈ ["otp-digits"], CleanString k := clean_names (by decide)
    have hperiod : ∀ k ∈ ["otp-period"], CleanString k := clean_names (by decide)
    have halgorithm : ∀ k ∈ ["otp-algorithm"], CleanString k := clean_names (by decide)
    unfold metaBody FitsFile
    rw [List.forall_mem_cons, List.forall_mem_append, List.forall_mem_append,
      clean_lineOpt hdigits, clean_lineOpt hperiod, clean_lineOpt halgorithm]
    constructor
    · rintro ⟨-, -, hfits, -⟩ p hp
      have hscalar : (Scalar.integer p.toNat).Clean :=
        hfits _ (by rw [show s.period = some p from hp]; rfl)
      exact hscalar
    · intro hfits
      refine ⟨⟨htype, hkind "otp" (List.mem_singleton_self _)⟩, ?_, ?_, ?_⟩
      · intro scalar hscalar
        obtain ⟨d, -, rfl⟩ := Option.map_eq_some_iff.mp hscalar
        have hd := d.toNat_lt
        show d.toNat < 2 ^ 63
        omega
      · intro scalar hscalar
        obtain ⟨p, hp, rfl⟩ := Option.map_eq_some_iff.mp hscalar
        exact hfits p hp
      · intro scalar hscalar
        obtain ⟨a, -, rfl⟩ := Option.map_eq_some_iff.mp hscalar
        show CleanString a.label
        cases a
        · exact @clean_names [OtpAlgorithm.sha1.label] (by decide) _ (by simp)
        · exact @clean_names [OtpAlgorithm.sha256.label] (by decide) _ (by simp)
        · exact @clean_names [OtpAlgorithm.sha512.label] (by decide) _ (by simp)

theorem clean_identifier {s : String} (h : isIdentifierSegment s.toList = true) :
    CleanString s := by
  unfold isIdentifierSegment at h
  rw [Bool.and_eq_true, List.all_eq_true] at h
  intro c hc
  apply Reader.not_isControl_of_isBare
  exact Bool.or_eq_true_iff.mpr (Or.inl (h.2 c hc))

/-- The table of a definition is clean when its source is, and its period fits. -/
theorem clean_definition {settings : KvDefinition → Option OtpSettings} {d : KvDefinition}
    (h : Tabular settings d) :
    (definitionSection d (settings d)).Clean ↔
      CleanSource d.source ∧ FitsFile (settings d) := by
  have hsoft := clean_ttlBody (@clean_names ["soft-ttl"] (by decide)) d.softTtlSecs
  have hhard := clean_ttlBody (@clean_names ["hard-ttl"] (by decide)) d.hardTtlSecs
  have hheader : ∀ k ∈ (definitionSection d (settings d)).header, CleanString k := by
    intro k hk
    have hk : k ∈ ["kv"] ++ [d.inNamespace, d.name] := hk
    rcases List.mem_append.mp hk with hk | hk
    · exact clean_names (by decide) k hk
    · rcases List.mem_cons.mp hk with rfl | hk
      · exact clean_identifier h.identifier
      · rw [List.mem_singleton.mp hk]
        exact clean_identifier h.named
  have hbody : (∀ a ∈ (definitionSection d (settings d)).body, a.Clean) ↔
      CleanSource d.source ∧ FitsFile (settings d) := by
    rw [← clean_sourceBody, ← clean_metaBody]
    show (∀ a ∈ definitionBody d (settings d), a.Clean) ↔ _
    unfold definitionBody
    rw [List.forall_mem_append, List.forall_mem_append, List.forall_mem_append]
    constructor
    · rintro ⟨hsource, -, -, hmeta⟩
      exact ⟨hsource, hmeta⟩
    · rintro ⟨hsource, hmeta⟩
      exact ⟨hsource, hsoft, hhard, hmeta⟩
  constructor
  · exact fun h => hbody.mp h.2
  · exact fun h => ⟨hheader, hbody.mpr h⟩

end Clean

end Daemon

end CacheWarden
