import CacheWarden.References
import CacheWarden.Lib.StrictText
import CacheWarden.Protocol.Wire

/-!
# Secrets in an environment and in a text

`run` puts secrets into the environment of a command and `inject` into a text. Both ask the
daemon for the keys that are referred to, each of them once, and give nothing out where one of
them fails.
-/

set_option autoImplicit false

namespace CacheWarden

namespace Injection

open Refs

section Definitions

variable {σ : Type}

/-- A round trip: the daemon answers, or the exchange fails. -/
abbrev Daemon (σ : Type) := σ → Protocol.Request → Except String Protocol.Response × σ

abbrev Resolver (σ : Type) := σ → String → ResolveResult × σ

/-- What the client takes from the outside: the base64 decoder, and payloads printed. -/
structure ClientCrates where
  decodeB64 : String → Except String Bytes
  describe : Protocol.OkPayload → String

def Mode.isDryRun (mode : Mode) : Bool := mode = .dryRun

def resolve (crates : ClientCrates) (daemon : Daemon σ) (mode : Mode) : Resolver σ :=
  fun s key =>
    let answer := daemon s (.kvGet key (Mode.isDryRun mode))
    (match answer.1 with
      | .error e => .error e
      | .ok (.ok _ (.get value)) =>
        match crates.decodeB64 value with
        | .ok bytes => .ok (.value bytes)
        | .error e => .error ("daemon returned invalid base64: " ++ e)
      | .ok (.ok _ (.getVerified _ _)) => .ok .verified
      | .ok (.ok _ other) =>
        .error ("unexpected response payload for kv.get: " ++ crates.describe other)
      | .ok (.err _ error) => .error error.message,
      answer.2)

/-- The loop of `resolve_all`. -/
def resolveKeys (resolver : Resolver σ) (keys : List String) (s : σ) :
    KeyMap ResolveResult × σ :=
  keys.foldl (fun acc key => ((acc.1.insert key (resolver acc.2 key).1), (resolver acc.2 key).2))
    (∅, s)

def resolveAll (keys : List String) (ctxNs : String) (resolver : Resolver σ) (s : σ) :
    KeyMap ResolveResult × σ :=
  resolveKeys resolver (sortDedup (keys.map (qualify · ctxNs))) s

structure Merge where
  merged : List (String × String)
  index : KeyMap ℕ

def Merge.add (self : Merge) (p : String × String) : Merge :=
  match self.index[p.1]? with
  | some pos => { self with merged := self.merged.modify pos fun q => (q.1, p.2) }
  | none => ⟨self.merged ++ [p], self.index.insert p.1 self.merged.length⟩

/-- The environment before anything is resolved: a later value takes the place of an earlier. -/
def merge (inherited overrides : List (String × String)) : List (String × String) :=
  ((inherited ++ overrides).foldl Merge.add ⟨[], ∅⟩).merged

structure ResolvedEnv where
  vars : List (String × String)
  failures : List String
  deriving DecidableEq

def wholeKeys (merged : List (String × String)) : List String :=
  merged.filterMap fun p => wholeValueKey p.2

/-- One variable of the loop of `resolve_env`, and the key that it fails on. -/
def resolveVar (resolved : KeyMap ResolveResult) (mode : Mode) (ctxNs : String)
    (p : String × String) : Except String ((String × String) × List String) :=
  match wholeValueKey p.2 with
  | none => .ok (p, [])
  | some key =>
    let qkey := qualify key ctxNs
    match resolved[qkey]? with
    | some (.ok (.value bytes)) =>
      if Mode.isDryRun mode then .ok ((p.1, mask qkey true), [])
      else if bytes.contains 0 then
        .error ("value for " ++ p.1 ++ " (cache-warden://" ++ qkey ++
          ") contains a NUL byte and cannot be placed in the environment")
      else
        match StrictText.decode bytes with
        | none =>
          .error ("value for " ++ p.1 ++ " (cache-warden://" ++ qkey ++
            ") is not valid UTF-8 and cannot be placed in the environment")
        | some text => .ok ((p.1, String.ofList text), [])
    | some (.ok .verified) => .ok ((p.1, mask qkey true), [])
    | _ =>
      if Mode.isDryRun mode then .ok ((p.1, mask qkey false), [qkey]) else .ok (p, [qkey])

def failureText (failures : List String) : String :=
  toString failures.length ++ " reference(s) failed to resolve: " ++ ", ".intercalate failures

def resolveEnv (inherited overrides : List (String × String)) (mode : Mode) (ctxNs : String)
    (resolver : Resolver σ) (s : σ) : Except String ResolvedEnv × σ :=
  let merged := merge inherited overrides
  let resolved := resolveAll (wholeKeys merged) ctxNs resolver s
  (match merged.mapM (resolveVar resolved.1 mode ctxNs) with
    | .error e => .error e
    | .ok items =>
      let failures := sortDedup (items.flatMap Prod.snd)
      if !Mode.isDryRun mode && !failures.isEmpty then .error (failureText failures)
      else .ok ⟨items.map Prod.fst, failures⟩,
    resolved.2)

def render (template : Bytes) (mode : Mode) (ctxNs : String) (resolver : Resolver σ) (s : σ) :
    Except String RenderedTemplate × σ :=
  let resolved := resolveAll ((findReferencesBytes template).map Located.key) ctxNs resolver s
  ((renderTemplate template resolved.1 mode ctxNs).mapError failureText, resolved.2)

/-- A daemon that keeps what it was asked. -/
def recording (daemon : Daemon σ) : Daemon (σ × List Protocol.Request) := fun s request =>
  ((daemon s.1 request).1, (daemon s.1 request).2, s.2 ++ [request])

/-- The keys in turn, each with what it resolves to. -/
def answers (resolver : Resolver σ) : List String → σ → List (String × ResolveResult) × σ
  | [], s => ([], s)
  | key :: keys, s =>
    let more := answers resolver keys (resolver s key).2
    ((key, (resolver s key).1) :: more.1, more.2)

/-- What a variable of the command holds: its own text, or what it refers to. -/
def revealed (results : List (String × ResolveResult)) (ctxNs : String) (value : String) :
    Option String :=
  match wholeValueKey value with
  | none => some value
  | some key =>
    match results.lookup (qualify key ctxNs) with
    | some (.ok (.value bytes)) =>
      if bytes.contains 0 then none else (StrictText.decode bytes).map String.ofList
    | some (.ok .verified) => some (mask (qualify key ctxNs) true)
    | _ => none

def succeeded (results : List (String × ResolveResult)) (k : String) : Bool :=
  match results.lookup k with
  | some (.ok _) => true
  | _ => false

/-- What a dry run shows. -/
def hidden (results : List (String × ResolveResult)) (ctxNs : String) (value : String) : String :=
  match wholeValueKey value with
  | none => value
  | some key => mask (qualify key ctxNs) (succeeded results (qualify key ctxNs))

end Definitions

section Sorted

/-- `dedup` of a list that begins with `a`. -/
def firsts (a : String) : List String → List String
  | [] => [a]
  | b :: rest => if a = b then firsts a rest else a :: firsts b rest

theorem eraseReps_loop (a : String) (rest acc : List String) :
    List.eraseRepsBy.loop (· == ·) a rest acc = acc.reverse ++ firsts a rest := by
  induction rest generalizing a acc with
  | nil => simp [List.eraseRepsBy.loop, firsts]
  | cons b rest ih =>
    rw [List.eraseRepsBy.loop, firsts]
    by_cases hab : a = b
    · rw [if_pos hab, beq_iff_eq.mpr hab]
      exact ih a acc
    · rw [if_neg hab, beq_eq_false_iff_ne.mpr hab]
      simp only
      rw [ih b (a :: acc)]
      simp

theorem mem_firsts {a b : String} {rest : List String} : b ∈ firsts a rest ↔ b ∈ a :: rest := by
  induction rest generalizing a with
  | nil => rfl
  | cons c rest ih =>
    rw [firsts]
    by_cases hac : a = c
    · rw [if_pos hac, ih, hac]
      simp
    · rw [if_neg hac, List.mem_cons, ih, ← List.mem_cons]

theorem nodup_firsts {a : String} {rest : List String} (h : (a :: rest).Pairwise (· ≤ ·)) :
    (firsts a rest).Nodup := by
  induction rest generalizing a with
  | nil => simp [firsts]
  | cons b rest ih =>
    rw [firsts]
    obtain ⟨ha, hrest⟩ := List.pairwise_cons.mp h
    by_cases hab : a = b
    · rw [if_pos hab, hab]
      exact ih hrest
    · rw [if_neg hab]
      refine List.nodup_cons.mpr ⟨fun hmem => hab ?_, ih hrest⟩
      rcases List.mem_cons.mp (mem_firsts.mp hmem) with hmem | hmem
      · exact hmem
      · exact Std.le_antisymm (ha b List.mem_cons_self) ((List.pairwise_cons.mp hrest).1 a hmem)

theorem sortDedup_spec (keys : List String) :
    (sortDedup keys).Nodup ∧ ∀ k, k ∈ sortDedup keys ↔ k ∈ keys := by
  have hsorted := List.pairwise_insertionSort (· ≤ ·) keys
  have hmem : ∀ k, k ∈ keys.insertionSort (· ≤ ·) ↔ k ∈ keys := fun k =>
    (List.perm_insertionSort (· ≤ ·) keys).mem_iff
  rw [sortDedup, List.eraseReps]
  cases hsort : keys.insertionSort (· ≤ ·) with
  | nil =>
    rw [hsort] at hmem
    exact ⟨List.nodup_nil, hmem⟩
  | cons a rest =>
    rw [hsort] at hmem hsorted
    rw [List.eraseRepsBy, eraseReps_loop, List.reverse_nil, List.nil_append]
    exact ⟨nodup_firsts hsorted, fun k => by rw [mem_firsts, hmem]⟩

theorem sortDedup_nil_iff {keys : List String} : sortDedup keys = [] ↔ keys = [] := by
  constructor
  · intro h
    apply List.eq_nil_iff_forall_not_mem.mpr
    intro k hk
    have hmem := ((sortDedup_spec keys).2 k).mpr hk
    rw [h] at hmem
    exact absurd hmem List.not_mem_nil
  · intro h
    rw [h]
    rfl

end Sorted

section Merging

/-- The index knows where each name stands. -/
def Merge.Indexed (self : Merge) : Prop :=
  ∀ (name : String) (pos : ℕ), self.index[name]? = some pos ↔
    ∃ value, self.merged[pos]? = some (name, value)

theorem Merge.indexed_add {self : Merge} (h : self.Indexed) (p : String × String) :
    (self.add p).Indexed := by
  unfold Merge.add
  cases hp : self.index[p.1]? with
  | some pos =>
    intro name j
    rw [h name j]
    simp only [List.getElem?_modify]
    by_cases hj : pos = j
    · subst hj
      cases hget : self.merged[pos]? with
      | none => simp
      | some q => simp [Prod.ext_iff]
    · simp [hj]
  | none =>
    intro name j
    simp only [KeyMap.get_insert, List.getElem?_append]
    have hfresh : ∀ (j : ℕ) value, self.merged[j]? ≠ some (p.1, value) := fun j value hget => by
      rw [(h p.1 j).mpr ⟨value, hget⟩] at hp
      cases hp
    by_cases hname : p.1 = name
    · subst hname
      rw [if_pos rfl, Option.some_inj]
      constructor
      · intro hj
        subst hj
        exact ⟨p.2, by simp⟩
      · rintro ⟨value, hget⟩
        by_cases hj : j < self.merged.length
        · rw [if_pos hj] at hget
          exact absurd hget (hfresh j value)
        · rw [if_neg hj, List.getElem?_singleton] at hget
          split at hget
          · omega
          · cases hget
    · rw [if_neg hname, h name j]
      by_cases hj : j < self.merged.length
      · rw [if_pos hj]
      · rw [if_neg hj, List.getElem?_eq_none (Nat.le_of_not_lt hj), List.getElem?_singleton]
        constructor
        · rintro ⟨value, hget⟩
          cases hget
        · rintro ⟨value, hget⟩
          split at hget
          · cases hget
            exact absurd rfl hname
          · cases hget

theorem Merge.nodup_of_indexed {self : Merge} (h : self.Indexed) :
    (self.merged.map Prod.fst).Nodup := by
  rw [List.nodup_iff_getElem?_ne_getElem?]
  intro i j hij hj heq
  rw [List.length_map] at hj
  rw [List.getElem?_map, List.getElem?_map, List.getElem?_eq_getElem hj,
    List.getElem?_eq_getElem (Nat.lt_trans hij hj)] at heq
  simp only [Option.map_some, Option.some_inj] at heq
  have hi := (h self.merged[i].1 i).mpr ⟨_, List.getElem?_eq_getElem (Nat.lt_trans hij hj)⟩
  have hj' := (h self.merged[j].1 j).mpr ⟨_, List.getElem?_eq_getElem hj⟩
  rw [heq, hj', Option.some_inj] at hi
  omega

theorem Merge.mem_add {self : Merge} (h : self.Indexed) (p : String × String)
    (name value : String) :
    (name, value) ∈ (self.add p).merged ↔
      if p.1 = name then value = p.2 else (name, value) ∈ self.merged := by
  have hadd := Merge.indexed_add h p
  unfold Merge.add at hadd ⊢
  cases hp : self.index[p.1]? with
  | some pos =>
    rw [hp] at hadd
    obtain ⟨old, hold⟩ := (h p.1 pos).mp hp
    simp only [List.mem_iff_getElem?, List.getElem?_modify]
    by_cases hname : p.1 = name
    · subst hname
      rw [if_pos rfl]
      constructor
      · rintro ⟨j, hj⟩
        have hsame := (hadd p.1 j).mpr ⟨value, by rw [List.getElem?_modify]; exact hj⟩
        simp only at hsame
        rw [hp, Option.some_inj] at hsame
        subst hsame
        rw [hold, Option.map_eq_map, Option.map_some, if_pos rfl, Option.some_inj] at hj
        exact (congrArg Prod.snd hj).symm
      · intro hvalue
        exact ⟨pos, by simp [hold, hvalue]⟩
    · rw [if_neg hname]
      constructor
      · rintro ⟨j, hj⟩
        refine ⟨j, ?_⟩
        by_cases hpos : pos = j
        · subst hpos
          rw [hold, Option.map_eq_map, Option.map_some, if_pos rfl, Option.some_inj] at hj
          exact absurd (congrArg Prod.fst hj) hname
        · simpa [hpos] using hj
      · rintro ⟨j, hj⟩
        refine ⟨j, ?_⟩
        by_cases hpos : pos = j
        · subst hpos
          rw [hold] at hj
          cases hj
          exact absurd rfl hname
        · simpa [hpos] using hj
  | none =>
    have hfresh : ∀ value, (p.1, value) ∉ self.merged := fun value hmem => by
      obtain ⟨j, hj⟩ := List.mem_iff_getElem?.mp hmem
      rw [(h p.1 j).mpr ⟨value, hj⟩] at hp
      cases hp
    simp only [List.mem_append, List.mem_singleton]
    by_cases hname : p.1 = name
    · subst hname
      simp [hfresh, Prod.ext_iff]
    · rw [if_neg hname]
      constructor
      · intro hmem
        rcases hmem with hmem | hmem
        · exact hmem
        · cases hmem
          exact absurd rfl hname
      · exact .inl

theorem merged_spec (entries : List (String × String)) :
    (entries.foldl Merge.add ⟨[], ∅⟩).Indexed ∧ ∀ name value : String,
      (name, value) ∈ (entries.foldl Merge.add ⟨[], ∅⟩).merged ↔
        entries.reverse.lookup name = some value := by
  induction entries using List.reverseRecOn with
  | nil => exact ⟨fun name pos => by simp, fun name value => by simp⟩
  | append_singleton entries p ih =>
    rw [List.foldl_append, List.foldl_cons, List.foldl_nil, List.reverse_append]
    refine ⟨Merge.indexed_add ih.1 p, fun name value => ?_⟩
    rw [Merge.mem_add ih.1, List.reverse_singleton, List.singleton_append, List.lookup_cons]
    by_cases hname : p.1 = name
    · simp [hname, eq_comm]
    · rw [if_neg hname, ih.2, beq_eq_false_iff_ne.mpr (Ne.symm hname)]

end Merging

section Asking

variable {σ : Type} {resolver : Resolver σ}

theorem resolveKeys_eq (keys : List String) (m : KeyMap ResolveResult) (s : σ) :
    keys.foldl (fun acc key =>
        ((acc.1.insert key (resolver acc.2 key).1), (resolver acc.2 key).2)) (m, s) =
      ((answers resolver keys s).1.foldl (fun m p => m.insert p.1 p.2) m,
        (answers resolver keys s).2) := by
  induction keys generalizing m s with
  | nil => rfl
  | cons key keys ih =>
    rw [List.foldl_cons, ih]
    rfl

theorem answers_keys (keys : List String) (s : σ) :
    (answers resolver keys s).1.map Prod.fst = keys := by
  induction keys generalizing s with
  | nil => rfl
  | cons key keys ih => simp only [answers, List.map_cons, ih]

theorem lookup_eq_some {α : Type} {pairs : List (String × α)} (h : (pairs.map Prod.fst).Nodup)
    {k : String} {v : α} : pairs.lookup k = some v ↔ (k, v) ∈ pairs := by
  induction pairs with
  | nil => simp
  | cons p rest ih =>
    rw [List.map_cons, List.nodup_cons] at h
    rw [List.lookup_cons, List.mem_cons]
    by_cases hk : k = p.1
    · subst hk
      rw [beq_self_eq_true]
      constructor
      · intro hv
        cases hv
        exact .inl rfl
      · intro hmem
        rcases hmem with hmem | hmem
        · rw [← hmem]
        · exact absurd (List.mem_map_of_mem hmem) h.1
    · rw [beq_eq_false_iff_ne.mpr hk]
      simp only
      rw [ih h.2]
      constructor
      · exact .inr
      · intro hmem
        rcases hmem with hmem | hmem
        · rw [← hmem] at hk
          exact absurd rfl hk
        · exact hmem

theorem get_resolveKeys {keys : List String} (hnodup : keys.Nodup) (s : σ) (k : String) :
    (resolveKeys resolver keys s).1[k]? = (answers resolver keys s).1.lookup k := by
  have hkeys : ((answers resolver keys s).1.map Prod.fst).Nodup := by
    rw [answers_keys]
    exact hnodup
  rw [resolveKeys, resolveKeys_eq]
  apply Option.ext
  intro v
  rw [KeyMap.get_foldl_insert hkeys, lookup_eq_some hkeys]
  simp

/-- What was asked, and that the answers are those of the daemon. -/
theorem answers_recording (crates : ClientCrates) (daemon : Daemon σ) (mode : Mode)
    (keys : List String) (s : σ) (log : List Protocol.Request) :
    answers (resolve crates (recording daemon) mode) keys (s, log) =
      ((answers (resolve crates daemon mode) keys s).1,
        (answers (resolve crates daemon mode) keys s).2,
        log ++ keys.map fun k => .kvGet k (Mode.isDryRun mode)) := by
  induction keys generalizing s log with
  | nil => simp [answers]
  | cons key keys ih =>
    have hstep : resolve crates (recording daemon) mode (s, log) key =
        ((resolve crates daemon mode s key).1, (resolve crates daemon mode s key).2,
          log ++ [.kvGet key (Mode.isDryRun mode)]) := rfl
    rw [answers, hstep, ih, answers]
    simp

end Asking

section Environment

variable {resolved : KeyMap ResolveResult} {results : List (String × ResolveResult)}
  {ctxNs : String}

theorem resolveVar_reveal (hresults : ∀ k : String, resolved[k]? = results.lookup k)
    (p q : String × String) :
    resolveVar resolved .reveal ctxNs p = .ok (q, []) ↔
      (revealed results ctxNs p.2).map (Prod.mk p.1) = some q := by
  unfold resolveVar revealed
  cases wholeValueKey p.2 with
  | none => simp
  | some key =>
    simp only [hresults]
    cases results.lookup (qualify key ctxNs) with
    | none => simp [Mode.isDryRun]
    | some r =>
      cases r with
      | error e => simp [Mode.isDryRun]
      | ok v =>
        cases v with
        | verified => simp
        | value bytes =>
          simp only [Mode.isDryRun, reduceCtorEq, decide_false, Bool.false_eq_true, if_false]
          by_cases hnul : bytes.contains 0
          · rw [if_pos hnul, if_pos hnul]
            simp
          · rw [if_neg hnul, if_neg hnul]
            cases StrictText.decode bytes <;> simp

variable (ctxNs) in
theorem resolveVar_dryRun (hresults : ∀ k : String, resolved[k]? = results.lookup k)
    (p : String × String) :
    ∃ failed, resolveVar resolved .dryRun ctxNs p =
        .ok ((p.1, hidden results ctxNs p.2), failed) ∧
      ∀ k, k ∈ failed ↔ ∃ key, wholeValueKey p.2 = some key ∧ qualify key ctxNs = k ∧
        succeeded results k = false := by
  unfold resolveVar hidden succeeded
  cases wholeValueKey p.2 with
  | none => exact ⟨[], rfl, by simp⟩
  | some key =>
    simp only [hresults]
    cases hlookup : results.lookup (qualify key ctxNs) with
    | none =>
      refine ⟨[qualify key ctxNs], rfl, fun k => ?_⟩
      simp only [List.mem_singleton, Option.some_inj, exists_eq_left']
      constructor
      · intro hk
        subst hk
        simp [hlookup]
      · exact fun h => h.1.symm
    | some r =>
      cases r with
      | error e =>
        refine ⟨[qualify key ctxNs], rfl, fun k => ?_⟩
        simp only [List.mem_singleton, Option.some_inj, exists_eq_left']
        constructor
        · intro hk
          subst hk
          simp [hlookup]
        · exact fun h => h.1.symm
      | ok v =>
        refine ⟨[], by cases v <;> rfl, fun k => ?_⟩
        simp only [List.not_mem_nil, Option.some_inj, exists_eq_left', false_iff, not_and]
        intro hk
        subst hk
        simp [hlookup]

theorem bind_eq_ok {α β ε : Type} {x : Except ε α} {f : α → Except ε β} {b : β}
    (h : (x >>= f) = .ok b) : ∃ a, x = .ok a ∧ f a = .ok b := by
  cases x with
  | error e => cases h
  | ok a => exact ⟨a, rfl, h⟩

theorem mapM_reveal (hresults : ∀ k : String, resolved[k]? = results.lookup k)
    (merged vars : List (String × String)) :
    (∃ items, merged.mapM (resolveVar resolved .reveal ctxNs) = .ok items ∧
        items.flatMap Prod.snd = [] ∧ items.map Prod.fst = vars) ↔
      merged.mapM (fun p => (revealed results ctxNs p.2).map (Prod.mk p.1)) = some vars := by
  induction merged generalizing vars with
  | nil =>
    rw [List.mapM_nil, List.mapM_nil]
    constructor
    · rintro ⟨items, hitems, _, hvars⟩
      cases hitems
      rw [← hvars]
      rfl
    · intro hvars
      cases hvars
      exact ⟨[], rfl, rfl, rfl⟩
  | cons p rest ih =>
    rw [List.mapM_cons, List.mapM_cons]
    constructor
    · rintro ⟨items, hitems, hnil, hvars⟩
      obtain ⟨item, hitem, hitems⟩ := bind_eq_ok hitems
      obtain ⟨more, hmore, hitems⟩ := bind_eq_ok hitems
      cases hitems
      rw [List.flatMap_cons, List.append_eq_nil_iff] at hnil
      have hp := (resolveVar_reveal hresults p item.1).mp (by rw [hitem, ← hnil.1])
      rw [hp, (ih (more.map Prod.fst)).mp ⟨more, hmore, hnil.2, rfl⟩, ← hvars]
      rfl
    · intro hvars
      obtain ⟨q, hq, hvars⟩ := Option.bind_eq_some_iff.mp hvars
      obtain ⟨more, hmore, hvars⟩ := Option.bind_eq_some_iff.mp hvars
      cases hvars
      obtain ⟨items, hitems, hnil, hfst⟩ := (ih more).mpr hmore
      refine ⟨(q, []) :: items, ?_, ?_, ?_⟩
      · rw [(resolveVar_reveal hresults p q).mpr hq, hitems]
        rfl
      · rw [List.flatMap_cons, hnil]
        rfl
      · rw [List.map_cons, hfst]

variable (ctxNs) in
theorem mapM_dryRun (hresults : ∀ k : String, resolved[k]? = results.lookup k)
    (merged : List (String × String)) :
    ∃ items, merged.mapM (resolveVar resolved .dryRun ctxNs) = .ok items ∧
      items.map Prod.fst = merged.map (fun p => (p.1, hidden results ctxNs p.2)) ∧
      ∀ k, k ∈ items.flatMap Prod.snd ↔
        k ∈ (wholeKeys merged).map (qualify · ctxNs) ∧ succeeded results k = false := by
  induction merged with
  | nil => exact ⟨[], rfl, rfl, fun k => by simp [wholeKeys]⟩
  | cons p rest ih =>
    obtain ⟨items, hitems, hfst, hfailures⟩ := ih
    obtain ⟨failed, hp, hfailed⟩ := resolveVar_dryRun ctxNs hresults p
    refine ⟨((p.1, hidden results ctxNs p.2), failed) :: items, ?_, ?_, fun k => ?_⟩
    · rw [List.mapM_cons, hp, hitems]
      rfl
    · rw [List.map_cons, hfst, List.map_cons]
    · rw [List.flatMap_cons, List.mem_append, hfailed, hfailures]
      cases hkey : wholeValueKey p.2 with
      | none =>
        have hkeys : wholeKeys (p :: rest) = wholeKeys rest := List.filterMap_cons_none hkey
        simp [hkeys]
      | some key =>
        have hkeys : wholeKeys (p :: rest) = key :: wholeKeys rest := List.filterMap_cons_some hkey
        simp only [hkeys, Option.some_inj, exists_eq_left', List.map_cons, List.mem_cons]
        constructor
        · intro hk
          rcases hk with ⟨hk, hfalse⟩ | ⟨hk, hfalse⟩
          · exact ⟨.inl hk.symm, hfalse⟩
          · exact ⟨.inr hk, hfalse⟩
        · rintro ⟨hk, hfalse⟩
          rcases hk with hk | hk
          · exact .inl ⟨hk.symm, hfalse⟩
          · exact .inr ⟨hk, hfalse⟩

variable {σ : Type} {resolver : Resolver σ} {inherited overrides : List (String × String)}
  {s : σ}

/-- The keys that the environment refers to, each once. -/
def askedFor (inherited overrides : List (String × String)) (ctxNs : String) : List String :=
  sortDedup ((wholeKeys (merge inherited overrides)).map (qualify · ctxNs))

theorem get_resolveAll (k : String) :
    (resolveAll (wholeKeys (merge inherited overrides)) ctxNs resolver s).1[k]? =
      (answers resolver (askedFor inherited overrides ctxNs) s).1.lookup k :=
  get_resolveKeys (sortDedup_spec _).1 s k

theorem resolveEnv_reveal (env : ResolvedEnv) :
    (resolveEnv inherited overrides .reveal ctxNs resolver s).1 = .ok env ↔ env.failures = [] ∧
      (merge inherited overrides).mapM (fun p =>
        (revealed (answers resolver (askedFor inherited overrides ctxNs) s).1 ctxNs p.2).map
          (Prod.mk p.1)) = some env.vars := by
  rw [← mapM_reveal get_resolveAll, resolveEnv]
  simp only [Mode.isDryRun, reduceCtorEq, decide_false, Bool.not_false, Bool.true_and]
  constructor
  · intro h
    cases hitems : (merge inherited overrides).mapM (resolveVar
        (resolveAll (wholeKeys (merge inherited overrides)) ctxNs resolver s).1 .reveal ctxNs) with
    | error e =>
      rw [hitems] at h
      cases h
    | ok items =>
      rw [hitems] at h
      simp only at h
      split at h
      · cases h
      · rename_i hempty
        cases h
        have hnil : sortDedup (items.flatMap Prod.snd) = [] := by simpa using hempty
        exact ⟨hnil, items, rfl, sortDedup_nil_iff.mp hnil, rfl⟩
  · rintro ⟨hfailures, items, hitems, hnil, hvars⟩
    obtain ⟨vars, failures⟩ := env
    simp only at hfailures hvars
    rw [hitems]
    simp only
    rw [hnil, hvars, hfailures]
    rfl

theorem resolveEnv_dryRun : ∃ failures,
    (resolveEnv inherited overrides .dryRun ctxNs resolver s).1 =
        .ok ⟨(merge inherited overrides).map fun p => (p.1,
          hidden (answers resolver (askedFor inherited overrides ctxNs) s).1 ctxNs p.2),
          failures⟩ ∧
      ∀ k, k ∈ failures ↔ k ∈ askedFor inherited overrides ctxNs ∧
        succeeded (answers resolver (askedFor inherited overrides ctxNs) s).1 k = false := by
  have hget : ∀ k : String,
      (resolveAll (wholeKeys (merge inherited overrides)) ctxNs resolver s).1[k]? =
        (answers resolver (askedFor inherited overrides ctxNs) s).1.lookup k := get_resolveAll
  obtain ⟨items, hitems, hfst, hfailures⟩ := mapM_dryRun ctxNs hget (merge inherited overrides)
  refine ⟨sortDedup (items.flatMap Prod.snd), ?_, fun k => ?_⟩
  · rw [resolveEnv]
    simp only [hitems, hfst]
    rfl
  · rw [(sortDedup_spec _).2, hfailures, askedFor, (sortDedup_spec _).2]

/-- The environment of a command, whatever the daemon answers and however its state changes
meanwhile. Each name has its last value. The daemon is asked for each key that some value is a
reference to, once, and for nothing else. The command gets an environment just where each of these
comes back as text without NUL, or verified, and then each reference has become what came back. A
dry run gives masks for references, from which nothing but which keys resolved can be told. -/
theorem run_environment (crates : ClientCrates) (daemon : Daemon σ)
    (inherited overrides : List (String × String)) (ctxNs : String) (s : σ) :
    let merged := merge inherited overrides
    let asked := askedFor inherited overrides ctxNs
    let told := fun mode => answers (resolve crates daemon mode) asked s
    let outcome := fun mode => resolveEnv inherited overrides mode ctxNs
      (resolve crates (recording daemon) mode) (s, [])
    ((merged.map Prod.fst).Nodup ∧ ∀ name value : String, (name, value) ∈ merged ↔
      (inherited ++ overrides).reverse.lookup name = some value) ∧
    (asked.Nodup ∧ ∀ k, k ∈ asked ↔
      ∃ p ∈ merged, ∃ key, wholeValueKey p.2 = some key ∧ qualify key ctxNs = k) ∧
    (∀ mode, (outcome mode).2 =
      ((told mode).2, asked.map fun k => .kvGet k (Mode.isDryRun mode))) ∧
    (∀ env, (outcome .reveal).1 = .ok env ↔ env.failures = [] ∧
      merged.mapM (fun p => (revealed (told .reveal).1 ctxNs p.2).map (Prod.mk p.1)) =
        some env.vars) ∧
    ∃ failures, (outcome .dryRun).1 =
        .ok ⟨merged.map fun p => (p.1, hidden (told .dryRun).1 ctxNs p.2), failures⟩ ∧
      ∀ k, k ∈ failures ↔ k ∈ asked ∧ succeeded (told .dryRun).1 k = false := by
  intro merged asked told outcome
  have hmerged := merged_spec (inherited ++ overrides)
  have htold : ∀ mode, (answers (resolve crates (recording daemon) mode) asked (s, [])).1 =
      (told mode).1 := fun mode => by rw [answers_recording]
  refine ⟨⟨Merge.nodup_of_indexed hmerged.1, hmerged.2⟩, ⟨(sortDedup_spec _).1, fun k => ?_⟩,
    fun mode => ?_, fun env => ?_, ?_⟩
  · rw [show asked = sortDedup _ from rfl, (sortDedup_spec _).2]
    simp only [wholeKeys, List.mem_map, List.mem_filterMap]
    constructor
    · rintro ⟨key, ⟨p, hp, hkey⟩, hk⟩
      exact ⟨p, hp, key, hkey, hk⟩
    · rintro ⟨p, hp, key, hkey, hk⟩
      exact ⟨key, ⟨p, hp, hkey⟩, hk⟩
  · change (resolveKeys _ asked (s, [])).2 = _
    rw [resolveKeys, resolveKeys_eq, answers_recording]
    rfl
  · rw [← htold]
    exact resolveEnv_reveal env
  · rw [← htold]
    exact resolveEnv_dryRun

end Environment

section Template

variable {σ : Type} {ctxNs : String}

theorem mapError_ok_iff {α ε ε' : Type} {x : Except ε α} {f : ε → ε'} {a : α} :
    x.mapError f = .ok a ↔ x = .ok a := by
  cases x with
  | error e => simp [Except.mapError]
  | ok b => simp [Except.mapError]

/-- A text with references. The daemon is asked for each key once and for nothing else; the text
is given out just where each of them resolves, and a dry run always gives it out, with masks. -/
theorem inject_template (crates : ClientCrates) (daemon : Daemon σ) (template : Bytes) (s : σ) :
    let asked := sortDedup (((findReferencesBytes template).map Located.key).map
      (qualify · ctxNs))
    let told := fun mode => answers (resolve crates daemon mode) asked s
    let outcome := fun mode => render template mode ctxNs
      (resolve crates (recording daemon) mode) (s, [])
    (∀ mode, (outcome mode).2 =
      ((told mode).2, asked.map fun k => .kvGet k (Mode.isDryRun mode))) ∧
    ((∃ out, (outcome .reveal).1 = .ok out) ↔
      ∀ k ∈ asked, succeeded (told .reveal).1 k = true) ∧
    ∃ failures, (outcome .dryRun).1 = .ok ⟨splice template 0
      ((findReferencesBytes template).map fun loc => (loc.span, textBytes
        (mask (qualify loc.key ctxNs) (succeeded (told .dryRun).1 (qualify loc.key ctxNs))))),
      failures⟩ := by
  intro asked told outcome
  have hasked := sortDedup_spec (((findReferencesBytes template).map Located.key).map
    (qualify · ctxNs))
  have hget : ∀ mode (k : String), (resolveAll ((findReferencesBytes template).map Located.key)
      ctxNs (resolve crates (recording daemon) mode) (s, [])).1[k]? =
        (told mode).1.lookup k := fun mode k => by
    rw [resolveAll, get_resolveKeys hasked.1, answers_recording]
  refine ⟨fun mode => ?_, ?_, ?_⟩
  · change (resolveKeys _ asked (s, [])).2 = _
    rw [resolveKeys, resolveKeys_eq, answers_recording]
    rfl
  · simp only [outcome, render, mapError_ok_iff]
    rw [render_reveal_isOk]
    unfold Resolved succeeded
    simp only [hget]
    constructor
    · intro h k hk
      rw [hasked.2, List.map_map] at hk
      obtain ⟨loc, hloc, hkey⟩ := List.mem_map.mp hk
      obtain ⟨v, hv⟩ := h loc hloc
      rw [← hkey]
      simp only [Function.comp_apply, hv]
    · intro h loc hloc
      have hk := h (qualify loc.key ctxNs) (by
        rw [hasked.2, List.map_map]
        exact List.mem_map.mpr ⟨loc, hloc, rfl⟩)
      split at hk
      · rename_i v hv
        exact ⟨v, hv⟩
      · cases hk
  · simp only [outcome, render, mapError_ok_iff]
    rw [render_dryRun]
    refine ⟨_, congrArg (fun bytes => Except.ok (RenderedTemplate.mk bytes _)) ?_⟩
    congr
    funext loc
    simp only [failed, succeeded, hget]
    cases (told .dryRun).1.lookup (qualify loc.key ctxNs) with
    | none => rfl
    | some r => cases r <;> rfl

end Template

end Injection

end CacheWarden
