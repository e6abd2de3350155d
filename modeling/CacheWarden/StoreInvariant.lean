import CacheWarden.Store

/-!
# What the store operations do and keep

A read may age the entry it touches, record a failed fetch or install a fetched
value; `Reads` says so once, for every operation a read is made of. A sound
store holds only well-formed keys, and no instant in it lies ahead of the
clock.
-/

set_option autoImplicit false

namespace CacheWarden

/-- The timestamps of an entry are in order and not in the future. -/
def CacheEntry.Timed (e : CacheEntry) (now : Monotonic) : Prop :=
  e.loadedAt ≤ e.extendedAt ∧ e.extendedAt ≤ now

/-- What the lifecycle can do to an entry between two readings: its source, its
windows and its load time stay, and its value stays or is destroyed. -/
structure CacheEntry.Ages (e e' : CacheEntry) (t u : Monotonic) : Prop where
  source : e'.source = e.source
  ttl : e'.ttl = e.ttl
  value : e'.value = e.value ∨ e'.value = none
  timed : e.Timed t → e'.Timed u
  le : t ≤ u

namespace CacheEntry

theorem Timed.mono {e : CacheEntry} {t u : Monotonic} (h : e.Timed t) (htu : t ≤ u) : e.Timed u :=
  ⟨h.1, Monotonic.le_trans h.2 htu⟩

theorem new_timed (source : ValueSource) (value : Bytes) (ttl : Ttl) (now : Monotonic) :
    (new source value ttl now).Timed now :=
  ⟨Monotonic.le_refl _, Monotonic.le_refl _⟩

theorem ages_refl (e : CacheEntry) {t u : Monotonic} (h : t ≤ u) : e.Ages e t u :=
  ⟨rfl, rfl, Or.inl rfl, fun ht => ht.mono h, h⟩

theorem ages_trans {e e' e'' : CacheEntry} {t u w : Monotonic} (h : e.Ages e' t u)
    (h' : e'.Ages e'' u w) : e.Ages e'' t w where
  source := h'.source.trans h.source
  ttl := h'.ttl.trans h.ttl
  value := by
    rcases h'.value with hv | hv
    · rw [hv]
      exact h.value
    · exact Or.inr hv
  timed ht := h'.timed (h.timed ht)
  le := Monotonic.le_trans h.le h'.le

theorem evaluate_ages (e : CacheEntry) (now : Monotonic) {t u : Monotonic} (h : t ≤ u) :
    e.Ages (e.evaluate now).2 t u := by
  rw [evaluate_snd]
  split
  · exact ⟨rfl, rfl, Or.inr rfl, fun ht => ht.mono h, h⟩
  · exact ages_refl e h

theorem get_snd (e : CacheEntry) (now : Monotonic) : (e.get now).2 = (e.evaluate now).2 := by
  unfold get
  split
  · rename_i h
    rw [h]
  · rename_i h
    rw [h]

theorem extend_ages (e : CacheEntry) (clock : Clock) :
    e.Ages (e.extend clock).2 (clock.now 0) (clock.now 1) := by
  have hstep := clock.mono 0
  have hev := evaluate_ages e (clock.now 0) hstep
  have hev0 := evaluate_ages e (clock.now 0) (Monotonic.le_refl (clock.now 0))
  unfold extend
  split
  · rename_i e' he
    rw [he] at hev
    exact hev
  · rename_i s e' hs he
    rw [he] at hev hev0
    exact
      { source := hev.source
        ttl := hev.ttl
        value := hev.value
        timed := fun ht =>
          ⟨Monotonic.le_trans (Monotonic.le_trans (hev0.timed ht).1 (hev0.timed ht).2) hstep,
            Monotonic.le_refl _⟩
        le := hstep }

theorem pinUntil_ages (e : CacheEntry) (deadline now : Monotonic) {t u : Monotonic} (h : t ≤ u) :
    e.Ages (e.pinUntil deadline now).2 t u := by
  have hev := evaluate_ages e now h
  unfold pinUntil
  split
  · rename_i e' he
    rw [he] at hev
    exact hev
  · rename_i s e' hs he
    rw [he] at hev
    exact ⟨hev.source, hev.ttl, hev.value, hev.timed, h⟩

theorem unpin_ages (e : CacheEntry) {t u : Monotonic} (h : t ≤ u) : e.Ages e.unpin t u :=
  ⟨rfl, rfl, Or.inl rfl, fun ht => ht.mono h, h⟩

end CacheEntry

namespace Store

@[simp] theorem checkCap_controlCap (s : Store) : s.checkCap s.controlCap = .ok () := by
  simp [checkCap, controlCap]

/-- Whether a key has an entry or a definition: the keys a fetch can start for. -/
def Known (s : Store) (k : String) : Prop :=
  (s.entries[k]?).isSome ∨ (s.definitions[k]?).isSome

/-- What reading key `k` between the readings `t` and `u` can do to a store. -/
inductive Reads (runner : SourceRunner) (k : String) : Monotonic → Monotonic → Store → Store → Prop
  | refl {t u : Monotonic} (s : Store) (h : t ≤ u) : Reads runner k t u s s
  | aged {t u : Monotonic} (s : Store) (e e' : CacheEntry) (he : s.entries[k]? = some e)
      (ha : e.Ages e' t u) : Reads runner k t u s (s.putEntry k e')
  | failed {t u : Monotonic} (s : Store) (h : t ≤ u) (hk : s.Known k) :
      Reads runner k t u s (s.recordFailure k u)
  | installed {t u : Monotonic} (s : Store) (h : t ≤ u) (hk : s.Known k) (argv : List String)
      (cwd : Option OsPath) (env : KeyMap String) (value : Bytes) (ttl : Ttl)
      (hrun : runner argv cwd env = .ok value) :
      Reads runner k t u s
        (s.installFetched k (CacheEntry.new (.command argv cwd env) value ttl u))
  | trans {t u w : Monotonic} {s s' s'' : Store} (h : Reads runner k t u s s')
      (h' : Reads runner k u w s' s'') : Reads runner k t w s s''

section Operations

variable (s : Store) (k : String) (cap : Capability) (runner : SourceRunner)
  (auth : Authenticator) (requester : Option (List ProcessInfo))

theorem get_reads (now : Monotonic) {t u : Monotonic} (h : t ≤ u) :
    Reads runner k t u s (s.get k cap now).2 := by
  unfold get
  split
  · exact .refl s h
  split
  · exact .refl s h
  · rename_i e he
    refine .aged s e _ he ?_
    rw [CacheEntry.get_snd]
    exact e.evaluate_ages now h

theorem stateOf_reads (now : Monotonic) {t u : Monotonic} (h : t ≤ u) :
    Reads runner k t u s (s.stateOf k now).2 := by
  unfold stateOf
  split
  · exact .refl s h
  · rename_i e he
    exact .aged s e _ he (e.evaluate_ages now h)

theorem extend_reads (clock : Clock) :
    Reads runner k (clock.now 0) (clock.now 1) s (s.extend k cap clock).2 := by
  unfold extend
  split
  · exact .refl s (clock.mono 0)
  split
  · exact .refl s (clock.mono 0)
  · rename_i e he
    exact .aged s e _ he (e.extend_ages clock)

theorem extendAuthenticated_reads (clock : Clock) :
    Reads runner k (clock.now 0) (clock.now 2) s
      (s.extendAuthenticated k auth requester cap clock).2 := by
  have h02 := clock.now_mono (i := 0) (j := 2) (by omega)
  unfold extendAuthenticated extendAuthenticatedAsking
  split
  · exact .refl s h02
  split
  · exact .refl s h02
  rename_i e he
  have hev := e.evaluate_ages (clock.now 0) (clock.mono 0)
  have hext := (e.evaluate (clock.now 0)).2.extend_ages (clock.after 1)
  have hput : Reads runner k (clock.now 0) (clock.now 2) s _ :=
    .aged s e _ he (CacheEntry.ages_trans hev hext)
  have hold : Reads runner k (clock.now 0) (clock.now 2) s _ :=
    .aged s e _ he (e.evaluate_ages (clock.now 0) h02)
  simp only
  split
  · exact hput
  · rw [Asking.answer_ask]
    split
    · exact hold
    · exact hput
  · exact hold

theorem known_putEntry (e : CacheEntry) : (s.putEntry k e).Known k := by
  left
  simp [putEntry]

theorem regenerate_reads (clock : Clock) :
    Reads runner k (clock.now 0) (clock.now 2) s
      (s.regenerate k runner auth requester cap clock).2 := by
  have h02 := clock.now_mono (i := 0) (j := 2) (by omega)
  unfold regenerate regenerateAsking
  split
  · exact .refl s h02
  split
  · exact .refl s h02
  split
  · exact .refl s h02
  rename_i e he
  split
  · exact .refl s h02
  rename_i argv cwd env hsource
  have hev : Reads runner k (clock.now 0) (clock.now 0) s _ :=
    .aged s e _ he (e.evaluate_ages (clock.now 1) (Monotonic.le_refl (clock.now 0)))
  have haged := hev.trans (.refl _ h02)
  have hknown := s.known_putEntry k (e.evaluate (clock.now 1)).2
  simp only
  split
  · exact haged
  rw [Asking.answer_ask, outside_run]
  split
  · exact hev.trans (.failed _ h02 hknown)
  rename_i value hrun
  rw [Asking.answer_ask, outside_prompt]
  split
  · exact haged
  · rw [hsource]
    exact hev.trans (.installed _ h02 hknown argv cwd env value e.ttl hrun)

theorem getOrRegenerate_reads (clock : Clock) :
    Reads runner k (clock.now 0) (clock.now 2) s
      (s.getOrRegenerate k runner auth requester cap clock).2 := by
  have h02 := clock.now_mono (i := 0) (j := 2) (by omega)
  unfold getOrRegenerate getOrRegenerateAsking
  split
  · exact .refl s h02
  split
  · exact .refl s h02
  rename_i d hd
  have hev := s.stateOf_reads k runner (clock.now 0) (Monotonic.le_refl (clock.now 0))
  have haged := hev.trans (.refl _ h02)
  have hknown : (s.stateOf k (clock.now 0)).2.Known k := by
    unfold stateOf
    split
    · exact Or.inr (by simp [hd])
    · exact s.known_putEntry k _
  simp only
  split
  · exact haged
  split
  · exact haged
  split
  · exact haged
  rename_i argv cwd env hsource
  rw [Asking.answer_ask, outside_run]
  split
  · exact hev.trans (.failed _ h02 hknown)
  rename_i value hrun
  rw [Asking.answer_ask, outside_prompt]
  split
  · exact haged
  · rw [hsource]
    exact hev.trans (.installed _ h02 hknown argv cwd env value d.ttl hrun)

theorem pinAuthenticated_reads (deadline : Monotonic) (clock : Clock) {t u : Monotonic}
    (h : t ≤ u) :
    Reads runner k t u s (s.pinAuthenticated k deadline auth requester cap clock).2 := by
  unfold pinAuthenticated pinAuthenticatedAsking
  split
  · exact .refl s h
  split
  · exact .refl s h
  rename_i e he
  split
  · exact .refl s h
  rw [Asking.answer_ask]
  split
  · exact .refl s h
  · exact .aged s e _ he (e.pinUntil_ages deadline _ h)

theorem unpin_reads {t u : Monotonic} (h : t ≤ u) : Reads runner k t u s (s.unpin k cap).2 := by
  unfold unpin
  split
  · exact .refl s h
  split
  · exact .refl s h
  · rename_i e he
    exact .aged s e _ he (e.unpin_ages h)

end Operations

structure Sound (s : Store) (now : Monotonic) : Prop where
  entries : ∀ (k : String) e, s.entries[k]? = some e → ValidKey k ∧ e.Timed now
  definitions : ∀ (k : String) d, s.definitions[k]? = some d → ValidKey k
  failures : ∀ (k : String) f, s.failureBackoffs[k]? = some f → ValidKey k

theorem sound_new (token : BitVec 128) (d : Duration) (now : Monotonic) :
    (newWithToken token d).Sound now where
  entries k e h := by simp [newWithToken] at h
  definitions k e h := by simp [newWithToken] at h
  failures k e h := by simp [newWithToken] at h

theorem Sound.mono {s : Store} {t u : Monotonic} (h : s.Sound t) (htu : t ≤ u) : s.Sound u where
  entries k e he := ⟨(h.entries k e he).1, (h.entries k e he).2.mono htu⟩
  definitions := h.definitions
  failures := h.failures

/-- Erasing from the three maps that matter, and anything at all in the others,
keeps soundness. -/
theorem Sound.of_sub {s s' : Store} {t : Monotonic} (h : s.Sound t)
    (he : ∀ (k : String) e, s'.entries[k]? = some e → s.entries[k]? = some e)
    (hd : ∀ (k : String) d, s'.definitions[k]? = some d → s.definitions[k]? = some d)
    (hf : ∀ (k : String) f, s'.failureBackoffs[k]? = some f → s.failureBackoffs[k]? = some f) :
    s'.Sound t where
  entries k e hk := h.entries k e (he k e hk)
  definitions k d hk := h.definitions k d (hd k d hk)
  failures k f hk := h.failures k f (hf k f hk)

theorem sound_putEntry {s : Store} {t : Monotonic} (h : s.Sound t) {k : String} {e : CacheEntry}
    (hk : ValidKey k) (he : e.Timed t) : (s.putEntry k e).Sound t where
  entries a e' ha := by
    simp only [putEntry, KeyMap.get_insert] at ha
    split at ha
    · rename_i heq
      cases ha
      exact ⟨heq ▸ hk, he⟩
    · exact h.entries a e' ha
  definitions := h.definitions
  failures := h.failures

theorem sound_recordFailure {s : Store} {t : Monotonic} (h : s.Sound t) {k : String}
    (hk : ValidKey k) : (s.recordFailure k t).Sound t := by
  unfold recordFailure
  split
  · refine ⟨h.entries, h.definitions, ?_⟩
    intro a f ha
    simp only [KeyMap.get_insert] at ha
    split at ha
    · rename_i heq
      cases ha
      exact heq ▸ hk
    · exact h.failures a f ha
  · exact h

theorem sound_installFetched {s : Store} {t : Monotonic} (h : s.Sound t) {k : String}
    {e : CacheEntry} (hk : ValidKey k) (he : e.Timed t) : (s.installFetched k e).Sound t :=
  (sound_putEntry h hk he).of_sub (fun _ _ ha => ha) (fun _ _ ha => ha)
    (fun _ _ ha => KeyMap.get_of_erase ha)

theorem Sound.known {s : Store} {t : Monotonic} (h : s.Sound t) {k : String} (hk : s.Known k) :
    ValidKey k := by
  rcases hk with hk | hk
  · obtain ⟨e, he⟩ := Option.isSome_iff_exists.mp hk
    exact (h.entries k e he).1
  · obtain ⟨d, hd⟩ := Option.isSome_iff_exists.mp hk
    exact h.definitions k d hd

theorem sound_reads {runner : SourceRunner} {k : String} {t u : Monotonic} {s s' : Store}
    (hr : Reads runner k t u s s') (h : s.Sound t) : s'.Sound u := by
  induction hr with
  | refl s htu => exact h.mono htu
  | aged s e e' he ha =>
    obtain ⟨hk, ht⟩ := h.entries k e he
    exact sound_putEntry (h.mono ha.le) hk (ha.timed ht)
  | failed s htu hk => exact sound_recordFailure (h.mono htu) (h.known hk)
  | installed s htu hk argv cwd env value ttl hrun =>
    exact sound_installFetched (h.mono htu) (h.known hk) (CacheEntry.new_timed _ _ _ _)
  | trans _ _ ih ih' => exact ih' (ih h)

section Writes

variable {s : Store} {t : Monotonic} (h : s.Sound t) (k : String) (cap : Capability)

include h

theorem sound_set {now : Monotonic} (htn : t ≤ now) (source : ValueSource) (value : Bytes)
    (ttl : Ttl) : (s.set k source value ttl cap now).2.Sound now := by
  unfold set
  split
  · exact h.mono htn
  split
  · exact h.mono htn
  · rename_i hk
    exact sound_putEntry (h.mono htn) hk (CacheEntry.new_timed _ _ _ _)

theorem sound_delete : (s.delete k cap).2.Sound t := by
  unfold delete
  split
  · exact h
  · exact h.of_sub (fun _ _ ha => KeyMap.get_of_erase ha) (fun _ _ ha => ha) (fun _ _ ha => ha)

theorem sound_deleteWithDefinition : (s.deleteWithDefinition k cap).2.Sound t := by
  unfold deleteWithDefinition
  split
  · exact h
  · exact h.of_sub (fun _ _ ha => KeyMap.get_of_erase ha) (fun _ _ ha => KeyMap.get_of_erase ha)
      (fun _ _ ha => KeyMap.get_of_erase ha)

theorem sound_defineWithMeta (source : ValueSource) (ttl : Ttl) (valueMeta : ValueMeta)
    (sourceMeta : SourceMeta) : (s.defineWithMeta k source ttl valueMeta sourceMeta).2.Sound t := by
  rcases s.defineWithMeta_cases k source ttl valueMeta sourceMeta with
    ⟨⟨e, heq⟩, -⟩ | ⟨hk, d, -, ⟨-, heq⟩ | ⟨-, heq⟩⟩
  · rw [heq]
    exact h
  · rw [heq]
    exact h
  · rw [heq]
    refine ⟨h.entries, ?_, h.failures⟩
    intro a d ha
    simp only [KeyMap.get_insert] at ha
    split at ha
    · rename_i hkey
      exact hkey ▸ hk
    · exact h.definitions a d ha

end Writes

end Store

end CacheWarden
