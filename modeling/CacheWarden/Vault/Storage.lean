import CacheWarden.Vault.UnlockedSpec

/-!
# Replacing the vault file

A commit writes a temporary file, syncs it, renames it over the vault and syncs
the directory. Any of these steps may fail; `Faults` says which, and the result
comes with every state the disk went through.
-/

set_option autoImplicit false

namespace CacheWarden

namespace Vault

/-- What a reader finds at the vault's path and at the temporary one. -/
structure Disk where
  file : Option Bytes
  temp : Option Bytes
  deriving DecidableEq

/-- What the file system answers to one commit: the error of each step, if it
fails; how much of the file has been written each time anyone looks; and whether
the clean-up succeeds. -/
structure Faults where
  ensureDir : Option String
  create : Option String
  written : List ℕ
  write : Option String
  sync : Option String
  rename : Option String
  openDir : Option String
  syncDir : Option String
  removeSucceeds : Bool
  deriving DecidableEq

def Faults.none : Faults :=
  ⟨.none, .none, [], .none, .none, .none, .none, .none, true⟩

/-- A result, the disk it leaves, and the disks on the way there, that one
included. -/
structure Outcome where
  result : Except VaultError Unit
  disk : Disk
  moments : List Disk

namespace Storage

/-- The steps after the directory is known to be there. -/
def replace (faults : Faults) (contents : Bytes) (d : Disk) : Outcome :=
  match faults.create with
  | some reason => ⟨.error (.io .temp reason), d, []⟩
  | none =>
    let created : Disk := { d with temp := some [] }
    let writing := created :: faults.written.map fun n => { d with temp := some (contents.take n) }
    match faults.write with
    | some reason => ⟨.error (.io .temp reason), writing.getLastD created, writing⟩
    | none =>
      let full : Disk := { d with temp := some contents }
      match faults.sync with
      | some reason => ⟨.error (.io .temp reason), full, writing ++ [full]⟩
      | none =>
        match faults.rename with
        | some reason => ⟨.error (.io .file reason), full, writing ++ [full]⟩
        | none =>
          let renamed : Disk := ⟨some contents, none⟩
          let moments := writing ++ [full, renamed]
          match faults.openDir with
          | some reason => ⟨.error (.io .directory reason), renamed, moments⟩
          | none =>
            match faults.syncDir with
            | some reason => ⟨.error (.io .directory reason), renamed, moments⟩
            | none => ⟨.ok (), renamed, moments⟩

def commit (faults : Faults) (contents : Bytes) (d : Disk) : Outcome :=
  match faults.ensureDir with
  | some reason => ⟨.error (.io .directory reason), d, []⟩
  | none =>
    let replaced := replace faults contents d
    match replaced.result with
    | .ok () => replaced
    | .error e =>
      let cleaned :=
        if faults.removeSucceeds then { replaced.disk with temp := none } else replaced.disk
      ⟨.error e, cleaned, replaced.moments ++ [cleaned]⟩

/-- Create the file, failing if anything is already there. -/
def createNew (faults : Faults) (contents : Bytes) (d : Disk) : Outcome :=
  match faults.ensureDir with
  | some reason => ⟨.error (.io .directory reason), d, []⟩
  | none =>
    match faults.create, d.file with
    | some reason, _ => ⟨.error (.io .file reason), d, []⟩
    | none, some _ => ⟨.error (.io .file "File exists"), d, []⟩
    | none, none =>
      let created : Disk := { d with file := some [] }
      let writing :=
        created :: faults.written.map fun n => { d with file := some (contents.take n) }
      let full : Disk := { d with file := some contents }
      let clean (d : Disk) : Disk := if faults.removeSucceeds then { d with file := none } else d
      match faults.write with
      | some reason =>
        let cleaned := clean (writing.getLastD created)
        ⟨.error (.io .file reason), cleaned, writing ++ [cleaned]⟩
      | none =>
        match faults.sync, faults.openDir, faults.syncDir with
        | some reason, _, _ =>
          ⟨.error (.io .file reason), clean full, writing ++ [full, clean full]⟩
        | none, some reason, _ =>
          ⟨.error (.io .directory reason), clean full, writing ++ [full, clean full]⟩
        | none, none, some reason =>
          ⟨.error (.io .directory reason), clean full, writing ++ [full, clean full]⟩
        | none, none, none => ⟨.ok (), full, writing ++ [full]⟩

section Commit

variable (faults : Faults) (contents : Bytes) (d : Disk)

/-- What a reader of the vault file can find while the replacement is under
way, and when it ends. -/
theorem replace_file :
    (∀ m ∈ (replace faults contents d).moments, m.file = d.file ∨ m.file = some contents) ∧
      ((replace faults contents d).disk.file = d.file ∨
        (replace faults contents d).disk.file = some contents) ∧
      ((replace faults contents d).result = .ok () →
        (replace faults contents d).disk.file = some contents) := by
  have hwriting : ∀ m ∈ ({ d with temp := some [] } : Disk) ::
      faults.written.map (fun n => ({ d with temp := some (contents.take n) } : Disk)),
      m.file = d.file := by
    intro m hm
    rcases List.mem_cons.mp hm with rfl | hm
    · rfl
    · obtain ⟨n, -, rfl⟩ := List.mem_map.mp hm
      rfl
  have hlast := hwriting _ (List.getLast_mem (List.cons_ne_nil _ _))
  unfold replace
  rcases faults.create with _ | reason
  case some => exact ⟨by simp, Or.inl rfl, by simp⟩
  rcases faults.write with _ | reason
  case some =>
    refine ⟨fun m hm => Or.inl (hwriting m hm), Or.inl ?_, by simp⟩
    simpa [List.getLastD_eq_getLast?, List.getLast?_eq_some_getLast] using hlast
  have hfull : ∀ m ∈ ({ d with temp := some [] } : Disk) ::
      faults.written.map (fun n => ({ d with temp := some (contents.take n) } : Disk)) ++
        [{ d with temp := some contents }], m.file = d.file ∨ m.file = some contents := by
    intro m hm
    rcases List.mem_append.mp hm with hm | hm
    · exact Or.inl (hwriting m hm)
    · rw [List.mem_singleton] at hm
      subst hm
      exact Or.inl rfl
  have hrenamed : ∀ m ∈ ({ d with temp := some [] } : Disk) ::
      faults.written.map (fun n => ({ d with temp := some (contents.take n) } : Disk)) ++
        [{ d with temp := some contents }, ⟨some contents, none⟩],
      m.file = d.file ∨ m.file = some contents := by
    intro m hm
    rw [show [({ d with temp := some contents } : Disk), ⟨some contents, none⟩] =
      [{ d with temp := some contents }] ++ [⟨some contents, none⟩] from rfl,
      ← List.append_assoc] at hm
    rcases List.mem_append.mp hm with hm | hm
    · exact hfull m hm
    · rw [List.mem_singleton] at hm
      subst hm
      exact Or.inr rfl
  rcases faults.sync with _ | reason
  case some => exact ⟨hfull, Or.inl rfl, by simp⟩
  rcases faults.rename with _ | reason
  case some => exact ⟨hfull, Or.inl rfl, by simp⟩
  rcases faults.openDir with _ | reason
  case some => exact ⟨hrenamed, Or.inr rfl, by simp⟩
  rcases faults.syncDir with _ | reason
  · exact ⟨hrenamed, Or.inr rfl, fun _ => rfl⟩
  · exact ⟨hrenamed, Or.inr rfl, by simp⟩

/-- At every moment of a commit the vault file is what it was, or complete. -/
theorem commit_file :
    (∀ m ∈ (commit faults contents d).moments, m.file = d.file ∨ m.file = some contents) ∧
      ((commit faults contents d).disk.file = d.file ∨
        (commit faults contents d).disk.file = some contents) ∧
      ((commit faults contents d).result = .ok () →
        (commit faults contents d).disk.file = some contents) := by
  obtain ⟨hmoments, hdisk, hok⟩ := replace_file faults contents d
  unfold commit
  rcases faults.ensureDir with _ | reason
  case some => exact ⟨by simp, Or.inl rfl, by simp⟩
  simp only
  split
  · exact ⟨hmoments, hdisk, hok⟩
  · have hcleaned : ∀ c : Disk,
        c = (if faults.removeSucceeds then { (replace faults contents d).disk with temp := none }
          else (replace faults contents d).disk) →
        c.file = d.file ∨ c.file = some contents := by
      rintro c rfl
      split <;> exact hdisk
    refine ⟨?_, hcleaned _ rfl, by simp⟩
    intro m hm
    rcases List.mem_append.mp hm with hm | hm
    · exact hmoments m hm
    · rw [List.mem_singleton] at hm
      exact hcleaned m hm

theorem replace_error {e : VaultError} (h : (replace faults contents d).result = .error e) :
    ∃ path reason, e = .io path reason := by
  unfold replace at h
  split at h
  · cases h
    exact ⟨_, _, rfl⟩
  simp only at h
  split at h
  · cases h
    exact ⟨_, _, rfl⟩
  split at h
  · cases h
    exact ⟨_, _, rfl⟩
  split at h
  · cases h
    exact ⟨_, _, rfl⟩
  split at h
  · cases h
    exact ⟨_, _, rfl⟩
  split at h
  · cases h
    exact ⟨_, _, rfl⟩
  · cases h

/-- All that can go wrong with a commit is the file system. -/
theorem commit_error {e : VaultError} (h : (commit faults contents d).result = .error e) :
    ∃ path reason, e = .io path reason := by
  unfold commit at h
  split at h
  · cases h
    exact ⟨_, _, rfl⟩
  simp only at h
  split at h
  · rename_i hok
    rw [hok] at h
    cases h
  · rename_i e' he
    cases h
    exact replace_error faults contents d he

theorem createNew_ok (h : (createNew faults contents d).result = .ok ()) :
    (createNew faults contents d).disk.file = some contents := by
  revert h
  unfold createNew
  rcases faults.ensureDir with _ | reason
  case some => simp
  rcases faults.create with _ | reason
  case some => simp
  rcases d.file with _ | old
  case some => simp
  rcases faults.write with _ | reason
  case some => simp
  rcases faults.sync with _ | reason
  case some => simp
  rcases faults.openDir with _ | reason
  case some => simp
  rcases faults.syncDir with _ | reason
  case some => simp
  simp

end Commit

end Storage

end Vault

end CacheWarden
