import MirListing.Command.Run

/-!
# Disks that keep what they are given

The command reaches files through a `Disk`, which may be anything.  A disk is *lawful* for a view of
its state, the contents at each place, if reading changes nothing, a file that could be created
holds what was written into it, and no other place changes; in particular nothing changes anywhere
when a file could not be created.  Which files can be created the laws leave open.

The file tree is lawful, since a path leads to one place, if it leads anywhere (`FilePath.place`),
and making directories leaves all files alone.  A lawful disk stays lawful if it also refuses any
set of paths (`Disk.refusing`).
-/

namespace MirListing

/-- What a disk promises about the contents of its places. -/
structure Disk.Lawful {σ P : Type} (disk : Disk (StateM σ)) (contents : σ → P → Option String)
    (place : FilePath → P) : Prop where
  /-- Reading changes nothing. -/
  read : ∀ (path : FilePath) (state : σ), ((disk.read path).run state).2 = state
  /-- A file that has been created holds what was written. -/
  created : ∀ {path : FilePath} {text : String} {state after : σ},
    (disk.create path text).run state = (none, after) → contents after (place path) = some text
  /-- Creating a file changes no other place. -/
  elsewhere : ∀ {path : FilePath} {text : String} {state after : σ} {fault? : Option FileFault},
    (disk.create path text).run state = (fault?, after) →
    ∀ q, q ≠ place path → contents after q = contents state q
  /-- A file that could not be created changes no place. -/
  refused : ∀ {path : FilePath} {text : String} {state after : σ} {fault : FileFault},
    (disk.create path text).run state = (some fault, after) → contents after = contents state

/-! ## The file tree -/

/-- The place to which a path leads, if it leads anywhere. -/
def FilePath.place (path : FilePath) : List String :=
  path.names.foldl (fun place name => if name = ".." then FileTree.above place else place ++ [name])
    (if path.root = .here then [] else ["/"])

namespace FileTree

variable {t t' : FileTree} {path : FilePath} {text : String}

theorem follow_eq_ok {names start place : List String} (h : t.follow start names = .ok place) :
    place = names.foldl
      (fun place name => if name = ".." then above place else place ++ [name]) start := by
  induction names generalizing start with
  | nil => exact (Except.ok.inj h).symm
  | cons name rest ih =>
    rw [follow] at h
    split at h
    · cases h
    split at h
    · cases h
    split at h
    · cases h
    split at h
    · rename_i hup
      rw [List.foldl_cons, if_pos hup]
      exact ih h
    · rename_i hdown
      rw [List.foldl_cons, if_neg hdown]
      exact ih h

theorem locate_eq_ok {place : List String} (h : t.locate path = .ok place) :
    place = path.place := by
  rw [locate] at h
  split at h
  · cases h
  split at h
  · cases h
  exact follow_eq_ok h

/-- A file is written at the place of its path. -/
theorem write_eq_ok (h : t.write path text = .ok t') :
    t'.files = t.files.put path.place text := by
  rw [write] at h
  cases hlocate : t.locate path with
  | error => rw [hlocate] at h; cases h
  | ok place =>
    rw [hlocate] at h
    obtain rfl := locate_eq_ok hlocate
    simp only [bind, Except.bind] at h
    split at h
    · cases h
    · cases h
      rfl

/-! ### Directories -/

theorem makeDirectory_files (h : t.makeDirectory path = .ok t') : t'.files = t.files := by
  rw [makeDirectory] at h
  cases hlocate : t.locate path with
  | error => rw [hlocate] at h; cases h
  | ok place =>
    rw [hlocate] at h
    simp only [bind, Except.bind] at h
    split at h
    · cases h
    · cases h
      rfl

theorem settle_files : (t.settle path (t.makeDirectory path)).1.files = t.files := by
  cases h : t.makeDirectory path with
  | ok t' => exact makeDirectory_files h
  | error => rfl

theorem makeDirectoriesWith_files (above : Nat) :
    (t.makeDirectoriesWith path above).1.files = t.files := by
  induction above generalizing path with
  | zero => exact settle_files
  | succ above ih =>
    rw [makeDirectoriesWith]
    split
    · have hup : (t.makeDirectoriesWith path.parent above).1.files = t.files := ih
      split
      · rename_i heq
        rw [heq] at hup
        exact settle_files.trans hup
      · rename_i heq
        rw [heq] at hup
        exact hup
    · exact settle_files

theorem makeDirectories_files : (t.makeDirectories path).1.files = t.files :=
  makeDirectoriesWith_files _

/-! ### Files -/

theorem create_files {fault? : Option FileFault} (h : t.create path text = (t', fault?)) :
    t'.files = match fault? with
      | none => t.files.put path.place text
      | some _ => t.files := by
  have hdirectories : (t.makeDirectories path.parent).1.files = t.files := makeDirectories_files
  rw [create] at h
  split at h
  · rename_i heq
    cases h
    rw [heq] at hdirectories
    exact hdirectories
  · rename_i heq
    rw [heq] at hdirectories
    split at h
    · rename_i hwrite
      cases h
      exact (write_eq_ok hwrite).trans (congrArg (·.put path.place text) hdirectories)
    · cases h
      exact hdirectories

theorem disk_create_run :
    (disk.create path text).run t = ((t.create path text).2, (t.create path text).1) := rfl

/-- The file tree keeps what it is given. -/
theorem disk_lawful : disk.Lawful (fun t place => t.files.get? place) FilePath.place where
  read _ _ := rfl
  created := by
    intro path text t t' h
    rw [disk_create_run, Prod.mk.injEq] at h
    rw [create_files (Prod.ext h.2 h.1), OrderedMap.get?_put, if_pos rfl]
  elsewhere := by
    intro path text t t' fault? h q hq
    rw [disk_create_run, Prod.mk.injEq] at h
    rw [create_files (Prod.ext h.2 h.1)]
    cases fault? with
    | none => rw [OrderedMap.get?_put, if_neg (Ne.symm hq)]
    | some => rfl
  refused := by
    intro path text t t' fault h
    rw [disk_create_run, Prod.mk.injEq] at h
    rw [create_files (Prod.ext h.2 h.1)]

end FileTree

/-! ## Paths that cannot be created -/

/-- A disk on which some paths cannot be created. -/
def Disk.refusing {m : Type → Type} [Monad m] (disk : Disk m)
    (fault? : FilePath → Option FileFault) : Disk m :=
  { disk with
    create := fun path text =>
      match fault? path with
      | some fault => return some fault
      | none => disk.create path text }

/-- Either a path is refused and nothing happens, or it is created as before. -/
theorem Disk.refusing_create {σ : Type} {disk : Disk (StateM σ)}
    {fault? : FilePath → Option FileFault} {path : FilePath} {text : String} {state after : σ}
    {found? : Option FileFault}
    (h : ((disk.refusing fault?).create path text).run state = (found?, after)) :
    (∃ fault, fault? path = some fault ∧ found? = some fault ∧ after = state) ∨
      (disk.create path text).run state = (found?, after) := by
  rw [Disk.refusing] at h
  cases hfault : fault? path with
  | none =>
    simp only [hfault] at h
    exact .inr h
  | some fault =>
    simp only [hfault] at h
    cases h
    exact .inl ⟨fault, rfl, rfl, rfl⟩

/-- A lawful disk may refuse any paths. -/
theorem Disk.Lawful.refusing {σ P : Type} {disk : Disk (StateM σ)}
    {contents : σ → P → Option String} {place : FilePath → P} (h : disk.Lawful contents place)
    (fault? : FilePath → Option FileFault) : (disk.refusing fault?).Lawful contents place where
  read := h.read
  created := by
    intro path text state after hcreate
    obtain ⟨fault, -, hfound, -⟩ | hcreate := Disk.refusing_create hcreate
    · cases hfound
    · exact h.created hcreate
  elsewhere := by
    intro path text state after found? hcreate q hq
    obtain ⟨fault, -, -, rfl⟩ | hcreate := Disk.refusing_create hcreate
    · rfl
    · exact h.elsewhere hcreate q hq
  refused := by
    intro path text state after fault hcreate
    obtain ⟨fault, -, -, rfl⟩ | hcreate := Disk.refusing_create hcreate
    · rfl
    · exact h.refused hcreate

end MirListing
