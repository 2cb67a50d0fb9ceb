import Marginalia.Proofs.Files.Locks
import Marginalia.Proofs.Journal.Opening

/-!
# Opening a journal again

A path that a journal was opened at once will do for good: whatever the tables in its file have
become by then, only a layout that is newer than the one described here keeps the journal from being
opened, and it is refused before anything is written. Any other layout is brought up to date. The
records and the counter stay, and opening the journal once more changes nothing.
-/

namespace Marginalia.Journal

open Files (node?_write)

variable {files files' : Files} {path : Path} {place : Place}
variable {tags : List String} {handle : Handle} {store : Store} {number : Nat} {isFiled : Bool}

-- ---------------------------------------------------------------------------
-- Paths that will do
-- ---------------------------------------------------------------------------

/-- A path and the place it leads to leave room for a journal and the files beside it. -/
structure Suits (path : Path) (place : Place) : Prop where
  named : path.parts ≠ []
  checked : Files.checkPath path = .ok ()
  fits : (Path.text ⟨.root, place⟩).utf8ByteSize + sideSuffixSize ≤ journalPathLimit
  nameFits : path.name.utf8ByteSize + sideSuffixSize ≤ nameLimit

/-- A directory that is there does not come to be a file, so that a path which leads to a file is
not its own parent. -/
theorem named_of_file (hparent : files.look path.parent = .ok .directory)
    (hlocate : files.locate path = .ok place) (hadds : Files.Adds files files')
    (hnode : files'.node? place = some (.file number content)) : path.parts ≠ [] := by
  intro hparts
  have hself : path.parent = path := by
    rw [Path.parent, hparts, List.dropLast_nil, ← hparts]
  rw [hself] at hparent
  obtain ⟨place', hlocate', hdirectory⟩ := Files.look_ok.mp hparent
  obtain rfl : place' = place := Except.ok.inj (hlocate'.symm.trans hlocate)
  rw [hadds.kept hdirectory] at hnode
  cases hnode

/-- A path that a journal was opened at will do. -/
theorem suits_openFile (h : (openFile path tags).run files = .ok handle files') :
    Suits path handle.place := by
  suffices Ends (fun handle _ => Suits path handle.place) (fun _ => True) (openFile path tags) files
    from this.ok h
  unfold openFile
  refine ends_bind ⟨fun {_ files₁} hmade => ?_, fun _ => trivial⟩
  refine ends_bind (ends_liftExcept (fun _ hchecked => ?_) trivial)
  refine ends_get_bind ?_
  split
  · rename_i place hlocate
    refine ends_unless (fun _ => trivial) fun hfits => ends_get_bind ?_
    refine ends_when (P := Files.Adds files₁) (fun hnone => ?_) (fun _ => refl files₁)
      fun files₂ hadds => ends_get_bind ?_
    · exact ends_of_ok rfl (Files.adds_make (by simpa using hnone))
    · split
      · rename_i number content hnode
        refine ends_bind (ends_liftExcept (fun tables _ => ?_) trivial)
        refine ends_unless (fun _ => trivial) fun hname => ?_
        refine ends_bind (ends_liftExcept (fun store _ => ?_) trivial)
        refine ends_bind (ends_of_ok rfl (ends_pure ?_))
        exact ⟨named_of_file (Files.look_ensureDirectory hmade) hlocate hadds hnode, hchecked,
          Nat.not_lt.mp hfits, Nat.not_lt.mp hname⟩
      · exact ends_throw trivial
  · exact ends_throw trivial

-- ---------------------------------------------------------------------------
-- Files that are there
-- ---------------------------------------------------------------------------

section There

variable (hsuits : Suits path place) (hlocate : files.locate path = .ok place)
variable (hnode : files.node? place = some (.file number (.journal store isFiled)))
include hsuits hlocate hnode

/-- Of a journal whose file is there, only the version of its tables decides what becomes of
opening it. -/
theorem run_openFile_there (tags : List String) :
    (openFile path tags).run files =
      match store.opened with
      | .error fault => .error fault files
      | .ok opened => .ok { path, place, number, isNew := false, tags, store := opened }
          (files.write place (.journal opened true)) := by
  have hlook : files.look path = .ok (.file number (.journal store isFiled)) :=
    Files.look_ok.mpr ⟨place, hlocate, hnode⟩
  have hparent : (Files.ensureDirectory path.parent).run files = .ok () files :=
    Files.run_ensureDirectory_there (Files.checkPath_parent hsuits.named hsuits.checked)
      (Files.look_parent hsuits.named hlook)
  have hchecked : (liftExcept (Files.checkPath path) : FilesM Unit).run files = .ok () files :=
    run_liftExcept_ok.mpr ⟨hsuits.checked, rfl⟩
  rw [openFile, run_bind_of_ok hparent, run_bind_of_ok hchecked, run_get_bind, hlocate]
  dsimp only
  rw [if_neg (Nat.not_lt.mpr hsuits.fits), run_get_bind, hnode]
  simp only [Option.isNone_some, Bool.false_eq_true, if_false]
  rw [run_get_bind, hnode]
  have htables : (liftExcept (tablesIn (.journal store isFiled)) : FilesM _).run files =
      .ok (some store) files := run_liftExcept_ok.mpr ⟨rfl, rfl⟩
  dsimp only
  rw [run_bind_of_ok htables, if_neg (Nat.not_lt.mpr hsuits.nameFits), Option.getD_some]
  cases store.opened <;> rfl

/-- A newer layout is refused, and nothing is written. -/
theorem run_openFile_newer (hnewer : store.IsNewer) (tags : List String) :
    ∃ fault, (openFile path tags).run files = .error fault files ∧ fault.faultClass = .journal := by
  obtain ⟨fault, hopened, hclass⟩ := Store.opened_of_isNewer hnewer
  have hrun := run_openFile_there hsuits hlocate hnode tags
  simp only [hopened] at hrun
  exact ⟨fault, hrun, hclass⟩

theorem run_openFile_known (hknown : ¬store.IsNewer) (tags : List String) :
    (openFile path tags).run files =
      .ok { path, place, number, isNew := false, tags,
            store := { store with version := some layoutVersion } }
        (files.write place (.journal { store with version := some layoutVersion } true)) := by
  have hrun := run_openFile_there hsuits hlocate hnode tags
  simpa only [Store.opened_of_not_isNewer hknown] using hrun

end There

/-- What opening a journal does to the files when these tables are at its place: they get the
current version, and all else is as it was. -/
structure Upgrades (place : Place) (number : Nat) (store : Store) (files files' : Files) :
    Prop where
  tables : files'.node? place =
    some (.file number (.journal { store with version := some layoutVersion } true))
  others : ∀ other, other ≠ place → files'.node? other = files.node? other
  current : files'.current = files.current
  next : files'.next = files.next
  locks : files'.locks = files.locks

theorem upgrades_write (hnode : files.node? place = some (.file number content)) (store : Store) :
    Upgrades place number store files
      (files.write place (.journal { store with version := some layoutVersion } true)) where
  tables := by simp [node?_write hnode]
  others other hother := by simp [node?_write hnode, hother]
  current := Files.current_write _ _ _
  next := by simp only [Files.write, hnode, Files.put]
  locks := Files.locks_write _ _ _

/-- Paths lead to the same files as before. -/
theorem Upgrades.locate (h : Upgrades place number store files files')
    (hnode : files.node? place = some (.file number content))
    (hlocate : files.locate path = .ok other) : files'.locate path = .ok other := by
  refine Files.locate_of_directories h.current (fun directory hdirectory => ?_) hlocate
  have hne : directory ≠ place := by
    rintro rfl
    rw [hnode] at hdirectory
    cases hdirectory
  rw [h.others directory hne, hdirectory]

/-- A journal that is closed as soon as it is opened leaves its file as it found it. -/
theorem close_of_journal {handle : Handle}
    (hnode : files.node? handle.place = some (.file handle.number content)) (store : Store) :
    handle.close (files.write handle.place (.journal store true)) =
      (files.write handle.place (.journal store true), true) := by
  have hcontent : handle.content? (files.write handle.place (.journal store true)) =
      some (.journal store true) := content?_eq_some.mpr (by simp [node?_write hnode])
  simp only [Handle.close, hcontent, Files.write_write hnode]

/-- Opening a journal again loses nothing. It is refused if and only if the tables in its file have
a newer layout, and a journal that is not opened leaves all files as they were. Otherwise the tables
get the current version and keep all else, the journal works on them, and neither closing it nor
opening it once more changes anything. -/
theorem open_keeps_history {before : Handle} {tags₀ : List String} {files₀ files₁ : Files}
    (hbefore : (openFile path tags₀).run files₀ = .ok before files₁)
    (hlocate : files.locate path = .ok before.place)
    (hnode : files.node? before.place = some (.file number (.journal store isFiled)))
    (tags : List String) :
    ((∃ fault files', (openFile path tags).run files = .error fault files' ∧
        fault.faultClass = .journal) ↔ store.IsNewer) ∧
      (∀ fault files', (openFile path tags).run files = .error fault files' → files' = files) ∧
      (¬store.IsNewer → ∃ handle files', (openFile path tags).run files = .ok handle files' ∧
        Upgrades before.place number store files files' ∧
        handle.current files' = .ok { store with version := some layoutVersion } ∧
        handle.close files' = (files', true) ∧
        ∀ tags', ∃ handle', (openFile path tags').run files' = .ok handle' files') := by
  have hsuits := suits_openFile hbefore
  by_cases hnewer : store.IsNewer
  · obtain ⟨fault, hrun, hclass⟩ := run_openFile_newer hsuits hlocate hnode hnewer tags
    refine ⟨iff_of_true ⟨fault, files, hrun, hclass⟩ hnewer, fun fault' files' h => ?_,
      absurd hnewer⟩
    rw [hrun] at h
    cases h
    rfl
  · have hrun := run_openFile_known hsuits hlocate hnode hnewer tags
    have hends (fault : Fault) (files' : Files) :
        (openFile path tags).run files ≠ .error fault files' := by
      rw [hrun]
      exact nofun
    have hupgrades := upgrades_write hnode store
    -- The current version takes the place of itself.
    have hagain := run_openFile_known hsuits (hupgrades.locate hnode hlocate) hupgrades.tables
      (Store.not_isNewer_current store)
    rw [Files.write_write hnode] at hagain
    refine ⟨iff_of_false (fun ⟨fault, files', h, _⟩ => hends fault files' h) hnewer,
      fun fault files' h => absurd h (hends fault files'), fun _ => ⟨_, _, hrun, hupgrades,
        current_of_journal (content?_eq_some.mpr hupgrades.tables), close_of_journal hnode _,
        fun tags' => ⟨_, hagain tags'⟩⟩⟩

/-- A journal of one record that was the seventh to be begun, with some version of its layout. -/
def versioned (version : Option Int) : Store where
  records := [⟨7, "BUG", "tidy", some "main.c:7", .completed, "2024-02-29T12:00:00.000+00:00",
    some "2024-03-01T12:00:00.000+00:00", .whole 3, none, "BUG|main.c|tidy"⟩]
  counter := 7
  version := version

def versionedFiles (version : Option Int) : Files where
  nodes := [(["journal.db"], .file 0 (.journal (versioned version) false))]
  current := []

theorem open_keeps_history_versioned :
    (∃ handle files', (openFile ⟨.relative, ["journal.db"]⟩ ["BUG"]).run (versionedFiles none) =
        .ok handle files' ∧
      Upgrades ["journal.db"] 0 (versioned none) (versionedFiles none) files') ∧
    ∃ fault files', (openFile ⟨.relative, ["journal.db"]⟩ ["BUG"]).run (versionedFiles (some 2)) =
      .error fault files' ∧ fault.faultClass = .journal := by
  obtain ⟨before, files₁, hbefore, hplace⟩ : ∃ before files₁,
      (openFile ⟨.relative, ["journal.db"]⟩ []).run ⟨[], [], 0, []⟩ = .ok before files₁ ∧
        before.place = ["journal.db"] := ⟨_, _, rfl, rfl⟩
  have hlocate (version : Option Int) :
      (versionedFiles version).locate ⟨.relative, ["journal.db"]⟩ = .ok before.place := by
    rw [hplace]
    rfl
  have hnode (version : Option Int) : (versionedFiles version).node? before.place =
      some (.file 0 (.journal (versioned version) false)) := by
    rw [hplace]
    rfl
  constructor
  · have hknown : ¬(versioned none).IsNewer := fun ⟨_, hversion, _⟩ => nomatch hversion
    obtain ⟨-, -, hopens⟩ := open_keeps_history hbefore (hlocate none) (hnode none) ["BUG"]
    obtain ⟨handle, files', hrun, hupgrades, -⟩ := hopens hknown
    exact ⟨handle, files', hrun, hplace ▸ hupgrades⟩
  · have hnewer : (versioned (some 2)).IsNewer := ⟨2, rfl, by decide⟩
    exact (open_keeps_history hbefore (hlocate _) (hnode _) ["BUG"]).1.mpr hnewer

end Marginalia.Journal
