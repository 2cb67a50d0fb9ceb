import Marginalia.Proofs.Files.Locks
import Marginalia.Proofs.Remark.Tags
import Marginalia.Proofs.Text.Parts
import Marginalia.Scan.Source

/-!
# What stops work on files

Work on a file makes calls about the file, about what is above it, about its lock and its draft.
It is stopped by refusals of such calls, by a lock that another writer holds, and by a path that has
no name to which an ending could be added. Reading sources is stopped by faults of the scan alone,
since no name that is listed has a zero byte in it.
-/

namespace Marginalia

namespace Path

variable {path file : Path} {c : Char}

/-- Besides slashes and the dot of an empty path, a path is written with what its parts are. -/
theorem mem_text_iff (hslash : c ≠ '/') (hdot : c ≠ '.') :
    c ∈ path.text.toList ↔ ∃ part ∈ path.parts, c ∈ part.toList := by
  have hanchor (anchor : Anchor) : c ∉ anchor.text.toList := by
    cases anchor <;> simp [Anchor.text, hslash]
  by_cases hparts : path.parts = []
  · have htext : c ∉ path.text.toList := by
      unfold text
      split
      · simpa using hdot
      · rw [hparts]
        simpa using hanchor _
    simp [htext, hparts]
  · rw [text_of_ne_nil hparts, String.toList_append, String.toList_intercalate]
    constructor
    · intro h
      rcases List.mem_append.mp h with h | h
      · exact absurd h (hanchor _)
      · rcases Text.mem_intercalate h with h | ⟨part, hpart, hmem⟩
        · exact absurd (by simpa using h) hslash
        · obtain ⟨name, hname, rfl⟩ := List.mem_map.mp hpart
          exact ⟨name, hname, hmem⟩
    · rintro ⟨part, hpart, hmem⟩
      exact List.mem_append_right _ (Text.subset_intercalate _ (List.mem_map_of_mem hpart) hmem)

theorem mem_of_mem_ofText {text : String} {part : String} (hpart : part ∈ (ofText text).parts)
    (h : c ∈ part.toList) : c ∈ text.toList := by
  obtain ⟨cs, hcs, rfl⟩ := List.mem_map.mp hpart
  rw [String.toList_ofList] at h
  exact Text.subset_of_mem_splitOn (List.mem_filter.mp hcs).1 h

/-- A child has no zero byte in it that is neither in the directory nor in its own name. -/
theorem checkPath_child {root : Path} {name : String} (hroot : Files.checkPath root = .ok ())
    (hname : '\x00' ∉ name.toList) : Files.checkPath (root.child name) = .ok () := by
  rw [Files.checkPath_iff, mem_text_iff (by decide) (by decide)] at hroot ⊢
  rintro ⟨part, hpart, hmem⟩
  unfold child join at hpart
  split at hpart
  · rcases List.mem_append.mp hpart with hpart | hpart
    · exact hroot ⟨part, hpart, hmem⟩
    · exact hname (mem_of_mem_ofText hpart hmem)
  · exact hname (mem_of_mem_ofText hpart hmem)

/-- The paths of the calls that work on a file is made of. -/
inductive Near (file : Path) : Path → Prop
  | above {names : List String} (h : names <+: file.parts) : Near file ⟨file.anchor, names⟩
  | lock {path : Path} (h : file.lock = .ok path) : Near file path
  | draft {path : Path} (h : file.draft = .ok path) : Near file path

theorem near_self (file : Path) : file.Near file := .above (List.prefix_refl _)

/-- What stops work on a file that no other writer has locked. -/
inductive Bars (file : Path) : Fault → Prop
  | refused {fault : Fault} (h : Files.IsRefusal file.Near fault) : Bars file fault
  | nameless (h : file.name = "") : Bars file (.emptyName file.text)

theorem bars_of_addSuffix {more : String} (h : file.addSuffix more = .error fault) :
    file.Bars fault := by
  obtain ⟨hname, rfl⟩ := addSuffix_error h
  exact .nameless hname

end Path

namespace Files

variable {path lock : Path}

theorem refuses_ensureDirectory (path : Path) : Refuses path.Near (ensureDirectory path) :=
  refuses_ensureNames _ _ fun names hnames =>
    .above (by simpa only [List.reverse_reverse] using hnames)

theorem refuses_ensureParent (path : Path) : Refuses path.Near (ensureDirectory path.parent) := by
  refine refuses_ensureNames _ _ fun names hnames => .above ?_
  rw [List.reverse_reverse] at hnames
  exact hnames.trans (List.dropLast_prefix _)

/-- A lock that is refused is held, if the lock file can be worked on. -/
theorem stopsBy_takeLock (hlock : path.lock = .ok lock) (files : Files) :
    StopsBy (fun fault => fault = .locked path.text ∨ path.Bars fault) (takeLock path lock)
      files := by
  have hnear : path.Near lock := .lock hlock
  have hcall {α : Type} {work : FilesM α} (h : Refuses path.Near work) (files : Files) :
      StopsBy (fun fault => fault = .locked path.text ∨ path.Bars fault) work files :=
    (h files).mono fun _ hfault => .inr (.refused hfault)
  refine stopsBy_bind (hcall (refuses_change hnear _) _) fun _ files₁ _ => ?_
  refine stopsBy_bind (hcall (refuses_query hnear _) _) fun node files₂ _ => ?_
  cases node with
  | directory => exact hcall (refuses_throw (.system hnear _ _)) _
  | file number content =>
    refine stopsBy_get_bind ?_
    split
    · exact stopsBy_bind (stopsBy_throw (.inl rfl)) fun _ _ h => nomatch h
    · exact stopsBy_of_ok rfl

theorem stopsBy_acquire (path : Path) (files : Files) :
    StopsBy (fun fault => fault = .locked path.text ∨ path.Bars fault) (acquire path) files := by
  cases hlock : path.lock with
  | error fault =>
    intro fault' files' hrun
    rw [acquire, hlock] at hrun
    cases hrun
    exact .inr (Path.bars_of_addSuffix hlock)
  | ok lock =>
    rw [acquire_eq hlock]
    refine stopsBy_bind ?_ fun _ files₁ _ => stopsBy_takeLock hlock files₁
    exact (refuses_ensureParent path files).mono fun _ hfault => .inr (.refused hfault)

-- ---------------------------------------------------------------------------
-- Replacing
-- ---------------------------------------------------------------------------

section Replacing

variable {draft : Path}

theorem refuses_discard (hdraft : path.draft = .ok draft) (h : IsRefusal path.Near fault) :
    Refuses path.Near (discard draft fault : FilesM α) := by
  have hnear : path.Near draft := .draft hdraft
  have hexists : Refuses path.Near (doesExist draft) :=
    (refuses_find? hnear).bind fun _ => refuses_pure _
  refine hexists.bind fun isThere => ?_
  split
  · exact (refuses_change hnear _).bind fun _ => refuses_throw h
  · exact refuses_throw h

theorem refuses_abandon (hdraft : path.draft = .ok draft) (h : IsRefusal path.Near fault) :
    Refuses path.Near (abandon draft fault : FilesM α) := by
  unfold abandon
  split
  · exact refuses_discard hdraft h
  · exact refuses_throw h

theorem refuses_openDraft (hdraft : path.draft = .ok draft) :
    Refuses path.Near (openDraft draft) := by
  have hnear : path.Near draft := .draft hdraft
  intro files fault files' hrun
  simp only [EStateM.run, openDraft] at hrun
  split at hrun
  · cases hrun
    exact isRefusal_of_checkPath hnear ‹_›
  · split at hrun
    · cases hrun
    · cases hrun
      exact .system hnear _ _

theorem refuses_moveDraft (hdraft : path.draft = .ok draft) :
    Refuses path.Near (moveDraft draft path) := by
  intro files fault files' hrun
  simp only [EStateM.run, moveDraft] at hrun
  split at hrun
  · cases hrun
  · cases hrun
    exact .system (.draft hdraft) _ _

theorem refuses_writeDraft (hdraft : path.draft = .ok draft) (cs before : List Char) :
    Refuses path.Near (writeDraft draft path (.ok cs) before) := by
  rw [writeDraft_eq]
  refine (refuses_openDraft hdraft).bind fun place => ?_
  have hstore : Refuses path.Near (store place cs) := fun _ => stopsBy_of_ok rfl
  exact hstore.bind fun _ => refuses_moveDraft hdraft

theorem stopsBy_replaceText (path : Path) (cs : List Char) (files : Files) :
    StopsBy path.Bars (replaceText path (.ok cs)) files := by
  unfold replaceText
  dsimp only
  cases hdraft : path.draft with
  | error fault => exact stopsBy_bind (stopsBy_throw (Path.bars_of_addSuffix hdraft)) nofun
  | ok draft =>
    refine stopsBy_bind (stopsBy_pure _) fun _ files₁ hpure => ?_
    cases hpure
    refine stopsBy_bind ((refuses_ensureParent path _).mono fun _ => .refused) ?_
    intro _ files₂ _ fault files₃ hrun
    obtain ⟨cause, files₄, hwrite, hrun⟩ := run_finishDraft_error hrun
    exact .refused (refuses_abandon hdraft (refuses_writeDraft hdraft cs [] _ hwrite) _ hrun)

/-- A block is run under a lock that is had, and giving the lock back stops nothing. -/
theorem stopsBy_withLock {block : FilesM α} {P : Fault → Prop}
    (hlock : StopsBy P (acquire path) files) (hblock : ∀ files, StopsBy P block files) :
    StopsBy P (withLock path block) files := by
  refine stopsBy_bind hlock fun number files₁ _ fault files' hrun => ?_
  simp only [EStateM.run] at hrun
  split at hrun
  · cases hrun
  · cases hrun
    exact hblock files₁ ‹_›

theorem stopsBy_replaced (path : Path) (cs : List Char) (files : Files) :
    StopsBy (fun fault => fault = .locked path.text ∨ path.Bars fault)
      (withLock path (replaceText path (.ok cs))) files :=
  stopsBy_withLock (stopsBy_acquire path files) fun files =>
    (stopsBy_replaceText path cs files).mono fun _ => .inr

end Replacing

-- ---------------------------------------------------------------------------
-- Reading
-- ---------------------------------------------------------------------------

theorem refuses_readContent (path : Path) : Refuses (Eq path) (readContent path) := by
  refine (refuses_query rfl _).bind fun node => ?_
  cases node with
  | directory => exact refuses_throw (.system rfl _ _)
  | file number content => exact refuses_pure _

theorem refuses_readBytes (path : Path) : Refuses (Eq path) (readBytes path) :=
  (refuses_readContent path).bind fun _ => refuses_pure _

theorem run_readSource_system {cause : SystemFault}
    (h : (readBytes (Path.child root name)).run files = .error (.system cause) files') :
    (Source.read root name).run files = .error (.sourceUnreadable name cause) files' := by
  unfold Source.read
  simp only [EStateM.run] at h ⊢
  rw [h]

theorem run_readSource_nullByte
    (h : (readBytes (Path.child root name)).run files = .error .nullByte files') :
    (Source.read root name).run files = .error .nullByte files' := by
  unfold Source.read
  simp only [EStateM.run] at h ⊢
  rw [h]

end Files

open Files (checkPath)

variable {root : Path} {name : String} {names : List String}

/-- A source that cannot be read is a fault of the scan, if its path has no zero byte in it. -/
theorem Source.stopsBy_read (root : Path) (name : String) (files : Files) :
    StopsBy (fun fault => fault.faultClass = .scan ∨
      checkPath (root.child name) = .error .nullByte ∧ fault = .nullByte)
      (Source.read root name) files := by
  intro fault files' hrun
  cases hread : (Files.readBytes (root.child name)).run files with
  | ok bytes files₁ =>
    rw [Files.run_readSource_ok hread] at hrun
    cases hrun
  | error cause files₁ =>
    cases Files.refuses_readBytes (root.child name) files hread with
    | nullByte h hcheck =>
      subst h
      rw [Files.run_readSource_nullByte hread] at hrun
      cases hrun
      exact .inr ⟨hcheck, rfl⟩
    | system h code target =>
      rw [Files.run_readSource_system hread] at hrun
      cases hrun
      exact .inl rfl

theorem Scanner.stopsBy_scanFiles (scanner : Scanner) (root : Path)
    (hnames : ∀ name ∈ names, '\x00' ∉ name.toList) (files : Files) :
    StopsBy (fun fault => fault.faultClass = .scan ∨
      checkPath root ≠ .ok () ∧ fault = .nullByte) (scanner.scanFiles root names) files := by
  induction names generalizing files with
  | nil => exact stopsBy_pure _
  | cons name rest ih =>
    obtain ⟨hname, hrest⟩ := List.forall_mem_cons.mp hnames
    refine stopsBy_bind ((Source.stopsBy_read root name files).mono fun fault hfault => ?_)
      fun text files₁ _ => stopsBy_bind (ih hrest files₁) fun _ _ _ => stopsBy_pure _
    refine hfault.imp_right fun ⟨hcheck, hnull⟩ => ⟨fun hroot => ?_, hnull⟩
    rw [Path.checkPath_child hroot hname] at hcheck
    cases hcheck

namespace Source

/-- What is listed has a name without a zero byte in it. -/
theorem listed_ok (h : listed root outcome = .ok names) :
    ∀ name ∈ names, name ≠ "" ∧ '\x00' ∉ name.toList := by
  unfold listed at h
  repeat' split at h
  all_goals cases h
  intro name hname
  obtain ⟨part, hpart, rfl⟩ := List.mem_map.mp (mem_distinct.mp hname)
  obtain ⟨hsplit, hne⟩ := List.mem_filter.mp hpart
  refine ⟨by simpa using hne, ?_⟩
  rw [String.toList_ofList]
  exact Text.separator_notMem_splitOn hsplit

/-- What a listing fails with besides faults of the scan. -/
inductive Spoils : ListingOutcome → Fault → Prop
  | refused (fault : Fault) : Spoils (.refused fault) fault
  | undecodable (h : Text.decodeBytes output = .error malformed) :
      Spoils (.ended 0 output errors) (.decoding malformed)

theorem listed_error {outcome : ListingOutcome} (h : listed root outcome = .error fault) :
    fault.faultClass = .scan ∨ Spoils outcome fault := by
  cases outcome with
  | refused fault' =>
    cases h
    exact .inr (.refused fault)
  | failed code =>
    cases h
    exact .inl rfl
  | ended code output errors =>
    simp only [listed] at h
    split at h
    · cases h
      exact .inl rfl
    · rename_i hcode
      obtain rfl : code = 0 := by simpa using hcode
      cases hdecode : Text.decodeBytes output with
      | ok cs => simp [hdecode] at h
      | error malformed =>
        rw [hdecode] at h
        cases h
        exact .inr (.undecodable hdecode)

end Source

end Marginalia
