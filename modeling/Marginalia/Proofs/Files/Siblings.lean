import Marginalia.Proofs.Files.Names
import Marginalia.Proofs.Files.Whole

/-!
# Siblings of a file

The lock file and the draft of a file are beside it, and their names are its whole name with an
ending. The name's own ending is cut off and written again on the way there; where dots stand in the
name makes no difference to that. A path is told by its text, so no two files share a lock file.
-/

namespace Marginalia.Path

variable {path path' : Path} {more : String}

-- ---------------------------------------------------------------------------
-- Texts of paths
-- ---------------------------------------------------------------------------

/-- A path as texts name it. -/
def Normal (path : Path) : Prop := ∀ name ∈ path.parts, name ≠ ".." → PlainName name

theorem normal_ofText (text : String) : (ofText text).Normal :=
  fun _ hname hdots => plain_of_mem_partsOf hname hdots

theorem anchorOf_append (anchor : Anchor) {rest : List Char} (h : rest.head? ≠ some '/') :
    anchorOf (anchor.text.toList ++ rest) = anchor := by
  cases anchor with
  | relative => exact anchorOf_eq_relative h
  | root =>
    cases rest with
    | nil => rfl
    | cons c rest => simp_all [Anchor.text, anchorOf]
  | doubleRoot =>
    cases rest with
    | nil => rfl
    | cons c rest => simp_all [Anchor.text, anchorOf]

theorem ofText_eq (text : String) :
    ofText text = ⟨anchorOf text.toList, partsOf text.toList⟩ := rfl

/-- The text of a path names it. -/
theorem ofText_text (h : path.Normal) : ofText path.text = path := by
  obtain ⟨anchor, parts⟩ := path
  by_cases hparts : parts = []
  · cases anchor <;> rw [hparts] <;> decide
  · have hslashes : ∀ c ∈ anchor.text.toList, c = '/' := by cases anchor <;> simp [Anchor.text]
    rw [ofText_eq, text_of_ne_nil hparts, String.toList_append,
      anchorOf_append anchor (head?_parts h), partsOf_slashes_append hslashes,
      partsOf_parts h hparts]

-- ---------------------------------------------------------------------------
-- Names with an ending
-- ---------------------------------------------------------------------------

/-- A path beside another one, with an ending to its name. No other path has it there. -/
structure Beside (path : Path) (more : String) (path' : Path) : Prop where
  parent : path'.parent = path.parent
  name : path'.name = path.name ++ more
  text : path'.text = path.text ++ more
  normal : path'.Normal
  only : ∀ other other' : Path, other.Normal → other.addSuffix more = .ok other' →
    other'.text = path'.text → other = path

theorem exists_addSuffix (hname : path.name ≠ "") (more : String) :
    ∃ path', path.addSuffix more = .ok path' := by
  cases h : path.addSuffix more with
  | ok path' => exact ⟨path', rfl⟩
  | error fault => exact absurd (addSuffix_error h).1 hname

theorem name_addSuffix (h : path.addSuffix more = .ok path') : path'.name = path.name ++ more := by
  obtain ⟨-, rfl⟩ := addSuffix_ok h
  simp [name]

theorem Normal.addSuffix (hnormal : path.Normal) (h : path.addSuffix more = .ok path')
    (hmore : 2 < more.length) (hslash : '/' ∉ more.toList) : path'.Normal := by
  obtain ⟨hne, rfl⟩ := addSuffix_ok h
  have hlast : path.name ∈ path.parts := by
    rw [parts_eq_concat hne]
    simp
  have hlength : 2 < (path.name ++ more).length := by
    rw [String.length_append]
    omega
  have hshort (name : String) (hname : name.length ≤ 2) : path.name ++ more ≠ name := by
    rintro rfl
    omega
  obtain ⟨-, -, hslash'⟩ := part_of_plain (hnormal _ hlast)
  refine List.forall_mem_append.mpr
    ⟨fun name hname => ?_, List.forall_mem_singleton.mpr fun _ => ?_⟩
  · exact hnormal name (List.dropLast_subset _ hname)
  · exact ⟨hshort "" (by decide), hshort "." (by decide), hshort ".." (by decide), by simp [*]⟩

theorem beside_addSuffix (hnormal : path.Normal) (h : path.addSuffix more = .ok path')
    (hmore : 2 < more.length) (hslash : '/' ∉ more.toList) : path.Beside more path' where
  parent := parent_addSuffix h
  name := name_addSuffix h
  text := text_addSuffix h
  normal := hnormal.addSuffix h hmore hslash
  only other other' hother hsuffix htext := by
    rw [text_addSuffix hsuffix, text_addSuffix h, String.append_left_inj] at htext
    rw [← ofText_text hother, htext, ofText_text hnormal]

-- ---------------------------------------------------------------------------
-- Lock files and drafts
-- ---------------------------------------------------------------------------

/-- A file has a lock file and a draft beside it. The three are different paths to different
places, and no other file has the same ones. -/
theorem lock_and_draft_beside (hnormal : path.Normal) (hname : path.name ≠ "") :
    ∃ lock draft, path.lock = .ok lock ∧ path.draft = .ok draft ∧
      path.Beside ".lock" lock ∧ path.Beside ".tmp" draft ∧
      ∀ current, ([path, lock, draft].map (placeFrom current)).Nodup := by
  obtain ⟨lock, hlock⟩ := exists_addSuffix hname ".lock"
  obtain ⟨draft, hdraft⟩ := exists_addSuffix hname ".tmp"
  refine ⟨lock, draft, hlock, hdraft, beside_addSuffix hnormal hlock (by decide) (by decide),
    beside_addSuffix hnormal hdraft (by decide) (by decide), fun current => ?_⟩
  have hlock' := placeFrom_addSuffix_ne hlock (by decide) current
  have hdraft' := placeFrom_addSuffix_ne hdraft (by decide) current
  have hapart := Files.draft_ne_lock hdraft hlock current
  simp [hlock'.symm, hdraft'.symm, hapart.symm]

/-- A name of two dots has no ending of its own. -/
theorem lock_and_draft_beside_dots : (ofText "src/..").Normal ∧ (ofText "src/..").name ≠ "" ∧
    ∃ lock draft, (ofText "src/..").lock = .ok lock ∧ (ofText "src/..").draft = .ok draft ∧
      (ofText "src/..").Beside ".lock" lock ∧ (ofText "src/..").Beside ".tmp" draft ∧
      ∀ current, ([ofText "src/..", lock, draft].map (placeFrom current)).Nodup :=
  have hname : (ofText "src/..").name ≠ "" := by decide
  ⟨normal_ofText _, hname, lock_and_draft_beside (normal_ofText _) hname⟩

example : ["a.tar.gz", ".hidden", "end.", "plain", ".."].map (fun name =>
    (ofText name).lock.toOption.map text) = ["a.tar.gz.lock", ".hidden.lock", "end..lock",
      "plain.lock", "...lock"].map some := by decide

end Marginalia.Path
