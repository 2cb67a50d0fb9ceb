import Marginalia.Proofs.Files.Frame
import Marginalia.Proofs.Text.Parts
import Marginalia.Proofs.Text.Utf8

/-!
# What a replaced file holds

After a file is replaced, its path leads to a file with the new text. The path can still be
followed, since nothing that it goes through is changed: it goes through directories, and the draft
that takes its place is a file.
-/

namespace Marginalia

-- ---------------------------------------------------------------------------
-- Names
-- ---------------------------------------------------------------------------

namespace Path

variable {path path' : Path} {more : String}

theorem take_suffixOf (name : List Char) :
    name.take (name.length - (suffixOf name).length) ++ suffixOf name = name := by
  have hsuffix : ∃ stem, name = stem ++ suffixOf name := by
    unfold suffixOf
    split
    · rename_i before after hsplit
      obtain ⟨⟨front, behind⟩, hfound, hpair⟩ := Option.map_eq_some_iff.mp hsplit
      cases hpair
      split
      · exact ⟨name, (List.append_nil name).symm⟩
      · exact ⟨_, Text.splitLast?_eq_some hfound⟩
    · exact ⟨name, (List.append_nil name).symm⟩
  obtain ⟨stem, hstem⟩ := hsuffix
  have hlength := congrArg List.length hstem
  rw [List.length_append] at hlength
  generalize suffixOf name = suffix at hstem hlength ⊢
  subst hstem
  rw [hlength, Nat.add_sub_cancel, List.take_left]

theorem addSuffix_ok (h : path.addSuffix more = .ok path') :
    path.parts ≠ [] ∧
      path' = { path with parts := path.parts.dropLast ++ [path.name ++ more] } := by
  unfold addSuffix withSuffix at h
  dsimp only at h
  split at h
  · cases h
  · rename_i hname
    cases h
    refine ⟨fun hnil => hname (by simp [name, hnil]), ?_⟩
    have hstem : String.ofList (path.name.toList.take
        (path.name.toList.length - (suffixOf path.name.toList).length)) ++ (path.suffix ++ more) =
        path.name ++ more := by
      rw [← String.toList_inj]
      simp only [String.toList_append, String.toList_ofList, suffix, ← List.append_assoc,
        take_suffixOf]
    rw [hstem]

theorem intercalate_concat (separator : String) (front : List String) (x y : String) :
    separator.intercalate (front ++ [x ++ y]) = separator.intercalate (front ++ [x]) ++ y := by
  induction front with
  | nil => rfl
  | cons a rest ih =>
    cases rest with
    | nil => simp [String.intercalate_cons_cons, String.append_assoc]
    | cons b rest =>
      simp only [List.cons_append, String.intercalate_cons_cons] at ih ⊢
      rw [ih]
      simp only [String.append_assoc]

theorem text_of_ne_nil (h : path.parts ≠ []) :
    path.text = path.anchor.text ++ "/".intercalate path.parts := by
  unfold text
  split
  · rename_i hparts
    exact absurd hparts h
  · rfl

theorem parts_eq_concat (h : path.parts ≠ []) : path.parts = path.parent.parts ++ [path.name] := by
  rw [name, List.getLast?_eq_some_getLast h]
  exact (List.dropLast_concat_getLast h).symm

/-- More at the end of a name is more at the end of the path. -/
theorem text_addSuffix (h : path.addSuffix more = .ok path') : path'.text = path.text ++ more := by
  obtain ⟨hne, rfl⟩ := addSuffix_ok h
  have hparts : path.parts = path.parts.dropLast ++ [path.name] := parts_eq_concat hne
  have hne' : path.parts.dropLast ++ [path.name ++ more] ≠ [] := by simp
  rw [text_of_ne_nil hne, text_of_ne_nil hne', intercalate_concat, ← hparts, String.append_assoc]

end Path

namespace Files

variable {files files' : Files} {path draft : Path} {place other : Place} {cs : List Char}

theorem checkPath_iff : checkPath path = .ok () ↔ '\x00' ∉ path.text.toList := by
  unfold checkPath
  split
  · rename_i h
    simpa using h
  · rename_i h
    simpa using h

theorem checkPath_of_draft (hdraft : path.draft = .ok draft) (h : checkPath draft = .ok ()) :
    checkPath path = .ok () := by
  rw [checkPath_iff, Path.text_addSuffix hdraft, String.toList_append] at h
  exact checkPath_iff.mpr fun hmem => h (List.mem_append_left _ hmem)

-- ---------------------------------------------------------------------------
-- Places
-- ---------------------------------------------------------------------------

/-- A way is still there if all directories are. -/
theorem walk_of_directories {names : List String}
    (h : ∀ place, files.node? place = some .directory → files'.node? place = some .directory)
    (hwalk : files.walk place names = .ok other) : files'.walk place names = .ok other := by
  induction names generalizing place with
  | nil => exact hwalk
  | cons name rest ih =>
    rw [walk] at hwalk ⊢
    cases hnode : files.node? place with
    | none =>
      rw [hnode] at hwalk
      cases hwalk
    | some node =>
      cases node with
      | file number content =>
        rw [hnode] at hwalk
        cases hwalk
      | directory =>
        rw [hnode] at hwalk
        rw [h place hnode]
        dsimp only at hwalk ⊢
        split
        · rw [if_pos ‹_›] at hwalk
          exact hwalk
        · rw [if_neg ‹_›] at hwalk
          split
          · rw [if_pos ‹_›] at hwalk
            exact ih hwalk
          · rw [if_neg ‹_›] at hwalk
            exact ih hwalk

theorem locate_of_directories (hcurrent : files'.current = files.current)
    (h : ∀ place, files.node? place = some .directory → files'.node? place = some .directory)
    (hlocate : files.locate path = .ok place) : files'.locate path = .ok place := by
  unfold locate at hlocate ⊢
  split
  · rw [if_pos ‹_›] at hlocate
    cases hlocate
  · rw [if_neg ‹_›] at hlocate
    rw [hcurrent]
    exact walk_of_directories h hlocate

/-- A path leads to a file with these bytes. -/
structure Holds (files : Files) (path : Path) (bytes : Text.Bytes) : Prop where
  named : checkPath path = .ok ()
  found : ∃ place number, files.locate path = .ok place ∧
    files.node? place = some (.file number (.bytes bytes))

theorem holds_rename {source : Path} (hnamed : checkPath path = .ok ())
    (hsource : files.node? (source.placeFrom files.current) = some (.file number (.bytes bytes)))
    (h : files.rename source path = .ok files') : files'.Holds path bytes := by
  unfold rename at h
  obtain ⟨start, hstart, h⟩ := bind_ok.mp h
  obtain rfl := locate_ok hstart
  split at h
  · cases h
  · obtain ⟨place, hplace, h⟩ := bind_ok.mp h
    rw [hsource] at h
    split at h
    · rename_i hnone
      cases hnone
    · cases h
    · rename_i node target hnode hnot
      cases hnode
      cases h
      have hroot : place ≠ [] := by
        rintro rfl
        exact hnot rfl
      have hput := node?_put hroot (files.erase (source.placeFrom files.current))
        (.file number (.bytes bytes))
      have hdirectories (other : Place) (hother : files.node? other = some .directory) :
          ((files.erase (source.placeFrom files.current)).put place
            (.file number (.bytes bytes))).node? other = some .directory := by
        have hplace : other ≠ place := by
          rintro rfl
          exact hnot hother
        have hmoved : other ≠ source.placeFrom files.current := by
          rintro rfl
          rw [hsource] at hother
          cases hother
        rw [hput, if_neg hplace, node?_erase_ne hmoved, hother]
      have hcurrent : ((files.erase (source.placeFrom files.current)).put place
          (.file number (.bytes bytes))).current = files.current := rfl
      have hlocate := locate_of_directories hcurrent hdirectories hplace
      exact ⟨hnamed, place, number, hlocate, (hput place).trans (if_pos rfl)⟩

-- ---------------------------------------------------------------------------
-- Replacement
-- ---------------------------------------------------------------------------

@[simp] theorem current_write (files : Files) (place : Place) (content : Content) :
    (files.write place content).current = files.current := by
  unfold write
  split <;> rfl

theorem exists_file_write (hnot : files.node? place ≠ some .directory) (content : Content) :
    ∃ number, (files.write place content).node? place = some (.file number content) := by
  have hroot : place ≠ [] := by
    rintro rfl
    exact hnot rfl
  unfold write
  split
  · exact ⟨_, node?_put_self hroot files _⟩
  · exact ⟨_, node?_put_self hroot files _⟩

/-- A draft that is open is a file. -/
theorem openForWriting_file (h : files.openForWriting draft = .ok (files', place)) :
    place = draft.placeFrom files'.current ∧
      ∃ number content, files'.node? place = some (.file number content) := by
  unfold openForWriting at h
  obtain ⟨other, hother, h⟩ := bind_ok.mp h
  split at h
  · cases h
  · rename_i hnot
    cases h
    obtain ⟨number, hnode⟩ := exists_file_write (fun heq => hnot heq) (.bytes [])
    exact ⟨by rw [current_write, ← locate_ok hother], number, _, hnode⟩

theorem openDraft_file (files : Files) :
    Ends (fun place files' => checkPath draft = .ok () ∧ place = draft.placeFrom files'.current ∧
        ∃ number content, files'.node? place = some (.file number content))
      (fun _ => True) (openDraft draft) files := by
  refine ⟨fun {place files'} hrun => ?_, fun _ => trivial⟩
  simp only [EStateM.run, openDraft] at hrun
  split at hrun
  · cases hrun
  · rename_i hnamed
    split at hrun
    · rename_i hopen
      cases hrun
      exact ⟨hnamed, openForWriting_file hopen⟩
    · cases hrun

theorem moveDraft_holds (hnamed : checkPath path = .ok ())
    (hsource : files.node? (draft.placeFrom files.current) = some (.file number (.bytes bytes))) :
    Ends (fun _ files' => files'.Holds path bytes) (fun _ => True) (moveDraft draft path)
      files := by
  refine ⟨fun {_ files'} hrun => ?_, fun _ => trivial⟩
  simp only [EStateM.run, moveDraft] at hrun
  split at hrun
  · rename_i hrename
    cases hrun
    exact holds_rename hnamed hsource hrename
  · cases hrun

theorem writeDraft_holds (hdraft : path.draft = .ok draft) (files : Files) :
    Ends (fun _ files' => files'.Holds path (Text.encodeChars cs)) (fun _ => True)
      (writeDraft draft path (.ok cs) before) files := by
  rw [writeDraft_eq]
  refine ends_bind ((openDraft_file files).mono (fun place files₁ h => ?_) fun _ => id)
  obtain ⟨hnamed, hplace, number, content, hnode⟩ := h
  have hstored : (files₁.write place (.bytes (Text.encodeChars cs))).node?
      (draft.placeFrom (files₁.write place (.bytes (Text.encodeChars cs))).current) =
        some (.file number (.bytes (Text.encodeChars cs))) := by
    rw [current_write, ← hplace, node?_write hnode, if_pos rfl]
  exact ends_bind (ends_of_ok rfl (moveDraft_holds (checkPath_of_draft hdraft hnamed) hstored))

/-- A path to a replaced file leads to the new text. -/
theorem replaceText_holds (files : Files) :
    Ends (fun _ files' => files'.Holds path (Text.encodeChars cs)) (fun _ => True)
      (replaceText path (.ok cs) before) files := by
  unfold replaceText
  dsimp only
  cases hdraft : path.draft with
  | error fault => exact ends_throw trivial
  | ok draft =>
    refine ends_bind (ends_pure (ends_bind ⟨fun {_ files₁} _ => ?_, fun _ => trivial⟩))
    exact ⟨fun hrun => (writeDraft_holds hdraft files₁).ok (run_finishDraft_ok hrun),
      fun _ => trivial⟩

theorem Holds.unlocked (h : files.Holds path bytes) (number : Nat) :
    (files.unlocked number).Holds path bytes := by
  obtain ⟨place, number', hlocate, hnode⟩ := h.found
  have hcurrent : (files.unlocked number).current = files.current := rfl
  exact ⟨h.named, place, number', locate_of_directories hcurrent (fun _ => id) hlocate, hnode⟩

theorem replaced_holds (files : Files) :
    Ends (fun _ files' => files'.Holds path (Text.encodeChars cs)) (fun _ => True)
      (withLock path (replaceText path (.ok cs) before)) files := by
  have htrans : IsTrans Files fun _ _ => True := ⟨fun _ _ _ _ _ => trivial⟩
  exact withLock_ends (S := fun _ _ => True) ⟨fun _ => trivial, fun _ => trivial⟩
    (fun _ _ => trivial) (fun _ number h => h.unlocked number) fun files' _ =>
    replaceText_holds files'

-- ---------------------------------------------------------------------------
-- Reading
-- ---------------------------------------------------------------------------

theorem Holds.look (h : files.Holds path bytes) :
    ∃ number, files.look path = .ok (.file number (.bytes bytes)) := by
  obtain ⟨place, number, hlocate, hnode⟩ := h.found
  exact ⟨number, by simp [Files.look, hlocate, bind, Except.bind, hnode]⟩

theorem run_find? (hnamed : checkPath path = .ok ()) (hlook : files.look path = .ok node) :
    (find? path).run files = .ok (some node) files := by
  simp [EStateM.run, find?, hnamed, hlook]

theorem run_doesExist (hnamed : checkPath path = .ok ()) (hlook : files.look path = .ok node) :
    (doesExist path).run files = .ok true files := by
  rw [doesExist, EStateM.run_bind, run_find? hnamed hlook]
  rfl

theorem Holds.run_doesExist (h : files.Holds path bytes) :
    (doesExist path).run files = .ok true files := by
  obtain ⟨number, hlook⟩ := h.look
  exact Files.run_doesExist h.named hlook

theorem run_query_ok {call : Files → Except Nat α} :
    (query path call).run files = .ok a files' ↔
      checkPath path = .ok () ∧ call files = .ok a ∧ files = files' := by
  simp only [EStateM.run, query]
  cases checkPath path with
  | error fault => simp
  | ok _ => cases call files <;> simp

theorem run_query_error {call : Files → Except Nat α} (hnamed : checkPath path = .ok ())
    (h : call files = .error code) :
    (query path call).run files = .error (refusal path code) files := by
  simp [EStateM.run, query, hnamed, h]

theorem run_readBytes_file (hnamed : checkPath path = .ok ())
    (hlook : files.look path = .ok (.file number content)) :
    (readBytes path).run files = .ok content.toBytes files := by
  rw [readBytes, readContent, bind_assoc, run_bind_of_ok (run_query_ok.mpr ⟨hnamed, hlook, rfl⟩)]
  rfl

theorem run_readBytes_directory (hnamed : checkPath path = .ok ())
    (hlook : files.look path = .ok .directory) :
    (readBytes path).run files = .error (refusal path errIsDirectory) files := by
  rw [readBytes, readContent, bind_assoc, run_bind_of_ok (run_query_ok.mpr ⟨hnamed, hlook, rfl⟩)]
  rfl

theorem run_readBytes_error (hnamed : checkPath path = .ok ())
    (hlook : files.look path = .error code) :
    (readBytes path).run files = .error (refusal path code) files := by
  rw [readBytes, readContent, bind_assoc]
  exact run_bind_error.mpr (.inl (run_query_error hnamed hlook))

theorem Holds.run_readBytes (h : files.Holds path bytes) :
    (readBytes path).run files = .ok bytes files := by
  obtain ⟨number, hlook⟩ := h.look
  exact run_readBytes_file h.named hlook

/-- What was written as a text is read as this text, with its newlines unified. -/
theorem Holds.run_readText (h : files.Holds path (Text.encodeChars cs)) :
    (readText path).run files = .ok (Text.unifyNewlines cs) files := by
  rw [readText, EStateM.run_bind, h.run_readBytes]
  simp only [Text.decodeBytes_encodeChars]
  rfl

end Files

end Marginalia
