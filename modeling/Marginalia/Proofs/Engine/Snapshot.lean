import Marginalia.Proofs.Engine.Frame
import Marginalia.Proofs.Files.Replacement
import Marginalia.Proofs.Snapshot.Scanned
import Marginalia.Scan.Listing

/-!
# Scans, their snapshots, and what is read from them

A scan is written to a snapshot, which is read again. Every remark comes back as one row, with the
identity it had up to the width of gaps in its message, unless a name that users are free to choose
looks like more than one column.
-/

namespace Marginalia.Engine

open Snapshot (Plain gap narrowedIdentity readRow wideGaps)

variable {engine engine₁ engine₂ : Engine} {remarks : List Remark} {path : Path}

/-- The file of the snapshot has a text that was written for some remarks at the present time. -/
def HasSnapshot (remarks : List Remark) (engine : Engine) : Prop :=
  ∃ path stamp, engine.config.snapshotPath = .ok path ∧
    engine.workspace.now.snapshotStamp? = some stamp ∧
    engine.workspace.files.Holds path (Text.encodeChars (Snapshot.write stamp remarks).toList)

theorem snapshotStamp_ok {workspace : Workspace} (h : workspace.snapshotStamp = .ok stamp) :
    workspace.now.snapshotStamp? = some stamp := by
  unfold Workspace.snapshotStamp at h
  split at h
  · cases h
    assumption
  · cases h

theorem writeSnapshot_holds (remarks : List Remark) (engine : Engine) :
    Ends (fun _ engine' => engine'.HasSnapshot remarks) (fun _ => True)
      (writeSnapshot (remarks.map Remark.observe) none) engine := by
  refine (writeSnapshot_ends (R := fun files => ∃ path stamp,
      engine.config.snapshotPath = .ok path ∧ engine.workspace.now.snapshotStamp? = some stamp ∧
      files.Holds path (Text.encodeChars (Snapshot.write stamp remarks).toList))
    (E := fun _ => True) (remarks.map Remark.observe) trivial
    fun path stamp text hpath hstamp htext => ?_).mono ?_ fun _ _ => trivial
  · rw [Snapshot.writeUnchecked_observe] at htext
    obtain ⟨-, rfl⟩ := ite_ok.mp htext
    exact (Files.replaced_holds _).mono
      (fun _ _ h => ⟨path, stamp, hpath, snapshotStamp_ok hstamp, h⟩) fun _ => id
  · rintro _ _ ⟨files, rfl, hfiles⟩
    exact hfiles

theorem run_onFiles {work : FilesM α}
    (h : work.run engine.workspace.files = .ok a engine.workspace.files) :
    (onFiles work).run engine = .ok a engine := by
  simp only [EStateM.run] at h
  simp only [EStateM.run, onFiles, h]

/-- The rows of a snapshot are those of its text. -/
theorem HasSnapshot.run_readSnapshot (h : engine.HasSnapshot remarks)
    (hstamp : engine.workspace.now.snapshotStamp? = some stamp)
    (hread : Snapshot.read (.ok stamp)
      (String.ofList (Text.unifyNewlines (Snapshot.write stamp remarks).toList)) = .ok rows) :
    (readSnapshot none).run engine = .ok rows engine := by
  obtain ⟨path, stamp', hpath, hstamp', hholds⟩ := h
  obtain rfl : stamp' = stamp := Option.some_inj.mp (hstamp'.symm.trans hstamp)
  have hget : (get : EngineM Engine).run engine = .ok engine engine := rfl
  have hliftPath : (liftExcept engine.config.snapshotPath : EngineM Path).run engine =
      .ok path engine := by
    rw [hpath]
    rfl
  have hclock : engine.workspace.snapshotStamp = .ok stamp' := by
    rw [Workspace.snapshotStamp, hstamp]
  rw [readSnapshot, run_bind_of_ok hget, run_bind_of_ok hliftPath,
    run_bind_of_ok (run_onFiles hholds.run_doesExist), if_pos rfl,
    run_bind_of_ok (run_onFiles hholds.run_readText), hclock, hread]
  rfl

theorem HasSnapshot.run_readSnapshot_plain (h : engine.HasSnapshot remarks)
    (hscanned : ∀ a ∈ remarks, a.Scanned) (hplain : ∀ a ∈ remarks, Plain a) :
    ∃ stamp, (readSnapshot none).run engine =
      .ok ((Snapshot.sort remarks).map (readRow stamp)) engine := by
  obtain ⟨-, stamp, -, hstamp, -⟩ := id h
  obtain ⟨utc, hutc, -⟩ := Option.map_eq_some_iff.mp hstamp
  have hreturn : '\r' ∉ (Snapshot.write stamp remarks).toList :=
    Snapshot.carriage_notMem_write (fun a ha => ⟨hscanned a ha, hplain a ha⟩)
      (Snapshot.notMem_stamp hutc hstamp (by decide) (by decide))
  refine ⟨stamp, h.run_readSnapshot hstamp ?_⟩
  rw [Text.unifyNewlines_eq_self hreturn, String.ofList_toList]
  exact Snapshot.read_write_readable
    (fun a ha => Snapshot.readable_of_scanned (hscanned a ha) (hplain a ha))
    (Snapshot.beginsRow_stamp hutc hstamp) (.inr ⟨stamp, rfl⟩)

/-- A snapshot of a scan has one row for each remark, with the identity of the remark but for wide
gaps in its message. These are read as two spaces, which is what they have to be. -/
theorem scan_reads_back {directory : Data} {tags : Option Data}
    (hscan : (scan directory tags).run engine = .ok remarks engine₁)
    (hplain : ∀ a ∈ remarks, Plain a)
    (hwrite : (writeSnapshot (remarks.map Remark.observe) none).run engine₁ = .ok path engine₂) :
    ∃ rows, (readSnapshot none).run engine₂ = .ok rows engine₂ ∧ rows.length = remarks.length ∧
      (rows.map fun row => row.remark.fingerprint).Perm (remarks.map narrowedIdentity) ∧
      ((rows.map fun row => row.remark.fingerprint).Perm (remarks.map Remark.fingerprint) ↔
        ∀ a ∈ remarks, ∀ wide ∈ wideGaps a.message.toList, wide = gap) := by
  have hscanned := (scan_scanned directory tags engine).ok hscan
  obtain ⟨stamp, hread⟩ :=
    ((writeSnapshot_holds remarks engine₁).ok hwrite).run_readSnapshot_plain hscanned hplain
  have hsorted : (Snapshot.sort remarks).Perm remarks := Snapshot.sort_perm remarks
  have hperm : (((Snapshot.sort remarks).map (readRow stamp)).map
      fun row => row.remark.fingerprint).Perm (remarks.map narrowedIdentity) := by
    simp only [List.map_map, Function.comp_def, Snapshot.fingerprint_readRow]
    exact hsorted.map narrowedIdentity
  refine ⟨_, hread, ?_, hperm, ?_⟩
  · rw [List.length_map, hsorted.length_eq]
  · rw [← Snapshot.perm_narrowedIdentity]
    exact ⟨hperm.symm.trans, hperm.trans⟩

/-- A project with one file of one line. -/
def singleFile (tag name line : String) : Engine where
  config := { root := ⟨.root, ["project"]⟩, tags := [tag] }
  workspace := {
    files := {
      nodes := [
        (["project"], .directory),
        (["project", name], .file 0 (.bytes (Text.encode line)))]
      current := []
      next := 1 }
    listing := Source.narrowed [name]
    now := Journal.usedJournal.now }

/-- Whether a scan finds nothing but one remark, which is then written to the snapshot. -/
def writesSingle (project : Engine) (a : Remark) : Bool :=
  match (scan .null none).run project with
  | .ok remarks engine₁ =>
    match (writeSnapshot (remarks.map Remark.observe) none).run engine₁ with
    | .ok _ engine₂ => remarks == [a] && engine₂.workspace.now == project.workspace.now
    | .error _ _ => false
  | .error _ _ => false

theorem writesSingle_ok {a : Remark} (h : writesSingle engine a = true) :
    ∃ engine₁ path engine₂, (scan .null none).run engine = .ok [a] engine₁ ∧
      (writeSnapshot ([a].map Remark.observe) none).run engine₁ = .ok path engine₂ ∧
      engine₂.workspace.now = engine.workspace.now := by
  unfold writesSingle at h
  split at h
  · rename_i remarks engine₁ hscan
    split at h
    · rename_i path engine₂ hwrite
      obtain ⟨hremarks, hnow⟩ := Bool.and_eq_true_iff.mp h
      obtain rfl : remarks = [a] := eq_of_beq hremarks
      exact ⟨engine₁, path, engine₂, hscan, hwrite, eq_of_beq hnow⟩
    · cases h
  · cases h

def alignedRemark : Remark where
  file := "main.py"
  line := 1
  tag := "TODO"
  message := "line  up"
  owner := some "ann"
  category := some "ui"

theorem plain_alignedRemark : Plain alignedRemark where
  start := by decide
  file := by decide
  newline := by decide
  carriage := by decide
  line := by
    have hlimit : 10 ^ 1 ≤ 10 ^ Text.digitLimit := Nat.pow_le_pow_right (by decide) (by decide)
    exact lt_of_lt_of_le (by decide : (1 : Int) < 10) (by exact_mod_cast hlimit)
  tag := by decide
  date := nofun
  category := by decide

/-- A gap of two spaces comes back. -/
theorem scan_reads_back_aligned :
    ∃ engine₁ path engine₂ rows,
      (scan .null none).run (singleFile "TODO" "main.py" "# TODO: @ann [ui] line  up") =
        .ok [alignedRemark] engine₁ ∧
      (writeSnapshot ([alignedRemark].map Remark.observe) none).run engine₁ = .ok path engine₂ ∧
      (readSnapshot none).run engine₂ = .ok rows engine₂ ∧
      rows.map (fun row => row.remark.fingerprint) = ["TODO|main.py|line  up"] := by
  have hwrites : writesSingle (singleFile "TODO" "main.py" "# TODO: @ann [ui] line  up")
      alignedRemark = true := by decide +kernel
  obtain ⟨engine₁, path, engine₂, hscan, hwrite, -⟩ := writesSingle_ok hwrites
  obtain ⟨rows, hread, -, -, hsame⟩ :=
    scan_reads_back hscan (List.forall_mem_singleton.mpr plain_alignedRemark) hwrite
  have hperm := hsame.mpr (List.forall_mem_singleton.mpr (by decide))
  exact ⟨engine₁, path, engine₂, rows, hscan, hwrite, hread, List.perm_singleton.mp hperm⟩

/-- The identities that a scan finds, and those that its snapshot is read as. -/
def identities : EngineM (List String × List String) := do
  let remarks ← scanAll
  let _ ← writeSnapshot (remarks.map Remark.observe) none
  let rows ← readSnapshot none
  return (remarks.map Remark.fingerprint, rows.map fun row => row.remark.fingerprint)

theorem run_identities (hscan : scanAll.run engine = .ok remarks engine₁)
    (hwrite : (writeSnapshot (remarks.map Remark.observe) none).run engine₁ = .ok path engine₂)
    (hread : (readSnapshot none).run engine₂ = .ok rows engine₂) :
    identities.run engine = .ok
      (remarks.map Remark.fingerprint, rows.map fun row => row.remark.fingerprint) engine₂ := by
  rw [identities, run_bind_of_ok hscan, run_bind_of_ok hwrite, run_bind_of_ok hread]
  rfl

/-- Projects, the remark in the file of each, and the identities that are read. -/
def lossyProjects : List (Engine × Remark × List String) := [
  -- A wide gap in a message is narrowed.
  (singleFile "TODO" "main.py" "# TODO: line   up",
    ⟨"main.py", 1, "TODO", "line   up", .normal, none, none, none, none⟩,
    ["TODO|main.py|line  up"]),
  -- A blank in front of a value is taken for a part of the gap in front of it.
  (singleFile "TODO" " main.py" "# TODO: a",
    ⟨" main.py", 1, "TODO", "a", .normal, none, none, none, none⟩, ["TODO|main.py|a"]),
  (singleFile "TODO" "main.py" "# TODO: [ ] a",
    ⟨"main.py", 1, "TODO", "a", .normal, none, none, some " ", none⟩, ["TODO|main.py|"]),
  -- A wide gap inside a value makes two columns of it.
  (singleFile "TODO" "the  main.py" "# TODO: a",
    ⟨"the  main.py", 1, "TODO", "a", .normal, none, none, none, none⟩, []),
  (singleFile "TO  DO" "main.py" "# TO  DO: a",
    ⟨"main.py", 1, "TO  DO", "a", .normal, none, none, none, none⟩,
    ["TO|main.py|DO  normal  -  -  -  -  a"]),
  (singleFile "TODO" "main.py" "# TODO: [the  UI] a",
    ⟨"main.py", 1, "TODO", "a", .normal, none, none, some "the  UI", none⟩, ["TODO|main.py|-  a"]),
  -- A line end inside a value makes two rows.
  (singleFile "TODO" "the\nmain.py" "# TODO: a",
    ⟨"the\nmain.py", 1, "TODO", "a", .normal, none, none, none, none⟩, []),
  (singleFile "TODO" "the\rmain.py" "# TODO: a",
    ⟨"the\rmain.py", 1, "TODO", "a", .normal, none, none, none, none⟩, [])]

theorem writesSingle_lossyProjects :
    ∀ project ∈ lossyProjects, writesSingle project.1 project.2.1 = true := by decide +kernel

theorem read_lossyProjects : ∀ project ∈ lossyProjects, ∃ rows,
    Snapshot.read (.ok "2024-05-06 12:00:00") (String.ofList (Text.unifyNewlines
      (Snapshot.write "2024-05-06 12:00:00" [project.2.1]).toList)) = .ok rows ∧
    (rows.map fun row => row.remark.fingerprint) = project.2.2 := by
  have hread : ∀ project ∈ lossyProjects,
      (Snapshot.read (.ok "2024-05-06 12:00:00") (String.ofList (Text.unifyNewlines
          (Snapshot.write "2024-05-06 12:00:00" [project.2.1]).toList))).toOption.map
        (fun rows => rows.map fun row => row.remark.fingerprint) = some project.2.2 := by
    simp only [Snapshot.read_ofList, Snapshot.toList_write]
    decide +kernel
  intro project hproject
  obtain ⟨rows, hrows, hidentities⟩ := Option.map_eq_some_iff.mp (hread project hproject)
  exact ⟨rows, toOption_eq_some.mp hrows, hidentities⟩

theorem identities_lossyProjects : lossyProjects ≠ [] ∧ ∀ project ∈ lossyProjects,
    ∃ engine', identities.run project.1 = .ok ([project.2.1.fingerprint], project.2.2) engine' ∧
      ¬ project.2.2.Perm [project.2.1.fingerprint] := by
  have hapart : ∀ project ∈ lossyProjects, project.2.2 ≠ [project.2.1.fingerprint] := by decide
  have hstamp : ∀ project ∈ lossyProjects,
      project.1.workspace.now.snapshotStamp? = some "2024-05-06 12:00:00" := by decide
  refine ⟨nofun, fun project hproject => ?_⟩
  obtain ⟨engine₁, path, engine₂, hscan, hwrite, hnow⟩ :=
    writesSingle_ok (writesSingle_lossyProjects project hproject)
  obtain ⟨rows, hread, hidentities⟩ := read_lossyProjects project hproject
  have hsnapshot := (writeSnapshot_holds [project.2.1] engine₁).ok hwrite
  have hrun := run_identities hscan hwrite
    (hsnapshot.run_readSnapshot (hnow ▸ hstamp project hproject) hread)
  rw [hidentities] at hrun
  exact ⟨engine₂, hrun, fun hperm => hapart project hproject (List.perm_singleton.mp hperm)⟩

end Marginalia.Engine
