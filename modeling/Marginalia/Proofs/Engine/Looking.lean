import Marginalia.Engine
import Marginalia.Proofs.Files.Additions

/-!
# Looking at a project

Scans and snapshots that are read leave the files, the journal and the configuration alone. What
they leave behind is reports, and runs of the version control system.
-/

namespace Marginalia.Engine

/-- Two engines that differ at most in what was reported and run. -/
structure Looked (engine engine' : Engine) : Prop where
  config : engine'.config = engine.config
  files : engine'.workspace.files = engine.workspace.files
  journal : engine'.journal = engine.journal
  now : engine'.workspace.now = engine.workspace.now

instance : Std.Refl Looked where
  refl _ := ⟨rfl, rfl, rfl, rfl⟩

instance : IsTrans Engine Looked where
  trans _ _ _ h h' := ⟨h'.config.trans h.config, h'.files.trans h.files,
    h'.journal.trans h.journal, h'.now.trans h.now⟩

theorem ends_onFiles {engine : Engine} {work : FilesM α} {R : α → Engine → Prop}
    {E : Engine → Prop}
    (h : Ends (fun a files => R a { engine with workspace.files := files })
      (fun files => E { engine with workspace.files := files }) work engine.workspace.files) :
    Ends R E (onFiles work) engine where
  ok {a engine'} hrun := by
    simp only [EStateM.run, onFiles] at hrun
    split at hrun
    · cases hrun
      exact h.ok ‹_›
    · cases hrun
  error {fault engine'} hrun := by
    simp only [EStateM.run, onFiles] at hrun
    split at hrun
    · cases hrun
    · cases hrun
      exact h.error ‹_›

theorem looked_onFiles {work : FilesM α} (h : Respects Eq work) :
    Respects Looked (onFiles work) := fun engine =>
  ends_onFiles ((h engine.workspace.files).mono (fun _ _ heq => ⟨rfl, heq.symm, rfl, rfl⟩)
    fun _ heq => ⟨rfl, heq.symm, rfl, rfl⟩)

theorem looked_report (level : LogLevel) (reporter : Reporter) (text : String) :
    Respects Looked (report level reporter text) :=
  fun _ => ends_of_ok rfl ⟨rfl, rfl, rfl, rfl⟩

theorem looked_listTracked (directory : Data) : Respects Looked (listTracked directory) := by
  intro engine
  refine ends_get_bind (ends_bind (ends_of_ok rfl ?_))
  exact ((respects_liftExcept _).bind fun _ => respects_liftExcept _).onward ⟨rfl, rfl, rfl, rfl⟩

theorem looked_scan (directory : Data) (tags : Option Data) :
    Respects Looked (scan directory tags) := by
  refine respects_get.bind fun engine => (respects_liftExcept _).bind fun scanner => ?_
  refine (looked_listTracked _).bind fun listed => (looked_report _ _ _).bind fun _ => ?_
  refine (looked_onFiles (Files.respects_scanFiles scanner _ _)).bind fun remarks => ?_
  split
  · exact (respects_liftExcept _).bind fun _ => (looked_report _ _ _).bind fun _ => respects_pure _
  · exact (respects_pure _).bind fun _ => (looked_report _ _ _).bind fun _ => respects_pure _

theorem looked_readSnapshot (source : Option Path) : Respects Looked (readSnapshot source) := by
  have hread (engine : Engine) (path : Path) : Respects Looked (do
      if ← onFiles (Files.doesExist path) then
        let text ← onFiles (Files.readText path)
        liftExcept (Snapshot.read engine.workspace.snapshotStamp (String.ofList text))
      else return []) := by
    refine (looked_onFiles (Files.respects_doesExist path)).bind fun isThere => ?_
    split
    · exact (looked_onFiles (Files.respects_readText path)).bind fun _ => respects_liftExcept _
    · exact respects_pure _
  refine respects_get.bind fun engine => ?_
  cases source with
  | some path => exact (respects_pure path).bind (hread engine)
  | none => exact (respects_liftExcept _).bind (hread engine)

end Marginalia.Engine
