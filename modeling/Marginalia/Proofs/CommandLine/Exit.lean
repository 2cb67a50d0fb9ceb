import Marginalia.CommandLine
import Marginalia.Proofs.CommandLine.Options
import Marginalia.Proofs.Engine.Stops

/-!
# How a run ends

A run of the program with any words in any workspace. If a command is read and everything goes well,
the exit code is 0. If the configuration cannot be loaded or the command fails with a fault of the
program itself, the fault is told and the exit code is 1. All other faults leave the run; what they
come from is known, command by command.
-/

namespace Marginalia.CommandLine

open Journal (Entry)

variable {P : Fault → Prop} {console console' : Console}

-- ---------------------------------------------------------------------------
-- Printing
-- ---------------------------------------------------------------------------

namespace Console

theorem stopsBy_onEngine {work : EngineM α} (h : StopsBy P work console.engine) :
    StopsBy P (onEngine work) console := by
  intro fault console' hrun
  simp only [EStateM.run, onEngine] at hrun
  split at hrun
  · cases hrun
  · cases hrun
    exact h ‹_›

theorem run_onEngine_ok {work : EngineM α} (h : (onEngine work).run console = .ok a console') :
    ∃ engine, work.run console.engine = .ok a engine ∧ console' = { console with engine } := by
  simp only [EStateM.run, onEngine] at h
  split at h
  · cases h
    exact ⟨_, ‹_›, rfl⟩
  · cases h

theorem stopsBy_printLines {entries : List Entry} (h : ∀ entry ∈ entries, entry.IsRead)
    (console : Console) : StopsBy P (printLines entries) console := by
  induction entries generalizing console with
  | nil => exact stopsBy_pure _
  | cons entry rest ih =>
    obtain ⟨hentry, hrest⟩ := List.forall_mem_cons.mp h
    obtain ⟨text, htext⟩ := hentry.line
    rw [printLines, htext]
    refine stopsBy_bind (stopsBy_pure _) fun _ console₁ _ => ?_
    exact stopsBy_bind (stopsBy_of_ok rfl) fun _ console₂ _ => ih hrest console₂

theorem stopsBy_printEntries {entries : List Entry} (h : ∀ entry ∈ entries, entry.IsRead)
    (format : Format) (console : Console) : StopsBy P (printEntries entries format) console := by
  cases format with
  | json => exact stopsBy_of_ok rfl
  | text =>
    exact stopsBy_bind (stopsBy_of_ok rfl) fun _ console₁ _ => stopsBy_printLines h console₁

theorem stopsBy_printGroups (groups : List Journal.Store.GroupCount) (console : Console) :
    StopsBy P (do for group in groups do print (groupLine group)) console := by
  induction groups generalizing console with
  | nil => exact stopsBy_pure _
  | cons group rest ih =>
    rw [List.forIn_cons]
    exact ih _

theorem stopsBy_printStats (stats : Journal.Store.Stats) (format : Format) (console : Console) :
    StopsBy P (printStats stats format) console := by
  cases format with
  | json => exact stopsBy_of_ok rfl
  | text =>
    unfold printStats
    refine stopsBy_bind (stopsBy_of_ok rfl) fun _ _ _ => ?_
    refine stopsBy_bind (stopsBy_of_ok rfl) fun _ _ _ => ?_
    refine stopsBy_bind (stopsBy_of_ok rfl) fun _ _ _ => ?_
    refine stopsBy_bind (stopsBy_of_ok rfl) fun _ _ _ => ?_
    split
    · exact stopsBy_bind (stopsBy_of_ok rfl) fun _ _ _ => stopsBy_printGroups _ _
    · exact stopsBy_pure _

end Console

-- ---------------------------------------------------------------------------
-- Commands
-- ---------------------------------------------------------------------------

/-- The engine that a scan is done with. Resolved tags are taken in on demand. -/
def scanning (includeResolved : Bool) (engine : Engine) : Engine :=
  if includeResolved then { engine with config.includeResolved := true } else engine

/-- What leaves a command that an engine does, besides the faults of the program itself. -/
inductive Command.Escapes (engine : Engine) : Command → Fault → Prop
  | init (h : engine.Unset fault) : Escapes engine .init fault
  /-- The data directory is not written as one below the root. -/
  | outside (hpath : engine.config.dataPath = .ok path)
      (h : path.relativeTo engine.config.root = .error fault) : Escapes engine .init fault
  | scan (h : engine.Unscanned path fault) :
      Escapes engine (.scan path tags includeResolved out json) fault
  | snapshot
      (hscan : (Engine.scan path (tagsOf tags)).run (scanning includeResolved engine) =
        .ok remarks engine')
      (h : engine.Unwritten remarks out fault) :
      Escapes engine (.scan path tags includeResolved out false) fault
  | sync (h : engine.Unsynced fault) : Escapes engine .sync fault
  | active (h : engine.Unlisted limit offset .null fault) :
      Escapes engine (.active limit offset format) fault
  | history (h : engine.Unlisted limit offset type fault) :
      Escapes engine (.history limit offset status type format) fault
  | stats (h : engine.Uncounted fault) : Escapes engine (.stats format) fault
  | cancel (h : engine.Uncancelled n fault) : Escapes engine (.cancel (.int n)) fault

theorem isStatus_of_admits {status : Data} (h : status = .null ∨
    (ValueKind.oneOf (Journal.Status.all.map Journal.Status.name)).Admits status) :
    Engine.IsStatus status := by
  refine h.imp_right fun h => h.imp_right fun ⟨name, hname, hstatus⟩ => ?_
  obtain ⟨known, -, rfl⟩ := List.mem_map.mp hname
  exact ⟨known, hstatus⟩

theorem overrideTags_tagsOf (text : Option String) :
    ∃ names, Config.overrideTags (tagsOf text) = .ok names := by
  cases text with
  | none => exact ⟨none, rfl⟩
  | some s =>
    rw [tagsOf]
    split
    · exact ⟨none, rfl⟩
    · have htexts := Config.overrideTags_texts ((Text.splitOn ',' s.toList).map String.ofList)
      rw [List.map_map] at htexts
      exact ⟨_, htexts⟩

theorem Console.stopsBy_init (hclosed : console.engine.journal = none) :
    StopsBy (OwnOr (Command.Escapes console.engine .init)) Command.init.run console := by
  have hsetUp := stopsBy_onEngine (Engine.stopsBy_setUp hclosed)
  refine stopsBy_get_bind (stopsBy_bind (hsetUp.mono fun _ h => h.imp_right .init)
    fun path console₁ hrun => stopsBy_bind (stopsBy_of_ok rfl) fun _ console₂ _ => ?_)
  obtain ⟨_, hpath, -⟩ := run_onEngine_ok hrun
  refine stopsBy_bind (stopsBy_liftExcept fun fault hfault => ?_) fun _ _ _ => stopsBy_of_ok rfl
  exact .inr (.outside (Engine.path_setUp hpath) hfault)

/-- The switch for resolved tags changes the configuration, but no place in it. -/
theorem misnames_scanning {includeResolved : Bool} {engine : Engine}
    (h : (scanning includeResolved engine).config.Misnames fault) :
    engine.config.Misnames fault := by
  cases includeResolved with
  | false => exact h
  | true =>
    cases h with
    | place h hkind => exact .place h hkind
    | ignored hkind => exact .ignored hkind

theorem unscanned_scanning {includeResolved : Bool} {engine : Engine} {path : Data}
    (h : (scanning includeResolved engine).Unscanned path fault) : engine.Unscanned path fault := by
  cases h with
  | misnamed h => exact .misnamed (misnames_scanning h)
  | listing h => cases includeResolved <;> exact .listing h
  | root h => cases includeResolved <;> exact .root h

theorem unwritten_scanning {includeResolved : Bool} {engine : Engine} {remarks : List Remark}
    {out : Option Path} (h : (scanning includeResolved engine).Unwritten remarks out fault) :
    engine.Unwritten remarks out fault := by
  cases h with
  | misnamed h => exact .misnamed (misnames_scanning h)
  | clock h => cases includeResolved <;> exact .clock h
  | numeral hmem h => exact .numeral hmem h
  | barred hpath h => cases includeResolved <;> exact .barred hpath h

theorem Console.stopsBy_scan (path : Data) (hpath : Journal.IsWord path) (tags : Option String)
    (includeResolved : Bool) (out : Option Path) (json : Bool) :
    StopsBy (OwnOr (Command.Escapes console.engine (.scan path tags includeResolved out json)))
      (Command.scan path tags includeResolved out json).run console := by
  unfold Command.run
  refine stopsBy_when (Q := fun console₁ : Console =>
      console₁.engine = scanning includeResolved console.engine)
    (stopsBy_of_ok rfl) (fun hresolved console₁ hrun => ?_) (fun hresolved => ?_)
    fun console₁ hengine => ?_
  · cases hrun
    rw [scanning, if_pos hresolved]
  · rw [scanning, if_neg hresolved]
  · have hscanned : StopsBy (OwnOr (console₁.engine.Unscanned path))
        (onEngine (Engine.scan path (tagsOf tags))) console₁ :=
      stopsBy_onEngine (Engine.stopsBy_scan hpath (overrideTags_tagsOf tags))
    rw [hengine] at hscanned
    refine stopsBy_bind (hscanned.mono fun fault h => h.imp_right fun h =>
      .scan (unscanned_scanning h)) fun remarks console₂ hrun => ?_
    obtain ⟨engine, hremarks, rfl⟩ := run_onEngine_ok hrun
    rw [hengine] at hremarks
    have hlooked := (Engine.looked_scan _ _ _).ok hremarks
    split
    · exact stopsBy_of_ok rfl
    · rename_i hjson
      obtain rfl : json = false := by simpa using hjson
      have hwritten : StopsBy (OwnOr (engine.Unwritten remarks out))
          (onEngine (Engine.writeSnapshot (remarks.map Remark.observe) out))
          { console₁ with engine } := stopsBy_onEngine (Engine.stopsBy_writeSnapshot remarks out)
      refine stopsBy_bind (hwritten.mono fun fault h => h.imp_right fun h =>
        .snapshot hremarks (unwritten_scanning (hlooked.unwritten h))) fun _ _ _ =>
          stopsBy_of_ok rfl

/-- All that stops a command is a fault of the program itself, or leaves it for a known reason. -/
theorem Command.stopsBy_run {command : Command} (hregular : command.Regular)
    (hserve : command ≠ .serve) (hclosed : console.engine.journal = none) :
    StopsBy (OwnOr (command.Escapes console.engine)) command.run console := by
  cases command with
  | serve => exact absurd rfl hserve
  | init => exact Console.stopsBy_init hclosed
  | scan path tags includeResolved out json =>
    exact Console.stopsBy_scan path hregular tags includeResolved out json
  | sync =>
    have hsync := Console.stopsBy_onEngine (Engine.stopsBy_sync hclosed)
    exact stopsBy_bind (hsync.mono fun _ h => h.imp_right .sync) fun _ _ _ => stopsBy_of_ok rfl
  | active limit offset format =>
    obtain ⟨hlimit, hoffset⟩ := hregular
    have hlist := Console.stopsBy_onEngine (Engine.stopsBy_listActive hclosed hlimit hoffset)
    refine stopsBy_bind (hlist.mono fun _ h => h.imp_right .active) fun entries console₁ hrun => ?_
    obtain ⟨_, hentries, -⟩ := Console.run_onEngine_ok hrun
    exact Console.stopsBy_printEntries (Engine.isRead_listActive hentries) format console₁
  | history limit offset status type format =>
    obtain ⟨hlimit, hoffset, hstatus, htype⟩ := hregular
    have hlist := Console.stopsBy_onEngine
      (Engine.stopsBy_list hclosed hlimit hoffset (isStatus_of_admits hstatus) htype)
    refine stopsBy_bind (hlist.mono fun _ h => h.imp_right .history) fun entries console₁ hrun => ?_
    obtain ⟨_, hentries, -⟩ := Console.run_onEngine_ok hrun
    exact Console.stopsBy_printEntries (Engine.isRead_list hentries) format console₁
  | stats format =>
    have hstats := Console.stopsBy_onEngine (Engine.stopsBy_stats hclosed)
    exact stopsBy_bind (hstats.mono fun _ h => h.imp_right .stats) fun stats console₁ _ =>
      Console.stopsBy_printStats stats format console₁
  | cancel id =>
    obtain ⟨n, rfl⟩ := hregular
    have hcancel := Console.stopsBy_onEngine (Engine.stopsBy_cancel hclosed n)
    refine stopsBy_bind (hcancel.mono fun _ h => h.imp_right .cancel) fun entry console₁ hrun => ?_
    obtain ⟨_, hentry, -⟩ := Console.run_onEngine_ok hrun
    obtain ⟨text, htext⟩ := (Engine.isRead_cancel hentry).line
    rw [htext]
    exact stopsBy_bind (stopsBy_pure _) fun _ _ _ => stopsBy_of_ok rfl

-- ---------------------------------------------------------------------------
-- Runs
-- ---------------------------------------------------------------------------

variable {invocation : Invocation} {workspace : Workspace} {words : List String}

/-- The console on which a command starts. -/
def Console.start (config : Config) (workspace : Workspace) : Console :=
  { engine := { config, workspace := { workspace with log := [] } } }

/-- The configuration that a command line asks for is there. -/
def Invocation.Loads (invocation : Invocation) (workspace : Workspace) (config : Config) : Prop :=
  ∃ path, invocation.rootPath = .ok path ∧
    (invocation.loadConfig (path.resolve workspace.files.current)).run workspace.files =
      .ok config workspace.files

/-- The command is done to its end. -/
def Invocation.Succeeds (invocation : Invocation) (workspace : Workspace) : Prop :=
  ∃ config console, invocation.Loads workspace config ∧
    invocation.command.run.run (.start config workspace) = .ok () console

/-- The configuration cannot be loaded, or the command fails. A message about it starts so. -/
inductive Invocation.Fails (invocation : Invocation) (workspace : Workspace) :
    (start : String) → Fault → Prop
  | loading (hroot : invocation.rootPath = .ok path)
      (h : (invocation.loadConfig (path.resolve workspace.files.current)).run workspace.files =
        .error fault files) : Fails invocation workspace "Error loading config: " fault
  | running {config : Config} {after : Console} (hload : invocation.Loads workspace config)
      (h : invocation.command.run.run (.start config workspace) = .error fault after) :
      Fails invocation workspace "Error: " fault

/-- What leaves a run. -/
inductive Invocation.Escapes (invocation : Invocation) (workspace : Workspace) : Fault → Prop
  /-- A double dash stands for the root. -/
  | noRoot (h : invocation.root = .list []) :
      Escapes invocation workspace (.noMember "list" "resolve")
  | zeroRoot (h : invocation.root = .text s) (hcheck : Files.checkPath (.ofText s) ≠ .ok ()) :
      Escapes invocation workspace .nullByte
  /-- A double dash stands for the settings file. -/
  | noConfig (h : invocation.config = .list []) :
      Escapes invocation workspace (.noMember "list" "suffix")
  /-- The path of a settings file that is looked for is too long. -/
  | farRoot (hroot : invocation.rootPath = .ok path) (h : invocation.config = .null)
      (hname : name ∈ Config.fileNames) :
      Escapes invocation workspace
        (Files.refusal ((path.resolve workspace.files.current).child name) errNameTooLong)
  /-- The settings are a script that leaves the program. -/
  | departure {departure : Departure} (hroot : invocation.rootPath = .ok path)
      (hconfig : invocation.configPath = .ok explicit)
      (h : Config.SettingsDepart (path.resolve workspace.files.current) explicit workspace.files
        departure) : Escapes invocation workspace (.departure departure)
  | command {config : Config} (hload : invocation.Loads workspace config)
      (h : invocation.command.Escapes (Console.start config workspace).engine fault) :
      Escapes invocation workspace fault

theorem run_eq (hread : readInvocation ⟨.root, workspace.files.current⟩ words = .ok invocation) :
    run words workspace = runInvocation invocation workspace := by
  rw [run, hread]

theorem serve_beq {command : Command} (h : command ≠ .serve) : (command == .serve) = false := by
  cases command with
  | serve => exact absurd rfl h
  | _ => rfl

theorem rootPath_error (hregular : invocation.Regular) (h : invocation.rootPath = .error fault) :
    invocation.Escapes workspace fault ∧ fault.faultClass.isOwn = false := by
  unfold Invocation.rootPath at h
  rcases hregular.root with hroot | ⟨s, hroot⟩
  · rw [hroot] at h
    cases h
    exact ⟨.noRoot hroot, rfl⟩
  · rw [hroot] at h
    have hcheck : Files.checkPath (.ofText s) = .error fault := by
      rcases bind_error.mp h with hnone | ⟨text, htext, h⟩
      · cases hnone
      · cases htext
        exact (bind_error.mp h).resolve_right nofun
    obtain rfl := Files.checkPath_error hcheck
    exact ⟨.zeroRoot hroot (by rw [hcheck]; exact nofun), rfl⟩

/-- The settings file that is named is none, or there is a double dash in its place. -/
theorem configPath_cases (hregular : invocation.Regular) :
    (invocation.config = .list [] ∧ invocation.configPath = .error (.noMember "list" "suffix")) ∨
      ∃ explicit, invocation.configPath = .ok explicit ∧
        (explicit = none → invocation.config = .null) := by
  unfold Invocation.configPath
  rcases hregular.config with hconfig | hconfig | ⟨s, hconfig⟩
  · rw [hconfig]
    exact .inr ⟨none, rfl, fun _ => rfl⟩
  · rw [hconfig]
    exact .inl ⟨rfl, rfl⟩
  · rw [hconfig]
    exact .inr ⟨some (.ofText s), rfl, nofun⟩

theorem loadConfig_error (hregular : invocation.Regular) (hroot : invocation.rootPath = .ok path)
    (h : (invocation.loadConfig (path.resolve workspace.files.current)).run workspace.files =
      .error fault files) :
    fault.faultClass = .config ∨ invocation.Escapes workspace fault := by
  unfold Invocation.loadConfig at h
  rcases configPath_cases hregular with ⟨hconfig, hpath⟩ | ⟨explicit, hpath, hnone⟩
  · rw [hpath] at h
    cases h
    exact .inr (.noConfig hconfig)
  · rw [hpath] at h
    rcases Config.load_error h with hclass | ⟨rfl, name, hname, rfl⟩ | ⟨departure, hdeparts, rfl⟩
    · exact .inl hclass
    · exact .inr (.farRoot hroot (hnone rfl) hname)
    · exact .inr (.departure hroot hpath hdeparts)

theorem loads_of_loadConfig (hroot : invocation.rootPath = .ok path)
    (h : (invocation.loadConfig (path.resolve workspace.files.current)).run workspace.files =
      .ok config files) : files = workspace.files ∧ invocation.Loads workspace config := by
  have hsame : Respects Eq (invocation.loadConfig (path.resolve workspace.files.current)) :=
    (Config.respects_liftResult _).bind fun _ => Config.respects_load _ _
  obtain rfl := (hsame workspace.files).ok h
  exact ⟨rfl, path, hroot, h⟩

/-- An outcome in which a fault is told, or which it leaves. -/
def Outcome.Ends (outcome : Outcome) (start : String) (fault : Fault) : Prop :=
  (fault.faultClass.isOwn = true ∧ outcome.exit = .ok 1 ∧
    ∃ lines, outcome.messages = joinLines (lines ++ [start ++ fault.message])) ∨
  (fault.faultClass.isOwn = false ∧ outcome.exit = .error fault)

theorem ends_refusal {outcome : Outcome} {start : String} {fault : Fault} (lines : List String)
    (hexit : outcome.exit = (refusal start fault).1)
    (hmessages : outcome.messages = joinLines (lines ++ (refusal start fault).2)) :
    outcome.Ends start fault := by
  cases hown : fault.faultClass.isOwn with
  | true =>
    simp only [refusal, hown, if_true] at hexit hmessages
    exact .inl ⟨hown, hexit, lines, hmessages⟩
  | false =>
    simp only [refusal, hown] at hexit
    exact .inr ⟨hown, hexit⟩

theorem runCommand_ok {command : Command} {config : Config}
    (h : command.run.run (.start config workspace) = .ok () console) :
    (runCommand verbose config command workspace).exit = .ok 0 := by
  simp only [EStateM.run, Console.start] at h
  simp only [runCommand, h]

theorem ends_runCommand {command : Command} {config : Config}
    (h : command.run.run (.start config workspace) = .error fault console) :
    (runCommand verbose config command workspace).Ends "Error: " fault := by
  simp only [EStateM.run, Console.start] at h
  simp only [runCommand, h]
  exact ends_refusal _ rfl rfl

/-- A run succeeds, or it ends with the fault that it fails with, or the root is refused. -/
theorem runInvocation_cases (hserve : invocation.command ≠ .serve) :
    (invocation.Succeeds workspace ∧ (runInvocation invocation workspace).exit = .ok 0) ∨
    (∃ start fault, invocation.Fails workspace start fault ∧
      (runInvocation invocation workspace).Ends start fault) ∨
    ∃ fault, invocation.rootPath = .error fault ∧
      (runInvocation invocation workspace).exit = .error fault := by
  unfold runInvocation
  cases hroot : invocation.rootPath with
  | error fault => exact .inr (.inr ⟨fault, rfl, rfl⟩)
  | ok path =>
    simp only [serve_beq hserve, Bool.false_eq_true, if_false]
    cases hload : (invocation.loadConfig (path.resolve workspace.files.current)).run
        workspace.files with
    | error fault files =>
      have hfails := Invocation.Fails.loading hroot hload
      simp only [EStateM.run] at hload
      rw [hload]
      exact .inr (.inl ⟨_, fault, hfails, ends_refusal [] rfl rfl⟩)
    | ok config files =>
      obtain ⟨rfl, hloads⟩ := loads_of_loadConfig hroot hload
      simp only [EStateM.run] at hload
      rw [hload]
      cases hrun : invocation.command.run.run (.start config workspace) with
      | ok result console => exact .inl ⟨⟨config, console, hloads, hrun⟩, runCommand_ok hrun⟩
      | error fault console =>
        exact .inr (.inl ⟨_, fault, .running hloads hrun, ends_runCommand hrun⟩)

/-- A failure is a fault of the program itself, or leaves the run for a known reason. -/
theorem Invocation.Fails.escapes (hregular : invocation.Regular)
    (hserve : invocation.command ≠ .serve) (h : invocation.Fails workspace start fault) :
    OwnOr (invocation.Escapes workspace) fault := by
  cases h with
  | loading hroot h =>
    refine (loadConfig_error hregular hroot h).imp_left fun hclass => ?_
    rw [hclass]
    rfl
  | running hload h =>
    exact (Command.stopsBy_run hregular.command hserve rfl h).imp_right (.command hload)

/-- A run that reads a command ends in one of three ways: the command is done and the exit code is
0; the configuration cannot be loaded or the command fails, this is told and the exit code is 1; or
a fault that is none of the program's own leaves the run. -/
theorem run_ends_or_escapes
    (hread : readInvocation ⟨.root, workspace.files.current⟩ words = .ok invocation)
    (hserve : invocation.command ≠ .serve) :
    (invocation.Succeeds workspace ∧ (run words workspace).exit = .ok 0) ∨
    (∃ start fault lines, invocation.Fails workspace start fault ∧
      fault.faultClass.isOwn = true ∧ (run words workspace).exit = .ok 1 ∧
      (run words workspace).messages = joinLines (lines ++ [start ++ fault.message])) ∨
    ∃ fault, invocation.Escapes workspace fault ∧ fault.faultClass.isOwn = false ∧
      (run words workspace).exit = .error fault := by
  have hregular := regular_readInvocation hread
  rw [run_eq hread]
  rcases runInvocation_cases hserve with
    hsucceeds | ⟨start, fault, hfails, hends⟩ | ⟨fault, hroot, hexit⟩
  · exact .inl hsucceeds
  · rcases hends with ⟨hown, hexit, lines, hmessages⟩ | ⟨hown, hexit⟩
    · exact .inr (.inl ⟨start, fault, lines, hfails, hown, hexit, hmessages⟩)
    · -- No fault of the program itself leaves the run, so this one is of those that are known.
      refine .inr (.inr ⟨fault, ?_, hown, hexit⟩)
      exact (hfails.escapes hregular hserve).resolve_left (by rw [hown]; exact nofun)
  · obtain ⟨hescapes, hown⟩ := rootPath_error hregular hroot
    exact .inr (.inr ⟨fault, hescapes, hown, hexit⟩)

/-- A project without files. -/
def bareProject : Workspace where
  files := {
    nodes := [(["project"], .directory)]
    current := ["project"]
    next := 0 }
  listing := fun _ => .ended 0 [] []
  now := Journal.usedJournal.now

/-- A project whose settings are a script that exits. -/
def departingProject : Workspace :=
  { bareProject with
    files := {
      nodes := [
        (["project"], .directory),
        (["project", "issues_config.py"],
          .file 0 (.script [] { departure := some (.exit (.int 3)) }))]
      current := ["project"]
      next := 1 } }

/-- Whether words are read as a command that ends. -/
def isRead (words : List String) (workspace : Workspace) : Bool :=
  match readInvocation ⟨.root, workspace.files.current⟩ words with
  | .ok { command := .serve, .. } | .error _ => false
  | .ok _ => true

/-- The exit code of a run, if nothing leaves it. -/
def exitCode? (words : List String) (workspace : Workspace) : Option Nat :=
  (run words workspace).exit.toOption

theorem exitCode?_of_ok (h : (run words workspace).exit = .ok code) :
    exitCode? words workspace = some code := by
  rw [exitCode?, h]
  rfl

theorem exitCode?_of_error (h : (run words workspace).exit = .error fault) :
    exitCode? words workspace = none := by
  rw [exitCode?, h]
  rfl

theorem exists_of_isRead (words : List String) (workspace : Workspace)
    (h : isRead words workspace = true) : ∃ invocation,
    readInvocation ⟨.root, workspace.files.current⟩ words = .ok invocation ∧
      invocation.command ≠ .serve := by
  unfold isRead at h
  split at h
  · cases h
  · cases h
  · rename_i invocation hserve hread
    exact ⟨invocation, hread, fun hcommand => hserve _ _ _ (by rw [← hcommand])⟩

/-- Statistics of a bare project are told, a record that it does not have cannot be cancelled, and
a script that exits leaves the run. -/
theorem run_ends_or_escapes_each :
    (∃ invocation, readInvocation ⟨.root, ["project"]⟩ ["stats"] = .ok invocation ∧
      invocation.Succeeds bareProject ∧ (run ["stats"] bareProject).exit = .ok 0) ∧
    (∃ invocation start fault lines,
      readInvocation ⟨.root, ["project"]⟩ ["cancel", "7"] = .ok invocation ∧
      invocation.Fails bareProject start fault ∧ fault.faultClass.isOwn = true ∧
      (run ["cancel", "7"] bareProject).exit = .ok 1 ∧
      (run ["cancel", "7"] bareProject).messages = joinLines (lines ++ [start ++ fault.message])) ∧
    ∃ invocation fault, readInvocation ⟨.root, ["project"]⟩ ["stats"] = .ok invocation ∧
      invocation.Escapes departingProject fault ∧ fault.faultClass.isOwn = false ∧
      (run ["stats"] departingProject).exit = .error fault := by
  refine ⟨?_, ?_, ?_⟩
  · have hcode : exitCode? ["stats"] bareProject = some 0 := by decide +kernel
    obtain ⟨invocation, hread, hserve⟩ :=
      exists_of_isRead ["stats"] bareProject (by decide +kernel)
    rcases run_ends_or_escapes hread hserve with
      hsucceeds | ⟨start, fault, lines, -, -, hexit, -⟩ | ⟨fault, -, -, hexit⟩
    · exact ⟨invocation, hread, hsucceeds⟩
    · cases hcode.symm.trans (exitCode?_of_ok hexit)
    · cases hcode.symm.trans (exitCode?_of_error hexit)
  · have hcode : exitCode? ["cancel", "7"] bareProject = some 1 := by decide +kernel
    obtain ⟨invocation, hread, hserve⟩ :=
      exists_of_isRead ["cancel", "7"] bareProject (by decide +kernel)
    rcases run_ends_or_escapes hread hserve with
      ⟨-, hexit⟩ | ⟨start, fault, lines, hfails⟩ | ⟨fault, -, -, hexit⟩
    · cases hcode.symm.trans (exitCode?_of_ok hexit)
    · exact ⟨invocation, start, fault, lines, hread, hfails⟩
    · cases hcode.symm.trans (exitCode?_of_error hexit)
  · have hcode : exitCode? ["stats"] departingProject = none := by decide +kernel
    obtain ⟨invocation, hread, hserve⟩ :=
      exists_of_isRead ["stats"] departingProject (by decide +kernel)
    rcases run_ends_or_escapes hread hserve with
      ⟨-, hexit⟩ | ⟨start, fault, lines, -, -, hexit, -⟩ | ⟨fault, hescapes⟩
    · cases hcode.symm.trans (exitCode?_of_ok hexit)
    · cases hcode.symm.trans (exitCode?_of_ok hexit)
    · exact ⟨invocation, fault, hread, hescapes⟩

/-- A page with a bound that no table holds. -/
def widePage : List String := ["active", "--limit", "99999999999999999999"]

/-- The fault that leaves a listing of active records. -/
def activeEscape? (words : List String) (workspace : Workspace) : Option Fault :=
  match readInvocation ⟨.root, workspace.files.current⟩ words with
  | .ok { command := .active .., .. } =>
    match (run words workspace).exit with
    | .ok _ => none
    | .error fault => some fault
  | _ => none

theorem run_widePage_escapes : ∃ invocation limit offset format fault,
    readInvocation ⟨.root, ["project"]⟩ widePage = .ok invocation ∧
    invocation.command = .active limit offset format ∧
    (run widePage bareProject).exit = .error fault ∧
    fault.message = "Python int too large to convert to SQLite INTEGER" := by
  have hescape : (activeEscape? widePage bareProject).map Fault.message =
      some "Python int too large to convert to SQLite INTEGER" := by decide +kernel
  obtain ⟨fault, hfault, hmessage⟩ := Option.map_eq_some_iff.mp hescape
  unfold activeEscape? at hfault
  split at hfault
  · rename_i root config verbose limit offset format hread
    split at hfault
    · cases hfault
    · cases hfault
      exact ⟨_, limit, offset, format, fault, hread, rfl, ‹_›, hmessage⟩
  · cases hfault

end Marginalia.CommandLine
