import Marginalia.Config.Load
import Marginalia.Proofs.Files.Refusals

/-!
# Settings and departures

Whatever is wrong with settings or with the file that writes them is an ordinary fault. Only a
script can leave the program, and only by its own departure.
-/

namespace Marginalia

/-- A result that is no departure. -/
def Orderly (x : Except Fault α) : Prop := ∀ fault, x = .error fault → fault.isOrdinary = true

theorem orderly_ok (a : α) : Orderly (.ok a) := nofun

theorem orderly_error {fault : Fault} (h : fault.isOrdinary = true) :
    Orderly (.error fault : Except Fault α) := by
  rintro _ ⟨⟩
  exact h

theorem Orderly.bind {x : Except Fault α} {f : α → Except Fault β} (hx : Orderly x)
    (hf : ∀ a, Orderly (f a)) : Orderly (x >>= f) := by
  cases x with
  | ok a => exact hf a
  | error fault => exact orderly_error (hx fault rfl)

theorem Orderly.map {x : Except Fault α} (hx : Orderly x) (f : α → β) : Orderly (x.map f) := by
  cases x with
  | ok a => exact orderly_ok _
  | error fault => exact orderly_error (hx fault rfl)

-- ---------------------------------------------------------------------------
-- Values
-- ---------------------------------------------------------------------------

namespace Data

theorem orderly_member? (d : Data) (key : String) : Orderly (d.member? key) := by
  unfold member?
  repeat' split
  all_goals first
    | exact orderly_ok _
    | exact orderly_error rfl

theorem orderly_checkLevels (levels : Nat) : Orderly (checkLevels levels) := by
  unfold checkLevels
  split
  · exact orderly_error rfl
  · exact orderly_ok _

mutual

theorem orderly_checkDetail (levels : Nat) : ∀ d : Data, Orderly (checkDetail levels d)
  | .int n => (orderly_checkLevels levels).bind fun _ => by
    split
    · exact orderly_ok _
    · exact orderly_error rfl
  | .list items => (orderly_checkLevels levels).bind fun _ => orderly_checkItems _ items
  | .object entries => (orderly_checkLevels levels).bind fun _ => orderly_checkEntries _ entries
  | .null | .bool _ | .float _ | .text _ | .date _ | .time _ | .moment _ =>
    orderly_checkLevels levels

theorem orderly_checkItems (levels : Nat) : ∀ items : List Data, Orderly (checkItems levels items)
  | [] => orderly_ok _
  | item :: rest => (orderly_checkDetail levels item).bind fun _ => orderly_checkItems levels rest

theorem orderly_checkEntries (levels : Nat) :
    ∀ entries : List (String × Data), Orderly (checkEntries levels entries)
  | [] => orderly_ok _
  | (_, value) :: rest => (orderly_checkDetail levels value).bind fun _ =>
    orderly_checkEntries levels rest

end

theorem orderly_written (d : Data) : Orderly d.written := by
  unfold written
  split
  · exact orderly_ok _
  · exact (orderly_checkDetail _ _).map _

end Data

-- ---------------------------------------------------------------------------
-- Settings
-- ---------------------------------------------------------------------------

namespace Config

variable {root path : Path} {files : Files}

theorem orderly_stringList (group key : String) (value : Data) :
    Orderly (stringList group key value) := by
  unfold stringList
  repeat' split
  all_goals first
    | exact orderly_ok _
    | exact orderly_error rfl

theorem orderly_switch (group key : String) (value : Data) : Orderly (switch group key value) := by
  unfold switch
  split
  · exact orderly_ok _
  · exact orderly_error rfl

theorem orderly_number? (group key : String) (settings : Data) :
    Orderly (number? group key settings) := by
  unfold number?
  repeat' split
  all_goals first
    | exact orderly_ok _
    | exact orderly_error rfl

theorem orderly_whenSet {change : Data → Except Fault Config} (settings : Data) (key : String)
    (config : Config) (hchange : ∀ value, Orderly (change value)) :
    Orderly (whenSet settings key config change) := by
  refine (settings.orderly_member? key).bind fun value? => ?_
  cases value? with
  | none => exact orderly_ok _
  | some value => exact hchange value

/-- A setting that is taken over as it is. -/
theorem orderly_taken (settings : Data) (key : String) (config : Config) (change : Data → Config) :
    Orderly (whenSet settings key config fun value => .ok (change value)) :=
  orderly_whenSet settings key config fun _ => orderly_ok _

theorem orderly_applyProject (config : Config) (group : Data) :
    Orderly (config.applyProject group) :=
  orderly_whenSet _ _ _ fun value => value.orderly_written.bind fun _ => orderly_ok _

theorem orderly_applyDirectories (config : Config) (group : Data) :
    Orderly (config.applyDirectories group) :=
  (orderly_taken _ _ _ _).bind fun _ =>
    (orderly_taken _ _ _ _).bind fun _ => orderly_taken _ _ _ _

theorem orderly_applyScan (config : Config) (group : Data) : Orderly (config.applyScan group) := by
  refine (orderly_whenSet _ _ _ fun value => ?_).bind fun _ =>
    (orderly_whenSet _ _ _ fun value => ?_).bind fun _ => orderly_whenSet _ _ _ fun value => ?_
  · exact (orderly_stringList _ _ value).bind fun _ => orderly_ok _
  · exact (orderly_stringList _ _ value).bind fun _ => orderly_ok _
  · exact (orderly_switch _ _ value).bind fun _ => orderly_ok _

theorem orderly_applyJournal (config : Config) (group : Data) :
    Orderly (config.applyJournal group) := by
  refine (orderly_whenSet _ _ _ fun value => ?_).bind fun config₁ =>
    (orderly_number? _ _ group).bind fun timeout? => ?_
  · exact (orderly_stringList _ _ value).bind fun _ => orderly_ok _
  · cases timeout? <;> exact orderly_ok _

theorem orderly_ofSettings (root : Path) (settings : Data) : Orderly (ofSettings root settings) :=
  (orderly_whenSet _ _ _ (orderly_applyProject _)).bind fun _ =>
    (orderly_whenSet _ _ _ (orderly_applyDirectories _)).bind fun _ =>
      (orderly_whenSet _ _ _ (orderly_applyScan _)).bind fun _ =>
        orderly_whenSet _ _ _ (orderly_applyJournal _)

-- ---------------------------------------------------------------------------
-- Readers
-- ---------------------------------------------------------------------------

/-- Work on files that does not leave the program. -/
def Remains (work : FilesM α) : Prop :=
  ∀ files, StopsBy (fun fault => fault.isOrdinary = true) work files

theorem Remains.bind {work : FilesM α} {f : α → FilesM β} (h : Remains work)
    (hf : ∀ a, Remains (f a)) : Remains (work >>= f) :=
  fun files => stopsBy_bind (h files) fun a files₁ _ => hf a files₁

theorem remains_pure (a : α) : Remains (pure a : FilesM α) := fun _ => stopsBy_pure a

theorem remains_throw {fault : Fault} (h : fault.isOrdinary = true) :
    Remains (throw fault : FilesM α) := fun _ => stopsBy_throw h

theorem remains_of_refuses {P : Path → Prop} {work : FilesM α} (h : Files.Refuses P work) :
    Remains work := fun files => (h files).mono fun _ hfault => by cases hfault <;> rfl

theorem remains_liftResult {x : Except Fault α} (h : Orderly x) : Remains (liftResult x) := by
  cases x with
  | ok a => exact remains_pure a
  | error fault => exact remains_throw (h fault rfl)

theorem remains_decodedText (path : Path) : Remains (decodedText path) := by
  refine (remains_of_refuses (Files.refuses_readBytes path)).bind fun bytes => ?_
  split
  · exact remains_pure _
  · exact remains_throw rfl

theorem remains_loadToml (path : Path) : Remains (loadToml path) := by
  refine (remains_decodedText path).bind fun cs => ?_
  split
  · exact remains_pure _
  all_goals exact remains_throw rfl

theorem remains_loadJson (path : Path) : Remains (loadJson path) := by
  refine (remains_decodedText path).bind fun cs => ?_
  split
  · exact remains_pure _
  all_goals exact remains_throw rfl

theorem remains_loadLegacy (path : Path) : Remains (loadLegacy path) :=
  (remains_decodedText path).bind fun _ => remains_pure _

/-- The settings are written by a script that leaves the program. -/
def Departs (path : Path) (files : Files) (departure : Departure) : Prop :=
  path.suffix = ".py" ∧ ∃ bytes script files',
    (Files.readContent (Path.join ⟨.root, files.current⟩ path)).run files =
      .ok (.script bytes script) files' ∧ script.departure = some departure

/-- A fault of a script is ordinary, or it is the departure of the script. -/
def ScriptFault (path : Path) (files : Files) (fault : Fault) : Prop :=
  fault.isOrdinary = true ∨ ∃ departure, Departs path files departure ∧ fault = .departure departure

theorem Remains.scriptFault {work : FilesM α} (h : Remains work) (path : Path)
    (files files' : Files) : StopsBy (ScriptFault path files) work files' :=
  (h files').mono fun _ => .inl

theorem stopsBy_loadScript (path : Path) (files : Files) :
    StopsBy (ScriptFault path files) (loadScript path) files := by
  unfold loadScript
  refine stopsBy_unless (fun _ => .inl rfl) fun hsuffix => stopsBy_get_bind ?_
  refine stopsBy_bind ?_ fun content files₁ hread => ?_
  · exact (remains_of_refuses (Files.refuses_readContent _)).scriptFault path files _
  · cases content with
    | bytes bytes =>
      cases bytes with
      | nil => exact stopsBy_pure _
      | cons byte rest => exact stopsBy_throw (.inl rfl)
    | journal store isFiled => exact stopsBy_throw (.inl rfl)
    | script bytes script =>
      cases hdeparture : script.departure with
      | some departure =>
        simp only [hdeparture]
        have hdeparts : Departs path files departure :=
          ⟨by simpa using hsuffix, bytes, script, files₁, hread, hdeparture⟩
        exact stopsBy_throw (.inr ⟨departure, hdeparts, rfl⟩)
      | none =>
        simp only [hdeparture]
        cases script.failure with
        | some reason => exact stopsBy_throw (.inl rfl)
        | none => exact stopsBy_pure _

end Config

end Marginalia
