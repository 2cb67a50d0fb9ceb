import Marginalia.Proofs.Engine.Frame
import Marginalia.Tool.Service

/-!
# What calls of tools leave alone

Every call is answered by an object that says whether it succeeded. A call that failed has left the
records and the snapshot as they were. Only two tools change records, and only one changes the
snapshot, when it is asked to. A tool that a project adds may do anything; what its call is left by
can only be a departure.
-/

namespace Marginalia

namespace Tool

open Engine (Follows Frames Spared SameRecords SameFile OwnJournal Looked)
open Journal (JournalM)

variable {layout : Layout} {engine engine' : Engine} {arguments : Data}

-- ---------------------------------------------------------------------------
-- Answers
-- ---------------------------------------------------------------------------

/-- Work that ends well only with results of a kind. -/
def Yields (P : α → Prop) (m : EngineM α) : Prop :=
  ∀ engine, Ends (fun a _ => P a) (fun _ => True) m engine

theorem yields_bind {P : β → Prop} {m : EngineM α} {f : α → EngineM β}
    (hf : ∀ a, Yields P (f a)) : Yields P (m >>= f) :=
  fun _ => ends_bind ⟨fun {a engine} _ => hf a engine, fun _ => trivial⟩

def Succeeds (answer : Data) : Prop := ∃ fields, answer = success fields

theorem yields_success (fields : List (String × Data)) :
    Yields Succeeds (return success fields) := fun _ => ends_pure ⟨fields, rfl⟩

theorem yields_run (arguments : Data) (tool : Tool) : Yields Succeeds (run arguments tool) := by
  cases tool with
  | scan =>
    refine yields_bind fun _ => yields_bind fun _ => yields_bind fun _ => yields_bind fun _ => ?_
    split
    · exact yields_bind fun _ => yields_success _
    · exact yields_success _
  | sync => exact yields_bind fun _ => yields_success _
  | active => exact yields_bind fun _ => yields_bind fun _ => yields_bind fun _ => yields_success _
  | history =>
    exact yields_bind fun _ => yields_bind fun _ => yields_bind fun _ => yields_bind fun _ =>
      yields_bind fun _ => yields_success _
  | stats => exact yields_bind fun _ => yields_success _
  | cancel => exact yields_bind fun _ => yields_bind fun _ => yields_bind fun _ => yields_success _
  | readSnapshot => exact yields_bind fun _ => yields_success _

theorem failureOf_eq (fault : Fault) :
    ∃ fields, failureOf fault = .object (("success", .bool false) :: fields) := by
  unfold failureOf
  split <;> exact ⟨_, rfl⟩

-- ---------------------------------------------------------------------------
-- Tools that only look
-- ---------------------------------------------------------------------------

section Looking

variable {S : Engine → Engine → Prop} [Std.Refl S] [IsTrans Engine S]

theorem respects_argument (name : String) (default : Data) :
    Respects S (argument arguments name default) :=
  (respects_liftExcept _).bind fun _ => respects_pure _

variable (hlooked : ∀ engine engine', Looked engine engine' → S engine engine')
  (hopen : Respects S Engine.openJournal)
  (hquiet : ∀ {α : Type} (work : JournalM α), Journal.Moving Journal.NoWrite work →
    Respects S (Engine.onJournal work))
include hlooked hopen hquiet

theorem respects_run {tool : Tool} (htool : tool ∈ [.active, .history, .stats, .readSnapshot]) :
    Respects S (run arguments tool) := by
  have hlist (limit offset : Data) (status : Option Journal.Status) (type : Data) :
      Respects S (Engine.onJournal (Journal.list limit offset status type)) :=
    hquiet _ (Engine.moving_list limit offset status type)
  simp only [List.mem_cons, List.not_mem_nil, or_false] at htool
  obtain rfl | rfl | rfl | rfl := htool
  · exact (respects_argument _ _).bind fun _ => (respects_argument _ _).bind fun _ =>
      (hlist _ _ _ _).bind fun _ => respects_pure _
  · exact (respects_argument _ _).bind fun _ => (respects_argument _ _).bind fun _ =>
      (respects_argument _ _).bind fun _ => (respects_argument _ _).bind fun _ =>
      (Engine.respects_list hopen hlist _ _ _ _).bind fun _ => respects_pure _
  · exact (hquiet _ Engine.moving_stats).bind fun _ => respects_pure _
  · exact ((Engine.looked_readSnapshot none).mono hlooked).bind fun _ => respects_pure _

end Looking

-- ---------------------------------------------------------------------------
-- What each tool leaves alone
-- ---------------------------------------------------------------------------

/-- No record of the journal and nothing of the snapshot is changed. -/
structure Untouched (layout : Layout) (engine engine' : Engine) : Prop where
  records : SameRecords layout.journalPlace engine engine'
  snapshot : SameFile layout.snapshotPlace engine engine'

theorem untouched_of_spared (hfollows : engine.Follows layout) (hspared : engine.Spared engine')
    (hframes : Frames layout layout.snapshotPlace engine engine') :
    Untouched layout engine engine' :=
  ⟨hspared.sameRecords _, (hframes hfollows).2⟩

theorem untouched_of_looked (hfollows : engine.Follows layout) (h : engine.Looked engine') :
    Untouched layout engine engine' :=
  untouched_of_spared hfollows (Engine.spared_of_looked h) (Engine.frames_of_looked h)

/-- The call says that a snapshot is to be written. -/
def AsksForSnapshot (arguments : Data) : Prop :=
  ∃ value, arguments.lookUp? "write_snapshot" = .ok (some value) ∧ value.holds = true

theorem looking_untouched {tool : Tool} (hfollows : engine.Follows layout)
    (htool : tool ∈ [.active, .history, .stats, .readSnapshot]) :
    Ends (fun _ => Untouched layout engine) (Untouched layout engine) (run arguments tool)
      engine := by
  have hmisses : Files.Misses layout.current layout.snapshotPlace layout.database :=
    layout.misses_snapshot (List.mem_append_right _ List.mem_cons_self)
  have hspared : Respects Spared (run arguments tool) :=
    respects_run (fun _ _ => Engine.spared_of_looked) Engine.spared_openJournal
      (fun _ => Engine.spared_onJournal) htool
  have hframes : Respects (Frames layout layout.snapshotPlace) (run arguments tool) :=
    respects_run (fun _ _ => Engine.frames_of_looked) (Engine.frames_openJournal hmisses)
      (fun work _ => Engine.frames_onJournal hmisses work) htool
  exact ((hspared engine).and (hframes engine)).mono
    (fun _ _ h => untouched_of_spared hfollows h.1 h.2)
    fun _ h => untouched_of_spared hfollows h.1 h.2

theorem asksForSnapshot {value : Data}
    (h : (argument arguments "write_snapshot" .null).run engine = .ok value engine')
    (hholds : value.holds = true) : AsksForSnapshot arguments := by
  unfold argument at h
  cases hfound : arguments.lookUp? "write_snapshot" with
  | error fault =>
    rw [hfound] at h
    cases h
  | ok found =>
    rw [hfound] at h
    cases h
    cases found with
    | none => cases hholds
    | some value => exact ⟨value, hfound, hholds⟩

/-- A scan finds all remarks before a snapshot is written. -/
theorem scan_ends (hfollows : engine.Follows layout) :
    Ends (fun _ engine' => SameRecords layout.journalPlace engine engine' ∧
        (¬AsksForSnapshot arguments → SameFile layout.snapshotPlace engine engine'))
      (Untouched layout engine) (run arguments .scan) engine := by
  have hstep {α : Type} {m : EngineM α} {f : α → EngineM Data} {R : Data → Engine → Prop}
      {engine₁ : Engine} (hm : Respects Looked m) (h : engine.Looked engine₁)
      (hf : ∀ a engine₂, m.run engine₁ = .ok a engine₂ → engine.Looked engine₂ →
        Ends R (Untouched layout engine) (f a) engine₂) :
      Ends R (Untouched layout engine) (m >>= f) engine₁ :=
    ends_bind ((hm.onward h).run.mono (fun a engine₂ h => hf a engine₂ h.2 h.1)
      fun _ => untouched_of_looked hfollows)
  refine hstep (respects_argument _ _) (refl engine) fun path engine₁ _ h => ?_
  refine hstep (respects_argument _ _) h fun tags engine₂ _ h => ?_
  refine hstep (Engine.looked_scan _ _) h fun remarks engine₃ _ h => ?_
  refine hstep (respects_argument _ _) h fun asked engine₄ hasked h => ?_
  have hlooked := untouched_of_looked hfollows h
  split
  · have hasks : AsksForSnapshot arguments := asksForSnapshot hasked ‹_›
    refine ends_bind ((Engine.writeSnapshot_frame (hfollows.looked h) _).mono
      (fun path engine₅ hsame => ?_) fun engine₅ hsame => ?_)
    · exact ends_pure ⟨hlooked.records.trans hsame, fun hnot => absurd hasks hnot⟩
    · exact ⟨hlooked.records.trans hsame.1, Eq.trans hsame.2 hlooked.snapshot⟩
  · exact ends_pure ⟨hlooked.records, fun _ => hlooked.snapshot⟩

theorem sync_untouched (hfollows : engine.Follows layout) :
    Ends (fun _ => SameFile layout.snapshotPlace engine) (Untouched layout engine)
      (run arguments .sync) engine :=
  ends_bind (((Engine.sync_ends none engine).and (Engine.frames_sync none engine)).mono
    (fun _ _ h => ends_pure (h.2 hfollows).2) fun _ h => untouched_of_spared hfollows h.1 h.2)

theorem cancel_untouched (hfollows : engine.Follows layout)
    (hown : engine.OwnJournal layout.journalPlace) :
    Ends (fun _ => SameFile layout.snapshotPlace engine) (Untouched layout engine)
      (run arguments .cancel) engine := by
  have hstopped : Untouched layout engine engine := untouched_of_looked hfollows (refl engine)
  refine ends_bind (ends_liftExcept (fun id _ => ?_) hstopped)
  refine ends_bind (ends_liftExcept (fun number _ => ?_) hstopped)
  have hframes : Respects (Frames layout layout.snapshotPlace) (Engine.cancel (.int number)) :=
    Engine.frames_onLockedJournal _
  exact ends_bind (((Engine.cancel_ends hfollows hown _).and (hframes engine)).mono
    (fun _ _ h => ends_pure (h.2 hfollows).2) fun _ h => untouched_of_spared hfollows h.1 h.2)

/-- Only two tools may change records, and only a scan that is asked to changes the snapshot. -/
structure Confined (layout : Layout) (arguments : Data) (tool : Tool) (engine engine' : Engine) :
    Prop where
  records : tool ≠ .sync → tool ≠ .cancel → SameRecords layout.journalPlace engine engine'
  snapshot : ¬(tool = .scan ∧ AsksForSnapshot arguments) →
    SameFile layout.snapshotPlace engine engine'

theorem run_ends (arguments : Data) (tool : Tool) (hfollows : engine.Follows layout)
    (hown : engine.OwnJournal layout.journalPlace) :
    Ends (fun _ => Confined layout arguments tool engine) (Untouched layout engine)
      (run arguments tool) engine := by
  have hlooks (h : tool ∈ [.active, .history, .stats, .readSnapshot]) :
      Ends (fun _ => Confined layout arguments tool engine) (Untouched layout engine)
        (run arguments tool) engine :=
    (looking_untouched hfollows h).mono
      (fun _ _ h => ⟨fun _ _ => h.records, fun _ => h.snapshot⟩) fun _ => id
  cases tool with
  | scan =>
    exact (scan_ends hfollows).mono
      (fun _ _ h => ⟨fun _ _ => h.1, fun hnot => h.2 fun hasks => hnot ⟨rfl, hasks⟩⟩) fun _ => id
  | sync =>
    exact (sync_untouched hfollows).mono (fun _ _ h => ⟨fun hne => absurd rfl hne, fun _ => h⟩)
      fun _ => id
  | cancel =>
    exact (cancel_untouched hfollows hown).mono
      (fun _ _ h => ⟨fun _ hne => absurd rfl hne, fun _ => h⟩) fun _ => id
  | active => exact hlooks (by decide)
  | history => exact hlooks (by decide)
  | stats => exact hlooks (by decide)
  | readSnapshot => exact hlooks (by decide)

-- ---------------------------------------------------------------------------
-- Calls
-- ---------------------------------------------------------------------------

theorem name_of_ofName? {name : String} {tool : Tool} (h : ofName? name = some tool) :
    tool.name = name := by
  simpa using List.find?_some h

/-- Every call is answered with whether it succeeded. A call that failed changed no record and
nothing of the snapshot; otherwise, only two tools may have changed records, and only one, when it
is asked to, the snapshot. -/
theorem answer_frame (layout : Layout) (hfollows : engine.Follows layout)
    (hown : engine.OwnJournal layout.journalPlace) (name : String) (arguments : Data) :
    ∃ done fields,
      (answer name arguments engine).1 = .object (("success", .bool done) :: fields) ∧
      (done = false → Untouched layout engine (answer name arguments engine).2) ∧
      (name ≠ "issues_sync" → name ≠ "issues_cancel" →
        SameRecords layout.journalPlace engine (answer name arguments engine).2) ∧
      (¬(name = "issues_scan" ∧ AsksForSnapshot arguments) →
        SameFile layout.snapshotPlace engine (answer name arguments engine).2) := by
  have hsame := untouched_of_looked hfollows (refl engine)
  unfold answer
  cases htool : ofName? name with
  | none => exact ⟨false, _, rfl, fun _ => hsame, fun _ _ => hsame.records, fun _ => hsame.snapshot⟩
  | some tool =>
    obtain rfl := name_of_ofName? htool
    have hends := (run_ends arguments tool hfollows hown).and
      (yields_run arguments tool engine)
    cases hrun : run arguments tool engine with
    | ok result engine' =>
      obtain ⟨hconfined, fields, rfl⟩ := hends.ok hrun
      simp only [hrun]
      refine ⟨true, fields, rfl, nofun, fun hsync hcancel => ?_, fun hnot => ?_⟩
      · exact hconfined.records (fun h => hsync (h ▸ rfl)) fun h => hcancel (h ▸ rfl)
      · exact hconfined.snapshot fun h => hnot ⟨h.1 ▸ rfl, h.2⟩
    | error fault engine' =>
      have huntouched := (hends.error hrun).1
      obtain ⟨fields, hfailure⟩ := failureOf_eq fault
      simp only [hrun]
      exact ⟨false, fields, hfailure, fun _ => huntouched, fun _ _ => huntouched.records,
        fun _ => huntouched.snapshot⟩

theorem own_usedJournal : Journal.usedJournal.store.Own := by
  have hcreated : Journal.IsStamp "2024-01-02T03:04:05.000+00:00" :=
    ⟨⟨⟨2024, 1, 2⟩, ⟨3, 4, 5, 0⟩, some 0⟩, by decide +kernel⟩
  have hcompleted : Journal.IsStamp "2024-02-03T04:05:06.000+00:00" :=
    ⟨⟨⟨2024, 2, 3⟩, ⟨4, 5, 6, 0⟩, some 0⟩, by decide +kernel⟩
  refine ⟨Journal.wellFormed_usedJournal, by decide, by decide, ?_, ?_⟩
  · simpa [Journal.usedJournal, Journal.recordBefore] using hcreated
  · simpa [Journal.usedJournal, Journal.recordBefore] using hcompleted

def usedLayout : Layout where
  config := Engine.usedEngine.config
  current := []
  snapshot := ⟨.root, ["project", ".inline-issues", "issues.txt"]⟩
  database := ⟨.root, ["project", ".inline-issues", "journal.db"]⟩
  snapshotPath := rfl
  databasePath := rfl
  apart := by decide +kernel

theorem follows_usedEngine : Engine.usedEngine.Follows usedLayout := ⟨rfl, rfl, nofun⟩

theorem ownJournal_usedEngine : Engine.usedEngine.OwnJournal usedLayout.journalPlace where
  stored number store isFiled h := by
    have hplace : Engine.usedEngine.workspace.files.node? usedLayout.journalPlace =
        some (.file 0 (.journal Journal.usedJournal.store true)) := rfl
    obtain ⟨-, rfl, -⟩ : number = 0 ∧ store = Journal.usedJournal.store ∧ isFiled = true := by
      simpa [hplace, eq_comm] using h
    exact own_usedJournal
  seen := nofun

/-- A record that is not there cannot be cancelled. -/
theorem answer_frame_usedEngine :
    ∃ fields, (answer "issues_cancel" (.object [("id", .int 4)]) Engine.usedEngine).1 =
        .object (("success", .bool false) :: fields) ∧
      Untouched usedLayout Engine.usedEngine
        (answer "issues_cancel" (.object [("id", .int 4)]) Engine.usedEngine).2 := by
  obtain ⟨done, fields, hanswer, hfailed, -, -⟩ := answer_frame usedLayout follows_usedEngine
    ownJournal_usedEngine "issues_cancel" (.object [("id", .int 4)])
  have hfails : ((fieldsOf (answer "issues_cancel" (.object [("id", .int 4)])
      Engine.usedEngine).1).lookup "success").any Data.holds = false := by decide +kernel
  rw [hanswer] at hfails
  obtain rfl : done = false := by simpa [fieldsOf, Data.holds] using hfails
  exact ⟨fields, hanswer, hfailed rfl⟩

end Tool

-- ---------------------------------------------------------------------------
-- Tools of a project
-- ---------------------------------------------------------------------------

namespace Service

/-- Work is left by a departure. -/
def Departs (work : EngineM Data) (engine : Engine) (fault : Fault) : Prop :=
  fault.isOrdinary = false ∧ ∃ engine', work.run engine = .error fault engine'

theorem stopsBy_answered (name : String) (work : EngineM Data) (engine : Engine) :
    StopsBy (Departs work engine) (answered name work) engine := by
  intro fault engine' hrun
  simp only [EStateM.run, answered] at hrun
  split at hrun
  · cases hrun
  · rename_i fault' engine₁ hwork
    split at hrun
    · cases hrun
    · rename_i hdeparture
      cases hrun
      exact ⟨by simpa using hdeparture, _, hwork⟩

/-- Whatever the functions of a project do, a call is answered, unless it is one of a tool of the
project that departs. -/
theorem stopsBy_reply (functions : Functions) (name : String) (arguments : Data)
    (engine : Engine) : StopsBy (fun fault => ∃ tool ∈ engine.config.customTools,
      tool.name = name ∧ Departs (runCustom functions tool arguments) engine fault)
      (reply functions name arguments) engine := by
  refine stopsBy_bind (stopsBy_get_bind ?_) fun result engine₁ _ => stopsBy_pure _
  split
  · exact stopsBy_of_ok rfl
  · rename_i tool hfind
    refine (stopsBy_answered name _ engine).mono fun fault hdeparts => ?_
    exact ⟨tool, List.mem_of_find?_eq_some hfind,
      by simpa using List.find?_some hfind, hdeparts⟩

end Service

end Marginalia
