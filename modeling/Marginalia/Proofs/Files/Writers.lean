import Marginalia.Proofs.Files.Locks
import Mathlib.Data.List.Nodup
import Mathlib.Logic.Relation

/-!
# Writers

Writers come and go in any order, each with the lock of a path for as long as it stays. Some of them
are turned away, and meanwhile those that stay do their work, which may be anything but to take a
directory or a lock file from its place. The invariant of a run is that the locks are those of the
writers that are there, that no two of them have the same one, and that each has the lock file of
its path.
-/

namespace Marginalia

namespace Files

/-- What is left of a lock: it is given back, and the fault that was on its way goes on. -/
def leaving (number : Nat) (outcome : Except Fault α) : FilesM α := do
  release number
  liftExcept outcome

end Files

/-- One that holds the lock of a path. -/
structure Holder where
  path : Path
  /-- The number of the lock file. -/
  number : Nat
  deriving DecidableEq, Repr

/-- The files, and those that hold locks. -/
structure Writers where
  files : Files
  holders : List Holder

namespace Writers

/-- A writer comes for the lock of a path. -/
def enter (path : Path) : EStateM Fault Writers Unit := fun w =>
  match Files.acquire path w.files with
  | .ok number files => .ok () ⟨files, ⟨path, number⟩ :: w.holders⟩
  | .error fault files => .error fault { w with files }

/-- A writer goes, perhaps with a fault. -/
def leave (holder : Holder) (outcome : Except Fault Unit) : EStateM Fault Writers Unit := fun w =>
  let holders := w.holders.filter (·.number != holder.number)
  match Files.leaving holder.number outcome w.files with
  | .ok () files => .ok () ⟨files, holders⟩
  | .error fault files => .error fault ⟨files, holders⟩

end Writers

/-- A place with the name of a lock file. -/
def Place.IsLock (place : Place) : Prop := ∃ front name, place = front ++ [name ++ ".lock"]

namespace Files

/-- Directories and lock files stay in their places. -/
structure Stays (files files' : Files) : Prop where
  current : files'.current = files.current
  directories : files.node? place = some .directory → files'.node? place = some .directory
  lockFiles : Place.IsLock place → files.node? place = some (.file number content) →
    ∃ content', files'.node? place = some (.file number content')
  numbered : files.Numbered → files'.Numbered

end Files

namespace Writers

/-- What happens next: a writer comes and has the lock or is turned away, one that is there goes in
peace or with a fault, or those that are there do something. -/
inductive Step (w : Writers) : Writers → Prop
  | entered : (enter path).run w = .ok () w' → Step w w'
  | refused : (enter path).run w = .error fault w' → Step w w'
  | left : holder ∈ w.holders → (leave holder outcome).run w = .ok () w' → Step w w'
  | failed : holder ∈ w.holders → (leave holder outcome).run w = .error fault w' → Step w w'
  | worked : Files.Stays w.files changed → changed.locks = w.files.locks →
    Step w { w with files := changed }

/-- Nobody is there, and nothing is locked. -/
structure Idle (w : Writers) : Prop where
  holders : w.holders = []
  locks : w.files.locks = []
  numbered : w.files.Numbered

/-- The locks are those of the holders, one each, and each is that of its lock file. -/
structure Sound (w : Writers) : Prop where
  numbered : w.files.Numbered
  locks : w.files.locks = w.holders.map Holder.number
  nodup : (w.holders.map Holder.number).Nodup
  guarded : ∀ holder ∈ w.holders, w.files.Guards holder.path holder.number

end Writers

-- ---------------------------------------------------------------------------
-- Lock files stay
-- ---------------------------------------------------------------------------

namespace Files

variable {files files' : Files} {path lock : Path} {number : Nat}

instance : Std.Refl Stays where
  refl _ := ⟨rfl, id, fun _ h => ⟨_, h⟩, id⟩

instance : IsTrans Files Stays where
  trans files files' files'' h h' := by
    refine ⟨h'.current.trans h.current, h'.directories ∘ h.directories, ?_,
      h'.numbered ∘ h.numbered⟩
    intro place number content hplace hnode
    obtain ⟨content', hnode'⟩ := h.lockFiles hplace hnode
    exact h'.lockFiles hplace hnode'

theorem Grows.stays (h : Grows new files files') : Stays files files' :=
  ⟨h.current, h.kept, fun _ hnode => ⟨_, h.kept hnode⟩, h.numbered⟩

theorem stays_withTaken (files : Files) (number : Nat) : Stays files (files.withTaken number) :=
  ⟨rfl, id, fun _ h => ⟨_, h⟩, id⟩

theorem stays_unlocked (files : Files) (number : Nat) : Stays files (files.unlocked number) :=
  ⟨rfl, id, fun _ h => ⟨_, h⟩, id⟩

theorem placeFrom_lock (hlock : path.lock = .ok lock) (current : Place) :
    Place.IsLock (lock.placeFrom current) :=
  ⟨_, _, Path.placeFrom_addSuffix hlock (by decide) current⟩

theorem Guards.stays (h : files.Guards path number) (hstays : Stays files files') :
    files'.Guards path number := by
  obtain ⟨lock, content, hlock, hcheck, hlook⟩ := h
  obtain ⟨place, hplace, hnode⟩ := look_ok.mp hlook
  obtain ⟨content', hnode'⟩ :=
    hstays.lockFiles (locate_ok hplace ▸ placeFrom_lock hlock files.current) hnode
  have hplace' := locate_of_directories hstays.current (fun _ => hstays.directories) hplace
  exact ⟨lock, content', hlock, hcheck, look_ok.mpr ⟨place, hplace', hnode'⟩⟩

theorem Guards.exists_file (h : files.Guards path number) :
    ∃ place content, files.node? place = some (.file number content) := by
  obtain ⟨lock, content, -, -, hlook⟩ := h
  obtain ⟨place, -, hnode⟩ := look_ok.mp hlook
  exact ⟨place, content, hnode⟩

theorem Guards.number_eq (h : files.Guards path number) (h' : files.Guards path other) :
    other = number := by
  obtain ⟨lock, content, hlock, -, hlook⟩ := h
  obtain ⟨lock', content', hlock', -, hlook'⟩ := h'
  obtain rfl : lock' = lock := Except.ok.inj (hlock'.symm.trans hlock)
  rw [hlook] at hlook'
  cases hlook'
  rfl

theorem run_leaving (number : Nat) (outcome : Except Fault α) (files : Files) :
    (leaving number outcome).run files =
      match outcome with
      | .ok a => .ok a (files.unlocked number)
      | .error fault => .error fault (files.unlocked number) := by
  cases outcome <;> rfl

/-- A block that has the lock ends as it ends, whichever way, and the lock is given back. -/
theorem run_withLock {block : FilesM α} (h : (acquire path).run files = .ok number files₁) :
    (withLock path block).run files =
      match block.run files₁ with
      | .ok a files₂ => (leaving number (.ok a)).run files₂
      | .error fault files₂ => (leaving number (.error fault)).run files₂ := by
  refine (run_bind_of_ok h).trans ?_
  simp only [EStateM.run]
  cases block files₁ <;> rfl

end Files

namespace Writers

variable {w w' start : Writers} {path : Path} {holder : Holder} {outcome : Except Fault Unit}

/-- The writers that are left when one goes. -/
def without (w : Writers) (holder : Holder) : Writers :=
  ⟨w.files.unlocked holder.number, w.holders.filter (·.number != holder.number)⟩

theorem run_leave (holder : Holder) (outcome : Except Fault Unit) (w : Writers) :
    (leave holder outcome).run w =
      match outcome with
      | .ok () => .ok () (w.without holder)
      | .error fault => .error fault (w.without holder) := by
  have h := Files.run_leaving holder.number outcome w.files
  simp only [EStateM.run] at h ⊢
  rw [leave, h]
  cases outcome <;> rfl

theorem run_enter_ok : (enter path).run w = .ok () w' ↔
    ∃ number files, (Files.acquire path).run w.files = .ok number files ∧
      w' = ⟨files, ⟨path, number⟩ :: w.holders⟩ := by
  simp only [EStateM.run, enter]
  cases Files.acquire path w.files <;> simp [and_assoc, eq_comm]

theorem run_enter_error : (enter path).run w = .error fault w' ↔
    ∃ files, (Files.acquire path).run w.files = .error fault files ∧ w' = { w with files } := by
  simp only [EStateM.run, enter]
  cases Files.acquire path w.files <;> simp [and_assoc, eq_comm]

/-- All that a step does, with the two ways in which a writer goes taken together. -/
theorem step_cases (h : Step w w') :
    (∃ path number files, Files.Grows path.MissingBeside w.files files ∧
        number ∉ w.files.locks ∧ files.Guards path number ∧
        w' = ⟨files.withTaken number, ⟨path, number⟩ :: w.holders⟩) ∨
      (∃ holder ∈ w.holders, w' = w.without holder) ∨
      ∃ files, Files.Stays w.files files ∧ files.locks = w.files.locks ∧ w' = { w with files } := by
  cases h with
  | @entered path _ hrun =>
    obtain ⟨number, files, hacquire, rfl⟩ := run_enter_ok.mp hrun
    obtain ⟨files, hgrows, hguards, hfree, rfl⟩ := Files.run_acquire_grows hacquire
    exact .inl ⟨path, number, files, hgrows, hfree, hguards, rfl⟩
  | @refused path fault _ hrun =>
    obtain ⟨files, hacquire, rfl⟩ := run_enter_error.mp hrun
    have hgrows := Files.run_acquire_error hacquire
    exact .inr (.inr ⟨files, hgrows.stays, hgrows.locks, rfl⟩)
  | @left holder outcome _ hmem hrun =>
    rw [run_leave] at hrun
    cases outcome with
    | ok _ =>
      cases hrun
      exact .inr (.inl ⟨holder, hmem, rfl⟩)
    | error fault => cases hrun
  | @failed holder outcome fault _ hmem hrun =>
    rw [run_leave] at hrun
    cases outcome with
    | ok _ => cases hrun
    | error fault =>
      cases hrun
      exact .inr (.inl ⟨holder, hmem, rfl⟩)
  | worked hstays hlocks => exact .inr (.inr ⟨_, hstays, hlocks, rfl⟩)

theorem Step.stays (h : Step w w') : Files.Stays w.files w'.files := by
  obtain ⟨path, number, files, hgrows, -, -, rfl⟩ | ⟨holder, -, rfl⟩ | ⟨files, hstays, -, rfl⟩ :=
    step_cases h
  · exact trans_of Files.Stays hgrows.stays (Files.stays_withTaken files number)
  · exact Files.stays_unlocked w.files holder.number
  · exact hstays

theorem stays_of_run (h : Relation.ReflTransGen Step w w') : Files.Stays w.files w'.files := by
  induction h with
  | refl => exact refl _
  | tail _ hstep ih => exact trans_of Files.Stays ih hstep.stays

-- ---------------------------------------------------------------------------
-- The invariant
-- ---------------------------------------------------------------------------

theorem Idle.sound (h : start.Idle) : start.Sound where
  numbered := h.numbered
  locks := by rw [h.locks, h.holders, List.map_nil]
  nodup := by
    rw [h.holders]
    exact List.nodup_nil
  guarded := by
    rw [h.holders]
    exact nofun

theorem Sound.entered {files : Files} {number : Nat} (h : w.Sound)
    (hgrows : Files.Grows path.MissingBeside w.files files) (hfree : number ∉ w.files.locks)
    (hguards : files.Guards path number) :
    Sound ⟨files.withTaken number, ⟨path, number⟩ :: w.holders⟩ where
  numbered := hgrows.numbered h.numbered
  locks := congrArg (number :: ·) (hgrows.locks.trans h.locks)
  nodup := List.nodup_cons.mpr ⟨h.locks ▸ hfree, h.nodup⟩
  guarded holder hmem := by
    have htaken := Files.stays_withTaken files number
    rcases List.mem_cons.mp hmem with rfl | hmem
    · exact hguards.stays htaken
    · exact (h.guarded holder hmem).stays (trans_of Files.Stays hgrows.stays htaken)

theorem Sound.without (h : w.Sound) (holder : Holder) : (w.without holder).Sound where
  numbered := h.numbered
  locks := by
    simp only [Writers.without, Files.unlocked, h.locks, List.filter_map]
    rfl
  nodup := h.nodup.sublist (List.filter_sublist.map Holder.number)
  guarded other hmem :=
    (h.guarded other (List.mem_filter.mp hmem).1).stays
      (Files.stays_unlocked w.files holder.number)

theorem Sound.worked {files : Files} (h : w.Sound) (hstays : Files.Stays w.files files)
    (hlocks : files.locks = w.files.locks) : Sound { w with files } where
  numbered := hstays.numbered h.numbered
  locks := hlocks.trans h.locks
  nodup := h.nodup
  guarded holder hmem := (h.guarded holder hmem).stays hstays

theorem Sound.step (h : w.Sound) (hstep : Step w w') : w'.Sound := by
  obtain ⟨path, number, files, hgrows, hfree, hguards, rfl⟩ | ⟨holder, -, rfl⟩ |
    ⟨files, hstays, hlocks, rfl⟩ := step_cases hstep
  · exact h.entered hgrows hfree hguards
  · exact h.without holder
  · exact h.worked hstays hlocks

theorem Sound.run (h : w.Sound) (hrun : Relation.ReflTransGen Step w w') : w'.Sound := by
  induction hrun with
  | refl => exact h
  | tail _ hstep ih => exact ih.step hstep

-- ---------------------------------------------------------------------------
-- Exclusion
-- ---------------------------------------------------------------------------

/-- What those can rely on that come and go. -/
structure Exclusive (w : Writers) : Prop where
  /-- Each of those that are there has the lock file of its path. -/
  owned : ∀ holder ∈ w.holders, w.files.Guards holder.path holder.number
  /-- No two of them have the same lock file. -/
  alone : w.holders.Pairwise fun holder other =>
    ∀ number, w.files.Guards holder.path number → ¬ w.files.Guards other.path number
  /-- There are no other locks than theirs. -/
  locks : w.files.locks = w.holders.map Holder.number
  /-- The lock of a path is refused as taken if and only if one of them has its lock file. -/
  locked_iff : ∀ path, (∃ fault w', (enter path).run w = .error fault w' ∧
      fault.faultClass = .lock) ↔ ∃ holder ∈ w.holders, w.files.HasLock path holder.number
  /-- One that is turned away leaves those that are there. -/
  refused : ∀ path fault w', (enter path).run w = .error fault w' → w'.holders = w.holders
  /-- One that goes goes as it was about to. Whatever happens after that, the lock of its path can
  be had as long as nobody has the lock file. -/
  freed : ∀ holder ∈ w.holders, ∃ w₁, (leave holder (.ok ())).run w = .ok () w₁ ∧
    (∀ fault, (leave holder (.error fault)).run w = .error fault w₁) ∧
    holder ∉ w₁.holders ∧ (∀ other ∈ w.holders, other ≠ holder → other ∈ w₁.holders) ∧
    ∀ w₂, Relation.ReflTransGen Step w₁ w₂ →
      (∀ other ∈ w₂.holders, ¬ w₂.files.HasLock holder.path other.number) →
      ∃ w₃, (enter holder.path).run w₂ = .ok () w₃ ∧ w₃.holders = holder :: w₂.holders
  /-- A fault of a block goes on when the lock is given back. -/
  raised : ∀ path w₁, (enter path).run w = .ok () w₁ →
    ∀ (α : Type) (block : FilesM α) fault files, block.run w₁.files = .error fault files →
      ∃ number, w₁.holders = ⟨path, number⟩ :: w.holders ∧
        (Files.withLock path block).run w.files = .error fault (files.unlocked number)

theorem Sound.number_lt (h : w.Sound) (hmem : number ∈ w.files.locks) : number < w.files.next := by
  rw [h.locks] at hmem
  obtain ⟨holder, hholder, rfl⟩ := List.mem_map.mp hmem
  obtain ⟨place, content, hnode⟩ := (h.guarded holder hholder).exists_file
  exact h.numbered place holder.number content hnode

theorem Sound.mem_locks (h : w.Sound) :
    number ∈ w.files.locks ↔ ∃ holder ∈ w.holders, holder.number = number := by
  rw [h.locks, List.mem_map]

theorem Sound.locked_iff (h : w.Sound) (path : Path) :
    (∃ fault w', (enter path).run w = .error fault w' ∧ fault.faultClass = .lock) ↔
      ∃ holder ∈ w.holders, w.files.HasLock path holder.number := by
  have henter : (∃ fault w', (enter path).run w = .error fault w' ∧ fault.faultClass = .lock) ↔
      ∃ fault files, (Files.acquire path).run w.files = .error fault files ∧
        fault.faultClass = .lock := by
    simp only [run_enter_error]
    constructor
    · rintro ⟨fault, _, ⟨files, hrun, rfl⟩, hclass⟩
      exact ⟨fault, files, hrun, hclass⟩
    · rintro ⟨fault, files, hrun, hclass⟩
      exact ⟨fault, _, ⟨files, hrun, rfl⟩, hclass⟩
  rw [henter, Files.acquire_locked_iff fun _ => h.number_lt]
  constructor
  · rintro ⟨number, hmem, hlock⟩
    obtain ⟨holder, hholder, rfl⟩ := h.mem_locks.mp hmem
    exact ⟨holder, hholder, hlock⟩
  · rintro ⟨holder, hholder, hlock⟩
    exact ⟨holder.number, h.mem_locks.mpr ⟨holder, hholder, rfl⟩, hlock⟩

/-- The lock of a lock file that is there can be had if nobody has it. -/
theorem Sound.enter_free (h : w.Sound) (hguards : w.files.Guards path number)
    (hfree : ∀ holder ∈ w.holders, ¬ w.files.HasLock path holder.number) :
    ∃ w', (enter path).run w = .ok () w' ∧ w'.holders = ⟨path, number⟩ :: w.holders := by
  have hnumber : number ∉ w.files.locks := by
    intro hmem
    obtain ⟨holder, hholder, rfl⟩ := h.mem_locks.mp hmem
    exact hfree holder hholder hguards.hasLock
  obtain ⟨files₁, -, hrun⟩ := Files.run_acquire_hasLock hguards.hasLock
  rw [if_neg hnumber] at hrun
  exact ⟨_, run_enter_ok.mpr ⟨number, _, hrun, rfl⟩, rfl⟩

theorem Sound.exclusive (h : w.Sound) : w.Exclusive where
  owned := h.guarded
  alone := by
    refine (List.pairwise_map.mp h.nodup).imp_of_mem fun {holder other} hholder hother hne => ?_
    intro number hguards hguards'
    have hnumber := hguards.number_eq (h.guarded holder hholder)
    have hnumber' := hguards'.number_eq (h.guarded other hother)
    exact hne (hnumber.trans hnumber'.symm)
  locks := h.locks
  locked_iff := h.locked_iff
  refused path fault w' hrun := by
    obtain ⟨files, -, rfl⟩ := run_enter_error.mp hrun
    rfl
  freed holder hholder := by
    refine ⟨w.without holder, run_leave holder (.ok ()) w,
      fun fault => run_leave holder (.error fault) w, ?_, ?_, ?_⟩
    · intro hmem
      simp [Writers.without] at hmem
    · intro other hother hne
      refine List.mem_filter.mpr ⟨hother, bne_iff_ne.mpr fun hnumber => hne ?_⟩
      exact List.inj_on_of_nodup_map h.nodup hother hholder hnumber
    · intro w₂ hrun hfree
      have hguards := (h.guarded holder hholder).stays
        (trans_of Files.Stays (Files.stays_unlocked w.files holder.number) (stays_of_run hrun))
      exact ((h.without holder).run hrun).enter_free hguards hfree
  raised path w₁ hrun α block fault files hblock := by
    obtain ⟨number, files₁, hacquire, rfl⟩ := run_enter_ok.mp hrun
    refine ⟨number, rfl, ?_⟩
    rw [Files.run_withLock hacquire, hblock]
    exact Files.run_leaving number _ files

/-- However writers come and go, each has its lock file to itself, an attempt fails for a lock if
and only if another writer holds it, and changes nothing for the others, and a lock can be had again
when its holder has gone. -/
theorem exclusive_of_run (hstart : start.Idle) (hrun : Relation.ReflTransGen Step start w) :
    w.Exclusive :=
  (hstart.sound.run hrun).exclusive

/-- Nobody has come yet to an empty directory. -/
def quietHome : Writers := ⟨{ nodes := [(["home"], .directory)], current := ["home"] }, []⟩

theorem idle_quietHome : quietHome.Idle := by
  refine ⟨rfl, rfl, fun place number content hnode => ?_⟩
  simp only [quietHome, Files.node?, List.lookup_cons, List.lookup_nil] at hnode
  repeat' split at hnode
  all_goals cases hnode

/-- A second writer is turned away while a first one is there. The first one goes with a fault, and
the second one has the lock when it comes again. -/
theorem exclusive_of_turns : ∃ (path : Path) (holder : Holder) (w₁ w₂ w₃ w₄ : Writers),
    quietHome.Idle ∧ Relation.ReflTransGen Step quietHome w₄ ∧
      ((enter path).run quietHome = .ok () w₁ ∧ w₁.holders = [holder] ∧ w₁.Exclusive) ∧
      (∃ fault, (enter path).run w₁ = .error fault w₂ ∧ fault.faultClass = .lock ∧
        w₂.holders = [holder] ∧ w₂.Exclusive) ∧
      ((leave holder (.error (.aborted "boom"))).run w₂ = .error (.aborted "boom") w₃ ∧
        w₃.holders = [] ∧ w₃.Exclusive) ∧
      (enter path).run w₃ = .ok () w₄ ∧ w₄.holders = [holder] ∧ w₄.Exclusive := by
  have hidle := idle_quietHome
  obtain ⟨w₁, hfirst, hholders₁⟩ : ∃ w₁, (enter ⟨.relative, ["journal.db"]⟩).run quietHome =
      .ok () w₁ ∧ w₁.holders = [⟨⟨.relative, ["journal.db"]⟩, 0⟩] := ⟨_, rfl, rfl⟩
  have hrun₁ := Relation.ReflTransGen.single (Step.entered hfirst)
  have hexclusive₁ := exclusive_of_run hidle hrun₁
  -- The lock is held, so that the next one is refused.
  have hmem₁ : ⟨⟨.relative, ["journal.db"]⟩, 0⟩ ∈ w₁.holders := by
    rw [hholders₁]
    exact List.mem_cons_self
  obtain ⟨fault, w₂, hsecond, hclass⟩ :=
    (hexclusive₁.locked_iff _).mpr ⟨_, hmem₁, (hexclusive₁.owned _ hmem₁).hasLock⟩
  have hholders₂ := (hexclusive₁.refused _ _ _ hsecond).trans hholders₁
  have hrun₂ := hrun₁.tail (.refused hsecond)
  have hexclusive₂ := exclusive_of_run hidle hrun₂
  -- Whoever goes gives the lock back.
  have hmem₂ : ⟨⟨.relative, ["journal.db"]⟩, 0⟩ ∈ w₂.holders := by
    rw [hholders₂]
    exact List.mem_cons_self
  obtain ⟨w₃, -, hleaves, hgone, -, hfree⟩ := hexclusive₂.freed _ hmem₂
  have hleft := hleaves (.aborted "boom")
  have hholders₃ : w₃.holders = [] := by
    rw [run_leave] at hleft
    cases hleft
    rw [without, hholders₂]
    rfl
  have hrun₃ := hrun₂.tail (.failed hmem₂ hleft)
  have hnobody : ∀ other ∈ w₃.holders,
      ¬ w₃.files.HasLock ⟨.relative, ["journal.db"]⟩ other.number := by
    rw [hholders₃]
    exact nofun
  obtain ⟨w₄, hagain, hholders₄⟩ := hfree w₃ .refl hnobody
  rw [hholders₃] at hholders₄
  have hrun₄ := hrun₃.tail (.entered hagain)
  exact ⟨_, _, w₁, w₂, w₃, w₄, hidle, hrun₄, ⟨hfirst, hholders₁, hexclusive₁⟩,
    ⟨fault, hsecond, hclass, hholders₂, hexclusive₂⟩,
    ⟨hleft, hholders₃, exclusive_of_run hidle hrun₃⟩, hagain, hholders₄,
    exclusive_of_run hidle hrun₄⟩

end Writers

end Marginalia
