import Marginalia.CommandLine.Command
import Marginalia.Proofs.Data.Entries
import Marginalia.Proofs.Ends

/-!
# Options of a command line

Whatever words a command line has, if it is read then every option has a value that its flag takes,
or the one it has without words. What holds of the options is kept by one flag and by one operand,
and from there by all words.
-/

namespace Marginalia.CommandLine

-- ---------------------------------------------------------------------------
-- Values
-- ---------------------------------------------------------------------------

/-- The values that a kind takes. An empty list stands for a double dash. -/
def ValueKind.Admits : ValueKind → Data → Prop
  | .text, value | .path, value => value = .list [] ∨ ∃ s, value = .text s
  | .whole, value => value = .list [] ∨ ∃ n, value = .int n
  | .oneOf names, value => value = .list [] ∨ ∃ name ∈ names, value = .text name

/-- The values that an option has after its flag was used. -/
def FlagKind.Admits : FlagKind → Data → Prop
  | .help, _ => False
  | .switch, data => data = .bool true
  | .value kind, data => kind.Admits data

def Flag.Admits (flag : Flag) (value : Data) : Prop :=
  value = flag.default ∨ flag.kind.Admits value

theorem readWhole_ok (h : readWhole label text = .ok value) : ∃ n, value = .int n := by
  unfold readWhole at h
  split at h
  · cases h
    exact ⟨_, rfl⟩
  · cases h

theorem readValue_ok {kind : ValueKind} (h : readValue label text kind = .ok value) :
    kind.Admits value := by
  unfold readValue at h
  split at h
  · cases h
    cases kind <;> exact .inl rfl
  · cases kind with
    | text =>
      cases h
      exact .inr ⟨_, rfl⟩
    | path =>
      cases h
      exact .inr ⟨_, rfl⟩
    | whole => exact .inr (readWhole_ok h)
    | oneOf names =>
      dsimp only at h
      split at h
      · cases h
        exact .inr ⟨text, List.contains_iff_mem.mp ‹_›, rfl⟩
      · cases h

-- ---------------------------------------------------------------------------
-- Flags
-- ---------------------------------------------------------------------------

variable {g : Grammar}

/-- A word that is a flag of a grammar, or none. -/
def Word.Within (g : Grammar) : Word → Prop
  | .flag _ (some use) => use.flag ∈ g.flags
  | _ => True

theorem mem_of_mem_spellings (h : (name, flag) ∈ g.spellings) : flag ∈ g.flags := by
  obtain ⟨flag', hflag, hname⟩ := List.mem_flatMap.mp h
  obtain ⟨_, -, heq⟩ := List.mem_map.mp hname
  cases heq
  exact hflag

theorem mem_of_flagNamed? (h : g.flagNamed? name = some flag) : flag ∈ g.flags :=
  mem_of_mem_spellings (mem_of_valueOf? h)

theorem mem_of_mem_candidates (h : use ∈ g.candidates cs) : use.flag ∈ g.flags := by
  unfold Grammar.candidates at h
  split at h
  · obtain ⟨⟨name, flag⟩, hmem, hsome⟩ := List.mem_filterMap.mp h
    obtain ⟨-, heq⟩ := Option.ite_none_right_eq_some.mp hsome
    cases heq
    exact mem_of_mem_spellings hmem
  · obtain ⟨⟨name, flag⟩, hmem, hsome⟩ := List.mem_filterMap.mp h
    dsimp only at hsome
    split at hsome
    · cases hsome
      exact mem_of_mem_spellings hmem
    · obtain ⟨-, heq⟩ := Option.ite_none_right_eq_some.mp hsome
      cases heq
      exact mem_of_mem_spellings hmem
  · cases h

theorem within_readDashed (h : g.readDashed text = .ok word) : word.Within g := by
  unfold Grammar.readDashed at h
  dsimp only at h
  split at h
  · rename_i use hassigned
    cases h
    simp only [Grammar.assigned?, Option.bind_eq_bind, Option.bind_eq_some_iff] at hassigned
    obtain ⟨_, -, flag, hflag, heq⟩ := hassigned
    cases heq
    exact mem_of_flagNamed? hflag
  · split at h
    · rename_i use hcandidates
      cases h
      exact mem_of_mem_candidates (hcandidates ▸ List.mem_singleton_self use)
    · cases h
      split <;> trivial
    · cases h

theorem within_readWord (h : g.readWord text = .ok word) : word.Within g := by
  unfold Grammar.readWord at h
  split at h
  · cases h
    exact mem_of_flagNamed? ‹_›
  · split at h
    · exact within_readDashed h
    · cases h
      trivial

theorem within_readWords (h : g.readWords texts = .ok words) : ∀ word ∈ words, word.Within g := by
  induction texts generalizing words with
  | nil =>
    cases h
    exact List.forall_mem_nil _
  | cons text rest ih =>
    rw [Grammar.readWords] at h
    split at h
    · cases h
      refine List.forall_mem_cons.mpr ⟨trivial, fun word hword => ?_⟩
      obtain ⟨_, -, rfl⟩ := List.mem_map.mp hword
      trivial
    · obtain ⟨word, hword, h⟩ := bind_ok.mp h
      obtain ⟨others, hothers, h⟩ := bind_ok.mp h
      cases h
      exact List.forall_mem_cons.mpr ⟨within_readWord hword, ih hothers⟩

/-- The flags of a word are flags of the grammar. -/
structure Cluster.Within (g : Grammar) (cluster : Cluster) : Prop where
  uses : ∀ use ∈ cluster.uses, use.1 ∈ g.flags
  last : ∀ flag ∈ cluster.last, flag ∈ g.flags

theorem within_cluster (hflag : flag ∈ g.flags) (h : g.cluster flag isShort cs = .ok cluster) :
    cluster.Within g := by
  fun_induction Grammar.cluster g flag isShort cs generalizing cluster with
  | case1 | case3 =>
    cases h
    exact ⟨List.forall_mem_singleton.mpr hflag, nofun⟩
  | case2 | case6 => cases h
  | case4 _ _ next hnext =>
    cases h
    refine ⟨List.forall_mem_singleton.mpr hflag, ?_⟩
    rintro _ ⟨⟩
    exact mem_of_flagNamed? hnext
  | case5 _ _ next _ _ hnext _ ih =>
    obtain ⟨others, hothers, h⟩ := bind_ok.mp h
    cases h
    obtain ⟨huses, hlast⟩ := ih (mem_of_flagNamed? hnext) hothers
    exact ⟨List.forall_mem_cons.mpr ⟨hflag, huses⟩, hlast⟩

theorem within_clusterOf {use : FlagUse} (huse : use.flag ∈ g.flags)
    (h : g.clusterOf use = .ok cluster) : cluster.Within g := by
  unfold Grammar.clusterOf at h
  split at h
  · cases h
    refine ⟨List.forall_mem_nil _, ?_⟩
    rintro _ ⟨⟩
    exact huse
  · exact within_cluster huse h

theorem uses_complete {cluster : Cluster} (hcluster : cluster.Within g)
    (h : cluster.complete rest = .ok (uses, taken)) : ∀ use ∈ uses, use.1 ∈ g.flags := by
  have hmore {flag : Flag} (hflag : flag ∈ cluster.last) (value : Option String) :
      ∀ use ∈ cluster.uses ++ [(flag, value)], use.1 ∈ g.flags :=
    List.forall_mem_append.mpr
      ⟨hcluster.uses, List.forall_mem_singleton.mpr (hcluster.last flag hflag)⟩
  unfold Cluster.complete at h
  split at h
  · cases h
    exact hcluster.uses
  · rename_i flag hlast
    split at h <;> cases h
    · exact hmore hlast _
    · exact hmore hlast _

-- ---------------------------------------------------------------------------
-- What is kept
-- ---------------------------------------------------------------------------

/-- The option that an operand sets. -/
def ownField? : Operand → Option String
  | .none => none
  | .whole field | .command field _ => some field

/-- How far an operand has been read: it is waited for, or it is there. -/
inductive Progress.Takes (p : Progress) : Operand → Prop
  | waiting {target : Operand} (h : p.operand = target) (hcommand : p.command = none)
      (hvalue : ∀ field, ownField? target = some field → valueOf? p.options field = some .null) :
      Takes p target
  | whole {field : String} {n : Int} (h : p.operand = .none)
      (hvalue : valueOf? p.options field = some (.int n)) : Takes p (.whole field)
  | command {field name : String} {names rest : List String} (h : p.operand = .none)
      (hcommand : p.command = some (name, rest)) (hname : name ∈ names)
      (hvalue : valueOf? p.options field = some (.text name)) : Takes p (.command field names)

/-- No two of the flags and the operand set one option. -/
def Grammar.Apart (g : Grammar) : Prop :=
  (g.flags.map Flag.field ++ (ownField? g.operand).toList).Nodup

instance (g : Grammar) : Decidable g.Apart := inferInstanceAs (Decidable (List.Nodup _))

theorem Grammar.Apart.own_ne (h : g.Apart) (hflag : flag ∈ g.flags) :
    ownField? g.operand ≠ some flag.field := fun heq =>
  (List.nodup_append.mp h).2.2 _ (List.mem_map_of_mem hflag) _ (Option.mem_toList.mpr heq) rfl

theorem Grammar.Apart.flag_eq (h : g.Apart) (hflag : flag ∈ g.flags) (hflag' : flag' ∈ g.flags)
    (heq : flag.field = flag'.field) : flag = flag' :=
  List.inj_on_of_nodup_map (List.nodup_append.mp h).1 hflag hflag' heq

/-- What is known of a command line as far as it was read: it has the options of the grammar, and
their values are ones that their flags take. -/
structure Progress.Follows (g : Grammar) (p : Progress) : Prop where
  fields : p.options.map Prod.fst = g.defaults.map Prod.fst
  values : ∀ field value, (field, value) ∈ p.options → ownField? g.operand ≠ some field →
    ∃ flag ∈ g.flags, flag.field = field ∧ flag.Admits value
  operand : p.Takes g.operand

variable {p p' : Progress}

theorem Progress.Takes.set {target : Operand} (h : p.Takes target)
    (hfield : ownField? target ≠ some field) (value : Data) :
    (p.set field value).Takes target := by
  have hsame (own : String) (heq : ownField? target = some own) :
      valueOf? (p.set field value).options own = valueOf? p.options own :=
    (valueOf?_setEntry ..).trans (if_neg fun h => hfield (heq.trans (congrArg some h)))
  cases h with
  | waiting h hcommand hvalue =>
    exact .waiting h hcommand fun own hown => (hsame own hown).trans (hvalue own hown)
  | whole h hvalue => exact .whole h ((hsame _ rfl).trans hvalue)
  | command h hcommand hname hvalue =>
    exact .command h hcommand hname ((hsame _ rfl).trans hvalue)

theorem Progress.Takes.target {target : Operand} (h : p.Takes target)
    (hsome : p.operand ≠ .none) : p.operand = target := by
  cases h with
  | waiting h => exact h
  | whole h | command h => exact absurd h hsome

theorem Progress.Takes.addExtras {target : Operand} (h : p.Takes target) (words : List String) :
    (p.addExtras words).Takes target := by
  cases h with
  | waiting h hcommand hvalue => exact .waiting h hcommand hvalue
  | whole h hvalue => exact .whole h hvalue
  | command h hcommand hname hvalue => exact .command h hcommand hname hvalue

theorem mem_defaults_iff : (field, value) ∈ g.defaults ↔
    (∃ flag ∈ g.flags, flag.kind ≠ .help ∧ flag.field = field ∧ flag.default = value) ∨
      ownField? g.operand = some field ∧ value = .null := by
  unfold Grammar.defaults
  rw [List.mem_append]
  refine or_congr ?_ ?_
  · simp only [List.mem_filterMap, beq_iff_eq]
    refine exists_congr fun flag => and_congr_right fun _ => ?_
    split <;> simp_all
  · cases g.operand <;> simp [ownField?, eq_comm]

theorem mem_fields_of_flag (hflag : flag ∈ g.flags) (h : flag.kind ≠ .help) :
    flag.field ∈ g.defaults.map Prod.fst :=
  List.mem_map.mpr ⟨_, mem_defaults_iff.mpr (.inl ⟨flag, hflag, h, rfl, rfl⟩), rfl⟩

theorem mem_fields_of_operand (h : ownField? g.operand = some field) :
    field ∈ g.defaults.map Prod.fst :=
  List.mem_map.mpr ⟨_, mem_defaults_iff.mpr (.inr ⟨h, rfl⟩), rfl⟩

/-- A flag with a value that it takes. -/
theorem Progress.Follows.set (h : p.Follows g) (hapart : g.Apart) (hflag : flag ∈ g.flags)
    (hkind : flag.kind ≠ .help) (hvalue : flag.kind.Admits value) :
    (p.set flag.field value).Follows g where
  fields := (map_fst_setEntry (h.fields ▸ mem_fields_of_flag hflag hkind) value).trans h.fields
  values field value' hmem hfield := by
    rcases mem_setEntry hmem with hmem | ⟨rfl, rfl⟩
    · exact h.values field value' hmem hfield
    · exact ⟨flag, hflag, rfl, .inr hvalue⟩
  operand := h.operand.set (hapart.own_ne hflag) value

theorem Progress.Follows.addExtras (h : p.Follows g) (words : List String) :
    (p.addExtras words).Follows g :=
  ⟨h.fields, h.values, h.operand.addExtras words⟩

theorem follows_apply (hapart : g.Apart) (h : p.Follows g) (huses : ∀ use ∈ uses, use.1 ∈ g.flags)
    (hrun : g.apply p uses = .ok p') : p'.Follows g := by
  fun_induction Grammar.apply g p uses with
  | case1 =>
    cases hrun
    exact h
  | case2 | case5 => cases hrun
  | case3 _ _ _ _ hkind ih =>
    obtain ⟨hflag, hrest⟩ := List.forall_mem_cons.mp huses
    exact ih (h.set hapart hflag (by simp [hkind]) (by rw [hkind]; rfl)) hrest hrun
  | case4 _ _ _ _ kind hkind data hdata ih =>
    obtain ⟨hflag, hrest⟩ := List.forall_mem_cons.mp huses
    have hvalue := readValue_ok hdata
    exact ih (h.set hapart hflag (by simp [hkind]) (by rwa [hkind])) hrest hrun

theorem follows_takeFlag (hapart : g.Apart) (h : p.Follows g)
    (hknown : (Word.flag text known).Within g)
    (hrun : g.takeFlag text known rest p = .ok (taken, p')) : p'.Follows g := by
  unfold Grammar.takeFlag at hrun
  split at hrun
  · cases hrun
    exact h.addExtras _
  · split at hrun
    · cases hrun
    · split at hrun
      · cases hrun
      · rename_i hcluster _ _ _ hcomplete
        obtain ⟨q, hq, hrun⟩ := bind_ok.mp hrun
        cases hrun
        exact follows_apply hapart h (uses_complete (within_clusterOf hknown hcluster) hcomplete) hq

/-- The operand with a value that it takes. -/
theorem Progress.Follows.own (h : p.Follows g) (hfield : ownField? g.operand = some field)
    (hset : p'.options = setEntry p.options field value) (hoperand : p'.Takes g.operand) :
    p'.Follows g where
  fields := by
    rw [hset]
    exact (map_fst_setEntry (h.fields ▸ mem_fields_of_operand hfield) value).trans h.fields
  values field' value' hmem hother := by
    rw [hset] at hmem
    rcases mem_setEntry hmem with hmem | ⟨rfl, -⟩
    · exact h.values field' value' hmem hother
    · exact absurd hfield hother
  operand := hoperand

theorem follows_takeOperand (h : p.Follows g)
    (hrun : g.takeOperand words p = .ok (taken, p')) : p'.Follows g := by
  unfold Grammar.takeOperand at hrun
  split at hrun
  · rename_i field text rest hoperand hplain
    split at hrun
    · cases hrun
    · rename_i value hvalue
      cases hrun
      obtain ⟨n, rfl⟩ := readWhole_ok hvalue
      have hgrammar : g.operand = .whole field := by
        rw [← h.operand.target (by simp [hoperand]), hoperand]
      refine h.own (show ownField? g.operand = some field by rw [hgrammar]; rfl) rfl ?_
      rw [hgrammar]
      exact .whole rfl ((valueOf?_setEntry ..).trans (if_pos rfl))
  · rename_i field names _ hoperand hplain
    split at hrun
    · cases hrun
      exact h
    · rename_i name rest hwords
      split at hrun
      · rename_i hname
        cases hrun
        have hgrammar : g.operand = .command field names := by
          rw [← h.operand.target (by simp [hoperand]), hoperand]
        refine h.own (show ownField? g.operand = some field by rw [hgrammar]; rfl) rfl ?_
        rw [hgrammar]
        exact .command rfl rfl (List.contains_iff_mem.mp hname)
          ((valueOf?_setEntry ..).trans (if_pos rfl))
      · cases hrun
  · cases hrun
    exact h

theorem follows_takeWords (hapart : g.Apart) (h : p.Follows g)
    (hwords : ∀ word ∈ words, word.Within g) (hrun : g.takeWords words p = .ok p') :
    p'.Follows g := by
  -- Words are not taken one by one, so the induction is on their number.
  induction hlength : words.length using Nat.strongRecOn generalizing words p with
  | ind n ih =>
    subst hlength
    cases words with
    | nil =>
      unfold Grammar.takeWords at hrun
      cases hrun
      exact h
    | cons word rest =>
      obtain ⟨hword, hrest⟩ := List.forall_mem_cons.mp hwords
      have hlater {later : List Word} {q : Progress} (hsuffix : later <:+ rest)
          (hq : q.Follows g) (hrun : g.takeWords later q = .ok p') : p'.Follows g :=
        ih later.length (Nat.lt_succ_of_le hsuffix.length_le) hq
          (fun word hmem => hrest word (hsuffix.mem hmem)) hrun rfl
      unfold Grammar.takeWords at hrun
      split at hrun
      · obtain ⟨⟨taken, q⟩, hq, hrun⟩ := bind_ok.mp hrun
        cases hrun
        exact (follows_takeOperand h hq).addExtras _
      · split at hrun
        · obtain ⟨⟨taken, q⟩, hq, hrun⟩ := bind_ok.mp hrun
          exact hlater (List.drop_suffix _ _) (follows_takeFlag hapart h hword hq) hrun
        · obtain ⟨⟨taken, q⟩, hq, hrun⟩ := bind_ok.mp hrun
          have hfollows := follows_takeOperand h hq
          dsimp only at hrun
          split at hrun
          · exact hlater (List.dropWhile_suffix _) (hfollows.addExtras _) hrun
          · exact hlater (List.drop_suffix _ _) hfollows hrun

/-- What is known of the options of a command line that was read to its end. -/
structure Progress.Complete (g : Grammar) (p : Progress) : Prop extends p.Follows g where
  taken : ∀ field, p.operand ≠ .whole field

theorem follows_start (hapart : g.Apart) :
    Progress.Follows g ⟨g.defaults, g.operand, [], none⟩ where
  fields := rfl
  values field value hmem hother := by
    obtain ⟨flag, hflag, -, hfield, rfl⟩ :=
      (mem_defaults_iff.mp hmem).resolve_right fun h => hother h.1
    exact ⟨flag, hflag, hfield, .inl rfl⟩
  operand := .waiting rfl rfl fun field hfield => by
    obtain ⟨value, hvalue⟩ := exists_valueOf? (mem_fields_of_operand hfield)
    rcases mem_defaults_iff.mp (mem_of_valueOf? hvalue) with ⟨flag, hflag, -, rfl, -⟩ | ⟨-, rfl⟩
    · exact absurd hfield (hapart.own_ne hflag)
    · exact hvalue

theorem complete_parse (hapart : g.Apart) (h : g.parse words = .ok p) : p.Complete g := by
  unfold Grammar.parse at h
  obtain ⟨read, hread, h⟩ := bind_ok.mp h
  obtain ⟨q, hq, h⟩ := bind_ok.mp h
  have hwords : ∀ word ∈ read, word.Within g := by
    cases hwords : g.readWords words <;> rw [hwords] at hread <;> cases hread
    exact within_readWords hwords
  have hfollows := follows_takeWords hapart (follows_start hapart) hwords hq
  split at h
  · cases h
  · cases h
    exact ⟨hfollows, ‹_›⟩

/-- Each flag's option has a value that the flag takes. -/
theorem Progress.Follows.exists_value (h : p.Follows g) (hapart : g.Apart) (hflag : flag ∈ g.flags)
    (hkind : flag.kind ≠ .help) :
    ∃ value, valueOf? p.options flag.field = some value ∧ flag.Admits value := by
  obtain ⟨value, hvalue⟩ := exists_valueOf? (h.fields ▸ mem_fields_of_flag hflag hkind)
  obtain ⟨flag', hflag', hfield, hadmits⟩ :=
    h.values _ _ (mem_of_valueOf? hvalue) (hapart.own_ne hflag)
  obtain rfl := hapart.flag_eq hflag' hflag hfield
  exact ⟨value, hvalue, hadmits⟩

theorem Progress.Follows.absent (h : p.Follows g) (hfield : field ∉ g.defaults.map Prod.fst) :
    valueOf? p.options field = none := by
  cases hvalue : valueOf? p.options field with
  | none => rfl
  | some value =>
    exact absurd (h.fields ▸ List.mem_map_of_mem (mem_of_valueOf? hvalue)) hfield

-- ---------------------------------------------------------------------------
-- The program
-- ---------------------------------------------------------------------------

theorem apart_mainGrammar (current : Path) : (mainGrammar current).Apart :=
  (by decide : ["help", "project_root", "config", "verbose", "command"].Nodup)

theorem apart_commandGrammar : ∀ name ∈ commandNames, (commandGrammar name).Apart := by
  decide

theorem nodup_fields_commandGrammar : ∀ name ∈ commandNames,
    ((commandGrammar name).defaults.map Prod.fst).Nodup := by
  decide

/-- Commands have no options of the program. -/
theorem not_mem_fields_commandGrammar : ∀ name ∈ commandNames,
    ∀ field ∈ ["command", "project_root", "config"],
      field ∉ (commandGrammar name).defaults.map Prod.fst := by
  decide

/-- The options of a command line come from the program and, if there is one, from its command. -/
theorem readOptions_ok (h : readOptions current words = .ok options) :
    ∃ p : Progress, p.Complete (mainGrammar current) ∧
      ((valueOf? p.options "command" = some .null ∧ options = p.options) ∨
        ∃ name ∈ commandNames, ∃ q : Progress, q.Complete (commandGrammar name) ∧
          valueOf? p.options "command" = some (.text name) ∧
          ∀ key, valueOf? options key = (valueOf? q.options key).or (valueOf? p.options key)) := by
  unfold readOptions parse at h
  obtain ⟨p, hp, h⟩ := bind_ok.mp h
  have hcomplete := complete_parse (apart_mainGrammar current) hp
  refine ⟨p, hcomplete, ?_⟩
  dsimp only at h
  cases hcomplete.operand with
  | waiting _ hcommand hvalue =>
    rw [hcommand] at h
    obtain ⟨_, ⟨⟩, h⟩ := bind_ok.mp h
    obtain ⟨-, h⟩ := ite_ok.mp h
    cases h
    exact .inl ⟨hvalue _ rfl, rfl⟩
  | command _ hcommand hname hvalue =>
    rw [hcommand] at h
    obtain ⟨q, hq, h⟩ := bind_ok.mp h
    obtain ⟨_, ⟨⟩, h⟩ := bind_ok.mp h
    obtain ⟨-, h⟩ := ite_ok.mp h
    cases h
    have hq := complete_parse (apart_commandGrammar _ hname) hq
    exact .inr ⟨_, hname, q, hq, hvalue, fun key =>
      valueOf?_foldl_setEntry q.options (hq.fields ▸ nodup_fields_commandGrammar _ hname)⟩

/-- A command whose options have values that their flags take, or that they have without words. -/
def Command.Regular : Command → Prop
  | .scan path .. => path = .null ∨ ValueKind.text.Admits path
  | .active limit offset _ => ValueKind.whole.Admits limit ∧ ValueKind.whole.Admits offset
  | .history limit offset status type _ =>
    ValueKind.whole.Admits limit ∧ ValueKind.whole.Admits offset ∧
      (status = .null ∨
        (ValueKind.oneOf (Journal.Status.all.map Journal.Status.name)).Admits status) ∧
      (type = .null ∨ ValueKind.text.Admits type)
  | .cancel id => ∃ n, id = .int n
  | _ => True

structure Invocation.Regular (invocation : Invocation) : Prop where
  root : ValueKind.path.Admits invocation.root
  config : invocation.config = .null ∨ ValueKind.path.Admits invocation.config
  command : invocation.command.Regular

section Command

variable {name : String} {q : Progress} {options : Options}

theorem admits_option (hname : name ∈ commandNames) (hq : q.Complete (commandGrammar name))
    (hoptions : ∀ key value, valueOf? q.options key = some value → option options key = value)
    (hflag : flag ∈ commandFlags name) (hkind : flag.kind ≠ .help) :
    flag.Admits (option options flag.field) := by
  obtain ⟨value, hvalue, hadmits⟩ :=
    hq.exists_value (apart_commandGrammar name hname) (List.mem_cons_of_mem _ hflag) hkind
  rwa [hoptions _ _ hvalue]

theorem admits_limitFlag (h : limitFlag.Admits value) : ValueKind.whole.Admits value := by
  rcases h with rfl | h
  · exact .inr ⟨_, rfl⟩
  · exact h

theorem admits_offsetFlag (h : offsetFlag.Admits value) : ValueKind.whole.Admits value := by
  rcases h with rfl | h
  · exact .inr ⟨_, rfl⟩
  · exact h

theorem exists_operand (hq : q.Complete (commandGrammar "cancel")) :
    ∃ n, valueOf? q.options "id" = some (.int n) := by
  have hoperand : q.Takes (.whole "id") := hq.operand
  cases hoperand with
  | waiting h => exact absurd h (hq.taken _)
  | whole _ hvalue => exact ⟨_, hvalue⟩

theorem regular_ofOptions (hname : name ∈ commandNames) (hq : q.Complete (commandGrammar name))
    (hoptions : ∀ key value, valueOf? q.options key = some value → option options key = value)
    (hcommand : option options "command" = .text name) : (Command.ofOptions options).Regular := by
  have hadmits {flag : Flag} (hflag : flag ∈ commandFlags name) (hkind : flag.kind ≠ .help) :
      flag.Admits (option options flag.field) := admits_option hname hq hoptions hflag hkind
  have htext : optionText? options "command" = some name := congrArg Data.text? hcommand
  unfold Command.ofOptions
  split <;> rename_i h
  case h_2 =>
    obtain rfl := Option.some.inj (htext.symm.trans h)
    exact hadmits (List.mem_cons_self) nofun
  case h_4 =>
    obtain rfl := Option.some.inj (htext.symm.trans h)
    exact ⟨admits_limitFlag (hadmits (by simp [commandFlags]) nofun),
      admits_offsetFlag (hadmits (by simp [commandFlags]) nofun)⟩
  case h_5 =>
    obtain rfl := Option.some.inj (htext.symm.trans h)
    refine ⟨admits_limitFlag (hadmits (by simp [commandFlags]) nofun),
      admits_offsetFlag (hadmits (by simp [commandFlags]) nofun), ?_, ?_⟩
    · exact hadmits (.tail _ (.tail _ (.head _))) nofun
    · exact hadmits (.tail _ (.tail _ (.tail _ (.head _)))) nofun
  case h_7 =>
    obtain rfl := Option.some.inj (htext.symm.trans h)
    obtain ⟨n, hn⟩ := exists_operand hq
    exact ⟨n, hoptions _ _ hn⟩
  all_goals trivial

end Command

/-- What a command line asks for is regular, whatever its words are. -/
theorem regular_readInvocation (h : readInvocation current words = .ok invocation) :
    invocation.Regular := by
  obtain ⟨options, hoptions, h⟩ := bind_ok.mp h
  cases h
  obtain ⟨p, hp, hcases⟩ := readOptions_ok hoptions
  have hmain {flag} (hflag : flag ∈ (mainGrammar current).flags) (hkind : flag.kind ≠ .help)
      (hfield : flag.field ∈ ["command", "project_root", "config"]) :
      flag.Admits (option options flag.field) := by
    obtain ⟨value, hvalue, hadmits⟩ := hp.exists_value (apart_mainGrammar current) hflag hkind
    suffices valueOf? options flag.field = some value by rwa [option, this]
    rcases hcases with ⟨-, rfl⟩ | ⟨name, hname, q, hq, -, hkey⟩
    · exact hvalue
    · rw [hkey, hq.absent (not_mem_fields_commandGrammar name hname _ hfield)]
      exact hvalue
  refine ⟨?_, hmain (.tail _ (.tail _ (.head _))) nofun (by simp), ?_⟩
  · rcases hmain (.tail _ (.head _)) nofun (by simp) with hdefault | hgiven
    · exact .inr ⟨_, hdefault⟩
    · exact hgiven
  · rcases hcases with ⟨hnone, rfl⟩ | ⟨name, hname, q, hq, hcommand, hkey⟩
    · have htext : optionText? p.options "command" = none := by
        rw [optionText?, option, hnone]
        rfl
      simp [Invocation.ofOptions, Command.ofOptions, htext, Command.Regular]
    · refine regular_ofOptions hname hq (fun key value hvalue => ?_) ?_
      · rw [option, hkey, hvalue]
        rfl
      · have habsent := hq.absent (not_mem_fields_commandGrammar name hname "command" (by simp))
        rw [option, hkey, habsent, hcommand]
        rfl

end Marginalia.CommandLine
