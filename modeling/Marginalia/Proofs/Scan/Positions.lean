import Marginalia.Proofs.Scan.DataDirectory

/-!
# Positions in scans

No two remarks of a scan are on the same line of the same file: a listing names each file once, and
the lines of a file, which have one remark at most, are numbered upwards.
-/

namespace Marginalia

/-- The file and the line of a remark. -/
def Remark.position (a : Remark) : String × Int := (a.file, a.line)

namespace Source

theorem nodup_listed (h : listed root outcome = .ok names) : names.Nodup := by
  unfold listed at h
  repeat' split at h
  all_goals cases h
  exact nodup_distinct _

end Source

namespace Scanner

theorem scanLines_ascend (tags : List String) (path : String) (number : Nat)
    (lines : List (List Char)) :
    (∀ a ∈ scanLines tags path number lines, (number : Int) ≤ a.line) ∧
      (scanLines tags path number lines).Pairwise fun a b => a.line < b.line := by
  induction lines generalizing number with
  | nil => simp [scanLines]
  | cons line rest ih =>
    obtain ⟨hfrom, hascend⟩ := ih (number + 1)
    have hafter : ∀ a ∈ scanLines tags path (number + 1) rest, (number : Int) < a.line := by
      intro a ha
      have hnext := hfrom a ha
      omega
    rw [scanLines]
    cases hfound : Remark.ofLine? tags path number (String.ofList line) with
    | none =>
      simp only [Option.toList_none, List.nil_append]
      exact ⟨fun a ha => Int.le_of_lt (hafter a ha), hascend⟩
    | some a =>
      obtain ⟨-, hline, -⟩ := foundOn_ofLine? hfound
      simp only [Option.toList_some, List.singleton_append, List.forall_mem_cons,
        List.pairwise_cons, hline]
      exact ⟨⟨Int.le_refl _, fun b hb => Int.le_of_lt (hafter b hb)⟩, hafter, hascend⟩

theorem nodup_scanText (scanner : Scanner) (source : SourceText) :
    ((scanner.scanText source).map Remark.position).Nodup := by
  apply List.pairwise_map.mpr
  apply (scanLines_ascend scanner.tags source.path 1 (Text.lines source.text.toList)).2.imp
  intro a b hlt heq
  exact Int.ne_of_lt hlt (congrArg Prod.snd heq)

theorem scanFiles_nodup (scanner : Scanner) (root : Path) {names : List String}
    (h : names.Nodup) (files : Files) :
    Ends (fun remarks _ => (remarks.map Remark.position).Nodup) (fun _ => True)
      (scanner.scanFiles root names) files := by
  induction names generalizing files with
  | nil => exact ends_pure List.nodup_nil
  | cons name rest ih =>
    obtain ⟨hname, hrest⟩ := List.nodup_cons.mp h
    refine ends_bind ⟨fun {text files₁} _ => ?_, fun _ => trivial⟩
    have hothers := (ih hrest files₁).and (scanner.scanFiles_files root rest files₁)
    refine ends_bind
      (hothers.mono (fun remarks _ ⟨hnodup, hfiles⟩ => ends_pure ?_) fun _ => And.left)
    rw [List.map_append, List.nodup_append]
    refine ⟨scanner.nodup_scanText ⟨name, text⟩, hnodup, ?_⟩
    simp only [List.forall_mem_map]
    intro a ha b hb heq
    have hfile : b.file = name := (congrArg Prod.fst heq).symm.trans (file_of_mem_scanText ha)
    exact hname (hfile ▸ hfiles b hb)

end Scanner

/-- The remarks of a scan are in different positions, whatever is listed. -/
theorem Engine.scan_nodup (directory : Data) (tags : Option Data) (engine : Engine) :
    Ends (fun remarks _ => (remarks.map Remark.position).Nodup) (fun _ => True)
      (scan directory tags) engine := by
  refine scan_of_scanFiles (fun scanner part names _ hnames files => ?_) directory
  exact scanner.scanFiles_nodup _ ((Source.nodup_listed hnames).filter _) files

end Marginalia
