import Marginalia.Proofs.Engine.Looking
import Marginalia.Proofs.Files.Additions
import Marginalia.Proofs.Files.Refusals
import Marginalia.Proofs.Remark.Parts

/-!
# What scans find

Every remark of a scan is in a file that has a name, and on one line: newlines are unified when a
file is read, so that no line has a line end of any kind in it.
-/

namespace Marginalia

/-- A remark of a scan. -/
structure Remark.Scanned (a : Remark) : Prop where
  file : a.file ≠ ""
  line : 0 ≤ a.line
  found : ∃ tags line, '\n' ∉ line ∧ '\r' ∉ line ∧ a.FoundOn tags line

variable {tags names : List String} {a : Remark}

namespace Scanner

theorem mem_scanLines {lines : List (List Char)} (h : a ∈ scanLines tags path number lines) :
    ∃ (n : Nat) (line : List Char), line ∈ lines ∧
      Remark.ofLine? tags path n (String.ofList line) = some a := by
  induction lines generalizing number with
  | nil => cases h
  | cons line rest ih =>
    rw [scanLines] at h
    rcases List.mem_append.mp h with h | h
    · exact ⟨number, line, List.mem_cons_self, Option.mem_toList.mp h⟩
    · obtain ⟨n, line', hline, hfound⟩ := ih h
      exact ⟨n, line', List.mem_cons_of_mem _ hline, hfound⟩

theorem scanned_of_mem_scanText {scanner : Scanner} {source : SourceText} (hpath : source.path ≠ "")
    (htext : '\r' ∉ source.text.toList) (h : a ∈ scanner.scanText source) : a.Scanned := by
  rw [scanText] at h
  obtain ⟨n, line, hline, hfound⟩ := mem_scanLines h
  rw [Text.lines] at hline
  obtain ⟨hfile, hnumber, hon⟩ := foundOn_ofLine? hfound
  rw [String.toList_ofList] at hon
  refine ⟨by rwa [hfile], ?_, scanner.tags, line, ?_, ?_, hon⟩
  · rw [hnumber]
    exact Int.natCast_nonneg n
  · exact Text.separator_notMem_splitOn hline
  · exact fun hmem => htext (Text.subset_of_mem_splitOn hline hmem)

theorem readSource_ends (root : Path) (name : String) (files : Files) :
    Ends (fun text _ => '\r' ∉ text.toList) (fun _ => True) (Source.read root name) files := by
  cases h : (Files.readBytes (root.child name)).run files with
  | ok bytes files' =>
    refine ends_of_ok (Files.run_readSource_ok h) ?_
    rw [String.toList_ofList]
    exact Text.return_notMem_unifyNewlines _
  | error fault files' =>
    obtain ⟨fault', hrun⟩ := Files.run_readSource_error h
    exact ends_of_error hrun trivial

theorem scanFiles_ends (scanner : Scanner) (root : Path) (hnames : ∀ name ∈ names, name ≠ "")
    (files : Files) :
    Ends (fun remarks _ => ∀ a ∈ remarks, a.Scanned) (fun _ => True)
      (scanner.scanFiles root names) files := by
  induction names generalizing files with
  | nil => exact ends_pure (List.forall_mem_nil _)
  | cons name rest ih =>
    obtain ⟨hname, hrest⟩ := List.forall_mem_cons.mp hnames
    refine ends_bind ((readSource_ends root name files).mono (fun text files₁ htext => ?_)
      fun _ => id)
    refine ends_bind ((ih hrest files₁).mono (fun remarks files₂ hremarks => ?_) fun _ => id)
    refine ends_pure (List.forall_mem_append.mpr ⟨fun a ha => ?_, hremarks⟩)
    exact scanned_of_mem_scanText hname htext ha

end Scanner

namespace Engine

theorem listTracked_listed (directory : Data) (engine : Engine) :
    Ends (fun names _ =>
        Source.listed engine.config.root (engine.workspace.listing directory) = .ok names)
      (fun _ => True) (listTracked directory) engine := by
  refine ends_get_bind (ends_bind (ends_of_ok rfl ?_))
  refine ends_bind (ends_liftExcept (fun _ _ => ?_) trivial)
  exact ends_liftExcept (fun names h => h) trivial

/-- What is so for the remarks in the listed files that are not ignored is so for a scan. -/
theorem scan_of_scanFiles {P : List Remark → Prop} {tags : Option Data} {engine : Engine}
    (h : ∀ scanner part names, Scanner.ofConfig engine.config tags = .ok scanner →
      Source.listed engine.config.root (engine.workspace.listing part) = .ok names → ∀ files,
        Ends (fun remarks _ => P remarks) (fun _ => True)
          (scanner.scanFiles engine.config.root
            (names.filter fun name => !ignored scanner.ignore name)) files)
    (directory : Data) :
    Ends (fun remarks _ => P remarks) (fun _ => True) (scan directory tags) engine := by
  refine ends_get_bind (ends_bind (ends_liftExcept (fun scanner hscanner => ?_) trivial))
  refine ends_bind ((listTracked_listed _ engine).mono (fun names engine₁ hnames => ?_) fun _ => id)
  refine ends_bind (ends_of_ok rfl ?_)
  refine ends_bind (ends_onFiles ?_)
  refine (h scanner _ names hscanner hnames _).mono (fun remarks files hremarks => ?_) fun _ => id
  split
  · exact ends_bind (ends_liftExcept
      (fun place _ => ends_bind (ends_of_ok rfl (ends_pure hremarks))) trivial)
  · exact ends_bind (ends_pure (ends_bind (ends_of_ok rfl (ends_pure hremarks))))

theorem scan_scanned (directory : Data) (tags : Option Data) (engine : Engine) :
    Ends (fun remarks _ => ∀ a ∈ remarks, a.Scanned) (fun _ => True) (scan directory tags)
      engine := by
  refine scan_of_scanFiles (fun scanner part names _ hnames files => ?_) directory
  refine scanner.scanFiles_ends _ (fun name hname => ?_) files
  exact (Source.listed_ok hnames name (List.mem_filter.mp hname).1).1

end Engine

end Marginalia
