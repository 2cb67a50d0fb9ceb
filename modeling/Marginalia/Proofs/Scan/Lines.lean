import Marginalia.Proofs.Remark.NormalForms
import Marginalia.Proofs.Scan.Positions

/-!
# Scans, line by line

A scan gives one remark for each line that has one, in each file that is listed and not passed over,
in the order in which the listing names the files first, and of the lines. The first such file that
cannot be read stops it. Files that are passed over are not looked at: with other files in their
places a scan ends the same way.
-/

namespace Marginalia

open Files (checkPath)

variable {files files' : Files} {root path : Path} {name : String} {names : List String}
variable {scanner : Scanner} {a : Remark}

-- ---------------------------------------------------------------------------
-- Listings
-- ---------------------------------------------------------------------------

theorem find?_distinct [BEq α] [LawfulBEq α] (p : α → Bool) (l : List α) :
    (distinct l).find? p = l.find? p := by
  induction l with
  | nil => rfl
  | cons a rest ih =>
    rw [distinct, List.find?_cons, List.find?_cons]
    cases ha : p a with
    | true => rfl
    | false =>
      -- What satisfies `p` is not `a`, so nothing that counts is left out.
      have hother : (fun b => decide ((!(b == a)) = true ∧ p b = true)) = p := by
        funext b
        cases hb : p b with
        | false => simp
        | true =>
          have hne : b ≠ a := fun heq => by simp [heq, ha] at hb
          simp [hne]
      rw [List.find?_filter, hother]
      exact ih

/-- What is left of a list without repetitions is in the order of the first occurrences. -/
theorem pairwise_distinct [BEq α] [LawfulBEq α] (l : List α) :
    (distinct l).Pairwise fun a b => l.idxOf a < l.idxOf b := by
  induction l with
  | nil => exact .nil
  | cons c rest ih =>
    have hne {b : α} (hb : b ∈ (distinct rest).filter fun b => !(b == c)) : c ≠ b := by
      intro heq
      simpa [heq] using (List.mem_filter.mp hb).2
    refine List.pairwise_cons.mpr ⟨fun b hb => ?_, ?_⟩
    · rw [List.idxOf_cons_self, List.idxOf_cons_ne _ (hne hb)]
      exact Nat.succ_pos _
    · refine (ih.filter _).imp_of_mem fun {a b} ha hb hlt => ?_
      rw [List.idxOf_cons_ne _ (hne ha), List.idxOf_cons_ne _ (hne hb)]
      exact Nat.succ_lt_succ hlt

/-- The names in a listing, as often as they are listed. -/
def Source.entriesOf (output : List Char) : List String :=
  ((Text.splitOn '\x00' output).filter fun name => !name.isEmpty).map String.ofList

theorem Source.zero_notMem_entriesOf (h : name ∈ entriesOf output) : '\x00' ∉ name.toList := by
  obtain ⟨part, hpart, rfl⟩ := List.mem_map.mp h
  rw [String.toList_ofList]
  exact Text.separator_notMem_splitOn (List.mem_filter.mp hpart).1

-- ---------------------------------------------------------------------------
-- Lines
-- ---------------------------------------------------------------------------

namespace Scanner

theorem mem_scanLines_iff {tags : List String} {number : Nat} {l : List (List Char)} :
    a ∈ scanLines tags name number l ↔ ∃ (n : Nat) (line : List Char), l[n]? = some line ∧
      Remark.ofLine? tags name ((number + n : Nat) : Int) (String.ofList line) = some a := by
  induction l generalizing number with
  | nil => simp [scanLines]
  | cons line rest ih =>
    rw [scanLines, List.mem_append, Option.mem_toList, ih]
    constructor
    · rintro (hfirst | ⟨n, other, hother, hfound⟩)
      · exact ⟨0, line, rfl, hfirst⟩
      · refine ⟨n + 1, other, hother, ?_⟩
        rwa [show number + (n + 1) = number + 1 + n by omega]
    · rintro ⟨n, other, hother, hfound⟩
      cases n with
      | zero =>
        obtain rfl := Option.some.inj hother
        exact .inl hfound
      | succ n =>
        refine .inr ⟨n, other, hother, ?_⟩
        rwa [show number + 1 + n = number + (n + 1) by omega]

/-- The remarks on one line of a text: the one of that line, if it has one. -/
theorem filter_scanLines (tags : List String) (name : String) (number i : Nat)
    (l : List (List Char)) :
    (scanLines tags name number l).filter (fun a => a.line == ((number + i : Nat) : Int)) =
      (l[i]?.bind fun line =>
        Remark.ofLine? tags name ((number + i : Nat) : Int) (String.ofList line)).toList := by
  induction l generalizing number i with
  | nil => simp [scanLines]
  | cons line rest ih =>
    have hfirst : ∀ a ∈ (Remark.ofLine? tags name number (String.ofList line)).toList,
        a.line = number := fun a ha => (foundOn_ofLine? (Option.mem_toList.mp ha)).2.1
    rw [scanLines, List.filter_append]
    cases i with
    | zero =>
      rw [Nat.add_zero, List.filter_eq_self.mpr fun a ha => beq_iff_eq.mpr (hfirst a ha),
        List.filter_eq_nil_iff.mpr, List.append_nil]
      · rfl
      · intro a ha heq
        have hfrom := (scanLines_ascend tags name (number + 1) rest).1 a ha
        rw [beq_iff_eq] at heq
        omega
    | succ i =>
      rw [List.filter_eq_nil_iff.mpr, List.nil_append,
        show number + (i + 1) = number + 1 + i by omega]
      · exact ih (number + 1) i
      · intro a ha heq
        rw [beq_iff_eq, hfirst a ha] at heq
        omega

end Scanner

-- ---------------------------------------------------------------------------
-- Files
-- ---------------------------------------------------------------------------

namespace Source

/-- The bytes of a file below the root, if there is one that can be read. -/
def bytes? (files : Files) (root : Path) (name : String) : Option Text.Bytes :=
  match files.look (root.child name) with
  | .ok (.file _ content) => some content.toBytes
  | _ => none

/-- The text of a file that has some bytes. -/
def textOf (bytes : Text.Bytes) : String :=
  String.ofList (Text.unifyNewlines (Text.repairBytes bytes))

theorem run_read_ok (hpath : checkPath (root.child name) = .ok ())
    (h : bytes? files root name = some bytes) :
    (read root name).run files = .ok (textOf bytes) files := by
  unfold bytes? at h
  split at h
  · rename_i hlook
    cases h
    exact Files.run_readSource_ok (Files.run_readBytes_file hpath hlook)
  · cases h

theorem run_read_error (hpath : checkPath (root.child name) = .ok ())
    (h : bytes? files root name = none) :
    ∃ cause, (read root name).run files = .error (.sourceUnreadable name cause) files := by
  unfold bytes? at h
  cases hlook : files.look (root.child name) with
  | error code => exact ⟨_, Files.run_readSource_system (Files.run_readBytes_error hpath hlook)⟩
  | ok node =>
    cases node with
    | directory =>
      exact ⟨_, Files.run_readSource_system (Files.run_readBytes_directory hpath hlook)⟩
    | file number content =>
      rw [hlook] at h
      cases h

end Source

section Agrees

variable {ε σ α β : Type} {s t : σ}

/-- Work gives one result, or is stopped by one fault, at two states, and changes neither. -/
def Agrees (m : EStateM ε σ α) (s t : σ) : Prop :=
  (∃ a, m.run s = .ok a s ∧ m.run t = .ok a t) ∨
    ∃ fault, m.run s = .error fault s ∧ m.run t = .error fault t

theorem agrees_pure (a : α) (s t : σ) : Agrees (pure a : EStateM ε σ α) s t := .inl ⟨a, rfl, rfl⟩

theorem Agrees.bind {m : EStateM ε σ α} {f : α → EStateM ε σ β} (h : Agrees m s t)
    (hf : ∀ a, Agrees (f a) s t) : Agrees (m >>= f) s t := by
  rcases h with ⟨a, hs, ht⟩ | ⟨fault, hs, ht⟩
  · rw [Agrees, run_bind_of_ok hs, run_bind_of_ok ht]
    exact hf a
  · exact .inr ⟨fault, run_bind_error.mpr (.inl hs), run_bind_error.mpr (.inl ht)⟩

end Agrees

namespace Scanner

theorem agrees_read (hpath : checkPath (root.child name) = .ok ())
    (h : files.look (root.child name) = files'.look (root.child name)) :
    Agrees (Source.read root name) files files' := by
  cases hlook : files.look (root.child name) with
  | error code =>
    have hread (files : Files) (hlook : files.look (root.child name) = .error code) :=
      Files.run_readSource_system (Files.run_readBytes_error hpath hlook)
    exact .inr ⟨_, hread files hlook, hread files' (h.symm.trans hlook)⟩
  | ok node =>
    cases node with
    | directory =>
      have hread (files : Files) (hlook : files.look (root.child name) = .ok .directory) :=
        Files.run_readSource_system (Files.run_readBytes_directory hpath hlook)
      exact .inr ⟨_, hread files hlook, hread files' (h.symm.trans hlook)⟩
    | file number content =>
      have hread (files : Files) (hlook : files.look (root.child name) = .ok (.file number content))
          := Files.run_readSource_ok (Files.run_readBytes_file hpath hlook)
      exact .inl ⟨_, hread files hlook, hread files' (h.symm.trans hlook)⟩

/-- What the places of the names hold is all that counts. -/
theorem agrees_scanFiles (scanner : Scanner)
    (hpaths : ∀ name ∈ names, checkPath (root.child name) = .ok ())
    (h : ∀ name ∈ names, files.look (root.child name) = files'.look (root.child name)) :
    Agrees (scanner.scanFiles root names) files files' := by
  induction names with
  | nil => exact agrees_pure _ _ _
  | cons name rest ih =>
    obtain ⟨hpath, hpaths⟩ := List.forall_mem_cons.mp hpaths
    obtain ⟨hname, hrest⟩ := List.forall_mem_cons.mp h
    exact (agrees_read hpath hname).bind fun text => (ih hpaths hrest).bind fun _ =>
      agrees_pure _ _ _

/-- The remarks in a file, if it can be read. -/
def remarksIn (scanner : Scanner) (files : Files) (root : Path) (name : String) : List Remark :=
  (Source.bytes? files root name).elim [] fun bytes =>
    scanner.scanText ⟨name, Source.textOf bytes⟩

theorem run_scanFiles_ok (scanner : Scanner)
    (hpaths : ∀ name ∈ names, checkPath (root.child name) = .ok ())
    (h : ∀ name ∈ names, (Source.bytes? files root name).isSome) :
    (scanner.scanFiles root names).run files =
      .ok (names.flatMap (scanner.remarksIn files root)) files := by
  induction names with
  | nil => rfl
  | cons name rest ih =>
    obtain ⟨hpath, hpaths⟩ := List.forall_mem_cons.mp hpaths
    obtain ⟨hname, hrest⟩ := List.forall_mem_cons.mp h
    obtain ⟨bytes, hbytes⟩ := Option.isSome_iff_exists.mp hname
    rw [scanFiles, run_bind_of_ok (Source.run_read_ok hpath hbytes),
      run_bind_of_ok (ih hpaths hrest), List.flatMap_cons, remarksIn, hbytes]
    rfl

theorem run_scanFiles_error (scanner : Scanner)
    (hpaths : ∀ name ∈ names, checkPath (root.child name) = .ok ())
    (h : names.find? (fun name => (Source.bytes? files root name).isNone) = some name) :
    ∃ cause, (scanner.scanFiles root names).run files =
      .error (.sourceUnreadable name cause) files := by
  induction names with
  | nil => cases h
  | cons first rest ih =>
    obtain ⟨hpath, hpaths⟩ := List.forall_mem_cons.mp hpaths
    rw [List.find?_cons] at h
    cases hfirst : Source.bytes? files root first with
    | none =>
      obtain rfl : first = name := by simpa [hfirst] using h
      obtain ⟨cause, hread⟩ := Source.run_read_error hpath hfirst
      exact ⟨cause, run_bind_error.mpr (.inl hread)⟩
    | some bytes =>
      rw [hfirst] at h
      obtain ⟨cause, hrest⟩ := ih hpaths h
      refine ⟨cause, ?_⟩
      rw [scanFiles, run_bind_of_ok (Source.run_read_ok hpath hfirst)]
      exact run_bind_error.mpr (.inl hrest)

theorem mem_remarksIn : a ∈ scanner.remarksIn files root name ↔
    ∃ bytes, Source.bytes? files root name = some bytes ∧
      ∃ n line, (Text.lines (Source.textOf bytes).toList)[n]? = some line ∧
        Remark.ofLine? scanner.tags name ((n + 1 : Nat) : Int) (String.ofList line) = some a := by
  unfold remarksIn
  cases Source.bytes? files root name with
  | none => simp
  | some bytes => simp [scanText, mem_scanLines_iff, Nat.add_comm]

theorem remarksIn_ascend (scanner : Scanner) (files : Files) (root : Path) (name : String) :
    (∀ a ∈ scanner.remarksIn files root name, a.file = name) ∧
      (scanner.remarksIn files root name).Pairwise fun a b => a.line < b.line := by
  unfold remarksIn
  cases Source.bytes? files root name with
  | none => simp
  | some bytes => exact ⟨fun a ha => file_of_mem_scanText ha, (scanLines_ascend _ _ _ _).2⟩

end Scanner

end Marginalia
