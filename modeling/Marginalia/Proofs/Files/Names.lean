import Marginalia.Proofs.Files.Frame
import Marginalia.Proofs.Text.Parts
import Mathlib.Data.List.TakeWhile

/-!
# How a place is spelled

Many texts name one place: slashes at the ends and in a row, single dots, and double dots that take
back what is before them. One of them is plain, the names of the place with slashes in between, and
this is how places are written in listings.
-/

namespace Marginalia

open Text (splitOn)

/-- A name that leads into a directory, and nothing else. -/
structure PlainName (name : String) : Prop where
  nonempty : name ≠ ""
  dot : name ≠ "."
  dots : name ≠ ".."
  slash : '/' ∉ name.toList

instance (name : String) : Decidable (PlainName name) :=
  decidable_of_iff (name ≠ "" ∧ name ≠ "." ∧ name ≠ ".." ∧ '/' ∉ name.toList)
    ⟨fun ⟨hne, hdot, hdots, hslash⟩ => ⟨hne, hdot, hdots, hslash⟩,
      fun h => ⟨h.nonempty, h.dot, h.dots, h.slash⟩⟩

variable {names : List String} {name : String} {cs : List Char}

-- ---------------------------------------------------------------------------
-- Parts
-- ---------------------------------------------------------------------------

namespace Path

/-- The parts of a path that a text names. -/
def partsOf (cs : List Char) : List String :=
  ((splitOn '/' cs).filter isPart).map String.ofList

theorem partsOf_append_slash (front rest : List Char) :
    partsOf (front ++ '/' :: rest) = partsOf front ++ partsOf rest := by
  rw [partsOf, Text.splitOn_append_separator, List.filter_append, List.map_append]
  rfl

theorem partsOf_slashes_append (h : ∀ c ∈ cs, c = '/') (rest : List Char) :
    partsOf (cs ++ rest) = partsOf rest := by
  induction cs with
  | nil => rfl
  | cons c cs ih =>
    obtain ⟨rfl, hcs⟩ := List.forall_mem_cons.mp h
    exact (partsOf_append_slash [] (cs ++ rest)).trans (ih hcs)

theorem partsOf_append_slashes (front : List Char) (h : ∀ c ∈ cs, c = '/') :
    partsOf (front ++ cs) = partsOf front := by
  cases cs with
  | nil => rw [List.append_nil]
  | cons c cs =>
    obtain ⟨rfl, hcs⟩ := List.forall_mem_cons.mp h
    have hrest : partsOf cs = [] := by
      have hcs' := partsOf_slashes_append hcs []
      rwa [List.append_nil] at hcs'
    rw [partsOf_append_slash, hrest, List.append_nil]

theorem plain_of_mem_partsOf (h : name ∈ partsOf cs) (hdots : name ≠ "..") : PlainName name := by
  obtain ⟨part, hpart, rfl⟩ := List.mem_map.mp h
  obtain ⟨hsplit, hpart⟩ := List.mem_filter.mp hpart
  obtain ⟨hne, hdot⟩ : part ≠ [] ∧ part ≠ ['.'] := by simpa [isPart] using hpart
  refine ⟨?_, ?_, hdots, ?_⟩
  · exact fun heq => hne (String.ofList_inj.mp heq)
  · exact fun heq => hdot (String.ofList_inj.mp heq)
  · rw [String.toList_ofList]
    exact Text.separator_notMem_splitOn hsplit

/-- A double dot is as good a part of a path as a plain name. -/
theorem part_of_plain (h : name ≠ ".." → PlainName name) :
    name ≠ "" ∧ name ≠ "." ∧ '/' ∉ name.toList := by
  by_cases hdots : name = ".."
  · rw [hdots]
    decide
  · exact ⟨(h hdots).nonempty, (h hdots).dot, (h hdots).slash⟩

theorem splitOn_parts (h : ∀ name ∈ names, name ≠ ".." → PlainName name) (hnames : names ≠ []) :
    splitOn '/' ("/".intercalate names).toList = names.map String.toList := by
  rw [String.toList_intercalate]
  refine Text.splitOn_intercalate (fun part hpart => ?_) (by simpa using hnames)
  obtain ⟨name, hname, rfl⟩ := List.mem_map.mp hpart
  exact (part_of_plain (h name hname)).2.2

theorem partsOf_of_splitOn (h : ∀ name ∈ names, name ≠ ".." → PlainName name)
    (hsplit : splitOn '/' cs = names.map String.toList) : partsOf cs = names := by
  have hparts : (names.map String.toList).filter isPart = names.map String.toList := by
    refine List.filter_eq_self.mpr fun part hpart => ?_
    obtain ⟨name, hname, rfl⟩ := List.mem_map.mp hpart
    obtain ⟨hnonempty, hsingle, -⟩ := part_of_plain (h name hname)
    have hdot : name.toList ≠ ['.'] := fun heq => hsingle (String.toList_inj.mp heq)
    have hne : name.toList ≠ [] := fun heq => hnonempty (String.toList_inj.mp heq)
    simp [isPart, hdot, hne]
  rw [partsOf, hsplit, hparts, List.map_map]
  simp [Function.comp_def]

theorem partsOf_parts (h : ∀ name ∈ names, name ≠ ".." → PlainName name) (hnames : names ≠ []) :
    partsOf ("/".intercalate names).toList = names :=
  partsOf_of_splitOn h (splitOn_parts h hnames)

theorem partsOf_plain (h : ∀ name ∈ names, PlainName name) (hnames : names ≠ []) :
    partsOf ("/".intercalate names).toList = names :=
  partsOf_parts (fun name hname _ => h name hname) hnames

theorem anchorOf_eq_relative (h : cs.head? ≠ some '/') : anchorOf cs = .relative := by
  unfold anchorOf
  split
  · exact absurd rfl h
  · exact absurd rfl h
  · exact absurd rfl h
  · rfl

theorem head?_parts (h : ∀ name ∈ names, name ≠ ".." → PlainName name) :
    ("/".intercalate names).toList.head? ≠ some '/' := by
  cases names with
  | nil => exact nofun
  | cons first rest =>
    obtain ⟨hnonempty, -, hslash⟩ := part_of_plain (h first List.mem_cons_self)
    have hstart : ∃ more, ("/".intercalate (first :: rest)).toList = first.toList ++ more := by
      cases rest with
      | nil => exact ⟨[], by simp⟩
      | cons next rest =>
        rw [String.intercalate_cons_cons, String.append_assoc, String.toList_append]
        exact ⟨_, rfl⟩
    obtain ⟨more, hmore⟩ := hstart
    rw [hmore]
    cases hcs : first.toList with
    | nil => exact absurd (String.toList_eq_nil_iff.mp hcs) hnonempty
    | cons c cs =>
      intro hhead
      obtain rfl : c = '/' := by simpa using hhead
      exact hslash (hcs ▸ List.mem_cons_self)

-- ---------------------------------------------------------------------------
-- Slashes at the ends
-- ---------------------------------------------------------------------------

/-- A text without the slashes at its ends. -/
def bare (cs : List Char) : List Char :=
  ((cs.dropWhile (· == '/')).reverse.dropWhile (· == '/')).reverse

theorem exists_slashes (cs : List Char) : ∃ before behind, (∀ c ∈ before, c = '/') ∧
    (∀ c ∈ behind, c = '/') ∧ cs = before ++ (bare cs ++ behind) := by
  have hslash (text : List Char) : ∀ c ∈ text.takeWhile (· == '/'), c = '/' := by
    intro c hc
    have hslash := List.mem_takeWhile_imp hc
    exact eq_of_beq hslash
  refine ⟨cs.takeWhile (· == '/'), ((cs.dropWhile (· == '/')).reverse.takeWhile (· == '/')).reverse,
    hslash cs, fun c hc => hslash _ c (List.mem_reverse.mp hc), ?_⟩
  rw [bare, ← List.reverse_append, List.takeWhile_append_dropWhile, List.reverse_reverse,
    List.takeWhile_append_dropWhile]

theorem partsOf_bare (cs : List Char) : partsOf (bare cs) = partsOf cs := by
  obtain ⟨before, behind, hbefore, hbehind, hcs⟩ := exists_slashes cs
  conv => rhs; rw [hcs]
  rw [partsOf_slashes_append hbefore, partsOf_append_slashes _ hbehind]

end Path

-- ---------------------------------------------------------------------------
-- Places
-- ---------------------------------------------------------------------------

theorem foldl_step_plain (h : ∀ name ∈ names, PlainName name) (start : Place) :
    names.foldl Place.step start = start ++ names := by
  induction names generalizing start with
  | nil => rw [List.foldl_nil, List.append_nil]
  | cons name rest ih =>
    obtain ⟨hname, hrest⟩ := List.forall_mem_cons.mp h
    rw [List.foldl_cons, ih hrest, Place.step, if_neg (by simpa using hname.dots)]
    exact List.append_cons start name rest ▸ rfl

/-- Names lead up from a place and then down again. -/
theorem foldl_step_eq (h : ∀ name ∈ names, name ≠ ".." → PlainName name) (start : Place) :
    ∃ kept inner, names.foldl Place.step start = start.take kept ++ inner ∧
      ∀ name ∈ inner, PlainName name := by
  induction names generalizing start with
  | nil => exact ⟨start.length, [], by simp, List.forall_mem_nil _⟩
  | cons name rest ih =>
    obtain ⟨hname, hrest⟩ := List.forall_mem_cons.mp h
    rw [List.foldl_cons, Place.step]
    split
    · obtain ⟨kept, inner, hplace, hinner⟩ := ih hrest start.dropLast
      rw [hplace, List.dropLast_eq_take, List.take_take]
      exact ⟨_, inner, rfl, hinner⟩
    · rename_i hdots
      have hplain := hname (by simpa using hdots)
      obtain ⟨kept, inner, hplace, hinner⟩ := ih hrest (start ++ [name])
      rw [hplace, List.take_append, List.append_assoc]
      refine ⟨kept, _, rfl, List.forall_mem_append.mpr ⟨fun other hother => ?_, hinner⟩⟩
      rw [List.mem_singleton.mp (List.mem_of_mem_take hother)]
      exact hplain

namespace Path

variable {root : Path} {current place : Place} {inner : List String}

theorem placeFrom_child (root : Path) (text : String) (current : Place) :
    (root.child text).placeFrom current = (partsOf text.toList).foldl Place.step
      (if (ofText text).anchor = .relative then root.placeFrom current else []) := by
  rw [child, join]
  split
  · rename_i hanchor
    rw [if_pos (eq_of_beq hanchor), placeFrom, List.foldl_append]
    rfl
  · rename_i hanchor
    rw [if_neg (by simpa using hanchor), placeFrom, if_neg hanchor]
    rfl

theorem placeFrom_child_plain (h : ∀ name ∈ names, PlainName name) (hnames : names ≠ [])
    (root : Path) (current : Place) :
    (root.child ("/".intercalate names)).placeFrom current = root.placeFrom current ++ names := by
  have hanchor : (ofText ("/".intercalate names)).anchor = .relative :=
    anchorOf_eq_relative (head?_parts fun name hname _ => h name hname)
  rw [placeFrom_child, if_pos hanchor, partsOf_plain h hnames, foldl_step_plain h]

/-- What a text leads to is reached from a place that is no longer than that of the path. -/
theorem exists_start (root : Path) (text : String) (current : Place) :
    ∃ start : Place, start.length ≤ (root.placeFrom current).length ∧
      (root.child text).placeFrom current = (partsOf text.toList).foldl Place.step start := by
  refine ⟨_, ?_, placeFrom_child root text current⟩
  split
  · exact Nat.le_refl _
  · exact Nat.zero_le _

/-- What lies below a place lies there by plain names, however it is spelled. -/
theorem plain_of_placeFrom_child {spelling : String}
    (h : (root.child spelling).placeFrom current = root.placeFrom current ++ inner) :
    ∀ name ∈ inner, PlainName name := by
  obtain ⟨start, hlength, hstart⟩ := exists_start root spelling current
  have hparts (name : String) (hname : name ∈ partsOf spelling.toList) (hdots : name ≠ "..") :
      PlainName name := plain_of_mem_partsOf hname hdots
  obtain ⟨kept, tail, hplace, htail⟩ := foldl_step_eq hparts start
  have hinner : inner = tail.drop
      ((root.placeFrom current).length - (start.take kept).length) := by
    have hdrop : (root.placeFrom current ++ inner).drop (root.placeFrom current).length = inner :=
      List.drop_left
    rw [← hdrop, ← h, hstart, hplace, List.drop_append, List.drop_of_length_le, List.nil_append]
    exact Nat.le_trans (List.length_take_le' _ _) hlength
  rw [hinner]
  exact fun name hname => htail name (List.mem_of_mem_drop hname)

end Path

end Marginalia
