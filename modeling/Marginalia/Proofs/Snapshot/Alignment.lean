import Marginalia.Proofs.Scan.Positions
import Marginalia.Proofs.Snapshot.RoundTrip
import Mathlib.Data.List.Sort
import Mathlib.Data.Prod.Lex
import Mathlib.Data.String.Basic
import Mathlib.Order.Lex

/-!
# The rows of snapshots

The text of a snapshot does not depend on the order in which remarks are handed in, as long as no
two of them have the same priority, file and line. Its rows rise by these, and each column starts at
the same place in all rows, whatever the values in it and beside it are.
-/

namespace Marginalia

/-- What a snapshot is ordered by. -/
def Remark.sortKey (a : Remark) : ℕ ×ₗ String ×ₗ ℤ :=
  toLex (a.priority.rank, toLex (a.file, a.line))

namespace Snapshot

/-- A line has a value that starts at a place, counted in characters. -/
def StartsAt (line : List Char) (value : String) (start : Nat) : Prop :=
  ∃ front back, front.length = start ∧ line = front ++ value.toList ++ back

/-- The values of a row, one for each column. -/
def valuesOf (stamp : String) (a : Remark) : List String :=
  stamp :: (Cells.ofRemark a).padded ++ [a.message]

/-- Where columns of given sizes start from a place on, and what comes after them. -/
def starts (start : Nat) : List Nat → List Nat
  | [] => [start]
  | size :: sizes => start :: starts (start + size + gap.length) sizes

/-- A value is no wider than its column. -/
def Fits (value : String) (size : Nat) : Prop := value.length ≤ size

variable {remarks others : List Remark} {values names : List String} {rows : List (List String)}

-- ---------------------------------------------------------------------------
-- Order
-- ---------------------------------------------------------------------------

theorem inOrder_eq (a b : Remark) : inOrder a b = decide (a.sortKey ≤ b.sortKey) := by
  simp [inOrder, Remark.sortKey, Prod.Lex.toLex_le_toLex, beq_eq_decide]

theorem sort_ascends (remarks : List Remark) :
    (sort remarks).Pairwise fun a b => a.sortKey ≤ b.sortKey := by
  have hsort : sort remarks = remarks.mergeSort fun a b => decide (a.sortKey ≤ b.sortKey) := by
    simp only [sort, ← inOrder_eq]
  rw [hsort]
  exact List.pairwise_mergeSort' (fun a b : Remark => a.sortKey ≤ b.sortKey) remarks

/-- Remarks with different keys have one order only. -/
theorem sort_eq_of_perm (hkeys : (remarks.map Remark.sortKey).Nodup) (h : others.Perm remarks) :
    sort others = sort remarks := by
  have hperm : (sort others).Perm (sort remarks) :=
    (sort_perm others).trans (h.trans (sort_perm remarks).symm)
  refine hperm.eq_of_pairwise ?_ (sort_ascends others) (sort_ascends remarks)
  intro a b ha hb hab hba
  have hmem : a ∈ remarks := h.mem_iff.mp (mem_sort.mp ha)
  exact List.inj_on_of_nodup_map hkeys hmem (mem_sort.mp hb) (le_antisymm hab hba)

theorem sort_rises (hkeys : (remarks.map Remark.sortKey).Nodup) :
    (sort remarks).Pairwise fun a b => a.sortKey < b.sortKey := by
  have hnodup : ((sort remarks).map Remark.sortKey).Nodup :=
    ((sort_perm remarks).map Remark.sortKey).nodup_iff.mpr hkeys
  apply (sort_ascends remarks).imp₂ _ (List.pairwise_map.mp hnodup)
  intro a b hle hne
  exact lt_of_le_of_ne hle hne

-- ---------------------------------------------------------------------------
-- Columns
-- ---------------------------------------------------------------------------

theorem fits_widths (hrow : values ∈ rows) (hlength : values.length = names.length) :
    List.Forall₂ Fits values (widths names rows) := by
  induction names generalizing values rows with
  | nil =>
    rw [List.length_eq_zero_iff.mp hlength]
    exact .nil
  | cons name names ih =>
    obtain ⟨value, rest, rfl⟩ : ∃ value rest, values = value :: rest :=
      List.exists_cons_of_length_eq_add_one hlength
    refine .cons ?_ (ih (List.mem_map_of_mem hrow) (Nat.succ.inj hlength))
    have hmem : value.length ∈ (rows.filterMap List.head?).map String.length :=
      List.mem_map_of_mem (List.mem_filterMap.mpr ⟨_, hrow, rfl⟩)
    rw [Fits, List.foldl_max]
    exact Nat.le_trans (List.le_max?_getD_of_mem hmem) (Nat.le_max_right _ _)

/-- The values of a line start where the columns start, behind any text. -/
theorem startsAt_lineOf (h : List.Forall₂ Fits values sizes) (message : String)
    (front : List Char) :
    List.Forall₂ (StartsAt (front ++ lineOf values sizes message.toList)) (values ++ [message])
      (starts front.length sizes) := by
  induction h generalizing front with
  | nil => exact .cons ⟨front, [], rfl, by simp [lineOf, joinColumns]⟩ .nil
  | @cons value size values sizes hfits _ ih =>
    rw [lineOf_cons]
    refine .cons ⟨front, _, rfl, (List.append_assoc _ _ _).symm⟩ ?_
    have hrest := ih (front ++ value.toList ++ List.replicate (size - value.length) ' ' ++ gap)
    have hlength : (front ++ value.toList ++ List.replicate (size - value.length) ' ' ++
        gap).length = front.length + size + gap.length := by
      have hsize : value.length + (size - value.length) = size := Nat.add_sub_cancel' hfits
      simp only [List.length_append, List.length_replicate, String.length_toList]
      omega
    rw [hlength] at hrest
    simp only [List.append_assoc] at hrest ⊢
    exact hrest

theorem row_eq_lineOf (stamp : String) (sizes : List Nat) (a : Remark) :
    row stamp sizes (Cells.ofRemark a) = lineOf (stamp :: (Cells.ofRemark a).padded)
      (stamp.length :: sizes) a.message.toList := by
  simp [row, lineOf, pad, Cells.ofRemark]

/-- Remarks that are laid out together have their columns in the same places. -/
theorem startsAt_row (stamp : String) (h : a ∈ remarks) :
    let sizes := widths paddedNames ((remarks.map Cells.ofRemark).map Cells.padded)
    List.Forall₂ (StartsAt (row stamp sizes (Cells.ofRemark a))) (valuesOf stamp a)
      (starts 0 (stamp.length :: sizes)) := by
  intro sizes
  have hrow : (Cells.ofRemark a).padded ∈ (remarks.map Cells.ofRemark).map Cells.padded :=
    List.mem_map_of_mem (List.mem_map_of_mem h)
  have hfits : List.Forall₂ Fits (stamp :: (Cells.ofRemark a).padded) (stamp.length :: sizes) :=
    .cons (Nat.le_refl _) (fits_widths hrow rfl)
  rw [row_eq_lineOf]
  exact startsAt_lineOf hfits a.message []

-- ---------------------------------------------------------------------------
-- Snapshots
-- ---------------------------------------------------------------------------

theorem nodup_sortKey (h : (remarks.map Remark.position).Nodup) :
    (remarks.map Remark.sortKey).Nodup := by
  apply List.Nodup.of_map fun key => ofLex (ofLex key).2
  rw [List.map_map]
  exact h

/-- Remarks with different keys have one snapshot at a time, in whatever order they are handed in.
Its rows rise by their keys, and each column starts at the same place in all of them. If the number
of a line is too long to be written, there is none, in any order. The remarks of a scan have
different keys. -/
theorem write_in_any_order :
    (∀ remarks : List Remark, (remarks.map Remark.sortKey).Nodup → ∀ stamp : String,
      ∃ (text : String) (rows : List Remark) (sizes places : List Nat),
        (∀ others : List Remark, others.Perm remarks →
          writeUnchecked stamp (others.map Remark.observe) =
            if remarks.all fun a => Text.isWritable a.line then .ok text
            else .error (.numeral .unwritable)) ∧
        rows.Perm remarks ∧ (rows.Pairwise fun a b => a.sortKey < b.sortKey) ∧
        text.toList = header stamp ++
          rows.flatMap (fun a => row stamp sizes (Cells.ofRemark a) ++ ['\n']) ∧
        ∀ a ∈ rows, List.Forall₂ (StartsAt (row stamp sizes (Cells.ofRemark a)))
          (valuesOf stamp a) places) ∧
    ∀ (engine engine' : Engine) (directory : Data) (tags : Option Data) (remarks : List Remark),
      (Engine.scan directory tags).run engine = .ok remarks engine' →
        (remarks.map Remark.sortKey).Nodup := by
  constructor
  · intro remarks hkeys stamp
    refine ⟨write stamp remarks, sort remarks, _, _, ?_, sort_perm remarks, sort_rises hkeys, ?_,
      fun a ha => startsAt_row stamp ha⟩
    · intro others hperm
      rw [writeUnchecked_observe, hperm.all_eq, write, sort_eq_of_perm hkeys hperm, write]
    · simp [write, layout, List.flatMap_map]
  · intro engine engine' directory tags remarks hrun
    exact nodup_sortKey ((Engine.scan_nodup directory tags engine).ok hrun)

/-- Two remarks of a scan make one text, in either order. -/
theorem write_in_any_order_notes : ∃ remarks engine' text,
    (Engine.scan .null none).run (Engine.projectWithNotes "./data") = .ok remarks engine' ∧
      remarks.map (fun a => (a.file, a.line)) = [("data/notes.txt", 1), ("main.py", 1)] ∧
      (remarks.map Remark.sortKey).Nodup ∧
      writeUnchecked "now" (remarks.map Remark.observe) = .ok text ∧
      writeUnchecked "now" (remarks.reverse.map Remark.observe) = .ok text := by
  have hscan : Engine.scannedFields? (fun a => (a.file, a.line))
      (Engine.projectWithNotes "./data") = some [("data/notes.txt", 1), ("main.py", 1)] := by
    decide +kernel
  obtain ⟨remarks, engine', hrun, hfound⟩ := Engine.scannedFields?_eq_some hscan
  have hkeys := write_in_any_order.2 _ _ _ _ _ hrun
  have hlines : remarks.all (fun a => Text.isWritable a.line) = true := by
    refine List.all_eq_true.mpr fun a ha => Text.isWritable_of_digit ?_
    have hmem : (a.file, a.line) ∈ [("data/notes.txt", (1 : Int)), ("main.py", 1)] :=
      hfound ▸ List.mem_map_of_mem ha
    have hline : a.line = 1 := by
      rcases List.mem_pair.mp hmem with h | h
      · exact (Prod.mk.inj h).2
      · exact (Prod.mk.inj h).2
    rw [hline]
    decide
  obtain ⟨text, -, -, -, hwrite, -⟩ := write_in_any_order.1 remarks hkeys "now"
  rw [if_pos hlines] at hwrite
  exact ⟨remarks, engine', text, hrun, hfound, hkeys, hwrite _ (.refl _),
    hwrite _ remarks.reverse_perm⟩

/-- Wide characters count as one each, and a column is at least as wide as its name. -/
example : layout "now" ([⟨"a.py", 10, "BUG", "later", .high, some "ann", none, none, none⟩,
      ⟨"b.py", 2, "TODO", "tidy", .low, none, none, some "核心", none⟩].map Cells.ofRemark) =
    "# Inline-issue snapshot now\n# Columns:  timestamp  path:line  tag  priority  owner  date  " ++
    "category  id  message\n\n" ++
    "now  a.py:10    BUG   high      ann    -     -         -   later\n" ++
    "now  b.py:2     TODO  low       -      -     核心        -   tidy\n" := by decide +kernel

end Snapshot

end Marginalia
