import Marginalia.Proofs.Snapshot.Title
import Marginalia.Snapshot.Unchecked

/-!
# Snapshots read back

A snapshot of remarks reads as these remarks in the order of snapshots, with wide gaps in messages
cut down to two spaces. It takes remarks whose values fill their columns: a value that is blank or
has a wide gap of its own cannot be told from other columns. Blanks around an optional value are
lost, and one that looks like the sign for an absent value is read as absent.
-/

namespace Marginalia.Snapshot

open Text (digitLimit isBlank isAsciiDigit isDigit trim trimEnd)
open Time (Moment)

/-- A value that a column of a snapshot keeps. -/
structure Legible (value : String) : Prop extends Fills value.toList where
  oneLine : '\n' ∉ value.toList

/-- A value that may be absent. -/
def LegibleField (field : Option String) : Prop :=
  ∀ value ∈ field, Legible value ∧ value ≠ missing

structure LegibleFile (file : String) : Prop where
  nonempty : file ≠ ""
  start : startsBlank file.toList = false
  narrow : wideGaps file.toList = []
  oneLine : '\n' ∉ file.toList

theorem legible_iff : Legible value ↔ value.toList ≠ [] ∧ trim value.toList = value.toList ∧
    wideGaps value.toList = [] ∧ '\n' ∉ value.toList :=
  ⟨fun h => ⟨h.nonempty, h.trimmed, h.narrow, h.oneLine⟩,
    fun ⟨hne, htrim, hnarrow, hline⟩ => ⟨⟨hne, htrim, hnarrow⟩, hline⟩⟩

theorem legibleFile_iff : LegibleFile file ↔ file ≠ "" ∧ startsBlank file.toList = false ∧
    wideGaps file.toList = [] ∧ '\n' ∉ file.toList :=
  ⟨fun h => ⟨h.nonempty, h.start, h.narrow, h.oneLine⟩,
    fun ⟨hne, hstart, hnarrow, hline⟩ => ⟨hne, hstart, hnarrow, hline⟩⟩

instance : DecidablePred Legible := fun _ => decidable_of_iff' _ legible_iff

instance : DecidablePred LegibleFile := fun _ => decidable_of_iff' _ legibleFile_iff

instance (field : Option String) : Decidable (LegibleField field) :=
  inferInstanceAs (Decidable (∀ value ∈ field, Legible value ∧ value ≠ missing))

/-- A remark that a snapshot keeps. -/
structure LegibleRemark (a : Remark) : Prop where
  file : LegibleFile a.file
  line : 0 ≤ a.line ∧ a.line < 10 ^ digitLimit
  tag : Legible a.tag
  capitals : Text.upper a.tag = a.tag
  owner : LegibleField a.owner
  date : LegibleField a.date
  category : LegibleField a.category
  id : LegibleField a.id
  message : trim a.message.toList = a.message.toList
  oneLine : '\n' ∉ a.message.toList

/-- The row that a remark is read back as. -/
def rowOf (stamp : String) (a : Remark) : Row :=
  ⟨stamp, { a with message := String.ofList (narrowed a.message.toList) }⟩

/-- A value that fills a column together with the blanks around it. -/
structure Readable (value : String) : Prop extends Fills (trim value.toList) where
  oneLine : '\n' ∉ value.toList

/-- A remark of which a snapshot keeps the file, the line, the tag and the message. -/
structure ReadableRemark (a : Remark) : Prop where
  file : LegibleFile a.file
  line : 0 ≤ a.line ∧ a.line < 10 ^ digitLimit
  tag : Legible a.tag
  capitals : Text.upper a.tag = a.tag
  owner : Readable (orMissing a.owner)
  date : Readable (orMissing a.date)
  category : Readable (orMissing a.category)
  id : Readable (orMissing a.id)
  message : trim a.message.toList = a.message.toList
  oneLine : '\n' ∉ a.message.toList

/-- The field that is read for one that was written. -/
def fieldRead (field : Option String) : Option String :=
  present? (trim (orMissing field).toList)

def readRow (stamp : String) (a : Remark) : Row where
  stamp := stamp
  remark := {
    a with
    message := String.ofList (narrowed a.message.toList)
    owner := fieldRead a.owner
    date := fieldRead a.date
    category := fieldRead a.category
    id := fieldRead a.id }

-- ---------------------------------------------------------------------------
-- Values
-- ---------------------------------------------------------------------------

variable {a : Remark} {stamp : String} {field : Option String}

theorem legible_name (priority : Priority) : Legible priority.name := by
  cases priority <;> decide

theorem legible_missing : Legible missing := by decide

theorem orMissing_some (h : Legible value) : orMissing (some value) = value := by
  have hne : value ≠ "" := by simpa using h.nonempty
  simp [orMissing, hne]

theorem Legible.readable (h : Legible value) : Readable value := by
  refine ⟨?_, h.oneLine⟩
  rw [h.trimmed]
  exact h.toFills

theorem legible_orMissing (h : LegibleField field) : Legible (orMissing field) := by
  cases field with
  | none => exact legible_missing
  | some value =>
    obtain ⟨hvalue, -⟩ := h value rfl
    rwa [orMissing_some hvalue]

theorem fieldRead_eq_self (h : LegibleField field) : fieldRead field = field := by
  rw [fieldRead, (legible_orMissing h).trimmed]
  cases field with
  | none => simp [orMissing, present?]
  | some value =>
    obtain ⟨hvalue, hmissing⟩ := h value rfl
    rw [orMissing_some hvalue]
    simp [present?, String.toList_inj, hmissing]

theorem LegibleRemark.readable (h : LegibleRemark a) : ReadableRemark a :=
  ⟨h.file, h.line, h.tag, h.capitals, (legible_orMissing h.owner).readable,
    (legible_orMissing h.date).readable, (legible_orMissing h.category).readable,
    (legible_orMissing h.id).readable, h.message, h.oneLine⟩

theorem LegibleRemark.readRow_eq (h : LegibleRemark a) (stamp : String) :
    readRow stamp a = rowOf stamp a := by
  simp [readRow, rowOf, fieldRead_eq_self h.owner, fieldRead_eq_self h.date,
    fieldRead_eq_self h.category, fieldRead_eq_self h.id]

theorem priorityOf?_name (priority : Priority) :
    priorityOf? priority.name.toList = some priority := by
  cases priority <;> decide +kernel

theorem toList_location (h : 0 ≤ a.line) :
    a.location.toList = a.file.toList ++ ':' :: Nat.toDigits 10 a.line.toNat := by
  obtain ⟨n, hn⟩ := Int.eq_ofNat_of_zero_le h
  have hcolon : ":".toList = [':'] := rfl
  have hnumber : (toString (n : Int)).toList = Nat.toDigits 10 n := Nat.toList_repr
  simp only [Remark.location, String.toList_append, hn, hcolon, hnumber, Int.toNat_natCast,
    List.append_assoc, List.singleton_append]

theorem not_blank_number {digits : List Char} (h : ∀ c ∈ digits, isAsciiDigit c = true) :
    ∀ c ∈ ':' :: digits, isBlank c = false :=
  List.forall_mem_cons.mpr ⟨by decide, fun c hc => Text.isBlank_digit (h c hc)⟩

theorem legible_location (h : ReadableRemark a) : Legible a.location := by
  obtain ⟨hfile, hstart, hnarrow, hline⟩ := h.file
  have hplace := not_blank_number (Text.isAsciiDigit_toDigits a.line.toNat)
  have hlocation := toList_location h.line.1
  constructor
  · rw [hlocation]
    exact fills_append (by simpa using hfile) hstart hnarrow (List.cons_ne_nil _ _) hplace
  · rw [hlocation]
    exact List.not_mem_append hline (blank_notMem (by decide) hplace)

theorem place?_location (h : ReadableRemark a) : place? a.location.toList =
    some (a.file, String.ofList (Nat.toDigits 10 a.line.toNat)) := by
  have hdigits := Text.isAsciiDigit_toDigits a.line.toNat
  have hcolon : ':' ∉ Nat.toDigits 10 a.line.toNat :=
    fun hmem => absurd (hdigits ':' hmem) (by decide)
  have hall : (Nat.toDigits 10 a.line.toNat).all isDigit = true :=
    List.all_eq_true.mpr fun c hc => by simp [isDigit, Text.isDecimal_digit (hdigits c hc)]
  rw [place?, toList_location h.line.1, Text.splitLast?_append _ hcolon]
  simp [hall, h.file.nonempty, Nat.toDigits_ne_nil]

theorem readInt_line (h : ReadableRemark a) :
    Text.readInt (String.ofList (Nat.toDigits 10 a.line.toNat)) = .ok a.line := by
  obtain ⟨hline, hlimit⟩ := h.line
  obtain ⟨n, hn⟩ := Int.eq_ofNat_of_zero_le hline
  rw [hn] at hlimit ⊢
  exact Text.readInt_toDigits (by exact_mod_cast hlimit)

-- ---------------------------------------------------------------------------
-- Rows
-- ---------------------------------------------------------------------------

theorem readable_padded (h : ReadableRemark a) : ∀ value ∈ (Cells.ofRemark a).padded,
    Readable value := by
  simp only [Cells.ofRemark, List.forall_mem_cons]
  exact ⟨(legible_location h).readable, h.tag.readable, (legible_name a.priority).readable, h.owner,
    h.date, h.category, h.id, List.forall_mem_nil _⟩

theorem row_eq (stamp : String) (sizes : List Nat) (cells : Cells) :
    row stamp sizes cells =
      lineOf (stamp :: cells.padded) (0 :: sizes) cells.message.toList := by
  simp [row, lineOf, pad]

/-- All columns together are the first of the three layouts. -/
theorem rawRow?_columns (h : ReadableRemark a) (hstamp : trim stamp.toList = stamp.toList)
    (defaultStamp : String) (message : List (List Char)) :
    rawRow? defaultStamp
      ((stamp :: (Cells.ofRemark a).padded).map (fun value => trim value.toList) ++ message) =
        some {
          stamp, place := a.location.toList, tag := a.tag.toList, message
          priority := a.priority, owner := fieldRead a.owner, date := fieldRead a.date
          category := fieldRead a.category, id := fieldRead a.id } := by
  simp [Cells.ofRemark, rawRow?, hstamp, (legible_location h).trimmed, h.tag.trimmed,
    (legible_name a.priority).trimmed, priorityOf?_name, fieldRead]

theorem read_columns (h : ReadableRemark a) (stamp : String) :
    RawRow.read {
        stamp, place := a.location.toList, tag := a.tag.toList
        message := columns a.message.toList, priority := a.priority, owner := fieldRead a.owner
        date := fieldRead a.date, category := fieldRead a.category, id := fieldRead a.id } =
      .ok (some (readRow stamp a)) := by
  simp [RawRow.read, place?_location h, readInt_line h, h.capitals, readRow,
    joinColumns_columns h.message]

theorem length_padded (a : Remark) (stamp : String) (hsizes : sizes.length = paddedNames.length) :
    (stamp :: (Cells.ofRemark a).padded).length = (0 :: sizes).length := by
  rw [List.length_cons, List.length_cons, hsizes]
  rfl

theorem newline_notMem_row (h : ReadableRemark a) (hstamp : BeginsRow stamp.toList)
    (hsizes : sizes.length = paddedNames.length) :
    '\n' ∉ row stamp sizes (Cells.ofRemark a) := by
  have hvalues : ∀ value ∈ stamp :: (Cells.ofRemark a).padded, '\n' ∉ value.toList :=
    List.forall_mem_cons.mpr
      ⟨hstamp.oneLine, fun value hvalue => (readable_padded h value hvalue).oneLine⟩
  rw [row_eq]
  exact notMem_lineOf (by decide) hvalues (length_padded a stamp hsizes) h.oneLine

theorem readLine_row (h : ReadableRemark a) (hstamp : BeginsRow stamp.toList)
    (hsizes : sizes.length = paddedNames.length) (defaultStamp : String) :
    readLine defaultStamp (row stamp sizes (Cells.ofRemark a)) = .ok (some (readRow stamp a)) := by
  have hstart : Fills (trim stamp.toList) := hstamp.trimmed.symm ▸ hstamp.toFills
  have hvalues : ∀ value ∈ stamp :: (Cells.ofRemark a).padded, Fills (trim value.toList) :=
    List.forall_mem_cons.mpr
      ⟨hstart, fun value hvalue => (readable_padded h value hvalue).toFills⟩
  have hcolumns := columns_trim_lineOf (length_padded a stamp hsizes)
    (Cells.ofRemark a).message.toList
  have hmessage : trim (Cells.ofRemark a).message.toList = a.message.toList := h.message
  have hhead := head?_trim_lineOf hstamp.toFills (Cells.ofRemark a).padded 0 sizes
    (Cells.ofRemark a).message.toList
  rw [columns_trim_values hvalues, hmessage] at hcolumns
  rw [row_eq]
  generalize lineOf _ _ _ = line at *
  have hcomment : (trim line).head? ≠ some '#' := hhead ▸ hstamp.head
  have hne : trim line ≠ [] := by
    intro hnil
    rw [hnil] at hhead
    exact hstamp.nonempty (List.head?_eq_none_iff.mp hhead.symm)
  simp only [readLine, hcolumns]
  rw [if_neg (by simp [hne, hcomment]), rawRow?_columns h hstamp.trimmed]
  exact read_columns h stamp

theorem readLine_comment (defaultStamp : String) (rest : List Char) :
    readLine defaultStamp ('#' :: rest) = .ok none := by
  have hmark : ∀ c ∈ ('#' :: rest).head?, isBlank c = false := by
    rintro _ ⟨⟩
    decide
  have htrim : trim ('#' :: rest) = '#' :: trimEnd rest := by
    rw [Text.trim_eq_trimEnd hmark, Text.trimEnd_cons]
    by_cases hrest : trimEnd rest = []
    · simp [hrest, hmark '#' rfl]
    · simp [hrest]
  simp [readLine, htrim]

theorem readLine_nil (defaultStamp : String) : readLine defaultStamp [] = .ok none := rfl

-- ---------------------------------------------------------------------------
-- Snapshots
-- ---------------------------------------------------------------------------

theorem readLines_cons (h : readLine defaultStamp line = .ok found)
    (hrest : readLines defaultStamp rest = .ok rows) :
    readLines defaultStamp (line :: rest) = .ok (found.toList ++ rows) := by
  simp [readLines, h, hrest, bind, Except.bind]

theorem readLines_skipped {skipped : List (List Char)}
    (h : ∀ line ∈ skipped, readLine defaultStamp line = .ok none)
    (hrest : readLines defaultStamp rest = .ok rows) :
    readLines defaultStamp (skipped ++ rest) = .ok rows := by
  induction skipped with
  | nil => exact hrest
  | cons line skipped ih =>
    obtain ⟨hline, hskipped⟩ := List.forall_mem_cons.mp h
    exact readLines_cons hline (ih hskipped)

theorem readLines_rows {remarks : List Remark} (h : ∀ a ∈ remarks, ReadableRemark a)
    (hstamp : BeginsRow stamp.toList) (hsizes : sizes.length = paddedNames.length)
    (defaultStamp : String) :
    readLines defaultStamp ((remarks.map fun a => row stamp sizes (Cells.ofRemark a)) ++ [[]]) =
      .ok (remarks.map (readRow stamp)) := by
  induction remarks with
  | nil => rfl
  | cons a remarks ih =>
    obtain ⟨ha, hremarks⟩ := List.forall_mem_cons.mp h
    exact readLines_cons (readLine_row ha hstamp hsizes defaultStamp) (ih hremarks)

theorem length_widths (names : List String) (rows : List (List String)) :
    (widths names rows).length = names.length := by
  induction names generalizing rows with
  | nil => rfl
  | cons name names ih => simp [widths, ih]

theorem sort_perm (remarks : List Remark) : (sort remarks).Perm remarks :=
  List.mergeSort_perm remarks inOrder

theorem mem_sort {remarks : List Remark} : a ∈ sort remarks ↔ a ∈ remarks :=
  (sort_perm remarks).mem_iff

/-- The lines in front of the rows. -/
def headLines (stamp : String) : List (List Char) :=
  ['#' :: ' ' :: title.toList ++ ' ' :: stamp.toList,
    "# Columns:  ".toList ++ joinColumns (columnNames.map String.toList), []]

theorem header_ended (stamp : String) :
    header stamp = (headLines stamp).flatMap fun line => line ++ ['\n'] := by
  simp [header, headLines]

theorem notMem_of_spaces {text : List Char} (hblank : isBlank c = true) (hspace : c ≠ ' ')
    (h : (text.all fun d => !isBlank d || d == ' ') = true) : c ∉ text := by
  intro hc
  have hone := List.all_eq_true.mp h c hc
  simp [hblank, hspace] at hone

/-- The only blank in front of the rows is a space, if this is so for the stamp. -/
theorem notMem_headLines (hblank : isBlank c = true) (hspace : c ≠ ' ')
    (hstamp : c ∉ stamp.toList) : ∀ line ∈ headLines stamp, c ∉ line := by
  have htitle : c ∉ '#' :: ' ' :: title.toList := notMem_of_spaces hblank hspace (by decide)
  have hcolumns : c ∉ "# Columns:  ".toList ++ joinColumns (columnNames.map String.toList) :=
    notMem_of_spaces hblank hspace (by decide)
  simp only [headLines, List.forall_mem_cons]
  exact ⟨List.not_mem_append htitle (List.not_mem_cons_of_ne_of_not_mem hspace hstamp),
    hcolumns, List.not_mem_nil, List.forall_mem_nil _⟩

theorem readLine_headLines (stamp defaultStamp : String) :
    ∀ line ∈ headLines stamp, readLine defaultStamp line = .ok none := by
  have hcolumns : "# Columns:  ".toList = '#' :: " Columns:  ".toList := by decide
  simp only [headLines, List.forall_mem_cons, hcolumns, List.cons_append]
  exact ⟨readLine_comment _ _, readLine_comment _ _, readLine_nil _, List.forall_mem_nil _⟩

theorem toList_layout (stamp : String) (remarks : List Remark) :
    (layout stamp (remarks.map Cells.ofRemark)).toList =
      (headLines stamp ++ remarks.map fun a => row stamp
        (widths paddedNames ((remarks.map Cells.ofRemark).map Cells.padded))
        (Cells.ofRemark a)).flatMap fun line => line ++ ['\n'] := by
  simp [layout, header_ended, List.flatMap_map]

theorem toList_write (stamp : String) (remarks : List Remark) :
    (write stamp remarks).toList =
      (headLines stamp ++ (sort remarks).map fun a => row stamp
        (widths paddedNames (((sort remarks).map Cells.ofRemark).map Cells.padded))
        (Cells.ofRemark a)).flatMap fun line => line ++ ['\n'] := toList_layout stamp (sort remarks)

theorem readLines_layout {remarks : List Remark} (h : ∀ a ∈ remarks, ReadableRemark a)
    (hstamp : BeginsRow stamp.toList) (defaultStamp : String) :
    readLines defaultStamp (Text.lines (layout stamp (remarks.map Cells.ofRemark)).toList) =
      .ok (remarks.map (readRow stamp)) := by
  have hsizes := length_widths paddedNames ((remarks.map Cells.ofRemark).map Cells.padded)
  rw [toList_layout]
  generalize widths paddedNames ((remarks.map Cells.ofRemark).map Cells.padded) = sizes at *
  have hlines : ∀ line ∈ headLines stamp ++
      remarks.map fun a => row stamp sizes (Cells.ofRemark a), '\n' ∉ line := by
    rw [List.forall_mem_append, List.forall_mem_map]
    exact ⟨notMem_headLines (by decide) (by decide) hstamp.oneLine,
      fun a ha => newline_notMem_row (h a ha) hstamp hsizes⟩
  have hrows := readLines_rows h hstamp hsizes defaultStamp
  rw [Text.lines_ended hlines, List.append_assoc]
  exact readLines_skipped (readLine_headLines stamp defaultStamp) hrows

theorem read_titled (h : headerTime? text = some time) (clock : Except Fault String) :
    read clock text = readLines time (Text.lines text.toList) := by
  rw [read, h]
  rfl

theorem read_untitled (h : headerTime? text = none) (current : String) :
    read (.ok current) text = readLines current (Text.lines text.toList) := by
  rw [read, h]
  rfl

theorem read_ofList (current : String) (cs : List Char) : read (.ok current) (String.ofList cs) =
    readLines (((findTime? cs).map String.ofList).getD current) (Text.lines cs) := by
  unfold read headerTime?
  rw [String.toList_ofList]
  cases findTime? cs <;> rfl

/-- The clock has no part in the rows, but reading asks for it if it finds no title. -/
theorem read_write_readable {remarks : List Remark} (h : ∀ a ∈ remarks, ReadableRemark a)
    (hstamp : BeginsRow stamp.toList)
    (hclock : headerTime? (write stamp remarks) ≠ none ∨ ∃ current, clock = .ok current) :
    read clock (write stamp remarks) = .ok ((sort remarks).map (readRow stamp)) := by
  have hsorted : ∀ a ∈ sort remarks, ReadableRemark a :=
    fun a ha => h a (mem_sort.mp ha)
  have hread := readLines_layout hsorted hstamp
  rw [← write] at hread
  cases htime : headerTime? (write stamp remarks) with
  | some time => rw [read_titled htime, hread]
  | none =>
    obtain ⟨current, rfl⟩ := hclock.resolve_left (not_not_intro htime)
    rw [read_untitled htime, hread]

theorem read_write {remarks : List Remark} (h : ∀ a ∈ remarks, LegibleRemark a)
    (hstamp : BeginsRow stamp.toList)
    (hclock : headerTime? (write stamp remarks) ≠ none ∨ ∃ current, clock = .ok current) :
    read clock (write stamp remarks) = .ok ((sort remarks).map (rowOf stamp)) := by
  have hrows : (sort remarks).map (readRow stamp) = (sort remarks).map (rowOf stamp) :=
    List.map_congr_left fun a ha => (h a (mem_sort.mp ha)).readRow_eq stamp
  rw [read_write_readable (fun a ha => (h a ha).readable) hstamp hclock, hrows]

theorem headerTime?_write {now utc : Moment} (h : now.utc? = some utc)
    (hstamp : now.snapshotStamp? = some stamp) (hyear : 1000 ≤ utc.date.year)
    (remarks : List Remark) : headerTime? (write stamp remarks) = some stamp := by
  rw [headerTime?, write, layout, String.toList_ofList, findTime?_header h hstamp hyear]
  simp

-- ---------------------------------------------------------------------------
-- Observations
-- ---------------------------------------------------------------------------

theorem valueOrMissing_ofOption (field : Option String) :
    valueOrMissing (.ofOption field) = .text (orMissing field) := by
  cases field with
  | none => rfl
  | some value => by_cases hvalue : value = "" <;>
      simp [valueOrMissing, Data.ofOption, Data.holds, orMissing, hvalue]

theorem paddedValues_observe (a : Remark) :
    paddedValues a.observe = (Cells.ofRemark a).padded.map .text := by
  simp only [paddedValues, Remark.observe, valueOrMissing_ofOption]
  rfl

theorem forM_ok {f : α → Except Fault Unit} {l : List α} (h : ∀ x ∈ l, f x = .ok ()) :
    l.forM f = .ok () := by
  induction l with
  | nil => rfl
  | cons x rest ih =>
    obtain ⟨hx, hrest⟩ := List.forall_mem_cons.mp h
    rw [List.forM, hx]
    exact ih hrest

theorem checkLengths_ok {rows : List (List Data)}
    (h : ∀ values ∈ rows, ∀ value ∈ values, checkLength value = .ok ()) (columns : Nat) :
    checkLengths columns rows = .ok () := by
  refine forM_ok fun i _ => forM_ok fun values hvalues => ?_
  cases hvalue : values[i]? with
  | none => rfl
  | some value => exact h values hvalues value (List.mem_of_getElem? hvalue)

theorem checkCells_observe (a : Remark) : checkCells a.observe = .ok (Cells.ofRemark a) := by
  have hpaddable : paddable ∘ Data.text = fun value => .ok value := rfl
  have hpadded : (paddedValues a.observe).mapM paddable = .ok (Cells.ofRemark a).padded := by
    rw [paddedValues_observe, List.mapM_map, hpaddable]
    exact List.mapM_pure.trans (congrArg Except.ok (List.map_id' _))
  rw [checkCells, hpadded]
  rfl

theorem checkLength_observe (a : Remark) :
    ∀ value ∈ paddedValues a.observe, checkLength value = .ok () := by
  rw [paddedValues_observe, List.forall_mem_map]
  exact fun _ _ => rfl

theorem checkLocation_observe (a : Remark) : checkLocation a.observe =
    if Text.isWritable a.line then .ok () else .error (.numeral .unwritable) := by
  have hlevels : Data.checkLevels Data.detailDepth = .ok () := rfl
  simp only [checkLocation, Remark.observe, Data.written, Data.checkDetail, hlevels]
  cases Text.isWritable a.line <;> rfl

theorem forM_check (c : α → Bool) (fault : Fault) (l : List α) :
    l.forM (fun x => if c x then .ok () else .error fault) =
      if l.all c then (.ok () : Except Fault Unit) else .error fault := by
  induction l with
  | nil => rfl
  | cons x rest ih =>
    rw [List.forM, ih, List.all_cons]
    cases c x <;> rfl

/-- Remarks that are handed in from outside are written as what they are, unless the number of a
line is too long. -/
theorem writeUnchecked_observe (stamp : String) (remarks : List Remark) :
    writeUnchecked stamp (remarks.map Remark.observe) =
      if remarks.all fun a => Text.isWritable a.line then .ok (write stamp remarks)
      else .error (.numeral .unwritable) := by
  have hremarks : (remarks.map Remark.observe).mapM Observation.remark? = some remarks := by
    have hremark : Observation.remark? ∘ Remark.observe = fun a => some a :=
      funext Observation.remark?_observe
    rw [List.mapM_map, hremark]
    exact List.mapM_pure.trans (congrArg some (List.map_id' _))
  have hsort : sortUnchecked (remarks.map Remark.observe) =
      .ok ((sort remarks).map Remark.observe) := by
    rw [sortUnchecked, hremarks]
  have hlocations : ((sort remarks).map Remark.observe).forM checkLocation =
      if remarks.all fun a => Text.isWritable a.line then .ok ()
      else .error (.numeral .unwritable) := by
    have hlocation : checkLocation ∘ Remark.observe = fun a =>
        if Text.isWritable a.line then .ok () else .error (.numeral .unwritable) :=
      funext checkLocation_observe
    rw [← (sort_perm remarks).all_eq, ← forM_check, ← hlocation]
    exact List.forM_map
  have hlengths : ∀ values ∈ ((sort remarks).map Remark.observe).map paddedValues,
      ∀ value ∈ values, checkLength value = .ok () := by
    rw [List.forall_mem_map, List.forall_mem_map]
    exact fun a _ => checkLength_observe a
  have hcells : ((sort remarks).map Remark.observe).mapM checkCells =
      .ok ((sort remarks).map Cells.ofRemark) := by
    have hcell : checkCells ∘ Remark.observe = fun a => .ok (Cells.ofRemark a) :=
      funext checkCells_observe
    rw [List.mapM_map, hcell]
    exact List.mapM_pure
  rw [writeUnchecked, hsort]
  cases hlines : remarks.all fun a => Text.isWritable a.line with
  | true =>
    rw [hlines, if_pos rfl] at hlocations
    simp only [bind, Except.bind, hlocations, checkLengths_ok hlengths, hcells]
    rfl
  | false =>
    rw [hlines, if_neg Bool.false_ne_true] at hlocations
    simp only [bind, Except.bind, hlocations]
    rfl

theorem writeUnchecked_ok (stamp : String) (h : ∀ a ∈ remarks, Text.isWritable a.line = true) :
    writeUnchecked stamp (remarks.map Remark.observe) = .ok (write stamp remarks) := by
  rw [writeUnchecked_observe, if_pos (List.all_eq_true.mpr h)]

-- ---------------------------------------------------------------------------
-- Round trips
-- ---------------------------------------------------------------------------

/-- A snapshot at any time reads as the remarks that it was written from, one row for each, whatever
the clock says then. Only the wide gaps of messages are set to two spaces. From the year 1000 in UTC
on, the title gives the time back. -/
theorem snapshot_reads_back {now : Moment} {remarks : List Remark}
    (hstamp : now.snapshotStamp? = some stamp) (h : ∀ a ∈ remarks, LegibleRemark a) :
    ∃ text, writeUnchecked stamp (remarks.map Remark.observe) = .ok text ∧
      (∀ current, read (.ok current) text = .ok ((sort remarks).map (rowOf stamp))) ∧
      (∀ a ∈ remarks, (∀ wide ∈ wideGaps a.message.toList, wide = gap) →
        rowOf stamp a = ⟨stamp, a⟩) ∧
      ∀ utc, now.utc? = some utc → 1000 ≤ utc.date.year → headerTime? text = some stamp ∧
        ∀ clock, read clock text = .ok ((sort remarks).map (rowOf stamp)) := by
  obtain ⟨utc, hutc, -⟩ := Option.map_eq_some_iff.mp hstamp
  have hbegins := beginsRow_stamp hutc hstamp
  have hlines : ∀ a ∈ remarks, Text.isWritable a.line = true := fun a ha =>
    Text.isWritable_of_lt (h a ha).line.1 (h a ha).line.2
  refine ⟨write stamp remarks, writeUnchecked_ok stamp hlines, ?_, ?_, ?_⟩
  · exact fun current => read_write h hbegins (.inr ⟨current, rfl⟩)
  · intro a _ hgaps
    simp [rowOf, narrowed_eq_self hgaps]
  · intro utc hutc hyear
    have htitle := headerTime?_write hutc hstamp hyear remarks
    exact ⟨htitle, fun clock => read_write h hbegins (.inl (by simp [htitle]))⟩

/-- A remark with every part, wide gaps in its message, and blanks and a colon in its file. -/
def fullRemark : Remark where
  file := "src/a b:c.py"
  line := 12
  tag := "TODO"
  message := "fix   the - low  gap\t\tsoon"
  priority := .high
  owner := some "ann"
  date := some "2024-05-01"
  category := some "core parts"
  id := some "#7"

def bareRemark : Remark where
  file := "b"
  line := 0
  tag := "BUG"
  message := ""

theorem legible_examples : ∀ a ∈ [bareRemark, fullRemark], LegibleRemark a := by
  have hlimit : (100 : Int) ≤ 10 ^ digitLimit := by
    have hle : 10 ^ 2 ≤ 10 ^ digitLimit := Nat.pow_le_pow_right (by decide) (by decide)
    exact_mod_cast hle
  have hbare : LegibleRemark bareRemark :=
    ⟨by decide, ⟨by decide, lt_of_lt_of_le (by decide) hlimit⟩, by decide, by decide +kernel,
      by decide, by decide, by decide, by decide, by decide, by decide⟩
  have hfull : LegibleRemark fullRemark :=
    ⟨by decide, ⟨by decide, lt_of_lt_of_le (by decide) hlimit⟩, by decide, by decide +kernel,
      by decide, by decide, by decide, by decide, by decide, by decide⟩
  exact List.forall_mem_cons.mpr ⟨hbare, List.forall_mem_singleton.mpr hfull⟩

theorem snapshot_reads_back_examples :
    Moment.snapshotStamp? ⟨⟨2024, 5, 6⟩, ⟨12, 0, 0, 0⟩, some 0⟩ = some "2024-05-06 12:00:00" ∧
      (∀ a ∈ [bareRemark, fullRemark], LegibleRemark a) ∧
      ∃ text, writeUnchecked "2024-05-06 12:00:00" ([bareRemark, fullRemark].map Remark.observe) =
          .ok text ∧
        headerTime? text = some "2024-05-06 12:00:00" ∧
        ∀ clock, read clock text = .ok [
          ⟨"2024-05-06 12:00:00", { fullRemark with message := "fix  the - low  gap  soon" }⟩,
          ⟨"2024-05-06 12:00:00", bareRemark⟩] := by
  have hstamp : Moment.snapshotStamp? ⟨⟨2024, 5, 6⟩, ⟨12, 0, 0, 0⟩, some 0⟩ =
      some "2024-05-06 12:00:00" := by decide +kernel
  have hsort : sort [bareRemark, fullRemark] = [fullRemark, bareRemark] := by
    have horder : inOrder bareRemark fullRemark = false := by decide
    simp [sort, List.mergeSort, List.MergeSort.Internal.splitInTwo, horder]
  have hrows : [fullRemark, bareRemark].map (rowOf "2024-05-06 12:00:00") = [
      ⟨"2024-05-06 12:00:00", { fullRemark with message := "fix  the - low  gap  soon" }⟩,
      ⟨"2024-05-06 12:00:00", bareRemark⟩] := by decide
  obtain ⟨text, hwrite, -, -, htitle⟩ := snapshot_reads_back hstamp legible_examples
  rw [hsort, hrows] at htitle
  obtain ⟨htime, hread⟩ := htitle _ rfl (by decide)
  exact ⟨hstamp, legible_examples, text, hwrite, htime, hread⟩

end Marginalia.Snapshot
