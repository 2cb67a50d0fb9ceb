import Marginalia.Proofs.Text.Blank
import Marginalia.Snapshot.Writer
import Mathlib.Data.List.SplitBy
import Mathlib.Data.List.TakeWhile

/-!
# Columns read back

A line that is put together from values with wide gaps between them is cut into these values again,
as long as no value has a wide gap of its own or a blank at an end. The last one, the message, may
have wide gaps: it falls apart there, and comes out with two blanks in each of them.
-/

namespace Marginalia.Snapshot

open Text (isBlank trim trimEnd trimEnd_of_cons)

-- ---------------------------------------------------------------------------
-- Wide gaps
-- ---------------------------------------------------------------------------

/-- A text in pieces: blanks side by side are one piece, every other character is one alone. -/
def pieces (text : List Char) : List (List Char) :=
  text.splitBy fun c d => isBlank c && isBlank d

/-- The longest runs of blanks that are two or more. -/
def wideGaps (text : List Char) : List (List Char) :=
  (pieces text).filter fun piece => 2 ≤ piece.length

/-- A text with two spaces in place of each wide gap. -/
def narrowed (text : List Char) : List Char :=
  (pieces text).flatMap fun piece => if 2 ≤ piece.length then gap else piece

/-- A text that keeps its columns apart. -/
structure IsGap (text : List Char) : Prop where
  blank : ∀ c ∈ text, isBlank c = true
  wide : 2 ≤ text.length

variable {text rest wide value message : List Char} {values : List String} {sizes : List Nat}

theorem isGap_gap : IsGap gap := ⟨List.all_eq_true.mp (by decide), Nat.le_refl 2⟩

theorem startsBlank_eq_false : startsBlank text = false ↔ ∀ c ∈ text.head?, isBlank c = false := by
  cases text <;> simp [startsBlank]

theorem startsBlank_append (h : text ≠ []) : startsBlank (text ++ rest) = startsBlank text := by
  cases text with
  | nil => exact absurd rfl h
  | cons c text => rfl

theorem startsBlank_of_trim_eq (h : trim text = text) : startsBlank text = false :=
  startsBlank_eq_false.mpr (Text.head_of_trim_eq h)

theorem startsBlank_of_not_blank (h : ∀ c ∈ text, isBlank c = false) : startsBlank text = false :=
  startsBlank_eq_false.mpr fun c hc => h c (List.mem_of_mem_head? hc)

theorem blank_notMem (hblank : isBlank c = true) (h : ∀ d ∈ text, isBlank d = false) :
    c ∉ text := by
  intro hmem
  rw [h c hmem] at hblank
  cases hblank

/-- A text is built up by characters with no blank beside a blank, and by wide gaps. -/
@[elab_as_elim]
theorem gap_induction {motive : List Char → Prop} (nil : motive [])
    (cons : ∀ c rest, (isBlank c = false ∨ startsBlank rest = false) → motive rest →
      motive (c :: rest))
    (gap : ∀ wide rest, IsGap wide → startsBlank rest = false → motive rest →
      motive (wide ++ rest))
    (text : List Char) : motive text := by
  induction hlength : text.length using Nat.strong_induction_on generalizing text with
  | _ n ih =>
    cases text with
    | nil => exact nil
    | cons c rest =>
      rw [List.length_cons] at hlength
      by_cases hwide : isBlank c = false ∨ startsBlank rest = false
      · exact cons c rest hwide (ih _ (by omega) rest rfl)
      · obtain ⟨d, rest, rfl⟩ : ∃ d tail, rest = d :: tail := by
          cases rest <;> simp_all [startsBlank]
        have hblank : isBlank c = true ∧ isBlank d = true := by simpa [startsBlank] using hwide
        have hsplit := List.takeWhile_append_dropWhile (p := isBlank) (l := c :: d :: rest)
        have hrest : ((c :: d :: rest).dropWhile isBlank).length ≤ rest.length := by
          simp only [List.dropWhile_cons, hblank, if_true]
          exact (List.dropWhile_sublist isBlank).length_le
        rw [List.length_cons] at hlength
        rw [← hsplit]
        refine gap _ _ ⟨fun x hx => List.mem_takeWhile_imp hx, ?_⟩ ?_ (ih _ (by omega) _ rfl)
        · simp [hblank]
        · rw [startsBlank_eq_false]
          intro x hx
          have hfirst := List.head?_dropWhile_not isBlank (c :: d :: rest)
          rw [hx] at hfirst
          simpa using hfirst

theorem pieces_append (h : startsBlank rest = false) :
    pieces (text ++ rest) = pieces text ++ pieces rest :=
  List.splitBy_append fun c _ d hd => by simp [startsBlank_eq_false.mp h d hd]

theorem pieces_cons (h : isBlank c = false ∨ startsBlank rest = false) :
    pieces (c :: rest) = [c] :: pieces rest := by
  rcases h with hc | hrest
  · have hapart : ∀ x ∈ [c].getLast?, ∀ y ∈ rest.head?, (isBlank x && isBlank y) = false := by
      rintro _ ⟨⟩ y _
      simp [hc]
    exact List.splitBy_append hapart
  · have happend : pieces ([c] ++ rest) = pieces [c] ++ pieces rest := pieces_append hrest
    exact happend

theorem pieces_gap (hwide : IsGap wide) (hrest : startsBlank rest = false) :
    pieces (wide ++ rest) = wide :: pieces rest := by
  have hne : wide ≠ [] := by
    rintro rfl
    exact absurd hwide.wide (by decide)
  have hchain : wide.IsChain fun c d => (isBlank c && isBlank d) = true :=
    (List.pairwise_of_forall_mem_list fun c hc d hd => by
      simp [hwide.blank c hc, hwide.blank d hd]).isChain
  have hone : pieces wide = [wide] := List.splitBy_of_isChain hne hchain
  rw [pieces_append hrest, hone, List.singleton_append]

theorem wideGaps_cons (h : isBlank c = false ∨ startsBlank rest = false) :
    wideGaps (c :: rest) = wideGaps rest := by
  simp [wideGaps, pieces_cons h]

theorem wideGaps_gap (hwide : IsGap wide) (hrest : startsBlank rest = false) :
    wideGaps (wide ++ rest) = wide :: wideGaps rest := by
  simp [wideGaps, pieces_gap hwide hrest, hwide.wide]

theorem narrowed_cons (h : isBlank c = false ∨ startsBlank rest = false) :
    narrowed (c :: rest) = c :: narrowed rest := by
  simp [narrowed, pieces_cons h]

theorem narrowed_gap (hwide : IsGap wide) (hrest : startsBlank rest = false) :
    narrowed (wide ++ rest) = gap ++ narrowed rest := by
  simp [narrowed, pieces_gap hwide hrest, hwide.wide]

theorem wideGaps_append (h : startsBlank rest = false) :
    wideGaps (text ++ rest) = wideGaps text ++ wideGaps rest := by
  simp [wideGaps, pieces_append h]

theorem wideGaps_append_of_not_blank (h : ∀ c ∈ text, isBlank c = false) :
    wideGaps (text ++ rest) = wideGaps rest := by
  induction text with
  | nil => rfl
  | cons c text ih =>
    obtain ⟨hc, htext⟩ := List.forall_mem_cons.mp h
    rw [List.cons_append, wideGaps_cons (.inl hc), ih htext]

theorem wideGaps_eq_nil (h : ∀ c ∈ text, isBlank c = false) : wideGaps text = [] := by
  rw [← List.append_nil text, wideGaps_append_of_not_blank h]
  rfl

/-- A text with two spaces in each wide gap is not changed. -/
theorem narrowed_eq_self (h : ∀ wide ∈ wideGaps text, wide = gap) : narrowed text = text := by
  have hpieces : ∀ piece ∈ pieces text, (if 2 ≤ piece.length then gap else piece) = piece := by
    intro piece hpiece
    split
    · rename_i hlength
      exact (h piece (List.mem_filter.mpr ⟨hpiece, by simpa using hlength⟩)).symm
    · rfl
  rw [narrowed, List.flatMap_def, List.map_congr_left hpieces, List.map_id', pieces,
    List.flatten_splitBy]

-- ---------------------------------------------------------------------------
-- Parts
-- ---------------------------------------------------------------------------

theorem splitWide_cons (h : isBlank c = false ∨ startsBlank rest = false) :
    splitWide (c :: rest) = pushFront c (splitWide rest) := by
  cases rest with
  | nil => rfl
  | cons d rest =>
    have hapart : (isBlank c && isBlank d) = false := Bool.and_eq_false_iff.mpr h
    simp [splitWide, hapart]

theorem splitWide_gap (hwide : IsGap wide) (hrest : startsBlank rest = false) :
    splitWide (wide ++ rest) = [] :: splitWide rest := by
  obtain ⟨hblank, hlength⟩ := hwide
  induction wide with
  | nil => exact absurd hlength (by decide)
  | cons c tail ih =>
    cases tail with
    | nil => exact absurd hlength (Nat.lt_irrefl 1)
    | cons d tail =>
      obtain ⟨hc, hblank⟩ := List.forall_mem_cons.mp hblank
      have hd := hblank d List.mem_cons_self
      cases tail with
      | nil => simp [splitWide, hc, hd, hrest]
      | cons e tail =>
        have he : isBlank e = true := hblank e (by simp)
        have hnext := ih hblank (by simp)
        simpa [splitWide, hc, hd, he, startsBlank] using hnext

theorem pushFront_ne_nil (c : Char) (parts : List (List Char)) : pushFront c parts ≠ [] := by
  cases parts <;> simp [pushFront]

@[simp] theorem tail_pushFront (c : Char) (parts : List (List Char)) :
    (pushFront c parts).tail = parts.tail := by
  cases parts <;> rfl

@[simp] theorem nil_mem_pushFront : [] ∈ pushFront c parts ↔ [] ∈ parts.tail := by
  cases parts <;> simp [pushFront]

theorem pushFront_append {parts more : List (List Char)} (h : parts ≠ []) :
    pushFront c (parts ++ more) = pushFront c parts ++ more := by
  cases parts with
  | nil => exact absurd rfl h
  | cons part parts => rfl

theorem splitWide_ne_nil (text : List Char) : splitWide text ≠ [] := by
  induction text using gap_induction with
  | nil => simp [splitWide]
  | cons c rest h ih =>
    rw [splitWide_cons h]
    exact pushFront_ne_nil c _
  | gap wide rest hwide hrest ih => simp [splitWide_gap hwide hrest]

theorem joinColumns_cons (h : parts ≠ []) :
    joinColumns (part :: parts) = part ++ gap ++ joinColumns parts := by
  cases parts with
  | nil => exact absurd rfl h
  | cons next parts => simp [joinColumns, List.intercalate_cons_cons]

theorem joinColumns_pushFront (h : parts ≠ []) :
    joinColumns (pushFront c parts) = c :: joinColumns parts := by
  cases parts with
  | nil => exact absurd rfl h
  | cons part parts =>
    by_cases hparts : parts = []
    · simp [hparts, pushFront, joinColumns]
    · simp [pushFront, joinColumns_cons hparts]

/-- Cutting a text at its wide gaps and joining the parts again gives every gap two spaces. -/
theorem joinColumns_splitWide (text : List Char) :
    joinColumns (splitWide text) = narrowed text := by
  induction text using gap_induction with
  | nil => rfl
  | cons c rest h ih =>
    rw [splitWide_cons h, joinColumns_pushFront (splitWide_ne_nil rest), ih, narrowed_cons h]
  | gap wide rest hwide hrest ih =>
    rw [splitWide_gap hwide hrest, joinColumns_cons (splitWide_ne_nil rest), ih,
      narrowed_gap hwide hrest]
    rfl

theorem nil_notMem_of_tail (hstart : startsBlank text = false) (hne : text ≠ [])
    (h : [] ∉ (splitWide text).tail) : [] ∉ splitWide text := by
  cases text with
  | nil => exact absurd rfl hne
  | cons c rest =>
    rw [splitWide_cons (.inl hstart)] at h ⊢
    simpa using h

/-- Only the first part can be empty, unless blanks stand at the end. -/
theorem nil_notMem_tail_splitWide (h : trimEnd text = text) : [] ∉ (splitWide text).tail := by
  induction text using gap_induction with
  | nil => simp [splitWide]
  | cons c rest hc ih =>
    rw [splitWide_cons hc, tail_pushFront]
    exact ih (trimEnd_of_cons h)
  | gap wide rest hwide hrest ih =>
    have hne : rest ≠ [] := by
      rintro rfl
      rw [List.append_nil, Text.trimEnd_eq_nil hwide.blank] at h
      exact absurd hwide.wide (by simp [← h])
    rw [splitWide_gap hwide hrest, List.tail_cons]
    exact nil_notMem_of_tail hrest hne (ih (Text.trimEnd_of_append h))

theorem nil_notMem_splitWide (h : trim text = text) (hne : text ≠ []) : [] ∉ splitWide text :=
  nil_notMem_of_tail (startsBlank_of_trim_eq h) hne
    (nil_notMem_tail_splitWide (Text.trimEnd_of_trim_eq h))

theorem columns_eq_splitWide (h : trim text = text) (hne : text ≠ []) :
    columns text = splitWide text := by
  refine List.filter_eq_self.mpr fun part hpart => ?_
  have hpart : part ≠ [] := by
    rintro rfl
    exact nil_notMem_splitWide h hne hpart
  simpa using hpart

theorem joinColumns_columns (h : trim text = text) :
    joinColumns (columns text) = narrowed text := by
  by_cases hne : text = []
  · subst hne
    rfl
  · rw [columns_eq_splitWide h hne, joinColumns_splitWide]

/-- A text is cut in two at a wide gap. -/
theorem splitWide_append (hend : trimEnd text = text) (hwide : IsGap wide)
    (hrest : startsBlank rest = false) :
    splitWide (text ++ (wide ++ rest)) = splitWide text ++ splitWide rest := by
  induction text using gap_induction with
  | nil => exact splitWide_gap hwide hrest
  | cons c tail hc ih =>
    have hbefore : isBlank c = false ∨ startsBlank (tail ++ (wide ++ rest)) = false := by
      by_cases htail : tail = []
      · subst htail
        left
        cases hblank : isBlank c with
        | false => rfl
        | true => simp [trimEnd, hblank] at hend
      · rwa [startsBlank_append htail]
    rw [List.cons_append, splitWide_cons hbefore, ih (trimEnd_of_cons hend), splitWide_cons hc]
    exact pushFront_append (splitWide_ne_nil tail)
  | gap inner tail hinner htail ih =>
    have hne : tail ≠ [] := by
      rintro rfl
      rw [List.append_nil, Text.trimEnd_eq_nil hinner.blank] at hend
      exact absurd hinner.wide (by simp [← hend])
    have hstart : startsBlank (tail ++ (wide ++ rest)) = false := by rwa [startsBlank_append hne]
    rw [List.append_assoc, splitWide_gap hinner hstart, ih (Text.trimEnd_of_append hend),
      splitWide_gap hinner htail, List.cons_append]

theorem columns_append (hend : trimEnd text = text) (hwide : IsGap wide)
    (hrest : startsBlank rest = false) :
    columns (text ++ (wide ++ rest)) = columns text ++ columns rest := by
  rw [columns, splitWide_append hend hwide hrest, List.filter_append]
  rfl

/-- Blanks beside a wide gap belong to it. -/
theorem columns_trim_append (hwide : IsGap wide) (text rest : List Char) :
    columns (trim (text ++ (wide ++ rest))) = columns (trim text) ++ columns (trim rest) := by
  obtain ⟨before, behind, hbefore, hbehind, htext⟩ := Text.exists_trim text
  obtain ⟨before', behind', hbefore', hbehind', hrest⟩ := Text.exists_trim rest
  have hnone : columns [] = [] := rfl
  have hmiddle : ∀ c ∈ behind ++ (wide ++ before'), isBlank c = true :=
    List.forall_mem_append.mpr ⟨hbehind, List.forall_mem_append.mpr ⟨hwide.blank, hbefore'⟩⟩
  have hline : text ++ (wide ++ rest) = before ++
      (trim text ++ (behind ++ (wide ++ before') ++ trim rest) ++ behind') := by
    conv_lhs => rw [htext, hrest]
    simp only [List.append_assoc]
  rw [hline, Text.trim_append_append hbefore hbehind']
  by_cases htrim : trim text = []
  · have hleft : trim (behind ++ (wide ++ before') ++ trim rest) = trim rest := by
      have happend := Text.trim_append_append hmiddle (List.forall_mem_nil _) (trim rest)
      rwa [List.append_nil, Text.trim_trim] at happend
    rw [htrim, List.nil_append, hleft, hnone, List.nil_append]
  · by_cases htrim' : trim rest = []
    · have hright := Text.trim_append_append (List.forall_mem_nil _) hmiddle (trim text)
      rw [htrim', List.append_nil, ← List.nil_append (trim text ++ _), hright, Text.trim_trim,
        hnone, List.append_nil]
    · have hgap : IsGap (behind ++ (wide ++ before')) := by
        refine ⟨hmiddle, Nat.le_trans hwide.wide ?_⟩
        simp only [List.length_append]
        omega
      have hstart : startsBlank (trim text) = false := startsBlank_of_trim_eq (Text.trim_trim text)
      have hend := Text.trimEnd_of_trim_eq (Text.trim_trim text)
      have hend' := Text.trimEnd_of_trim_eq (Text.trim_trim rest)
      have hwhole : trim (trim text ++ (behind ++ (wide ++ before') ++ trim rest)) =
          trim text ++ (behind ++ (wide ++ before') ++ trim rest) := by
        refine Text.trim_eq_self (startsBlank_eq_false.mp ?_) ?_
        · rwa [startsBlank_append htrim]
        · rw [Text.trimEnd_append, Text.trimEnd_append, hend', if_neg htrim',
            if_neg (by simp [htrim'])]
      rw [hwhole, columns_append hend hgap (startsBlank_of_trim_eq (Text.trim_trim rest))]

-- ---------------------------------------------------------------------------
-- Values
-- ---------------------------------------------------------------------------

/-- A value that fills a column. -/
structure Fills (value : List Char) : Prop where
  nonempty : value ≠ []
  trimmed : trim value = value
  narrow : wideGaps value = []

theorem fills_append {front back : List Char} (hfront : front ≠ [])
    (hstart : startsBlank front = false) (hnarrow : wideGaps front = []) (hback : back ≠ [])
    (h : ∀ c ∈ back, isBlank c = false) : Fills (front ++ back) := by
  have hhead : startsBlank (front ++ back) = false := by rw [startsBlank_append hfront, hstart]
  refine ⟨by simp [hfront], ?_, ?_⟩
  · rw [Text.trim_eq_trimEnd (startsBlank_eq_false.mp hhead), Text.trimEnd_append,
      Text.trimEnd_eq_self h, if_neg hback]
  · rw [wideGaps_append (startsBlank_of_not_blank h), hnarrow, wideGaps_eq_nil h]
    rfl

theorem splitWide_value (h : wideGaps value = []) : splitWide value = [value] := by
  induction value using gap_induction with
  | nil => rfl
  | cons c tail hc ih =>
    rw [wideGaps_cons hc] at h
    rw [splitWide_cons hc, ih h]
    rfl
  | gap inner tail hinner htail ih =>
    rw [wideGaps_gap hinner htail] at h
    cases h

theorem Fills.columns (h : Fills value) : columns value = [value] := by
  simp [Snapshot.columns, splitWide_value h.narrow, h.nonempty]

theorem Fills.head?_trim_append (h : Fills value) (rest : List Char) :
    (trim (value ++ rest)).head? = value.head? := by
  obtain ⟨c, tail, rfl⟩ := List.exists_cons_of_ne_nil h.nonempty
  have hc : isBlank c = false := startsBlank_of_trim_eq h.trimmed
  rw [List.cons_append, Text.trim_eq_trimEnd (by rintro _ ⟨⟩; exact hc), Text.trimEnd_cons]
  split
  · simp [hc]
  · rfl

-- ---------------------------------------------------------------------------
-- Lines
-- ---------------------------------------------------------------------------

/-- A line of padded values with a message behind them. -/
def lineOf (values : List String) (sizes : List Nat) (message : List Char) : List Char :=
  joinColumns (List.zipWith pad values sizes ++ [message])

theorem isGap_padding (n : Nat) : IsGap (List.replicate n ' ' ++ gap) := by
  have hspace : isBlank ' ' = true := by decide
  refine ⟨fun c hc => ?_, by simp [gap]⟩
  rcases List.mem_append.mp hc with hc | hc
  · rwa [List.eq_of_mem_replicate hc]
  · exact isGap_gap.blank c hc

theorem lineOf_cons (value : String) (values : List String) (size : Nat) (sizes : List Nat)
    (message : List Char) : lineOf (value :: values) (size :: sizes) message =
      value.toList ++ (List.replicate (size - value.length) ' ' ++ gap ++
        lineOf values sizes message) := by
  have hne : List.zipWith pad values sizes ++ [message] ≠ [] := by simp
  simp [lineOf, joinColumns_cons hne, pad]

theorem notMem_lineOf (hspace : c ≠ ' ') (hvalues : ∀ value ∈ values, c ∉ value.toList)
    (hsizes : values.length = sizes.length) (hmessage : c ∉ message) :
    c ∉ lineOf values sizes message := by
  induction values generalizing sizes with
  | nil => simpa [lineOf, joinColumns] using hmessage
  | cons value values ih =>
    cases sizes with
    | nil => cases hsizes
    | cons size sizes =>
      obtain ⟨hvalue, hvalues⟩ := List.forall_mem_cons.mp hvalues
      have hrest := ih hvalues (Nat.succ.inj hsizes)
      simp [lineOf_cons, gap, hvalue, hspace, hrest]

/-- A line falls apart into the columns of its values and those of its message. -/
theorem columns_trim_lineOf (hsizes : values.length = sizes.length) (message : List Char) :
    columns (trim (lineOf values sizes message)) =
      (values.flatMap fun value => columns (trim value.toList)) ++ columns (trim message) := by
  induction values generalizing sizes with
  | nil =>
    have hline : lineOf [] sizes message = message := by simp [lineOf, joinColumns]
    rw [hline]
    rfl
  | cons value values ih =>
    cases sizes with
    | nil => cases hsizes
    | cons size sizes =>
      rw [lineOf_cons, columns_trim_append (isGap_padding _), ih (Nat.succ.inj hsizes),
        List.flatMap_cons, List.append_assoc]

theorem columns_trim_values (hvalues : ∀ value ∈ values, Fills (trim value.toList)) :
    (values.flatMap fun value => columns (trim value.toList)) =
      values.map fun value => trim value.toList := by
  induction values with
  | nil => rfl
  | cons value values ih =>
    obtain ⟨hvalue, hvalues⟩ := List.forall_mem_cons.mp hvalues
    rw [List.flatMap_cons, ih hvalues, hvalue.columns]
    rfl

theorem head?_trim_lineOf {value : String} (h : Fills value.toList) (values : List String)
    (size : Nat) (sizes : List Nat) (message : List Char) :
    (trim (lineOf (value :: values) (size :: sizes) message)).head? = value.toList.head? := by
  rw [lineOf_cons, h.head?_trim_append]

end Marginalia.Snapshot
