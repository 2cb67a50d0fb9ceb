import Marginalia.Config
import Marginalia.Proofs.Text.Blank
import Marginalia.Proofs.Text.Parts
import Mathlib.Data.Bool.AllAny
import Mathlib.Data.List.Forall2

/-!
# Lists of texts in settings

A setting that takes texts takes them as a list, or as one text with commas. Texts that have no
commas in them, and no blanks at their ends, are the same ones either way.
-/

namespace Marginalia.Config

open Text

/-- A text that can be told apart in a list with commas, and on a line. -/
structure IsItem (item : String) : Prop where
  nonempty : item ≠ ""
  trimmed : trim item.toList = item.toList
  unparted : ',' ∉ item.toList
  unbroken : ∀ c ∈ item.toList, isLineBreak c = false

/-- A part of a text with commas: an item, with blanks around it. -/
def Padded (part : List Char) (item : String) : Prop :=
  ∃ front back, (∀ c ∈ front, isBlank c = true) ∧ (∀ c ∈ back, isBlank c = true) ∧
    part = front ++ (item.toList ++ back)

variable {item : String} {items : List String} {parts : List (List Char)} {cs : List Char}

theorem IsItem.toList_ne_nil (h : IsItem item) : item.toList ≠ [] :=
  fun hnil => h.nonempty (String.toList_eq_nil_iff.mp hnil)

theorem Padded.trim (h : Padded part item) (hitem : IsItem item) :
    Text.trim part = item.toList := by
  obtain ⟨front, back, hfront, hback, rfl⟩ := h
  rw [trim_append_append hfront hback, hitem.trimmed]

theorem Padded.comma_notMem (h : Padded part item) (hitem : IsItem item) : ',' ∉ part := by
  obtain ⟨front, back, hfront, hback, rfl⟩ := h
  have hcomma : isBlank ',' ≠ true := by decide
  rw [List.mem_append, List.mem_append]
  rintro (h | h | h)
  · exact hcomma (hfront _ h)
  · exact hitem.unparted h
  · exact hcomma (hback _ h)

theorem padded_parts (hitems : ∀ item ∈ items, IsItem item)
    (h : List.Forall₂ Padded parts items) :
    (∀ part ∈ parts, ',' ∉ part) ∧ parts.map Text.trim = items.map String.toList := by
  induction h with
  | nil => exact ⟨List.forall_mem_nil _, rfl⟩
  | cons hpart _ ih =>
    obtain ⟨hitem, hrest⟩ := List.forall_mem_cons.mp hitems
    obtain ⟨hcomma, htrim⟩ := ih hrest
    refine ⟨List.forall_mem_cons.mpr ⟨hpart.comma_notMem hitem, hcomma⟩, ?_⟩
    rw [List.map_cons, List.map_cons, hpart.trim hitem, htrim]

/-- Items that are joined with commas are told apart again, whatever blanks are around them. -/
theorem splitList_joined (hne : items ≠ []) (hitems : ∀ item ∈ items, IsItem item)
    (h : List.Forall₂ Padded parts items) : splitList ([','].intercalate parts) = items := by
  obtain ⟨hcomma, htrim⟩ := padded_parts hitems h
  have hparts : parts ≠ [] := by
    rintro rfl
    cases h
    exact hne rfl
  have hkept : (items.map String.toList).filter (fun part => !part.isEmpty) =
      items.map String.toList := by
    refine List.filter_eq_self.mpr (List.forall_mem_map.mpr fun item hitem => ?_)
    simpa using (hitems item hitem).nonempty
  rw [splitList, splitOn_intercalate hcomma hparts, htrim, hkept, List.map_map]
  simp [Function.comp_def]

theorem splitList_blank (h : ∀ c ∈ cs, isBlank c = true) : splitList cs = [] := by
  have hcomma : ',' ∉ cs := fun hmem => absurd (h _ hmem) (by decide)
  simp [splitList, splitOn_of_notMem hcomma, trim_eq_nil h]

/-- A list on a line of plain settings: commas with a blank behind them. -/
theorem exists_padded (first : String) (rest : List String) : ∃ parts,
    List.Forall₂ Padded parts (first :: rest) ∧
      (", ".intercalate (first :: rest)).toList = [','].intercalate parts := by
  have hself (item : String) : Padded item.toList item :=
    ⟨[], [], List.forall_mem_nil _, List.forall_mem_nil _, by simp⟩
  have hblank (item : String) : Padded (' ' :: item.toList) item :=
    ⟨[' '], [], List.forall_mem_singleton.mpr rfl, List.forall_mem_nil _, by simp⟩
  refine ⟨first.toList :: rest.map fun item => ' ' :: item.toList, .cons (hself first) ?_, ?_⟩
  · induction rest with
    | nil => exact .nil
    | cons item rest ih => exact .cons (hblank item) ih
  · rw [String.toList_intercalate]
    induction rest generalizing first with
    | nil => simp
    | cons item rest ih =>
      have hfront (parts : List (List Char)) : [','].intercalate ((' ' :: item.toList) :: parts) =
          ' ' :: [','].intercalate (item.toList :: parts) := by cases parts <;> simp
      rw [List.map_cons, List.map_cons, List.map_cons, List.intercalate_cons_cons,
        List.intercalate_cons_cons, hfront, ← ih item]
      simp

theorem trimEnd_joined (hitems : ∀ item ∈ items, IsItem item) :
    trimEnd (", ".toList.intercalate (items.map String.toList)) =
      ", ".toList.intercalate (items.map String.toList) := by
  induction items with
  | nil => rfl
  | cons item rest ih =>
    obtain ⟨hitem, hrest⟩ := List.forall_mem_cons.mp hitems
    cases rest with
    | nil => simpa using trimEnd_of_trim_eq hitem.trimmed
    | cons next rest =>
      have hne : ", ".toList.intercalate ((next :: rest).map String.toList) ≠ [] := by
        have hnext := (hrest next List.mem_cons_self).toList_ne_nil
        cases rest <;> simp [List.intercalate_cons_cons, hnext]
      rw [List.map_cons, List.map_cons, List.intercalate_cons_cons, ← List.map_cons,
        trimEnd_append, ih hrest, if_neg hne]

/-- A list on a line begins and ends with an item. -/
theorem trim_joined (hitems : ∀ item ∈ items, IsItem item) :
    trim (", ".intercalate items).toList = (", ".intercalate items).toList := by
  rw [String.toList_intercalate]
  refine trim_eq_self ?_ (trimEnd_joined hitems)
  cases items with
  | nil => nofun
  | cons item rest =>
    obtain ⟨hitem, -⟩ := List.forall_mem_cons.mp hitems
    obtain ⟨c, cs, hcs⟩ := List.exists_cons_of_ne_nil hitem.toList_ne_nil
    have hhead := head_of_trim_eq hitem.trimmed
    rw [hcs] at hhead
    cases rest <;> simpa [List.intercalate_cons_cons, hcs] using hhead

theorem splitList_line (hitems : ∀ item ∈ items, IsItem item) :
    splitList (", ".intercalate items).toList = items := by
  cases items with
  | nil => rfl
  | cons first rest =>
    obtain ⟨parts, hparts, htext⟩ := exists_padded first rest
    rw [htext]
    exact splitList_joined (List.cons_ne_nil _ _) hitems hparts

theorem unbroken_line (hitems : ∀ item ∈ items, IsItem item) :
    ∀ c ∈ (", ".intercalate items).toList, isLineBreak c = false := by
  intro c hc
  rw [String.toList_intercalate] at hc
  have hcomma : ∀ c ∈ ", ".toList, isLineBreak c = false :=
    List.all_iff_forall_prop.mp (by decide)
  rcases mem_intercalate hc with hc | ⟨part, hpart, hc⟩
  · exact hcomma c hc
  · obtain ⟨item, hitem, rfl⟩ := List.mem_map.mp hpart
    exact (hitems item hitem).unbroken c hc

/-- A value gives a setting these texts: a list of them, or one text in which there are commas
between them and blanks around them. -/
inductive Spells (items : List String) : Data → Prop
  | list : Spells items (.list (items.map .text))
  | joined {parts : List (List Char)} (hne : items ≠ []) (h : List.Forall₂ Padded parts items) :
      Spells items (.text (String.ofList ([','].intercalate parts)))
  | blank {text : String} (hnil : items = []) (h : ∀ c ∈ text.toList, isBlank c = true) :
      Spells items (.text text)

theorem mapM_text (items : List String) : (items.map Data.text).mapM Data.text? = some items := by
  induction items with
  | nil => rfl
  | cons item rest ih =>
    rw [List.map_cons, List.mapM_cons, ih]
    rfl

theorem Spells.stringList {value : Data} (hitems : ∀ item ∈ items, IsItem item)
    (h : Spells items value) (group key : String) : stringList group key value = .ok items := by
  cases h with
  | list => simp only [Config.stringList, mapM_text]
  | joined hne h => rw [Config.stringList, String.toList_ofList, splitList_joined hne hitems h]
  | blank hnil h => rw [Config.stringList, splitList_blank h, hnil]

end Marginalia.Config
