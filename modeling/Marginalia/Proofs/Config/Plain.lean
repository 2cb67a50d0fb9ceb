import Marginalia.Config.Legacy
import Marginalia.Proofs.Config.Lists
import Marginalia.Proofs.Data.Entries

/-!
# Plain settings

What the lines of plain settings say. Lines count by their keys, not by their order, and lines that
set nothing may stand anywhere between them.
-/

namespace Marginalia.Config

open Text

variable {line key value : List Char} {lines : List (List Char)} {tags ignore : List String}

-- ---------------------------------------------------------------------------
-- Lines
-- ---------------------------------------------------------------------------

/-- The names of the settings that plain lines can set. -/
def plainKeys : List (List Char) := ["tags".toList, "ignore".toList, "include_resolved".toList]

/-- The setting that a line makes, if it makes one. -/
def lineSetting? (line : List Char) : Option (String × Data) :=
  (legacyPair? line).bind fun (key, value) => legacySetting? key value

theorem legacyEntries_eq (lines : List (List Char)) : legacyEntries lines =
    (lines.filterMap lineSetting?).foldl (fun entries (key, value) => setEntry entries key value)
      [] := by
  rw [List.foldl_filterMap, legacyEntries]
  congr 1
  funext entries line
  unfold lineSetting?
  split <;> rename_i h <;> simp [h]

theorem trim_setting (key value : List Char) :
    trim (key ++ '=' :: value) = trimStart key ++ '=' :: trimEnd value := by
  have hequals : isBlank '=' = false := by decide
  have hstart : trimStart (key ++ '=' :: value) = trimStart key ++ '=' :: value := by
    rw [trimStart, List.dropWhile_append]
    split
    · rename_i hnil
      rw [trimStart, List.isEmpty_iff.mp hnil]
      simp [hequals]
    · rfl
  have hend : trimEnd ('=' :: value) = '=' :: trimEnd value := by
    rw [trimEnd_cons]
    split
    · rename_i hnil
      simp [hnil, hequals]
    · rfl
  rw [trim, hstart, trimEnd_append, hend, if_neg (List.cons_ne_nil _ _)]

/-- The line of a setting, however much white space it has. -/
theorem legacyPair?_setting (hkey : '=' ∉ key)
    (hhead : (trim (key ++ '=' :: value)).head? ≠ some '#') :
    legacyPair? (key ++ '=' :: value) = some (trim key, trim value) := by
  have hstart : '=' ∉ trimStart key := fun h => hkey ((List.dropWhile_sublist isBlank).subset h)
  rw [legacyPair?]
  dsimp only
  rw [if_neg (by simpa using hhead), trim_setting, splitFirst?_append hstart]
  simp only [Option.map_some, trim_trimStart, trim_trimEnd]

/-- A line that sets nothing. -/
inductive Idle : List Char → Prop
  | blank {line : List Char} (h : ∀ c ∈ line, isBlank c = true) : Idle line
  | comment {line : List Char} (h : (trim line).head? = some '#') : Idle line
  | bare {line : List Char} (h : '=' ∉ line) : Idle line
  | other {key value : List Char} (hkey : '=' ∉ key) (h : trim key ∉ plainKeys) :
      Idle (key ++ '=' :: value)

theorem legacySetting?_other (h : key ∉ plainKeys) : legacySetting? key value = none := by
  obtain ⟨htags, h⟩ := not_or.mp (mt List.mem_cons.mpr h)
  obtain ⟨hignore, h⟩ := not_or.mp (mt List.mem_cons.mpr h)
  have hresolved := mt List.mem_singleton.mpr h
  simp only [legacySetting?, beq_iff_eq, htags, hignore, hresolved, if_false]

theorem lineSetting?_bare (h : '=' ∉ line) : lineSetting? line = none := by
  have htrim : '=' ∉ trim line := fun hmem => h (Text.trim_subset line hmem)
  unfold lineSetting? legacyPair?
  dsimp only
  rw [splitFirst?_eq_none htrim]
  split <;> rfl

theorem lineSetting?_comment (h : (trim line).head? = some '#') : lineSetting? line = none := by
  unfold lineSetting? legacyPair?
  dsimp only
  rw [if_pos (by simp [h])]
  rfl

theorem Idle.lineSetting? (h : Idle line) : Config.lineSetting? line = none := by
  cases h with
  | blank h =>
    refine lineSetting?_bare fun hmem => ?_
    cases h _ hmem
  | comment h => exact lineSetting?_comment h
  | bare h => exact lineSetting?_bare h
  | @other key value hkey hother =>
    by_cases hhead : (trim (key ++ '=' :: value)).head? = some '#'
    · exact lineSetting?_comment hhead
    · rw [Config.lineSetting?, legacyPair?_setting hkey hhead, Option.bind_some]
      exact legacySetting?_other hother

-- ---------------------------------------------------------------------------
-- Switches
-- ---------------------------------------------------------------------------

/-- The word of a switch. -/
def switchWord (b : Bool) : String := if b then "true" else "false"

/-- A word in letters of any size. -/
def LetterCase (word spelling : String) : Prop :=
  List.Forall₂ (fun letter c => c = letter ∨ c = letter.toUpper) word.toList spelling.toList

/-- What the letters of such a word are like, in both sizes. -/
structure Letter (letter c : Char) : Prop where
  small : lowerChar c = [letter]
  plain : c ≠ 'Σ'
  notBlank : isBlank c = false
  notBreak : isLineBreak c = false

theorem letter_of_switchWord (b : Bool) : ∀ letter ∈ (switchWord b).toList,
    ∀ c, c = letter ∨ c = letter.toUpper → Letter letter c := by
  have hall : ∀ letter ∈ "truefals".toList, ([letter, letter.toUpper].all fun c =>
      lowerChar c == [letter] && c != 'Σ' && !isBlank c && !isLineBreak c) = true :=
    List.all_eq_true.mp (by decide)
  have hsubset : (switchWord b).toList ⊆ "truefals".toList := by
    cases b
    · exact (by decide : "false".toList ⊆ "truefals".toList)
    · exact (by decide : "true".toList ⊆ "truefals".toList)
  intro letter hletter c hc
  have hc := List.all_eq_true.mp (hall letter (hsubset hletter)) c (by simpa using hc)
  simp only [Bool.and_eq_true, beq_iff_eq, bne_iff_ne, Bool.not_eq_true'] at hc
  obtain ⟨⟨⟨hsmall, hplain⟩, hblank⟩, hbreak⟩ := hc
  exact ⟨hsmall, hplain, hblank, hbreak⟩

theorem lowerAfter_letters {letters cs : List Char} (h : List.Forall₂ Letter letters cs)
    (afterLetter : Bool) : lowerAfter afterLetter cs = letters := by
  induction h generalizing afterLetter with
  | nil => rfl
  | cons hletter _ ih =>
    rw [lowerAfter, ih]
    simp [hletter.small, hletter.plain]

variable {resolved : Bool} {spelling : String}

theorem forall₂_letter {letters cs : List Char}
    (hall : ∀ letter ∈ letters, ∀ c, c = letter ∨ c = letter.toUpper → Letter letter c)
    (h : List.Forall₂ (fun letter c => c = letter ∨ c = letter.toUpper) letters cs) :
    List.Forall₂ Letter letters cs := by
  induction h with
  | nil => exact .nil
  | cons hc _ ih =>
    obtain ⟨hletter, hrest⟩ := List.forall_mem_cons.mp hall
    exact .cons (hletter _ hc) (ih hrest)

theorem LetterCase.letters (h : LetterCase (switchWord resolved) spelling) :
    List.Forall₂ Letter (switchWord resolved).toList spelling.toList :=
  forall₂_letter (letter_of_switchWord resolved) h

theorem plain_of_letters {letters cs : List Char} (h : List.Forall₂ Letter letters cs) :
    ∀ c ∈ cs, isBlank c = false ∧ isLineBreak c = false := by
  induction h with
  | nil => exact List.forall_mem_nil _
  | cons hletter _ ih => exact List.forall_mem_cons.mpr ⟨⟨hletter.notBlank, hletter.notBreak⟩, ih⟩

theorem LetterCase.trim (h : LetterCase (switchWord resolved) spelling) :
    trim spelling.toList = spelling.toList := by
  have hplain := plain_of_letters h.letters
  exact trim_eq_self (fun c hc => (hplain c (List.mem_of_mem_head? hc)).1)
    (trimEnd_eq_self fun c hc => (hplain c hc).1)

theorem LetterCase.reads (h : LetterCase (switchWord resolved) spelling) :
    (lowerChars spelling.toList == "true".toList) = resolved := by
  rw [lowerChars, lowerAfter_letters h.letters]
  cases resolved <;> rfl

-- ---------------------------------------------------------------------------
-- The settings of all lines
-- ---------------------------------------------------------------------------

/-- The line of a setting. -/
def plainLine (name value : String) : List Char := (name ++ " = " ++ value).toList

/-- The lines of plain settings: one for each setting, in any order, among lines that set
nothing. -/
def PlainLines (tags ignore : List String) (resolved : Bool) (lines : List (List Char)) : Prop :=
  ∃ spelling idle, LetterCase (switchWord resolved) spelling ∧
    (∀ line ∈ idle, Idle line ∧ ∀ c ∈ line, isLineBreak c = false) ∧
    lines.Perm (plainLine "tags" (", ".intercalate tags) ::
      plainLine "ignore" (", ".intercalate ignore) ::
      plainLine "include_resolved" spelling :: idle)

/-- The name of a setting can be told on a line. -/
structure IsName (name : String) : Prop where
  unsigned : '=' ∉ name.toList
  trimmed : trim name.toList = name.toList
  head : ∃ c rest, name.toList = c :: rest ∧ c ≠ '#'
  unbroken : ∀ c ∈ name.toList, isLineBreak c = false

theorem isName_tags : IsName "tags" :=
  ⟨by decide, by decide, ⟨_, _, rfl, by decide⟩, List.all_iff_forall_prop.mp (by decide)⟩

theorem isName_ignore : IsName "ignore" :=
  ⟨by decide, by decide, ⟨_, _, rfl, by decide⟩, List.all_iff_forall_prop.mp (by decide)⟩

theorem isName_resolved : IsName "include_resolved" :=
  ⟨by decide, by decide, ⟨_, _, rfl, by decide⟩, List.all_iff_forall_prop.mp (by decide)⟩

theorem lineSetting?_plainLine {name : String} (hname : IsName name) (value : String) :
    lineSetting? (plainLine name value) = legacySetting? name.toList (trim value.toList) := by
  have hline : plainLine name value = (name.toList ++ [' ']) ++ '=' :: ' ' :: value.toList := by
    simp [plainLine]
  obtain ⟨c, rest, hhead, hc⟩ := hname.head
  have hequals : '=' ∉ name.toList ++ [' '] := by
    simpa using hname.unsigned
  have hfirst : (trim ((name.toList ++ [' ']) ++ '=' :: ' ' :: value.toList)).head? = some c := by
    have hblank := head_of_trim_eq hname.trimmed
    rw [hhead] at hblank
    rw [trim_setting, hhead, List.cons_append, trimStart_eq_self (by simpa using hblank)]
    rfl
  have hblank : ∀ c ∈ [' '], isBlank c = true := List.forall_mem_singleton.mpr rfl
  have hkey : trim (name.toList ++ [' ']) = name.toList := by
    have hsame := trim_append_append (List.forall_mem_nil _) hblank name.toList
    rwa [List.nil_append, hname.trimmed] at hsame
  have hvalue : trim (' ' :: value.toList) = trim value.toList := by
    have hsame := trim_append_append hblank (List.forall_mem_nil _) value.toList
    rwa [List.append_nil] at hsame
  rw [hline, lineSetting?, legacyPair?_setting hequals (by rw [hfirst]; simpa using hc),
    Option.bind_some, hkey, hvalue]

theorem unbroken_plainLine {name value : String} (hname : IsName name)
    (hvalue : ∀ c ∈ value.toList, isLineBreak c = false) :
    ∀ c ∈ plainLine name value, isLineBreak c = false := by
  have hequals : ∀ c ∈ " = ".toList, isLineBreak c = false :=
    List.all_iff_forall_prop.mp (by decide)
  rw [plainLine, String.toList_append, String.toList_append]
  exact List.forall_mem_append.mpr
    ⟨List.forall_mem_append.mpr ⟨hname.unbroken, hequals⟩, hvalue⟩

theorem lineSetting?_tags (h : ∀ item ∈ tags, IsItem item) :
    lineSetting? (plainLine "tags" (", ".intercalate tags)) =
      some ("tags", .list (tags.map .text)) := by
  rw [lineSetting?_plainLine isName_tags, trim_joined h, legacySetting?, if_pos (by decide),
    splitList_line h]

theorem lineSetting?_ignore (h : ∀ item ∈ ignore, IsItem item) :
    lineSetting? (plainLine "ignore" (", ".intercalate ignore)) =
      some ("ignore", .list (ignore.map .text)) := by
  rw [lineSetting?_plainLine isName_ignore, trim_joined h, legacySetting?, if_neg (by decide),
    if_pos (by decide), splitList_line h]

theorem lineSetting?_resolved (h : LetterCase (switchWord resolved) spelling) :
    lineSetting? (plainLine "include_resolved" spelling) =
      some ("include_resolved", .bool resolved) := by
  rw [lineSetting?_plainLine isName_resolved, h.trim, legacySetting?, if_neg (by decide),
    if_neg (by decide), if_pos (by decide), h.reads]

theorem PlainLines.unbroken (htags : ∀ item ∈ tags, IsItem item)
    (hignore : ∀ item ∈ ignore, IsItem item) (h : PlainLines tags ignore resolved lines) :
    ∀ line ∈ lines, ∀ c ∈ line, isLineBreak c = false := by
  obtain ⟨spelling, idle, hspelling, hidle, hperm⟩ := h
  intro line hline
  rcases List.mem_cons.mp (hperm.mem_iff.mp hline) with rfl | hline
  · exact unbroken_plainLine isName_tags (unbroken_line htags)
  rcases List.mem_cons.mp hline with rfl | hline
  · exact unbroken_plainLine isName_ignore (unbroken_line hignore)
  rcases List.mem_cons.mp hline with rfl | hline
  · exact unbroken_plainLine isName_resolved fun c hc => (plain_of_letters hspelling.letters c hc).2
  · exact (hidle line hline).2

/-- The settings that the lines make, in the order of the lines. -/
theorem PlainLines.settings (htags : ∀ item ∈ tags, IsItem item)
    (hignore : ∀ item ∈ ignore, IsItem item) (h : PlainLines tags ignore resolved lines) :
    (lines.filterMap lineSetting?).Perm [("tags", .list (tags.map .text)),
      ("ignore", .list (ignore.map .text)), ("include_resolved", .bool resolved)] := by
  obtain ⟨spelling, idle, hspelling, hidle, hperm⟩ := h
  have hnone : idle.filterMap lineSetting? = [] :=
    List.filterMap_eq_nil_iff.mpr fun line hline => (hidle line hline).1.lineSetting?
  have hset := hperm.filterMap lineSetting?
  rwa [List.filterMap_cons_some (lineSetting?_tags htags),
    List.filterMap_cons_some (lineSetting?_ignore hignore),
    List.filterMap_cons_some (lineSetting?_resolved hspelling), hnone] at hset

/-- What plain settings say does not depend on the order of their lines. -/
theorem PlainLines.valueOf? (htags : ∀ item ∈ tags, IsItem item)
    (hignore : ∀ item ∈ ignore, IsItem item) (h : PlainLines tags ignore resolved lines) :
    ∀ setting ∈ [("tags", Data.list (tags.map .text)), ("ignore", .list (ignore.map .text)),
      ("include_resolved", .bool resolved)],
      Marginalia.valueOf? (legacyEntries lines) setting.1 = some setting.2 := by
  have hsettings := h.settings htags hignore
  have hkeys : ((lines.filterMap lineSetting?).map Prod.fst).Nodup := by
    refine (hsettings.map Prod.fst).nodup_iff.mpr ?_
    exact (by decide : ["tags", "ignore", "include_resolved"].Nodup)
  intro setting hsetting
  rw [legacyEntries_eq, valueOf?_foldl_setEntry _ hkeys,
    valueOf?_of_mem hkeys (hsettings.mem_iff.mpr hsetting)]
  rfl

end Marginalia.Config
