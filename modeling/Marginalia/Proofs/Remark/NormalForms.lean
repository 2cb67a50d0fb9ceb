import Marginalia.Proofs.Ends
import Marginalia.Proofs.Remark.Grammar
import Marginalia.Scan.Source
import Mathlib.Data.Finset.Basic

/-!
# Tags count by their normal forms

What is found on a line depends on the set of normal forms of the tags alone, not on their order,
their number, the size of their letters or the blanks around them: at one place two tags of the
same length are spelled by the same characters, so the longest one is the same whatever the order.
A scanner and a configuration bring tags into normal form before the reader does so again; taking
the normal form twice changes nothing.
-/

namespace Marginalia

open Text (trim trim_trim trim_upperChars_eq upper upperChars upperChars_upperChars)

/-- The tags that a list stands for: the normal forms that are not empty. -/
def normalForms (tags : List String) : Finset (List Char) :=
  (tags.map normalTag).toFinset.erase []

/-- The tags that a scan is asked for, as they are given. -/
def Config.askedTags (config : Config) (override : Option (List String)) : List String :=
  override.getD config.tags ++ if config.includeResolved then resolvedTags else []

variable {tags others : List String} {table : List Marker}

-- ---------------------------------------------------------------------------
-- Normal forms
-- ---------------------------------------------------------------------------

theorem mem_normalForms : tag ∈ normalForms tags ↔ tag ≠ [] ∧ ∃ x ∈ tags, normalTag x = tag := by
  simp [normalForms]

theorem normalTag_upper (tag : String) : normalTag (upper tag) = normalTag tag := by
  simp [normalTag, upper, trim_upperChars_eq]

theorem normalTag_normal (tag : String) :
    normalTag (String.ofList (normalTag tag)) = normalTag tag := by
  simp [normalTag, trim_upperChars_eq]

theorem normalForms_upper (tags : List String) :
    normalForms (tags.map upper) = normalForms tags := by
  ext tag
  simp [mem_normalForms, normalTag_upper]

theorem normalForms_effectiveTags (config : Config) (override : Option (List String)) :
    normalForms (config.effectiveTags override) = normalForms (config.askedTags override) := by
  have hasked : config.effectiveTags override =
      (distinct (((config.askedTags override).map normalTag).filter fun tag => !tag.isEmpty)).map
        String.ofList := by
    cases h : config.includeResolved <;> simp [Config.effectiveTags, Config.askedTags, h]
  ext tag
  simp only [hasked, mem_normalForms, List.mem_map, mem_distinct, List.mem_filter]
  constructor
  · rintro ⟨hne, _, ⟨_, ⟨⟨x, hx, rfl⟩, -⟩, rfl⟩, rfl⟩
    exact ⟨hne, x, hx, (normalTag_normal x).symm⟩
  · rintro ⟨hne, x, hx, rfl⟩
    exact ⟨hne, _, ⟨_, ⟨⟨x, hx, rfl⟩, by simpa using hne⟩, rfl⟩, normalTag_normal x⟩

-- ---------------------------------------------------------------------------
-- Lines
-- ---------------------------------------------------------------------------

theorem spelled_congr (h : normalForms tags = normalForms others) :
    Spelled tags line place tag ↔ Spelled others line place tag := by
  have hknown (tags : List String) : Spelled tags line place tag ↔ tag ∈ normalForms tags ∧
      place + tag.length ≤ line.length ∧ upperChars ((line.drop place).take tag.length) = tag := by
    rw [mem_normalForms]
    constructor
    · rintro ⟨hknown, hne, hfits, hcapitals⟩
      exact ⟨⟨hne, hknown⟩, hfits, hcapitals⟩
    · rintro ⟨⟨hne, hknown⟩, hfits, hcapitals⟩
      exact ⟨hknown, hne, hfits, hcapitals⟩
  rw [hknown tags, hknown others, h]

namespace Tagged

theorem At.congr (h : normalForms tags = normalForms others)
    (hat : At tags table text place found) : At others table text place found where
  boundary := hat.boundary
  spelled := (spelled_congr h).mp hat.spelled
  longest tag htag := hat.longest tag ((spelled_congr h).mpr htag)
  marked := hat.marked

theorem at_congr (h : normalForms tags = normalForms others) :
    At tags table text place found ↔ At others table text place found :=
  ⟨At.congr h, At.congr h.symm⟩

theorem ofLineWith?_eq_some : ofLineWith? table tags line = some found ↔
    ∃ place, At tags table line.toList place found ∧
      ∀ earlier < place, ∀ other, ¬ At tags table line.toList earlier other := by
  have hordered : ∀ tag ∈ orderedTags tags, tag ≠ [] := fun tag htag => (mem_orderedTags.mp htag).2
  simp only [ofLineWith?, scan?_eq_some hordered, foundAt_eq_some, foundAt_eq_none]

theorem ofLineWith?_congr (h : normalForms tags = normalForms others) (table : List Marker)
    (line : String) : ofLineWith? table tags line = ofLineWith? table others line := by
  ext found
  simp only [ofLineWith?_eq_some, at_congr h]

end Tagged

theorem Remark.ofLine?_congr (h : normalForms tags = normalForms others) (file : String)
    (number : Int) (line : String) :
    ofLine? tags file number line = ofLine? others file number line := by
  simp only [ofLine?, Tagged.ofLine?, Tagged.ofLineWith?_congr h]

-- ---------------------------------------------------------------------------
-- Scans
-- ---------------------------------------------------------------------------

namespace Scanner

variable {scanner other : Scanner}

theorem scanText_congr (h : normalForms scanner.tags = normalForms other.tags)
    (source : SourceText) : scanner.scanText source = other.scanText source := by
  have hlines (number : Nat) (l : List (List Char)) :
      scanLines scanner.tags source.path number l = scanLines other.tags source.path number l := by
    induction l generalizing number with
    | nil => rfl
    | cons line rest ih => simp only [scanLines, ih, Remark.ofLine?_congr h]
  exact hlines 1 _

theorem scanTexts_congr (h : normalForms scanner.tags = normalForms other.tags)
    (hignore : scanner.ignore = other.ignore) (sources : List SourceText) :
    scanner.scanTexts sources = other.scanTexts sources := by
  simp only [scanTexts, hignore, funext (scanText_congr h)]

theorem scanFiles_congr (h : normalForms scanner.tags = normalForms other.tags) (root : Path)
    (names : List String) : scanner.scanFiles root names = other.scanFiles root names := by
  induction names with
  | nil => rfl
  | cons name rest ih => simp only [scanFiles, ih, scanText_congr h]

theorem ofConfig_agrees {config : Config} (hdata : config.dataDir = .text spelling)
    (h : Config.overrideTags override = .ok given) : ∃ scanner,
      ofConfig config override = .ok scanner ∧
        normalForms scanner.tags = normalForms (config.askedTags given) := by
  have htags (ignore : List String) :
      normalForms (ofTags (config.effectiveTags given) ignore).tags =
        normalForms (config.askedTags given) := by
    simp only [ofTags, normalForms_upper, normalForms_effectiveTags]
  simp only [ofConfig, hdata, h]
  exact ⟨_, rfl, htags _⟩

end Scanner

/-- Tags count by the set of their normal forms, wherever tags are looked for. A scanner that is set
up by a configuration thus finds what the tags that are asked for say as they are given. -/
theorem tags_count_by_normalForms (tags others : List String) :
    (normalForms tags = normalForms others →
      (∀ table line, Tagged.ofLineWith? table tags line = Tagged.ofLineWith? table others line) ∧
      (∀ file number line,
        Remark.ofLine? tags file number line = Remark.ofLine? others file number line) ∧
      ∀ ignore sources, (Scanner.ofTags tags ignore).scanTexts sources =
        (Scanner.ofTags others ignore).scanTexts sources) ∧
    ∀ (config : Config) (override : Option Data) (given : Option (List String)) (spelling : String),
      config.dataDir = .text spelling → Config.overrideTags override = .ok given →
      ∃ scanner, Scanner.ofConfig config override = .ok scanner ∧
        (∀ table line, Tagged.ofLineWith? table scanner.tags line =
          Tagged.ofLineWith? table (config.askedTags given) line) ∧
        (∀ sources, scanner.scanTexts sources =
          (Scanner.mk (config.askedTags given) scanner.ignore).scanTexts sources) ∧
        ∀ root names, scanner.scanFiles root names =
          (Scanner.mk (config.askedTags given) scanner.ignore).scanFiles root names := by
  constructor
  · intro h
    have hupper : normalForms (tags.map upper) = normalForms (others.map upper) := by
      rw [normalForms_upper, normalForms_upper, h]
    exact ⟨Tagged.ofLineWith?_congr h, Remark.ofLine?_congr h,
      fun _ => Scanner.scanTexts_congr hupper rfl⟩
  · intro config override given spelling hdata hgiven
    obtain ⟨scanner, hscanner, h⟩ := Scanner.ofConfig_agrees hdata hgiven
    exact ⟨scanner, hscanner, Tagged.ofLineWith?_congr h, Scanner.scanTexts_congr h rfl,
      Scanner.scanFiles_congr h⟩

/-- Other letters, blanks, repetitions and another order leave the tags the same. -/
theorem tags_count_by_normalForms_spellings :
    normalForms [" todo", "straße", "TODO", " "] = normalForms ["Strasse\t", "Todo"] ∧
      Tagged.ofLine? [" todo", "straße", "TODO", " "] "# strasse!: x" =
        Tagged.ofLine? ["Strasse\t", "Todo"] "# strasse!: x" ∧
      ∃ scanner, Scanner.ofConfig { root := ⟨.root, []⟩, includeResolved := true }
          (some (.list [.text " fixme"])) = .ok scanner ∧
        Tagged.ofLine? scanner.tags "# Done: x" = some ⟨"DONE", .normal, "x"⟩ := by
  have hforms : normalForms [" todo", "straße", "TODO", " "] =
      normalForms ["Strasse\t", "Todo"] := by decide +kernel
  have hfound : Tagged.ofLine? [" fixme", "DONE", "RESOLVED"] "# Done: x" =
      some ⟨"DONE", .normal, "x"⟩ := by
    have hdistinct : distinct (([" fixme", "DONE", "RESOLVED"].map normalTag).filter
        fun tag => !tag.isEmpty) = ["FIXME".toList, "DONE".toList, "RESOLVED".toList] := by
      decide +kernel
    have hordered : orderedTags [" fixme", "DONE", "RESOLVED"] =
        ["RESOLVED".toList, "FIXME".toList, "DONE".toList] := by
      rw [orderedTags, hdistinct]
      simp [List.mergeSort, List.MergeSort.Internal.splitInTwo]
    rw [Tagged.ofLine?, Tagged.ofLineWith?, hordered]
    decide +kernel
  obtain ⟨hsame, hasked⟩ :=
    tags_count_by_normalForms [" todo", "straße", "TODO", " "] ["Strasse\t", "Todo"]
  obtain ⟨scanner, hscanner, hline, -⟩ := hasked { root := ⟨.root, []⟩, includeResolved := true }
    (some (.list [.text " fixme"])) (some [" fixme"]) ".inline-issues" rfl rfl
  exact ⟨hforms, (hsame hforms).1 markers _, scanner, hscanner, (hline markers _).trans hfound⟩

end Marginalia
