import Marginalia.Data.Json.Printer
import Marginalia.Data.Json.Reader
import Marginalia.Proofs.Data.Entries
import Marginalia.Proofs.Ends

/-!
# What is printed is read

The text of a value, put anywhere where a value is due, takes the reader on to where it is after the
value. Texts, switches, lists and objects are put together from their parts.
-/

namespace Marginalia.Json

open Text (hexDigit hexDigits)

variable {c : Char} {cs rest : List Char} {done : List Nat}

-- ---------------------------------------------------------------------------
-- Characters between quotes
-- ---------------------------------------------------------------------------

/-- The codes that a character is written with: its own, or two surrogates. -/
def codes (c : Char) : List Nat :=
  if c.toNat < 0x10000 then [c.toNat]
  else [0xD800 + (c.toNat - 0x10000) / 0x400, 0xDC00 + (c.toNat - 0x10000) % 0x400]

/-- No character is a surrogate. -/
theorem toNat_valid (c : Char) : c.toNat < 0xD800 ∨ 0xDFFF < c.toNat ∧ c.toNat < 0x110000 := c.valid

theorem isSurrogate_toNat (c : Char) : isSurrogate c.toNat = false := by
  have hvalid := toNat_valid c
  simp only [isSurrogate, Bool.and_eq_false_iff, decide_eq_false_iff_not]
  omega

theorem joinPairs?_own (c : Char) (more : List Nat) :
    joinPairs? (c.toNat :: more) = (joinPairs? more).map (c :: ·) := by
  cases more with
  | nil => simp [joinPairs?, isSurrogate_toNat]
  | cons next more =>
    have hown : ¬(0xD800 ≤ c.toNat ∧ c.toNat ≤ 0xDBFF) := by
      have hvalid := toNat_valid c
      omega
    rw [joinPairs?, if_neg (by simpa using fun h₁ h₂ => absurd ⟨h₁, h₂⟩ hown), isSurrogate_toNat,
      if_neg Bool.false_ne_true, Char.ofNat_toNat]

theorem joinPairs?_codes (cs : List Char) : joinPairs? (cs.flatMap codes) = some cs := by
  induction cs with
  | nil => rfl
  | cons c rest ih =>
    have hvalid := toNat_valid c
    rw [List.flatMap_cons, codes]
    split
    · rw [List.singleton_append, joinPairs?_own, ih, Option.map_some]
    · rename_i hhigh
      have hvalue : 0x10000 + (0xD800 + (c.toNat - 0x10000) / 0x400 - 0xD800) * 0x400 +
          (0xDC00 + (c.toNat - 0x10000) % 0x400 - 0xDC00) = c.toNat := by omega
      have hpair : 0xD800 + (c.toNat - 0x10000) / 0x400 ≤ 0xDBFF ∧
          0xDC00 + (c.toNat - 0x10000) % 0x400 ≤ 0xDFFF := by omega
      rw [List.cons_append, List.singleton_append, joinPairs?, if_pos (by simp [hpair]), hvalue, ih,
        Char.ofNat_toNat, Option.map_some]

/-- Half of a pair is not taken for the zero character. -/
example : joinPairs? [0xD800, 0x41] = none ∧ joinPairs? [0] = some ['\x00'] := by decide

theorem hexValue?_hexDigit (h : n < 16) : hexValue? (hexDigit n) = some n :=
  (by decide : ∀ n < 16, hexValue? (hexDigit n) = some n) n h

theorem tokens_code (h : n < 0x10000) : tokensFrom (.code done 4 0) (hexDigits 4 n ++ rest) =
    tokensFrom (.quoted (n :: done)) rest := by
  have hdigit (m : Nat) : hexValue? (hexDigit (m % 16)) = some (m % 16) :=
    hexValue?_hexDigit (Nat.mod_lt m (by decide))
  have hvalue : ((n / 16 / 16 / 16 % 16 * 16 + n / 16 / 16 % 16) * 16 + n / 16 % 16) * 16 + n % 16
      = n := by omega
  simp [hexDigits, tokensFrom, hdigit, hvalue]

theorem tokens_escape (h : n < 0x10000) :
    tokensFrom (.quoted done) ('\\' :: 'u' :: hexDigits 4 n ++ rest) =
      tokensFrom (.quoted (n :: done)) rest := by
  rw [← tokens_code h]
  rfl

theorem tokens_escaped (c : Char) : tokensFrom (.quoted done) (escaped c ++ rest) =
    tokensFrom (.quoted ((codes c).reverse ++ done)) rest := by
  have hvalid := toNat_valid c
  unfold escaped
  dsimp only
  split
  · rename_i h
    rcases Bool.or_eq_true_iff.mp h with h | h <;> rw [eq_of_beq h] <;> rfl
  iterate 5
    split
    · rename_i h
      rw [eq_of_beq h]
      rfl
  split
  · rename_i hquote _ _ _ _ _ hprint
    simp only [Bool.or_eq_true, beq_iff_eq, not_or] at hquote
    simp only [Bool.and_eq_true, decide_eq_true_eq] at hprint
    have hsmall : ¬c.toNat < 0x20 := by omega
    have hcodes : codes c = [c.toNat] := if_pos (by omega)
    simp [tokensFrom, hquote, hsmall, hcodes]
  · split
    · rename_i hlow
      rw [tokens_escape hlow, codes, if_pos hlow]
      rfl
    · rename_i hhigh
      rw [List.append_assoc, tokens_escape (by omega), tokens_escape (by omega), codes,
        if_neg hhigh]
      rfl

theorem tokens_quoted (cs : List Char) (done : List Nat) :
    tokensFrom (.quoted done) (cs.flatMap escaped ++ rest) =
      tokensFrom (.quoted ((cs.flatMap codes).reverse ++ done)) rest := by
  induction cs generalizing done with
  | nil => rfl
  | cons c cs ih =>
    rw [List.flatMap_cons, List.append_assoc, tokens_escaped, ih, List.flatMap_cons,
      List.reverse_append, List.append_assoc]

theorem tokens_text (s : String) (rest : List Char) :
    tokensFrom (.run []) ((textLiteral s).toList ++ rest) =
      .value (.text s) :: tokensFrom (.run []) rest := by
  have htext : (textLiteral s).toList ++ rest =
      '"' :: (s.toList.flatMap escaped ++ '"' :: rest) := by simp [textLiteral]
  have hopen (cs : List Char) : tokensFrom (.run []) ('"' :: cs) = tokensFrom (.quoted []) cs := rfl
  have hclose : tokensFrom (.quoted (s.toList.flatMap codes).reverse) ('"' :: rest) =
      .value (.text s) :: tokensFrom (.run []) rest := by
    rw [tokensFrom, if_pos (by decide), List.reverse_reverse, joinPairs?_codes]
    exact congrArg (fun text => .value (.text text) :: tokensFrom (.run []) rest)
      String.ofList_toList
  rw [htext, hopen, tokens_quoted, List.append_nil, hclose]

theorem return_notMem_hexDigits (width n : Nat) : '\r' ∉ hexDigits width n := by
  have hdigit : ∀ d < 16, hexDigit d ≠ '\r' := by decide
  induction width generalizing n with
  | zero => exact List.not_mem_nil
  | succ width ih =>
    rw [hexDigits, List.mem_append, List.mem_singleton]
    exact not_or.mpr ⟨ih _, Ne.symm (hdigit _ (Nat.mod_lt n (by decide)))⟩

theorem return_notMem_escaped (c : Char) : '\r' ∉ escaped c := by
  have hescape (n : Nat) : '\r' ∉ '\\' :: 'u' :: hexDigits 4 n :=
    List.not_mem_cons_of_ne_of_not_mem (by decide)
      (List.not_mem_cons_of_ne_of_not_mem (by decide) (return_notMem_hexDigits 4 n))
  unfold escaped
  dsimp only
  split
  · rename_i h
    rcases Bool.or_eq_true_iff.mp h with h | h <;> rw [eq_of_beq h] <;> decide
  iterate 5
    split
    · decide
  split
  · rename_i hprint
    intro h
    rw [← List.mem_singleton.mp h] at hprint
    cases hprint
  · split
    · exact hescape _
    · exact fun h => (List.mem_append.mp h).elim (hescape _) (hescape _)

theorem return_notMem_text (s : String) : '\r' ∉ (textLiteral s).toList := by
  intro h
  have hmem : ∃ c ∈ s.toList, '\r' ∈ escaped c := by simpa [textLiteral] using h
  obtain ⟨c, -, hc⟩ := hmem
  exact return_notMem_escaped c hc

-- ---------------------------------------------------------------------------
-- Values
-- ---------------------------------------------------------------------------

/-- No run of characters goes on into the text. -/
def Delimits (rest : List Char) : Prop :=
  ∀ c ∈ rest.head?, isSpace c = true ∨ (punctuation? c).isSome

/-- Where the reader comes to from a state. -/
def resume (state : State) (cs : List Char) : Except Fault State :=
  (tokensFrom (.run []) cs).foldlM State.step state

/-- A text writes a value with so many levels: where a value is due, the reader goes on behind it as
if it had the value, and it is not the end of a list. No line end in it could be taken for
another. -/
structure Writes (levels : Nat) (cs : List Char) (data : Data) : Prop where
  unreturned : '\r' ∉ cs
  value : ∀ stack rest, stack.length + levels ≤ depthLimit → Delimits rest →
    resume (.value stack) (cs ++ rest) = resume (.place data stack) rest
  opens : ∀ rest, Delimits rest → ∃ token more, token ≠ .closeList ∧
    tokensFrom (.run []) (cs ++ rest) = token :: more

variable {state state' : State} {stack : List Frame} {token : Token} {data : Data}
variable {levels : Nat} {level : Option Nat}

theorem Writes.weaken {levels' : Nat} (h : Writes levels cs data) (hlevels : levels ≤ levels') :
    Writes levels' cs data :=
  ⟨h.unreturned, fun stack rest hstack => h.value stack rest (by omega), h.opens⟩

theorem resume_cons (htokens : tokensFrom (.run []) cs = token :: tokensFrom (.run []) rest)
    (hstep : state.step token = .ok state') : resume state cs = resume state' rest := by
  rw [resume, htokens, List.foldlM_cons, hstep]
  rfl

theorem tokens_space (h : isSpace c = true) :
    tokensFrom (.run []) (c :: rest) = tokensFrom (.run []) rest := by
  rw [tokensFrom, if_pos h]
  rfl

theorem resume_spaces (h : ∀ c ∈ cs, isSpace c = true) (rest : List Char) :
    resume state (cs ++ rest) = resume state rest := by
  induction cs with
  | nil => rfl
  | cons c cs ih =>
    obtain ⟨hc, hcs⟩ := List.forall_mem_cons.mp h
    rw [← ih hcs, resume, List.cons_append, tokens_space hc]
    rfl

theorem return_notMem_lineBreak (level : Option Nat) : '\r' ∉ (lineBreak level).toList := by
  cases level <;> simp [lineBreak]

theorem return_notMem_separator (level : Option Nat) : '\r' ∉ (separatorText level).toList := by
  cases level with
  | none => decide
  | some n =>
    rw [separatorText, String.toList_append, List.mem_append]
    exact not_or.mpr ⟨by decide, return_notMem_lineBreak _⟩

theorem delimits_append (h : ∀ c ∈ cs, isSpace c = true) (hrest : Delimits rest) :
    Delimits (cs ++ rest) := by
  cases cs with
  | nil => exact hrest
  | cons c cs =>
    rintro _ ⟨⟩
    exact .inl (h c List.mem_cons_self)

theorem space_lineBreak (level : Option Nat) :
    ∀ c ∈ (lineBreak level).toList, isSpace c = true := by
  cases level with
  | none => exact List.forall_mem_nil _
  | some n =>
    intro c hc
    simp only [lineBreak, String.toList_append, String.toList_ofList, List.mem_append,
      List.mem_replicate] at hc
    rcases hc with hc | ⟨-, rfl⟩
    · obtain rfl : c = '\n' := by simpa using hc
      rfl
    · rfl

theorem tokens_run (h : Delimits rest) (done : List Char) :
    tokensFrom (.run done) rest = endRun done ++ tokensFrom (.run []) rest := by
  cases rest with
  | nil => exact (List.append_nil _).symm
  | cons c rest =>
    rcases h c rfl with hspace | hpunctuation
    · rw [tokens_space hspace, tokensFrom, if_pos hspace]
    · obtain ⟨token, htoken⟩ := Option.isSome_iff_exists.mp hpunctuation
      have hquote : ¬(c == '"') = true := by
        intro hc
        rw [eq_of_beq hc] at htoken
        cases htoken
      by_cases hspace : isSpace c = true
      · rw [tokens_space hspace, tokensFrom, if_pos hspace]
      · simp only [tokensFrom, hspace, hquote, htoken]
        rfl

theorem writes_text (level : Option Nat) (s : String) :
    Writes 0 (render level (.text s)).toList (.text s) where
  unreturned := by
    rw [render]
    exact return_notMem_text s
  value stack rest _ _ := by
    rw [render]
    exact resume_cons (tokens_text s rest) rfl
  opens rest _ := by
    rw [render, tokens_text]
    exact ⟨.value (.text s), _, nofun, rfl⟩

theorem writes_bool (level : Option Nat) (b : Bool) :
    Writes 0 (render level (.bool b)).toList (.bool b) := by
  have htokens {rest : List Char} (h : Delimits rest) :
      tokensFrom (.run []) ((render level (.bool b)).toList ++ rest) =
        .value (.bool b) :: tokensFrom (.run []) rest := by
    rw [render]
    cases b
    · exact tokens_run h "false".toList.reverse
    · exact tokens_run h "true".toList.reverse
  refine ⟨?_, fun stack rest _ h => resume_cons (htokens h) rfl, fun rest h => ?_⟩
  · rw [render]
    cases b <;> decide
  · rw [htokens h]
    exact ⟨.value (.bool b), _, nofun, rfl⟩

-- ---------------------------------------------------------------------------
-- Lists
-- ---------------------------------------------------------------------------

theorem exists_gap (level : Option Nat) :
    ∃ gap, (∀ c ∈ gap, isSpace c = true) ∧ (separatorText level).toList = ',' :: gap := by
  cases level with
  | none => exact ⟨[' '], List.forall_mem_singleton.mpr rfl, rfl⟩
  | some n => exact ⟨_, space_lineBreak (some n), by simp [separatorText]⟩

/-- The reader behind a comma, and the line end or the blank that follows. -/
theorem resume_separator (level : Option Nat) (hstep : state.step .comma = .ok state')
    (rest : List Char) :
    resume state ((separatorText level).toList ++ rest) = resume state' rest := by
  obtain ⟨gap, hgap, htext⟩ := exists_gap level
  rw [htext]
  exact (resume_cons rfl hstep).trans (resume_spaces hgap rest)

/-- What ends a value in a list or an object. -/
theorem delimits_cons (h : (punctuation? c).isSome) (rest : List Char) : Delimits (c :: rest) := by
  rintro _ ⟨⟩
  exact .inr h

theorem delimits_separator (level : Option Nat) (rest : List Char) :
    Delimits ((separatorText level).toList ++ rest) := by
  obtain ⟨gap, -, htext⟩ := exists_gap level
  rw [htext]
  exact delimits_cons rfl _

theorem delimits_lineBreak (level : Option Nat) (h : (punctuation? c).isSome) (rest : List Char) :
    Delimits ((lineBreak level).toList ++ c :: rest) :=
  delimits_append (space_lineBreak level) (delimits_cons h rest)

theorem renderItems_cons (level : Option Nat) (item next : Data) (more : List Data) :
    (renderItems level (item :: next :: more)).toList =
      (render level item).toList ++ ((separatorText level).toList ++
        (renderItems level (next :: more)).toList) := by
  simp [renderItems]

theorem resume_items (items : List Data) (item : Data)
    (hitems : ∀ data ∈ item :: items, Writes levels (render level data).toList data)
    (outer : Option Nat) (stack : List Frame) (done : List Data) (rest : List Char)
    (hlevels : stack.length + 1 + levels ≤ depthLimit) :
    resume (.value (.items done :: stack)) ((renderItems level (item :: items)).toList ++
        ((lineBreak outer).toList ++ ']' :: rest)) =
      resume (.place (.list (done.reverse ++ item :: items)) stack) rest := by
  induction items generalizing item done with
  | nil =>
    rw [renderItems, (hitems item List.mem_cons_self).value (.items done :: stack) _ hlevels
      (delimits_lineBreak outer rfl rest), resume_spaces (space_lineBreak outer)]
    refine resume_cons rfl ?_
    simp [State.place, State.step]
  | cons next more ih =>
    obtain ⟨hitem, hmore⟩ := List.forall_mem_cons.mp hitems
    rw [renderItems_cons, List.append_assoc, List.append_assoc,
      hitem.value (.items done :: stack) _ hlevels (delimits_separator level _), State.place,
      resume_separator level rfl, ih next hmore]
    simp

theorem return_notMem_items (items : List Data) (item : Data)
    (hitems : ∀ data ∈ item :: items, Writes levels (render level data).toList data) :
    '\r' ∉ (renderItems level (item :: items)).toList := by
  induction items generalizing item with
  | nil => exact (hitems item List.mem_cons_self).unreturned
  | cons next more ih =>
    obtain ⟨hitem, hmore⟩ := List.forall_mem_cons.mp hitems
    rw [renderItems_cons, List.mem_append, List.mem_append]
    exact not_or.mpr ⟨hitem.unreturned, not_or.mpr ⟨return_notMem_separator level, ih next hmore⟩⟩

theorem exists_behind (items : List Data) (item : Data) (level outer : Option Nat)
    (rest : List Char) : ∃ behind, Delimits behind ∧
      (renderItems level (item :: items)).toList ++ ((lineBreak outer).toList ++ ']' :: rest) =
        (render level item).toList ++ behind := by
  cases items with
  | nil => exact ⟨_, delimits_lineBreak outer rfl rest, by rw [renderItems]⟩
  | cons next more =>
    exact ⟨_, delimits_separator level _, by
      rw [renderItems_cons, List.append_assoc, List.append_assoc]⟩

/-- Where the first item or the end of a list is due, an item is taken like any other. -/
theorem Writes.first (h : Writes levels cs data) (stack : List Frame) (hrest : Delimits rest) :
    resume (.firstItem stack) (cs ++ rest) = resume (.value (.items [] :: stack)) (cs ++ rest) := by
  obtain ⟨token, more, htoken, htokens⟩ := h.opens rest hrest
  have hstep : State.step (.firstItem stack) token =
      State.step (.value (.items [] :: stack)) token := by
    cases token
    case closeList => exact absurd rfl htoken
    all_goals rfl
  rw [resume, resume, htokens, List.foldlM_cons, List.foldlM_cons, hstep]

theorem writes_list {items : List Data}
    (hitems : ∀ item ∈ items, Writes levels (render (level.map (· + 1)) item).toList item) :
    Writes (levels + 1) (render level (.list items)).toList (.list items) := by
  have hopen (cs : List Char) (stack : List Frame) (h : stack.length + (levels + 1) ≤ depthLimit) :
      resume (.value stack) ('[' :: cs) = resume (.firstItem stack) cs := by
    refine resume_cons rfl (if_pos ?_)
    omega
  cases items with
  | nil =>
    rw [render]
    refine ⟨by decide, fun stack rest hlevels _ => ?_,
      fun rest _ => ⟨.openList, tokensFrom (.run []) (']' :: rest), nofun, rfl⟩⟩
    exact (hopen (']' :: rest) stack hlevels).trans (resume_cons rfl rfl)
  | cons item more =>
    have htext (rest : List Char) : (render level (.list (item :: more))).toList ++ rest =
        '[' :: ((lineBreak (level.map (· + 1))).toList ++
          ((renderItems (level.map (· + 1)) (item :: more)).toList ++
            ((lineBreak level).toList ++ ']' :: rest))) := by simp [render]
    refine ⟨?_, fun stack rest hlevels _ => ?_, fun rest _ => ?_⟩
    · have hbody := return_notMem_items more item hitems
      simp [render, return_notMem_lineBreak, hbody]
    · obtain ⟨behind, hbehind, hitem⟩ :=
        exists_behind more item (level.map (· + 1)) level rest
      rw [htext, hopen _ _ hlevels, resume_spaces (space_lineBreak _), hitem,
        (hitems item List.mem_cons_self).first stack hbehind, ← hitem,
        resume_items more item hitems level stack [] rest (by omega)]
      rfl
    · rw [htext]
      exact ⟨.openList, _, nofun, rfl⟩

-- ---------------------------------------------------------------------------
-- Objects
-- ---------------------------------------------------------------------------

theorem renderEntries_single (level : Option Nat) (entry : String × Data) :
    (renderEntries level [entry]).toList =
      (textLiteral entry.1).toList ++ ':' :: ' ' :: (render level entry.2).toList := by
  simp [renderEntries]

theorem renderEntries_cons (level : Option Nat) (entry next : String × Data)
    (more : List (String × Data)) :
    (renderEntries level (entry :: next :: more)).toList =
      (textLiteral entry.1).toList ++ ':' :: ' ' :: ((render level entry.2).toList ++
        ((separatorText level).toList ++ (renderEntries level (next :: more)).toList)) := by
  simp [renderEntries]

theorem return_notMem_entries (entries : List (String × Data)) (entry : String × Data)
    (hentries : ∀ e ∈ entry :: entries, Writes levels (render level e.2).toList e.2) :
    '\r' ∉ (renderEntries level (entry :: entries)).toList := by
  induction entries generalizing entry with
  | nil =>
    have hvalue := (hentries entry List.mem_cons_self).unreturned
    simp [renderEntries_single, return_notMem_text, hvalue]
  | cons next more ih =>
    obtain ⟨hentry, hmore⟩ := List.forall_mem_cons.mp hentries
    simp [renderEntries_cons, return_notMem_text, return_notMem_separator, hentry.unreturned,
      ih next hmore]

/-- The reader behind a key and its colon. -/
theorem resume_key {name : String} {entries : List (String × Data)}
    (hstep : state.step (.value (.text name)) = .ok (.colon stack entries name))
    (rest : List Char) :
    resume state ((textLiteral name).toList ++ ':' :: ' ' :: rest) =
      resume (.value (.entry entries name :: stack)) rest := by
  have hblank : ∀ c ∈ [' '], isSpace c = true := List.forall_mem_singleton.mpr rfl
  have hcolon : resume (.colon stack entries name) (':' :: ' ' :: rest) =
      resume (.value (.entry entries name :: stack)) rest :=
    (resume_cons rfl rfl).trans (resume_spaces hblank rest)
  exact (resume_cons (tokens_text name _) hstep).trans hcolon

theorem fresh_of_nodup {before entries : List (String × Data)} {entry : String × Data}
    (hkeys : ((before ++ entry :: entries).map Prod.fst).Nodup) :
    entry.1 ∉ before.map Prod.fst := by
  rw [List.map_append, List.nodup_append] at hkeys
  exact fun hmem => hkeys.2.2 _ hmem _ List.mem_cons_self rfl

theorem resume_entries (entries : List (String × Data)) (entry : String × Data)
    (hentries : ∀ e ∈ entry :: entries, Writes levels (render level e.2).toList e.2)
    (outer : Option Nat) (stack : List Frame) (before : List (String × Data)) (rest : List Char)
    (hkeys : ((before ++ entry :: entries).map Prod.fst).Nodup)
    (hstep : state.step (.value (.text entry.1)) = .ok (.colon stack before entry.1))
    (hlevels : stack.length + 1 + levels ≤ depthLimit) :
    resume state ((renderEntries level (entry :: entries)).toList ++
        ((lineBreak outer).toList ++ '\x7d' :: rest)) =
      resume (.place (.object (before ++ entry :: entries)) stack) rest := by
  induction entries generalizing entry before state with
  | nil =>
    rw [renderEntries_single, List.append_assoc, List.cons_append, List.cons_append,
      resume_key hstep, (hentries entry List.mem_cons_self).value (.entry before entry.1 :: stack) _
        hlevels (delimits_lineBreak outer rfl rest), State.place, resume_spaces
        (space_lineBreak outer), setEntry_of_notMem (fresh_of_nodup hkeys)]
    exact resume_cons rfl rfl
  | cons next more ih =>
    obtain ⟨hentry, hmore⟩ := List.forall_mem_cons.mp hentries
    rw [renderEntries_cons, List.append_assoc, List.cons_append, List.cons_append,
      resume_key hstep, List.append_assoc, hentry.value (.entry before entry.1 :: stack) _ hlevels
        (by rw [List.append_assoc]; exact delimits_separator level _), State.place,
      setEntry_of_notMem (fresh_of_nodup hkeys), List.append_assoc, resume_separator level rfl,
      ih next hmore (before ++ [entry])]
    · simp
    · simpa using hkeys
    · rfl

theorem writes_object {entries : List (String × Data)} (hkeys : (entries.map Prod.fst).Nodup)
    (hentries : ∀ e ∈ entries, Writes levels (render (level.map (· + 1)) e.2).toList e.2) :
    Writes (levels + 1) (render level (.object entries)).toList (.object entries) := by
  have hopen (cs : List Char) (stack : List Frame) (h : stack.length + (levels + 1) ≤ depthLimit) :
      resume (.value stack) ('\x7b' :: cs) = resume (.firstKey stack) cs := by
    refine resume_cons rfl (if_pos ?_)
    omega
  cases entries with
  | nil =>
    rw [render]
    refine ⟨by decide, fun stack rest hlevels _ => ?_,
      fun rest _ => ⟨.openObject, tokensFrom (.run []) ('\x7d' :: rest), nofun, rfl⟩⟩
    exact (hopen ('\x7d' :: rest) stack hlevels).trans (resume_cons rfl rfl)
  | cons entry more =>
    have htext (rest : List Char) : (render level (.object (entry :: more))).toList ++ rest =
        '\x7b' :: ((lineBreak (level.map (· + 1))).toList ++
          ((renderEntries (level.map (· + 1)) (entry :: more)).toList ++
            ((lineBreak level).toList ++ '\x7d' :: rest))) := by simp [render]
    refine ⟨?_, fun stack rest hlevels _ => ?_, fun rest _ => ?_⟩
    · have hbody := return_notMem_entries more entry hentries
      simp [render, return_notMem_lineBreak, hbody]
    · rw [htext, hopen _ _ hlevels, resume_spaces (space_lineBreak _),
        resume_entries more entry hentries level stack [] rest hkeys rfl (by omega)]
      rfl
    · rw [htext]
      exact ⟨.openObject, _, nofun, rfl⟩

/-- What is written is read, if it is not too deep. -/
theorem Writes.read (h : Writes levels cs data) (hlevels : levels ≤ depthLimit) :
    read cs = .ok data := by
  have hend : Delimits [] := nofun
  have hvalue := h.value [] [] (by simpa using hlevels) hend
  rw [List.append_nil] at hvalue
  rw [Json.read]
  exact bind_ok.mpr ⟨.finished data, hvalue, rfl⟩

end Marginalia.Json
