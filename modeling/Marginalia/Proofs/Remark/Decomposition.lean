import Marginalia.Proofs.Remark.Parts

/-!
# Messages cut apart

A message is the part of an owner, the part of a bracket, the part of a ticket id and a rest, in
this order. A part is a token with the longest separator behind it; it is missing only where no
token of its kind stands. This describes the metadata of a message completely.
-/

namespace Marginalia

namespace Text

variable {separator : Char} {text before after : List Char}

theorem separator_notMem_splitFirst? (h : splitFirst? separator text = some (before, after)) :
    separator ∉ before := by
  induction text generalizing before with
  | nil => cases h
  | cons c rest ih =>
    rw [splitFirst?] at h
    split at h
    · cases h
      exact List.not_mem_nil
    · rename_i hc
      obtain ⟨⟨front, behind⟩, hfront, hpair⟩ := Option.map_eq_some_iff.mp h
      cases hpair
      have hne : separator ≠ c := fun heq => hc (heq ▸ beq_self_eq_true c)
      exact List.not_mem_cons_of_ne_of_not_mem hne (ih hfront)

end Text

namespace Metadata

open Text (isWord isDigit isAsciiDigit isAsciiUpper isBlank trim splitFirst? splitFirst?_append)

variable {text content token part separator rest : List Char}
  {Kind : List Char → Prop} {Token : List Char → List Char → Prop}

-- ---------------------------------------------------------------------------
-- Tokens, separators and parts
-- ---------------------------------------------------------------------------

/-- A text of some kind stands in front of a text, and no longer one of the kind does. -/
structure Longest (Kind : List Char → Prop) (front text : List Char) : Prop where
  kind : Kind front
  starts : front <+: text
  greatest : ∀ other, Kind other → other <+: text → other.length ≤ front.length

/-- Blanks with at most one colon among them. -/
inductive Separator : List Char → Prop
  | blanks {blanks : List Char} (h : ∀ c ∈ blanks, c = ' ' ∨ c = '\t') : Separator blanks
  | colon {before after : List Char} (hbefore : ∀ c ∈ before, c = ' ' ∨ c = '\t')
      (hafter : ∀ c ∈ after, c = ' ' ∨ c = '\t') : Separator (before ++ ':' :: after)

inductive OwnerToken : List Char → List Char → Prop
  | intro {owner : List Char} (hne : owner ≠ [])
      (hchars : ∀ c ∈ owner, isWord c = true ∨ c = '-') : OwnerToken owner ('@' :: owner)

inductive BracketToken : List Char → List Char → Prop
  | intro {content : List Char} (hne : content ≠ []) (hcloser : ']' ∉ content) :
      BracketToken content ('[' :: content ++ [']'])

inductive TicketToken : List Char → List Char → Prop
  | round {id : List Char} (h : Ticket id) : TicketToken id ('(' :: id ++ [')'])
  | square {id : List Char} (h : Ticket id) : TicketToken id ('[' :: id ++ [']'])

/-- A part, what its token says, and the text behind the part. -/
inductive Part (Token : List Char → List Char → Prop) :
    List Char → Option (List Char) → List Char → Prop
  | taken {content token separator rest : List Char} (htoken : Token content token)
      (hlongest : Longest (fun other => ∃ said, Token said other) token
        (token ++ (separator ++ rest)))
      (hseparator : Longest Separator separator (separator ++ rest)) :
      Part Token (token ++ separator) (some content) rest
  | missing {rest : List Char} (h : ∀ content token, Token content token → ¬ token <+: rest) :
      Part Token [] none rest

/-- What a bracket says: a date if there is a digit or a hyphen in it, and else a category. -/
inductive Label : Option (List Char) → Option String → Option String → Prop
  | nothing : Label none none none
  | date {content : List Char} (h : ∃ c ∈ content, isDigit c = true ∨ c = '-') :
      Label (some content) (some (String.ofList content)) none
  | category {content : List Char} (h : ∀ c ∈ content, isDigit c = false ∧ c ≠ '-') :
      Label (some content) none (some (String.ofList content))

/-- A text cut into three parts and a rest, and the metadata that they say. -/
structure Decomposition (text : List Char) (m : Metadata) (owner bracket ticket rest : List Char) :
    Prop where
  whole : text = owner ++ (bracket ++ (ticket ++ rest))
  owner : Part OwnerToken owner (m.owner.map String.toList) (bracket ++ (ticket ++ rest))
  bracket : ∃ content, Part BracketToken bracket content (ticket ++ rest) ∧
    Label content m.date m.category
  ticket : Part TicketToken ticket (m.id.map String.toList) rest
  message : m.message.toList = trim rest

-- ---------------------------------------------------------------------------
-- A text has one part of a kind at most
-- ---------------------------------------------------------------------------

theorem Longest.unique {front front' : List Char} (h : Longest Kind front text)
    (h' : Longest Kind front' text) : front = front' := by
  have hle := h.greatest front' h'.kind h'.starts
  have hge := h'.greatest front h.kind h.starts
  exact (List.prefix_of_prefix_length_le h.starts h'.starts hge).eq_of_length (by omega)

theorem Part.unique {part' rest' : List Char} {said said' : Option (List Char)}
    (h : Part Token part said rest) (h' : Part Token part' said' rest')
    (heq : part ++ rest = part' ++ rest')
    (hsaid : ∀ {content content' token}, Token content token → Token content' token →
      content = content') : part = part' ∧ said = said' ∧ rest = rest' := by
  cases h with
  | missing hnone =>
    cases h' with
    | missing => exact ⟨rfl, rfl, heq⟩
    | taken htoken =>
      rw [List.nil_append, List.append_assoc] at heq
      exact absurd (heq ▸ List.prefix_append _ _) (hnone _ _ htoken)
  | taken htoken hlongest hseparator =>
    cases h' with
    | missing hnone =>
      rw [List.nil_append, List.append_assoc] at heq
      exact absurd (heq ▸ List.prefix_append _ _) (hnone _ _ htoken)
    | taken htoken' hlongest' hseparator' =>
      rw [List.append_assoc, List.append_assoc] at heq
      rw [← heq] at hlongest'
      obtain rfl := hlongest.unique hlongest'
      have hbehind := List.append_cancel_left heq
      rw [← hbehind] at hseparator'
      obtain rfl := hseparator.unique hseparator'
      exact ⟨rfl, congrArg some (hsaid htoken htoken'), List.append_cancel_left hbehind⟩

theorem said_owner (h : OwnerToken content token) (h' : OwnerToken content' token) :
    content = content' := by
  cases h
  cases h'
  rfl

theorem said_bracket (h : BracketToken content token) (h' : BracketToken content' token) :
    content = content' := by
  obtain ⟨hne, hcloser⟩ := h
  generalize htoken : '[' :: content ++ [']'] = token at h'
  cases h'
  exact List.append_cancel_right (List.cons.inj htoken).2

theorem said_ticket (h : TicketToken content token) (h' : TicketToken content' token) :
    content = content' := by
  cases h <;> generalize htoken : _ :: content ++ _ = token at h' <;> cases h'
  · exact List.append_cancel_right (List.cons.inj htoken).2
  · cases (List.cons.inj htoken).1
  · cases (List.cons.inj htoken).1
  · exact List.append_cancel_right (List.cons.inj htoken).2

theorem Label.unique {said : Option (List Char)} {date date' category category' : Option String}
    (h : Label said date category) (h' : Label said date' category') :
    date = date' ∧ category = category' := by
  cases h with
  | nothing =>
    cases h'
    exact ⟨rfl, rfl⟩
  | date hdate =>
    obtain ⟨c, hc, hchar⟩ := hdate
    cases h' with
    | date => exact ⟨rfl, rfl⟩
    | category hnone => simp [hnone c hc] at hchar
  | category hnone =>
    cases h' with
    | date hdate =>
      obtain ⟨c, hc, hchar⟩ := hdate
      simp [hnone c hc] at hchar
    | category => exact ⟨rfl, rfl⟩

theorem Decomposition.unique {m m' : Metadata} {a b c a' b' c' rest' : List Char}
    (h : Decomposition text m a b c rest) (h' : Decomposition text m' a' b' c' rest') : m = m' := by
  have hsame {x y : Option String} (heq : x.map String.toList = y.map String.toList) : x = y :=
    Option.map_injective (fun _ _ => String.toList_injective) heq
  obtain ⟨-, howner, hafter⟩ := h.owner.unique h'.owner (h.whole.symm.trans h'.whole) said_owner
  obtain ⟨said, hbracket, hlabel⟩ := h.bracket
  obtain ⟨said', hbracket', hlabel'⟩ := h'.bracket
  obtain ⟨-, rfl, hbehind⟩ := hbracket.unique hbracket' hafter said_bracket
  obtain ⟨hdate, hcategory⟩ := hlabel.unique hlabel'
  obtain ⟨-, hid, rfl⟩ := h.ticket.unique h'.ticket hbehind said_ticket
  have hmessage := String.toList_injective (h.message.trans h'.message.symm)
  obtain ⟨message, owner, date, category, id⟩ := m
  obtain ⟨message', owner', date', category', id'⟩ := m'
  obtain rfl : message = message' := hmessage
  obtain rfl : owner = owner' := hsame howner
  obtain rfl : date = date' := hdate
  obtain rfl : category = category' := hcategory
  obtain rfl : id = id' := hsame hid
  rfl

-- ---------------------------------------------------------------------------
-- The readers take the parts
-- ---------------------------------------------------------------------------

theorem isHorizontalBlank_iff : isHorizontalBlank c = true ↔ c = ' ' ∨ c = '\t' := by
  simp [isHorizontalBlank]

theorem exists_skipBlanks (text : List Char) :
    ∃ blanks, (∀ c ∈ blanks, c = ' ' ∨ c = '\t') ∧ text = blanks ++ skipBlanks text :=
  ⟨text.takeWhile isHorizontalBlank,
    fun _ hc => isHorizontalBlank_iff.mp (List.mem_takeWhile_imp hc),
    List.takeWhile_append_dropWhile.symm⟩

theorem skipBlanks_append {blanks : List Char} (h : ∀ c ∈ blanks, c = ' ' ∨ c = '\t')
    (text : List Char) : skipBlanks (blanks ++ text) = skipBlanks text :=
  List.dropWhile_append_of_pos fun c hc => isHorizontalBlank_iff.mpr (h c hc)

theorem exists_skipSeparator (text : List Char) :
    ∃ separator, Separator separator ∧ text = separator ++ skipSeparator text := by
  obtain ⟨before, hbefore, htext⟩ := exists_skipBlanks text
  unfold skipSeparator
  split
  · rename_i rest hrest
    obtain ⟨after, hafter, hbehind⟩ := exists_skipBlanks rest
    refine ⟨before ++ ':' :: after, .colon hbefore hafter, ?_⟩
    rw [List.append_assoc, List.cons_append, ← hbehind, ← hrest]
    exact htext
  · exact ⟨before, .blanks hbefore, htext⟩

/-- The reader of separators goes on at least as far as any separator. -/
theorem length_skipSeparator_le (h : Separator separator) (text : List Char) :
    (skipSeparator (separator ++ text)).length ≤ text.length := by
  cases h with
  | blanks hblanks =>
    have hskip : skipSeparator (separator ++ text) = skipSeparator text := by
      rw [skipSeparator, skipBlanks_append hblanks, skipSeparator]
    obtain ⟨_, -, htext⟩ := exists_skipSeparator text
    have hlength := congrArg List.length htext
    rw [List.length_append] at hlength
    rw [hskip]
    omega
  | @colon before after hbefore hafter =>
    have hcolon : skipBlanks (':' :: (after ++ text)) = ':' :: (after ++ text) := by
      simp [skipBlanks, isHorizontalBlank]
    have hskip : skipSeparator (before ++ ':' :: after ++ text) = skipBlanks text := by
      rw [List.append_assoc, List.cons_append, skipSeparator, skipBlanks_append hbefore, hcolon]
      exact skipBlanks_append hafter text
    rw [hskip]
    exact (List.dropWhile_sublist isHorizontalBlank).length_le

theorem exists_separator (text : List Char) :
    ∃ separator, text = separator ++ skipSeparator text ∧
      Longest Separator separator (separator ++ skipSeparator text) := by
  obtain ⟨separator, hseparator, htext⟩ := exists_skipSeparator text
  refine ⟨separator, htext, hseparator, List.prefix_append _ _, fun other hother hstarts => ?_⟩
  rw [← htext] at hstarts
  obtain ⟨behind, rfl⟩ := hstarts
  have hle := length_skipSeparator_le hother behind
  have hlength := congrArg List.length htext
  simp only [List.length_append] at hlength
  omega

theorem exists_part (text : List Char) (htoken : Token content token)
    (hlongest : Longest (fun other => ∃ said, Token said other) token (token ++ text)) :
    ∃ part, token ++ text = part ++ skipSeparator text ∧
      Part Token part (some content) (skipSeparator text) := by
  obtain ⟨separator, htext, hseparator⟩ := exists_separator text
  refine ⟨token ++ separator, ?_, .taken htoken ?_ hseparator⟩
  · rw [List.append_assoc, ← htext]
  · rwa [← htext]

theorem length_le_takeWhile {keep : Char → Bool} {front : List Char}
    (h : ∀ c ∈ front, keep c = true) (hstarts : front <+: text) :
    front.length ≤ (text.takeWhile keep).length := by
  obtain ⟨behind, rfl⟩ := hstarts
  rw [List.takeWhile_append_of_pos h, List.length_append]
  exact Nat.le_add_right _ _

theorem isOwnerChar_iff : isOwnerChar c = true ↔ isWord c = true ∨ c = '-' := by
  simp [isOwnerChar]

theorem missing_owner (h : ∀ c rest, isOwnerChar c = true → text ≠ '@' :: c :: rest) :
    Part OwnerToken [] none text := by
  refine .missing fun content token htoken hstarts => ?_
  obtain ⟨behind, rfl⟩ := hstarts
  obtain ⟨hne, hchars⟩ := htoken
  obtain ⟨c, rest, rfl⟩ := List.exists_cons_of_ne_nil hne
  exact h c (rest ++ behind) (isOwnerChar_iff.mpr (hchars c List.mem_cons_self)) rfl

theorem part_owner (text : List Char) : ∃ part, text = part ++ (takeOwner text).2 ∧
    Part OwnerToken part (takeOwner text).1 (takeOwner text).2 := by
  unfold takeOwner
  split
  · rename_i rest
    have hwhole := List.takeWhile_append_dropWhile (p := isOwnerChar) (l := rest)
    split
    · rename_i hnone
      refine ⟨[], rfl, missing_owner fun c behind hc heq => ?_⟩
      rw [(List.cons.inj heq).2, List.takeWhile_cons, if_pos hc] at hnone
      cases hnone
    · rename_i hne
      have htoken : OwnerToken (rest.takeWhile isOwnerChar) ('@' :: rest.takeWhile isOwnerChar) :=
        .intro (fun hnil => hne hnil) fun c hc => isOwnerChar_iff.mp (List.mem_takeWhile_imp hc)
      have hpart := exists_part (rest.dropWhile isOwnerChar) htoken
        ⟨⟨_, htoken⟩, List.prefix_append _ _, ?_⟩
      · rwa [List.cons_append, hwhole] at hpart
      · rintro other ⟨owner, hne, hchars⟩ hstarts
        rw [List.cons_append, hwhole, List.cons_prefix_cons] at hstarts
        have hchars' : ∀ c ∈ owner, isOwnerChar c = true :=
          fun c hc => isOwnerChar_iff.mpr (hchars c hc)
        exact Nat.succ_le_succ (length_le_takeWhile hchars' hstarts.2)
  · rename_i hne
    exact ⟨[], rfl, missing_owner fun c rest _ => hne (c :: rest)⟩

/-- Two texts that are closed by one character, and do not hold it, are the same. -/
theorem eq_of_closed {closer : Char} {content' rest' : List Char} (h : closer ∉ content)
    (h' : closer ∉ content') (heq : content ++ closer :: rest = content' ++ closer :: rest') :
    content = content' := by
  have hsplit : splitFirst? closer (content ++ closer :: rest) = some (content, rest) :=
    splitFirst?_append h
  rw [heq, splitFirst?_append h'] at hsplit
  cases hsplit
  rfl

theorem part_bracket (text : List Char) : ∃ part, text = part ++ (takeBracket text).2 ∧
    Part BracketToken part (takeBracket text).1 (takeBracket text).2 := by
  have hmissing (h : ∀ content after, content ≠ [] → ']' ∉ content →
      text ≠ '[' :: (content ++ ']' :: after)) : Part BracketToken [] none text := by
    refine .missing fun content token htoken hstarts => ?_
    obtain ⟨behind, rfl⟩ := hstarts
    obtain ⟨hne, hcloser⟩ := htoken
    exact h content behind hne hcloser (by simp)
  unfold takeBracket
  split
  · rename_i rest
    split
    · rename_i c inner after hsplit
      have hcloser := Text.separator_notMem_splitFirst? hsplit
      have htoken := BracketToken.intro (List.cons_ne_nil c inner) hcloser
      have hpart := exists_part after htoken ⟨⟨_, htoken⟩, List.prefix_append _ _, ?_⟩
      · rw [Text.splitFirst?_eq_some hsplit]
        simpa using hpart
      · rintro other ⟨content, hne, hcloser'⟩ ⟨behind, hbehind⟩
        have heq : content ++ ']' :: behind = (c :: inner) ++ ']' :: after := by
          simpa using hbehind
        rw [eq_of_closed hcloser' hcloser heq]
    · rename_i hnone
      refine ⟨[], rfl, hmissing fun content after hne hcloser heq => ?_⟩
      obtain ⟨c, inner, rfl⟩ := List.exists_cons_of_ne_nil hne
      refine hnone c inner after ?_
      rw [(List.cons.inj heq).2]
      exact splitFirst?_append hcloser
  · rename_i hne
    exact ⟨[], rfl, hmissing fun content after _ _ => hne _⟩

theorem ticket_of_isTicket (h : isTicket content = true) : Ticket content := by
  unfold isTicket at h
  split at h
  · simp only [Bool.and_eq_true, Bool.not_eq_true', List.isEmpty_eq_false_iff,
      List.all_eq_true] at h
    exact .number h.1 h.2
  · split at h
    · rename_i letters digits hsplit
      simp only [Bool.and_eq_true, Bool.not_eq_true', List.isEmpty_eq_false_iff,
        List.all_eq_true] at h
      obtain ⟨⟨⟨hne, hletters⟩, hne'⟩, hdigits⟩ := h
      rw [Text.splitFirst?_eq_some hsplit]
      exact .coded hne hletters hne' hdigits
    · cases h

/-- A ticket id between an opener and its closer. -/
theorem ticketToken_iff : TicketToken content token ↔ Ticket content ∧ ∃ opener closer,
    ticketCloser? opener = some closer ∧ token = opener :: content ++ [closer] := by
  constructor
  · rintro (hid | hid)
    · exact ⟨hid, '(', ')', rfl, rfl⟩
    · exact ⟨hid, '[', ']', rfl, rfl⟩
  · rintro ⟨hid, opener, closer, hcloser, rfl⟩
    unfold ticketCloser? at hcloser
    split at hcloser
    · rename_i hround
      cases hcloser
      rw [eq_of_beq hround]
      exact .round hid
    · split at hcloser
      · rename_i hsquare
        cases hcloser
        rw [eq_of_beq hsquare]
        exact .square hid
      · cases hcloser

theorem part_ticket (text : List Char) : ∃ part, text = part ++ (takeTicket text).2 ∧
    Part TicketToken part (takeTicket text).1 (takeTicket text).2 := by
  have hmissing (h : ∀ opener closer content after, ticketCloser? opener = some closer →
      Ticket content → text ≠ opener :: (content ++ closer :: after)) :
      Part TicketToken [] none text := by
    refine .missing fun content token htoken hstarts => ?_
    obtain ⟨behind, rfl⟩ := hstarts
    obtain ⟨hid, opener, closer, hcloser, rfl⟩ := ticketToken_iff.mp htoken
    exact h opener closer content behind hcloser hid (by simp)
  unfold takeTicket
  split
  · exact ⟨[], rfl, hmissing fun _ _ _ _ _ _ => List.cons_ne_nil _ _ |>.symm⟩
  · rename_i opener rest
    split
    · rename_i hnone
      refine ⟨[], rfl, hmissing fun opener' closer content after hcloser _ heq => ?_⟩
      rw [← (List.cons.inj heq).1, hnone] at hcloser
      cases hcloser
    · rename_i closer hcloser
      -- What a ticket id in front of the text is, the reader finds up to the first closer.
      have hfound {opener' closer' : Char} {content after : List Char}
          (hcloser' : ticketCloser? opener' = some closer') (hid : Ticket content)
          (heq : opener :: rest = opener' :: (content ++ closer' :: after)) :
          splitFirst? closer rest = some (content, after) ∧ opener' = opener ∧
            closer' = closer := by
        obtain ⟨rfl, rfl⟩ := List.cons.inj heq
        obtain rfl := Option.some.inj (hcloser'.symm.trans hcloser)
        exact ⟨splitFirst?_append (closer_notMem_of_ticket hid hcloser'), rfl, rfl⟩
      split
      · rename_i content after hsplit
        have hrest := Text.splitFirst?_eq_some hsplit
        split
        · rename_i hticket
          have hid := ticket_of_isTicket hticket
          have htoken : TicketToken content (opener :: content ++ [closer]) :=
            ticketToken_iff.mpr ⟨hid, opener, closer, hcloser, rfl⟩
          have hpart := exists_part after htoken ⟨⟨_, htoken⟩, List.prefix_append _ _, ?_⟩
          · rw [hrest]
            simpa using hpart
          · rintro other ⟨content', hother⟩ ⟨behind, hbehind⟩
            obtain ⟨hid', opener', closer', hcloser', rfl⟩ := ticketToken_iff.mp hother
            have hwhole : opener :: rest = opener' :: (content' ++ closer' :: behind) := by
              simpa [hrest] using hbehind.symm
            obtain ⟨hsplit', rfl, rfl⟩ := hfound hcloser' hid' hwhole
            cases hsplit.symm.trans hsplit'
            exact Nat.le_refl _
        · rename_i hticket
          refine ⟨[], rfl, hmissing fun _ _ _ _ hcloser' hid heq => ?_⟩
          cases hsplit.symm.trans (hfound hcloser' hid heq).1
          exact hticket (isTicket_of_ticket hid)
      · rename_i hnone
        refine ⟨[], rfl, hmissing fun _ _ _ _ hcloser' hid heq => ?_⟩
        cases hnone.symm.trans (hfound hcloser' hid heq).1

-- ---------------------------------------------------------------------------
-- Messages
-- ---------------------------------------------------------------------------

theorem isDate_iff : isDate content = true ↔ ∃ c ∈ content, isDigit c = true ∨ c = '-' := by
  simp [isDate]

theorem label_filter (said : Option (List Char)) :
    Label said ((said.filter isDate).map String.ofList)
      ((said.filter fun content => !isDate content).map String.ofList) := by
  cases said with
  | none => exact .nothing
  | some content =>
    cases h : isDate content with
    | true =>
      rw [Option.filter_some_pos h, Option.filter_some_neg (by simp [h])]
      exact .date (isDate_iff.mp h)
    | false =>
      rw [Option.filter_some_neg (by simp [h]), Option.filter_some_pos (by simp [h])]
      refine .category fun c hc => ?_
      have hnone : ¬ (isDigit c = true ∨ c = '-') :=
        fun hchar => Bool.false_ne_true (h.symm.trans (isDate_iff.mpr ⟨c, hc, hchar⟩))
      simpa using hnone

theorem exists_decomposition (s : String) : ∃ owner bracket ticket rest,
    Decomposition (trim s.toList) (ofMessage s) owner bracket ticket rest := by
  have hmap (said : Option (List Char)) : (said.map String.ofList).map String.toList = said := by
    cases said <;> simp
  obtain ⟨owner, howner, hpart⟩ := part_owner (trim s.toList)
  obtain ⟨bracket, hbracket, hpart'⟩ := part_bracket (takeOwner (trim s.toList)).2
  obtain ⟨ticket, hticket, hpart''⟩ := part_ticket (takeBracket (takeOwner (trim s.toList)).2).2
  exact ⟨owner, bracket, ticket, (takeTicket (takeBracket (takeOwner (trim s.toList)).2).2).2,
    { whole := by rw [← hticket, ← hbracket, ← howner]
      owner := by rwa [← hticket, ← hbracket, ofMessage, hmap]
      bracket := ⟨(takeBracket (takeOwner (trim s.toList)).2).1, by rwa [← hticket],
        label_filter _⟩
      ticket := by rwa [ofMessage, hmap]
      message := String.toList_ofList }⟩

theorem Label.exclusive {said : Option (List Char)} {date category : Option String}
    (h : Label said date category) :
    date = none ∨ category = none := by
  cases h with
  | nothing => exact .inl rfl
  | date => exact .inr rfl
  | category => exact .inl rfl

/-- A ticket id in square brackets would be the part of a bracket, if there was none before it. -/
theorem Decomposition.bracket_ne_nil {m : Metadata} {owner bracket ticket : List Char}
    (h : Decomposition text m owner bracket ticket rest) (hsquare : ticket.head? = some '[') :
    bracket ≠ [] := by
  rintro rfl
  obtain ⟨said, hbracket, -⟩ := h.bracket
  have hticket := h.ticket
  generalize hid : m.id.map String.toList = id at hticket
  cases hticket with
  | missing => cases hsquare
  | @taken id token separator _ htoken =>
    cases htoken with
    | round => cases hsquare
    | square hvalid =>
      have hopener : ticketCloser? '[' = some ']' := rfl
      have hcloser : ']' ∉ id := closer_notMem_of_ticket hvalid hopener
      have hne : id ≠ [] := (isWord_ticket (isTicket_of_ticket hvalid)).nonempty
      generalize hnil : [] = part at hbracket
      cases hbracket with
      | taken htoken =>
        cases htoken
        cases hnil
      | missing hnone =>
        exact hnone _ _ (.intro hne hcloser) (List.append_assoc _ _ _ ▸ List.prefix_append _ _)

/-- The parts, the message and the blanks around them are all there is. -/
theorem Decomposition.exists_blanks {s : String} {m : Metadata} {owner bracket ticket : List Char}
    (h : Decomposition (trim s.toList) m owner bracket ticket rest) :
    ∃ front gap back, (∀ c ∈ front ++ (gap ++ back), isBlank c = true) ∧ s.toList =
      front ++ (owner ++ (bracket ++ (ticket ++ (gap ++ (m.message.toList ++ back))))) := by
  obtain ⟨front, back, hfront, hback, houter⟩ := Text.exists_trim s.toList
  obtain ⟨gap, gap', hgap, hgap', hinner⟩ := Text.exists_trim rest
  refine ⟨front, gap, gap' ++ back, ?_, ?_⟩
  · simp only [List.forall_mem_append]
    exact ⟨hfront, hgap, hgap', hback⟩
  · rw [houter, h.whole, h.message]
    nth_rewrite 1 [hinner]
    simp only [List.append_assoc]

/-- The metadata of a message is what its only decomposition says. A date and a category exclude
each other, an id in square brackets follows another bracket, and the message and the parts are
everything but blanks. -/
theorem ofMessage_eq_iff (s : String) (m : Metadata) :
    (ofMessage s = m ↔ ∃ owner bracket ticket rest,
      Decomposition (trim s.toList) m owner bracket ticket rest) ∧
    ∀ owner bracket ticket rest, Decomposition (trim s.toList) m owner bracket ticket rest →
      (m.date = none ∨ m.category = none) ∧ (ticket.head? = some '[' → bracket ≠ []) ∧
      ∃ front gap back, (∀ c ∈ front ++ (gap ++ back), isBlank c = true) ∧ s.toList =
        front ++ (owner ++ (bracket ++ (ticket ++ (gap ++ (m.message.toList ++ back))))) := by
  refine ⟨⟨?_, ?_⟩, ?_⟩
  · rintro rfl
    exact exists_decomposition s
  · rintro ⟨_, _, _, _, h⟩
    obtain ⟨_, _, _, _, hown⟩ := exists_decomposition s
    exact hown.unique h
  · intro owner bracket ticket rest h
    obtain ⟨_, -, hlabel⟩ := h.bracket
    exact ⟨hlabel.exclusive, h.bracket_ne_nil, h.exists_blanks⟩

end Metadata

end Marginalia
