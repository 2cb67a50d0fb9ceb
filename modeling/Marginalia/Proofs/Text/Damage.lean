import Marginalia.Proofs.Text.Parts
import Marginalia.Text.Utf8

/-!
# Damaged texts

Damage does not reach beyond the line it is in. A byte that ends a line is never taken for part of a
longer character, and no other bytes make a line end, so that the lines of a text are the lines of
its bytes, each one repaired on its own. The induction is on the bytes, from any state in which the
reader can be inside a character.
-/

namespace Marginalia.Text

variable {pending pending' : Pending} {state : Option Pending} {b : UInt8} {bytes rest : Bytes}
variable {c : Char} {cs : List Char}

-- ---------------------------------------------------------------------------
-- Lines of bytes
-- ---------------------------------------------------------------------------

/-- A byte that ends a line: a line feed or a carriage return. -/
def endsLine (b : UInt8) : Bool := b == 0x0A || b == 0x0D

/-- How many line ends there are. A carriage return and its line feed are one. -/
def lineEnds : Bytes → Nat
  | [] => 0
  | 0x0D :: 0x0A :: rest => lineEnds rest + 1
  | b :: rest => lineEnds rest + if endsLine b then 1 else 0

/-- The lines of bytes, without their ends. -/
def byteLines : Bytes → List Bytes
  | [] => [[]]
  | 0x0D :: 0x0A :: rest => [] :: byteLines rest
  | b :: rest =>
    if endsLine b then [] :: byteLines rest
    else
      match byteLines rest with
      | [] => [[b]]
      | line :: more => (b :: line) :: more

theorem exists_byteLines (bytes : Bytes) : ∃ line more, byteLines bytes = line :: more := by
  induction bytes using lineEnds.induct with
  | case1 => exact ⟨_, _, rfl⟩
  | case2 rest ih => exact ⟨_, _, rfl⟩
  | case3 b rest hb ih =>
    rw [byteLines.eq_3 b rest hb]
    split
    · exact ⟨_, _, rfl⟩
    · split <;> exact ⟨_, _, rfl⟩

theorem byteLines_end (h : endsLine b = true) (rest : Bytes) :
    ∃ more, byteLines (b :: rest) = [] :: more := by
  by_cases hreturn : ∃ after, b = 0x0D ∧ rest = 0x0A :: after
  · obtain ⟨after, rfl, rfl⟩ := hreturn
    exact ⟨_, rfl⟩
  · rw [byteLines.eq_3 b rest fun after hb hrest => hreturn ⟨after, hb, hrest⟩, if_pos h]
    exact ⟨_, rfl⟩

theorem byteLines_cons (h : endsLine b = false) (hrest : byteLines rest = line :: more) :
    byteLines (b :: rest) = (b :: line) :: more := by
  have hb : ∀ after, b = 0x0D → rest = 0x0A :: after → False := by
    rintro after rfl -
    cases h
  rw [byteLines.eq_3 b rest hb, hrest]
  simp [h]

-- ---------------------------------------------------------------------------
-- Repairing from any state
-- ---------------------------------------------------------------------------

/-- What stands for a piece: the character, or one sign for a broken sequence. -/
def pieceChar : Except Malformed Char → Char
  | .ok c => c
  | .error _ => Char.ofNat 0xFFFD

/-- The characters from a state of the reader on. -/
def repaired (state : Option Pending) (bytes : Bytes) : List Char :=
  (piecesFrom 0 state bytes).map pieceChar

theorem repairBytes_eq (bytes : Bytes) : repairBytes bytes = repaired none bytes := rfl

theorem map_piecesFrom (position : Nat) (state : Option Pending) (bytes : Bytes) :
    (piecesFrom position state bytes).map pieceChar = repaired state bytes := by
  suffices h : ∀ position', (piecesFrom position state bytes).map pieceChar =
      (piecesFrom position' state bytes).map pieceChar from h 0
  intro position'
  induction bytes generalizing position position' state with
  | nil => cases state <;> rfl
  | cons b rest ih =>
    have hnext (state : Option Pending) : (piecesFrom (position + 1) state rest).map pieceChar =
        (piecesFrom (position' + 1) state rest).map pieceChar := ih _ _ _
    cases state with
    | none =>
      simp only [piecesFrom]
      cases firstByte b <;> simp [hnext, pieceChar]
    | some pending =>
      simp only [piecesFrom]
      cases pending.nextByte b with
      | complete c => simp [hnext]
      | more pending' => exact hnext _
      | refused => cases firstByte b <;> simp [hnext, pieceChar]

theorem repaired_first (b : UInt8) (rest : Bytes) : repaired none (b :: rest) =
    match firstByte b with
    | .complete c => c :: repaired none rest
    | .more pending => repaired (some pending) rest
    | .refused => Char.ofNat 0xFFFD :: repaired none rest := by
  rw [repaired, piecesFrom]
  cases firstByte b <;> simp [map_piecesFrom, pieceChar]

theorem repaired_next (pending : Pending) (b : UInt8) (rest : Bytes) :
    repaired (some pending) (b :: rest) =
      match pending.nextByte b with
      | .complete c => c :: repaired none rest
      | .more pending' => repaired (some pending') rest
      | .refused => Char.ofNat 0xFFFD :: repaired none (b :: rest) := by
  rw [repaired_first, repaired, piecesFrom]
  cases pending.nextByte b with
  | refused => cases firstByte b <;> simp [map_piecesFrom, pieceChar]
  | _ => simp [map_piecesFrom, pieceChar]

-- ---------------------------------------------------------------------------
-- Characters of several bytes
-- ---------------------------------------------------------------------------

/-- What the reader knows inside a character: the next byte is none of ASCII, and the number that
is read is none of those below, where the line ends are. -/
structure Pending.Sound (pending : Pending) : Prop where
  low : 0x80 ≤ pending.low
  value : 0x10 ≤ pending.value * 0x40 + (pending.low - 0x80)

theorem sound_start : ∀ pending ∈ (none : Option Pending), pending.Sound := nofun

theorem toNat_ofNat (n : Nat) : (Char.ofNat n).toNat = if n.isValidChar then n else 0 := by
  by_cases h : n.isValidChar
  · rw [if_pos h, Char.ofNat, dif_pos h]
    rfl
  · rw [if_neg h, Char.ofNat, dif_neg h]
    rfl

theorem toNat_ofNat_ascii (h : n < 0x80) : (Char.ofNat n).toNat = n := by
  rw [toNat_ofNat, if_pos (.inl (by omega))]

theorem toNat_eq_of_ascii (hlow : b.toNat < 0x80) (h : Char.ofNat b.toNat = c) :
    b.toNat = c.toNat := by
  rw [← h, toNat_ofNat_ascii hlow]

theorem ofNat_ne_lineEnd (h : 0x10 ≤ n) : Char.ofNat n ≠ '\n' ∧ Char.ofNat n ≠ '\r' := by
  have hne (c : Char) (hlow : c.toNat ≠ 0) (hhigh : c.toNat < 0x10) : Char.ofNat n ≠ c := by
    rintro rfl
    rw [toNat_ofNat] at hlow hhigh
    split at hlow <;> split at hhigh <;> omega
  exact ⟨hne _ (by decide) (by decide), hne _ (by decide) (by decide)⟩

theorem firstByte_ascii (h : b.toNat < 0x80) : firstByte b = .complete (Char.ofNat b.toNat) := by
  simp [firstByte, h]

theorem firstByte_complete (h : firstByte b = .complete c) :
    b.toNat < 0x80 ∧ c = Char.ofNat b.toNat := by
  unfold firstByte at h
  dsimp only at h
  repeat' split at h
  all_goals cases h
  exact ⟨‹_›, rfl⟩

theorem firstByte_more (h : firstByte b = .more pending) : 0x80 ≤ b.toNat ∧ pending.Sound := by
  unfold firstByte at h
  dsimp only at h
  repeat' split at h
  all_goals cases h
  all_goals
    try simp only [beq_iff_eq] at *
    exact ⟨by omega, ⟨by dsimp only; omega, by dsimp only; omega⟩⟩

theorem Pending.Sound.complete (hsound : pending.Sound) (h : pending.nextByte b = .complete c) :
    0x80 ≤ b.toNat ∧ c ≠ '\n' ∧ c ≠ '\r' := by
  obtain ⟨hlow, hvalue⟩ := hsound
  unfold nextByte at h
  dsimp only at h
  split at h
  · cases h
  · rename_i hrange
    simp only [Bool.or_eq_true, decide_eq_true_eq] at hrange
    split at h
    · obtain rfl := Step.complete.inj h
      exact ⟨by omega, ofNat_ne_lineEnd (by omega)⟩
    · cases h

theorem Pending.Sound.more (hsound : pending.Sound) (h : pending.nextByte b = .more pending') :
    0x80 ≤ b.toNat ∧ pending'.Sound := by
  obtain ⟨hlow, hvalue⟩ := hsound
  unfold nextByte at h
  dsimp only at h
  split at h
  · cases h
  · rename_i hrange
    simp only [Bool.or_eq_true, decide_eq_true_eq] at hrange
    split at h
    · cases h
    · obtain rfl := Step.more.inj h
      exact ⟨by omega, ⟨by dsimp only; omega, by dsimp only; omega⟩⟩

/-- A byte of ASCII breaks a character off. -/
theorem Pending.Sound.repaired_ascii (hsound : pending.Sound) (h : b.toNat < 0x80) :
    repaired (some pending) (b :: rest) = Char.ofNat 0xFFFD :: repaired none (b :: rest) := by
  rw [repaired_next]
  cases hnext : pending.nextByte b with
  | complete c => exact absurd (hsound.complete hnext).1 (by omega)
  | more pending' => exact absurd (hsound.more hnext).1 (by omega)
  | refused => rfl

theorem repaired_ascii (h : b.toNat < 0x80) :
    repaired none (b :: rest) = Char.ofNat b.toNat :: repaired none rest := by
  rw [repaired_first, firstByte_ascii h]

-- ---------------------------------------------------------------------------
-- Lines
-- ---------------------------------------------------------------------------

theorem unifyNewlines_cons (h : c ≠ '\r') : unifyNewlines (c :: cs) = c :: unifyNewlines cs := by
  rw [unifyNewlines]
  · simp [h]
  · exact fun _ hc => absurd hc h

/-- A carriage return with something else than a line feed behind it. -/
theorem unifyNewlines_return (h : cs.head? ≠ some '\n') :
    unifyNewlines ('\r' :: cs) = '\n' :: unifyNewlines cs := by
  rw [unifyNewlines]
  · simp
  · rintro rest - rfl
    exact h rfl

theorem lines_cons (h : c ≠ '\n') (hcs : lines cs = line :: more) :
    lines (c :: cs) = (c :: line) :: more := by
  rw [lines] at hcs ⊢
  simp [splitOn, h, hcs]

theorem lines_feed (cs : List Char) : lines ('\n' :: cs) = [] :: lines cs := by
  simp [lines, splitOn]

theorem head_repaired_pending (hsound : pending.Sound) :
    (repaired (some pending) bytes).head? ≠ some '\n' := by
  induction bytes generalizing pending with
  | nil => simp [repaired, piecesFrom, pieceChar]
  | cons b rest ih =>
    rw [repaired_next]
    cases hnext : pending.nextByte b with
    | complete c => simpa using (hsound.complete hnext).2.1
    | more pending' => exact ih (hsound.more hnext).2
    | refused => simp

/-- Only a line feed is read as a line feed. -/
theorem head_repaired (h : bytes.head? ≠ some 0x0A) :
    (repaired none bytes).head? ≠ some '\n' := by
  cases bytes with
  | nil => decide
  | cons b rest =>
    rw [repaired_first]
    cases hfirst : firstByte b with
    | complete c =>
      obtain ⟨hlow, rfl⟩ := firstByte_complete hfirst
      intro hfeed
      have hcode := toNat_eq_of_ascii hlow (Option.some.inj hfeed)
      exact h (congrArg some (UInt8.toNat.inj hcode))
    | more pending => exact head_repaired_pending (firstByte_more hfirst).2
    | refused => simp

theorem ofNat_ne_of_not_endsLine (hlow : b.toNat < 0x80) (h : endsLine b = false) :
    Char.ofNat b.toNat ≠ '\n' ∧ Char.ofNat b.toNat ≠ '\r' := by
  simp only [endsLine, Bool.or_eq_false_iff, beq_eq_false_iff_ne] at h
  exact ⟨fun hfeed => h.1 (UInt8.toNat.inj (toNat_eq_of_ascii hlow hfeed)),
    fun hreturn => h.2 (UInt8.toNat.inj (toNat_eq_of_ascii hlow hreturn))⟩

/-- The lines from a state on, if they are known from every state behind the next byte. -/
theorem lines_repaired_cons (h : endsLine b = false) (hstate : ∀ pending ∈ state, pending.Sound)
    (hrest : ∀ state : Option Pending, (∀ pending ∈ state, pending.Sound) →
      lines (unifyNewlines (repaired state rest)) = repaired state line :: more) :
    lines (unifyNewlines (repaired state (b :: rest))) = repaired state (b :: line) :: more := by
  have hput {c : Char} {state : Option Pending} {bytes bytes' : Bytes} (hc : c ≠ '\n' ∧ c ≠ '\r')
      (h : lines (unifyNewlines (repaired state bytes)) = repaired state bytes' :: more) :
      lines (unifyNewlines (c :: repaired state bytes)) = (c :: repaired state bytes') :: more := by
    rw [unifyNewlines_cons hc.2, lines_cons hc.1 h]
  have hstart : lines (unifyNewlines (repaired none (b :: rest))) =
      repaired none (b :: line) :: more := by
    rw [repaired_first, repaired_first]
    cases hfirst : firstByte b with
    | complete c =>
      obtain ⟨hlow, rfl⟩ := firstByte_complete hfirst
      exact hput (ofNat_ne_of_not_endsLine hlow h) (hrest none sound_start)
    | more pending => exact hrest (some pending) (by simpa using (firstByte_more hfirst).2)
    | refused => exact hput (by decide) (hrest none sound_start)
  cases state with
  | none => exact hstart
  | some pending =>
    have hsound : pending.Sound := hstate pending rfl
    rw [repaired_next, repaired_next]
    cases hnext : pending.nextByte b with
    | complete c => exact hput (hsound.complete hnext).2 (hrest none sound_start)
    | more pending' => exact hrest (some pending') (by simpa using (hsound.more hnext).2)
    | refused => exact hput (by decide) hstart

/-- The lines from a state on, if they are known from the start and the next byte ends a line. -/
theorem lines_repaired_end (hb : b.toNat < 0x80) (hstate : ∀ pending ∈ state, pending.Sound)
    (h : lines (unifyNewlines (repaired none (b :: rest))) = [] :: more) :
    lines (unifyNewlines (repaired state (b :: rest))) = repaired state [] :: more := by
  cases state with
  | none => exact h
  | some pending =>
    rw [(hstate pending rfl).repaired_ascii hb, unifyNewlines_cons (by decide),
      lines_cons (by decide) h]
    rfl

theorem lines_repaired (hstate : ∀ pending ∈ state, pending.Sound)
    (h : byteLines bytes = line :: more) : lines (unifyNewlines (repaired state bytes)) =
      repaired state line :: more.map repairBytes := by
  induction bytes using lineEnds.induct generalizing state line more with
  | case1 =>
    obtain ⟨rfl, rfl⟩ := List.cons.inj h
    cases state <;> rfl
  | case2 rest ih =>
    obtain ⟨first, others, hrest⟩ := exists_byteLines rest
    rw [byteLines, hrest] at h
    obtain ⟨rfl, rfl⟩ := List.cons.inj h
    refine lines_repaired_end (by decide) hstate ?_
    rw [repaired_ascii (by decide), repaired_ascii (by decide)]
    exact (lines_feed _).trans (congrArg ([] :: ·) (ih sound_start hrest))
  | case3 b rest hb ih =>
    obtain ⟨first, others, hrest⟩ := exists_byteLines rest
    cases hend : endsLine b with
    | false =>
      rw [byteLines_cons hend hrest] at h
      obtain ⟨rfl, rfl⟩ := List.cons.inj h
      exact lines_repaired_cons hend hstate fun state hstate => ih hstate hrest
    | true =>
      rw [byteLines.eq_3 b rest hb, if_pos hend, hrest] at h
      obtain ⟨rfl, rfl⟩ := List.cons.inj h
      have hfeed : lines ('\n' :: unifyNewlines (repaired none rest)) =
          [] :: repaired none first :: others.map repairBytes := by
        rw [lines_feed, ih sound_start hrest]
      rcases (by simpa [endsLine] using hend : b = 0x0A ∨ b = 0x0D) with rfl | rfl
      · refine lines_repaired_end (by decide) hstate ?_
        rw [repaired_ascii (by decide)]
        exact (congrArg lines (unifyNewlines_cons (by decide))).trans hfeed
      · refine lines_repaired_end (by decide) hstate ?_
        have hhead : (repaired none rest).head? ≠ some '\n' := by
          refine head_repaired fun hfirst => ?_
          obtain ⟨after, rfl⟩ := List.head?_eq_some_iff.mp hfirst
          exact hb after rfl rfl
        rw [repaired_ascii (by decide)]
        exact (congrArg lines (unifyNewlines_return hhead)).trans hfeed

/-- The lines of a text are the lines of its bytes, each one repaired on its own. -/
theorem lines_repairBytes (bytes : Bytes) :
    lines (unifyNewlines (repairBytes bytes)) = (byteLines bytes).map repairBytes := by
  obtain ⟨line, more, h⟩ := exists_byteLines bytes
  rw [repairBytes_eq, lines_repaired sound_start h, h, List.map_cons, repairBytes_eq]

theorem repairBytes_ascii (h : ∀ b ∈ bytes, b.toNat < 0x80) :
    repairBytes bytes = bytes.map fun b => Char.ofNat b.toNat := by
  rw [repairBytes_eq]
  induction bytes with
  | nil => rfl
  | cons b rest ih =>
    obtain ⟨hb, hrest⟩ := List.forall_mem_cons.mp h
    rw [repaired_ascii hb, ih hrest, List.map_cons]

-- ---------------------------------------------------------------------------
-- A line in its place
-- ---------------------------------------------------------------------------

variable {before line after : Bytes}

theorem byteLines_line (hline : ∀ b ∈ line, endsLine b = false)
    (hafter : ∀ b ∈ after.head?, endsLine b = true) :
    ∃ back, byteLines (line ++ after) = line :: back := by
  induction line with
  | nil =>
    cases after with
    | nil => exact ⟨[], rfl⟩
    | cons b rest => exact byteLines_end (hafter b rfl) rest
  | cons b rest ih =>
    obtain ⟨hb, hrest⟩ := List.forall_mem_cons.mp hline
    obtain ⟨back, hback⟩ := ih hrest
    exact ⟨back, byteLines_cons hb hback⟩

theorem lineEnds_pos (hne : bytes ≠ []) (h : ∀ b ∈ bytes.getLast?, endsLine b = true) :
    0 < lineEnds bytes := by
  induction bytes using lineEnds.induct with
  | case1 => exact absurd rfl hne
  | case2 rest ih => exact Nat.succ_pos _
  | case3 b rest hb ih =>
    rw [lineEnds.eq_3 b rest hb]
    cases rest with
    | nil => simp [h b rfl]
    | cons next rest => exact Nat.add_pos_left (ih (List.cons_ne_nil _ _) h) _

/-- Behind whole lines, a line comes after as many lines as line ends. An empty line between a
carriage return and a line feed is none. -/
theorem byteLines_append (hbefore : ∀ b ∈ before.getLast?, endsLine b = true)
    (hline : ∀ b ∈ line, endsLine b = false) (hafter : ∀ b ∈ after.head?, endsLine b = true)
    (hapart : line = [] → before.getLast? = some 0x0D → after.head? ≠ some 0x0A) :
    ∃ front back, byteLines (before ++ (line ++ after)) = front ++ line :: back ∧
      front.length = lineEnds before := by
  induction before using lineEnds.induct with
  | case1 =>
    obtain ⟨back, hback⟩ := byteLines_line hline hafter
    exact ⟨[], back, hback, rfl⟩
  | case2 rest ih =>
    cases rest with
    | nil =>
      obtain ⟨back, hback⟩ := byteLines_line hline hafter
      exact ⟨[[]], back, congrArg ([] :: ·) hback, rfl⟩
    | cons next rest =>
      obtain ⟨front, back, hlines, hlength⟩ := ih hbefore hapart
      exact ⟨[] :: front, back, congrArg ([] :: ·) hlines, congrArg (· + 1) hlength⟩
  | case3 b rest hb ih =>
    rw [lineEnds.eq_3 b rest hb]
    cases rest with
    | nil =>
      have hend : endsLine b = true := hbefore b rfl
      obtain ⟨back, hback⟩ := byteLines_line hline hafter
      have hfirst : ∀ tail, b = 0x0D → line ++ after = 0x0A :: tail → False := by
        rintro tail rfl htail
        cases line with
        | nil => exact hapart rfl rfl (congrArg List.head? htail)
        | cons first line =>
          have hfeed : first = 0x0A := (List.cons.inj htail).1
          rw [hfeed] at hline
          exact absurd (hline _ List.mem_cons_self) (by decide)
      refine ⟨[[]], back, ?_, by simp [lineEnds, hend]⟩
      rw [List.singleton_append, byteLines.eq_3 b _ hfirst, if_pos hend, hback]
      rfl
    | cons next rest =>
      obtain ⟨front, back, hlines, hlength⟩ := ih hbefore hapart
      cases hend : endsLine b with
      | true =>
        refine ⟨[] :: front, back, ?_, by simp [hlength]⟩
        rw [List.cons_append, byteLines.eq_3 b, if_pos hend, hlines]
        · rfl
        · rintro tail hreturn htail
          exact hb rest hreturn (congrArg (· :: rest) (List.cons.inj htail).1)
      | false =>
        have hpos : 0 < front.length := hlength ▸ lineEnds_pos (List.cons_ne_nil _ _) hbefore
        obtain ⟨first, others, rfl⟩ := List.exists_cons_of_length_pos hpos
        exact ⟨(b :: first) :: others, back, byteLines_cons hend hlines, by simpa using hlength⟩

end Marginalia.Text
