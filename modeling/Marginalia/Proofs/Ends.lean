import Marginalia.Fault
import Mathlib.Order.Defs.Unbundled

/-!
# How work ends

A judgement on work that starts from a state: where it ends when it ends well, and where it ends
when a fault stops it. It passes through sequences step by step. Work that keeps a preorder on
states, however it ends, is put together from such work alone.
-/

namespace Marginalia

variable {ε σ α β : Type}

theorem bind_ok {x : Except ε α} {f : α → Except ε β} {b : β} :
    x >>= f = .ok b ↔ ∃ a, x = .ok a ∧ f a = .ok b := by
  cases x <;> simp [bind, Except.bind]

theorem bind_error {x : Except ε α} {f : α → Except ε β} {fault : ε} :
    x >>= f = .error fault ↔ x = .error fault ∨ ∃ a, x = .ok a ∧ f a = .error fault := by
  cases x <;> simp [bind, Except.bind]

theorem map_ok {x : Except ε α} {f : α → β} {b : β} :
    x.map f = .ok b ↔ ∃ a, x = .ok a ∧ f a = b := by
  cases x <;> simp [Except.map]

theorem toOption_eq_some {x : Except ε α} {a : α} : x.toOption = some a ↔ x = .ok a := by
  cases x <;> simp [Except.toOption]

theorem isOk_iff {x : Except ε α} : x.isOk = true ↔ ∃ a, x = .ok a := by
  cases x <;> simp [Except.isOk, Except.toBool]

theorem ite_ok {c : Prop} [Decidable c] {a b : α} {fault : ε} :
    (if c then .ok a else .error fault : Except ε α) = .ok b ↔ c ∧ a = b := by
  split <;> simp_all

theorem mapM_error {f : α → Except ε β} {l : List α} {fault : ε}
    (h : l.mapM f = .error fault) : ∃ a ∈ l, f a = .error fault := by
  induction l with
  | nil => cases h
  | cons a rest ih =>
    rw [List.mapM_cons] at h
    rcases bind_error.mp h with hfirst | ⟨b, -, h⟩
    · exact ⟨a, List.mem_cons_self, hfirst⟩
    · rcases bind_error.mp h with hrest | ⟨bs, -, h⟩
      · obtain ⟨a', hmem, hfault⟩ := ih hrest
        exact ⟨a', List.mem_cons_of_mem _ hmem, hfault⟩
      · cases h

theorem mapM_ok {f : α → Except ε β} {l : List α} {bs : List β}
    (h : l.mapM f = .ok bs) : ∀ b ∈ bs, ∃ a ∈ l, f a = .ok b := by
  induction l generalizing bs with
  | nil =>
    cases h
    exact List.forall_mem_nil _
  | cons a rest ih =>
    rw [List.mapM_cons] at h
    obtain ⟨b, hb, h⟩ := bind_ok.mp h
    obtain ⟨others, hothers, h⟩ := bind_ok.mp h
    cases h
    refine List.forall_mem_cons.mpr ⟨⟨a, List.mem_cons_self, hb⟩, fun b' hb' => ?_⟩
    obtain ⟨a', hmem, ha'⟩ := ih hothers b' hb'
    exact ⟨a', List.mem_cons_of_mem _ hmem, ha'⟩

/-- Started at `s`, work that ends well has its result and its end in `R`, and work that is stopped
by a fault has its end in `E`. -/
structure Ends (R : α → σ → Prop) (E : σ → Prop) (m : EStateM ε σ α) (s : σ) : Prop where
  ok : m.run s = .ok a t → R a t
  error : m.run s = .error fault t → E t

/-- However work ends, its start and its end stand in `S`. -/
def Respects (S : σ → σ → Prop) (m : EStateM ε σ α) : Prop :=
  ∀ s, Ends (fun _ => S s) (S s) m s

variable {R R' : α → σ → Prop} {E E' : σ → Prop} {S : σ → σ → Prop}
variable {m : EStateM ε σ α} {f : α → EStateM ε σ β} {s : σ}

theorem Ends.mono (h : Ends R E m s) (hR : ∀ a t, R a t → R' a t) (hE : ∀ t, E t → E' t) :
    Ends R' E' m s :=
  ⟨fun hrun => hR _ _ (h.ok hrun), fun hrun => hE _ (h.error hrun)⟩

theorem Ends.and {R' : α → σ → Prop} {E' : σ → Prop} (h : Ends R E m s) (h' : Ends R' E' m s) :
    Ends (fun a t => R a t ∧ R' a t) (fun t => E t ∧ E' t) m s :=
  ⟨fun hrun => ⟨h.ok hrun, h'.ok hrun⟩, fun hrun => ⟨h.error hrun, h'.error hrun⟩⟩

theorem Ends.run (h : Ends R E m s) : Ends (fun a t => R a t ∧ m.run s = .ok a t) E m s :=
  ⟨fun hrun => ⟨h.ok hrun, hrun⟩, h.error⟩

/-- Only the outcome of the run counts. -/
theorem Ends.congr {m' : EStateM ε σ α} {t : σ} (h : Ends R E m' t) (hrun : m.run s = m'.run t) :
    Ends R E m s :=
  ⟨fun h' => h.ok (hrun ▸ h'), fun h' => h.error (hrun ▸ h')⟩

theorem ends_of_ok {a : α} {t : σ} (hrun : m.run s = .ok a t) (h : R a t) : Ends R E m s where
  ok {b u} hrun' := by
    obtain ⟨rfl, rfl⟩ : b = a ∧ u = t := by simpa [hrun, eq_comm] using hrun'
    exact h
  error hrun' := by simp [hrun] at hrun'

theorem ends_of_error {fault : ε} {t : σ} (hrun : m.run s = .error fault t) (h : E t) :
    Ends R E m s where
  ok hrun' := by simp [hrun] at hrun'
  error {fault' u} hrun' := by
    obtain ⟨rfl, rfl⟩ : fault' = fault ∧ u = t := by simpa [hrun, eq_comm] using hrun'
    exact h

theorem ends_pure {a : α} (h : R a s) : Ends R E (pure a : EStateM ε σ α) s := ends_of_ok rfl h

theorem ends_throw {fault : ε} (h : E s) : Ends R E (throw fault : EStateM ε σ α) s :=
  ends_of_error rfl h

theorem ends_liftExcept {R : α → σ → Prop} {x : Except Fault α} (hR : ∀ a, x = .ok a → R a s)
    (hE : E s) : Ends R E (liftExcept x : EStateM Fault σ α) s := by
  cases x with
  | ok a => exact ends_pure (hR a rfl)
  | error fault => exact ends_throw hE

theorem ends_bind {R : β → σ → Prop} (h : Ends (fun a => Ends R E (f a)) E m s) :
    Ends R E (m >>= f) s where
  ok {b u} hrun := by
    rw [EStateM.run_bind] at hrun
    cases hm : m.run s with
    | ok a t => exact (h.ok hm).ok (by simpa [hm] using hrun)
    | error fault t => simp [hm] at hrun
  error {fault u} hrun := by
    rw [EStateM.run_bind] at hrun
    cases hm : m.run s with
    | ok a t => exact (h.ok hm).error (by simpa [hm] using hrun)
    | error fault' t =>
      obtain ⟨rfl, rfl⟩ : fault' = fault ∧ t = u := by simpa [hm] using hrun
      exact h.error hm

theorem run_bind_ok {b : β} {t : σ} : (m >>= f).run s = .ok b t ↔
    ∃ a u, m.run s = .ok a u ∧ (f a).run u = .ok b t := by
  rw [EStateM.run_bind]
  cases m.run s <;> simp [and_assoc]

theorem run_bind_error {fault : ε} {t : σ} : (m >>= f).run s = .error fault t ↔
    m.run s = .error fault t ∨ ∃ a u, m.run s = .ok a u ∧ (f a).run u = .error fault t := by
  rw [EStateM.run_bind]
  cases m.run s <;> simp [and_assoc]

theorem run_bind_of_ok {a : α} {t : σ} (h : m.run s = .ok a t) :
    (m >>= f).run s = (f a).run t := by
  rw [EStateM.run_bind, h]

theorem run_liftExcept_ok {x : Except Fault α} {a : α} {t : σ} :
    (liftExcept x : EStateM Fault σ α).run s = .ok a t ↔ x = .ok a ∧ s = t := by
  cases x with
  | ok b => simp [liftExcept]
  | error fault => exact ⟨nofun, fun h => nomatch h.1⟩

theorem run_get_bind {f : σ → EStateM ε σ β} : (get >>= f).run s = (f s).run s := rfl

/-- Looking at the state changes nothing. -/
theorem ends_get_bind {R : β → σ → Prop} {f : σ → EStateM ε σ β} (h : Ends R E (f s) s) :
    Ends R E (get >>= f) s :=
  ends_bind (ends_of_ok rfl h)

/-- A step that is done only under a condition, and what comes after it either way. -/
theorem ends_when {R : β → σ → Prop} {c : Prop} [Decidable c] {step : EStateM ε σ Unit}
    {rest : Unit → EStateM ε σ β} {P : σ → Prop} (hstep : c → Ends (fun _ => P) E step s)
    (hskip : ¬c → P s) (hrest : ∀ t, P t → Ends R E (rest ()) t) :
    Ends R E (if c then step >>= rest else rest ()) s := by
  split
  · exact ends_bind ((hstep ‹_›).mono (fun _ => hrest) fun _ => id)
  · exact hrest s (hskip ‹_›)

theorem ends_unless {R : β → σ → Prop} {c : Prop} [Decidable c] {fault : ε}
    {rest : Unit → EStateM ε σ β} (hfault : c → E s) (hrest : ¬c → Ends R E (rest ()) s) :
    Ends R E (if c then throw fault >>= rest else rest ()) s := by
  split
  · exact ends_bind (ends_throw (hfault ‹_›))
  · exact hrest ‹_›

-- ---------------------------------------------------------------------------
-- Work that keeps a preorder
-- ---------------------------------------------------------------------------

theorem Respects.mono {S' : σ → σ → Prop} (hm : Respects S m) (hS : ∀ s t, S s t → S' s t) :
    Respects S' m := fun s => (hm s).mono (fun _ => hS s) (hS s)

theorem respects_of_same [Std.Refl S]
    (h : ∀ s, (∃ a, m.run s = .ok a s) ∨ ∃ fault, m.run s = .error fault s) : Respects S m := by
  intro s
  rcases h s with ⟨a, hrun⟩ | ⟨fault, hrun⟩
  · exact ends_of_ok hrun (refl s)
  · exact ends_of_error hrun (refl s)

theorem respects_pure [Std.Refl S] (a : α) : Respects S (pure a : EStateM ε σ α) :=
  fun s => ends_pure (refl s)

theorem respects_throw [Std.Refl S] (fault : ε) : Respects S (throw fault : EStateM ε σ α) :=
  fun s => ends_throw (refl s)

theorem respects_get [Std.Refl S] : Respects S (get : EStateM ε σ σ) :=
  fun s => ends_of_ok rfl (refl s)

theorem respects_liftExcept [Std.Refl S] (x : Except Fault α) :
    Respects S (liftExcept x : EStateM Fault σ α) :=
  fun s => ends_liftExcept (fun _ _ => refl s) (refl s)

/-- What was there at `s` is still there when work goes on from `t`. -/
theorem Respects.onward [IsTrans σ S] {t : σ} (hm : Respects S m) (h : S s t) :
    Ends (fun _ => S s) (S s) m t :=
  (hm t).mono (fun _ _ => trans_of S h) fun _ => trans_of S h

theorem Respects.then [IsTrans σ S] {R : β → σ → Prop} {t : σ} (hm : Respects S m) (h : S s t)
    (hf : ∀ a u, S s u → Ends R (S s) (f a) u) : Ends R (S s) (m >>= f) t :=
  ends_bind ((hm.onward h).mono hf fun _ => id)

theorem Respects.bind [Std.Refl S] [IsTrans σ S] (hm : Respects S m)
    (hf : ∀ a, Respects S (f a)) : Respects S (m >>= f) :=
  fun s => hm.then (refl s) fun a _ => (hf a).onward

-- ---------------------------------------------------------------------------
-- What stops work
-- ---------------------------------------------------------------------------

/-- A fault of the program itself, or one of some others. -/
def OwnOr (P : Fault → Prop) (fault : Fault) : Prop := fault.faultClass.isOwn = true ∨ P fault

/-- Started at `s`, work is stopped by no other faults than those in `P`. -/
def StopsBy (P : ε → Prop) (m : EStateM ε σ α) (s : σ) : Prop :=
  ∀ ⦃fault t⦄, m.run s = .error fault t → P fault

section StopsBy

variable {P P' : ε → Prop}

theorem StopsBy.mono (h : StopsBy P m s) (hP : ∀ fault, P fault → P' fault) : StopsBy P' m s :=
  fun _ _ hrun => hP _ (h hrun)

theorem stopsBy_of_ok {a : α} {t : σ} (hrun : m.run s = .ok a t) : StopsBy P m s := by
  intro fault u hrun'
  rw [hrun] at hrun'
  cases hrun'

theorem stopsBy_pure (a : α) : StopsBy P (pure a : EStateM ε σ α) s := stopsBy_of_ok rfl

theorem stopsBy_throw {fault : ε} (h : P fault) :
    StopsBy P (throw fault : EStateM ε σ α) s := by
  rintro _ _ ⟨⟩
  exact h

theorem stopsBy_liftExcept {P : Fault → Prop} {x : Except Fault α}
    (h : ∀ fault, x = .error fault → P fault) :
    StopsBy P (liftExcept x : EStateM Fault σ α) s := by
  cases x with
  | ok a => exact stopsBy_pure a
  | error fault => exact stopsBy_throw (h fault rfl)

theorem stopsBy_bind (h : StopsBy P m s)
    (hf : ∀ a t, m.run s = .ok a t → StopsBy P (f a) t) : StopsBy P (m >>= f) s := by
  intro fault u hrun
  rcases run_bind_error.mp hrun with hm | ⟨a, t, hm, hrun⟩
  · exact h hm
  · exact hf a t hm hrun

theorem stopsBy_unless {c : Prop} [Decidable c] {fault : ε} {rest : Unit → EStateM ε σ β}
    (hfault : c → P fault) (hrest : ¬c → StopsBy P (rest ()) s) :
    StopsBy P (if c then throw fault >>= rest else rest ()) s := by
  split
  · exact stopsBy_bind (stopsBy_throw (hfault ‹_›)) nofun
  · exact hrest ‹_›

theorem stopsBy_when {c : Prop} [Decidable c] {step : EStateM ε σ Unit}
    {rest : Unit → EStateM ε σ β} {Q : σ → Prop} (hstep : StopsBy P step s)
    (hdone : c → ∀ t, step.run s = .ok () t → Q t) (hskip : ¬c → Q s)
    (hrest : ∀ t, Q t → StopsBy P (rest ()) t) :
    StopsBy P (if c then step >>= rest else rest ()) s := by
  split
  · exact stopsBy_bind hstep fun _ t ht => hrest t (hdone ‹_› t ht)
  · exact hrest s (hskip ‹_›)

theorem stopsBy_get_bind {f : σ → EStateM ε σ β} (h : StopsBy P (f s) s) :
    StopsBy P (get >>= f) s := h

end StopsBy

end Marginalia
