import Marginalia.Data.Value
import Mathlib.Data.List.Nodup

/-!
# Entries

What is found under a key, among entries that are set one after the other.
-/

namespace Marginalia

variable {α : Type} {entries : List (String × α)} {key field : String} {value value' : α}

theorem valueOf?_cons (entry : String × α) (rest : List (String × α)) (key : String) :
    valueOf? (entry :: rest) key = if key = entry.1 then some entry.2 else valueOf? rest key := by
  rw [valueOf?, List.lookup_cons]
  by_cases h : key = entry.1
  · simp [h]
  · simp [h, beq_false_of_ne h, valueOf?]

theorem mem_of_valueOf? (h : valueOf? entries key = some value) : (key, value) ∈ entries := by
  induction entries with
  | nil => cases h
  | cons entry rest ih =>
    rw [valueOf?_cons] at h
    split at h
    · rename_i hkey
      cases h
      rw [hkey]
      exact List.mem_cons_self
    · exact List.mem_cons_of_mem _ (ih h)

theorem exists_valueOf? (h : key ∈ entries.map Prod.fst) :
    ∃ value, valueOf? entries key = some value := by
  induction entries with
  | nil => cases h
  | cons entry rest ih =>
    rw [valueOf?_cons]
    split
    · exact ⟨_, rfl⟩
    · rename_i hkey
      exact ih ((List.mem_cons.mp h).resolve_left hkey)

/-- Where no key is there twice, each entry is found. -/
theorem valueOf?_of_mem (hkeys : (entries.map Prod.fst).Nodup) (h : (key, value) ∈ entries) :
    valueOf? entries key = some value := by
  induction entries with
  | nil => cases h
  | cons entry rest ih =>
    obtain ⟨hentry, hrest⟩ := List.nodup_cons.mp hkeys
    rw [valueOf?_cons]
    rcases List.mem_cons.mp h with rfl | h
    · exact if_pos rfl
    · have hne : key ≠ entry.1 := fun heq => hentry (heq ▸ List.mem_map.mpr ⟨_, h, rfl⟩)
      rw [if_neg hne]
      exact ih hrest h

theorem setEntry_cons (entry : String × α) (rest : List (String × α)) (field : String)
    (value : α) : setEntry (entry :: rest) field value =
      if entry.1 = field then (entry.1, value) :: rest else entry :: setEntry rest field value := by
  obtain ⟨k, v⟩ := entry
  by_cases h : k = field <;> simp [setEntry, h]

/-- A new key comes last. -/
theorem setEntry_of_notMem (h : field ∉ entries.map Prod.fst) (value : α) :
    setEntry entries field value = entries ++ [(field, value)] := by
  induction entries with
  | nil => rfl
  | cons entry rest ih =>
    obtain ⟨hentry, hrest⟩ := not_or.mp (mt List.mem_cons.mpr h)
    rw [setEntry_cons, if_neg (Ne.symm hentry), ih hrest, List.cons_append]

theorem valueOf?_setEntry (entries : List (String × α)) (key field : String) (value : α) :
    valueOf? (setEntry entries field value) key =
      if key = field then some value else valueOf? entries key := by
  induction entries with
  | nil => exact valueOf?_cons _ _ _
  | cons entry rest ih =>
    rw [setEntry_cons, valueOf?_cons entry]
    split
    · rename_i hentry
      rw [valueOf?_cons, hentry]
      split <;> rfl
    · rename_i hentry
      rw [valueOf?_cons, ih]
      split
      · rename_i hkey
        rw [if_neg (hkey ▸ hentry)]
      · rfl

theorem mem_setEntry (h : (key, value') ∈ setEntry entries field value) :
    (key, value') ∈ entries ∨ key = field ∧ value' = value := by
  induction entries with
  | nil =>
    obtain ⟨rfl, rfl⟩ : key = field ∧ value' = value := by simpa [setEntry] using h
    exact .inr ⟨rfl, rfl⟩
  | cons entry rest ih =>
    rw [setEntry_cons] at h
    split at h
    · rename_i hentry
      rcases List.mem_cons.mp h with heq | h
      · cases heq
        exact .inr ⟨hentry, rfl⟩
      · exact .inl (List.mem_cons_of_mem _ h)
    · rcases List.mem_cons.mp h with rfl | h
      · exact .inl List.mem_cons_self
      · exact (ih h).imp_left (List.mem_cons_of_mem _)

/-- A key that is there keeps its place. -/
theorem map_fst_setEntry (h : field ∈ entries.map Prod.fst) (value : α) :
    (setEntry entries field value).map Prod.fst = entries.map Prod.fst := by
  induction entries with
  | nil => cases h
  | cons entry rest ih =>
    rw [setEntry_cons]
    split
    · rfl
    · rename_i hentry
      rw [List.map_cons, List.map_cons,
        ih ((List.mem_cons.mp h).resolve_left (Ne.symm hentry))]

/-- Of entries that are set one after the other, each key at most once, all are found. -/
theorem valueOf?_foldl_setEntry (new : List (String × α)) (h : (new.map Prod.fst).Nodup) :
    valueOf? (new.foldl (fun entries (key, value) => setEntry entries key value) entries) key =
      (valueOf? new key).or (valueOf? entries key) := by
  induction new generalizing entries with
  | nil => rfl
  | cons entry rest ih =>
    obtain ⟨hentry, hrest⟩ := List.nodup_cons.mp h
    rw [List.foldl_cons, ih hrest, valueOf?_setEntry, valueOf?_cons]
    split
    · rename_i hkey
      have hnone : valueOf? rest key = none := by
        cases hfound : valueOf? rest key with
        | none => rfl
        | some value =>
          exact absurd (List.mem_map.mpr ⟨_, mem_of_valueOf? hfound, hkey⟩) hentry
      rw [hnone]
      rfl
    · rfl

end Marginalia
