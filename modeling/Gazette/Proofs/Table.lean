import Mathlib.Data.List.Nodup
import Gazette.Store.Table

/-!
# Tables

Looking a row up, writing one and removing some are told apart by keys. Every law below is about
an arbitrary table; uniqueness of keys is a hypothesis only where the first row with a key has to
be the only one.
-/
namespace Gazette.Table
variable {α β : Type} [Keyed α] {key : String} {row x : α} {table : Table α}
variable {merge : α → α → α}

/-- A merge stays under the key that both of its rows have. -/
def KeepsKey (merge : α → α → α) : Prop :=
  ∀ old new : α, Keyed.key old = Keyed.key new → Keyed.key (merge old new) = Keyed.key new

theorem has_iff : table.has key = true ↔ ∃ row ∈ table, Keyed.key row = key := by
  simp [has]

theorem has_of_mem (h : row ∈ table) : table.has (Keyed.key row) = true :=
  has_iff.2 ⟨row, h, rfl⟩

theorem has_eq_false_iff : table.has key = false ↔ ∀ row ∈ table, Keyed.key row ≠ key := by
  simp [has]

theorem has_eq_isSome (key : String) (table : Table α) :
    table.has key = (table.row? key).isSome := by
  rw [Bool.eq_iff_iff, has_iff, row?, List.find?_isSome]
  simp

theorem mem_of_row? (h : table.row? key = some row) : row ∈ table :=
  List.mem_of_find?_eq_some h

theorem key_of_row? (h : table.row? key = some row) : Keyed.key row = key := by
  simpa using List.find?_some h

theorem exists_row?_of_has (h : table.has key = true) : ∃ row, table.row? key = some row := by
  rw [has_eq_isSome] at h
  exact Option.isSome_iff_exists.1 h

theorem has_of_row? (h : table.row? key = some row) : table.has key = true :=
  has_iff.2 ⟨row, mem_of_row? h, key_of_row? h⟩

theorem row?_eq_none (h : table.has key = false) : table.row? key = none := by
  rw [has_eq_isSome] at h
  exact Option.isNone_iff_eq_none.1 (Option.isSome_eq_false_iff.1 h)

theorem row?_ne_some (h : table.has key = false) : table.row? key ≠ some row := by
  rw [row?_eq_none h]
  exact (Option.some_ne_none row).symm

omit [Keyed α] in
/-- Where the values of a column are unique, a row is found by its own. -/
theorem find?_of_mem [BEq β] [LawfulBEq β] {column : α → β} (unique : (table.map column).Nodup)
    (h : row ∈ table) : table.find? (fun other => column other == column row) = some row := by
  have hsome : (table.find? fun other => column other == column row).isSome = true :=
    List.find?_isSome.2 ⟨row, h, beq_self_eq_true _⟩
  obtain ⟨found, hfound⟩ := Option.isSome_iff_exists.1 hsome
  have hsame : found = row :=
    List.inj_on_of_nodup_map unique (List.mem_of_find?_eq_some hfound) h
      (by simpa using List.find?_some hfound)
  rw [hfound, hsame]

theorem row?_eq_some_iff (unique : (table.map Keyed.key).Nodup) :
    table.row? key = some row ↔ row ∈ table ∧ Keyed.key row = key := by
  refine ⟨fun h => ⟨mem_of_row? h, key_of_row? h⟩, ?_⟩
  rintro ⟨hrow, rfl⟩
  exact find?_of_mem unique hrow

theorem put_of_has_eq_false (h : table.has (Keyed.key row) = false) :
    table.put merge row = table ++ [row] := by
  induction table with
  | nil => rfl
  | cons old rows ih =>
      rw [has_eq_false_iff] at h
      have hold : ¬ Keyed.key old = Keyed.key row := h old (by simp)
      have hrows : Table.has (Keyed.key row) rows = false :=
        has_eq_false_iff.2 fun r hr => h r (by simp [hr])
      simp only [put, beq_iff_eq, hold, if_false, ih hrows, List.cons_append]

theorem keys_put (keeps : KeepsKey merge) (row : α) (table : Table α) :
    (table.put merge row).map Keyed.key =
      if table.has (Keyed.key row) then table.map Keyed.key
      else table.map Keyed.key ++ [Keyed.key row] := by
  induction table with
  | nil => rfl
  | cons old rows ih =>
      by_cases hold : Keyed.key old = Keyed.key row
      · simp [put, has, hold, keeps old row hold]
      · have hhas : Table.has (Keyed.key row) (old :: rows) = Table.has (Keyed.key row) rows := by
          simp [has, hold]
        simp only [put, beq_iff_eq, hold, if_false, List.map_cons, ih, hhas]
        split <;> rfl

theorem has_put (keeps : KeepsKey merge) :
    (table.put merge row).has key = true ↔ table.has key = true ∨ key = Keyed.key row := by
  have hmem : ∀ rows : Table α, rows.has key = true ↔ key ∈ rows.map Keyed.key := by
    simp [has]
  rw [hmem, hmem, keys_put keeps]
  split
  · rename_i h
    have hrow : Keyed.key row ∈ table.map Keyed.key := by simpa [has] using h
    constructor
    · exact Or.inl
    · rintro (h | rfl)
      · exact h
      · exact hrow
  · simp

theorem nodup_keys_put (keeps : KeepsKey merge) (unique : (table.map Keyed.key).Nodup) :
    ((table.put merge row).map Keyed.key).Nodup := by
  rw [keys_put keeps]
  split
  · exact unique
  · rename_i h
    rw [Bool.not_eq_true, has_eq_false_iff] at h
    refine unique.append (List.nodup_singleton _) ?_
    simp only [List.disjoint_singleton, List.mem_map, not_exists, not_and]
    exact h

/-- A row of the written table is an old one, the merge of an old one or the new one. -/
theorem mem_put (unique : (table.map Keyed.key).Nodup) :
    x ∈ table.put merge row ↔
      (x ∈ table ∧ Keyed.key x ≠ Keyed.key row) ∨
        (∃ old ∈ table, Keyed.key old = Keyed.key row ∧ x = merge old row) ∨
          (table.has (Keyed.key row) = false ∧ x = row) := by
  induction table with
  | nil => simp [put, has]
  | cons old rows ih =>
      rw [List.map_cons, List.nodup_cons] at unique
      obtain ⟨hnew, hrows⟩ := unique
      by_cases hold : Keyed.key old = Keyed.key row
      · -- The first row has the key, and no other one does.
        have hne : ∀ r ∈ rows, Keyed.key r ≠ Keyed.key row := by
          intro r hr h
          exact hnew (hold ▸ h ▸ List.mem_map_of_mem hr)
        have hhas : Table.has (Keyed.key row) (old :: rows) = true :=
          has_iff.2 ⟨old, by simp, hold⟩
        simp only [put, beq_iff_eq, hold, if_true, List.mem_cons, hhas, Bool.true_eq_false,
          false_and, or_false, exists_eq_or_imp, true_and]
        constructor
        · rintro (rfl | hx)
          · exact .inr (.inl rfl)
          · exact .inl ⟨.inr hx, hne x hx⟩
        · rintro (⟨rfl | hx, h⟩ | rfl | ⟨r, hr, h, -⟩)
          · exact absurd hold h
          · exact .inr hx
          · exact .inl rfl
          · exact absurd h (hne r hr)
      · have hhas : Table.has (Keyed.key row) (old :: rows) = Table.has (Keyed.key row) rows := by
          simp [has, hold]
        simp only [put, beq_iff_eq, hold, if_false, List.mem_cons, ih hrows, hhas,
          exists_eq_or_imp, false_and, false_or]
        constructor
        · rintro (rfl | ⟨hx, h⟩ | h)
          · exact .inl ⟨.inl rfl, hold⟩
          · exact .inl ⟨.inr hx, h⟩
          · exact .inr h
        · rintro (⟨rfl | hx, h⟩ | h)
          · exact .inl rfl
          · exact .inr (.inl ⟨hx, h⟩)
          · exact .inr (.inr h)

/-- What holds of the old rows and of the new one, and of old rows that are merged with it, holds of
every row of the written table. -/
theorem forall_put {P : α → Prop} (hold : ∀ old ∈ table, P old) (hnew : P row)
    (hmerge : ∀ old, P old → P (merge old row)) : ∀ x ∈ table.put merge row, P x := by
  induction table with
  | nil => simpa [put] using hnew
  | cons old rows ih =>
      obtain ⟨hfirst, hrows⟩ := List.forall_mem_cons.1 hold
      rw [put]
      split
      · exact List.forall_mem_cons.2 ⟨hmerge old hfirst, hrows⟩
      · exact List.forall_mem_cons.2 ⟨hfirst, ih hrows⟩

theorem map_put_of_has {column : α → β} (h : table.has (Keyed.key row) = true)
    (kept : ∀ old, column (merge old row) = column old) :
    (table.put merge row).map column = table.map column := by
  induction table with
  | nil => simp [has] at h
  | cons old rows ih =>
      by_cases hold : Keyed.key old = Keyed.key row
      · simp only [put, beq_iff_eq, hold, if_true, List.map_cons, kept]
      · have hrows : Table.has (Keyed.key row) rows = true := by simpa [has, hold] using h
        simp only [put, beq_iff_eq, hold, if_false, List.map_cons, ih hrows]

/-- A column without repetitions stays so if no other row holds the new value. -/
theorem nodup_map_put [BEq β] [LawfulBEq β] {column : α → β}
    (unique : (table.map Keyed.key).Nodup) (free : table.isTaken column row = false)
    (written : ∀ old, column (merge old row) = column row) (distinct : (table.map column).Nodup) :
    ((table.put merge row).map column).Nodup := by
  induction table with
  | nil => simp [put]
  | cons old rows ih =>
      rw [List.map_cons, List.nodup_cons] at unique distinct
      simp only [isTaken, List.any_cons, Bool.or_eq_false_iff, Bool.and_eq_false_iff,
        bne_eq_false_iff_eq, beq_eq_false_iff_ne] at free
      obtain ⟨hfree, hrows⟩ := free
      have hother : ∀ r ∈ rows, Keyed.key r = Keyed.key row ∨ column r ≠ column row := by
        simpa [List.any_eq_false, Classical.or_iff_not_imp_left] using hrows
      by_cases hold : Keyed.key old = Keyed.key row
      · simp only [put, beq_iff_eq, hold, if_true, List.map_cons, List.nodup_cons, written]
        refine ⟨?_, distinct.2⟩
        intro h
        obtain ⟨r, hr, hcolumn⟩ := List.mem_map.1 h
        rcases hother r hr with hkey | hne
        · exact unique.1 (hold ▸ hkey ▸ List.mem_map_of_mem hr)
        · exact hne hcolumn
      · simp only [put, beq_iff_eq, hold, if_false, List.map_cons, List.nodup_cons]
        refine ⟨?_, ih unique.2 hrows distinct.2⟩
        have hne : column old ≠ column row := hfree.resolve_left hold
        intro h
        obtain ⟨x, hx, hcolumn⟩ := List.mem_map.1 h
        rcases (mem_put unique.2).1 hx with ⟨hx, -⟩ | ⟨r, -, -, rfl⟩ | ⟨-, rfl⟩
        · exact distinct.1 (hcolumn ▸ List.mem_map_of_mem hx)
        · exact hne (hcolumn.symm.trans (written r))
        · exact hne hcolumn.symm

theorem row?_put (keeps : KeepsKey merge) (key : String) (row : α) (table : Table α) :
    (table.put merge row).row? key =
      if Keyed.key row = key then some ((table.row? key).elim row (merge · row))
      else table.row? key := by
  induction table with
  | nil => by_cases h : Keyed.key row = key <;> simp [put, row?, h]
  | cons old rows ih =>
      simp only [row?] at ih ⊢
      by_cases hold : Keyed.key old = Keyed.key row
      · have hmerged := keeps old row hold
        by_cases h : Keyed.key row = key
        · simp [put, hold, hmerged, h]
        · simp [put, hold, hmerged, h]
      · by_cases hkey : Keyed.key old = key
        · have h : ¬ Keyed.key row = key := fun h => hold (hkey.trans h.symm)
          simp [put, hkey, h, Ne.symm h]
        · simp [put, hold, hkey, ih]

theorem row?_put_other (keeps : KeepsKey merge) (hne : Keyed.key row ≠ key) (table : Table α) :
    (table.put merge row).row? key = table.row? key := by
  rw [row?_put keeps, if_neg hne]

theorem row?_put_self (keeps : KeepsKey merge) {old : α}
    (h : table.row? (Keyed.key row) = some old) :
    (table.put merge row).row? (Keyed.key row) = some (merge old row) := by
  rw [row?_put keeps, if_pos rfl, h]
  rfl

theorem update_of_has_eq_false {f : α → α} (h : table.has key = false) :
    table.update key f = table := by
  refine (List.map_congr_left fun row hrow => ?_).trans (List.map_id table)
  simp [has_eq_false_iff.1 h row hrow]

/-- Writing a row under a key that is taken changes the row that has it. -/
theorem put_of_has (unique : (table.map Keyed.key).Nodup)
    (h : table.has (Keyed.key row) = true) :
    table.put merge row = table.update (Keyed.key row) (merge · row) := by
  induction table with
  | nil => cases h
  | cons old rows ih =>
      rw [List.map_cons, List.nodup_cons] at unique
      by_cases hold : Keyed.key old = Keyed.key row
      · have hrows : Table.has (Keyed.key row) rows = false :=
          has_eq_false_iff.2 fun r hr hkey => unique.1 (hold ▸ hkey ▸ List.mem_map_of_mem hr)
        have hrest := update_of_has_eq_false (f := (merge · row)) hrows
        simp only [put, beq_iff_eq, hold, if_true]
        exact congrArg₂ List.cons (by simp [hold]) hrest.symm
      · have hrows : Table.has (Keyed.key row) rows = true := by simpa [has, hold] using h
        simp only [put, beq_iff_eq, hold, if_false, ih unique.2 hrows]
        exact congrArg (· :: _) (by simp [hold])

/-- Where keys are unique, a change under the key of a row is known by what it does to the row. -/
theorem update_congr (unique : (table.map Keyed.key).Nodup) (hrow : row ∈ table) {f g : α → α}
    (h : f row = g row) : table.update (Keyed.key row) f = table.update (Keyed.key row) g := by
  refine List.map_congr_left fun other hother => ?_
  by_cases hkey : Keyed.key other = Keyed.key row
  · obtain rfl : other = row := List.inj_on_of_nodup_map unique hother hrow hkey
    simp [h]
  · simp [hkey]

theorem put_of_mem {old : α} (unique : (table.map Keyed.key).Nodup) (hold : old ∈ table)
    (hkey : Keyed.key row = Keyed.key old) {f : α → α} (hmerge : merge old row = f old) :
    table.put merge row = table.update (Keyed.key old) f := by
  rw [put_of_has unique (hkey ▸ has_of_mem hold), hkey]
  exact update_congr unique hold hmerge

/-- Writing a stored row as it is changes nothing if a merge with itself does not change it. -/
theorem put_self (unique : (table.map Keyed.key).Nodup) (h : row ∈ table)
    (hmerge : merge row row = row) : table.put merge row = table := by
  rw [put_of_mem (f := id) unique h rfl hmerge, update]
  simp

/-- Where the values of a column are unique, no other row holds that of a stored row. -/
theorem isTaken_of_mem [BEq β] [LawfulBEq β] {column : α → β} {old : α}
    (unique : (table.map column).Nodup) (hold : old ∈ table)
    (hkey : Keyed.key row = Keyed.key old) (hcolumn : column row = column old) :
    table.isTaken column row = false := by
  rw [isTaken, List.any_eq_false]
  intro other hother
  rw [Bool.and_eq_true, bne_iff_ne, beq_iff_eq, hkey, hcolumn]
  intro ⟨hne, hsame⟩
  obtain rfl : other = old := List.inj_on_of_nodup_map unique hother hold hsame
  exact hne rfl

theorem row?_map {f : α → α} (keeps : ∀ row, Keyed.key (f row) = Keyed.key row) (key : String)
    (table : Table α) : Table.row? key (table.map f) = (table.row? key).map f := by
  simp only [row?, List.find?_map, Function.comp_def, keeps]

theorem row?_update {f : α → α} (keeps : ∀ row, Keyed.key (f row) = Keyed.key row)
    (changed key : String) (table : Table α) :
    (table.update changed f).row? key =
      if changed = key then (table.row? key).map f else table.row? key := by
  have hkeeps : ∀ row, Keyed.key (if Keyed.key row == changed then f row else row) =
      Keyed.key row := fun row => by split <;> simp [keeps]
  rw [update, row?_map hkeeps]
  cases h : table.row? key with
  | none => simp
  | some row =>
      have hkey := key_of_row? h
      by_cases hchanged : changed = key
      · simp [hkey, hchanged]
      · simp [hkey, hchanged, Ne.symm hchanged]

theorem has_map {f : α → α} (keeps : ∀ row, Keyed.key (f row) = Keyed.key row) (key : String)
    (table : Table α) : Table.has key (table.map f) = table.has key := by
  simp only [has, List.any_map, Function.comp_def, keeps]

theorem has_filter {p : α → Bool} (h : table.has key = true)
    (kept : ∀ row ∈ table, Keyed.key row = key → p row = true) :
    Table.has key (table.filter p) = true := by
  obtain ⟨row, hrow, hkey⟩ := has_iff.1 h
  exact has_iff.2 ⟨row, List.mem_filter.2 ⟨hrow, kept row hrow hkey⟩, hkey⟩

/-- A row that was written leaves nothing behind when it is removed. -/
theorem remove_put (keeps : KeepsKey merge) (row : α) (table : Table α) :
    (table.put merge row).remove (Keyed.key row) = table.remove (Keyed.key row) := by
  induction table with
  | nil => simp [put, remove]
  | cons old rows ih =>
      by_cases hold : Keyed.key old = Keyed.key row
      · simp [put, remove, hold, keeps old row hold]
      · simp only [put, remove, beq_iff_eq, hold, if_false, List.filter_cons] at ih ⊢
        rw [ih]

theorem has_remove {id : String} (h : table.has key = true) (hne : key ≠ id) :
    (table.remove id).has key = true := by
  refine has_filter h ?_
  rintro row - rfl
  exact bne_iff_ne.2 hne

theorem has_remove_self (key : String) (table : Table α) : (table.remove key).has key = false :=
  has_eq_false_iff.2 fun _ hrow => bne_iff_ne.1 (List.mem_filter.1 hrow).2

theorem filter_remove {id : String} {p : α → Bool}
    (h : ∀ row ∈ table, Keyed.key row = id → p row = false) :
    (table.remove id).filter p = table.filter p := by
  rw [remove, List.filter_filter]
  refine List.filter_congr fun row hrow => ?_
  by_cases hid : Keyed.key row = id
  · rw [h row hrow hid, Bool.false_and]
  · rw [bne_iff_ne.2 hid, Bool.and_true]

theorem row?_remove {id : String} (hne : key ≠ id) (table : Table α) :
    (table.remove id).row? key = table.row? key := by
  unfold row?
  rw [← List.head?_filter, ← List.head?_filter, filter_remove]
  rintro row - rfl
  exact beq_false_of_ne hne.symm

/-- Where keys are unique, a row is found after some rows are removed iff it is not one of
them. -/
theorem row?_filter (unique : (table.map Keyed.key).Nodup) (p : α → Bool) (key : String) :
    Table.row? key (table.filter p) = (table.row? key).filter p := by
  induction table with
  | nil => rfl
  | cons old rows ih =>
      rw [List.map_cons, List.nodup_cons] at unique
      by_cases hkey : Keyed.key old = key
      · have hnone : Table.row? key (rows.filter p) = none := by
          simp only [row?, List.find?_eq_none, List.mem_filter, beq_iff_eq]
          rintro r ⟨hr, -⟩ h
          exact unique.1 (hkey ▸ h ▸ List.mem_map_of_mem hr)
        have hold : Table.row? key (old :: rows) = some old := by simp [row?, hkey]
        rw [hold, List.filter_cons, Option.filter_some]
        split
        · simp [row?, hkey]
        · exact hnone
      · have hrest : Table.row? key (old :: rows) = Table.row? key rows := by
          simp [row?, hkey]
        rw [hrest, ← ih unique.2]
        cases hp : p old <;> simp [row?, hp, hkey]

theorem row?_filter_cases (unique : (table.map Keyed.key).Nodup) (p : α → Bool) (key : String) :
    Table.row? key (table.filter p) = none ∨
      Table.row? key (table.filter p) = table.row? key := by
  rw [row?_filter unique]
  cases table.row? key with
  | none => exact .inl rfl
  | some row => cases h : p row <;> simp [h]

end Gazette.Table
