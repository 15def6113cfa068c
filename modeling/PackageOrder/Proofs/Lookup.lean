/-
PackageOrder.Proofs.Lookup — association lists by what is found in them.

The tables of this library are lists of pairs that are read through
`List.lookup`. Each change that is made to one has a lemma that says what is
found afterwards, under the same key and under any other.
-/
import PackageOrder.Json.Decode

namespace PackageOrder

/-- A key is there exactly when looking it up finds something. -/
theorem lookup_isSome_iff_mem_keys {α : Type} (table : List (String × α)) (key : String) :
    (table.lookup key).isSome = true ↔ key ∈ table.map (·.1) := by
  rw [List.lookup_isSome_iff]
  constructor
  · rintro ⟨entry, hentry, hkey⟩
    exact List.mem_map.mpr ⟨entry, hentry, (beq_iff_eq.mp hkey).symm⟩
  · intro h
    obtain ⟨entry, hentry, hkey⟩ := List.mem_map.mp h
    exact ⟨entry, hentry, beq_iff_eq.mpr hkey.symm⟩

/-- Values that change by a function of their keys are found changed. -/
theorem lookup_map_values {α β : Type} (f : String → α → β) (key : String) :
    ∀ table : List (String × α),
      (table.map fun entry => (entry.1, f entry.1 entry.2)).lookup key
        = (table.lookup key).map (f key)
  | [] => rfl
  | (k, value) :: rest => by
      simp only [List.map_cons, List.lookup_cons]
      cases hk : key == k with
      | true => simp [beq_iff_eq.mp hk]
      | false => exact lookup_map_values f key rest

/-- Without the entries of a key the other keys are found as before. -/
theorem lookup_filter_ne {α : Type} (removed key : String) :
    ∀ table : List (String × α),
      (table.filter fun entry => decide (entry.1 ≠ removed)).lookup key
        = if key = removed then none else table.lookup key
  | [] => by simp
  | (k, value) :: rest => by
      by_cases hk : k = removed
      · rw [List.filter_cons_of_neg (by simp [hk]), lookup_filter_ne removed key rest]
        by_cases hkey : key = removed
        · simp [hkey]
        · have hne : (key == k) = false := by rw [beq_eq_false_iff_ne, hk]; exact hkey
          simp [hkey, List.lookup_cons, hne]
      · rw [List.filter_cons_of_pos (by simp [hk]), List.lookup_cons, List.lookup_cons]
        cases heq : key == k with
        | true =>
            have hkey : key ≠ removed := by rw [beq_iff_eq.mp heq]; exact hk
            simp [hkey]
        | false => exact lookup_filter_ne removed key rest

/-- A table that is made from its keys holds a value for each of them. -/
theorem lookup_map_of_keys {α : Type} (f : String → α) (key : String) :
    ∀ keys : List String,
      (keys.map fun k => (k, f k)).lookup key = if key ∈ keys then some (f key) else none
  | [] => by simp
  | k :: rest => by
      rw [List.map_cons, List.lookup_cons, lookup_map_of_keys f key rest]
      cases hk : key == k with
      | true => simp [beq_iff_eq.mp hk]
      | false => simp [beq_eq_false_iff_ne.mp hk]

/-- What is in a table after a pair was inserted is that pair or was there before. -/
theorem mem_of_mem_insertPair {α : Type} {key : String} {value : α} {table : List (String × α)}
    {entry : String × α} (h : entry ∈ Json.Decoder.insertPair key value table) :
    entry = (key, value) ∨ entry ∈ table := by
  induction table with
  | nil => exact Or.inl (List.mem_singleton.mp h)
  | cons first rest ih =>
    obtain ⟨k, v⟩ := first
    rw [Json.Decoder.insertPair] at h
    split at h
    · rename_i hkey
      rcases List.mem_cons.mp h with rfl | h
      · exact Or.inl (by rw [hkey])
      · exact Or.inr (List.mem_cons_of_mem _ h)
    · rcases List.mem_cons.mp h with rfl | h
      · exact Or.inr List.mem_cons_self
      · exact (ih h).imp_right (List.mem_cons_of_mem _)

/-- What is in a table after pairs were inserted is one of them or was there before. -/
theorem mem_foldl_insertPair {α β : Type} {key : β → String} {value : β → α} {items : List β}
    {table : List (String × α)} {entry : String × α}
    (h : entry ∈ items.foldl (fun found item =>
      Json.Decoder.insertPair (key item) (value item) found) table) :
    (∃ item ∈ items, entry = (key item, value item)) ∨ entry ∈ table := by
  induction items generalizing table with
  | nil => exact Or.inr h
  | cons first rest ih =>
    rcases ih h with ⟨item, hitem, heq⟩ | h
    · exact Or.inl ⟨item, List.mem_cons_of_mem _ hitem, heq⟩
    · exact (mem_of_mem_insertPair h).imp_left fun heq => ⟨first, List.mem_cons_self, heq⟩

/-- An inserted pair is found under its own key and hides nothing else. -/
theorem lookup_insertPair {α : Type} (key : String) (value : α) (other : String) :
    ∀ table : List (String × α),
      (Json.Decoder.insertPair key value table).lookup other
        = if other = key then some value else table.lookup other
  | [] => by
      rw [Json.Decoder.insertPair, List.lookup_cons]
      cases ho : other == key with
      | true => simp [beq_iff_eq.mp ho]
      | false => simp [beq_eq_false_iff_ne.mp ho]
  | (k, held) :: rest => by
      rw [Json.Decoder.insertPair]
      by_cases hk : k = key
      · rw [if_pos hk, List.lookup_cons, List.lookup_cons, hk]
        cases ho : other == key with
        | true => simp [beq_iff_eq.mp ho]
        | false => simp [beq_eq_false_iff_ne.mp ho]
      · rw [if_neg hk, List.lookup_cons, List.lookup_cons, lookup_insertPair key value other rest]
        cases heq : other == k with
        | true =>
            have ho : other ≠ key := by rw [beq_iff_eq.mp heq]; exact hk
            simp [ho]
        | false => rfl

end PackageOrder
