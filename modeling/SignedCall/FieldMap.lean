/-!
# Named values in order

Values under names that are distinct and keep their order. A value put under a known name takes the place of the old one, a
new name goes to the end. Main statements: what is found after each operation (`get?_insert`, `get?_erase`, `get?_filter`),
and what becomes of the order of the names when one is put (`names_insert`).
-/

namespace SignedCall

/-- Values under distinct names, in order. -/
structure FieldMap (α : Type) where
  entries : List (String × α)
  nodup : (entries.map Prod.fst).Nodup

namespace FieldMap

variable {α β : Type}

/-- No names at all. -/
def empty : FieldMap α := ⟨[], List.nodup_nil⟩

instance : EmptyCollection (FieldMap α) := ⟨empty⟩
instance : Inhabited (FieldMap α) := ⟨empty⟩

/-- Two maps are equal when their entries are, in the same order. -/
@[ext] theorem ext {m m' : FieldMap α} (h : m.entries = m'.entries) : m = m' := by
  cases m; cases m'; cases h; rfl

instance [DecidableEq α] : DecidableEq (FieldMap α) := fun m m' =>
  if h : m.entries = m'.entries then isTrue (ext h) else isFalse fun e => h (e ▸ rfl)

/-- The names, in order. -/
def names (m : FieldMap α) : List String := m.entries.map Prod.fst

/-- The value under a name. -/
def get? (m : FieldMap α) (name : String) : Option α := m.entries.lookup name

/-- Whether there is a value under a name. -/
def contains (m : FieldMap α) (name : String) : Bool := (m.get? name).isSome

/-- Entries with a value put under a name. -/
def putEntry (name : String) (value : α) : List (String × α) → List (String × α)
  | [] => [(name, value)]
  | (n, v) :: rest => if n = name then (n, value) :: rest else (n, v) :: putEntry name value rest

/-- A value under a new name goes to the end. -/
theorem putEntry_of_not_mem {name : String} {es : List (String × α)} (h : name ∉ es.map Prod.fst) (value : α) :
    putEntry name value es = es ++ [(name, value)] := by
  induction es with
  | nil => rfl
  | cons e es ih =>
    rw [List.map_cons, List.mem_cons, not_or] at h
    rw [putEntry, if_neg (Ne.symm h.1), ih h.2, List.cons_append]

/-- Putting a value under a known name leaves the names as they are; a new name goes to the end. -/
theorem map_fst_putEntry (name : String) (value : α) (es : List (String × α)) :
    (putEntry name value es).map Prod.fst =
      if name ∈ es.map Prod.fst then es.map Prod.fst else es.map Prod.fst ++ [name] := by
  induction es with
  | nil => simp [putEntry]
  | cons e es ih =>
    obtain ⟨n, v⟩ := e
    unfold putEntry
    by_cases h : n = name
    · simp [h]
    · have h' : name ≠ n := fun e => h e.symm
      rw [if_neg h]
      simp only [List.map_cons, ih, List.mem_cons, h', false_or]
      split <;> rfl

/-- Putting a value keeps the names distinct. -/
theorem nodup_putEntry {name : String} {value : α} {es : List (String × α)} (h : (es.map Prod.fst).Nodup) :
    ((putEntry name value es).map Prod.fst).Nodup := by
  rw [map_fst_putEntry]
  split
  · exact h
  next hn =>
    rw [List.nodup_append]
    refine ⟨h, by simp, ?_⟩
    rintro a ha b hb rfl
    exact hn (List.mem_singleton.1 hb ▸ ha)

/-- Puts a value under a name. -/
def insert (m : FieldMap α) (name : String) (value : α) : FieldMap α :=
  ⟨putEntry name value m.entries, nodup_putEntry m.nodup⟩

/-- Keeps the entries whose name satisfies a condition. -/
def filter (m : FieldMap α) (p : String → Bool) : FieldMap α :=
  ⟨m.entries.filter fun e => p e.1, m.nodup.sublist ((List.filter_sublist).map Prod.fst)⟩

/-- Removes a name. -/
def erase (m : FieldMap α) (name : String) : FieldMap α := m.filter (· ≠ name)

/-- Applies a function to every value. -/
def mapValues (m : FieldMap α) (f : α → β) : FieldMap β :=
  ⟨m.entries.map fun e => (e.1, f e.2), by
    simpa [List.map_map, Function.comp_def] using m.nodup⟩

/-- Puts values under names one after the other. -/
def insertAll (m : FieldMap α) (es : List (String × α)) : FieldMap α :=
  es.foldl (fun m e => m.insert e.1 e.2) m

/-- The values under the given names; of a repeated name the last value counts, in the place of the first. -/
def ofList (es : List (String × α)) : FieldMap α := empty.insertAll es

@[simp] theorem get?_empty (name : String) : (empty : FieldMap α).get? name = none := rfl

/-- A value that was put is found under its name, and under every other name what was there before. -/
theorem lookup_putEntry (name name' : String) (value : α) (es : List (String × α)) :
    (putEntry name value es).lookup name' = if name' = name then some value else es.lookup name' := by
  induction es with
  | nil =>
    by_cases h : name' = name
    · simp [putEntry, h]
    · have hb : (name' == name) = false := by simpa using h
      simp [putEntry, List.lookup_cons, h, hb]
  | cons e es ih =>
    obtain ⟨n, v⟩ := e
    unfold putEntry
    by_cases hn : n = name
    · subst hn
      by_cases h : name' = n
      · simp [h]
      · have hb : (name' == n) = false := by simpa using h
        simp [List.lookup_cons, h, hb]
    · by_cases h : name' = n
      · subst h
        simp [hn]
      · have hb : (name' == n) = false := by simpa using h
        rw [if_neg hn]
        simp [List.lookup_cons, hb, ih]

/-- What is found after a value was put under a name. -/
theorem get?_insert (m : FieldMap α) (name name' : String) (value : α) :
    (m.insert name value).get? name' = if name' = name then some value else m.get? name' :=
  lookup_putEntry name name' value m.entries

/-- Entries chosen by their names are found as before, and no others. -/
theorem lookup_filter (p : String → Bool) (name : String) (es : List (String × α)) :
    (es.filter fun e => p e.1).lookup name = if p name then es.lookup name else none := by
  induction es with
  | nil => simp
  | cons e es ih =>
    obtain ⟨n, v⟩ := e
    by_cases h : name = n
    · subst h
      by_cases hp : p name
      · simp [hp]
      · simpa [hp] using ih
    · have hb : (name == n) = false := by simpa using h
      by_cases hp : p n
      · simpa [hp, List.lookup_cons, hb] using ih
      · simpa [hp, List.lookup_cons, hb] using ih

/-- What is found after names were filtered. -/
theorem get?_filter (m : FieldMap α) (p : String → Bool) (name : String) :
    (m.filter p).get? name = if p name then m.get? name else none :=
  lookup_filter p name m.entries

/-- What is found after a name was removed. -/
theorem get?_erase (m : FieldMap α) (name name' : String) :
    (m.erase name).get? name' = if name' = name then none else m.get? name' := by
  rw [erase, get?_filter]
  by_cases h : name' = name <;> simp [h]

/-- Values that are all changed alike are found changed. -/
theorem lookup_map_snd (f : α → β) (name : String) (es : List (String × α)) :
    (es.map fun e => (e.1, f e.2)).lookup name = (es.lookup name).map f := by
  induction es with
  | nil => rfl
  | cons e es ih =>
    rw [List.map_cons, List.lookup_cons, List.lookup_cons]
    cases name == e.1 with
    | true => rfl
    | false => exact ih

/-- What is found after a function was applied to every value. -/
theorem get?_mapValues (m : FieldMap α) (f : α → β) (name : String) : (m.mapValues f).get? name = (m.get? name).map f :=
  lookup_map_snd f name m.entries

/-- Where names are distinct, every entry is the one that is found under its name. -/
theorem lookup_of_mem {name : String} {value : α} {es : List (String × α)} (h : (es.map Prod.fst).Nodup)
    (hmem : (name, value) ∈ es) : es.lookup name = some value := by
  induction es with
  | nil => cases hmem
  | cons e es ih =>
    rw [List.map_cons, List.nodup_cons] at h
    rcases List.mem_cons.1 hmem with rfl | hmem
    · simp
    · have hb : (name == e.1) = false := by
        rw [beq_eq_false_iff_ne]
        rintro rfl
        exact h.1 (List.mem_map.2 ⟨_, hmem, rfl⟩)
      rw [List.lookup_cons, hb]
      exact ih h.2 hmem

/-- Every entry is found under its name. -/
theorem get?_of_mem {m : FieldMap α} {name : String} {value : α} (h : (name, value) ∈ m.entries) : m.get? name = some value :=
  lookup_of_mem m.nodup h

/-- A value put under a name makes no difference to the entries under the other names. -/
theorem filter_putEntry (name : String) (value : α) (es : List (String × α)) :
    ((putEntry name value es).filter fun e => e.1 ≠ name) = es.filter fun e => e.1 ≠ name := by
  induction es with
  | nil => simp [putEntry]
  | cons e es ih =>
    obtain ⟨n, v⟩ := e
    unfold putEntry
    by_cases h : n = name
    · simp [h]
    · rw [if_neg h, List.filter_cons, List.filter_cons, ih]

/-- Nothing is left of a value put under a name that is removed. -/
theorem erase_insert (m : FieldMap α) (name : String) (value : α) : (m.insert name value).erase name = m.erase name :=
  ext (filter_putEntry name value m.entries)

/-- The names after a value was put under one: a new name goes to the end. -/
theorem names_insert (m : FieldMap α) (name : String) (value : α) :
    (m.insert name value).names = if name ∈ m.names then m.names else m.names ++ [name] :=
  map_fst_putEntry name value m.entries

end FieldMap

end SignedCall
