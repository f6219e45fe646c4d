/-!
# Maps sorted by name

A map from names to values, kept as a list of pairs in strictly ascending order of names. Names are
ordered by code points. Writing a name that is there replaces its value, so equal maps have equal
lists.
-/

namespace UriRouting

/-- Inserts a pair into a list that is sorted by name, replacing the pair of the same name. -/
def insertSorted {α : Type} (name : String) (value : α) : List (String × α) → List (String × α)
  | [] => [(name, value)]
  | (key, old) :: rest =>
    if name < key then (name, value) :: (key, old) :: rest
    else if key < name then (key, old) :: insertSorted name value rest
    else (name, value) :: rest

/-- What is in the list after an insertion was there before, or is the new pair. -/
theorem mem_insertSorted {α : Type} {name : String} {value : α} {entries : List (String × α)}
    {entry : String × α} (h : entry ∈ insertSorted name value entries) :
    entry = (name, value) ∨ entry ∈ entries := by
  induction entries with
  | nil => exact Or.inl (List.mem_singleton.1 h)
  | cons head rest ih =>
    obtain ⟨key, old⟩ := head
    simp only [insertSorted] at h
    split at h
    · exact List.mem_cons.1 h
    · split at h
      · rcases List.mem_cons.1 h with rfl | h
        · exact Or.inr List.mem_cons_self
        · exact (ih h).imp_right (List.mem_cons_of_mem _)
      · rcases List.mem_cons.1 h with rfl | h
        · exact Or.inl rfl
        · exact Or.inr (List.mem_cons_of_mem _ h)

/-- An insertion keeps a list sorted. -/
theorem pairwise_insertSorted {α : Type} (name : String) (value : α) {entries : List (String × α)}
    (h : entries.Pairwise (·.1 < ·.1)) : (insertSorted name value entries).Pairwise (·.1 < ·.1) := by
  induction entries with
  | nil => simp [insertSorted]
  | cons head rest ih =>
    obtain ⟨key, old⟩ := head
    obtain ⟨hhead, hrest⟩ := List.pairwise_cons.1 h
    simp only [insertSorted]
    split
    · rename_i hlt
      refine List.pairwise_cons.2 ⟨fun e he => ?_, h⟩
      rcases List.mem_cons.1 he with rfl | he
      · exact hlt
      · exact String.lt_trans hlt (hhead e he)
    · split
      · rename_i hlt
        refine List.pairwise_cons.2 ⟨fun e he => ?_, ih hrest⟩
        rcases mem_insertSorted he with rfl | he
        · exact hlt
        · exact hhead e he
      · rename_i hge hle
        have heq : key = name := String.le_antisymm (String.not_lt.1 hge) (String.not_lt.1 hle)
        exact List.pairwise_cons.2 ⟨fun e he => heq ▸ hhead e he, hrest⟩

/-- A name behind all others is inserted at the end. -/
theorem insertSorted_of_forall_lt {α : Type} {name : String} {value : α}
    {entries : List (String × α)} (h : ∀ entry ∈ entries, entry.1 < name) :
    insertSorted name value entries = entries ++ [(name, value)] := by
  induction entries with
  | nil => rfl
  | cons head rest ih =>
    obtain ⟨key, old⟩ := head
    obtain ⟨hhead, hrest⟩ := List.forall_mem_cons.1 h
    have hnot : ¬ name < key := fun hlt => String.lt_irrefl _ (String.lt_trans hlt hhead)
    rw [insertSorted, if_neg hnot, if_pos hhead, ih hrest, List.cons_append]

/-- The names after an insertion are those before and the new one. -/
theorem mem_map_insertSorted {α : Type} {name key : String} {value : α}
    {entries : List (String × α)} :
    key ∈ (insertSorted name value entries).map (·.1) ↔ key = name ∨ key ∈ entries.map (·.1) := by
  induction entries with
  | nil => simp [insertSorted]
  | cons head rest ih =>
    obtain ⟨first, old⟩ := head
    simp only [insertSorted]
    split
    · simp
    · split
      · rw [List.map_cons, List.mem_cons, ih, List.map_cons, List.mem_cons]
        exact or_left_comm
      · rename_i hge hle
        have heq : first = name := String.le_antisymm (String.not_lt.1 hge) (String.not_lt.1 hle)
        simp [heq]

/-- A map from names to values. -/
structure SortedMap (α : Type) where
  /-- The pairs, in ascending order of names. -/
  toList : List (String × α)
  /-- No name comes twice, and the names ascend. -/
  sorted : toList.Pairwise (·.1 < ·.1)

namespace SortedMap

variable {α : Type}

/-- The map without names. -/
def empty : SortedMap α :=
  ⟨[], List.Pairwise.nil⟩

instance : Inhabited (SortedMap α) := ⟨empty⟩

/-- The map with a value written under a name. -/
def insert (map : SortedMap α) (name : String) (value : α) : SortedMap α :=
  ⟨insertSorted name value map.toList, pairwise_insertSorted name value map.sorted⟩

/-- The map after several values were written, one after another. -/
def insertMany (map : SortedMap α) (pairs : List (String × α)) : SortedMap α :=
  pairs.foldl (fun map (name, value) => map.insert name value) map

/-- The map of a list of pairs; of pairs with the same name the last one counts. -/
def ofList (pairs : List (String × α)) : SortedMap α :=
  empty.insertMany pairs

/-- The value under a name. -/
def get? (map : SortedMap α) (name : String) : Option α :=
  (map.toList.find? (·.1 == name)).map (·.2)

/-- Whether there is a value under a name. -/
def contains (map : SortedMap α) (name : String) : Bool :=
  map.toList.any (·.1 == name)

/-- The names, in ascending order. -/
def names (map : SortedMap α) : List String :=
  map.toList.map (·.1)

instance [BEq α] : BEq (SortedMap α) := ⟨fun a b => a.toList == b.toList⟩

@[ext] theorem ext {a b : SortedMap α} (h : a.toList = b.toList) : a = b := by
  cases a
  cases b
  simp_all

/-- Writing pairs whose names ascend from those of the map on adds them at the end. -/
theorem toList_insertMany {map : SortedMap α} {pairs : List (String × α)}
    (h : (map.toList ++ pairs).Pairwise (·.1 < ·.1)) :
    (map.insertMany pairs).toList = map.toList ++ pairs := by
  induction pairs generalizing map with
  | nil => exact (List.append_nil _).symm
  | cons pair pairs ih =>
    have hlast : (map.insert pair.1 pair.2).toList = map.toList ++ [pair] :=
      insertSorted_of_forall_lt fun entry hentry =>
        (List.pairwise_append.1 h).2.2 entry hentry pair List.mem_cons_self
    have hnext : ((map.insert pair.1 pair.2).toList ++ pairs).Pairwise (·.1 < ·.1) := by
      rw [hlast, List.append_assoc]
      exact h
    calc (map.insertMany (pair :: pairs)).toList
      _ = ((map.insert pair.1 pair.2).insertMany pairs).toList := rfl
      _ = (map.insert pair.1 pair.2).toList ++ pairs := ih hnext
      _ = map.toList ++ pair :: pairs := by rw [hlast, List.append_assoc, List.singleton_append]

theorem mem_names_insertMany {map : SortedMap α} {pairs : List (String × α)} {name : String} :
    name ∈ (map.insertMany pairs).names ↔ name ∈ map.names ∨ name ∈ pairs.map (·.1) := by
  induction pairs generalizing map with
  | nil => simp [insertMany]
  | cons pair pairs ih =>
    have hinsert : name ∈ (map.insert pair.1 pair.2).names ↔ name = pair.1 ∨ name ∈ map.names :=
      mem_map_insertSorted
    rw [show map.insertMany (pair :: pairs) = (map.insert pair.1 pair.2).insertMany pairs from rfl,
      ih, hinsert, List.map_cons, List.mem_cons]
    constructor
    · rintro ((h | h) | h)
      · exact Or.inr (Or.inl h)
      · exact Or.inl h
      · exact Or.inr (Or.inr h)
    · rintro (h | h | h)
      · exact Or.inl (Or.inr h)
      · exact Or.inl (Or.inl h)
      · exact Or.inr h

/-- The map of some pairs has their names. -/
theorem mem_names_ofList {pairs : List (String × α)} {name : String} :
    name ∈ (ofList pairs).names ↔ name ∈ pairs.map (·.1) := by
  rw [ofList, mem_names_insertMany]
  simp [names, empty]

/-- The names ascend. -/
theorem pairwise_names (map : SortedMap α) : map.names.Pairwise (· < ·) :=
  List.pairwise_map.2 map.sorted

/-- A map is the map of its pairs. -/
@[simp] theorem ofList_toList (map : SortedMap α) : ofList map.toList = map :=
  ext (toList_insertMany (by exact map.sorted))

end SortedMap

end UriRouting
