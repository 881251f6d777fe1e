import Mathlib.Data.List.Nodup

/-!
Tables whose rows are numbered as they come in. A number is given once, also when its row is gone,
and no two rows agree in a column with a unique index.
-/

structure Serial (ρ : Type) (id : ρ → Int) (indexes : List (ρ → String)) where
  rows : List ρ
  next : Int
  below : ∀ row ∈ rows, id row < next
  numbered : (rows.map id).Nodup
  unique : ∀ index ∈ indexes, (rows.map index).Nodup

namespace Serial

variable {ρ : Type} {id : ρ → Int} {indexes : List (ρ → String)}

instance : EmptyCollection (Serial ρ id indexes) :=
  ⟨⟨[], 1, by simp, by simp, by simp⟩⟩

instance : Inhabited (Serial ρ id indexes) := ⟨∅⟩

@[simp] theorem rows_empty : (∅ : Serial ρ id indexes).rows = [] := rfl

/-- A unique index already has this row's value. -/
def taken (table : Serial ρ id indexes) (row : ρ) : Bool :=
  indexes.any fun index => table.rows.any fun other => index other = index row

theorem not_mem_of_not_taken {table : Serial ρ id indexes} {row : ρ}
    (free : table.taken row = false) {index : ρ → String} (isIndex : index ∈ indexes) :
    index row ∉ table.rows.map index := by
  intro member
  obtain ⟨other, otherMember, same⟩ := List.mem_map.1 member
  have isTaken : table.taken row = true := by
    simp only [taken, List.any_eq_true, decide_eq_true_eq]
    exact ⟨index, isIndex, other, otherMember, same⟩
  exact Bool.noConfusion (free.symm.trans isTaken)

theorem nodup_concat {β : Type} {values : List β} {value : β} (nodup : values.Nodup)
    (fresh : value ∉ values) : (values ++ [value]).Nodup := by
  rw [List.nodup_append]
  refine ⟨nodup, by simp, ?_⟩
  intro other member last isLast same
  rw [List.mem_singleton] at isLast
  exact fresh (isLast ▸ same ▸ member)

def insert? (table : Serial ρ id indexes) (make : Int → ρ) (numbers : ∀ n, id (make n) = n) :
    Option (Serial ρ id indexes) :=
  if free : table.taken (make table.next) = false then
    some {
      rows := table.rows ++ [make table.next]
      next := table.next + 1
      below := by
        intro row member
        rcases List.mem_append.1 member with old | new
        · have older := table.below row old
          omega
        · rw [List.mem_singleton.1 new, numbers]; omega
      numbered := by
        rw [List.map_append]
        refine nodup_concat table.numbered ?_
        rw [numbers]
        intro member
        obtain ⟨row, old, same⟩ := List.mem_map.1 member
        exact absurd (table.below row old) (by omega)
      unique := by
        intro index isIndex
        rw [List.map_append]
        exact nodup_concat (table.unique index isIndex) (not_mem_of_not_taken free isIndex) }
  else none

def changed (chosen : ρ → Bool) (change : ρ → ρ) (row : ρ) : ρ :=
  if chosen row then change row else row

theorem column_changed {β : Type} {chosen : ρ → Bool} {change : ρ → ρ} {row : ρ} (column : ρ → β)
    (kept : column (change row) = column row) :
    column (changed chosen change row) = column row := by
  simp only [changed]
  split
  · exact kept
  · rfl

/-- The numbers and the indexed columns stay as they are. -/
def modify (table : Serial ρ id indexes) (chosen : ρ → Bool) (change : ρ → ρ)
    (keeps : ∀ row, id (change row) = id row)
    (keepsIndexes : ∀ index ∈ indexes, ∀ row, index (change row) = index row) :
    Serial ρ id indexes :=
  have same {β : Type} (column : ρ → β) (kept : ∀ row, column (change row) = column row) :
      (table.rows.map (changed chosen change)).map column = table.rows.map column := by
    rw [List.map_map]
    exact List.map_congr_left fun row _ => column_changed column (kept row)
  { rows := table.rows.map (changed chosen change)
    next := table.next
    below := by
      intro row member
      have numberMember := List.mem_map_of_mem (f := id) member
      rw [same id keeps] at numberMember
      obtain ⟨old, oldMember, eq⟩ := List.mem_map.1 numberMember
      exact eq ▸ table.below old oldMember
    numbered := (same id keeps).symm ▸ table.numbered
    unique := fun index isIndex =>
      (same index (keepsIndexes index isIndex)).symm ▸ table.unique index isIndex }

def deleteWhere (table : Serial ρ id indexes) (gone : ρ → Bool) : Serial ρ id indexes where
  rows := table.rows.filter fun row => !gone row
  next := table.next
  below := fun row member => table.below row (List.mem_filter.1 member).1
  numbered := table.numbered.sublist (List.filter_sublist.map id)
  unique := fun index isIndex =>
    (table.unique index isIndex).sublist (List.filter_sublist.map index)

variable {table table' : Serial ρ id indexes} {row row' : ρ}

theorem eq_of_id_eq (member : row ∈ table.rows) (member' : row' ∈ table.rows)
    (same : id row = id row') : row = row' :=
  List.inj_on_of_nodup_map table.numbered member member' same

theorem eq_of_index_eq {index : ρ → String} (isIndex : index ∈ indexes)
    (member : row ∈ table.rows) (member' : row' ∈ table.rows)
    (same : index row = index row') : row = row' :=
  List.inj_on_of_nodup_map (table.unique index isIndex) member member' same

/-- Looking up by a column without repetitions finds the row with that value. -/
theorem find_unique {β : Type} [DecidableEq β] {rows : List ρ} {column : ρ → β}
    (distinct : (rows.map column).Nodup) {value : β} :
    rows.find? (fun row => column row = value) = some row ↔ row ∈ rows ∧ column row = value := by
  constructor
  · intro found
    exact ⟨List.mem_of_find?_eq_some found, by simpa using List.find?_some found⟩
  · rintro ⟨member, rfl⟩
    cases found : rows.find? fun other => column other = column row with
    | none =>
        have absent := List.find?_eq_none.1 found row member
        simp at absent
    | some other =>
        have same : column other = column row := by simpa using List.find?_some found
        rw [List.inj_on_of_nodup_map distinct (List.mem_of_find?_eq_some found) member same]

theorem find_id {n : Int} :
    table.rows.find? (fun row => id row = n) = some row ↔ row ∈ table.rows ∧ id row = n :=
  find_unique table.numbered

theorem find_index {index : ρ → String} (isIndex : index ∈ indexes) {value : String} :
    table.rows.find? (fun row => index row = value) = some row ↔
      row ∈ table.rows ∧ index row = value :=
  find_unique (table.unique index isIndex)

section Insert

variable {make : Int → ρ} {numbers : ∀ n, id (make n) = n}

theorem insert?_eq_some (inserted : table.insert? make numbers = some table') :
    table.taken (make table.next) = false ∧ table'.rows = table.rows ++ [make table.next] ∧
      table'.next = table.next + 1 := by
  simp only [insert?] at inserted
  split at inserted
  · rename_i free
    cases inserted
    exact ⟨free, rfl, rfl⟩
  · cases inserted

theorem insert?_isSome : (table.insert? make numbers).isSome ↔
    table.taken (make table.next) = false := by
  simp only [insert?]
  split
  · rename_i free; simp [free]
  · rename_i isTaken; simp [isTaken]

theorem mem_insert? (inserted : table.insert? make numbers = some table') :
    row ∈ table'.rows ↔ row ∈ table.rows ∨ row = make table.next := by
  rw [(insert?_eq_some inserted).2.1]
  simp

end Insert

@[simp] theorem next_deleteWhere {gone : ρ → Bool} :
    (table.deleteWhere gone).next = table.next := rfl

@[simp] theorem mem_deleteWhere {gone : ρ → Bool} :
    row ∈ (table.deleteWhere gone).rows ↔ row ∈ table.rows ∧ gone row = false := by
  simp [deleteWhere]

end Serial
