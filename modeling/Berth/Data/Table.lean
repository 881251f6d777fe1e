import Mathlib.Data.List.Nodup

/-!
Tables with a unique key. The rows keep the order they were inserted in, and no two rows of a
table have the same key.
-/

structure Table (ρ κ : Type) (key : ρ → κ) where
  rows : List ρ
  distinct : (rows.map key).Nodup

namespace Table

variable {ρ κ : Type} [DecidableEq κ] {key : ρ → κ}

instance : EmptyCollection (Table ρ κ key) := ⟨⟨[], List.nodup_nil⟩⟩

instance : Inhabited (Table ρ κ key) := ⟨∅⟩

def get? (table : Table ρ κ key) (k : κ) : Option ρ := table.rows.find? fun row => key row = k

def insert? (table : Table ρ κ key) (row : ρ) : Option (Table ρ κ key) :=
  if fresh : key row ∈ table.rows.map key then none
  else some ⟨table.rows ++ [row], by
    rw [List.map_append, List.nodup_append]
    refine ⟨table.distinct, by simp, ?_⟩
    intro k member k' single same
    simp only [List.map_cons, List.map_nil, List.mem_singleton] at single
    exact fresh (single ▸ same ▸ member)⟩

def modify (table : Table ρ κ key) (k : κ) (change : ρ → ρ)
    (keeps : ∀ row, key (change row) = key row) : Table ρ κ key :=
  ⟨table.rows.map fun row => if key row = k then change row else row, by
    have same : (table.rows.map fun row => if key row = k then change row else row).map key =
        table.rows.map key := by
      rw [List.map_map]
      refine List.map_congr_left fun row _ => ?_
      by_cases here : key row = k <;> simp [here, keeps]
    exact same ▸ table.distinct⟩

def deleteWhere (table : Table ρ κ key) (gone : ρ → Bool) : Table ρ κ key :=
  ⟨table.rows.filter fun row => !gone row,
    table.distinct.sublist (List.filter_sublist.map key)⟩

variable {table table' : Table ρ κ key} {k k' : κ} {row row' : ρ}

omit [DecidableEq κ] in
theorem eq_of_key_eq (member : row ∈ table.rows) (member' : row' ∈ table.rows)
    (same : key row = key row') : row = row' :=
  List.inj_on_of_nodup_map table.distinct member member' same

theorem get?_eq_some : table.get? k = some row ↔ row ∈ table.rows ∧ key row = k := by
  constructor
  · intro found
    exact ⟨List.mem_of_find?_eq_some found, by simpa using List.find?_some found⟩
  · rintro ⟨member, rfl⟩
    cases found : table.get? (key row) with
    | none =>
        have absent := List.find?_eq_none.1 found row member
        simp at absent
    | some other =>
        have same : key other = key row := by simpa using List.find?_some found
        rw [eq_of_key_eq (List.mem_of_find?_eq_some found) member same]

theorem get?_eq_none : table.get? k = none ↔ ∀ row ∈ table.rows, key row ≠ k := by
  simp [get?]

theorem get?_key (found : table.get? k = some row) : key row = k := (get?_eq_some.1 found).2

theorem mem_rows : row ∈ table.rows ↔ table.get? (key row) = some row := by
  rw [get?_eq_some]; simp

@[simp] theorem get?_empty : (∅ : Table ρ κ key).get? k = none := rfl

theorem insert?_eq_some (inserted : table.insert? row = some table') :
    table.get? (key row) = none ∧
      ∀ k, table'.get? k = if k = key row then some row else table.get? k := by
  simp only [insert?] at inserted
  split at inserted
  · cases inserted
  · rename_i fresh
    cases inserted
    refine ⟨get?_eq_none.2 fun other member same => fresh (List.mem_map.2 ⟨other, member, same⟩),
      fun k => ?_⟩
    simp only [get?, List.find?_append, List.find?_singleton]
    by_cases here : k = key row
    · subst k
      have absent : table.rows.find? (fun other => key other = key row) = none :=
        get?_eq_none.2 fun other member same => fresh (List.mem_map.2 ⟨other, member, same⟩)
      simp [absent]
    · have other : ¬ key row = k := fun same => here same.symm
      simp [here, other]

theorem get?_modify {change : ρ → ρ} (keeps : ∀ row, key (change row) = key row) :
    (table.modify k change keeps).get? k' =
      if k' = k then (table.get? k').map change else table.get? k' := by
  have sameKey : ∀ row, key (if key row = k then change row else row) = key row := by
    intro row
    by_cases here : key row = k <;> simp [here, keeps]
  simp only [get?, modify, List.find?_map, Function.comp_def, sameKey]
  cases found : table.rows.find? (fun row => key row = k') with
  | none => simp
  | some row =>
      have rowKey : key row = k' := by simpa using List.find?_some found
      subst rowKey
      by_cases here : key row = k <;> simp [here]

theorem get?_deleteWhere {gone : ρ → Bool} :
    (table.deleteWhere gone).get? k = (table.get? k).filter fun row => !gone row := by
  cases found : table.get? k with
  | none =>
      rw [Option.filter_none, get?_eq_none]
      intro row member
      exact get?_eq_none.1 found row (List.mem_filter.1 member).1
  | some row =>
      obtain ⟨member, keyEq⟩ := get?_eq_some.1 found
      by_cases removed : gone row = true
      · simp only [Option.filter_some, removed, Bool.not_true, Bool.false_eq_true, if_false]
        rw [get?_eq_none]
        intro other otherMember same
        have kept := List.mem_filter.1 otherMember
        have eq : other = row := eq_of_key_eq kept.1 member (same.trans keyEq.symm)
        simp [eq, removed] at kept
      · simp only [Option.filter_some, removed, Bool.not_false, if_true]
        exact get?_eq_some.2 ⟨List.mem_filter.2 ⟨member, by simp [removed]⟩, keyEq⟩

end Table
