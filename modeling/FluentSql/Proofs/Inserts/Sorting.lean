import FluentSql.Session.Writing
import Mathlib.Data.List.Forall2
import Mathlib.Data.List.Perm.Basic
import Mathlib.Data.List.Sort
import Mathlib.Data.String.Basic

namespace FluentSql

namespace Record

variable {r r' : Record Value} {first : Record Value} {records records' : List (Record Value)}

def Even (records : List (Record Value)) : Prop :=
  ∀ first ∈ records.head?, ∀ r ∈ records, ∀ c, c ∈ r.columns ↔ c ∈ first.columns

def operands (r : Record Value) : List (Operand Value) := r.map Prod.snd

/-- The records as a table: increasing columns, which are those of every record, and for every
record in turn the operands that it gives to each of them. -/
structure Tabulates (records : List (Record Value)) (columns : List String)
    (rows : List (List (Operand Value))) : Prop where
  increasing : columns.Pairwise (· < ·)
  heading : ∀ r ∈ records, ∀ c, c ∈ columns ↔ c ∈ r.columns
  placed : List.Forall₂ (fun r row ↦ List.Forall₂ (fun c o ↦ (c, o) ∈ r) columns row) records rows

theorem sorted_perm (r : Record Value) : r.sorted.Perm r := List.mergeSort_perm ..

theorem columns_perm (h : r.Perm r') : r.columns.Perm r'.columns := h.map Prod.fst

theorem mem_columns_sorted {c : String} : c ∈ r.sorted.columns ↔ c ∈ r.columns :=
  (columns_perm r.sorted_perm).mem_iff

theorem pairwise_columns_sorted (r : Record Value) : r.sorted.columns.Pairwise (· ≤ ·) := by
  rw [columns, List.pairwise_map]
  have htrans (a b c : String × Operand Value) (hab : decide (a.1 ≤ b.1) = true)
      (hbc : decide (b.1 ≤ c.1) = true) : decide (a.1 ≤ c.1) = true :=
    decide_eq_true (le_trans (of_decide_eq_true hab) (of_decide_eq_true hbc))
  have htotal (a b : String × Operand Value) : decide (a.1 ≤ b.1) || decide (b.1 ≤ a.1) := by
    simpa using le_total a.1 b.1
  have h : r.sorted.Pairwise fun a b ↦ decide (a.1 ≤ b.1) = true :=
    List.pairwise_mergeSort htrans htotal r
  exact h.imp fun hab ↦ of_decide_eq_true hab

theorem increasing_columns_sorted (h : r.columns.Nodup) : r.sorted.columns.Pairwise (· < ·) := by
  have hne : r.sorted.columns.Pairwise (· ≠ ·) := (columns_perm r.sorted_perm).nodup_iff.2 h
  exact (r.pairwise_columns_sorted.and hne).imp fun hc ↦ lt_of_le_of_ne hc.1 hc.2

theorem sorted_eq_of_perm (h : r.Perm r') (hr : r.columns.Nodup) : r.sorted = r'.sorted := by
  -- No two columns are equal: there is one increasing order, whatever the sort does with ties.
  have hperm : r.sorted.Perm r'.sorted := r.sorted_perm.trans (h.trans r'.sorted_perm.symm)
  have hlt : ∀ {r : Record Value}, r.columns.Nodup → r.sorted.Pairwise fun a b ↦ a.1 < b.1 :=
    fun hr ↦ List.pairwise_map.1 (increasing_columns_sorted hr)
  exact hperm.eq_of_pairwise (fun a b _ _ hab hba ↦ absurd hba (lt_asymm hab)) (hlt hr)
    (hlt ((columns_perm h).nodup_iff.1 hr))

/-- Sorted columns are the same list exactly if they are the same set. -/
theorem columns_sorted_eq_iff (hr : r.columns.Nodup) (hr' : r'.columns.Nodup) :
    r.sorted.columns = r'.sorted.columns ↔ ∀ c, c ∈ r.columns ↔ c ∈ r'.columns := by
  constructor
  · intro h c
    rw [← mem_columns_sorted, h, mem_columns_sorted]
  · intro h
    refine (increasing_columns_sorted hr).eq_of_mem_iff (increasing_columns_sorted hr') fun c ↦ ?_
    rw [mem_columns_sorted, mem_columns_sorted, h]

theorem operand_unique (hr : r.columns.Nodup) :
    Relator.RightUnique fun (c : String) (o : Operand Value) ↦ (c, o) ∈ r := by
  intro c o o' ho ho'
  exact congrArg Prod.snd (List.inj_on_of_nodup_map hr ho ho' rfl)

theorem rows_unique {columns : List String} {rows rows' : List (List (Operand Value))}
    (h : List.Forall₂ (fun r row ↦ List.Forall₂ (fun c o ↦ (c, o) ∈ r) columns row) records rows)
    (h' : List.Forall₂ (fun r row ↦ List.Forall₂ (fun c o ↦ (c, o) ∈ r) columns row) records rows')
    (hnodup : ∀ r ∈ records, r.columns.Nodup) : rows = rows' := by
  induction h generalizing rows' with
  | nil =>
    cases h'
    rfl
  | @cons r row records rows hr hrest ih =>
    cases h' with
    | @cons _ row' _ rows' hr' hrest' =>
      have hrow : row = row' :=
        List.right_unique_forall₂' (operand_unique (hnodup r List.mem_cons_self)) hr hr'
      rw [hrow, ih hrest' fun t ht ↦ hnodup t (List.mem_cons_of_mem r ht)]

theorem Tabulates.unique {columns columns' : List String} {rows rows' : List (List (Operand Value))}
    (h : Tabulates records columns rows) (h' : Tabulates records columns' rows')
    (hne : records ≠ []) (hnodup : ∀ r ∈ records, r.columns.Nodup) :
    columns = columns' ∧ rows = rows' := by
  obtain ⟨r, hr⟩ := List.exists_mem_of_ne_nil records hne
  have hcolumns : columns = columns' := h.increasing.eq_of_mem_iff h'.increasing fun c ↦
    (h.heading r hr c).trans (h'.heading r hr c).symm
  exact ⟨hcolumns, rows_unique h.placed (hcolumns ▸ h'.placed) hnodup⟩

theorem tabulates_sorted (hfirst : first ∈ records.head?) (heven : Even records)
    (hnodup : ∀ r ∈ records, r.columns.Nodup) :
    Tabulates records first.sorted.columns ((records.map sorted).map operands) := by
  have hmem : first ∈ records := List.mem_of_mem_head? hfirst
  refine ⟨increasing_columns_sorted (hnodup first hmem), fun r hr c ↦ ?_, ?_⟩
  · rw [mem_columns_sorted, heven first hfirst r hr]
  · rw [List.map_map, List.forall₂_map_right_iff, List.forall₂_same]
    intro r hr
    have hcolumns : first.sorted.columns = r.sorted.columns :=
      ((columns_sorted_eq_iff (hnodup r hr) (hnodup first hmem)).2 (heven first hfirst r hr)).symm
    rw [hcolumns, columns, Function.comp_apply, operands, List.forall₂_map_left_iff,
      List.forall₂_map_right_iff, List.forall₂_same]
    exact fun a ha ↦ r.sorted_perm.mem_iff.1 ha

end Record

variable {first : Record Value} {records records' : List (Record Value)}

theorem sortRecords_cons (first : Record Value) (rest : List (Record Value)) :
    sortRecords (first :: rest) =
      if (first :: rest).all (·.sorted.columns == first.sorted.columns) then
        .ok ((first :: rest).map Record.sorted)
      else .error (.invalid .unevenRecords) := by
  have hall : ((first :: rest).map Record.sorted).all (fun r ↦ r.columns == first.sorted.columns) =
      (first :: rest).all (·.sorted.columns == first.sorted.columns) := List.all_map
  rw [← hall]
  rfl

theorem all_sorted_iff (hfirst : first ∈ records.head?) (hnodup : ∀ r ∈ records, r.columns.Nodup) :
    records.all (·.sorted.columns == first.sorted.columns) ↔ Record.Even records := by
  have hmem : first ∈ records := List.mem_of_mem_head? hfirst
  have hiff (r) (hr : r ∈ records) :=
    Record.columns_sorted_eq_iff (hnodup r hr) (hnodup first hmem)
  rw [List.all_eq_true, Record.Even, Option.mem_def.1 hfirst]
  simp only [beq_iff_eq, Option.mem_some_iff, forall_eq']
  exact ⟨fun h r hr ↦ (hiff r hr).1 (h r hr), fun h r hr ↦ (hiff r hr).2 (h r hr)⟩

theorem sortRecords_even (hfirst : first ∈ records.head?) (heven : Record.Even records)
    (hnodup : ∀ r ∈ records, r.columns.Nodup) :
    sortRecords records = .ok (records.map Record.sorted) := by
  obtain ⟨rest, rfl⟩ := List.head?_eq_some_iff.1 hfirst
  rw [sortRecords_cons, if_pos ((all_sorted_iff hfirst hnodup).2 heven)]

theorem sortRecords_uneven (hne : records ≠ []) (huneven : ¬ Record.Even records)
    (hnodup : ∀ r ∈ records, r.columns.Nodup) :
    sortRecords records = .error (.invalid .unevenRecords) := by
  obtain ⟨first, rest, rfl⟩ := List.exists_cons_of_ne_nil hne
  rw [sortRecords_cons, if_neg (mt (all_sorted_iff rfl hnodup).1 huneven)]

theorem sortRecords_congr (h : List.Forall₂ List.Perm records records')
    (hnodup : ∀ r ∈ records, r.columns.Nodup) : sortRecords records = sortRecords records' := by
  have hsorted : records.map Record.sorted = records'.map Record.sorted := by
    induction h with
    | nil => rfl
    | @cons r r' records records' hr hrest ih =>
      have hhead := Record.sorted_eq_of_perm hr (hnodup r List.mem_cons_self)
      have htail := ih fun t ht ↦ hnodup t (List.mem_cons_of_mem r ht)
      rw [List.map_cons, List.map_cons, hhead, htail]
  rw [sortRecords, sortRecords, hsorted]

end FluentSql
