import FluentSql.Proofs.Slots.Change
import FluentSql.Proofs.Windows.Framed
import FluentSql.Proofs.Windows.Trimming

namespace FluentSql

inductive Change where
  | update (record : Record Value)
  | delete

namespace Change

def verb : Change → String
  | update _ => "update"
  | delete => "delete"

def deletes : Change → Bool
  | update _ => false
  | delete => true

def object (g : Grammar) (table : Sql) : Change → Except Error String
  | update record => (g.assignedValues record).map fun sets ↦
      " " ++ table.text ++ " set " ++ sets.text
  | delete => .ok (" from " ++ table.text)

end Change

def Bound.count : Bound → String
  | top n => " top (" ++ toString n ++ ")"
  | _ => ""

inductive ChangeLayout where
  | selected (head : String) (rows : Layout)
  | oneTable (verb tail : String) (orders : Option String)
  | joined (text : String)

def ChangeLayout.write : ChangeLayout → Bound → Bound → String
  | selected head rows, own, union => head ++ rows.write own union ++ ")"
  | oneTable verb tail orders, own, _ =>
    Sql.trimmedText (verb ++ own.count ++ tail ++ spaced (orders.toList ++ own.words))
  | joined text, _, _ => text

namespace Grammar

def change (g : Grammar) (q : Query) : Change → Except Error Sql
  | .update record => g.update q record
  | .delete => g.delete q

def changeBindings (g : Grammar) (b : Bindings) : Change → List Value
  | .update record => g.updateBindings b record
  | .delete => deleteBindings b

/-- How the rows that are changed are bounded. -/
def changeBound (g : Grammar) (q : Query) (c : Change) : Bound :=
  if (g.rowIdentifier? q).isSome then .clauses q.limit q.offset
  else if ¬ q.joins.isEmpty then .clauses none none
  else match g.dialect, c with
    | .mysql, _ => .clauses q.limit none
    | .sqlServer, .delete =>
      match q.limit with
      | some (n + 1) => if Query.skipsRows q.toClauses then .clauses none none else .top (n + 1)
      | _ => .clauses none none
    | _, _ => .clauses none none

def changeUnionBound (g : Grammar) (q : Query) : Bound :=
  if (g.rowIdentifier? q).isSome then .clauses q.unionLimit q.unionOffset
  else .clauses none none

def rowsLayout (g : Grammar) (q : Query) (identifier : String) : Except Error Layout :=
  match q.source.bind Reference.name? with
  | none => .error (.invalid .rowsOfUnnamedTable)
  | some source =>
    let label := match Quoting.splitAlias? source.toList with
      | some (_, label) => String.ofList label
      | none => source
    g.layout { q with columns := some [.name (label ++ "." ++ identifier)] }

def changeOrders (g : Grammar) (q : Query) : Except Error (Option Sql) :=
  match g.dialect with
  | .mysql => g.orderClause? q.orders
  | _ => .ok none

def changeLayout (g : Grammar) (q : Query) (c : Change) : Except Error ChangeLayout := do
  let table ← g.target q
  let object ← c.object g table
  match g.rowIdentifier? q with
  | some identifier =>
    let rows ← g.rowsLayout q identifier
    return .selected (c.verb ++ object ++ " where " ++ (← g.wrap identifier) ++ " in (") rows
  | none =>
    if q.joins.isEmpty then
      let e ← g.embedded q
      let orders ← g.changeOrders q
      return .oneTable c.verb (Sql.trimmedText (object ++ (" " ++ (conditions q e).text)))
        (orders.map Sql.text)
    else return .joined (← g.change q c).text

variable {g : Grammar} {q : Query} {s : Sql} {c : Change}

theorem selectRows_eq_ok (ha : q.aggregate = none) (hd : g.dialect ≠ .sqlServer)
    {identifier : String} (h : g.selectRows q identifier = .ok s) :
    ∃ l, g.rowsLayout q identifier = .ok l ∧
      s.text = l.write (.clauses q.limit q.offset) (.clauses q.unionLimit q.unionOffset) := by
  cases hs : q.source.bind Reference.name? with
  | none =>
    simp only [selectRows, hs] at h
    cases h
  | some source =>
    simp only [selectRows, rowsLayout, hs] at h ⊢
    obtain ⟨l, hl, -, ht⟩ := select_eq_ok (q := { q with columns := some [.name _] }) ha h
    rw [bound_of_ne hd, unionBound_of_ne hd] at ht
    exact ⟨l, hl, ht⟩

theorem changeOrders_of_ne (h : g.dialect ≠ .mysql) : g.changeOrders q = .ok none := by
  unfold changeOrders
  split
  · exact absurd ‹_› h
  · rfl

theorem orderAndLimit_of_ne (h : g.dialect ≠ .mysql) : g.orderAndLimit q s = .ok s := by
  unfold orderAndLimit
  split
  · exact absurd ‹_› h
  · rfl

theorem orderAndLimit_eq_ok {t : Sql} (h : g.orderAndLimit q s = .ok t) :
    ∃ orders, g.changeOrders q = .ok orders ∧
      t.text = s.text ++ spaced ((orders.map Sql.text).toList ++
        (if g.dialect = .mysql then Bound.clauses q.limit none else .clauses none none).words) := by
  by_cases hd : g.dialect = .mysql
  · simp only [orderAndLimit, hd, bind_eq_ok, pure_eq_ok] at h
    obtain ⟨orders, horders, rfl⟩ := h
    have hl : ([orders, g.limitClause? q.limit].filterMap id).map Sql.text =
        (orders.map Sql.text).toList ++ (Bound.clauses q.limit none).words := by
      have hw := Clauses.map_text_windows g ⟨q.limit, none⟩
      have hn : g.offsetClause? none = none := by
        simp only [offsetClause?, hd, Option.map_none]
      rw [unionBound_of_ne (by rw [hd]; decide), hn, Option.map_none, Option.toList_none,
        List.append_nil] at hw
      rw [← hw]
      simp only [Clauses.filterMap_cons_toList, List.filterMap_nil, List.append_nil, List.map_append,
        Clauses.map_text_toList]
    refine ⟨orders, by simpa only [changeOrders, hd] using horders, ?_⟩
    rw [Sql.text_join, hl, if_pos hd]
  · rw [orderAndLimit_of_ne hd] at h
    cases h
    refine ⟨none, changeOrders_of_ne hd, ?_⟩
    rw [if_neg hd]
    exact String.append_empty.symm

theorem tail_eq_ok (front tail : String) {head t : Sql} (hh : head.text = front ++ tail)
    (hsolid : Text.trimEnd tail.toList ≠ []) (h : g.orderAndLimit q head.trimEnd = .ok t) :
    ∃ orders, g.changeOrders q = .ok orders ∧
      t.trimEnd.text = Sql.trimmedText (front ++ Sql.trimmedText tail ++
        spaced ((orders.map Sql.text).toList ++
          (if g.dialect = .mysql then Bound.clauses q.limit none
            else .clauses none none).words)) := by
  obtain ⟨orders, horders, ht⟩ := orderAndLimit_eq_ok h
  have htrim : Sql.trimmedText head.text = front ++ Sql.trimmedText tail := by
    rw [← String.toList_inj, Sql.toList_trimmedText, hh, String.toList_append, Text.trimEnd_append,
      if_neg hsolid, String.toList_append, Sql.toList_trimmedText]
  exact ⟨orders, horders, by rw [Sql.text_trimEnd, ht, Sql.text_trimEnd, htrim]⟩

theorem object_solid {table : Sql} {object : String} (h : c.object g table = .ok object)
    (rest : String) : Text.trimEnd (object ++ rest).toList ≠ [] := by
  cases c with
  | update record =>
    obtain ⟨sets, -, rfl⟩ := map_eq_ok.1 h
    refine Text.trimEnd_ne_nil (c := 's') ?_ (by decide)
    have hs : 's' ∈ " set ".toList := by decide
    simp only [String.toList_append, List.mem_append]
    exact .inl (.inl (.inr hs))
  | delete =>
    cases h
    refine Text.trimEnd_ne_nil (c := 'f') ?_ (by decide)
    have hf : 'f' ∈ " from ".toList := by decide
    simp only [String.toList_append, List.mem_append]
    exact .inl (.inl hf)

section

variable (hr : g.rowIdentifier? q = none) (hj : q.joins.isEmpty)

include hr hj

theorem changeBound_oneTable : g.changeBound q c = match g.dialect, c with
    | .mysql, _ => .clauses q.limit none
    | .sqlServer, .delete =>
      match q.limit with
      | some (n + 1) => if Query.skipsRows q.toClauses then .clauses none none else .top (n + 1)
      | _ => .clauses none none
    | _, _ => .clauses none none := by
  simp only [changeBound, hr, hj, Option.isSome_none, Bool.false_eq_true, if_false, not_true]

theorem words_changeBound : (g.changeBound q c).words =
    (if g.dialect = .mysql then Bound.clauses q.limit none else .clauses none none).words := by
  rw [changeBound_oneTable hr hj]
  cases g.dialect with
  | sqlServer =>
    cases c with
    | update record => rfl
    | delete =>
      rcases q.limit with _ | _ | n
      · rfl
      · rfl
      · cases Query.skipsRows q.toClauses <;> rfl
  | _ => rfl

theorem verb_changeBound : c.verb ++ (g.changeBound q c).count =
    match c with
    | .update _ => "update"
    | .delete => g.deleteVerb q := by
  rw [changeBound_oneTable hr hj]
  unfold deleteVerb
  cases g.dialect with
  | sqlServer =>
    cases c with
    | update record => exact String.append_empty
    | delete =>
      rcases q.limit with _ | _ | n
      · exact String.append_empty
      · exact String.append_empty
      · have hd (s : String) : "delete" ++ (" top (" ++ s) = "delete top (" ++ s := by
          rw [← String.append_assoc]
          rfl
        cases hs : Query.skipsRows q.toClauses <;>
          simp [Change.verb, Bound.count, String.append_assoc, hd]
  | _ => cases c <;> exact String.append_empty

end

theorem update_append (s : String) : "update" ++ (" " ++ s) = "update " ++ s := by
  rw [← String.append_assoc]
  rfl

theorem delete_append (s : String) : "delete" ++ (" from " ++ s) = "delete from " ++ s := by
  rw [← String.append_assoc]
  rfl

theorem selected_eq_ok (ha : q.aggregate = none) {identifier : String}
    (hr : g.rowIdentifier? q = some identifier) (h : g.change q c = .ok s) :
    ∃ l, g.changeLayout q c = .ok l ∧
      s.text = l.write (g.changeBound q c) (g.changeUnionBound q) := by
  have hd : g.dialect ≠ .sqlServer := by
    rcases rowIdentifier?_eq_some hr with hd | hd <;> simp [hd]
  simp only [changeBound, changeUnionBound, hr, Option.isSome_some, if_true]
  cases c with
  | update record =>
    simp only [change, update, hr, bind_eq_ok, pure_eq_ok] at h
    obtain ⟨table, htable, sets, hsets, rows, hrows, name, hname, rfl⟩ := h
    obtain ⟨l, hl, ht⟩ := selectRows_eq_ok ha hd hrows
    refine ⟨.selected _ l, by
      simp only [changeLayout, hr, bind_eq_ok, pure_eq_ok]
      exact ⟨table, htable, _, map_eq_ok.2 ⟨sets, hsets, rfl⟩, l, hl, name, hname, rfl⟩, ?_⟩
    simp only [ChangeLayout.write, ← ht, Sql.text_append, Sql.text_coe, String.append_assoc,
      Change.verb, update_append]
  | delete =>
    simp only [change, delete, hr, bind_eq_ok, pure_eq_ok] at h
    obtain ⟨table, htable, rows, hrows, name, hname, rfl⟩ := h
    obtain ⟨l, hl, ht⟩ := selectRows_eq_ok ha hd hrows
    refine ⟨.selected _ l, by
      simp only [changeLayout, hr, bind_eq_ok, pure_eq_ok]
      exact ⟨table, htable, _, rfl, l, hl, name, hname, rfl⟩, ?_⟩
    simp only [ChangeLayout.write, ← ht, Sql.text_append, Sql.text_coe, String.append_assoc,
      Change.verb, delete_append]

theorem oneTable_eq_ok (hr : g.rowIdentifier? q = none) (hj : q.joins.isEmpty)
    (h : g.change q c = .ok s) :
    ∃ l, g.changeLayout q c = .ok l ∧
      s.text = l.write (g.changeBound q c) (g.changeUnionBound q) := by
  have hw := words_changeBound (c := c) hr hj
  have hv := verb_changeBound (c := c) hr hj
  cases c with
  | update record =>
    simp only [change, update, hr, if_pos hj, bind_eq_ok, pure_eq_ok] at h
    obtain ⟨table, htable, sets, hsets, e, he, t, ht, rfl⟩ := h
    have hobject : (Change.update record).object g table =
        .ok (" " ++ table.text ++ " set " ++ sets.text) := map_eq_ok.2 ⟨sets, hsets, rfl⟩
    obtain ⟨orders, horders, ht⟩ := tail_eq_ok "update"
      (" " ++ table.text ++ " set " ++ sets.text ++ (" " ++ (conditions q e).text))
      (by simp only [Sql.text_append, Sql.text_coe, String.append_assoc, update_append])
      (object_solid hobject _) ht
    refine ⟨.oneTable _ _ (orders.map Sql.text), by
      simp only [changeLayout, hr, if_pos hj, bind_eq_ok, pure_eq_ok]
      exact ⟨table, htable, _, hobject, e, he, orders, horders, rfl⟩, ?_⟩
    rw [ht, ChangeLayout.write, hv, hw]
  | delete =>
    simp only [change, delete, hr, if_pos hj, bind_eq_ok, pure_eq_ok] at h
    obtain ⟨table, htable, e, he, t, ht, rfl⟩ := h
    have hobject : Change.delete.object g table = .ok (" from " ++ table.text) := rfl
    obtain ⟨orders, horders, ht⟩ := tail_eq_ok (g.deleteVerb q)
      (" from " ++ table.text ++ (" " ++ (conditions q e).text))
      (by simp only [Sql.text_append, Sql.text_coe, String.append_assoc])
      (object_solid hobject _) ht
    refine ⟨.oneTable _ _ (orders.map Sql.text), by
      simp only [changeLayout, hr, if_pos hj, bind_eq_ok, pure_eq_ok]
      exact ⟨table, htable, _, hobject, e, he, orders, horders, rfl⟩, ?_⟩
    rw [ht, ChangeLayout.write, hv, hw]

theorem joined_eq_ok (hr : g.rowIdentifier? q = none) (hj : ¬ q.joins.isEmpty)
    (h : g.change q c = .ok s) :
    ∃ l, g.changeLayout q c = .ok l ∧
      s.text = l.write (g.changeBound q c) (g.changeUnionBound q) := by
  have hparts : ∃ table object, g.target q = .ok table ∧ c.object g table = .ok object := by
    cases c with
    | update record =>
      simp only [change, update, hr, if_neg hj, bind_eq_ok] at h
      obtain ⟨table, htable, sets, hsets, -⟩ := h
      exact ⟨table, _, htable, map_eq_ok.2 ⟨sets, hsets, rfl⟩⟩
    | delete =>
      simp only [change, delete, hr, if_neg hj, bind_eq_ok] at h
      obtain ⟨table, htable, -⟩ := h
      exact ⟨table, _, htable, rfl⟩
  obtain ⟨table, object, htable, hobject⟩ := hparts
  refine ⟨.joined s.text, ?_, rfl⟩
  simp only [changeLayout, hr, if_neg hj, bind_eq_ok, pure_eq_ok]
  exact ⟨table, htable, object, hobject, s, h, rfl⟩

/-- A statement that changes rows is its layout, bounded in the way of its dialect. -/
theorem change_eq_ok (ha : q.aggregate = none) (h : g.change q c = .ok s) :
    ∃ l, g.changeLayout q c = .ok l ∧
      s.text = l.write (g.changeBound q c) (g.changeUnionBound q) := by
  cases hr : g.rowIdentifier? q with
  | some identifier => exact selected_eq_ok ha hr h
  | none =>
    by_cases hj : q.joins.isEmpty
    · exact oneTable_eq_ok hr hj h
    · exact joined_eq_ok hr hj h

end Grammar

end FluentSql
