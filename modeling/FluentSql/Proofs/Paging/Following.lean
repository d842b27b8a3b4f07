import FluentSql.Proofs.Conditions.Restricting
import FluentSql.Proofs.Slots.Change
import FluentSql.Proofs.Windows.Framed

namespace FluentSql

theorem exists_bind_eq_ok {ε α β : Type} {x : Except ε α} {f : α → Except ε β} :
    (∃ b, x >>= f = .ok b) ↔ ∃ a, x = .ok a ∧ ∃ b, f a = .ok b := by
  simp only [bind_eq_ok]
  constructor
  · rintro ⟨b, a, ha, hb⟩
    exact ⟨a, ha, b, hb⟩
  · rintro ⟨a, ha, b, hb⟩
    exact ⟨b, a, ha, hb⟩

theorem exists_pure_eq_ok {ε α : Type} {a : α} : ∃ b, (pure a : Except ε α) = .ok b := ⟨a, rfl⟩

namespace Clauses

open Grammar

variable {g : Grammar} {c : Clauses} {e : Embedded} {s : Sql}
  (conditions : List (Connective × Sql))

theorem middle_conditions {parts : List (Option Sql)} (h : c.middle g e = .ok parts) :
    ∃ parts', c.middle g { e with conditions } = .ok parts' := by
  simp only [middle, bind_eq_ok] at h
  obtain ⟨groups, hgroups, havings, hhavings, -⟩ := h
  simp only [middle, exists_bind_eq_ok]
  exact ⟨groups, hgroups, havings, hhavings, exists_pure_eq_ok⟩

theorem plain_conditions (h : c.plain g e = .ok s) :
    ∃ s', c.plain g { e with conditions } = .ok s' := by
  cases ha : c.aggregate
  all_goals
    simp only [plain, ha] at h ⊢
    split at h
    · cases h
    rw [if_neg ‹_›]
    simp only [bind_eq_ok] at h
    simp only [exists_bind_eq_ok]
    obtain ⟨columns, hcolumns, middle, hmiddle, orders, horders, h⟩ := h
    obtain ⟨middle', hmiddle'⟩ := middle_conditions conditions hmiddle
    refine ⟨columns, hcolumns, middle', hmiddle', orders, horders, ?_⟩
    split at h
    · rw [if_pos ‹_›]
      exact exists_pure_eq_ok
    rw [if_neg ‹_›]
    split at h
    · rw [if_pos ‹_›]
      exact exists_pure_eq_ok
    · rw [if_neg ‹_›, exists_bind_eq_ok]
      obtain ⟨tail, htail, -⟩ := bind_eq_ok.1 h
      exact ⟨tail, htail, exists_pure_eq_ok⟩

theorem assemble_conditions (h : c.assemble g e = .ok s) :
    ∃ s', c.assemble g { e with conditions } = .ok s' := by
  unfold assemble at h ⊢
  cases ha : c.aggregate with
  | none =>
    rw [ha] at h
    exact plain_conditions conditions h
  | some a =>
    simp only [ha] at h ⊢
    split at h
    · rw [if_pos ‹_›]
      exact plain_conditions conditions h
    · rw [if_neg ‹_›, exists_bind_eq_ok]
      obtain ⟨outer, ho, h⟩ := bind_eq_ok.1 h
      obtain ⟨inner, hi, -⟩ := bind_eq_ok.1 h
      refine ⟨outer, ho, exists_bind_eq_ok.2 ?_⟩
      obtain ⟨inner', hi'⟩ := plain_conditions conditions hi
      exact ⟨inner', hi', exists_pure_eq_ok⟩

theorem plain_orders (h : c.plain g e = .ok s) :
    (∃ orders, g.orderClause? c.orders = .ok orders) ∧
      (e.unions ≠ [] → ∃ orders, g.orderClause? c.unionOrders = .ok orders) := by
  cases ha : c.aggregate
  all_goals
    simp only [plain, ha] at h
    split at h
    · cases h
    rename_i hn
    simp only [bind_eq_ok] at h
    obtain ⟨columns, hcolumns, middle, hmiddle, orders, horders, h⟩ := h
    refine ⟨⟨orders, horders⟩, fun hu ↦ ?_⟩
    have hu : ¬ e.unions.isEmpty := by simpa using hu
    rw [if_neg fun h ↦ hn ⟨h, hu⟩, if_neg hu] at h
    obtain ⟨tail, htail, -⟩ := bind_eq_ok.1 h
    obtain ⟨unionOrders, hunionOrders, -⟩ := bind_eq_ok.1 htail
    exact ⟨unionOrders, hunionOrders⟩

theorem assemble_orders (h : c.assemble g e = .ok s) :
    (∃ orders, g.orderClause? c.orders = .ok orders) ∧
      (e.unions ≠ [] → ∃ orders, g.orderClause? c.unionOrders = .ok orders) := by
  unfold assemble at h
  split at h
  · split at h
    · exact plain_orders h
    · obtain ⟨_, -, h⟩ := bind_eq_ok.1 h
      obtain ⟨inner, hi, -⟩ := bind_eq_ok.1 h
      exact plain_orders (c := { c with aggregate := none }) hi
  · exact plain_orders h

end Clauses

namespace Grammar

variable {g : Grammar}

theorem exists_wrap_of_ordered {orders : List Order} {column : String} {direction : Direction}
    {s : Option Sql}
    (h : g.orderClause? (orders ++ [.column (.name column) direction]) = .ok s) :
    ∃ written, g.wrap column = .ok written := by
  unfold orderClause? at h
  rw [if_neg (by simp)] at h
  obtain ⟨clause, hclause, -⟩ := map_eq_ok.1 h
  obtain ⟨texts, htexts, -⟩ := bind_eq_ok.1 hclause
  obtain ⟨_, text, -, htext, -⟩ := mapM_concat_eq_ok htexts
  obtain ⟨reference, hreference, -⟩ := bind_eq_ok.1 htext
  obtain ⟨written, hwritten, -⟩ := bind_eq_ok.1 hreference
  exact ⟨written, hwritten⟩

theorem exists_basicTest {column written : String} (h : g.wrap column = .ok written)
    (o : Operator) (operand : Operand Value) :
    ∃ s, g.test (.basic column o operand) = .ok s := by
  unfold test basicTest
  rw [exists_bind_eq_ok]
  refine ⟨written, h, ?_⟩
  split <;> exact exists_pure_eq_ok

/-- A condition that can be written does not keep a query from being written. -/
theorem exists_select_addCondition {q : Query} {sql s : Sql} {t : Test Query}
    (connective : Connective) (h : g.select q = .ok sql) (ht : g.test t = .ok s) :
    ∃ sql', g.select (q.addCondition connective t) = .ok sql' := by
  obtain ⟨c, joins, conditions, unions⟩ := q
  simp only [select, bind_eq_ok] at h
  obtain ⟨_, hchecked, js, hj, cs, hc, us, hu, h⟩ := h
  simp only [Query.select_addCondition, exists_bind_eq_ok]
  exact ⟨_, hchecked, js, hj, cs, hc, s, ht, us, hu, Clauses.assemble_conditions _ h⟩

theorem select_orders {q : Query} {sql : Sql} (h : g.select q = .ok sql) :
    (∃ orders, g.orderClause? q.orders = .ok orders) ∧
      (q.unions ≠ [] → ∃ orders, g.orderClause? q.unionOrders = .ok orders) := by
  obtain ⟨c, joins, conditions, unions⟩ := q
  simp only [select, bind_eq_ok] at h
  obtain ⟨_, -, js, -, cs, -, us, hu, h⟩ := h
  obtain ⟨horders, hunionOrders⟩ := Clauses.assemble_orders h
  exact ⟨horders, fun hne ↦ hunionOrders fun he ↦ hne ((memberList_eq_nil hu).1 he)⟩

end Grammar

namespace Query

open Grammar

variable {q : Query} {size : Nat} {column : String}

variable (q size column) in
/-- The first page is ordered by the column, be it in the orderings of the combined rows. -/
theorem pageAfter_none : ∃ orders,
    (q.unions = [] → (q.pageAfter size none column).orders =
      orders ++ [.column (.name column) .ascending]) ∧
    (q.unions ≠ [] → (q.pageAfter size none column).unionOrders =
      orders ++ [.column (.name column) .ascending]) ∧
    (q.pageAfter size none column).unions = q.unions ∧
    (q.pageAfter size none column).grammar = q.grammar := by
  obtain ⟨c, joins, conditions, unions⟩ := q
  cases unions with
  | nil => exact ⟨_, fun _ ↦ rfl, fun h ↦ absurd rfl h, rfl, rfl⟩
  | cons m ms => exact ⟨_, nofun, fun _ ↦ rfl, rfl, rfl⟩

theorem exists_wrap_of_page {sql : Sql} (h : (q.pageAfter size none column).sql = .ok sql) :
    ∃ written, q.grammar.wrap column = .ok written := by
  obtain ⟨_, hown, hcombined, hunions, hg⟩ := q.pageAfter_none size column
  rw [Query.sql, hg] at h
  obtain ⟨⟨_, horders⟩, hunionOrders⟩ := select_orders h
  by_cases hu : q.unions = []
  · rw [hown hu] at horders
    exact exists_wrap_of_ordered horders
  · obtain ⟨_, hunionOrders⟩ := hunionOrders (hunions ▸ hu)
    rw [hcombined hu] at hunionOrders
    exact exists_wrap_of_ordered hunionOrders

theorem addComparison_basic {connective : Connective} {o : Operator} {v : Value}
    (hn : v.isNull = false) (hb : ∀ b, v ≠ .bool b) :
    q.addComparison connective column o (.bound v) =
      q.addTest connective (.basic column o (.bound v)) [v] := by
  cases v with
  | null => cases hn
  | bool b => exact absurd rfl (hb b)
  | _ => rfl

variable (q size column) in
/-- A page after a key is the first page with a condition, and with a value bound for it. -/
theorem pageAfter_some {last : Value} (hn : last.isNull = false) (hb : ∀ b, last ≠ .bool b) :
    q.pageAfter size (some last) column =
      (q.pageAfter size none column).addTest .and (.basic column .greater (.bound last))
        [last] := by
  obtain ⟨c, joins, conditions, unions⟩ := q
  simp only [pageAfter, addComparison_basic hn hb]
  cases unions with
  | nil => rfl
  | cons m ms => rfl

/-- A page after a key can be written if the first page can. -/
theorem exists_pageAfter {c : String × List Value}
    (h : (q.pageAfter size none column).compiled = .ok c) {last : Value}
    (hn : last.isNull = false) (hb : ∀ b, last ≠ .bool b) :
    ∃ c', (q.pageAfter size (some last) column).compiled = .ok c' := by
  obtain ⟨sql, hsql, -⟩ := bind_eq_ok.1 h
  obtain ⟨written, hwritten⟩ := exists_wrap_of_page hsql
  obtain ⟨_, -, -, -, hg⟩ := q.pageAfter_none size column
  obtain ⟨s, hs⟩ := exists_basicTest (hg ▸ hwritten) .greater (.bound last)
  obtain ⟨sql', hsql'⟩ := exists_select_addCondition .and hsql hs
  rw [q.pageAfter_some size column hn hb]
  refine exists_bind_eq_ok.2 ⟨sql', ?_, exists_pure_eq_ok⟩
  exact (select_withBindings _ _ _ _ _).trans hsql'

end Query

end FluentSql
