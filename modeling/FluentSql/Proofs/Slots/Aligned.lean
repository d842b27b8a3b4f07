import FluentSql.Proofs.Slots.Select
import FluentSql.Query.Clauses

namespace FluentSql

open Grammar

/-- Where a query that is being built will stand: as a select, as a group of conditions, or as the
clause of a join. -/
inductive Role where
  | select
  | group
  | join
  deriving DecidableEq

namespace Query

def Shows (g : Grammar) (q : Query) : ClauseKind → List Value → Prop
  | .joins, values => ∀ ss, g.joinList q.joins = .ok ss → ss.flatMap Sql.slots = values
  | .conditions, values =>
    ∀ ts, g.conditionList q.conditions = .ok ts → ts.flatMap (fun t ↦ t.2.slots) = values
  | .unions, values => ∀ us, g.memberList q.unions = .ok us → us.flatMap Sql.slots = values
  | kind, values => q.toClauses.shown ⟨[], [], []⟩ kind = values

/-- A group keeps the source of the query around it, without its values. Of the clause of a join
only joins and conditions are ever written. -/
structure Aligned (g : Grammar) (role : Role) (q : Query) : Prop where
  grammar : q.grammar = g
  isJoin : q.isJoin = decide (role = .join)
  aggregate : q.aggregate = none
  shows : ∀ kind, (role = .group → kind ≠ .source) → q.Shows g kind (q.bindings.get kind)
  unionOrders : q.unions = [] → q.unionOrders = []
  others : role = .join → ∀ kind, kind ≠ .joins → kind ≠ .conditions → q.bindings.get kind = []

namespace Aligned

variable {g : Grammar} {role : Role} {q inner : Query}

theorem shown_eq {c : Clauses} {joins : List (Join Query)} {conditions : List (Condition Query)}
    {unions : List (Member Query)} (h : Aligned g .select ⟨c, joins, conditions, unions⟩)
    {e : Embedded} (hj : g.joinList joins = .ok e.joins)
    (hc : g.conditionList conditions = .ok e.conditions)
    (hu : g.memberList unions = .ok e.unions) (kind : ClauseKind) :
    c.shown e kind = c.bindings.get kind := by
  have hk := h.shows kind (fun hr ↦ absurd hr (by decide))
  cases kind with
  | joins => exact hk _ hj
  | conditions => exact hk _ hc
  | unions => exact hk _ hu
  | _ => exact hk

/-- The placeholders of a select stand for the values of the query, in their order. -/
theorem slots_select (h : q.Aligned g .select) {s : Sql} (hs : g.select q = .ok s) :
    s.slots = q.allBindings := by
  obtain ⟨c, joins, conditions, unions⟩ := q
  simp only [Grammar.select, bind_eq_ok] at hs
  obtain ⟨_, -, js, hj, cs, hc, us, hu, hs⟩ := hs
  have hunions : us = [] → c.unionOrders = [] := fun hus ↦
    h.unionOrders ((memberList_eq_nil hu).1 hus)
  rw [Clauses.slots_assemble hunions h.aggregate hs]
  have hg : c.grammar = g := h.grammar
  simp only [allBindings, Bindings.flattenIn, bindingOrder, hg]
  congr 1
  exact funext (h.shown_eq (e := ⟨js, cs, us⟩) hj hc hu)

theorem allBindings_join (h : q.Aligned g .join) :
    q.allBindings = q.bindings.joins ++ q.bindings.conditions := by
  have ho (kind : ClauseKind) (hj : kind ≠ .joins) (hc : kind ≠ .conditions) :
      q.bindings.get kind = [] := h.others rfl kind hj hc
  simp only [allBindings, Bindings.flattenIn, bindingOrder]
  split
  all_goals
    simp only [ClauseKind.all, List.flatMap_cons, List.flatMap_nil, List.append_nil,
      ho .columns (by decide) (by decide), ho .source (by decide) (by decide),
      ho .groups (by decide) (by decide), ho .havings (by decide) (by decide),
      ho .orders (by decide) (by decide), ho .unions (by decide) (by decide),
      ho .unionOrders (by decide) (by decide), List.nil_append]
    rfl

theorem slots_joinOf (h : inner.Aligned g .join) {kind : JoinKind} {table : Reference} {s : Sql}
    (hs : g.joinOf ⟨kind, table, inner⟩ = .ok s) :
    s.slots = table.values ++ inner.allBindings := by
  simp only [joinOf, bind_eq_ok, pure_eq_ok] at hs
  obtain ⟨js, hj, cs, hc, rfl⟩ := hs
  have hjoins := h.shows .joins (fun hr ↦ absurd hr (by decide)) js hj
  have hconditions := h.shows .conditions (fun hr ↦ absurd hr (by decide)) cs hc
  rw [slots_joinText, h.allBindings_join, List.append_assoc]
  congr 1
  exact congrArg₂ _ hjoins hconditions

theorem start (g : Grammar) (macros : Macros) {source : Option Reference} {isJoin : Bool}
    (hj : isJoin = decide (role = .join)) (hs : role ≠ .group → source = none) :
    Aligned g role { grammar := g, macros, source, isJoin } where
  grammar := rfl
  isJoin := hj
  aggregate := rfl
  shows kind hk := by
    cases kind with
    | joins => intro ss hss; cases hss; rfl
    | conditions => intro ts hts; cases hts; rfl
    | unions => intro us hus; cases hus; rfl
    | source =>
      have hsource : source = none := hs fun hr ↦ hk hr rfl
      subst hsource
      rfl
    | _ => rfl
  unionOrders _ := rfl
  others _ kind _ _ := by cases kind <;> rfl

theorem fresh (h : q.Aligned g role) : q.fresh.Aligned g .select := by
  rw [Query.fresh, h.grammar]
  exact start g q.macros rfl fun _ ↦ rfl

theorem group (h : q.Aligned g role) :
    Aligned g .group { q.fresh with source := q.source } := by
  have hg := h.grammar
  subst hg
  exact start q.grammar q.macros rfl fun hr ↦ absurd rfl hr

theorem joinClause (h : q.Aligned g role) : q.joinClause.Aligned g .join := by
  have hg := h.grammar
  subst hg
  exact start q.grammar q.macros rfl fun _ ↦ rfl

end Aligned

abbrev Part : ClauseKind → Type
  | .columns => Option (List Reference)
  | .source => Option Reference
  | .joins => List (Join Query)
  | .conditions => List (Condition Query)
  | .groups => List Reference
  | .havings => List Having
  | .orders => List Order
  | .unions => List (Member Query)
  | .unionOrders => List Order

def withPart (q : Query) : (kind : ClauseKind) → Part kind → List Value → Query
  | .columns, part, values =>
    { q with columns := part, bindings := q.bindings.set .columns values }
  | .source, part, values => { q with source := part, bindings := q.bindings.set .source values }
  | .joins, part, values => { q with joins := part, bindings := q.bindings.set .joins values }
  | .conditions, part, values =>
    { q with conditions := part, bindings := q.bindings.set .conditions values }
  | .groups, part, values => { q with groups := part, bindings := q.bindings.set .groups values }
  | .havings, part, values => { q with havings := part, bindings := q.bindings.set .havings values }
  | .orders, part, values => { q with orders := part, bindings := q.bindings.set .orders values }
  | .unions, part, values => { q with unions := part, bindings := q.bindings.set .unions values }
  | .unionOrders, part, values =>
    { q with unionOrders := part, bindings := q.bindings.set .unionOrders values }

section

variable {g : Grammar} {q : Query} (kind : ClauseKind) (part : Part kind) (values : List Value)

theorem bindings_withPart : (q.withPart kind part values).bindings = q.bindings.set kind values := by
  cases kind <;> rfl

variable {kind} {part} {values} in
theorem shows_withPart_of_ne {other : ClauseKind} (h : other ≠ kind) {shown : List Value} :
    (q.withPart kind part values).Shows g other shown ↔ q.Shows g other shown := by
  cases kind <;> cases other <;> first | rfl | exact absurd rfl h

/-- To give a query other clauses of one kind, only these have to be looked at. -/
theorem Aligned.withPart {role : Role} (h : q.Aligned g role)
    (hs : (role = .group → kind ≠ .source) → (q.withPart kind part values).Shows g kind values)
    (hu : (q.withPart kind part values).unions = [] →
      (q.withPart kind part values).unionOrders = [])
    (ho : role = .join → kind ≠ .joins → kind ≠ .conditions → values = []) :
    (q.withPart kind part values).Aligned g role where
  grammar := by
    rw [← h.grammar]
    cases kind <;> rfl
  isJoin := by
    rw [← h.isJoin]
    cases kind <;> rfl
  aggregate := by
    rw [← h.aggregate]
    cases kind <;> rfl
  shows other hk := by
    rw [bindings_withPart]
    by_cases hne : other = kind
    · subst hne
      rw [Bindings.get_set_same]
      exact hs hk
    · rw [Bindings.get_set_of_ne _ _ hne, shows_withPart_of_ne hne]
      exact h.shows other hk
  unionOrders := hu
  others hr other hj hc := by
    rw [bindings_withPart]
    by_cases hne : other = kind
    · subst hne
      rw [Bindings.get_set_same]
      exact ho hr hj hc
    · rw [Bindings.get_set_of_ne _ _ hne]
      exact h.others hr other hj hc

end

end Query

end FluentSql
