import FluentSql.Proofs.Mistakes.Recorded

namespace FluentSql

def OperatorName.standsFor (o : Operator) : OperatorName → Bool
  | custom symbol => (⟨symbol⟩ : Operator) == o
  | named name => Operator.parse? name == some o

namespace Query

structure Extends (q q' : Query) : Prop where
  conditions : q.conditions ⊆ q'.conditions
  joins : q.joins ⊆ q'.joins
  unions : q.unions ⊆ q'.unions
  havings : q.havings ⊆ q'.havings
  mistake : q'.mistake = none → q.mistake = none

variable {q q' q'' inner : Query} {connective : Connective} {o : Operator} {values : List Value}

namespace Extends

theorem same (he : (q'.conditions, q'.joins, q'.unions, q'.havings, q'.mistake) =
    (q.conditions, q.joins, q.unions, q.havings, q.mistake)) : q.Extends q' := by
  simp only [Prod.mk.injEq] at he
  obtain ⟨hc, hj, hu, hh, hm⟩ := he
  exact ⟨hc ▸ List.Subset.refl _, hj ▸ List.Subset.refl _, hu ▸ List.Subset.refl _,
    hh ▸ List.Subset.refl _, fun h ↦ hm ▸ h⟩

theorem trans (h : q.Extends q') (h' : q'.Extends q'') : q.Extends q'' where
  conditions := List.Subset.trans h.conditions h'.conditions
  joins := List.Subset.trans h.joins h'.joins
  unions := List.Subset.trans h.unions h'.unions
  havings := List.Subset.trans h.havings h'.havings
  mistake hm := h.mistake (h'.mistake hm)

end Extends

theorem extends_fail (m : Mistake) : q.Extends (q.fail m) := by
  unfold fail
  split
  · exact .same rfl
  · exact ⟨List.Subset.refl _, List.Subset.refl _, List.Subset.refl _, List.Subset.refl _,
      fun h ↦ by cases h⟩

theorem extends_absorb : q.Extends (q.absorb inner) := by
  unfold absorb
  split
  · exact extends_fail _
  · exact .same rfl

theorem extends_addCondition (t : Test Query) : q.Extends (q.addCondition connective t) :=
  ⟨List.subset_append_left .., List.Subset.refl _, List.Subset.refl _, List.Subset.refl _, id⟩

theorem extends_addTest (t : Test Query) : q.Extends (q.addTest connective t values) := by
  have hb : q.Extends (q.bind .conditions values) := .same rfl
  exact hb.trans (extends_addCondition t)

theorem withOperator_of_standsFor {name : OperatorName} (h : name.standsFor o)
    (add : Operator → Query) : q.withOperator name add = add o := by
  cases name with
  | custom symbol =>
    cases beq_iff_eq.1 h
    rfl
  | named name =>
    have hp : Operator.parse? name = some o := beq_iff_eq.1 h
    simp only [withOperator, operator?, hp]

theorem standsFor_or_fail (q : Query) (name : OperatorName) :
    (∃ o, name.standsFor o) ∨ ∃ m, ∀ add, q.withOperator name add = q.fail m := by
  cases name with
  | custom symbol => exact .inl ⟨⟨symbol⟩, beq_self_eq_true _⟩
  | named name =>
    cases hp : Operator.parse? name with
    | some o => exact .inl ⟨o, beq_iff_eq.2 hp⟩
    | none => exact .inr ⟨.unknownOperator name, fun add ↦ by simp only [withOperator, operator?, hp]⟩

theorem extends_withOperator (name : OperatorName) {add : Operator → Query}
    (ha : ∀ o, q.Extends (add o)) : q.Extends (q.withOperator name add) := by
  rcases standsFor_or_fail q name with ⟨o, ho⟩ | ⟨m, hm⟩
  · exact withOperator_of_standsFor ho add ▸ ha o
  · exact hm add ▸ extends_fail m

theorem extends_addComparison (column : String) (operand : Operand Value) :
    q.Extends (q.addComparison connective column o operand) := by
  unfold addComparison
  split
  · split
    · exact extends_addCondition _
    · split
      · exact extends_addCondition _
      · exact extends_fail _
  · split
    · split
      · exact extends_addCondition _
      · exact extends_addTest _
    · exact extends_addTest _

theorem extends_addNested : q.Extends (q.addNested connective inner) := by
  unfold addNested
  dsimp only
  split
  · exact extends_absorb
  · exact extends_absorb.trans (extends_addTest _)

theorem extends_withEmbedded {add : Query → Sql → Query}
    (ha : ∀ (q : Query) sql, q.Extends (add q sql)) : q.Extends (q.withEmbedded inner add) := by
  unfold withEmbedded embed
  cases q.grammar.select inner with
  | ok sql => exact extends_absorb.trans (ha _ sql)
  | error e =>
    cases e with
    | generation reason => exact extends_absorb.trans (extends_fail _)
    | _ => exact extends_absorb

theorem extends_addHaving (t : HavingTest) : q.Extends (q.addHaving connective t values) :=
  ⟨List.Subset.refl _, List.Subset.refl _, List.Subset.refl _, List.subset_append_left .., id⟩

theorem extends_having (column : String) (operand : Operand Value) :
    q.Extends (q.having connective column o operand) := by
  unfold having
  split <;> exact extends_addHaving _

theorem extends_addOrder (order : Order) : q.Extends (q.addOrder order values) := by
  unfold addOrder
  split <;> exact .same rfl

theorem extends_setLimit (n : Nat) : q.Extends (q.setLimit n) := by
  unfold setLimit
  split <;> exact .same rfl

theorem extends_setOffset (n : Nat) : q.Extends (q.setOffset n) := by
  unfold setOffset
  split <;> exact .same rfl

theorem extends_pageAfter (size : Nat) (last : Option Value) (column : String) :
    q.Extends (q.pageAfter size last column) := by
  have hf : q.Extends { q with orders := q.orders.filter fun o ↦ !o.isOn column } := .same rfl
  have hw (q : Query) : q.Extends ((q.orderBy (.name column) .ascending).setLimit size) :=
    (extends_addOrder _).trans (extends_setLimit size)
  unfold pageAfter
  cases last with
  | none => exact hf.trans (hw _)
  | some v => exact (hf.trans (extends_addComparison column (.bound v))).trans (hw _)

theorem extends_unite (all : Bool) : q.Extends (q.unite inner all) := by
  have hb : (q.absorb inner).Extends ((q.absorb inner).bind .unions inner.allBindings) := .same rfl
  refine (extends_absorb.trans hb).trans ?_
  exact ⟨List.Subset.refl _, List.Subset.refl _, List.subset_append_left .., List.Subset.refl _, id⟩

theorem extends_addJoin (kind : JoinKind) (table : Reference) :
    q.Extends (q.addJoin kind table inner) := by
  have hb : (q.absorb inner).Extends ((q.absorb inner).bind .joins inner.allBindings) := .same rfl
  refine (extends_absorb.trans hb).trans ?_
  exact ⟨List.Subset.refl _, List.subset_append_left .., List.Subset.refl _, List.Subset.refl _, id⟩

theorem extends_addRow (columns : List String) (operands : List (Operand Value)) :
    q.Extends (q.addRow connective columns o operands) := by
  unfold addRow
  split
  · exact extends_fail _
  · exact extends_addTest _

theorem extends_selectQuery (label : String) : q.Extends (q.selectQuery inner label) := by
  unfold selectQuery
  exact extends_withEmbedded fun q sql ↦ .same rfl

theorem extends_sourceQuery (label : String) : q.Extends (q.sourceQuery inner label) := by
  unfold sourceQuery
  exact extends_withEmbedded fun q sql ↦ .same rfl

theorem extends_orderByQuery (direction : Direction) :
    q.Extends (q.orderByQuery inner direction) := by
  unfold orderByQuery
  exact extends_withEmbedded fun q sql ↦ extends_addOrder _

theorem extends_joinQuery (kind : JoinKind) (label first : String) (operator : OperatorName)
    (second : String) : q.Extends (q.joinQuery kind inner label first operator second) := by
  unfold joinQuery
  refine extends_withEmbedded fun q sql ↦ ?_
  have hb : q.Extends (q.bind .joins inner.allBindings) := .same rfl
  exact hb.trans (extends_addJoin kind _)

theorem extends_addDynamicWhere (method : String) (arguments : List Value) :
    q.Extends (q.addDynamicWhere method arguments).1 := by
  have hq : q.Extends q := .same rfl
  unfold addDynamicWhere
  split
  · exact hq
  · split
    · exact hq
    · exact List.foldlRecOn _ _ hq fun _ ht entry _ ↦
        ht.trans (extends_addComparison entry.1.1 (.bound entry.2))

end Query

namespace Step

variable {invoke : String → List Value → Query → Outcome} {arguments : List Value} {q : Query}
  (hi : ∀ method values (q : Query), q.Extends (invoke method values q).1)

include hi

theorem extends_runWith (step : Step) : q.Extends (step.runWith invoke arguments q).1 := by
  cases step with
  | compare connective c =>
    exact Query.extends_withOperator _ fun o ↦ Query.extends_addComparison _ _
  | compareDate part connective c =>
    exact Query.extends_withOperator _ fun o ↦ Query.extends_addTest _
  | compareJsonLength connective c =>
    exact Query.extends_withOperator _ fun o ↦ Query.extends_addTest _
  | compareColumns connective first operator second =>
    exact Query.extends_withOperator _ fun o ↦ Query.extends_addCondition _
  | compareQuery connective column operator steps =>
    exact Query.extends_withOperator _ fun o ↦
      Query.extends_absorb.trans (Query.extends_addTest _)
  | compareRow connective columns operator operands =>
    exact Query.extends_withOperator _ fun o ↦ Query.extends_addRow _ _
  | nest connective steps => exact Query.extends_addNested
  | exist connective negated steps => exact Query.extends_absorb.trans (Query.extends_addTest _)
  | isIn connective negated column operands => exact Query.extends_addTest _
  | isInQuery connective negated column steps =>
    exact Query.extends_absorb.trans (Query.extends_addTest _)
  | isInIntegers connective negated column terms => exact Query.extends_addCondition _
  | isNull connective negated column => exact Query.extends_addCondition _
  | between connective negated column low high => exact Query.extends_addTest _
  | betweenColumns connective negated column low high => exact Query.extends_addCondition _
  | rawCondition connective sql terms => exact Query.extends_addTest _
  | jsonContains connective negated column term => exact Query.extends_addTest _
  | matchRecord connective record => exact Query.extends_addNested
  | having connective c =>
    exact Query.extends_withOperator _ fun o ↦ Query.extends_having _ _
  | havingNull negated column => exact Query.extends_addHaving _
  | havingBetween column low high => exact Query.extends_addHaving _
  | rawHaving connective sql terms => exact Query.extends_addHaving _
  | selectQuery steps label => exact Query.extends_selectQuery label
  | sourceQuery steps label => exact Query.extends_sourceQuery label
  | orderBy column direction => exact Query.extends_addOrder _
  | orderByRaw sql terms => exact Query.extends_addOrder _
  | orderByQuery steps direction => exact Query.extends_orderByQuery direction
  | randomOrder seed => exact Query.extends_addOrder _
  | reorderBy column direction =>
    have hr : q.Extends q.reorder := .same rfl
    exact hr.trans (Query.extends_addOrder _)
  | limit n => exact Query.extends_setLimit n
  | offset n => exact Query.extends_setOffset n
  | page number size => exact (Query.extends_setOffset _).trans (Query.extends_setLimit size)
  | pageAfter size last column => exact Query.extends_pageAfter _ _ _
  | unite all steps => exact Query.extends_unite all
  | join kind table first operator second => exact Query.extends_addJoin kind _
  | crossJoin table => exact Query.extends_addJoin .cross _
  | joinWith kind table steps => exact Query.extends_addJoin kind _
  | joinQuery kind steps label first operator second =>
    exact Query.extends_joinQuery kind label first operator second
  | call method terms => exact hi method _ q
  | _ => exact .same rfl

theorem extends_runAllWith (steps : List Step) :
    q.Extends (runAllWith invoke arguments q steps).1 := by
  induction steps generalizing q with
  | nil => exact .same rfl
  | cons step rest ih =>
    have hq : q.Extends (step.runWith invoke arguments q).1 := extends_runWith hi step
    simp only [runAllWith]
    split
    · rename_i q' he
      rw [he] at hq
      exact hq.trans ih
    · rename_i q' e he
      rwa [he] at hq

end Step

theorem Query.extends_callWithin (depth : Nat) : ∀ (method : String) (arguments : List Value)
    (q : Query), q.Extends (callWithin depth method arguments q).1 := by
  induction depth with
  | zero => exact fun method arguments q ↦ extends_addDynamicWhere method arguments
  | succ depth ih =>
    intro method arguments q
    simp only [callWithin]
    split
    · exact Step.extends_runAllWith ih _
    · exact extends_addDynamicWhere method arguments

end FluentSql
