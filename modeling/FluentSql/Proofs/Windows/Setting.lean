import FluentSql.Query.Run

namespace FluentSql

namespace Query

def setting (q : Query) : Grammar × Option Aggregate := (q.grammar, q.aggregate)

variable {q inner : Query} {connective : Connective} {o : Operator} {values : List Value}

@[simp] theorem setting_fail (m : Mistake) : (q.fail m).setting = q.setting := by
  unfold fail
  split <;> rfl

@[simp] theorem setting_absorb : (q.absorb inner).setting = q.setting := by
  unfold absorb
  split <;> simp

@[simp] theorem setting_bind (kind : ClauseKind) : (q.bind kind values).setting = q.setting := rfl

@[simp] theorem setting_addCondition (t : Test Query) :
    (q.addCondition connective t).setting = q.setting := rfl

@[simp] theorem setting_addTest (t : Test Query) :
    (q.addTest connective t values).setting = q.setting := rfl

theorem setting_withOperator (name : OperatorName) {add : Operator → Query}
    (ha : ∀ o, (add o).setting = q.setting) : (q.withOperator name add).setting = q.setting := by
  unfold withOperator operator?
  cases name with
  | custom symbol => exact ha _
  | named name =>
    dsimp only
    cases Operator.parse? name with
    | some o => exact ha o
    | none => exact setting_fail _

@[simp] theorem setting_addComparison (column : String) (operand : Operand Value) :
    (q.addComparison connective column o operand).setting = q.setting := by
  unfold addComparison addNull
  split
  · split
    · simp
    · split <;> simp
  · split
    · split <;> simp
    · simp

@[simp] theorem setting_addNested : (q.addNested connective inner).setting = q.setting := by
  unfold addNested
  dsimp only
  split <;> simp

theorem setting_withEmbedded {add : Query → Sql → Query}
    (ha : ∀ (q : Query) sql, (add q sql).setting = q.setting) :
    (q.withEmbedded inner add).setting = q.setting := by
  unfold withEmbedded embed
  cases q.grammar.select inner with
  | ok sql => exact (ha _ sql).trans setting_absorb
  | error e => cases e <;> simp

@[simp] theorem setting_addHaving (t : HavingTest) :
    (q.addHaving connective t values).setting = q.setting := rfl

@[simp] theorem setting_having (column : String) (operand : Operand Value) :
    (q.having connective column o operand).setting = q.setting := by
  unfold having
  split <;> simp

@[simp] theorem setting_addOrder (order : Order) : (q.addOrder order values).setting = q.setting := by
  unfold addOrder
  split <;> rfl

@[simp] theorem setting_setLimit (n : Nat) : (q.setLimit n).setting = q.setting := by
  unfold setLimit
  split <;> rfl

@[simp] theorem setting_setOffset (n : Nat) : (q.setOffset n).setting = q.setting := by
  unfold setOffset
  split <;> rfl

@[simp] theorem setting_pageAfter (size : Nat) (last : Option Value) (column : String) :
    (q.pageAfter size last column).setting = q.setting := by
  unfold pageAfter orderBy
  cases last <;> simp <;> rfl

@[simp] theorem setting_unite (all : Bool) : (q.unite inner all).setting = q.setting :=
  setting_absorb

@[simp] theorem setting_addJoin (kind : JoinKind) (table : Reference) :
    (q.addJoin kind table inner).setting = q.setting := setting_absorb

@[simp] theorem setting_addRow (columns : List String) (operands : List (Operand Value)) :
    (q.addRow connective columns o operands).setting = q.setting := by
  unfold addRow
  split <;> simp

theorem setting_selectQuery (label : String) : (q.selectQuery inner label).setting = q.setting :=
  setting_withEmbedded fun _ _ ↦ rfl

theorem setting_sourceQuery (label : String) : (q.sourceQuery inner label).setting = q.setting :=
  setting_withEmbedded fun _ _ ↦ rfl

theorem setting_orderByQuery (direction : Direction) :
    (q.orderByQuery inner direction).setting = q.setting :=
  setting_withEmbedded fun _ _ ↦ setting_addOrder _

theorem setting_joinQuery (kind : JoinKind) (label first : String) (operator : OperatorName)
    (second : String) : (q.joinQuery kind inner label first operator second).setting = q.setting :=
  setting_withEmbedded fun _ _ ↦ setting_addJoin kind _

theorem setting_addDynamicWhere (method : String) (arguments : List Value) :
    (q.addDynamicWhere method arguments).1.setting = q.setting := by
  unfold addDynamicWhere
  split
  · rfl
  · split
    · rfl
    · exact List.foldlRecOn (motive := fun t : Query ↦ t.setting = q.setting) _ _ rfl fun _ ht _ _ ↦
        (setting_addComparison _ _).trans ht

end Query

namespace Step

variable {invoke : String → List Value → Query → Outcome} {arguments : List Value} {q : Query}
  (hi : ∀ method values (q : Query), (invoke method values q).1.setting = q.setting)

include hi

theorem setting_runWith (step : Step) :
    (step.runWith invoke arguments q).1.setting = q.setting := by
  cases step with
  | compare connective c => exact Query.setting_withOperator _ fun o ↦ Query.setting_addComparison _ _
  | compareDate part connective c => exact Query.setting_withOperator _ fun o ↦ rfl
  | compareJsonLength connective c => exact Query.setting_withOperator _ fun o ↦ rfl
  | compareColumns connective first operator second =>
    exact Query.setting_withOperator _ fun o ↦ rfl
  | compareQuery connective column operator steps =>
    exact Query.setting_withOperator _ fun o ↦ Query.setting_absorb
  | compareRow connective columns operator operands =>
    exact Query.setting_withOperator _ fun o ↦ Query.setting_addRow _ _
  | nest connective steps => exact Query.setting_addNested
  | exist connective negated steps => exact Query.setting_absorb
  | isInQuery connective negated column steps => exact Query.setting_absorb
  | matchRecord connective record => exact Query.setting_addNested
  | having connective c => exact Query.setting_withOperator _ fun o ↦ Query.setting_having _ _
  | selectQuery steps label => exact Query.setting_selectQuery label
  | sourceQuery steps label => exact Query.setting_sourceQuery label
  | orderBy column direction => exact Query.setting_addOrder _
  | orderByRaw sql terms => exact Query.setting_addOrder _
  | orderByQuery steps direction => exact Query.setting_orderByQuery direction
  | randomOrder seed => exact Query.setting_addOrder _
  | reorderBy column direction => exact Query.setting_addOrder (q := q.reorder) _
  | limit n => exact Query.setting_setLimit n
  | offset n => exact Query.setting_setOffset n
  | page number size => exact (Query.setting_setLimit size).trans (Query.setting_setOffset _)
  | pageAfter size last column => exact Query.setting_pageAfter _ _ _
  | unite all steps => exact Query.setting_unite all
  | join kind table first operator second => exact Query.setting_addJoin kind _
  | crossJoin table => exact Query.setting_addJoin .cross _
  | joinWith kind table steps => exact Query.setting_addJoin kind _
  | joinQuery kind steps label first operator second =>
    exact Query.setting_joinQuery kind label first operator second
  | call method terms => exact hi method _ q
  | _ => rfl

theorem setting_runAllWith (steps : List Step) :
    (runAllWith invoke arguments q steps).1.setting = q.setting := by
  induction steps generalizing q with
  | nil => rfl
  | cons step rest ih =>
    have hq : (step.runWith invoke arguments q).1.setting = q.setting := setting_runWith hi step
    simp only [runAllWith]
    split
    · rename_i q' he
      rw [he] at hq
      exact ih.trans hq
    · rename_i q' e he
      rwa [he] at hq

end Step

namespace Query

theorem setting_callWithin (depth : Nat) : ∀ (method : String) (arguments : List Value)
    (q : Query), (callWithin depth method arguments q).1.setting = q.setting := by
  induction depth with
  | zero => exact fun method arguments q ↦ setting_addDynamicWhere method arguments
  | succ depth ih =>
    intro method arguments q
    simp only [callWithin]
    split
    · exact Step.setting_runAllWith ih _
    · exact setting_addDynamicWhere method arguments

theorem setting_run (q : Query) (steps : List Step) : (q.run steps).1.setting = q.setting :=
  Step.setting_runAllWith (setting_callWithin _) steps

end Query

end FluentSql
