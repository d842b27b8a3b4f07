import FluentSql.Proofs.Derived.Building
import FluentSql.Proofs.Interleaving.Written

namespace FluentSql

open Grammar Query

variable {g : Grammar}

theorem Query.Kept.group {q : Query} (h : q.Kept g) {connective : Connective} {inner inner' : Query}
    (hi : inner'.Kept g) (hk : inner.keep .conditions = inner'.keep .conditions) :
    (q.addNested connective inner).Kept g := by
  obtain ⟨-, hc, hb⟩ := keep_conditions_iff.1 hk
  refine h.addNested connective fun ts hts ↦ ?_
  rw [← conditionList_bareConditions, hc, conditionList_bareConditions] at hts
  rw [hb]
  exact (hi.backed .conditions).conditionList hts

namespace Step

variable {invoke : String → List Value → Query → Outcome} {arguments : List Value}

mutual

/-- A step binds enough values for what it adds, if calls do. -/
theorem kept_runWith (hx : ∀ method values, Confined (callFamilies method) (invoke method values))
    (hc : ∀ method values q, Kept g q → (invoke method values q).1.Kept g) {q : Query}
    (h : q.Kept g) :
    ∀ step : Step, (step.runWith invoke arguments q).1.Kept g := by
  intro step
  cases step with
  | compare connective c => exact h.withOperator _ fun o ↦ h.addComparison connective c.column o _
  | compareDate part connective c =>
    exact h.withOperator _ fun o ↦ h.addPlain connective (.datePart part c.column o _) rfl
  | compareJsonLength connective c =>
    exact h.withOperator _ fun o ↦ h.addPlain connective (.jsonLength c.column o _) rfl
  | compareColumns connective first operator second =>
    exact h.withOperator _ fun o ↦ h.addValueless connective (.columns first o second) rfl rfl
  | compareQuery connective column operator steps =>
    have hi := kept_runAllWith hx hc h.fresh steps
    exact h.withOperator _ fun o ↦ h.addQueryComparison connective column o hi
  | compareRow connective columns operator operands =>
    exact h.withOperator _ fun o ↦ h.addRow connective o columns _
  | nest connective steps =>
    exact h.group (kept_runAllWith hx hc h.fresh steps)
      ((heeds_runAllWith hx steps).within .conditions _ _ rfl)
  | exist connective negated steps =>
    exact h.addExistence connective negated (kept_runAllWith hx hc h.fresh steps)
  | isIn connective negated column operands =>
    exact h.addPlain connective (.isIn column _ negated) rfl
  | isInQuery connective negated column steps =>
    exact h.addInQuery connective column negated (kept_runAllWith hx hc h.fresh steps)
  | isInIntegers connective negated column terms =>
    exact h.addValueless connective (.isInIntegers column _ negated) rfl rfl
  | isNull connective negated column => exact h.addNull connective column negated
  | between connective negated column low high =>
    exact h.addPlain connective (.between column _ _ negated) rfl
  | betweenColumns connective negated column low high =>
    exact h.addValueless connective (.betweenColumns column low high negated) rfl rfl
  | rawCondition connective sql terms => exact h.addRaw connective sql _
  | jsonContains connective negated column term =>
    exact h.addPlain connective (.jsonContains column _ negated) rfl
  | matchRecord connective record => exact h.addRecord connective _
  | having connective c => exact h.withOperator _ fun o ↦ h.having connective c.column o _
  | havingNull negated column => exact h.addHaving .and (fits_havingNull column negated)
  | havingBetween column low high => exact h.addHaving .and (fits_havingBetween column _ _)
  | rawHaving connective sql terms => exact h.rawHaving connective sql _
  | select columns => exact h.select _ (ClauseKind.Backed.identifiers columns).1
  | addSelect columns => exact h.addSelect (ClauseKind.Backed.identifiers columns).1
  | selectRaw sql terms => exact h.selectRaw sql _
  | selectQuery steps label => exact h.selectQuery (kept_runAllWith hx hc h.fresh steps) label
  | distinct => exact ⟨h.grammar, h.aggregate, h.unionOrders, h.backed⟩
  | source table => exact h.setSource table
  | sourceRaw sql terms => exact h.sourceRaw sql _
  | sourceQuery steps label => exact h.sourceQuery (kept_runAllWith hx hc h.fresh steps) label
  | groupBy columns => exact h.addGroups (ClauseKind.Backed.identifiers columns).2
  | groupByRaw sql terms => exact h.groupByRaw sql _
  | orderBy column direction =>
    exact h.addOrder (fun _ ↦ fits_column direction fun _ ↦ fits_identifier)
      (by simp [Order.values])
  | orderByRaw sql terms => exact h.orderByRaw sql _
  | orderByQuery steps direction =>
    exact h.orderByQuery (kept_runAllWith hx hc h.fresh steps) direction
  | randomOrder seed => exact h.orderByRaw _ []
  | reorder => exact h.reorder
  | reorderBy column direction =>
    exact h.reorder.addOrder (fun _ ↦ fits_column direction fun _ ↦ fits_identifier)
      (by simp [Order.values])
  | limit n => exact h.setLimit n
  | offset n => exact h.setOffset n
  | page number size => exact (h.setOffset _).setLimit size
  | pageAfter size last column => exact h.pageAfter size _ column
  | unite all steps => exact h.unite (kept_runAllWith hx hc h.fresh steps) all
  | lock l => exact h.setLock l
  | useWriteHandle => exact ⟨h.grammar, h.aggregate, h.unionOrders, h.backed⟩
  | join kind table first operator second => exact h.joinOn kind table first operator second
  | crossJoin table => exact h.addJoin h.joinClause .cross table
  | joinWith kind table steps =>
    exact h.addJoin (kept_runAllWith hx hc h.joinClause steps) kind table
  | joinQuery kind steps label first operator second =>
    exact h.joinQuery (kept_runAllWith hx hc h.fresh steps) kind label first operator second
  | addBinding kind term => exact h.bind kind _
  | call method terms => exact hc method _ q h
  | fail text => exact h

theorem kept_runAllWith
    (hx : ∀ method values, Confined (callFamilies method) (invoke method values))
    (hc : ∀ method values q, Kept g q → (invoke method values q).1.Kept g) {q : Query}
    (h : q.Kept g) :
    ∀ steps : List Step, (runAllWith invoke arguments q steps).1.Kept g := by
  intro steps
  cases steps with
  | nil => exact h
  | cons step rest =>
    have hq := kept_runWith hx hc h step
    simp only [runAllWith]
    split
    · rename_i q' he
      rw [he] at hq
      exact kept_runAllWith hx hc hq rest
    · rename_i q' e he
      rwa [he] at hq

end

end Step

namespace Query

variable {q : Query}

theorem Kept.addDynamicWhere (h : q.Kept g) (method : String) (arguments : List Value) :
    (q.addDynamicWhere method arguments).1.Kept g := by
  unfold Query.addDynamicWhere
  split
  · exact h
  · split
    · exact h
    · exact List.foldlRecOn _ _ h fun _ ht entry _ ↦
        ht.addComparison entry.1.2 entry.1.1 .equal (.bound entry.2)

theorem kept_callWithin (depth : Nat) : ∀ (method : String) (arguments : List Value) (q : Query),
    q.Kept g → (callWithin depth method arguments q).1.Kept g := by
  induction depth with
  | zero =>
    intro method arguments q h
    exact h.addDynamicWhere method arguments
  | succ depth ih =>
    intro method arguments q h
    simp only [callWithin]
    split
    · exact Step.kept_runAllWith (confined_callWithin depth) ih h _
    · exact h.addDynamicWhere method arguments

theorem Kept.run (h : q.Kept g) (steps : List Step) : (q.run steps).1.Kept g :=
  Step.kept_runAllWith (confined_callWithin _) (kept_callWithin _) h steps

end Query

end FluentSql
