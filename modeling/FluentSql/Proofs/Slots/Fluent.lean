import FluentSql.Proofs.Slots.Building
import FluentSql.Query.Run

namespace FluentSql

namespace Step

def addsToJoin : Step → Bool
  | compare .. | compareDate .. | compareJsonLength .. | compareColumns .. | compareQuery ..
  | compareRow .. | nest .. | exist .. | isIn .. | isInQuery .. | isInIntegers .. | isNull ..
  | between .. | betweenColumns .. | rawCondition .. | jsonContains .. | matchRecord ..
  | join .. | crossJoin .. | joinWith .. | joinQuery .. | call .. | fail .. => true
  | _ => false

/-- Values are never bound apart from a clause, the clause of a join gets nothing but conditions and
joins, and a source that has values is replaced by no other table or fragment. -/
def permitted (q : Query) : Step → Bool
  | addBinding .. => false
  | source _ => !q.isJoin && q.bindings.source.isEmpty
  | sourceRaw .. => !q.isJoin && q.bindings.source.isEmpty
  | step => !q.isJoin || step.addsToJoin

mutual

def proper (invoke : String → List Value → Query → Outcome)
    (calls : String → List Value → Query → Bool) (arguments : List Value) (q : Query) :
    Step → Bool
  | compareQuery _ _ _ steps => allProper invoke calls arguments q.fresh steps
  | nest _ steps => allProper invoke calls arguments { q.fresh with source := q.source } steps
  | exist _ _ steps => allProper invoke calls arguments q.fresh steps
  | isInQuery _ _ _ steps => allProper invoke calls arguments q.fresh steps
  | selectQuery steps _ => allProper invoke calls arguments q.fresh steps
  | sourceQuery steps _ => allProper invoke calls arguments q.fresh steps
  | orderByQuery steps _ => allProper invoke calls arguments q.fresh steps
  | unite _ steps => allProper invoke calls arguments q.fresh steps
  | joinWith _ _ steps => allProper invoke calls arguments q.joinClause steps
  | joinQuery _ steps _ _ _ _ => allProper invoke calls arguments q.fresh steps
  | call method terms => calls method (terms.map (·.resolve arguments)) q
  | _ => true

/-- Whether each step is permitted on the query that the steps before it have built. -/
def allProper (invoke : String → List Value → Query → Outcome)
    (calls : String → List Value → Query → Bool) (arguments : List Value) (q : Query) :
    List Step → Bool
  | [] => true
  | step :: rest =>
    step.permitted q && proper invoke calls arguments q step &&
      match runWith invoke arguments q step with
      | (q, none) => allProper invoke calls arguments q rest
      | (_, some _) => true

end

theorem values_references (columns : List Identifier) :
    (references columns).flatMap Reference.values = [] := by
  simp [references, List.flatMap_map]

variable {g : Grammar} {invoke : String → List Value → Query → Outcome}
  {calls : String → List Value → Query → Bool} {arguments : List Value}

mutual

/-- A step keeps the bindings in step with the clauses, if calls do. -/
theorem aligned_runWith {role : Role} {q : Query} (h : q.Aligned g role)
    (hc : ∀ role method values q, Query.Aligned g role q → calls method values q →
      (invoke method values q).1.Aligned g role) :
    ∀ step : Step, step.permitted q → step.proper invoke calls arguments q →
      (step.runWith invoke arguments q).1.Aligned g role := by
  intro step hp hs
  -- A step that adds no condition and no join is not permitted in the clause of a join.
  have hr (hp : (!q.isJoin || false) = true) : role ≠ .join := by
    intro he
    simp [h.isJoin, he] at hp
  cases step with
  | compare connective c =>
    exact h.withOperator _ fun o ↦ h.addComparison connective c.column o _
  | compareDate part connective c =>
    exact h.withOperator _ fun o ↦ h.addDatePart connective c.column o part _
  | compareJsonLength connective c =>
    exact h.withOperator _ fun o ↦ h.addJsonLength connective c.column o _
  | compareColumns connective first operator second =>
    exact h.withOperator _ fun o ↦ h.addColumns connective first o second
  | compareQuery connective column operator steps =>
    have hi := aligned_runAllWith h.fresh hc steps hs
    exact h.withOperator _ fun o ↦ h.addQueryComparison connective column o hi
  | compareRow connective columns operator operands =>
    exact h.withOperator _ fun o ↦ h.addRow connective o columns _
  | nest connective steps =>
    exact h.addNested connective (aligned_runAllWith h.group hc steps hs)
  | exist connective negated steps =>
    exact h.addExistence connective negated (aligned_runAllWith h.fresh hc steps hs)
  | isIn connective negated column operands => exact h.addIn connective column negated _
  | isInQuery connective negated column steps =>
    exact h.addInQuery connective column negated (aligned_runAllWith h.fresh hc steps hs)
  | isInIntegers connective negated column terms =>
    exact h.addInIntegers connective column negated _
  | isNull connective negated column => exact h.addNull connective column negated
  | between connective negated column low high =>
    exact h.addBetween connective column negated _ _
  | betweenColumns connective negated column low high =>
    exact h.addBetweenColumns connective column negated low high
  | rawCondition connective sql terms => exact h.addRaw connective sql _
  | jsonContains connective negated column term =>
    exact h.addJsonContains connective column negated _
  | matchRecord connective record => exact h.addRecord connective _
  | having connective c =>
    exact h.withOperator _ fun o ↦ h.having (hr hp) connective c.column o _
  | havingNull negated column => exact h.addHaving (hr hp) .and rfl
  | havingBetween column low high => exact h.addHaving (hr hp) .and rfl
  | rawHaving connective sql terms =>
    exact h.addHaving (hr hp) connective (Sql.slots_raw _ _)
  | select columns => exact h.select _ (values_references columns)
  | addSelect columns => exact h.addSelect (hr hp) _ (values_references columns)
  | selectRaw sql terms => exact h.selectRaw (hr hp) sql _
  | selectQuery steps label =>
    exact h.selectQuery (hr hp) (aligned_runAllWith h.fresh hc steps hs) label
  | distinct =>
    exact ⟨h.grammar, h.isJoin, h.aggregate, h.shows, h.unionOrders, h.others⟩
  | source table =>
    simp only [permitted, Bool.and_eq_true, List.isEmpty_iff] at hp
    exact h.setSource hp.2 table.values_reference
  | sourceRaw sql terms =>
    simp only [permitted, Bool.and_eq_true, List.isEmpty_iff] at hp
    exact h.sourceRaw (hr (by simp [hp.1])) hp.2 sql _
  | sourceQuery steps label =>
    exact h.sourceQuery (hr hp) (aligned_runAllWith h.fresh hc steps hs) label
  | groupBy columns => exact h.addGroups (hr hp) _ (values_references columns)
  | groupByRaw sql terms => exact h.groupByRaw (hr hp) sql _
  | orderBy column direction =>
    exact h.addOrder (hr hp) column.values_reference
  | orderByRaw sql terms => exact h.orderByRaw (hr hp) sql _
  | orderByQuery steps direction =>
    exact h.orderByQuery (hr hp) (aligned_runAllWith h.fresh hc steps hs) direction
  | randomOrder seed => exact h.orderByRaw (hr hp) _ []
  | reorder => exact h.reorder
  | reorderBy column direction =>
    exact h.reorder.addOrder (hr hp) column.values_reference
  | limit n => exact h.setLimit n
  | offset n => exact h.setOffset n
  | page number size => exact (h.setOffset _).setLimit size
  | pageAfter size last column => exact h.pageAfter (hr hp) size _ column
  | unite all steps =>
    exact h.unite (hr hp) (aligned_runAllWith h.fresh hc steps hs) all
  | lock l => exact h.setLock l
  | useWriteHandle =>
    exact ⟨h.grammar, h.isJoin, h.aggregate, h.shows, h.unionOrders, h.others⟩
  | join kind table first operator second =>
    exact h.joinOn kind table.values_reference first operator second
  | crossJoin table => exact h.addJoin h.joinClause .cross table.values_reference
  | joinWith kind table steps =>
    exact h.addJoin (aligned_runAllWith h.joinClause hc steps hs) kind table.values_reference
  | joinQuery kind steps label first operator second =>
    exact h.joinQuery (aligned_runAllWith h.fresh hc steps hs) kind label first operator second
  | addBinding kind term => cases hp
  | call method terms => exact hc role method _ q h hs
  | fail text => exact h

theorem aligned_runAllWith {role : Role} {q : Query} (h : q.Aligned g role)
    (hc : ∀ role method values q, Query.Aligned g role q → calls method values q →
      (invoke method values q).1.Aligned g role) :
    ∀ steps : List Step, allProper invoke calls arguments q steps →
      (runAllWith invoke arguments q steps).1.Aligned g role := by
  intro steps hs
  cases steps with
  | nil => exact h
  | cons step rest =>
    simp only [allProper, Bool.and_eq_true] at hs
    obtain ⟨⟨hp, hstep⟩, hrest⟩ := hs
    have hq := aligned_runWith h hc step hp hstep
    simp only [runAllWith]
    split
    · rename_i q' he
      rw [he] at hq hrest
      exact aligned_runAllWith hq hc rest hrest
    · rename_i q' e he
      rwa [he] at hq

end

end Step

namespace Query

def properCall : Nat → String → List Value → Query → Bool
  | 0, _, _, _ => true
  | depth + 1, method, arguments, q =>
    match q.macros.get? method with
    | some steps => Step.allProper (callWithin depth) (properCall depth) arguments q steps
    | none => true

def properSteps (q : Query) (steps : List Step) : Bool :=
  Step.allProper (callWithin q.callDepth) (properCall q.callDepth) [] q steps

variable {g : Grammar} {role : Role} {q : Query}

theorem Aligned.addDynamicWhere (h : q.Aligned g role) (method : String) (arguments : List Value) :
    (q.addDynamicWhere method arguments).1.Aligned g role := by
  unfold Query.addDynamicWhere
  split
  · exact h
  · split
    · exact h
    · exact List.foldlRecOn _ _ h fun _ ht entry _ ↦
        ht.addComparison entry.1.2 entry.1.1 .equal (.bound entry.2)

theorem aligned_callWithin (depth : Nat) : ∀ (role : Role) (method : String)
    (arguments : List Value) (q : Query), q.Aligned g role →
    properCall depth method arguments q →
    (callWithin depth method arguments q).1.Aligned g role := by
  induction depth with
  | zero =>
    intro role method arguments q h _
    exact h.addDynamicWhere method arguments
  | succ depth ih =>
    intro role method arguments q h hp
    simp only [callWithin]
    simp only [properCall] at hp
    split
    · rename_i steps hsteps
      rw [hsteps] at hp
      exact Step.aligned_runAllWith h ih steps hp
    · exact h.addDynamicWhere method arguments

/-- Whatever steps build a query from nothing, the placeholders of its text stand for its bindings,
each in its place. -/
theorem slots_run (g : Grammar) (macros : Macros) (steps : List Step)
    (hp : properSteps { grammar := g, macros } steps) {s : Sql}
    (hs : (Query.run { grammar := g, macros } steps).1.sql = .ok s) :
    s.slots = (Query.run { grammar := g, macros } steps).1.allBindings := by
  have hstart : Aligned g .select { grammar := g, macros } :=
    Aligned.start g macros rfl fun _ ↦ rfl
  have ha : (Query.run { grammar := g, macros } steps).1.Aligned g .select :=
    Step.aligned_runAllWith hstart (aligned_callWithin _) steps hp
  rw [sql, ha.grammar] at hs
  exact ha.slots_select hs

def numberedPage : List Step := [
  .sourceQuery [.sourceRaw "log(?)" [.value (.int32 1)], .orderByRaw "near(?)" [.value (.int32 2)],
    .offset 5] "l",
  .orderByRaw "rank(?)" [.value (.int32 3)],
  .selectQuery [.source (.name "users"), .isIn .and false "id" [.bound (.value (.int32 4)),
    .raw "now()", .bound (.value (.int32 5))]] "u",
  .joinWith .left (.name "posts") [.compareColumns .and "posts.id" .equal "l.id",
    .compare .or ⟨"state", .equal, .bound (.value (.int32 6))⟩,
    .joinQuery .inner [.source (.name "tags"),
      .rawCondition .and "hot > ?" [.value (.int32 7)]] "t" "t.id" .equal "posts.tag"],
  .nest .and [.isNull .and false "gone", .limit 3,
    .exist .or true [.sourceRaw "seen(?)" [.value (.int32 8)]]],
  .havingBetween "total" (.bound (.value (.int32 9))) (.raw "10"),
  .offset 10]

theorem slots_run_numberedPage :
    let g : Grammar := { dialect := .sqlServer, tablePrefix := "app_" }
    properSteps { grammar := g } numberedPage ∧
      ∃ s, (Query.run { grammar := g } numberedPage).1.sql = .ok s ∧
        s.slots = (Query.run { grammar := g } numberedPage).1.allBindings ∧
        s.slots.map Value.text = ["4", "5", "3", "2", "1", "7", "6", "8", "9"] := by
  intro g
  have hp : properSteps { grammar := g } numberedPage := by decide +kernel
  have hb : (Query.run { grammar := g } numberedPage).1.allBindings.map Value.text =
      ["4", "5", "3", "2", "1", "7", "6", "8", "9"] := by decide +kernel
  have hok : (Query.run { grammar := g } numberedPage).1.sql.isOk := by decide +kernel
  cases hs : (Query.run { grammar := g } numberedPage).1.sql with
  | ok s =>
    have hslots := slots_run g {} numberedPage hp hs
    exact ⟨hp, s, rfl, hslots, hslots ▸ hb⟩
  | error e =>
    rw [hs] at hok
    cases hok

end Query

end FluentSql
