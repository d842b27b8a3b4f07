import FluentSql.Proofs.Numbering.Building
import FluentSql.Proofs.Slots.Fluent

namespace FluentSql

open Text Placeholders

namespace Step

mutual

/-- Whether the fragments of a step have as many placeholders as values, and its operators are
escaped if they have to be, at any depth. `calls` tells it of a call. -/
def numberable (invoke : String → List Value → Query → Outcome)
    (calls : String → List Value → Query → Bool) (arguments : List Value) (q : Query) :
    Step → Bool
  | compare _ c =>
    c.operand.isNumberable &&
      c.operator.all fun o ↦ o.mayCompare c.column (c.operand.map (·.resolve arguments))
  | compareDate _ _ c => c.operand.isNumberable && c.operator.all Operator.isUnmarked
  | compareJsonLength _ c => c.operand.isNumberable && c.operator.all Operator.isUnmarked
  | compareColumns _ _ operator _ => operator.all Operator.isUnmarked
  | compareQuery _ _ operator steps =>
    operator.all Operator.isUnmarked && allNumberable invoke calls arguments q.fresh steps
  | compareRow _ _ operator operands =>
    operands.all Operand.isNumberable && operator.all Operator.isUnmarked
  | nest _ steps => allNumberable invoke calls arguments { q.fresh with source := q.source } steps
  | exist _ _ steps => allNumberable invoke calls arguments q.fresh steps
  | isIn _ _ _ operands => operands.all Operand.isNumberable
  | isInQuery _ _ _ steps => allNumberable invoke calls arguments q.fresh steps
  | between _ _ _ low high => low.isNumberable && high.isNumberable
  | rawCondition _ sql terms => isNumberable sql terms.length
  | matchRecord _ record => record.all fun entry ↦ entry.2.isNumberable
  | having _ c => c.operand.isNumberable && c.operator.all Operator.isUnmarked
  | havingBetween _ low high => low.isNumberable && high.isNumberable
  | rawHaving _ sql terms => isNumberable sql terms.length
  | select columns => columns.all Identifier.isNumberable
  | addSelect columns => columns.all Identifier.isNumberable
  | selectRaw sql terms => isNumberable sql terms.length
  | selectQuery steps _ => allNumberable invoke calls arguments q.fresh steps
  | source table => table.isNumberable
  | sourceRaw sql terms => isNumberable sql terms.length
  | sourceQuery steps _ => allNumberable invoke calls arguments q.fresh steps
  | groupBy columns => columns.all Identifier.isNumberable
  | groupByRaw sql terms => isNumberable sql terms.length
  | orderBy column _ => column.isNumberable
  | orderByRaw sql terms => isNumberable sql terms.length
  | orderByQuery steps _ => allNumberable invoke calls arguments q.fresh steps
  | reorderBy column _ => column.isNumberable
  | unite _ steps => allNumberable invoke calls arguments q.fresh steps
  | lock l => l.isNumberable
  | join _ table _ operator _ => table.isNumberable && operator.all Operator.isUnmarked
  | crossJoin table => table.isNumberable
  | joinWith _ table steps =>
    table.isNumberable && allNumberable invoke calls arguments q.joinClause steps
  | joinQuery _ steps _ _ operator _ =>
    operator.all Operator.isUnmarked && allNumberable invoke calls arguments q.fresh steps
  | call method terms => calls method (terms.map (·.resolve arguments)) q
  | _ => true

def allNumberable (invoke : String → List Value → Query → Outcome)
    (calls : String → List Value → Query → Bool) (arguments : List Value) (q : Query) :
    List Step → Bool
  | [] => true
  | step :: rest =>
    numberable invoke calls arguments q step &&
      match runWith invoke arguments q step with
      | (q, none) => allNumberable invoke calls arguments q rest
      | (_, some _) => true

end

variable {invoke : String → List Value → Query → Outcome}
  {calls : String → List Value → Query → Bool} {arguments : List Value}

theorem neat_resolve {operand : Operand Term} (h : operand.isNumberable) :
    (operand.map (·.resolve arguments)).Neat :=
  Operand.neat_of_isNumberable ((operand.isNumberable_map _).trans h)

theorem neat_resolve_all {operands : List (Operand Term)} (h : operands.all Operand.isNumberable) :
    ∀ v ∈ operands.map (·.map (·.resolve arguments)), v.Neat := by
  intro v hv
  obtain ⟨operand, ho, rfl⟩ := List.mem_map.1 hv
  exact neat_resolve (List.all_eq_true.1 h operand ho)

theorem neat_references {columns : List Identifier} (h : columns.all Identifier.isNumberable) :
    ∀ r ∈ references columns, r.Neat := by
  intro r hr
  obtain ⟨i, hi, rfl⟩ := List.mem_map.1 hr
  exact Identifier.neat_reference (List.all_eq_true.1 h i hi)

theorem sound_raw {sql : String} {terms : List Term} (h : isNumberable sql terms.length) :
    (Sql.raw sql (terms.map (·.resolve arguments))).Sound := by
  refine .raw ?_
  rw [List.length_map]
  exact reads_of_isNumberable h

mutual

/-- A step keeps a query fit for numbering, if calls do. -/
theorem neat_runWith {q : Query} (h : q.Neat)
    (hc : ∀ method values q, Query.Neat q → calls method values q →
      (invoke method values q).1.Neat) :
    ∀ step : Step, step.numberable invoke calls arguments q →
      (step.runWith invoke arguments q).1.Neat := by
  intro step hs
  cases step with
  | compare connective c =>
    obtain ⟨hv, ho⟩ := Bool.and_eq_true_iff.1 hs
    exact h.withOperator ho fun o ho ↦ h.addComparison (neat_resolve hv) ho
  | compareDate part connective c =>
    obtain ⟨hv, ho⟩ := Bool.and_eq_true_iff.1 hs
    refine h.withOperator ho fun o ho ↦ h.addTest ⟨ho, ?_⟩
    exact Operand.neat_map _ (neat_resolve hv)
  | compareJsonLength connective c =>
    obtain ⟨hv, ho⟩ := Bool.and_eq_true_iff.1 hs
    exact h.withOperator ho fun o ho ↦ h.addTest ⟨ho, neat_resolve hv⟩
  | compareColumns connective first operator second =>
    exact h.withOperator hs fun o ho ↦ h.addColumns ho
  | compareQuery connective column operator steps =>
    obtain ⟨ho, hs⟩ := Bool.and_eq_true_iff.1 hs
    have hi := neat_runAllWith h.fresh hc steps hs
    exact h.withOperator ho fun o ho ↦ (h.absorb _).addTest ⟨ho, hi⟩
  | compareRow connective columns operator operands =>
    obtain ⟨hv, ho⟩ := Bool.and_eq_true_iff.1 hs
    exact h.withOperator ho fun o ho ↦ h.addRow columns ho (neat_resolve_all hv)
  | nest connective steps => exact h.addNested (neat_runAllWith h.group hc steps hs)
  | exist connective negated steps =>
    have hi := neat_runAllWith h.fresh hc steps hs
    exact (h.absorb _).addTest hi
  | isIn connective negated column operands => exact h.addTest (neat_resolve_all hs)
  | isInQuery connective negated column steps =>
    have hi := neat_runAllWith h.fresh hc steps hs
    exact (h.absorb _).addTest hi
  | isInIntegers connective negated column terms => exact h.addCondition trivial
  | isNull connective negated column => exact h.addCondition trivial
  | between connective negated column low high =>
    obtain ⟨hl, hh⟩ := Bool.and_eq_true_iff.1 hs
    exact h.addTest ⟨neat_resolve hl, neat_resolve hh⟩
  | betweenColumns connective negated column low high => exact h.addCondition trivial
  | rawCondition connective sql terms => exact h.addTest (sound_raw hs)
  | jsonContains connective negated column term => exact h.addTest trivial
  | matchRecord connective record =>
    refine h.addRecord fun entry he ↦ ?_
    obtain ⟨entry, hm, rfl⟩ := List.mem_map.1 he
    exact neat_resolve (List.all_eq_true.1 hs entry hm)
  | having connective c =>
    obtain ⟨hv, ho⟩ := Bool.and_eq_true_iff.1 hs
    exact h.withOperator ho fun o ho ↦ h.having ho (neat_resolve hv)
  | havingNull negated column => exact h.addHaving trivial
  | havingBetween column low high =>
    obtain ⟨hl, hh⟩ := Bool.and_eq_true_iff.1 hs
    exact h.addHaving ⟨neat_resolve hl, neat_resolve hh⟩
  | rawHaving connective sql terms => exact h.addHaving (sound_raw hs)
  | select columns => exact h.select (neat_references hs)
  | addSelect columns => exact h.addSelect (neat_references hs)
  | selectRaw sql terms => exact h.selectRaw (sound_raw hs)
  | selectQuery steps label => exact h.selectQuery (neat_runAllWith h.fresh hc steps hs) label
  | distinct => exact h.same rfl
  | source table => exact h.setSource (Identifier.neat_reference hs)
  | sourceRaw sql terms => exact h.sourceRaw (sound_raw hs)
  | sourceQuery steps label => exact h.sourceQuery (neat_runAllWith h.fresh hc steps hs) label
  | groupBy columns => exact h.addGroups (neat_references hs)
  | groupByRaw sql terms => exact h.groupByRaw (sound_raw hs)
  | orderBy column direction => exact h.orderBy (Identifier.neat_reference hs) direction
  | orderByRaw sql terms => exact h.orderByRaw (sound_raw hs)
  | orderByQuery steps direction =>
    exact h.orderByQuery (neat_runAllWith h.fresh hc steps hs) direction
  | randomOrder seed =>
    have hr : q.grammar.randomOrder seed = "RANDOM()" := by
      rw [Grammar.randomOrder, h.dialect]
    exact h.orderByRaw (.of_text (hr ▸ .of_plain (by decide)))
  | reorder => exact h.reorder
  | reorderBy column direction => exact h.reorder.orderBy (Identifier.neat_reference hs) direction
  | limit n => exact h.setLimit n
  | offset n => exact h.setOffset n
  | page number size => exact (h.setOffset _).setLimit size
  | pageAfter size last column => exact h.pageAfter size _ column
  | unite all steps => exact h.unite (neat_runAllWith h.fresh hc steps hs) all
  | lock l => exact h.setLock (Lock.neat_of_isNumberable hs)
  | useWriteHandle => exact h.same rfl
  | join kind table first operator second =>
    obtain ⟨ht, ho⟩ := Bool.and_eq_true_iff.1 hs
    exact h.joinOn kind (Identifier.neat_reference ht) first ho second
  | crossJoin table => exact h.addJoin h.joinClause .cross (Identifier.neat_reference hs)
  | joinWith kind table steps =>
    obtain ⟨ht, hs⟩ := Bool.and_eq_true_iff.1 hs
    exact h.addJoin (neat_runAllWith h.joinClause hc steps hs) kind (Identifier.neat_reference ht)
  | joinQuery kind steps label first operator second =>
    obtain ⟨ho, hs⟩ := Bool.and_eq_true_iff.1 hs
    exact h.joinQuery (neat_runAllWith h.fresh hc steps hs) kind label first ho second
  | addBinding kind term => exact h.bind kind _
  | call method terms => exact hc method _ q h hs
  | fail text => exact h

theorem neat_runAllWith {q : Query} (h : q.Neat)
    (hc : ∀ method values q, Query.Neat q → calls method values q →
      (invoke method values q).1.Neat) :
    ∀ steps : List Step, allNumberable invoke calls arguments q steps →
      (runAllWith invoke arguments q steps).1.Neat := by
  intro steps hs
  cases steps with
  | nil => exact h
  | cons step rest =>
    simp only [allNumberable, Bool.and_eq_true] at hs
    obtain ⟨hstep, hrest⟩ := hs
    have hq := neat_runWith h hc step hstep
    simp only [runAllWith]
    split
    · rename_i q' he
      rw [he] at hq hrest
      exact neat_runAllWith hq hc rest hrest
    · rename_i q' e he
      rwa [he] at hq

end

end Step

end FluentSql
