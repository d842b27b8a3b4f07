import FluentSql.Proofs.Conditions.Reading

namespace FluentSql.Query

def compared (column : String) (o : Operator) (operand : Operand Value) : Test Query :=
  if operand.isNull then .null column (!o.isEquality)
  else
    match operand with
    | .bound (.bool b) =>
      if Quoting.isJsonSelector column.toList then .jsonBoolean column o b
      else .basic column o operand
    | _ => .basic column o operand

def grouped (inner : Query) : List (Test Query) :=
  if inner.conditions.isEmpty then [] else [.nested inner]

/-- The same query with a condition at the end, which counts for what stands behind the last `or`
and for nothing else. -/
structure Adds (q q' : Query) (added : (Test Query → Bool) → Bool) : Prop where
  scope : q'.scope = q.scope
  conditions : q.conditions <+: q'.conditions
  holds : ∀ v, q'.holds v = (q.earlier v || (q.latest v && added v))

variable {q q' inner : Query} {column : String} {o : Operator} {operand : Operand Value}
  {tests : List (Test Query)} {added : (Test Query → Bool) → Bool}

theorem holds_compared (v : Test Query → Bool) :
    (compared column o operand).holds v = v (compared column o operand) := by
  unfold compared
  repeat' split
  all_goals rfl

theorem Narrows.same (h : (q'.scope, q'.conditions) = (q.scope, q.conditions)) :
    q.Narrows q' [] := by
  obtain ⟨hs, hc⟩ := Prod.mk.inj h
  exact ⟨hs, hc.trans (List.append_nil _).symm⟩

theorem Narrows.adds (h : q.Narrows q' tests) (hv : ∀ v, tests.all (·.holds v) = added v) :
    q.Adds q' added :=
  ⟨h.scope, ⟨_, h.conditions.symm⟩, fun v ↦ by rw [h.holds, hv]⟩

/-- Without alternatives, what is added restricts the whole query. -/
theorem Adds.restricts (h : q.Adds q' added) (hq : q.Conjoined) (v : Test Query → Bool) :
    q'.holds v = (q.holds v && added v) := by
  rw [h.holds, q.holds_eq, hq.earlier, Bool.false_or, Bool.false_or]

theorem narrows_addCondition (t : Test Query) : q.Narrows (q.addCondition .and t) [t] :=
  ⟨rfl, rfl⟩

theorem narrows_addTest (t : Test Query) (values : List Value) :
    q.Narrows (q.addTest .and t values) [t] :=
  ⟨rfl, rfl⟩

theorem narrows_absorb : q.Narrows (q.absorb inner) [] := by
  unfold absorb fail
  repeat' split
  all_goals exact .same rfl

theorem narrows_setLimit (n : Nat) : q.Narrows (q.setLimit n) [] := by
  unfold setLimit
  split <;> exact .same rfl

theorem narrows_addOrder (order : Order) (values : List Value) :
    q.Narrows (q.addOrder order values) [] := by
  unfold addOrder
  split <;> exact .same rfl

theorem narrows_addComparison (h : o.mistakes operand = []) :
    q.Narrows (q.addComparison .and column o operand) [compared column o operand] := by
  have hn (negated : Bool) : q.Narrows (q.addNull .and column negated) [.null column negated] :=
    narrows_addCondition _
  unfold addComparison compared
  unfold Operator.mistakes at h
  cases hv : operand.isNull with
  | true =>
    cases he : o.isEquality with
    | true => exact hn false
    | false =>
      cases hi : o.isInequality with
      | true => exact hn true
      | false => simp [hv, he, hi] at h
  | false =>
    rw [if_neg Bool.false_ne_true, if_neg Bool.false_ne_true]
    cases operand with
    | raw sql => exact narrows_addTest _ _
    | bound value =>
      cases value with
      | bool b =>
        dsimp only
        split
        · exact narrows_addCondition _
        · exact narrows_addTest _ _
      | _ => exact narrows_addTest _ _

theorem narrows_equality : q.Narrows (q.addComparison .and column .equal operand)
    [compared column .equal operand] :=
  narrows_addComparison operand.mistakes_equal

theorem narrows_addNested : q.Narrows (q.addNested .and inner) inner.grouped := by
  unfold addNested grouped
  dsimp only
  split
  · exact narrows_absorb
  · exact narrows_absorb.trans (narrows_addTest _ _)

theorem all_grouped (v : Test Query → Bool) : inner.grouped.all (·.holds v) = inner.holds v := by
  unfold grouped
  split
  · rename_i h
    rw [holds_eq_read, List.isEmpty_iff.1 h]
    rfl
  · exact List.all_cons.trans (Bool.and_true _)

theorem narrows_equalities (record : Record Value) (q : Query) :
    q.Narrows (record.foldl (fun inner entry ↦ inner.addComparison .and entry.1 .equal entry.2) q)
      (record.map fun entry ↦ compared entry.1 .equal entry.2) := by
  induction record generalizing q with
  | nil => exact .same rfl
  | cons entry rest ih => exact narrows_equality.trans (ih _)

/-- A group of equalities holds if they all do. -/
theorem adds_addRecord (record : Record Value) : q.Adds (q.addRecord .and record) fun v ↦
    record.all fun entry ↦ v (compared entry.1 .equal entry.2) := by
  have hinner := (narrows_equalities record q.fresh).adds fun v ↦ by
    simp only [List.all_map, Function.comp_def, holds_compared]
    rfl
  refine Narrows.adds narrows_addNested fun v ↦ (all_grouped v).trans ?_
  exact hinner.restricts (fun _ h ↦ absurd h List.not_mem_nil) v

theorem Adds.andThen (h : q.Adds inner added) (h' : inner.Narrows q' []) : q.Adds q' added where
  scope := h'.scope.trans h.scope
  conditions := h.conditions.trans ⟨_, h'.conditions.symm⟩
  holds v := by
    rw [← h.holds, h'.holds, inner.holds_eq, List.all_nil, Bool.and_true]

theorem adds_equality : q.Adds (q.addComparison .and column .equal operand)
    (· (compared column .equal operand)) :=
  narrows_equality.adds fun v ↦ by simp [holds_compared]

theorem narrows_reordered :
    q.Narrows { q with orders := q.orders.filter fun o ↦ !o.isOn column } [] :=
  .same rfl

theorem narrows_window {size : Nat} :
    q.Narrows ((q.orderBy (.name column) .ascending).setLimit size) [] :=
  (narrows_addOrder _ _).trans (narrows_setLimit _)

theorem narrows_pageAfter (size : Nat) : q.Narrows (q.pageAfter size none column) [] :=
  narrows_reordered.trans narrows_window

/-- A page that can be read comes after a key that can be compared. -/
theorem adds_pageAfter {size : Nat} {last : Value}
    (h : (q.pageAfter size (some last) column).mistake = none) :
    q.Adds (q.pageAfter size (some last) column) (· (compared column .greater (.bound last))) := by
  have hm : Operator.greater.mistakes (.bound last) = [] := by
    rw [(Told.pageAfter size (some last) column).mistake] at h
    exact List.head?_eq_none_iff.1 (Option.or_eq_none_iff.1 h).2
  have hq : q.Narrows (q.pageAfter size (some last) column)
      ([] ++ ([compared column .greater (.bound last)] ++ [])) :=
    narrows_reordered.trans ((narrows_addComparison hm).trans narrows_window)
  exact hq.adds fun v ↦ by simp [holds_compared]

end FluentSql.Query
