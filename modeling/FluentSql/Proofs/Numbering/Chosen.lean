import FluentSql.Proofs.Numbering.Growing
import FluentSql.Proofs.Numbering.Spelling
import FluentSql.Proofs.Slots.Aligned

namespace FluentSql

def Operator.isNullTest (o : Operator) (operand : Operand Value) : Bool :=
  operand.isNull && (o.isEquality || o.isInequality)

section

variable {o : Operator} {embedded : Sql → Prop}

theorem Query.writes_iff {q : Query} : q.Writes o embedded ↔ q.toClauses.Writes o embedded ∨
    (q.unions ≠ [] ∧ ∃ order ∈ q.unionOrders, order.Writes embedded) ∨
      joinsWrite o embedded q.joins ∨ conditionsWrite o embedded q.conditions ∨
        membersWrite o embedded q.unions := by
  obtain ⟨c, joins, conditions, unions⟩ := q
  rfl

theorem conditionsWrite_iff {conditions : List (Condition Query)} :
    conditionsWrite o embedded conditions ↔ ∃ c ∈ conditions, c.test.Writes o embedded := by
  induction conditions with
  | nil => simp [conditionsWrite]
  | cons c rest ih => simp [conditionsWrite, ih]

theorem membersWrite_iff {members : List (Member Query)} :
    membersWrite o embedded members ↔ ∃ m ∈ members, m.query.Writes o embedded := by
  induction members with
  | nil => simp [membersWrite]
  | cons m rest ih => simp [membersWrite, ih]

theorem joinsWrite_iff {joins : List (Join Query)} : joinsWrite o embedded joins ↔
    ∃ j ∈ joins, j.table.Writes embedded ∨ joinsWrite o embedded j.clause.joins ∨
      conditionsWrite o embedded j.clause.conditions := by
  induction joins with
  | nil => simp [joinsWrite]
  | cons j rest ih =>
    obtain ⟨kind, table, ⟨c, joins, conditions, unions⟩⟩ := j
    simp only [joinsWrite, ih, List.exists_mem_cons_iff, or_assoc]

end

namespace Query

/-- The operator stands in a clause that no step takes back, and that is written where a query of
this role stands. -/
def Carries (o : Operator) (role : Role) (q : Query) : Prop :=
  conditionsWrite o (fun _ ↦ False) q.conditions ∨
    role ≠ .group ∧ joinsWrite o (fun _ ↦ False) q.joins ∨
    role = .select ∧
      (membersWrite o (fun _ ↦ False) q.unions ∨ ∃ t ∈ q.havings, t.test.Writes o)

variable {q q' inner : Query} {connective : Connective} {o : Operator} {values : List Value}
  {role : Role}

theorem mistake_of_absorb (h : (q.absorb inner).mistake = none) : inner.mistake = none := by
  rw [mistake_absorb, Option.or_eq_none_iff] at h
  exact h.2

theorem mistake_of_addTest {t : Test Query}
    (h : ((q.absorb inner).addTest connective t values).mistake = none) : inner.mistake = none :=
  mistake_of_absorb ((extends_addTest t).mistake h)

theorem mistake_of_addNested (h : (q.addNested connective inner).mistake = none) :
    inner.mistake = none := by
  unfold addNested at h
  dsimp only at h
  split at h
  · exact mistake_of_absorb h
  · exact mistake_of_addTest h

namespace Carries

theorem writes (h : q.Carries o .select) : q.Writes o fun _ ↦ False := by
  rw [writes_iff]
  rcases h with h | ⟨-, h⟩ | ⟨-, h | ⟨t, ht, h⟩⟩
  · exact .inr (.inr (.inr (.inl h)))
  · exact .inr (.inr (.inl h))
  · exact .inr (.inr (.inr (.inr h)))
  · exact .inl (.having t ht h)

theorem extended (h : q.Carries o role) (he : q.Extends q') : q'.Carries o role := by
  rcases h with h | ⟨hr, h⟩ | ⟨hr, h | ⟨t, ht, h⟩⟩
  · obtain ⟨c, hc, h⟩ := conditionsWrite_iff.1 h
    exact .inl (conditionsWrite_iff.2 ⟨c, he.conditions hc, h⟩)
  · obtain ⟨j, hj, h⟩ := joinsWrite_iff.1 h
    exact .inr (.inl ⟨hr, joinsWrite_iff.2 ⟨j, he.joins hj, h⟩⟩)
  · obtain ⟨m, hm, h⟩ := membersWrite_iff.1 h
    exact .inr (.inr ⟨hr, .inl (membersWrite_iff.2 ⟨m, he.unions hm, h⟩)⟩)
  · exact .inr (.inr ⟨hr, .inr ⟨t, he.havings ht, h⟩⟩)

end Carries

theorem carries_addCondition {t : Test Query} (ht : t.Writes o fun _ ↦ False) :
    (q.addCondition connective t).Carries o role :=
  .inl (conditionsWrite_iff.2 ⟨⟨connective, t⟩, List.mem_append_right _ List.mem_cons_self, ht⟩)

theorem carries_addTest {t : Test Query} (ht : t.Writes o fun _ ↦ False) :
    (q.addTest connective t values).Carries o role :=
  carries_addCondition ht

theorem mistake_fail_ne (m : Mistake) : (q.fail m).mistake ≠ none := by
  rw [mistake_fail]
  simp

theorem carries_addComparison {column : String} {operand : Operand Value}
    (hn : o.isNullTest operand = false)
    (hm : (q.addComparison connective column o operand).mistake = none) :
    (q.addComparison connective column o operand).Carries o role := by
  unfold addComparison at hm ⊢
  split at hm
  · rename_i hnull
    simp only [Operator.isNullTest, hnull, Bool.true_and, Bool.or_eq_false_iff] at hn
    rw [hn.1, hn.2] at hm
    exact absurd hm (mistake_fail_ne _)
  · rename_i hnull
    rw [if_neg hnull]
    split
    · split
      · exact carries_addCondition rfl
      · exact carries_addTest rfl
    · exact carries_addTest rfl

theorem carries_addRow {columns : List String} {operands : List (Operand Value)}
    (hm : (q.addRow connective columns o operands).mistake = none) :
    (q.addRow connective columns o operands).Carries o role := by
  unfold addRow at hm ⊢
  split at hm
  · exact absurd hm (mistake_fail_ne _)
  · rename_i hl
    rw [if_neg hl]
    exact carries_addTest rfl

theorem carries_addNested (hi : inner.Carries o .group) :
    (q.addNested connective inner).Carries o role := by
  have hc : conditionsWrite o (fun _ ↦ False) inner.conditions := by
    rcases hi with h | ⟨hr, -⟩ | ⟨hr, -⟩
    · exact h
    · exact absurd rfl hr
    · cases hr
  unfold addNested
  dsimp only
  split
  · rename_i hn
    rw [List.isEmpty_iff.1 hn] at hc
    exact hc.elim
  · obtain ⟨c, joins, conditions, unions⟩ := inner
    exact carries_addTest hc

theorem carries_having {column : String} {operand : Operand Value}
    (hn : o.isNullTest operand = false) :
    (q.having connective column o operand).Carries o .select := by
  unfold having
  split
  · rename_i hnull
    simp only [Operator.isNullTest, hnull.1, Bool.true_and, Bool.or_eq_false_iff] at hn
    simp [hn.1, hn.2] at hnull
  · exact .inr (.inr ⟨rfl, .inr ⟨_, List.mem_append_right _ List.mem_cons_self, rfl⟩⟩)

theorem carries_unite (all : Bool) (hi : inner.Carries o .select) :
    (q.unite inner all).Carries o .select := by
  refine .inr (.inr ⟨rfl, .inl (membersWrite_iff.2 ⟨⟨inner, all⟩, ?_, hi.writes⟩)⟩)
  exact List.mem_append_right _ List.mem_cons_self

theorem carries_addJoin (hr : role ≠ .group) (kind : JoinKind) (table : Reference)
    (hi : inner.Carries o .join) : (q.addJoin kind table inner).Carries o role := by
  refine .inr (.inl ⟨hr, joinsWrite_iff.2 ⟨⟨kind, table, inner⟩, ?_, ?_⟩⟩)
  · exact List.mem_append_right _ List.mem_cons_self
  · rcases hi with h | ⟨-, h⟩ | ⟨hr, -⟩
    · exact .inr (.inr h)
    · exact .inr (.inl h)
    · cases hr

theorem carries_joinOn (hr : role ≠ .group) (kind : JoinKind) (table : Reference) (first : String)
    {operator : OperatorName} (ho : operator.standsFor o) (second : String) :
    (q.joinOn kind table first operator second).Carries o role := by
  unfold joinOn
  rw [withOperator_of_standsFor ho]
  exact carries_addJoin hr kind table (carries_addCondition rfl)

theorem carries_joinQuery (hr : role ≠ .group) (kind : JoinKind) (label first : String)
    {operator : OperatorName} (ho : operator.standsFor o) (second : String)
    (hs : (q.grammar.select inner).isOk) :
    (q.joinQuery kind inner label first operator second).Carries o role := by
  unfold joinQuery withEmbedded embed
  cases h : q.grammar.select inner with
  | ok sql => exact carries_joinOn hr kind _ first ho second
  | error e =>
    rw [h] at hs
    cases hs

theorem exists_standsFor {name : OperatorName} {add : Operator → Query}
    (h : (q.withOperator name add).mistake = none) : ∃ o, name.standsFor o := by
  rcases standsFor_or_fail q name with ho | ⟨m, hm⟩
  · exact ho
  · exact absurd (hm add ▸ h) (mistake_fail_ne m)

end Query

namespace Step

mutual

/-- Whether the operator is chosen by a step, at any depth, for a clause that no later step takes
back. `calls` tells it of a call. -/
def chooses (invoke : String → List Value → Query → Outcome)
    (calls : Role → String → List Value → Query → Bool) (arguments : List Value) (o : Operator)
    (role : Role) (q : Query) : Step → Bool
  | compare _ c =>
    c.operator.standsFor o && !o.isNullTest (c.operand.map (·.resolve arguments))
  | compareDate _ _ c => c.operator.standsFor o
  | compareJsonLength _ c => c.operator.standsFor o
  | compareColumns _ _ operator _ => operator.standsFor o
  | compareQuery _ _ operator steps =>
    operator.standsFor o || allChoose invoke calls arguments o .select q.fresh steps
  | compareRow _ _ operator _ => operator.standsFor o
  | nest _ steps =>
    allChoose invoke calls arguments o .group { q.fresh with source := q.source } steps
  | exist _ _ steps => allChoose invoke calls arguments o .select q.fresh steps
  | isInQuery _ _ _ steps => allChoose invoke calls arguments o .select q.fresh steps
  | having _ c =>
    decide (role = .select) && c.operator.standsFor o &&
      !o.isNullTest (c.operand.map (·.resolve arguments))
  | unite _ steps =>
    decide (role = .select) && allChoose invoke calls arguments o .select q.fresh steps
  | join _ _ _ operator _ => decide (role ≠ .group) && operator.standsFor o
  | joinWith _ _ steps =>
    decide (role ≠ .group) && allChoose invoke calls arguments o .join q.joinClause steps
  | joinQuery _ steps _ _ operator _ =>
    decide (role ≠ .group) && operator.standsFor o &&
      (q.grammar.select (runAllWith invoke arguments q.fresh steps).1).isOk
  | call method terms => calls role method (terms.map (·.resolve arguments)) q
  | _ => false

def allChoose (invoke : String → List Value → Query → Outcome)
    (calls : Role → String → List Value → Query → Bool) (arguments : List Value) (o : Operator)
    (role : Role) (q : Query) : List Step → Bool
  | [] => false
  | step :: rest =>
    chooses invoke calls arguments o role q step ||
      match runWith invoke arguments q step with
      | (q, none) => allChoose invoke calls arguments o role q rest
      | (_, some _) => false

end

variable {invoke : String → List Value → Query → Outcome}
  {calls : Role → String → List Value → Query → Bool} {arguments : List Value} {o : Operator}

mutual

theorem carries_runWith {role : Role} {q : Query}
    (hi : ∀ method values (q : Query), q.Extends (invoke method values q).1)
    (hc : ∀ role method values q, calls role method values q →
      (invoke method values q).1.mistake = none → (invoke method values q).1.Carries o role) :
    ∀ step : Step, step.chooses invoke calls arguments o role q →
      (step.runWith invoke arguments q).1.mistake = none →
      (step.runWith invoke arguments q).1.Carries o role := by
  intro step hs hm
  cases step with
  | compare connective c =>
    simp only [chooses, Bool.and_eq_true, Bool.not_eq_true'] at hs
    change (q.withOperator _ _).mistake = none at hm
    change (q.withOperator _ _).Carries o role
    rw [Query.withOperator_of_standsFor hs.1] at hm ⊢
    exact Query.carries_addComparison hs.2 hm
  | compareDate part connective c =>
    change (q.withOperator _ _).Carries o role
    rw [Query.withOperator_of_standsFor hs]
    exact Query.carries_addTest rfl
  | compareJsonLength connective c =>
    change (q.withOperator _ _).Carries o role
    rw [Query.withOperator_of_standsFor hs]
    exact Query.carries_addTest rfl
  | compareColumns connective first operator second =>
    change (q.withOperator _ _).Carries o role
    rw [Query.withOperator_of_standsFor hs]
    exact Query.carries_addCondition rfl
  | compareQuery connective column operator steps =>
    change (q.withOperator _ _).mistake = none at hm
    change (q.withOperator _ _).Carries o role
    rcases Bool.or_eq_true_iff.1 hs with hs | hs
    · rw [Query.withOperator_of_standsFor hs]
      exact Query.carries_addTest (.inl rfl)
    · obtain ⟨o', ho'⟩ := Query.exists_standsFor hm
      rw [Query.withOperator_of_standsFor ho'] at hm ⊢
      have hi := carries_runAllWith hi hc steps hs (Query.mistake_of_addTest hm)
      exact Query.carries_addTest (.inr hi.writes)
  | compareRow connective columns operator operands =>
    change (q.withOperator _ _).mistake = none at hm
    change (q.withOperator _ _).Carries o role
    rw [Query.withOperator_of_standsFor hs] at hm ⊢
    exact Query.carries_addRow hm
  | nest connective steps =>
    have hi := carries_runAllWith hi hc steps hs (Query.mistake_of_addNested hm)
    exact Query.carries_addNested hi
  | exist connective negated steps =>
    have hi := carries_runAllWith hi hc steps hs (Query.mistake_of_addTest hm)
    exact Query.carries_addTest hi.writes
  | isInQuery connective negated column steps =>
    have hi := carries_runAllWith hi hc steps hs (Query.mistake_of_addTest hm)
    exact Query.carries_addTest hi.writes
  | having connective c =>
    simp only [chooses, Bool.and_eq_true, Bool.not_eq_true', decide_eq_true_eq] at hs
    obtain ⟨⟨rfl, ho⟩, hn⟩ := hs
    change (q.withOperator _ _).Carries o .select
    rw [Query.withOperator_of_standsFor ho]
    exact Query.carries_having hn
  | unite all steps =>
    simp only [chooses, Bool.and_eq_true, decide_eq_true_eq] at hs
    obtain ⟨rfl, hs⟩ := hs
    refine Query.carries_unite all (carries_runAllWith hi hc steps hs ?_)
    exact Query.mistake_of_absorb hm
  | join kind table first operator second =>
    simp only [chooses, Bool.and_eq_true, decide_eq_true_eq] at hs
    exact Query.carries_joinOn hs.1 kind _ first hs.2 second
  | joinWith kind table steps =>
    simp only [chooses, Bool.and_eq_true, decide_eq_true_eq] at hs
    refine Query.carries_addJoin hs.1 kind _ (carries_runAllWith hi hc steps hs.2 ?_)
    exact Query.mistake_of_absorb hm
  | joinQuery kind steps label first operator second =>
    simp only [chooses, Bool.and_eq_true, decide_eq_true_eq] at hs
    exact Query.carries_joinQuery hs.1.1 kind label first hs.1.2 second hs.2
  | call method terms => exact hc role method _ q hs hm
  | _ => exact absurd hs Bool.false_ne_true

theorem carries_runAllWith {role : Role} {q : Query}
    (hi : ∀ method values (q : Query), q.Extends (invoke method values q).1)
    (hc : ∀ role method values q, calls role method values q →
      (invoke method values q).1.mistake = none → (invoke method values q).1.Carries o role) :
    ∀ steps : List Step, allChoose invoke calls arguments o role q steps →
      (runAllWith invoke arguments q steps).1.mistake = none →
      (runAllWith invoke arguments q steps).1.Carries o role := by
  intro steps hs hm
  cases steps with
  | nil => cases hs
  | cons step rest =>
    have hstep (hs : step.chooses invoke calls arguments o role q) := carries_runWith hi hc step hs
    cases he : runWith invoke arguments q step with
    | mk q' failure =>
      simp only [he] at hstep
      simp only [allChoose, he, Bool.or_eq_true] at hs
      simp only [runAllWith, he] at hm ⊢
      cases failure with
      | none =>
        have hrest : q'.Extends (runAllWith invoke arguments q' rest).1 :=
          extends_runAllWith hi rest
        rcases hs with hs | hs
        · exact (hstep hs (hrest.mistake hm)).extended hrest
        · exact carries_runAllWith hi hc rest hs hm
      | some e =>
        rcases hs with hs | hs
        · exact hstep hs hm
        · cases hs

end

end Step

namespace Query

def choosesCall (o : Operator) : Nat → Role → String → List Value → Query → Bool
  | 0, _, _, _, _ => false
  | depth + 1, role, method, arguments, q =>
    match q.macros.get? method with
    | some steps => Step.allChoose (callWithin depth) (choosesCall o depth) arguments o role q steps
    | none => false

def choosesOperator (q : Query) (steps : List Step) (o : Operator) : Bool :=
  Step.allChoose (callWithin q.callDepth) (choosesCall o q.callDepth) [] o .select q steps

theorem carries_callWithin {o : Operator} (depth : Nat) : ∀ (role : Role) (method : String)
    (arguments : List Value) (q : Query), choosesCall o depth role method arguments q →
    (callWithin depth method arguments q).1.mistake = none →
    (callWithin depth method arguments q).1.Carries o role := by
  induction depth with
  | zero =>
    intro role method arguments q hs
    cases hs
  | succ depth ih =>
    intro role method arguments q hs
    simp only [callWithin]
    simp only [choosesCall] at hs
    split
    · rename_i steps hsteps
      rw [hsteps] at hs
      exact Step.carries_runAllWith (extends_callWithin depth) ih steps hs
    · rename_i hsteps
      rw [hsteps] at hs
      cases hs

theorem uses_of_chooses {q : Query} {steps : List Step} {o : Operator}
    (h : q.choosesOperator steps o) (hm : (q.run steps).1.mistake = none) :
    (q.run steps).1.Uses o :=
  ⟨0, (Step.carries_runAllWith (extends_callWithin _) (carries_callWithin _) steps h hm).writes⟩

end Query

end FluentSql
