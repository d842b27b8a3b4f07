import FluentSql.Proofs.Mistakes.Spotless
import FluentSql.Query.Run

namespace FluentSql

def OperatorName.mistakes (comparison : Operator → List Mistake) : OperatorName → List Mistake
  | custom symbol => comparison ⟨symbol⟩
  | named name =>
    match Operator.parse? name with
    | some o => comparison o
    | none => [.unknownOperator name]

def Operator.mistakes (o : Operator) (operand : Operand Value) : List Mistake :=
  if operand.isNull ∧ ¬ o.isEquality ∧ ¬ o.isInequality then [.nullComparison] else []

theorem Operand.mistakes_equal (operand : Operand Value) : Operator.equal.mistakes operand = [] :=
  if_neg fun h ↦ h.2.1 rfl

namespace Query

/-- The mistake of embedding a query that the dialect cannot write, or else those that come after.
A query that holds a mistake is not written either, but has told of it before. -/
def embeddingMistakes (q inner : Query) (after : List Mistake) : List Mistake :=
  match q.grammar.select inner with
  | .ok _ => after
  | .error (.generation reason) => [.subquery reason]
  | .error _ => []

/-- A query keeps the mistake that it holds, or else takes the first one that it is told of. As long
as it has none, no query with a mistake comes into it. -/
structure Told (q : Query) (l : List Mistake) (q' : Query) : Prop where
  mistake : q'.mistake = q.mistake.or l.head?
  spotless : q'.mistake = none → q.Spotless → q'.Spotless

variable {p q q' inner : Query} {l l' : List Mistake} {connective : Connective} {column : String}
  {values : List Value}

theorem mistake_fail (m : Mistake) : (q.fail m).mistake = q.mistake.or (some m) := by
  unfold fail
  split <;> simp [*]

theorem mistake_absorb : (q.absorb inner).mistake = q.mistake.or inner.mistake := by
  unfold absorb
  split <;> simp [mistake_fail, *]

theorem spotless_start (g : Grammar) (macros : Macros) {source : Option Reference} {isJoin : Bool} :
    Spotless { grammar := g, macros, source, isJoin } :=
  ⟨rfl, trivial, trivial, trivial⟩

namespace Told

theorem same (h : (q'.mistake, q'.joins, q'.conditions, q'.unions) =
    (q.mistake, q.joins, q.conditions, q.unions)) : Told q [] q' := by
  simp only [Prod.mk.injEq] at h
  obtain ⟨hm, hj, hc, hu⟩ := h
  constructor
  · rw [hm, List.head?_nil, Option.or_none]
  · intro _ hq
    rw [spotless_iff] at hq ⊢
    rwa [hm, hj, hc, hu]

theorem refl (q : Query) : Told q [] q := same rfl

theorem trans (h : Told p l q) (h' : Told q l' q') : Told p (l ++ l') q' where
  mistake := by rw [h'.mistake, h.mistake, List.head?_append, Option.or_assoc]
  spotless hn hp :=
    h'.spotless hn (h.spotless (Option.or_eq_none_iff.1 (h'.mistake.symm.trans hn)).1 hp)

theorem of_some {m : Mistake} (h : q'.mistake = q.mistake.or (some m)) (l : List Mistake) :
    Told q (m :: l) q' where
  mistake := h
  spotless hn _ := by
    rw [h] at hn
    cases hm : q.mistake <;> simp [hm] at hn

theorem fail (m : Mistake) : Told q [m] (q.fail m) := of_some (mistake_fail m) []

theorem withOperator (name : OperatorName) {f : Operator → List Mistake}
    {continue' : Operator → Query} (h : ∀ o, Told q (f o) (continue' o)) :
    Told q (name.mistakes f) (q.withOperator name continue') := by
  unfold Query.withOperator operator? OperatorName.mistakes
  cases name with
  | custom symbol => exact h _
  | named name =>
    dsimp only
    cases Operator.parse? name with
    | some o => exact h o
    | none => exact fail _

theorem addCondition {test : Test Query} (ht : test.Spotless) :
    Told q [] (q.addCondition connective test) where
  mistake := by rw [List.head?_nil, Option.or_none]; rfl
  spotless _ h := by
    obtain ⟨hm, hj, hc, hu⟩ := spotless_iff.1 h
    exact spotless_iff.2 ⟨hm, hj, conditionsSpotless_append hc ht, hu⟩

theorem addTest {test : Test Query} (ht : test.Spotless) :
    Told q [] (q.addTest connective test values) := by
  have hb : Told q [] (q.bind .conditions values) := same rfl
  exact hb.trans (addCondition ht)

theorem addComparison (connective : Connective) (column : String) (o : Operator)
    (operand : Operand Value) :
    Told q (o.mistakes operand) (q.addComparison connective column o operand) := by
  have hnull (negated : Bool) : Told q [] (q.addNull connective column negated) :=
    addCondition trivial
  unfold Query.addComparison Operator.mistakes
  cases operand.isNull with
  | true =>
    cases he : o.isEquality <;> cases hi : o.isInequality
    · exact fail _
    all_goals exact hnull _
  | false =>
    have htest : Told q [] (q.addTest connective (.basic column o operand) operand.values) :=
      addTest trivial
    rw [if_neg Bool.false_ne_true, if_neg fun h ↦ Bool.false_ne_true h.1]
    split
    · split
      · exact addCondition trivial
      · exact htest
    · exact htest

theorem addEquality (connective : Connective) (column : String) (operand : Operand Value) :
    Told q [] (q.addComparison connective column .equal operand) :=
  operand.mistakes_equal ▸ addComparison connective column .equal operand

theorem addRow (connective : Connective) (columns : List String) (o : Operator)
    (operands : List (Operand Value)) :
    Told q (if columns.length ≠ operands.length then [.rowArity] else [])
      (q.addRow connective columns o operands) := by
  unfold Query.addRow
  split
  · exact fail _
  · exact addTest trivial

theorem addDynamicWhere (method : String) (arguments : List Value) :
    Told q [] (q.addDynamicWhere method arguments).1 := by
  unfold Query.addDynamicWhere
  split
  · exact refl q
  · split
    · exact refl q
    · exact List.foldlRecOn _ _ (Told.refl _) fun _ h entry _ ↦ h.trans (addEquality ..)

theorem having (operator : Operator) (operand : Operand Value) :
    Told q [] (q.having connective column operator operand) := by
  unfold Query.having
  split <;> exact same rfl

theorem addOrder (order : Order) (values : List Value) : Told q [] (q.addOrder order values) := by
  unfold Query.addOrder
  split <;> exact same rfl

theorem setLimit (n : Nat) : Told q [] (q.setLimit n) := by
  unfold Query.setLimit
  split <;> exact same rfl

theorem setOffset (n : Nat) : Told q [] (q.setOffset n) := by
  unfold Query.setOffset
  split <;> exact same rfl

theorem pageAfter (size : Nat) (last : Option Value) (column : String) :
    Told q (last.elim [] fun v ↦ Operator.greater.mistakes (.bound v))
      (q.pageAfter size last column) := by
  have hwindow {q' : Query} : Told q' [] ((q'.orderBy (.name column) .ascending).setLimit size) :=
    (addOrder _ _).trans (setLimit size)
  have hq : Told q [] { q with orders := q.orders.filter fun o ↦ !o.isOn column } := same rfl
  cases last with
  | none => exact hq.trans hwindow
  | some v =>
    have hv := (hq.trans (addComparison .and column .greater (.bound v))).trans hwindow
    rwa [List.append_nil, List.nil_append] at hv

end Told

structure Made (l : List Mistake) (q : Query) : Prop where
  mistake : q.mistake = l.head?
  spotless : q.mistake = none → q.Spotless

theorem Told.made (h : Told p l q) (hp : p.Spotless) : Made l q where
  mistake := by
    obtain ⟨c, _, _, _⟩ := p
    rw [h.mistake, hp.1, Option.none_or]
  spotless hn := h.spotless hn hp

theorem Told.fresh (h : Told q.fresh l inner) : Made l inner := h.made (spotless_start ..)

namespace Made

variable (h : Made l inner)

include h

theorem absorb : Told q l (q.absorb inner) where
  mistake := by rw [mistake_absorb, h.mistake]
  spotless hn hq := by
    rw [mistake_absorb] at hn
    rwa [Query.absorb, (Option.or_eq_none_iff.1 hn).2]

/-- With an inner query comes its mistake, or else a query without one. -/
theorem andThen (hm : q'.mistake = (q.absorb inner).mistake)
    (hs : inner.Spotless → (q.absorb inner).Spotless → q'.Spotless) : Told q l q' where
  mistake := hm.trans h.absorb.mistake
  spotless hn hq := by
    rw [hm] at hn
    have hi := (Option.or_eq_none_iff.1 (mistake_absorb.symm.trans hn)).2
    exact hs (h.spotless hi) (h.absorb.spotless hn hq)

theorem addQuery {test : Test Query} (ht : inner.Spotless → test.Spotless) :
    Told q l ((q.absorb inner).addTest connective test values) := by
  refine h.andThen rfl fun hi hq ↦ ?_
  exact (Told.addTest (ht hi)).spotless (spotless_iff.1 hq).1 hq

theorem addNested (connective : Connective) : Told q l (q.addNested connective inner) := by
  unfold Query.addNested
  dsimp only
  split
  · exact h.absorb
  · exact h.addQuery id

/-- An unknown operator is told of before the query that it should compare with. -/
theorem addQueryComparison (name : OperatorName) :
    Told q ((name.mistakes fun _ ↦ []) ++ l)
      (q.withOperator name fun o ↦ q.addQueryComparison connective column o inner) := by
  unfold Query.withOperator operator? OperatorName.mistakes
  cases name with
  | custom symbol => exact h.addQuery id
  | named name =>
    dsimp only
    cases Operator.parse? name with
    | some o => exact h.addQuery id
    | none => exact .of_some (mistake_fail _) l

theorem unite (all : Bool) : Told q l (q.unite inner all) := by
  refine h.andThen rfl fun hi hq ↦ ?_
  obtain ⟨hm, hj, hc, hu⟩ := spotless_iff.1 hq
  exact spotless_iff.2 ⟨hm, hj, hc, membersSpotless_append hu hi⟩

theorem addJoin (kind : JoinKind) (table : Reference) : Told q l (q.addJoin kind table inner) := by
  refine h.andThen rfl fun hi hq ↦ ?_
  obtain ⟨hm, hj, hc, hu⟩ := spotless_iff.1 hq
  exact spotless_iff.2 ⟨hm, joinsSpotless_append hj hi, hc, hu⟩

end Made

namespace Told

theorem addRecord (connective : Connective) (record : Record Value) :
    Told q [] (q.addRecord connective record) := by
  refine Made.addNested (Told.fresh (q := q) ?_) connective
  exact List.foldlRecOn record _ (refl _) fun _ h entry _ ↦ h.trans (addEquality ..)

theorem joinOn (kind : JoinKind) (table : Reference) (first : String) (operator : OperatorName)
    (second : String) :
    Told q (operator.mistakes fun _ ↦ []) (q.joinOn kind table first operator second) := by
  have hcolumns (o : Operator) : Told q.joinClause [] (q.joinClause.addColumns .and first o second) :=
    addCondition trivial
  have h := withOperator operator hcolumns
  exact (h.made (spotless_start ..)).addJoin kind table

end Told

namespace Made

variable (h : Made l inner)

include h

theorem withEmbedded {continue' : Query → Sql → Query} (hc : ∀ q sql, Told q l' (continue' q sql)) :
    Told q (l ++ q.embeddingMistakes inner l') (q.withEmbedded inner continue') := by
  unfold Query.withEmbedded embed embeddingMistakes
  cases q.grammar.select inner with
  | ok sql => exact h.absorb.trans (hc _ sql)
  | error e =>
    cases e with
    | generation reason => exact h.absorb.trans (.fail _)
    | _ => exact h.absorb.trans (.refl _)

theorem selectQuery (label : String) :
    Told q (l ++ q.embeddingMistakes inner []) (q.selectQuery inner label) := by
  refine h.withEmbedded fun _ _ ↦ ?_
  exact .same rfl

theorem sourceQuery (label : String) :
    Told q (l ++ q.embeddingMistakes inner []) (q.sourceQuery inner label) := by
  refine h.withEmbedded fun _ _ ↦ ?_
  exact .same rfl

theorem orderByQuery (direction : Direction) :
    Told q (l ++ q.embeddingMistakes inner []) (q.orderByQuery inner direction) := by
  refine h.withEmbedded fun _ _ ↦ ?_
  exact .addOrder _ _

theorem joinQuery (kind : JoinKind) (label first : String) (operator : OperatorName)
    (second : String) :
    Told q (l ++ q.embeddingMistakes inner (operator.mistakes fun _ ↦ []))
      (q.joinQuery kind inner label first operator second) := by
  refine h.withEmbedded fun q sql ↦ ?_
  have hq : Told q [] (q.bind .joins inner.allBindings) := .same rfl
  exact hq.trans (.joinOn kind _ first operator second)

end Made

end Query

namespace Step

open Query

mutual

/-- The mistakes that a step makes, however deep. They stand in the order of the steps, but that the
operator of a comparison with a query comes before the query. -/
def mistakes (invoke : String → List Value → Query → Outcome)
    (calls : String → List Value → Query → List Mistake) (arguments : List Value) (q : Query) :
    Step → List Mistake
  | compare _ c => c.operator.mistakes fun o ↦ o.mistakes (c.operand.map (·.resolve arguments))
  | compareDate _ _ c => c.operator.mistakes fun _ ↦ []
  | compareJsonLength _ c => c.operator.mistakes fun _ ↦ []
  | compareColumns _ _ operator _ => operator.mistakes fun _ ↦ []
  | compareQuery _ _ operator steps =>
    (operator.mistakes fun _ ↦ []) ++ allMistakes invoke calls arguments q.fresh steps
  | compareRow _ columns operator operands =>
    operator.mistakes fun _ ↦ if columns.length ≠ operands.length then [.rowArity] else []
  | nest _ steps => allMistakes invoke calls arguments { q.fresh with source := q.source } steps
  | exist _ _ steps => allMistakes invoke calls arguments q.fresh steps
  | isInQuery _ _ _ steps => allMistakes invoke calls arguments q.fresh steps
  | having _ c => c.operator.mistakes fun _ ↦ []
  | selectQuery steps _ =>
    allMistakes invoke calls arguments q.fresh steps ++
      q.embeddingMistakes (runAllWith invoke arguments q.fresh steps).1 []
  | sourceQuery steps _ =>
    allMistakes invoke calls arguments q.fresh steps ++
      q.embeddingMistakes (runAllWith invoke arguments q.fresh steps).1 []
  | orderByQuery steps _ =>
    allMistakes invoke calls arguments q.fresh steps ++
      q.embeddingMistakes (runAllWith invoke arguments q.fresh steps).1 []
  | pageAfter _ last _ =>
    last.elim [] fun t ↦ Operator.greater.mistakes (.bound (t.resolve arguments))
  | unite _ steps => allMistakes invoke calls arguments q.fresh steps
  | join _ _ _ operator _ => operator.mistakes fun _ ↦ []
  | joinWith _ _ steps => allMistakes invoke calls arguments q.joinClause steps
  | joinQuery _ steps _ _ operator _ =>
    allMistakes invoke calls arguments q.fresh steps ++
      q.embeddingMistakes (runAllWith invoke arguments q.fresh steps).1
        (operator.mistakes fun _ ↦ [])
  | call method terms => calls method (terms.map (·.resolve arguments)) q
  | _ => []

def allMistakes (invoke : String → List Value → Query → Outcome)
    (calls : String → List Value → Query → List Mistake) (arguments : List Value) (q : Query) :
    List Step → List Mistake
  | [] => []
  | step :: rest =>
    mistakes invoke calls arguments q step ++
      match runWith invoke arguments q step with
      | (q, none) => allMistakes invoke calls arguments q rest
      | (_, some _) => []

end

variable {invoke : String → List Value → Query → Outcome}
  {calls : String → List Value → Query → List Mistake} {arguments : List Value}

mutual

/-- A step tells a query of the mistakes it makes, if calls do. -/
theorem told_runWith
    (hc : ∀ method values q, Told q (calls method values q) (invoke method values q).1) (q : Query) :
    ∀ step : Step, Told q (step.mistakes invoke calls arguments q)
      (step.runWith invoke arguments q).1 := by
  intro step
  cases step with
  | compare connective c =>
    exact Told.withOperator c.operator fun o ↦ Told.addComparison connective c.column o _
  | compareDate part connective c =>
    rw [mistakes]
    refine Told.withOperator c.operator fun o ↦ ?_
    exact .addTest trivial
  | compareJsonLength connective c =>
    rw [mistakes]
    refine Told.withOperator c.operator fun o ↦ ?_
    exact .addTest trivial
  | compareColumns connective first operator second =>
    rw [mistakes]
    refine Told.withOperator operator fun o ↦ ?_
    exact .addCondition trivial
  | compareQuery connective column operator steps =>
    have hi := (told_runAllWith hc q.fresh steps).fresh
    exact hi.addQueryComparison operator
  | compareRow connective columns operator operands =>
    have hr (o : Operator) :=
      Told.addRow (q := q) connective columns o (operands.map (·.map (·.resolve arguments)))
    rw [List.length_map] at hr
    exact Told.withOperator operator hr
  | nest connective steps =>
    have hi := told_runAllWith hc { q.fresh with source := q.source } steps
    exact (hi.made (spotless_start ..)).addNested connective
  | exist connective negated steps =>
    have hi := (told_runAllWith hc q.fresh steps).fresh
    exact hi.addQuery id
  | isInQuery connective negated column steps =>
    have hi := (told_runAllWith hc q.fresh steps).fresh
    exact hi.addQuery id
  | isIn connective negated column operands => exact .addTest trivial
  | isInIntegers connective negated column terms => exact .addCondition trivial
  | isNull connective negated column => exact .addCondition trivial
  | between connective negated column low high => exact .addTest trivial
  | betweenColumns connective negated column low high => exact .addCondition trivial
  | rawCondition connective sql terms => exact .addTest trivial
  | jsonContains connective negated column term => exact .addTest trivial
  | matchRecord connective record => exact Told.addRecord connective _
  | having connective c => exact Told.withOperator c.operator fun o ↦ Told.having o _
  | selectQuery steps label =>
    have hi := (told_runAllWith hc q.fresh steps).fresh
    exact hi.selectQuery label
  | sourceQuery steps label =>
    have hi := (told_runAllWith hc q.fresh steps).fresh
    exact hi.sourceQuery label
  | orderByQuery steps direction =>
    have hi := (told_runAllWith hc q.fresh steps).fresh
    exact hi.orderByQuery direction
  | orderBy column direction => exact .addOrder _ _
  | orderByRaw sql terms => exact .addOrder _ _
  | randomOrder seed => exact .addOrder _ _
  | reorderBy column direction =>
    have hq : Told q [] q.reorder := .same rfl
    exact hq.trans (.addOrder _ _)
  | limit n => exact .setLimit n
  | offset n => exact .setOffset n
  | page number size => exact (Told.setOffset _).trans (.setLimit size)
  | pageAfter size last column =>
    have hp := Told.pageAfter (q := q) size (last.map (·.resolve arguments)) column
    rwa [Option.elim_map] at hp
  | unite all steps =>
    have hi := (told_runAllWith hc q.fresh steps).fresh
    exact hi.unite all
  | join kind table first operator second => exact Told.joinOn ..
  | crossJoin table =>
    have hi : Made [] q.joinClause := (Told.refl _).made (spotless_start ..)
    exact hi.addJoin .cross table.reference
  | joinWith kind table steps =>
    have hi := told_runAllWith hc q.joinClause steps
    exact (hi.made (spotless_start ..)).addJoin kind table.reference
  | joinQuery kind steps label first operator second =>
    have hi := (told_runAllWith hc q.fresh steps).fresh
    exact hi.joinQuery kind label first operator second
  | call method terms => exact hc method _ q
  | _ => exact .same rfl

theorem told_runAllWith
    (hc : ∀ method values q, Told q (calls method values q) (invoke method values q).1) (q : Query) :
    ∀ steps : List Step, Told q (allMistakes invoke calls arguments q steps)
      (runAllWith invoke arguments q steps).1 := by
  intro steps
  cases steps with
  | nil => exact .refl q
  | cons step rest =>
    have hq := told_runWith hc q step
    rw [runAllWith, allMistakes]
    cases hr : step.runWith invoke arguments q with | mk q' failure
    rw [hr] at hq
    cases failure with
    | none => exact hq.trans (told_runAllWith hc q' rest)
    | some e => exact hq.trans (.refl q')

end

end Step

namespace Query

def callMistakes : Nat → String → List Value → Query → List Mistake
  | 0, _, _, _ => []
  | depth + 1, method, arguments, q =>
    match q.macros.get? method with
    | some steps => Step.allMistakes (callWithin depth) (callMistakes depth) arguments q steps
    | none => []

def stepMistakes (q : Query) (steps : List Step) : List Mistake :=
  Step.allMistakes (callWithin q.callDepth) (callMistakes q.callDepth) [] q steps

theorem told_callWithin (depth : Nat) : ∀ (method : String) (arguments : List Value) (q : Query),
    Told q (callMistakes depth method arguments q) (callWithin depth method arguments q).1 := by
  induction depth with
  | zero => exact fun method arguments q ↦ Told.addDynamicWhere method arguments
  | succ depth ih =>
    intro method arguments q
    unfold callMistakes callWithin
    cases q.macros.get? method with
    | some steps => exact Step.told_runAllWith ih q steps
    | none => exact Told.addDynamicWhere method arguments

theorem told_run (q : Query) (steps : List Step) : Told q (q.stepMistakes steps) (q.run steps).1 :=
  Step.told_runAllWith (told_callWithin q.callDepth) q steps

end Query

end FluentSql
