import FluentSql.Statement.Select

namespace FluentSql

def HinderedBy {α : Type} (R : Unsupported → Prop) (x : Except Error α) : Prop :=
  ∀ e, x = .error e → ∃ reason, R reason ∧ e = .generation reason

def Expressible {α : Type} (x : Except Error α) : Prop :=
  ∀ e, x = .error e → ∃ reason, e = .generation reason

namespace HinderedBy

variable {α β : Type} {R R' : Unsupported → Prop} {x : Except Error α}

@[simp] theorem ok (a : α) : HinderedBy R (.ok a) := nofun

@[simp] theorem ret (a : α) : HinderedBy R (pure a) := nofun

@[simp] theorem generation {reason : Unsupported} (h : R reason) :
    HinderedBy R (.error (.generation reason) : Except Error α) :=
  fun _ he ↦ ⟨reason, h, (Except.error.inj he).symm⟩

theorem andThen {f : α → Except Error β} (hx : HinderedBy R x)
    (hf : ∀ a, x = .ok a → HinderedBy R (f a)) : HinderedBy R (x >>= f) := by
  cases x with
  | ok a => exact hf a rfl
  | error e => exact fun e' h ↦ hx e' (congrArg Except.error (Except.error.inj h))

@[simp] theorem bind {f : α → Except Error β} (hx : HinderedBy R x)
    (hf : ∀ a, HinderedBy R (f a)) : HinderedBy R (x >>= f) :=
  hx.andThen fun a _ ↦ hf a

@[simp] theorem map {f : α → β} (hx : HinderedBy R x) : HinderedBy R (x.map f) := by
  cases x with
  | ok a => exact ok _
  | error e => exact fun e' h ↦ hx e' (congrArg Except.error (Except.error.inj h))

@[simp] theorem mapped {f : α → β} (hx : HinderedBy R x) : HinderedBy R (f <$> x) := map hx

@[simp] theorem mapM {f : α → Except Error β} (hf : ∀ a, HinderedBy R (f a)) (as : List α) :
    HinderedBy R (as.mapM f) := by
  induction as with
  | nil => exact ret _
  | cons a as ih => simp [List.mapM_cons, hf, ih]

theorem mono (h : HinderedBy R x) (hR : ∀ reason, R reason → R' reason) : HinderedBy R' x := by
  intro e he
  obtain ⟨reason, hr, rfl⟩ := h e he
  exact ⟨reason, hR reason hr, rfl⟩

theorem expressible (h : HinderedBy R x) : Expressible x := by
  intro e he
  obtain ⟨reason, -, rfl⟩ := h e he
  exact ⟨reason, rfl⟩

theorem exists_ok (h : HinderedBy R x) (hR : ∀ reason, ¬ R reason) : ∃ a, x = .ok a := by
  cases x with
  | ok a => exact ⟨a, rfl⟩
  | error e =>
    obtain ⟨reason, hr, -⟩ := h e rfl
    exact absurd hr (hR reason)

end HinderedBy

namespace Grammar

variable (g : Grammar)

def Lacks (reason : Unsupported) : Prop := g.dialect = .generic ∧ reason = .json

variable {g} in
@[simp] theorem hindered_json {α : Type} (h : g.dialect = .generic) :
    HinderedBy g.Lacks (.error (.generation .json) : Except Error α) :=
  .generation ⟨h, rfl⟩

@[simp] theorem hindered_unaliased (s : List Char) : HinderedBy g.Lacks (g.unaliased s) := by
  unfold unaliased selector
  repeat' split
  all_goals simp [*]

@[simp] theorem hindered_wrap (s : String) : HinderedBy g.Lacks (g.wrap s) := by
  unfold wrap
  split <;> simp

@[simp] theorem hindered_reference (r : Reference) : HinderedBy g.Lacks (g.reference r) := by
  unfold reference
  split <;> simp

@[simp] theorem hindered_references (rs : List Reference) :
    HinderedBy g.Lacks (g.references rs) := by
  simp [references]

@[simp] theorem hindered_names (columns : List String) : HinderedBy g.Lacks (g.names columns) := by
  simp [names]

section

variable (column : String) (operator : Operator) (value : Operand Value) (negated : Bool)

@[simp] theorem hindered_basicTest : HinderedBy g.Lacks (g.basicTest column operator value) := by
  refine .bind (by simp) fun _ ↦ ?_
  split <;> simp

@[simp] theorem hindered_jsonBooleanTest (value : Bool) :
    HinderedBy g.Lacks (g.jsonBooleanTest column operator value) := by
  unfold jsonBooleanTest
  dsimp only
  repeat' split
  all_goals simp [*]

@[simp] theorem hindered_nullTest : HinderedBy g.Lacks (g.nullTest column negated) := by
  unfold nullTest
  repeat' split
  all_goals simp

@[simp] theorem hindered_betweenTest (low high : Operand Value) :
    HinderedBy g.Lacks (g.betweenTest column low high negated) := by
  simp [betweenTest]

@[simp] theorem hindered_datePartTest (part : DatePart) :
    HinderedBy g.Lacks (g.datePartTest part column operator value) := by
  simp [datePartTest]

@[simp] theorem hindered_rowValuesTest (columns : List String) (values : List (Operand Value)) :
    HinderedBy g.Lacks (g.rowValuesTest columns operator values) := by
  simp [rowValuesTest]

@[simp] theorem hindered_jsonContainsTest (value : Value) :
    HinderedBy g.Lacks (g.jsonContainsTest column value) := by
  unfold jsonContainsTest
  dsimp only
  split <;> simp [*]

@[simp] theorem hindered_jsonLengthTest :
    HinderedBy g.Lacks (g.jsonLengthTest column operator value) := by
  unfold jsonLengthTest
  split <;> simp [*]

@[simp] theorem hindered_columnTest (second : String) :
    HinderedBy g.Lacks (g.columnTest column operator second) := by
  simp [columnTest]

@[simp] theorem hindered_betweenColumnsTest (low high : String) :
    HinderedBy g.Lacks (g.betweenColumnsTest column low high negated) :=
  .bind (by simp) fun _ ↦ by simp

@[simp] theorem hindered_inTest (values : List (Operand Value)) :
    HinderedBy g.Lacks (g.inTest column values negated) := by
  unfold inTest
  split <;> simp

@[simp] theorem hindered_inIntegersTest (values : List Int64) :
    HinderedBy g.Lacks (g.inIntegersTest column values negated) := by
  unfold inIntegersTest
  split <;> simp

end

@[simp] theorem hindered_havingTest (t : HavingTest) : HinderedBy g.Lacks (g.havingTest t) := by
  unfold havingTest
  split <;> simp

@[simp] theorem hindered_orderText (o : Order) : HinderedBy g.Lacks (g.orderText o) := by
  unfold orderText
  split <;> simp

@[simp] theorem hindered_orderClause? (orders : List Order) :
    HinderedBy g.Lacks (g.orderClause? orders) := by
  have ho : HinderedBy g.Lacks (g.orderClause orders) := by simp [orderClause]
  unfold orderClause?
  split <;> simp [ho]

theorem hindered_havingClause (havings : List Having) :
    HinderedBy g.Lacks (g.havingClause havings) :=
  .bind (by simp) fun _ ↦ .ret _

end Grammar

namespace Clauses

variable (g : Grammar) (c : Clauses) (e : Embedded)

@[simp] theorem hindered_middle : HinderedBy g.Lacks (c.middle g e) := by
  have hg : HinderedBy g.Lacks (c.groupClause? g) := by
    unfold groupClause?
    split <;> simp
  have hh : HinderedBy g.Lacks (c.havingClause? g) := by
    unfold havingClause?
    split <;> simp [Grammar.hindered_havingClause]
  simp [middle, hg, hh]

@[simp] theorem hindered_aggregateColumns (a : Aggregate) :
    HinderedBy g.Lacks (g.aggregateColumns c a) := by
  simp [Grammar.aggregateColumns]

@[simp] theorem hindered_columnClause : HinderedBy g.Lacks (g.columnClause c) := by
  unfold Grammar.columnClause
  dsimp only
  repeat' split
  all_goals simp

/-- What can be in the way of a query, besides the queries inside it. -/
def Obstructed (reason : Unsupported) : Prop :=
  g.Lacks reason ∨
    reason = .offsetOfUnion ∧ g.dialect = .sqlServer ∧ Query.skipsRows c ∧ e.unions ≠ []

theorem hindered_plain : HinderedBy (c.Obstructed g e) (c.plain g e) := by
  have hlacks {α : Type} {x : Except Error α} (hx : HinderedBy g.Lacks x) :
      HinderedBy (c.Obstructed g e) x := hx.mono fun _ ↦ .inl
  unfold plain
  dsimp only
  split
  · rename_i h
    exact .generation (.inr ⟨rfl, h.1.1, h.1.2, by simpa using h.2⟩)
  · split
    all_goals
      refine .bind (hlacks (by simp)) fun _ ↦ .bind (hlacks (by simp)) fun _ ↦
        .bind (hlacks (by simp)) fun _ ↦ ?_
      split
      · simp
      · split
        · simp
        · exact hlacks (by simp [unionTail])

theorem hindered_assemble : HinderedBy (c.Obstructed g e) (c.assemble g e) := by
  unfold assemble
  split
  · split
    · exact c.hindered_plain g e
    · refine .bind (.mono (by simp) fun _ ↦ .inl) fun _ ↦ .bind ?_ fun _ ↦ .ret _
      exact hindered_plain g { c with aggregate := none } e
  · exact c.hindered_plain g e

end Clauses

mutual

def Query.Spotless : Query → Prop
  | ⟨c, joins, conditions, unions⟩ =>
    c.mistake = none ∧ joinsSpotless joins ∧ conditionsSpotless conditions ∧ membersSpotless unions

def joinsSpotless : List (Join Query) → Prop
  | [] => True
  | ⟨_, _, clause⟩ :: rest => clause.Spotless ∧ joinsSpotless rest

def conditionsSpotless : List (Condition Query) → Prop
  | [] => True
  | ⟨_, t⟩ :: rest => t.Spotless ∧ conditionsSpotless rest

def membersSpotless : List (Member Query) → Prop
  | [] => True
  | ⟨query, _⟩ :: rest => query.Spotless ∧ membersSpotless rest

def Test.Spotless : Test Query → Prop
  | .isInQuery _ query _ => query.Spotless
  | .nested query => query.Spotless
  | .query _ _ query => query.Spotless
  | .existence query _ => query.Spotless
  | _ => True

end

theorem Query.spotless_iff {q : Query} : q.Spotless ↔ q.mistake = none ∧ joinsSpotless q.joins ∧
    conditionsSpotless q.conditions ∧ membersSpotless q.unions := by
  obtain ⟨c, joins, conditions, unions⟩ := q
  rfl

theorem joinsSpotless_append {joins : List (Join Query)} {join : Join Query}
    (h : joinsSpotless joins) (hj : join.clause.Spotless) : joinsSpotless (joins ++ [join]) := by
  induction joins with
  | nil => exact ⟨hj, trivial⟩
  | cons _ _ ih => exact ⟨h.1, ih h.2⟩

theorem conditionsSpotless_append {conditions : List (Condition Query)} {c : Condition Query}
    (h : conditionsSpotless conditions) (ht : c.test.Spotless) :
    conditionsSpotless (conditions ++ [c]) := by
  induction conditions with
  | nil => exact ⟨ht, trivial⟩
  | cons _ _ ih => exact ⟨h.1, ih h.2⟩

theorem membersSpotless_append {members : List (Member Query)} {member : Member Query}
    (h : membersSpotless members) (hm : member.query.Spotless) :
    membersSpotless (members ++ [member]) := by
  induction members with
  | nil => exact ⟨hm, trivial⟩
  | cons _ _ ih => exact ⟨h.1, ih h.2⟩

/-- A query that SQL Server cannot write: it numbers the rows that it skips, but not those of a
union. -/
def Query.SkipsUnion (q : Query) : Prop := skipsRows q.toClauses ∧ q.unions ≠ []

mutual

/-- The queries that are written along with a query, and not before it: it itself, the members of
its union, and those that it compares with. -/
inductive Query.Involves : Query → Query → Prop
  | self (q : Query) : q.Involves q
  | member {q p : Query} {m : Member Query} (hm : m ∈ q.unions) (h : m.query.Involves p) :
    q.Involves p
  | compared {q p : Query} (h : q.Compares p) : q.Involves p

inductive Query.Compares : Query → Query → Prop
  | condition {q p : Query} {c : Condition Query} (hc : c ∈ q.conditions) (h : c.test.Compares p) :
    q.Compares p
  | join {q p : Query} {j : Join Query} (hj : j ∈ q.joins) (h : j.clause.Compares p) : q.Compares p

/-- The queries in a condition. A group is its conditions: nothing else of it is ever written. -/
inductive Test.Compares : Test Query → Query → Prop
  | isInQuery {column : String} {query p : Query} {negated : Bool} (h : query.Involves p) :
    (Test.isInQuery column query negated).Compares p
  | query {column : String} {operator : Operator} {query p : Query} (h : query.Involves p) :
    (Test.query column operator query).Compares p
  | existence {query p : Query} {negated : Bool} (h : query.Involves p) :
    (Test.existence query negated).Compares p
  | nested {group p : Query} {c : Condition Query} (hc : c ∈ group.conditions)
    (h : c.test.Compares p) : (Test.nested group).Compares p

end

def Grammar.Obstructs (g : Grammar) (W : Query → Prop) (reason : Unsupported) : Prop :=
  g.Lacks reason ∨ reason = .offsetOfUnion ∧ g.dialect = .sqlServer ∧ ∃ p, W p ∧ p.SkipsUnion

theorem HinderedBy.obstructs {α : Type} {x : Except Error α} {g : Grammar} {W : Query → Prop}
    (h : HinderedBy g.Lacks x) : HinderedBy (g.Obstructs W) x :=
  h.mono fun _ ↦ .inl

namespace Grammar

variable (g : Grammar) {W : Query → Prop}

mutual

/-- A query without mistakes is written, unless one of the queries written along with it is in the
way. -/
theorem hindered_select : ∀ q : Query, q.Spotless → (∀ p, q.Involves p → W p) →
    HinderedBy (g.Obstructs W) (g.select q)
  | ⟨c, joins, conditions, unions⟩, ⟨hm, hj, hc, hu⟩, hW => by
    have hchecked : HinderedBy (g.Obstructs W) c.checked := by simp [Clauses.checked, hm]
    rw [select]
    refine .bind hchecked fun _ ↦
      .bind (hindered_joinList joins hj fun _ hj p h ↦ hW p (.compared (.join hj h))) fun js ↦
      .bind (hindered_conditionList conditions hc fun _ hc p h ↦
        hW p (.compared (.condition hc h))) fun cs ↦
      .andThen (hindered_memberList unions hu fun _ hm p h ↦ hW p (.member hm h)) fun us hus ↦ ?_
    refine (c.hindered_assemble g ⟨js, cs, us⟩).mono fun reason hr ↦ hr.imp_right ?_
    rintro ⟨rfl, hd, hskips, hne⟩
    refine ⟨rfl, hd, _, hW _ (.self _), hskips, ?_⟩
    rintro rfl
    cases hus
    exact hne rfl

theorem hindered_joinList : ∀ joins, joinsSpotless joins →
    (∀ j ∈ joins, ∀ p, j.clause.Compares p → W p) →
    HinderedBy (g.Obstructs W) (g.joinList joins)
  | [], _, _ => .ok _
  | ⟨_, _, ⟨_, joins, conditions, _⟩⟩ :: rest, ⟨⟨_, hj, hc, _⟩, hr⟩, hW => by
    obtain ⟨hfirst, hrest⟩ := List.forall_mem_cons.1 hW
    rw [joinList]
    exact .bind (hindered_joinList joins hj fun _ hj p h ↦ hfirst p (.join hj h)) fun _ ↦
      .bind (hindered_conditionList conditions hc fun _ hc p h ↦ hfirst p (.condition hc h))
        fun _ ↦ .bind (hindered_joinList rest hr hrest) fun _ ↦ .ret _

theorem hindered_conditionList : ∀ conditions, conditionsSpotless conditions →
    (∀ c ∈ conditions, ∀ p, c.test.Compares p → W p) →
    HinderedBy (g.Obstructs W) (g.conditionList conditions)
  | [], _, _ => .ok _
  | ⟨_, t⟩ :: rest, ⟨ht, hr⟩, hW => by
    obtain ⟨hfirst, hrest⟩ := List.forall_mem_cons.1 hW
    rw [conditionList]
    exact .bind (hindered_test t ht hfirst) fun _ ↦
      .bind (hindered_conditionList rest hr hrest) fun _ ↦ .ret _

theorem hindered_memberList : ∀ members, membersSpotless members →
    (∀ m ∈ members, ∀ p, m.query.Involves p → W p) →
    HinderedBy (g.Obstructs W) (g.memberList members)
  | [], _, _ => .ok _
  | ⟨query, _⟩ :: rest, ⟨hq, hr⟩, hW => by
    obtain ⟨hfirst, hrest⟩ := List.forall_mem_cons.1 hW
    rw [memberList]
    exact .bind (hindered_select query hq hfirst) fun _ ↦
      .bind (hindered_memberList rest hr hrest) fun _ ↦ .ret _

theorem hindered_test : ∀ t : Test Query, t.Spotless → (∀ p, t.Compares p → W p) →
    HinderedBy (g.Obstructs W) (g.test t)
  | .isInQuery _ query _, h, hW => by
    rw [test]
    exact .bind (.obstructs (by simp)) fun _ ↦
      .bind (hindered_select query h fun p hp ↦ hW p (.isInQuery hp)) fun _ ↦ .ret _
  | .nested ⟨_, _, conditions, _⟩, ⟨_, _, hc, _⟩, hW => by
    rw [test]
    exact .bind (hindered_conditionList conditions hc fun _ hc p h ↦ hW p (.nested hc h))
      fun _ ↦ .ret _
  | .query _ _ query, h, hW => by
    rw [test]
    exact .bind (.obstructs (by simp)) fun _ ↦
      .bind (hindered_select query h fun p hp ↦ hW p (.query hp)) fun _ ↦ .ret _
  | .existence query _, h, hW => by
    rw [test]
    exact .bind (hindered_select query h fun p hp ↦ hW p (.existence hp)) fun _ ↦ .ret _
  | .basic .., _, _ => .obstructs (by simp [test])
  | .jsonBoolean .., _, _ => .obstructs (by simp [test])
  | .columns .., _, _ => .obstructs (by simp [test])
  | .raw .., _, _ => .obstructs (by simp [test])
  | .isIn .., _, _ => .obstructs (by simp [test])
  | .isInIntegers .., _, _ => .obstructs (by simp [test])
  | .null .., _, _ => .obstructs (by simp [test])
  | .between .., _, _ => .obstructs (by simp [test])
  | .betweenColumns .., _, _ => .obstructs (by simp [test])
  | .datePart .., _, _ => .obstructs (by simp [test])
  | .rowValues .., _, _ => .obstructs (by simp [test])
  | .jsonContains .., _, _ => .obstructs (by simp [test])
  | .jsonLength .., _, _ => .obstructs (by simp [test])

end

theorem expressible_select (q : Query) (h : q.Spotless) : Expressible (g.select q) := by
  have hq : HinderedBy (g.Obstructs fun _ ↦ True) (g.select q) :=
    g.hindered_select q h fun _ _ ↦ trivial
  exact hq.expressible

end Grammar

end FluentSql
