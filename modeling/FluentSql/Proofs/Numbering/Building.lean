import FluentSql.Proofs.Numbering.Neat
import FluentSql.Query.Run

namespace FluentSql

open Text Placeholders

def isNumberable (sql : String) (values : Nat) : Bool :=
  count? none sql.toList == some values

namespace Operand

def isNumberable {α : Type} : Operand α → Bool
  | bound _ => true
  | raw sql => FluentSql.isNumberable sql 0

def isTruthValue : Operand Value → Bool
  | bound (.bool _) => true
  | _ => false

end Operand

def Identifier.isNumberable : Identifier → Bool
  | name _ => true
  | raw sql => FluentSql.isNumberable sql 0

def Lock.isNumberable : Lock → Bool
  | raw sql => FluentSql.isNumberable sql 0
  | update => true
  | shared => true

def OperatorName.all (p : Operator → Bool) : OperatorName → Bool
  | custom symbol => p ⟨symbol⟩
  | named name => (Operator.parse? name).all p

/-- Where a JSON selector is compared with a truth value, the operator is not escaped. -/
def Operator.mayCompare (o : Operator) (column : String) (operand : Operand Value) : Bool :=
  if Quoting.isJsonSelector column.toList ∧ operand.isTruthValue then o.isUnmarked else o.isKnown

theorem reads_of_isNumberable {sql : String} {n : Nat} (h : isNumberable sql n) :
    Reads none n sql.toList :=
  reads_of_count? (beq_iff_eq.1 h)

theorem Operand.neat_bound (v : Value) : (Operand.bound v).Neat :=
  Sql.Sound.slot v

theorem Operand.neat_of_isNumberable {operand : Operand Value} (h : operand.isNumberable) :
    operand.Neat := by
  cases operand with
  | bound v => exact neat_bound v
  | raw sql => exact .raw (reads_of_isNumberable h)

theorem Operand.neat_map {operand : Operand Value} (f : Value → Value) (h : operand.Neat) :
    (operand.map f).Neat := by
  cases operand with
  | bound v => exact neat_bound _
  | raw sql => exact h

theorem Operand.isNumberable_map {α β : Type} (f : α → β) (operand : Operand α) :
    (operand.map f).isNumberable = operand.isNumberable := by
  cases operand <;> rfl

theorem Identifier.neat_reference {i : Identifier} (h : i.isNumberable) : i.reference.Neat := by
  cases i with
  | name s => trivial
  | raw sql => exact .raw (reads_of_isNumberable h)

theorem Lock.neat_of_isNumberable {l : Lock} (h : l.isNumberable) : l.Neat := by
  cases l with
  | raw sql => exact reads_of_isNumberable h
  | update => trivial
  | shared => trivial

theorem joinsNeat_append {joins : List (Join Query)} {join : Join Query} (h : joinsNeat joins)
    (ht : join.table.Neat) (hj : join.clause.Neat) : joinsNeat (joins ++ [join]) := by
  induction joins with
  | nil => exact ⟨ht, hj, trivial⟩
  | cons _ _ ih => exact ⟨h.1, h.2.1, ih h.2.2⟩

theorem conditionsNeat_append {conditions : List (Condition Query)} {c : Condition Query}
    (h : conditionsNeat conditions) (ht : c.test.Neat) : conditionsNeat (conditions ++ [c]) := by
  induction conditions with
  | nil => exact ⟨ht, trivial⟩
  | cons _ _ ih => exact ⟨h.1, ih h.2⟩

theorem membersNeat_append {members : List (Member Query)} {member : Member Query}
    (h : membersNeat members) (hm : member.query.Neat) : membersNeat (members ++ [member]) := by
  induction members with
  | nil => exact ⟨hm, trivial⟩
  | cons _ _ ih => exact ⟨h.1, ih h.2⟩

namespace Query

variable {q q' inner : Query} {connective : Connective} {column : String} {o : Operator}
  {values : List Value}

namespace Neat

theorem same (h : q.Neat) (he : (q'.grammar, q'.aggregate, q'.columns, q'.source, q'.groups,
    q'.havings, q'.orders, q'.unionOrders, q'.lock, q'.joins, q'.conditions, q'.unions) =
    (q.grammar, q.aggregate, q.columns, q.source, q.groups, q.havings, q.orders, q.unionOrders,
      q.lock, q.joins, q.conditions, q.unions)) : q'.Neat := by
  simp only [Prod.mk.injEq] at he
  obtain ⟨hg, ha, hc, hs, hgr, hh, ho, hu, hl, hj, hcs, hus⟩ := he
  obtain ⟨h, hjoins, hconditions, hunions⟩ := neat_iff.1 h
  refine neat_iff.2 ⟨?_, hj ▸ hjoins, hcs ▸ hconditions, hus ▸ hunions⟩
  exact ⟨hg ▸ h.dialect, ha ▸ h.aggregate, hc ▸ h.columns, hs ▸ h.source, hgr ▸ h.groups,
    hh ▸ h.havings, ho ▸ h.orders, hu ▸ h.unionOrders, hl ▸ h.lock⟩

theorem start (g : Grammar) (macros : Macros) (hg : g.dialect = .postgres)
    {source : Option Reference} (hs : ∀ r ∈ source, r.Neat) {isJoin : Bool} :
    Neat { grammar := g, macros, source, isJoin } := by
  refine ⟨⟨hg, rfl, ?_, hs, ?_, ?_, ?_, ?_, ?_⟩, trivial, trivial, trivial⟩
  all_goals simp

theorem dialect (h : q.Neat) : q.grammar.dialect = .postgres := (neat_iff.1 h).1.dialect

theorem fresh (h : q.Neat) : q.fresh.Neat :=
  start _ _ h.dialect fun r hr ↦ by cases hr

theorem joinClause (h : q.Neat) : q.joinClause.Neat :=
  start _ _ h.dialect fun r hr ↦ by cases hr

theorem group (h : q.Neat) : Neat { q.fresh with source := q.source } :=
  start _ _ h.dialect (neat_iff.1 h).1.source

theorem fail (h : q.Neat) (m : Mistake) : (q.fail m).Neat := by
  unfold Query.fail
  split
  · exact h
  · exact h.same rfl

theorem absorb (h : q.Neat) (inner : Query) : (q.absorb inner).Neat := by
  unfold Query.absorb
  split
  · exact h.fail _
  · exact h

theorem withOperator (h : q.Neat) {name : OperatorName} {p : Operator → Bool} (hp : name.all p)
    {add : Operator → Query} (ha : ∀ o, p o → (add o).Neat) : (q.withOperator name add).Neat := by
  unfold Query.withOperator operator?
  cases name with
  | custom symbol => exact ha _ hp
  | named name =>
    dsimp only
    rw [OperatorName.all] at hp
    cases ho : Operator.parse? name with
    | some o =>
      rw [ho] at hp
      exact ha o hp
    | none => exact h.fail _

theorem addCondition (h : q.Neat) {t : Test Query} (ht : t.Neat) :
    (q.addCondition connective t).Neat := by
  obtain ⟨hc, hj, hcs, hu⟩ := neat_iff.1 h
  exact neat_iff.2 ⟨hc, hj, conditionsNeat_append hcs ht, hu⟩

theorem addTest (h : q.Neat) {t : Test Query} (ht : t.Neat) :
    (q.addTest connective t values).Neat := by
  have hb : (q.bind .conditions values).Neat := h.same rfl
  exact hb.addCondition ht

theorem addComparison (h : q.Neat) {operand : Operand Value} (hv : operand.Neat)
    (ho : o.mayCompare column operand) : (q.addComparison connective column o operand).Neat := by
  unfold Query.addComparison
  unfold Operator.mayCompare at ho
  split
  · split
    · exact h.addCondition trivial
    · split
      · exact h.addCondition trivial
      · exact h.fail _
  · split
    · split
      · rename_i hj
        rw [if_pos ⟨hj, rfl⟩] at ho
        exact h.addCondition ho
      · rename_i hj
        rw [if_neg fun hb ↦ hj hb.1] at ho
        exact h.addTest ⟨ho, hv⟩
    · rename_i hb
      have hn : operand.isTruthValue = false := by
        unfold Operand.isTruthValue
        split
        · exact absurd rfl (hb _)
        · rfl
      rw [if_neg fun hb ↦ Bool.false_ne_true (hn ▸ hb.2)] at ho
      exact h.addTest ⟨ho, hv⟩

theorem addEquality (h : q.Neat) {operand : Operand Value} (hv : operand.Neat) :
    (q.addComparison connective column .equal operand).Neat := by
  refine h.addComparison hv ?_
  unfold Operator.mayCompare
  split <;> decide

theorem addColumns (h : q.Neat) {first second : String} (ho : o.isUnmarked) :
    (q.addColumns connective first o second).Neat := by
  have ht : Test.Neat (.columns first o second) := ho
  exact h.addCondition ht

theorem addRow (h : q.Neat) (columns : List String) {operands : List (Operand Value)}
    (ho : o.isUnmarked) (hv : ∀ v ∈ operands, v.Neat) :
    (q.addRow connective columns o operands).Neat := by
  unfold Query.addRow
  split
  · exact h.fail _
  · exact h.addTest ⟨ho, hv⟩

theorem addNested (h : q.Neat) (hi : inner.Neat) : (q.addNested connective inner).Neat := by
  unfold Query.addNested
  dsimp only
  split
  · exact h.absorb inner
  · exact (h.absorb inner).addTest hi

theorem addRecord (h : q.Neat) {record : Record Value} (hr : ∀ entry ∈ record, entry.2.Neat) :
    (q.addRecord connective record).Neat := by
  refine h.addNested ?_
  exact List.foldlRecOn record _ h.fresh fun _ ht entry he ↦ ht.addEquality (hr entry he)

theorem withEmbedded (h : q.Neat) (hi : inner.Neat) {add : Query → Sql → Query}
    (ha : ∀ q sql, q.Neat → sql.Sound → (add q sql).Neat) : (q.withEmbedded inner add).Neat := by
  unfold Query.withEmbedded embed
  cases hs : q.grammar.select inner with
  | ok sql => exact ha _ _ (h.absorb inner) (Grammar.sound_select h.dialect inner hi sql hs)
  | error e =>
    cases e with
    | generation reason => exact (h.absorb inner).fail _
    | _ => exact h.absorb inner

theorem neat_aliased {sql : Sql} {label : String} (hs : sql.Sound) (hl : Quiet none label.toList) :
    (aliased sql label).Neat :=
  hs.enclosed.joined (by decide) (.of_text hl)

theorem select (h : q.Neat) {columns : List Reference} (hc : ∀ r ∈ columns, r.Neat) :
    (q.select columns).Neat := by
  obtain ⟨hq, hj, hcs, hu⟩ := neat_iff.1 h
  exact neat_iff.2 ⟨{ hq with columns := hc }, hj, hcs, hu⟩

theorem addSelect (h : q.Neat) {columns : List Reference} (hc : ∀ r ∈ columns, r.Neat) :
    (q.addSelect columns).Neat := by
  obtain ⟨hq, hj, hcs, hu⟩ := neat_iff.1 h
  have hcolumns : ∀ r ∈ q.columns.getD [] ++ columns, r.Neat :=
    List.forall_mem_append.2 ⟨hq.columns, hc⟩
  exact neat_iff.2 ⟨{ hq with columns := hcolumns }, hj, hcs, hu⟩

theorem bind (h : q.Neat) (kind : ClauseKind) (values : List Value) : (q.bind kind values).Neat :=
  h.same rfl

theorem setSource (h : q.Neat) {r : Reference} (hr : r.Neat) : (q.setSource r).Neat := by
  obtain ⟨hq, hj, hcs, hu⟩ := neat_iff.1 h
  have hsource : ∀ r' ∈ some r, r'.Neat := by
    simpa using hr
  exact neat_iff.2 ⟨{ hq with source := hsource }, hj, hcs, hu⟩

theorem addGroups (h : q.Neat) {groups : List Reference} (hg : ∀ r ∈ groups, r.Neat) :
    (q.addGroups groups).Neat := by
  obtain ⟨hq, hj, hcs, hu⟩ := neat_iff.1 h
  have hgroups : ∀ r ∈ q.groups ++ groups, r.Neat := List.forall_mem_append.2 ⟨hq.groups, hg⟩
  exact neat_iff.2 ⟨{ hq with groups := hgroups }, hj, hcs, hu⟩

theorem selectRaw (h : q.Neat) {sql : String} (hs : (Sql.raw sql values).Sound) :
    (q.selectRaw sql values).Neat := by
  have hr : (Reference.fragment (.raw sql values)).Neat := hs
  exact (h.addSelect (List.forall_mem_singleton.2 hr)).bind .columns values

theorem selectQuery (h : q.Neat) (hi : inner.Neat) (label : String) :
    (q.selectQuery inner label).Neat := by
  refine h.withEmbedded hi fun q sql hq hs ↦ ?_
  have hr := neat_aliased hs (Grammar.quiet_wrapSegment hq.dialect label)
  exact (hq.addSelect (List.forall_mem_singleton.2 hr)).bind .columns _

theorem sourceRaw (h : q.Neat) {sql : String} (hs : (Sql.raw sql values).Sound) :
    (q.sourceRaw sql values).Neat := by
  have hr : (Reference.fragment (.raw sql values)).Neat := hs
  exact (h.setSource hr).bind .source values

theorem sourceQuery (h : q.Neat) (hi : inner.Neat) (label : String) :
    (q.sourceQuery inner label).Neat := by
  refine h.withEmbedded hi fun q sql hq hs ↦ ?_
  exact (hq.setSource (neat_aliased hs (Grammar.quiet_wrapTable hq.dialect label))).same rfl

theorem groupByRaw (h : q.Neat) {sql : String} (hs : (Sql.raw sql values).Sound) :
    (q.groupByRaw sql values).Neat := by
  have hr : (Reference.fragment (.raw sql values)).Neat := hs
  exact (h.addGroups (List.forall_mem_singleton.2 hr)).bind .groups values

theorem addHaving (h : q.Neat) {t : HavingTest} (ht : t.Neat) :
    (q.addHaving connective t values).Neat := by
  obtain ⟨hq, hj, hcs, hu⟩ := neat_iff.1 h
  have hhavings : ∀ c ∈ q.havings ++ [⟨connective, t⟩], c.test.Neat :=
    List.forall_mem_append.2 ⟨hq.havings, by simpa using ht⟩
  exact neat_iff.2 ⟨{ hq with havings := hhavings }, hj, hcs, hu⟩

theorem having (h : q.Neat) {operand : Operand Value} (ho : o.isUnmarked) (hv : operand.Neat) :
    (q.having connective column o operand).Neat := by
  unfold Query.having
  split
  · exact h.addHaving trivial
  · exact h.addHaving ⟨ho, hv⟩

theorem addOrder (h : q.Neat) {order : Order} (ho : order.Neat) :
    (q.addOrder order values).Neat := by
  obtain ⟨hq, hj, hcs, hu⟩ := neat_iff.1 h
  unfold Query.addOrder
  split
  · have horders : ∀ o ∈ q.orders ++ [order], o.Neat :=
      List.forall_mem_append.2 ⟨hq.orders, by simpa using ho⟩
    exact neat_iff.2 ⟨{ hq with orders := horders }, hj, hcs, hu⟩
  · have horders : ∀ o ∈ q.unionOrders ++ [order], o.Neat :=
      List.forall_mem_append.2 ⟨hq.unionOrders, by simpa using ho⟩
    exact neat_iff.2 ⟨{ hq with unionOrders := horders }, hj, hcs, hu⟩

theorem orderByRaw (h : q.Neat) {sql : String} (hs : (Sql.raw sql values).Sound) :
    (q.orderByRaw sql values).Neat := by
  have ho : (Order.raw (.raw sql values)).Neat := hs
  exact h.addOrder ho

theorem orderByQuery (h : q.Neat) (hi : inner.Neat) (direction : Direction) :
    (q.orderByQuery inner direction).Neat := by
  refine h.withEmbedded hi fun q sql hq hs ↦ hq.addOrder ?_
  have hd : Quiet none direction.word.toList := by
    cases direction <;> exact .of_plain (by decide)
  exact hs.enclosed.joined (by decide) (.of_text hd)

theorem reorder (h : q.Neat) : q.reorder.Neat := by
  obtain ⟨hq, hj, hcs, hu⟩ := neat_iff.1 h
  have horders : ∀ o ∈ ([] : List Order), o.Neat := by simp
  exact neat_iff.2 ⟨{ hq with orders := horders, unionOrders := horders }, hj, hcs, hu⟩

theorem orderBy (h : q.Neat) {r : Reference} (hr : r.Neat) (direction : Direction) :
    (q.orderBy r direction).Neat := by
  have ho : (Order.column r direction).Neat := hr
  exact h.addOrder ho

theorem setLimit (h : q.Neat) (n : Nat) : (q.setLimit n).Neat := by
  unfold Query.setLimit
  split <;> exact h.same rfl

theorem setOffset (h : q.Neat) (n : Nat) : (q.setOffset n).Neat := by
  unfold Query.setOffset
  split <;> exact h.same rfl

theorem pageAfter (h : q.Neat) (size : Nat) (last : Option Value) (column : String) :
    (q.pageAfter size last column).Neat := by
  have hf : Neat { q with orders := q.orders.filter fun o ↦ !o.isOn column } := by
    obtain ⟨hq, hj, hcs, hu⟩ := neat_iff.1 h
    have horders : ∀ o ∈ q.orders.filter fun o ↦ !o.isOn column, o.Neat :=
      fun o ho ↦ hq.orders o (List.mem_filter.1 ho).1
    exact neat_iff.2 ⟨{ hq with orders := horders }, hj, hcs, hu⟩
  have hr : (Reference.name column).Neat := trivial
  unfold Query.pageAfter
  cases last with
  | none => exact (hf.orderBy hr .ascending).setLimit size
  | some v =>
    have ho : Operator.greater.mayCompare column (.bound v) := by
      unfold Operator.mayCompare
      split <;> decide
    have hv := Operand.neat_bound v
    exact ((hf.addComparison hv ho).orderBy hr .ascending).setLimit size

theorem unite (h : q.Neat) (hi : inner.Neat) (all : Bool) : (q.unite inner all).Neat := by
  obtain ⟨hq, hj, hcs, hu⟩ := neat_iff.1 ((h.absorb inner).bind .unions inner.allBindings)
  exact neat_iff.2 ⟨{ hq with }, hj, hcs, membersNeat_append hu hi⟩

theorem setLock (h : q.Neat) {lock : Lock} (hl : lock.Neat) : (q.setLock lock).Neat := by
  obtain ⟨hq, hj, hcs, hu⟩ := neat_iff.1 h
  have hlock : ∀ l ∈ some lock, l.Neat := by
    simpa using hl
  exact neat_iff.2 ⟨{ hq with lock := hlock }, hj, hcs, hu⟩

theorem addJoin (h : q.Neat) (hi : inner.Neat) (kind : JoinKind) {table : Reference}
    (ht : table.Neat) : (q.addJoin kind table inner).Neat := by
  obtain ⟨hq, hj, hcs, hu⟩ := neat_iff.1 ((h.absorb inner).bind .joins inner.allBindings)
  exact neat_iff.2 ⟨{ hq with }, joinsNeat_append hj ht hi, hcs, hu⟩

theorem joinOn (h : q.Neat) (kind : JoinKind) {table : Reference} (ht : table.Neat)
    (first : String) {operator : OperatorName} (ho : operator.all Operator.isUnmarked)
    (second : String) : (q.joinOn kind table first operator second).Neat :=
  h.addJoin (h.joinClause.withOperator ho fun _ ho ↦ h.joinClause.addColumns ho) kind ht

theorem joinQuery (h : q.Neat) (hi : inner.Neat) (kind : JoinKind) (label first : String)
    {operator : OperatorName} (ho : operator.all Operator.isUnmarked) (second : String) :
    (q.joinQuery kind inner label first operator second).Neat := by
  refine h.withEmbedded hi fun q sql hq hs ↦ ?_
  have ht := neat_aliased hs (Grammar.quiet_wrapTable hq.dialect label)
  exact (hq.bind .joins inner.allBindings).joinOn kind ht first ho second

end Neat

end Query

end FluentSql
