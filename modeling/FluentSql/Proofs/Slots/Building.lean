import FluentSql.Proofs.Slots.Aligned

namespace FluentSql.Query

open Grammar

theorem bind_nil (q : Query) (kind : ClauseKind) : q.bind kind [] = q := by
  obtain ⟨c, joins, conditions, unions⟩ := q
  have hb : c.bindings.set kind (c.bindings.get kind) = c.bindings := by cases kind <;> rfl
  simp only [bind, Bindings.extend, List.append_nil, hb]

theorem addTest_nil (q : Query) (connective : Connective) (test : Test Query) :
    q.addTest connective test [] = q.addCondition connective test := by
  rw [addTest, bind_nil]

theorem absorb_bind (q other : Query) (kind : ClauseKind) (values : List Value) :
    (q.bind kind values).absorb other = (q.absorb other).bind kind values := by
  unfold absorb
  split
  · simp only [Query.fail]
    cases hm : q.mistake <;> simp [bind, hm]
  · rfl

theorem select_addCondition (g : Grammar) (q : Query) (connective : Connective)
    (test : Test Query) : g.select (q.addCondition connective test) = (do
      q.checked
      let joins ← g.joinList q.joins
      let conditions ← g.conditionList q.conditions
      let s ← g.test test
      let unions ← g.memberList q.unions
      q.assemble g ⟨joins, conditions ++ [(connective, s)], unions⟩) := by
  obtain ⟨c, joins, conditions, unions⟩ := q
  simp only [addCondition, Grammar.select, conditionList_eq_mapM, List.mapM_append, conditionOf,
    List.mapM_cons, List.mapM_nil, bind_assoc, pure_bind]

@[simp] theorem values_aliased (sql : Sql) (label : String) :
    (aliased sql label).values = sql.slots := by
  simp [aliased, Reference.values]

namespace Aligned

variable {g : Grammar} {role : Role} {q inner : Query}

theorem fail (h : q.Aligned g role) (m : Mistake) : (q.fail m).Aligned g role := by
  unfold Query.fail
  split
  · exact h
  · exact ⟨h.grammar, h.isJoin, h.aggregate, h.shows, h.unionOrders, h.others⟩

theorem absorb (h : q.Aligned g role) (other : Query) : (q.absorb other).Aligned g role := by
  unfold Query.absorb
  split
  · exact h.fail _
  · exact h

theorem withOperator (h : q.Aligned g role) (name : OperatorName) {add : Operator → Query}
    (ha : ∀ o, (add o).Aligned g role) : (q.withOperator name add).Aligned g role := by
  simp only [Query.withOperator, Query.operator?]
  cases name with
  | custom symbol => exact ha _
  | named name =>
    dsimp only
    cases Operator.parse? name with
    | some o => exact ha o
    | none => exact h.fail _

theorem withEmbedded (h : q.Aligned g role) (hi : inner.Aligned g .select)
    {add : Query → Sql → Query}
    (ha : ∀ q sql, q.Aligned g role → sql.slots = inner.allBindings → (add q sql).Aligned g role) :
    (q.withEmbedded inner add).Aligned g role := by
  simp only [Query.withEmbedded, embed, h.grammar]
  cases hs : g.select inner with
  | ok sql => exact ha _ _ (h.absorb inner) (hi.slots_select hs)
  | error e =>
    cases e with
    | generation reason => exact (h.absorb inner).fail _
    | _ => exact h.absorb inner

section conditions

variable (connective : Connective) (column : String) (operator : Operator) (negated : Bool)

theorem addTest (h : q.Aligned g role) {test : Test Query} {values : List Value}
    (ht : ∀ s, g.test test = .ok s → s.slots = values) :
    (q.addTest connective test values).Aligned g role := by
  refine h.withPart .conditions (q.conditions ++ [⟨connective, test⟩])
    (q.bindings.conditions ++ values) (fun _ ts hts ↦ ?_) h.unionOrders
    (fun _ _ hc ↦ absurd rfl hc)
  rw [conditionList_eq_mapM] at hts
  obtain ⟨before, t, hbefore, ht', rfl⟩ := mapM_concat_eq_ok hts
  simp only [conditionOf, bind_eq_ok, pure_eq_ok] at ht'
  obtain ⟨s, hs, rfl⟩ := ht'
  have hshown := h.shows .conditions (fun _ ↦ by decide) before
    ((conditionList_eq_mapM _).trans hbefore)
  rw [List.flatMap_append, hshown, List.flatMap_cons, List.flatMap_nil, List.append_nil, ht s hs]
  rfl

theorem addCondition (h : q.Aligned g role) {test : Test Query}
    (ht : ∀ s, g.test test = .ok s → s.slots = []) :
    (q.addCondition connective test).Aligned g role := by
  rw [← addTest_nil]
  exact h.addTest connective ht

theorem addNull (h : q.Aligned g role) : (q.addNull connective column negated).Aligned g role :=
  h.addCondition connective fun _ hs ↦ slots_nullTest hs

theorem addComparison (h : q.Aligned g role) (operand : Operand Value) :
    (q.addComparison connective column operator operand).Aligned g role := by
  have hbasic : (q.addTest connective (.basic column operator operand) operand.values).Aligned
      g role := h.addTest connective fun _ hs ↦ slots_basicTest hs
  unfold Query.addComparison
  split
  · split
    · exact h.addNull connective column false
    · split
      · exact h.addNull connective column true
      · exact h.fail _
  · split
    · split
      · exact h.addCondition connective fun _ hs ↦ slots_jsonBooleanTest hs
      · exact hbasic
    · exact hbasic

theorem addDatePart (h : q.Aligned g role) (part : DatePart) (operand : Operand Value) :
    (q.addDatePart part connective column operator operand).Aligned g role :=
  h.addTest connective fun _ hs ↦ slots_datePartTest hs

theorem addJsonLength (h : q.Aligned g role) (operand : Operand Value) :
    (q.addJsonLength connective column operator operand).Aligned g role :=
  h.addTest connective fun _ hs ↦ slots_jsonLengthTest hs

theorem addColumns (h : q.Aligned g role) (second : String) :
    (q.addColumns connective column operator second).Aligned g role :=
  h.addCondition connective fun _ hs ↦ slots_columnTest hs

theorem addQueryComparison (h : q.Aligned g role) (hi : inner.Aligned g .select) :
    (q.addQueryComparison connective column operator inner).Aligned g role := by
  refine (h.absorb inner).addTest connective fun s hs ↦ ?_
  simp only [Grammar.test, bind_eq_ok, pure_eq_ok] at hs
  obtain ⟨_, -, sql, hsql, rfl⟩ := hs
  simp [hi.slots_select hsql]

theorem addRow (h : q.Aligned g role) (columns : List String) (operands : List (Operand Value)) :
    (q.addRow connective columns operator operands).Aligned g role := by
  unfold Query.addRow
  split
  · exact h.fail _
  · exact h.addTest connective fun _ hs ↦ slots_rowValuesTest hs

theorem addNested (h : q.Aligned g role) {other : Role} (hi : inner.Aligned g other) :
    (q.addNested connective inner).Aligned g role := by
  simp only [Query.addNested]
  split
  · exact h.absorb inner
  · refine (h.absorb inner).addTest connective fun s hs ↦ ?_
    obtain ⟨c, joins, conditions, unions⟩ := inner
    simp only [Grammar.test, bind_eq_ok, pure_eq_ok] at hs
    obtain ⟨ts, hts, rfl⟩ := hs
    rw [Sql.slots_enclosed, slots_connect]
    exact hi.shows .conditions (fun _ ↦ by decide) ts hts

theorem addExistence (h : q.Aligned g role) (hi : inner.Aligned g .select) :
    (q.addExistence connective negated inner).Aligned g role := by
  refine (h.absorb inner).addTest connective fun s hs ↦ ?_
  simp only [Grammar.test, bind_eq_ok, pure_eq_ok] at hs
  obtain ⟨sql, hsql, rfl⟩ := hs
  simp [hi.slots_select hsql]

theorem addIn (h : q.Aligned g role) (operands : List (Operand Value)) :
    (q.addIn connective negated column operands).Aligned g role :=
  h.addTest connective fun _ hs ↦ slots_inTest hs

theorem addInQuery (h : q.Aligned g role) (hi : inner.Aligned g .select) :
    (q.addInQuery connective negated column inner).Aligned g role := by
  refine (h.absorb inner).addTest connective fun s hs ↦ ?_
  simp only [Grammar.test, bind_eq_ok, pure_eq_ok] at hs
  obtain ⟨_, -, sql, hsql, rfl⟩ := hs
  simp [hi.slots_select hsql]

theorem addInIntegers (h : q.Aligned g role) (values : List Value) :
    (q.addInIntegers connective negated column values).Aligned g role :=
  h.addCondition connective fun _ hs ↦ slots_inIntegersTest hs

theorem addBetween (h : q.Aligned g role) (low high : Operand Value) :
    (q.addBetween connective negated column low high).Aligned g role :=
  h.addTest connective fun _ hs ↦ slots_betweenTest hs

theorem addBetweenColumns (h : q.Aligned g role) (low high : String) :
    (q.addBetweenColumns connective negated column low high).Aligned g role :=
  h.addCondition connective fun _ hs ↦ slots_betweenColumnsTest hs

theorem addRaw (h : q.Aligned g role) (sql : String) (values : List Value) :
    (q.addRaw connective sql values).Aligned g role := by
  refine h.addTest connective fun s hs ↦ ?_
  cases hs
  exact Sql.slots_raw sql values

theorem addJsonContains (h : q.Aligned g role) (value : Value) :
    (q.addJsonContains connective negated column value).Aligned g role := by
  refine h.addTest connective fun s hs ↦ ?_
  simp only [Grammar.test, bind_eq_ok, pure_eq_ok] at hs
  obtain ⟨sql, hsql, rfl⟩ := hs
  simp [slots_jsonContainsTest hsql]

theorem addRecord (h : q.Aligned g role) (record : Record Value) :
    (q.addRecord connective record).Aligned g role := by
  refine h.addNested connective (?_ : Aligned g .select _)
  exact List.foldlRecOn record _ h.fresh fun _ ht entry _ ↦
    ht.addComparison .and entry.1 .equal entry.2

end conditions

section clauses

theorem select (h : q.Aligned g role) (columns : List Reference)
    (hv : columns.flatMap Reference.values = []) : (q.select columns).Aligned g role :=
  h.withPart .columns (some columns) [] (fun _ ↦ hv) h.unionOrders (fun _ _ _ ↦ rfl)

theorem addColumnsOf (h : q.Aligned g role) (hr : role ≠ .join) (columns : List Reference) :
    ((q.addSelect columns).bind .columns (columns.flatMap Reference.values)).Aligned g role := by
  refine h.withPart .columns (some (q.columns.getD [] ++ columns))
    (q.bindings.columns ++ columns.flatMap Reference.values) (fun _ ↦ ?_) h.unionOrders
    (fun hj ↦ absurd hj hr)
  have hshown : (q.columns.getD []).flatMap Reference.values = q.bindings.columns :=
    h.shows .columns (fun _ ↦ by decide)
  rw [← hshown]
  exact List.flatMap_append

theorem addSelect (h : q.Aligned g role) (hr : role ≠ .join) (columns : List Reference)
    (hv : columns.flatMap Reference.values = []) : (q.addSelect columns).Aligned g role := by
  have hc := h.addColumnsOf hr columns
  rwa [hv, bind_nil] at hc

theorem selectRaw (h : q.Aligned g role) (hr : role ≠ .join) (sql : String)
    (values : List Value) : (q.selectRaw sql values).Aligned g role := by
  have hc := h.addColumnsOf hr [.fragment (.raw sql values)]
  simp only [List.flatMap_cons, List.flatMap_nil, List.append_nil, Reference.values,
    Sql.slots_raw] at hc
  exact hc

theorem selectQuery (h : q.Aligned g role) (hr : role ≠ .join) (hi : inner.Aligned g .select)
    (label : String) : (q.selectQuery inner label).Aligned g role := by
  refine h.withEmbedded hi fun q sql hq hsql ↦ ?_
  have hc := hq.addColumnsOf hr [aliased sql (q.grammar.wrapSegment label)]
  simpa only [List.flatMap_cons, List.flatMap_nil, List.append_nil, values_aliased, hsql] using hc

/-- A source without values may only replace one that has none. -/
theorem setSource (h : q.Aligned g role) (hb : q.bindings.source = []) {source : Reference}
    (hv : source.values = []) : (q.setSource source).Aligned g role :=
  h.withPart .source (some source) q.bindings.source (fun _ ↦ hv.trans hb.symm) h.unionOrders
    (fun _ _ _ ↦ hb)

theorem sourceRaw (h : q.Aligned g role) (hr : role ≠ .join) (hb : q.bindings.source = [])
    (sql : String) (values : List Value) : (q.sourceRaw sql values).Aligned g role := by
  refine h.withPart .source (some (.fragment (.raw sql values))) (q.bindings.source ++ values)
    (fun _ ↦ ?_) h.unionOrders (fun hj ↦ absurd hj hr)
  rw [hb, List.nil_append]
  exact Sql.slots_raw sql values

theorem sourceQuery (h : q.Aligned g role) (hr : role ≠ .join) (hi : inner.Aligned g .select)
    (label : String) : (q.sourceQuery inner label).Aligned g role := by
  refine h.withEmbedded hi fun q sql hq hsql ↦ ?_
  refine hq.withPart .source (some (aliased sql (q.grammar.wrapTable label))) inner.allBindings
    (fun _ ↦ ?_) hq.unionOrders (fun hj ↦ absurd hj hr)
  exact (values_aliased _ _).trans hsql

theorem addGroupsOf (h : q.Aligned g role) (hr : role ≠ .join) (groups : List Reference) :
    ((q.addGroups groups).bind .groups (groups.flatMap Reference.values)).Aligned g role := by
  refine h.withPart .groups (q.groups ++ groups)
    (q.bindings.groups ++ groups.flatMap Reference.values) (fun _ ↦ ?_) h.unionOrders
    (fun hj ↦ absurd hj hr)
  have hshown : q.groups.flatMap Reference.values = q.bindings.groups :=
    h.shows .groups (fun _ ↦ by decide)
  rw [← hshown]
  exact List.flatMap_append

theorem addGroups (h : q.Aligned g role) (hr : role ≠ .join) (groups : List Reference)
    (hv : groups.flatMap Reference.values = []) : (q.addGroups groups).Aligned g role := by
  have hc := h.addGroupsOf hr groups
  rwa [hv, bind_nil] at hc

theorem groupByRaw (h : q.Aligned g role) (hr : role ≠ .join) (sql : String)
    (values : List Value) : (q.groupByRaw sql values).Aligned g role := by
  have hc := h.addGroupsOf hr [.fragment (.raw sql values)]
  simp only [List.flatMap_cons, List.flatMap_nil, List.append_nil, Reference.values,
    Sql.slots_raw] at hc
  exact hc

theorem addHaving (h : q.Aligned g role) (hr : role ≠ .join) (connective : Connective)
    {test : HavingTest} {values : List Value} (hv : test.values = values) :
    (q.addHaving connective test values).Aligned g role := by
  refine h.withPart .havings (q.havings ++ [⟨connective, test⟩]) (q.bindings.havings ++ values)
    (fun _ ↦ ?_) h.unionOrders (fun hj ↦ absurd hj hr)
  have hshown : (q.havings.flatMap fun c ↦ c.test.values) = q.bindings.havings :=
    h.shows .havings (fun _ ↦ by decide)
  rw [← hshown, ← hv]
  exact List.flatMap_append.trans (by simp)

theorem having (h : q.Aligned g role) (hr : role ≠ .join) (connective : Connective)
    (column : String) (operator : Operator) (operand : Operand Value) :
    (q.having connective column operator operand).Aligned g role := by
  unfold Query.having
  split
  · exact h.addHaving hr connective rfl
  · exact h.addHaving hr connective rfl

theorem addOrder (h : q.Aligned g role) (hr : role ≠ .join) {order : Order} {values : List Value}
    (hv : order.values = values) : (q.addOrder order values).Aligned g role := by
  unfold Query.addOrder
  split
  · refine h.withPart .orders (q.orders ++ [order]) (q.bindings.orders ++ values)
      (fun _ ↦ ?_) h.unionOrders (fun hj ↦ absurd hj hr)
    have hshown : q.orders.flatMap Order.values = q.bindings.orders :=
      h.shows .orders (fun _ ↦ by decide)
    rw [← hshown, ← hv]
    exact List.flatMap_append.trans (by simp)
  · rename_i hu
    refine h.withPart .unionOrders (q.unionOrders ++ [order]) (q.bindings.unionOrders ++ values)
      (fun _ ↦ ?_) (fun he ↦ absurd (List.isEmpty_iff.2 he) hu) (fun hj ↦ absurd hj hr)
    have hshown : q.unionOrders.flatMap Order.values = q.bindings.unionOrders :=
      h.shows .unionOrders (fun _ ↦ by decide)
    rw [← hshown, ← hv]
    exact List.flatMap_append.trans (by simp)

theorem orderByRaw (h : q.Aligned g role) (hr : role ≠ .join) (sql : String)
    (values : List Value) : (q.orderByRaw sql values).Aligned g role :=
  h.addOrder hr (Sql.slots_raw sql values)

theorem orderByQuery (h : q.Aligned g role) (hr : role ≠ .join) (hi : inner.Aligned g .select)
    (direction : Direction) : (q.orderByQuery inner direction).Aligned g role := by
  refine h.withEmbedded hi fun q sql hq hsql ↦ hq.addOrder hr ?_
  simp [Order.values, hsql]

theorem reorder (h : q.Aligned g role) : q.reorder.Aligned g role := by
  have ho := h.withPart .orders [] [] (fun _ ↦ rfl) h.unionOrders (fun _ _ _ ↦ rfl)
  exact ho.withPart .unionOrders [] [] (fun _ ↦ rfl) (fun _ ↦ rfl) (fun _ _ _ ↦ rfl)

theorem setLimit (h : q.Aligned g role) (n : Nat) : (q.setLimit n).Aligned g role := by
  unfold Query.setLimit
  split
  all_goals exact ⟨h.grammar, h.isJoin, h.aggregate, h.shows, h.unionOrders, h.others⟩

theorem setOffset (h : q.Aligned g role) (n : Nat) : (q.setOffset n).Aligned g role := by
  unfold Query.setOffset
  split
  all_goals exact ⟨h.grammar, h.isJoin, h.aggregate, h.shows, h.unionOrders, h.others⟩

theorem filter_orders (h : q.Aligned g role) (column : String) :
    Aligned g role { q with orders := q.orders.filter fun o ↦ !o.isOn column } := by
  refine h.withPart .orders (q.orders.filter fun o ↦ !o.isOn column) q.bindings.orders
    (fun _ ↦ ?_) h.unionOrders (fun hj ↦ h.others hj .orders)
  refine Eq.trans ?_ (h.shows .orders (fun _ ↦ by decide))
  change (q.orders.filter fun o ↦ !o.isOn column).flatMap Order.values =
    q.orders.flatMap Order.values
  induction q.orders with
  | nil => rfl
  | cons o orders ih =>
    by_cases ho : o.isOn column
    · have hv : o.values = [] := by
        unfold Order.isOn at ho
        split at ho
        · rfl
        · cases ho
      simp [ho, hv, ih]
    · simp [ho, ih]

theorem pageAfter (h : q.Aligned g role) (hr : role ≠ .join) (size : Nat) (last : Option Value)
    (column : String) : (q.pageAfter size last column).Aligned g role := by
  have hf := h.filter_orders column
  cases last with
  | none => exact (hf.addOrder hr rfl).setLimit size
  | some v => exact ((hf.addComparison .and column .greater (.bound v)).addOrder hr rfl).setLimit size

theorem unite (h : q.Aligned g role) (hr : role ≠ .join) (hi : inner.Aligned g .select)
    (all : Bool) : (q.unite inner all).Aligned g role := by
  have ha := h.absorb inner
  refine ha.withPart .unions ((q.absorb inner).unions ++ [⟨inner, all⟩])
    ((q.absorb inner).bindings.unions ++ inner.allBindings) (fun _ us hus ↦ ?_)
    (fun he ↦ absurd he (by simp [Query.withPart])) (fun hj ↦ absurd hj hr)
  rw [memberList_eq_mapM] at hus
  obtain ⟨before, s, hbefore, hs, rfl⟩ := mapM_concat_eq_ok hus
  simp only [memberOf, bind_eq_ok, pure_eq_ok] at hs
  obtain ⟨sql, hsql, rfl⟩ := hs
  have hshown := ha.shows .unions (fun _ ↦ by decide) before
    ((memberList_eq_mapM _).trans hbefore)
  rw [List.flatMap_append, hshown]
  simp [hi.slots_select hsql]
  rfl

theorem setLock (h : q.Aligned g role) (lock : Lock) : (q.setLock lock).Aligned g role :=
  ⟨h.grammar, h.isJoin, h.aggregate, h.shows, h.unionOrders, h.others⟩

theorem addJoinOf (h : q.Aligned g role) (hi : inner.Aligned g .join) (kind : JoinKind)
    (table : Reference) :
    ((q.bind .joins table.values).addJoin kind table inner).Aligned g role := by
  have ha := h.absorb inner
  have hq : (q.bind .joins table.values).addJoin kind table inner =
      (q.absorb inner).withPart .joins ((q.absorb inner).joins ++ [⟨kind, table, inner⟩])
        ((q.absorb inner).bindings.joins ++ table.values ++ inner.allBindings) := by
    simp only [addJoin, absorb_bind]
    rfl
  rw [hq]
  refine ha.withPart .joins _ _ (fun _ ss hss ↦ ?_) ha.unionOrders (fun _ hj ↦ absurd rfl hj)
  rw [joinList_eq_mapM] at hss
  obtain ⟨before, s, hbefore, hs, rfl⟩ := mapM_concat_eq_ok hss
  have hshown := ha.shows .joins (fun _ ↦ by decide) before
    ((joinList_eq_mapM _).trans hbefore)
  rw [List.flatMap_append, hshown, List.flatMap_cons, List.flatMap_nil, List.append_nil,
    hi.slots_joinOf hs, List.append_assoc]
  rfl

theorem addJoin (h : q.Aligned g role) (hi : inner.Aligned g .join) (kind : JoinKind)
    {table : Reference} (hv : table.values = []) :
    (q.addJoin kind table inner).Aligned g role := by
  have hj := h.addJoinOf hi kind table
  rwa [hv, bind_nil] at hj

theorem joinOn (h : q.Aligned g role) (kind : JoinKind) {table : Reference}
    (hv : table.values = []) (first : String) (operator : OperatorName) (second : String) :
    (q.joinOn kind table first operator second).Aligned g role :=
  h.addJoin (h.joinClause.withOperator operator fun o ↦
    h.joinClause.addColumns .and first o second) kind hv

theorem joinQuery (h : q.Aligned g role) (hi : inner.Aligned g .select) (kind : JoinKind)
    (label first : String) (operator : OperatorName) (second : String) :
    (q.joinQuery kind inner label first operator second).Aligned g role := by
  refine h.withEmbedded hi fun q sql hq hsql ↦ ?_
  have hclause : (q.joinClause.withOperator operator fun o ↦
      q.joinClause.addColumns .and first o second).Aligned g .join :=
    hq.joinClause.withOperator operator fun o ↦ hq.joinClause.addColumns .and first o second
  have hj := hq.addJoinOf hclause kind (aliased sql (q.grammar.wrapTable label))
  rw [values_aliased, hsql] at hj
  exact hj

end clauses

end Aligned

end FluentSql.Query
