import FluentSql.Proofs.Derived.Select
import FluentSql.Proofs.Slots.Building

namespace FluentSql

open Grammar Lexing

variable {g : Grammar}

def Test.isPlain : Test Query → Bool
  | .isInQuery .. | .nested _ | .query .. | .existence .. | .raw _ => false
  | _ => true

theorem Test.fits_of_isPlain {t : Test Query} (h : t.isPlain) {s : Sql} (hs : g.test t = .ok s) :
    s.Fits g ["union"] t.values := by
  cases t with
  | basic column operator value =>
    exact .of_eq (slots_basicTest hs) fun hd ↦ numbered_basicTest hd hs
  | jsonBoolean column operator value =>
    exact .of_eq (slots_jsonBooleanTest hs) fun hd ↦ numbered_jsonBooleanTest hd hs
  | columns first operator second =>
    exact .of_eq (slots_columnTest hs) fun hd ↦ numbered_columnTest hd hs
  | isIn column values negated =>
    exact .of_eq (slots_inTest hs) fun hd ↦ numbered_inTest hd hs
  | isInIntegers column values negated =>
    exact .of_eq (slots_inIntegersTest hs) fun hd ↦ numbered_inIntegersTest hd hs
  | null column negated =>
    exact .of_eq (slots_nullTest hs) fun hd ↦ numbered_nullTest hd hs
  | between column low high negated =>
    exact .of_eq (slots_betweenTest hs) fun hd ↦ numbered_betweenTest hd hs
  | betweenColumns column low high negated =>
    exact .of_eq (slots_betweenColumnsTest hs) fun hd ↦ numbered_betweenColumnsTest hd hs
  | datePart part column operator value =>
    exact .of_eq (slots_datePartTest hs) fun hd ↦ numbered_datePartTest hd hs
  | rowValues columns operator values =>
    exact .of_eq (slots_rowValuesTest hs) fun hd ↦ numbered_rowValuesTest hd hs
  | jsonContains column value negated =>
    simp only [Grammar.test, bind_eq_ok, pure_eq_ok] at hs
    obtain ⟨sql, hsql, rfl⟩ := hs
    refine .of_eq ?_ fun hd ↦ numbered_negation negated (numbered_jsonContainsTest hd hsql)
    simp [slots_jsonContainsTest hsql, Test.values]
  | jsonLength column operator value =>
    exact .of_eq (slots_jsonLengthTest hs) fun hd ↦ numbered_jsonLengthTest hd hs
  | _ => cases h

theorem fits_name {name : String} {s : Sql} (hs : g.reference (.name name) = .ok s) :
    s.Fits g borders (Reference.name name).values := by
  refine .of_eq (slots_reference hs) fun hd ↦ ?_
  obtain ⟨t, ht, hs⟩ := bind_eq_ok.1 hs
  cases pure_eq_ok.1 hs
  exact .text (numbered_wrap hd ht)

theorem fits_identifier {i : Identifier} {s : Sql} (hs : g.reference i.reference = .ok s) :
    s.Fits g borders i.reference.values := by
  cases i with
  | name name => exact fits_name hs
  | raw sql =>
    cases hs
    exact .of_eq rfl fun _ ↦ .raw sql []

theorem fits_table (i : Identifier) :
    (g.tableReference i.reference).Fits g borders i.reference.values := by
  cases i with
  | name name => exact .of_eq rfl fun hd ↦ .text (numbered_wrapTable hd name)
  | raw sql => exact .of_eq rfl fun _ ↦ .raw sql []

theorem fits_fragment {sql : Sql} (hn : g.dialect = .sqlServer → sql.NumberedIn borders) {s : Sql}
    (hs : g.reference (.fragment sql) = .ok s) :
    s.Fits g borders (Reference.fragment sql).values := by
  cases hs
  exact .of_eq rfl hn

theorem fits_havingNull (column : String) (negated : Bool) (s : Sql)
    (hs : g.havingTest (.null column negated) = .ok s) :
    s.Fits g ["union"] (HavingTest.null column negated).values := by
  refine .of_eq (slots_havingTest hs) fun hd ↦ ?_
  simp only [havingTest, bind_eq_ok, pure_eq_ok] at hs
  obtain ⟨c, hc, rfl⟩ := hs
  exact numbered_null hd hc negated

theorem fits_havingBasic (column : String) (operator : Operator) (value : Operand Value) (s : Sql)
    (hs : g.havingTest (.basic column operator value) = .ok s) :
    s.Fits g ["union"] (HavingTest.basic column operator value).values := by
  refine .of_eq (slots_havingTest hs) fun hd ↦ ?_
  simp only [havingTest, bind_eq_ok, pure_eq_ok] at hs
  obtain ⟨c, hc, rfl⟩ := hs
  exact numbered_compared (numbered_left hd hc) operator
    ((numbered_operand value).mono (by decide))

theorem fits_havingBetween (column : String) (low high : Operand Value) (s : Sql)
    (hs : g.havingTest (.between column low high) = .ok s) :
    s.Fits g ["union"] (HavingTest.between column low high).values :=
  .of_eq (slots_havingTest hs) fun hd ↦ numbered_betweenTest hd hs

/-- An embedded query stands in parentheses, its label behind it. -/
theorem numbered_aliased {sql : Sql} {values : List Value} {label : String}
    (hs : sql.Fits g [] values) (hl : g.dialect = .sqlServer → ReadsNumbered borders label.toList)
    (hd : g.dialect = .sqlServer) : (sql.enclosed ++ " as " ++ label : Sql).NumberedIn borders :=
  (Sql.NumberedIn.enclosed (hs.numbered hd)).joined (by decide) (.text (hl hd))

theorem isClosing_direction (direction : Direction) :
    isClosing borders (" " ++ direction.word).toList := by
  cases direction <;> decide

theorem numbered_directed {s : Sql} (hs : s.NumberedIn borders) (direction : Direction) :
    (s ++ " " ++ direction.word : Sql).NumberedIn borders := by
  have hread := ReadsNumbered.suffixed hs (isClosing_direction direction)
  rw [Sql.NumberedIn]
  simpa using hread

theorem fits_column {column : Reference} (direction : Direction)
    (hc : ∀ s, g.reference column = .ok s → s.Fits g borders column.values) {s : Sql}
    (hs : g.orderText (.column column direction) = .ok s) :
    s.Fits g borders (Order.column column direction).values := by
  obtain ⟨t, ht, hs⟩ := bind_eq_ok.1 hs
  cases pure_eq_ok.1 hs
  have hfits := hc t ht
  refine ⟨?_, fun hd ↦ numbered_directed (hfits.numbered hd) direction⟩
  simpa [Order.values] using hfits.slots

namespace ClauseKind.Backed

variable {kind : ClauseKind} {values : List Value}

theorem none {part : Query.Part kind} (h : kind.items part = []) (values : List Value) :
    Backed g kind part values := by
  constructor
  · rw [h]
    exact fun _ hx ↦ absurd hx List.not_mem_nil
  · rw [h]
    exact List.nil_sublist _

theorem single (part : Query.Part kind) {x : kind.Item} (h : kind.items part = [x])
    (hx : kind.Fits g x) (hv : (kind.itemValues x).Sublist values) : Backed g kind part values := by
  constructor
  · rw [h]
    exact fun y hy ↦ List.mem_singleton.1 hy ▸ hx
  · simpa [h] using hv

theorem raw (sql : String) (values : List Value) :
    ClauseKind.columns.Backed g (some [.fragment (.raw sql values)]) values ∧
      ClauseKind.groups.Backed g [.fragment (.raw sql values)] values := by
  have hv : (Reference.fragment (.raw sql values)).values.Sublist values := by
    simp [Reference.values]
  have hx {s : Sql} (hs : g.reference (.fragment (.raw sql values)) = .ok s) :=
    fits_fragment (fun _ ↦ .raw sql values) hs
  exact ⟨single _ rfl (fun _ ↦ hx) hv, single _ rfl (fun _ ↦ hx) hv⟩

theorem identifiers (columns : List Identifier) :
    ClauseKind.columns.Backed g (some (columns.map Identifier.reference)) [] ∧
      ClauseKind.groups.Backed g (columns.map Identifier.reference) [] := by
  have hv : ((columns.map Identifier.reference).flatMap Reference.values).Sublist [] := by
    simp [List.flatMap_map]
  have hx : ∀ r ∈ columns.map Identifier.reference, ∀ s, g.reference r = .ok s →
      s.Fits g borders r.values := by
    intro r hr s hs
    obtain ⟨i, -, rfl⟩ := List.mem_map.1 hr
    exact fits_identifier hs
  exact ⟨⟨hx, hv⟩, ⟨hx, hv⟩⟩

theorem bind {part : Query.Part kind} (h : Backed g kind part values) (more : List Value) :
    Backed g kind part (values ++ more) :=
  ⟨h.fits, h.bound.trans (List.sublist_append_left _ _)⟩

end ClauseKind.Backed

namespace Query.Kept

open ClauseKind

variable {q inner : Query}

theorem bind (h : q.Kept g) (kind : ClauseKind) (values : List Value) :
    (q.bind kind values).Kept g := by
  have hb := h.withPart kind (q.part kind) (q.bindings.get kind ++ values)
    ((h.backed kind).bind values)
  cases kind <;> exact hb h.unionOrders

theorem fail (h : q.Kept g) (m : Mistake) : (q.fail m).Kept g := by
  unfold Query.fail
  split
  · exact h
  · exact ⟨h.grammar, h.aggregate, h.unionOrders, h.backed⟩

theorem absorb (h : q.Kept g) (other : Query) : (q.absorb other).Kept g := by
  unfold Query.absorb
  split
  · exact h.fail _
  · exact h

theorem withOperator (h : q.Kept g) (name : OperatorName) {add : Operator → Query}
    (ha : ∀ o, (add o).Kept g) : (q.withOperator name add).Kept g := by
  simp only [Query.withOperator, Query.operator?]
  cases name with
  | custom symbol => exact ha _
  | named name =>
    dsimp only
    cases Operator.parse? name with
    | some o => exact ha o
    | none => exact h.fail _

theorem withEmbedded (h : q.Kept g) (hi : inner.Kept g) {add : Query → Sql → Query}
    (ha : ∀ q sql, q.Kept g → sql.Fits g [] inner.allBindings → (add q sql).Kept g) :
    (q.withEmbedded inner add).Kept g := by
  simp only [Query.withEmbedded, embed, h.grammar]
  cases hs : g.select inner with
  | ok sql => exact ha _ _ (h.absorb inner) (hi.fits_select hs)
  | error e =>
    cases e with
    | generation reason => exact (h.absorb inner).fail _
    | _ => exact h.absorb inner

section conditions

variable (connective : Connective) (column : String) (operator : Operator) (negated : Bool)

theorem addTest (h : q.Kept g) {t : Test Query}
    (ht : ∀ s, g.test t = .ok s → s.Fits g ["union"] t.values) :
    (q.addTest connective t t.values).Kept g := by
  have hx : ClauseKind.conditions.Fits g ⟨connective, t⟩ := ht
  exact h.withPart .conditions (q.conditions ++ [⟨connective, t⟩])
    (q.bindings.conditions ++ t.values)
    ((h.backed .conditions).append (.single [⟨connective, t⟩] rfl hx (.refl _)) rfl)
    h.unionOrders

theorem addPlain (h : q.Kept g) (t : Test Query) (ht : t.isPlain) :
    (q.addTest connective t t.values).Kept g :=
  h.addTest connective fun _ hs ↦ Test.fits_of_isPlain ht hs

theorem addValueless (h : q.Kept g) (t : Test Query) (ht : t.isPlain) (hv : t.values = []) :
    (q.addCondition connective t).Kept g := by
  have hq := h.addPlain connective t ht
  rwa [hv, addTest_nil] at hq

theorem addNull (h : q.Kept g) : (q.addNull connective column negated).Kept g :=
  h.addValueless connective _ rfl rfl

theorem addComparison (h : q.Kept g) (operand : Operand Value) :
    (q.addComparison connective column operator operand).Kept g := by
  have hbasic : (q.addTest connective (.basic column operator operand) operand.values).Kept g :=
    h.addPlain connective (.basic column operator operand) rfl
  unfold Query.addComparison
  split
  · split
    · exact h.addNull connective column false
    · split
      · exact h.addNull connective column true
      · exact h.fail _
  · split
    · split
      · exact h.addValueless connective _ rfl rfl
      · exact hbasic
    · exact hbasic

theorem addQueryComparison (h : q.Kept g) (hi : inner.Kept g) :
    (q.addQueryComparison connective column operator inner).Kept g := by
  refine (h.absorb inner).addTest connective (t := .query column operator inner) fun s hs ↦ ?_
  simp only [Grammar.test, bind_eq_ok, pure_eq_ok] at hs
  obtain ⟨c, hc, sql, hsql, rfl⟩ := hs
  have hfits := hi.fits_select hsql
  refine ⟨?_, fun hd ↦ ?_⟩
  · simpa [Test.values] using hfits.slots
  · exact numbered_compared (numbered_left hd hc) operator (.enclosed (hfits.numbered hd))

theorem addRow (h : q.Kept g) (columns : List String) (operands : List (Operand Value)) :
    (q.addRow connective columns operator operands).Kept g := by
  unfold Query.addRow
  split
  · exact h.fail _
  · exact h.addPlain connective (.rowValues columns operator operands) rfl

theorem addNested (h : q.Kept g) (hi : ∀ ts, g.conditionList inner.conditions = .ok ts →
      (ts.flatMap fun t ↦ t.2.slots).Sublist inner.bindings.conditions ∧
        (g.dialect = .sqlServer → ∀ t ∈ ts, t.2.NumberedIn ["union"])) :
    (q.addNested connective inner).Kept g := by
  simp only [Query.addNested]
  split
  · exact h.absorb inner
  · refine (h.absorb inner).addTest connective (t := .nested inner) fun s hs ↦ ?_
    obtain ⟨c, joins, conditions, unions⟩ := inner
    simp only [Grammar.test, bind_eq_ok, pure_eq_ok] at hs
    obtain ⟨ts, hts, rfl⟩ := hs
    obtain ⟨hslots, hnumbered⟩ := hi ts hts
    refine ⟨?_, fun hd ↦ .enclosed (numbered_connect (hnumbered hd)).rowsNumbered⟩
    rw [Sql.slots_enclosed, slots_connect]
    exact hslots

theorem addExistence (h : q.Kept g) (hi : inner.Kept g) :
    (q.addExistence connective negated inner).Kept g := by
  refine (h.absorb inner).addTest connective (t := .existence inner negated) fun s hs ↦ ?_
  simp only [Grammar.test, bind_eq_ok, pure_eq_ok] at hs
  obtain ⟨sql, hsql, rfl⟩ := hs
  have hfits := hi.fits_select hsql
  refine ⟨?_, fun hd ↦ ?_⟩
  · simpa [Test.values] using hfits.slots
  · have hexists : ("exists " ++ sql.enclosed : Sql).NumberedIn ["union"] :=
      .prefixed (by decide) (.enclosed (hfits.numbered hd))
    rw [Sql.append_assoc]
    exact numbered_negation negated hexists

theorem addInQuery (h : q.Kept g) (hi : inner.Kept g) :
    (q.addInQuery connective negated column inner).Kept g := by
  refine (h.absorb inner).addTest connective (t := .isInQuery column inner negated) fun s hs ↦ ?_
  simp only [Grammar.test, bind_eq_ok, pure_eq_ok] at hs
  obtain ⟨c, hc, sql, hsql, rfl⟩ := hs
  have hfits := hi.fits_select hsql
  refine ⟨?_, fun hd ↦ ?_⟩
  · simpa [Test.values] using hfits.slots
  · exact ((numbered_left hd hc).suffixed (isClosing_membership negated)).called
      (hfits.numbered hd)

theorem addRaw (h : q.Kept g) (sql : String) (values : List Value) :
    (q.addRaw connective sql values).Kept g := by
  have hq := h.addTest connective (t := .raw (.raw sql values)) fun s hs ↦ ?_
  · rwa [show (Test.raw (.raw sql values)).values = values from Sql.slots_raw sql values] at hq
  · cases hs
    exact .of_eq rfl fun _ ↦ .raw sql values

theorem addRecord (h : q.Kept g) (record : Record Value) :
    (q.addRecord connective record).Kept g := by
  refine h.addNested connective fun ts ↦ ((Kept.backed ?_ .conditions).conditionList)
  exact List.foldlRecOn record _ h.fresh fun _ ht entry _ ↦
    ht.addComparison .and entry.1 .equal entry.2

end conditions

section clauses

theorem select (h : q.Kept g) (columns : List Reference)
    (hb : ClauseKind.columns.Backed g (some columns) []) : (q.select columns).Kept g :=
  h.withPart .columns (some columns) [] hb h.unionOrders

theorem addColumnsOf (h : q.Kept g) {columns : List Reference} {values : List Value}
    (hb : ClauseKind.columns.Backed g (some columns) values) :
    ((q.addSelect columns).bind .columns values).Kept g :=
  h.withPart .columns (some (q.columns.getD [] ++ columns)) (q.bindings.columns ++ values)
    ((h.backed .columns).append hb rfl) h.unionOrders

theorem addSelect (h : q.Kept g) {columns : List Reference}
    (hb : ClauseKind.columns.Backed g (some columns) []) : (q.addSelect columns).Kept g := by
  have hc := h.addColumnsOf hb
  rwa [bind_nil] at hc

theorem selectRaw (h : q.Kept g) (sql : String) (values : List Value) :
    (q.selectRaw sql values).Kept g :=
  h.addColumnsOf (Backed.raw sql values).1

theorem selectQuery (h : q.Kept g) (hi : inner.Kept g) (label : String) :
    (q.selectQuery inner label).Kept g := by
  refine h.withEmbedded hi fun q sql hq hsql ↦ hq.addColumnsOf (.single _ rfl ?_ ?_)
  · refine fun _ ↦ fits_fragment (numbered_aliased hsql fun hd ↦ ?_)
    exact numbered_wrapSegment (hq.grammar ▸ hd) label
  · simpa [ClauseKind.itemValues] using hsql.slots

theorem setSource (h : q.Kept g) (table : Identifier) : (q.setSource table.reference).Kept g := by
  refine h.withPart .source (some table.reference) q.bindings.source (.single _ rfl ?_ ?_)
    h.unionOrders
  · rintro _ ⟨⟩
    exact fits_table table
  · simp [ClauseKind.itemValues]

theorem sourceRaw (h : q.Kept g) (sql : String) (values : List Value) :
    (q.sourceRaw sql values).Kept g := by
  refine h.withPart .source (some (.fragment (.raw sql values))) (q.bindings.source ++ values)
    (.single _ rfl ?_ ?_) h.unionOrders
  · rintro _ ⟨⟩
    exact .of_eq rfl fun _ ↦ .raw sql values
  · simp [ClauseKind.itemValues, Reference.values]

theorem setSourceAliased (h : q.Kept g) {sql : Sql} {values : List Value} {label : String}
    (hs : sql.Fits g [] values)
    (hl : g.dialect = .sqlServer → ReadsNumbered borders label.toList) :
    Kept g { q.setSource (aliased sql label) with bindings := q.bindings.set .source values } := by
  refine h.withPart .source (some (aliased sql label)) values (.single _ rfl ?_ ?_) h.unionOrders
  · rintro _ ⟨⟩
    exact .of_eq rfl (numbered_aliased hs hl)
  · simpa [ClauseKind.itemValues] using hs.slots

theorem sourceQuery (h : q.Kept g) (hi : inner.Kept g) (label : String) :
    (q.sourceQuery inner label).Kept g :=
  h.withEmbedded hi fun _ _ hq hsql ↦
    hq.setSourceAliased hsql fun hd ↦ numbered_wrapTable (hq.grammar ▸ hd) label

theorem addGroupsOf (h : q.Kept g) {groups : List Reference} {values : List Value}
    (hb : ClauseKind.groups.Backed g groups values) :
    ((q.addGroups groups).bind .groups values).Kept g :=
  h.withPart .groups (q.groups ++ groups) (q.bindings.groups ++ values)
    ((h.backed .groups).append hb rfl) h.unionOrders

theorem addGroups (h : q.Kept g) {groups : List Reference}
    (hb : ClauseKind.groups.Backed g groups []) : (q.addGroups groups).Kept g := by
  have hc := h.addGroupsOf hb
  rwa [bind_nil] at hc

theorem groupByRaw (h : q.Kept g) (sql : String) (values : List Value) :
    (q.groupByRaw sql values).Kept g :=
  h.addGroupsOf (Backed.raw sql values).2

theorem addHaving (h : q.Kept g) (connective : Connective) {test : HavingTest}
    (ht : ∀ s, g.havingTest test = .ok s → s.Fits g ["union"] test.values) :
    (q.addHaving connective test test.values).Kept g := by
  have hx : ClauseKind.havings.Fits g ⟨connective, test⟩ := ht
  exact h.withPart .havings (q.havings ++ [⟨connective, test⟩]) (q.bindings.havings ++ test.values)
    ((h.backed .havings).append (.single [⟨connective, test⟩] rfl hx (.refl _)) rfl) h.unionOrders

theorem having (h : q.Kept g) (connective : Connective) (column : String) (operator : Operator)
    (operand : Operand Value) : (q.having connective column operator operand).Kept g := by
  unfold Query.having
  split
  · exact h.addHaving connective (fits_havingNull column operator.isInequality)
  · exact h.addHaving connective (fits_havingBasic column operator operand)

theorem rawHaving (h : q.Kept g) (connective : Connective) (sql : String) (values : List Value) :
    (q.addHaving connective (.raw (.raw sql values)) values).Kept g := by
  have hraw : ∀ s, g.havingTest (.raw (.raw sql values)) = .ok s →
      s.Fits g ["union"] (HavingTest.raw (.raw sql values)).values := by
    rintro _ ⟨⟩
    exact .of_eq rfl fun _ ↦ .raw sql values
  have hq := h.addHaving connective hraw
  rwa [show (HavingTest.raw (.raw sql values)).values = values from Sql.slots_raw sql values] at hq

theorem addOrder (h : q.Kept g) {order : Order} {values : List Value}
    (ho : ∀ s, g.orderText order = .ok s → s.Fits g borders order.values)
    (hv : order.values.Sublist values) : (q.addOrder order values).Kept g := by
  unfold Query.addOrder
  split
  · have hx : ClauseKind.orders.Fits g order := ho
    exact h.withPart .orders (q.orders ++ [order]) (q.bindings.orders ++ values)
      ((h.backed .orders).append (.single [order] rfl hx hv) rfl) h.unionOrders
  · rename_i hu
    have hx : ClauseKind.unionOrders.Fits g order := ho
    exact h.withPart .unionOrders (q.unionOrders ++ [order]) (q.bindings.unionOrders ++ values)
      ((h.backed .unionOrders).append (.single [order] rfl hx hv) rfl)
      fun he ↦ absurd (List.isEmpty_iff.2 he) hu

theorem orderByRaw (h : q.Kept g) (sql : String) (values : List Value) :
    (q.orderByRaw sql values).Kept g := by
  refine h.addOrder (fun s hs ↦ ?_) ?_
  · cases hs
    exact .of_eq rfl fun _ ↦ .raw sql values
  · simp [Order.values]

theorem orderByQuery (h : q.Kept g) (hi : inner.Kept g) (direction : Direction) :
    (q.orderByQuery inner direction).Kept g := by
  refine h.withEmbedded hi fun q sql hq hsql ↦ hq.addOrder (fun s hs ↦ ?_) ?_
  · cases hs
    exact .of_eq rfl fun hd ↦ numbered_directed (.enclosed (hsql.numbered hd)) direction
  · simpa [Order.values] using hsql.slots

theorem reorder (h : q.Kept g) : q.reorder.Kept g :=
  (h.withPart .orders [] [] (.none rfl _) h.unionOrders).withPart .unionOrders [] [] (.none rfl _)
    fun _ ↦ rfl

theorem setLimit (h : q.Kept g) (n : Nat) : (q.setLimit n).Kept g := by
  unfold Query.setLimit
  split
  all_goals exact ⟨h.grammar, h.aggregate, h.unionOrders, h.backed⟩

theorem setOffset (h : q.Kept g) (n : Nat) : (q.setOffset n).Kept g := by
  unfold Query.setOffset
  split
  all_goals exact ⟨h.grammar, h.aggregate, h.unionOrders, h.backed⟩

theorem filter_orders (h : q.Kept g) (keeps : Order → Bool) :
    Kept g { q with orders := q.orders.filter keeps } :=
  h.withPart .orders (q.orders.filter keeps) q.bindings.orders
    ⟨fun x hx ↦ (h.backed .orders).fits x (List.mem_of_mem_filter hx),
      (List.filter_sublist.flatMap _).trans (h.backed .orders).bound⟩ h.unionOrders

theorem pageAfter (h : q.Kept g) (size : Nat) (last : Option Value) (column : String) :
    (q.pageAfter size last column).Kept g := by
  have hf := h.filter_orders fun o ↦ !o.isOn column
  cases last with
  | none => exact (hf.addOrder (fun _ ↦ fits_column _ fun _ ↦ fits_name) (.refl _)).setLimit size
  | some v =>
    exact ((hf.addComparison .and column .greater (.bound v)).addOrder
      (fun _ ↦ fits_column _ fun _ ↦ fits_name) (.refl _)).setLimit size

theorem unite (h : q.Kept g) (hi : inner.Kept g) (all : Bool) : (q.unite inner all).Kept g := by
  have ha := h.absorb inner
  have hx : ClauseKind.unions.Fits g (⟨inner, all⟩ : Member Query) := by
    intro s hs
    simp only [ClauseKind.itemText, memberOf, bind_eq_ok, pure_eq_ok] at hs
    obtain ⟨sql, hsql, rfl⟩ := hs
    have hfits := hi.fits_select hsql
    refine ⟨by simpa [ClauseKind.itemValues] using hfits.slots, fun hd ↦ ?_⟩
    refine .prefixed ?_ (numbered_unionMember hd (hfits.numbered hd))
    split <;> decide
  exact ha.withPart .unions ((q.absorb inner).unions ++ [⟨inner, all⟩])
    ((q.absorb inner).bindings.unions ++ inner.allBindings)
    ((ha.backed .unions).append (.single [⟨inner, all⟩] rfl hx (.refl _)) rfl)
    fun he ↦ absurd he (by simp [Query.withPart])

theorem setLock (h : q.Kept g) (lock : Lock) : (q.setLock lock).Kept g :=
  ⟨h.grammar, h.aggregate, h.unionOrders, h.backed⟩

/-- Of the clause of a join, only joins and conditions are written. -/
theorem fits_join (hi : inner.Kept g) {kind : JoinKind} {table : Reference}
    (ht : g.dialect = .sqlServer → (g.tableReference table).NumberedIn borders) :
    ClauseKind.joins.Fits g (⟨kind, table, inner⟩ : Join Query) := by
  intro s hs
  obtain ⟨c, joins, conditions, unions⟩ := inner
  simp only [ClauseKind.itemText, joinOf, bind_eq_ok, pure_eq_ok] at hs
  obtain ⟨js, hj, cs, hc, rfl⟩ := hs
  obtain ⟨hjoins, hjoinsNumbered⟩ := (hi.backed .joins).joinList hj
  obtain ⟨hconditions, hconditionsNumbered⟩ := (hi.backed .conditions).conditionList hc
  constructor
  · have horder : [ClauseKind.joins, .conditions].Sublist
        (bindingOrder ⟨c, joins, conditions, unions⟩) := by
      unfold bindingOrder
      split <;> decide
    rw [slots_joinText, List.append_assoc]
    refine (List.Sublist.refl _).append (.trans ?_ (horder.flatMap c.bindings.get))
    simpa using hjoins.append hconditions
  · exact fun hd ↦ numbered_joinText kind c (ht hd) (hjoinsNumbered hd) (hconditionsNumbered hd)

/-- The values of a joined table are bound in front of those of its clause. -/
theorem addJoinOf (h : q.Kept g) (hi : inner.Kept g) (kind : JoinKind) {table : Reference}
    {values : List Value} (hv : table.values.Sublist values)
    (ht : g.dialect = .sqlServer → (g.tableReference table).NumberedIn borders) :
    ((q.bind .joins values).addJoin kind table inner).Kept g := by
  have ha := h.absorb inner
  have hq : (q.bind .joins values).addJoin kind table inner =
      (q.absorb inner).withPart .joins ((q.absorb inner).joins ++ [⟨kind, table, inner⟩])
        ((q.absorb inner).bindings.joins ++ values ++ inner.allBindings) := by
    simp only [addJoin, absorb_bind]
    rfl
  rw [hq, List.append_assoc]
  exact ha.withPart .joins _ _ ((ha.backed .joins).append
    (.single [⟨kind, table, inner⟩] rfl (fits_join hi ht) (hv.append (.refl _))) rfl) ha.unionOrders

theorem addJoin (h : q.Kept g) (hi : inner.Kept g) (kind : JoinKind) (table : Identifier) :
    (q.addJoin kind table.reference inner).Kept g := by
  have hv : table.reference.values.Sublist [] := by simp
  have hj := h.addJoinOf hi kind hv (fits_table table).numbered
  rwa [bind_nil] at hj

theorem onClause (h : q.Kept g) (first : String) (operator : OperatorName) (second : String) :
    (q.joinClause.withOperator operator fun o ↦
      q.joinClause.addColumns .and first o second).Kept g :=
  h.joinClause.withOperator operator fun _ ↦ h.joinClause.addValueless .and _ rfl rfl

theorem joinOn (h : q.Kept g) (kind : JoinKind) (table : Identifier) (first : String)
    (operator : OperatorName) (second : String) :
    (q.joinOn kind table.reference first operator second).Kept g :=
  h.addJoin (h.onClause first operator second) kind table

theorem joinQuery (h : q.Kept g) (hi : inner.Kept g) (kind : JoinKind) (label first : String)
    (operator : OperatorName) (second : String) :
    (q.joinQuery kind inner label first operator second).Kept g := by
  refine h.withEmbedded hi fun q sql hq hsql ↦ ?_
  refine hq.addJoinOf (hq.onClause first operator second) kind ?_ fun hd ↦ ?_
  · simpa using hsql.slots
  · exact numbered_aliased hsql (fun hd ↦ numbered_wrapTable (hq.grammar ▸ hd) label) hd

end clauses

end Query.Kept

end FluentSql
