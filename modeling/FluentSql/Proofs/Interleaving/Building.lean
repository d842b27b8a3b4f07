import FluentSql.Proofs.Interleaving.Families

namespace FluentSql.Acts

open Query

variable {connective : Connective} {column : String} {o : Operator} {operand : Operand Value}
  (inner : Query)

theorem addNull (negated : Bool) : Acts [.conditions] (·.addNull connective column negated) :=
  addCondition _ _

theorem addComparison :
    Acts [.conditions] (·.addComparison connective column o operand) := by
  unfold Query.addComparison
  split
  · split
    · exact addNull _
    · split
      · exact addNull _
      · exact fail _
  · split
    · split
      · exact addCondition _ _
      · exact addTest _ _ _
    · exact addTest _ _ _

theorem addQueryComparison :
    Acts [.conditions] (·.addQueryComparison connective column o inner) :=
  (absorb inner).comp (addTest _ _ _)

theorem addRow (columns : List String) (operands : List (Operand Value)) :
    Acts [.conditions] (·.addRow connective columns o operands) := by
  unfold Query.addRow
  split
  · exact fail _
  · exact addTest _ _ _

theorem addExistence (negated : Bool) :
    Acts [.conditions] (·.addExistence connective negated inner) :=
  (absorb inner).comp (addTest _ _ _)

theorem addInQuery (negated : Bool) :
    Acts [.conditions] (·.addInQuery connective negated column inner) :=
  (absorb inner).comp (addTest _ _ _)

theorem addJsonContains (negated : Bool) (value : Value) :
    Acts [.conditions] (·.addJsonContains connective negated column value) :=
  param (·.grammar.jsonContainsBinding value)
    (fun v q ↦ q.addTest connective (.jsonContains column v negated) [v])
    (fun _ ↦ addTest _ _ _) fun _ _ h ↦ by rw [grammar_eq h]

theorem addNested : Acts [.conditions] (·.addNested connective inner) := by
  unfold Query.addNested
  dsimp only
  split
  · exact absorb inner
  · exact (absorb inner).comp (addTest _ _ _)

theorem addRecord (record : Record Value) : Acts [.conditions] (·.addRecord connective record) := by
  have h := param (fun q : Query ↦ record.foldl (fun inner entry ↦
      inner.addComparison .and entry.1 .equal entry.2) q.fresh)
    (fun inner q ↦ q.addNested connective inner) addNested
    fun _ _ h ↦ by rw [fresh_eq h]
  exact h.congr fun _ ↦ rfl

theorem addHaving (test : HavingTest) (values : List Value) :
    Acts [.havings] (·.addHaving connective test values) :=
  of_put fun _ ↦ rfl

theorem having : Acts [.havings] (·.having connective column o operand) := by
  unfold Query.having
  split
  · exact addHaving _ _
  · exact addHaving _ _

theorem select (columns : List Reference) : Acts [.columns] (·.select columns) :=
  of_put fun _ ↦ rfl

theorem addSelect (columns : List Reference) : Acts [.columns] (·.addSelect columns) :=
  of_put fun _ ↦ rfl

theorem distinct : Acts [.columns] fun q ↦ { q with distinct := true } :=
  of_put fun _ ↦ rfl

theorem selectRaw (sql : String) (values : List Value) :
    Acts [.columns] (·.selectRaw sql values) :=
  (addSelect _).comp (bind .columns values)

theorem selectQuery (label : String) : Acts [.columns] (·.selectQuery inner label) :=
  withEmbedded inner fun sql ↦ param (·.grammar.wrapSegment label)
    (fun label q ↦ (q.addSelect [aliased sql label]).bind .columns inner.allBindings)
    (fun _ ↦ (addSelect _).comp (bind .columns _)) fun _ _ h ↦ by rw [grammar_eq h]

theorem setSource (source : Reference) : Acts [.source] (·.setSource source) :=
  of_put fun _ ↦ rfl

theorem sourceRaw (sql : String) (values : List Value) : Acts [.source] (·.sourceRaw sql values) :=
  (setSource _).comp (bind .source values)

theorem sourceQuery (label : String) : Acts [.source] (·.sourceQuery inner label) :=
  withEmbedded inner fun sql ↦ param (·.grammar.wrapTable label)
    (fun label q ↦ { q.setSource (aliased sql label) with
      bindings := q.bindings.set .source inner.allBindings })
    (fun _ ↦ of_put fun _ ↦ rfl) fun _ _ h ↦ by rw [grammar_eq h]

theorem addGroups (groups : List Reference) : Acts [.groups] (·.addGroups groups) :=
  of_put fun _ ↦ rfl

theorem groupByRaw (sql : String) (values : List Value) :
    Acts [.groups] (·.groupByRaw sql values) :=
  (addGroups _).comp (bind .groups values)

theorem addOrder (order : Order) (values : List Value) : Acts [.rows] (·.addOrder order values) :=
  of_put fun q ↦ by
    obtain ⟨c, joins, conditions, unions⟩ := q
    cases unions <;> rfl

theorem randomOrder (seed : String) :
    Acts [.rows] fun q ↦ q.orderByRaw (q.grammar.randomOrder seed) [] :=
  param (·.grammar.randomOrder seed) (fun sql q ↦ q.orderByRaw sql [])
    (fun _ ↦ addOrder _ _) fun _ _ h ↦ by rw [grammar_eq h]

theorem orderByQuery (direction : Direction) : Acts [.rows] (·.orderByQuery inner direction) :=
  withEmbedded inner fun _ ↦ addOrder _ _

theorem reorder : Acts [.rows] (·.reorder) :=
  of_put fun _ ↦ rfl

theorem setLimit (n : Nat) : Acts [.rows] (·.setLimit n) :=
  of_put fun q ↦ by
    obtain ⟨c, joins, conditions, unions⟩ := q
    cases unions <;> rfl

theorem setOffset (n : Nat) : Acts [.rows] (·.setOffset n) :=
  of_put fun q ↦ by
    obtain ⟨c, joins, conditions, unions⟩ := q
    cases unions <;> rfl

/-- A page after a key is the only operation with two families. -/
theorem pageAfter (size : Nat) (last : Option Value) :
    Acts [.conditions, .rows] (·.pageAfter size last column) := by
  have hfilter : Acts [.conditions, .rows] fun q ↦
      { q with orders := q.orders.filter fun order ↦ !order.isOn column } :=
    (of_put fun _ ↦ rfl : Acts [.rows] _).mono (by decide)
  have hrows : Acts [.conditions, .rows] fun q ↦
      (q.orderBy (.name column) .ascending).setLimit size :=
    ((addOrder _ _).comp (setLimit size)).mono (by decide)
  cases last with
  | none => exact hfilter.comp hrows
  | some v => exact (hfilter.comp (addComparison.mono (by decide))).comp hrows

theorem unite (all : Bool) : Acts [.rows] (·.unite inner all) := by
  have hmember : Acts [.rows] fun q ↦ { q with unions := q.unions ++ [⟨inner, all⟩] } :=
    of_put fun _ ↦ rfl
  exact ((absorb inner).comp (bind .unions inner.allBindings)).comp hmember

theorem setLock (lock : Lock) : Acts [.lock] (·.setLock lock) :=
  of_put fun _ ↦ rfl

theorem useWriteHandle : Acts [.lock] fun q ↦ { q with usesWriteHandle := true } :=
  of_put fun _ ↦ rfl

theorem addJoin (kind : JoinKind) (table : Reference) :
    Acts [.joins] (·.addJoin kind table inner) := by
  have hjoin : Acts [.joins] fun q ↦ { q with joins := q.joins ++ [⟨kind, table, inner⟩] } :=
    of_put fun _ ↦ rfl
  exact ((absorb inner).comp (bind .joins inner.allBindings)).comp hjoin

theorem joinClause_eq {q q' : Query} (h : q.frame = q'.frame) : q.joinClause = q'.joinClause := by
  rw [joinClause, fresh_eq h]
  rfl

theorem joinOn (kind : JoinKind) (table : Reference) (first : String) (operator : OperatorName)
    (second : String) : Acts [.joins] (·.joinOn kind table first operator second) :=
  param (fun q ↦ q.joinClause.withOperator operator fun o ↦
      q.joinClause.addColumns .and first o second)
    (fun clause q ↦ q.addJoin kind table clause) (addJoin · kind table)
    fun _ _ h ↦ by rw [joinClause_eq h]

theorem joinQuery (kind : JoinKind) (label first : String) (operator : OperatorName)
    (second : String) : Acts [.joins] (·.joinQuery kind inner label first operator second) :=
  withEmbedded inner fun sql ↦ param (·.grammar.wrapTable label)
    (fun label q ↦ (q.bind .joins inner.allBindings).joinOn kind (aliased sql label) first operator
      second)
    (fun _ ↦ (bind .joins _).comp (joinOn _ _ _ _ _)) fun _ _ h ↦ by rw [grammar_eq h]

end FluentSql.Acts
