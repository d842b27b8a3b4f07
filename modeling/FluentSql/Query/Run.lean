import FluentSql.Query.Clauses
import FluentSql.Query.DynamicWhere

namespace FluentSql

abbrev Outcome := Query × Option Error

namespace Outcome

def done (q : Query) : Outcome := (q, none)

def around (inner : Outcome) (add : Query → Query) : Outcome :=
  (add inner.1, inner.2)

end Outcome

namespace Query

def addDynamicWhere (q : Query) (method : String) (arguments : List Value) : Outcome :=
  match DynamicWhere.parse method with
  | .error e => (q, some e)
  | .ok columns =>
    if arguments.length < columns.length then
      (q, some (.invalid (.tooFewArguments method columns.length arguments.length)))
    else
      .done ((columns.zip arguments).foldl (fun q ((column, connective), v) ↦
        q.addComparison connective column .equal (.bound v)) q)

def withNamed (q : Query) (operator : OperatorName) (add : Query → Operator → Query) : Outcome :=
  .done (q.withOperator operator (add q))

end Query

namespace Step

def references (columns : List Identifier) : List Reference :=
  columns.map Identifier.reference

mutual

/-- Runs a step. Calls go through `invoke`, and macro arguments are looked up in `arguments`. -/
def runWith (invoke : String → List Value → Query → Outcome) (arguments : List Value) (q : Query) :
    Step → Outcome
  | compare connective c =>
    q.withNamed c.operator fun q o ↦
      q.addComparison connective c.column o (c.operand.map (·.resolve arguments))
  | compareDate part connective c =>
    q.withNamed c.operator fun q o ↦
      q.addDatePart part connective c.column o (c.operand.map (·.resolve arguments))
  | compareJsonLength connective c =>
    q.withNamed c.operator fun q o ↦
      q.addJsonLength connective c.column o (c.operand.map (·.resolve arguments))
  | compareColumns connective first operator second =>
    q.withNamed operator fun q o ↦ q.addColumns connective first o second
  | compareQuery connective column operator steps =>
    (runAllWith invoke arguments q.fresh steps).around fun inner ↦
      q.withOperator operator fun o ↦ q.addQueryComparison connective column o inner
  | compareRow connective columns operator operands =>
    q.withNamed operator fun q o ↦
      q.addRow connective columns o (operands.map (·.map (·.resolve arguments)))
  | nest connective steps =>
    (runAllWith invoke arguments { q.fresh with source := q.source } steps).around
      (q.addNested connective)
  | exist connective negated steps =>
    (runAllWith invoke arguments q.fresh steps).around (q.addExistence connective negated)
  | isIn connective negated column operands =>
    .done (q.addIn connective negated column (operands.map (·.map (·.resolve arguments))))
  | isInQuery connective negated column steps =>
    (runAllWith invoke arguments q.fresh steps).around (q.addInQuery connective negated column)
  | isInIntegers connective negated column terms =>
    .done (q.addInIntegers connective negated column (terms.map (·.resolve arguments)))
  | isNull connective negated column => .done (q.addNull connective column negated)
  | between connective negated column low high =>
    .done (q.addBetween connective negated column (low.map (·.resolve arguments))
      (high.map (·.resolve arguments)))
  | betweenColumns connective negated column low high =>
    .done (q.addBetweenColumns connective negated column low high)
  | rawCondition connective sql terms =>
    .done (q.addRaw connective sql (terms.map (·.resolve arguments)))
  | jsonContains connective negated column term =>
    .done (q.addJsonContains connective negated column (term.resolve arguments))
  | matchRecord connective record =>
    .done (q.addRecord connective (record.map fun (c, o) ↦ (c, o.map (·.resolve arguments))))
  | having connective c =>
    q.withNamed c.operator fun q o ↦
      q.having connective c.column o (c.operand.map (·.resolve arguments))
  | havingNull negated column => .done (q.addHaving .and (.null column negated) [])
  | havingBetween column low high =>
    let low := low.map (·.resolve arguments)
    let high := high.map (·.resolve arguments)
    .done (q.addHaving .and (.between column low high) (low.values ++ high.values))
  | rawHaving connective sql terms =>
    let values := terms.map (·.resolve arguments)
    .done (q.addHaving connective (.raw (.raw sql values)) values)
  | select columns => .done (q.select (references columns))
  | addSelect columns => .done (q.addSelect (references columns))
  | selectRaw sql terms => .done (q.selectRaw sql (terms.map (·.resolve arguments)))
  | selectQuery steps label =>
    (runAllWith invoke arguments q.fresh steps).around (q.selectQuery · label)
  | distinct => .done { q with distinct := true }
  | source table => .done (q.setSource table.reference)
  | sourceRaw sql terms => .done (q.sourceRaw sql (terms.map (·.resolve arguments)))
  | sourceQuery steps label =>
    (runAllWith invoke arguments q.fresh steps).around (q.sourceQuery · label)
  | groupBy columns => .done (q.addGroups (references columns))
  | groupByRaw sql terms => .done (q.groupByRaw sql (terms.map (·.resolve arguments)))
  | orderBy column direction => .done (q.orderBy column.reference direction)
  | orderByRaw sql terms => .done (q.orderByRaw sql (terms.map (·.resolve arguments)))
  | orderByQuery steps direction =>
    (runAllWith invoke arguments q.fresh steps).around (q.orderByQuery · direction)
  | randomOrder seed => .done (q.orderByRaw (q.grammar.randomOrder seed) [])
  | reorder => .done q.reorder
  | reorderBy column direction => .done (q.reorder.orderBy column.reference direction)
  | limit n => .done (q.setLimit n)
  | offset n => .done (q.setOffset n)
  | page number size => .done (q.page number size)
  | pageAfter size last column =>
    .done (q.pageAfter size (last.map (·.resolve arguments)) column)
  | unite all steps => (runAllWith invoke arguments q.fresh steps).around (q.unite · all)
  | lock l => .done (q.setLock l)
  | useWriteHandle => .done { q with usesWriteHandle := true }
  | join kind table first operator second =>
    .done (q.joinOn kind table.reference first operator second)
  | crossJoin table => .done (q.addJoin .cross table.reference q.joinClause)
  | joinWith kind table steps =>
    (runAllWith invoke arguments q.joinClause steps).around (q.addJoin kind table.reference)
  | joinQuery kind steps label first operator second =>
    (runAllWith invoke arguments q.fresh steps).around
      (q.joinQuery kind · label first operator second)
  | addBinding kind term => .done (q.bind kind [term.resolve arguments])
  | call method terms => invoke method (terms.map (·.resolve arguments)) q
  | fail text => (q, some (.invalid (.stated text)))

def runAllWith (invoke : String → List Value → Query → Outcome) (arguments : List Value)
    (q : Query) : List Step → Outcome
  | [] => .done q
  | step :: rest =>
    match runWith invoke arguments q step with
    | (q, none) => runAllWith invoke arguments q rest
    | (q, some e) => (q, some e)

end

end Step

namespace Query

/-- Calls a macro, or else a method name that spells out conditions. Macros that call each other
nest at most `depth` deep. -/
def callWithin : Nat → String → List Value → Query → Outcome
  | 0, method, arguments, q => q.addDynamicWhere method arguments
  | depth + 1, method, arguments, q =>
    match q.macros.get? method with
    | some steps => Step.runAllWith (callWithin depth) arguments q steps
    | none => q.addDynamicWhere method arguments

/-- A chain of macros that is longer than there are macros would never end. -/
def callDepth (q : Query) : Nat := q.macros.entries.length + 1

def call (q : Query) (method : String) (arguments : List Value) : Outcome :=
  callWithin q.callDepth method arguments q

def run (q : Query) (steps : List Step) : Outcome :=
  Step.runAllWith (callWithin q.callDepth) [] q steps

end Query

end FluentSql
