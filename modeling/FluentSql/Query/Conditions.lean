import FluentSql.Statement.Select

namespace FluentSql.Query

def addCondition (q : Query) (connective : Connective) (test : Test Query) : Query :=
  { q with conditions := q.conditions ++ [⟨connective, test⟩] }

def addTest (q : Query) (connective : Connective) (test : Test Query) (values : List Value) :
    Query :=
  (q.bind .conditions values).addCondition connective test

def operator? (q : Query) : OperatorName → Operator ⊕ Query
  | .custom symbol => .inl ⟨symbol⟩
  | .named name =>
    match Operator.parse? name with
    | some o => .inl o
    | none => .inr (q.fail (.unknownOperator name))

def withOperator (q : Query) (name : OperatorName) (continue' : Operator → Query) : Query :=
  match q.operator? name with
  | .inl o => continue' o
  | .inr q => q

def addNull (q : Query) (connective : Connective) (column : String) (negated : Bool) : Query :=
  q.addCondition connective (.null column negated)

/-- Null is compared by `is null`, and only for equality. Truth values are compared with JSON
selectors as literals. -/
def addComparison (q : Query) (connective : Connective) (column : String) (operator : Operator)
    (operand : Operand Value) : Query :=
  if operand.isNull then
    if operator.isEquality then q.addNull connective column false
    else if operator.isInequality then q.addNull connective column true
    else q.fail .nullComparison
  else
    match operand with
    | .bound (.bool b) =>
      if Quoting.isJsonSelector column.toList then
        q.addCondition connective (.jsonBoolean column operator b)
      else q.addTest connective (.basic column operator operand) operand.values
    | _ => q.addTest connective (.basic column operator operand) operand.values

/-- What a part of a date is compared with: dates and times as text, days and months padded. -/
def datePartValue : DatePart → Value → Value
  | .date, .dateTime t => .string t.date.text
  | .date, .date d => .string d.text
  | .time, .dateTime t => .string t.time.text
  | .time, .time t => .string t.text
  | .day, .dateTime t => .string t.date.dayText
  | .day, .date d => .string d.dayText
  | .month, .dateTime t => .string t.date.monthText
  | .month, .date d => .string d.monthText
  | .year, .dateTime t => .string t.date.yearText
  | .year, .date d => .string d.yearText
  | .day, v => v.twoDigits
  | .month, v => v.twoDigits
  | _, v => v

def addDatePart (q : Query) (part : DatePart) (connective : Connective) (column : String)
    (operator : Operator) (operand : Operand Value) : Query :=
  let operand := operand.map (datePartValue part)
  q.addTest connective (.datePart part column operator operand) operand.values

def addJsonLength (q : Query) (connective : Connective) (column : String) (operator : Operator)
    (operand : Operand Value) : Query :=
  q.addTest connective (.jsonLength column operator operand) operand.values

def addColumns (q : Query) (connective : Connective) (first : String) (operator : Operator)
    (second : String) : Query :=
  q.addCondition connective (.columns first operator second)

def addQueryComparison (q : Query) (connective : Connective) (column : String)
    (operator : Operator) (inner : Query) : Query :=
  (q.absorb inner).addTest connective (.query column operator inner) inner.allBindings

def addRow (q : Query) (connective : Connective) (columns : List String) (operator : Operator)
    (operands : List (Operand Value)) : Query :=
  if columns.length ≠ operands.length then q.fail .rowArity
  else q.addTest connective (.rowValues columns operator operands) (operands.flatMap Operand.values)

def addNested (q : Query) (connective : Connective) (inner : Query) : Query :=
  let q := q.absorb inner
  if inner.conditions.isEmpty then q
  else q.addTest connective (.nested inner) inner.bindings.conditions

def addExistence (q : Query) (connective : Connective) (negated : Bool) (inner : Query) : Query :=
  (q.absorb inner).addTest connective (.existence inner negated) inner.allBindings

def addIn (q : Query) (connective : Connective) (negated : Bool) (column : String)
    (operands : List (Operand Value)) : Query :=
  q.addTest connective (.isIn column operands negated) (operands.flatMap Operand.values)

def addInQuery (q : Query) (connective : Connective) (negated : Bool) (column : String)
    (inner : Query) : Query :=
  (q.absorb inner).addTest connective (.isInQuery column inner negated) inner.allBindings

/-- Values that start with no integer are left out. -/
def addInIntegers (q : Query) (connective : Connective) (negated : Bool) (column : String)
    (values : List Value) : Query :=
  q.addCondition connective (.isInIntegers column (values.filterMap Value.leadingInteger?) negated)

def addBetween (q : Query) (connective : Connective) (negated : Bool) (column : String)
    (low high : Operand Value) : Query :=
  q.addTest connective (.between column low high negated) (low.values ++ high.values)

def addBetweenColumns (q : Query) (connective : Connective) (negated : Bool)
    (column low high : String) : Query :=
  q.addCondition connective (.betweenColumns column low high negated)

def addRaw (q : Query) (connective : Connective) (sql : String) (values : List Value) : Query :=
  q.addTest connective (.raw (.raw sql values)) values

def addJsonContains (q : Query) (connective : Connective) (negated : Bool) (column : String)
    (value : Value) : Query :=
  let value := q.grammar.jsonContainsBinding value
  q.addTest connective (.jsonContains column value negated) [value]

def addRecord (q : Query) (connective : Connective) (record : Record Value) : Query :=
  let equalities := record.foldl (fun (inner : Query) (column, operand) ↦
    inner.addComparison .and column .equal operand) q.fresh
  q.addNested connective equalities

end FluentSql.Query
