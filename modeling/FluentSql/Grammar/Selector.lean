import FluentSql.Grammar.Quoting
import FluentSql.Text.Digits

namespace FluentSql

open Text

namespace Selector

/-- Doubles single quotes, and drops the backslashes right before one. -/
def escapePath (backslashes : Nat) : List Char → List Char
  | [] => List.replicate backslashes '\\'
  | '\\' :: s => escapePath (backslashes + 1) s
  | '\x27' :: s => '\x27' :: '\x27' :: escapePath 0 s
  | c :: s => List.replicate backslashes '\\' ++ c :: escapePath 0 s

def splitBrackets? (s : List Char) : Option (List Char × List Char) :=
  if s.getLast? = some ']' ∧ '[' ∈ s then some (s.span (· != '[')) else none

def pathSegment (s : List Char) : List Char :=
  match splitBrackets? s with
  | some ([], brackets) => brackets
  | some (key, brackets) => '"' :: key ++ '"' :: brackets
  | none => '"' :: s ++ ['"']

/-- The literal for the part of a selector after its first arrow. -/
def pathLiteral (s : List Char) : List Char :=
  let path := ['.'].intercalate ((segments Quoting.arrow (escapePath 0 s)).map pathSegment)
  let root := if path.head? = some '[' then ['\x27', '$'] else ['\x27', '$', '.']
  root ++ path ++ ['\x27']

def isIndex (s : List Char) : Bool :=
  (integer? Value.int64Low Value.int64High s).isSome

/-- Integers index arrays and stay as they are; everything else is a literal key. -/
def accessor (s : List Char) : List Char :=
  if isIndex s then s else '\x27' :: double '\x27' s ++ ['\x27']

/-- A segment `tags[0][1]` is a key and two indexes; brackets around anything else belong to the
key. -/
def accessors (s : List Char) : List (List Char) :=
  match splitBrackets? s with
  | some (key, brackets) =>
    let indexes := segments [']', '['] ((brackets.drop 1).dropLast)
    if indexes.all isIndex then
      (if key.isEmpty then [] else [accessor key]) ++ indexes
    else [accessor s]
  | none => [accessor s]

/-- The last accessor yields text, the others documents. -/
def chain (field : List Char) (keys : List (List Char)) : List Char :=
  match keys.getLast? with
  | none => field
  | some last =>
    keys.dropLast.foldl (fun s key ↦ s ++ Quoting.arrow ++ key) field ++ ['-', '>', '>'] ++ last

end Selector

namespace Grammar

def quotes (g : Grammar) : Quotes := g.dialect.quotes

def columnChars (g : Grammar) (s : List Char) : List Char :=
  Quoting.column g.quotes g.tablePrefix.toList s

def fieldAndPath (g : Grammar) (s : List Char) : List Char × List Char :=
  match splitFirst? Quoting.arrow s with
  | some (field, path) => (g.columnChars field, [',', ' '] ++ Selector.pathLiteral path)
  | none => (g.columnChars s, [])

def pathArguments (g : Grammar) (s : List Char) : List Char :=
  (g.fieldAndPath s).1 ++ (g.fieldAndPath s).2

def callOf (function : String) (arguments : List Char) : List Char :=
  function.toList ++ '(' :: arguments ++ [')']

def postgresChain (g : Grammar) (s : List Char) : List Char :=
  match segments Quoting.arrow s with
  | field :: keys => Selector.chain (g.columnChars field) (keys.flatMap Selector.accessors)
  | [] => []

def selector (g : Grammar) (s : List Char) : Except Error (List Char) :=
  match g.dialect with
  | .mysql => .ok (callOf "json_unquote" (callOf "json_extract" (g.pathArguments s)))
  | .postgres => .ok (g.postgresChain s)
  | .sqlite => .ok (callOf "json_extract" (g.pathArguments s))
  | .sqlServer => .ok (callOf "json_value" (g.pathArguments s))
  | .generic => .error (.generation .json)

def unaliased (g : Grammar) (s : List Char) : Except Error (List Char) :=
  if Quoting.isJsonSelector s then g.selector s else .ok (g.columnChars s)

def wrap (g : Grammar) (s : String) : Except Error String :=
  match Quoting.splitAlias? s.toList with
  | some (column, label) => do
    let column ← g.unaliased column
    return String.ofList (column ++ Quoting.aliasMark ++ g.quotes.enclose label)
  | none => do return String.ofList (← g.unaliased s.toList)

/-- Quotes a table; table and alias both take the prefix. -/
def wrapTable (g : Grammar) (s : String) : String :=
  let tablePrefix := g.tablePrefix.toList
  match Quoting.splitAlias? s.toList with
  | some (table, label) =>
    String.ofList (Quoting.table g.quotes tablePrefix table ++ Quoting.aliasMark ++
      g.quotes.enclose (tablePrefix ++ label))
  | none => String.ofList (Quoting.table g.quotes tablePrefix s.toList)

def wrapSegment (g : Grammar) (s : String) : String :=
  String.ofList (g.quotes.enclose s.toList)

def reference (g : Grammar) : Reference → Except Error Sql
  | .name s => do return (← g.wrap s : String)
  | .fragment sql => .ok sql

def tableReference (g : Grammar) : Reference → Sql
  | .name s => g.wrapTable s
  | .fragment sql => sql

def references (g : Grammar) (rs : List Reference) : Except Error Sql := do
  return .join ", " (← rs.mapM g.reference)

def names (g : Grammar) (columns : List String) : Except Error String := do
  return ", ".intercalate (← columns.mapM g.wrap)

def operands (values : List (Operand Value)) : Sql :=
  .join ", " (values.map Operand.sql)

end Grammar

end FluentSql
