import FluentSql.Grammar.Basic
import FluentSql.Json.Parser

namespace FluentSql

structure ReadConfig where
  url : String

structure Config where
  name : String
  driver : Dialect
  url : String
  read : Option ReadConfig
  tablePrefix : String
  sticky : Bool
  savepoints : Option Bool
  logging : Bool

namespace Config

open Json

def string? : Document → Option String
  | .string s => (textOf? s).map String.ofList
  | _ => none

def bool? : Document → Option Bool
  | .bool b => some b
  | _ => none

def optional? {α : Type} (read : Document → Option α) : Document → Option (Option α)
  | .null => some none
  | d => (read d).map some

def dialect? : Document → Option Dialect
  | .string s => (textOf? s).bind fun s ↦ Dialect.ofName? (String.ofList s)
  | .object [(name, .null)] => (textOf? name).bind fun s ↦ Dialect.ofName? (String.ofList s)
  | _ => none

structure Fields where
  entries : List (String × Document)

def Fields.ofMembers? (known : List String) (members : List (List Symbol × Document)) :
    Option Fields := do
  let named ← members.mapM fun (name, d) ↦ do return (String.ofList (← textOf? name), d)
  let used := named.filter fun (name, _) ↦ known.contains name
  if (used.map Prod.fst).eraseDups.length = used.length then some ⟨used⟩ else none

/-- A list gives the fields in order, and no more than there are. -/
def Fields.ofItems? (known : List String) (items : List Document) : Option Fields :=
  if items.length ≤ known.length then some ⟨known.zip items⟩ else none

def Fields.ofDocument? (known : List String) : Document → Option Fields
  | .object members => ofMembers? known members
  | .array items => ofItems? known items
  | _ => none

def Fields.required? {α : Type} (f : Fields) (name : String) (read : Document → Option α) :
    Option α :=
  (f.entries.lookup name).bind read

def Fields.withDefault? {α : Type} (f : Fields) (name : String) (read : Document → Option α)
    (default : α) : Option α :=
  match f.entries.lookup name with
  | some d => read d
  | none => some default

def readConfig? (d : Document) : Option ReadConfig := do
  let f ← Fields.ofDocument? ["url"] d
  return ⟨← f.required? "url" string?⟩

def fieldNames : List String :=
  ["name", "driver", "url", "read", "prefix", "sticky", "savepoints", "logging"]

def ofDocument? (d : Document) : Option Config := do
  let f ← Fields.ofDocument? fieldNames d
  return {
    name := ← f.withDefault? "name" string? "default"
    driver := ← f.required? "driver" dialect?
    url := ← f.withDefault? "url" string? ""
    read := ← f.withDefault? "read" (optional? readConfig?) none
    tablePrefix := ← f.withDefault? "prefix" string? ""
    sticky := ← f.withDefault? "sticky" bool? false
    savepoints := ← f.withDefault? "savepoints" (optional? bool?) none
    logging := ← f.withDefault? "logging" bool? false }

def ofJson (text : String) : Except Error Config :=
  match (parseDocument? text).bind ofDocument? with
  | some c => .ok c
  | none => .error (.serialization .malformed)

def toJson (c : Config) : Json :=
  let read := c.read.map fun r ↦ ("read", Json.object [("url", .string r.url)])
  let savepoints := c.savepoints.map fun b ↦ ("savepoints", Json.bool b)
  .object (sortMembers ([("name", .string c.name), ("driver", .string c.driver.name),
    ("url", .string c.url), ("prefix", .string c.tablePrefix), ("sticky", .bool c.sticky),
    ("logging", .bool c.logging)] ++ read.toList ++ savepoints.toList))

def grammar (c : Config) : Grammar :=
  { dialect := c.driver, tablePrefix := c.tablePrefix, savepoints := c.savepoints }

end Config

end FluentSql
