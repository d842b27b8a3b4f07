import FluentSql.Clause
import FluentSql.Error.Basic
import FluentSql.Text.Letter

namespace FluentSql.DynamicWhere

open Text

def isCapital (c : Char) : Bool := 'A' ≤ c && c ≤ 'Z'

def connective? : List Char → Option (Connective × List Char)
  | 'A' :: 'n' :: 'd' :: c :: rest => if isCapital c then some (.and, c :: rest) else none
  | 'O' :: 'r' :: c :: rest => if isCapital c then some (.or, c :: rest) else none
  | _ => none

def addToFirst (c : Char) : List (List Char × Connective) → List (List Char × Connective)
  | [] => []
  | (s, connective) :: rest => (c :: s, connective) :: rest

/-- The columns as they are spelled, each with the connective in front of it. `skip` characters of a
connective are still to be passed over. -/
def split (before : Connective) : Nat → List Char → List (List Char × Connective)
  | _, [] => [([], before)]
  | skip + 1, _ :: s => split before skip s
  | 0, c :: s =>
    match connective? (c :: s) with
    | some (.and, _) => ([], before) :: split .and 2 s
    | some (.or, _) => ([], before) :: split .or 1 s
    | none => addToFirst c (split before 0 s)

/-- Breaks words before upper case letters, the first character apart. -/
def snake : List Char → List Char
  | [] => []
  | c :: s => lower c ++ s.flatMap fun d ↦ if isUpper d then '_' :: lower d else lower d

def columnName (s : List Char) : String :=
  String.ofList (snake (s.filter fun c ↦ !isBlank c))

def parse (method : String) : Except Error (List (String × Connective)) :=
  match method.toList with
  | 'w' :: 'h' :: 'e' :: 'r' :: 'e' :: spelled =>
    let columns := split .and 0 spelled
    if columns.any fun (s, _) ↦ s.isEmpty then .error (.undefinedMethod method)
    else .ok (columns.map fun (s, connective) ↦ (columnName s, connective))
  | _ => .error (.undefinedMethod method)

end FluentSql.DynamicWhere
