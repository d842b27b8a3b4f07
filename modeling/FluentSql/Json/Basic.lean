import FluentSql.Number.Text

namespace FluentSql

/-- Integers lie between `-2 ^ 63` and `2 ^ 64 - 1`; all other numbers are floating. -/
inductive Json where
  | null
  | bool (b : Bool)
  | integer (i : Int)
  | number (x : Floating)
  | string (s : String)
  | array (items : List Json)
  | object (members : List (String × Json))
  deriving Inhabited

namespace Json

def setMember (name : String) (value : Json) : List (String × Json) → List (String × Json)
  | [] => [(name, value)]
  | (n, v) :: rest =>
    if name = n then (name, value) :: rest
    else if name < n then (name, value) :: (n, v) :: rest
    else (n, v) :: setMember name value rest

/-- Sorts written members; of several with one name the last counts. -/
def sortMembers (members : List (String × Json)) : List (String × Json) :=
  members.foldl (fun sorted (name, value) ↦ setMember name value sorted) []

def isNull : Json → Bool
  | null => true
  | _ => false

end Json

abbrev Row := List (String × Json)

def Row.get? (row : Row) (column : String) : Option Json :=
  row.lookup column

end FluentSql
