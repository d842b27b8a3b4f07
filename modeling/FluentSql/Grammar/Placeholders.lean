import FluentSql.Text.Digits

namespace FluentSql.Placeholders

/-- The open quote, if any, is `quote`, and `count` the placeholders seen so far. -/
def number (quote : Option Char) (count : Nat) : List Char → List Char
  | [] => []
  | c :: s =>
    match quote with
    | some opening => c :: number (if c = opening then none else quote) count s
    | none =>
      if c = '\x27' ∨ c = '"' then c :: number (some c) count s
      else if c = '?' then
        match s with
        | '?' :: s => '?' :: number none count s
        | s => '$' :: Text.numeral (count + 1) ++ number none (count + 1) s
      else c :: number none count s

end FluentSql.Placeholders

namespace FluentSql

def numberedPlaceholders (sql : String) : String :=
  String.ofList (Placeholders.number none 0 sql.toList)

end FluentSql
