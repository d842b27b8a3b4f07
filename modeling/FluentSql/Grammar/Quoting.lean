import FluentSql.Grammar.Basic
import FluentSql.Clause
import FluentSql.Text.Search

namespace FluentSql

open Text

structure Quotes where
  opening : Char
  closing : Char

def Dialect.quotes : Dialect → Quotes
  | .mysql => ⟨'\x60', '\x60'⟩
  | .sqlServer => ⟨'[', ']'⟩
  | _ => ⟨'"', '"'⟩

namespace Quotes

/-- One segment of a name; the star stands for itself. -/
def enclose (q : Quotes) (s : List Char) : List Char :=
  if s = ['*'] then s else q.opening :: double q.closing s ++ [q.closing]

end Quotes

namespace Quoting

def aliasMark : List Char := " as ".toList

/-- The expression and its alias, split at the first ` as ` in any case of letters. -/
def splitAlias? (s : List Char) : Option (List Char × List Char) :=
  (splitFirst? aliasMark (s.map Char.toLower)).map fun (before, _) ↦
    (trimEnd (s.take before.length), trimStart (s.drop (before.length + 4)))

def arrow : List Char := ['-', '>']

def isJsonSelector (s : List Char) : Bool :=
  contains arrow s

/-- Of several segments, as in `table.column`, the first is a table and takes the prefix. -/
def column (q : Quotes) (tablePrefix s : List Char) : List Char :=
  match segments ['.'] s with
  | first :: second :: rest =>
    ['.'].intercalate (((tablePrefix ++ first) :: second :: rest).map q.enclose)
  | names => ['.'].intercalate (names.map q.enclose)

/-- A table without an alias. The prefix stands in front of the whole name. -/
def table (q : Quotes) (tablePrefix s : List Char) : List Char :=
  ['.'].intercalate ((segments ['.'] (tablePrefix ++ s)).map q.enclose)

end Quoting

end FluentSql
