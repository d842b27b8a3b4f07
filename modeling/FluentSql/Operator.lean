import FluentSql.Text.Blank

namespace FluentSql

structure Operator where
  symbol : String
  deriving DecidableEq

namespace Operator

def equal : Operator := ⟨"="⟩

def greater : Operator := ⟨">"⟩

def known : List String := [
  "=", "<", ">", "<=", ">=", "<>", "!=", "<=>",
  "like", "like binary", "not like", "ilike", "not ilike",
  "&", "|", "^", "<<", ">>", "&~",
  "is", "is not",
  "rlike", "not rlike", "regexp", "not regexp",
  "~", "~*", "!~", "!~*", "~~*", "!~~*",
  "similar to", "not similar to",
  "@>", "<@", "?", "?|", "?&", "||", "-", "@?", "@@", "#-",
  "is distinct from", "is not distinct from"]

def parse? (name : String) : Option Operator :=
  let wanted := (Text.trim name.toList).map Char.toLower
  (known.find? fun symbol ↦ symbol.toList == wanted).map Operator.mk

def isKnown (o : Operator) : Bool := known.contains o.symbol

def isEquality (o : Operator) : Bool := o.symbol == "="

def isInequality (o : Operator) : Bool := o.symbol == "!=" || o.symbol == "<>"

def isLike (o : Operator) : Bool :=
  ["like", "not like", "ilike", "not ilike"].contains o.symbol

end Operator

end FluentSql
