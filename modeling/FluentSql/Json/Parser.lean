import FluentSql.Json.Document

namespace FluentSql.Json

open Text

def skipBlank (s : List Char) : List Char :=
  s.dropWhile fun c ↦ c == ' ' || c == '\t' || c == '\n' || c == '\r'

def hexValue? (c : Char) : Option Nat :=
  if isDigit c then some (c.toNat - '0'.toNat)
  else if 'a' ≤ c ∧ c ≤ 'f' then some (c.toNat - 'a'.toNat + 10)
  else if 'A' ≤ c ∧ c ≤ 'F' then some (c.toNat - 'A'.toNat + 10)
  else none

def hexUnit? (a b c d : Char) : Option Nat := do
  let a ← hexValue? a
  let b ← hexValue? b
  let c ← hexValue? c
  let d ← hexValue? d
  return ((a * 16 + b) * 16 + c) * 16 + d

def escaped? (c : Char) : Option Char :=
  if c = '"' ∨ c = '\\' ∨ c = '/' then some c
  else if c = 'b' then some '\x08'
  else if c = 'f' then some '\x0c'
  else if c = 'n' then some '\n'
  else if c = 'r' then some '\r'
  else if c = 't' then some '\t'
  else none

def parseString : List Char → Option (List Symbol × List Char)
  | [] => none
  | '"' :: rest => some ([], rest)
  | '\\' :: 'u' :: a :: b :: c :: d :: rest => do
    let u ← hexUnit? a b c d
    let (s, rest) ← parseString rest
    return (.unit u :: s, rest)
  | '\\' :: c :: rest => do
    let c ← escaped? c
    let (s, rest) ← parseString rest
    return (.char c :: s, rest)
  | c :: rest =>
    if c.toNat < 0x20 then none
    else do
      let (s, rest) ← parseString rest
      return (.char c :: s, rest)

def parseFraction : List Char → Option (Option (List Char) × List Char)
  | '.' :: rest =>
    let digits := rest.takeWhile isDigit
    if digits.isEmpty then none else some (some digits, rest.dropWhile isDigit)
  | rest => some (none, rest)

def parseExponent : List Char → Option (Option (Bool × List Char) × List Char)
  | c :: rest =>
    if c = 'e' ∨ c = 'E' then
      let (below, rest) := signOf rest
      let digits := rest.takeWhile isDigit
      if digits.isEmpty then none else some (some (below, digits), rest.dropWhile isDigit)
    else some (none, c :: rest)
  | [] => some (none, [])

def parseNumber (negative : Bool) (s : List Char) : Option (Document × List Char) :=
  let whole := s.takeWhile isDigit
  match whole with
  | [] => none
  | '0' :: _ :: _ => none
  | _ => do
    let (fraction, rest) ← parseFraction (s.dropWhile isDigit)
    let (exponent, rest) ← parseExponent rest
    return (.number ⟨negative, whole, fraction, exponent⟩, rest)

mutual

/-- Every step down consumes a character, or is followed by one that does; twice the length of the
text is enough fuel. -/
def parseValue : Nat → List Char → Option (Document × List Char)
  | 0, _ => none
  | fuel + 1, s =>
    match skipBlank s with
    | 'n' :: 'u' :: 'l' :: 'l' :: rest => some (.null, rest)
    | 't' :: 'r' :: 'u' :: 'e' :: rest => some (.bool true, rest)
    | 'f' :: 'a' :: 'l' :: 's' :: 'e' :: rest => some (.bool false, rest)
    | '"' :: rest => (parseString rest).map fun (s, rest) ↦ (.string s, rest)
    | '-' :: rest => parseNumber true rest
    | '[' :: rest =>
      match skipBlank rest with
      | ']' :: rest => some (.array [], rest)
      | _ => (parseItems fuel rest).map fun (items, rest) ↦ (.array items, rest)
    | '\x7b' :: rest =>
      match skipBlank rest with
      | '\x7d' :: rest => some (.object [], rest)
      | _ => (parseMembers fuel rest).map fun (members, rest) ↦ (.object members, rest)
    | rest => parseNumber false rest

def parseItems : Nat → List Char → Option (List Document × List Char)
  | 0, _ => none
  | fuel + 1, s => do
    let (item, rest) ← parseValue fuel s
    match skipBlank rest with
    | ',' :: rest =>
      let (items, rest) ← parseItems fuel rest
      return (item :: items, rest)
    | ']' :: rest => return ([item], rest)
    | _ => none

def parseMembers : Nat → List Char → Option (List (List Symbol × Document) × List Char)
  | 0, _ => none
  | fuel + 1, s =>
    match skipBlank s with
    | '"' :: rest => do
      let (name, rest) ← parseString rest
      match skipBlank rest with
      | ':' :: rest =>
        let (value, rest) ← parseValue fuel rest
        match skipBlank rest with
        | ',' :: rest =>
          let (members, rest) ← parseMembers fuel rest
          return ((name, value) :: members, rest)
        | '\x7d' :: rest => return ([(name, value)], rest)
        | _ => none
      | _ => none
    | _ => none

end

def parseDocument? (s : String) : Option Document := do
  let (d, rest) ← parseValue (2 * s.length + 2) s.toList
  if (skipBlank rest).isEmpty then some d else none

def parse? (s : String) : Option Json := do
  (← parseDocument? s).value? 127

end FluentSql.Json
