import FluentSql.Json.Basic

namespace FluentSql.Json

def hexDigit (n : Nat) : Char :=
  if n < 10 then Char.ofNat ('0'.toNat + n) else Char.ofNat ('a'.toNat + (n - 10))

def escapeChar (c : Char) : List Char :=
  if c = '"' then ['\\', '"']
  else if c = '\\' then ['\\', '\\']
  else if c = '\x08' then ['\\', 'b']
  else if c = '\t' then ['\\', 't']
  else if c = '\n' then ['\\', 'n']
  else if c = '\x0c' then ['\\', 'f']
  else if c = '\r' then ['\\', 'r']
  else if c.toNat < 0x20 then
    ['\\', 'u', '0', '0', hexDigit (c.toNat / 16), hexDigit (c.toNat % 16)]
  else [c]

def quoted (s : String) : String :=
  String.ofList ('"' :: s.toList.flatMap escapeChar ++ ['"'])

def floatingText (l : Floating.Layout) (x : Floating) : String :=
  (x.documentText l).getD "null"

def bracketed (opening closing : Char) (items : List String) : String :=
  String.singleton opening ++ ",".intercalate items ++ String.singleton closing

mutual

def render : Json → String
  | null => "null"
  | bool b => if b then "true" else "false"
  | integer i => toString i
  | number x => floatingText .double x
  | string s => quoted s
  | array items => bracketed '[' ']' (renderItems items)
  | object members => bracketed '\x7b' '\x7d' (renderMembers members)

def renderItems : List Json → List String
  | [] => []
  | j :: rest => j.render :: renderItems rest

def renderMembers : List (String × Json) → List String
  | [] => []
  | (name, value) :: rest => (quoted name ++ ":" ++ value.render) :: renderMembers rest

end

end FluentSql.Json
