import FluentSql.Calendar
import FluentSql.Json.Printer
import FluentSql.Text.Blank

namespace FluentSql

inductive Value where
  | null
  | bool (b : Bool)
  | int32 (i : Int32)
  | int64 (i : Int64)
  | float32 (x : Floating)
  | float64 (x : Floating)
  | string (s : String)
  | bytes (b : List UInt8)
  | json (j : Json)
  | date (d : Date)
  | time (t : TimeOfDay)
  | dateTime (t : DateTime)
  deriving Inhabited

namespace Value

def isNull : Value → Bool
  | null => true
  | _ => false

def typeName : Value → String
  | null => "NULL"
  | bool _ => "BOOLEAN"
  | int32 _ => "INTEGER"
  | int64 _ => "BIGINT"
  | float32 _ => "REAL"
  | float64 _ => "DOUBLE PRECISION"
  | string _ => "TEXT"
  | bytes _ => "BLOB"
  | json _ => "JSON"
  | date _ => "DATE"
  | time _ => "TIME"
  | dateTime _ => "TIMESTAMP"

/-- The plain text of a value; the bytes of a blob are only counted. -/
def text : Value → String
  | null => "NULL"
  | bool b => if b then "true" else "false"
  | int32 i => toString i.toInt
  | int64 i => toString i.toInt
  | float32 x => x.plain .single
  | float64 x => x.plain .double
  | string s => s
  | bytes b => "<" ++ toString b.length ++ " bytes>"
  | json j => j.render
  | date d => d.text
  | time t => t.text
  | dateTime t => t.text

def byteItems (b : List UInt8) : List Json :=
  b.map fun x ↦ .integer x.toNat

def ofFinite (x : Floating) : Json :=
  if x.isFinite then .number x else .null

def toJson : Value → Json
  | null => .null
  | bool b => .bool b
  | int32 i => .integer i.toInt
  | int64 i => .integer i.toInt
  | float32 x => ofFinite x
  | float64 x => ofFinite x
  | string s => .string s
  | bytes b => .array (byteItems b)
  | json j => j
  | v => .string v.text

def tagged (kind content : String) : String :=
  Json.bracketed '\x7b' '\x7d' [Json.quoted kind ++ ":" ++ content]

/-- A JSON text that tells values of different kinds apart. Single floats keep their own, shorter
digits, and times their fractions. -/
def taggedText : Value → String
  | null => Json.quoted "Null"
  | bool b => tagged "Bool" (Json.bool b).render
  | int32 i => tagged "I32" (Json.integer i.toInt).render
  | int64 i => tagged "I64" (Json.integer i.toInt).render
  | float32 x => tagged "F32" (Json.floatingText .single x)
  | float64 x => tagged "F64" (Json.floatingText .double x)
  | string s => tagged "String" (Json.quoted s)
  | bytes b => tagged "Bytes" (Json.array (byteItems b)).render
  | json j => tagged "Json" j.render
  | date d => tagged "Date" (Json.quoted d.text)
  | time t => tagged "Time" (Json.quoted t.exactText)
  | dateTime t => tagged "DateTime" (Json.quoted t.exactText)

def int64Low : Int := -0x8000000000000000

def int64High : Int := 0x7fffffffffffffff

def ofJson : Json → Value
  | .null => null
  | .bool b => bool b
  | .integer i =>
    if i ≤ int64High then int64 (Int64.ofInt i) else float64 (Floating.ofInt .double i)
  | .number x => float64 x
  | .string s => string s
  | j => json j

def clampInt64 (x : Floating) : Int64 :=
  Int64.ofInt (x.clampTo int64Low int64High)

/-- The signed digits that a text starts with, after blanks. The digits must fit in 63 bits. -/
def leadingDigits? (s : List Char) : Option Int64 :=
  let (negative, rest) := Text.signOf (Text.trimStart s)
  let digits := rest.takeWhile Text.isDigit
  let n := Text.digitsValue digits
  if digits.isEmpty ∨ int64High < n then none
  else some (Int64.ofInt (if negative then -n else n))

/-- The integer that a value starts with. Fractions are cut off, and numbers beyond 64 bits go to
the nearer bound. -/
def leadingInteger? : Value → Option Int64
  | bool b => some (if b then 1 else 0)
  | int32 i => some i.toInt64
  | int64 i => some i
  | float32 x => if x.isFinite then some (clampInt64 x) else none
  | float64 x => if x.isFinite then some (clampInt64 x) else none
  | string s => leadingDigits? s.toList
  | json j =>
    match j with
    | .integer i =>
      some (if i ≤ int64High then Int64.ofInt i else clampInt64 (Floating.ofInt .double i))
    | .number x => some (clampInt64 x)
    | _ => none
  | _ => none

def twoDigitInteger (i : Int) : Value :=
  string (String.ofList (Floating.signed (i < 0)
    (Text.padded (if i < 0 then 1 else 2) (Text.numeral i.natAbs))))

def twoDigits : Value → Value
  | int32 i => twoDigitInteger i.toInt
  | int64 i => twoDigitInteger i.toInt
  | string s =>
    if s.utf8ByteSize < 2 ∧ s.toList.all Text.isDigit then
      string (String.ofList (Text.padded 2 s.toList))
    else string s
  | v => v

end Value

end FluentSql
