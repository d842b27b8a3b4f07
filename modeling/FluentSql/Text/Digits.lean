namespace FluentSql.Text

def isDigit (c : Char) : Bool := '0' ≤ c && c ≤ '9'

def numeral (n : Nat) : List Char := Nat.toDigits 10 n

def digitsValue (s : List Char) : Nat :=
  s.foldl (fun n c ↦ 10 * n + (c.toNat - '0'.toNat)) 0

theorem digitsValue_numeral (n : Nat) : digitsValue (numeral n) = n :=
  Nat.ofDigitChars_toDigits (by decide) (by decide)

def padded (width : Nat) (s : List Char) : List Char :=
  List.replicate (width - s.length) '0' ++ s

def signOf : List Char → Bool × List Char
  | '-' :: s => (true, s)
  | '+' :: s => (false, s)
  | s => (false, s)

/-- A whole text of digits with an optional sign, within bounds. -/
def integer? (low high : Int) (s : List Char) : Option Int :=
  let (negative, body) := signOf s
  if body.isEmpty || !body.all isDigit then none
  else
    let i : Int := if negative then -digitsValue body else digitsValue body
    if low ≤ i ∧ i ≤ high then some i else none

end FluentSql.Text
