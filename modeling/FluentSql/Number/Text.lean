import FluentSql.Number.Shortest
import FluentSql.Text.Digits

namespace FluentSql.Floating

open Text

def Decimal.positional (d : Decimal) : List Char :=
  let ds := numeral d.digits
  let places := (-d.exponent).toNat
  if places = 0 then ds ++ List.replicate d.exponent.toNat '0'
  else
    let ds := padded (places + 1) ds
    ds.take (ds.length - places) ++ '.' :: ds.drop (ds.length - places)

def Decimal.scientific (d : Decimal) : List Char :=
  let ds := numeral d.digits
  let e := d.exponent + (ds.length - 1 : Nat)
  let sign := if e < 0 then '-' else '+'
  let fraction := if ds.length = 1 then [] else '.' :: ds.drop 1
  ds.take 1 ++ fraction ++ ['e', sign] ++ numeral e.natAbs

def signed (negative : Bool) (s : List Char) : List Char :=
  if negative then '-' :: s else s

def plain (f : Format) : Floating → String
  | nan => "NaN"
  | infinite negative => String.ofList (signed negative ['i', 'n', 'f'])
  | finite negative m e => String.ofList (signed negative (shortest f .up m e).positional)

structure Layout where
  format : Format
  least : Int
  greatest : Int

def Layout.single : Layout := ⟨.single, -6, 12⟩

def Layout.double : Layout := ⟨.double, -5, 15⟩

def documentText (l : Layout) : Floating → Option String
  | finite negative m e =>
    let d := shortest l.format .even m e
    let order := d.exponent + ((numeral d.digits).length - 1 : Nat)
    let body :=
      if order < l.least ∨ l.greatest < order then d.scientific
      else if 0 ≤ d.exponent then d.positional ++ ['.', '0']
      else d.positional
    some (String.ofList (signed negative body))
  | _ => none

/-- The number nearest to `± n * 10 ^ k`. Far outside the range no power is formed. -/
def ofDecimal (f : Format) (negative : Bool) (n : Nat) (k : Int) : Floating :=
  let order := k + (numeral n).length
  if n = 0 ∨ order < -400 then zero negative
  else if 400 < order then infinite negative
  else ofRatio f negative (n * Nat.pow 10 k.toNat) (Nat.pow 10 (-k).toNat)

def read? (f : Format) (s : List Char) : Option Floating :=
  let (negative, body) := signOf s
  let name := body.map Char.toLower
  if name = ['n', 'a', 'n'] then some nan
  else if name = ['i', 'n', 'f'] ∨ name = "infinity".toList then some (infinite negative)
  else
    let whole := body.takeWhile isDigit
    let rest := body.dropWhile isDigit
    let (fraction, rest) := match rest with
      | '.' :: t => (t.takeWhile isDigit, t.dropWhile isDigit)
      | _ => ([], rest)
    if whole.isEmpty && fraction.isEmpty then none
    else
      let n := digitsValue (whole ++ fraction)
      match rest with
      | [] => some (ofDecimal f negative n (-(fraction.length : Int)))
      | c :: t =>
        let (below, e) := signOf t
        if (c == 'e' || c == 'E') && !e.isEmpty && e.all isDigit then
          let k : Int := if below then -(digitsValue e) else digitsValue e
          some (ofDecimal f negative n (k - fraction.length))
        else none

end FluentSql.Floating
