import FluentSql.Number.Floating

namespace FluentSql.Floating

inductive Tie where
  | up
  | even

structure Decimal where
  digits : Nat
  exponent : Int
  deriving DecidableEq, Repr

/-- The reals that read back as a number: `low` to `high` around `value`, all over `scale`. -/
structure Interval where
  low : Nat
  value : Nat
  high : Nat
  scale : Nat
  closed : Bool

def interval (f : Format) (mantissa : Nat) (exponent : Int) : Interval :=
  let spare := min (f.precision - 1 - mantissa.log2) (exponent - f.lowest).toNat
  let m := mantissa <<< spare
  let e := exponent - spare - 2
  let below := if m = 1 <<< (f.precision - 1) ∧ f.lowest < exponent - spare then 1 else 2
  let unit := 1 <<< e.toNat
  { low := (4 * m - below) * unit
    value := 4 * m * unit
    high := (4 * m + 2) * unit
    scale := 1 <<< (-e).toNat
    closed := m % 2 == 0 }

def Interval.holds (i : Interval) (n d : Nat) : Bool :=
  let x := n * i.scale
  if i.closed then i.low * d ≤ x && x ≤ i.high * d else i.low * d < x && x < i.high * d

def Interval.onGrid? (i : Interval) (tie : Tie) (k : Int) : Option Decimal :=
  let up := Nat.pow 10 k.toNat
  let down := Nat.pow 10 (-k).toNat
  let n := i.value * down
  let d := i.scale * up
  let q := n / d
  let r := n % d
  let below := i.holds (q * up) down
  let above := i.holds ((q + 1) * up) down
  let upward := d < 2 * r || (2 * r == d && match tie with
    | .up => true
    | .even => q % 2 == 1)
  if above && (upward || !below) then some ⟨q + 1, k⟩
  else if below && q != 0 then some ⟨q, k⟩
  else none

def Interval.search (i : Interval) (tie : Tie) : Nat → Int → Decimal
  | 0, k => ⟨0, k⟩
  | tries + 1, k =>
    match i.onGrid? tie k with
    | some d => d
    | none => i.search tie tries (k - 1)

def Decimal.strip : Nat → Decimal → Decimal
  | 0, d => d
  | n + 1, d =>
    if d.digits ≠ 0 ∧ d.digits % 10 = 0 then strip n ⟨d.digits / 10, d.exponent + 1⟩ else d

/-- A power of ten above the number starts the search; eighteen digits are always enough. -/
def shortest (f : Format) (tie : Tie) (mantissa : Nat) (exponent : Int) : Decimal :=
  if mantissa = 0 then ⟨0, 0⟩
  else
    let start := (mantissa.log2 + 1 + exponent) * 30103 / 100000 + 1
    (interval f mantissa exponent |>.search tie 24 start).strip 24

end FluentSql.Floating
