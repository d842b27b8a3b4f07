namespace FluentSql

/-- A finite number is `± mantissa * 2 ^ exponent`, its mantissa odd, or both of them zero. -/
inductive Floating where
  | nan
  | infinite (negative : Bool)
  | finite (negative : Bool) (mantissa : Nat) (exponent : Int)
  deriving DecidableEq, Repr, Inhabited

namespace Floating

/-- A format keeps `precision` bits above `2 ^ lowest` and below `2 ^ top`. -/
structure Format where
  precision : Nat
  lowest : Int
  top : Int

def Format.single : Format := ⟨24, -149, 128⟩

def Format.double : Format := ⟨53, -1074, 1024⟩

def zero (negative : Bool) : Floating := finite negative 0 0

def reduce (negative : Bool) : Nat → Nat → Int → Floating
  | 0, m, e => finite negative m e
  | steps + 1, m, e =>
    if m = 0 then zero negative
    else if m % 2 = 0 then reduce negative steps (m / 2) (e + 1)
    else finite negative m e

def ofMantissa (negative : Bool) (m : Nat) (e : Int) : Floating :=
  reduce negative (m.log2 + 1) m e

def roundHalfEven (n d : Nat) : Nat :=
  let q := n / d
  let r := n % d
  if 2 * r < d then q else if d < 2 * r then q + 1 else if q % 2 = 0 then q else q + 1

def log2Ratio (n d : Nat) : Int :=
  let k := (n.log2 : Int) - d.log2
  if d <<< k.toNat ≤ n <<< (-k).toNat then k else k - 1

def ofRatio (f : Format) (negative : Bool) (n d : Nat) : Floating :=
  if n = 0 ∨ d = 0 then zero negative
  else
    let e := max f.lowest (log2Ratio n d - (f.precision - 1))
    let m := roundHalfEven (n <<< (-e).toNat) (d <<< e.toNat)
    if f.top ≤ e + m.log2 then infinite negative else ofMantissa negative m e

def ofInt (f : Format) (i : Int) : Floating :=
  ofRatio f (i < 0) i.natAbs 1

def isFinite : Floating → Bool
  | finite .. => true
  | _ => false

def truncate? : Floating → Option Int
  | finite negative m e =>
    let whole : Nat := (m <<< e.toNat) >>> (-e).toNat
    some (if negative then -whole else whole)
  | _ => none

/-- Truncates into `low..high`; what lies outside goes to the nearer end, and not-a-number to
zero. -/
def clampTo (low high : Int) : Floating → Int
  | nan => 0
  | infinite negative => if negative then low else high
  | x => max low (min high (x.truncate?.getD 0))

def isWhole : Floating → Bool
  | finite _ _ e => 0 ≤ e
  | _ => false

def isZero : Floating → Bool
  | finite _ m _ => m == 0
  | _ => false

end Floating

end FluentSql
