import FluentSql.Json.Basic

namespace FluentSql.Json

structure Numeral where
  negative : Bool
  whole : List Char
  fraction : Option (List Char)
  exponent : Option (Bool × List Char)

inductive Symbol where
  | char (c : Char)
  | unit (u : Nat)

inductive Document where
  | null
  | bool (b : Bool)
  | number (n : Numeral)
  | string (s : List Symbol)
  | array (items : List Document)
  | object (members : List (List Symbol × Document))
  deriving Inhabited

/-- An escaped high surrogate needs a low one right after it; a low one alone means nothing. -/
def textOf? : List Symbol → Option (List Char)
  | [] => some []
  | .char c :: rest => (textOf? rest).map (c :: ·)
  | .unit u :: rest =>
    if u < 0xd800 ∨ 0xdfff < u then (textOf? rest).map (Char.ofNat u :: ·)
    else if 0xdbff < u then none
    else match rest with
      | .unit v :: rest =>
        if 0xdc00 ≤ v ∧ v ≤ 0xdfff then
          (textOf? rest).map (Char.ofNat (0x10000 + (u - 0xd800) * 0x400 + (v - 0xdc00)) :: ·)
        else none
      | _ => none

def significand : Nat → List Char → Nat × List Char
  | n, [] => (n, [])
  | n, c :: rest =>
    let next := 10 * n + (c.toNat - '0'.toNat)
    if next < UInt64.size then significand next rest else (n, c :: rest)

/-- Scales by a power of ten that is itself rounded; one below `10 ^ -308` takes several steps. -/
def scale? (negative : Bool) (x : Floating) : Nat → Int → Option Floating
  | 0, _ => none
  | steps + 1, k =>
    match x with
    | .finite _ m e =>
      if m = 0 then some (.zero negative)
      else if 308 < k then none
      else
        match Floating.ofRatio .double false (Nat.pow 10 (min k.natAbs 308)) 1 with
        | .finite _ p q =>
          let n := m <<< e.toNat
          let d := 1 <<< (-e).toNat
          let power := p <<< q.toNat
          if 0 ≤ k then
            match Floating.ofRatio .double negative (n * power) d with
            | .infinite _ => none
            | y => some y
          else
            let y := Floating.ofRatio .double negative n (d * power)
            if k < -308 then scale? negative y steps (k + 308) else some y
        | _ => none
    | _ => none

/-- Integers that fit stay integers, except `-0`. Other numbers are their first digits, as a
floating point number, scaled by the power of ten that is left over. -/
def Numeral.value? (n : Numeral) : Option Json :=
  let (kept, lost) := significand 0 n.whole
  if n.fraction.isNone && n.exponent.isNone && lost.isEmpty &&
      (!n.negative || (0 < kept && kept ≤ 0x8000000000000000)) then
    some (integer (if n.negative then -kept else kept))
  else
    let (kept, unread) := significand kept (n.fraction.getD [])
    let places := (n.fraction.getD []).length - unread.length
    let start : Int := (lost.length : Int) - places
    let power := match n.exponent with
      | none => some start
      | some (below, digits) =>
        let e := Text.digitsValue digits
        if e < 0x80000000 then some (if below then start - e else start + e)
        else if kept = 0 ∨ below then none
        else some 1000
    match power with
    | none => some (number (.zero n.negative))
    | some k => (scale? n.negative (Floating.ofInt .double kept) 12 (max k (-3000))).map number

mutual

def Document.value? (depth : Nat) : Document → Option Json
  | .null => some .null
  | .bool b => some (.bool b)
  | .number n => n.value?
  | .string s => (textOf? s).map fun t ↦ .string (String.ofList t)
  | .array items => if depth = 0 then none else (values? (depth - 1) items).map .array
  | .object members =>
    if depth = 0 then none
    else (memberValues? (depth - 1) members).map fun ms ↦ .object (sortMembers ms)

def values? (depth : Nat) : List Document → Option (List Json)
  | [] => some []
  | d :: rest => do
    let j ← d.value? depth
    return j :: (← values? depth rest)

def memberValues? (depth : Nat) : List (List Symbol × Document) → Option (List (String × Json))
  | [] => some []
  | (name, d) :: rest => do
    let name ← textOf? name
    let j ← d.value? depth
    return (String.ofList name, j) :: (← memberValues? depth rest)

end

end FluentSql.Json
