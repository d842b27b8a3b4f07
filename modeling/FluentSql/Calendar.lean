import FluentSql.Text.Digits

namespace FluentSql

open Text

structure Date where
  year : Int
  month : Nat
  day : Nat
  deriving DecidableEq

/-- Within a leap second the nanoseconds run on above one billion. -/
structure TimeOfDay where
  hour : Nat
  minute : Nat
  second : Nat
  nanosecond : Nat
  deriving DecidableEq

structure DateTime where
  date : Date
  time : TimeOfDay
  deriving DecidableEq

def isLeapYear (year : Int) : Bool :=
  year % 4 == 0 && (year % 100 != 0 || year % 400 == 0)

def daysInMonth (year : Int) (month : Nat) : Nat :=
  if month = 2 then if isLeapYear year then 29 else 28
  else if month = 4 ∨ month = 6 ∨ month = 9 ∨ month = 11 then 30
  else 31

def Date.of? (year : Int) (month day : Nat) : Option Date :=
  if 1 ≤ month ∧ month ≤ 12 ∧ 1 ≤ day ∧ day ≤ daysInMonth year month then some ⟨year, month, day⟩
  else none

def TimeOfDay.of? (hour minute second nanosecond : Nat) : Option TimeOfDay :=
  if hour < 24 ∧ minute < 60 ∧ second < 60 ∧
      (nanosecond < 1000000000 ∨ (second = 59 ∧ nanosecond < 2000000000)) then
    some ⟨hour, minute, second, nanosecond⟩
  else none

def fixedWidth (width n : Nat) : String :=
  String.ofList (padded width (numeral n))

/-- Four digits from year 0 to 9999; outside, a sign and at least four digits. -/
def Date.yearText (d : Date) : String :=
  if 0 ≤ d.year ∧ d.year ≤ 9999 then fixedWidth 4 d.year.toNat
  else (if d.year < 0 then "-" else "+") ++ fixedWidth 4 d.year.natAbs

def Date.monthText (d : Date) : String := fixedWidth 2 d.month

def Date.dayText (d : Date) : String := fixedWidth 2 d.day

def Date.text (d : Date) : String :=
  d.yearText ++ "-" ++ d.monthText ++ "-" ++ d.dayText

def TimeOfDay.text (t : TimeOfDay) : String :=
  fixedWidth 2 t.hour ++ ":" ++ fixedWidth 2 t.minute ++ ":" ++
    fixedWidth 2 (t.second + t.nanosecond / 1000000000)

def TimeOfDay.exactText (t : TimeOfDay) : String :=
  let n := t.nanosecond % 1000000000
  let fraction :=
    if n = 0 then ""
    else if n % 1000000 = 0 then "." ++ fixedWidth 3 (n / 1000000)
    else if n % 1000 = 0 then "." ++ fixedWidth 6 (n / 1000)
    else "." ++ fixedWidth 9 n
  t.text ++ fraction

def DateTime.text (t : DateTime) : String :=
  t.date.text ++ " " ++ t.time.text

def DateTime.exactText (t : DateTime) : String :=
  t.date.text ++ "T" ++ t.time.exactText

end FluentSql
