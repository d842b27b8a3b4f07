import FluentSql.Proofs.Slots.Building
import FluentSql.Proofs.Windows.Trimming
import FluentSql.Query.Run

namespace FluentSql

open Text
open Placeholders (isDigit_of_mem_numeral takeWhile_numeral)

namespace Text

variable {s rest : List Char} {n : Nat}

theorem exists_numeral_cons (n : Nat) : ∃ c s, numeral n = c :: s ∧ isDigit c := by
  cases h : numeral n with
  | nil => exact absurd h Nat.toDigits_ne_nil
  | cons c s => exact ⟨c, s, rfl, isDigit_of_mem_numeral (n := n) (by simp [h])⟩

theorem isEmpty_numeral (n : Nat) : (numeral n).isEmpty = false := by
  obtain ⟨c, s, hc, -⟩ := exists_numeral_cons n
  rw [hc]
  rfl

theorem signed_natAbs (i : Int) : (if i < 0 then -(i.natAbs : Int) else i.natAbs) = i := by
  split <;> omega

theorem toList_toString (i : Int) :
    (toString i).toList = if i < 0 then '-' :: numeral i.natAbs else numeral i.natAbs := by
  cases i with
  | ofNat n => exact String.toList_ofList
  | negSucc n =>
    rw [if_pos (Int.negSucc_lt_zero n), Int.toString_eq_repr]
    have hrepr : (Int.negSucc n).repr = "-" ++ String.ofList (numeral (n + 1)) := rfl
    simp only [hrepr, String.toList_append, String.toList_ofList, Int.natAbs_negSucc]
    rfl

theorem signOf_numeral (n : Nat) (rest : List Char) :
    signOf (numeral n ++ rest) = (false, numeral n ++ rest) := by
  obtain ⟨c, s, hc, hdigit⟩ := exists_numeral_cons n
  rw [hc, List.cons_append]
  unfold signOf
  split
  · rename_i h
    rw [(List.cons.inj h).1] at hdigit
    cases hdigit
  · rename_i h
    rw [(List.cons.inj h).1] at hdigit
    cases hdigit
  · rfl

theorem signOf_toString (i : Int) (rest : List Char) :
    signOf ((toString i).toList ++ rest) = (decide (i < 0), numeral i.natAbs ++ rest) := by
  rw [toList_toString]
  split
  · rename_i h
    simp [signOf, h]
  · rename_i h
    rw [signOf_numeral]
    simp [h]

theorem isBlank_of_head?_toString (i : Int) (rest : List Char) :
    ∀ c ∈ ((toString i).toList ++ rest).head?, isBlank c = false := by
  obtain ⟨c, s, hc, hdigit⟩ := exists_numeral_cons i.natAbs
  rw [toList_toString, hc]
  split
  · rintro _ ⟨⟩
    decide
  · rintro _ ⟨⟩
    exact isBlank_of_isDigit hdigit

theorem trimStart_append {blanks : List Char} (hb : ∀ c ∈ blanks, isBlank c)
    (hs : ∀ c ∈ s.head?, isBlank c = false) : trimStart (blanks ++ s) = s := by
  rw [trimStart, List.dropWhile_append_of_pos hb]
  cases s with
  | nil => rfl
  | cons c s => simp [hs c rfl]

end Text

/-- A text that starts with an integer: blanks, its digits with a sign, and then no further digit.
A plus sign only stands in front of what is not negative. -/
structure IntegerText where
  blanks : List Char
  plus : Bool
  number : Int64
  rest : List Char
  isBlank_blanks : ∀ c ∈ blanks, isBlank c
  nonneg_of_plus : plus → 0 ≤ number.toInt
  isDigit_rest : ∀ c ∈ rest.head?, isDigit c = false

namespace IntegerText

def text (t : IntegerText) : String :=
  String.ofList (t.blanks ++ ((if t.plus then ['+'] else []) ++ ((toString t.number.toInt).toList ++
    t.rest)))

variable (t : IntegerText)

theorem signOf_trimStart : signOf (trimStart t.text.toList) =
    (decide (t.number.toInt < 0), numeral t.number.toInt.natAbs ++ t.rest) := by
  rw [text, String.toList_ofList]
  cases hplus : t.plus with
  | false =>
    rw [if_neg Bool.false_ne_true, List.nil_append,
      trimStart_append t.isBlank_blanks (isBlank_of_head?_toString _ _), signOf_toString]
  | true =>
    have hsign : ¬ t.number.toInt < 0 := Int.not_lt.2 (t.nonneg_of_plus hplus)
    rw [if_pos rfl, trimStart_append t.isBlank_blanks (by simp; decide), toList_toString,
      if_neg hsign, decide_eq_false hsign]
    rfl

/-- Only the least integer is not read. -/
theorem leadingInteger?_text : (Value.string t.text).leadingInteger? =
    if t.number = Int64.minValue then none else some t.number := by
  have hlow : -2 ^ 63 ≤ t.number.toInt := t.number.le_toInt
  have hhigh : t.number.toInt ≤ 2 ^ 63 - 1 := t.number.toInt_le
  have hmin : t.number = Int64.minValue ↔ Value.int64High < (t.number.toInt.natAbs : Int) := by
    rw [← Int64.toInt_inj, Int64.toInt_minValue, Value.int64High]
    omega
  simp only [Value.leadingInteger?, Value.leadingDigits?, t.signOf_trimStart,
    takeWhile_numeral t.isDigit_rest, digitsValue_numeral, isEmpty_numeral, decide_eq_true_eq,
    signed_natAbs, Int64.ofInt_toInt, hmin, Bool.false_eq_true, false_or]

theorem filterMap_leadingInteger? (texts : List IntegerText) :
    (texts.map fun t ↦ Value.string t.text).filterMap Value.leadingInteger? =
      (texts.map number).filter (· ≠ Int64.minValue) := by
  induction texts with
  | nil => rfl
  | cons t texts ih =>
    rw [List.map_cons, List.filterMap_cons, t.leadingInteger?_text, ih, List.map_cons,
      List.filter_cons]
    by_cases h : t.number = Int64.minValue <;> simp [h]

end IntegerText

namespace Query

def integerMembership (g : Grammar) (column : String) (negated : Bool) (numbers : List Int64) :
    Except Error Sql :=
  if numbers = [] then .ok (if negated then "1 = 1" else "0 = 1" : String)
  else do
    let list := ", ".intercalate (numbers.map fun i ↦ toString i.toInt)
    return ((← g.wrap column) ++ (if negated then " not in " else " in ") ++ "(" ++ list ++ ")" :
      String)

theorem test_isInIntegers (g : Grammar) (column : String) (negated : Bool) (numbers : List Int64) :
    g.test (.isInIntegers column numbers negated) = integerMembership g column negated numbers := by
  cases numbers with
  | nil => cases negated <;> rfl
  | cons i numbers =>
    rw [integerMembership, if_neg (List.cons_ne_nil _ _)]
    rfl

/-- The texts of integers are read as the integers they are spelled after, and these are written
into the condition in their order, with nothing bound. Only the least integer is left out. -/
theorem integers_listed (texts : List IntegerText) :
    (∀ t ∈ texts, (Value.string t.text).leadingInteger? =
      if t.number = Int64.minValue then none else some t.number) ∧
    ∀ (q : Query) (connective : Connective) (negated : Bool) (column : String),
      let numbers := (texts.map IntegerText.number).filter (· ≠ Int64.minValue)
      let outcome := q.run [.isInIntegers connective negated column
        (texts.map fun t ↦ .value (.string t.text))]
      outcome = .done { q with
        conditions := q.conditions ++ [⟨connective, .isInIntegers column numbers negated⟩] } ∧
      outcome.1.sql = (do
        q.checked
        let joins ← q.grammar.joinList q.joins
        let conditions ← q.grammar.conditionList q.conditions
        let s ← integerMembership q.grammar column negated numbers
        let unions ← q.grammar.memberList q.unions
        q.assemble q.grammar ⟨joins, conditions ++ [(connective, s)], unions⟩) := by
  refine ⟨fun t _ ↦ t.leadingInteger?_text, ?_⟩
  intro q connective negated column numbers outcome
  have hrun : outcome =
      .done (q.addCondition connective (.isInIntegers column numbers negated)) := by
    show Outcome.done (q.addInIntegers connective negated column _) = _
    rw [List.map_map, addInIntegers]
    exact congrArg (fun numbers ↦ Outcome.done (q.addCondition connective
      (.isInIntegers column numbers negated))) (IntegerText.filterMap_leadingInteger? texts)
  refine ⟨hrun, ?_⟩
  rw [hrun, ← test_isInIntegers]
  exact select_addCondition q.grammar q connective _

/-- The least integer, alone in a list that a column should be in. -/
theorem integers_listed_lowest :
    let text := "-9223372036854775808"
    let q := (run { grammar := { dialect := .mysql } } [.source (.name "users"),
      .isInIntegers .and false "id" [.value (.string text)]]).1
    text = toString Int64.minValue.toInt ∧ (Value.string text).leadingInteger? = none ∧
      q.sql.toOption.map Sql.text = some "select * from `users` where 0 = 1" := by
  decide +kernel

end Query

end FluentSql
