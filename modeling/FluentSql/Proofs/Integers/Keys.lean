import FluentSql.Proofs.Integers.Leading
import FluentSql.Proofs.Integers.Rounding
import FluentSql.Proofs.Paging.Walking

namespace FluentSql

open Floating Session FluentSql.Action
open Text hiding integer?

namespace Value

def integer? : Value → Option Int
  | int32 i => some i.toInt
  | int64 i => some i.toInt
  | float32 x => x.integer?
  | float64 x => x.integer?
  | _ => none

/-- An integer and what a double keeps of it, if it has more than 63 bits. -/
structure Nearest (n k : Int) : Prop where
  coarse : int64High < n → 2048 ∣ k
  near : k ≤ n + 1024 ∧ n ≤ k + 1024
  exact : k = n ↔ n ≤ int64High ∨ 2048 ∣ n

variable {n : Int}

theorem ofJson_integer (h : n ≤ int64High) : ofJson (.integer n) = int64 (Int64.ofInt n) :=
  if_pos h

theorem ofJson_integer_beyond (h : int64High < n) :
    ofJson (.integer n) = float64 (Floating.ofInt .double n) :=
  if_neg (Int.not_le.2 h)

theorem ofJson_integer_cases (n : Int) :
    (∃ i, ofJson (.integer n) = int64 i) ∨ ∃ x, ofJson (.integer n) = float64 x := by
  rcases le_or_gt n int64High with h | h
  · exact .inl ⟨_, ofJson_integer h⟩
  · exact .inr ⟨_, ofJson_integer_beyond h⟩

theorem isNull_ofJson_integer (n : Int) : (ofJson (.integer n)).isNull = false := by
  rcases ofJson_integer_cases n with ⟨i, h⟩ | ⟨x, h⟩ <;> rw [h] <;> rfl

theorem ofJson_integer_ne_bool (n : Int) (b : Bool) : ofJson (.integer n) ≠ .bool b := by
  rcases ofJson_integer_cases n with ⟨i, h⟩ | ⟨x, h⟩ <;> rw [h] <;> simp

theorem toInt_ofInt (hlow : int64Low ≤ n) (hhigh : n ≤ int64High) : (Int64.ofInt n).toInt = n :=
  Int64.toInt_ofInt_of_le hlow (Int.lt_add_one_of_le hhigh)

/-- The double of an integer beyond the signed ones is not among them either. -/
theorem exists_integer?_ofInt (hbeyond : int64High < n) (hhigh : n < 2 ^ 64) :
    ∃ k, (Floating.ofInt .double n).integer? = some k ∧ int64High < k ∧ Nearest n k := by
  obtain ⟨m, rfl⟩ := Int.eq_ofNat_of_zero_le (a := n) (by unfold int64High at hbeyond; omega)
  unfold int64High at hbeyond
  have hm : 2 ^ 63 ≤ m ∧ m < 2 ^ 64 := by omega
  have hquotient : 2 ^ 52 ≤ m / 2 ^ 11 := by omega
  obtain ⟨hover, hunder, hexact⟩ := roundHalfEven_mul (n := m) (Nat.two_pow_pos 11)
  have hle : m / 2 ^ 11 ≤ roundHalfEven m (2 ^ 11) := le_roundHalfEven
  refine ⟨_, integer?_ofInt_double (k := 11) (by decide) hm.1 hm.2, ?_, ?_, ?_, ?_⟩
  case refine_1 =>
    unfold int64High
    omega
  case refine_2 =>
    intro _
    omega
  case refine_3 =>
    omega
  case refine_4 =>
    unfold int64High
    omega

theorem nearest_self (h : n ≤ int64High) : Nearest n n where
  coarse h' := absurd h (Int.not_le.2 h')
  near := by omega
  exact := by simp [h]

theorem clampInt64_ofInt (hbeyond : int64High < n) (hhigh : n < 2 ^ 64) :
    clampInt64 (Floating.ofInt .double n) = Int64.ofInt int64High := by
  obtain ⟨k, hk, hgreat, -⟩ := exists_integer?_ofInt hbeyond hhigh
  rw [clampInt64, clampTo_of_integer? _ _ hk, Int.min_eq_left (Int.le_of_lt hgreat)]
  rfl

theorem leadingInteger?_integer (hhigh : n < 2 ^ 64) :
    (json (.integer n)).leadingInteger? = some (Int64.ofInt (min n int64High)) := by
  rcases lt_or_ge int64High n with h | h
  · have hn : ¬ n ≤ int64High := Int.not_le.2 h
    simp only [leadingInteger?, if_neg hn, clampInt64_ofInt h hhigh,
      Int.min_eq_right (Int.le_of_lt h)]
  · simp only [leadingInteger?, if_pos h, Int.min_eq_left h]

theorem numericId_integer (hhigh : n < 2 ^ 64) :
    numericId (ofJson (.integer n)) = int64 (Int64.ofInt (min n int64High)) := by
  rcases lt_or_ge int64High n with h | h
  · obtain ⟨k, hk, -⟩ := exists_integer?_ofInt h hhigh
    rw [ofJson_integer_beyond h, numericId, if_pos (isWhole_of_integer? hk),
      clampInt64_ofInt h hhigh, Int.min_eq_right (Int.le_of_lt h)]
  · rw [ofJson_integer h, Int.min_eq_left h]
    rfl

theorem exists_integer?_ofJson (hlow : int64Low ≤ n) (hhigh : n < 2 ^ 64) :
    ∃ k, (ofJson (.integer n)).integer? = some k ∧ Nearest n k := by
  rcases lt_or_ge int64High n with h | h
  · obtain ⟨k, hk, -, hnear⟩ := exists_integer?_ofInt h hhigh
    exact ⟨k, by rwa [ofJson_integer_beyond h], hnear⟩
  · exact ⟨n, by rw [ofJson_integer h, integer?, toInt_ofInt hlow h], nearest_self h⟩

end Value

theorem Text.integer?_toString (low high i : Int) :
    Text.integer? low high (toString i).toList =
      if low ≤ i ∧ i ≤ high then some i else none := by
  have hsign : signOf (toString i).toList = (decide (i < 0), numeral i.natAbs) := by
    simpa using signOf_toString i []
  have hdigits : (numeral i.natAbs).all isDigit = true :=
    List.all_eq_true.2 fun _ ↦ Placeholders.isDigit_of_mem_numeral
  simp only [Text.integer?, hsign, isEmpty_numeral, hdigits, digitsValue_numeral,
    decide_eq_true_eq, signed_natAbs, Bool.not_true, Bool.or_false, Bool.false_eq_true, if_false]

theorem numericId_toString {n : Int} (hlow : Value.int64Low ≤ n) :
    numericId (.string (toString n)) =
      if n ≤ Value.int64High then .int64 (Int64.ofInt n) else .string (toString n) := by
  rw [numericId, Text.integer?_toString]
  by_cases h : n ≤ Value.int64High
  · rw [if_pos ⟨hlow, h⟩, if_pos h]
  · rw [if_neg fun h' ↦ h h'.2, if_neg h]

namespace Query

variable {σ H : Type} {d : Driver σ H} {q : Query} {record : Record Value} {size : Nat}
  {sequence : Option String} {column name : String} {goOn : Chunk → Bool} {last : Option Value}
  {j : Json} {n : Int} {s t : Session σ H} {rows : List Row}

structure Gives (d : Driver σ H) (q : Query) (record : Record Value) (sequence : Option String)
    (j : Json) (s t : Session σ H) : Prop where
  selects : s.connection.processor = .postgres ∨ s.connection.processor = .sqlServer
  answered : ∃ sql rows, q.grammar.insertGetId q record sequence = .ok sql ∧
    (selectUsing d false sql.text record.values).on s = (.ok rows, t) ∧
    (rows.head?.bind fun row ↦ row.get? (sequence.getD "id")) = some j

theorem Gives.insertGetId (h : Gives d q record sequence j s t) :
    (q.insertGetId d record sequence).on s = (.ok (numericId (.ofJson j)), t) := by
  obtain ⟨hp, sql, rows, hsql, hrows, hj⟩ := h
  unfold Query.insertGetId
  rw [hsql, orFail_ok_bind, on_current_bind]
  rcases hp with hp | hp
  · simp only [hp]
    rw [on_bind_ok hrows, hj]
    rfl
  · simp only [hp]
    rw [on_bind_ok hrows, hj]
    rfl

structure EndsWith (d : Driver σ H) (q : Query) (size : Nat) (column name : String)
    (last : Option Value) (n : Int) (s : Session σ H) (rows : List Row) (t : Session σ H) :
    Prop where
  read : ((q.pageAfter size last column).get d).on s = (.ok rows, t)
  full : rows.length = size
  key : (rows.getLast?.bind fun row ↦ row.get? name) = some (.integer n)

theorem lastKey?_integer (h : (rows.getLast?.bind fun row ↦ row.get? name) = some (.integer n)) :
    lastKey? rows name = some (.ofJson (.integer n)) := by
  rw [lastKey?, h]
  rfl

theorem EndsWith.onward (h : EndsWith d q size column name last n s rows t) {number : Nat}
    (hg : goOn ⟨number, rows⟩) (bound : Nat) :
    let rest := (q.chunkAfter d size column name goOn bound (number + 1)
      (some (.ofJson (.integer n)))).run t
    (q.chunkAfter d size column name goOn (bound + 1) number last).run s =
      ((⟨number, rows⟩ :: rest.1.1, rest.1.2), rest.2) := by
  have hr : rows ≠ [] := by
    rintro rfl
    cases h.key
  exact chunkAfter_onward h.read hr (lastKey?_integer h.key) hg h.full rfl

theorem pageAfter_integer (q : Query) (size : Nat) (column : String) (n : Int) :
    let cursor := Value.ofJson (.integer n)
    (q.pageAfter size (some cursor) column).conditions =
        q.conditions ++ [⟨.and, .basic column .greater (.bound cursor)⟩] ∧
      (q.pageAfter size (some cursor) column).bindings.conditions =
        q.bindings.conditions ++ [cursor] := by
  intro cursor
  rw [q.pageAfter_some size column (Value.isNull_ofJson_integer n)
    (Value.ofJson_integer_ne_bool n)]
  obtain ⟨c, joins, conditions, unions⟩ := q
  cases unions with
  | nil => exact ⟨rfl, rfl⟩
  | cons m ms => exact ⟨rfl, rfl⟩

/-- How pages go on after an integer: the next page is asked for after the same cursor, whatever
page it was, and no page is asked for after anything else. -/
structure GoesOn (d : Driver σ H) (n : Int) (cursor : Value) : Prop where
  key : ∀ (rows : List Row) name,
    (rows.getLast?.bind fun row ↦ row.get? name) = some (.integer n) →
      lastKey? rows name = some cursor
  onward : ∀ (q : Query) size column name goOn number last s rows t,
    EndsWith d q size column name last n s rows t → goOn ⟨number, rows⟩ → ∀ bound,
      let rest := (q.chunkAfter d size column name goOn bound (number + 1) (some cursor)).run t
      (q.chunkAfter d size column name goOn (bound + 1) number last).run s =
        ((⟨number, rows⟩ :: rest.1.1, rest.1.2), rest.2)
  condition : ∀ (q : Query) size column,
    (q.pageAfter size (some cursor) column).conditions =
      q.conditions ++ [⟨.and, .basic column .greater (.bound cursor)⟩]
  bound : ∀ (q : Query) size column,
    (q.pageAfter size (some cursor) column).bindings.conditions =
      q.bindings.conditions ++ [cursor]
  asked : ∀ (q : Query) size column key goOn bound s,
    let run := (q.chunkById d size column key goOn bound).run s
    ∀ r ∈ s.asked run.2, q.AsksPage size column (key.getD column) none run.1.1 r

theorem goesOn_integer (d : Driver σ H) (n : Int) : GoesOn d n (.ofJson (.integer n)) where
  key _ _ h := lastKey?_integer h
  onward _ _ _ _ _ _ _ _ _ _ h hg := h.onward hg
  condition q size column := (q.pageAfter_integer size column n).1
  bound q size column := (q.pageAfter_integer size column n).2
  asked _ _ _ _ _ _ _ := chunkById_asked rfl

/-- Integers that are read back are kept if they are signed ones of 64 bits. Greater ones turn into
the greatest of these as ids and in lists, though not as texts, and pages go on after the nearest
multiple of 2048. -/
theorem keys_kept (d : Driver σ H) (n : Int) (hlow : Value.int64Low ≤ n) (hhigh : n < 2 ^ 64) :
    (∃ i, (Value.json (.integer n)).leadingInteger? = some i ∧
      i.toInt = min n Value.int64High) ∧
    (∀ q record sequence s t, Gives d q record sequence (.integer n) s t →
      ∃ i, (q.insertGetId d record sequence).on s = (.ok (.int64 i), t) ∧
        i.toInt = min n Value.int64High) ∧
    (∀ q record sequence s t, Gives d q record sequence (.string (toString n)) s t →
      ∃ id, (q.insertGetId d record sequence).on s = (.ok id, t) ∧
        id = if n ≤ Value.int64High then .int64 (Int64.ofInt n) else .string (toString n)) ∧
    ∃ cursor k, cursor.integer? = some k ∧ Value.Nearest n k ∧ GoesOn d n cursor := by
  have hmin : (Int64.ofInt (min n Value.int64High)).toInt = min n Value.int64High :=
    Value.toInt_ofInt (le_min hlow (by decide)) (min_le_right _ _)
  obtain ⟨k, hk, hnear⟩ := Value.exists_integer?_ofJson hlow hhigh
  refine ⟨⟨_, Value.leadingInteger?_integer hhigh, hmin⟩, ?_, ?_,
    ⟨_, k, hk, hnear, goesOn_integer d n⟩⟩
  · intro q record sequence s t h
    exact ⟨_, by rw [h.insertGetId, Value.numericId_integer hhigh], hmin⟩
  · intro q record sequence s t h
    exact ⟨_, h.insertGetId, numericId_toString hlow⟩

def idSession (id : Json) : Session Script String where
  connection :=
    { write := "write", grammar := { dialect := .postgres }, processor := .postgres }
  world := { selects := [.ok [[("id", id)]]] }

def members : Query := { grammar := { dialect := .postgres }, source := some (.name "members") }

def memberRecord : Record Value := [("name", .bound (.string "a"))]

theorem exists_gives (id : Json) :
    ∃ t, Gives Script.driver members memberRecord none id (idSession id) t :=
  ⟨_, .inl rfl, _, [[("id", id)]], rfl, rfl, rfl⟩

theorem exists_endsWith (n : Int) : ∃ rows t,
    EndsWith Script.driver members 1 "id" "id" none n (idSession (.integer n)) rows t :=
  ⟨[[("id", .integer n)]], _, rfl, rfl, rfl⟩

theorem keys_kept_unsigned :
    let n : Int := 0x8000000000000001
    Value.int64Low ≤ n ∧ n < 2 ^ 64 ∧
      (∃ i, (Value.json (.integer n)).leadingInteger? = some i ∧ i.toInt = n - 2) ∧
      (∃ t, Gives Script.driver members memberRecord none (.integer n)
          (idSession (.integer n)) t ∧
        ∃ i, (members.insertGetId Script.driver memberRecord none).on (idSession (.integer n)) =
          (.ok (.int64 i), t) ∧ i.toInt = n - 2) ∧
      (∃ t, Gives Script.driver members memberRecord none (.string (toString n))
          (idSession (.string (toString n))) t ∧
        (members.insertGetId Script.driver memberRecord none).on
          (idSession (.string (toString n))) = (.ok (.string (toString n)), t)) ∧
      ∃ cursor k, cursor.integer? = some k ∧ k ≠ n ∧
        ∃ rows t, EndsWith Script.driver members 1 "id" "id" none n (idSession (.integer n))
            rows t ∧
          (members.chunkAfter Script.driver 1 "id" "id" (fun _ ↦ true) 2 1 none).run
              (idSession (.integer n)) =
            let rest := (members.chunkAfter Script.driver 1 "id" "id" (fun _ ↦ true) 1 2
              (some cursor)).run t
            ((⟨1, rows⟩ :: rest.1.1, rest.1.2), rest.2) := by
  intro n
  have hlow : Value.int64Low ≤ n := by decide
  have hhigh : n < 2 ^ 64 := by decide
  obtain ⟨hlisted, hreturned, hspelled, cursor, k, hk, hnear, hgoes⟩ :=
    keys_kept Script.driver n hlow hhigh
  obtain ⟨t, ht⟩ := exists_gives (.integer n)
  obtain ⟨u, hu⟩ := exists_gives (.string (toString n))
  obtain ⟨rows, v, hv⟩ := exists_endsWith n
  refine ⟨hlow, hhigh, hlisted, ⟨t, ht, hreturned _ _ _ _ _ ht⟩, ⟨u, hu, ?_⟩,
    cursor, k, hk, ?_, rows, v, hv, ?_⟩
  · obtain ⟨id, hid, rfl⟩ := hspelled _ _ _ _ _ hu
    exact hid
  · intro h
    exact absurd (hnear.exact.1 h) (by decide)
  · exact hgoes.onward _ _ _ _ _ _ _ _ _ _ hv rfl 1

/-- An id and a key that no signed integer of 64 bits is, nor any double. -/
theorem keys_kept_altered :
    let n : Int := 0x8000000000000001
    let s := idSession (.integer n)
    let insert := (members.insertGetId Script.driver memberRecord none).on s
    let pages := (members.chunkById Script.driver 1 "id" none (fun _ ↦ true) 2).run s
    (Value.json (.integer n)).leadingInteger?.map Int64.toInt = some (n - 2) ∧
      insert.1.toOption.map Value.integer? = some (some (n - 2)) ∧
      (s.asked pages.2).map (fun r ↦ r.bindings.map Value.integer?) = [[], [some (n - 1)]] := by
  decide +kernel

end Query

end FluentSql
