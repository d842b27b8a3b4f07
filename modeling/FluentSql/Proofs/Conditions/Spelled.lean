import FluentSql.Query.Run
import FluentSql.Proofs.Lexing.Splitting

namespace FluentSql

namespace DynamicWhere

open Text

def isSmall (c : Char) : Bool := 'a' ≤ c && c ≤ 'z'

def isPlain (c : Char) : Bool := isSmall c || isDigit c

def joint : Connective → List Char
  | .and => ['A', 'n', 'd']
  | .or => ['O', 'r']

def smallJoint : Connective → List Char
  | .and => ['a', 'n', 'd']
  | .or => ['o', 'r']

/-- A letter, then letters and digits. The words `and` and `or` are left out. -/
structure Word where
  first : Char
  rest : List Char
  isSmall_first : isSmall first
  isPlain_rest : ∀ c ∈ rest, isPlain c
  ne_smallJoint : ∀ connective, first :: rest ≠ smallJoint connective

namespace Word

def letters (w : Word) : List Char := w.first :: w.rest

def studly (w : Word) : List Char := w.first.toUpper :: w.rest

end Word

structure Column where
  first : Word
  later : List Word

namespace Column

def name (c : Column) : String :=
  String.ofList (c.first.letters ++ c.later.flatMap fun w ↦ '_' :: w.letters)

def studly (c : Column) : List Char :=
  (c.first :: c.later).flatMap Word.studly

end Column

/-- One or more columns, with a connective in front of each but the first. -/
structure Spelling where
  first : Column
  later : List (Column × Connective)

namespace Spelling

/-- The first column is joined by `and`, whatever it is joined to. -/
def columns (s : Spelling) : List (String × Connective) :=
  ((s.first, .and) :: s.later).map fun (c, connective) ↦ (c.name, connective)

def joined (later : List (Column × Connective)) : List Char :=
  later.flatMap fun (c, connective) ↦ joint connective ++ c.studly

theorem joined_cons (c : Column) (connective : Connective) (later : List (Column × Connective)) :
    joined ((c, connective) :: later) = joint connective ++ (c.studly ++ joined later) := by
  rw [joined, List.flatMap_cons, List.append_assoc]
  rfl

def method (s : Spelling) : String :=
  String.ofList ("where".toList ++ (s.first.studly ++ joined s.later))

end Spelling

section characters

variable {c : Char} {P : Char → Prop}

theorem of_isPlain (h : ∀ n < 128, isPlain (Char.ofNat n) → P (Char.ofNat n)) (hc : isPlain c) :
    P c := by
  have hz : c ≤ 'z' ∨ c ≤ '9' := by
    simp only [isPlain, isSmall, isDigit, Bool.or_eq_true, Bool.and_eq_true, decide_eq_true_eq]
      at hc
    exact hc.imp And.right And.right
  have hlt : c.toNat < 128 := by
    obtain hz | h9 := hz
    · exact Nat.lt_of_le_of_lt hz (by decide)
    · exact Nat.lt_of_le_of_lt h9 (by decide)
  have := h c.toNat hlt
  rw [Char.ofNat_toNat] at this
  exact this hc

theorem isPlain_of_isSmall (h : isSmall c) : isPlain c := by
  rw [isPlain, h, Bool.true_or]

theorem spoken_of_isPlain (h : isPlain c) :
    isCapital c = false ∧ isUpper c = false ∧ isBlank c = false ∧ lower c = [c] :=
  of_isPlain
    (P := fun c ↦ isCapital c = false ∧ isUpper c = false ∧ isBlank c = false ∧ lower c = [c])
    (by decide +kernel) h

theorem isCapital_of_isPlain (h : isPlain c) : isCapital c = false := (spoken_of_isPlain h).1

theorem isUpper_of_isPlain (h : isPlain c) : isUpper c = false := (spoken_of_isPlain h).2.1

theorem isBlank_of_isPlain (h : isPlain c) : isBlank c = false := (spoken_of_isPlain h).2.2.1

theorem lower_of_isPlain (h : isPlain c) : lower c = [c] := (spoken_of_isPlain h).2.2.2

/-- The capital of a letter begins a word, and is lowered to that letter. -/
theorem capital_of_isSmall (h : isSmall c) :
    isCapital c.toUpper ∧ isUpper c.toUpper ∧ isBlank c.toUpper = false ∧ lower c.toUpper = [c] :=
  of_isPlain
    (P := fun c ↦ isSmall c →
      isCapital c.toUpper ∧ isUpper c.toUpper ∧ isBlank c.toUpper = false ∧ lower c.toUpper = [c])
    (by decide +kernel) (isPlain_of_isSmall h) h

theorem isCapital_toUpper (h : isSmall c) : isCapital c.toUpper := (capital_of_isSmall h).1

theorem isUpper_toUpper (h : isSmall c) : isUpper c.toUpper := (capital_of_isSmall h).2.1

theorem isBlank_toUpper (h : isSmall c) : isBlank c.toUpper = false := (capital_of_isSmall h).2.2.1

theorem lower_toUpper (h : isSmall c) : lower c.toUpper = [c] := (capital_of_isSmall h).2.2.2

end characters

section scanning

variable {c : Char} {s t u : List Char} {before connective : Connective}
  {columns : List (List Char × Connective)}

def Opens (s : List Char) : Prop := ∀ c ∈ s.head?, isCapital c

theorem connective?_eq_some (h : connective? s = some (connective, t)) :
    s = joint connective ++ t ∧ Opens t := by
  unfold connective? at h
  split at h
  · split at h
    · cases h
      exact ⟨rfl, by simpa [Opens]⟩
    · cases h
  · split at h
    · cases h
      exact ⟨rfl, by simpa [Opens]⟩
    · cases h
  · cases h

theorem takeWhile_plain (hs : ∀ c ∈ s, isPlain c) (ht : Opens t) :
    (s ++ t).takeWhile (fun c ↦ !isCapital c) = s := by
  have hnone : t.takeWhile (fun c ↦ !isCapital c) = [] := by
    cases t with
    | nil => rfl
    | cons c t => simp [ht c rfl]
  rw [List.takeWhile_append_of_pos fun c hc ↦ by simp [isCapital_of_isPlain (hs c hc)], hnone,
    List.append_nil]

/-- A connective is spelled like a word that starts with a capital. -/
theorem joint_eq (connective : Connective) : ∃ c s, joint connective = c.toUpper :: s ∧
    smallJoint connective = c :: s ∧ isSmall c ∧ ∀ d ∈ s, isPlain d :=
  match connective with
  | .and => ⟨'a', ['n', 'd'], rfl, rfl, rfl, List.all_eq_true.1 rfl⟩
  | .or => ⟨'o', ['r'], rfl, rfl, rfl, List.all_eq_true.1 rfl⟩

theorem connective?_of_isPlain (hc : isPlain c) (s : List Char) : connective? (c :: s) = none := by
  cases hk : connective? (c :: s) with
  | none => rfl
  | some found =>
    obtain ⟨d, rest, hjoint, -, hd, -⟩ := joint_eq found.1
    obtain ⟨heq, -⟩ := connective?_eq_some hk
    rw [hjoint] at heq
    rw [(List.cons.inj heq).1] at hc
    exact absurd (isCapital_toUpper hd) (by simp [isCapital_of_isPlain hc])

/-- No connective starts where a word starts, for the word would be that connective. -/
theorem connective?_studly (w : Word) (hs : Opens s) : connective? (w.studly ++ s) = none := by
  cases hk : connective? (w.studly ++ s) with
  | none => rfl
  | some found =>
    obtain ⟨c, rest, hjoint, hsmall, hc, hplain⟩ := joint_eq found.1
    obtain ⟨heq, ht⟩ := connective?_eq_some hk
    rw [hjoint] at heq
    obtain ⟨hupper, htail⟩ := List.cons.inj heq
    have hfirst : [w.first] = [c] := by
      rw [← lower_toUpper w.isSmall_first, hupper, lower_toUpper hc]
    -- both texts go on with a capital, so the small ones in front of it are the same
    have hrest : w.rest = rest :=
      calc w.rest
        _ = (w.rest ++ s).takeWhile (fun c ↦ !isCapital c) :=
          (takeWhile_plain w.isPlain_rest hs).symm
        _ = (rest ++ found.2).takeWhile (fun c ↦ !isCapital c) :=
          congrArg (List.takeWhile fun c ↦ !isCapital c) htail
        _ = rest := takeWhile_plain hplain ht
    refine absurd ?_ (w.ne_smallJoint found.1)
    rw [List.singleton_inj.1 hfirst, hrest, hsmall]

theorem split_cons (hc : connective? (c :: s) = none)
    (hs : split before 0 s = (t, before) :: columns) :
    split before 0 (c :: s) = (c :: t, before) :: columns := by
  rw [split, hc, hs]
  rfl

theorem split_plain (hs : ∀ c ∈ s, isPlain c) (ht : split before 0 t = (u, before) :: columns) :
    split before 0 (s ++ t) = (s ++ u, before) :: columns := by
  induction s with
  | nil => exact ht
  | cons c s ih =>
    obtain ⟨hc, hs⟩ := List.forall_mem_cons.1 hs
    exact split_cons (connective?_of_isPlain hc _) (ih hs)

theorem split_studly (w : Word) (hs : Opens s) (ht : split before 0 s = (t, before) :: columns) :
    split before 0 (w.studly ++ s) = (w.studly ++ t, before) :: columns :=
  split_cons (connective?_studly w hs) (split_plain w.isPlain_rest ht)

theorem opens_studly (w : Word) (s : List Char) : Opens (w.studly ++ s) := by
  rintro c ⟨⟩
  exact isCapital_toUpper w.isSmall_first

theorem opens_words (ws : List Word) (hs : Opens s) : Opens (ws.flatMap Word.studly ++ s) := by
  cases ws with
  | nil => exact hs
  | cons w ws =>
    rw [List.flatMap_cons, List.append_assoc]
    exact opens_studly w _

theorem split_words (ws : List Word) (hs : Opens s)
    (ht : split before 0 s = (t, before) :: columns) :
    split before 0 (ws.flatMap Word.studly ++ s) =
      (ws.flatMap Word.studly ++ t, before) :: columns := by
  induction ws with
  | nil => exact ht
  | cons w ws ih =>
    rw [List.flatMap_cons, List.append_assoc, List.append_assoc]
    exact split_studly w (opens_words ws hs) ih

theorem split_joint (hs : s ≠ []) (ho : Opens s) :
    split before 0 (joint connective ++ s) = ([], before) :: split connective 0 s := by
  obtain ⟨c, s, rfl⟩ := List.exists_cons_of_ne_nil hs
  have hc : isCapital c := ho c rfl
  cases connective <;> simp [joint, split, connective?, hc]

theorem opens_joined (later : List (Column × Connective)) : Opens (Spelling.joined later) := by
  cases later with
  | nil => simp [Opens, Spelling.joined]
  | cons entry later =>
    obtain ⟨column, connective⟩ := entry
    obtain ⟨c, rest, hjoint, -, hc, -⟩ := joint_eq connective
    rw [Spelling.joined_cons, hjoint]
    rintro d ⟨⟩
    exact isCapital_toUpper hc

/-- The columns as they were spelled. The induction needs any connective in front of the first. -/
theorem split_spelled (before : Connective) (first : Column) (later : List (Column × Connective)) :
    split before 0 (first.studly ++ Spelling.joined later) =
      ((first, before) :: later).map fun (c, connective) ↦ (c.studly, connective) := by
  induction later generalizing before first with
  | nil =>
    have h : split before 0 (Spelling.joined []) = [([], before)] := rfl
    rw [Column.studly, split_words _ (opens_joined []) h, List.append_nil]
    rfl
  | cons entry later ih =>
    obtain ⟨column, connective⟩ := entry
    have hne : column.studly ++ Spelling.joined later ≠ [] := by simp [Column.studly, Word.studly]
    have hopens : Opens (column.studly ++ Spelling.joined later) :=
      opens_words _ (opens_joined later)
    have h : split before 0 (Spelling.joined ((column, connective) :: later)) =
        ([], before) :: split connective 0 (column.studly ++ Spelling.joined later) := by
      rw [Spelling.joined_cons]
      exact split_joint hne hopens
    rw [Column.studly, split_words _ (opens_joined _) h, ih, List.append_nil]
    rfl

end scanning

section naming

def snakeLater (c : Char) : List Char :=
  if isUpper c then '_' :: lower c else lower c

theorem flatMap_snakeLater {s : List Char} (hs : ∀ c ∈ s, isPlain c) :
    s.flatMap snakeLater = s := by
  induction s with
  | nil => rfl
  | cons c s ih =>
    obtain ⟨hc, hs⟩ := List.forall_mem_cons.1 hs
    rw [List.flatMap_cons, ih hs, snakeLater, isUpper_of_isPlain hc, lower_of_isPlain hc]
    rfl

theorem flatMap_snakeLater_studly (w : Word) :
    w.studly.flatMap snakeLater = '_' :: w.letters := by
  rw [Word.studly, List.flatMap_cons, flatMap_snakeLater w.isPlain_rest, snakeLater,
    if_pos (isUpper_toUpper w.isSmall_first), lower_toUpper w.isSmall_first]
  rfl

theorem filter_isBlank_studly (w : Word) : w.studly.filter (fun c ↦ !isBlank c) = w.studly := by
  rw [List.filter_eq_self, Word.studly, List.forall_mem_cons]
  exact ⟨by simp [isBlank_toUpper w.isSmall_first],
    fun c hc ↦ by simp [isBlank_of_isPlain (w.isPlain_rest c hc)]⟩

theorem columnName_studly (c : Column) : columnName c.studly = c.name := by
  have hblank : c.studly.filter (fun c ↦ !isBlank c) = c.studly := by
    rw [Column.studly, List.filter_flatMap]
    exact List.flatMap_congr fun w _ ↦ filter_isBlank_studly w
  have hsnake : snake c.studly = c.first.letters ++ c.later.flatMap fun w ↦ '_' :: w.letters :=
    calc snake c.studly
      _ = lower c.first.first.toUpper ++
          (c.first.rest ++ c.later.flatMap Word.studly).flatMap snakeLater := rfl
      _ = c.first.letters ++ c.later.flatMap fun w ↦ w.studly.flatMap snakeLater := by
          rw [lower_toUpper c.first.isSmall_first, List.flatMap_append,
            flatMap_snakeLater c.first.isPlain_rest, List.flatMap_assoc]
          rfl
      _ = c.first.letters ++ c.later.flatMap fun w ↦ '_' :: w.letters := by
          rw [funext flatMap_snakeLater_studly]
  rw [columnName, hblank, hsnake, Column.name]

theorem isPlain_of_mem_letters {w : Word} {c : Char} (h : c ∈ w.letters) : isPlain c := by
  obtain rfl | h := List.mem_cons.1 h
  · exact isPlain_of_isSmall w.isSmall_first
  · exact w.isPlain_rest c h

theorem isJsonSelector_name (c : Column) : Quoting.isJsonSelector c.name.toList = false := by
  rw [Quoting.isJsonSelector, ← Bool.not_eq_true, contains_iff]
  intro h
  have hdash : '-' ∈ c.name.toList := h.subset (List.mem_cons_self)
  have hplain {w : Word} : '-' ∉ w.letters := fun hw ↦
    absurd (isPlain_of_mem_letters hw) (by decide)
  simp [Column.name, hplain] at hdash

end naming

theorem toList_method (s : Spelling) :
    s.method.toList = ['w', 'h', 'e', 'r', 'e'] ++ (s.first.studly ++ Spelling.joined s.later) := by
  have hwhere : "where".toList = ['w', 'h', 'e', 'r', 'e'] := by decide
  unfold Spelling.method
  rw [String.toList_ofList, hwhere]

theorem parse_method (s : Spelling) : parse s.method = .ok s.columns := by
  have hsome (c : Column) : c.studly.isEmpty = false := rfl
  rw [parse, toList_method]
  simp only [List.cons_append, List.nil_append, split_spelled]
  rw [if_neg]
  · rw [List.map_map, Spelling.columns]
    exact congrArg Except.ok <| List.map_congr_left fun entry _ ↦ by simp [columnName_studly]
  · simp [hsome]

/-- No two lists of columns are spelled alike. -/
theorem columns_eq_of_method_eq {s t : Spelling} (h : s.method = t.method) :
    s.columns = t.columns := by
  have hs := parse_method s
  rw [h, parse_method t] at hs
  exact (Except.ok.inj hs).symm

end DynamicWhere

namespace Bindings

variable (b : Bindings) (kind : ClauseKind)

@[simp] theorem extend_nil : b.extend kind [] = b := by
  cases kind <;> simp [extend, set, get]

@[simp] theorem extend_extend (values later : List Value) :
    (b.extend kind values).extend kind later = b.extend kind (values ++ later) := by
  cases kind <;> simp [extend, set, get]

end Bindings

namespace Query

open DynamicWhere (Spelling)

/-- A column compared with a value: by `is null` with null, for equality with any other. -/
def matching : (String × Connective) × Value → Condition Query
  | ((column, connective), v) =>
    ⟨connective, if v.isNull then .null column false else .basic column .equal (.bound v)⟩

def withMatching (q : Query) (entries : List ((String × Connective) × Value)) : Query :=
  { q with
    conditions := q.conditions ++ entries.map matching
    bindings := q.bindings.extend .conditions ((entries.map Prod.snd).filter fun v ↦ !v.isNull) }

variable (q : Query)

theorem withMatching_nil : q.withMatching [] = q := by
  cases q
  simp [withMatching]

theorem withMatching_append (entries later : List ((String × Connective) × Value)) :
    (q.withMatching entries).withMatching later = q.withMatching (entries ++ later) := by
  simp [withMatching]

theorem addComparison_eq_withMatching {column : String}
    (h : Quoting.isJsonSelector column.toList = false) (connective : Connective) (v : Value) :
    q.addComparison connective column .equal (.bound v) =
      q.withMatching [((column, connective), v)] := by
  cases hv : v.isNull with
  | true =>
    have hnull : q.addComparison connective column .equal (.bound v) =
        q.addNull connective column false := by
      have hequal : Operator.equal.isEquality = true := by decide
      simp only [addComparison, Operand.isNull, hv, hequal, if_true]
    rw [hnull]
    simp [addNull, addCondition, withMatching, matching, hv]
  | false =>
    have hbasic : q.addComparison connective column .equal (.bound v) =
        q.addTest connective (.basic column .equal (.bound v)) [v] := by
      cases v with
      | null => cases hv
      | bool b => simp [addComparison, Operand.isNull, Value.isNull, h, Operand.values]
      | _ => rfl
    rw [hbasic]
    simp [addTest, bind, addCondition, withMatching, matching, hv]

/-- The comparisons of a call, one after the other, for names that select nothing inside of JSON. -/
theorem foldl_addComparison (entries : List ((String × Connective) × Value))
    (h : ∀ entry ∈ entries, Quoting.isJsonSelector entry.1.1.toList = false) :
    entries.foldl (fun q ((column, connective), v) ↦
      q.addComparison connective column .equal (.bound v)) q = q.withMatching entries := by
  induction entries generalizing q with
  | nil => exact q.withMatching_nil.symm
  | cons entry entries ih =>
    obtain ⟨⟨column, connective⟩, v⟩ := entry
    obtain ⟨hcolumn, h⟩ := List.forall_mem_cons.1 h
    rw [List.foldl_cons, ih _ h]
    simp only
    rw [addComparison_eq_withMatching q hcolumn, withMatching_append, List.singleton_append]

theorem call_eq_addDynamicWhere {method : String} (h : q.macros.get? method = none)
    (arguments : List Value) : q.call method arguments = q.addDynamicWhere method arguments := by
  rw [call, callDepth, callWithin, h]

theorem isJsonSelector_of_mem_columns {s : Spelling} {entry : String × Connective}
    (h : entry ∈ s.columns) : Quoting.isJsonSelector entry.1.toList = false := by
  obtain ⟨⟨column, connective⟩, -, rfl⟩ := List.mem_map.1 h
  exact DynamicWhere.isJsonSelector_name column

/-- A method name that is spelled after columns is read as these columns with their connectives,
and a call of it compares each with an argument. Further arguments do not count, and with too few of
them nothing is added. -/
theorem call_spelled (s : Spelling) :
    DynamicWhere.parse s.method = .ok s.columns ∧
    ∀ (q : Query) (arguments : List Value), q.macros.get? s.method = none →
      (s.columns.length ≤ arguments.length →
        q.call s.method arguments = .done { q with
          conditions := q.conditions ++ (s.columns.zip arguments).map matching
          bindings := q.bindings.extend .conditions
            ((arguments.take s.columns.length).filter fun v ↦ !v.isNull) }) ∧
      (arguments.length < s.columns.length →
        q.call s.method arguments =
          (q, some (.invalid (.tooFewArguments s.method s.columns.length arguments.length)))) := by
  refine ⟨DynamicWhere.parse_method s, fun q arguments hmacro ↦ ?_⟩
  rw [call_eq_addDynamicWhere q hmacro, addDynamicWhere, DynamicWhere.parse_method]
  refine ⟨fun hlength ↦ ?_, fun hlength ↦ if_pos hlength⟩
  have htaken : (s.columns.zip arguments).map Prod.snd = arguments.take s.columns.length := by
    rw [List.zip_eq_zip_take_min, Nat.min_eq_left hlength, List.take_length,
      List.map_snd_zip (List.length_take_le _ _)]
  have hplain : ∀ entry ∈ s.columns.zip arguments,
      Quoting.isJsonSelector entry.1.1.toList = false := fun entry hentry ↦
    isJsonSelector_of_mem_columns (List.of_mem_zip hentry).1
  simp only
  rw [if_neg (Nat.not_lt.2 hlength), foldl_addComparison q _ hplain, withMatching, htaken]

def orderOrBrand : Spelling where
  first :=
    { first :=
        ⟨'o', ['r', 'd', 'e', 'r'], rfl, List.all_eq_true.1 rfl, by rintro (_ | _) <;> decide⟩
      later := [⟨'i', ['d'], rfl, List.all_eq_true.1 rfl, by rintro (_ | _) <;> decide⟩] }
  later :=
    [({ first :=
          ⟨'b', ['r', 'a', 'n', 'd'], rfl, List.all_eq_true.1 rfl, by rintro (_ | _) <;> decide⟩
        later := [] }, .or)]

theorem call_spelled_order_brand :
    let q : Query := { grammar := { dialect := .mysql } }
    orderOrBrand.method = "whereOrderIdOrBrand" ∧
    DynamicWhere.parse orderOrBrand.method = .ok [("order_id", .and), ("brand", .or)] ∧
    q.macros.get? orderOrBrand.method = none ∧ 2 ≤ [Value.int32 7, .null, .bool true].length ∧
    q.call orderOrBrand.method [.int32 7, .null, .bool true] = .done { q with
      conditions :=
        [⟨.and, .basic "order_id" .equal (.bound (.int32 7))⟩, ⟨.or, .null "brand" false⟩]
      bindings := { conditions := [.int32 7] } } ∧
    [Value.int32 7].length < 2 ∧
    q.call orderOrBrand.method [.int32 7] =
      (q, some (.invalid (.tooFewArguments orderOrBrand.method 2 1))) := by
  intro q
  have hcolumns : orderOrBrand.columns = [("order_id", .and), ("brand", .or)] := by decide
  obtain ⟨hparse, hcall⟩ := call_spelled orderOrBrand
  have hmacro : q.macros.get? orderOrBrand.method = none := rfl
  have hall := (hcall q [.int32 7, .null, .bool true] hmacro).1 (by rw [hcolumns]; decide)
  have hfew := (hcall q [.int32 7] hmacro).2 (by rw [hcolumns]; decide)
  rw [hcolumns] at hparse hall hfew
  exact ⟨by decide, hparse, hmacro, by decide, hall, by decide, hfew⟩

end Query

end FluentSql
