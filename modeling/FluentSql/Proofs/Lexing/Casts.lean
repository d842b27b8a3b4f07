import FluentSql.Proofs.Lexing.Introduced
import FluentSql.Proofs.Lexing.Values
import FluentSql.Statement.Select

namespace FluentSql

open Text Quoting Selector Lexing Lexis

namespace Text

variable {mark before s : List Char}

theorem splitFirst?_append_mark (hm : mark ≠ []) (h : ¬ mark <:+: before ++ mark.dropLast)
    (after : List Char) : splitFirst? mark (before ++ mark ++ after) = some (before, after) := by
  have hsome : (splitFirst? mark (before ++ mark ++ after)).isSome :=
    contains_iff.2 ⟨before, after, rfl⟩
  obtain ⟨⟨b, a⟩, hsplit⟩ := Option.isSome_iff_exists.1 hsome
  have htext := eq_append_of_splitFirst? hsplit
  have hle : b.length ≤ before.length := length_le_of_splitFirst? hsplit rfl
  have hlength : b.length = before.length := by
    refine Nat.le_antisymm hle (Nat.le_of_not_lt fun hlt ↦ h ?_)
    have hpos := List.length_pos_iff.2 hm
    have hshort : b ++ mark <+: before ++ mark ++ after := ⟨a, htext.symm⟩
    have hlong : before ++ mark.dropLast <+: before ++ mark ++ after := by
      rw [List.append_assoc]
      exact List.prefix_append_right_inj before |>.2
        ((List.dropLast_prefix mark).trans (List.prefix_append mark after))
    have hprefix := List.prefix_of_prefix_length_le hshort hlong (by
      simp only [List.length_append, List.length_dropLast]
      omega)
    exact (List.infix_append' b mark []).trans (by simpa using hprefix.isInfix)
  rw [List.append_assoc, List.append_assoc] at htext
  obtain ⟨rfl, hrest⟩ := List.append_inj htext hlength.symm
  obtain rfl := List.append_cancel_left hrest
  exact hsplit

theorem replace_eq_self (hm : mark ≠ []) (h : ¬ mark <:+: s) (other : List Char) :
    replace mark other s = s := by
  rw [replace, segments_eq hm, splitFirst?_eq_none_iff.2 h]
  simp

theorem replace_append_mark (hm : mark ≠ []) (h : ¬ mark <:+: before ++ mark.dropLast)
    (hs : ¬ mark <:+: s) (other : List Char) :
    replace mark other (before ++ mark ++ s) = before ++ other ++ s := by
  rw [replace, segments_eq hm, splitFirst?_append_mark hm h]
  dsimp only
  rw [segments_eq hm, splitFirst?_eq_none_iff.2 hs]
  simp

end Text

def textArrow : List Char := ['-', '>', '>']

def Closed (s : List Char) : Prop :=
  ¬ textArrow <:+: s ∧ ∃ c, s.getLast? = some c ∧ c ≠ '-' ∧ c ≠ '>'

namespace Closed

variable {s t k : List Char}

theorem not_infix_append (h : Closed s) (ht : ¬ textArrow <:+: t) : ¬ textArrow <:+: s ++ t := by
  obtain ⟨hs, c, hlast, hc⟩ := h
  obtain ⟨front, rfl⟩ := List.getLast?_eq_some_iff.1 hlast
  have hmem : c ∉ textArrow := by simp [textArrow, hc]
  have hfront : ¬ textArrow <:+: front := fun hi ↦ hs (hi.trans (List.prefix_append ..).isInfix)
  rw [List.append_assoc]
  exact not_infix_append_cons hmem (List.cons_ne_nil _ _) hfront ht

theorem append (hs : Closed s) (ht : Closed t) : Closed (s ++ t) := by
  obtain ⟨c, hlast, hc⟩ := ht.2
  exact ⟨hs.not_infix_append ht.1, c, by rw [List.getLast?_append, hlast]; rfl, hc⟩

theorem of_notMem {front : List Char} {c : Char} (h : '>' ∉ front ++ [c]) (hc : c ≠ '-') :
    Closed (front ++ [c]) := by
  refine ⟨fun hi ↦ h (hi.subset (by decide)), c, List.getLast?_concat, hc, ?_⟩
  rintro rfl
  exact h (by simp)

theorem of_int64? {i : Int} (h : int64? s = some i) : Closed s := by
  obtain ⟨digits, hne, hdigits, hs⟩ := exists_digits_of_integer? h
  obtain ⟨front, c, rfl⟩ := (List.eq_nil_or_concat digits).resolve_left hne
  rw [List.concat_eq_append] at hdigits hs
  have harrow : '>' ∉ front ++ [c] := fun hm ↦ absurd (hdigits _ hm) (by decide)
  have hc : c ≠ '-' := by
    rintro rfl
    exact absurd (hdigits '-' (by simp)) (by decide)
  rcases hs with rfl | ⟨sign, hsign, rfl⟩
  · exact of_notMem harrow hc
  · rw [← List.cons_append]
    refine of_notMem (fun hm ↦ ?_) hc
    rcases List.mem_cons.1 hm with rfl | hm
    · exact absurd hsign (by decide)
    · exact harrow hm

theorem of_key (h : ¬ arrow <:+: s) : Closed ('\x27' :: double '\x27' s ++ ['\x27']) := by
  have hdouble : ¬ arrow <:+: double '\x27' s := by
    rw [← splitFirst?_eq_none_iff, splitFirst?_double (by decide) (by decide),
      splitFirst?_eq_none_iff.2 h]
    rfl
  have hbody : ¬ textArrow <:+: double '\x27' s := fun hi ↦
    hdouble ((List.prefix_append arrow ['>']).isInfix.trans hi)
  have hopen : ¬ textArrow <:+: [] ++ '\x27' :: double '\x27' s :=
    not_infix_append_cons (by decide) (by decide) (by decide) hbody
  have hquoted : ¬ textArrow <:+: '\x27' :: double '\x27' s ++ '\x27' :: [] :=
    not_infix_append_cons (by decide) (by decide) hopen (by decide)
  exact ⟨hquoted, '\x27', List.getLast?_concat, by decide⟩

theorem of_accessor (h : ¬ arrow <:+: s) : Closed (accessor s) := by
  unfold accessor
  split
  · rename_i hi
    obtain ⟨i, hi⟩ := Option.isSome_iff_exists.1 hi
    exact of_int64? hi
  · exact of_key h

theorem of_mem_accessors (h : ¬ arrow <:+: s) (hk : k ∈ accessors s) : Closed k := by
  unfold accessors at hk
  split at hk
  · rename_i key brackets hs
    obtain ⟨rfl, -, -⟩ := splitBrackets?_eq_some hs
    dsimp only at hk
    split at hk
    · rename_i hall
      rcases List.mem_append.1 hk with hk | hk
      · have hkey : ¬ arrow <:+: key := fun hi ↦ h (hi.trans (List.prefix_append ..).isInfix)
        split at hk
        · cases hk
        · rw [List.mem_singleton.1 hk]
          exact of_accessor hkey
      · obtain ⟨i, hi⟩ := Option.isSome_iff_exists.1 (List.all_eq_true.1 hall k hk)
        exact of_int64? hi
    · rw [List.mem_singleton.1 hk]
      exact of_accessor h
  · rw [List.mem_singleton.1 hk]
    exact of_accessor h

theorem arrow_append (hk : Closed k) (hhead : ∃ c r, k = c :: r ∧ c ≠ '>') :
    Closed ('-' :: '>' :: k) := by
  obtain ⟨c, r, rfl, hc⟩ := hhead
  obtain ⟨hfree, e, hlast, he⟩ := hk
  refine ⟨?_, e, by rw [List.getLast?_cons_cons, List.getLast?_cons_cons, hlast], he⟩
  rw [List.infix_cons_iff, List.infix_cons_iff, not_or, not_or]
  refine ⟨fun hp ↦ hc ?_, fun hp ↦ ?_, hfree⟩
  · simpa [textArrow, eq_comm] using hp
  · simp [textArrow] at hp

end Closed

def documentSteps (keys : List (List Char)) : List Char :=
  keys.flatMap fun key ↦ '-' :: '>' :: key

theorem steps_append_singleton (keys : List (List Char)) (last : List Char) :
    steps (keys ++ [last]) = documentSteps keys ++ textArrow ++ last := by
  induction keys with
  | nil => rfl
  | cons key keys ih =>
    have hcons : steps (key :: keys ++ [last]) = '-' :: '>' :: key ++ steps (keys ++ [last]) := by
      cases keys <;> rfl
    rw [hcons, ih]
    simp [documentSteps]

theorem head?_written {keys : List (List Char)} {accessors : List Accessor}
    (h : List.Forall₂ Selector.Written keys accessors) {k : List Char} (hk : k ∈ keys) :
    ∃ c r, k = c :: r ∧ c ≠ '>' := by
  induction h with
  | nil => cases hk
  | cons hkey _ ih =>
    rcases List.mem_cons.1 hk with rfl | hk
    · exact hkey.head?
    · exact ih hk

theorem Closed.append_documentSteps {s : List Char} {keys : List (List Char)} (hs : Closed s)
    (hkeys : ∀ k ∈ keys, Closed k ∧ ∃ c r, k = c :: r ∧ c ≠ '>') :
    Closed (s ++ documentSteps keys) := by
  induction keys generalizing s with
  | nil => simpa [documentSteps] using hs
  | cons key keys ih =>
    obtain ⟨hkey, hhead⟩ := hkeys key List.mem_cons_self
    have hrest := ih (hs.append (hkey.arrow_append hhead)) fun k hk ↦
      hkeys k (List.mem_cons_of_mem _ hk)
    simpa [documentSteps] using hrest

/-- The last step of a selector is read as a document instead of text. -/
theorem replace_steps {s : List Char} {keys : List (List Char)} (hs : Closed s)
    (hkeys : ∀ k ∈ keys, Closed k ∧ ∃ c r, k = c :: r ∧ c ≠ '>') :
    replace textArrow arrow (s ++ steps keys) = s ++ documentSteps keys := by
  rcases List.eq_nil_or_concat keys with rfl | ⟨front, last, rfl⟩
  · simp only [steps, documentSteps, List.flatMap_nil, List.append_nil]
    exact replace_eq_self (by decide) hs.1 arrow
  · rw [List.concat_eq_append] at hkeys ⊢
    have hfront : Closed (s ++ documentSteps front) :=
      hs.append_documentSteps fun k hk ↦ hkeys k (List.mem_append_left _ hk)
    have hlast := (hkeys last (List.mem_append_right _ List.mem_cons_self)).1
    have hbefore := hfront.not_infix_append (t := textArrow.dropLast) (by decide)
    rw [steps_append_singleton, ← List.append_assoc, ← List.append_assoc,
      replace_append_mark (by decide) hbefore hlast.1]
    simp [documentSteps, arrow]

namespace Lexing

/-- The value that a column stands for: its names, and the steps of its path, of which the last one
yields text. -/
inductive Stands (tablePrefix : List Char) : List Char → Expr → Prop
  | plain {s : List Char} : ¬ arrow <:+: s →
      Stands tablePrefix s (.column (qualified tablePrefix (s.splitOn '.')))
  | selector {field path : List Char} {groups : List (List Accessor)} {front : List Accessor}
      {last : Accessor} : ¬ arrow <:+: field →
      List.Forall₂ Selector.Leads (segments arrow path) groups →
      groups.flatten = front ++ [last] → Stands tablePrefix (field ++ arrow ++ path)
        (.access ((Expr.column (qualified tablePrefix (field.splitOn '.'))).documentAt front)
          (.step last) true)

/-- What is written for keys and indexes behind a value, read as text, as a document, and with a
cast behind the text. -/
theorem IsValue.steps {s : List Char} {e : Expr} (h : IsValue s e) {keys : List (List Char)}
    {accessors : List Accessor} (hkeys : List.Forall₂ Selector.Written keys accessors)
    (hne : keys ≠ []) : ∃ front last, accessors = front ++ [last] ∧
      IsValue (s ++ Selector.steps keys) (.access (e.documentAt front) (.step last) true) ∧
      IsValue (s ++ documentSteps keys) (.access (e.documentAt front) (.step last) false) ∧
      ∀ type : List Char, type ≠ [] → type.all isWordChar →
        IsValue (s ++ Selector.steps keys ++ ':' :: ':' :: type)
          (.access (e.documentAt front) (.cast (.step last) type) true) := by
  induction hkeys generalizing s e with
  | nil => exact absurd rfl hne
  | @cons key a keys accessors hkey hkeys ih =>
    have hstep := isPrimary_written hkey
    have hdocument := h.access hstep hkey.head? false
    cases hkeys with
    | nil =>
      refine ⟨[], a, rfl, ?_, ?_, fun type htype hword ↦ ?_⟩
      · simpa [Selector.steps, arrowChars, Expr.documentAt] using h.access hstep hkey.head? true
      · simpa [documentSteps, arrowChars, Expr.documentAt] using hdocument
      · obtain ⟨c, r, hcons, hc⟩ := hkey.head?
        have hhead : ∃ d t, key ++ ':' :: ':' :: type = d :: t ∧ d ≠ '>' :=
          ⟨c, r ++ ':' :: ':' :: type, by rw [hcons]; rfl, hc⟩
        have hcast := h.access (hstep.cast htype hword) hhead true
        simpa [Selector.steps, arrowChars, Expr.documentAt] using hcast
    | @cons key' a' keys accessors hkey' hkeys =>
      obtain ⟨front, last, he, htext, hdoc, hcast⟩ := ih hdocument (List.cons_ne_nil _ _)
      refine ⟨a :: front, last, by rw [he]; rfl, ?_, ?_, fun type htype hword ↦ ?_⟩
      · simpa [Selector.steps, arrowChars, Expr.documentAt] using htext
      · simpa [documentSteps, arrowChars, Expr.documentAt] using hdoc
      · simpa [Selector.steps, arrowChars, Expr.documentAt] using hcast type htype hword

theorem Stands.casts {tablePrefix s : List Char} {e : Expr} (h : Stands tablePrefix s e) :
    e.casts = [] := by
  cases h with
  | plain => rfl
  | selector => exact (List.append_nil _).trans (Expr.casts_documentAt _ _)

theorem Stands.trailing_eq_iff {tablePrefix s : List Char} {e : Expr}
    (h : Stands tablePrefix s e) : e.trailing = e ↔ ¬ arrow <:+: s := by
  cases h with
  | plain hs => exact ⟨fun _ ↦ hs, fun _ ↦ rfl⟩
  | @selector field path => exact ⟨nofun, fun hs ↦ absurd ⟨field, path, rfl⟩ hs⟩

theorem Stands.exists_access {tablePrefix s : List Char} {e : Expr} (h : Stands tablePrefix s e)
    (hs : arrow <:+: s) : ∃ d, e = .access d e.trailing true := by
  cases h with
  | plain hn => exact absurd hs hn
  | selector => exact ⟨_, rfl⟩

/-- What is written for a column: it is read as the value, without a cast and with one. -/
structure Prints (s : List Char) (e : Expr) : Prop where
  value : IsValue s e
  cast : ∀ type : List Char, type ≠ [] → type.all isWordChar →
    IsValue (s ++ ':' :: ':' :: type) (e.castBehind type)

theorem IsPrimary.prints {s : List Char} {names : List (List Char)}
    (h : IsPrimary s (.column names)) : Prints s (.column names) where
  value := h.isValue
  cast _ hne hword := (h.cast hne hword).isValue

end Lexing

namespace Grammar

variable {g : Grammar} {column : String}

theorem closed_columnChars (hd : g.dialect = .postgres) {s : List Char}
    (h : ¬ textArrow <:+: g.columnChars s) : Closed (g.columnChars s) := by
  obtain ⟨c, hc, hlast⟩ := exists_getLast?_spelled g.dialect (g.columnTokens_names_ne_nil s)
  rw [hd] at hc
  have hnames : c ≠ '-' ∧ c ≠ '>' := by
    rcases List.mem_pair.1 hc with rfl | rfl <;> decide
  refine ⟨h, c, ?_, hnames⟩
  rw [columnChars, column_eq]
  exact hlast

theorem postgresChain_plain {s : List Char} (hs : splitFirst? arrow s = none) :
    g.postgresChain s = g.columnChars s := by
  have hm : arrow ≠ [] := List.cons_ne_nil _ _
  rw [postgresChain, segments_eq hm, hs]
  rfl

/-- A column without an alias is written as a chain of steps, which may have none. -/
theorem wrap_eq_postgresChain (hd : g.dialect = .postgres)
    (hmark : ¬ aliasMark <:+: column.toList.map Char.toLower) :
    g.wrap column = .ok (String.ofList (g.postgresChain column.toList)) := by
  have hchain : g.unaliased column.toList = .ok (g.postgresChain column.toList) := by
    unfold unaliased
    split
    · rw [selector, hd]
    · rename_i hselector
      rw [postgresChain_plain (splitFirst?_eq_none_iff.2 fun h ↦ hselector (contains_iff.2 h))]
  rw [wrap, (Parted.plain hmark).splitAlias?_eq, Option.map_none, hchain]
  rfl

/-- Columns are written as they are read, and with documents for all steps if no text arrow comes in
with the prefix. -/
theorem exists_prints (hd : g.dialect = .postgres) (s : List Char) :
    ∃ e, Stands g.tablePrefix.toList s e ∧ Prints (g.postgresChain s) e ∧
      (¬ textArrow <:+: g.columnChars (fieldOf s) →
        IsValue (replace textArrow arrow (g.postgresChain s)) e.document) := by
  have hm : arrow ≠ [] := List.cons_ne_nil _ _
  cases hs : splitFirst? arrow s with
  | none =>
    have hprimary := isPrimary_columnChars hd s
    have hfield : fieldOf s = s := by
      rw [fieldOf, hs]
      rfl
    rw [hfield, postgresChain_plain hs]
    refine ⟨_, .plain (splitFirst?_eq_none_iff.1 hs), hprimary.prints, fun hnames ↦ ?_⟩
    rw [replace_eq_self (by decide) hnames]
    exact hprimary.isValue
  | some p =>
    obtain ⟨field, path⟩ := p
    have hfield : fieldOf s = field := by
      rw [fieldOf, hs]
      rfl
    obtain ⟨groups, hgroups, hwritten⟩ := leads_path (segments arrow path)
    have hne := flatMap_accessors_ne_nil (segments_ne_nil arrow path)
    obtain ⟨front, last, hlast, hvalue, hdocument, hcast⟩ :=
      (isPrimary_columnChars hd field).isValue.steps hwritten hne
    have hkeys : ∀ k ∈ (segments arrow path).flatMap accessors,
        Closed k ∧ ∃ c r, k = c :: r ∧ c ≠ '>' := fun k hk ↦ by
      obtain ⟨key, hkey, hmem⟩ := List.mem_flatMap.1 hk
      exact ⟨.of_mem_accessors (not_infix_of_mem_segments hm hkey) hmem, head?_written hwritten hk⟩
    have hstands : Stands g.tablePrefix.toList (field ++ arrow ++ path) _ :=
      .selector (not_infix_of_splitFirst? hm hs) hgroups hlast
    rw [← eq_append_of_splitFirst? hs] at hstands
    rw [hfield, postgresChain_eq hs]
    refine ⟨_, hstands, ⟨hvalue, hcast⟩, fun hnames ↦ ?_⟩
    rw [replace_steps (closed_columnChars hd hnames) hkeys]
    exact hdocument

structure Casting where
  column : String
  type : String
  enclosed : Bool

def castOf? : Test Query → Option Casting
  | .basic column operator _ => if operator.isLike then some ⟨column, "text", false⟩ else none
  | .datePart .date column _ _ => some ⟨column, "date", false⟩
  | .datePart .time column _ _ => some ⟨column, "time", false⟩
  | .jsonBoolean column _ _ => some ⟨column, "jsonb", true⟩
  | .jsonContains column _ _ => some ⟨column, "jsonb", true⟩
  | .jsonLength column _ _ => some ⟨column, "jsonb", true⟩
  | _ => none

def IsAbout (g : Grammar) (t : Test Query) (x : Expr) : Prop :=
  ∃ s front head tail, g.test t = .ok s ∧ s.text = front ++ head ++ " " ++ tail ∧
    (front = "" ∨ front = "not ") ∧ readValue head = some x

variable {t : Test Query} {text head : List Char} {e x : Expr}

theorem isAbout_of_text (negated : Bool) (tail : String) (hx : IsValue head x)
    (h : (g.test t).map Sql.text =
      .ok (negation negated ++ String.ofList head ++ " " ++ tail)) : g.IsAbout t x := by
  obtain ⟨s, hs, htext⟩ := map_eq_ok.1 h
  refine ⟨s, _, _, tail, hs, htext, ?_, hx.readValue⟩
  cases negated
  · exact .inl rfl
  · exact .inr rfl

/-- Where parentheses are around a document, the cast takes all of it. -/
theorem isPrimary_document (hs : IsValue (replace textArrow arrow text) e) :
    IsPrimary ('(' :: replace textArrow arrow text ++ [')'] ++ ':' :: ':' :: "jsonb".toList)
      (.cast e "jsonb".toList) :=
  hs.enclosed.cast (by decide) (by decide)

section conditions

variable (hd : g.dialect = .postgres) (hw : g.wrap column = .ok (String.ofList text))

include hd hw

theorem isAbout_like (hs : Prints text e) {operator : Operator} (ho : operator.isLike)
    (value : Operand Value) :
    g.IsAbout (.basic column operator value) (e.castBehind "text".toList) := by
  have htest : g.test (.basic column operator value) =
      .ok ((String.ofList text : Sql) ++ "::text " ++ operator.sql ++ " " ++ value.sql) := by
    rw [test, basicTest, hw]
    exact if_pos ⟨hd, ho⟩
  refine isAbout_of_text false (operator.symbol ++ " " ++ value.sql.text)
    (hs.cast "text".toList (by decide) (by decide)) ?_
  rw [htest]
  simp [Except.map, ← String.toList_inj, negation]

theorem isAbout_datePart (hs : Prints text e) {part : DatePart} (hp : part = .date ∨ part = .time)
    (operator : Operator) (value : Operand Value) :
    g.IsAbout (.datePart part column operator value) (e.castBehind part.word.toList) := by
  have htest : (g.test (.datePart part column operator value)).map Sql.text =
      .ok (String.ofList text ++ ("::" ++ part.word) ++ " " ++ operator.symbol ++ " " ++
        value.sql.text) := by
    rw [test, datePartTest, hw, hd]
    rcases hp with rfl | rfl <;> exact congrArg Except.ok (by simp [DatePart.word])
  have hword : part.word.toList ≠ [] ∧ part.word.toList.all isWordChar := by
    cases part <;> decide
  refine isAbout_of_text false (operator.symbol ++ " " ++ value.sql.text)
    (hs.cast part.word.toList hword.1 hword.2) ?_
  rw [htest]
  simp [← String.toList_inj, negation]

theorem isAbout_jsonContains (hs : IsValue (replace textArrow arrow text) e) (value : Value)
    (negated : Bool) :
    g.IsAbout (.jsonContains column value negated) (.cast e "jsonb".toList) := by
  have htest : g.test (.jsonContains column value negated) = .ok (negation negated ++
      ("(" ++ asDocument (String.ofList text) ++ ")::jsonb @> " ++ .slot value)) := by
    simp only [test, jsonContainsTest, hd, hw]
    rfl
  refine isAbout_of_text negated "@> ?" (isPrimary_document hs).isValue ?_
  have hslot : (Sql.slot value).text = "?" := rfl
  rw [htest]
  simp [Except.map, hslot, asDocument, textArrow, ← String.toList_inj]

theorem isAbout_jsonLength (hs : IsValue (replace textArrow arrow text) e) (operator : Operator)
    (value : Operand Value) : g.IsAbout (.jsonLength column operator value)
      (.call "jsonb_array_length".toList (.cast e "jsonb".toList)) := by
  have htest : g.test (.jsonLength column operator value) =
      .ok (("jsonb_array_length((" ++ asDocument (String.ofList text) ++ ")::jsonb)" : String) ++
        " " ++ operator.sql ++ " " ++ value.sql) := by
    simp only [test, jsonLengthTest, hd, hw]
    rfl
  have hvalue := (isPrimary_document hs).isValue.call (f := "jsonb_array_length".toList) (by decide)
    (by decide) (by decide)
  refine isAbout_of_text false (operator.symbol ++ " " ++ value.sql.text) hvalue.isValue ?_
  rw [htest]
  simp [Except.map, asDocument, textArrow, ← String.toList_inj, negation]

end conditions

theorem isAbout_jsonBoolean (hd : g.dialect = .postgres)
    (hs : IsValue (replace textArrow arrow (g.postgresChain column.toList)) e)
    (operator : Operator) (value : Bool) :
    g.IsAbout (.jsonBoolean column operator value) (.cast e "jsonb".toList) := by
  have htest : g.test (.jsonBoolean column operator value) =
      .ok (("(" ++ asDocument (String.ofList (g.postgresChain column.toList)) ++ ")::jsonb" :
        String) ++ " " ++ operator.sql ++ " " ++
          ("'" ++ (if value then "true" else "false") ++ "'::jsonb" : String)) := by
    simp only [test, jsonBooleanTest, hd]
    rfl
  refine isAbout_of_text false (operator.symbol ++ " " ++
    ("'" ++ (if value then "true" else "false") ++ "'::jsonb")) (isPrimary_document hs).isValue ?_
  rw [htest]
  simp [Except.map, asDocument, textArrow, ← String.toList_inj, negation]

/-- What the cast in a condition takes of the value of its column: all of it as a document if it
stands in parentheses, else what stands last. -/
structure Takes (g : Grammar) (t : Test Query) (c : Casting) (e operand : Expr) : Prop where
  about : ∃ x, g.IsAbout t x ∧ x.casts = [(operand, c.type.toList)]
  enclosed : c.enclosed → operand = e.document
  trailing : ¬ c.enclosed → operand = e.trailing

theorem takes_trailing {type : String} (he : e.casts = [])
    (h : g.IsAbout t (e.castBehind type.toList)) :
    g.Takes t ⟨column, type, false⟩ e e.trailing where
  about := ⟨_, h, Expr.casts_castBehind he _⟩
  enclosed := nofun
  trailing _ := rfl

theorem takes_document (h : g.IsAbout t x)
    (hx : x.casts = [(e.document, "jsonb".toList)]) :
    g.Takes t ⟨column, "jsonb", true⟩ e e.document where
  about := ⟨x, h, hx⟩
  enclosed _ := rfl
  trailing hn := absurd rfl hn

/-- The cast in a condition takes the whole document that a column stands for if it stands in
parentheses; a prefix must not hold the text arrow for that. Without parentheses it takes the whole
column only if that is no selector, and else the last key or index alone. -/
theorem casts_taken (g : Grammar) (hd : g.dialect = .postgres) (column : String)
    (hmark : ¬ aliasMark <:+: column.toList.map Char.toLower) :
    ∃ text e, g.wrap column = .ok text ∧ readValue text = some e ∧
      Stands g.tablePrefix.toList column.toList e ∧
      (∀ t c, castOf? t = some c → c.column = column →
        (c.enclosed → ¬ textArrow <:+: g.columnChars (fieldOf column.toList)) →
        ∃ operand, g.Takes t c e operand) ∧
      (e.trailing = e ↔ ¬ arrow <:+: column.toList) ∧
      (arrow <:+: column.toList → ∃ document, e = .access document e.trailing true) := by
  obtain ⟨e, hstands, hs, hdocument⟩ := exists_prints hd column.toList
  have hwrap := wrap_eq_postgresChain hd hmark
  refine ⟨_, e, hwrap, hs.value.readValue, hstands, fun t c hc hcolumn hnames ↦ ?_,
    hstands.trailing_eq_iff, hstands.exists_access⟩
  have hplain := hstands.casts
  have hcasts : (Expr.cast e.document "jsonb".toList).casts =
      [(e.document, "jsonb".toList)] := by
    rw [Expr.casts, Expr.casts_document hplain, List.nil_append]
  subst hcolumn
  unfold castOf? at hc
  split at hc
  · split at hc
    · rename_i ho
      cases hc
      exact ⟨_, takes_trailing hplain (isAbout_like hd hwrap hs ho _)⟩
    · cases hc
  · cases hc
    exact ⟨_, takes_trailing hplain (isAbout_datePart hd hwrap hs (.inl rfl) _ _)⟩
  · cases hc
    exact ⟨_, takes_trailing hplain (isAbout_datePart hd hwrap hs (.inr rfl) _ _)⟩
  · cases hc
    exact ⟨_, takes_document (isAbout_jsonBoolean hd (hdocument (hnames rfl)) _ _) hcasts⟩
  · cases hc
    exact ⟨_, takes_document (isAbout_jsonContains hd hwrap (hdocument (hnames rfl)) _ _) hcasts⟩
  · cases hc
    exact ⟨_, takes_document (isAbout_jsonLength hd hwrap (hdocument (hnames rfl)) _ _) hcasts⟩
  · cases hc

/-- A step into an array, behind a table with a prefix. -/
theorem casts_taken_index :
    let g : Grammar := { dialect := .postgres, tablePrefix := "app_" }
    let test : Test Query := .jsonContains "users.meta->tags[0]" (.string "a") false
    let document : Expr := .column ["app_users".toList, "meta".toList]
    let tags : Expr := .access document (.step (.key "tags".toList)) false
    g.dialect = .postgres ∧ ¬ aliasMark <:+: "users.meta->tags[0]".toList.map Char.toLower ∧
      ¬ textArrow <:+: g.columnChars (fieldOf "users.meta->tags[0]".toList) ∧
      g.wrap "users.meta->tags[0]" = .ok "\"app_users\".\"meta\"->'tags'->>0" ∧
      readValue "\"app_users\".\"meta\"->'tags'->>0" =
        some (.access tags (.step (.index 0)) true) ∧
      g.Takes test ⟨"users.meta->tags[0]", "jsonb", true⟩
        (.access tags (.step (.index 0)) true) (.access tags (.step (.index 0)) false) := by
  intro g test document tags
  have hmark : ¬ aliasMark <:+: "users.meta->tags[0]".toList.map Char.toLower := by decide
  have hnames : ¬ textArrow <:+: g.columnChars (fieldOf "users.meta->tags[0]".toList) := by
    decide +kernel
  obtain ⟨_, hwrap, rfl⟩ : ∃ text, g.wrap "users.meta->tags[0]" = .ok text ∧
      text = "\"app_users\".\"meta\"->'tags'->>0" :=
    exists_ok_of_map_toOption (f := id) (by decide +kernel)
  have hread : readValue "\"app_users\".\"meta\"->'tags'->>0" =
      some (.access tags (.step (.index 0)) true) := by decide +kernel
  obtain ⟨text, e, htext, he, -, htakes, -⟩ := casts_taken g rfl _ hmark
  obtain rfl := Except.ok.inj (hwrap.symm.trans htext)
  obtain rfl := Option.some.inj (hread.symm.trans he)
  obtain ⟨operand, hoperand⟩ := htakes test _ rfl rfl fun _ ↦ hnames
  obtain rfl := hoperand.enclosed rfl
  exact ⟨rfl, hmark, hnames, hwrap, hread, hoperand⟩

/-- The cast of a pattern test takes the key of a selector alone. -/
theorem casts_taken_like :
    let g : Grammar := { dialect := .postgres }
    let q := (Query.run { grammar := g } [.source (.name "users"),
      .compare .and ⟨"meta->name", .named "like", .bound (.value (.string "a"))⟩]).1
    let document : Expr := .column ["meta".toList]
    let name : Expr := .step (.key "name".toList)
    q.sql.toOption.map Sql.text =
        some "select * from \"users\" where \"meta\"->>'name'::text like ?" ∧
      g.wrap "meta->name" = .ok "\"meta\"->>'name'" ∧
      readValue "\"meta\"->>'name'" = some (.access document name true) ∧
      readValue "\"meta\"->>'name'::text" =
        some (.access document (.cast name "text".toList) true) ∧
      readValue "(\"meta\"->>'name')::text" =
        some (.cast (.access document name true) "text".toList) := by
  intro g q document name
  obtain ⟨_, hwrap, rfl⟩ : ∃ text, g.wrap "meta->name" = .ok text ∧
      text = "\"meta\"->>'name'" := exists_ok_of_map_toOption (f := id) (by decide +kernel)
  refine ⟨?_, hwrap, ?_, ?_, ?_⟩ <;> decide +kernel

end Grammar

end FluentSql
