import FluentSql.Grammar.Selector
import FluentSql.Proofs.Lexing.Scanner
import FluentSql.Proofs.Windows.Trimming

namespace FluentSql

open Text Lexing

namespace Text

variable {s t : List Char}

theorem segments_append {c : Char} (hc : c ∉ t) (s : List Char) :
    segments [c] (t ++ s) = (segments [c] s).modifyHead (t ++ ·) := by
  induction t with
  | nil => exact (congrFun List.modifyHead_id (segments [c] s)).symm
  | cons d t ih =>
    have hd : c ≠ d := fun he ↦ hc (he ▸ List.mem_cons_self)
    have ih := ih fun ht ↦ hc (List.mem_cons_of_mem _ ht)
    have hstep : segments [c] (d :: (t ++ s)) = consFirst d (segments [c] (t ++ s)) := by
      simp [segments, segmentsAfter, List.isPrefixOf, hd]
    obtain ⟨first, rest, hs⟩ := List.exists_cons_of_ne_nil (segments_ne_nil [c] s)
    rw [List.cons_append, hstep, ih, hs]
    rfl

end Text

namespace Quoting

variable {s expression expression' : List Char} {label label' : Option (List Char)}

/-- A text is an expression and a label: what stands before the first ` as ` in any case of letters,
without the blanks at its end, and what stands behind it, without the blanks in front. -/
inductive Parted (s : List Char) : List Char → Option (List Char) → Prop
  | plain : ¬ aliasMark <:+: s.map Char.toLower → Parted s s none
  | aliased {before mark after : List Char} : s = before ++ mark ++ after →
      mark.map Char.toLower = aliasMark →
      (∀ before' mark' after', s = before' ++ mark' ++ after' →
        mark'.map Char.toLower = aliasMark → before.length ≤ before'.length) →
      Parted s (before.rdropWhile isBlank) (some (after.dropWhile isBlank))

theorem length_mark {mark : List Char} (h : mark.map Char.toLower = aliasMark) :
    mark.length = 4 := by
  rw [← List.length_map Char.toLower, h]
  rfl

theorem Parted.unique (h : Parted s expression label) (h' : Parted s expression' label') :
    expression = expression' ∧ label = label' := by
  cases h with
  | plain hn =>
    cases h' with
    | plain => exact ⟨rfl, rfl⟩
    | @aliased before mark after hs hm =>
      refine absurd ⟨before.map Char.toLower, after.map Char.toLower, ?_⟩ hn
      rw [hs, List.map_append, List.map_append, hm]
  | @aliased before mark after hs hm hfirst =>
    cases h' with
    | plain hn =>
      refine absurd ⟨before.map Char.toLower, after.map Char.toLower, ?_⟩ hn
      rw [hs, List.map_append, List.map_append, hm]
    | @aliased before' mark' after' hs' hm' hfirst' =>
      have hlen := Nat.le_antisymm (hfirst _ _ _ hs' hm') (hfirst' _ _ _ hs hm)
      have he : before ++ (mark ++ after) = before' ++ (mark' ++ after') := by
        rw [← List.append_assoc, ← List.append_assoc, ← hs, ← hs']
      obtain ⟨rfl, htail⟩ := List.append_inj he hlen
      obtain ⟨rfl, rfl⟩ := List.append_inj htail ((length_mark hm).trans (length_mark hm').symm)
      exact ⟨rfl, rfl⟩

theorem parted_of_splitAlias?_eq_none (h : splitAlias? s = none) : Parted s s none :=
  .plain (splitFirst?_eq_none_iff.1 (Option.map_eq_none_iff.1 h))

theorem parted_of_splitAlias?_eq_some {p : List Char × List Char} (h : splitAlias? s = some p) :
    Parted s p.1 (some p.2) := by
  obtain ⟨⟨before, after⟩, hsplit, he⟩ := Option.map_eq_some_iff.1 h
  cases he
  have hs := eq_append_of_splitFirst? hsplit
  have hmark : ((s.drop before.length).take 4).map Char.toLower = aliasMark := by
    rw [List.map_take, List.map_drop, hs, List.append_assoc, List.drop_left]
    rfl
  have htext : s = s.take before.length ++ (s.drop before.length).take 4 ++
      s.drop (before.length + 4) := by
    rw [List.append_assoc, ← List.drop_drop, List.take_append_drop, List.take_append_drop]
  have hlen : (s.take before.length).length = before.length := by
    have := congrArg List.length hs
    simp only [List.length_map, List.length_append] at this
    rw [List.length_take]
    omega
  dsimp only
  refine .aliased htext hmark fun before' mark' after' hs' hm' ↦ ?_
  have hlower : s.map Char.toLower =
      before'.map Char.toLower ++ aliasMark ++ after'.map Char.toLower := by
    rw [hs', List.map_append, List.map_append, hm']
  have hle := length_le_of_splitFirst? hsplit hlower
  rwa [List.length_map, ← hlen] at hle

theorem exists_parted (s : List Char) : ∃ expression label, Parted s expression label := by
  cases h : splitAlias? s with
  | none => exact ⟨_, _, parted_of_splitAlias?_eq_none h⟩
  | some p => exact ⟨_, _, parted_of_splitAlias?_eq_some h⟩

theorem Parted.splitAlias?_eq (h : Parted s expression label) :
    splitAlias? s = label.map (expression, ·) := by
  cases hs : splitAlias? s with
  | none =>
    obtain ⟨rfl, rfl⟩ := h.unique (parted_of_splitAlias?_eq_none hs)
    rfl
  | some p =>
    obtain ⟨rfl, rfl⟩ := h.unique (parted_of_splitAlias?_eq_some hs)
    rfl

theorem Parted.infix (h : Parted s expression label) : expression <:+: s := by
  cases h with
  | plain => exact List.infix_rfl
  | @aliased before mark after hs =>
    rw [hs, List.append_assoc]
    exact (List.rdropWhile_prefix isBlank before).isInfix.trans (List.prefix_append ..).isInfix

/-- Names with a prefix in front of the first, which is a table if more follow. -/
def qualified (tablePrefix : List Char) : List (List Char) → List (List Char)
  | first :: second :: rest => (tablePrefix ++ first) :: second :: rest
  | names => names

def prefixed (tablePrefix : List Char) (names : List (List Char)) : List (List Char) :=
  names.modifyHead (tablePrefix ++ ·)

theorem qualified_injective (tablePrefix : List Char) :
    Function.Injective (qualified tablePrefix) := by
  intro names names' h
  match names, names' with
  | [], [] | [], [_] | [_], [] | [_], [_] => exact h
  | [], _ :: _ :: _ | [_], _ :: _ :: _ | _ :: _ :: _, [] | _ :: _ :: _, [_] =>
    simp [qualified] at h
  | _ :: _ :: _, _ :: _ :: _ => simpa [qualified] using h

theorem prefixed_injective (tablePrefix : List Char) :
    Function.Injective (prefixed tablePrefix) := by
  intro names names' h
  cases names <;> cases names' <;> simp_all [prefixed]

theorem prefixed_ne_nil {tablePrefix : List Char} {names : List (List Char)} (h : names ≠ []) :
    prefixed tablePrefix names ≠ [] := by
  cases names with
  | nil => exact absurd rfl h
  | cons => exact List.cons_ne_nil _ _

theorem qualified_ne_nil (tablePrefix : List Char) {names : List (List Char)} (h : names ≠ []) :
    qualified tablePrefix names ≠ [] := by
  match names with
  | [] => exact absurd rfl h
  | [_] | _ :: _ :: _ => exact List.cons_ne_nil _ _

def spelled (q : Quotes) (names : List (List Char)) (label : Option (List Char)) : List Char :=
  ['.'].intercalate (names.map q.enclose) ++
    match label with
    | none => []
    | some label => aliasMark ++ q.enclose label

theorem column_eq (q : Quotes) (tablePrefix s : List Char) :
    column q tablePrefix s = spelled q (qualified tablePrefix (s.splitOn '.')) none := by
  rw [column, spelled, List.append_nil, segments_eq_splitOn]
  match s.splitOn '.' with
  | [] | [_] | _ :: _ :: _ => rfl

theorem table_eq (q : Quotes) {tablePrefix : List Char} (hdotless : '.' ∉ tablePrefix)
    (s : List Char) :
    table q tablePrefix s = spelled q (prefixed tablePrefix (s.splitOn '.')) none := by
  rw [table, spelled, List.append_nil, segments_append hdotless, segments_eq_splitOn]
  rfl

end Quoting

namespace Lexing

open Quoting Lexis

variable {d : Dialect} {rest : List Char} {ts : List Token}

namespace Lexis

def nameOf? (l : Lexis) : Token → Option (List Char)
  | .quoted .name body => some (undouble l.closing body)
  | .symbol '*' => some ['*']
  | _ => none

/-- Names with dots between them, then `as` and a label or nothing. -/
def reference? (l : Lexis) : List Token → Option (List (List Char) × Option (List Char))
  | [name] => do return ([← l.nameOf? name], none)
  | [name, .symbol ' ', .word ['a', 's'], .symbol ' ', label] => do
    return ([← l.nameOf? name], some (← l.nameOf? label))
  | name :: .symbol '.' :: rest => do
    let (names, label) ← l.reference? rest
    return ((← l.nameOf? name) :: names, label)
  | _ => none

end Lexis

def readReference (d : Dialect) (text : String) :
    Option (List (List Char) × Option (List Char)) := do
  (of d).reference? (← (of d).tokens text.toList)

def nameToken (d : Dialect) (s : List Char) : Token :=
  if s = ['*'] then .symbol '*' else .quoted .name (double (of d).closing s)

def nameTokens (d : Dialect) (names : List (List Char)) : List Token :=
  (names.map (nameToken d)).intersperse (.symbol '.')

theorem closing_eq (d : Dialect) : (of d).closing = d.quotes.closing := by
  cases d <;> rfl

theorem opening_eq (d : Dialect) : (of d).opening = d.quotes.opening := by
  cases d <;> rfl

theorem head?_ne_closing {c : Char} (hc : c ∈ marks) (rest : List Char) :
    (c :: rest).head? ≠ some (of d).closing := by
  intro he
  obtain rfl : c = (of d).closing := Option.some.inj he
  have hclosing : (of d).closing ∉ marks := by
    cases d <;> decide
  exact hclosing hc

theorem tokens_enclose (s : List Char) (hstop : rest.head? ≠ some (of d).closing)
    (h : (of d).tokens rest = some ts) :
    (of d).tokens (d.quotes.enclose s ++ rest) = some (nameToken d s :: ts) := by
  rw [Quotes.enclose, nameToken]
  split
  · rename_i hs
    rw [hs]
    exact tokens_mark (by decide) h
  · have hread := tokens_quoted (sealed_name (of d) s) hstop h
    rw [← opening_eq, ← closing_eq]
    simpa [openingOf, closingOf] using hread

theorem tokens_names {names : List (List Char)} (hne : names ≠ [])
    (hstop : rest.head? ≠ some (of d).closing) (h : (of d).tokens rest = some ts) :
    (of d).tokens (['.'].intercalate (names.map d.quotes.enclose) ++ rest) =
      some (nameTokens d names ++ ts) := by
  induction names with
  | nil => exact absurd rfl hne
  | cons s names ih =>
    cases names with
    | nil => simpa [nameTokens] using tokens_enclose s hstop h
    | cons t names =>
      have hdot := tokens_mark (c := '.') (by decide) (ih (List.cons_ne_nil t names))
      have hread := tokens_enclose s (head?_ne_closing (by decide) _) hdot
      simpa [nameTokens] using hread

def labelTokens (d : Dialect) : Option (List Char) → List Token
  | none => []
  | some label => [.symbol ' ', .word ['a', 's'], .symbol ' ', nameToken d label]

theorem tokens_spelled {names : List (List Char)} (hne : names ≠ []) (label : Option (List Char)) :
    (of d).tokens (spelled d.quotes names label) =
      some (nameTokens d names ++ labelTokens d label) := by
  have hnil : (of d).tokens [] = some [] := rfl
  cases label with
  | none => exact tokens_names hne nofun hnil
  | some label =>
    have hlabel : (of d).tokens (d.quotes.enclose label ++ []) = some [nameToken d label] :=
      tokens_enclose label nofun hnil
    rw [List.append_nil] at hlabel
    have hblank := tokens_mark (c := ' ') (by decide) hlabel
    have hword := tokens_word (s := ['a', 's']) (by decide) (by decide)
      (fun c hc ↦ by
        obtain rfl : ' ' = c := Option.some.inj hc
        decide) hblank
    have hread := tokens_mark (c := ' ') (by decide) hword
    exact tokens_names hne (head?_ne_closing (by decide) _)
      (by simpa [aliasMark, labelTokens] using hread)

theorem nameOf?_nameToken (d : Dialect) (s : List Char) :
    (of d).nameOf? (nameToken d s) = some s := by
  rw [nameToken]
  split
  · rename_i hs
    rw [hs]
    rfl
  · rw [nameOf?, undouble_double]

theorem reference?_names {names : List (List Char)} (hne : names ≠ [])
    (label : Option (List Char)) :
    (of d).reference? (nameTokens d names ++ labelTokens d label) = some (names, label) := by
  induction names with
  | nil => exact absurd rfl hne
  | cons s names ih =>
    cases names with
    | nil =>
      cases label <;>
        simp [nameTokens, labelTokens, reference?, nameOf?_nameToken]
    | cons t names =>
      have ih := ih (List.cons_ne_nil t names)
      have hstep : nameTokens d (s :: t :: names) =
          nameToken d s :: .symbol '.' :: nameTokens d (t :: names) := rfl
      rw [hstep, List.cons_append, List.cons_append, reference?, ih]
      simp [nameOf?_nameToken]

/-- A reference reads back as what it was made of. -/
theorem readReference_spelled {names : List (List Char)} (hne : names ≠ [])
    (label : Option (List Char)) :
    readReference d (String.ofList (spelled d.quotes names label)) = some (names, label) := by
  rw [readReference, String.toList_ofList, tokens_spelled hne]
  exact reference?_names hne label

end Lexing

namespace Grammar

open Quoting

variable {g : Grammar} {v : String} {expression : List Char} {label : Option (List Char)}

theorem wrap_spelled (hv : ¬ arrow <:+: v.toList) (h : Parted v.toList expression label) :
    g.wrap v = .ok (String.ofList
      (spelled g.quotes (qualified g.tablePrefix.toList (expression.splitOn '.')) label)) := by
  have hselector : isJsonSelector expression = false := by
    rw [isJsonSelector, ← Bool.not_eq_true, contains_iff]
    exact fun hi ↦ hv (hi.trans h.infix)
  have hcolumn : g.unaliased expression = .ok (g.columnChars expression) := by
    rw [unaliased, hselector]
    rfl
  rw [wrap, h.splitAlias?_eq]
  cases h with
  | plain =>
    rw [Option.map_none, hcolumn, columnChars, column_eq]
    rfl
  | aliased =>
    dsimp only [Option.map_some]
    rw [hcolumn, columnChars, column_eq]
    simp [spelled, pure, Except.pure, bind, Except.bind]

theorem wrapTable_spelled (hdotless : '.' ∉ g.tablePrefix.toList)
    (h : Parted v.toList expression label) :
    g.wrapTable v = String.ofList (spelled g.quotes
      (prefixed g.tablePrefix.toList (expression.splitOn '.'))
      (label.map (g.tablePrefix.toList ++ ·))) := by
  rw [wrapTable, h.splitAlias?_eq]
  cases h with
  | plain =>
    rw [Option.map_none]
    exact congrArg String.ofList (table_eq g.quotes hdotless _)
  | aliased =>
    rw [Option.map_some]
    simp [spelled, table_eq g.quotes hdotless]

/-- What a text says of its names and its label is read in it when it is quoted. -/
theorem readReference_wrap (hv : ¬ arrow <:+: v.toList) (h : Parted v.toList expression label) :
    ∃ text, g.wrap v = .ok text ∧ readReference g.dialect text =
      some (qualified g.tablePrefix.toList (expression.splitOn '.'), label) :=
  ⟨_, wrap_spelled hv h, readReference_spelled (qualified_ne_nil _ (List.splitOn_ne_nil _ _)) label⟩

theorem readReference_wrapTable (hdotless : '.' ∉ g.tablePrefix.toList)
    (h : Parted v.toList expression label) :
    readReference g.dialect (g.wrapTable v) =
      some (prefixed g.tablePrefix.toList (expression.splitOn '.'),
        label.map (g.tablePrefix.toList ++ ·)) := by
  rw [wrapTable_spelled hdotless h]
  exact readReference_spelled (prefixed_ne_nil (List.splitOn_ne_nil _ _)) _

/-- A quoted name, and a quoted table, read back as what the text says: its names, the prefix in
front of the first, and its label. Two texts that are quoted alike are parted alike, so no character
ends a name early. -/
theorem wrap_reads (g : Grammar) (hdotless : '.' ∉ g.tablePrefix.toList) (v : String)
    (hv : ¬ arrow <:+: v.toList) :
    ∃ expression label, Parted v.toList expression label ∧
      (∃ text, g.wrap v = .ok text ∧ readReference g.dialect text =
        some (qualified g.tablePrefix.toList (expression.splitOn '.'), label)) ∧
      readReference g.dialect (g.wrapTable v) =
        some (prefixed g.tablePrefix.toList (expression.splitOn '.'),
          label.map (g.tablePrefix.toList ++ ·)) ∧
      ∀ w : String, ¬ arrow <:+: w.toList → (g.wrap w = g.wrap v ∨ g.wrapTable w = g.wrapTable v) →
        Parted w.toList expression label := by
  obtain ⟨expression, label, h⟩ := exists_parted v.toList
  have hwrap := readReference_wrap (g := g) hv h
  have htable := readReference_wrapTable hdotless h
  refine ⟨expression, label, h, hwrap, htable, fun w hw he ↦ ?_⟩
  obtain ⟨expression', label', h'⟩ := exists_parted w.toList
  have hsame : expression'.splitOn '.' = expression.splitOn '.' ∧ label' = label := by
    rcases he with he | he
    · obtain ⟨text, ht, hread⟩ := hwrap
      obtain ⟨text', ht', hread'⟩ := readReference_wrap (g := g) hw h'
      obtain rfl : text' = text := Except.ok.inj (ht'.symm.trans (he.trans ht))
      obtain ⟨hnames, hlabel⟩ := Prod.mk.inj (Option.some.inj (hread'.symm.trans hread))
      exact ⟨qualified_injective _ hnames, hlabel⟩
    · have hread' := readReference_wrapTable hdotless h'
      rw [he, htable] at hread'
      obtain ⟨hnames, hlabel⟩ := Prod.mk.inj (Option.some.inj hread'.symm)
      exact ⟨prefixed_injective _ hnames,
        Option.map_injective (List.append_right_injective _) hlabel⟩
  obtain ⟨hnames, rfl⟩ := hsame
  have hexpression : expression' = expression := by
    rw [← @List.intercalate_splitOn _ expression' _ _ '.', hnames, List.intercalate_splitOn]
  exact hexpression ▸ h'

/-- A quote and a dot in the alias, and the mark in capitals. -/
theorem wrap_reads_awkward :
    '.' ∉ "app_".toList ∧ ¬ arrow <:+: "te\"am.name AS  first.\"name".toList ∧
      (∃ text, wrap ⟨.postgres, "app_", none⟩ "te\"am.name AS  first.\"name" = .ok text ∧
        readReference .postgres text =
          some (["app_te\"am".toList, "name".toList], some "first.\"name".toList)) ∧
      readReference .postgres (wrapTable ⟨.postgres, "app_", none⟩ "te\"am.name AS  first.\"name") =
        some (["app_te\"am".toList, "name".toList], some "app_first.\"name".toList) := by
  have hdotless : '.' ∉ "app_".toList := by decide
  have harrow : ¬ arrow <:+: "te\"am.name AS  first.\"name".toList := by decide
  obtain ⟨expression, label, h, hwrap, htable, -⟩ :=
    wrap_reads ⟨.postgres, "app_", none⟩ hdotless "te\"am.name AS  first.\"name" harrow
  have hparts : splitAlias? "te\"am.name AS  first.\"name".toList =
      some ("te\"am.name".toList, "first.\"name".toList) := by decide
  obtain ⟨rfl, rfl⟩ := h.unique (parted_of_splitAlias?_eq_some hparts)
  exact ⟨hdotless, harrow, hwrap, htable⟩

end Grammar

end FluentSql
