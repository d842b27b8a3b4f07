import FluentSql.Proofs.Lexing.Qualified
import FluentSql.Proofs.Lexing.Selectors
import FluentSql.Proofs.Numbering.Compiled

namespace FluentSql

open Text Lexing

namespace Text

variable {s t : List Char}

theorem intercalate_append (mark : List Char) {ss ts : List (List Char)} (hs : ss ≠ [])
    (ht : ts ≠ []) :
    mark.intercalate (ss ++ ts) = mark.intercalate ss ++ mark ++ mark.intercalate ts := by
  induction ss with
  | nil => exact absurd rfl hs
  | cons s rest ih =>
    by_cases hrest : rest = []
    · subst hrest
      simp [List.intercalate_cons_of_ne_nil ht]
    · rw [List.cons_append, List.intercalate_cons_of_ne_nil (by simp [hrest]),
        List.intercalate_cons_of_ne_nil hrest, ih hrest]
      simp only [List.append_assoc]

theorem trimEnd_append_of_getLast? {c : Char} (hs : s.getLast? = some c) (hc : isBlank c = false)
    (t : List Char) : trimEnd (s ++ t) = s ++ trimEnd t := by
  obtain ⟨front, rfl⟩ := List.getLast?_eq_some_iff.1 hs
  have hlast : trimEnd [c] = [c] := trimEnd_of_notBlank (by simpa using hc)
  rw [trimEnd_append]
  split
  · rename_i ht
    rw [trimEnd_append, hlast, if_neg (List.cons_ne_nil _ _), ht, List.append_nil]
  · rfl

theorem head?_trimEnd {c d : Char} (h : (trimEnd (c :: s)).head? = some d) : d = c := by
  rcases Placeholders.trimEnd_cons c s with he | ⟨-, -, he⟩
  · rw [he] at h
    exact (Option.some.inj h).symm
  · rw [he] at h
    cases h

end Text

namespace Quoting

variable {name s field path : List Char} {ss ts : List (List Char)}

/-- With more names behind them, the first of the names takes the prefix. -/
theorem qualified_append (tablePrefix : List Char) (hs : ss ≠ []) (ht : ts ≠ []) :
    qualified tablePrefix (ss ++ ts) = prefixed tablePrefix ss ++ ts := by
  obtain ⟨s, ss, rfl⟩ := List.exists_cons_of_ne_nil hs
  obtain ⟨t, ts, rfl⟩ := List.exists_cons_of_ne_nil ht
  cases ss <;> rfl

theorem spelled_append (q : Quotes) (hs : ss ≠ []) (ht : ts ≠ []) :
    spelled q (ss ++ ts) none = spelled q ss none ++ '.' :: spelled q ts none := by
  have hs : ss.map q.enclose ≠ [] := fun h ↦ hs (List.map_eq_nil_iff.1 h)
  have ht : ts.map q.enclose ≠ [] := fun h ↦ ht (List.map_eq_nil_iff.1 h)
  simp only [spelled, List.map_append, intercalate_append _ hs ht, List.append_nil,
    List.append_assoc, List.singleton_append]

/-- A column behind a name is written behind that name as a table. -/
theorem column_qualified (q : Quotes) {tablePrefix : List Char} (hdotless : '.' ∉ tablePrefix)
    (name s : List Char) : column q tablePrefix (name ++ '.' :: s) =
      table q tablePrefix name ++ '.' :: spelled q (s.splitOn '.') none := by
  have hname := List.splitOn_ne_nil '.' name
  have hs := List.splitOn_ne_nil '.' s
  rw [column_eq, table_eq q hdotless, List.splitOn_append_cons_self, qualified_append _ hname hs,
    spelled_append q (prefixed_ne_nil hname) hs]

theorem splitFirst?_arrow_qualified (hname : ¬ arrow <:+: name)
    (h : splitFirst? arrow s = some (field, path)) :
    splitFirst? arrow (name ++ '.' :: s) = some (name ++ '.' :: field, path) := by
  have hfield := not_infix_of_splitFirst? (List.cons_ne_nil _ _) h
  rw [eq_append_of_splitFirst? h]
  simpa [arrow] using splitFirst?_append (by decide) (arrow_qualified hname hfield) path

theorem exists_getLast?_enclose (d : Dialect) (s : List Char) :
    ∃ c ∈ ['*', d.quotes.closing], (d.quotes.enclose s).getLast? = some c := by
  rw [Quotes.enclose]
  split
  · rename_i hs
    exact ⟨'*', by simp, by rw [hs]; rfl⟩
  · exact ⟨_, by simp, List.getLast?_concat⟩

theorem exists_getLast?_spelled (d : Dialect) (hs : ss ≠ []) :
    ∃ c ∈ ['*', d.quotes.closing], (spelled d.quotes ss none).getLast? = some c := by
  induction ss with
  | nil => exact absurd rfl hs
  | cons s ss ih =>
    cases ss with
    | nil => simpa [spelled] using exists_getLast?_enclose d s
    | cons t ss =>
      obtain ⟨c, hc, hlast⟩ := ih (List.cons_ne_nil t ss)
      have hsplit := spelled_append d.quotes (List.cons_ne_nil s []) (List.cons_ne_nil t ss)
      refine ⟨c, hc, ?_⟩
      rw [← List.singleton_append, hsplit, List.getLast?_append, List.getLast?_cons, hlast]
      rfl

end Quoting

namespace Selector

def opening (d : Dialect) : List Char :=
  (functions d).flatMap fun f ↦ f.toList ++ ['(']

def ending (d : Dialect) (path : List Char) : List Char :=
  if d = .postgres then steps ((segments Quoting.arrow path).flatMap accessors)
  else ',' :: ' ' :: pathLiteral path ++ (functions d).map fun _ ↦ ')'

end Selector

open Quoting Selector

namespace Grammar

variable {g : Grammar} {r : String} {name s field path expression : List Char}
  {label : Option (List Char)}

def tableText (g : Grammar) (name : List Char) : String :=
  String.ofList (table g.quotes g.tablePrefix.toList name)

def behindTable (g : Grammar) (s : List Char) : String :=
  String.ofList (spelled g.quotes (s.splitOn '.') none)

theorem selector_eq (hs : splitFirst? arrow s = some (field, path)) (hd : g.dialect ≠ .generic) :
    g.selector s = .ok (opening g.dialect ++ g.columnChars field ++ ending g.dialect path) := by
  have harguments : g.pathArguments s = g.columnChars field ++ ',' :: ' ' :: pathLiteral path := by
    rw [pathArguments, fieldAndPath, hs]
    rfl
  have hchain := postgresChain_eq (g := g) hs
  rw [selector, ending, opening]
  cases hdialect : g.dialect with
  | generic => exact absurd hdialect hd
  | postgres => simp [hchain, functions]
  | mysql | sqlite | sqlServer => simp [harguments, functions, callOf]

theorem toList_columnChars_qualified (hdotless : '.' ∉ g.tablePrefix.toList) (name s : List Char) :
    g.columnChars (name ++ '.' :: s) = (g.tableText name ++ "." ++ g.behindTable s).toList := by
  rw [columnChars, column_qualified _ hdotless]
  simp [tableText, behindTable]

theorem readReference_tableText (hdotless : '.' ∉ g.tablePrefix.toList) (name : List Char) :
    readReference g.dialect (g.tableText name) =
      some (prefixed g.tablePrefix.toList (name.splitOn '.'), none) := by
  rw [tableText, table_eq _ hdotless]
  exact readReference_spelled (prefixed_ne_nil (List.splitOn_ne_nil '.' name)) none

theorem wrapTable_eq (hdotless : '.' ∉ g.tablePrefix.toList) (hr : Parted r.toList expression label)
    (hlabel : ∀ l ∈ label, '.' ∉ l) : g.wrapTable r =
      (if label.isSome then g.tableText expression ++ " as " else "") ++
        g.tableText (label.getD expression) := by
  rw [wrapTable_spelled hdotless hr]
  cases label with
  | none => simp [tableText, table_eq _ hdotless]
  | some l =>
    have hl : l.splitOn '.' = [l] := List.splitOn_eq_singleton (hlabel l rfl)
    simp [tableText, table_eq _ hdotless, hl, spelled, prefixed, aliasMark,
      ← String.toList_inj]

def Fronts (front : String) : Prop :=
  front = "" ∨ ∃ named, front = named ++ " as "

theorem Fronts.append {front : String} (h : Fronts front) {front' : String} (h' : Fronts front') :
    Fronts (front' ++ front) := by
  rcases h with rfl | ⟨named, rfl⟩
  · simpa using h'
  · exact .inr ⟨front' ++ named, String.append_assoc.symm⟩

/-- The reference `t` stands for the table `r`, or for a derived table that `r` is the name of. -/
inductive Introduces (g : Grammar) (r : String) : Reference → Prop
  | table : g.Introduces r (.name r)
  | derivedSource {q inner : Query} {sql : Sql} {t : Reference} : q.grammar = g →
      g.select inner = .ok sql → (q.sourceQuery inner r).source = some t → g.Introduces r t
  | derivedJoin {q inner : Query} {sql : Sql} {kind : JoinKind} {first second : String}
      {operator : OperatorName} {join : Join Query} : q.grammar = g →
      g.select inner = .ok sql →
      (q.joinQuery kind inner r first operator second).joins.getLast? = some join →
      g.Introduces r join.table

theorem Introduces.text_tableReference {t : Reference} (h : g.Introduces r t) :
    ∃ front, Fronts front ∧ (g.tableReference t).text = front ++ g.wrapTable r := by
  have hderived (sql : Sql) : (g.tableReference (Query.aliased sql (g.wrapTable r))).text =
      sql.enclosed.text ++ " as " ++ g.wrapTable r := by
    simp [tableReference, Query.aliased]
  cases h with
  | table => exact ⟨"", .inl rfl, by simp [tableReference]⟩
  | @derivedSource q inner sql t hg hsql ht =>
    simp only [Query.sourceQuery, Query.withEmbedded, Query.embed, hg, hsql] at ht
    obtain rfl := Option.some.inj ht
    rw [Query.grammar_absorb, hg]
    exact ⟨_, .inr ⟨_, rfl⟩, hderived sql⟩
  | @derivedJoin q inner sql kind first second operator join hg hsql hjoin =>
    simp only [Query.joinQuery, Query.withEmbedded, Query.embed, hg, hsql, Query.joinOn,
      Query.addJoin, List.getLast?_concat] at hjoin
    obtain rfl := Option.some.inj hjoin
    rw [Query.grammar_absorb, hg]
    exact ⟨_, .inr ⟨_, rfl⟩, hderived sql⟩

structure Brings (g : Grammar) (t : Reference) (name : String) : Prop where
  source : ∀ c : Clauses, ∃ front, Fronts front ∧
    (g.sourceClause c t).text = "from " ++ front ++ name ++ (g.lockHint c.lock).text
  join : ∀ (kind : JoinKind) (clause : Clauses) (e : Embedded), ∃ front rest, Fronts front ∧
    (∀ c ∈ rest.toList.head?, c = ' ') ∧ (g.joinText kind t clause e).text =
      kind.word ++ " join " ++ (if e.joins.isEmpty then "" else "(") ++ front ++ name ++ rest

theorem exists_trimmedText_tableText (hdotless : '.' ∉ g.tablePrefix.toList) (s : String)
    (name : List Char) (tail : String) : ∃ rest : String, (∀ c ∈ rest.toList.head?, c = ' ') ∧
      Sql.trimmedText (s ++ g.tableText name ++ (" " ++ tail)) = s ++ g.tableText name ++ rest := by
  have hnames : prefixed g.tablePrefix.toList (name.splitOn '.') ≠ [] :=
    prefixed_ne_nil (List.splitOn_ne_nil '.' name)
  obtain ⟨c, hend, hlast⟩ := exists_getLast?_spelled g.dialect hnames
  have hc : isBlank c = false := by
    have hall : ∀ d : Dialect, ['*', d.quotes.closing].all (!isBlank ·) := by
      rintro ⟨⟩ <;> decide
    simpa using List.all_eq_true.1 (hall g.dialect) c hend
  have hs : (s ++ g.tableText name).toList.getLast? = some c := by
    rw [← quotes, ← table_eq g.quotes hdotless] at hlast
    simp [tableText, List.getLast?_append, hlast]
  have htail : (" " ++ tail).toList = ' ' :: tail.toList := by simp
  refine ⟨String.ofList (trimEnd (' ' :: tail.toList)), fun c hc ↦ ?_, ?_⟩
  · rw [String.toList_ofList] at hc
    exact head?_trimEnd hc
  · rw [← String.toList_inj, Sql.toList_trimmedText, String.toList_append, htail,
      trimEnd_append_of_getLast? hs hc]
    simp

theorem brings_of_text {t : Reference} {front : String} (hfront : Fronts front)
    (ht : (g.tableReference t).text = front ++ g.tableText name)
    (hdotless : '.' ∉ g.tablePrefix.toList) : g.Brings t (g.tableText name) where
  source c := ⟨front, hfront, by simp [sourceClause, ht, String.append_assoc]⟩
  join kind clause e := by
    rw [joinText, Sql.text_trimEnd]
    by_cases he : e.joins.isEmpty
    · obtain ⟨rest, hrest, htext⟩ := exists_trimmedText_tableText hdotless
        (kind.word ++ " join " ++ front) name
        ((clause.conditionClause? e.conditions).getD .empty).text
      refine ⟨front, rest, hfront, hrest, ?_⟩
      simpa [he, ht, String.append_assoc] using htext
    · obtain ⟨rest, hrest, htext⟩ := exists_trimmedText_tableText hdotless
        (kind.word ++ " join " ++ "(" ++ front) name ((Sql.join " " e.joins).text ++ ")" ++
          (" " ++ ((clause.conditionClause? e.conditions).getD .empty).text))
      refine ⟨front, rest, hfront, hrest, ?_⟩
      simpa [he, ht, Sql.enclosed, String.append_assoc, -String.reduceAppend] using htext

def fieldOf (s : List Char) : List Char :=
  ((splitFirst? arrow s).map Prod.fst).getD s

/-- The columns of the table `name` are written behind the qualifier, in the functions around a
selector too. -/
structure Qualifies (g : Grammar) (name qualifier : String) : Prop where
  column : ∀ c : String, ¬ aliasMark <:+: c.toList.map Char.toLower → ¬ arrow <:+: c.toList →
    g.wrap (qualify name c) = .ok (qualifier ++ "." ++ g.behindTable c.toList)
  selector : ∀ (c : String) (field path : List Char), ¬ aliasMark <:+: c.toList.map Char.toLower →
    splitFirst? arrow c.toList = some (field, path) → g.dialect ≠ .generic →
    g.wrap (qualify name c) = .ok (String.ofList (opening g.dialect) ++
      (qualifier ++ "." ++ g.behindTable field) ++ String.ofList (ending g.dialect path))
  arguments : ∀ c : String, g.fieldAndPath (qualify name c).toList =
    ((qualifier ++ "." ++ g.behindTable (fieldOf c.toList)).toList, (g.fieldAndPath c.toList).2)

theorem qualifies_tableText (hdotless : '.' ∉ g.tablePrefix.toList) (hname : ¬ arrow <:+: name)
    (hmark : ¬ aliasMark <:+: name.map Char.toLower) :
    g.Qualifies (String.ofList name) (g.tableText name) := by
  have htoList (c : String) :
      (qualify (String.ofList name) c).toList = name ++ '.' :: c.toList := by
    rw [toList_qualify, String.toList_ofList]
  have hwrap (c : String) (hc : ¬ aliasMark <:+: c.toList.map Char.toLower) :
      g.wrap (qualify (String.ofList name) c) =
        (g.unaliased (name ++ '.' :: c.toList)).map String.ofList := by
    rw [wrap, htoList, (parted_qualified hmark hc).splitAlias?_eq]
    rfl
  refine ⟨fun c hc harrow ↦ ?_, fun c field path hc hs hd ↦ ?_, fun c ↦ ?_⟩
  · have hplain : isJsonSelector (name ++ '.' :: c.toList) = false := by
      rw [isJsonSelector, ← Bool.not_eq_true, contains_iff]
      exact arrow_qualified hname harrow
    rw [hwrap c hc, unaliased, hplain, toList_columnChars_qualified hdotless]
    exact congrArg Except.ok String.ofList_toList
  · have hsplit := splitFirst?_arrow_qualified hname hs
    have hjson : isJsonSelector (name ++ '.' :: c.toList) = true := by
      rw [isJsonSelector, contains, hsplit]
      rfl
    rw [hwrap c hc, unaliased, hjson, if_pos rfl, selector_eq hsplit hd,
      toList_columnChars_qualified hdotless]
    simp [Except.map, ← String.toList_inj]
  · rw [htoList, fieldAndPath, fieldAndPath, fieldOf]
    cases hs : splitFirst? arrow c.toList with
    | none =>
      have hplain := arrow_qualified hname (splitFirst?_eq_none_iff.1 hs)
      rw [splitFirst?_eq_none_iff.2 hplain]
      exact congrArg (·, []) (toList_columnChars_qualified hdotless name c.toList)
    | some p =>
      obtain ⟨field, path⟩ := p
      rw [splitFirst?_arrow_qualified hname hs]
      exact congrArg (·, _) (toList_columnChars_qualified hdotless name field)

/-- Tables and columns agree on names. The name by which a table is known, its alias if it has one,
is written as one identifier: sources, joins and derived tables bring in the table under it, and the
columns behind that name are written behind it. -/
theorem qualifiers_agree (g : Grammar) (hdotless : '.' ∉ g.tablePrefix.toList)
    (hr : Parted r.toList expression label)
    (hlabel : ∀ l ∈ label, '.' ∉ l ∧ ¬ aliasMark <:+: l.map Char.toLower)
    (harrow : ¬ arrow <:+: label.getD expression) :
    ∃ front qualifier, g.wrapTable r = front ++ qualifier ∧
      (front = if label.isSome then g.tableText expression ++ " as " else "") ∧
      readReference g.dialect qualifier =
        some (prefixed g.tablePrefix.toList ((label.getD expression).splitOn '.'), none) ∧
      (∀ t, g.Introduces r t → g.Brings t qualifier) ∧
      g.Qualifies (String.ofList (label.getD expression)) qualifier := by
  have htext := wrapTable_eq hdotless hr fun l hl ↦ (hlabel l hl).1
  have hmark : ¬ aliasMark <:+: (label.getD expression).map Char.toLower := by
    cases hr with
    | plain hplain => exact hplain
    | aliased => exact (hlabel _ rfl).2
  have hfronts : Fronts (if label.isSome then g.tableText expression ++ " as " else "") := by
    split
    · exact .inr ⟨_, rfl⟩
    · exact .inl rfl
  refine ⟨_, g.tableText (label.getD expression), htext, rfl, readReference_tableText hdotless _,
    fun t ht ↦ ?_, qualifies_tableText hdotless harrow hmark⟩
  obtain ⟨front, hfront, hreference⟩ := ht.text_tableReference
  rw [htext, ← String.append_assoc] at hreference
  exact brings_of_text (hfronts.append hfront) hreference hdotless

/-- A selector behind an alias, with the prefix in both. -/
theorem qualifiers_agree_aliased :
    let g : Grammar := { dialect := .mysql, tablePrefix := "app_" }
    '.' ∉ g.tablePrefix.toList ∧
      Parted "shop.users as u".toList "shop.users".toList (some "u".toList) ∧
      ∃ front qualifier, g.wrapTable "shop.users as u" = front ++ qualifier ∧
        readReference .mysql qualifier = some (["app_u".toList], none) ∧
        g.Brings (.name "shop.users as u") qualifier ∧
        g.wrap "u.meta->name" = .ok ("json_unquote(json_extract(" ++
          (qualifier ++ "." ++ g.behindTable "meta".toList) ++ ", '$.\"name\"'))") := by
  intro g
  have hdotless : '.' ∉ g.tablePrefix.toList := by decide
  have hr : Parted "shop.users as u".toList "shop.users".toList (some "u".toList) :=
    parted_of_splitAlias?_eq_some
      (by decide : splitAlias? _ = some ("shop.users".toList, "u".toList))
  have hlabel : ∀ l ∈ some "u".toList, '.' ∉ l ∧ ¬ aliasMark <:+: l.map Char.toLower := by decide
  obtain ⟨front, qualifier, htext, -, hread, hbrings, hqualifies⟩ :=
    qualifiers_agree g hdotless hr hlabel (by decide)
  have hs : splitFirst? arrow "meta->name".toList = some ("meta".toList, "name".toList) := by decide
  have hopening : "json_unquote(json_extract(" = String.ofList (opening .mysql) := by decide
  have hending : ", '$.\"name\"'))" = String.ofList (ending .mysql "name".toList) := by decide
  have hprefix : prefixed g.tablePrefix.toList ["u".toList] = ["app_u".toList] := by decide
  rw [Option.getD_some, List.splitOn_eq_singleton (by decide), hprefix] at hread
  refine ⟨hdotless, hr, front, qualifier, htext, hread, hbrings _ .table, ?_⟩
  rw [hopening, hending]
  exact hqualifies.selector "meta->name" _ _ (by decide) hs (by decide)

end Grammar

end FluentSql
