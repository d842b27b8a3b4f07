import FluentSql.Proofs.Conditions.Restricting
import FluentSql.Proofs.Lexing.Names

namespace FluentSql

open Text Lexing

namespace Text

variable {mark s t : List Char} {c : Char}

theorem prefix_of_prefix_append_cons (hc : c ∉ mark) (h : mark <+: s ++ c :: t) : mark <+: s := by
  have hs : s <+: s ++ c :: t := List.prefix_append s (c :: t)
  refine List.prefix_of_prefix_length_le h hs ?_
  by_contra hlen
  have hsc : s ++ [c] <+: s ++ c :: t := ⟨t, by simp⟩
  have hlen' : (s ++ [c]).length ≤ mark.length := by
    rw [List.length_append, List.length_singleton]
    omega
  exact hc ((List.prefix_of_prefix_length_le hsc h hlen').subset (by simp))

theorem not_infix_append_cons (hc : c ∉ mark) (hm : mark ≠ []) (hs : ¬ mark <:+: s)
    (ht : ¬ mark <:+: t) : ¬ mark <:+: s ++ c :: t := by
  induction s with
  | nil =>
    rw [List.nil_append, List.infix_cons_iff, not_or]
    exact ⟨fun h ↦ hm (List.prefix_nil.1 (prefix_of_prefix_append_cons hc h)), ht⟩
  | cons d s ih =>
    rw [List.infix_cons_iff, not_or] at hs
    rw [List.cons_append, List.infix_cons_iff, not_or]
    exact ⟨fun h ↦ hs.1 (prefix_of_prefix_append_cons hc h), ih hs.2⟩

end Text

namespace Quoting

variable {s expression column : List Char} {label : List Char}

/-- What is put behind a text with a label belongs to the label. -/
theorem Parted.append (h : Parted s expression (some label)) (column : List Char) :
    Parted (s ++ '.' :: column) expression (some (label ++ '.' :: column)) := by
  cases h with
  | @aliased before mark after hs hm hfirst =>
    have hlabel : after.dropWhile isBlank ++ '.' :: column =
        (after ++ '.' :: column).dropWhile isBlank := by
      rw [List.dropWhile_append]
      split
      · rename_i hall
        rw [List.isEmpty_iff.1 hall]
        exact (List.dropWhile_cons_of_neg (by decide)).symm
      · rfl
    rw [hlabel]
    refine .aliased (by rw [hs, List.append_assoc]) hm fun before' mark' after' hs' hm' ↦ ?_
    by_contra hlt
    have hlen := congrArg List.length hs
    simp only [List.length_append, length_mark hm] at hlen
    have hfits : (before' ++ mark').length ≤ s.length := by
      rw [List.length_append, length_mark hm', hlen]
      omega
    have hwhole : before' ++ mark' <+: s ++ '.' :: column := ⟨after', hs'.symm⟩
    obtain ⟨rest, hrest⟩ :=
      List.prefix_of_prefix_length_le hwhole (List.prefix_append s ('.' :: column)) hfits
    exact hlt (hfirst before' mark' rest hrest.symm hm')

theorem Parted.label_infix (h : Parted s expression (some label)) : label <:+: s := by
  cases h with
  | aliased hs =>
    rw [hs]
    exact ((List.dropWhile_suffix isBlank).trans (List.suffix_append _ _)).isInfix

theorem parted_qualified (hs : ¬ aliasMark <:+: s.map Char.toLower)
    (hcolumn : ¬ aliasMark <:+: column.map Char.toLower) :
    Parted (s ++ '.' :: column) (s ++ '.' :: column) none := by
  have hdot : '.' ∉ aliasMark := by decide
  have hne : aliasMark ≠ [] := by decide
  have h := not_infix_append_cons hdot hne hs hcolumn
  exact .plain (by simpa using h)

theorem arrow_qualified (hs : ¬ arrow <:+: s) (hcolumn : ¬ arrow <:+: column) :
    ¬ arrow <:+: s ++ '.' :: column :=
  not_infix_append_cons (by decide) (List.cons_ne_nil _ _) hs hcolumn

end Quoting

open Quoting

def qualify (table column : String) : String := table ++ "." ++ column

theorem toList_qualify (table column : String) :
    (qualify table column).toList = table.toList ++ '.' :: column.toList := by
  simp [qualify]

theorem append_dot (table column : String) : table ++ ("." ++ column) = qualify table column :=
  String.append_assoc.symm

namespace Grammar

variable {g : Grammar} {source column : String} {expression : List Char}
  {label : Option (List Char)}

/-- Behind a source with an alias, a column is read as a part of the alias. -/
theorem readReference_qualify {l : List Char} (h : Parted source.toList expression (some l))
    (hsource : ¬ arrow <:+: source.toList) (hcolumn : ¬ arrow <:+: column.toList) :
    ∃ text, g.wrap (qualify source column) = .ok text ∧ readReference g.dialect text =
      some (qualified g.tablePrefix.toList (expression.splitOn '.'),
        some (l ++ '.' :: column.toList)) := by
  refine readReference_wrap ?_ ?_
  · rw [toList_qualify]
    exact arrow_qualified hsource hcolumn
  · rw [toList_qualify]
    exact h.append column.toList

/-- A column behind the source is a column of its alias, or of the table that has none, only in the
second case. -/
theorem wrap_qualify_eq_iff (h : Parted source.toList expression label)
    (hsource : ¬ arrow <:+: source.toList)
    (hlabel : ∀ l ∈ label, ¬ aliasMark <:+: l.map Char.toLower)
    (hcolumn : ¬ arrow <:+: column.toList)
    (hmark : ¬ aliasMark <:+: column.toList.map Char.toLower) :
    g.wrap (qualify source column) =
        g.wrap (qualify (String.ofList (label.getD expression)) column) ↔ label = none := by
  constructor
  · intro he
    cases label with
    | none => rfl
    | some l =>
      obtain ⟨text, htext, hread⟩ := readReference_qualify (g := g) h hsource hcolumn
      have hown : Parted (qualify (String.ofList l) column).toList
          (l ++ '.' :: column.toList) none := by
        rw [toList_qualify, String.toList_ofList]
        exact parted_qualified (hlabel l rfl) hmark
      have harrow : ¬ arrow <:+: (qualify (String.ofList l) column).toList := by
        rw [toList_qualify, String.toList_ofList]
        exact arrow_qualified (fun hl ↦ hsource (hl.trans h.label_infix)) hcolumn
      obtain ⟨text', htext', hread'⟩ := readReference_wrap (g := g) harrow hown
      obtain rfl : text = text' := Except.ok.inj (htext.symm.trans (he.trans htext'))
      obtain ⟨-, hnone⟩ := Prod.mk.inj (Option.some.inj (hread.symm.trans hread'))
      cases hnone
  · rintro rfl
    cases h with
    | plain => rw [Option.getD_none, String.ofList_toList]

end Grammar

namespace Query

open Session

variable {σ H : Type} {d : Driver σ H} {q : Query} {source : String} {expression : List Char}
  {label : Option (List Char)}

theorem deleteById_narrows (hsource : q.source = some (.name source)) (id : Value) : Asks
    (fun r ↦ ∃ q', q.Narrows q' [compared (qualify source "id") .equal (.bound id)] ∧ q'.Deletes r)
    (q.deleteById d id).run := by
  have hdelete : q.deleteById d id =
      (q.addComparison .and (qualify source "id") .equal (.bound id)).delete d := by
    rw [deleteById, hsource, ← append_dot]
    rfl
  rw [hdelete]
  exact delete_asks.mono fun _ hr ↦ ⟨_, narrows_equality, hr⟩

theorem text_compared (g : Grammar) {column : String} (hcolumn : ¬ arrow <:+: column.toList)
    (id : Value) : (g.test (compared column .equal (.bound id))).map Sql.text =
      (g.wrap column).map (· ++ if id.isNull then " is null" else " = ?") := by
  have hjson : isJsonSelector column.toList = false := by
    rw [isJsonSelector, ← Bool.not_eq_true, contains_iff]
    exact hcolumn
  have hsymbol : g.comparisonSymbol .equal = "=" := by
    unfold Grammar.comparisonSymbol
    split <;> rfl
  have hlike : Operator.equal.isLike = false := by decide
  cases hnull : id.isNull with
  | true =>
    have htest : compared column .equal (.bound id) = .null column false := by
      unfold compared
      rw [Operand.isNull, if_pos hnull]
      rfl
    rw [htest, Grammar.test, Grammar.nullTest, if_neg (by simp [hjson])]
    cases g.wrap column with
    | error e => rfl
    | ok c =>
      refine congrArg Except.ok ((Sql.text_coe _).trans ?_)
      rw [String.append_assoc, String.append_assoc]
      rfl
  | false =>
    have htest : compared column .equal (.bound id) = .basic column .equal (.bound id) := by
      unfold compared
      rw [Operand.isNull, if_neg (by simp [hnull])]
      cases id <;> simp [hjson]
    rw [htest, Grammar.test, Grammar.basicTest, hsymbol, hlike]
    cases g.wrap column with
    | error e => rfl
    | ok c =>
      have htext : ((c : Sql) ++ " " ++ "=" ++ " " ++ .slot id).text = c ++ " = ?" := by
        simp only [Sql.text_append, Sql.text_coe, String.append_assoc]
        rfl
      exact (congrArg (Except.map Sql.text) (if_neg fun h ↦ Bool.false_ne_true h.2)).trans
        (congrArg Except.ok htext)

@[simp] theorem unwindowed_columns (q : Query) : q.unwindowed.columns = q.columns := by
  rw [unwindowed, reorder]
  rfl

@[simp] theorem unwindowed_source (q : Query) : q.unwindowed.source = q.source := by
  rw [unwindowed, reorder]
  rfl

/-- A grouped count over joins selects all columns behind the source. -/
theorem counting_qualified (hsource : q.source = some (.name source)) (hcolumns : q.columns = none)
    (hjoins : q.joins ≠ []) (hgroups : q.groups ≠ [] ∨ q.havings ≠ []) :
    q.counting = (q.select [.name (qualify source "*")]).counting := by
  have hcount : ¬ (q.groups.isEmpty ∧ q.havings.isEmpty) := by
    simpa [← not_and_or] using hgroups
  have hcount' : ¬ ((q.select [.name (qualify source "*")]).groups.isEmpty ∧
      (q.select [.name (qualify source "*")]).havings.isEmpty) := hcount
  have hstar : source ++ ".*" = qualify source "*" := by
    rw [← append_dot]
    rfl
  have hjoins : ¬ q.unwindowed.joins.isEmpty := fun h ↦ hjoins (List.isEmpty_iff.1 h)
  have hcolumns : q.unwindowed.columns = none := by rwa [unwindowed_columns]
  have hsource : q.unwindowed.source = some (.name source) := by rwa [unwindowed_source]
  rw [counting, if_neg hcount]
  dsimp only
  rw [hcolumns, hsource]
  dsimp only [Option.bind_some, Reference.name?]
  rw [if_neg hjoins, hstar, counting, if_neg hcount']
  rfl

theorem selectRows_qualified (g : Grammar) (hsource : q.source = some (.name source))
    (h : Parted source.toList expression label) (identifier : String) :
    g.selectRows q identifier = g.select { q with
      columns := some [.name (qualify (String.ofList (label.getD expression)) identifier)] } := by
  have hname : q.source.bind Reference.name? = some source := by
    rw [hsource]
    rfl
  rw [Grammar.selectRows, hname]
  dsimp only
  rw [h.splitAlias?_eq]
  cases h with
  | plain => rw [Option.getD_none, String.ofList_toList]; rfl
  | aliased => rfl

theorem mapM_pair {α : Type} {f f' : α → Except Error String} {mark : String} {xs : List α}
    {pairs : List String}
    (h : (xs.mapM fun x ↦ do return (← f x) ++ mark ++ (← f' x)) = .ok pairs) :
    ∃ ys ys', xs.mapM f = .ok ys ∧ xs.mapM f' = .ok ys' ∧
      pairs = ys.zipWith (· ++ mark ++ ·) ys' := by
  induction xs generalizing pairs with
  | nil =>
    cases h
    exact ⟨[], [], rfl, rfl, rfl⟩
  | cons x xs ih =>
    rw [List.mapM_cons] at h
    obtain ⟨pair, hpair, h⟩ := bind_eq_ok.1 h
    obtain ⟨rest, hrest, h⟩ := bind_eq_ok.1 h
    obtain ⟨y, hy, hpair⟩ := bind_eq_ok.1 hpair
    obtain ⟨y', hy', hpair⟩ := bind_eq_ok.1 hpair
    obtain ⟨ys, ys', hys, hys', rfl⟩ := ih hrest
    cases pure_eq_ok.1 hpair
    cases pure_eq_ok.1 h
    refine ⟨y :: ys, y' :: ys', ?_, ?_, rfl⟩
    · rw [List.mapM_cons, hy, hys]
      rfl
    · rw [List.mapM_cons, hy', hys']
      rfl

/-- The unique columns of a merge, those of the new rows beside those behind the source. -/
theorem merge_qualified {g : Grammar} (hsource : q.source = some (.name source))
    {records : List (Record Value)} {uniqueBy update : List String} {sql : Sql}
    (h : g.merge q records uniqueBy update = .ok sql) :
    ∃ columns theirs ours rest,
      uniqueBy.mapM (fun column ↦ g.wrap ("upsert_source." ++ column)) = .ok theirs ∧
      uniqueBy.mapM (fun column ↦ g.wrap (qualify source column)) = .ok ours ∧
      sql = "merge " ++ g.wrapTable source ++ " using (values " ++ Grammar.rows records ++ ") " ++
        g.wrapTable "upsert_source" ++ " (" ++ columns ++ ") on " ++
        " and ".intercalate (theirs.zipWith (· ++ " = " ++ ·) ours) ++ rest := by
  have hname : q.source.bind Reference.name? = some source := by
    rw [hsource]
    rfl
  rw [Grammar.merge, hname] at h
  cases records with
  | nil => cases h
  | cons first records =>
    obtain ⟨columns, -, h⟩ := bind_eq_ok.1 h
    obtain ⟨matching, hmatching, h⟩ := bind_eq_ok.1 h
    obtain ⟨sets, -, h⟩ := bind_eq_ok.1 h
    obtain ⟨theirs, ours, htheirs, hours, rfl⟩ := mapM_pair hmatching
    refine ⟨columns, theirs, ours, ?_, htheirs, hours, (pure_eq_ok.1 h).symm.trans ?_⟩
    rotate_left
    · simp only [Sql.append_assoc]
      rfl

/-- The names behind which a query puts columns of its source: one for the identifiers of rows, and
one for the id of a deleted row, the columns of a counted group and the unique columns of a
merge. -/
structure Refers (d : Driver σ H) (q : Query) (source own : String) : Prop where
  rows : ∀ (g : Grammar) identifier, g.selectRows q identifier =
    g.select { q with columns := some [.name (qualify own identifier)] }
  deleted : ∀ id (s : Session σ H), ∀ r ∈ s.asked ((q.deleteById d id).on s).2,
    ∃ q', q.Narrows q' [compared (qualify source "id") .equal (.bound id)] ∧ q'.Deletes r
  condition : ∀ (g : Grammar) id,
    (g.test (compared (qualify source "id") .equal (.bound id))).map Sql.text =
      (g.wrap (qualify source "id")).map (· ++ if id.isNull then " is null" else " = ?")
  counted : q.columns = none → q.joins ≠ [] → q.groups ≠ [] ∨ q.havings ≠ [] →
    q.counting = (q.select [.name (qualify source "*")]).counting
  merged : ∀ {g : Grammar} {records uniqueBy update sql},
    g.merge q records uniqueBy update = .ok sql → ∃ columns theirs ours rest,
      uniqueBy.mapM (fun column ↦ g.wrap ("upsert_source." ++ column)) = .ok theirs ∧
      uniqueBy.mapM (fun column ↦ g.wrap (qualify source column)) = .ok ours ∧
      sql = "merge " ++ g.wrapTable source ++ " using (values " ++ Grammar.rows records ++ ") " ++
        g.wrapTable "upsert_source" ++ " (" ++ columns ++ ") on " ++
        " and ".intercalate (theirs.zipWith (· ++ " = " ++ ·) ours) ++ rest

/-- The identifiers of rows are columns of the alias of the source, or of the source itself. All
other columns are put behind the source as it was given, which is the same text only without an
alias: behind an alias they are read as a part of it. -/
theorem references_follow (d : Driver σ H) (hsource : q.source = some (.name source))
    (hparted : Parted source.toList expression label) (harrow : ¬ arrow <:+: source.toList)
    (hlabel : ∀ l ∈ label, ¬ aliasMark <:+: l.map Char.toLower) :
    q.Refers d source (String.ofList (label.getD expression)) ∧
    ∀ (g : Grammar) (column : String), ¬ arrow <:+: column.toList →
      ¬ aliasMark <:+: column.toList.map Char.toLower →
      (g.wrap (qualify source column) =
          g.wrap (qualify (String.ofList (label.getD expression)) column) ↔ label = none) ∧
      ∀ l ∈ label, ∃ text, g.wrap (qualify source column) = .ok text ∧
        readReference g.dialect text = some
          (qualified g.tablePrefix.toList (expression.splitOn '.'),
            some (l ++ '.' :: column.toList)) := by
  have hid : ¬ arrow <:+: (qualify source "id").toList := by
    rw [toList_qualify]
    exact arrow_qualified harrow (by decide)
  have hrefers : q.Refers d source (String.ofList (label.getD expression)) :=
    { rows := fun g ↦ selectRows_qualified g hsource hparted
      deleted := fun id s ↦ (deleteById_narrows hsource id s).2
      condition := fun g ↦ text_compared g hid
      counted := counting_qualified hsource
      merged := merge_qualified hsource }
  refine ⟨hrefers, fun g column hcolumn hmark ↦ ⟨?_, ?_⟩⟩
  · exact Grammar.wrap_qualify_eq_iff hparted harrow hlabel hcolumn hmark
  · rintro l rfl
    exact Grammar.readReference_qualify hparted harrow hcolumn

theorem references_follow_members :
    let q : Query := { grammar := { dialect := .postgres }, source := some (.name "users AS u") }
    Parted "users AS u".toList "users".toList (some "u".toList) ∧
      q.Refers Script.driver "users AS u" "u" ∧
      ∀ g : Grammar, g.wrap (qualify "users AS u" "id") ≠ g.wrap (qualify "u" "id") := by
  intro q
  have hparted : Parted "users AS u".toList "users".toList (some "u".toList) :=
    parted_of_splitAlias?_eq_some (by decide : splitAlias? _ = some ("users".toList, "u".toList))
  have hlabel : ∀ l ∈ some "u".toList, ¬ aliasMark <:+: l.map Char.toLower := by decide
  obtain ⟨hrefers, htexts⟩ :=
    references_follow (q := q) Script.driver rfl hparted (by decide) hlabel
  refine ⟨hparted, hrefers, fun g he ↦ ?_⟩
  cases (htexts g "id" (by decide) (by decide)).1.1 he

/-- The id of a deleted row ends up in the alias. -/
theorem references_follow_misplaced :
    let g : Grammar := { dialect := .mysql }
    let s : Session Script String :=
      { connection := { write := "write", grammar := g, processor := .mysql }, world := {} }
    let q : Query := { grammar := g, source := some (.name "users as u") }
    (s.asked ((q.deleteById Script.driver (.int32 7)).on s).2).map Request.sql =
        ["delete from `users` as `u` where `users` as `u.id` = ?"] ∧
      (g.wrap "u.id").toOption = some "`u`.`id`" ∧
      (g.wrap "users as u.id").toOption = some "`users` as `u.id`" := by
  decide +kernel

end Query

end FluentSql
