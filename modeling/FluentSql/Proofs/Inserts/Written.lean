import FluentSql.Proofs.Inserts.Sorting
import FluentSql.Proofs.Lexing.Names
import FluentSql.Proofs.Numbering.Pieces
import FluentSql.Proofs.Slots.Written

namespace FluentSql

open Quoting

theorem Sql.text_intercalate (mark : String) (ss : List Sql) :
    (Sql.join mark ss).text = mark.intercalate (ss.map Sql.text) := by
  fun_induction Sql.join mark ss with
  | case1 => rfl
  | case2 s => exact String.intercalate_singleton.symm
  | case3 s t rest ih =>
    simp only [text_append, text_coe, ih, List.map_cons, String.intercalate_cons_cons]

theorem Sql.text_enclosed (s : Sql) : s.enclosed.text = "(" ++ s.text ++ ")" := by
  simp only [enclosed, text_append, text_coe]

def Operand.shown : Operand Value → String
  | bound _ => "?"
  | raw sql => sql

theorem Operand.text_sql (o : Operand Value) : o.sql.text = o.shown := by
  cases o with
  | bound v => exact String.empty_append
  | raw sql => exact String.empty_append

def tuple (row : List (Operand Value)) : String :=
  "(" ++ ", ".intercalate (row.map Operand.shown) ++ ")"

def tuples (rows : List (List (Operand Value))) : String := ", ".intercalate (rows.map tuple)

def boundValues (rows : List (List (Operand Value))) : List Value :=
  rows.flatMap (List.flatMap Operand.values)

/-- A statement shows quoted columns and rows in a layout, and has the placeholders of the rows. -/
structure Displays (g : Grammar) (layout : String → String → String) (columns : List String)
    (rows : List (List (Operand Value))) (sql : Sql) : Prop where
  text : ∃ quoted, List.Forall₂ (fun c w ↦ g.wrap c = .ok w) columns quoted ∧
    sql.text = layout (", ".intercalate quoted) (tuples rows)
  slots : sql.slots = boundValues rows

section

variable (records : List (Record Value))

theorem recordValues_eq : recordValues records = boundValues (records.map Record.operands) := by
  simp only [recordValues, boundValues, Record.operands, List.flatMap_map]
  rfl

theorem slots_rows : (Grammar.rows records).slots = boundValues (records.map Record.operands) := by
  simp only [Grammar.rows, Grammar.operands, Sql.slots_join, List.flatMap_map, Sql.slots_enclosed,
    Operand.slots_sql, boundValues, Record.operands]

theorem text_rows : (Grammar.rows records).text = tuples (records.map Record.operands) := by
  rw [Grammar.rows, Sql.text_intercalate, tuples, List.map_map, List.map_map]
  refine congrArg _ (List.map_congr_left fun r _ ↦ ?_)
  simp only [Function.comp_apply, Sql.text_enclosed, Grammar.operands, Sql.text_intercalate, tuple,
    List.map_map, Record.operands]
  have hshown : Sql.text ∘ Operand.sql ∘ Prod.snd = Operand.shown ∘ (Prod.snd (α := String)) :=
    funext fun a ↦ a.2.text_sql
  rw [hshown]

end

def insertion (verb table tail columns rows : String) : String :=
  verb ++ " into " ++ table ++ " (" ++ columns ++ ") values " ++ rows ++ tail

def merging (table source matching columns rows : String) : String :=
  "merge " ++ table ++ " using (values " ++ rows ++ ") " ++ source ++ " (" ++ columns ++ ") on " ++
    matching ++ "when not matched then insert (" ++ columns ++ ") values (" ++ columns ++ ");"

def ignoring : Dialect → Option (String × String)
  | .mysql => some ("insert ignore", "")
  | .sqlite => some ("insert or ignore", "")
  | .postgres => some ("insert", " on conflict do nothing")
  | _ => none

def upsertion (g : Grammar) (table rest : String) : String → String → String :=
  match g.dialect with
  | .sqlServer => merging (g.wrapTable table) (g.wrapTable "upsert_source") rest
  | _ => insertion "insert" (g.wrapTable table) rest

theorem Displays.append {g : Grammar} {verb table tail : String} {columns : List String}
    {rows : List (List (Operand Value))} {sql : Sql}
    (h : Displays g (insertion verb table tail) columns rows sql) (more : Sql)
    (hmore : more.slots = []) :
    Displays g (insertion verb table (tail ++ more.text)) columns rows (sql ++ more) := by
  obtain ⟨quoted, hquoted, htext⟩ := h.text
  refine ⟨⟨quoted, hquoted, ?_⟩, ?_⟩
  · rw [Sql.text_append, htext, insertion, insertion, String.append_assoc]
  · rw [Sql.slots_append, hmore, h.slots, List.append_nil]

theorem exists_mapM {α β : Type} {f : α → Except Error β} {as : List α}
    (hf : ∀ a ∈ as, ∃ b, f a = .ok b) :
    ∃ bs, as.mapM f = .ok bs ∧ List.Forall₂ (fun a b ↦ f a = .ok b) as bs := by
  induction as with
  | nil => exact ⟨[], rfl, .nil⟩
  | cons a as ih =>
    obtain ⟨b, hb⟩ := hf a List.mem_cons_self
    obtain ⟨bs, hbs, hall⟩ := ih fun x hx ↦ hf x (List.mem_cons_of_mem a hx)
    refine ⟨b :: bs, ?_, .cons hb hall⟩
    rw [List.mapM_cons, hb, hbs]
    rfl

theorem exists_map_pure {x : Except Error String} (f : String → String) (hx : ∃ s, x = .ok s) :
    ∃ t, (x >>= fun s ↦ pure (f s)) = .ok t := by
  obtain ⟨s, rfl⟩ := hx
  exact ⟨f s, rfl⟩

theorem exists_pair {x y : Except Error String} (mark : String) (hx : ∃ s, x = .ok s)
    (hy : ∃ t, y = .ok t) : ∃ u, (do return (← x) ++ mark ++ (← y)) = Except.ok u := by
  obtain ⟨s, rfl⟩ := hx
  obtain ⟨t, rfl⟩ := hy
  exact ⟨s ++ mark ++ t, rfl⟩

namespace Grammar

variable {g : Grammar} {q : Query} {table : String} {first : Record Value}
  {records : List (Record Value)} {columns : List String}

theorem exists_quoted (hplain : ∀ c ∈ columns, ¬ arrow <:+: c.toList) :
    ∃ quoted, g.names columns = .ok (", ".intercalate quoted) ∧
      List.Forall₂ (fun c w ↦ g.wrap c = .ok w) columns quoted := by
  have hwrap (c) (hc : c ∈ columns) : ∃ text, g.wrap c = .ok text := by
    obtain ⟨expression, label, hparted⟩ := exists_parted c.toList
    exact ⟨_, wrap_spelled (hplain c hc) hparted⟩
  obtain ⟨quoted, hquoted, hall⟩ := exists_mapM hwrap
  refine ⟨quoted, ?_, hall⟩
  rw [names, hquoted]
  rfl

/-- Only the generic dialect has no selectors. -/
theorem exists_wrap (hd : g.dialect ≠ .generic) (column : String) :
    ∃ text, g.wrap column = .ok text := by
  have hselector (s : List Char) : ∃ t, g.selector s = .ok t := by
    unfold selector
    cases hg : g.dialect with
    | generic => exact absurd hg hd
    | _ => exact ⟨_, rfl⟩
  have hunaliased (s : List Char) : ∃ t, g.unaliased s = .ok t := by
    unfold unaliased
    split
    · exact hselector s
    · exact ⟨_, rfl⟩
  unfold wrap
  split
  · rename_i expression label _
    obtain ⟨t, ht⟩ := hunaliased expression
    exact ⟨_, by rw [ht]; rfl⟩
  · obtain ⟨t, ht⟩ := hunaliased column.toList
    exact ⟨_, by rw [ht]; rfl⟩

theorem exists_names (hd : g.dialect ≠ .generic) (columns : List String) :
    ∃ text, g.names columns = .ok text := by
  obtain ⟨quoted, hquoted, -⟩ := exists_mapM fun c (_ : c ∈ columns) ↦ exists_wrap hd c
  exact ⟨_, by rw [names, hquoted]; rfl⟩

theorem exists_assignments {assign : String → Except Error String}
    (hassign : ∀ c, ∃ text, assign c = .ok text) (columns : List String) :
    ∃ text, assignments columns assign = .ok text := by
  obtain ⟨sets, hsets, -⟩ := exists_mapM fun c (_ : c ∈ columns) ↦ hassign c
  exact ⟨_, by rw [assignments, hsets]; rfl⟩

theorem target_eq (hsource : q.source = some (.name table)) (hmistake : q.mistake = none) :
    g.target q = .ok (g.wrapTable table) := by
  rw [target, Clauses.checked, hmistake, hsource]
  rfl

theorem merge_displays (hd : g.dialect ≠ .generic) (hsource : q.source = some (.name table))
    (hfirst : first ∈ records.head?) (hplain : ∀ c ∈ first.columns, ¬ arrow <:+: c.toList)
    (uniqueBy update : List String) :
    ∃ sql matching, g.merge q records uniqueBy update = .ok sql ∧
      Displays g (merging (g.wrapTable table) (g.wrapTable "upsert_source") matching) first.columns
        (records.map Record.operands) sql := by
  obtain ⟨rest, rfl⟩ := List.head?_eq_some_iff.1 hfirst
  obtain ⟨quoted, hnames, hall⟩ := exists_quoted (g := g) hplain
  obtain ⟨matching, hmatching, -⟩ := exists_mapM fun column (_ : column ∈ uniqueBy) ↦
    exists_pair " = " (exists_wrap hd ("upsert_source." ++ column))
      (exists_wrap hd (table ++ "." ++ column))
  obtain ⟨sets, hsets⟩ := exists_assignments (fun column ↦
    exists_pair " = " (exists_wrap hd column) (exists_wrap hd ("upsert_source." ++ column))) update
  have hname : q.source.bind Reference.name? = some table := by
    rw [hsource]
    rfl
  let matched := if update.isEmpty then "" else "when matched then update set " ++ sets ++ " "
  have hwritten : g.merge q (first :: rest) uniqueBy update = .ok ("merge " ++
      (g.wrapTable table : Sql) ++ " using (values " ++ rows (first :: rest) ++ ") " ++
      g.wrapTable "upsert_source" ++ " (" ++ ", ".intercalate quoted ++ ") on " ++
      " and ".intercalate matching ++ " " ++ matched ++ "when not matched then insert (" ++
      ", ".intercalate quoted ++ ") values (" ++ ", ".intercalate quoted ++ ");") := by
    rw [merge, hname]
    dsimp only
    rw [hnames, hmatching, hsets]
    rfl
  refine ⟨_, " and ".intercalate matching ++ " " ++ matched, hwritten, ⟨quoted, hall, ?_⟩, ?_⟩
  · unfold merging
    simp only [Sql.text_append, Sql.text_coe, text_rows, String.append_assoc]
  · simp only [Sql.slots_append, Sql.slots_coe, slots_rows, List.nil_append, List.append_nil]

section

variable (hsource : q.source = some (.name table)) (hmistake : q.mistake = none)
  (hfirst : first ∈ records.head?) (hne : first ≠ [])
  (hplain : ∀ c ∈ first.columns, ¬ arrow <:+: c.toList)

include hsource hmistake hfirst hne hplain

theorem insertWith_displays (verb : String) : ∃ sql, g.insertWith verb q records = .ok sql ∧
    Displays g (insertion verb (g.wrapTable table) "") first.columns (records.map Record.operands)
      sql := by
  obtain ⟨rest, rfl⟩ := List.head?_eq_some_iff.1 hfirst
  obtain ⟨entry, entries, rfl⟩ := List.exists_cons_of_ne_nil hne
  obtain ⟨quoted, hnames, hall⟩ := exists_quoted (g := g) hplain
  have hwritten : g.insertWith verb q ((entry :: entries) :: rest) = .ok (verb ++ " into " ++
      (g.wrapTable table : Sql) ++ " (" ++ ", ".intercalate quoted ++ ") values " ++
      rows ((entry :: entries) :: rest)) := by
    rw [insertWith, target_eq hsource hmistake]
    dsimp only [bind, Except.bind]
    rw [hnames]
    rfl
  refine ⟨_, hwritten, ⟨quoted, hall, ?_⟩, ?_⟩
  · simp only [Sql.text_append, Sql.text_coe, text_rows, insertion, String.append_empty]
  · simp only [Sql.slots_append, Sql.slots_coe, slots_rows, List.nil_append, List.append_nil]

theorem insert_displays : ∃ sql, g.insert q records = .ok sql ∧
    Displays g (insertion "insert" (g.wrapTable table) "") first.columns
      (records.map Record.operands) sql :=
  insertWith_displays hsource hmistake hfirst hne hplain "insert"

theorem insertOrIgnore_displays {verb tail : String} (hd : (verb, tail) ∈ ignoring g.dialect) :
    ∃ sql, g.insertOrIgnore q records = .ok sql ∧
      Displays g (insertion verb (g.wrapTable table) tail) first.columns
        (records.map Record.operands) sql := by
  have hinsert (verb) := insertWith_displays (g := g) hsource hmistake hfirst hne hplain verb
  unfold insertOrIgnore
  cases hg : g.dialect <;> rw [hg] at hd <;> cases hd
  case mysql => exact hinsert "insert ignore"
  case sqlite => exact hinsert "insert or ignore"
  case postgres =>
    obtain ⟨sql, hsql, hdisplays⟩ := hinsert "insert"
    refine ⟨sql ++ (" on conflict do nothing" : Sql), ?_, ?_⟩
    · rw [insert, hsql]
      rfl
    · simpa using hdisplays.append " on conflict do nothing" rfl

theorem upsert_displays (hd : g.dialect ≠ .generic) (uniqueBy update : List String) :
    ∃ sql rest, g.upsert q records uniqueBy update = .ok sql ∧
      Displays g (upsertion g table rest) first.columns (records.map Record.operands) sql := by
  obtain ⟨sql, hsql, hdisplays⟩ := insert_displays (g := g) hsource hmistake hfirst hne hplain
  obtain ⟨keys, hkeys⟩ := exists_names hd uniqueBy
  unfold upsert upsertion
  cases hg : g.dialect with
  | generic => exact absurd hg hd
  | sqlServer =>
    obtain ⟨sql, matching, hsql, hdisplays⟩ :=
      merge_displays hd hsource hfirst hplain uniqueBy update
    exact ⟨sql, matching, hsql, hdisplays⟩
  | mysql =>
    obtain ⟨sets, hsets⟩ := exists_assignments (fun column ↦
      exists_map_pure (fun s ↦ s ++ " = values(" ++ s ++ ")") (exists_wrap hd column)) update
    refine ⟨_, _, ?_, hdisplays.append (" on duplicate key update " ++ (sets : Sql)) rfl⟩
    dsimp only
    rw [hsql, hsets]
    exact congrArg Except.ok (Sql.append_assoc ..)
  | _ =>
    obtain ⟨sets, hsets⟩ := exists_assignments (fun column ↦
      exists_map_pure (· ++ " = " ++ g.wrapSegment "excluded" ++ "." ++ g.wrapSegment column)
        (exists_wrap hd column)) update
    refine ⟨_, _, ?_,
      hdisplays.append (" on conflict (" ++ (keys : Sql) ++ ") do update set " ++ sets) rfl⟩
    dsimp only
    rw [hsql, hsets, hkeys]
    exact congrArg Except.ok (by simp only [Sql.append_assoc])

end

end Grammar

end FluentSql
