import FluentSql.Proofs.Conditions.Asked
import FluentSql.Proofs.Inserts.Written
import FluentSql.Session.Script

namespace FluentSql

open Quoting

namespace Session

open FluentSql.Action

variable {σ H α : Type} {d : Driver σ H}

/-- An action comes down to one statement. Outside pretence it is sent, and once more only over a
connection that was renewed; nothing else is. -/
structure Issued (d : Driver σ H) (r : Request) (a : Action σ H α) : Prop where
  executed : ∃ f, a = f <$> Session.execute d true r
  asked : ∀ s : Session σ H, s.connection.pretending = false → s.asked (a.on s).2 = [r] ∨
    (∃ handles w, s.Renews d true r handles w) ∧ s.asked (a.on s).2 = [r, r]

theorem issued_map (r : Request) (f : r.Reply → α) :
    Issued d r (f <$> Session.execute d true r) := by
  refine ⟨⟨f, rfl⟩, fun s hp ↦ ?_⟩
  rw [on_map_snd]
  exact (asked_execute true r hp).2

theorem issued_execute (r : Request) : Issued d r (Session.execute d true r) := by
  have h := issued_map (d := d) r id
  rwa [id_map] at h

end Session

namespace Query

open Session

variable {σ H : Type} {d : Driver σ H} {q : Query} {table : String} {first : Record Value}
  {records records' : List (Record Value)}

structure Refuses (d : Driver σ H) (q : Query) (records : List (Record Value)) (e : Error) :
    Prop where
  inserted : ∀ s, (q.insertMany d records).on s = (.error e, s)
  ignored : ∀ s, (q.insertOrIgnore d records).on s = (.error e, s)
  upserted : ∀ uniqueBy update s, (q.upsert d records uniqueBy update).on s = (.error e, s)

/-- Bulk writes of the records come down to one statement, which shows the columns and the rows and
binds what the rows bind: a plain insert, one that ignores collisions where there is one, and one
that updates the rows that are there, or none of them. -/
structure Fills (d : Driver σ H) (q : Query) (table : String) (records : List (Record Value))
    (columns : List String) (rows : List (List (Operand Value))) : Prop where
  inserted : ∃ sql,
    Displays q.grammar (insertion "insert" (q.grammar.wrapTable table) "") columns rows sql ∧
      Issued d (.statement sql.text (boundValues rows)) (q.insertMany d records)
  ignored : ∀ verb tail, (verb, tail) ∈ ignoring q.grammar.dialect → ∃ sql,
    Displays q.grammar (insertion verb (q.grammar.wrapTable table) tail) columns rows sql ∧
      Issued d (.affecting sql.text (boundValues rows)) (q.insertOrIgnore d records)
  kept : ∀ uniqueBy, ∃ sql,
    Displays q.grammar (insertion "insert" (q.grammar.wrapTable table) "") columns rows sql ∧
      Issued d (.statement sql.text (boundValues rows)) (q.upsert d records uniqueBy (some []))
  upserted : q.grammar.dialect ≠ .generic → ∀ uniqueBy update, update ≠ some [] → ∃ sql rest,
    Displays q.grammar (upsertion q.grammar table rest) columns rows sql ∧
      Issued d (.affecting sql.text (boundValues rows)) (q.upsert d records uniqueBy update)

theorem refuses_of_sortRecords {e : Error} (hne : records ≠ [])
    (h : sortRecords records = .error e) : q.Refuses d records e := by
  have hempty : records.isEmpty = false := List.isEmpty_eq_false_iff.2 hne
  constructor
  · intro s
    rw [insertMany, hempty, h]
    rfl
  · intro s
    rw [insertOrIgnore, hempty, h]
    rfl
  · intro uniqueBy update s
    rw [upsert, hempty, h]
    rfl

section

variable {sorted : List (Record Value)} {sql : Sql} (hne : records ≠ [])
  (hsorted : sortRecords records = .ok sorted)

include hne hsorted

theorem insertMany_eq (hsql : q.grammar.insert q sorted = .ok sql) :
    q.insertMany d records = Session.statement d sql.text (recordValues sorted) := by
  rw [insertMany, List.isEmpty_eq_false_iff.2 hne, hsorted]
  simp only [Bool.false_eq_true, if_false, Action.orFail_ok_bind, hsql]

theorem insertOrIgnore_eq (hsql : q.grammar.insertOrIgnore q sorted = .ok sql) :
    q.insertOrIgnore d records = Session.affecting d sql.text (recordValues sorted) := by
  rw [insertOrIgnore, List.isEmpty_eq_false_iff.2 hne, hsorted]
  simp only [Bool.false_eq_true, if_false, Action.orFail_ok_bind, hsql]

theorem upsert_nothing_eq (hsql : q.grammar.insert q sorted = .ok sql) (uniqueBy : List String) :
    q.upsert d records uniqueBy (some []) =
      (fun done ↦ if done then 1 else 0) <$>
        Session.statement d sql.text (recordValues sorted) := by
  rw [upsert, List.isEmpty_eq_false_iff.2 hne, hsorted]
  simp only [Bool.false_eq_true, if_false, Action.orFail_ok_bind, hsql, map_eq_pure_bind]

theorem upsert_eq {uniqueBy : List String} {update : Option (List String)}
    (hupdate : update ≠ some [])
    (hsql : q.grammar.upsert q sorted uniqueBy
      (update.getD ((sorted.head?.map Record.columns).getD [])) = .ok sql) :
    q.upsert d records uniqueBy update =
      Session.affecting d sql.text (recordValues sorted) := by
  rw [upsert, List.isEmpty_eq_false_iff.2 hne, hsorted]
  simp only [Bool.false_eq_true, if_false, Action.orFail_ok_bind, hsql]

end

theorem fills_sorted (hsource : q.source = some (.name table)) (hmistake : q.mistake = none)
    (hfirst : first ∈ records.head?) (heven : Record.Even records)
    (hrecords : ∀ r ∈ records, r ≠ [] ∧ r.columns.Nodup ∧
      ∀ c ∈ r.columns, ¬ arrow <:+: c.toList) :
    q.Fills d table records first.sorted.columns
      ((records.map Record.sorted).map Record.operands) := by
  have hmem : first ∈ records := List.mem_of_mem_head? hfirst
  have hne : records ≠ [] := List.ne_nil_of_mem hmem
  have hsorted := sortRecords_even hfirst heven fun r hr ↦ (hrecords r hr).2.1
  have hhead : first.sorted ∈ (records.map Record.sorted).head? := by
    rw [List.head?_map, hfirst]
    rfl
  obtain ⟨hcells, -, hplain⟩ := hrecords first hmem
  have hcells : first.sorted ≠ [] := fun h ↦ hcells (h ▸ first.sorted_perm).nil_eq.symm
  have hplain : ∀ c ∈ first.sorted.columns, ¬ arrow <:+: c.toList :=
    fun c hc ↦ hplain c (Record.mem_columns_sorted.1 hc)
  obtain ⟨sql, hsql, hdisplays⟩ :=
    Grammar.insert_displays (g := q.grammar) hsource hmistake hhead hcells hplain
  constructor
  case inserted =>
    refine ⟨sql, hdisplays, ?_⟩
    rw [insertMany_eq hne hsorted hsql, recordValues_eq]
    exact issued_execute _
  case ignored =>
    intro verb tail hd
    obtain ⟨sql, hsql, hdisplays⟩ :=
      Grammar.insertOrIgnore_displays hsource hmistake hhead hcells hplain hd
    refine ⟨sql, hdisplays, ?_⟩
    rw [insertOrIgnore_eq hne hsorted hsql, recordValues_eq]
    exact issued_execute _
  case kept =>
    intro uniqueBy
    refine ⟨sql, hdisplays, ?_⟩
    rw [upsert_nothing_eq hne hsorted hsql, recordValues_eq]
    exact issued_map _ _
  case upserted =>
    intro hd uniqueBy update hupdate
    obtain ⟨sql, rest, hsql, hdisplays⟩ :=
      Grammar.upsert_displays (g := q.grammar) hsource hmistake hhead hcells hplain hd uniqueBy _
    refine ⟨sql, rest, hdisplays, ?_⟩
    rw [upsert_eq hne hsorted hupdate hsql, recordValues_eq]
    exact issued_execute _

/-- The order in which columns were given makes no difference to a bulk write. -/
theorem sorts_alike (h : sortRecords records = sortRecords records')
    (hempty : records.isEmpty = records'.isEmpty) :
    q.insertMany d records = q.insertMany d records' ∧
      q.insertOrIgnore d records = q.insertOrIgnore d records' ∧
      q.upsert d records = q.upsert d records' := by
  refine ⟨?_, ?_, ?_⟩
  · rw [insertMany, insertMany, h, hempty]
  · rw [insertOrIgnore, insertOrIgnore, h, hempty]
  · funext uniqueBy update
    rw [upsert, upsert, h, hempty]

/-- Records that differ in their columns are refused, and nothing is sent. Otherwise they stand in a
table of sorted columns, with a row for each record that holds what the record gives to each column,
and are sent as that table in one statement that binds what the rows bind. In which order a record
gives its columns makes no difference. -/
theorem records_tabulated (d : Driver σ H) (hsource : q.source = some (.name table))
    (hmistake : q.mistake = none) (hne : records ≠ [])
    (hrecords : ∀ r ∈ records, r ≠ [] ∧ r.columns.Nodup ∧
      ∀ c ∈ r.columns, ¬ arrow <:+: c.toList) :
    (¬ Record.Even records → q.Refuses d records (.invalid .unevenRecords)) ∧
    (Record.Even records → ∃ columns rows,
      Record.Tabulates records columns rows ∧ q.Fills d table records columns rows) ∧
    ∀ records', List.Forall₂ List.Perm records records' →
      q.insertMany d records = q.insertMany d records' ∧
        q.insertOrIgnore d records = q.insertOrIgnore d records' ∧
        q.upsert d records = q.upsert d records' := by
  have hnodup : ∀ r ∈ records, r.columns.Nodup := fun r hr ↦ (hrecords r hr).2.1
  refine ⟨fun huneven ↦ ?_, fun heven ↦ ?_, fun records' hperm ↦ ?_⟩
  · exact refuses_of_sortRecords hne (sortRecords_uneven hne huneven hnodup)
  · obtain ⟨first, rest, rfl⟩ := List.exists_cons_of_ne_nil hne
    exact ⟨_, _, Record.tabulates_sorted rfl heven hnodup,
      fills_sorted hsource hmistake rfl heven hrecords⟩
  · refine sorts_alike (sortRecords_congr hperm hnodup) ?_
    cases hperm <;> rfl

/-- The records give their columns in different orders, and one of the operands is raw. -/
theorem records_tabulated_unordered :
    let q : Query := { grammar := { dialect := .mysql }, source := some (.name "users") }
    let records : List (Record Value) :=
      [[("name", .bound (.string "Ada")), ("age", .raw "30 + 6")],
        [("age", .bound (.int32 85)), ("name", .bound (.string "Grace"))]]
    (∀ r ∈ records, r ≠ [] ∧ r.columns.Nodup ∧ ∀ c ∈ r.columns, ¬ arrow <:+: c.toList) ∧
      Record.Even records ∧
      Issued Script.driver
        (.statement "insert into `users` (`age`, `name`) values (30 + 6, ?), (?, ?)"
          [.string "Ada", .int32 85, .string "Grace"]) (q.insertMany Script.driver records) := by
  intro q records
  have hrecords : ∀ r ∈ records, r ≠ [] ∧ r.columns.Nodup ∧
      ∀ c ∈ r.columns, ¬ arrow <:+: c.toList := by
    simp only [records, List.forall_mem_cons, ne_eq, List.cons_ne_nil, not_false_eq_true, true_and]
    decide
  have htable : Record.Tabulates records ["age", "name"]
      [[.raw "30 + 6", .bound (.string "Ada")],
        [.bound (.int32 85), .bound (.string "Grace")]] := by
    refine ⟨by decide, fun r hr c ↦ ?_, by simp [records]⟩
    simp only [records, List.mem_cons, List.not_mem_nil, or_false] at hr
    rcases hr with rfl | rfl <;>
      simp only [Record.columns, List.map_cons, List.map_nil, List.mem_cons, or_left_comm]
  have heven : Record.Even records := by
    rintro first ⟨⟩ r hr c
    rw [← htable.heading r hr, ← htable.heading _ List.mem_cons_self]
  obtain ⟨columns, rows, htable', hfills⟩ :=
    (records_tabulated (q := q) Script.driver rfl rfl (List.cons_ne_nil _ _) hrecords).2.1 heven
  obtain ⟨rfl, rfl⟩ := htable'.unique htable (List.cons_ne_nil _ _) fun r hr ↦ (hrecords r hr).2.1
  obtain ⟨sql, hdisplays, hissued⟩ := hfills.inserted
  obtain ⟨quoted, hquoted, htext⟩ := hdisplays.text
  have hage : q.grammar.wrap "age" = .ok "`age`" := rfl
  have hname : q.grammar.wrap "name" = .ok "`name`" := rfl
  obtain _ | ⟨hfirst, _ | ⟨hsecond, ⟨⟩⟩⟩ := hquoted
  cases hfirst.symm.trans hage
  cases hsecond.symm.trans hname
  have hsql : sql.text = "insert into `users` (`age`, `name`) values (30 + 6, ?), (?, ?)" :=
    htext.trans (by decide +kernel +zetaReduce)
  rw [hsql] at hissued
  exact ⟨hrecords, heven, hissued⟩

end Query

end FluentSql
