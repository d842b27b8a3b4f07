import FluentSql.Proofs.Mistakes.Recorded
import FluentSql.Proofs.Session.Actions
import FluentSql.Proofs.Slots.Written
import FluentSql.Session.Command
import FluentSql.Session.Script

namespace FluentSql

/-- Every statement for a query ends in one error. -/
structure Query.Refused (g : Grammar) (q : Query) (e : Error) : Prop where
  select : g.select q = .error e
  existence : g.existence q = .error e
  insert : ∀ records, g.insert q records = .error e
  insertOrIgnore : ∀ records, g.insertOrIgnore q records = .error e
  insertGetId : ∀ record sequence, g.insertGetId q record sequence = .error e
  insertUsing : ∀ columns rows, g.insertUsing q columns rows = .error e
  upsert : g.dialect ≠ .sqlServer → ∀ records uniqueBy update,
    g.upsert q records uniqueBy update =
      .error (if g.dialect = .generic then .generation .upsert else e)
  update : ∀ record, g.update q record = .error e
  delete : g.delete q = .error e
  truncate : g.truncate q = .error e

namespace Grammar

variable {g : Grammar} {q : Query} {m : Mistake}

theorem select_mistake (h : q.mistake = some m) : g.select q = .error (.invalid (.mistake m)) := by
  obtain ⟨c, joins, conditions, unions⟩ := q
  have hc : c.checked = .error (.invalid (.mistake m)) := by
    rw [Clauses.checked, show c.mistake = some m from h]
  rw [select, hc]
  rfl

theorem target_mistake (h : q.mistake = some m) : g.target q = .error (.invalid (.mistake m)) := by
  rw [target, Clauses.checked, h]
  rfl

theorem insert_mistake (h : q.mistake = some m) (records : List (Record Value)) :
    g.insert q records = .error (.invalid (.mistake m)) := by
  rw [insert, insertWith, target_mistake h]
  rfl

theorem refused (h : q.mistake = some m) : q.Refused g (.invalid (.mistake m)) where
  select := select_mistake h
  existence := by
    unfold existence
    split
    · exact select_mistake h
    · rw [select_mistake h]
      rfl
  insert := insert_mistake h
  insertOrIgnore records := by
    unfold insertOrIgnore insertWith
    rw [target_mistake h, insert_mistake h]
    split <;> rfl
  insertGetId record sequence := by
    rw [insertGetId, insert_mistake h]
    rfl
  insertUsing columns rows := by
    rw [insertUsing, target_mistake h]
    rfl
  upsert hg records uniqueBy update := by
    unfold upsert
    rw [insert_mistake h]
    cases hd : g.dialect with
    | sqlServer => exact absurd hd hg
    | _ => rfl
  update record := by
    rw [update, target_mistake h]
    rfl
  delete := by
    rw [delete, target_mistake h]
    rfl
  truncate := by
    rw [truncate, target_mistake h]
    rfl

end Grammar

namespace Action

variable {σ H α β : Type}

def Idle (a : Action σ H α) : Prop := ∀ s, (a.on s).2 = s

namespace Idle

variable {a : Action σ H α} {f : α → Action σ H β}

theorem ret (x : α) : Idle (pure x : Action σ H α) := fun _ ↦ rfl

theorem fail (e : Error) : Idle (throw e : Action σ H α) := fun _ ↦ rfl

theorem orFail (x : Except Error α) : Idle (Action.orFail x : Action σ H α) := fun _ ↦ rfl

theorem bind (h : Idle a) (hf : ∀ x, Idle (f x)) : Idle (a >>= f) := by
  intro s
  cases hr : a.on s with | mk result t
  obtain rfl : t = s := by simpa only [hr] using h s
  cases result with
  | ok x => rw [on_bind_ok hr, hf x]
  | error e => rw [on_bind_error hr]

theorem map (g : α → β) (h : Idle a) : Idle (g <$> a) := by
  rw [map_eq_pure_bind]
  exact h.bind fun _ ↦ .ret _

theorem checked {x : Except Error α} (hx : ∀ y, x = .ok y → Idle (f y)) :
    Idle (Action.orFail x >>= f) := by
  cases x with
  | ok y =>
    intro s
    have ho : (Action.orFail (.ok y) : Action σ H α).on s = (.ok y, s) := rfl
    rw [on_bind_ok ho, hx y rfl]
  | error e => exact fun _ ↦ rfl

theorem refused {x : Except Error α} {e : Error} (hx : x = .error e) :
    Idle (Action.orFail x >>= f) :=
  checked fun y hy ↦ by cases hx.symm.trans hy

theorem lift {m : StateM (Session σ H) α} (h : ∀ s, (m.run s).2 = s) :
    Idle (ExceptT.lift m : Action σ H α) :=
  h

theorem readChunks {d : Driver σ H}
    {read : Nat → StateM (Session σ H) (List Query.Chunk × Except Error Bool)}
    (h : ∀ bound s, ((read bound).run s).2 = s) : Idle (FluentSql.readChunks d read) := by
  intro s
  unfold FluentSql.readChunks
  rw [on_get_bind, (lift (h _)).bind fun _ ↦ (Idle.orFail _).bind fun _ ↦ .ret _]

end Idle

end Action

def Use.merges (g : Grammar) : Use → Prop
  | .upsert _ _ columns => g.dialect = .sqlServer ∧ columns ≠ some []
  | _ => False

namespace Query

open FluentSql.Action

variable {σ H : Type} (d : Driver σ H) {q q' : Query} {m : Mistake} {l : List Mistake}

theorem Told.keeps (h : Told q l q') (hm : q.mistake = some m) : q'.mistake = some m := by
  rw [h.mistake, hm, Option.some_or]

theorem told_page (number size : Nat) : Told q [] (q.page number size) :=
  (Told.setOffset _).trans (.setLimit _)

theorem mistake_setAggregate (function : String) (columns : List Reference) :
    (q.setAggregate function columns).mistake = q.mistake := by
  unfold setAggregate
  dsimp only
  split <;> rfl

theorem mistake_forAggregate : q.forAggregate.mistake = q.mistake := by
  unfold forAggregate
  split <;> rfl

section

variable (h : q.mistake = some m)

include h

theorem get_mistake (s : Session σ H) : (q.get d).on s = (.error (.invalid (.mistake m)), s) := by
  unfold get
  rw [compiled, sql, Grammar.select_mistake h]
  rfl

theorem get_idle : Idle (q.get d) := fun s ↦ by rw [get_mistake d h]

theorem first_idle : Idle (q.first d) :=
  (get_idle d ((Told.setLimit 1).keeps h)).bind fun _ ↦ .ret _

theorem getIntegers_idle : Idle (q.getIntegers d) := (get_idle d h).bind fun _ ↦ .orFail _

theorem firstIntegers_idle : Idle (q.firstIntegers d) := by
  refine (first_idle d h).bind fun row ↦ ?_
  cases row with
  | none => exact .ret _
  | some row => exact (Idle.orFail _).bind fun _ ↦ .ret _

theorem find_idle (id : Operand Value) : Idle (q.find d id) :=
  first_idle d ((Told.addComparison ..).keeps h)

theorem value_idle (column : String) : Idle (q.value d column) :=
  (first_idle d (q := q.select _) h).bind fun _ ↦ .ret _

theorem pluck_idle (column : String) : Idle (q.pluck d column) := by
  refine (get_idle d (m := m) ?_).bind fun _ ↦ .ret _
  split
  · exact h
  · exact h

theorem aggregateOf_idle (function : String) (columns : List Reference) :
    Idle (q.aggregateOf d function columns) := by
  refine (get_idle d (m := m) ?_).bind fun _ ↦ .ret _
  rw [mistake_setAggregate, mistake_forAggregate, h]

theorem count_idle : Idle (q.count d) := (aggregateOf_idle d h _ _).bind fun _ ↦ .ret _

theorem sum_idle (column : String) : Idle (q.sum d column) :=
  (aggregateOf_idle d h _ _).bind fun _ ↦ .ret _

theorem exists_idle : Idle (q.exists? d) :=
  .refused (Grammar.refused h).existence

theorem mistake_counting (hc : q.counting = .ok q') : q'.mistake = some m := by
  have hall : q.unwindowed.mistake = some m := h
  unfold counting at hc
  generalize q.unwindowed = all at hall hc
  split at hc
  · cases hc
    rw [mistake_setAggregate]
    split <;> exact hall
  · obtain ⟨sql, hsql, -⟩ := bind_eq_ok.1 hc
    refine absurd hsql ?_
    rw [Query.sql, Grammar.select_mistake (m := m)]
    · nofun
    · repeat' split
      all_goals exact hall

theorem countRows_idle : Idle (q.countRows d) := by
  refine .checked fun all hc ↦ ?_
  exact (get_idle d (mistake_counting h hc)).bind fun _ ↦ .ret _

theorem paginate_idle (perPage number : Nat) : Idle (q.paginate d perPage number) := by
  refine (countRows_idle d h).bind fun total ↦ ?_
  split
  · exact (get_idle d ((told_page _ _).keeps h)).bind fun _ ↦ .ret _
  · exact .ret _

theorem simplePaginate_idle (perPage number : Nat) : Idle (q.simplePaginate d perPage number) := by
  refine (get_idle d (m := m) ?_).bind fun _ ↦ .ret _
  exact ((Told.setOffset _).trans (.setLimit _)).keeps h

theorem chunkFrom_idle (size : Nat) (goOn : Chunk → Bool) (bound number : Nat) (s : Session σ H) :
    ((q.chunkFrom d size goOn bound number).run s).2 = s := by
  cases bound with
  | zero => rfl
  | succ bound =>
    have hp := get_mistake d ((told_page number size).keeps h) s
    simp only [on] at hp
    simp only [chunkFrom, StateT.run_bind, hp]
    rfl

theorem chunkAfter_idle (size : Nat) (column key : String) (goOn : Chunk → Bool)
    (bound number : Nat) (last : Option Value) (s : Session σ H) :
    ((q.chunkAfter d size column key goOn bound number last).run s).2 = s := by
  cases bound with
  | zero => rfl
  | succ bound =>
    have hp := get_mistake d ((Told.pageAfter size last column).keeps h) s
    simp only [on] at hp
    simp only [chunkAfter, StateT.run_bind, hp]
    rfl

theorem chunk_idle (size : Nat) (goOn : Chunk → Bool) (bound : Nat) (s : Session σ H) :
    ((q.chunk d size goOn bound).run s).2 = s := by
  unfold chunk
  split
  · rfl
  · split
    · rfl
    · exact chunkFrom_idle d h size goOn bound 1 s

theorem chunkById_idle (size : Nat) (column : String) (key : Option String) (goOn : Chunk → Bool)
    (bound : Nat) (s : Session σ H) : ((q.chunkById d size column key goOn bound).run s).2 = s := by
  unfold chunkById
  split
  · rfl
  · exact chunkAfter_idle d h size column _ goOn bound 1 none s

theorem insert_idle (record : Record Value) : Idle (q.insert d record) := by
  unfold insert
  split
  · exact .ret _
  · exact .refused ((Grammar.refused h).insert _)

theorem insertMany_idle (records : List (Record Value)) : Idle (q.insertMany d records) := by
  unfold insertMany
  split
  · exact .ret _
  · exact (Idle.orFail _).bind fun _ ↦ .refused ((Grammar.refused h).insert _)

theorem insertGetId_idle (record : Record Value) (sequence : Option String) :
    Idle (q.insertGetId d record sequence) :=
  .refused ((Grammar.refused h).insertGetId _ _)

theorem insertOrIgnore_idle (records : List (Record Value)) :
    Idle (q.insertOrIgnore d records) := by
  unfold insertOrIgnore
  split
  · exact .ret _
  · exact (Idle.orFail _).bind fun _ ↦ .refused ((Grammar.refused h).insertOrIgnore _)

theorem insertUsing_idle (columns : List String) (rows : Query) :
    Idle (q.insertUsing d columns rows) :=
  (Idle.orFail _).bind fun _ ↦ .refused ((Grammar.refused h).insertUsing _ _)

theorem upsert_idle (records : List (Record Value)) (uniqueBy : List String)
    (update : Option (List String)) (hm : q.grammar.dialect = .sqlServer → update = some []) :
    Idle (q.upsert d records uniqueBy update) := by
  have hr := Grammar.refused (g := q.grammar) h
  unfold upsert
  split
  · exact .ret _
  · refine (Idle.orFail _).bind fun records ↦ ?_
    split
    · exact .refused (hr.insert _)
    · rename_i hu
      exact .refused (hr.upsert (fun hg ↦ hu (hm hg)) _ _ _)

theorem update_idle (record : Record Value) : Idle (q.update d record) := by
  unfold update
  split
  · exact .ret _
  · exact .refused ((Grammar.refused h).update _)

theorem changeBy_idle (method sign column : String) (amount : Value) (extra : Record Value) :
    Idle (q.changeBy d method sign column amount extra) := by
  unfold changeBy
  split
  · exact .fail _
  · exact (Idle.orFail _).bind fun _ ↦ update_idle d h _

theorem updateOrInsert_idle (attributes values : Record Value) :
    Idle (q.updateOrInsert d attributes values) := by
  intro s
  have hq : (q.addRecord .and attributes).mistake = some m := (Told.addRecord ..).keeps h
  have he : ((q.addRecord .and attributes).exists? d).on s = (.error (.invalid (.mistake m)), s) := by
    unfold exists?
    rw [(Grammar.refused hq).existence]
    rfl
  unfold updateOrInsert
  rw [on_bind_error he]

theorem delete_idle : Idle (q.delete d) := .refused (Grammar.refused h).delete

theorem deleteById_idle (id : Value) : Idle (q.deleteById d id) :=
  delete_idle d ((Told.addComparison ..).keeps h)

theorem truncate_idle : Idle (q.truncate d) := .refused (Grammar.refused h).truncate

/-- Whatever a query with a mistake is used for, nothing happens, unless SQL Server merges. -/
theorem perform_idle (use : Use) (hu : ¬ use.merges q.grammar) : Idle (q.perform d use) := by
  cases use with
  | get => exact (get_idle d h).map _
  | getIntegers => exact (getIntegers_idle d h).map _
  | first => exact (first_idle d h).map _
  | firstIntegers =>
    refine (firstIntegers_idle d h).bind fun r ↦ ?_
    cases r <;> exact .ret _
  | find id => exact (find_idle d h id).map _
  | value column => exact (value_idle d h column).bind fun _ ↦ .ret _
  | pluck column => exact (pluck_idle d h column).map _
  | count => exact (count_idle d h).map _
  | aggregate function column => exact (aggregateOf_idle d h function _).bind fun _ ↦ .ret _
  | sum column => exact (sum_idle d h column).map _
  | exist negated => exact (exists_idle d h).bind fun _ ↦ .ret _
  | chunk size stop => exact .readChunks fun bound ↦ chunk_idle d h size _ bound
  | chunkById size column key stop =>
    exact .readChunks fun bound ↦ chunkById_idle d h size column key _ bound
  | paginate perPage number => exact (paginate_idle d h perPage number).map _
  | simplePaginate perPage number => exact (simplePaginate_idle d h perPage number).map _
  | insert record => exact (insert_idle d h record).map _
  | insertMany records => exact (insertMany_idle d h records).map _
  | insertGetId record sequence => exact (insertGetId_idle d h record sequence).map _
  | insertOrIgnore records => exact (insertOrIgnore_idle d h records).map _
  | insertUsing columns steps =>
    refine (insertUsing_idle d h columns _).bind fun n ↦ ?_
    split
    · exact .fail _
    · exact .ret _
  | upsert records uniqueBy columns =>
    refine (upsert_idle d h records uniqueBy columns fun hg ↦ ?_).map _
    exact Decidable.byContradiction fun hn ↦ hu ⟨hg, hn⟩
  | update record => exact (update_idle d h record).map _
  | increment column amount extra => exact (changeBy_idle d h _ _ column amount extra).map _
  | decrement column amount extra => exact (changeBy_idle d h _ _ column amount extra).map _
  | updateOrInsert attributes values => exact (updateOrInsert_idle d h attributes values).map _
  | delete => exact (delete_idle d h).map _
  | deleteById id => exact (deleteById_idle d h id).map _
  | truncate => exact (truncate_idle d h).bind fun _ ↦ .ret _

end

/-- Whatever steps build a query, it holds the first mistake of them all, and without one nothing but
the dialect is in the way of its select. A mistake is never forgotten: no statement is written for the
query, and none is executed, other than merges. -/
theorem mistake_run (g : Grammar) (macros : Macros) (steps : List Step) :
    let start : Query := { grammar := g, macros }
    let q := (start.run steps).1
    q.mistake = (start.stepMistakes steps).head? ∧
      (q.mistake = none → ∀ g : Grammar, Expressible (g.select q)) ∧
      ∀ m, q.mistake = some m →
        (∀ more, (q.run more).1.mistake = some m) ∧
        (∀ g : Grammar, q.Refused g (.invalid (.mistake m))) ∧
        ∀ (σ H : Type) (d : Driver σ H) (use : Use) (s : Session σ H), ¬ use.merges q.grammar →
          ((q.perform d use).on s).2 = s := by
  intro start q
  have hq : Made (start.stepMistakes steps) q := (told_run start steps).made (spotless_start g macros)
  refine ⟨hq.mistake, fun hn g ↦ g.expressible_select q (hq.spotless hn), fun m hm ↦ ?_⟩
  exact ⟨fun more ↦ (told_run q more).keeps hm, fun g ↦ Grammar.refused hm,
    fun σ H d use s hu ↦ perform_idle d hm use hu s⟩

def misspelled : List Step := [
  .source (.name "users"),
  .nest .and [.isNull .and false "gone", .exist .or false [.source (.name "posts"),
    .compare .and ⟨"id", .named "=>", .bound (.value (.int32 1))⟩]],
  .compareRow .and ["a", "b"] .equal []]

theorem mistake_run_misspelled :
    let g : Grammar := { dialect := .sqlServer }
    let start : Query := { grammar := g }
    let q := (start.run misspelled).1
    let m := Mistake.unknownOperator "=>"
    Expressible (g.select (start.run []).1) ∧ start.stepMistakes misspelled = [m, .rowArity] ∧
      (q.run [.reorder, .compareRow .or ["a"] .equal []]).1.mistake = some m ∧
      g.delete q = .error (.invalid (.mistake m)) ∧
      ∀ s, ((q.perform Script.driver .delete).on s).2 = s := by
  intro g start q m
  have hl : start.stepMistakes misspelled = [m, .rowArity] := by rfl
  obtain ⟨hq, -, hm⟩ := mistake_run g {} misspelled
  obtain ⟨hkept, hrefused, hidle⟩ := hm m (hq.trans (congrArg List.head? hl))
  exact ⟨(mistake_run g {} []).2.1 rfl g, hl, hkept _, (hrefused g).delete,
    fun s ↦ hidle _ _ Script.driver .delete s id⟩

/-- SQL Server writes and sends a merge for a query that holds a mistake. Of an operator that is not
known a query is told before the mistakes of the query behind it. -/
theorem mistake_run_merged :
    let g : Grammar := { dialect := .sqlServer }
    let s : Session Script String :=
      { connection := { write := "write", grammar := g, processor := .sqlServer }, world := {} }
    let unknown : Comparison := ⟨"id", .named "=>", .bound (.value (.int32 1))⟩
    let q := (Query.run { grammar := g } [.source (.name "users"), .compare .and unknown]).1
    let records : List (Record Value) := [[("id", .bound (.int32 1))]]
    q.mistake.isSome ∧ (g.upsert q records ["id"] ["id"]).isOk ∧
      (Entry.sends ((q.upsert Script.driver records ["id"] none).on s).2.trace).length = 1 ∧
      (Query.run { grammar := g } [.compareQuery .and "id" (.named "=>")
        [.compareRow .and ["a"] .equal []]]).1.mistake.map Mistake.text =
          some (Mistake.unknownOperator "=>").text := by
  decide +kernel

end Query

end FluentSql
