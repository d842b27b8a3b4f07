import FluentSql.Proofs.Derived.Counts
import FluentSql.Proofs.Conditions.Restricting
import FluentSql.Proofs.Slots.Change

namespace FluentSql

open Grammar Lexing Session

namespace Query

def statement (q : Query) : Except Error (Sql × List Value) := do
  return (← q.sql, q.allBindings)

def existenceStatement (q : Query) : Except Error (Sql × List Value) := do
  return (← q.grammar.existence q, q.allBindings)

def aggregateStatement (q : Query) (function column : String) : Except Error (Sql × List Value) :=
  (q.forAggregate.setAggregate function [.name column]).statement

/-- The statements of a use that reads something else of a query than all its rows. -/
def derived (q : Query) : Use → List (Except Error (Sql × List Value))
  | .first | .firstIntegers => [(q.setLimit 1).statement]
  | .find id => [((q.addComparison .and "id" .equal id).setLimit 1).statement]
  | .value column => [((q.select [.name column]).setLimit 1).statement]
  | .pluck column => [(if q.columns.isNone then q.select [.name column] else q).statement]
  | .count => [q.aggregateStatement "count" "*"]
  | .aggregate function column => [q.aggregateStatement function column]
  | .sum column => [q.aggregateStatement "sum" column]
  | .exist _ => [q.existenceStatement]
  | .paginate perPage number =>
    [do (← q.counting).statement, (q.page (max 1 number) perPage).statement]
  | _ => []

end Query

namespace Use

def isDerived : Use → Bool
  | .first | .firstIntegers | .find _ | .value _ | .pluck _ | .count | .sum _ | .exist _
  | .paginate .. => true
  | .aggregate function _ => ["min", "max", "avg"].contains function
  | _ => false

/-- Whether a use aggregates a range of rows. -/
def CountsRange (q : Query) : Use → Prop
  | .count | .aggregate .. | .sum _ => q.CountsRange
  | _ => False

/-- Whether values are sent for which nothing is written. -/
def Misbinds (q : Query) : Use → Prop
  | .count | .aggregate .. | .sum _ => q.CountsRange ∧ q.groups ≠ [] ∧ q.bindings.orders ≠ []
  | .exist _ => q.grammar.dialect = .sqlServer ∧ q.bindings.columns ≠ []
  | _ => False

end Use

namespace Query

section

variable {σ H : Type} {d : Driver σ H} {q : Query}

def SendsOf (statements : List (Except Error (Sql × List Value))) (r : Request) : Prop :=
  ∃ sql bindings, .ok (sql, bindings) ∈ statements ∧ r = .select sql.text bindings

theorem sendsOf_reads {statements : List (Except Error (Sql × List Value))} {r : Request}
    (h : q.Reads r) (hq : q.statement ∈ statements) : SendsOf statements r := by
  obtain ⟨sql, hsql, rfl⟩ := h
  have hs : q.statement = .ok (sql, q.allBindings) := by
    rw [statement, hsql]
    rfl
  exact ⟨sql, q.allBindings, hs ▸ hq, rfl⟩

theorem aggregateOf_asks (function column : String) :
    Asks (SendsOf [q.aggregateStatement function column])
      (q.aggregateOf d function [.name column]).run :=
  (get_asks.mono fun _ hr ↦ sendsOf_reads hr List.mem_cons_self).andThen fun _ ↦ .ret _

theorem exist_asks : Asks (SendsOf [q.existenceStatement]) (q.exists? d).run := by
  refine exists_asks.mono fun r hr ↦ ?_
  obtain ⟨sql, hsql, rfl⟩ := hr
  have hs : q.existenceStatement = .ok (sql, q.allBindings) := by
    rw [existenceStatement, hsql]
    rfl
  exact ⟨sql, q.allBindings, hs ▸ List.mem_cons_self, rfl⟩

theorem countRows_asks (perPage number : Nat) :
    Asks (SendsOf (q.derived (.paginate perPage number))) (q.countRows d).run := by
  refine .written fun outer ho ↦ ?_
  refine (get_asks.mono fun r hr ↦ ?_).andThen fun _ ↦ .ret _
  have hs : (do (← q.counting).statement) = outer.statement := by
    rw [ho]
    rfl
  exact sendsOf_reads hr (by rw [← hs]; exact List.mem_cons_self)

theorem paginate_asks (perPage number : Nat) :
    Asks (SendsOf (q.derived (.paginate perPage number))) (q.paginate d perPage number).run := by
  refine (countRows_asks perPage number).andThen fun total ↦ ?_
  dsimp only
  split
  · refine Asks.andThen (get_asks.mono fun r hr ↦ sendsOf_reads hr ?_) fun _ ↦ .ret _
    exact List.mem_cons_of_mem _ List.mem_cons_self
  · exact (Asks.ret _).andThen fun _ ↦ .ret _

/-- A derived read sends nothing but its statements. -/
theorem derived_asks {use : Use} (hu : use.isDerived) :
    Asks (SendsOf (q.derived use)) (q.perform d use).run := by
  have hfirst {q : Query} : Asks (SendsOf [(q.setLimit 1).statement]) (q.first d).run :=
    first_asks.mono fun _ hr ↦ sendsOf_reads hr List.mem_cons_self
  cases use with
  | first => exact hfirst.mapped _
  | firstIntegers =>
    refine Asks.andThen ?_ fun r ↦ by cases r <;> exact .ret _
    refine hfirst.andThen fun row ↦ ?_
    cases row with
    | none => exact .ret _
    | some row => exact .written fun _ _ ↦ .ret _
  | find id => exact hfirst.mapped _
  | value column => exact (hfirst.andThen fun _ ↦ .ret _).andThen fun _ ↦ .ret _
  | pluck column =>
    refine Asks.mapped _ (Asks.andThen ?_ fun _ ↦ .ret _)
    exact get_asks.mono fun _ hr ↦ sendsOf_reads hr List.mem_cons_self
  | count => exact ((aggregateOf_asks _ _).andThen fun _ ↦ .ret _).mapped _
  | aggregate function column => exact (aggregateOf_asks _ _).andThen fun _ ↦ .ret _
  | sum column => exact ((aggregateOf_asks _ _).andThen fun _ ↦ .ret _).mapped _
  | exist negated => exact exist_asks.andThen fun _ ↦ .ret _
  | paginate perPage number => exact (paginate_asks perPage number).mapped _
  | _ => cases hu

end

def single (q : Query) : Query :=
  { q with
    columns := some [.fragment "1 [exists]"], limit := some 1
    bindings := q.bindings.set .columns [] }

theorem allBindings_eq_single (q : Query) (hd : q.grammar.dialect = .sqlServer) :
    q.allBindings = q.bindings.columns ++ q.single.allBindings := by
  have ho : q.single.bindingOrder = q.bindingOrder := rfl
  rw [allBindings, allBindings, ho]
  simp only [Bindings.flattenIn, bindingOrder, hd, true_and]
  split <;> simp [single, Bindings.set, Bindings.get, ClauseKind.all]

namespace Balanced

variable {g : Grammar} {q : Query} {s : Sql}

theorem existence_eq_single (hd : g.dialect = .sqlServer) (q : Query) :
    g.existence q = g.select q.single := by
  obtain ⟨c, joins, conditions, unions⟩ := q
  simp only [existence, hd]
  exact (select_withBindings { c with columns := some [.fragment "1 [exists]"], limit := some 1 }
    (c.bindings.set .columns []) joins conditions unions).symm

theorem single (h : q.Balanced g) : q.single.Balanced g := by
  have ha := h.aligned.withPart .columns (some [.fragment "1 [exists]"]) [] (fun _ ↦ rfl)
    h.aligned.unionOrders (fun _ _ _ ↦ rfl)
  have hfits : ClauseKind.columns.Fits g (.fragment "1 [exists]") := by
    rintro _ ⟨⟩
    exact .of_eq rfl fun _ ↦ .fixed (by decide)
  have hk := h.kept.withPart .columns (some [.fragment "1 [exists]"]) []
    (.single _ rfl hfits (List.nil_sublist _)) h.kept.unionOrders
  exact ⟨⟨ha.grammar, ha.isJoin, ha.aggregate, ha.shows, ha.unionOrders, ha.others⟩,
    ⟨hk.grammar, hk.aggregate, hk.unionOrders, hk.backed⟩⟩

/-- Looking for any row, SQL Server gets values for columns that are not written. -/
theorem of_existence (h : q.Balanced g) (hs : g.existence q = .ok s) :
    (s.slots = q.allBindings ↔ ¬ (g.dialect = .sqlServer ∧ q.bindings.columns ≠ [])) ∧
      (g.dialect = .sqlServer → s.RowsNumbered) := by
  have hg : q.grammar = g := h.aligned.grammar
  by_cases hd : g.dialect = .sqlServer
  · rw [existence_eq_single hd] at hs
    have hslots := h.single.aligned.slots_select hs
    refine ⟨?_, (h.single.kept.fits_select hs).numbered⟩
    rw [q.allBindings_eq_single (hg ▸ hd), hslots, List.self_eq_append_left]
    simp [hd]
  · have hother : g.existence q = do
        return "select exists(" ++ (← g.select q) ++ ") as " ++ (← g.wrap "exists") := by
      unfold existence
      split
      · exact absurd ‹_› hd
      · rfl
    simp only [hother, bind_eq_ok, pure_eq_ok] at hs
    obtain ⟨inner, hinner, name, -, rfl⟩ := hs
    refine ⟨iff_of_true ?_ fun hm ↦ hd hm.1, fun hd' ↦ absurd hd' hd⟩
    simp [h.aligned.slots_select hinner]

/-- A query that is read like another, with the values and row numbers that it asks for. -/
theorem of_statement (h : q.Balanced g) {sql : Sql} {bindings : List Value}
    (hs : q.statement = .ok (sql, bindings)) :
    sql.slots = bindings ∧ (g.dialect = .sqlServer → sql.RowsNumbered) := by
  obtain ⟨sql, hsql, hs⟩ := bind_eq_ok.1 hs
  cases pure_eq_ok.1 hs
  exact h.of_select hsql

theorem of_aggregateStatement (h : q.Balanced g) {function column : String}
    (hf : isFixed [] function.toList) {sql : Sql} {bindings : List Value}
    (hs : q.aggregateStatement function column = .ok (sql, bindings)) :
    (sql.slots = bindings ↔ ¬ (q.CountsRange ∧ q.groups ≠ [] ∧ q.bindings.orders ≠ [])) ∧
      (g.dialect = .sqlServer → (sql.RowsNumbered ↔ ¬ q.CountsRange)) ∧
      (q.CountsRange → q.AsksInVain g sql) := by
  obtain ⟨sql, hsql, hs⟩ := bind_eq_ok.1 hs
  cases pure_eq_ok.1 hs
  exact h.of_aggregate hf hsql

/-- The statements of a derived read. -/
theorem of_derived (h : q.Balanced g) {use : Use} (hu : use.isDerived) {sql : Sql}
    {bindings : List Value} (hs : .ok (sql, bindings) ∈ q.derived use) :
    (sql.slots = bindings ↔ ¬ use.Misbinds q) ∧
      (g.dialect = .sqlServer → (sql.RowsNumbered ↔ ¬ use.CountsRange q)) ∧
      (use.CountsRange q → q.AsksInVain g sql) := by
  have hread {q' : Query} (hq : q'.Balanced g) (hs : .ok (sql, bindings) ∈ [q'.statement]) :
      (sql.slots = bindings ↔ ¬ False) ∧
        (g.dialect = .sqlServer → (sql.RowsNumbered ↔ ¬ False)) ∧
        (False → q.AsksInVain g sql) := by
    obtain ⟨hslots, hnumbered⟩ := hq.of_statement (List.mem_singleton.1 hs).symm
    exact ⟨iff_of_true hslots not_false, fun hd ↦ iff_of_true (hnumbered hd) not_false, False.elim⟩
  cases use with
  | first => exact hread (h.setLimit 1) hs
  | firstIntegers => exact hread (h.setLimit 1) hs
  | find id => exact hread ((h.addComparison .and "id" .equal id).setLimit 1) hs
  | value column => exact hread ((h.select column).setLimit 1) hs
  | pluck column =>
    refine hread ?_ hs
    split
    · exact h.select column
    · exact h
  | count => exact h.of_aggregateStatement (by decide) (List.mem_singleton.1 hs).symm
  | aggregate function column =>
    refine h.of_aggregateStatement ?_ (List.mem_singleton.1 hs).symm
    have hf : function ∈ ["min", "max", "avg"] := List.contains_iff_mem.1 hu
    simp only [List.mem_cons, List.not_mem_nil, or_false] at hf
    rcases hf with rfl | rfl | rfl <;> decide
  | sum column => exact h.of_aggregateStatement (by decide) (List.mem_singleton.1 hs).symm
  | exist negated =>
    obtain ⟨sql, hsql, hs⟩ := bind_eq_ok.1 (List.mem_singleton.1 hs).symm
    cases pure_eq_ok.1 hs
    rw [h.aligned.grammar] at hsql
    obtain ⟨hslots, hnumbered⟩ := h.of_existence hsql
    rw [← h.aligned.grammar] at hslots
    exact ⟨hslots, fun hd ↦ iff_of_true (hnumbered hd) not_false, False.elim⟩
  | paginate perPage number =>
    rcases List.mem_cons.1 hs with hs | hs
    · obtain ⟨outer, houter, hs⟩ := bind_eq_ok.1 hs.symm
      obtain ⟨sql, hsql, hs⟩ := bind_eq_ok.1 hs
      cases pure_eq_ok.1 hs
      obtain ⟨hslots, hnumbered⟩ := h.of_counting houter hsql
      exact ⟨iff_of_true hslots not_false, fun hd ↦ iff_of_true (hnumbered hd) not_false,
        False.elim⟩
    · exact hread ((h.setOffset _).setLimit perPage) hs
  | _ => cases hu

end Balanced

/-- Whatever steps build a query, if its text has its values in order, then so has every statement
by which something is read of it, but for values of columns where SQL Server looks for any row, and
of orderings where it aggregates a range of grouped rows. Of the statement, a mark in place of each
fragment from outside, SQL Server reads row numbers only where a select gives them, unless it is an
aggregate over a range of rows: that asks for them in vain. Nothing else is sent, whatever the
driver answers. -/
theorem derived_run (g : Grammar) (macros : Macros) (steps : List Step) {s : Sql}
    (hs : (Query.run { grammar := g, macros } steps).1.sql = .ok s)
    (ha : s.slots = (Query.run { grammar := g, macros } steps).1.allBindings) {use : Use}
    (hu : use.isDerived) :
    let q := (Query.run { grammar := g, macros } steps).1
    (∀ sql bindings, .ok (sql, bindings) ∈ q.derived use →
      (sql.slots = bindings ↔ ¬ use.Misbinds q) ∧
        (g.dialect = .sqlServer → (sql.RowsNumbered ↔ ¬ use.CountsRange q)) ∧
        (use.CountsRange q → q.AsksInVain g sql)) ∧
    ∀ (σ H : Type) (d : Driver σ H) (session : Session σ H),
      ∀ r ∈ session.asked ((q.perform d use).on session).2, SendsOf (q.derived use) r := by
  intro q
  have hkept : q.Kept g := (Kept.start g macros false).run steps
  have hframe : q.frame = _ :=
    (Step.heeds_runAllWith (confined_callWithin _) steps).frame { grammar := g, macros }
  have hj : q.isJoin = false := congrArg (fun q : Query ↦ q.isJoin) hframe
  have hbalanced : q.Balanced g := .of_sql hkept hj hs ha
  exact ⟨fun sql bindings hsql ↦ hbalanced.of_derived hu hsql,
    fun σ H d session ↦ (derived_asks hu session).2⟩

def rankedTeams : List Step := [
  .source (.name "users"), .groupBy [.name "team"],
  .orderByRaw "rank(?)" [.value (.int32 1)],
  .compare .and ⟨"age", .equal, .bound (.value (.int32 2))⟩,
  .having .and ⟨"total", .named "<", .bound (.value (.int32 3))⟩, .offset 10]

/-- The groups from the eleventh on are counted as a derived table, in which they are numbered. -/
theorem derived_run_rankedTeams :
    let g : Grammar := { dialect := .sqlServer }
    let session : Session Script String :=
      { connection := { write := "write", grammar := g, processor := .sqlServer }, world := {} }
    let q := (Query.run { grammar := g } rankedTeams).1
    let sent := session.asked ((q.perform Script.driver .count).on session).2
    sent.map Request.sql = ["select count(*) as aggregate from (select * from (select *, " ++
        "row_number() over (order by rank(?)) as row_num from [users] where [age] = ? " ++
        "group by [team] having [total] < ?) as temp_table where row_num >= 11 " ++
        "order by row_num) as [temp_table]"] ∧
      sent.map (fun r ↦ r.bindings.map Value.text) = [["1", "2", "3"]] ∧
      ∀ r ∈ sent, ∃ sql bindings, .ok (sql, bindings) ∈ q.derived .count ∧
        r = .select sql.text bindings ∧ sql.slots = bindings ∧ sql.RowsNumbered := by
  intro g session q sent
  have hproper : properSteps { grammar := g } rankedTeams := by decide +kernel
  have haligned : q.Aligned g .select :=
    Step.aligned_runAllWith (Aligned.start g {} rfl fun _ ↦ rfl) (aligned_callWithin _) rankedTeams
      hproper
  have hok : q.sql.isOk := by decide +kernel
  have hcount : Use.count.isDerived := rfl
  have hrange : ¬ Use.CountsRange q .count := by
    rintro ⟨-, -, -, hhavings⟩
    have hsome : q.havings.isEmpty = false := by decide +kernel
    rw [hhavings] at hsome
    cases hsome
  refine ⟨by decide +kernel, by decide +kernel, fun r hr ↦ ?_⟩
  cases hs : q.sql with
  | ok s =>
    have ha := hs
    rw [Query.sql, haligned.grammar] at ha
    obtain ⟨hderived, hsends⟩ := derived_run g {} rankedTeams hs (haligned.slots_select ha) hcount
    obtain ⟨sql, bindings, hsql, hr⟩ := hsends _ _ Script.driver session r hr
    obtain ⟨hslots, hnumbered, -⟩ := hderived sql bindings hsql
    exact ⟨sql, bindings, hsql, hr, hslots.2 fun hm ↦ hrange hm.1, (hnumbered rfl).2 hrange⟩
  | error e =>
    rw [hs] at hok
    cases hok

/-- Looking for any row, SQL Server gets a value for a column that is not written. Counting from the
sixth row on, it is asked for numbers of rows that have none. -/
theorem derived_run_astray :
    let g : Grammar := { dialect := .sqlServer }
    let session : Session Script String :=
      { connection := { write := "write", grammar := g, processor := .sqlServer }, world := {} }
    let labelled := (Query.run { grammar := g }
      [.source (.name "users"), .selectRaw "? as x" [.value (.int32 1)]]).1
    let skipping := (Query.run { grammar := g } [.source (.name "users"), .offset 5]).1
    let looked := session.asked ((labelled.perform Script.driver (.exist false)).on session).2
    let counted := session.asked ((skipping.perform Script.driver .count).on session).2
    (∃ s, labelled.sql = .ok s ∧ s.slots = labelled.allBindings) ∧
      (∃ sql, labelled.derived (.exist false) = [.ok (sql, [.int32 1])] ∧ sql.slots = []) ∧
      looked.map (fun r ↦ (r.sql, r.bindings.map Value.text)) =
        [("select top 1 1 [exists] from [users]", ["1"])] ∧
      (∃ s, skipping.sql = .ok s ∧ s.slots = skipping.allBindings) ∧
      counted.map Request.sql = ["select * from (select count(*) as aggregate from [users]) " ++
        "as temp_table where row_num >= 6 order by row_num"] := by
  intro g session labelled skipping looked counted
  exact ⟨⟨_, rfl, rfl⟩, ⟨_, rfl, rfl⟩, by decide +kernel, ⟨_, rfl, rfl⟩, by decide +kernel⟩

end Query

end FluentSql
