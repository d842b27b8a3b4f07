import FluentSql.Proofs.Interleaving.Steps
import FluentSql.Statement.Change

namespace FluentSql

namespace Query

def shown (q : Query) : Query := { q with conditions := bareConditions q.conditions }

def gather (part : Family → Query) (m : Option Mistake) : Query :=
  { (part .source).frame with
    columns := (part .columns).columns
    distinct := (part .columns).distinct
    source := (part .source).source
    joins := (part .joins).joins
    conditions := (part .conditions).conditions
    groups := (part .groups).groups
    havings := (part .havings).havings
    orders := (part .rows).orders
    limit := (part .rows).limit
    offset := (part .rows).offset
    unions := (part .rows).unions
    unionOrders := (part .rows).unionOrders
    unionLimit := (part .rows).unionLimit
    unionOffset := (part .rows).unionOffset
    lock := (part .lock).lock
    usesWriteHandle := (part .lock).usesWriteHandle
    bindings :=
      { columns := (part .columns).bindings.columns
        source := (part .source).bindings.source
        joins := (part .joins).bindings.joins
        conditions := (part .conditions).bindings.conditions
        groups := (part .groups).bindings.groups
        havings := (part .havings).bindings.havings
        orders := (part .rows).bindings.orders
        unions := (part .rows).bindings.unions
        unionOrders := (part .rows).bindings.unionOrders }
    mistake := m }

theorem shown_eq_gather (q : Query) : q.shown = gather q.keep q.mistake := rfl

theorem shown_eq {q q' : Query} (hk : ∀ f, q.keep f = q'.keep f) (hm : q.mistake = q'.mistake) :
    q.shown = q'.shown := by
  rw [shown_eq_gather, shown_eq_gather, funext hk, hm]

end Query

namespace Grammar

open Query

variable (g : Grammar) (q : Query)

mutual

theorem conditionList_bareConditions : (conditions : List (Condition Query)) →
    g.conditionList (bareConditions conditions) = g.conditionList conditions
  | [] => rfl
  | ⟨connective, t⟩ :: rest => by
    simp only [bareConditions, conditionList, test_bareTest t, conditionList_bareConditions rest]

theorem test_bareTest : (t : Test Query) → g.test (bareTest t) = g.test t
  | .nested ⟨_, _, conditions, _⟩ => by
    simp only [bareTest, bare, test, conditionList_bareConditions conditions]
  | .basic .. => rfl
  | .jsonBoolean .. => rfl
  | .columns .. => rfl
  | .raw _ => rfl
  | .isIn .. => rfl
  | .isInQuery .. => rfl
  | .isInIntegers .. => rfl
  | .null .. => rfl
  | .between .. => rfl
  | .betweenColumns .. => rfl
  | .datePart .. => rfl
  | .query .. => rfl
  | .existence .. => rfl
  | .rowValues .. => rfl
  | .jsonContains .. => rfl
  | .jsonLength .. => rfl

end

theorem select_shown : g.select q.shown = g.select q := by
  obtain ⟨c, joins, conditions, unions⟩ := q
  simp only [shown, select, conditionList_bareConditions]

theorem embedded_shown : g.embedded q.shown = g.embedded q := by
  simp only [embedded, shown, conditionList_bareConditions]

theorem selectRows_shown (identifier : String) :
    g.selectRows q.shown identifier = g.selectRows q identifier := by
  unfold selectRows
  cases h : q.source.bind Reference.name? with
  | none => simp only [shown, h]
  | some source =>
    simp only [shown, h]
    exact g.select_shown { q with columns := _ }

theorem existence_shown : g.existence q.shown = g.existence q := by
  unfold existence
  split
  · exact g.select_shown { q with columns := some [.fragment "1 [exists]"], limit := some 1 }
  · rw [select_shown]

theorem update_shown (record : Record Value) :
    g.update q.shown record = g.update q record := by
  unfold update
  rw [embedded_shown]
  simp only [selectRows_shown]
  rfl

theorem delete_shown : g.delete q.shown = g.delete q := by
  unfold delete
  rw [embedded_shown]
  simp only [selectRows_shown]
  rfl

end Grammar

/-- Two queries that no statement tells apart. -/
structure Alike (q q' : Query) : Prop where
  sql : q.sql = q'.sql
  compiled : q.compiled = q'.compiled
  allBindings : q.allBindings = q'.allBindings
  bindings : ∀ kind, q.bindings.get kind = q'.bindings.get kind
  update : ∀ (g : Grammar) (record : Record Value), g.update q record = g.update q' record
  updateBindings : ∀ (g : Grammar) (record : Record Value),
    g.updateBindings q.bindings record = g.updateBindings q'.bindings record
  delete : ∀ g : Grammar, g.delete q = g.delete q'
  deleteBindings : Grammar.deleteBindings q.bindings = Grammar.deleteBindings q'.bindings
  existence : ∀ g : Grammar, g.existence q = g.existence q'

theorem Alike.of_shown {q q' : Query} (h : q.shown = q'.shown) : Alike q q' := by
  have hbindings : q.bindings = q'.bindings := by
    have hb := congrArg (fun q : Query ↦ q.bindings) h
    exact hb
  have hall : q.allBindings = q'.allBindings := by
    have ha := congrArg Query.allBindings h
    exact ha
  have hsql : q.sql = q'.sql := by
    have hg := congrArg (fun q : Query ↦ q.grammar) h
    calc q.sql = q.grammar.select q.shown := (q.grammar.select_shown q).symm
      _ = q'.grammar.select q'.shown := by rw [h, show q.grammar = q'.grammar from hg]
      _ = q'.sql := q'.grammar.select_shown q'
  exact {
    sql := hsql
    compiled := by rw [Query.compiled, hsql, hall]; rfl
    allBindings := hall
    bindings := fun kind ↦ by rw [hbindings]
    update := fun g record ↦ by rw [← g.update_shown, h, g.update_shown]
    updateBindings := fun g record ↦ by rw [hbindings]
    delete := fun g ↦ by rw [← g.delete_shown, h, g.delete_shown]
    deleteBindings := by rw [hbindings]
    existence := fun g ↦ by rw [← g.existence_shown, h, g.existence_shown] }

namespace Query

/-- Two lists with the same steps for each family, in the same order, build queries that no
statement tells apart. -/
theorem run_interleaved (q : Query) (steps steps' : List Step)
    (hs : ∀ f, Step.touching f q.macros steps = Step.touching f q.macros steps')
    (h : (q.run steps).2 = none) (hm : (q.run steps).1.mistake = none)
    (hm' : (q.run steps').1.mistake = none) :
    (q.run steps').2 = none ∧ Alike (q.run steps).1 (q.run steps').1 := by
  obtain ⟨h', hk⟩ := keep_run hs h
  exact ⟨h', .of_shown (shown_eq hk (hm.trans hm'.symm))⟩

def scatteredSteps : List Step := [
  .unite true [.source (.name "guests"), .isNull .and true "name"],
  .nest .and [.isNull .and false "gone", .compare .or ⟨"role", .equal, .bound (.value (.int32 1))⟩],
  .limit 5, .lock .update,
  .selectRaw "? as mark" [.value (.int32 2)], .source (.name "users"),
  .rawHaving .and "total > ?" [.value (.int32 3)],
  .isIn .and false "id" [.bound (.value (.int32 4))], .orderByRaw "near(?)" [.value (.int32 5)]]

def sortedSteps : List Step := [
  .selectRaw "? as mark" [.value (.int32 2)], .source (.name "users"),
  .nest .and [.isNull .and false "gone", .compare .or ⟨"role", .equal, .bound (.value (.int32 1))⟩],
  .isIn .and false "id" [.bound (.value (.int32 4))],
  .rawHaving .and "total > ?" [.value (.int32 3)],
  .unite true [.source (.name "guests"), .isNull .and true "name"],
  .limit 5, .orderByRaw "near(?)" [.value (.int32 5)], .lock .update]

theorem run_interleaved_scattered :
    let q := ofGrammar { dialect := .sqlServer }
    (∀ f, Step.touching f q.macros scatteredSteps = Step.touching f q.macros sortedSteps) ∧
      (q.run scatteredSteps).1.mistake = none ∧ (q.run sortedSteps).1.mistake = none ∧
      (q.run sortedSteps).2 = none ∧ Alike (q.run scatteredSteps).1 (q.run sortedSteps).1 ∧
      (q.run sortedSteps).1.allBindings.map Value.text = ["2", "1", "4", "3", "5"] := by
  intro q
  have hs : ∀ f, Step.touching f q.macros scatteredSteps =
      Step.touching f q.macros sortedSteps := by
    intro f
    cases f <;> rfl
  have hm : (q.run scatteredSteps).1.mistake = none := by rfl
  have hm' : (q.run sortedSteps).1.mistake = none := by rfl
  obtain ⟨h, ha⟩ := run_interleaved q scatteredSteps sortedSteps hs (by rfl) hm hm'
  exact ⟨hs, hm, hm', h, ha, by decide +kernel⟩

end Query

end FluentSql
