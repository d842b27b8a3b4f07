import FluentSql.Statement.Select
import Mathlib.Data.List.Dedup
import Mathlib.Data.List.Perm.Basic

namespace FluentSql

/-- What a database makes of clauses, the values in them included. -/
structure Database where
  Row : Type
  Key : Type
  Result : Type
  decidableKey : DecidableEq Key
  decidableResult : DecidableEq Result
  rows : Option Sql → Option Sql → List Row
  holds : Sql → Row → Bool
  key : Sql → Row → Key
  aggregates : Sql → Bool
  passes : Sql → List Row → Bool
  result : Sql → List Row → Result
  before : Sql → List Row → List Row → Bool
  beforeCombined : Sql → Result → Result → Bool
  member : Sql → List Result

attribute [instance] Database.decidableKey Database.decidableResult

structure Core where
  distinct : Bool
  columns : Sql
  source : Option Sql
  joins : Option Sql
  condition : Option Sql
  groups : Option Sql
  havings : Option Sql
  orders : Option Sql
  lock : Option Sql

namespace Core

/-- Whether rows are grouped by the clauses themselves, whatever the columns and orderings are. -/
def Grouped (c : Core) : Prop :=
  c.groups.isSome ∨ c.havings.isSome

instance (c : Core) : Decidable c.Grouped :=
  inferInstanceAs (Decidable (_ ∨ _))

variable (db : Database) (c : Core)

def kept : List db.Row :=
  (db.rows c.source c.joins).filter fun row ↦ c.condition.all (db.holds · row)

/-- Without a grouping each row is on its own, unless an aggregate or a condition on groups puts all
of them into one group. -/
def grouped : List (List db.Row) :=
  match c.groups with
  | some groups => ((c.kept db).map (db.key groups)).dedup.map fun key ↦
      (c.kept db).filter fun row ↦ db.key groups row = key
  | none =>
    if c.havings.isSome || db.aggregates c.columns || c.orders.any db.aggregates then [c.kept db]
    else (c.kept db).map ([·])

def selected : List (List db.Row) :=
  (c.grouped db).filter fun rows ↦ c.havings.all (db.passes · rows)

def sorted : List (List db.Row) :=
  match c.orders with
  | some orders => (c.selected db).mergeSort (db.before orders)
  | none => c.selected db

def rows : List db.Result :=
  let results := (c.sorted db).map (db.result c.columns)
  if c.distinct then results.dedup else results

end Core

/-- A select, and the other members of a union, of which some keep duplicates. -/
structure Selection where
  first : Core
  members : List (Bool × Sql)
  orders : Option Sql

namespace Selection

variable (db : Database) (s : Selection)

def unite (rows : List db.Result) (member : Bool × Sql) : List db.Result :=
  if member.1 then rows ++ db.member member.2 else (rows ++ db.member member.2).dedup

def combined : List db.Result :=
  s.members.foldl (unite db) (s.first.rows db)

def rows : List db.Result :=
  match s.orders with
  | some orders => (s.combined db).mergeSort (db.beforeCombined orders)
  | none => s.combined db

def unordered : Selection :=
  { s with first := { s.first with orders := none }, orders := none }

def withColumns (columns : Sql) : Selection :=
  { s with first := { s.first with columns } }

end Selection

/-- A statement that counts: the rows of a select, without regard to its columns, or those of a
derived table. -/
inductive Tally where
  | direct (c : Core)
  | derived (s : Selection) (label : String)

def Tally.answer (db : Database) : Tally → Nat
  | direct c => (c.kept db).length
  | derived s _ => (s.rows db).length

namespace Core

variable {db : Database} {c : Core}

theorem perm_sorted : (c.sorted db).Perm (c.selected db) := by
  unfold sorted
  split
  · exact List.mergeSort_perm _ _
  · exact .refl _

/-- Without orderings the same groups are selected, unless an aggregate is ordered by. -/
theorem selected_unordered (h : ¬ c.Grouped → ∀ orders ∈ c.orders, db.aggregates orders = false) :
    selected db { c with orders := none } = c.selected db := by
  have hgrouped : grouped db { c with orders := none } = c.grouped db := by
    unfold grouped
    cases hg : c.groups with
    | some groups => rfl
    | none =>
      cases hh : c.havings with
      | some havings => simp [kept]
      | none =>
        have horders := h (by simp [Grouped, hg, hh])
        have ho : c.orders.any db.aggregates = false := by
          cases ho : c.orders <;> simp_all
        simp [kept, ho]
  simp only [selected, hgrouped]

theorem perm_rows_unordered (h : ¬ c.Grouped → ∀ orders ∈ c.orders, db.aggregates orders = false) :
    (rows db { c with orders := none }).Perm (c.rows db) := by
  have hsorted : (sorted db { c with orders := none }).Perm (c.sorted db) := by
    have hselected : sorted db { c with orders := none } = c.selected db := selected_unordered h
    rw [hselected]
    exact perm_sorted.symm
  have hresults := hsorted.map (db.result c.columns)
  unfold rows
  dsimp only
  split
  · exact hresults.dedup
  · exact hresults

theorem length_rows (hd : c.distinct = false) : (c.rows db).length = (c.sorted db).length := by
  simp [rows, hd]

/-- Where groups are given, the columns do not matter to how many rows there are, unless
duplicates among them are dropped. -/
theorem length_rows_columns (hd : c.distinct = false) (h : c.Grouped) (columns : Sql) :
    (rows db { c with columns }).length = (c.rows db).length := by
  have hgrouped : grouped db { c with columns } = c.grouped db := by
    unfold grouped
    cases hg : c.groups with
    | some groups => rfl
    | none =>
      have hh : c.havings.isSome := by simpa [Grouped, hg] using h
      simp [kept, hh]
  have hselected : selected db { c with columns } = c.selected db := by
    simp only [selected, hgrouped]
  have hsorted : sorted db { c with columns } = c.sorted db := by
    simp only [sorted, hselected]
  rw [length_rows (c := { c with columns }) hd, length_rows hd, hsorted]

structure Plain (db : Database) (c : Core) : Prop where
  apart : ¬ c.Grouped
  columns : db.aggregates c.columns = false
  orders : ∀ orders ∈ c.orders, db.aggregates orders = false

theorem Plain.length_sorted (h : c.Plain db) : (c.sorted db).length = (c.kept db).length := by
  have ho : c.orders.any db.aggregates = false := by
    have horders := h.orders
    cases ho : c.orders <;> simp_all
  have happart : c.groups = none ∧ c.havings = none := by
    simpa [Grouped] using h.apart
  rw [perm_sorted.length_eq]
  simp [selected, grouped, happart, h.columns, ho]

/-- The rows of such a select can be counted without its columns, if duplicates stay. Otherwise
there are more of them than are returned, unless there are no duplicates. -/
theorem Plain.length_rows (h : c.Plain db) : (c.rows db).length ≤ (c.kept db).length ∧
    ((c.rows db).length = (c.kept db).length ↔
      c.distinct = false ∨ ((c.sorted db).map (db.result c.columns)).Nodup) := by
  have hlength : ((c.sorted db).map (db.result c.columns)).length = (c.kept db).length := by
    rw [List.length_map, h.length_sorted]
  unfold rows
  dsimp only
  cases c.distinct with
  | false => simp [← hlength]
  | true =>
    have hsub := List.dedup_sublist ((c.sorted db).map (db.result c.columns))
    rw [if_pos rfl, ← hlength]
    refine ⟨hsub.length_le, ?_⟩
    rw [or_iff_right (Bool.noConfusion : ¬ true = false), ← List.dedup_eq_self]
    exact ⟨hsub.eq_of_length, congrArg List.length⟩

theorem length_rows_aggregate (h : ¬ c.Grouped)
    (ha : db.aggregates c.columns ∨ c.orders.any db.aggregates) : (c.rows db).length = 1 := by
  have hall : c.havings = none ∧ c.grouped db = [c.kept db] := by
    simp_all [grouped, Grouped]
  have hsorted : (c.sorted db).length = 1 := by
    rw [perm_sorted.length_eq, selected, hall.1, hall.2]
    rfl
  obtain ⟨rows, hrows⟩ := List.length_eq_one_iff.1 hsorted
  simp [Core.rows, hrows]

end Core

namespace Selection

variable {db : Database} {s : Selection}

theorem perm_combine {rows rows' : List db.Result} (h : rows.Perm rows')
    (members : List (Bool × Sql)) :
    (members.foldl (unite db) rows).Perm (members.foldl (unite db) rows') := by
  induction members generalizing rows rows' with
  | nil => exact h
  | cons m members ih =>
    refine ih ?_
    unfold unite
    split
    · exact h.append_right _
    · exact (h.append_right _).dedup

theorem perm_rows : (s.rows db).Perm (s.combined db) := by
  unfold rows
  split
  · exact List.mergeSort_perm _ _
  · exact .refl _

/-- Orderings do not change how many rows there are. -/
theorem length_rows_unordered
    (h : ¬ s.first.Grouped → ∀ orders ∈ s.first.orders, db.aggregates orders = false) :
    (s.unordered.rows db).length = (s.rows db).length := by
  have hcombined : (s.unordered.combined db).Perm (s.combined db) :=
    perm_combine (Core.perm_rows_unordered h) s.members
  exact (hcombined.trans perm_rows.symm).length_eq

theorem length_rows_of_members (h : s.members = []) :
    (s.rows db).length = (s.first.rows db).length := by
  rw [perm_rows.length_eq, combined, h, List.foldl_nil]

theorem length_rows_withColumns (hm : s.members = []) (hd : s.first.distinct = false)
    (hg : s.first.Grouped) (columns : Sql) :
    ((s.withColumns columns).rows db).length = (s.rows db).length := by
  have hmembers : (s.withColumns columns).members = [] := hm
  rw [length_rows_of_members hmembers, length_rows_of_members hm]
  exact Core.length_rows_columns hd hg columns

end Selection

end FluentSql
