import FluentSql.Session.Paging
import Mathlib.Data.List.Basic

namespace FluentSql

inductive Key where
  | integer (i : Int64)
  | text (s : String)
  deriving DecidableEq

namespace Key

def json : Key → Json
  | integer i => .integer i.toInt
  | text s => .string s

def value : Key → Value
  | integer i => .int64 i
  | text s => .string s

theorem isNull_value (k : Key) : k.value.isNull = false := by
  cases k <;> rfl

theorem value_ne_bool (k : Key) (b : Bool) : k.value ≠ .bool b := by
  cases k <;> nofun

theorem ofJson_json (k : Key) : Value.ofJson k.json = k.value := by
  cases k with
  | text s => rfl
  | integer i =>
    have hi : i.toInt ≤ Value.int64High := by
      have := i.toInt_lt
      unfold Value.int64High
      omega
    simp [json, value, Value.ofJson, hi]

end Key

/-- Rows in the strict order of their keys. A row that shows a key at all shows its own. -/
structure Listing (before : Key → Key → Prop) (name : String) where
  entries : List (Key × Row)
  sorted : entries.Pairwise fun a b ↦ before a.1 b.1
  shown : ∀ x ∈ entries, ∀ j, x.2.get? name = some j → j.isNull = false → j = x.1.json

namespace Listing

variable {before : Key → Key → Prop} [DecidableRel before] {name : String}
  (l : Listing before name)

def rows : List Row := l.entries.map Prod.snd

def after : Option Key → List (Key × Row)
  | none => l.entries
  | some k => l.entries.filter fun x ↦ before k x.1

def page (size : Nat) (last : Option Key) : List Row :=
  ((l.after last).take size).map Prod.snd

theorem after_key [Std.Asymm before] {first rest : List (Key × Row)} {x : Key × Row}
    (h : l.entries = first ++ x :: rest) : l.after (some x.1) = rest := by
  have hs := l.sorted
  rw [h, List.pairwise_append, List.pairwise_cons] at hs
  obtain ⟨-, ⟨hrest, -⟩, hfirst⟩ := hs
  have hno {a b : Key} (hab : before a b) : ¬ before b a := Std.Asymm.asymm a b hab
  have hx : ¬ before x.1 x.1 := fun hxx ↦ hno hxx hxx
  change l.entries.filter (fun y ↦ before x.1 y.1) = rest
  rw [h, List.filter_append, List.filter_cons_of_neg (by simpa using hx),
    List.filter_eq_nil_iff.2, List.filter_eq_self.2, List.nil_append]
  · exact fun y hy ↦ by simpa using hrest y hy
  · exact fun y hy ↦ by simpa using hno (hfirst y hy x List.mem_cons_self)

end Listing

namespace Query

def Chunk.Resumes (name : String) (c : Chunk) : Prop :=
  ((c.rows.getLast?.bind (·.get? name)).any fun j ↦ !j.isNull) = true

instance {name : String} {c : Chunk} : Decidable (c.Resumes name) :=
  inferInstanceAs (Decidable (_ = true))

def chunks (size number : Nat) (rows : List Row) : List Chunk :=
  (List.range ((rows.length + size - 1) / size)).map fun i ↦
    ⟨number + i, (rows.drop (i * size)).take size⟩

variable {size number : Nat} {rows : List Row}

theorem chunks_nil (h : 0 < size) : chunks size number [] = [] := by
  unfold chunks
  rw [List.length_nil, Nat.div_eq_of_lt (by omega)]
  rfl

theorem chunks_cons (h : 0 < size) (hr : rows ≠ []) : chunks size number rows =
    ⟨number, rows.take size⟩ :: chunks size (number + 1) (rows.drop size) := by
  have hl : 0 < rows.length := List.length_pos_iff.2 hr
  have hn : (rows.length + size - 1) / size = ((rows.drop size).length + size - 1) / size + 1 := by
    rw [List.length_drop]
    rcases Nat.lt_or_ge rows.length size with hs | hs
    · rw [Nat.sub_eq_zero_of_le (Nat.le_of_lt hs), Nat.div_eq_of_lt (by omega : 0 + size - 1 < size),
        Nat.div_eq_of_lt_le] <;> omega
    · rw [← Nat.add_div_right _ h]
      congr 1
      omega
  unfold chunks
  rw [hn, List.range_succ_eq_map, List.map_cons, List.map_map]
  congr 1
  · rw [Nat.zero_mul]
    rfl
  · refine List.map_congr_left fun i _ ↦ ?_
    rw [Function.comp_apply, List.drop_drop, Nat.succ_mul, Nat.add_comm size]
    congr 1
    omega

structure Divides (size number : Nat) (rows : List Row) (chunks : List Chunk) : Prop where
  rows : chunks.flatMap Chunk.rows = rows
  numbers : chunks.map Chunk.number = List.range' number chunks.length
  sizes : ∀ c ∈ chunks, 0 < c.rows.length ∧ c.rows.length ≤ size

theorem chunks_divides (h : 0 < size) : Divides size number rows (chunks size number rows) := by
  induction hn : rows.length using Nat.strongRecOn generalizing number rows with
  | ind n ih =>
    by_cases hr : rows = []
    · subst hr
      rw [chunks_nil h]
      exact ⟨rfl, rfl, by simp⟩
    · have hl : 0 < rows.length := List.length_pos_iff.2 hr
      have hlt : (rows.drop size).length < n := by
        rw [List.length_drop]
        omega
      have hd : Divides size (number + 1) (rows.drop size) _ := ih _ hlt rfl
      rw [chunks_cons h hr]
      constructor
      case rows => rw [List.flatMap_cons, hd.rows, List.take_append_drop]
      case numbers =>
        rw [List.map_cons, hd.numbers, List.length_cons, List.range'_succ]
      case sizes =>
        rintro c (_ | ⟨_, hc⟩)
        · simp only [List.length_take]
          omega
        · exact hd.sizes c hc

theorem resumes_of_shown {name : String} (h : 0 < size)
    (hrows : ∀ row ∈ rows, (row.get? name).any (fun j ↦ !j.isNull)) :
    ∀ c ∈ chunks size number rows, c.Resumes name := by
  intro c hc
  have hd : Divides size number rows (chunks size number rows) := chunks_divides h
  obtain ⟨row, hrow⟩ : ∃ row, c.rows.getLast? = some row :=
    ⟨_, List.getLast?_eq_some_getLast (List.length_pos_iff.1 (hd.sizes c hc).1)⟩
  have hm : row ∈ rows := by
    rw [← hd.rows]
    exact List.mem_flatMap.2 ⟨c, hc, List.mem_of_getLast? hrow⟩
  unfold Chunk.Resumes
  rw [hrow]
  exact hrows row hm

end Query

end FluentSql
