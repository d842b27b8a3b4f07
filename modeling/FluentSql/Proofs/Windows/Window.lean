import FluentSql.Statement.Select
import Mathlib.Data.List.Dedup
import Mathlib.Data.Set.Basic

namespace FluentSql

/-- The rows asked for: of those that are not skipped, no more than the limit. -/
structure Window where
  limit : Option Nat := none
  offset : Option Nat := none

namespace Window

def skip (w : Window) : Nat := w.offset.getD 0

def rows {α : Type} (w : Window) (l : List α) : List α :=
  match w.limit with
  | some n => (l.drop w.skip).take n
  | none => l.drop w.skip

def positions (w : Window) : Set Nat :=
  {i | w.skip ≤ i ∧ ∀ n ∈ w.limit, i < w.skip + n}

end Window

def numbered {α : Type} (p : Nat → Bool) (k : Nat) (l : List α) : List α :=
  ((l.zipIdx k).filter fun r ↦ p r.2).map Prod.fst

/-- How rows are bounded in a statement. Rows are numbered from 1, and both ends of a range belong
to it. -/
inductive Bound where
  | clauses (limit offset : Option Nat)
  | top (n : Nat)
  | range (low : Nat) (high : Option Nat)

def Bound.admits (low : Nat) (high : Option Nat) (i : Nat) : Bool :=
  low ≤ i && high.all fun h ↦ i ≤ h

def Bound.rows {α : Type} (b : Bound) (l : List α) : List α :=
  match b with
  | clauses limit offset => Window.rows ⟨limit, offset⟩ l
  | top n => l.take n
  | range low high => numbered (admits low high) 1 l

def distinctRows {α : Type} [DecidableEq α] (distinct : Bool) (l : List α) : List α :=
  if distinct then l.dedup else l

/-- The rows that a select returns, from which duplicates are dropped before they are bounded. Where
they have numbers, the number of a row is one of its columns. -/
def Bound.selected {α : Type} [DecidableEq α] (b : Bound) (distinct : Bool) (l : List α) : List α :=
  match b with
  | range low high =>
    ((distinctRows distinct (l.zipIdx 1)).filter fun r ↦ admits low high r.2).map Prod.fst
  | _ => b.rows (distinctRows distinct l)

section

variable {α : Type} {p : Nat → Bool} {k : Nat}

theorem numbered_all (h : ∀ i, k ≤ i → p i) (l : List α) : numbered p k l = l := by
  unfold numbered
  rw [List.filter_eq_self.2, List.zipIdx_map_fst]
  intro r hr
  exact h r.2 (List.le_snd_of_mem_zipIdx hr)

theorem numbered_none (h : ∀ i, k ≤ i → p i = false) (l : List α) : numbered p k l = [] := by
  unfold numbered
  rw [List.filter_eq_nil_iff.2, List.map_nil]
  intro r hr
  rw [h r.2 (List.le_snd_of_mem_zipIdx hr)]
  exact Bool.false_ne_true

theorem numbered_cons (x : α) (l : List α) :
    numbered p k (x :: l) = if p k then x :: numbered p (k + 1) l else numbered p (k + 1) l := by
  unfold numbered
  rw [List.zipIdx_cons, List.filter_cons]
  split <;> rfl

theorem numbered_drop (low : Nat) (hk : k ≤ low) (h : ∀ i, k ≤ i → i < low → p i = false)
    (l : List α) : numbered p k l = numbered p low (l.drop (low - k)) := by
  induction l generalizing k with
  | nil => rw [List.drop_nil]; rfl
  | cons x l ih =>
    obtain rfl | hlt := Nat.eq_or_lt_of_le hk
    · rw [Nat.sub_self, List.drop_zero]
    · have hd : (x :: l).drop (low - k) = l.drop (low - (k + 1)) := by
        rw [show low - k = low - (k + 1) + 1 by omega, List.drop_succ_cons]
      rw [numbered_cons, h k le_rfl hlt, if_neg Bool.false_ne_true, hd]
      exact ih hlt fun i hi ↦ h i (by omega)

theorem numbered_take {n : Nat} (hin : ∀ i, k ≤ i → i < k + n → p i)
    (hout : ∀ i, k + n ≤ i → p i = false) (l : List α) : numbered p k l = l.take n := by
  induction n generalizing k l with
  | zero => exact numbered_none hout l
  | succ n ih =>
    cases l with
    | nil => rfl
    | cons x l =>
      rw [numbered_cons, if_pos (hin k le_rfl (by omega)), List.take_succ_cons,
        ih (fun i hi hn ↦ hin i (by omega) (by omega)) fun i hi ↦ hout i (by omega)]

theorem distinctRows_zipIdx [DecidableEq α] (distinct : Bool) (l : List α) :
    distinctRows distinct (l.zipIdx k) = l.zipIdx k := by
  unfold distinctRows
  split
  · refine (List.Nodup.of_map Prod.snd ?_).dedup
    rw [List.zipIdx_map_snd]
    exact List.nodup_range'
  · rfl

theorem Bound.selected_range [DecidableEq α] (low : Nat) (high : Option Nat) (distinct : Bool)
    (l : List α) : (range low high).selected distinct l = (range low high).rows l := by
  rw [selected, distinctRows_zipIdx]
  rfl

theorem Bound.rows_range (n : Nat) (l : List α) : (Bound.range (n + 1) none).rows l = l.drop n := by
  simp only [Bound.rows]
  rw [numbered_drop (n + 1) (Nat.le_add_left 1 n), Nat.add_sub_cancel, numbered_all]
  · intro i hi
    simp only [Bound.admits, Option.all_none, Bool.and_true, decide_eq_true_eq]
    exact hi
  · intro i _ hi
    rw [Bound.admits, decide_eq_false (Nat.not_le.2 hi), Bool.false_and]

theorem Bound.rows_range_some (n m : Nat) (l : List α) :
    (Bound.range (n + 1) (some (n + m))).rows l = (l.drop n).take m := by
  simp only [Bound.rows]
  rw [numbered_drop (n + 1) (Nat.le_add_left 1 n), Nat.add_sub_cancel, numbered_take (n := m)]
  · intro i hi him
    simp only [Bound.admits, Option.all_some, Bool.and_eq_true, decide_eq_true_eq]
    omega
  · intro i him
    simp only [Bound.admits, Option.all_some, Bool.and_eq_false_iff, decide_eq_false_iff_not]
    omega
  · intro i _ hi
    rw [Bound.admits, decide_eq_false (Nat.not_le.2 hi), Bool.false_and]

end

namespace Grammar

/-- How a query of its own is bounded. SQL Server writes a limit as `top`, and with rows to skip as
a range. -/
def bound (g : Grammar) (w : Window) : Bound :=
  match g.dialect with
  | .sqlServer =>
    if 0 < w.skip then
      .range (wrapped (w.skip + 1)) (match w.limit with
        | some (n + 1) => some (wrapped (w.skip + (n + 1)))
        | _ => none)
    else
      match w.limit with
      | some (n + 1) => .top (n + 1)
      | _ => .clauses none none
  | _ => .clauses w.limit w.offset

/-- How the combined rows of a union are bounded: SQL Server writes nothing. -/
def unionBound (g : Grammar) (w : Window) : Bound :=
  match g.dialect with
  | .sqlServer => .clauses none none
  | _ => .clauses w.limit w.offset

/-- SQL Server loses a limit of zero, and a range of row numbers that do not fit into 64 bits. -/
def Loses (g : Grammar) (w : Window) : Prop :=
  g.dialect = .sqlServer ∧
    (w.limit = some 0 ∨ 0 < w.skip ∧ UInt64.size ≤ w.skip + w.limit.getD 1)

/-- SQL Server numbers rows before duplicates are dropped, and drops none then. -/
def CountsDuplicates (g : Grammar) (distinct : Bool) (w : Window) : Prop :=
  g.dialect = .sqlServer ∧ distinct ∧ 0 < w.skip

/-- SQL Server loses every window over combined rows. -/
def LosesUnion (g : Grammar) (w : Window) : Prop :=
  g.dialect = .sqlServer ∧ (w.limit ≠ none ∨ 0 < w.skip)

instance (g : Grammar) (w : Window) : Decidable (g.Loses w) :=
  inferInstanceAs (Decidable (_ ∧ (_ ∨ _)))

instance (g : Grammar) (distinct : Bool) (w : Window) :
    Decidable (g.CountsDuplicates distinct w) :=
  inferInstanceAs (Decidable (_ ∧ _ ∧ _))

instance (g : Grammar) (w : Window) : Decidable (g.LosesUnion w) :=
  inferInstanceAs (Decidable (g.dialect = .sqlServer ∧ (w.limit ≠ none ∨ 0 < w.skip)))

variable {g : Grammar} {w : Window} {α : Type}

theorem bound_of_ne (h : g.dialect ≠ .sqlServer) : g.bound w = .clauses w.limit w.offset := by
  unfold bound
  split
  · rename_i hd
    exact absurd hd h
  · rfl

theorem unionBound_of_ne (h : g.dialect ≠ .sqlServer) :
    g.unionBound w = .clauses w.limit w.offset := by
  unfold unionBound
  split
  · rename_i hd
    exact absurd hd h
  · rfl

theorem wrapped_eq {n : Nat} (h : n < UInt64.size) : wrapped n = n := Nat.mod_eq_of_lt h

theorem rows_bound (h : ¬ g.Loses w) (l : List α) : (g.bound w).rows l = w.rows l := by
  by_cases hd : g.dialect = .sqlServer
  · obtain ⟨hl, hfits⟩ := not_or.1 fun hl ↦ h ⟨hd, hl⟩
    unfold bound Window.rows
    simp only [hd]
    rcases hw : w.limit with _ | _ | n
    · split
      · rename_i hs
        have hfits : w.skip + 1 < UInt64.size := by
          rw [hw] at hfits
          exact Nat.not_le.1 fun hn ↦ hfits ⟨hs, hn⟩
        rw [wrapped_eq hfits]
        exact Bound.rows_range _ l
      · rename_i hs
        rw [Nat.eq_zero_of_not_pos hs]
        rfl
    · exact absurd hw hl
    · split
      · rename_i hs
        have hfits : w.skip + (n + 1) < UInt64.size := by
          rw [hw] at hfits
          exact Nat.not_le.1 fun hn ↦ hfits ⟨hs, hn⟩
        dsimp only
        rw [wrapped_eq hfits, wrapped_eq (by omega : w.skip + 1 < UInt64.size)]
        exact Bound.rows_range_some _ _ l
      · rename_i hs
        simp [Bound.rows, Nat.eq_zero_of_not_pos hs]
  · rw [bound_of_ne hd]
    rfl

/-- What a select returns of its rows, duplicates dropped if it is to, unless they are counted. -/
theorem selected_bound [DecidableEq α] {distinct : Bool} (h : ¬ g.Loses w) (l : List α) :
    (g.bound w).selected distinct l =
      w.rows (if g.CountsDuplicates distinct w then l else distinctRows distinct l) := by
  by_cases hd : g.dialect = .sqlServer ∧ 0 < w.skip
  · have hrange : (g.bound w).selected distinct l = (g.bound w).rows l := by
      simp only [bound, hd.1, if_pos hd.2]
      exact Bound.selected_range _ _ distinct l
    rw [hrange, rows_bound h]
    cases distinct with
    | true => rw [if_pos ⟨hd.1, rfl, hd.2⟩]
    | false => rw [show distinctRows false l = l from rfl, ite_self]
  · have hrest : (g.bound w).selected distinct l = (g.bound w).rows (distinctRows distinct l) := by
      unfold bound
      split
      · rw [if_neg fun hs ↦ hd ⟨‹_›, hs⟩]
        split <;> rfl
      · rfl
    rw [hrest, rows_bound h, if_neg fun hc ↦ hd ⟨hc.1, hc.2.2⟩]

theorem rows_unionBound (h : ¬ g.LosesUnion w) (l : List α) :
    (g.unionBound w).rows l = w.rows l := by
  by_cases hd : g.dialect = .sqlServer
  · obtain ⟨hl, hs⟩ := not_or.1 fun hw ↦ h ⟨hd, hw⟩
    have hu : g.unionBound w = .clauses none none := by
      simp only [unionBound, hd]
    simp only [hu, Window.rows, not_not.1 hl]
    rw [Nat.eq_zero_of_not_pos hs]
    rfl
  · rw [unionBound_of_ne hd]
    rfl

end Grammar

end FluentSql
