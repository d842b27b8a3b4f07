import FluentSql.Proofs.Slots.Written
import FluentSql.Proofs.Windows.Window

namespace FluentSql

/-- Both windows of a query: that of its own rows, and after a union that of the combined rows. -/
structure Windows where
  own : Window := {}
  union : Window := {}

namespace Clauses

def windows (c : Clauses) : Windows :=
  ⟨⟨c.limit, c.offset⟩, ⟨c.unionLimit, c.unionOffset⟩⟩

def withWindows (c : Clauses) (w : Windows) : Clauses :=
  { c with limit := w.own.limit, offset := w.own.offset, unionLimit := w.union.limit,
           unionOffset := w.union.offset }

end Clauses

def Query.withWindows (q : Query) (w : Windows) : Query :=
  { q with toClauses := q.toClauses.withWindows w }

def spaced : List String → String
  | [] => ""
  | s :: ss => " " ++ s ++ spaced ss

theorem spaced_append (ss ts : List String) : spaced (ss ++ ts) = spaced ss ++ spaced ts := by
  induction ss with
  | nil => exact (String.empty_append).symm
  | cons s ss ih => simp only [List.cons_append, spaced, ih, String.append_assoc]

theorem Sql.text_join (s : Sql) (ss : List Sql) :
    (Sql.join " " (s :: ss)).text = s.text ++ spaced (ss.map Sql.text) := by
  induction ss generalizing s with
  | nil => exact (String.append_empty).symm
  | cons t ss ih =>
    simp only [Sql.join, text_append, text_coe, ih, List.map_cons, spaced, String.append_assoc]

namespace Bound

def words : Bound → List String
  | clauses limit offset =>
    (limit.map fun n ↦ "limit " ++ toString n).toList ++
      (offset.map fun n ↦ "offset " ++ toString n).toList
  | _ => []

def condition (low : Nat) : Option Nat → String
  | some high => "between " ++ toString low ++ " and " ++ toString high
  | none => ">= " ++ toString low

end Bound

/-- The parts of a select that have nothing to do with its window. -/
structure Frame where
  distinct : Bool
  columns : String
  middle : List String
  orders : Option String
  lock : Option String

namespace Frame

def verb (f : Frame) : String := if f.distinct then "select distinct " else "select "

def withClauses (f : Frame) (words : List String) : String :=
  f.verb ++ f.columns ++ spaced (f.middle ++ (f.orders.toList ++ (words ++ f.lock.toList)))

def withTop (f : Frame) (n : Nat) : String :=
  f.verb ++ ("top " ++ toString n ++ " ") ++ f.columns ++
    spaced (f.middle ++ (f.orders.toList ++ f.lock.toList))

/-- Rows are numbered inside by the orderings, and picked outside. -/
def withRange (f : Frame) (low : Nat) (high : Option Nat) : String :=
  "select * from (" ++ (f.verb ++ f.columns ++
    (", row_number() over (" ++ f.orders.getD "order by (select 0)" ++ ") as row_num") ++
    spaced (f.middle ++ f.lock.toList)) ++ ") as temp_table where row_num " ++
    Bound.condition low high ++ " order by row_num"

def write (f : Frame) : Bound → String
  | .clauses limit offset => f.withClauses (Bound.clauses limit offset).words
  | .top n => f.withTop n
  | .range low high => f.withRange low high

end Frame

structure Combination where
  opening : String
  closing : String
  members : List String
  orders : Option String
  closes : ')' ∈ closing.toList

structure Layout where
  first : Frame
  combination : Option Combination

def Layout.write (l : Layout) (own union : Bound) : String :=
  match l.combination with
  | none => l.first.write own
  | some c =>
    c.opening ++ l.first.write own ++ c.closing ++
      spaced (c.members ++ (c.orders.toList ++ union.words))

namespace Grammar

def chosenColumns (g : Grammar) (c : Clauses) : Except Error Sql :=
  match c.columns with
  | some (r :: rs) => g.references (r :: rs)
  | _ => .ok "*"

def memberOpening (g : Grammar) : String :=
  match g.dialect with
  | .sqlite | .sqlServer => "select * from ("
  | _ => "("

def memberClosing (g : Grammar) : String :=
  match g.dialect with
  | .sqlServer => ") as " ++ g.wrapSegment (g.tablePrefix ++ "temp_table")
  | _ => ")"

variable {g : Grammar} {s : Sql} {w : Window}

theorem closes_memberClosing (g : Grammar) : ')' ∈ g.memberClosing.toList := by
  unfold memberClosing
  split
  · rw [String.toList_append]
    exact List.mem_append_left _ (by decide)
  · decide

theorem text_unionMember (g : Grammar) (s : Sql) :
    (g.unionMember s).text = g.memberOpening ++ s.text ++ g.memberClosing := by
  unfold unionMember memberOpening memberClosing
  cases g.dialect <;> simp [Sql.enclosed, String.append_assoc]

end Grammar

namespace Clauses

open Grammar

variable {g : Grammar} {c : Clauses} {e : Embedded} {s : Sql}

def frame (g : Grammar) (c : Clauses) (e : Embedded) : Except Error Frame := do
  let columns ← g.chosenColumns c
  let middle ← c.middle g e
  let orders ← g.orderClause? c.orders
  return { distinct := c.distinct
           columns := columns.text
           middle := (middle.filterMap id).map Sql.text
           orders := orders.map Sql.text
           lock := (c.lock.bind g.lockClause?).map Sql.text }

def layout (g : Grammar) (c : Clauses) (e : Embedded) : Except Error Layout := do
  let first ← c.frame g e
  if e.unions.isEmpty then return ⟨first, none⟩
  else
    let orders ← g.orderClause? c.unionOrders
    return ⟨first, some ⟨g.memberOpening, g.memberClosing, e.unions.map Sql.text,
      orders.map Sql.text, g.closes_memberClosing⟩⟩

theorem filterMap_cons_toList {α : Type} (o : Option α) (os : List (Option α)) :
    (o :: os).filterMap id = o.toList ++ os.filterMap id := by
  cases o <;> rfl

theorem map_text_toList (o : Option Sql) : o.toList.map Sql.text = (o.map Sql.text).toList := by
  cases o <;> rfl

theorem map_text_windows (g : Grammar) (w : Window) :
    ((g.limitClause? w.limit).map Sql.text).toList ++
      ((g.offsetClause? w.offset).map Sql.text).toList = (g.unionBound w).words := by
  obtain ⟨limit, offset⟩ := w
  unfold limitClause? offsetClause? unionBound Bound.words
  cases g.dialect <;> cases limit <;> cases offset <;> simp

theorem columnClause_eq_ok (h : g.columnClause c = .ok s) :
    ∃ columns, g.chosenColumns c = .ok columns ∧
      s.text =
        (if c.distinct then "select distinct " else "select ") ++ g.top c ++ columns.text := by
  rcases hc : c.columns with _ | _ | ⟨r, rs⟩ <;> simp only [columnClause, hc] at h
  · cases h
    exact ⟨"*", by simp only [chosenColumns, hc], by simp⟩
  · cases h
    exact ⟨"*", by simp only [chosenColumns, hc], by simp⟩
  · obtain ⟨columns, hr, h⟩ := bind_eq_ok.1 h
    cases h
    exact ⟨columns, by simpa only [chosenColumns, hc] using hr, by simp⟩

theorem skipsRows_eq_true : Query.skipsRows c = true ↔ 0 < c.windows.own.skip :=
  decide_eq_true_iff

theorem top_eq : g.top c = match g.bound c.windows.own with
    | .top n => "top " ++ toString n ++ " "
    | _ => "" := by
  by_cases hs : g.dialect = .sqlServer
  · have hl : c.windows.own.limit = c.limit := rfl
    simp only [Grammar.top, Grammar.bound, hs, hl, skipsRows_eq_true]
    by_cases hk : 0 < c.windows.own.skip <;> rcases c.limit with _ | _ | n <;> simp [hk]
  · rw [Grammar.bound_of_ne hs]
    unfold Grammar.top
    split
    · rename_i hd _
      exact absurd hd hs
    · rfl

theorem exists_range (hn : g.dialect = .sqlServer ∧ 0 < c.windows.own.skip) :
    ∃ low high, g.bound c.windows.own = .range low high ∧
      rowRange c = Bound.condition low high := by
  refine ⟨_, _, by simp only [Grammar.bound, hn.1, if_pos hn.2]; rfl, ?_⟩
  have hl : c.windows.own.limit = c.limit := rfl
  simp only [rowRange, hl]
  rcases c.limit with _ | _ | n <;> rfl

theorem text_clauses (columns : Sql) (middle rest : List (Option Sql)) :
    (Sql.join " " ((some columns :: middle ++ rest).filterMap id)).text =
      columns.text ++ spaced ((middle.filterMap id).map Sql.text ++
        (rest.filterMap id).map Sql.text) := by
  change (Sql.join " " (columns :: (middle ++ rest).filterMap id)).text = _
  rw [Sql.text_join, List.filterMap_append, List.map_append]

theorem map_text_behind (g : Grammar) (w : Window) (lock : Option Sql) :
    ([g.limitClause? w.limit, g.offsetClause? w.offset, lock].filterMap id).map Sql.text =
      (g.unionBound w).words ++ (lock.map Sql.text).toList := by
  simp only [filterMap_cons_toList, List.filterMap_nil, List.append_nil, List.map_append,
    map_text_toList, ← map_text_windows, List.append_assoc]

theorem text_rowNumberColumn (orders : Option Sql) :
    (rowNumberColumn orders).text = ", row_number() over (" ++
      (orders.map Sql.text).getD "order by (select 0)" ++ ") as row_num" := by
  unfold rowNumberColumn
  cases orders <;> simp only [Sql.text_append, Sql.text_coe] <;> rfl

theorem write_of_not_skips (f : Frame) {w : Window}
    (hn : ¬ (g.dialect = .sqlServer ∧ 0 < w.skip)) :
    f.write (g.bound w) = f.verb ++ (match g.bound w with
        | .top n => "top " ++ toString n ++ " "
        | _ => "") ++ f.columns ++
      spaced (f.middle ++ (f.orders.toList ++ ((g.unionBound w).words ++ f.lock.toList))) := by
  by_cases hs : g.dialect = .sqlServer
  · have hk : ¬ 0 < w.skip := fun hk ↦ hn ⟨hs, hk⟩
    have hu : (g.unionBound w).words = [] := by
      simp only [Grammar.unionBound, hs]
      rfl
    rw [hu, List.nil_append]
    simp only [Grammar.bound, hs, if_neg hk]
    rcases w.limit with _ | _ | n
    · exact (congrArg (· ++ _ ++ _) String.append_empty).symm
    · exact (congrArg (· ++ _ ++ _) String.append_empty).symm
    · rfl
  · rw [Grammar.bound_of_ne hs, Grammar.unionBound_of_ne hs, String.append_empty]
    rfl

/-- Behind the first member of a union stand the others, and what bounds the combined rows. -/
theorem unionTail_eq_ok (he : ¬ e.unions.isEmpty) (h : c.unionTail g e = .ok s) :
    ∃ orders, g.orderClause? c.unionOrders = .ok orders ∧ " " ++ s.text =
      spaced (e.unions.map Sql.text ++
        ((orders.map Sql.text).toList ++ (g.unionBound c.windows.union).words)) := by
  simp only [unionTail, bind_eq_ok, pure_eq_ok] at h
  obtain ⟨orders, horders, rfl⟩ := h
  refine ⟨orders, horders, ?_⟩
  cases hu : e.unions with
  | nil => exact absurd (List.isEmpty_iff.2 hu) he
  | cons m ms =>
    rw [List.cons_append, Sql.text_join, List.map_append, List.map_cons, List.cons_append, spaced,
      filterMap_cons_toList, List.map_append, map_text_toList, ← map_text_windows]
    simp only [filterMap_cons_toList, List.filterMap_nil, List.append_nil, List.map_append,
      map_text_toList, String.append_assoc]
    rfl

structure Frames (g : Grammar) (c : Clauses) (columns : Sql) (middle : List (Option Sql))
    (orders : Option Sql) (f : Frame) : Prop where
  verb : f.verb = if c.distinct then "select distinct " else "select "
  columns : f.columns = columns.text
  middle : f.middle = (middle.filterMap id).map Sql.text
  orders : f.orders = orders.map Sql.text
  lock : f.lock = (c.lock.bind g.lockClause?).map Sql.text

section

variable {columns chosen : Sql} {middle : List (Option Sql)} {orders : Option Sql} {f : Frame}

theorem exists_frame (hc : g.chosenColumns c = .ok columns) (hm : c.middle g e = .ok middle)
    (ho : g.orderClause? c.orders = .ok orders) :
    ∃ f, c.frame g e = .ok f ∧ Frames g c columns middle orders f := by
  simp only [frame, hc, hm, ho]
  exact ⟨_, rfl, rfl, rfl, rfl, rfl, rfl⟩

variable (h : Frames g c chosen middle orders f)
  (hcolumns : columns.text =
    (if c.distinct then "select distinct " else "select ") ++ g.top c ++ chosen.text)

include h hcolumns

/-- The rows of a range are numbered beside the columns, and put in order there. -/
theorem Frames.text_numbered {low : Nat} {high : Option Nat} (hs : g.dialect = .sqlServer)
    (hb : g.bound c.windows.own = .range low high) :
    (Sql.join " " ((some (columns ++ rowNumberColumn orders) :: middle ++
      [g.limitClause? c.limit, g.offsetClause? c.offset,
        c.lock.bind g.lockClause?]).filterMap id)).text =
      f.verb ++ f.columns ++ (", row_number() over (" ++
        f.orders.getD "order by (select 0)" ++ ") as row_num") ++
          spaced (f.middle ++ f.lock.toList) := by
  have hw : (g.unionBound c.windows.own).words = [] := by
    simp only [Grammar.unionBound, hs]
    rfl
  have hwindows := map_text_behind g c.windows.own (c.lock.bind g.lockClause?)
  rw [hw, List.nil_append] at hwindows
  simp only [top_eq, hb, String.append_empty] at hcolumns
  rw [text_clauses, Sql.text_append, hcolumns, text_rowNumberColumn, h.verb, h.columns, h.middle,
    h.orders, h.lock, ← hwindows]
  rfl

/-- Any other window stands in front of the columns, or behind the orderings. -/
theorem Frames.text_write (hn : ¬ (g.dialect = .sqlServer ∧ 0 < c.windows.own.skip)) :
    (Sql.join " " ((some columns :: middle ++ orders ::
      [g.limitClause? c.limit, g.offsetClause? c.offset,
        c.lock.bind g.lockClause?]).filterMap id)).text = f.write (g.bound c.windows.own) := by
  have hwindows := map_text_behind g c.windows.own (c.lock.bind g.lockClause?)
  rw [top_eq] at hcolumns
  rw [text_clauses, hcolumns, write_of_not_skips f hn, filterMap_cons_toList, List.map_append,
    map_text_toList, h.verb, h.columns, h.middle, h.orders, h.lock, ← hwindows]
  rfl

end

/-- What is written of a query that is no aggregate is its layout, with both windows put into it. -/
theorem plain_eq_ok (ha : c.aggregate = none) (h : c.plain g e = .ok s) :
    ∃ l, c.layout g e = .ok l ∧
      s.text = l.write (g.bound c.windows.own) (g.unionBound c.windows.union) := by
  simp only [plain, ha, skipsRows_eq_true] at h
  split at h
  · cases h
  · rename_i hu
    simp only [bind_eq_ok] at h
    obtain ⟨columns, hcolumns, middle, hmiddle, orders, horders, h⟩ := h
    obtain ⟨chosen, hchosen, hcolumns⟩ := columnClause_eq_ok hcolumns
    obtain ⟨f, hframe, hf⟩ := exists_frame hchosen hmiddle horders
    split at h
    · rename_i hn
      have he : e.unions.isEmpty := by
        by_contra hne
        exact hu ⟨hn, hne⟩
      obtain ⟨low, high, hb, hr⟩ := exists_range hn
      have hl : c.layout g e = .ok ⟨f, none⟩ := by
        simp only [layout, hframe, he]
        rfl
      refine ⟨_, hl, ?_⟩
      simp only [Option.isSome_none, Bool.false_eq_true, if_false] at h
      have hs := congrArg Sql.text (pure_eq_ok.1 h)
      simp only [Sql.text_append, Sql.text_coe] at hs
      rw [← hs, hf.text_numbered hcolumns hn.1 hb, hr, hb]
      rfl
    · rename_i hn
      have hbody := hf.text_write hcolumns hn
      split at h
      · rename_i he
        have hl : c.layout g e = .ok ⟨f, none⟩ := by
          simp only [layout, hframe, he]
          rfl
        rw [← pure_eq_ok.1 h]
        exact ⟨_, hl, hbody⟩
      · rename_i he
        simp only [bind_eq_ok, pure_eq_ok] at h
        obtain ⟨tail, htail, rfl⟩ := h
        obtain ⟨unionOrders, hunionOrders, ht⟩ := unionTail_eq_ok he htail
        have hl : c.layout g e = .ok ⟨f, some ⟨g.memberOpening, g.memberClosing,
            e.unions.map Sql.text, unionOrders.map Sql.text, g.closes_memberClosing⟩⟩ := by
          simp only [layout, hframe, he, hunionOrders]
          rfl
        refine ⟨_, hl, ?_⟩
        simp only [Layout.write, ← hbody, ← ht, Sql.text_append, Sql.text_coe, text_unionMember,
          String.append_assoc]

end Clauses

namespace Grammar

/-- The layout of a query, the queries inside it written out. -/
def layout (g : Grammar) : Query → Except Error Layout
  | ⟨c, joins, conditions, unions⟩ => do
    c.checked
    let joins ← joinList g joins
    let conditions ← conditionList g conditions
    let unions ← memberList g unions
    c.layout g ⟨joins, conditions, unions⟩

theorem layout_withWindows (g : Grammar) (q : Query) (w : Windows) :
    g.layout (q.withWindows w) = g.layout q := by
  obtain ⟨c, joins, conditions, unions⟩ := q
  rfl

variable {g : Grammar} {q : Query} {s : Sql}

theorem combination_eq_none {c : Clauses} {e : Embedded} {l : Layout} (h : c.layout g e = .ok l) :
    l.combination = none ↔ e.unions = [] := by
  simp only [Clauses.layout, bind_eq_ok] at h
  obtain ⟨f, -, h⟩ := h
  split at h
  · rename_i he
    rw [← pure_eq_ok.1 h]
    simpa using he
  · rename_i he
    simp only [bind_eq_ok, pure_eq_ok] at h
    obtain ⟨_, -, rfl⟩ := h
    simpa using he

/-- A select is its layout with both windows put into it. Several selects are combined exactly if
there are unions. -/
theorem select_eq_ok (ha : q.aggregate = none) (h : g.select q = .ok s) :
    ∃ l, g.layout q = .ok l ∧ (l.combination = none ↔ q.unions = []) ∧
      s.text = l.write (g.bound q.windows.own) (g.unionBound q.windows.union) := by
  obtain ⟨c, joins, conditions, unions⟩ := q
  simp only [select, bind_eq_ok] at h
  obtain ⟨_, hchecked, js, hj, cs, hc, us, hu, h⟩ := h
  simp only [Clauses.assemble, show c.aggregate = none from ha] at h
  obtain ⟨l, hl, ht⟩ := Clauses.plain_eq_ok ha h
  refine ⟨l, ?_, (combination_eq_none hl).trans (memberList_eq_nil hu), ht⟩
  simp only [layout, bind_eq_ok]
  exact ⟨_, hchecked, js, hj, cs, hc, us, hu, hl⟩

end Grammar

end FluentSql
