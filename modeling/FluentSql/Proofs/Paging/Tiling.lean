import FluentSql.Proofs.Paging.Walking
import FluentSql.Proofs.Windows.Recovered

namespace FluentSql

def CountedPage.ofRows (rows : List Row) (perPage number : Nat) : CountedPage Row :=
  .of ((rows.drop ((number - 1) * perPage)).take perPage) rows.length perPage number

def OpenPage.ofRows (rows : List Row) (perPage number : Nat) : OpenPage Row :=
  let page := CountedPage.ofRows rows perPage number
  ⟨page.items, perPage, number, page.hasMorePages⟩

namespace CountedPage

variable {rows : List Row} {perPage number : Nat}

theorem last_ofRows (h : 0 < perPage) (rows : List Row) (number : Nat) :
    (ofRows rows perPage number).last = max 1 ((rows.length + perPage - 1) / perPage) :=
  if_neg (Nat.ne_of_gt h)

theorem lt_last_iff (h : 0 < perPage) (hn : 0 < number) (other : Nat) :
    number < (ofRows rows perPage other).last ↔ number * perPage < rows.length := by
  have hpages : number + 1 ≤ (rows.length + perPage - 1) / perPage ↔
      number * perPage < rows.length := by
    rw [Nat.le_div_iff_mul_le h, Nat.succ_mul]
    omega
  rw [last_ofRows h, ← hpages]
  omega

theorem hasMorePages_ofRows (h : 0 < perPage) (hn : 0 < number) (rows : List Row) :
    (ofRows rows perPage number).hasMorePages =
      decide (perPage < ((rows.drop ((number - 1) * perPage)).take (perPage + 1)).length) := by
  rw [hasMorePages, decide_eq_decide]
  refine (lt_last_iff h hn number).trans ?_
  obtain ⟨k, rfl⟩ := Nat.exists_eq_add_of_le' hn
  rw [List.length_take, List.length_drop, Nat.add_sub_cancel, Nat.succ_mul]
  omega

theorem flatMap_items (rows : List Row) (perPage number : Nat) :
    (List.range' 1 number).flatMap (fun n ↦ (ofRows rows perPage n).items) =
      rows.take (number * perPage) := by
  induction number with
  | zero => simp
  | succ number ih =>
    have hitems : (ofRows rows perPage (1 + number)).items =
        (rows.drop (number * perPage)).take perPage := by
      rw [ofRows, Nat.add_sub_cancel_left]
      rfl
    rw [List.range'_1_concat, List.flatMap_append, ih, List.flatMap_singleton, hitems,
      Nat.succ_mul, List.take_add]

structure Placed (p : CountedPage Row) (rows : List Row) : Prop where
  total : p.total = rows.length
  items : p.items ≠ [] → ∃ first last, p.firstItem? = some first ∧ p.lastItem? = some last ∧
    0 < first ∧ first ≤ last ∧ last ≤ rows.length ∧ p.items = (rows.take last).drop (first - 1)
  empty : p.items = [] → p.firstItem? = none ∧ p.lastItem? = none
  more : p.hasMorePages ↔ rows.drop (p.current * p.perPage) ≠ []
  past : p.last < p.current → p.items = []

theorem firstItem?_ofRows (hne : (ofRows rows perPage number).items ≠ []) :
    (ofRows rows perPage number).firstItem? = some ((number - 1) * perPage + 1) := by
  rw [firstItem?, if_neg (by simpa using hne)]
  rfl

theorem lastItem?_ofRows (hne : (ofRows rows perPage number).items ≠ []) :
    (ofRows rows perPage number).lastItem? =
      some ((number - 1) * perPage + (ofRows rows perPage number).items.length) := by
  rw [lastItem?, firstItem?_ofRows hne, Option.map_some]
  exact congrArg some (by omega)

theorem items_eq_nil (h : 0 < perPage) (hlast : (ofRows rows perPage number).last < number) :
    (ofRows rows perPage number).items = [] := by
  have hpage : 1 ≤ (ofRows rows perPage number).last := by
    rw [last_ofRows h]
    exact Nat.le_max_left _ _
  have hbeyond : ¬ number - 1 < (ofRows rows perPage number).last := by omega
  rw [lt_last_iff h (by omega)] at hbeyond
  exact List.take_eq_nil_iff.2 (.inr (List.drop_eq_nil_iff.2 (Nat.le_of_not_lt hbeyond)))

theorem ofRows_placed (h : 0 < perPage) (hn : 0 < number) :
    (ofRows rows perPage number).Placed rows where
  total := rfl
  items hne := by
    have hitems : (ofRows rows perPage number).items =
        (rows.drop ((number - 1) * perPage)).take perPage := rfl
    have hlength : 0 < (ofRows rows perPage number).items.length := List.length_pos_iff.2 hne
    refine ⟨_, _, firstItem?_ofRows hne, lastItem?_ofRows hne, Nat.succ_pos _, by omega, ?_, ?_⟩
    · rw [hitems, List.length_take, List.length_drop] at hlength ⊢
      omega
    · rw [List.drop_take, hitems, Nat.add_sub_cancel, Nat.add_sub_cancel_left, List.length_take,
        List.take_eq_take_iff, List.length_drop]
      omega
  empty he := by
    have hfirst : (ofRows rows perPage number).firstItem? = none := by
      rw [firstItem?, he]
      rfl
    exact ⟨hfirst, by rw [lastItem?, hfirst]; rfl⟩
  more := by
    rw [ne_eq, List.drop_eq_nil_iff, not_le, hasMorePages, decide_eq_true_iff]
    exact lt_last_iff h hn number
  past := items_eq_nil h

theorem flatMap_items_last (h : 0 < perPage) (rows : List Row) (number : Nat) :
    (List.range' 1 (ofRows rows perPage number).last).flatMap
      (fun n ↦ (ofRows rows perPage n).items) = rows := by
  have hpage : 0 < (ofRows rows perPage number).last := by
    rw [last_ofRows h]
    omega
  have hend : ¬ (ofRows rows perPage number).last * perPage < rows.length :=
    (lt_last_iff h hpage number).not.1 (Nat.lt_irrefl _)
  rw [flatMap_items, List.take_of_length_le (Nat.le_of_not_lt hend)]

end CountedPage

namespace Query

open Session FluentSql.Action

variable {σ H : Type} {d : Driver σ H} {q : Query} {rows reply : List Row} {s : Session σ H}
  {perPage n : Nat}

/-- The statement of the query can be written and is answered like this, whatever was asked before
and over whichever handle. -/
def Answered (d : Driver σ H) (q : Query) (reply : List Row) : Prop :=
  ∃ sql bindings, q.compiled = .ok (sql, bindings) ∧
    ∀ h w, (d.send h (.select sql bindings) w).1 = .ok reply

/-- The windows of the query are answered from a list of rows. -/
def Windowed (d : Driver σ H) (q : Query) (rows : List Row) : Prop :=
  ∀ offset limit, 0 < limit →
    Answered d ((q.setOffset offset).setLimit limit) ((rows.drop offset).take limit)

def CountedAs (d : Driver σ H) (q : Query) (n : Nat) : Prop :=
  ∃ counting reply, q.counting = .ok counting ∧ Answered d counting reply ∧
    ((reply.head?.bind fun row ↦ row.get? "aggregate").bind Json.count?) = some n

theorem get_answered (h : Answered d q reply) (hp : s.connection.pretending = false) :
    ∃ t, (q.get d).on s = (.ok reply, t) ∧ s.Grows t := by
  obtain ⟨sql, bindings, hc, hd⟩ := h
  obtain ⟨t, ht, hg, -⟩ := execute_answered (!q.usesWriteHandle) hd hp
  refine ⟨t, ?_, hg⟩
  unfold get
  rw [hc]
  exact ht

theorem countRows_answered (h : CountedAs d q n) (hp : s.connection.pretending = false) :
    ∃ t, (q.countRows d).on s = (.ok n, t) ∧ s.Grows t := by
  obtain ⟨counting, reply, hc, ha, hn⟩ := h
  obtain ⟨t, ht, hg⟩ := get_answered ha hp
  refine ⟨t, ?_, hg⟩
  unfold countRows
  rw [hc, orFail_ok_bind, on_bind_ok ht, hn]
  rfl

/-- Of rows that can be counted, those behind a cut-off number are those behind the number. -/
theorem drop_saturated (h : rows.length < UInt64.size) (n : Nat) :
    rows.drop (saturated n) = rows.drop n := by
  by_cases hn : n ≤ UInt64.size - 1
  · rw [saturated, Nat.min_eq_left hn]
  · rw [saturated, Nat.min_eq_right (by omega), List.drop_of_length_le (by omega),
      List.drop_of_length_le (by omega)]

theorem take_saturated (h : rows.length < UInt64.size) (n : Nat) :
    rows.take (saturated n) = rows.take n := by
  by_cases hn : n ≤ UInt64.size - 1
  · rw [saturated, Nat.min_eq_left hn]
  · rw [saturated, Nat.min_eq_right (by omega), List.take_of_length_le (by omega),
      List.take_of_length_le (by omega)]

section

variable (hwindows : Windowed d q rows) (hfits : rows.length < UInt64.size)
  (hsize : 0 < perPage) (hp : s.connection.pretending = false)

include hwindows hfits hsize hp

theorem get_page (number : Nat) : ∃ t, ((q.page number perPage).get d).on s =
    (.ok ((rows.drop ((number - 1) * perPage)).take perPage), t) ∧ s.Grows t := by
  have hwindow := get_answered (hwindows (saturated ((number - 1) * perPage)) perPage hsize) hp
  rwa [drop_saturated hfits] at hwindow

theorem paginate_windowed (hcount : CountedAs d q rows.length) (number : Nat) :
    ∃ t, (q.paginate d perPage number).on s =
      (.ok (.ofRows rows perPage (max 1 number)), t) ∧ s.Grows t := by
  obtain ⟨t, ht, hg⟩ := countRows_answered hcount hp
  unfold paginate
  rw [on_bind_ok ht]
  split
  · obtain ⟨u, hu, hg'⟩ := get_page hwindows hfits hsize (hg.outside hp) (max 1 number)
    refine ⟨u, ?_, hg.trans hg'⟩
    rw [on_bind_ok hu]
    rfl
  · rename_i hn
    have hrows : rows = [] := List.length_eq_zero_iff.1 (Nat.eq_zero_of_not_pos hn)
    refine ⟨t, ?_, hg⟩
    rw [on_bind_ok on_pure, hrows, CountedPage.ofRows, List.drop_nil, List.take_nil]
    rfl

theorem simplePaginate_windowed (number : Nat) : ∃ t, (q.simplePaginate d perPage number).on s =
    (.ok (.ofRows rows perPage (max 1 number)), t) ∧ s.Grows t := by
  have hlimit : 0 < saturated (perPage + 1) := by
    rw [saturated]
    exact Nat.lt_min.2 ⟨Nat.succ_pos _, by decide⟩
  obtain ⟨t, ht, hg⟩ := get_answered
    (hwindows (saturated ((max 1 number - 1) * perPage)) (saturated (perPage + 1)) hlimit) hp
  have hbehind : (rows.drop ((max 1 number - 1) * perPage)).length < UInt64.size := by
    rw [List.length_drop]
    omega
  rw [drop_saturated hfits, take_saturated hbehind] at ht
  refine ⟨t, ?_, hg⟩
  unfold simplePaginate
  rw [on_bind_ok ht, on_pure]
  have hitems : ((rows.drop ((max 1 number - 1) * perPage)).take (perPage + 1)).take perPage =
      (rows.drop ((max 1 number - 1) * perPage)).take perPage := by
    rw [List.take_take, Nat.min_eq_left (Nat.le_succ _)]
  rw [hitems, ← CountedPage.hasMorePages_ofRows hsize (by omega)]
  rfl

end

def openPages (d : Driver σ H) (q : Query) (perPage : Nat) :
    (bound number : Nat) → Action σ H (List (OpenPage Row))
  | 0, _ => return []
  | bound + 1, number => do
    let page ← q.simplePaginate d perPage number
    if page.hasMore then return page :: (← openPages d q perPage bound (number + 1))
    else return [page]

/-- From a page on, all pages up to the last one are read. -/
theorem openPages_windowed (hwindows : Windowed d q rows) (hfits : rows.length < UInt64.size)
    (hsize : 0 < perPage) {number bound : Nat} (hn : 0 < number)
    (hlast : number ≤ (CountedPage.ofRows rows perPage 1).last)
    (hb : (CountedPage.ofRows rows perPage 1).last < number + bound)
    (hp : s.connection.pretending = false) :
    ∃ t, (q.openPages d perPage bound number).on s =
      (.ok ((List.range' number ((CountedPage.ofRows rows perPage 1).last + 1 - number)).map
        (OpenPage.ofRows rows perPage)), t) := by
  induction bound generalizing number s with
  | zero => omega
  | succ bound ih =>
    obtain ⟨t, ht, hg⟩ := simplePaginate_windowed hwindows hfits hsize hp number
    rw [Nat.max_eq_right hn] at ht
    have hlength : (CountedPage.ofRows rows perPage 1).last + 1 - number =
        (CountedPage.ofRows rows perPage 1).last + 1 - (number + 1) + 1 := by omega
    have hmore : (OpenPage.ofRows rows perPage number).hasMore =
        decide (number < (CountedPage.ofRows rows perPage 1).last) := rfl
    unfold openPages
    rw [on_bind_ok ht, hmore, hlength, List.range'_succ, List.map_cons]
    by_cases hnext : number < (CountedPage.ofRows rows perPage 1).last
    · obtain ⟨u, hu⟩ := ih (Nat.succ_pos number) hnext (by omega) (hg.outside hp)
      refine ⟨u, ?_⟩
      rw [if_pos (decide_eq_true hnext), on_bind_ok hu]
      rfl
    · have hend : (CountedPage.ofRows rows perPage 1).last + 1 - (number + 1) = 0 := by omega
      refine ⟨t, ?_⟩
      rw [if_neg (by simpa using hnext), hend]
      rfl

theorem mapM_on {α β : Type} {f : α → Action σ H β} {g : α → β}
    (h : ∀ (x : α) (s : Session σ H), s.connection.pretending = false →
      ∃ t, (f x).on s = (.ok (g x), t) ∧ s.Grows t) (xs : List α)
    (hp : s.connection.pretending = false) :
    ∃ t, (xs.mapM f).on s = (.ok (xs.map g), t) := by
  induction xs generalizing s with
  | nil => exact ⟨s, rfl⟩
  | cons x xs ih =>
    obtain ⟨t, ht, hg⟩ := h x s hp
    obtain ⟨u, hu⟩ := ih (hg.outside hp)
    refine ⟨u, ?_⟩
    rw [List.mapM_cons, on_bind_ok ht, on_bind_ok hu]
    rfl

/-- What reading by numbers comes to. A counted page stands where its number says, an uncounted one
is the same page. Read up to the last page, or for as long as there are more, they make up the rows
once and in order. -/
structure Tiled (d : Driver σ H) (q : Query) (perPage : Nat) (rows : List Row)
    (s : Session σ H) : Prop where
  counted : ∀ number, ∃ page t, (q.paginate d perPage number).on s = (.ok page, t) ∧
    page.current = max 1 number ∧ page.perPage = perPage ∧ page.Placed rows ∧
    ∃ pages u, ((List.range' 1 page.last).mapM (q.paginate d perPage)).on t = (.ok pages, u) ∧
      pages.flatMap CountedPage.items = rows
  uncounted : ∀ number, ∃ page counted t u,
    (q.simplePaginate d perPage number).on s = (.ok page, t) ∧
    (q.paginate d perPage number).on s = (.ok counted, u) ∧ page.items = counted.items ∧
    page.current = counted.current ∧ page.hasMore = counted.hasMorePages ∧
    page.items.length ≤ perPage
  walked : ∀ bound, rows.length / perPage < bound → ∃ pages t,
    (q.openPages d perPage bound 1).on s = (.ok pages, t) ∧
    pages.flatMap OpenPage.items = rows ∧ pages.map OpenPage.current = List.range' 1 pages.length ∧
    ∀ page ∈ pages, page.items.length ≤ perPage ∧ (page.hasMore ↔ page.current < pages.length)
  zero : q.paginate d perPage 0 = q.paginate d perPage 1 ∧
    q.simplePaginate d perPage 0 = q.simplePaginate d perPage 1

def readCount (s : List Char) : Nat := (String.ofList s).toNat?.getD 0

def readWindow (sql : String) : Nat × Nat :=
  match (sql.toList.splitOn ' ').reverse with
  | offset :: _ :: limit :: _ => (readCount limit, readCount offset)
  | _ => (0, 0)

def pager (rows : List Row) : Driver Unit String where
  send _ r w :=
    match r with
    | .select sql _ =>
      if "select count(".toList.isPrefixOf sql.toList then
        (.ok [[("aggregate", .integer rows.length)]], w)
      else (.ok ((rows.drop (readWindow sql).2).take (readWindow sql).1), w)
    | .affecting .. => (.ok (0 : Nat), w)
    | .statement .. => (.ok true, w)
    | .unprepared _ => (.ok true, w)
    | .begin => (.ok (), w)
    | .commit => (.ok (), w)
    | .rollback => (.ok (), w)
  lastInsertId? _ _ := none
  reconnect w := (.ok ("write", none), w)
  horizon _ := 0

theorem readCount_toString (n : Nat) : readCount (toString n).toList = n := by
  rw [readCount, String.ofList_toList]
  exact congrArg (·.getD 0) (Nat.toNat?_repr n)

theorem readWindow_clauses (s : String) (limit offset : Nat) :
    readWindow (s ++ " " ++ ("limit " ++ toString limit) ++ " " ++
      ("offset " ++ toString offset)) = (limit, offset) := by
  have hspread : (s ++ " " ++ ("limit " ++ toString limit) ++ " " ++
      ("offset " ++ toString offset)).toList =
        s.toList ++ ' ' :: ("limit".toList ++ ' ' :: ((toString limit).toList ++
          ' ' :: ("offset".toList ++ ' ' :: (toString offset).toList))) := by
    simp
  have hword {word : List Char} (h : ' ' ∉ word) : word.splitOn ' ' = [word] :=
    List.splitOn_eq_singleton h
  rw [readWindow, hspread]
  simp only [List.splitOn_append_cons_self, hword (by decide : ' ' ∉ "limit".toList),
    hword (by decide : ' ' ∉ "offset".toList), hword (Bound.notMem_toString (by decide) limit),
    hword (Bound.notMem_toString (by decide) offset), List.reverse_append, List.reverse_cons,
    List.reverse_nil, List.nil_append, List.cons_append, readCount_toString]

theorem send_pager {sql : String} (h : "select count(".toList.isPrefixOf sql.toList = false)
    (handle : String) (bindings : List Value) (w : Unit) :
    ((pager rows).send handle (.select sql bindings) w).1 =
      .ok ((rows.drop (readWindow sql).2).take (readWindow sql).1) := by
  have hcount : ¬ "select count(".toList.isPrefixOf sql.toList = true := by
    rw [h]
    exact Bool.false_ne_true
  exact congrArg Prod.fst (if_neg hcount)

def userRows : List Row := [3, 5, 9].map fun i ↦ [("id", .integer i)]

end Query

end FluentSql
