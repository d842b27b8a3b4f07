import FluentSql.Proofs.Derived.Kept
import Mathlib.Data.List.Flatten

namespace FluentSql

open Grammar Lexing

theorem sublist_mapM {α β : Type} {f : α → Except Error β} {values : α → List Value}
    {slots : β → List Value} {as : List α} {bs : List β}
    (hf : ∀ a ∈ as, ∀ b, f a = .ok b → (slots b).Sublist (values a)) (h : as.mapM f = .ok bs) :
    (bs.flatMap slots).Sublist (as.flatMap values) := by
  induction as generalizing bs with
  | nil =>
    cases pure_eq_ok.1 h
    exact .refl _
  | cons a as ih =>
    simp only [List.mapM_cons, bind_eq_ok, pure_eq_ok] at h
    obtain ⟨b, hb, rest, hrest, rfl⟩ := h
    exact (hf a List.mem_cons_self b hb).append
      (ih (fun b hb ↦ hf b (List.mem_cons_of_mem _ hb)) hrest)

def AllNumbered {α : Type} (banned : List String) (f : α → Except Error Sql) (as : List α) : Prop :=
  ∀ a ∈ as, ∀ s, f a = .ok s → s.NumberedIn banned

theorem AllNumbered.mapM {α : Type} {banned : List String} {f : α → Except Error Sql} {as : List α}
    {ss : List Sql} (ha : AllNumbered banned f as) (h : as.mapM f = .ok ss) :
    ∀ s ∈ ss, s.NumberedIn banned := by
  intro s hs
  obtain ⟨a, hmem, hf⟩ := exists_of_mem_mapM h hs
  exact ha a hmem s hf

def Sql.NumberedIn? (banned : List String) (s : Option Sql) : Prop := ∀ t ∈ s, t.NumberedIn banned

theorem Sql.NumberedIn.of_parts {parts : List (Option Sql)}
    (h : ∀ s ∈ parts, NumberedIn? ["union"] s) :
    ∀ s ∈ parts.filterMap id, s.NumberedIn ["union"] := by
  intro s hs
  obtain ⟨part, hp, he⟩ := List.mem_filterMap.1 hs
  exact h part hp s he

theorem Sql.exists_join_cons (s : Sql) {ss : List Sql} (h : ∀ t ∈ ss, t.NumberedIn ["union"]) :
    ∃ rest : Sql, join " " (s :: ss) = s ++ rest ∧ rest.NumberedIn ["union"] ∧
      ∀ c ∈ rest.outline.head?, isBreak c := by
  cases ss with
  | nil => exact ⟨.empty, (append_empty s).symm, .empty, nofun⟩
  | cons t ts =>
    refine ⟨" " ++ join " " (t :: ts), append_assoc _ _ _,
      .prefixed (by decide) (.join (by decide) h), ?_⟩
    rw [outline_append, outline_coe]
    rintro c ⟨⟩
    decide

namespace Grammar

variable {g : Grammar} {s : Sql}

theorem numbered_references {rs : List Reference} (hr : AllNumbered borders g.reference rs)
    (h : g.references rs = .ok s) : s.NumberedIn borders := by
  simp only [references, bind_eq_ok, pure_eq_ok] at h
  obtain ⟨ss, hss, rfl⟩ := h
  exact .join (by decide) (hr.mapM hss)

theorem numbered_connect {tests : List (Connective × Sql)}
    (h : ∀ t ∈ tests, t.2.NumberedIn ["union"]) : (connect tests).NumberedIn ["union"] := by
  cases tests with
  | nil => exact .empty
  | cons first rest =>
    obtain ⟨hfirst, hrest⟩ := List.forall_mem_cons.1 h
    rw [connect]
    clear h
    generalize first.2 = s at hfirst
    induction rest generalizing s with
    | nil => simpa [Sql.NumberedIn, Sql.outline] using hfirst
    | cons t rest ih =>
      obtain ⟨ht, hrest⟩ := List.forall_mem_cons.1 hrest
      have hj := ih hrest _ (hfirst.joined (isJoint_connective t.1) ht)
      rw [Sql.append_assoc, Sql.append_assoc] at hj
      exact hj

theorem numbered_orderClause? {orders : List Order} (ho : AllNumbered borders g.orderText orders)
    {s : Option Sql} (h : g.orderClause? orders = .ok s) : Sql.NumberedIn? borders s := by
  simp only [orderClause?] at h
  split at h
  · cases h
    rintro _ ⟨⟩
  · simp only [orderClause, map_eq_ok, bind_eq_ok, pure_eq_ok] at h
    obtain ⟨_, ⟨ss, hss, rfl⟩, rfl⟩ := h
    rintro _ ⟨⟩
    exact .prefixed (by decide) (.join (by decide) (ho.mapM hss))

theorem numbered_ordering {orders : Option Sql} (h : Sql.NumberedIn? borders orders) :
    (orders.getD ("order by (select 0)" : Sql)).RowsNumbered := by
  cases orders with
  | none =>
    have horder : ("order by " : Sql).RowsNumbered := .fixed (by decide)
    have hzero : ("select 0" : Sql).RowsNumbered := .fixed (by decide)
    simpa [Sql.RowsNumbered, Sql.NumberedIn] using horder.called hzero
  | some o => exact (h o rfl).rowsNumbered

theorem numbered_lockHint {s : Sql} (hs : s.NumberedIn borders) (lock : Option Lock) :
    (s ++ g.lockHint lock).NumberedIn borders := by
  have hwith (hint : String) (hh : isFixed [] hint.toList) :
      (s ++ (" with(" ++ hint ++ ")" : String)).NumberedIn borders := by
    have hwith : isClosing borders " with".toList := by decide
    have hread := (hs.suffixed hwith).called (.fixed hh)
    rw [Sql.NumberedIn] at hread ⊢
    simpa using hread
  unfold lockHint
  split
  · rw [← Sql.append_assoc]
    exact hs.joined (by decide) (.raw _ _)
  · exact hwith "rowlock,updlock,holdlock" (by decide)
  · exact hwith "rowlock,holdlock" (by decide)
  · rwa [Sql.append_empty]

theorem numbered_top (c : Clauses) {columns : List Char} (h : ReadsNumbered borders columns) :
    ReadsNumbered borders ((g.top c).toList ++ columns) := by
  unfold top
  split
  · split
    · rename_i limit _ _ _
      have hread : ReadsNumbered borders
          ("top ".toList ++ (toString limit).toList ++ " ".toList ++ columns) :=
        (ReadsNumbered.prefixed (by decide) (.natural limit)).joined (by decide) h
      simpa using hread
    · exact h
  · exact h

section

variable (hd : g.dialect = .sqlServer)

include hd

theorem numbered_unionMember {s : Sql} (h : s.RowsNumbered) : (g.unionMember s).RowsNumbered := by
  simp only [unionMember, hd]
  have hfrom : ReadsNumbered [] "select * from ".toList := .fixed (by decide)
  have hread : ReadsNumbered [] ("select * from ".toList ++ '(' :: s.outline ++ [')'] ++
      " as ".toList ++ (g.wrapSegment (g.tablePrefix ++ "temp_table")).toList) :=
    (hfrom.called h).joined (by decide) ((numbered_wrapSegment hd _).mono (List.nil_subset _))
  rw [Sql.RowsNumbered, Sql.NumberedIn]
  simpa using hread

theorem windows_eq_none (limit offset : Option Nat) (lock : Option Lock) :
    g.limitClause? limit = none ∧ g.offsetClause? offset = none ∧
      lock.bind g.lockClause? = none := by
  refine ⟨by simp [limitClause?, hd], by simp [offsetClause?, hd], ?_⟩
  rcases lock with _ | lock
  · rfl
  · cases lock <;> simp [lockClause?, hd]

end

end Grammar

namespace Clauses

variable {g : Grammar} {c : Clauses} {e : Embedded} {s : Sql}

theorem numbered_conditionClause? {tests : List (Connective × Sql)}
    (h : ∀ t ∈ tests, t.2.NumberedIn ["union"]) :
    Sql.NumberedIn? ["union"] (c.conditionClause? tests) := by
  unfold conditionClause?
  split
  · exact nofun
  · rintro _ ⟨⟩
    refine .prefixed ?_ (numbered_connect h)
    split <;> decide

def head (g : Grammar) (c : Clauses) : Except Error Sql :=
  match c.aggregate with
  | some a => g.aggregateColumns c a
  | none => g.columnClause c

def windowClauses (g : Grammar) (c : Clauses) : List (Option Sql) :=
  [g.limitClause? c.limit, g.offsetClause? c.offset, c.lock.bind g.lockClause?]

def ranged (g : Grammar) (c : Clauses) (head : Sql) (middle : List (Option Sql))
    (orders : Option Sql) : Sql :=
  let head := if c.aggregate.isSome then head else head ++ rowNumberColumn orders
  "select * from (" ++ .join " " ((some head :: middle ++ c.windowClauses g).filterMap id) ++
    ") as temp_table where row_num " ++ rowRange c ++ " order by row_num"

/-- SQL Server writes no windows behind a select. -/
theorem windowClauses_eq (hd : g.dialect = .sqlServer) (c : Clauses) :
    c.windowClauses g = [none, none, none] := by
  obtain ⟨hlimit, hoffset, hlock⟩ := windows_eq_none hd c.limit c.offset c.lock
  rw [windowClauses, hlimit, hoffset, hlock]

theorem filterMap_windowClauses (hd : g.dialect = .sqlServer) (s : Sql)
    (parts : List (Option Sql)) :
    (some s :: parts ++ c.windowClauses g).filterMap id = s :: parts.filterMap id := by
  simp [windowClauses_eq hd]

def body (g : Grammar) (c : Clauses) (head : Sql) (middle : List (Option Sql))
    (orders : Option Sql) : Sql :=
  .join " " ((some head :: middle ++ orders :: c.windowClauses g).filterMap id)

theorem plain_cases (h : c.plain g e = .ok s) : ∃ head middle orders,
    c.head g = .ok head ∧ c.middle g e = .ok middle ∧ g.orderClause? c.orders = .ok orders ∧
      ((g.dialect = .sqlServer ∧ Query.skipsRows c) ∧ e.unions = [] ∧
          s = c.ranged g head middle orders ∨
        ¬ (g.dialect = .sqlServer ∧ Query.skipsRows c) ∧
          (e.unions = [] ∧ s = c.body g head middle orders ∨
            e.unions ≠ [] ∧ ∃ tail, c.unionTail g e = .ok tail ∧
              s = g.unionMember (c.body g head middle orders) ++ " " ++ tail)) := by
  simp only [plain] at h
  split at h
  · cases h
  · rename_i hu
    have hnone (hn : g.dialect = .sqlServer ∧ Query.skipsRows c) : e.unions = [] := by
      by_contra hne
      exact hu ⟨hn, by simpa [List.isEmpty_iff] using hne⟩
    cases ha : c.aggregate
    all_goals
      simp only [ha, bind_eq_ok] at h
      obtain ⟨head, hhead, middle, hmiddle, orders, horders, h⟩ := h
      refine ⟨head, middle, orders, by simpa only [Clauses.head, ha] using hhead, hmiddle,
        horders, ?_⟩
      split at h
      · rename_i hn
        exact .inl ⟨hn, hnone hn, by
          simpa only [ranged, windowClauses, ha] using (pure_eq_ok.1 h).symm⟩
      · rename_i hn
        refine .inr ⟨hn, ?_⟩
        split at h
        · rename_i he
          exact .inl ⟨List.isEmpty_iff.1 he, (pure_eq_ok.1 h).symm⟩
        · rename_i he
          simp only [bind_eq_ok] at h
          obtain ⟨tail, htail, h⟩ := h
          exact .inr ⟨fun hu ↦ he (List.isEmpty_iff.2 hu), tail, htail, (pure_eq_ok.1 h).symm⟩

theorem numbered_body (hd : g.dialect = .sqlServer) {head : Sql} {middle : List (Option Sql)}
    {orders : Option Sql} (hhead : head.RowsNumbered)
    (hmiddle : ∀ part ∈ middle, Sql.NumberedIn? ["union"] part)
    (horders : Sql.NumberedIn? borders orders) : (c.body g head middle orders).RowsNumbered := by
  rw [body, windowClauses_eq hd]
  refine .join (by decide) fun s hs ↦ ?_
  obtain ⟨part, hp, he⟩ := List.mem_filterMap.1 hs
  simp only [List.cons_append, List.mem_cons, List.mem_append, List.not_mem_nil, or_false,
    or_self] at hp
  rcases hp with rfl | hp | rfl | rfl
  · cases he
    exact hhead
  · exact (hmiddle part hp s he).rowsNumbered
  · exact (horders s he).rowsNumbered
  · cases he

structure Numbered (g : Grammar) (c : Clauses) (e : Embedded) : Prop where
  columns : AllNumbered borders g.reference (c.columns.getD [])
  source : ∀ r ∈ c.source, (g.tableReference r).NumberedIn borders
  groups : AllNumbered borders g.reference c.groups
  havings : AllNumbered ["union"] (g.havingTest ·.test) c.havings
  orders : AllNumbered borders g.orderText c.orders
  unionOrders : AllNumbered borders g.orderText c.unionOrders
  joins : ∀ s ∈ e.joins, s.NumberedIn ["union"]
  conditions : ∀ t ∈ e.conditions, t.2.NumberedIn ["union"]
  unions : ∀ s ∈ e.unions, s.RowsNumbered

namespace Numbered

variable (h : Numbered g c e)

include h

theorem columnClause (hs : g.columnClause c = .ok s) : ∃ columns,
    s.outline = "select ".toList ++ columns ∧ ReadsNumbered borders columns := by
  have hverb {columns : Sql} (hc : columns.NumberedIn borders) : ∃ rest,
      ((if c.distinct then "select distinct " else "select " : String) ++ g.top c ++
        columns : Sql).outline = "select ".toList ++ rest ∧ ReadsNumbered borders rest := by
    have htop := numbered_top (g := g) c hc
    split
    · have hopening : isOpening borders "distinct ".toList := by decide
      exact ⟨_, by simp, .prefixed hopening htop⟩
    · exact ⟨_, by simp, htop⟩
  simp only [Grammar.columnClause] at hs
  split at hs
  · rename_i r rs hc
    simp only [bind_eq_ok, pure_eq_ok] at hs
    obtain ⟨columns, hcolumns, rfl⟩ := hs
    have hrs : AllNumbered borders g.reference (r :: rs) := by
      have hall := h.columns
      rwa [hc] at hall
    exact hverb (numbered_references hrs hcolumns)
  · cases pure_eq_ok.1 hs
    have hall : ("*" : Sql).NumberedIn borders := .fixed (by decide)
    exact hverb hall

theorem middle {parts : List (Option Sql)} (hs : c.middle g e = .ok parts) :
    ∀ part ∈ parts, Sql.NumberedIn? ["union"] part := by
  simp only [Clauses.middle, bind_eq_ok, pure_eq_ok] at hs
  obtain ⟨groups, hgroups, havings, hhavings, rfl⟩ := hs
  have hsource : Sql.NumberedIn? ["union"] (c.source.map (g.sourceClause c)) := by
    intro t ht
    obtain ⟨r, hr, rfl⟩ := Option.map_eq_some_iff.1 ht
    rw [sourceClause, Sql.append_assoc]
    exact .prefixed (by decide) ((numbered_lockHint (h.source r hr) c.lock).mono (by decide))
  have hjoins : Sql.NumberedIn? ["union"]
      (if e.joins.isEmpty then none else some (.join " " e.joins)) := by
    split
    · exact nofun
    · rintro _ ⟨⟩
      exact .join (by decide) h.joins
  have hconditions : Sql.NumberedIn? ["union"] (c.conditionClause? e.conditions) :=
    numbered_conditionClause? h.conditions
  have hgroups : Sql.NumberedIn? ["union"] groups := by
    simp only [groupClause?] at hgroups
    split at hgroups
    · cases hgroups
      exact nofun
    · obtain ⟨t, ht, rfl⟩ := map_eq_ok.1 hgroups
      rintro _ ⟨⟩
      exact .prefixed (by decide) ((numbered_references h.groups ht).mono (by decide))
  have hhavings : Sql.NumberedIn? ["union"] havings := by
    simp only [havingClause?] at hhavings
    split at hhavings
    · cases hhavings
      exact nofun
    · simp only [havingClause, map_eq_ok, bind_eq_ok, pure_eq_ok] at hhavings
      obtain ⟨_, ⟨tests, htests, rfl⟩, rfl⟩ := hhavings
      rintro _ ⟨⟩
      refine .prefixed (by decide) (numbered_connect fun t ht ↦ ?_)
      obtain ⟨having, hmem, hf⟩ := exists_of_mem_mapM htests ht
      obtain ⟨u, hu, hf⟩ := bind_eq_ok.1 hf
      cases pure_eq_ok.1 hf
      exact h.havings having hmem u hu
  intro part hpart
  simp only [List.mem_cons, List.not_mem_nil, or_false] at hpart
  rcases hpart with rfl | rfl | rfl | rfl | rfl <;> assumption

theorem unionTail (hd : g.dialect = .sqlServer) (hs : c.unionTail g e = .ok s) :
    s.RowsNumbered := by
  simp only [Clauses.unionTail, bind_eq_ok, pure_eq_ok] at hs
  obtain ⟨orders, horders, rfl⟩ := hs
  obtain ⟨hlimit, hoffset, -⟩ := windows_eq_none hd c.unionLimit c.unionOffset none
  refine .join (by decide) fun s hs ↦ ?_
  rcases List.mem_append.1 hs with hs | hs
  · exact h.unions s hs
  · rw [hlimit, hoffset] at hs
    obtain ⟨part, hp, he⟩ := List.mem_filterMap.1 hs
    simp only [List.mem_cons, List.not_mem_nil, or_false] at hp
    rcases hp with rfl | rfl | rfl
    · exact (numbered_orderClause? h.unionOrders horders s he).rowsNumbered
    · cases he
    · cases he

/-- Picked by their numbers, rows have them behind their other columns. -/
theorem ranged (hd : g.dialect = .sqlServer) (ha : c.aggregate = none) {head : Sql}
    {middle : List (Option Sql)} {orders : Option Sql} (hhead : g.columnClause c = .ok head)
    (hmiddle : ∀ part ∈ middle, Sql.NumberedIn? ["union"] part)
    (horders : Sql.NumberedIn? borders orders) : (c.ranged g head middle orders).RowsNumbered := by
  obtain ⟨columns, hselect, ts, hts, hcolumns⟩ := h.columnClause hhead
  have hhead : (Lexis.of .sqlServer).lexemes head.outline = some (word "select" :: ts) := by
    have hverb : (Lexis.of .sqlServer).lexemes "select ".toList = some [word "select"] := rfl
    rw [hselect]
    exact Lexis.lexemes_append hverb hts (.inl ⟨' ', rfl, rfl⟩)
  obtain ⟨rest, hjoin, hrest, hbreak⟩ :=
    Sql.exists_join_cons (head ++ rowNumberColumn orders) (Sql.NumberedIn.of_parts hmiddle)
  obtain ⟨numbers, hnumbers, hrange⟩ := exists_isRange c
  have hderived := ReadsNumbered.derived hhead hcolumns (numbered_ordering horders) hrest hbreak
    hnumbers hrange
  simp only [Clauses.ranged, ha, Option.isSome_none, Bool.false_eq_true, if_false]
  rw [filterMap_windowClauses hd, hjoin]
  rw [Sql.RowsNumbered, Sql.NumberedIn]
  simpa [rowNumberColumn] using hderived

theorem head {head : Sql}
    (hc : ∀ a ∈ c.aggregate, ∀ s, g.aggregateColumns c a = .ok s → s.RowsNumbered)
    (hs : c.head g = .ok head) : head.RowsNumbered := by
  unfold Clauses.head at hs
  split at hs
  · exact hc _ ‹_› head hs
  · obtain ⟨columns, hselect, hcolumns⟩ := h.columnClause hs
    rw [Sql.RowsNumbered, Sql.NumberedIn, hselect]
    exact .prefixed (by decide) (hcolumns.mono (List.nil_subset _))

/-- Row numbers are there, unless rows are skipped for an aggregate. -/
theorem plain (hd : g.dialect = .sqlServer)
    (hc : ∀ a ∈ c.aggregate, ∀ s, g.aggregateColumns c a = .ok s → s.RowsNumbered)
    (hn : Query.skipsRows c → c.aggregate = none) (hs : c.plain g e = .ok s) :
    s.RowsNumbered := by
  obtain ⟨head, middle, orders, hhead, hmiddle, horders, hs⟩ := plain_cases hs
  have hmiddle := h.middle hmiddle
  have horders := numbered_orderClause? h.orders horders
  rcases hs with ⟨⟨-, hskip⟩, -, rfl⟩ | ⟨-, hs⟩
  · have ha := hn hskip
    simp only [Clauses.head, ha] at hhead
    exact h.ranged hd ha hhead hmiddle horders
  · have hbody := numbered_body hd (h.head hc hhead) hmiddle horders (c := c)
    rcases hs with ⟨-, rfl⟩ | ⟨-, tail, htail, rfl⟩
    · exact hbody
    · exact (numbered_unionMember hd hbody).joined (by decide) (h.unionTail hd htail)

end Numbered

end Clauses

theorem Grammar.numbered_joinText {g : Grammar} {table : Reference} {e : Embedded}
    (kind : JoinKind) (c : Clauses) (ht : (g.tableReference table).NumberedIn borders)
    (hj : ∀ s ∈ e.joins, s.NumberedIn ["union"])
    (hc : ∀ t ∈ e.conditions, t.2.NumberedIn ["union"]) :
    (g.joinText kind table c e).NumberedIn ["union"] := by
  have hkind : (kind.word : Sql).NumberedIn ["union"] := by
    cases kind <;> exact .fixed (by decide)
  have hconditions : ((c.conditionClause? e.conditions).getD .empty).NumberedIn ["union"] := by
    cases h : c.conditionClause? e.conditions with
    | none => exact .empty
    | some s => exact Clauses.numbered_conditionClause? hc s h
  have ht : (g.tableReference table).NumberedIn ["union"] := ht.mono (by decide)
  refine ((hkind.joined (by decide) ?_).joined (by decide) hconditions).trimEnd
  split
  · exact ht
  · exact .enclosed (ht.joined (by decide) (.join (by decide) hj)).rowsNumbered

namespace ClauseKind.Backed

variable {g : Grammar} {values : List Value}

theorem joinList {joins : List (Join Query)} (h : ClauseKind.joins.Backed g joins values)
    {ss : List Sql} (hs : g.joinList joins = .ok ss) : (ss.flatMap Sql.slots).Sublist values ∧
      (g.dialect = .sqlServer → ∀ s ∈ ss, s.NumberedIn ["union"]) := by
  rw [joinList_eq_mapM] at hs
  exact ⟨(sublist_mapM (fun j hmem s hf ↦ (h.fits j hmem s hf).slots) hs).trans h.bound,
    fun hd ↦ AllNumbered.mapM (fun j hmem s hf ↦ (h.fits j hmem s hf).numbered hd) hs⟩

theorem conditionList {conditions : List (Condition Query)}
    (h : ClauseKind.conditions.Backed g conditions values) {ts : List (Connective × Sql)}
    (hs : g.conditionList conditions = .ok ts) :
    (ts.flatMap fun t ↦ t.2.slots).Sublist values ∧
      (g.dialect = .sqlServer → ∀ t ∈ ts, t.2.NumberedIn ["union"]) := by
  have hfits : ∀ condition ∈ conditions, ∀ t, g.conditionOf condition = .ok t →
      t.2.Fits g ["union"] condition.test.values := by
    intro condition hmem t ht
    obtain ⟨s, hs, ht⟩ := bind_eq_ok.1 ht
    cases pure_eq_ok.1 ht
    exact h.fits condition hmem s hs
  rw [conditionList_eq_mapM] at hs
  refine ⟨(sublist_mapM (fun c hmem t ht ↦ (hfits c hmem t ht).slots) hs).trans h.bound,
    fun hd t ht ↦ ?_⟩
  obtain ⟨condition, hmem, hf⟩ := exists_of_mem_mapM hs ht
  exact (hfits condition hmem t hf).numbered hd

theorem memberList {members : List (Member Query)} (h : ClauseKind.unions.Backed g members values)
    {ss : List Sql} (hs : g.memberList members = .ok ss) : (ss.flatMap Sql.slots).Sublist values ∧
      (g.dialect = .sqlServer → ∀ s ∈ ss, s.RowsNumbered) := by
  rw [memberList_eq_mapM] at hs
  exact ⟨(sublist_mapM (fun m hmem s hf ↦ (h.fits m hmem s hf).slots) hs).trans h.bound,
    fun hd ↦ AllNumbered.mapM (fun m hmem s hf ↦ (h.fits m hmem s hf).numbered hd) hs⟩

end ClauseKind.Backed

namespace Query.Kept

variable {g : Grammar} {c : Clauses} {joins : List (Join Query)}
  {conditions : List (Condition Query)} {unions : List (Member Query)} {e : Embedded}

/-- The clauses of each kind show no more than is bound for them. -/
theorem shown (h : Kept g ⟨c, joins, conditions, unions⟩) (hj : g.joinList joins = .ok e.joins)
    (hc : g.conditionList conditions = .ok e.conditions) (hu : g.memberList unions = .ok e.unions)
    (kind : ClauseKind) : (c.shown e kind).Sublist (c.bindings.get kind) := by
  have hb := (h.backed kind).bound
  cases kind with
  | joins => exact ((h.backed .joins).joinList hj).1
  | conditions => exact ((h.backed .conditions).conditionList hc).1
  | unions => exact ((h.backed .unions).memberList hu).1
  | source =>
    refine .trans ?_ hb
    cases hs : c.source <;> simp [Clauses.shown, part, ClauseKind.items, ClauseKind.itemValues, hs]
  | columns => exact hb
  | groups => exact hb
  | havings => exact hb
  | orders => exact hb
  | unionOrders => exact hb

theorem numbered (h : Kept g ⟨c, joins, conditions, unions⟩) (hd : g.dialect = .sqlServer)
    (hj : g.joinList joins = .ok e.joins) (hc : g.conditionList conditions = .ok e.conditions)
    (hu : g.memberList unions = .ok e.unions) : Clauses.Numbered g c e := by
  have hall (kind : ClauseKind) : AllNumbered kind.banned (kind.itemText g)
      (kind.items (part ⟨c, joins, conditions, unions⟩ kind)) :=
    fun x hx s hs ↦ ((h.backed kind).fits x hx s hs).numbered hd
  exact {
    columns := hall .columns
    source := fun r hr ↦ hall .source r (Option.mem_toList.2 hr) _ rfl
    groups := hall .groups
    havings := hall .havings
    orders := hall .orders
    unionOrders := hall .unionOrders
    joins := ((h.backed .joins).joinList hj).2 hd
    conditions := ((h.backed .conditions).conditionList hc).2 hd
    unions := ((h.backed .unions).memberList hu).2 hd }

/-- The text of a query can stand for its values. -/
theorem fits_select {q : Query} (h : q.Kept g) {s : Sql} (hs : g.select q = .ok s) :
    s.Fits g [] q.allBindings := by
  obtain ⟨c, joins, conditions, unions⟩ := q
  simp only [Grammar.select, bind_eq_ok] at hs
  obtain ⟨_, -, js, hj, cs, hc, us, hu, hs⟩ := hs
  have hunions : us = [] → c.unionOrders = [] := fun hus ↦
    h.unionOrders ((memberList_eq_nil hu).1 hus)
  constructor
  · rw [Clauses.slots_assemble hunions h.aggregate hs]
    have hg : c.grammar = g := h.grammar
    simp only [allBindings, Bindings.flattenIn, bindingOrder, hg]
    exact .flatMap_right _ fun kind _ ↦ h.shown (e := ⟨js, cs, us⟩) hj hc hu kind
  · intro hd
    have ha : c.aggregate = none := h.aggregate
    have hn := h.numbered (e := ⟨js, cs, us⟩) hd hj hc hu
    simp only [Clauses.assemble, ha] at hs
    have hnone : ∀ a ∈ c.aggregate, ∀ t, g.aggregateColumns c a = .ok t → t.RowsNumbered := by
      rw [ha]
      rintro a ⟨⟩
    exact hn.plain hd hnone (fun _ ↦ ha) hs

end Query.Kept

end FluentSql
