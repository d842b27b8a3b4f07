import FluentSql.Proofs.Windows.Changing
import FluentSql.Proofs.Windows.Recovered
import FluentSql.Proofs.Windows.Setting

namespace FluentSql

namespace Window

theorem rows_of_skip {w : Window} (h : w.skip = 0) {α : Type} (l : List α) :
    w.rows l = (⟨w.limit, none⟩ : Window).rows l := by
  unfold rows
  rw [h]
  rfl

end Window

namespace Bound

theorem words_top (limit : Option Nat) :
    ((limit.map Bound.top).getD (.clauses none none)).words = [] := by
  cases limit <;> rfl

theorem count_inj {limit limit' : Option Nat}
    (h : ((limit.map Bound.top).getD (.clauses none none)).count =
      ((limit'.map Bound.top).getD (.clauses none none)).count) : limit = limit' := by
  have hne (n : Nat) : "" ≠ (Bound.top n).count := by
    intro h
    have h := congrArg String.toList h
    simp [count] at h
  cases limit with
  | none =>
    cases limit' with
    | none => rfl
    | some n' => exact absurd h (hne n')
  | some n =>
    cases limit' with
    | none => exact absurd h.symm (hne n)
    | some n' =>
      have h := congrArg String.toList h
      simp only [Option.map_some, Option.getD_some, count, String.toList_append] at h
      have h := List.append_cancel_left (List.append_cancel_right h)
      rw [toString_inj (String.toList_inj.1 h)]

end Bound

namespace ChangeLayout

variable {verb tail : String} {orders : Option String} {union union' : Bound}

theorem toList_write_oneTable (own union : Bound) :
    ((oneTable verb tail orders).write own union).toList = Text.trimEnd
      ((verb ++ own.count ++ tail ++ spaced orders.toList).toList ++ (spaced own.words).toList) := by
  rw [write, Sql.toList_trimmedText, spaced_append, ← String.append_assoc, String.toList_append]

theorem trimEnd_limit (n : Nat) :
    Text.trimEnd (spaced (Bound.clauses (some n) none).words).toList =
      (spaced (Bound.clauses (some n) none).words).toList := by
  have hd : Text.trimEnd (toString n).toList = (toString n).toList :=
    Text.trimEnd_of_notBlank fun c hc ↦
      Text.isBlank_of_isDigit (Placeholders.isDigit_of_mem_toString hc)
  have hw : (spaced (Bound.clauses (some n) none).words).toList =
      ' ' :: ("limit ".toList ++ (toString n).toList) := by
    simp [Bound.words, spaced]
  rw [hw, ← List.cons_append, Text.trimEnd_append, hd, if_neg (by simp)]

/-- The limit of one table is read off the text. -/
theorem limit_inj {limit limit' : Option Nat}
    (h : (oneTable verb tail orders).write (.clauses limit none) union =
      (oneTable verb tail orders).write (.clauses limit' none) union') : limit = limit' := by
  have h := congrArg String.toList h
  rw [toList_write_oneTable, toList_write_oneTable] at h
  -- Text without a limit is no longer than what stands in front of one.
  have hnone (front : List Char) (n : Nat) : Text.trimEnd (front ++ []) ≠
      Text.trimEnd (front ++ (spaced (Bound.clauses (some n) none).words).toList) := by
    intro h
    have hle : (Text.trimEnd front).length ≤ front.length :=
      (List.rdropWhile_prefix Text.isBlank front).length_le
    have hw : (spaced (Bound.clauses (some n) none).words).toList ≠ [] := by
      simp [Bound.words, toList_spaced_cons]
    have hlen := congrArg List.length h
    rw [List.append_nil, Text.trimEnd_append, trimEnd_limit, if_neg hw, List.length_append] at hlen
    have := List.length_pos_iff.2 hw
    omega
  cases limit with
  | none =>
    cases limit' with
    | none => rfl
    | some n' => exact absurd h (hnone _ n')
  | some n =>
    cases limit' with
    | none => exact absurd h.symm (hnone _ n)
    | some n' =>
      have hw (n : Nat) : (spaced (Bound.clauses (some n) none).words).toList ≠ [] := by
        simp [Bound.words, toList_spaced_cons]
      rw [Text.trimEnd_append, Text.trimEnd_append, trimEnd_limit, trimEnd_limit, if_neg (hw n),
        if_neg (hw n')] at h
      exact (Bound.spaced_words_inj (String.toList_inj.1 (List.append_cancel_left h))).1

/-- The count of a delete is read off its text as well, in front of text that is not blank. -/
theorem count_inj {b b' : Bound} (hb : b.words = []) (hb' : b'.words = [])
    (ht : Text.trimEnd tail.toList = tail.toList) (hs : tail.toList ≠ [])
    (h : (oneTable verb tail none).write b union = (oneTable verb tail none).write b' union') :
    b.count = b'.count := by
  have h := congrArg String.toList h
  have hwrite (b : Bound) (hb : b.words = []) (union : Bound) :
      ((oneTable verb tail none).write b union).toList =
        verb.toList ++ (b.count.toList ++ tail.toList) := by
    rw [toList_write_oneTable, hb]
    simp only [Option.toList_none, spaced, String.append_empty, String.toList_append,
      String.toList_empty, List.append_nil, List.append_assoc]
    rw [← List.append_assoc, Text.trimEnd_append, ht, if_neg hs, List.append_assoc]
  rw [hwrite b hb, hwrite b' hb'] at h
  exact String.toList_inj.1 (List.append_cancel_right (List.append_cancel_left h))

end ChangeLayout

namespace Query

def withLimit (q : Query) (limit : Option Nat) : Query := { q with limit }

/-- Whether a statement that changes rows can be bounded by the windows of the query: in a select of
the rows always, and otherwise by a limit of one table, if at all. -/
def Bounds (g : Grammar) (q : Query) (c : Change) : Prop :=
  (g.rowIdentifier? q).isSome ∨
    (q.windows.own.skip = 0 ∧
      (q.unions.isEmpty ∨ q.unionLimit = none ∧ q.windows.union.skip = 0) ∧
      (q.limit = none ∨ q.joins.isEmpty ∧
        (g.dialect = .mysql ∨ g.dialect = .sqlServer ∧ c.deletes ∧ q.limit ≠ some 0)))

instance (g : Grammar) (q : Query) (c : Change) : Decidable (q.Bounds g c) :=
  inferInstanceAs (Decidable ((g.rowIdentifier? q).isSome ∨
    (q.windows.own.skip = 0 ∧
      (q.unions.isEmpty ∨ q.unionLimit = none ∧ q.windows.union.skip = 0) ∧
      (q.limit = none ∨ q.joins.isEmpty ∧
        (g.dialect = .mysql ∨ g.dialect = .sqlServer ∧ c.deletes ∧ q.limit ≠ some 0)))))

variable {g : Grammar} {q : Query} {c : Change} {α : Type}

/-- Over several tables there is no limit outside of a select. -/
theorem Bounds.limit_of_joins (h : q.Bounds g c) (hr : g.rowIdentifier? q = none)
    (hj : ¬ q.joins.isEmpty) : q.limit = none := by
  obtain hs | ⟨-, -, hl | ⟨hj', -⟩⟩ := h
  · rw [hr] at hs
    cases hs
  · exact hl
  · exact absurd hj' hj

theorem Bounds.limit_of_ne (h : q.Bounds g c) (hr : g.rowIdentifier? q = none)
    (hm : g.dialect ≠ .mysql) (hd : ¬ (g.dialect = .sqlServer ∧ c.deletes)) : q.limit = none := by
  obtain hs | ⟨-, -, hl | ⟨-, hm' | ⟨hd', hc, -⟩⟩⟩ := h
  · rw [hr] at hs
    cases hs
  · exact hl
  · exact absurd hm' hm
  · exact absurd ⟨hd', hc⟩ hd

theorem changeBound_of_none (hr : g.rowIdentifier? q = none) (hl : q.limit = none) :
    g.changeBound q c = .clauses none none := by
  simp only [Grammar.changeBound, hr, hl, Option.isSome_none, Bool.false_eq_true, if_false]
  split
  · rfl
  · cases g.dialect <;> cases c <;> rfl

/-- The rows that are changed are those of the window. -/
theorem rows_changeBound (h : q.Bounds g c) (l : List α) :
    (g.changeBound q c).rows l = q.windows.own.rows l := by
  cases hr : g.rowIdentifier? q with
  | some identifier =>
    simp only [Grammar.changeBound, hr, Option.isSome_some, if_true]
    rfl
  | none =>
    obtain hs | ⟨hs, -, hl⟩ := h
    · rw [hr] at hs
      cases hs
    rw [Window.rows_of_skip hs l, show q.windows.own.limit = q.limit from rfl]
    cases hlimit : q.limit with
    | none =>
      rw [changeBound_of_none hr hlimit]
      rfl
    | some n =>
      rw [hlimit] at hl
      obtain hl | ⟨hj, hd | ⟨hd, hc, hn⟩⟩ := hl
      · cases hl
      · simp only [Grammar.changeBound_oneTable hr hj, hd, hlimit]
        rfl
      · cases c with
        | update record => cases hc
        | delete =>
          have hk : Query.skipsRows q.toClauses = false := by
            rw [Bool.eq_false_iff]
            intro hk
            exact absurd (Clauses.skipsRows_eq_true.1 hk) (by omega)
          cases n with
          | zero => exact absurd rfl hn
          | succ n =>
            simp only [Grammar.changeBound_oneTable hr hj, hd, hlimit, hk, Bool.false_eq_true,
              if_false]
            rfl

theorem rows_changeUnionBound (h : q.Bounds g c) (hu : q.unions ≠ []) (l : List α) :
    (g.changeUnionBound q).rows l = q.windows.union.rows l := by
  cases hr : g.rowIdentifier? q with
  | some identifier =>
    simp only [Grammar.changeUnionBound, hr, Option.isSome_some, if_true]
    rfl
  | none =>
    obtain hs | ⟨-, he | ⟨hl, hs⟩, -⟩ := h
    · rw [hr] at hs
      cases hs
    · exact absurd (List.isEmpty_iff.1 he) hu
    · rw [Window.rows_of_skip hs l, show q.windows.union.limit = q.unionLimit from rfl, hl]
      simp only [Grammar.changeUnionBound, hr, Option.isSome_none, Bool.false_eq_true, if_false]
      rfl

section

variable {limit limit' : Option Nat} {s s' : Sql}

theorem rowsLayout_withLimit (identifier : String) :
    g.rowsLayout (q.withLimit limit) identifier = g.rowsLayout q identifier := by
  obtain ⟨c, joins, conditions, unions⟩ := q
  rfl

theorem changeLayout_selected {identifier : String}
    (hr : g.rowIdentifier? q = some identifier) {l : ChangeLayout}
    (h : g.changeLayout q c = .ok l) : ∃ table object name rows, g.target q = .ok table ∧
      c.object g table = .ok object ∧ g.wrap identifier = .ok name ∧
      g.rowsLayout q identifier = .ok rows ∧
      l = .selected (c.verb ++ object ++ " where " ++ name ++ " in (") rows := by
  simp only [Grammar.changeLayout, hr, bind_eq_ok, pure_eq_ok] at h
  obtain ⟨table, htable, object, hobject, rows, hrows, name, hname, rfl⟩ := h
  exact ⟨table, object, name, rows, htable, hobject, hname, hrows, rfl⟩

theorem changeLayout_oneTable (hr : g.rowIdentifier? q = none) (hj : q.joins.isEmpty)
    {l : ChangeLayout} (h : g.changeLayout q c = .ok l) : ∃ table object e orders,
      g.target q = .ok table ∧ c.object g table = .ok object ∧ g.embedded q = .ok e ∧
      g.changeOrders q = .ok orders ∧
      l = .oneTable c.verb (Sql.trimmedText (object ++ (" " ++ (Grammar.conditions q e).text)))
        (orders.map Sql.text) := by
  simp only [Grammar.changeLayout, hr, if_pos hj, bind_eq_ok, pure_eq_ok] at h
  obtain ⟨table, htable, object, hobject, e, he, orders, horders, rfl⟩ := h
  exact ⟨table, object, e, orders, htable, hobject, he, horders, rfl⟩

theorem length_le_spaced {s : String} {ss : List String} (h : s ∈ ss) :
    s.length ≤ (spaced ss).length := by
  induction ss with
  | nil => cases h
  | cons t ss ih =>
    simp only [spaced, String.length_append]
    rcases List.mem_cons.1 h with rfl | h
    · omega
    · exact (ih h).trans (Nat.le_add_left _ _)

theorem length_middle_le (l : Layout) (a b : Option Nat) (union : Bound) :
    (spaced l.first.middle).length ≤ (l.write (.clauses a b) union).length := by
  have hf : (spaced l.first.middle).length ≤ (l.first.write (.clauses a b)).length := by
    simp only [Frame.write, Frame.withClauses, spaced_append, String.length_append]
    omega
  unfold Layout.write
  split
  · exact hf
  · simp only [String.length_append]
    omega

theorem mem_middle {c : Clauses} {e : Embedded} {l : Layout} (h : c.layout g e = .ok l) {t : Sql}
    (ht : c.conditionClause? e.conditions = some t) : t.text ∈ l.first.middle := by
  simp only [Clauses.layout, bind_eq_ok] at h
  obtain ⟨f, hf, h⟩ := h
  have hfirst : l.first = f := by
    split at h
    · rw [← pure_eq_ok.1 h]
    · simp only [bind_eq_ok, pure_eq_ok] at h
      obtain ⟨_, -, rfl⟩ := h
      rfl
  simp only [Clauses.frame, Clauses.middle, bind_eq_ok, pure_eq_ok] at hf
  obtain ⟨_, -, _, ⟨_, -, _, -, rfl⟩, _, -, rfl⟩ := hf
  rw [hfirst, ht]
  refine List.mem_map_of_mem (List.mem_filterMap.2 ⟨some t, ?_, rfl⟩)
  simp

theorem length_conditions_le {e : Embedded} (he : g.embedded q = .ok e) {identifier : String}
    {rows : Layout} (hr : g.rowsLayout q identifier = .ok rows) (a b : Option Nat) (union : Bound) :
    (Grammar.conditions q e).text.length ≤ (rows.write (.clauses a b) union).length := by
  obtain ⟨c, joins, conditions, unions⟩ := q
  simp only [Grammar.embedded, bind_eq_ok, pure_eq_ok] at he
  obtain ⟨js, -, cs, hcs, rfl⟩ := he
  unfold Grammar.rowsLayout at hr
  split at hr
  · cases hr
  · simp only [Grammar.layout, bind_eq_ok] at hr
    obtain ⟨_, -, _, -, cs', hcs', _, -, hl⟩ := hr
    obtain rfl : cs = cs' := Except.ok.inj (hcs.symm.trans hcs')
    unfold Grammar.conditions
    cases ht : c.conditionClause? cs with
    | none => exact Nat.zero_le _
    | some t =>
      have hm : t.text ∈ rows.first.middle := mem_middle hl ht
      exact (length_le_spaced hm).trans (length_middle_le rows a b union)

theorem length_trimmedText_le (s : String) : (Sql.trimmedText s).length ≤ s.length := by
  have h := (Sql.initial_trimmedText s).length_le
  rwa [String.length_toList, String.length_toList] at h

theorem length_lt_of_selected (ha : q.aggregate = none) {identifier : String}
    (hr : g.rowIdentifier? (q.withLimit limit) = none)
    (hr' : g.rowIdentifier? (q.withLimit limit') = some identifier)
    (h : g.change (q.withLimit limit) c = .ok s) (h' : g.change (q.withLimit limit') c = .ok s') :
    s.text.length < s'.text.length := by
  have hd := Grammar.rowIdentifier?_eq_some hr'
  obtain ⟨hj, hlimit⟩ := Grammar.rowIdentifier?_eq_none hr hd
  obtain ⟨l, hl, ht⟩ := Grammar.change_eq_ok (q := q.withLimit limit) ha h
  obtain ⟨l', hl', ht'⟩ := Grammar.change_eq_ok (q := q.withLimit limit') ha h'
  obtain ⟨table, object, e, orders, htable, hobject, he, horders, rfl⟩ :=
    changeLayout_oneTable hr (List.isEmpty_iff.2 hj) hl
  obtain ⟨table', object', name, rows, htable', hobject', -, hrows, rfl⟩ :=
    changeLayout_selected hr' hl'
  obtain rfl : table = table' := Except.ok.inj (htable.symm.trans htable')
  obtain rfl : object = object' := Except.ok.inj (hobject.symm.trans hobject')
  obtain rfl : none = orders := by
    have hne : g.dialect ≠ .mysql := by rcases hd with hd | hd <;> rw [hd] <;> decide
    exact Except.ok.inj ((Grammar.changeOrders_of_ne hne).symm.trans horders)
  have hshort : s.text.length ≤ (c.verb ++ object ++ (" " ++
      (Grammar.conditions (q.withLimit limit) e).text)).length := by
    rw [ht, changeBound_of_none hr hlimit]
    refine (length_trimmedText_le _).trans ?_
    have hle := length_trimmedText_le
      (object ++ (" " ++ (Grammar.conditions (q.withLimit limit) e).text))
    simp only [String.length_append, Option.map_none, Option.toList_none, List.nil_append,
      Bound.words, Bound.count, spaced, String.length_empty] at hle ⊢
    omega
  have hlong : (c.verb ++ object ++ " where ").length +
      (Grammar.conditions (q.withLimit limit) e).text.length ≤ s'.text.length := by
    have hb : g.changeBound (q.withLimit limit') c = .clauses limit' q.offset := by
      simp only [Grammar.changeBound, hr', Option.isSome_some, if_true]
      rfl
    have hsame : g.rowsLayout (q.withLimit limit') identifier =
        g.rowsLayout (q.withLimit limit) identifier := by
      rw [rowsLayout_withLimit, rowsLayout_withLimit]
    rw [hsame] at hrows
    have hle := length_conditions_le he hrows limit' q.offset
      (g.changeUnionBound (q.withLimit limit'))
    rw [ht', hb]
    simp only [ChangeLayout.write, String.length_append]
    omega
  have hone : " ".length < " where ".length := by decide
  simp only [String.length_append] at hshort hlong
  omega

theorem limit_eq_of_selected (ha : q.aggregate = none) {identifier identifier' : String}
    (hr : g.rowIdentifier? (q.withLimit limit) = some identifier)
    (hr' : g.rowIdentifier? (q.withLimit limit') = some identifier')
    (h : g.change (q.withLimit limit) c = .ok s) (h' : g.change (q.withLimit limit') c = .ok s')
    (ht : s.text = s'.text) : limit = limit' := by
  have hi : identifier = identifier' := by
    unfold Grammar.rowIdentifier? at hr hr'
    split at hr
    · cases hr
    · split at hr'
      · cases hr'
      · exact Option.some.inj (hr.symm.trans hr')
  subst hi
  obtain ⟨l, hl, hs⟩ := Grammar.change_eq_ok (q := q.withLimit limit) ha h
  obtain ⟨l', hl', hs'⟩ := Grammar.change_eq_ok (q := q.withLimit limit') ha h'
  obtain ⟨table, object, name, rows, htable, hobject, hname, hrows, rfl⟩ :=
    changeLayout_selected hr hl
  obtain ⟨table', object', name', rows', htable', hobject', hname', hrows', rfl⟩ :=
    changeLayout_selected hr' hl'
  obtain rfl : table = table' := Except.ok.inj (htable.symm.trans htable')
  obtain rfl : object = object' := Except.ok.inj (hobject.symm.trans hobject')
  obtain rfl : name = name' := Except.ok.inj (hname.symm.trans hname')
  rw [rowsLayout_withLimit] at hrows hrows'
  obtain rfl : rows = rows' := Except.ok.inj (hrows.symm.trans hrows')
  have hb (limit : Option Nat) {identifier : String}
      (hr : g.rowIdentifier? (q.withLimit limit) = some identifier) :
      g.changeBound (q.withLimit limit) c = .clauses limit q.offset ∧
        g.changeUnionBound (q.withLimit limit) = .clauses q.unionLimit q.unionOffset := by
    simp only [Grammar.changeBound, Grammar.changeUnionBound, hr, Option.isSome_some, if_true]
    exact ⟨rfl, rfl⟩
  rw [hs, hs', (hb limit hr).1, (hb limit hr).2, (hb limit' hr').1, (hb limit' hr').2] at ht
  have ht := congrArg String.toList ht
  simp only [ChangeLayout.write, String.toList_append] at ht
  have ht := List.append_cancel_left (List.append_cancel_right ht)
  exact (Layout.clauses_inj (String.toList_inj.1 ht)).1.1

theorem changeBound_delete (hd : g.dialect = .sqlServer) (hr : g.rowIdentifier? q = none)
    (hj : q.joins.isEmpty) (hb : q.Bounds g .delete) :
    g.changeBound q .delete = (q.limit.map Bound.top).getD (.clauses none none) := by
  cases hl : q.limit with
  | none => exact changeBound_of_none hr hl
  | some n =>
    obtain hs | ⟨hs, -, hn | ⟨-, hm | ⟨-, -, hn⟩⟩⟩ := hb
    · rw [hr] at hs
      cases hs
    · rw [hl] at hn
      cases hn
    · rw [hd] at hm
      cases hm
    · have hk : Query.skipsRows q.toClauses = false := by
        rw [Bool.eq_false_iff]
        intro hk
        exact absurd (Clauses.skipsRows_eq_true.1 hk) (by omega)
      cases n with
      | zero => exact absurd hl hn
      | succ n =>
        simp only [Grammar.changeBound_oneTable hr hj, hd, hl, hk, Bool.false_eq_true, if_false]
        rfl

theorem limit_eq_of_oneTable (ha : q.aggregate = none)
    (hr : g.rowIdentifier? (q.withLimit limit) = none)
    (hr' : g.rowIdentifier? (q.withLimit limit') = none) (hj : q.joins.isEmpty)
    (h : g.change (q.withLimit limit) c = .ok s) (h' : g.change (q.withLimit limit') c = .ok s')
    (hb : (q.withLimit limit).Bounds g c) (hb' : (q.withLimit limit').Bounds g c)
    (ht : s.text = s'.text) : limit = limit' := by
  obtain ⟨l, hl, hs⟩ := Grammar.change_eq_ok (q := q.withLimit limit) ha h
  obtain ⟨l', hl', hs'⟩ := Grammar.change_eq_ok (q := q.withLimit limit') ha h'
  obtain ⟨table, object, e, orders, htable, hobject, he, horders, rfl⟩ :=
    changeLayout_oneTable hr hj hl
  obtain ⟨table', object', e', orders', htable', hobject', he', horders', rfl⟩ :=
    changeLayout_oneTable hr' hj hl'
  obtain rfl : table = table' := Except.ok.inj (htable.symm.trans htable')
  obtain rfl : object = object' := Except.ok.inj (hobject.symm.trans hobject')
  obtain rfl : e = e' := Except.ok.inj (he.symm.trans he')
  obtain rfl : orders = orders' := Except.ok.inj (horders.symm.trans horders')
  rw [hs, hs', show Grammar.conditions (q.withLimit limit') e =
    Grammar.conditions (q.withLimit limit) e from rfl] at ht
  by_cases hm : g.dialect = .mysql
  · have hw (limit : Option Nat) (hr : g.rowIdentifier? (q.withLimit limit) = none) :
        g.changeBound (q.withLimit limit) c = .clauses limit none := by
      simp only [Grammar.changeBound_oneTable (q := q.withLimit limit) hr hj, hm]
      rfl
    rw [hw limit hr, hw limit' hr'] at ht
    exact ChangeLayout.limit_inj ht
  · by_cases hd : g.dialect = .sqlServer ∧ c.deletes
    · obtain ⟨hd, hc⟩ := hd
      cases c with
      | update record => cases hc
      | delete =>
        obtain rfl : none = orders :=
          Except.ok.inj ((Grammar.changeOrders_of_ne (by rw [hd]; decide)).symm.trans horders)
        rw [changeBound_delete hd hr hj hb, changeBound_delete hd hr' hj hb'] at ht
        have hsolid := Grammar.object_solid hobject
          (" " ++ (Grammar.conditions (q.withLimit limit) e).text)
        refine Bound.count_inj (ChangeLayout.count_inj (Bound.words_top _) (Bound.words_top _) ?_ ?_
          ht)
        · rw [Sql.toList_trimmedText]
          exact List.rdropWhile_idempotent _ _
        · rwa [Sql.toList_trimmedText]
    · exact (hb.limit_of_ne hr hm hd).trans (hb'.limit_of_ne hr' hm hd).symm

/-- Statements that differ in their limit alone, and can be bounded by it, differ in their text. -/
theorem limit_eq (ha : q.aggregate = none) (h : g.change (q.withLimit limit) c = .ok s)
    (h' : g.change (q.withLimit limit') c = .ok s') (hb : (q.withLimit limit).Bounds g c)
    (hb' : (q.withLimit limit').Bounds g c) (ht : s.text = s'.text) : limit = limit' := by
  cases hr : g.rowIdentifier? (q.withLimit limit) with
  | some identifier =>
    cases hr' : g.rowIdentifier? (q.withLimit limit') with
    | some identifier' => exact limit_eq_of_selected ha hr hr' h h' ht
    | none =>
      have hlt := length_lt_of_selected ha hr' hr h' h
      rw [ht] at hlt
      exact absurd hlt (lt_irrefl _)
  | none =>
    cases hr' : g.rowIdentifier? (q.withLimit limit') with
    | some identifier' =>
      have hlt := length_lt_of_selected ha hr hr' h h'
      rw [ht] at hlt
      exact absurd hlt (lt_irrefl _)
    | none =>
      by_cases hj : q.joins.isEmpty
      · exact limit_eq_of_oneTable ha hr hr' hj h h' hb hb' ht
      · exact (hb.limit_of_joins hr hj).trans (hb'.limit_of_joins hr' hj).symm

end

/-- Whatever steps build a query: a statement that changes its rows, where it can be bounded by the
windows of the query, changes the rows that they ask for. Where values are bound only for what is
written, all that are sent stand at a placeholder. Another limit, where it can be written too, gives
another text. -/
theorem windows_honoured (g : Grammar) (macros : Macros) (steps : List Step) (c : Change) :
    let q := (Query.run { grammar := g, macros } steps).1
    (∀ s, g.change q c = .ok s → q.Bounds g c →
      ∃ l, g.changeLayout q c = .ok l ∧
        s.text = l.write (g.changeBound q c) (g.changeUnionBound q) ∧
        (∀ (α : Type) (rows : List α),
          (g.changeBound q c).rows rows = q.windows.own.rows rows) ∧
        (q.unions ≠ [] → ∀ (α : Type) (rows : List α),
          (g.changeUnionBound q).rows rows = q.windows.union.rows rows)) ∧
    (properSteps { grammar := g, macros } steps → Sends g q →
      ∀ s, g.change q c = .ok s → s.slots = g.changeBindings q.bindings c) ∧
    ∀ limit limit' s s', g.change (q.withLimit limit) c = .ok s →
      g.change (q.withLimit limit') c = .ok s' → (q.withLimit limit).Bounds g c →
      (q.withLimit limit').Bounds g c → s.text = s'.text → limit = limit' := by
  intro q
  have hsetting : q.setting = (g, none) := setting_run _ steps
  have ha : q.aggregate = none := congrArg Prod.snd hsetting
  refine ⟨?_, ?_, ?_⟩
  · intro s h hb
    obtain ⟨l, hl, ht⟩ := Grammar.change_eq_ok ha h
    exact ⟨l, hl, ht, fun α ↦ rows_changeBound hb, fun hu α ↦ rows_changeUnionBound hb hu⟩
  · intro hp hc s h
    have hstart : Aligned g .select { grammar := g, macros } :=
      Aligned.start g macros rfl fun _ ↦ rfl
    have hq : q.Aligned g .select :=
      Step.aligned_runAllWith hstart (aligned_callWithin _) steps hp
    cases c with
    | update record => exact hq.slots_update_of_sends hc h
    | delete => exact hq.slots_delete_of_sends hc h
  · intro limit limit' s s' h h' hb hb' ht
    exact limit_eq ha h h' hb hb' ht

def nearestRows : List Step := [
  .source (.name "users"), .compare .and ⟨"age", .equal, .bound (.value (.int32 1))⟩,
  .orderByRaw "near(?)" [.value (.int32 5)], .limit 2, .offset 1]

theorem windows_honoured_nearestRows :
    let g : Grammar := { dialect := .postgres }
    let q := (Query.run { grammar := g } nearestRows).1
    let c : Change := .update [("name", .bound (.int32 9))]
    properSteps { grammar := g } nearestRows ∧ Sends g q ∧ q.Bounds g c ∧
      ∃ s s', g.change q c = .ok s ∧ g.change (q.withLimit (some 3)) c = .ok s' ∧
        s.text = "update \"users\" set \"name\" = ? where \"ctid\" in (select " ++
          "\"users\".\"ctid\" from \"users\" where \"age\" = ? order by near(?) limit 2 offset 1)" ∧
        (∀ rows : List Nat, (g.changeBound q c).rows rows = (rows.drop 1).take 2) ∧
        s.slots = g.changeBindings q.bindings c ∧ s.slots.map Value.text = ["9", "1", "5"] ∧
        s.text ≠ s'.text := by
  intro g q c
  obtain ⟨hrows, hslots, hlimit⟩ := windows_honoured g {} nearestRows c
  have hp : properSteps { grammar := g } nearestRows := by decide +kernel
  have hr : g.rowIdentifier? q = some "ctid" := by decide +kernel
  have hc : Sends g q := by
    refine ⟨⟨"users", rfl⟩, fun hn ↦ ?_, fun hn ↦ ?_⟩ <;>
    · rw [hr] at hn
      cases hn
  have hb : q.Bounds g c := by decide +kernel
  have hb' : (q.withLimit (some 3)).Bounds g c := by decide +kernel
  obtain ⟨s, hs, ht⟩ : ∃ s, g.change q c = .ok s ∧ (s.text, s.slots.map Value.text) =
      ("update \"users\" set \"name\" = ? where \"ctid\" in (select " ++
        "\"users\".\"ctid\" from \"users\" where \"age\" = ? order by near(?) limit 2 offset 1)",
        ["9", "1", "5"]) :=
    exists_ok_of_map_toOption (by decide +kernel)
  obtain ⟨ht, hv⟩ := Prod.mk.inj ht
  obtain ⟨s', hs', -⟩ : ∃ s', g.change (q.withLimit (some 3)) c = .ok s' ∧ s'.slots.length = 3 :=
    exists_ok_of_map_toOption (by decide +kernel)
  obtain ⟨-, -, -, hq, -⟩ := hrows s hs hb
  have hne : s.text ≠ s'.text := by
    intro h
    cases hlimit (some 2) (some 3) s s' hs hs' hb hb' h
  exact ⟨hp, hc, hb, s, s', hs, hs', ht, hq Nat, hslots hp hc s hs, hv, hne⟩

/-- SQL Server updates every row, whatever the limit; and where orderings are not written, their
values are sent without a placeholder. -/
theorem windows_honoured_lost :
    let g : Grammar := { dialect := .sqlServer }
    let q := (Query.run { grammar := g } [.source (.name "users"),
      .compare .and ⟨"a", .equal, .bound (.value (.int32 1))⟩, .limit 1]).1
    let c : Change := .update [("name", .bound (.int32 2))]
    let g' : Grammar := { dialect := .generic }
    let q' := (Query.run { grammar := g' } [.source (.name "users"),
      .orderByRaw "near(?)" [.value (.int32 5)]]).1
    (∃ s s', g.change q c = .ok s ∧ g.change (q.withLimit none) c = .ok s' ∧ s.text = s'.text) ∧
      q.limit = some 1 ∧
      ∃ s, g'.change q' .delete = .ok s ∧ s.text = "delete from \"users\"" ∧
        (g'.changeBindings q'.bindings .delete).map Value.text = ["5"] := by
  intro g q c g' q'
  obtain ⟨s, hs, ht⟩ : ∃ s, g.change q c = .ok s ∧
      s.text = "update [users] set [name] = ? where [a] = ?" :=
    exists_ok_of_map_toOption (by decide +kernel)
  obtain ⟨s', hs', ht'⟩ : ∃ s, g.change (q.withLimit none) c = .ok s ∧
      s.text = "update [users] set [name] = ? where [a] = ?" :=
    exists_ok_of_map_toOption (by decide +kernel)
  obtain ⟨t, ht₁, ht₂⟩ : ∃ s, g'.change q' .delete = .ok s ∧ s.text = "delete from \"users\"" :=
    exists_ok_of_map_toOption (by decide +kernel)
  exact ⟨⟨s, s', hs, hs', ht.trans ht'.symm⟩, rfl, t, ht₁, ht₂, by decide +kernel⟩

end Query

end FluentSql
