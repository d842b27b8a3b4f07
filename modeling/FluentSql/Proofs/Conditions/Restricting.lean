import FluentSql.Proofs.Conditions.Asked
import FluentSql.Proofs.Conditions.Narrowing
import FluentSql.Proofs.Mistakes.Refused
import FluentSql.Proofs.Paging.Course
import FluentSql.Session.Script

namespace FluentSql.Query

open Session

section

variable (q : Query) (record : Record Value) (r : Request)

def Reads : Prop := ∃ sql, q.sql = .ok sql ∧ r = .select sql.text q.allBindings

def Checks : Prop :=
  ∃ sql, q.grammar.existence q = .ok sql ∧ r = .select sql.text q.allBindings

def Deletes : Prop :=
  ∃ sql, q.grammar.delete q = .ok sql ∧
    r = .affecting sql.text (Grammar.deleteBindings q.bindings)

def Updates : Prop :=
  ∃ sql, q.grammar.update q record = .ok sql ∧
    r = .affecting sql.text (q.grammar.updateBindings q.bindings record)

def Inserts : Prop :=
  ∃ sql, q.grammar.insert q [record] = .ok sql ∧ r = .statement sql.text record.values

def idColumn : String := (q.source.bind Reference.name?).elim "id" (· ++ ".id")

end

section

variable {σ H : Type} (d : Driver σ H) (q : Query) (column name : String)

/-- The query of a page: what it reads of another, after a key if there is one. -/
def Resumed (last : Option Value) (q' : Query) : Prop :=
  match last with
  | none => q.Narrows q' []
  | some v => q.Adds q' (· (compared column .greater (.bound v)))

structure PageRead (last : Option Value) (s : Session σ H) (answer : Except Error (List Row))
    (t : Session σ H) : Prop where
  trace : s.trace <+: t.trace
  read : ∃ q' : Query, (q'.get d).on s = (answer, t) ∧
    (s.asked t = [] ∨ q.Resumed column last q' ∧ ∃ r, q'.Reads r ∧
      (s.asked t = [r] ∨
        (∃ useRead handles w, s.Renews d useRead r handles w) ∧ s.asked t = [r, r]))

/-- The pages that the callback gets, and the requests by which they are read: those of one page
come before those of the next, which is read after the last key of the page before. -/
inductive PagesRead : Option Value → Session σ H → List Chunk → List Request → Prop where
  | unread {last : Option Value} {s : Session σ H} : PagesRead last s [] []
  | last {last : Option Value} {s t : Session σ H} {answer : Except Error (List Row)}
      {got : List Chunk} (h : q.PageRead d column last s answer t)
      (hgot : got = [] ∨ ∃ c : Chunk, answer = .ok c.rows ∧ got = [c]) :
      PagesRead last s got (s.asked t)
  | onward {last : Option Value} {s t : Session σ H} {c : Chunk} {key : Value} {got : List Chunk}
      {next : List Request} (h : q.PageRead d column last s (.ok c.rows) t)
      (hkey : lastKey? c.rows name = some key) (hnext : PagesRead (some key) t got next) :
      PagesRead last s (c :: got) (s.asked t ++ next)

end

variable {σ H : Type} {d : Driver σ H} {q q' : Query} {record : Record Value} {column : String}

theorem get_asks : Asks q.Reads (q.get d).run := by
  refine .written fun y hy ↦ ?_
  obtain ⟨sql, hsql, hy⟩ := bind_eq_ok.1 hy
  cases pure_eq_ok.1 hy
  exact .execute ⟨sql, hsql, rfl⟩

theorem first_asks : Asks (q.setLimit 1).Reads (q.first d).run :=
  get_asks.andThen fun _ ↦ .ret _

theorem exists_asks : Asks q.Checks (q.exists? d).run := by
  refine .written fun sql hsql ↦ ?_
  exact (Asks.execute ⟨sql, hsql, rfl⟩).andThen fun _ ↦ .ret _

theorem delete_asks : Asks q.Deletes (q.delete d).run :=
  .written fun sql hsql ↦ .execute ⟨sql, hsql, rfl⟩

theorem update_asks : Asks (q.Updates record) (q.update d record).run := by
  unfold update
  split
  · exact .ret _
  · exact .written fun sql hsql ↦ .execute ⟨sql, hsql, rfl⟩

theorem insert_asks : Asks (q.Inserts record) (q.insert d record).run := by
  unfold insert
  split
  · exact .ret _
  · exact .written fun sql hsql ↦ .execute ⟨sql, hsql, rfl⟩

theorem get_compiles {r : Request} (h : q.Reads r) : q.mistake = none := by
  obtain ⟨sql, hsql, -⟩ := h
  cases hm : q.mistake with
  | none => rfl
  | some m =>
    rw [Query.sql, Grammar.select_mistake hm] at hsql
    cases hsql

theorem find_asks (id : Operand Value) : Asks
    (fun r ↦ ∃ q', q.Adds q' (· (compared "id" .equal id)) ∧ q'.Reads r) (q.find d id).run :=
  first_asks.mono fun _ hr ↦ ⟨_, adds_equality.andThen (narrows_setLimit 1), hr⟩

theorem deleteById_asks (id : Value) : Asks
    (fun r ↦ ∃ q', q.Adds q' (· (compared q.idColumn .equal (.bound id))) ∧ q'.Deletes r)
    (q.deleteById d id).run := by
  unfold deleteById idColumn
  cases q.source.bind Reference.name? with
  | none => exact delete_asks.mono fun _ hr ↦ ⟨_, adds_equality, hr⟩
  | some source => exact delete_asks.mono fun _ hr ↦ ⟨_, adds_equality, hr⟩

theorem updateOrInsert_asks (attributes values : Record Value) : Asks
    (fun r ↦ (∃ q', q.Adds q' (fun v ↦
      attributes.all fun entry ↦ v (compared entry.1 .equal entry.2)) ∧
        (q'.Checks r ∨ q'.Updates values r)) ∨ q.Inserts (attributes.merge values) r)
    (q.updateOrInsert d attributes values).run := by
  have hadds := adds_addRecord (q := q) attributes
  refine Asks.andThen (exists_asks.mono fun r hr ↦ .inl ⟨_, hadds, .inl hr⟩) fun found ↦ ?_
  cases found with
  | false => exact insert_asks.mono fun r hr ↦ .inr hr
  | true =>
    cases hv : values.isEmpty with
    | true => exact .ret _
    | false =>
      have hlimit := hadds.andThen (narrows_setLimit 1)
      exact (update_asks.mono fun r hr ↦ .inl ⟨_, hlimit, .inr hr⟩).andThen fun _ ↦ .ret _

/-- A page is asked for once, or a second time over a connection that was renewed. -/
theorem get_sends (q : Query) (s : Session σ H) :
    s.asked ((q.get d).on s).2 = [] ∨ ∃ r, q.Reads r ∧
      (s.asked ((q.get d).on s).2 = [r] ∨
        (∃ useRead handles w, s.Renews d useRead r handles w) ∧
          s.asked ((q.get d).on s).2 = [r, r]) := by
  cases hc : q.compiled with
  | error e =>
    refine .inl ?_
    unfold get
    rw [hc]
    exact asked_self s
  | ok c =>
    obtain ⟨sql, hsql, hc'⟩ := bind_eq_ok.1 hc
    cases hc'
    have hget : (q.get d).on s =
        (Session.execute d (!q.usesWriteHandle) (.select sql.text q.allBindings)).on s := by
      unfold get
      rw [hc]
      rfl
    rw [hget]
    cases hp : s.connection.pretending with
    | true =>
      obtain ⟨t, ht, h⟩ := execute_rehearsed (d := d) hp (!q.usesWriteHandle)
        (.select sql.text q.allBindings)
      refine .inl ?_
      rw [ht, asked, h.unsent]
      rfl
    | false =>
      refine .inr ⟨_, ⟨sql, hsql, rfl⟩, ?_⟩
      obtain ⟨-, hone | ⟨⟨handles, w, hrenews⟩, htwo⟩⟩ :=
        asked_execute (d := d) (!q.usesWriteHandle) (.select sql.text q.allBindings) hp
      · exact .inl hone
      · exact .inr ⟨⟨_, handles, w, hrenews⟩, htwo⟩

theorem pageAfter_read (q : Query) (size : Nat) (column : String) (last : Option Value)
    (s : Session σ H) : q.PageRead d column last s
      (((q.pageAfter size last column).get d).on s).1
      (((q.pageAfter size last column).get d).on s).2 := by
  refine ⟨(get_asks s).1, _, rfl, ?_⟩
  rcases get_sends (d := d) (q.pageAfter size last column) s with h | ⟨r, hr, h⟩
  · exact .inl h
  refine .inr ⟨?_, r, hr, h⟩
  cases last with
  | none => exact narrows_pageAfter size
  | some v => exact adds_pageAfter (get_compiles hr)

theorem chunkAfter_read {size bound number : Nat} {name : String} {goOn : Chunk → Bool}
    {last : Option Value} {s t : Session σ H} {got : List Chunk} {result : Except Error Bool}
    (h : (q.chunkAfter d size column name goOn bound number last).run s = ((got, result), t)) :
    s.trace <+: t.trace ∧ q.PagesRead d column name last s got (s.asked t) := by
  induction bound generalizing number last s got with
  | zero =>
    cases h
    rw [asked_self]
    exact ⟨List.prefix_rfl, .unread⟩
  | succ bound ih =>
    have hpage := pageAfter_read (d := d) q size column last s
    cases hget : ((q.pageAfter size last column).get d).on s with | mk answer u
    rw [hget] at hpage
    rcases chunkAfter_cases bound number name goOn hget with
      ⟨got', result', hrun, hgot⟩ | ⟨rows, key, rfl, hkey, hrun⟩
    · cases hrun.symm.trans h
      refine ⟨hpage.trace, .last hpage ?_⟩
      rcases hgot with rfl | ⟨rows, rfl, rfl⟩
      · exact .inl rfl
      · exact .inr ⟨_, rfl, rfl⟩
    · cases hnext : (q.chunkAfter d size column name goOn bound (number + 1) (some key)).run u
        with | mk rest v
      cases (hrun _ _ _ hnext).symm.trans h
      obtain ⟨htrace, hrest⟩ := ih hnext
      refine ⟨hpage.trace.trans htrace, ?_⟩
      rw [asked_append hpage.trace htrace]
      exact .onward hpage hkey hrest

/-- The first page is that of the query itself, and the next one comes after its last key. -/
theorem chunkById_read (size : Nat) (key : Option String) (goOn : Chunk → Bool) (bound : Nat)
    (s : Session σ H) :
    let run := (q.chunkById d size column key goOn bound).run s
    q.PagesRead d column (key.getD column) none s run.1.1 (s.asked run.2) := by
  unfold chunkById
  split
  · change q.PagesRead d column (key.getD column) none s [] (s.asked s)
    rw [asked_self]
    exact .unread
  · exact (chunkAfter_read rfl).2

/-- Every statement by which a row is found, deleted, looked for, updated, or read after a key means
the rows of its query, with a condition added behind the last `or`. It restricts the whole query if
there is no alternative outside groups. -/
theorem added_conditions (d : Driver σ H) (q : Query) (s : Session σ H) :
    (∀ id, ∀ r ∈ s.asked ((q.find d id).on s).2,
      ∃ q', q.Adds q' (· (compared "id" .equal id)) ∧ q'.Reads r) ∧
    (∀ id, ∀ r ∈ s.asked ((q.deleteById d id).on s).2,
      ∃ q', q.Adds q' (· (compared q.idColumn .equal (.bound id))) ∧ q'.Deletes r) ∧
    (∀ attributes values, ∀ r ∈ s.asked ((q.updateOrInsert d attributes values).on s).2,
      (∃ q', q.Adds q' (fun v ↦ attributes.all fun entry ↦ v (compared entry.1 .equal entry.2)) ∧
        (q'.Checks r ∨ q'.Updates values r)) ∨ q.Inserts (attributes.merge values) r) ∧
    (∀ size column key goOn bound,
      let run := (q.chunkById d size column key goOn bound).run s
      q.PagesRead d column (key.getD column) none s run.1.1 (s.asked run.2)) ∧
    (q.Conjoined → ∀ q' added, q.Adds q' added → ∀ v, q'.holds v = (q.holds v && added v)) :=
  ⟨fun id ↦ (find_asks id s).2, fun id ↦ (deleteById_asks id s).2,
    fun attributes values ↦ (updateOrInsert_asks attributes values s).2,
    fun size _ key goOn bound ↦ chunkById_read size key goOn bound s,
    fun hq _ _ h ↦ h.restricts hq⟩

/-- Alternatives in a group are restricted together. -/
theorem added_conditions_grouped :
    let g : Grammar := { dialect := .mysql }
    let s : Session Script String :=
      { connection := { write := "write", grammar := g, processor := .mysql }, world := {} }
    let q := (Query.run { grammar := g } [.source (.name "users"), .nest .and
      [.compare .and ⟨"a", .equal, .bound (.value (.int32 1))⟩,
        .compare .or ⟨"b", .equal, .bound (.value (.int32 2))⟩]]).1
    let sent := s.asked ((q.deleteById Script.driver (.int32 7)).on s).2
    sent.map Request.sql = ["delete from `users` where (`a` = ? or `b` = ?) and `users`.`id` = ?"] ∧
      q.Conjoined ∧ ∀ r ∈ sent, ∃ q' : Query, q'.Deletes r ∧
        ∀ v, q'.holds v = (q.holds v && v (compared "users.id" .equal (.bound (.int32 7)))) := by
  intro g s q sent
  have hq : q.Conjoined := by decide +kernel
  obtain ⟨-, hdelete, -, -, hrestricts⟩ := added_conditions Script.driver q s
  refine ⟨by decide +kernel, hq, fun r hr ↦ ?_⟩
  obtain ⟨q', hadds, hdeletes⟩ := hdelete (.int32 7) r hr
  exact ⟨q', hdeletes, hrestricts hq q' _ hadds⟩

/-- Alternatives outside groups are not: a row with another id is deleted. -/
theorem added_conditions_alternative :
    let g : Grammar := { dialect := .mysql }
    let s : Session Script String :=
      { connection := { write := "write", grammar := g, processor := .mysql }, world := {} }
    let q := (Query.run { grammar := g } [.source (.name "users"),
      .compare .and ⟨"a", .equal, .bound (.value (.int32 1))⟩,
      .compare .or ⟨"b", .equal, .bound (.value (.int32 2))⟩]).1
    let added := compared q.idColumn .equal (.bound (.int32 7))
    let q' := q.addComparison .and q.idColumn .equal (.bound (.int32 7))
    let v : Test Query → Bool := fun t ↦ (g.test t).toOption.map Sql.text == some "`a` = ?"
    (s.asked ((q.deleteById Script.driver (.int32 7)).on s).2).map Request.sql =
        ["delete from `users` where `a` = ? or `b` = ? and `users`.`id` = ?"] ∧
      q'.conditions = q.conditions ++ [⟨.and, added⟩] ∧ q'.holds v = true ∧ v added = false := by
  intro g s q added q' v
  exact ⟨by decide +kernel, rfl, by decide +kernel, by decide +kernel⟩

end FluentSql.Query
