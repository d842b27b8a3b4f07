import FluentSql.Statement.Select

namespace FluentSql

theorem bind_eq_ok {ε α β : Type} {x : Except ε α} {f : α → Except ε β} {b : β} :
    x >>= f = .ok b ↔ ∃ a, x = .ok a ∧ f a = .ok b := by
  cases x <;> simp [bind, Except.bind]

theorem pure_eq_ok {ε α : Type} {a b : α} : (pure a : Except ε α) = .ok b ↔ a = b := by
  simp [pure, Except.pure]

theorem map_eq_ok {ε α β : Type} {x : Except ε α} {f : α → β} {b : β} :
    x.map f = .ok b ↔ ∃ a, x = .ok a ∧ f a = b := by
  cases x <;> simp [Except.map]

theorem exists_ok_of_map_toOption {ε α β : Type} {x : Except ε α} {f : α → β} {b : β}
    (h : x.toOption.map f = some b) : ∃ a, x = .ok a ∧ f a = b := by
  cases x with
  | ok a => exact ⟨a, rfl, Option.some.inj h⟩
  | error e => cases h

theorem flatMap_mapM {α β : Type} {f : α → Except Error β} {values : α → List Value}
    {slots : β → List Value} (hf : ∀ a b, f a = .ok b → slots b = values a) :
    ∀ {as : List α} {bs : List β}, as.mapM f = .ok bs → bs.flatMap slots = as.flatMap values
  | [], bs, h => by
    cases pure_eq_ok.1 h
    rfl
  | a :: as, bs, h => by
    simp only [List.mapM_cons, bind_eq_ok, pure_eq_ok] at h
    obtain ⟨b, hb, rest, hrest, rfl⟩ := h
    simp only [List.flatMap_cons, hf a b hb, flatMap_mapM hf hrest]

theorem mapM_concat_eq_ok {α β : Type} {f : α → Except Error β} {as : List α} {a : α}
    {bs : List β} (h : (as ++ [a]).mapM f = .ok bs) :
    ∃ bs' b, as.mapM f = .ok bs' ∧ f a = .ok b ∧ bs = bs' ++ [b] := by
  simp only [List.mapM_append, List.mapM_cons, List.mapM_nil, bind_eq_ok, pure_eq_ok] at h
  obtain ⟨bs', hbs', _, ⟨b, hb, _, rfl, rfl⟩, rfl⟩ := h
  exact ⟨bs', b, hbs', hb, rfl⟩

theorem exists_of_mem_mapM {α β : Type} {f : α → Except Error β} {as : List α} {bs : List β}
    (h : as.mapM f = .ok bs) {b : β} (hb : b ∈ bs) : ∃ a ∈ as, f a = .ok b := by
  induction as generalizing bs with
  | nil =>
    cases pure_eq_ok.1 h
    cases hb
  | cons a as ih =>
    simp only [List.mapM_cons, bind_eq_ok, pure_eq_ok] at h
    obtain ⟨b', hb', rest, hrest, rfl⟩ := h
    rcases List.mem_cons.1 hb with rfl | hb
    · exact ⟨a, List.mem_cons_self, hb'⟩
    · obtain ⟨a', ha', hf⟩ := ih hrest hb
      exact ⟨a', List.mem_cons_of_mem _ ha', hf⟩

theorem exists_mem_of_mapM {α β : Type} {f : α → Except Error β} {as : List α} {bs : List β}
    (h : as.mapM f = .ok bs) {a : α} (ha : a ∈ as) : ∃ b ∈ bs, f a = .ok b := by
  induction as generalizing bs with
  | nil => cases ha
  | cons a' as ih =>
    simp only [List.mapM_cons, bind_eq_ok, pure_eq_ok] at h
    obtain ⟨b, hb, rest, hrest, rfl⟩ := h
    rcases List.mem_cons.1 ha with rfl | ha
    · exact ⟨b, List.mem_cons_self, hb⟩
    · obtain ⟨b', hb', hf⟩ := ih hrest ha
      exact ⟨b', List.mem_cons_of_mem _ hb', hf⟩

def Reference.values : Reference → List Value
  | name _ => []
  | fragment sql => sql.slots

def Order.values : Order → List Value
  | column c _ => c.values
  | raw sql => sql.slots

def HavingTest.values : HavingTest → List Value
  | basic _ _ value => value.values
  | raw sql => sql.slots
  | null _ _ => []
  | between _ low high => low.values ++ high.values

@[simp] theorem Identifier.values_reference (i : Identifier) : i.reference.values = [] := by
  cases i <;> simp [reference, Reference.values]

@[simp] theorem Operand.slots_sql (o : Operand Value) : o.sql.slots = o.values := by
  cases o <;> simp [sql, values]

def Sql.slots? (s : Option Sql) : List Value := s.elim [] slots

@[simp] theorem Sql.slots?_none : Sql.slots? none = [] := rfl

@[simp] theorem Sql.slots?_some (s : Sql) : Sql.slots? (some s) = s.slots := rfl

theorem Sql.slots_join_filterMap (mark : String) (parts : List (Option Sql)) :
    (Sql.join mark (parts.filterMap id)).slots = parts.flatMap Sql.slots? := by
  rw [Sql.slots_join]
  induction parts with
  | nil => rfl
  | cons part parts ih =>
    cases part with
    | none => exact ih
    | some s => exact congrArg (s.slots ++ ·) ih

namespace Grammar

variable {g : Grammar} {s : Sql} {column : String} {operator : Operator}

@[simp] theorem slots_operands (values : List (Operand Value)) :
    (operands values).slots = values.flatMap Operand.values := by
  simp [operands, Sql.slots_join, List.flatMap_map]

theorem slots_reference {r : Reference} (h : g.reference r = .ok s) : s.slots = r.values := by
  cases r with
  | name n =>
    simp only [reference, bind_eq_ok, pure_eq_ok] at h
    obtain ⟨t, -, rfl⟩ := h
    rfl
  | fragment sql =>
    cases h
    rfl

@[simp] theorem slots_tableReference (r : Reference) : (g.tableReference r).slots = r.values := by
  cases r <;> simp [tableReference, Reference.values]

theorem slots_references {rs : List Reference} (h : g.references rs = .ok s) :
    s.slots = rs.flatMap Reference.values := by
  simp only [references, bind_eq_ok, pure_eq_ok] at h
  obtain ⟨ss, hss, rfl⟩ := h
  rw [Sql.slots_join]
  exact flatMap_mapM (fun _ _ ↦ slots_reference) hss

theorem slots_basicTest {value : Operand Value}
    (h : g.basicTest column operator value = .ok s) : s.slots = value.values := by
  simp only [basicTest, bind_eq_ok] at h
  obtain ⟨c, -, h⟩ := h
  split at h <;> cases h <;> simp

theorem slots_jsonBooleanTest {value : Bool}
    (h : g.jsonBooleanTest column operator value = .ok s) : s.slots = [] := by
  simp only [jsonBooleanTest] at h
  split at h
  · cases h
    simp
  · cases h
    simp
  · obtain ⟨_, -, h⟩ := bind_eq_ok.1 h
    cases h
    simp
  · obtain ⟨_, -, h⟩ := bind_eq_ok.1 h
    cases h
    simp
  · cases h

theorem slots_nullTest {negated : Bool} (h : g.nullTest column negated = .ok s) :
    s.slots = [] := by
  simp only [nullTest] at h
  split at h
  · split at h <;> cases h <;> rfl
  · simp only [bind_eq_ok, pure_eq_ok] at h
    obtain ⟨_, -, rfl⟩ := h
    rfl

theorem slots_betweenTest {low high : Operand Value} {negated : Bool}
    (h : g.betweenTest column low high negated = .ok s) : s.slots = low.values ++ high.values := by
  simp only [betweenTest, bind_eq_ok, pure_eq_ok] at h
  obtain ⟨_, -, rfl⟩ := h
  simp

theorem slots_datePartTest {part : DatePart} {value : Operand Value}
    (h : g.datePartTest part column operator value = .ok s) : s.slots = value.values := by
  simp only [datePartTest, bind_eq_ok, pure_eq_ok] at h
  obtain ⟨_, -, rfl⟩ := h
  split <;> simp

theorem slots_rowValuesTest {columns : List String} {values : List (Operand Value)}
    (h : g.rowValuesTest columns operator values = .ok s) :
    s.slots = values.flatMap Operand.values := by
  simp only [rowValuesTest, bind_eq_ok, pure_eq_ok] at h
  obtain ⟨_, -, rfl⟩ := h
  simp

theorem slots_jsonContainsTest {value : Value} (h : g.jsonContainsTest column value = .ok s) :
    s.slots = [value] := by
  simp only [jsonContainsTest] at h
  split at h
  · cases h
    simp
  · simp only [bind_eq_ok, pure_eq_ok] at h
    obtain ⟨_, -, rfl⟩ := h
    simp
  · simp only [bind_eq_ok, pure_eq_ok] at h
    obtain ⟨_, -, rfl⟩ := h
    simp
  · cases h
    simp
  · cases h

theorem slots_jsonLengthTest {value : Operand Value}
    (h : g.jsonLengthTest column operator value = .ok s) : s.slots = value.values := by
  simp only [jsonLengthTest] at h
  split at h
  · cases h
    simp
  · obtain ⟨_, -, h⟩ := bind_eq_ok.1 h
    cases h
    simp
  · cases h
    simp
  · cases h
    simp
  · cases h

theorem slots_columnTest {second : String} (h : g.columnTest column operator second = .ok s) :
    s.slots = [] := by
  simp only [columnTest, bind_eq_ok, pure_eq_ok] at h
  obtain ⟨_, -, _, -, rfl⟩ := h
  simp

theorem slots_betweenColumnsTest {low high : String} {negated : Bool}
    (h : g.betweenColumnsTest column low high negated = .ok s) : s.slots = [] := by
  simp only [betweenColumnsTest, bind_eq_ok, pure_eq_ok] at h
  obtain ⟨_, -, _, -, _, -, rfl⟩ := h
  rfl

@[simp] theorem slots_emptyMembership (negated : Bool) : (emptyMembership negated).slots = [] := by
  cases negated <;> rfl

theorem slots_inTest {values : List (Operand Value)} {negated : Bool}
    (h : g.inTest column values negated = .ok s) : s.slots = values.flatMap Operand.values := by
  simp only [inTest] at h
  split at h
  · rename_i hv
    cases h
    simp [List.isEmpty_iff.1 hv]
  · simp only [bind_eq_ok, pure_eq_ok] at h
    obtain ⟨_, -, rfl⟩ := h
    simp

theorem slots_inIntegersTest {values : List Int64} {negated : Bool}
    (h : g.inIntegersTest column values negated = .ok s) : s.slots = [] := by
  simp only [inIntegersTest] at h
  split at h
  · cases h
    simp
  · simp only [bind_eq_ok, pure_eq_ok] at h
    obtain ⟨_, -, rfl⟩ := h
    rfl

theorem slots_havingTest {t : HavingTest} (h : g.havingTest t = .ok s) : s.slots = t.values := by
  cases t with
  | basic column operator value =>
    simp only [havingTest, bind_eq_ok, pure_eq_ok] at h
    obtain ⟨_, -, rfl⟩ := h
    simp [HavingTest.values]
  | raw sql =>
    cases h
    rfl
  | null column negated =>
    simp only [havingTest, bind_eq_ok, pure_eq_ok] at h
    obtain ⟨_, -, rfl⟩ := h
    rfl
  | between column low high => exact slots_betweenTest h

theorem slots_orderText {o : Order} (h : g.orderText o = .ok s) : s.slots = o.values := by
  cases o with
  | column c direction =>
    simp only [orderText, bind_eq_ok, pure_eq_ok] at h
    obtain ⟨t, ht, rfl⟩ := h
    simp [Order.values, slots_reference ht]
  | raw sql =>
    cases h
    rfl

theorem slots_connect (tests : List (Connective × Sql)) :
    (connect tests).slots = tests.flatMap fun t ↦ t.2.slots := by
  cases tests with
  | nil => rfl
  | cons first rest =>
    simp only [connect, Sql.slots_append, List.flatMap_cons]
    congr 1
    induction rest with
    | nil => rfl
    | cons t rest ih =>
      simp only [Sql.slots, List.flatMap_cons, List.flatMap_append] at ih ⊢
      rw [ih]
      rfl

theorem slots_havingClause {havings : List Having} (h : g.havingClause havings = .ok s) :
    s.slots = havings.flatMap fun c ↦ c.test.values := by
  simp only [havingClause, bind_eq_ok, pure_eq_ok] at h
  obtain ⟨tests, htests, rfl⟩ := h
  rw [Sql.slots_append, Sql.slots_coe, List.nil_append, slots_connect]
  refine flatMap_mapM (fun c t ht ↦ ?_) htests
  simp only [bind_eq_ok, pure_eq_ok] at ht
  obtain ⟨u, hu, rfl⟩ := ht
  exact slots_havingTest hu

theorem slots_orderClause? {orders : List Order} {s : Option Sql}
    (h : g.orderClause? orders = .ok s) : Sql.slots? s = orders.flatMap Order.values := by
  simp only [orderClause?] at h
  split at h
  · rename_i ho
    cases h
    simp [List.isEmpty_iff.1 ho]
  · simp only [orderClause, map_eq_ok, bind_eq_ok, pure_eq_ok] at h
    obtain ⟨_, ⟨ss, hss, rfl⟩, rfl⟩ := h
    simp only [Sql.slots?_some, Sql.slots_append, Sql.slots_coe, List.nil_append, Sql.slots_join]
    exact flatMap_mapM (fun _ _ ↦ slots_orderText) hss

@[simp] theorem slots_limitClause? (limit : Option Nat) : Sql.slots? (g.limitClause? limit) = [] := by
  cases limit <;> simp only [limitClause?] <;> split <;> rfl

@[simp] theorem slots_offsetClause? (offset : Option Nat) :
    Sql.slots? (g.offsetClause? offset) = [] := by
  cases offset <;> simp only [offsetClause?] <;> split <;> rfl

@[simp] theorem slots_lockClause? (lock : Option Lock) :
    Sql.slots? (lock.bind g.lockClause?) = [] := by
  rcases lock with _ | lock
  · rfl
  · cases lock <;> simp only [Option.bind_some, lockClause?] <;> split <;> try rfl
    split <;> rfl

@[simp] theorem slots_lockHint (lock : Option Lock) : (g.lockHint lock).slots = [] := by
  unfold lockHint
  split <;> simp

@[simp] theorem slots_sourceClause (c : Clauses) (source : Reference) :
    (g.sourceClause c source).slots = source.values := by
  simp [sourceClause]

@[simp] theorem slots_unionMember (s : Sql) : (g.unionMember s).slots = s.slots := by
  unfold unionMember
  split <;> simp

@[simp] theorem slots_rowNumberColumn (orders : Option Sql) :
    (rowNumberColumn orders).slots = Sql.slots? orders := by
  cases orders <;> simp [rowNumberColumn]

theorem memberList_eq_nil {members : List (Member Query)} {us : List Sql}
    (h : g.memberList members = .ok us) : us = [] ↔ members = [] := by
  cases members with
  | nil =>
    cases h
    simp
  | cons m ms =>
    simp only [memberList, bind_eq_ok, pure_eq_ok] at h
    obtain ⟨_, -, _, -, rfl⟩ := h
    simp

end Grammar

end FluentSql
