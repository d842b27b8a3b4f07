import FluentSql.Proofs.Transactions.Procedure
import FluentSql.Session.Command

namespace FluentSql

namespace Session

open FluentSql.Action

variable {σ H α β γ : Type} {d : Driver σ H}

/-- The statements a computation executes from a session on, whether they are sent or pretended. -/
inductive Issues (d : Driver σ H) : {γ : Type} → StateM (Session σ H) γ → Session σ H →
    List (String × List Value) → Prop where
  | done {γ : Type} (a : γ) (s : Session σ H) : Issues d (pure a) s []
  | look {γ : Type} {f : Session σ H → StateM (Session σ H) γ} {s : Session σ H}
      {l : List (String × List Value)} (h : Issues d (f s) s l) : Issues d (get >>= f) s l
  | execute (useRead : Bool) (r : Request) (hr : r.isStatement) (s : Session σ H) :
      Issues d (Session.execute d useRead r).run s [(r.sql, r.bindings)]
  | andThen {γ δ : Type} {m : StateM (Session σ H) γ} {f : γ → StateM (Session σ H) δ}
      {s : Session σ H} {l l' : List (String × List Value)} (h : Issues d m s l)
      (h' : Issues d (f (m.run s).1) (m.run s).2 l') : Issues d (m >>= f) s (l ++ l')

/-- What statements bring about, if each does, and doing nothing does. -/
theorem Issues.brings {R : Session σ H → List (String × List Value) → Session σ H → Prop}
    (refl : ∀ s, R s [] s) (trans : ∀ {s t u l l'}, R s l t → R t l' u → R s (l ++ l') u)
    (step : ∀ useRead (r : Request) s, r.isStatement →
      R s [(r.sql, r.bindings)] ((Session.execute d useRead r).on s).2)
    {m : StateM (Session σ H) γ} {s : Session σ H} {l : List (String × List Value)}
    (h : Issues d m s l) : R s l (m.run s).2 := by
  induction h with
  | done a s => exact refl s
  | look h ih => exact ih
  | execute useRead r hr s => exact step useRead r s hr
  | andThen h h' ih ih' => exact trans ih ih'

def Stated (d : Driver σ H) (m : StateM (Session σ H) γ) : Prop := ∀ s, ∃ l, Issues d m s l

namespace Stated

variable {a : Action σ H α} {f : α → Action σ H β} {m : StateM (Session σ H) γ}

theorem pure (x : γ) : Stated d (pure x : StateM (Session σ H) γ) := fun s ↦ ⟨[], .done x s⟩

theorem bind {δ : Type} {f : γ → StateM (Session σ H) δ} (h : Stated d m)
    (hf : ∀ x, Stated d (f x)) : Stated d (m >>= f) := by
  intro s
  obtain ⟨l, hl⟩ := h s
  obtain ⟨l', hl'⟩ := hf (m.run s).1 (m.run s).2
  exact ⟨l ++ l', .andThen hl hl'⟩

theorem look {f : Session σ H → StateM (Session σ H) γ} (hf : ∀ s, Stated d (f s)) :
    Stated d (MonadState.get >>= f) := by
  intro s
  obtain ⟨l, hl⟩ := hf s s
  exact ⟨l, .look hl⟩

theorem map {δ : Type} (g : γ → δ) (h : Stated d m) : Stated d (g <$> m) := by
  rw [map_eq_pure_bind]
  exact h.bind fun x ↦ .pure _

theorem ret (x : α) : Stated d (Pure.pure x : Action σ H α).run := .pure _

theorem fail (e : Error) : Stated d (throw e : Action σ H α).run := .pure _

theorem orFail (r : Except Error α) : Stated d (Action.orFail r : Action σ H α).run := .pure _

theorem get : Stated d (MonadState.get : Action σ H (Session σ H)).run :=
  look (f := fun s ↦ Pure.pure (Except.ok s)) fun _ ↦ .pure _

theorem andThen (h : Stated d a.run) (hf : ∀ x, Stated d (f x).run) : Stated d (a >>= f).run := by
  rw [ExceptT.run_bind]
  refine h.bind fun r ↦ ?_
  cases r with
  | ok x => exact hf x
  | error e => exact .pure _

theorem current : Stated d (Action.current : Action σ H (Connection H)).run :=
  get.andThen fun _ ↦ .ret _

theorem mapped (g : α → β) (h : Stated d a.run) : Stated d (g <$> a).run := by
  rw [ExceptT.run_map]
  exact h.map _

theorem forIn {β : Type} {l : List β} {f : β → PUnit → Action σ H (ForInStep PUnit)}
    (hf : ∀ x b, Stated d (f x b).run) (b : PUnit) : Stated d (ForIn.forIn l b f).run := by
  induction l generalizing b with
  | nil => exact .ret _
  | cons x l ih =>
    rw [List.forIn_cons]
    refine (hf x b).andThen fun step ↦ ?_
    cases step with
    | done b => exact .ret _
    | yield b => exact ih b

theorem lift (h : Stated d m) : Stated d (ExceptT.lift m : Action σ H γ).run :=
  h.map _

end Stated

section

variable {useRead : Bool} {sql : String} {bindings : List Value}

theorem stated_execute {r : Request} (hr : r.isStatement) :
    Stated d (Session.execute d useRead r).run :=
  fun s ↦ ⟨_, .execute useRead r hr s⟩

theorem stated_selectUsing : Stated d (selectUsing d useRead sql bindings).run :=
  stated_execute rfl

theorem stated_statement : Stated d (statement d sql bindings).run := stated_execute rfl

theorem stated_affecting : Stated d (affecting d sql bindings).run := stated_execute rfl

theorem stated_unprepared : Stated d (unprepared d sql).run := stated_execute rfl

theorem stated_selectOne : Stated d (selectOne d sql bindings).run :=
  stated_selectUsing.andThen fun _ ↦ .ret _

theorem stated_scalar : Stated d (scalar d sql bindings).run := by
  refine stated_selectOne.andThen fun row ↦ ?_
  split
  · exact .ret _
  · exact .ret _
  · exact .ret _
  · exact .fail _

theorem stated_lastInsertId? : Stated d (lastInsertId? d).run :=
  Stated.get.andThen fun _ ↦ .ret _

end

end Session

namespace Query

open Session

variable {σ H : Type} {d : Driver σ H} (q : Query)

theorem stated_get : Stated d (q.get d).run :=
  (Stated.orFail _).andThen fun _ ↦ stated_selectUsing

theorem stated_getIntegers : Stated d (q.getIntegers d).run :=
  q.stated_get.andThen fun _ ↦ .orFail _

theorem stated_first : Stated d (q.first d).run :=
  (stated_get _).andThen fun _ ↦ .ret _

theorem stated_firstIntegers : Stated d (q.firstIntegers d).run := by
  refine q.stated_first.andThen fun row ↦ ?_
  cases row with
  | none => exact .ret _
  | some row => exact (Stated.orFail _).andThen fun _ ↦ .ret _

theorem stated_value (column : String) : Stated d (q.value d column).run :=
  (stated_first _).andThen fun _ ↦ .ret _

theorem stated_pluck (column : String) : Stated d (q.pluck d column).run :=
  (stated_get _).andThen fun _ ↦ .ret _

theorem stated_aggregateOf (function : String) (columns : List Reference) :
    Stated d (q.aggregateOf d function columns).run :=
  (stated_get _).andThen fun _ ↦ .ret _

theorem stated_count : Stated d (q.count d).run :=
  (q.stated_aggregateOf _ _).andThen fun _ ↦ .ret _

theorem stated_sum (column : String) : Stated d (q.sum d column).run :=
  (q.stated_aggregateOf _ _).andThen fun _ ↦ .ret _

theorem stated_exists? : Stated d (q.exists? d).run :=
  (Stated.orFail _).andThen fun _ ↦ stated_selectUsing.andThen fun _ ↦ .ret _

theorem stated_paginate (perPage number : Nat) : Stated d (q.paginate d perPage number).run := by
  have hcount : Stated d (q.countRows d).run :=
    (Stated.orFail _).andThen fun counting ↦ counting.stated_get.andThen fun _ ↦ .ret _
  refine hcount.andThen fun total ↦ ?_
  dsimp only
  split
  · exact (stated_get _).andThen fun _ ↦ .ret _
  · exact (Stated.ret _).andThen fun _ ↦ .ret _

theorem stated_simplePaginate (perPage number : Nat) :
    Stated d (q.simplePaginate d perPage number).run :=
  (stated_get _).andThen fun _ ↦ .ret _

theorem stated_chunkFrom (size : Nat) (goOn : Chunk → Bool) (bound number : Nat) :
    Stated d (q.chunkFrom d size goOn bound number) := by
  induction bound generalizing number with
  | zero => exact .pure _
  | succ bound ih =>
    refine Stated.bind (stated_get _) fun reply ↦ ?_
    split
    · exact .pure _
    · exact .pure _
    · dsimp only
      split
      · exact .pure _
      · split
        · exact .pure _
        · exact (ih _).bind fun _ ↦ .pure _

theorem stated_chunk (size : Nat) (goOn : Chunk → Bool) (bound : Nat) :
    Stated d (q.chunk d size goOn bound) := by
  unfold chunk
  split
  · exact .pure _
  · split
    · exact .pure _
    · exact q.stated_chunkFrom size goOn bound 1

theorem stated_chunkAfter (size : Nat) (column key : String) (goOn : Chunk → Bool)
    (bound number : Nat) (last : Option Value) :
    Stated d (q.chunkAfter d size column key goOn bound number last) := by
  induction bound generalizing number last with
  | zero => exact .pure _
  | succ bound ih =>
    refine Stated.bind (stated_get _) fun reply ↦ ?_
    split
    · exact .pure _
    · exact .pure _
    · split
      · exact .pure _
      · dsimp only
        split
        · exact .pure _
        · split
          · exact .pure _
          · exact (ih _ _).bind fun _ ↦ .pure _

theorem stated_chunkById (size : Nat) (column : String) (key : Option String)
    (goOn : Chunk → Bool) (bound : Nat) :
    Stated d (q.chunkById d size column key goOn bound) := by
  unfold chunkById
  split
  · exact .pure _
  · exact q.stated_chunkAfter size column _ goOn bound 1 none

theorem stated_insert (record : Record Value) : Stated d (q.insert d record).run := by
  unfold insert
  split
  · exact .ret _
  · exact (Stated.orFail _).andThen fun _ ↦ stated_statement

theorem stated_insertMany (records : List (Record Value)) :
    Stated d (q.insertMany d records).run := by
  unfold insertMany
  split
  · exact .ret _
  · refine (Stated.orFail _).andThen fun _ ↦ ?_
    exact (Stated.orFail _).andThen fun _ ↦ stated_statement

theorem stated_insertGetId (record : Record Value) (sequence : Option String) :
    Stated d (q.insertGetId d record sequence).run := by
  refine (Stated.orFail _).andThen fun _ ↦ Stated.current.andThen fun c ↦ ?_
  have hasked (sql : String) (values : List Value) : Stated d (do
      let _ ← Session.statement d sql values
      return ((← Session.lastInsertId? d).map Value.int64).getD .null).run :=
    stated_statement.andThen fun _ ↦ stated_lastInsertId?.andThen fun _ ↦ .ret _
  split
  · exact stated_selectUsing.andThen fun _ ↦ .ret _
  · exact stated_selectUsing.andThen fun _ ↦ .ret _
  · exact hasked _ _

theorem stated_insertOrIgnore (records : List (Record Value)) :
    Stated d (q.insertOrIgnore d records).run := by
  unfold insertOrIgnore
  split
  · exact .ret _
  · refine (Stated.orFail _).andThen fun _ ↦ ?_
    exact (Stated.orFail _).andThen fun _ ↦ stated_affecting

theorem stated_insertUsing (columns : List String) (rows : Query) :
    Stated d (q.insertUsing d columns rows).run := by
  refine (Stated.orFail _).andThen fun _ ↦ ?_
  exact (Stated.orFail _).andThen fun _ ↦ stated_affecting

theorem stated_upsert (records : List (Record Value)) (uniqueBy : List String)
    (update : Option (List String)) : Stated d (q.upsert d records uniqueBy update).run := by
  unfold upsert
  split
  · exact .ret _
  · refine (Stated.orFail _).andThen fun _ ↦ ?_
    split
    · exact (Stated.orFail _).andThen fun _ ↦ stated_statement.andThen fun _ ↦ .ret _
    · exact (Stated.orFail _).andThen fun _ ↦ stated_affecting

theorem stated_update (record : Record Value) : Stated d (q.update d record).run := by
  unfold update
  split
  · exact .ret _
  · exact (Stated.orFail _).andThen fun _ ↦ stated_affecting

theorem stated_changeBy (method sign column : String) (amount : Value) (extra : Record Value) :
    Stated d (q.changeBy d method sign column amount extra).run := by
  unfold changeBy
  split
  · exact .fail _
  · exact (Stated.orFail _).andThen fun _ ↦ q.stated_update _

theorem stated_updateOrInsert (attributes values : Record Value) :
    Stated d (q.updateOrInsert d attributes values).run := by
  refine (stated_exists? _).andThen fun found ↦ ?_
  split
  · exact q.stated_insert _
  · split
    · exact .ret _
    · exact (stated_update _ _).andThen fun _ ↦ .ret _

theorem stated_delete : Stated d (q.delete d).run :=
  (Stated.orFail _).andThen fun _ ↦ stated_affecting

theorem stated_truncate : Stated d (q.truncate d).run := by
  refine (Stated.orFail _).andThen fun statements ↦ ?_
  refine Stated.andThen (.forIn (fun _ _ ↦ ?_) _) fun _ ↦ .ret _
  exact stated_statement.andThen fun _ ↦ .ret _

theorem stated_readChunks
    {read : Nat → StateM (Session σ H) (List Chunk × Except Error Bool)}
    (h : ∀ bound, Stated d (read bound)) : Stated d (readChunks d read).run :=
  Stated.get.andThen fun _ ↦ (Stated.lift (h _)).andThen fun _ ↦
    (Stated.orFail _).andThen fun _ ↦ .ret _

/-- Whatever a query is used for, statements are all it comes down to. -/
theorem stated_perform (use : Use) : Stated d (q.perform d use).run := by
  cases use with
  | get => exact q.stated_get.mapped _
  | getIntegers => exact q.stated_getIntegers.mapped _
  | first => exact q.stated_first.mapped _
  | firstIntegers =>
    refine q.stated_firstIntegers.andThen fun row ↦ ?_
    cases row <;> exact .ret _
  | find id => exact (stated_first _).mapped _
  | value column => exact (q.stated_value column).andThen fun _ ↦ .ret _
  | pluck column => exact (q.stated_pluck column).mapped _
  | count => exact q.stated_count.mapped _
  | aggregate function column => exact (q.stated_aggregateOf _ _).andThen fun _ ↦ .ret _
  | sum column => exact (q.stated_sum column).mapped _
  | exist negated => exact q.stated_exists?.andThen fun _ ↦ .ret _
  | chunk size stop => exact stated_readChunks (q.stated_chunk size _)
  | chunkById size column key stop => exact stated_readChunks (q.stated_chunkById size column key _)
  | paginate perPage number => exact (q.stated_paginate _ _).mapped _
  | simplePaginate perPage number => exact (q.stated_simplePaginate _ _).mapped _
  | insert record => exact (q.stated_insert _).mapped _
  | insertMany records => exact (q.stated_insertMany _).mapped _
  | insertGetId record sequence => exact (q.stated_insertGetId _ _).mapped _
  | insertOrIgnore records => exact (q.stated_insertOrIgnore _).mapped _
  | insertUsing columns steps =>
    refine (q.stated_insertUsing _ _).andThen fun n ↦ ?_
    split
    · exact .fail _
    · exact .ret _
  | upsert records uniqueBy update => exact (q.stated_upsert _ _ _).mapped _
  | update record => exact (q.stated_update _).mapped _
  | increment column amount extra => exact (q.stated_changeBy _ _ _ _ _).mapped _
  | decrement column amount extra => exact (q.stated_changeBy _ _ _ _ _).mapped _
  | updateOrInsert attributes values => exact (q.stated_updateOrInsert _ _).mapped _
  | delete => exact q.stated_delete.mapped _
  | deleteById id => exact (stated_delete _).mapped _
  | truncate => exact q.stated_truncate.andThen fun _ ↦ .ret _

end Query

section

open Session

variable {σ H : Type} {d : Driver σ H}

theorem Source.stated_query (source : Source) :
    Stated d (source.query : Action σ H Query).run := by
  cases source with
  | steps steps =>
    refine Stated.current.andThen fun c ↦ ?_
    split
    · exact .ret _
    · exact .fail _
  | saved name => exact Stated.get.andThen fun _ ↦ .ret _

def Command.isStatement : Command σ H → Bool
  | .select .. | .selectOne .. | .scalar .. | .statement .. | .affecting .. | .unprepared _
  | .query .. => true
  | _ => false

theorem Command.stated_perform {c : Command σ H} (hc : c.isStatement) :
    Stated d (c.perform d).run := by
  cases c with
  | select useRead sql bindings => exact stated_selectUsing.mapped _
  | selectOne sql bindings => exact stated_selectOne.mapped _
  | scalar sql bindings => exact stated_scalar.andThen fun _ ↦ .ret _
  | statement sql bindings => exact stated_statement.mapped _
  | affecting sql bindings => exact stated_affecting.mapped _
  | unprepared sql => exact stated_unprepared.mapped _
  | query source use => exact source.stated_query.andThen fun q ↦ q.stated_perform use
  | _ => cases hc

end

end FluentSql
