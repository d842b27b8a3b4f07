import FluentSql.Session.Paging
import FluentSql.Session.Transaction
import FluentSql.Session.Writing

namespace FluentSql

inductive Use where
  | get
  | getIntegers
  | first
  | firstIntegers
  | find (id : Operand Value)
  | value (column : String)
  | pluck (column : String)
  | count
  | aggregate (function column : String)
  | sum (column : String)
  | exist (negated : Bool)
  | chunk (size : Nat) (stop : Option Nat)
  | chunkById (size : Nat) (column : String) (key : Option String) (stop : Option Nat)
  | paginate (perPage number : Nat)
  | simplePaginate (perPage number : Nat)
  | insert (record : Record Value)
  | insertMany (records : List (Record Value))
  | insertGetId (record : Record Value) (sequence : Option String)
  | insertOrIgnore (records : List (Record Value))
  | insertUsing (columns : List String) (steps : List Step)
  | upsert (records : List (Record Value)) (uniqueBy : List String) (update : Option (List String))
  | update (record : Record Value)
  | increment (column : String) (amount : Value) (extra : Record Value)
  | decrement (column : String) (amount : Value) (extra : Record Value)
  | updateOrInsert (attributes values : Record Value)
  | delete
  | deleteById (id : Value)
  | truncate

inductive Source where
  | steps (steps : List Step)
  | saved (name : String)

/-- Commands may change the world behind the driver at any time. -/
inductive Command (σ H : Type) where
  | select (useRead : Bool) (sql : String) (bindings : List Value)
  | selectOne (sql : String) (bindings : List Value)
  | scalar (sql : String) (bindings : List Value)
  | statement (sql : String) (bindings : List Value)
  | affecting (sql : String) (bindings : List Value)
  | unprepared (sql : String)
  | begin
  | commit
  | rollback (level : Option Nat)
  | fail (e : Error)
  | reconnect
  | setWrite (handle : H)
  | setRead (handle : Option H)
  | handles
  | setReconnector (change : σ → σ)
  | setRecordsModified (b : Bool)
  | setLogging (b : Bool)
  | flushLog
  | queryLog
  | resetDuration
  | setSink (b : Bool)
  | changeWorld (change : σ → σ)
  | lastInsertId (change : σ → σ)
  | register (name : String) (steps : List Step)
  | unregister (name : String)
  | hasMacro (name : String)
  | tableSql (table : Identifier)
  | save (name : String) (source : Source)
  | query (source : Source) (use : Use)

inductive Routine (σ H : Type) where
  | single (command : Command σ H)
  | transaction (attempts : Nat) (body : List (Routine σ H)) (result : Json)
  | pretend (body : List (Routine σ H))
  | observe (routine : Routine σ H)

mutual

inductive Answer (H : Type) where
  | nothing
  | flag (b : Bool)
  | count (n : Nat)
  | document (j : Json)
  | documents (js : List Json)
  | row (row : Option Row)
  | rows (rows : List Row)
  | integers (rows : List (List (String × Int64)))
  | value (v : Value)
  | id (i : Option Int64)
  | sql (result : Except Error String)
  | statements (log : List (String × List Value))
  | handles (write : H) (read : Option H)
  | chunks (finished : Bool) (chunks : List Query.Chunk)
  | countedPage (p : CountedPage Row)
  | openPage (p : OpenPage Row)
  | report (r : Report H)

/-- The level after a routine, its result, and the reports of each run of the routines in it. -/
inductive Report (H : Type) where
  | of (level : Nat) (result : Except Error (Answer H)) (runs : List (List (Report H)))

end

def Report.result {H : Type} : Report H → Except Error (Answer H)
  | .of _ result _ => result

open FluentSql.Action

section

variable {σ H : Type} (d : Driver σ H)

def goOnUntil (stop : Option Nat) (c : Query.Chunk) : Bool := stop != some c.number

def readChunks (read : Nat → StateM (Session σ H) (List Query.Chunk × Except Error Bool)) :
    Action σ H (Answer H) := do
  let s ← get
  let (chunks, result) ← ExceptT.lift (read (d.horizon s.world + 1))
  return .chunks (← orFail result) chunks

def Query.perform (q : Query) : Use → Action σ H (Answer H)
  | .get => .rows <$> q.get d
  | .getIntegers => .integers <$> q.getIntegers d
  | .first => .row <$> q.first d
  | .firstIntegers => do
    match ← q.firstIntegers d with
    | some r => return .integers [r]
    | none => return .nothing
  | .find id => .row <$> q.find d id
  | .value column => do return .document ((← q.value d column).getD .null)
  | .pluck column => .documents <$> q.pluck d column
  | .count => .count <$> q.count d
  | .aggregate function column => do
    return .document ((← q.aggregateOf d function [.name column]).getD .null)
  | .sum column => .document <$> q.sum d column
  | .exist negated => do return .flag ((← q.exists? d) != negated)
  | .chunk size stop => readChunks d (q.chunk d size (goOnUntil stop))
  | .chunkById size column key stop => readChunks d (q.chunkById d size column key (goOnUntil stop))
  | .paginate perPage number => .countedPage <$> q.paginate d perPage number
  | .simplePaginate perPage number => .openPage <$> q.simplePaginate d perPage number
  | .insert record => .flag <$> q.insert d record
  | .insertMany records => .flag <$> q.insertMany d records
  | .insertGetId record sequence => .value <$> q.insertGetId d record sequence
  | .insertOrIgnore records => .count <$> q.insertOrIgnore d records
  | .insertUsing columns steps => do
    let (inner, failure) := q.fresh.run steps
    let n ← q.insertUsing d columns inner
    match failure with
    | some e => throw e
    | none => return .count n
  | .upsert records uniqueBy update => .count <$> q.upsert d records uniqueBy update
  | .update record => .count <$> q.update d record
  | .increment column amount extra => .count <$> q.increment d column amount extra
  | .decrement column amount extra => .count <$> q.decrement d column amount extra
  | .updateOrInsert attributes values => .flag <$> q.updateOrInsert d attributes values
  | .delete => .count <$> q.delete d
  | .deleteById id => .count <$> q.deleteById d id
  | .truncate => do
    q.truncate d
    return .nothing

def Source.query : Source → Action σ H Query
  | .steps list => do
    match (← current).query.run list with
    | (q, none) => return q
    | (_, some e) => throw e
  | .saved name => do
    let s ← get
    return (s.saved.lookup name).getD s.connection.query

def change (f : Connection H → Connection H) : Action σ H (Answer H) := do
  modifyConnection f
  return .nothing

def Command.perform : Command σ H → Action σ H (Answer H)
  | .select useRead sql bindings => .rows <$> Session.selectUsing d useRead sql bindings
  | .selectOne sql bindings => .row <$> Session.selectOne d sql bindings
  | .scalar sql bindings => do return .document ((← Session.scalar d sql bindings).getD .null)
  | .statement sql bindings => .flag <$> Session.statement d sql bindings
  | .affecting sql bindings => .count <$> Session.affecting d sql bindings
  | .unprepared sql => .flag <$> Session.unprepared d sql
  | .begin => do Session.begin d; return .nothing
  | .commit => do Session.commit d; return .nothing
  | .rollback level => do Session.rollback d level; return .nothing
  | .fail e => throw e
  | .reconnect => do Session.reconnect d; return .nothing
  | .setWrite handle => change fun c ↦ { c with write := handle, level := 0 }
  | .setRead handle => change fun c ↦ { c with read := handle }
  | .handles => do return .handles (← current).write (← current).read
  | .setReconnector f => do
    modify fun s ↦ { s with world := f s.world }
    change fun c ↦ { c with hasReconnector := true }
  | .setRecordsModified b => change fun c ↦ { c with recordsModified := b }
  | .setLogging b => change fun c ↦ { c with logging := b }
  | .flushLog => change fun c ↦ { c with queryLog := [] }
  | .queryLog => do return .statements (← current).queryLog
  | .resetDuration => return .flag true
  | .setSink b => change fun c ↦ { c with hasSink := b }
  | .changeWorld f => do
    modify fun s ↦ { s with world := f s.world }
    return .nothing
  | .lastInsertId f => do
    modify fun s ↦ { s with world := f s.world }
    return .id (← Session.lastInsertId? d)
  | .register name steps => change fun c ↦ { c with macros := c.macros.register name steps }
  | .unregister name => do
    let known := (← current).macros.has name
    modifyConnection fun c ↦ { c with macros := c.macros.remove name }
    return .flag known
  | .hasMacro name => do return .flag ((← current).macros.has name)
  | .tableSql table => do
    return .sql (((← current).query.setSource table.reference).sql.map Sql.text)
  | .save name source => do
    let q ← source.query
    modify fun s ↦ { s with saved := (name, q) :: s.saved }
    return .nothing
  | .query source use => do (← source.query).perform d use

def report (result : Except Error (Answer H)) (runs : List (List (Report H))) :
    StateM (Session σ H) (Report H) := do
  return .of (← get).connection.level result runs

mutual

def Routine.run : Routine σ H → StateM (Session σ H) (Report H)
  | .single command => do report (← (Command.perform d command).run) []
  | .transaction attempts body result => do
    let callback : StateM (Session σ H) (Except Error Json × List (Report H)) := do
      let (outcome, reports) ← Routine.runAll body
      return (outcome.map fun _ ↦ result, reports)
    let (result, runs) ← Session.transaction d attempts callback
    report (result.map .document) runs
  | .pretend body => do
    let (result, reports) ← Session.pretend (Routine.runAll body)
    report (result.map .statements) [reports]
  | .observe routine => do
    let r ← Routine.run routine
    report (.ok (.report r)) []

def Routine.runAll :
    List (Routine σ H) → StateM (Session σ H) (Except Error Unit × List (Report H))
  | [] => return (.ok (), [])
  | routine :: rest => do
    let r ← Routine.run routine
    match r.result with
    | .error e => return (.error e, [r])
    | .ok _ =>
      let (result, reports) ← Routine.runAll rest
      return (result, r :: reports)

end

end

end FluentSql
