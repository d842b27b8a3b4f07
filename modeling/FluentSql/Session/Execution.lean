import FluentSql.Session.Basic

namespace FluentSql.Session

open FluentSql.Action

variable {σ H : Type} (d : Driver σ H)

def reconnect : Action σ H Unit := do
  let c ← current
  if !c.hasReconnector then throw .missingReconnector
  let s ← get
  let (result, world) := d.reconnect s.world
  set { s with world }
  record (.reconnected result.toBool)
  let (write, read) ← orFail result
  modifyConnection fun c ↦ { c with write, read, level := 0 }

/-- Selects go to the handle for reading, unless a transaction is open, or what was written has to
be read back. -/
def handleFor (c : Connection H) (useRead : Bool) : Request → H
  | .select .. =>
    match c.read with
    | some read =>
      if useRead && c.level == 0 && !(c.sticky && c.recordsModified) then read else c.write
    | none => c.write
  | _ => c.write

def attempt (useRead : Bool) (r : Request) : Action σ H r.Reply := do
  let c ← current
  if c.pretending then return r.pretended
  match ← observe (send d (handleFor c useRead r) r) with
  | .ok reply =>
    if r.changed reply then modifyConnection fun c ↦ { c with recordsModified := true }
    return reply
  | .error e => throw (e.classify r.sql r.bindings)

def attemptAgain (useRead : Bool) (r : Request) (e : Error) : Action σ H r.Reply := do
  if 0 < (← current).level || !e.isConnectionLost then throw e
  reconnect d
  attempt d useRead r

def logStatement (sql : String) (bindings : List Value) : Action σ H Unit := do
  announce fun name ↦ .executed name sql bindings
  modifyConnection fun c ↦
    if c.logging then { c with queryLog := c.queryLog ++ [(sql, bindings)] } else c

def execute (useRead : Bool) (r : Request) : Action σ H r.Reply := do
  let reply ← match ← observe (attempt d useRead r) with
    | .ok reply => pure reply
    | .error e => attemptAgain d useRead r e
  logStatement r.sql r.bindings
  return reply

def selectUsing (useRead : Bool) (sql : String) (bindings : List Value) : Action σ H (List Row) :=
  execute d useRead (.select sql bindings)

def select (sql : String) (bindings : List Value) : Action σ H (List Row) :=
  selectUsing d true sql bindings

def selectOne (sql : String) (bindings : List Value) : Action σ H (Option Row) := do
  return (← select d sql bindings).head?

def scalar (sql : String) (bindings : List Value) : Action σ H (Option Json) := do
  match ← selectOne d sql bindings with
  | none => return none
  | some [] => return none
  | some [(_, j)] => return some j
  | some _ => throw (.invalid .manyColumns)

def statement (sql : String) (bindings : List Value) : Action σ H Bool :=
  execute d true (.statement sql bindings)

def affecting (sql : String) (bindings : List Value) : Action σ H Nat :=
  execute d true (.affecting sql bindings)

def unprepared (sql : String) : Action σ H Bool :=
  execute d true (.unprepared sql)

def lastInsertId? : Action σ H (Option Int64) := do
  let s ← get
  return d.lastInsertId? s.connection.write s.world

def pretend {ρ : Type} (callback : StateM (Session σ H) (Except Error Unit × ρ)) :
    StateM (Session σ H) (Except Error (List (String × List Value)) × ρ) := do
  let before := (← get).connection
  modify fun s ↦
    { s with
      connection := { s.connection with queryLog := [], logging := true, pretending := true } }
  let (result, notes) ← callback
  let log := (← get).connection.queryLog
  modify fun s ↦ { s with connection := { s.connection with
    queryLog := before.queryLog, logging := before.logging, pretending := false } }
  return (result.map fun _ ↦ log, notes)

end FluentSql.Session
