import FluentSql.Error.Fingerprint
import FluentSql.Query.Run

namespace FluentSql

inductive Request where
  | select (sql : String) (bindings : List Value)
  | affecting (sql : String) (bindings : List Value)
  | statement (sql : String) (bindings : List Value)
  | unprepared (sql : String)
  | begin
  | commit
  | rollback

namespace Request

abbrev Reply : Request → Type
  | select .. => List Row
  | affecting .. => Nat
  | statement .. => Bool
  | unprepared _ => Bool
  | _ => Unit

def sql : Request → String
  | select sql _ => sql
  | affecting sql _ => sql
  | statement sql _ => sql
  | unprepared sql => sql
  | _ => ""

def bindings : Request → List Value
  | select _ bindings => bindings
  | affecting _ bindings => bindings
  | statement _ bindings => bindings
  | _ => []

def pretended : (r : Request) → r.Reply
  | select .. => []
  | affecting .. => (0 : Nat)
  | statement .. => true
  | unprepared _ => true
  | begin => ()
  | commit => ()
  | rollback => ()

def changed : (r : Request) → r.Reply → Bool
  | select .., _ => false
  | affecting .., (n : Nat) => 0 < n
  | statement .., (done : Bool) => done
  | unprepared _, (done : Bool) => done
  | begin, _ => false
  | commit, _ => false
  | rollback, _ => false

end Request

/-- How the handles of a database answer, given the state `σ` of the world behind them. -/
structure Driver (σ H : Type) where
  send : H → (r : Request) → σ → Except Error r.Reply × σ
  lastInsertId? : H → σ → Option Int64
  reconnect : σ → Except Error (H × Option H) × σ
  /-- A bound on the selects that can still yield rows. -/
  horizon : σ → Nat

inductive Event where
  | executed (connection sql : String) (bindings : List Value)
  | beginning (connection : String)
  | committed (connection : String)
  | rolledBack (connection : String)

inductive Entry (H : Type) where
  | sent (handle : H) (request : Request) (succeeded : Bool)
  | reconnected (succeeded : Bool)
  | announced (event : Event)

structure Connection (H : Type) where
  name : String := "default"
  write : H
  read : Option H := none
  hasReconnector : Bool := false
  grammar : Grammar
  processor : Dialect
  macros : Macros := {}
  hasSink : Bool := false
  level : Nat := 0
  pretending : Bool := false
  logging : Bool := false
  queryLog : List (String × List Value) := []
  recordsModified : Bool := false
  sticky : Bool := false

def Connection.ofConfig {H : Type} (name : String) (grammar : Grammar) (sticky logging : Bool)
    (write : H) (read : Option H) : Connection H :=
  { name, write, read, grammar, processor := grammar.dialect, logging, sticky }

def Connection.query {H : Type} (c : Connection H) : Query :=
  { grammar := c.grammar, macros := c.macros }

structure Session (σ H : Type) where
  connection : Connection H
  world : σ
  trace : List (Entry H) := []
  saved : List (String × Query) := []

/-- What happens in a session may fail; what was done before the failure stays done. -/
abbrev Action (σ H α : Type) := ExceptT Error (StateM (Session σ H)) α

namespace Action

variable {σ H α : Type}

def observe (action : Action σ H α) : Action σ H (Except Error α) :=
  ExceptT.lift action.run

def orFail (r : Except Error α) : Action σ H α :=
  ExceptT.mk (pure r)

def current : Action σ H (Connection H) := do
  return (← get).connection

def modifyConnection (f : Connection H → Connection H) : Action σ H Unit :=
  modify fun s ↦ { s with connection := f s.connection }

def record (entry : Entry H) : Action σ H Unit :=
  modify fun s ↦ { s with trace := s.trace ++ [entry] }

def announce (event : String → Event) : Action σ H Unit := do
  let c ← current
  if c.hasSink then record (.announced (event c.name))

def send (d : Driver σ H) (handle : H) (r : Request) : Action σ H r.Reply := do
  let s ← get
  let (reply, world) := d.send handle r s.world
  set { s with world }
  record (.sent handle r reply.toBool)
  orFail reply

end Action

end FluentSql
