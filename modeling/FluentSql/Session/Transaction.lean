import FluentSql.Session.Execution

namespace FluentSql.Session

open FluentSql.Action

variable {σ H : Type} (d : Driver σ H)

def savepointName (level : Nat) : String := "trans" ++ toString level

/-- Opens what the next level needs. A connection that is lost before the outermost transaction is
replaced once. -/
def openLevel : Action σ H Unit := do
  let c ← current
  if c.pretending then return
  if c.level = 0 then
    match ← observe (send d c.write .begin) with
    | .ok _ => return
    | .error e =>
      if !e.causedByLostConnection then throw e
      reconnect d
      send d (← current).write .begin
  else if c.grammar.supportsSavepoints then
    let _ ← send d c.write (.unprepared (c.grammar.savepoint (savepointName (c.level + 1))))

def begin : Action σ H Unit := do
  openLevel d
  modifyConnection fun c ↦ { c with level := c.level + 1 }
  announce .beginning

def commitDriver : Action σ H Unit := do
  let c ← current
  if c.level = 1 && !c.pretending then send d c.write .commit

def announceCommitted : Action σ H Unit := do
  if (← current).level = 0 then announce .committed

/-- Passes an error on. On a lost connection no transaction is left. -/
def failClosing {α : Type} (e : Error) : Action σ H α := do
  if e.causedByLostConnection then modifyConnection fun c ↦ { c with level := 0 }
  throw e

def commit : Action σ H Unit := do
  if (← current).level = 0 then return
  match ← observe (commitDriver d) with
  | .error e => failClosing e
  | .ok _ =>
    modifyConnection fun c ↦ { c with level := c.level - 1 }
    announceCommitted

def rollbackDriver (level : Nat) : Action σ H Unit := do
  let c ← current
  if c.pretending then return
  if level = 0 then send d c.write .rollback
  else if c.grammar.supportsSavepoints then
    let _ ← send d c.write (.unprepared (c.grammar.savepointRollback (savepointName (level + 1))))

/-- Rolls back to a level, by default the next one out. A level that is not open is no change. -/
def rollback (level : Option Nat) : Action σ H Unit := do
  let current := (← current).level
  let level := level.getD (current - 1)
  if current ≤ level then return
  match ← observe (rollbackDriver d level) with
  | .error e => failClosing e
  | .ok _ =>
    modifyConnection fun c ↦ { c with level }
    announce .rolledBack

/-- Decides after a failed callback whether to try again. A lost race in an inner transaction ends
the outer ones too. -/
def afterFailure (e : Error) (retries : Nat) : Action σ H Unit := do
  let level := (← current).level
  if e.causedByConcurrency && 1 < level then
    modifyConnection fun c ↦ { c with level := c.level - 1 }
    throw e
  rollback d none
  if !(e.causedByConcurrency && 0 < retries) then throw e

def afterFailedCommit (e : Error) (retries : Nat) : Action σ H Unit := do
  modifyConnection fun c ↦ { c with level := c.level - 1 }
  if !(e.causedByConcurrency && 0 < retries) then failClosing e

inductive Verdict (α : Type) where
  | done (a : α)
  | failed (e : Error)
  | again (e : Error)

def Verdict.result {α : Type} : Verdict α → Except Error α
  | done a => .ok a
  | failed e => .error e
  | again e => .error e

def verdictAfter {α : Type} (e : Error) (deal : Action σ H Unit) :
    StateM (Session σ H) (Verdict α) := do
  match ← deal.run with
  | .ok _ => return .again e
  | .error e => return .failed e

def close {α : Type} (retries : Nat) (a : α) : StateM (Session σ H) (Verdict α) := do
  match ← (commitDriver d).run with
  | .error e => verdictAfter e (afterFailedCommit e retries)
  | .ok _ =>
    let leave : Action σ H Unit := do
      modifyConnection fun c ↦ { c with level := c.level - 1 }
      announceCommitted
    let _ ← leave.run
    return .done a

def tryTransaction {α ρ : Type} (callback : StateM (Session σ H) (Except Error α × ρ))
    (retries : Nat) : StateM (Session σ H) (Verdict α × List ρ) := do
  match ← (begin d).run with
  | .error e => return (.failed e, [])
  | .ok _ =>
    match ← callback with
    | (.ok a, notes) => return (← close d retries a, [notes])
    | (.error e, notes) => return (← verdictAfter e (afterFailure d e retries), [notes])

/-- Attempts a transaction, and after lost races again, `retries` times at most. -/
def transactionWithin {α ρ : Type} (callback : StateM (Session σ H) (Except Error α × ρ)) :
    Nat → StateM (Session σ H) (Except Error α × List ρ)
  | 0 => do
    let (verdict, notes) ← tryTransaction d callback 0
    return (verdict.result, notes)
  | retries + 1 => do
    match ← tryTransaction d callback (retries + 1) with
    | (.again _, notes) =>
      let (result, rest) ← transactionWithin callback retries
      return (result, notes ++ rest)
    | (verdict, notes) => return (verdict.result, notes)

def transaction {α ρ : Type} (attempts : Nat)
    (callback : StateM (Session σ H) (Except Error α × ρ)) :
    StateM (Session σ H) (Except Error α × List ρ) :=
  transactionWithin d callback (attempts - 1)

end FluentSql.Session
