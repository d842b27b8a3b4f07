import FluentSql.Proofs.Session.Levels

namespace FluentSql

def Request.isStatement : Request → Bool
  | .select .. => true
  | .affecting .. => true
  | .statement .. => true
  | .unprepared _ => true
  | _ => false

inductive Procedure (σ H : Type) : Type → Type 1 where
  | done {α : Type} (a : α) : Procedure σ H α
  | consult {α τ : Type} (look : Session σ H → τ × σ) (next : τ → Procedure σ H α) : Procedure σ H α
  | execute {α : Type} (useRead : Bool) (r : Request) (hr : r.isStatement)
      (next : Except Error r.Reply → Procedure σ H α) : Procedure σ H α
  | begin {α : Type} (next : Except Error Unit → Procedure σ H α) : Procedure σ H α
  | commit {α : Type} (next : Except Error Unit → Procedure σ H α) : Procedure σ H α
  | rollback {α : Type} (target : Option Nat) (next : Except Error Unit → Procedure σ H α) :
      Procedure σ H α
  | transaction {α β : Type} (attempts : Nat) (body : Procedure σ H (Except Error β))
      (next : Except Error β → Procedure σ H α) : Procedure σ H α

structure Run (σ H α : Type) where
  start : Session σ H
  result : Except Error α
  finish : Session σ H

namespace Procedure

open FluentSql.Action

variable {σ H α β : Type} (d : Driver σ H)

def noting (body : Session σ H → Except Error α × Session σ H) :
    StateM (Session σ H) (Except Error α × Run σ H α) :=
  fun s ↦ (((body s).1, ⟨s, (body s).1, (body s).2⟩), (body s).2)

/-- A transaction, with the runs of its callback. -/
def transact (attempts : Nat) (body : Session σ H → Except Error α × Session σ H)
    (s : Session σ H) : (Except Error α × List (Run σ H α)) × Session σ H :=
  (Session.transaction d attempts (noting body)).run s

def exec {α : Type} : Procedure σ H α → Session σ H → α × Session σ H
  | done a, s => (a, s)
  | consult look next, s => exec (next (look s).1) { s with world := (look s).2 }
  | execute useRead r _ next, s =>
    let (reply, t) := (Session.execute d useRead r).on s
    exec (next reply) t
  | begin next, s =>
    let (result, t) := (Session.begin d).on s
    exec (next result) t
  | commit next, s =>
    let (result, t) := (Session.commit d).on s
    exec (next result) t
  | rollback target next, s =>
    let (result, t) := (Session.rollback d target).on s
    exec (next result) t
  | transaction attempts body next, s =>
    let ((result, _), t) := transact d attempts (exec body) s
    exec (next result) t

section

variable {s : Session σ H}

theorem exec_execute {useRead : Bool} {r : Request} {hr : r.isStatement}
    {next : Except Error r.Reply → Procedure σ H α} : (execute useRead r hr next).exec d s =
      (next ((Session.execute d useRead r).on s).1).exec d ((Session.execute d useRead r).on s).2 :=
  rfl

theorem exec_begin {next : Except Error Unit → Procedure σ H α} : (begin next).exec d s =
    (next ((Session.begin d).on s).1).exec d ((Session.begin d).on s).2 := rfl

theorem exec_commit {next : Except Error Unit → Procedure σ H α} : (commit next).exec d s =
    (next ((Session.commit d).on s).1).exec d ((Session.commit d).on s).2 := rfl

theorem exec_rollback {target : Option Nat} {next : Except Error Unit → Procedure σ H α} :
    (rollback target next).exec d s =
      (next ((Session.rollback d target).on s).1).exec d ((Session.rollback d target).on s).2 :=
  rfl

theorem exec_transaction {attempts : Nat} {body : Procedure σ H (Except Error β)}
    {next : Except Error β → Procedure σ H α} : (transaction attempts body next).exec d s =
      (next (transact d attempts (body.exec d) s).1.1).exec d
        (transact d attempts (body.exec d) s).2 := rfl

end

def StaysOpen {α : Type} : Procedure σ H α → Session σ H → Prop
  | done _, s => 0 < s.connection.level
  | consult look next, s =>
    0 < s.connection.level ∧ StaysOpen (next (look s).1) { s with world := (look s).2 }
  | execute useRead r _ next, s =>
    0 < s.connection.level ∧ StaysOpen (next ((Session.execute d useRead r).on s).1)
      ((Session.execute d useRead r).on s).2
  | begin next, s =>
    0 < s.connection.level ∧ StaysOpen (next ((Session.begin d).on s).1) ((Session.begin d).on s).2
  | commit next, s =>
    0 < s.connection.level ∧
      StaysOpen (next ((Session.commit d).on s).1) ((Session.commit d).on s).2
  | rollback target next, s =>
    0 < s.connection.level ∧ StaysOpen (next ((Session.rollback d target).on s).1)
      ((Session.rollback d target).on s).2
  | transaction attempts body next, s =>
    0 < s.connection.level ∧
      (∀ run ∈ (transact d attempts (body.exec d) s).1.2, StaysOpen body run.start) ∧
      StaysOpen (next (transact d attempts (body.exec d) s).1.1)
        (transact d attempts (body.exec d) s).2

instance decidableStaysOpen {α : Type} : (p : Procedure σ H α) → (s : Session σ H) →
    Decidable (p.StaysOpen d s)
  | done _, s => inferInstanceAs (Decidable (0 < s.connection.level))
  | consult look next, s =>
    have := decidableStaysOpen (next (look s).1) { s with world := (look s).2 }
    instDecidableAnd
  | execute useRead r _ next, s =>
    have := decidableStaysOpen (next ((Session.execute d useRead r).on s).1)
      ((Session.execute d useRead r).on s).2
    instDecidableAnd
  | begin next, s =>
    have := decidableStaysOpen (next ((Session.begin d).on s).1) ((Session.begin d).on s).2
    instDecidableAnd
  | commit next, s =>
    have := decidableStaysOpen (next ((Session.commit d).on s).1) ((Session.commit d).on s).2
    instDecidableAnd
  | rollback target next, s =>
    have := decidableStaysOpen (next ((Session.rollback d target).on s).1)
      ((Session.rollback d target).on s).2
    instDecidableAnd
  | transaction attempts body next, s =>
    have := fun s ↦ decidableStaysOpen body s
    have := decidableStaysOpen (next (transact d attempts (body.exec d) s).1.1)
      (transact d attempts (body.exec d) s).2
    instDecidableAnd

theorem StaysOpen.level {p : Procedure σ H α} {s : Session σ H} (h : p.StaysOpen d s) :
    0 < s.connection.level := by
  cases p with
  | done a => exact h
  | consult look next => exact h.1
  | execute useRead r hr next => exact h.1
  | begin next => exact h.1
  | commit next => exact h.1
  | rollback target next => exact h.1
  | transaction attempts body next => exact h.1

end Procedure

end FluentSql
