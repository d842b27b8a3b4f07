import FluentSql.Error.Fingerprint
import Mathlib.Data.List.Induction

namespace FluentSql

inductive Fault where
  | lostConnection
  | lostRace
  | other
  deriving DecidableEq

namespace Error

section

variable (e : Error)

def fault : Fault :=
  if e.causedByLostConnection then .lostConnection
  else if e.causedByConcurrency then .lostRace
  else .other

def wrapped (statements : List (String × List Value)) : Error :=
  statements.foldl (fun e statement ↦ e.classify statement.1 statement.2) e

/-- Whether a failure is put down to a lost race only where its root tells of one. A deadlock over
the root of a lost connection would be forgotten once the next statement is attached. -/
def Sincere : Prop := e.isDeadlock → e.root.losesRace

end

def fault? : Error → Option Fault
  | connectionLost .. => some .lostConnection
  | deadlock .. => some .lostRace
  | execution .. => some .other
  | _ => none

/-- A failure `e` that came of `r` by attaching statements: all that is decided on it is as for `r`,
and all that it tells of a statement is about the last one. -/
structure Stands (r : Error) (statements : List (String × List Value)) (e : Error) : Prop where
  root : e.root = r
  lostConnection : e.causedByLostConnection = r.causedByLostConnection
  concurrency : e.causedByConcurrency = r.causedByConcurrency
  fault : e.fault? = statements.getLast?.map fun _ ↦ r.fault
  sql : e.sql? = statements.getLast?.map Prod.fst
  bindings : e.bindings? = statements.getLast?.map Prod.snd

variable {e r : Error} {sql : String} {bindings : List Value}
  {statements : List (String × List Value)}

@[simp] theorem fault?_classify : (e.classify sql bindings).fault? = some e.fault := by
  unfold classify fault
  split
  · rfl
  · split <;> rfl

@[simp] theorem causedByLostConnection_classify :
    (e.classify sql bindings).causedByLostConnection = e.causedByLostConnection := by
  unfold causedByLostConnection
  rw [root_classify]

@[simp] theorem isConnectionLost_classify :
    (e.classify sql bindings).isConnectionLost = e.causedByLostConnection := by
  unfold classify
  split
  case isTrue hl => exact hl.symm
  case isFalse hl =>
    rw [Bool.not_eq_true] at hl
    rw [hl]
    split <;> rfl

namespace Sincere

theorem causedByConcurrency_eq (h : e.Sincere) : e.causedByConcurrency = e.root.losesRace := by
  unfold causedByConcurrency
  cases hd : e.isDeadlock with
  | false => exact Bool.false_or _
  | true => exact (h hd).symm

theorem classify (h : e.Sincere) : (e.classify sql bindings).Sincere := by
  intro hd
  rw [root_classify, ← h.causedByConcurrency_eq]
  unfold Error.classify at hd
  split at hd
  · cases hd
  · split at hd
    case isTrue hc => exact hc
    case isFalse => cases hd

theorem causedByConcurrency_classify (h : e.Sincere) :
    (e.classify sql bindings).causedByConcurrency = e.causedByConcurrency := by
  rw [h.classify.causedByConcurrency_eq, h.causedByConcurrency_eq, root_classify]

end Sincere

theorem wrapped_concat (e : Error) (statements : List (String × List Value)) (sql : String)
    (bindings : List Value) :
    e.wrapped (statements ++ [(sql, bindings)]) =
      (e.wrapped statements).classify sql bindings := by
  unfold wrapped
  rw [List.foldl_append]
  rfl

theorem Stands.fault_eq (h : Stands r statements e) : e.fault = r.fault := by
  unfold Error.fault
  rw [h.lostConnection, h.concurrency]

/-- One more statement leaves a failure what it is, and is the one that is told of. -/
theorem Stands.classify (h : Stands r statements e) (he : e.Sincere) :
    Stands r (statements ++ [(sql, bindings)]) (e.classify sql bindings) where
  root := root_classify .. |>.trans h.root
  lostConnection := causedByLostConnection_classify.trans h.lostConnection
  concurrency := he.causedByConcurrency_classify.trans h.concurrency
  fault := by rw [fault?_classify, List.getLast?_concat, h.fault_eq]; rfl
  sql := by rw [sql?_classify, List.getLast?_concat]; rfl
  bindings := by rw [bindings?_classify, List.getLast?_concat]; rfl

section

variable (hr : r.sql? = none)

include hr

theorem sincere_of_sql?_eq_none : r.Sincere := by
  intro hd
  cases r with
  | deadlock sql bindings source => cases hr
  | _ => cases hd

theorem stands_self : Stands r [] r := by
  cases r with
  | connectionLost sql bindings source => cases hr
  | deadlock sql bindings source => cases hr
  | execution sql bindings source => cases hr
  | _ => exact ⟨rfl, rfl, rfl, rfl, rfl, rfl⟩

theorem sincere_wrapped (statements : List (String × List Value)) :
    (r.wrapped statements).Sincere := by
  induction statements using List.reverseRecOn with
  | nil => exact sincere_of_sql?_eq_none hr
  | append_singleton statements statement ih =>
    rw [wrapped_concat]
    exact ih.classify

theorem stands_wrapped (statements : List (String × List Value)) :
    Stands r statements (r.wrapped statements) := by
  induction statements using List.reverseRecOn with
  | nil => exact stands_self hr
  | append_singleton statements statement ih =>
    rw [wrapped_concat]
    exact ih.classify (sincere_wrapped hr statements)

end

end Error

end FluentSql
