import FluentSql.Session.Basic

namespace FluentSql

inductive Reconnection where
  | write
  | writeAndRead
  | failure (e : Error)

structure Script where
  selects : List (Except Error (List Row)) := []
  affectings : List (Except Error Nat) := []
  statements : List (Except Error Bool) := []
  unprepareds : List (Except Error Bool) := []
  begins : List (Except Error Unit) := []
  commits : List (Except Error Unit) := []
  rollbacks : List (Except Error Unit) := []
  lastInsertId : Option Int64 := none
  reconnections : List Reconnection := []
  reconnects : Nat := 0

namespace Script

def next {α : Type} (default : α) : List (Except Error α) → Except Error α × List (Except Error α)
  | [] => (.ok default, [])
  | a :: rest => (a, rest)

def send (r : Request) (s : Script) : Except Error r.Reply × Script :=
  match r with
  | .select .. => let (a, rest) := next [] s.selects; (a, { s with selects := rest })
  | .affecting .. => let (a, rest) := next 1 s.affectings; (a, { s with affectings := rest })
  | .statement .. => let (a, rest) := next true s.statements; (a, { s with statements := rest })
  | .unprepared _ => let (a, rest) := next true s.unprepareds; (a, { s with unprepareds := rest })
  | .begin => let (a, rest) := next () s.begins; (a, { s with begins := rest })
  | .commit => let (a, rest) := next () s.commits; (a, { s with commits := rest })
  | .rollback => let (a, rest) := next () s.rollbacks; (a, { s with rollbacks := rest })

def reconnect (s : Script) : Except Error (String × Option String) × Script :=
  let n := s.reconnects + 1
  let s' := { s with reconnects := n, reconnections := s.reconnections.drop 1 }
  match s.reconnections with
  | .failure e :: _ => (.error e, s')
  | .writeAndRead :: _ => (.ok ("write" ++ toString n, some ("read" ++ toString n)), s')
  | _ => (.ok ("write" ++ toString n, none), s')

def driver : Driver Script String where
  send _ r s := send r s
  lastInsertId? _ s := s.lastInsertId
  reconnect := reconnect
  horizon s := s.selects.length

end Script

end FluentSql
