import FluentSql.Proofs.Session.Levels

namespace FluentSql

variable {H : Type}

inductive Mark where
  | save (name : String)
  | restore (name : String)

def Text.after? (beginning s : List Char) : Option (List Char) :=
  if beginning.isPrefixOf s then some (s.drop beginning.length) else none

theorem Text.after?_append (beginning s : List Char) :
    after? beginning (beginning ++ s) = some s := by
  have h : beginning.isPrefixOf (beginning ++ s) :=
    List.isPrefixOf_iff_prefix.mpr (List.prefix_append beginning s)
  rw [after?, if_pos h, List.drop_left]

namespace Grammar

variable (g : Grammar) (name : String)

def mark? (sql : String) : Option Mark :=
  match Text.after? (g.savepoint "").toList sql.toList with
  | some name => some (.save (String.ofList name))
  | none =>
    (Text.after? (g.savepointRollback "").toList sql.toList).map fun name ↦
      .restore (String.ofList name)

theorem toList_savepoint : (g.savepoint name).toList = (g.savepoint "").toList ++ name.toList := by
  unfold savepoint
  split <;> simp

theorem toList_savepointRollback :
    (g.savepointRollback name).toList = (g.savepointRollback "").toList ++ name.toList := by
  unfold savepointRollback
  split <;> simp

theorem after?_savepointRollback :
    Text.after? (g.savepoint "").toList (g.savepointRollback name).toList = none := by
  rw [toList_savepointRollback]
  unfold savepoint savepointRollback
  split <;> simp [Text.after?]

@[simp] theorem mark?_savepoint : g.mark? (g.savepoint name) = some (.save name) := by
  have h := Text.after?_append (g.savepoint "").toList name.toList
  rw [← toList_savepoint g name] at h
  simp only [mark?, h, String.ofList_toList]

@[simp] theorem mark?_savepointRollback :
    g.mark? (g.savepointRollback name) = some (.restore name) := by
  have h := Text.after?_append (g.savepointRollback "").toList name.toList
  rw [← toList_savepointRollback g name] at h
  simp only [mark?, after?_savepointRollback, h, Option.map_some, String.ofList_toList]

end Grammar

/-- A request that writes, whatever it writes, by the place it has among the requests. -/
abbrev Written := Nat × Request

/-- Savepoints stand latest first, with how much was pending when they were set. -/
structure Server where
  requests : Nat := 0
  durable : List Written := []
  isOpen : Bool := false
  pending : List Written := []
  savepoints : List (String × Nat) := []

namespace Server

variable (g : Grammar) (v : Server)

/-- Without a transaction, what is written is durable at once. -/
def write (r : Request) : Server :=
  if v.isOpen then { v with pending := v.pending ++ [(v.requests, r)] }
  else { v with durable := v.durable ++ [(v.requests, r)] }

def save (name : String) : Server :=
  { v with savepoints := (name, v.pending.length) :: v.savepoints }

/-- Goes back to the latest savepoint of a name. It stays, and those after it go. -/
def restore (name : String) : Server :=
  match v.savepoints.dropWhile fun mark ↦ mark.1 != name with
  | [] => v
  | mark :: marks => { v with pending := v.pending.take mark.2, savepoints := mark :: marks }

def perform : Request → Server
  | .begin => { v with isOpen := true, pending := [], savepoints := [] }
  | .commit =>
    { v with isOpen := false, durable := v.durable ++ v.pending, pending := [], savepoints := [] }
  | .rollback => { v with isOpen := false, pending := [], savepoints := [] }
  | .select .. => v
  | .statement sql bindings => v.write (.statement sql bindings)
  | .affecting sql bindings => v.write (.affecting sql bindings)
  | .unprepared sql =>
    match g.mark? sql with
    | some (.save name) => v.save name
    | some (.restore name) => v.restore name
    | none => v.write (.unprepared sql)

def receive (r : Request) : Server :=
  { v.perform g r with requests := v.requests + 1 }

def after (v : Server) (trace : List (Entry H)) : Server :=
  (Entry.sends trace).foldl (fun v (_, r, ok) ↦ if ok then v.receive g r else v) v

variable {g v}

@[simp] theorem after_append (trace added : List (Entry H)) :
    after g v (trace ++ added) = after g (after g v trace) added := by
  unfold after
  rw [Entry.sends_append, List.foldl_append]

theorem after_told {told : List (Entry H)} (h : Entry.sends told = []) : after g v told = v := by
  unfold after
  rw [h]
  rfl

end Server

end FluentSql
