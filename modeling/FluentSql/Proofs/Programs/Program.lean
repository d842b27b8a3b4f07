import FluentSql.Proofs.Session.Statements
import FluentSql.Proofs.Transactions.Attempts

namespace FluentSql

variable {σ H α β : Type} {d : Driver σ H} {s t u : Session σ H}

namespace Session

open FluentSql.Action Procedure

def since (s t : Session σ H) : List (Entry H) := t.trace.drop s.trace.length

theorem since_eq {added : List (Entry H)} (h : t.trace = s.trace ++ added) : s.since t = added := by
  rw [since, h, List.drop_left]

@[simp] theorem since_self (s : Session σ H) : s.since s = [] := List.drop_length

theorem trace_eq_since (h : s.trace <+: t.trace) : t.trace = s.trace ++ s.since t := by
  obtain ⟨added, ha⟩ := h
  rw [since_eq ha.symm, ha]

theorem since_append (h : s.trace <+: t.trace) (h' : t.trace <+: u.trace) :
    s.since u = s.since t ++ t.since u := by
  apply since_eq
  rw [trace_eq_since h', trace_eq_since h, List.append_assoc]

theorem Grows.trace_eq (h : s.Grows t) : t.trace = s.trace ++ s.since t := trace_eq_since h.trace

theorem Grows.since_append (h : s.Grows t) (h' : t.Grows u) :
    s.since u = s.since t ++ t.since u := Session.since_append h.trace h'.trace

inductive Reconnects (d : Driver σ H) (s : Session σ H) :
    Except Error Unit → Session σ H → Prop where
  | missing (hr : s.connection.hasReconnector = false) :
    Reconnects d s (.error .missingReconnector) s
  | failed {e : Error} {w : σ} (hr : s.connection.hasReconnector)
      (hn : d.reconnect s.world = (.error e, w)) : Reconnects d s (.error e) (s.reconnected false w)
  | renewed {handles : H × Option H} {w : σ} (hr : s.connection.hasReconnector)
      (hn : d.reconnect s.world = (.ok handles, w)) :
      Reconnects d s (.ok ()) ((s.reconnected true w).adapt (·.over handles))

theorem reconnects : Reconnects d s ((reconnect d).on s).1 ((reconnect d).on s).2 := by
  cases hr : s.connection.hasReconnector with
  | false =>
    rw [reconnect_missing hr]
    exact .missing hr
  | true =>
    cases hn : d.reconnect s.world with | mk handles w
    cases handles with
    | ok handles =>
      rw [reconnect_ok hr hn]
      exact .renewed hr hn
    | error e =>
      rw [reconnect_error hr hn]
      exact .failed hr hn

/-- What can go on outside pretence, unless a handle is put in from outside. -/
inductive Moves (d : Driver σ H) : Session σ H → Session σ H → Prop where
  | quiet {s t : Session σ H} (hp : t.connection.pretending = s.connection.pretending)
      (hw : t.connection.write = s.connection.write) (hl : t.connection.level = s.connection.level)
      (ht : t.trace = s.trace) : Moves d s t
  | executed {s t : Session σ H} {useRead : Bool} {r : Request} {result : Except Error r.Reply}
      (hr : r.isStatement) (h : Executes d useRead r s result t) : Moves d s t
  | begun {s t : Session σ H} {result : Except Error Unit} (h : Begins d s result t) : Moves d s t
  | committed {s t : Session σ H} {result : Except Error Unit} (h : Commits d s result t) :
      Moves d s t
  | rolledBack {s t : Session σ H} {level : Nat} {result : Except Error Unit}
      (h : Rollbacks d s level result t) : Moves d s t
  | reconnected {s t : Session σ H} {result : Except Error Unit} (h : Reconnects d s result t) :
      Moves d s t
  | uncommitted {s : Session σ H} {e : Error} {w : σ} (h1 : s.connection.level = 1)
      (hd : d.send s.connection.write .commit s.world = (.error e, w)) :
      Moves d s ((s.sent s.connection.write .commit false w).adapt (·.atLevel 0))
  | abandoned {s : Session σ H} {level : Nat} (hl : level ≤ s.connection.level) :
      Moves d s (s.adapt (·.atLevel level))
  | trans {s t u : Session σ H} (h : Moves d s t) (h' : Moves d t u) : Moves d s u

theorem Moves.refl (s : Session σ H) : Moves d s s := .quiet rfl rfl rfl rfl

theorem Moves.grows (h : Moves d s t) : s.Grows t := by
  induction h with
  | quiet hp hw hl ht => exact ⟨hp, ht ▸ List.prefix_rfl⟩
  | executed hr h => exact h.grows
  | begun h => exact h.grows
  | committed h => exact h.grows
  | rolledBack h => exact h.grows
  | reconnected h => cases h <;> exact ⟨rfl, by simp⟩
  | uncommitted h1 hd => exact ⟨rfl, by simp⟩
  | abandoned hl => exact ⟨rfl, by simp⟩
  | trans h h' ih ih' => exact ih.trans ih'

theorem Issues.moves {γ : Type} {m : StateM (Session σ H) γ} {l : List (String × List Value)}
    (h : Issues d m s l) (hp : s.connection.pretending = false) : Moves d s (m.run s).2 := by
  refine h.brings (R := fun s _ t ↦ s.connection.pretending = false → Moves d s t)
    (fun s _ ↦ .refl s) (fun h h' hp ↦ ?_) (fun useRead r s hr hp ↦ ?_) hp
  · exact (h hp).trans (h' ((h hp).grows.outside hp))
  · exact .executed hr (executes hp)

/-- An attempt at a transaction moves up to its callback and on from there. Only after a callback
that has left the transaction nothing is asked of the driver, and a commit told of all the same. -/
theorem Tries.moves {body : Session σ H → Except Error α × Session σ H} {retries : Nat}
    {verdict : Verdict α} {run : Option (Run σ H α)} (h : Tries d body retries s verdict run t) :
    run = none ∧ Moves d s t ∨ ∃ r, run = some r ∧ Moves d s r.start ∧
      body r.start = (r.result, r.finish) ∧ (Moves d r.finish t ∨
        r.result.toBool ∧ r.finish.connection.level = 0 ∧ t = r.finish.left) := by
  cases h with
  | unbegun hb => exact .inl ⟨rfl, .begun hb⟩
  | committed hb hr h1 hd =>
    exact .inr ⟨_, rfl, .begun hb, hr, .inl (.committed (.committed h1 hd))⟩
  | uncommitted hb hr h1 hd => exact .inr ⟨_, rfl, .begun hb, hr, .inl (.uncommitted h1 hd)⟩
  | @left u v a hb hr h1 =>
    refine .inr ⟨_, rfl, .begun hb, hr, ?_⟩
    by_cases h0 : v.connection.level = 0
    · exact .inr ⟨rfl, h0, rfl⟩
    · have h2 : 1 < v.connection.level := by omega
      exact .inl (.committed (.left h2))
  | aborted hb hr hc h1 =>
    exact .inr ⟨_, rfl, .begun hb, hr, .inl (.abandoned (Nat.sub_le _ _))⟩
  | rolledBack hb hr hc ht => exact .inr ⟨_, rfl, .begun hb, hr, .inl (.rolledBack ht)⟩
  | stuck hb hr hc ht => exact .inr ⟨_, rfl, .begun hb, hr, .inl (.rolledBack ht)⟩

theorem Tries.run_ne_none {body : Session σ H → Except Error α × Session σ H} {retries : Nat}
    {verdict : Verdict α} {run : Option (Run σ H α)} {e : Error}
    (h : Tries d body retries s verdict run t) (hv : verdict = .again e) : run ≠ none := by
  cases h with
  | unbegun hb => cases hv
  | _ => nofun

end Session

namespace Command

open FluentSql.Action Session

theorem on_bind_pure {a : Action σ H α} {f : α → β} :
    ((a >>= fun x ↦ pure (f x)).on s).2 = (a.on s).2 := by
  cases h : a.on s with | mk result t
  cases result with
  | ok x => rw [on_bind_ok h, on_pure]
  | error e => rw [on_bind_error h]

/-- Whatever a command does outside pretence is a move, but for a handle that is put in. -/
theorem perform_moves (c : Command σ H) (hp : s.connection.pretending = false) :
    (∃ h, c = .setWrite h) ∨
      (∀ h, c ≠ .setWrite h) ∧ Moves d s ((c.perform d).on s).2 := by
  by_cases hc : ∃ h, c = .setWrite h
  · exact .inl hc
  refine .inr ⟨fun h he ↦ hc ⟨h, he⟩, ?_⟩
  by_cases hs : c.isStatement
  · obtain ⟨l, hl⟩ := c.stated_perform (d := d) hs s
    exact hl.moves hp
  cases c with
  | begin =>
    rw [perform, on_bind_pure]
    exact .begun (begins hp)
  | commit =>
    rw [perform, on_bind_pure]
    exact .committed (commits hp)
  | rollback level =>
    rw [perform, on_bind_pure]
    exact .rolledBack (rollbacks hp level)
  | reconnect =>
    rw [perform, on_bind_pure]
    exact .reconnected reconnects
  | setWrite handle => exact absurd ⟨handle, rfl⟩ hc
  | save name source =>
    obtain ⟨l, hl⟩ := source.stated_query (d := d) s
    have hq : Moves d s (source.query.on s).2 := hl.moves hp
    rw [perform]
    cases h : source.query.on s with | mk result t
    rw [h] at hq
    cases result with
    | ok q =>
      rw [on_bind_ok h]
      exact hq.trans (.quiet rfl rfl rfl rfl)
    | error e =>
      rw [on_bind_error h]
      exact hq
  | _ => first | exact absurd rfl hs | exact .quiet rfl rfl rfl rfl

end Command

/-- What is done with a connection, each step of which may depend on all answers so far and on the
session. Transactions and pretences have programs of their own for callbacks. -/
inductive Program (σ H : Type) : Type → Type 1 where
  | done {α : Type} (a : α) : Program σ H α
  | consult {α τ : Type} (look : Session σ H → τ × σ) (next : τ → Program σ H α) : Program σ H α
  | perform {α : Type} (c : Command σ H) (next : Except Error (Answer H) → Program σ H α) :
      Program σ H α
  | transaction {α β : Type} (attempts : Nat) (body : Program σ H (Except Error β))
      (next : Except Error β → Program σ H α) : Program σ H α
  | pretend {α : Type} (body : Program σ H (Except Error Unit))
      (next : Except Error (List (String × List Value)) → Program σ H α) : Program σ H α

namespace Program

open FluentSql.Action Procedure

def pretended (body : Session σ H → Except Error Unit × Session σ H) (s : Session σ H) :
    Except Error (List (String × List Value)) × Session σ H :=
  let ((result, _), t) := (Session.pretend fun u ↦ (((body u).1, ()), (body u).2)).run s
  (result, t)

variable (d) in
def exec {α : Type} : Program σ H α → Session σ H → α × Session σ H
  | done a, s => (a, s)
  | consult look next, s => exec (next (look s).1) { s with world := (look s).2 }
  | perform c next, s =>
    let (answer, t) := (c.perform d).on s
    exec (next answer) t
  | transaction attempts body next, s =>
    let ((result, _), t) := transact d attempts (exec body) s
    exec (next result) t
  | pretend body next, s =>
    let (result, t) := pretended (exec body) s
    exec (next result) t

def Plain {α : Type} : Program σ H α → Prop
  | done _ => True
  | consult _ next => ∀ x, Plain (next x)
  | perform _ next => ∀ answer, Plain (next answer)
  | transaction _ body next => Plain body ∧ ∀ result, Plain (next result)
  | pretend .. => False

section

variable {c : Command σ H} {next : Except Error (Answer H) → Program σ H α}

theorem exec_perform : (perform c next).exec d s =
    (next ((c.perform d).on s).1).exec d ((c.perform d).on s).2 := rfl

theorem exec_transaction {attempts : Nat} {body : Program σ H (Except Error β)}
    {next : Except Error β → Program σ H α} : (transaction attempts body next).exec d s =
      (next (transact d attempts (body.exec d) s).1.1).exec d
        (transact d attempts (body.exec d) s).2 := rfl

theorem exec_pretend {body : Program σ H (Except Error Unit)}
    {next : Except Error (List (String × List Value)) → Program σ H α} :
    (pretend body next).exec d s =
      (next (pretended (body.exec d) s).1).exec d (pretended (body.exec d) s).2 := rfl

end

theorem perform_grows (c : Command σ H) (hp : s.connection.pretending = false) :
    s.Grows ((c.perform d).on s).2 := by
  obtain ⟨h, rfl⟩ | ⟨-, hm⟩ := c.perform_moves (d := d) hp
  · exact ⟨rfl, List.prefix_rfl⟩
  · exact hm.grows

theorem grows_exec (p : Program σ H α) (hq : p.Plain) (hp : s.connection.pretending = false) :
    s.Grows (p.exec d s).2 := by
  induction p generalizing s with
  | done a => exact s.grows_refl
  | consult look next ih =>
    have hs : s.Grows { s with world := (look s).2 } := ⟨rfl, List.prefix_rfl⟩
    exact hs.trans (ih _ (hq _) hp)
  | perform c next ih =>
    have hs := perform_grows (d := d) c hp
    exact hs.trans (ih _ (hq _) (hs.outside hp))
  | transaction attempts body next ihb ih =>
    have hbody (u : Session σ H) (hu : u.connection.pretending = false) :
        u.Grows (body.exec d u).2 := ihb hq.1 hu
    obtain ⟨list, result, t, ht, h⟩ := transact_repeats (d := d) attempts hbody hp
    have hs := h.grows hbody hp
    rw [exec_transaction, ht]
    exact hs.trans (ih _ (hq.2 _) (hs.outside hp))
  | pretend body next ihb ih => exact hq.elim

end Program

end FluentSql
