import FluentSql.Proofs.Session.Actions
import FluentSql.Session.Script
import Mathlib.Tactic.Common

namespace FluentSql

variable {σ H : Type}

def Connection.over (c : Connection H) (handles : H × Option H) : Connection H :=
  { c with write := handles.1, read := handles.2, level := 0 }

def Connection.marked (c : Connection H) (changed : Bool) : Connection H :=
  { c with recordsModified := c.recordsModified || changed }

def Connection.logged (c : Connection H) (sql : String) (bindings : List Value) : Connection H :=
  { c with queryLog := c.queryLog ++ if c.logging then [(sql, bindings)] else [] }

section

variable (c : Connection H) (handles : H × Option H) (changed : Bool) (sql : String)
  (bindings : List Value)

theorem Connection.marked_false : c.marked false = c := by
  unfold marked
  rw [Bool.or_false]

theorem Connection.marked_true : c.marked true = { c with recordsModified := true } := by
  unfold marked
  rw [Bool.or_true]

theorem Connection.ite_logging :
    (if c.logging then { c with queryLog := c.queryLog ++ [(sql, bindings)] } else c) =
      c.logged sql bindings := by
  unfold logged
  split
  · rfl
  · rw [List.append_nil]

@[simp] theorem Connection.write_over : (c.over handles).write = handles.1 := rfl

@[simp] theorem Connection.read_over : (c.over handles).read = handles.2 := rfl

@[simp] theorem Connection.level_over : (c.over handles).level = 0 := rfl

@[simp] theorem Connection.pretending_over : (c.over handles).pretending = c.pretending := rfl

@[simp] theorem Connection.queryLog_over : (c.over handles).queryLog = c.queryLog := rfl

@[simp] theorem Connection.write_marked : (c.marked changed).write = c.write := rfl

@[simp] theorem Connection.read_marked : (c.marked changed).read = c.read := rfl

@[simp] theorem Connection.level_marked : (c.marked changed).level = c.level := rfl

@[simp] theorem Connection.pretending_marked : (c.marked changed).pretending = c.pretending := rfl

@[simp] theorem Connection.write_logged : (c.logged sql bindings).write = c.write := rfl

@[simp] theorem Connection.read_logged : (c.logged sql bindings).read = c.read := rfl

@[simp] theorem Connection.level_logged : (c.logged sql bindings).level = c.level := rfl

@[simp] theorem Connection.pretending_logged : (c.logged sql bindings).pretending = c.pretending := rfl

end

namespace Session

open FluentSql.Action

variable {d : Driver σ H} {useRead : Bool} {r : Request} {s t : Session σ H} {e e' : Error}
  {w w' w'' : σ}

theorem reconnect_missing (hr : s.connection.hasReconnector = false) :
    (reconnect d).on s = (.error .missingReconnector, s) := by
  unfold reconnect
  rw [on_current_bind, hr]
  rfl

theorem reconnect_error (hr : s.connection.hasReconnector)
    (hd : d.reconnect s.world = (.error e, w)) :
    (reconnect d).on s = (.error e, s.reconnected false w) := by
  unfold reconnect
  rw [on_current_bind, hr]
  simp only [Bool.not_true, Bool.false_eq_true, if_false, on_get_bind, on_set_bind, hd]
  rfl

theorem reconnect_ok {handles : H × Option H} (hr : s.connection.hasReconnector)
    (hd : d.reconnect s.world = (.ok handles, w)) :
    (reconnect d).on s = (.ok (), (s.reconnected true w).adapt (·.over handles)) := by
  unfold reconnect
  rw [on_current_bind, hr]
  simp only [Bool.not_true, Bool.false_eq_true, if_false, on_get_bind, on_set_bind, hd]
  rfl

theorem attempt_ok {reply : r.Reply} (hp : s.connection.pretending = false)
    (hd : d.send (handleFor s.connection useRead r) r s.world = (.ok reply, w)) :
    (attempt d useRead r).on s = (.ok reply,
      (s.sent (handleFor s.connection useRead r) r true w).adapt (·.marked (r.changed reply))) := by
  unfold attempt
  rw [on_current_bind, hp]
  simp only [Bool.false_eq_true, if_false, on_observe_bind, on_send_ok hd]
  cases r.changed reply
  · simp only [adapt, Connection.marked_false]
    rfl
  · simp only [adapt, Connection.marked_true]
    rfl

theorem attempt_error (hp : s.connection.pretending = false)
    (hd : d.send (handleFor s.connection useRead r) r s.world = (.error e, w)) :
    (attempt d useRead r).on s =
      (.error (e.classify r.sql r.bindings), s.sent (handleFor s.connection useRead r) r false w) := by
  unfold attempt
  rw [on_current_bind, hp]
  simp only [Bool.false_eq_true, if_false, on_observe_bind, on_send_error hd, on_throw]

theorem logStatement_on (sql : String) (bindings : List Value) :
    (logStatement sql bindings).on s =
      (.ok (), (s.announced (.executed · sql bindings)).adapt (·.logged sql bindings)) := by
  unfold logStatement
  rw [on_bind_ok on_announce, on_modifyConnection]
  simp only [adapt, Connection.ite_logging]

section

variable (d : Driver σ H) (useRead : Bool) (r : Request) (s : Session σ H)

def target : H := handleFor s.connection useRead r

def tried (ok : Bool) (w : σ) : Session σ H := s.sent (s.target useRead r) r ok w

def answered (reply : r.Reply) (w : σ) : Session σ H :=
  (((s.tried useRead r true w).adapt (·.marked (r.changed reply))).announced
    (.executed · r.sql r.bindings)).adapt (·.logged r.sql r.bindings)

def renewed (handles : H × Option H) (w w' : σ) : Session σ H :=
  ((s.tried useRead r false w).reconnected true w').adapt (·.over handles)

/-- Whether a statement meets a lost connection with no transaction open. -/
def Loses (w : σ) : Prop :=
  s.connection.level = 0 ∧ ∃ e, d.send (s.target useRead r) r s.world = (.error e, w) ∧
    (e.classify r.sql r.bindings).isConnectionLost

def Renews (handles : H × Option H) (w : σ) : Prop :=
  s.connection.hasReconnector ∧ ∃ w', s.Loses d useRead r w' ∧ d.reconnect w' = (.ok handles, w)

inductive Executes : Except Error r.Reply → Session σ H → Prop where
  | answered {reply : r.Reply} {w : σ}
      (hd : d.send (s.target useRead r) r s.world = (.ok reply, w)) :
      Executes (.ok reply) (s.answered useRead r reply w)
  | failed {e : Error} {w : σ} (hd : d.send (s.target useRead r) r s.world = (.error e, w))
      (hl : ¬ s.Loses d useRead r w) :
      Executes (.error (e.classify r.sql r.bindings)) (s.tried useRead r false w)
  | unrenewable {w : σ} (hl : s.Loses d useRead r w) (hr : s.connection.hasReconnector = false) :
      Executes (.error .missingReconnector) (s.tried useRead r false w)
  | unrenewed {e : Error} {w w' : σ} (hl : s.Loses d useRead r w)
      (hr : s.connection.hasReconnector) (hn : d.reconnect w = (.error e, w')) :
      Executes (.error e) ((s.tried useRead r false w).reconnected false w')
  | answeredAgain {handles : H × Option H} {reply : r.Reply} {w w' w'' : σ}
      (hl : s.Loses d useRead r w) (hr : s.connection.hasReconnector)
      (hn : d.reconnect w = (.ok handles, w'))
      (hd : d.send ((s.renewed useRead r handles w w').target useRead r) r w' = (.ok reply, w'')) :
      Executes (.ok reply) ((s.renewed useRead r handles w w').answered useRead r reply w'')
  | failedAgain {handles : H × Option H} {e : Error} {w w' w'' : σ}
      (hl : s.Loses d useRead r w) (hr : s.connection.hasReconnector)
      (hn : d.reconnect w = (.ok handles, w'))
      (hd : d.send ((s.renewed useRead r handles w w').target useRead r) r w' = (.error e, w'')) :
      Executes (.error (e.classify r.sql r.bindings))
        ((s.renewed useRead r handles w w').tried useRead r false w'')

end

theorem attemptAgain_throw (h : t.connection.level = 0 → e.isConnectionLost = false) :
    (attemptAgain d useRead r e).on t = (.error e, t) := by
  unfold attemptAgain
  rw [on_current_bind]
  by_cases h0 : t.connection.level = 0
  · simp only [h0, Nat.lt_irrefl, decide_false, h h0, Bool.not_false, Bool.or_true, if_true]
    rfl
  · simp only [Nat.pos_of_ne_zero h0, decide_true, Bool.true_or, if_true]
    rfl

theorem attemptAgain_reconnect (h0 : t.connection.level = 0) (hl : e.isConnectionLost) :
    (attemptAgain d useRead r e).on t =
      (reconnect d >>= fun _ ↦ attempt d useRead r).on t := by
  unfold attemptAgain
  rw [on_current_bind, h0, hl]
  rfl

def logReply (r : Request) (reply : r.Reply) : Action σ H r.Reply := do
  logStatement r.sql r.bindings
  return reply

theorem on_logReply {reply : r.Reply} : (logReply r reply).on t = (.ok reply,
    (t.announced (.executed · r.sql r.bindings)).adapt (·.logged r.sql r.bindings)) := by
  unfold logReply
  rw [on_bind_ok (logStatement_on _ _), on_pure]

theorem execute_ok {reply : r.Reply} (ha : (attempt d useRead r).on s = (.ok reply, t)) :
    (execute d useRead r).on s = (logReply r reply).on t := by
  unfold execute
  rw [on_observe_bind, ha]
  rfl

theorem execute_error (ha : (attempt d useRead r).on s = (.error e, t)) :
    (execute d useRead r).on s = (attemptAgain d useRead r e >>= logReply r).on t := by
  unfold execute
  rw [on_observe_bind, ha]
  rfl

theorem execute_failed (hp : s.connection.pretending = false)
    (hd : d.send (s.target useRead r) r s.world = (.error e, w)) (hl : ¬ s.Loses d useRead r w) :
    (execute d useRead r).on s =
      (.error (e.classify r.sql r.bindings), s.tried useRead r false w) := by
  rw [execute_error (attempt_error hp hd)]
  apply on_bind_error
  apply attemptAgain_throw
  intro h0
  by_contra hl'
  exact hl ⟨h0, e, hd, by simpa using hl'⟩

theorem execute_unrenewed (hp : s.connection.pretending = false) (hl : s.Loses d useRead r w)
    (hn : (reconnect d).on (s.tried useRead r false w) = (.error e, t)) :
    (execute d useRead r).on s = (.error e, t) := by
  obtain ⟨h0, _, hd, hl⟩ := hl
  rw [execute_error (attempt_error hp hd)]
  apply on_bind_error
  exact (attemptAgain_reconnect (t := s.tried useRead r false w) h0 hl).trans (on_bind_error hn)

theorem execute_again (hp : s.connection.pretending = false) (hl : s.Loses d useRead r w)
    (hn : (reconnect d).on (s.tried useRead r false w) = (.ok (), t)) :
    (execute d useRead r).on s = (attempt d useRead r >>= logReply r).on t := by
  obtain ⟨h0, _, hd, hl⟩ := hl
  rw [execute_error (attempt_error hp hd)]
  apply on_bind_congr
  exact (attemptAgain_reconnect (t := s.tried useRead r false w) h0 hl).trans (on_bind_ok hn)

theorem executes (hp : s.connection.pretending = false) :
    Executes d useRead r s ((execute d useRead r).on s).1 ((execute d useRead r).on s).2 := by
  by_cases hl : ∃ w, s.Loses d useRead r w
  · obtain ⟨w, hl⟩ := hl
    cases hr : s.connection.hasReconnector with
    | false =>
      rw [execute_unrenewed hp hl (reconnect_missing hr)]
      exact .unrenewable hl hr
    | true =>
      cases hn : d.reconnect w with | mk handles w'
      cases handles with
      | error e =>
        rw [execute_unrenewed hp hl (reconnect_error hr hn)]
        exact .unrenewed hl hr hn
      | ok handles =>
        let u := s.renewed useRead r handles w w'
        rw [execute_again (t := u) hp hl (reconnect_ok hr hn)]
        cases hd : d.send (u.target useRead r) r w' with | mk answer w''
        cases answer with
        | ok reply =>
          rw [on_bind_ok (attempt_ok (s := u) hp hd), on_logReply]
          exact .answeredAgain hl hr hn hd
        | error e =>
          rw [on_bind_error (attempt_error (s := u) hp hd)]
          exact .failedAgain hl hr hn hd
  · cases hd : d.send (s.target useRead r) r s.world with | mk answer w
    cases answer with
    | ok reply =>
      rw [execute_ok (attempt_ok hp hd), on_logReply]
      exact .answered hd
    | error e =>
      have hl : ¬ s.Loses d useRead r w := fun h ↦ hl ⟨w, h⟩
      rw [execute_failed hp hd hl]
      exact .failed hd hl

theorem Executes.grows {result : Except Error r.Reply} (h : Executes d useRead r s result t) :
    s.Grows t := by
  constructor <;> cases h <;> simp [Session.answered, renewed, tried]

/-- The bounds on a statement that led from `s` to `t`, by what it added to the trace and by the
handles it was sent to with their answers. -/
structure Bounded (d : Driver σ H) (useRead : Bool) (r : Request) (s : Session σ H)
    (result : Except Error r.Reply) (t : Session σ H) (added : List (Entry H))
    (answers : List (H × Except Error r.Reply)) : Prop where
  trace : t.trace = s.trace ++ added
  sends : Entry.sends added = answers.map fun a ↦ (a.1, r, a.2.toBool)
  once_or_twice : answers.length = 1 ∨ answers.length = 2
  first : answers.head? = some (s.target useRead r, (d.send (s.target useRead r) r s.world).1)
  twice_iff : answers.length = 2 ↔ ∃ handles w, s.Renews d useRead r handles w
  second : ∀ a, answers[1]? = some a → ∃ handles w, s.Renews d useRead r handles w ∧
    a.1 = handleFor (s.connection.over handles) useRead r ∧ a.2 = (d.send a.1 r w).1 ∧
    t.connection.write = handles.1 ∧ t.connection.read = handles.2
  reconnections : (Entry.reconnections added).length ≤ 1
  inside : 0 < s.connection.level → Entry.reconnections added = [] ∧
    t.connection.write = s.connection.write ∧ t.connection.read = s.connection.read ∧
    t.connection.level = s.connection.level
  succeeded : ∀ reply, result = .ok reply →
    answers.getLast?.map Prod.snd = some (.ok reply) ∧
      Entry.events added =
        (if s.connection.hasSink then [.executed s.connection.name r.sql r.bindings] else []) ∧
      t.connection.queryLog = s.connection.queryLog ++
        (if s.connection.logging then [(r.sql, r.bindings)] else [])
  failed : ∀ e, result = .error e →
    Entry.events added = [] ∧ t.connection.queryLog = s.connection.queryLog
  cause : ∀ e, result = .error e →
    (∃ e', answers.getLast?.map Prod.snd = some (.error e') ∧ e.root = e'.root ∧
      e.sql? = some r.sql ∧ e.bindings? = some r.bindings) ∨
    ∃ w, s.Loses d useRead r w ∧
      (s.connection.hasReconnector = false ∧ e = .missingReconnector ∨
        s.connection.hasReconnector ∧ (d.reconnect w).1 = .error e)

theorem Loses.unique (h : s.Loses d useRead r w) (h' : s.Loses d useRead r w') : w = w' := by
  obtain ⟨_, e, hd, _⟩ := h
  obtain ⟨_, e', hd', _⟩ := h'
  exact congrArg Prod.snd (hd.symm.trans hd')

theorem Loses.not_ok (h : s.Loses d useRead r w) {reply : r.Reply} :
    d.send (s.target useRead r) r s.world ≠ (.ok reply, w') := by
  obtain ⟨_, e, hd, _⟩ := h
  simp [hd]

@[simp] theorem announcement_over {event : String → Event} {c : Connection H}
    {handles : H × Option H} : announcement event (c.over handles) = announcement event c := rfl

@[simp] theorem announcement_marked {event : String → Event} {c : Connection H} {changed : Bool} :
    announcement event (c.marked changed) = announcement event c := rfl

theorem Executes.bounded {result : Except Error r.Reply} (h : Executes d useRead r s result t) :
    ∃ added answers, Bounded d useRead r s result t added answers := by
  cases h with
  | @answered reply w hd =>
    have hn (handles w') : ¬ s.Renews d useRead r handles w' := fun ⟨_, _, hl, _⟩ ↦ hl.not_ok hd
    refine ⟨.sent (s.target useRead r) r true ::
      announcement (.executed · r.sql r.bindings) s.connection,
      [(s.target useRead r, .ok reply)], ?_⟩
    constructor <;> simp [Session.answered, tried, hd, hn, Except.toBool]
    rfl
  | @failed e w hd hl =>
    have hn (handles w') : ¬ s.Renews d useRead r handles w' := by
      rintro ⟨_, w₁, hl₁, _⟩
      obtain ⟨_, _, hd₁, _⟩ := id hl₁
      cases hd.symm.trans hd₁
      exact hl hl₁
    refine ⟨[.sent (s.target useRead r) r false], [(s.target useRead r, .error e)], ?_⟩
    constructor <;> simp [tried, hd, hn, Except.toBool]
  | @unrenewable w hl hr =>
    have hn (handles w') : ¬ s.Renews d useRead r handles w' := by simp [Renews, hr]
    obtain ⟨_, e, hd, _⟩ := id hl
    have hc : ∃ w, s.Loses d useRead r w := ⟨w, hl⟩
    refine ⟨[.sent (s.target useRead r) r false], [(s.target useRead r, .error e)], ?_⟩
    constructor <;> simp [tried, hd, hn, hr, hc, Except.toBool]
  | @unrenewed e w w' hl hr he =>
    have hn (handles w'') : ¬ s.Renews d useRead r handles w'' := by
      rintro ⟨_, w₁, hl₁, he₁⟩
      cases hl.unique hl₁
      cases he.symm.trans he₁
    obtain ⟨h0, e₁, hd, _⟩ := id hl
    have hc : ∃ w, s.Loses d useRead r w ∧ (d.reconnect w).1 = .error e := ⟨w, hl, by rw [he]⟩
    refine ⟨[.sent (s.target useRead r) r false, .reconnected false],
      [(s.target useRead r, .error e₁)], ?_⟩
    constructor <;> simp [tried, hd, hn, h0, hr, hc, Except.toBool]
  | @answeredAgain handles reply w w' w'' hl hr he hd =>
    have hn : s.Renews d useRead r handles w' := ⟨hr, w, hl, he⟩
    obtain ⟨h0, e, hd₁, _⟩ := id hl
    refine ⟨[.sent (s.target useRead r) r false, .reconnected true,
      .sent ((s.renewed useRead r handles w w').target useRead r) r true] ++
        announcement (.executed · r.sql r.bindings) s.connection,
      [(s.target useRead r, .error e),
        ((s.renewed useRead r handles w w').target useRead r, .ok reply)], ?_⟩
    constructor
    case twice_iff => exact ⟨fun _ ↦ ⟨handles, w', hn⟩, fun _ ↦ rfl⟩
    case second =>
      rintro _ ⟨⟩
      exact ⟨handles, w', hn, rfl, by rw [hd], by simp [Session.answered, renewed, tried]⟩
    all_goals simp [Session.answered, renewed, tried, hd₁, h0, Except.toBool]
    rfl
  | @failedAgain handles e w w' w'' hl hr he hd =>
    have hn : s.Renews d useRead r handles w' := ⟨hr, w, hl, he⟩
    obtain ⟨h0, e₁, hd₁, _⟩ := id hl
    refine ⟨[.sent (s.target useRead r) r false, .reconnected true,
      .sent ((s.renewed useRead r handles w w').target useRead r) r false],
      [(s.target useRead r, .error e₁),
        ((s.renewed useRead r handles w w').target useRead r, .error e)], ?_⟩
    constructor
    case twice_iff => exact ⟨fun _ ↦ ⟨handles, w', hn⟩, fun _ ↦ rfl⟩
    case second =>
      rintro _ ⟨⟩
      exact ⟨handles, w', hn, rfl, by rw [hd], rfl, rfl⟩
    all_goals simp [renewed, tried, hd₁, h0, Except.toBool]

/-- Every statement is sent once or twice, and twice only over new handles outside a transaction;
it is told of and logged once if it succeeds, and carried by its failure otherwise. -/
theorem execute_bounded (d : Driver σ H) (useRead : Bool) (r : Request) (s : Session σ H)
    (hp : s.connection.pretending = false) :
    ∃ added answers, Bounded d useRead r s ((execute d useRead r).on s).1
      ((execute d useRead r).on s).2 added answers :=
  (executes hp).bounded

def lostOnce : Session Script String :=
  { connection :=
      { write := "write", hasReconnector := true, grammar := { dialect := .mysql },
        processor := .mysql }
    world := { selects := [.error (.driver "MySQL server has gone away")] } }

theorem execute_bounded_lostOnce : lostOnce.connection.pretending = false ∧
    ∃ added answers, answers.length = 2 ∧
      Bounded Script.driver true (.select "select 1" []) lostOnce
        ((execute Script.driver true (.select "select 1" [])).on lostOnce).1
        ((execute Script.driver true (.select "select 1" [])).on lostOnce).2 added answers := by
  have hp : lostOnce.connection.pretending = false := rfl
  obtain ⟨added, answers, h⟩ :=
    execute_bounded Script.driver true (.select "select 1" []) lostOnce hp
  have hn : ∃ handles w,
      lostOnce.Renews Script.driver true (.select "select 1" []) handles w :=
    ⟨_, _, rfl, _, ⟨rfl, _, rfl, by decide +kernel⟩, rfl⟩
  exact ⟨hp, added, answers, h.twice_iff.mpr hn, h⟩

end Session

end FluentSql
