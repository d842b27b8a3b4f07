import FluentSql.Proofs.Session.Reconnecting
import FluentSql.Session.Transaction

namespace FluentSql

variable {σ H : Type}

def Connection.atLevel (c : Connection H) (level : Nat) : Connection H :=
  { c with level }

namespace Session

open FluentSql.Action

section

variable (d : Driver σ H) (s : Session σ H)

def raised : Session σ H :=
  (s.adapt fun c ↦ c.atLevel (c.level + 1)).announced .beginning

def lowered (level : Nat) : Session σ H :=
  (s.adapt (·.atLevel level)).announced .rolledBack

def left : Session σ H :=
  let t := s.adapt fun c ↦ c.atLevel (c.level - 1)
  if t.connection.level = 0 then t.announced .committed else t

/-- Where a request that is not answered leaves the level. -/
def broken (e : Error) : Session σ H :=
  if e.causedByLostConnection then s.adapt (·.atLevel 0) else s

def savepointRequest : Request :=
  .unprepared (s.connection.grammar.savepoint (savepointName (s.connection.level + 1)))

def restoreRequest (level : Nat) : Request :=
  .unprepared (s.connection.grammar.savepointRollback (savepointName (level + 1)))

inductive Begins : Except Error Unit → Session σ H → Prop where
  | opened {w : σ} (h0 : s.connection.level = 0)
      (hd : d.send s.connection.write .begin s.world = (.ok (), w)) :
      Begins (.ok ()) (s.sent s.connection.write .begin true w).raised
  | failed {e : Error} {w : σ} (h0 : s.connection.level = 0)
      (hd : d.send s.connection.write .begin s.world = (.error e, w))
      (he : e.causedByLostConnection = false) :
      Begins (.error e) (s.sent s.connection.write .begin false w)
  | unrenewable {e : Error} {w : σ} (h0 : s.connection.level = 0)
      (hd : d.send s.connection.write .begin s.world = (.error e, w))
      (he : e.causedByLostConnection) (hr : s.connection.hasReconnector = false) :
      Begins (.error .missingReconnector) (s.sent s.connection.write .begin false w)
  | unrenewed {e e' : Error} {w w' : σ} (h0 : s.connection.level = 0)
      (hd : d.send s.connection.write .begin s.world = (.error e, w))
      (he : e.causedByLostConnection) (hr : s.connection.hasReconnector)
      (hn : d.reconnect w = (.error e', w')) :
      Begins (.error e') ((s.sent s.connection.write .begin false w).reconnected false w')
  | openedAgain {e : Error} {handles : H × Option H} {w w' w'' : σ} (h0 : s.connection.level = 0)
      (hd : d.send s.connection.write .begin s.world = (.error e, w))
      (he : e.causedByLostConnection) (hr : s.connection.hasReconnector)
      (hn : d.reconnect w = (.ok handles, w'))
      (hd' : d.send handles.1 .begin w' = (.ok (), w'')) :
      Begins (.ok ()) (((((s.sent s.connection.write .begin false w).reconnected true w').adapt
        (·.over handles)).sent handles.1 .begin true w'').raised)
  | failedAgain {e e' : Error} {handles : H × Option H} {w w' w'' : σ}
      (h0 : s.connection.level = 0)
      (hd : d.send s.connection.write .begin s.world = (.error e, w))
      (he : e.causedByLostConnection) (hr : s.connection.hasReconnector)
      (hn : d.reconnect w = (.ok handles, w'))
      (hd' : d.send handles.1 .begin w' = (.error e', w'')) :
      Begins (.error e') ((((s.sent s.connection.write .begin false w).reconnected true w').adapt
        (·.over handles)).sent handles.1 .begin false w'')
  | marked {done : Bool} {w : σ} (h0 : s.connection.level ≠ 0)
      (hs : s.connection.grammar.supportsSavepoints)
      (hd : d.send s.connection.write s.savepointRequest s.world = (.ok done, w)) :
      Begins (.ok ()) (s.sent s.connection.write s.savepointRequest true w).raised
  | unmarked {e : Error} {w : σ} (h0 : s.connection.level ≠ 0)
      (hs : s.connection.grammar.supportsSavepoints)
      (hd : d.send s.connection.write s.savepointRequest s.world = (.error e, w)) :
      Begins (.error e) (s.sent s.connection.write s.savepointRequest false w)
  | counted (h0 : s.connection.level ≠ 0)
      (hs : s.connection.grammar.supportsSavepoints = false) :
      Begins (.ok ()) s.raised

inductive Commits : Except Error Unit → Session σ H → Prop where
  | outside (h0 : s.connection.level = 0) : Commits (.ok ()) s
  | committed {w : σ} (h1 : s.connection.level = 1)
      (hd : d.send s.connection.write .commit s.world = (.ok (), w)) :
      Commits (.ok ()) (s.sent s.connection.write .commit true w).left
  | failed {e : Error} {w : σ} (h1 : s.connection.level = 1)
      (hd : d.send s.connection.write .commit s.world = (.error e, w)) :
      Commits (.error e) ((s.sent s.connection.write .commit false w).broken e)
  | left (h1 : 1 < s.connection.level) : Commits (.ok ()) s.left

inductive Rollbacks (level : Nat) : Except Error Unit → Session σ H → Prop where
  | outside (hl : s.connection.level ≤ level) : Rollbacks level (.ok ()) s
  | undone {w : σ} (hl : level < s.connection.level) (h0 : level = 0)
      (hd : d.send s.connection.write .rollback s.world = (.ok (), w)) :
      Rollbacks level (.ok ()) ((s.sent s.connection.write .rollback true w).lowered level)
  | failed {e : Error} {w : σ} (hl : level < s.connection.level) (h0 : level = 0)
      (hd : d.send s.connection.write .rollback s.world = (.error e, w)) :
      Rollbacks level (.error e) ((s.sent s.connection.write .rollback false w).broken e)
  | restored {done : Bool} {w : σ} (hl : level < s.connection.level) (h0 : level ≠ 0)
      (hs : s.connection.grammar.supportsSavepoints)
      (hd : d.send s.connection.write (s.restoreRequest level) s.world = (.ok done, w)) :
      Rollbacks level (.ok ())
        ((s.sent s.connection.write (s.restoreRequest level) true w).lowered level)
  | unrestored {e : Error} {w : σ} (hl : level < s.connection.level) (h0 : level ≠ 0)
      (hs : s.connection.grammar.supportsSavepoints)
      (hd : d.send s.connection.write (s.restoreRequest level) s.world = (.error e, w)) :
      Rollbacks level (.error e)
        ((s.sent s.connection.write (s.restoreRequest level) false w).broken e)
  | counted (hl : level < s.connection.level) (h0 : level ≠ 0)
      (hs : s.connection.grammar.supportsSavepoints = false) :
      Rollbacks level (.ok ()) (s.lowered level)

end

section

variable (s : Session σ H) (level : Nat) (event : String → Event) (c : Connection H)

@[simp] theorem level_atLevel : (c.atLevel level).level = level := rfl

@[simp] theorem write_atLevel : (c.atLevel level).write = c.write := rfl

@[simp] theorem pretending_atLevel : (c.atLevel level).pretending = c.pretending := rfl

@[simp] theorem connection_raised :
    s.raised.connection = s.connection.atLevel (s.connection.level + 1) := rfl

@[simp] theorem trace_raised :
    s.raised.trace = s.trace ++ announcement .beginning s.connection := rfl

@[simp] theorem connection_lowered :
    (s.lowered level).connection = s.connection.atLevel level := rfl

@[simp] theorem trace_lowered :
    (s.lowered level).trace = s.trace ++ announcement .rolledBack s.connection := rfl

@[simp] theorem connection_left :
    s.left.connection = s.connection.atLevel (s.connection.level - 1) := by
  unfold left
  dsimp only
  split <;> rfl

def leaving : List (Entry H) :=
  if s.connection.level - 1 = 0 then announcement .committed s.connection else []

@[simp] theorem trace_left : s.left.trace = s.trace ++ s.leaving := by
  by_cases h : s.connection.level - 1 = 0
  · have hl : s.left = (s.adapt fun c ↦ c.atLevel (c.level - 1)).announced .committed := if_pos h
    rw [hl, leaving, if_pos h]
    rfl
  · have hl : s.left = s.adapt fun c ↦ c.atLevel (c.level - 1) := if_neg h
    rw [hl, leaving, if_neg h, List.append_nil]
    rfl

@[simp] theorem sends_leaving : Entry.sends s.leaving = [] := by
  unfold leaving
  split
  · exact sends_announcement _ _
  · rfl

theorem level_broken (e : Error) : (s.broken e).connection.level =
    if e.causedByLostConnection then 0 else s.connection.level := by
  unfold broken
  split <;> rfl

theorem level_broken_le (e : Error) : (s.broken e).connection.level ≤ s.connection.level := by
  rw [level_broken]
  split
  · exact Nat.zero_le _
  · exact Nat.le_refl _

@[simp] theorem write_broken (e : Error) :
    (s.broken e).connection.write = s.connection.write := by
  unfold broken
  split <;> rfl

@[simp] theorem pretending_broken (e : Error) :
    (s.broken e).connection.pretending = s.connection.pretending := by
  unfold broken
  split <;> rfl

@[simp] theorem trace_broken (e : Error) : (s.broken e).trace = s.trace := by
  unfold broken
  split <;> rfl

end

variable {d : Driver σ H} {s t : Session σ H} {e : Error} {w : σ} {level : Nat}

theorem Begins.grows {result : Except Error Unit} (h : Begins d s result t) : s.Grows t := by
  constructor <;> cases h <;> simp

theorem Commits.grows {result : Except Error Unit} (h : Commits d s result t) : s.Grows t := by
  constructor <;> cases h <;> simp

theorem Rollbacks.grows {result : Except Error Unit} (h : Rollbacks d s level result t) :
    s.Grows t := by
  constructor <;> cases h <;> simp

theorem failClosing_on {α : Type} : (failClosing e : Action σ H α).on s = (.error e, s.broken e) := by
  unfold failClosing broken
  cases e.causedByLostConnection
  · rfl
  · rfl

theorem announceCommitted_on : (announceCommitted : Action σ H Unit).on s =
    (.ok (), if s.connection.level = 0 then s.announced .committed else s) := by
  unfold announceCommitted
  rw [on_current_bind]
  split
  · exact on_announce
  · rfl

theorem leave_on : (modifyConnection (fun c ↦ { c with level := c.level - 1 }) >>= fun _ ↦
    announceCommitted : Action σ H Unit).on s = (.ok (), s.left) := by
  rw [on_bind_ok on_modifyConnection, announceCommitted_on]
  rfl

theorem begin_ok (h : (openLevel d).on s = (.ok (), t)) : (begin d).on s = (.ok (), t.raised) := by
  unfold begin
  rw [on_bind_ok h, on_bind_ok on_modifyConnection, on_announce]
  rfl

theorem begin_error (h : (openLevel d).on s = (.error e, t)) : (begin d).on s = (.error e, t) := by
  unfold begin
  exact on_bind_error h

section

variable (hp : s.connection.pretending = false)

include hp

theorem openLevel_ok (h0 : s.connection.level = 0)
    (hd : d.send s.connection.write .begin s.world = (.ok (), w)) :
    (openLevel d).on s = (.ok (), s.sent s.connection.write .begin true w) := by
  unfold openLevel
  simp only [on_current_bind, hp, h0, Bool.false_eq_true, if_false, if_true, on_observe_bind,
    on_send_ok hd, on_pure]

theorem openLevel_error (h0 : s.connection.level = 0)
    (hd : d.send s.connection.write .begin s.world = (.error e, w))
    (he : e.causedByLostConnection = false) :
    (openLevel d).on s = (.error e, s.sent s.connection.write .begin false w) := by
  unfold openLevel
  simp only [on_current_bind, hp, h0, Bool.false_eq_true, if_false, if_true, on_observe_bind,
    on_send_error hd, he, Bool.not_false]
  rfl

theorem openLevel_lost (h0 : s.connection.level = 0)
    (hd : d.send s.connection.write .begin s.world = (.error e, w))
    (he : e.causedByLostConnection) :
    (openLevel d).on s = (reconnect d >>= fun _ ↦ current >>= fun c ↦ send d c.write .begin).on
      (s.sent s.connection.write .begin false w) := by
  unfold openLevel
  simp only [on_current_bind, hp, h0, Bool.false_eq_true, if_false, if_true, on_observe_bind,
    on_send_error hd, he, Bool.not_true]

theorem openLevel_savepoint (h0 : s.connection.level ≠ 0)
    (hs : s.connection.grammar.supportsSavepoints) :
    (openLevel d).on s =
      (send d s.connection.write s.savepointRequest >>= fun _ ↦ pure ()).on s := by
  unfold openLevel
  simp only [on_current_bind, hp, h0, hs, Bool.false_eq_true, if_false, if_true]
  rfl

theorem openLevel_counted (h0 : s.connection.level ≠ 0)
    (hs : s.connection.grammar.supportsSavepoints = false) :
    (openLevel d).on s = (.ok (), s) := by
  unfold openLevel
  simp only [on_current_bind, hp, h0, hs, Bool.false_eq_true, if_false]
  rfl

theorem begins : Begins d s ((begin d).on s).1 ((begin d).on s).2 := by
  by_cases h0 : s.connection.level = 0
  · cases hd : d.send s.connection.write .begin s.world with | mk reply w
    cases reply with
    | ok reply =>
      rw [begin_ok (openLevel_ok hp h0 hd)]
      exact .opened h0 hd
    | error e =>
      cases he : e.causedByLostConnection with
      | false =>
        rw [begin_error (openLevel_error hp h0 hd he)]
        exact .failed h0 hd he
      | true =>
        cases hr : s.connection.hasReconnector with
        | false =>
          have h := openLevel_lost hp h0 hd he
          rw [begin_error (h.trans (on_bind_error (reconnect_missing hr)))]
          exact .unrenewable h0 hd he hr
        | true =>
          have h := openLevel_lost hp h0 hd he
          cases hn : d.reconnect w with | mk handles w'
          cases handles with
          | error e' =>
            rw [begin_error (h.trans (on_bind_error (reconnect_error hr hn)))]
            exact .unrenewed h0 hd he hr hn
          | ok handles =>
            replace h := h.trans (on_bind_ok (reconnect_ok hr hn))
            rw [on_current_bind] at h
            cases hd' : d.send handles.1 .begin w' with | mk reply w''
            cases reply with
            | ok reply =>
              rw [begin_ok (h.trans (on_send_ok hd'))]
              exact .openedAgain h0 hd he hr hn hd'
            | error e' =>
              rw [begin_error (h.trans (on_send_error hd'))]
              exact .failedAgain h0 hd he hr hn hd'
  · cases hs : s.connection.grammar.supportsSavepoints with
    | false =>
      rw [begin_ok (openLevel_counted hp h0 hs)]
      exact .counted h0 hs
    | true =>
      have h := openLevel_savepoint (d := d) hp h0 hs
      cases hd : d.send s.connection.write s.savepointRequest s.world with | mk reply w
      cases reply with
      | ok done =>
        rw [begin_ok (h.trans (on_bind_ok (on_send_ok hd)))]
        exact .marked h0 hs hd
      | error e =>
        rw [begin_error (h.trans (on_bind_error (on_send_error hd)))]
        exact .unmarked h0 hs hd

theorem commitDriver_ok (h1 : s.connection.level = 1)
    (hd : d.send s.connection.write .commit s.world = (.ok (), w)) :
    (commitDriver d).on s = (.ok (), s.sent s.connection.write .commit true w) := by
  unfold commitDriver
  simp only [on_current_bind, h1, hp, decide_true, Bool.not_false, Bool.and_true, if_true,
    on_send_ok hd]

theorem commitDriver_error (h1 : s.connection.level = 1)
    (hd : d.send s.connection.write .commit s.world = (.error e, w)) :
    (commitDriver d).on s = (.error e, s.sent s.connection.write .commit false w) := by
  unfold commitDriver
  simp only [on_current_bind, h1, hp, decide_true, Bool.not_false, Bool.and_true, if_true,
    on_send_error hd]

omit hp in
theorem commitDriver_inside (h1 : s.connection.level ≠ 1) : (commitDriver d).on s = (.ok (), s) := by
  unfold commitDriver
  simp only [on_current_bind, h1, decide_false, Bool.false_and, Bool.false_eq_true, if_false,
    on_pure]

theorem commits : Commits d s ((commit d).on s).1 ((commit d).on s).2 := by
  unfold commit
  rw [on_current_bind]
  by_cases h0 : s.connection.level = 0
  · rw [if_pos h0]
    exact .outside h0
  · rw [if_neg h0, on_observe_bind]
    by_cases h1 : s.connection.level = 1
    · cases hd : d.send s.connection.write .commit s.world with | mk reply w
      cases reply with
      | ok reply =>
        rw [commitDriver_ok hp h1 hd, leave_on]
        exact .committed h1 hd
      | error e =>
        rw [commitDriver_error hp h1 hd, failClosing_on]
        exact .failed h1 hd
    · rw [commitDriver_inside h1, leave_on]
      exact .left (by omega)

theorem rollbackDriver_zero :
    (rollbackDriver d 0).on s = (send d s.connection.write .rollback).on s := by
  unfold rollbackDriver
  simp only [on_current_bind, hp, Bool.false_eq_true, if_false, if_true]

theorem rollbackDriver_restore (h0 : level ≠ 0) (hs : s.connection.grammar.supportsSavepoints) :
    (rollbackDriver d level).on s =
      (send d s.connection.write (s.restoreRequest level) >>= fun _ ↦ pure ()).on s := by
  unfold rollbackDriver
  simp only [on_current_bind, hp, h0, hs, Bool.false_eq_true, if_false, if_true]
  rfl

theorem rollbackDriver_counted (h0 : level ≠ 0)
    (hs : s.connection.grammar.supportsSavepoints = false) :
    (rollbackDriver d level).on s = (.ok (), s) := by
  unfold rollbackDriver
  simp only [on_current_bind, hp, h0, hs, Bool.false_eq_true, if_false, on_pure]

omit hp in
theorem rollback_outside {target : Option Nat}
    (hl : s.connection.level ≤ target.getD (s.connection.level - 1)) :
    (rollback d target).on s = (.ok (), s) := by
  unfold rollback
  simp only [on_current_bind, hl, if_true, on_pure]

omit hp in
theorem rollback_ok {target : Option Nat} (ht : target.getD (s.connection.level - 1) = level)
    (hl : level < s.connection.level) (h : (rollbackDriver d level).on s = (.ok (), t)) :
    (rollback d target).on s = (.ok (), t.lowered level) := by
  unfold rollback
  simp only [on_current_bind, ht, Nat.not_le.mpr hl, if_false, on_observe_bind, h]
  rw [on_bind_ok on_modifyConnection, on_announce]
  rfl

omit hp in
theorem rollback_error {target : Option Nat} (ht : target.getD (s.connection.level - 1) = level)
    (hl : level < s.connection.level) (h : (rollbackDriver d level).on s = (.error e, t)) :
    (rollback d target).on s = (.error e, t.broken e) := by
  unfold rollback
  simp only [on_current_bind, ht, Nat.not_le.mpr hl, if_false, on_observe_bind, h, failClosing_on]

theorem rollbacks (target : Option Nat) :
    Rollbacks d s (target.getD (s.connection.level - 1)) ((rollback d target).on s).1
      ((rollback d target).on s).2 := by
  generalize ht : target.getD (s.connection.level - 1) = level
  by_cases hl : s.connection.level ≤ level
  · rw [rollback_outside (ht.symm ▸ hl)]
    exact .outside hl
  replace hl := Nat.not_le.mp hl
  by_cases h0 : level = 0
  · subst h0
    have h := rollbackDriver_zero (d := d) hp
    cases hd : d.send s.connection.write .rollback s.world with | mk reply w
    cases reply with
    | ok reply =>
      rw [rollback_ok ht hl (h.trans (on_send_ok hd))]
      exact .undone hl rfl hd
    | error e =>
      rw [rollback_error ht hl (h.trans (on_send_error hd))]
      exact .failed hl rfl hd
  · cases hs : s.connection.grammar.supportsSavepoints with
    | false =>
      rw [rollback_ok ht hl (rollbackDriver_counted hp h0 hs)]
      exact .counted hl h0 hs
    | true =>
      have h := rollbackDriver_restore (d := d) hp h0 hs
      cases hd : d.send s.connection.write (s.restoreRequest level) s.world with | mk reply w
      cases reply with
      | ok done =>
        rw [rollback_ok ht hl (h.trans (on_bind_ok (on_send_ok hd)))]
        exact .restored hl h0 hs hd
      | error e =>
        rw [rollback_error ht hl (h.trans (on_bind_error (on_send_error hd)))]
        exact .unrestored hl h0 hs hd

end

end Session

end FluentSql
