import FluentSql.Proofs.Transactions.Attempts

namespace FluentSql

def Request.isCommit : Request → Bool
  | .commit => true
  | _ => false

theorem Request.isCommit_of_isStatement {r : Request} (h : r.isStatement) : r.isCommit = false := by
  cases r <;> first | rfl | cases h

variable {σ H α : Type} {d : Driver σ H} {s t u v : Session σ H}

namespace Entry

def driverCommits (trace : List (Entry H)) : Nat :=
  (sends trace).countP fun x ↦ x.2.1.isCommit && x.2.2

@[simp] theorem driverCommits_append (trace added : List (Entry H)) :
    driverCommits (trace ++ added) = driverCommits trace + driverCommits added := by
  rw [driverCommits, sends_append, List.countP_append]
  rfl

@[simp] theorem driverCommits_nil : driverCommits ([] : List (Entry H)) = 0 := rfl

@[simp] theorem driverCommits_sent (h : H) (r : Request) (ok : Bool) (added : List (Entry H)) :
    driverCommits (sent h r ok :: added) =
      driverCommits added + if r.isCommit && ok then 1 else 0 := by
  rw [driverCommits, sends_sent, List.countP_cons]
  rfl

@[simp] theorem driverCommits_reconnected (ok : Bool) (added : List (Entry H)) :
    driverCommits (reconnected ok :: added) = driverCommits added := rfl

@[simp] theorem driverCommits_announcement (event : String → Event) (c : Connection H) :
    driverCommits (Session.announcement event c) = 0 := by
  rw [driverCommits, Session.sends_announcement]
  rfl

end Entry

namespace Session

open FluentSql.Action Procedure Entry

@[simp] theorem driverCommits_leaving : driverCommits s.leaving = 0 := by
  rw [driverCommits, sends_leaving]
  rfl

theorem Executes.driverCommits_eq {useRead : Bool} {r : Request} {result : Except Error r.Reply}
    (h : Executes d useRead r s result t) (hr : r.isStatement) :
    driverCommits t.trace = driverCommits s.trace := by
  have hc := Request.isCommit_of_isStatement hr
  cases h <;> simp [Session.answered, renewed, tried, hc]

theorem Begins.driverCommits_eq {result : Except Error Unit} (h : Begins d s result t) :
    driverCommits t.trace = driverCommits s.trace := by
  cases h <;> simp [savepointRequest, Request.isCommit]

theorem Rollbacks.driverCommits_eq {level : Nat} {result : Except Error Unit}
    (h : Rollbacks d s level result t) : driverCommits t.trace = driverCommits s.trace := by
  cases h <;> simp [restoreRequest, Request.isCommit]

theorem Commits.driverCommits_eq {result : Except Error Unit} (h : Commits d s result t)
    (ht : 0 < t.connection.level) : driverCommits t.trace = driverCommits s.trace := by
  cases h with
  | committed h1 hd => simp [h1] at ht
  | outside h0 => rfl
  | failed h1 hd => simp
  | left h1 => simp

section

variable {body : Session σ H → Except Error α × Session σ H} {retries : Nat}

/-- An attempt commits where a callback ends well at the outermost level, and only there. -/
theorem Tries.driverCommits_eq {verdict : Verdict α} {run : Option (Run σ H α)}
    (h : Tries d body retries s verdict run t)
    (hq : ∀ r, run = some r → driverCommits r.finish.trace = driverCommits r.start.trace) :
    (∃ a, verdict = .done a) ∧ t.connection.level = 0 ∧
        driverCommits t.trace = driverCommits s.trace + 1 ∨
      (∀ a, verdict = .done a → ∃ r, run = some r ∧ r.finish.connection.level ≠ 1) ∧
        driverCommits t.trace = driverCommits s.trace := by
  cases h with
  | unbegun hb => exact .inr ⟨nofun, hb.driverCommits_eq⟩
  | @committed u v a w hb hr h1 hd =>
    have hv : driverCommits v.trace = driverCommits u.trace := hq _ rfl
    refine .inl ⟨⟨a, rfl⟩, ?_, ?_⟩
    · simp [h1]
    · simp [hv, hb.driverCommits_eq, Request.isCommit]
  | @uncommitted u v a e w hb hr h1 hd =>
    have hv : driverCommits v.trace = driverCommits u.trace := hq _ rfl
    refine .inr ⟨?_, ?_⟩
    · exact fun a ha ↦ absurd ha (verdictOf_ne_done _ _)
    · simp [hv, hb.driverCommits_eq]
  | @left u v a hb hr h1 =>
    have hv : driverCommits v.trace = driverCommits u.trace := hq _ rfl
    refine .inr ⟨?_, ?_⟩
    · exact fun _ _ ↦ ⟨_, rfl, h1⟩
    · simp [hv, hb.driverCommits_eq]
  | @aborted u v e hb hr hc h1 =>
    have hv : driverCommits v.trace = driverCommits u.trace := hq _ rfl
    exact .inr ⟨nofun, hv.trans hb.driverCommits_eq⟩
  | @rolledBack u v t e hb hr hc ht =>
    have hv : driverCommits v.trace = driverCommits u.trace := hq _ rfl
    refine .inr ⟨?_, ht.driverCommits_eq.trans (hv.trans hb.driverCommits_eq)⟩
    exact fun a ha ↦ absurd ha (verdictOf_ne_done _ _)
  | @stuck u v t e e' hb hr hc ht =>
    have hv : driverCommits v.trace = driverCommits u.trace := hq _ rfl
    exact .inr ⟨nofun, ht.driverCommits_eq.trans (hv.trans hb.driverCommits_eq)⟩

theorem Repeats.driverCommits_eq {attempts : List (Attempt σ H α)} {result : Except Error α}
    (h : Repeats d body retries s attempts result t)
    (hq : ∀ a ∈ attempts, ∀ r, a.run = some r →
      driverCommits r.finish.trace = driverCommits r.start.trace)
    (ht : 0 < t.connection.level) : driverCommits t.trace = driverCommits s.trace := by
  induction h with
  | last h hv =>
    obtain ⟨_, h0, _⟩ | ⟨_, hc⟩ := h.driverCommits_eq (hq _ (List.mem_singleton_self _))
    · omega
    · exact hc
  | again h hs ih =>
    obtain ⟨⟨a, ha⟩, _⟩ | ⟨_, hc⟩ := h.driverCommits_eq (hq _ List.mem_cons_self)
    · cases ha
    · exact (ih (fun a ha ↦ hq a (List.mem_cons_of_mem _ ha)) ht).trans hc

end

end Session

namespace Procedure

open Entry

theorem exec_driverCommits (p : Procedure σ H α) (hp : s.connection.pretending = false)
    (h : p.StaysOpen d s) : driverCommits (p.exec d s).2.trace = driverCommits s.trace := by
  induction p generalizing s with
  | done a => rfl
  | consult look next ih => exact ih _ hp h.2
  | execute useRead r hr next ih =>
    have he : Session.Executes d useRead r s _ _ := Session.executes hp
    rw [exec_execute]
    exact (ih _ (he.grows.outside hp) h.2).trans (he.driverCommits_eq hr)
  | begin next ih =>
    have he := Session.begins (d := d) hp
    rw [exec_begin]
    exact (ih _ (he.grows.outside hp) h.2).trans he.driverCommits_eq
  | commit next ih =>
    have he := Session.commits (d := d) hp
    rw [exec_commit]
    exact (ih _ (he.grows.outside hp) h.2).trans (he.driverCommits_eq h.2.level)
  | rollback target next ih =>
    have he := Session.rollbacks (d := d) hp target
    rw [exec_rollback]
    exact (ih _ (he.grows.outside hp) h.2).trans he.driverCommits_eq
  | transaction attempts body next ihb ih =>
    have hbody (u : Session σ H) (hu : u.connection.pretending = false) :=
      body.exec_grows (d := d) hu
    obtain ⟨list, result, t, ht, hr⟩ := transact_repeats (d := d) attempts hbody hp
    rw [StaysOpen, ht] at h
    obtain ⟨_, hruns, hnext⟩ := h
    -- No attempt commits by its callback, and none by being closed, as the level stays open.
    have hq (a) (ha : a ∈ list) (r) (hm : a.run = some r) :
        driverCommits r.finish.trace = driverCommits r.start.trace := by
      obtain ⟨hpr, hrun⟩ := hr.start hbody hp a ha r hm
      have hf := ihb hpr (hruns r (Attempt.mem_runs ha hm))
      rwa [hrun] at hf
    rw [exec_transaction, ht]
    exact (ih _ ((hr.grows hbody hp).outside hp) hnext).trans (hr.driverCommits_eq hq hnext.level)

end Procedure

end FluentSql
