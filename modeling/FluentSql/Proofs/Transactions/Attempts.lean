import FluentSql.Proofs.Transactions.Procedure

namespace FluentSql

/-- One attempt at a transaction, with the run of the callback if it came to that. -/
structure Attempt (σ H α : Type) where
  entered : Session σ H
  run : Option (Run σ H α)
  left : Session σ H

def Attempt.runs {σ H α : Type} (attempts : List (Attempt σ H α)) : List (Run σ H α) :=
  attempts.filterMap (·.run)

section

variable {σ H α : Type} {attempts : List (Attempt σ H α)} {a : Attempt σ H α} {r : Run σ H α}

theorem Attempt.runs_cons : runs (a :: attempts) = a.run.toList ++ runs attempts := by
  rw [runs, List.filterMap_cons]
  cases a.run <;> rfl

theorem Attempt.runs_singleton : runs [a] = a.run.toList := by
  rw [runs_cons]
  exact List.append_nil _

theorem Attempt.mem_runs (ha : a ∈ attempts) (hr : a.run = some r) : r ∈ runs attempts :=
  List.mem_filterMap.mpr ⟨a, ha, hr⟩

theorem Attempt.length_runs_le : (runs attempts).length ≤ attempts.length :=
  List.length_filterMap_le _ _

end

namespace Session

open FluentSql.Action Procedure

variable {σ H α β : Type} {d : Driver σ H} {s t u v : Session σ H} {e e' : Error} {a : α} {w : σ}
  (retries : Nat)

theorem run_on_bind {action : Action σ H α} {f : Except Error α → StateM (Session σ H) β} :
    (action.run >>= f).run s = (f (action.on s).1).run (action.on s).2 := rfl

def verdictOf (e : Error) : Verdict α :=
  if e.causedByConcurrency && 0 < retries then .again e else .failed e

theorem verdictOf_ne_done (e : Error) : verdictOf retries e ≠ .done a := by
  unfold verdictOf
  split <;> nofun

theorem verdictOf_eq_again (h : (verdictOf retries e : Verdict α) = .again e') :
    e' = e ∧ e.causedByConcurrency := by
  unfold verdictOf at h
  split at h
  · rename_i hc
    cases h
    exact ⟨rfl, (Bool.and_eq_true_iff.mp hc).1⟩
  · cases h

theorem verdictAfter_ok {deal : Action σ H Unit} (h : deal.on s = (.ok (), t)) :
    (verdictAfter e deal : StateM (Session σ H) (Verdict α)).run s = (.again e, t) := by
  unfold verdictAfter
  rw [run_on_bind, h]
  rfl

theorem verdictAfter_error {deal : Action σ H Unit} (h : deal.on s = (.error e', t)) :
    (verdictAfter e deal : StateM (Session σ H) (Verdict α)).run s = (.failed e', t) := by
  unfold verdictAfter
  rw [run_on_bind, h]
  rfl

theorem close_ok (h : (commitDriver d).on s = (.ok (), t)) :
    (close d retries a).run s = (.done a, t.left) := by
  unfold close
  rw [run_on_bind, h]
  dsimp only
  rw [run_on_bind, leave_on]
  rfl

theorem adapt_lower (h1 : t.connection.level = 1) :
    t.adapt (fun c ↦ { c with level := c.level - 1 }) = t.adapt (·.atLevel 0) := by
  simp only [adapt, Connection.atLevel, h1, Nat.sub_self]

theorem broken_outside (h0 : s.connection.level = 0) : s.broken e = s := by
  unfold broken
  split
  · unfold adapt Connection.atLevel
    rw [← h0]
  · rfl

theorem close_error (h : (commitDriver d).on s = (.error e, t)) (h1 : t.connection.level = 1) :
    (close d retries a).run s = (verdictOf retries e, t.adapt (·.atLevel 0)) := by
  have ha : (afterFailedCommit e retries : Action σ H Unit).on t =
      (if !(e.causedByConcurrency && decide (0 < retries)) then failClosing e else pure ()).on
        (t.adapt (·.atLevel 0)) := by
    unfold afterFailedCommit
    rw [on_bind_ok on_modifyConnection, adapt_lower h1]
  unfold close verdictOf
  rw [run_on_bind, h]
  cases hr : e.causedByConcurrency && decide (0 < retries) with
  | true =>
    rw [hr] at ha
    exact verdictAfter_ok ha
  | false =>
    simp only [hr, Bool.not_false, if_true, failClosing_on] at ha
    rw [broken_outside rfl] at ha
    exact verdictAfter_error ha

theorem afterFailure_aborted (hc : e.causedByConcurrency) (hl : 1 < s.connection.level) :
    (afterFailure d e retries).on s =
      (.error e, s.adapt fun c ↦ c.atLevel (c.level - 1)) := by
  unfold afterFailure
  rw [on_current_bind]
  simp only [hc, hl, decide_true, Bool.and_self, if_true]
  rfl

theorem afterFailure_rollback (hc : ¬ (e.causedByConcurrency ∧ 1 < s.connection.level)) :
    (afterFailure d e retries).on s = (do
      rollback d none
      if !(e.causedByConcurrency && 0 < retries) then throw e : Action σ H Unit).on s := by
  have hc' : (e.causedByConcurrency && decide (1 < s.connection.level)) = false := by
    simpa using hc
  unfold afterFailure
  rw [on_current_bind]
  simp only [hc', Bool.false_eq_true, if_false]

theorem afterFailure_ok (hc : ¬ (e.causedByConcurrency ∧ 1 < s.connection.level))
    (h : (rollback d none).on s = (.ok (), t)) :
    (verdictAfter e (afterFailure d e retries) : StateM (Session σ H) (Verdict α)).run s =
      (verdictOf retries e, t) := by
  have ha := (afterFailure_rollback retries hc).trans (on_bind_ok h)
  unfold verdictOf
  cases hr : e.causedByConcurrency && decide (0 < retries) with
  | true =>
    simp only [hr, Bool.not_true, Bool.false_eq_true, if_false, on_pure] at ha
    exact verdictAfter_ok ha
  | false =>
    simp only [hr, Bool.not_false, if_true, on_throw] at ha
    exact verdictAfter_error ha

theorem afterFailure_error (hc : ¬ (e.causedByConcurrency ∧ 1 < s.connection.level))
    (h : (rollback d none).on s = (.error e', t)) :
    (afterFailure d e retries).on s = (.error e', t) :=
  (afterFailure_rollback retries hc).trans (on_bind_error h)

inductive Tries (d : Driver σ H) (body : Session σ H → Except Error α × Session σ H)
    (retries : Nat) (s : Session σ H) : Verdict α → Option (Run σ H α) → Session σ H → Prop where
  | unbegun {e : Error} {t : Session σ H} (hb : Begins d s (.error e) t) :
      Tries d body retries s (.failed e) none t
  | committed {u v : Session σ H} {a : α} {w : σ} (hb : Begins d s (.ok ()) u)
      (hr : body u = (.ok a, v)) (h1 : v.connection.level = 1)
      (hd : d.send v.connection.write .commit v.world = (.ok (), w)) :
      Tries d body retries s (.done a) (some ⟨u, .ok a, v⟩)
        (v.sent v.connection.write .commit true w).left
  | uncommitted {u v : Session σ H} {a : α} {e : Error} {w : σ} (hb : Begins d s (.ok ()) u)
      (hr : body u = (.ok a, v)) (h1 : v.connection.level = 1)
      (hd : d.send v.connection.write .commit v.world = (.error e, w)) :
      Tries d body retries s (verdictOf retries e) (some ⟨u, .ok a, v⟩)
        ((v.sent v.connection.write .commit false w).adapt (·.atLevel 0))
  | left {u v : Session σ H} {a : α} (hb : Begins d s (.ok ()) u) (hr : body u = (.ok a, v))
      (h1 : v.connection.level ≠ 1) : Tries d body retries s (.done a) (some ⟨u, .ok a, v⟩) v.left
  | aborted {u v : Session σ H} {e : Error} (hb : Begins d s (.ok ()) u)
      (hr : body u = (.error e, v)) (hc : e.causedByConcurrency) (h1 : 1 < v.connection.level) :
      Tries d body retries s (.failed e) (some ⟨u, .error e, v⟩)
        (v.adapt fun c ↦ c.atLevel (c.level - 1))
  | rolledBack {u v t : Session σ H} {e : Error} (hb : Begins d s (.ok ()) u)
      (hr : body u = (.error e, v)) (hc : ¬ (e.causedByConcurrency ∧ 1 < v.connection.level))
      (ht : Rollbacks d v (v.connection.level - 1) (.ok ()) t) :
      Tries d body retries s (verdictOf retries e) (some ⟨u, .error e, v⟩) t
  | stuck {u v t : Session σ H} {e e' : Error} (hb : Begins d s (.ok ()) u)
      (hr : body u = (.error e, v)) (hc : ¬ (e.causedByConcurrency ∧ 1 < v.connection.level))
      (ht : Rollbacks d v (v.connection.level - 1) (.error e') t) :
      Tries d body retries s (.failed e') (some ⟨u, .error e, v⟩) t

section

variable {body : Session σ H → Except Error α × Session σ H}

theorem run_noting {result : Except Error α} (hr : body u = (result, v)) :
    (noting body).run u = ((result, ⟨u, result, v⟩), v) := by
  have h : (noting body).run u = (((body u).1, ⟨u, (body u).1, (body u).2⟩), (body u).2) := rfl
  rw [h, hr]

theorem tryTransaction_error (hb : (begin d).on s = (.error e, t)) :
    (tryTransaction d (noting body) retries).run s = ((.failed e, []), t) := by
  unfold tryTransaction
  rw [run_on_bind, hb]
  rfl

theorem tryTransaction_close {verdict : Verdict α} (hb : (begin d).on s = (.ok (), u))
    (hr : body u = (.ok a, v)) (hc : (close d retries a).run v = (verdict, t)) :
    (tryTransaction d (noting body) retries).run s = ((verdict, [⟨u, .ok a, v⟩]), t) := by
  unfold tryTransaction
  rw [run_on_bind, hb]
  dsimp only
  rw [StateT.run_bind, run_noting hr]
  change (do return (← close d retries a, [_])).run v = _
  rw [StateT.run_bind, hc]
  rfl

theorem tryTransaction_fail {verdict : Verdict α} (hb : (begin d).on s = (.ok (), u))
    (hr : body u = (.error e, v))
    (hc : (verdictAfter e (afterFailure d e retries)).run v = (verdict, t)) :
    (tryTransaction d (noting body) retries).run s = ((verdict, [⟨u, .error e, v⟩]), t) := by
  unfold tryTransaction
  rw [run_on_bind, hb]
  dsimp only
  rw [StateT.run_bind, run_noting hr]
  change (do return (← verdictAfter e (afterFailure d e retries), [_])).run v = _
  rw [StateT.run_bind, hc]
  rfl

theorem tries (hbody : ∀ u : Session σ H, u.connection.pretending = false → u.Grows (body u).2)
    (hp : s.connection.pretending = false) :
    ∃ verdict run t, (tryTransaction d (noting body) retries).run s = ((verdict, run.toList), t) ∧
      Tries d body retries s verdict run t := by
  have hb := begins (d := d) hp
  cases hb' : (begin d).on s with | mk result u
  rw [hb'] at hb
  cases result with
  | error e => exact ⟨_, none, _, tryTransaction_error retries hb', .unbegun hb⟩
  | ok =>
    have hpv := (hbody u (hb.grows.outside hp)).outside (hb.grows.outside hp)
    cases hr : body u with | mk result v
    rw [hr] at hpv
    cases result with
    | ok a =>
      by_cases h1 : v.connection.level = 1
      · cases hd : d.send v.connection.write .commit v.world with | mk reply w
        cases reply with
        | ok reply =>
          have hc := close_ok retries (a := a) (commitDriver_ok hpv h1 hd)
          exact ⟨_, some _, _, tryTransaction_close retries hb' hr hc, .committed hb hr h1 hd⟩
        | error e =>
          have hc := close_error retries (a := a) (commitDriver_error hpv h1 hd) h1
          exact ⟨_, some _, _, tryTransaction_close retries hb' hr hc, .uncommitted hb hr h1 hd⟩
      · have hc := close_ok (d := d) retries (a := a) (commitDriver_inside h1)
        exact ⟨_, some _, _, tryTransaction_close retries hb' hr hc, .left hb hr h1⟩
    | error e =>
      by_cases hc : e.causedByConcurrency ∧ 1 < v.connection.level
      · have ha := afterFailure_aborted (d := d) retries hc.1 hc.2
        exact ⟨_, some _, _, tryTransaction_fail retries hb' hr (verdictAfter_error ha),
          .aborted hb hr hc.1 hc.2⟩
      · have ht := rollbacks (d := d) hpv none
        cases ht' : (rollback d none).on v with | mk result t
        rw [ht'] at ht
        cases result with
        | ok =>
          exact ⟨_, some _, _, tryTransaction_fail retries hb' hr (afterFailure_ok retries hc ht'),
            .rolledBack hb hr hc ht⟩
        | error e' =>
          have ha := afterFailure_error retries hc ht'
          exact ⟨_, some _, _, tryTransaction_fail retries hb' hr (verdictAfter_error ha),
            .stuck hb hr hc ht⟩

variable {retries} in
theorem Tries.grows {verdict : Verdict α} {run : Option (Run σ H α)}
    (hbody : ∀ u : Session σ H, u.connection.pretending = false → u.Grows (body u).2)
    (hp : s.connection.pretending = false) (h : Tries d body retries s verdict run t) :
    s.Grows t := by
  have hrun {u v : Session σ H} {result : Except Error α} (hb : Begins d s (.ok ()) u)
      (hr : body u = (result, v)) : s.Grows v := by
    have hv := hbody u (hb.grows.outside hp)
    rw [hr] at hv
    exact hb.grows.trans hv
  cases h with
  | unbegun hb => exact hb.grows
  | committed hb hr h1 hd => exact (hrun hb hr).trans ⟨by simp, by simp⟩
  | uncommitted hb hr h1 hd => exact (hrun hb hr).trans ⟨by simp, by simp⟩
  | left hb hr h1 => exact (hrun hb hr).trans ⟨by simp, by simp⟩
  | aborted hb hr hc h1 => exact (hrun hb hr).trans ⟨by simp, by simp⟩
  | rolledBack hb hr hc ht => exact (hrun hb hr).trans ht.grows
  | stuck hb hr hc ht => exact (hrun hb hr).trans ht.grows

end

variable (d) in
/-- Attempts one after another, each but the last one to be made again. -/
inductive Repeats (body : Session σ H → Except Error α × Session σ H) :
    Nat → Session σ H → List (Attempt σ H α) → Except Error α → Session σ H → Prop where
  | last {retries : Nat} {s t : Session σ H} {verdict : Verdict α} {run : Option (Run σ H α)}
      (h : Tries d body retries s verdict run t) (hv : ∀ e, verdict ≠ .again e) :
      Repeats body retries s [⟨s, run, t⟩] verdict.result t
  | again {retries : Nat} {s t t' : Session σ H} {e : Error} {run : Option (Run σ H α)}
      {attempts : List (Attempt σ H α)} {result : Except Error α}
      (h : Tries d body (retries + 1) s (.again e) run t)
      (hs : Repeats body retries t attempts result t') :
      Repeats body (retries + 1) s (⟨s, run, t⟩ :: attempts) result t'

theorem Tries.not_again {body : Session σ H → Except Error α × Session σ H} {verdict : Verdict α}
    {run : Option (Run σ H α)} (h : Tries d body 0 s verdict run t) : verdict ≠ .again e := by
  have hv (e' : Error) : verdictOf 0 e' ≠ (.again e : Verdict α) := by
    simp [verdictOf]
  cases h with
  | uncommitted hb hr h1 hd => exact hv _
  | rolledBack hb hr hc ht => exact hv _
  | unbegun hb => nofun
  | committed hb hr h1 hd => nofun
  | left hb hr h1 => nofun
  | aborted hb hr hc h1 => nofun
  | stuck hb hr hc ht => nofun

section

variable {body : Session σ H → Except Error α × Session σ H} {verdict : Verdict α}
  {notes : List (Run σ H α)}

variable {retries}

theorem transactionWithin_zero
    (h : (tryTransaction d (noting body) 0).run s = ((verdict, notes), t)) :
    (transactionWithin d (noting body) 0).run s = ((verdict.result, notes), t) := by
  unfold transactionWithin
  rw [StateT.run_bind, h]
  rfl

theorem transactionWithin_last (hv : ∀ e, verdict ≠ .again e)
    (h : (tryTransaction d (noting body) (retries + 1)).run s = ((verdict, notes), t)) :
    (transactionWithin d (noting body) (retries + 1)).run s = ((verdict.result, notes), t) := by
  unfold transactionWithin
  rw [StateT.run_bind, h]
  cases verdict with
  | done a => rfl
  | failed e => rfl
  | again e => exact absurd rfl (hv e)

theorem transactionWithin_again {result : Except Error α} {rest : List (Run σ H α)}
    (h : (tryTransaction d (noting body) (retries + 1)).run s = ((.again e, notes), t))
    (hs : (transactionWithin d (noting body) retries).run t = ((result, rest), u)) :
    (transactionWithin d (noting body) (retries + 1)).run s = ((result, notes ++ rest), u) := by
  unfold transactionWithin
  rw [StateT.run_bind, h]
  change (do
    let (result, rest) ← transactionWithin d (noting body) retries
    return (result, notes ++ rest)).run t = _
  rw [StateT.run_bind, hs]
  rfl

theorem repeats
    (hbody : ∀ u : Session σ H, u.connection.pretending = false → u.Grows (body u).2)
    (hp : s.connection.pretending = false) :
    ∃ attempts result t, (transactionWithin d (noting body) retries).run s =
        ((result, Attempt.runs attempts), t) ∧
      Repeats d body retries s attempts result t := by
  induction retries generalizing s with
  | zero =>
    obtain ⟨verdict, run, t, hr, h⟩ := tries (d := d) 0 hbody hp
    refine ⟨[⟨s, run, t⟩], _, t, ?_, .last h fun e ↦ h.not_again⟩
    rw [transactionWithin_zero hr, Attempt.runs_singleton]
  | succ retries ih =>
    obtain ⟨verdict, run, t, hr, h⟩ := tries (d := d) (retries + 1) hbody hp
    by_cases hv : ∃ e, verdict = .again e
    · obtain ⟨e, rfl⟩ := hv
      obtain ⟨attempts, result, t', hr', hs⟩ := ih ((h.grows hbody hp).outside hp)
      refine ⟨⟨s, run, t⟩ :: attempts, result, t', ?_, .again h hs⟩
      rw [transactionWithin_again hr hr', Attempt.runs_cons]
    · have hv' (e) : verdict ≠ .again e := fun he ↦ hv ⟨e, he⟩
      refine ⟨[⟨s, run, t⟩], _, t, ?_, .last h hv'⟩
      rw [transactionWithin_last hv' hr, Attempt.runs_singleton]

theorem Tries.run_mem {run : Option (Run σ H α)} (h : Tries d body retries s verdict run t)
    {r : Run σ H α} (hm : run = some r) :
    Begins d s (.ok ()) r.start ∧ body r.start = (r.result, r.finish) := by
  cases h with
  | unbegun hb => cases hm
  | committed hb hr h1 hd => cases hm; exact ⟨hb, hr⟩
  | uncommitted hb hr h1 hd => cases hm; exact ⟨hb, hr⟩
  | left hb hr h1 => cases hm; exact ⟨hb, hr⟩
  | aborted hb hr hc h1 => cases hm; exact ⟨hb, hr⟩
  | rolledBack hb hr hc ht => cases hm; exact ⟨hb, hr⟩
  | stuck hb hr hc ht => cases hm; exact ⟨hb, hr⟩

theorem Repeats.mem {P : Session σ H → Prop} {Q : Run σ H α → Prop}
    {attempts : List (Attempt σ H α)} {result : Except Error α}
    (h : Repeats d body retries s attempts result t)
    (hq : ∀ a ∈ attempts, ∀ r, a.run = some r → Q r)
    (hstep : ∀ {retries s e run t}, P s → (∀ r, run = some r → Q r) →
      Tries d body retries s (.again e) run t → P t) (hs : P s) :
    ∀ a ∈ attempts, P a.entered ∧
      ∃ retries verdict, Tries d body retries a.entered verdict a.run a.left := by
  induction h with
  | last h hv =>
    intro a ha
    cases List.mem_singleton.mp ha
    exact ⟨hs, _, _, h⟩
  | again h _ ih =>
    intro a ha
    obtain rfl | ha := List.mem_cons.mp ha
    · exact ⟨hs, _, _, h⟩
    · have ht := hstep hs (hq _ List.mem_cons_self) h
      exact ih (fun a ha ↦ hq a (List.mem_cons_of_mem _ ha)) ht a ha

section

variable (hbody : ∀ u : Session σ H, u.connection.pretending = false → u.Grows (body u).2)
  (hp : s.connection.pretending = false)

include hbody hp

theorem Repeats.grows {attempts : List (Attempt σ H α)} {result : Except Error α}
    (h : Repeats d body retries s attempts result t) : s.Grows t := by
  induction h with
  | last h hv => exact h.grows hbody hp
  | again h hs ih =>
    have ht := h.grows hbody hp
    exact ht.trans (ih (ht.outside hp))

theorem Repeats.start {attempts : List (Attempt σ H α)} {result : Except Error α}
    (h : Repeats d body retries s attempts result t) :
    ∀ a ∈ attempts, ∀ r, a.run = some r →
      r.start.connection.pretending = false ∧ body r.start = (r.result, r.finish) := by
  intro a ha r hr
  obtain ⟨hp, _, _, ht⟩ := h.mem (Q := fun _ ↦ True) (fun _ _ _ _ ↦ trivial)
    (fun hs _ h ↦ (h.grows hbody hs).outside hs) hp a ha
  obtain ⟨hb, hrun⟩ := ht.run_mem hr
  exact ⟨hb.grows.outside hp, hrun⟩

end

end

end Session

namespace Procedure

variable {σ H α : Type} {d : Driver σ H} {s : Session σ H}

theorem transact_repeats (attempts : Nat) {body : Session σ H → Except Error α × Session σ H}
    (hbody : ∀ u : Session σ H, u.connection.pretending = false → u.Grows (body u).2)
    (hp : s.connection.pretending = false) :
    ∃ list result t, transact d attempts body s = ((result, Attempt.runs list), t) ∧
      Session.Repeats d body (attempts - 1) s list result t :=
  Session.repeats hbody hp

theorem exec_grows (p : Procedure σ H α) (hp : s.connection.pretending = false) :
    s.Grows (p.exec d s).2 := by
  induction p generalizing s with
  | done a => exact s.grows_refl
  | consult look next ih =>
    have hs : s.Grows { s with world := (look s).2 } := ⟨rfl, List.prefix_rfl⟩
    exact hs.trans (ih _ hp)
  | execute useRead r hr next ih =>
    have he : Session.Executes d useRead r s _ _ := Session.executes hp
    have hs := he.grows
    exact hs.trans (ih _ (hs.outside hp))
  | begin next ih =>
    have hs := (Session.begins (d := d) hp).grows
    exact hs.trans (ih _ (hs.outside hp))
  | commit next ih =>
    have hs := (Session.commits (d := d) hp).grows
    exact hs.trans (ih _ (hs.outside hp))
  | rollback target next ih =>
    have hs := (Session.rollbacks (d := d) hp target).grows
    exact hs.trans (ih _ (hs.outside hp))
  | transaction attempts body next ihb ih =>
    obtain ⟨list, result, t, ht, h⟩ := transact_repeats (d := d) attempts (fun _ hu ↦ ihb hu) hp
    have hs := h.grows (fun _ hu ↦ ihb hu) hp
    rw [exec_transaction, ht]
    exact hs.trans (ih _ (hs.outside hp))

end Procedure

end FluentSql
