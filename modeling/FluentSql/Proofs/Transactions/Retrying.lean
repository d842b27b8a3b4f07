import FluentSql.Proofs.Transactions.Commits

namespace FluentSql

namespace Run

variable {σ H α : Type} (d : Driver σ H) (r : Run σ H α)

def commitReply : Except Error Unit :=
  (d.send r.finish.connection.write .commit r.finish.world).1

def rollbackReply : Except Error Unit :=
  (d.send r.finish.connection.write .rollback r.finish.world).1

def Fails (e : Error) : Prop :=
  r.result = .error e ∨ r.result.toBool ∧ r.commitReply d = .error e

/-- Whether the run failed, and the rollback that followed it with an error that does not close the
connection. -/
def Sticks (e : Error) : Prop :=
  r.result.toBool = false ∧ r.rollbackReply d = .error e ∧ e.causedByLostConnection = false

end Run

namespace Session

open Procedure Entry

variable {σ H α : Type} {d : Driver σ H} {body : Session σ H → Except Error α × Session σ H}
  {retries : Nat} {s t v : Session σ H} {verdict : Verdict α} {run : Option (Run σ H α)} {e : Error}

theorem Rollbacks.outermost_ok (h : Rollbacks d v (v.connection.level - 1) (.ok ()) t)
    (h1 : v.connection.level = 1) :
    ∃ w, d.send v.connection.write .rollback v.world = (.ok (), w) ∧
      t = (v.sent v.connection.write .rollback true w).lowered 0 := by
  rw [h1] at h
  cases h with
  | outside hl => omega
  | undone hl h0 hd => exact ⟨_, hd, rfl⟩
  | restored hl h0 hs hd => omega
  | counted hl h0 hs => omega

theorem Rollbacks.outermost_error (h : Rollbacks d v (v.connection.level - 1) (.error e) t)
    (h1 : v.connection.level = 1) :
    ∃ w, d.send v.connection.write .rollback v.world = (.error e, w) ∧
      t = (v.sent v.connection.write .rollback false w).broken e := by
  rw [h1] at h
  cases h with
  | failed hl h0 hd => exact ⟨_, hd, rfl⟩
  | unrestored hl h0 hs hd => omega

theorem Begins.level_error (h : Begins d s (.error e) t) (h0 : s.connection.level = 0) :
    t.connection.level = 0 := by
  cases h with
  | failed _ hd he => exact h0
  | unrenewable _ hd he hr => exact h0
  | unrenewed _ hd he hr hn => exact h0
  | failedAgain _ hd he hr hn hd' => rfl
  | unmarked hl hs hd => exact absurd h0 hl

inductive Outermost (d : Driver σ H) (retries : Nat) :
    Verdict α → Option (Run σ H α) → Session σ H → Prop where
  | unbegun {e : Error} {t : Session σ H} (h0 : t.connection.level = 0) :
      Outermost d retries (.failed e) none t
  | committed {u v : Session σ H} {a : α} {w : σ} (h1 : v.connection.level = 1)
      (hd : d.send v.connection.write .commit v.world = (.ok (), w)) :
      Outermost d retries (.done a) (some ⟨u, .ok a, v⟩)
        (v.sent v.connection.write .commit true w).left
  | uncommitted {u v : Session σ H} {a : α} {e : Error} {w : σ}
      (hd : d.send v.connection.write .commit v.world = (.error e, w)) :
      Outermost d retries (verdictOf retries e) (some ⟨u, .ok a, v⟩)
        ((v.sent v.connection.write .commit false w).adapt (·.atLevel 0))
  | rolledBack {u v : Session σ H} {e : Error} {w : σ}
      (hd : d.send v.connection.write .rollback v.world = (.ok (), w)) :
      Outermost d retries (verdictOf retries e) (some ⟨u, .error e, v⟩)
        ((v.sent v.connection.write .rollback true w).lowered 0)
  | stuck {u v : Session σ H} {e e' : Error} {w : σ} (h1 : v.connection.level = 1)
      (hd : d.send v.connection.write .rollback v.world = (.error e', w)) :
      Outermost d retries (.failed e') (some ⟨u, .error e, v⟩)
        ((v.sent v.connection.write .rollback false w).broken e')

theorem Tries.outermost (h : Tries d body retries s verdict run t) (h0 : s.connection.level = 0)
    (h1 : ∀ r, run = some r → r.finish.connection.level = 1) : Outermost d retries verdict run t := by
  cases h with
  | unbegun hb => exact .unbegun (hb.level_error h0)
  | committed hb hr hl hd => exact .committed hl hd
  | uncommitted hb hr hl hd => exact .uncommitted hd
  | left hb hr hl => exact absurd (h1 _ rfl) hl
  | aborted hb hr hc hl =>
    have h1 := h1 _ rfl
    exact absurd h1 (Nat.ne_of_gt hl)
  | rolledBack hb hr hc ht =>
    obtain ⟨w, hd, rfl⟩ := ht.outermost_ok (h1 _ rfl)
    exact .rolledBack hd
  | stuck hb hr hc ht =>
    obtain ⟨w, hd, rfl⟩ := ht.outermost_error (h1 _ rfl)
    exact .stuck (h1 _ rfl) hd

theorem Tries.unbegun_of_none (h : Tries d body retries s verdict run t) (hn : run = none) :
    ∃ e, Begins d s (.error e) t ∧ verdict.result = .error e := by
  cases h with
  | unbegun hb => exact ⟨_, hb, rfl⟩
  | _ => cases hn

theorem Outermost.again (h : Outermost d retries verdict run t) (hv : verdict = .again e) :
    t.connection.level = 0 ∧ ∃ r, run = some r ∧ r.Fails d e ∧ e.causedByConcurrency := by
  cases h with
  | unbegun h0 => cases hv
  | committed h1 hd => cases hv
  | stuck h1 hd => cases hv
  | uncommitted hd =>
    obtain ⟨rfl, hc⟩ := verdictOf_eq_again _ hv
    refine ⟨rfl, _, rfl, .inr ⟨rfl, ?_⟩, hc⟩
    rw [Run.commitReply, hd]
  | rolledBack hd =>
    obtain ⟨rfl, hc⟩ := verdictOf_eq_again _ hv
    exact ⟨rfl, _, rfl, .inl rfl, hc⟩

theorem verdictOf_result_ne_ok (a : α) : (verdictOf retries e).result ≠ .ok a := by
  unfold verdictOf
  split <;> nofun

theorem Outermost.result_eq_ok (h : Outermost d retries verdict run t) (a : α) :
    verdict.result = .ok a ↔
      ∃ r, run = some r ∧ r.result = .ok a ∧ r.commitReply d = .ok () := by
  cases h with
  | unbegun h0 => simp [Verdict.result]
  | committed h1 hd => simp [Verdict.result, Run.commitReply, hd]
  | uncommitted hd => simp [verdictOf_result_ne_ok, Run.commitReply, hd]
  | rolledBack hd => simp [verdictOf_result_ne_ok]
  | stuck h1 hd => simp [Verdict.result]

theorem Outermost.rolls_back {r : Run σ H α} (h : Outermost d retries verdict run t)
    (hr : run = some r) (he : r.result = .error e) :
    ∃ told, t.trace = r.finish.trace ++
        .sent r.finish.connection.write .rollback (r.rollbackReply d).toBool :: told ∧
      sends told = [] ∧ reconnections told = [] := by
  cases h with
  | unbegun h0 => cases hr
  | committed h1 hd => cases hr; cases he
  | uncommitted hd => cases hr; cases he
  | @rolledBack u v e w hd =>
    cases hr
    refine ⟨announcement .rolledBack v.connection, ?_, ?_, ?_⟩
    · simp [Run.rollbackReply, hd, Except.toBool]
    · simp
    · simp
  | stuck h1 hd =>
    cases hr
    refine ⟨[], ?_, rfl, rfl⟩
    simp [Run.rollbackReply, hd, Except.toBool]

theorem Outermost.level (h : Outermost d retries verdict run t) :
    t.connection.level = 0 ∨ ∃ r e, run = some r ∧ r.Sticks d e := by
  cases h with
  | unbegun h0 => exact .inl h0
  | committed h1 hd => exact .inl (by simp [h1])
  | uncommitted hd => exact .inl rfl
  | rolledBack hd => exact .inl rfl
  | @stuck u v e e' w h1 hd =>
    unfold broken
    cases he : e'.causedByLostConnection with
    | true => exact .inl rfl
    | false => exact .inr ⟨_, e', rfl, rfl, by rw [Run.rollbackReply, hd], he⟩

theorem Outermost.sticks {r : Run σ H α} (h : Outermost d retries verdict run t)
    (hr : run = some r) (hs : r.Sticks d e) :
    t.connection.level = 1 ∧ verdict.result = .error e := by
  obtain ⟨hf, he, hl⟩ := hs
  cases h with
  | unbegun h0 => cases hr
  | committed h1 hd => cases hr; cases hf
  | uncommitted hd => cases hr; cases hf
  | rolledBack hd =>
    cases hr
    rw [Run.rollbackReply, hd] at he
    cases he
  | stuck h1 hd =>
    cases hr
    rw [Run.rollbackReply, hd] at he
    cases he
    unfold broken
    rw [hl]
    exact ⟨h1, rfl⟩

theorem Begins.level_ok (h : Begins d s (.ok ()) t) (h0 : s.connection.level = 0) :
    t.connection.level = 1 := by
  cases h with
  | opened _ hd => simp [h0]
  | openedAgain _ hd he hr hn hd' => simp
  | marked hl hs hd => exact absurd h0 hl
  | counted hl hs => exact absurd h0 hl

section

variable {attempts : List (Attempt σ H α)} {result : Except Error α}
  (h : Repeats d body retries s attempts result t)

include h

theorem Repeats.length_le : attempts.length ≤ retries + 1 := by
  induction h with
  | last h hv => exact Nat.le_add_left _ _
  | again h hs ih => exact Nat.succ_le_succ ih

theorem Repeats.head : attempts.head?.map Attempt.entered = some s := by
  cases h <;> rfl

theorem Repeats.getLast : ∃ a retries verdict, attempts.getLast? = some a ∧ a.left = t ∧
    Tries d body retries a.entered verdict a.run a.left ∧ verdict.result = result := by
  induction h with
  | last h hv => exact ⟨_, _, _, rfl, rfl, h, rfl⟩
  | again h hs ih =>
    obtain ⟨a, retries, verdict, ha, ht⟩ := ih
    refine ⟨a, retries, verdict, ?_, ht⟩
    rw [List.getLast?_cons, ha]
    rfl

theorem Repeats.between {before after : List (Attempt σ H α)} {a b : Attempt σ H α}
    (hc : attempts = before ++ a :: b :: after) : a.left = b.entered ∧
      ∃ retries e, Tries d body retries a.entered (.again e) a.run a.left := by
  induction h generalizing before with
  | last h hv =>
    have hl := congrArg List.length hc
    simp only [List.length_append, List.length_cons, List.length_nil] at hl
    omega
  | again h hs ih =>
    cases before with
    | nil =>
      obtain ⟨rfl, rfl⟩ := List.cons.inj hc
      refine ⟨?_, _, _, h⟩
      exact (Option.some.inj hs.head).symm
    | cons c before => exact ih (List.cons.inj hc).2

theorem Repeats.tried {a : Attempt σ H α} (ha : a ∈ attempts) :
    ∃ retries verdict, Tries d body retries a.entered verdict a.run a.left := by
  have hq (a) (_ : a ∈ attempts) (r : Run σ H α) (_ : a.run = some r) : True := trivial
  exact (h.mem (P := fun _ ↦ True) hq (fun _ _ _ ↦ trivial) trivial a ha).2

theorem Repeats.again_or_last {a : Attempt σ H α} (ha : a ∈ attempts) :
    (∃ retries e, Tries d body retries a.entered (.again e) a.run a.left) ∨ a.left = t ∧
      ∃ retries verdict, Tries d body retries a.entered verdict a.run a.left ∧
        verdict.result = result := by
  induction h with
  | last h hv =>
    cases List.mem_singleton.mp ha
    exact .inr ⟨rfl, _, _, h, rfl⟩
  | again h hs ih =>
    obtain rfl | ha := List.mem_cons.mp ha
    · exact .inl ⟨_, _, h⟩
    · exact ih ha

section

variable (h1 : ∀ a ∈ attempts, ∀ r, a.run = some r → r.finish.connection.level = 1)

include h1

theorem Repeats.driverCommits_outermost
    (hq : ∀ a ∈ attempts, ∀ r, a.run = some r →
      driverCommits r.finish.trace = driverCommits r.start.trace) :
    driverCommits t.trace = driverCommits s.trace + if result.toBool then 1 else 0 := by
  induction h with
  | @last retries s t verdict run h hv =>
    obtain ⟨⟨a, rfl⟩, _, hc⟩ | ⟨hn, hc⟩ :=
      h.driverCommits_eq (hq _ (List.mem_singleton_self _))
    · exact hc
    · cases verdict with
      | done a =>
        obtain ⟨r, hr, hl⟩ := hn a rfl
        exact absurd (h1 _ (List.mem_singleton_self _) r hr) hl
      | failed e => exact hc
      | again e => exact hc
  | again h hs ih =>
    obtain ⟨⟨a, ha⟩, _⟩ | ⟨_, hc⟩ := h.driverCommits_eq (hq _ List.mem_cons_self)
    · cases ha
    · rw [← hc]
      exact ih (fun a ha ↦ h1 a (List.mem_cons_of_mem _ ha))
        fun a ha ↦ hq a (List.mem_cons_of_mem _ ha)

section

variable (h0 : s.connection.level = 0)

include h0

theorem Repeats.entered : ∀ a ∈ attempts, a.entered.connection.level = 0 := by
  intro a ha
  refine (h.mem (P := fun s ↦ s.connection.level = 0) h1 ?_ h0 a ha).1
  intro retries s e run t h0 h1 ht
  exact ((ht.outermost h0 h1).again rfl).1

variable {a : Attempt σ H α} (ha : a ∈ attempts)

theorem Repeats.outermost {retries : Nat} {verdict : Verdict α}
    (ht : Tries d body retries a.entered verdict a.run a.left) (ha : a ∈ attempts) :
    Outermost d retries verdict a.run a.left :=
  ht.outermost (h.entered h1 h0 a ha) (h1 a ha)

theorem Repeats.again_fails {before after : List (Attempt σ H α)} {b : Attempt σ H α}
    (hc : attempts = before ++ a :: b :: after) :
    a.left = b.entered ∧ ∃ r e, a.run = some r ∧ r.Fails d e ∧ e.causedByConcurrency := by
  obtain ⟨hb, _, e, ht⟩ := h.between hc
  obtain ⟨_, r, hr⟩ := (h.outermost h1 h0 ht (by simp [hc])).again rfl
  exact ⟨hb, r, e, hr⟩

include ha

theorem Repeats.rolls_back {r : Run σ H α} (hr : a.run = some r) (he : r.result = .error e) :
    ∃ told, a.left.trace = r.finish.trace ++
        .sent r.finish.connection.write .rollback (r.rollbackReply d).toBool :: told ∧
      sends told = [] ∧ reconnections told = [] := by
  obtain ⟨_, _, ht⟩ := h.tried ha
  exact (h.outermost h1 h0 ht ha).rolls_back hr he

theorem Repeats.unbegun (hn : a.run = none) :
    ∃ e, Begins d a.entered (.error e) a.left ∧ result = .error e := by
  obtain ⟨_, e, ht⟩ | ⟨_, _, _, ht, rfl⟩ := h.again_or_last ha
  · obtain ⟨_, r, hr, _⟩ := (h.outermost h1 h0 ht ha).again rfl
    cases hn.symm.trans hr
  · exact ht.unbegun_of_none hn

theorem Repeats.sticks {r : Run σ H α} (hr : a.run = some r) (hs : r.Sticks d e) :
    t.connection.level = 1 ∧ result = .error e := by
  obtain ⟨_, e, ht⟩ | ⟨rfl, _, _, ht, rfl⟩ := h.again_or_last ha
  · -- What is made again has left level zero, which an attempt that sticks has not.
    have ho := h.outermost h1 h0 ht ha
    have hl := (ho.again rfl).1
    rw [(ho.sticks hr hs).1] at hl
    cases hl
  · exact (h.outermost h1 h0 ht ha).sticks hr hs

end

end

end

end Session

namespace Procedure

open Session Entry

variable {σ H α : Type} {s t : Session σ H}

/-- How a transaction goes that is entered from `s` and left at `t`, by its attempts. -/
structure Retried (d : Driver σ H) (n : Nat) (p : Procedure σ H (Except Error α))
    (s : Session σ H) (runs : List (Run σ H α)) (result : Except Error α) (t : Session σ H)
    (attempts : List (Attempt σ H α)) : Prop where
  runs : runs = Attempt.runs attempts
  bound : (Attempt.runs attempts).length ≤ max 1 n
  first : attempts.head?.map Attempt.entered = some s
  last : attempts.getLast?.map Attempt.left = some t
  entered : ∀ a ∈ attempts, a.entered.connection.level = 0
  begun : ∀ a ∈ attempts, ∀ r, a.run = some r → Begins d a.entered (.ok ()) r.start ∧
    r.start.connection.level = 1 ∧ p.exec d r.start = (r.result, r.finish)
  unbegun : ∀ a ∈ attempts, a.run = none →
    ∃ e, Begins d a.entered (.error e) a.left ∧ result = .error e
  again : ∀ before a b after, attempts = before ++ a :: b :: after →
    a.left = b.entered ∧ ∃ r e, a.run = some r ∧ r.Fails d e ∧ e.causedByConcurrency
  rolledBack : ∀ a ∈ attempts, ∀ r e, a.run = some r → r.result = .error e →
    ∃ told, a.left.trace = r.finish.trace ++
        .sent r.finish.connection.write .rollback (r.rollbackReply d).toBool :: told ∧
      sends told = [] ∧ reconnections told = []
  ok_iff : ∀ v, result = .ok v ↔ ∃ a r, attempts.getLast? = some a ∧ a.run = some r ∧
    r.result = .ok v ∧ r.commitReply d = .ok ()
  commits : ∃ added, t.trace = s.trace ++ added ∧
    driverCommits added = if result.toBool then 1 else 0
  level : t.connection.level = 0 ∨
    ∃ a r e, attempts.getLast? = some a ∧ a.run = some r ∧ r.Sticks d e
  stuck : ∀ a ∈ attempts, ∀ r e, a.run = some r → r.Sticks d e →
    t.connection.level = 1 ∧ result = .error e

/-- A transaction is tried again after lost races only, and leaves nothing open but what could not
be rolled back. -/
theorem transact_retried (d : Driver σ H) (n : Nat) (p : Procedure σ H (Except Error α))
    (s : Session σ H) (hp : s.connection.pretending = false) (h0 : s.connection.level = 0)
    (hr : ∀ r ∈ (transact d n (p.exec d) s).1.2,
      p.StaysOpen d r.start ∧ r.finish.connection.level = 1) :
    ∃ attempts, Retried d n p s (transact d n (p.exec d) s).1.2 (transact d n (p.exec d) s).1.1
      (transact d n (p.exec d) s).2 attempts := by
  have hbody (u : Session σ H) (hu : u.connection.pretending = false) := p.exec_grows (d := d) hu
  obtain ⟨attempts, result, t, ht, h⟩ := transact_repeats (d := d) n hbody hp
  rw [ht] at hr ⊢
  have h1 (a) (ha : a ∈ attempts) (r) (hm : a.run = some r) : r.finish.connection.level = 1 :=
    (hr r (Attempt.mem_runs ha hm)).2
  have hq (a) (ha : a ∈ attempts) (r) (hm : a.run = some r) :
      driverCommits r.finish.trace = driverCommits r.start.trace := by
    obtain ⟨hpr, hrun⟩ := h.start hbody hp a ha r hm
    have hc := p.exec_driverCommits hpr (hr r (Attempt.mem_runs ha hm)).1
    rwa [hrun] at hc
  -- All that is said of the result is said by the last attempt.
  obtain ⟨a, _, verdict, ha, rfl, hlast, rfl⟩ := h.getLast
  have hout := h.outermost h1 h0 hlast (List.mem_of_getLast? ha)
  refine ⟨attempts, ?_⟩
  constructor
  case runs => rfl
  case bound =>
    have hn := h.length_le
    have hn' : (Attempt.runs attempts).length ≤ attempts.length := Attempt.length_runs_le
    omega
  case first => exact h.head
  case last => rw [ha, Option.map_some]
  case entered => exact h.entered h1 h0
  case begun =>
    intro b hb r hm
    obtain ⟨_, _, ht⟩ := h.tried hb
    obtain ⟨hb', hrun⟩ := ht.run_mem hm
    exact ⟨hb', hb'.level_ok (h.entered h1 h0 b hb), hrun⟩
  case unbegun => exact fun b hb hn ↦ h.unbegun h1 h0 hb hn
  case again => exact fun before b c after hc ↦ h.again_fails h1 h0 hc
  case rolledBack => exact fun b hb r e hm he ↦ h.rolls_back h1 h0 hb hm he
  case ok_iff =>
    intro v
    rw [hout.result_eq_ok v]
    constructor
    · rintro ⟨r, hm, hv⟩
      exact ⟨a, r, ha, hm, hv⟩
    · rintro ⟨b, r, hb, hm, hv⟩
      cases ha.symm.trans hb
      exact ⟨r, hm, hv⟩
  case commits =>
    obtain ⟨added, ht⟩ := (h.grows hbody hp).trace
    have hc := h.driverCommits_outermost h1 hq
    rw [← ht, driverCommits_append] at hc
    exact ⟨added, ht.symm, Nat.add_left_cancel hc⟩
  case level =>
    obtain hz | ⟨r, e, hm, hs⟩ := hout.level
    · exact .inl hz
    · exact .inr ⟨a, r, e, ha, hm, hs⟩
  case stuck => exact fun b hb r e hm hs ↦ h.sticks h1 h0 hb hm hs

def nestedUpdate : Procedure Script String (Except Error Nat) :=
  .transaction 1 (.execute false (.affecting "update stock set amount = 1" []) rfl .done) .done

def lostRace : Session Script String :=
  { connection :=
      { write := "write", hasReconnector := false, grammar := { dialect := .mysql },
        processor := .mysql }
    world := { commits := [.error (.driver "Deadlock found when trying to get lock")] } }

theorem transact_retried_lostRace :
    (∀ r ∈ (transact Script.driver 3 (nestedUpdate.exec Script.driver) lostRace).1.2,
      nestedUpdate.StaysOpen Script.driver r.start ∧ r.finish.connection.level = 1) ∧
    (transact Script.driver 3 (nestedUpdate.exec Script.driver) lostRace).1.2.length = 2 ∧
    ∃ attempts, Retried Script.driver 3 nestedUpdate lostRace
      (transact Script.driver 3 (nestedUpdate.exec Script.driver) lostRace).1.2
      (transact Script.driver 3 (nestedUpdate.exec Script.driver) lostRace).1.1
      (transact Script.driver 3 (nestedUpdate.exec Script.driver) lostRace).2 attempts := by
  have hr : ∀ r ∈ (transact Script.driver 3 (nestedUpdate.exec Script.driver) lostRace).1.2,
      nestedUpdate.StaysOpen Script.driver r.start ∧ r.finish.connection.level = 1 := by
    decide +kernel
  refine ⟨hr, by decide +kernel, ?_⟩
  exact transact_retried Script.driver 3 nestedUpdate lostRace rfl rfl hr

end Procedure

end FluentSql
