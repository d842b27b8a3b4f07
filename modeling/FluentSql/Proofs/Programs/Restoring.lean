import FluentSql.Proofs.Programs.Levels
import FluentSql.Proofs.Programs.Pretence
import FluentSql.Proofs.Transactions.Commits

namespace FluentSql

inductive Shift where
  | raise
  | lower
  | cut (target : Nat)
  deriving DecidableEq

namespace Shift

def apply (level : Nat) : Shift → Nat
  | raise => level + 1
  | lower => level - 1
  | cut target => min level target

def toward : Option Nat → Shift
  | none => lower
  | some target => cut target

def total (level : Nat) (shifts : List Shift) : Nat := shifts.foldl apply level

theorem total_append (level : Nat) (l l' : List Shift) :
    total level (l ++ l') = total (total level l) l' :=
  List.foldl_append

theorem total_flatMap {α : Type} {level : Nat} {f : α → List Shift} {as : List α}
    (h : ∀ a ∈ as, total level (f a) = level) : total level (as.flatMap f) = level := by
  induction as with
  | nil => rfl
  | cons a as ih =>
    rw [List.flatMap_cons, total_append, h a List.mem_cons_self]
    exact ih fun b hb ↦ h b (List.mem_cons_of_mem a hb)

end Shift

/-- What of a connection neither transactions nor the log have a part in. -/
def Connection.kept {H : Type} (c : Connection H) : Connection H :=
  { c with level := 0, queryLog := [] }

variable {σ H α β : Type} {d : Driver σ H} {s t u v : Session σ H} {l l' : List Shift}

namespace Session

open FluentSql.Action Procedure

/-- Nothing is sent, and of the connection only the log and the level are changed. -/
structure Rehearses (s : Session σ H) (l : List Shift) (t : Session σ H) : Prop where
  trace : s.trace <+: t.trace
  unsent : Entry.sends (s.since t) = []
  kept : t.connection.kept = s.connection.kept
  level : t.connection.level = Shift.total s.connection.level l

namespace Rehearses

theorem refl (s : Session σ H) : Rehearses s [] s := ⟨List.prefix_rfl, by simp, rfl, rfl⟩

theorem trans (h : Rehearses s l t) (h' : Rehearses t l' u) : Rehearses s (l ++ l') u where
  trace := h.trace.trans h'.trace
  unsent := by
    rw [since_append h.trace h'.trace, Entry.sends_append, h.unsent, h'.unsent]
    rfl
  kept := h'.kept.trans h.kept
  level := by rw [h'.level, h.level, Shift.total_append]

theorem pretending (h : Rehearses s l t) (hp : s.connection.pretending) :
    t.connection.pretending :=
  (congrArg Connection.pretending h.kept).trans hp

end Rehearses

theorem rehearses_raised : Rehearses s [.raise] s.raised :=
  ⟨by simp, by simp [since], rfl, rfl⟩

theorem rehearses_lowered {level : Nat} {shift : Shift}
    (hl : level = shift.apply s.connection.level) : Rehearses s [shift] (s.lowered level) :=
  ⟨by simp, by simp [since], rfl, hl⟩

theorem rehearses_left : Rehearses s [.lower] s.left :=
  ⟨by simp, by simp [since], by simp [Connection.kept, Connection.atLevel], by simp; rfl⟩

section

variable (hp : s.connection.pretending)

include hp

theorem execute_rehearsed (useRead : Bool) (r : Request) :
    ∃ t, (execute d useRead r).on s = (.ok r.pretended, t) ∧ Rehearses s [] t := by
  refine ⟨_, execute_ok (attempt_pretended hp) |>.trans on_logReply, ?_⟩
  exact ⟨by simp, by simp [since], rfl, rfl⟩

theorem begin_rehearsed : (begin d).on s = (.ok (), s.raised) :=
  begin_ok (openLevel_pretended hp)

theorem commit_rehearsed : ∃ t, (commit d).on s = (.ok (), t) ∧ Rehearses s [.lower] t := by
  unfold commit
  rw [on_current_bind]
  split
  · rename_i h0
    exact ⟨s, rfl, List.prefix_rfl, by simp, rfl, by simp [Shift.total, Shift.apply, h0]⟩
  · rw [on_observe_bind, commitDriver_pretended hp]
    exact ⟨s.left, leave_on, rehearses_left⟩

theorem rollback_rehearsed (target : Option Nat) :
    ∃ t, (rollback d target).on s = (.ok (), t) ∧ Rehearses s [.toward target] t := by
  have hs : (Shift.toward target).apply s.connection.level =
      min s.connection.level (target.getD (s.connection.level - 1)) := by
    cases target with
    | none => exact (Nat.min_eq_right (Nat.sub_le _ _)).symm
    | some n => rfl
  by_cases hl : s.connection.level ≤ target.getD (s.connection.level - 1)
  · refine ⟨s, rollback_outside hl, List.prefix_rfl, by simp, rfl, ?_⟩
    exact (hs.trans (Nat.min_eq_left hl)).symm
  · have hl := Nat.not_le.mp hl
    refine ⟨_, rollback_ok rfl hl (rollbackDriver_pretended hp), rehearses_lowered ?_⟩
    exact (hs.trans (Nat.min_eq_right (Nat.le_of_lt hl))).symm

end

section

variable {body : Session σ H → Except Error α × Session σ H} {moved : Session σ H → List Shift}
  (hbody : ∀ u : Session σ H, u.connection.pretending → Rehearses u (moved u) (body u).2)

include hbody

/-- However the callback ends, an attempt gives up one level after it. -/
theorem tryTransaction_rehearsed (retries : Nat) (hp : s.connection.pretending) :
    ∃ verdict r t, (tryTransaction d (noting body) retries).run s = ((verdict, [r]), t) ∧
      r.start.connection.pretending ∧ Rehearses s (.raise :: moved r.start ++ [.lower]) t := by
  have hb := begin_rehearsed (d := d) hp
  have hu := hbody s.raised hp
  have hv := hu.pretending hp
  cases hr : body s.raised with | mk result v
  rw [hr] at hu hv
  have hrun {t : Session σ H} (ht : Rehearses v [.lower] t) :
      Rehearses s (.raise :: moved s.raised ++ [.lower]) t :=
    (rehearses_raised.trans hu).trans ht
  cases result with
  | ok a =>
    have hc := close_ok retries (a := a) (commitDriver_pretended (d := d) hv)
    exact ⟨_, _, _, tryTransaction_close retries hb hr hc, hp, hrun rehearses_left⟩
  | error e =>
    by_cases hc : e.causedByConcurrency ∧ 1 < v.connection.level
    · have ha := afterFailure_aborted (d := d) retries hc.1 hc.2
      exact ⟨_, _, _, tryTransaction_fail retries hb hr (verdictAfter_error ha), hp,
        hrun ⟨List.prefix_rfl, by simp [since], rfl, rfl⟩⟩
    · obtain ⟨t, ht, hl⟩ := rollback_rehearsed (d := d) hv none
      exact ⟨_, _, t, tryTransaction_fail retries hb hr (afterFailure_ok retries hc ht), hp,
        hrun hl⟩

/-- The runs of a callback move the level one after the other. -/
theorem transactionWithin_rehearsed (retries : Nat) (hp : s.connection.pretending) :
    ∃ result runs t, (transactionWithin d (noting body) retries).run s = ((result, runs), t) ∧
      (∀ r ∈ runs, r.start.connection.pretending) ∧
      Rehearses s (runs.flatMap fun r ↦ .raise :: moved r.start ++ [.lower]) t := by
  induction retries generalizing s with
  | zero =>
    obtain ⟨verdict, r, t, ht, hr, hs⟩ := tryTransaction_rehearsed (d := d) hbody 0 hp
    exact ⟨_, _, t, transactionWithin_zero ht, by simpa using hr, by simpa using hs⟩
  | succ retries ih =>
    obtain ⟨verdict, r, t, ht, hr, hs⟩ := tryTransaction_rehearsed (d := d) hbody (retries + 1) hp
    by_cases hagain : ∃ e, verdict = .again e
    · obtain ⟨e, rfl⟩ := hagain
      obtain ⟨result, runs, t', ht', hrs, hs'⟩ := ih (hs.pretending hp)
      refine ⟨_, _, t', transactionWithin_again ht ht', ?_, by simpa using hs.trans hs'⟩
      simpa using ⟨hr, hrs⟩
    · have hlast (e) : verdict ≠ .again e := fun he ↦ hagain ⟨e, he⟩
      exact ⟨_, _, t, transactionWithin_last hlast ht, by simpa using hr, by simpa using hs⟩

end

end Session

namespace Procedure

open Session

variable (d) in
/-- How a run of a callback moves the level. A transaction raises it for each run of its own callback,
and gives one level up afterwards. -/
def shifts {α : Type} : Procedure σ H α → Session σ H → List Shift
  | done _, _ => []
  | consult look next, s => shifts (next (look s).1) { s with world := (look s).2 }
  | execute useRead r _ next, s =>
    shifts (next ((Session.execute d useRead r).on s).1) ((Session.execute d useRead r).on s).2
  | begin next, s =>
    .raise :: shifts (next ((Session.begin d).on s).1) ((Session.begin d).on s).2
  | commit next, s =>
    .lower :: shifts (next ((Session.commit d).on s).1) ((Session.commit d).on s).2
  | rollback target next, s =>
    .toward target :: shifts (next ((Session.rollback d target).on s).1)
      ((Session.rollback d target).on s).2
  | transaction attempts body next, s =>
    (transact d attempts (body.exec d) s).1.2.flatMap (fun run ↦
      .raise :: shifts body run.start ++ [.lower]) ++
      shifts (next (transact d attempts (body.exec d) s).1.1)
        (transact d attempts (body.exec d) s).2

/-- Whether a callback that has opened so many levels closes them and no others, where nothing that
is asked of a driver can fail. -/
def Closes {α : Type} : Procedure σ H α → Nat → Prop
  | done _, opened => opened = 0
  | consult _ next, opened => ∀ x, Closes (next x) opened
  | execute _ r _ next, opened => Closes (next (.ok r.pretended)) opened
  | begin next, opened => Closes (next (.ok ())) (opened + 1)
  | commit next, opened => 0 < opened ∧ Closes (next (.ok ())) (opened - 1)
  | rollback target next, opened =>
    target = none ∧ 0 < opened ∧ Closes (next (.ok ())) (opened - 1)
  | transaction _ body next, opened => Closes body 0 ∧ ∀ result, Closes (next result) opened

theorem transact_rehearsed (attempts : Nat) {body : Procedure σ H (Except Error β)}
    (hbody : ∀ u : Session σ H, u.connection.pretending →
      Rehearses u (body.shifts d u) (body.exec d u).2) (hp : s.connection.pretending) :
    ∃ result runs t, transact d attempts (body.exec d) s = ((result, runs), t) ∧
      (∀ r ∈ runs, r.start.connection.pretending) ∧
      Rehearses s (runs.flatMap fun r ↦ .raise :: body.shifts d r.start ++ [.lower]) t :=
  transactionWithin_rehearsed hbody (attempts - 1) hp

/-- In a pretence a callback sends nothing, and changes only the log and the level. -/
theorem rehearses_exec (p : Procedure σ H α) (hp : s.connection.pretending) :
    Rehearses s (p.shifts d s) (p.exec d s).2 := by
  induction p generalizing s with
  | done a => exact .refl s
  | consult look next ih =>
    have hs : Rehearses s [] { s with world := (look s).2 } :=
      ⟨List.prefix_rfl, by simp [since], rfl, rfl⟩
    exact hs.trans (ih _ hp)
  | execute useRead r hr next ih =>
    obtain ⟨t, ht, hs⟩ := execute_rehearsed (d := d) hp useRead r
    rw [exec_execute, shifts, ht]
    exact hs.trans (ih _ (hs.pretending hp))
  | begin next ih =>
    rw [exec_begin, shifts, begin_rehearsed hp]
    exact rehearses_raised.trans (ih _ hp)
  | commit next ih =>
    obtain ⟨t, ht, hs⟩ := commit_rehearsed (d := d) hp
    rw [exec_commit, shifts, ht]
    exact hs.trans (ih _ (hs.pretending hp))
  | rollback target next ih =>
    obtain ⟨t, ht, hs⟩ := rollback_rehearsed (d := d) hp target
    rw [exec_rollback, shifts, ht]
    exact hs.trans (ih _ (hs.pretending hp))
  | transaction attempts body next ihb ih =>
    obtain ⟨result, runs, t, ht, -, hs⟩ :=
      transact_rehearsed (d := d) attempts (fun _ hu ↦ ihb hu) hp
    rw [exec_transaction, shifts, ht]
    exact hs.trans (ih _ (hs.pretending hp))

/-- A callback that closes what it opens comes back to the level under its own levels. -/
theorem total_shifts (p : Procedure σ H α) {opened : Nat} (hc : p.Closes opened)
    (hp : s.connection.pretending) (level : Nat) :
    Shift.total (level + opened) (p.shifts d s) = level := by
  induction p generalizing s opened level with
  | done a =>
    obtain rfl : opened = 0 := hc
    rfl
  | consult look next ih =>
    rw [shifts]
    exact ih _ (s := { s with world := (look s).2 }) (hc _) hp level
  | execute useRead r hr next ih =>
    obtain ⟨t, ht, hs⟩ := execute_rehearsed (d := d) hp useRead r
    rw [shifts, ht]
    exact ih _ hc (hs.pretending hp) level
  | begin next ih =>
    rw [shifts, begin_rehearsed hp]
    exact ih _ (s := s.raised) hc hp level
  | commit next ih =>
    obtain ⟨t, ht, hs⟩ := commit_rehearsed (d := d) hp
    obtain ⟨h0, hc⟩ := hc
    rw [shifts, ht, ← Nat.sub_add_cancel h0]
    exact ih _ hc (hs.pretending hp) level
  | rollback target next ih =>
    obtain ⟨t, ht, hs⟩ := rollback_rehearsed (d := d) hp target
    obtain ⟨rfl, h0, hc⟩ := hc
    rw [shifts, ht, ← Nat.sub_add_cancel h0]
    exact ih _ hc (hs.pretending hp) level
  | transaction attempts body next ihb ih =>
    obtain ⟨result, runs, t, ht, hr, hs⟩ :=
      transact_rehearsed (d := d) attempts (fun _ hu ↦ body.rehearses_exec hu) hp
    have hruns : ∀ run ∈ runs, Shift.total (level + opened)
        (.raise :: body.shifts d run.start ++ [.lower]) = level + opened := by
      intro run hrun
      have hb : Shift.total (level + opened + 1) (body.shifts d run.start) = level + opened + 1 :=
        ihb hc.1 (hr run hrun) (level + opened + 1)
      rw [List.cons_append, Shift.total, List.foldl_cons, ← Shift.total, Shift.apply,
        Shift.total_append, hb]
      rfl
    rw [shifts, ht, Shift.total_append, Shift.total_flatMap hruns]
    exact ih _ (hc.2 result) (hs.pretending hp) level

end Procedure

namespace Procedure

open Session Program Stage FluentSql.Action

/-- A pretence sends nothing and changes nothing of a connection but its level, moved by the
transactions of the callback. If that comes to nothing, as with a callback that closes what it opens,
then afterwards as before a transaction is open wherever a program commits or rolls back. -/
theorem pretend_restores (d : Driver σ H) (s : Session σ H)
    (body : Procedure σ H (Except Error Unit)) :
    let t := (pretended (body.exec d) s).2
    let level := Shift.total s.connection.level (body.shifts d s.entered)
    Entry.sends (s.since t) = [] ∧
      t.connection = { s.connection with level, pretending := false } ∧
      (body.Closes 0 → level = s.connection.level) ∧
      (level = s.connection.level → ∀ (past : List (Stage σ H)) (γ : Type) (p : Program σ H γ),
        p.Plain → Upheld past s → Sound past (p.course d t)) := by
  intro t level
  have hs : Rehearses s.entered (body.shifts d s.entered) (body.exec d s.entered).2 :=
    body.rehearses_exec rfl
  have hconnection : t.connection = { s.connection with level, pretending := false } := by
    have ht : t.connection = { (body.exec d s.entered).2.connection.kept with
      level := (body.exec d s.entered).2.connection.level,
      queryLog := s.connection.queryLog, logging := s.connection.logging, pretending := false } := rfl
    rw [ht, hs.kept, hs.level]
    rfl
  refine ⟨hs.unsent, hconnection, fun hc ↦ body.total_shifts hc rfl _, fun hl past γ p hp hu ↦ ?_⟩
  have hopen : Upheld past t := by
    intro h0
    rw [hconnection] at h0 ⊢
    exact hu (hl ▸ h0)
  exact (leads_course p hp (by rw [hconnection]) hopen).sound

def guardedRace : Procedure Script String (Except Error Unit) :=
  .begin fun _ ↦ .execute true (.statement "a" [.int32 1]) rfl fun _ ↦
    .transaction 2 (.execute true (.statement "b" []) rfl fun _ ↦
      .done (.error (.deadlock "" [] .missingReconnector))) fun _ : Except Error Unit ↦
        .commit fun result ↦ .done result

theorem pretend_restores_guardedRace :
    let t := (pretended (guardedRace.exec Script.driver) busy).2
    let past : List (Stage Script String) := [.did (.sent "write" .begin true)]
    guardedRace.Closes 0 ∧ Upheld past busy ∧ (only .commit).Plain ∧
      guardedRace.shifts Script.driver busy.entered = [.raise, .raise, .lower, .lower] ∧
      t.connection = { busy.connection with level := 1, pretending := false } ∧
      Entry.sends (busy.since t) = [] ∧ Sound past ((only .commit).course Script.driver t) := by
  intro t past
  have hc : guardedRace.Closes 0 :=
    ⟨rfl, fun _ ↦ ⟨Nat.one_pos, rfl⟩⟩
  have hu : Upheld past busy := fun _ ↦ ⟨[], [], rfl, fun _ hx ↦ absurd hx List.not_mem_nil⟩
  have hp : (only .commit).Plain := fun _ ↦ trivial
  obtain ⟨hsends, hconnection, hlevel, hsound⟩ := pretend_restores Script.driver busy guardedRace
  refine ⟨hc, hu, hp, by decide +kernel, ?_, hsends, hsound (hlevel hc) past _ _ hp hu⟩
  rw [hconnection, hlevel hc]
  rfl

/-- A level that is only opened in a pretence stays open, and a commit is sent without a transaction.
One that is closed in a pretence is lost, and its transaction is not committed. -/
theorem pretend_restores_unbalanced :
    let idle := busy.adapt (·.atLevel 0)
    let t := (pretended ((begin fun result ↦ done result).exec Script.driver) idle).2
    let u := (pretended ((commit fun result ↦ done result).exec Script.driver) busy).2
    t.connection.level = 1 ∧
      (Entry.sends (t.since ((Session.commit Script.driver).on t).2)).map
        (fun x ↦ (x.1, x.2.1.isCommit)) = [("write", true)] ∧
      u.connection.level = 0 ∧
      (Entry.sends (u.since ((Session.commit Script.driver).on u).2)).map
        (fun x ↦ (x.1, x.2.1.isCommit)) = [] := by
  decide +kernel

end Procedure

end FluentSql
