import FluentSql.Proofs.Programs.Levels
import FluentSql.Proofs.Transactions.Retrying

namespace FluentSql

variable {σ H α β : Type} {d : Driver σ H} {s t u : Session σ H}

def Event.isCommitted : Event → Bool
  | executed .. => false
  | beginning _ => false
  | committed _ => true
  | rolledBack _ => false

namespace Entry

def committedEvents (added : List (Entry H)) : Nat := (events added).countP Event.isCommitted

def Backed (added : List (Entry H)) : Prop :=
  ∀ l, l <+: added → committedEvents l ≤ driverCommits l

variable {l l' : List (Entry H)}

@[simp] theorem committedEvents_nil : committedEvents ([] : List (Entry H)) = 0 := rfl

@[simp] theorem committedEvents_sent (h : H) (r : Request) (ok : Bool) :
    committedEvents (sent h r ok :: l) = committedEvents l := rfl

@[simp] theorem committedEvents_reconnected (ok : Bool) :
    committedEvents (reconnected ok :: l) = committedEvents l := rfl

@[simp] theorem committedEvents_append (l l' : List (Entry H)) :
    committedEvents (l ++ l') = committedEvents l + committedEvents l' := by
  rw [committedEvents, events_append, List.countP_append]
  rfl

theorem committedEvents_mono (h : l <+: l') : committedEvents l ≤ committedEvents l' := by
  obtain ⟨rest, rfl⟩ := h
  rw [committedEvents_append]
  exact Nat.le_add_right _ _

theorem Backed.of_none (h : committedEvents l = 0) : Backed l := by
  intro l' hl
  have hle := committedEvents_mono hl
  omega

theorem Backed.of_commit {h : H} (hl : committedEvents l ≤ 1) :
    Backed (.sent h .commit true :: l) := by
  intro l' hp
  obtain rfl | ⟨rest, rfl, hrest⟩ := List.prefix_cons_iff.mp hp
  · exact Nat.zero_le _
  · have hle := committedEvents_mono hrest
    rw [driverCommits_sent]
    simp only [committedEvents_sent, Request.isCommit, Bool.and_self, if_true]
    omega

theorem Backed.append (h : Backed l) (h' : Backed l') : Backed (l ++ l') := by
  intro p hp
  obtain hp | ⟨rest, rfl⟩ := List.prefix_or_prefix_of_prefix hp (List.prefix_append l l')
  · exact h p hp
  · have hrest := (List.prefix_append_right_inj l).mp hp
    have hl := h l List.prefix_rfl
    have hr := h' rest hrest
    rw [committedEvents_append, driverCommits_append]
    omega

end Entry

namespace Session

open Entry Procedure

@[simp] theorem committedEvents_announcement (event : String → Event) (c : Connection H) :
    committedEvents (announcement event c) =
      if c.hasSink && (event c.name).isCommitted then 1 else 0 := by
  unfold committedEvents
  rw [events_announcement]
  cases c.hasSink
  · rfl
  · cases h : (event c.name).isCommitted <;> simp [h]

theorem committedEvents_leaving_le (s : Session σ H) : committedEvents s.leaving ≤ 1 := by
  unfold leaving
  split
  · rw [committedEvents_announcement]
    split <;> omega
  · exact Nat.zero_le 1

theorem Executes.backed {useRead : Bool} {r : Request} {result : Except Error r.Reply}
    (h : Executes d useRead r s result t) : Backed (s.since t) := by
  apply Backed.of_none
  cases h <;> simp [since, Session.answered, renewed, tried, Event.isCommitted]

theorem Moves.backed (h : Moves d s t) : Backed (s.since t) := by
  induction h with
  | quiet hp hw hl ht => exact .of_none (by simp [since, ht])
  | executed hr h => exact h.backed
  | begun h => exact .of_none (by cases h <;> simp [since, Event.isCommitted])
  | @committed s t result h =>
    cases h with
    | outside h0 => exact .of_none (by simp)
    | @committed w h1 hd =>
      have ht : s.since (s.sent s.connection.write .commit true w).left =
          .sent s.connection.write .commit true ::
            (s.sent s.connection.write .commit true w).leaving := since_eq (by simp)
      exact ht ▸ .of_commit (committedEvents_leaving_le _)
    | failed h1 hd => exact .of_none (by simp [since])
    | left h1 =>
      have hl : s.leaving = [] := if_neg (by omega)
      exact .of_none (by simp [since, hl])
  | rolledBack h => exact .of_none (by cases h <;> simp [since, Event.isCommitted])
  | reconnected h => exact .of_none (by cases h <;> simp [since])
  | uncommitted h1 hd => exact .of_none (by simp [since])
  | abandoned hl => exact .of_none (by simp [since])
  | trans h h' ih ih' =>
    rw [h.grows.since_append h'.grows]
    exact ih.append ih'

section

variable {body : Session σ H → Except Error α × Session σ H} {retries : Nat}

/-- An attempt tells of no more than was done, if a callback that goes well leaves its transaction
open. -/
theorem Tries.backed {verdict : Verdict α} {run : Option (Run σ H α)}
    (h : Tries d body retries s verdict run t)
    (hbody : ∀ u : Session σ H, u.connection.pretending = false → u.Grows (body u).2)
    (hp : s.connection.pretending = false)
    (hq : ∀ r, run = some r → Backed (r.start.since r.finish) ∧
      (r.result.toBool → 0 < r.finish.connection.level)) : Backed (s.since t) := by
  obtain ⟨-, hm⟩ | ⟨r, hr, hm, hrun, hend⟩ := h.moves
  · exact hm.backed
  · obtain ⟨hb, hl⟩ := hq r hr
    have hgr : r.start.Grows r.finish := by
      simpa only [hrun] using hbody r.start (hm.grows.outside hp)
    obtain ht | ⟨hok, h0, -⟩ := hend
    · rw [(hm.grows.trans hgr).since_append ht.grows, hm.grows.since_append hgr]
      exact (hm.backed.append hb).append ht.backed
    · exact absurd (hl hok) (by omega)

theorem Repeats.backed {attempts : List (Attempt σ H α)} {result : Except Error α}
    (h : Repeats d body retries s attempts result t)
    (hbody : ∀ u : Session σ H, u.connection.pretending = false → u.Grows (body u).2)
    (hp : s.connection.pretending = false)
    (hq : ∀ a ∈ attempts, ∀ r, a.run = some r → Backed (r.start.since r.finish) ∧
      (r.result.toBool → 0 < r.finish.connection.level)) : Backed (s.since t) := by
  induction h with
  | last h hv => exact h.backed hbody hp (hq _ List.mem_cons_self)
  | again h hs ih =>
    have hg := h.grows hbody hp
    have hp' := hg.outside hp
    rw [hg.since_append (hs.grows hbody hp')]
    exact (h.backed hbody hp (hq _ List.mem_cons_self)).append
      (ih hp' fun a ha ↦ hq a (List.mem_cons_of_mem _ ha))

/-- What is tried again is left at level zero. -/
theorem Tries.level_of_again {run : Option (Run σ H α)} {verdict : Verdict α} {e : Error}
    (h : Tries d body retries s verdict run t) (hv : verdict = .again e) :
    t.connection.level = 0 := by
  cases h with
  | unbegun hb => cases hv
  | committed hb hr h1 hd => cases hv
  | uncommitted hb hr h1 hd => rfl
  | left hb hr h1 => cases hv
  | aborted hb hr hc h1 => cases hv
  | @rolledBack u v t e' hb hr hc ht =>
    obtain ⟨-, hrace⟩ := verdictOf_eq_again _ hv
    have hle : v.connection.level ≤ 1 := Nat.not_lt.mp fun h1 ↦ hc ⟨hrace, h1⟩
    cases ht with
    | outside hl => omega
    | undone hl h0 hd => exact h0
    | restored hl h0 hs hd => omega
    | counted hl h0 hs => omega
  | stuck hb hr hc ht => cases hv

/-- An attempt that succeeds after its callback has ended at level one has been committed. -/
theorem Tries.committed_of_done {run : Option (Run σ H α)} {verdict : Verdict α} {a : α}
    {r : Run σ H α} (h : Tries d body retries s verdict run t) (hv : verdict = .done a)
    (hr : run = some r) (h1 : r.finish.connection.level = 1) :
    ∃ w, t = (r.finish.sent r.finish.connection.write .commit true w).left := by
  cases h with
  | unbegun hb => cases hr
  | committed hb hrun hl hd =>
    cases hr
    exact ⟨_, rfl⟩
  | uncommitted hb hrun hl hd => exact absurd hv (verdictOf_ne_done _ _)
  | left hb hrun hl =>
    cases hr
    exact absurd h1 hl
  | aborted hb hrun hc hl => cases hv
  | rolledBack hb hrun hc ht => exact absurd hv (verdictOf_ne_done _ _)
  | stuck hb hrun hc ht => cases hv

/-- The attempt that an outermost transaction owes its success to. -/
theorem Repeats.last_of_ok {attempts : List (Attempt σ H α)} {result : Except Error α} {a : α}
    (h : Repeats d body retries s attempts result t)
    (hbody : ∀ u : Session σ H, u.connection.pretending = false → u.Grows (body u).2)
    (hp : s.connection.pretending = false) (h0 : s.connection.level = 0) (ha : result = .ok a) :
    ∃ retries u r, u.connection.pretending = false ∧ u.connection.level = 0 ∧
      (Attempt.runs attempts).getLast? = some r ∧ Tries d body retries u (.done a) (some r) t := by
  induction h with
  | @last retries s t verdict run h hv =>
    have hd : verdict = .done a := by
      cases verdict with
      | done b => exact congrArg Verdict.done (Except.ok.inj ha)
      | failed e => cases ha
      | again e => cases ha
    subst hd
    cases run with
    | none =>
      obtain ⟨e, -, he⟩ := h.unbegun_of_none rfl
      cases he
    | some r => exact ⟨_, s, r, hp, h0, rfl, h⟩
  | again h hs ih =>
    obtain ⟨retries, u, r, hpu, hu0, hr, ht⟩ :=
      ih ((h.grows hbody hp).outside hp) (h.level_of_again rfl) ha
    refine ⟨retries, u, r, hpu, hu0, ?_, ht⟩
    rw [Attempt.runs_cons, List.getLast?_append, hr]
    rfl

/-- An outermost transaction begins at the driver right before its callback. -/
theorem Begins.outermost (h : Begins d s (.ok ()) t) (h0 : s.connection.level = 0) :
    ∃ before, t.trace = before ++
      .sent t.connection.write .begin true :: announcement .beginning t.connection := by
  cases h with
  | opened _ hd => exact ⟨s.trace, by simp; rfl⟩
  | @openedAgain e handles w w' w'' _ hd he hr hn hd' =>
    exact ⟨s.trace ++ [.sent s.connection.write .begin false, .reconnected true], by simp; rfl⟩
  | marked hl hs hd => exact absurd h0 hl
  | counted hl hs => exact absurd h0 hl

end

end Session

namespace Program

open Entry Session Procedure Stage

variable (d) in
/-- Whether callbacks that go well leave a transaction open. -/
def LeavesOpen {α : Type} : Program σ H α → Session σ H → Prop
  | done _, _ => True
  | consult look next, s => LeavesOpen (next (look s).1) { s with world := (look s).2 }
  | perform c next, s => LeavesOpen (next ((c.perform d).on s).1) ((c.perform d).on s).2
  | transaction attempts body next, s =>
    (∀ run ∈ (transact d attempts (body.exec d) s).1.2, LeavesOpen body run.start ∧
      (run.result.toBool → 0 < run.finish.connection.level)) ∧
      LeavesOpen (next (transact d attempts (body.exec d) s).1.1)
        (transact d attempts (body.exec d) s).2
  | pretend body next, s =>
    LeavesOpen (next (pretended (body.exec d) s).1) (pretended (body.exec d) s).2

theorem backed_exec (p : Program σ H α) (hq : p.Plain) (hp : s.connection.pretending = false)
    (hl : p.LeavesOpen d s) : Backed (s.since (p.exec d s).2) := by
  induction p generalizing s with
  | done a => exact .of_none (by simp [exec])
  | consult look next ih =>
    have hn := ih (look s).1 (s := { s with world := (look s).2 }) (hq _) hp hl
    exact hn
  | perform c next ih =>
    have hg := perform_grows (d := d) c hp
    have hn := (next ((c.perform d).on s).1).grows_exec (d := d) (hq _) (hg.outside hp)
    have hc : Backed (s.since ((c.perform d).on s).2) := by
      obtain ⟨h, rfl⟩ | ⟨-, hm⟩ := c.perform_moves (d := d) hp
      · exact .of_none (congrArg committedEvents (since_self s))
      · exact hm.backed
    rw [exec_perform, hg.since_append hn]
    exact hc.append (ih _ (hq _) (hg.outside hp) hl)
  | transaction attempts body next ihb ih =>
    have hbody (u : Session σ H) (hu : u.connection.pretending = false) :
        u.Grows (body.exec d u).2 := body.grows_exec hq.1 hu
    obtain ⟨list, result, t, ht, h⟩ := transact_repeats (d := d) attempts hbody hp
    rw [LeavesOpen, ht] at hl
    obtain ⟨hruns, hnext⟩ := hl
    have hg := h.grows hbody hp
    have hn := (next result).grows_exec (d := d) (hq.2 _) (hg.outside hp)
    rw [exec_transaction, ht, hg.since_append hn]
    refine (h.backed hbody hp fun a ha r hr ↦ ?_).append (ih _ (hq.2 _) (hg.outside hp) hnext)
    obtain ⟨hpr, hrun⟩ := h.start hbody hp a ha r hr
    obtain ⟨hlr, hlevel⟩ := hruns r (Attempt.mem_runs ha hr)
    have hb := ihb hq.1 hpr hlr
    rw [hrun] at hb
    exact ⟨hb, hlevel⟩
  | pretend body next ihb ih => exact hq.elim

theorem kept_of_level {body : Program σ H (Except Error β)} (hq : body.Plain)
    (hp : u.connection.pretending = false) {v : Session σ H} (hv : (body.exec d u).2 = v)
    (hl : 0 < v.connection.level) (hn : ∀ h, .sent h .begin true ∉ u.since v) :
    v.connection.write = u.connection.write ∧
      ∀ entry ∈ u.since v, ¬ Ends u.connection.write (.did (σ := σ) entry) := by
  have hs : Upheld [.did (.sent u.connection.write .begin true)] u :=
    fun _ ↦ ⟨[], [], rfl, List.forall_mem_nil _⟩
  have h := leads_course (d := d) body hq hp hs
  rw [hv] at h
  obtain ⟨earlier, later, hpast, hlater⟩ := h.upheld hl
  have hmem {entry : Entry H} : entry ∈ u.since v ↔ .did entry ∈ body.course d u := by
    rw [← h.entries, List.mem_filterMap]
    constructor
    · rintro ⟨stage, hstage, he⟩
      cases stage with
      | did entry =>
        cases he
        exact hstage
      | seen s => cases he
      | installed => cases he
    · exact fun he ↦ ⟨_, he, rfl⟩
  -- The begin of which nothing is ended can only be the one in front of the callback.
  cases earlier with
  | nil =>
    obtain ⟨hbegin, rfl⟩ := List.cons.inj hpast
    have hw : v.connection.write = u.connection.write := by simpa [eq_comm] using hbegin
    rw [hw] at hlater
    exact ⟨hw, fun entry he ↦ hlater _ (hmem.mp he)⟩
  | cons stage earlier =>
    simp only [List.cons_append, List.nil_append, List.cons.injEq] at hpast
    have hbegin : Stage.did (.sent v.connection.write .begin true) ∈ body.course d u := by
      rw [hpast.2]
      exact List.mem_append_right _ List.mem_cons_self
    exact absurd (hmem.mpr hbegin) (hn _)

instance decidableLeavesOpen {α : Type} : (p : Program σ H α) → (s : Session σ H) →
    Decidable (p.LeavesOpen d s)
  | done _, _ => instDecidableTrue
  | consult look next, s => decidableLeavesOpen (next (look s).1) { s with world := (look s).2 }
  | perform c next, s =>
    decidableLeavesOpen (next ((c.perform d).on s).1) ((c.perform d).on s).2
  | transaction attempts body next, s =>
    have := fun s ↦ decidableLeavesOpen body s
    have := decidableLeavesOpen (next (transact d attempts (body.exec d) s).1.1)
      (transact d attempts (body.exec d) s).2
    instDecidableAnd
  | pretend body next, s =>
    decidableLeavesOpen (next (pretended (body.exec d) s).1) (pretended (body.exec d) s).2

/-- Commits are only told of after the driver has made them, as long as callbacks that go well leave
their transactions open. An outermost transaction whose callback ends at level one, with no other
transaction begun in it, succeeds only if the driver commits what it was begun with. -/
theorem commits_told (p : Program σ H α) (s : Session σ H) (hq : p.Plain)
    (hp : s.connection.pretending = false) (hl : p.LeavesOpen d s) :
    (∃ added, (p.exec d s).2.trace = s.trace ++ added ∧
      ∀ l, l <+: added → committedEvents l ≤ driverCommits l) ∧
    ∀ (attempts : Nat) (body : Program σ H (Except Error β)) (u : Session σ H), body.Plain →
      u.connection.pretending = false → u.connection.level = 0 →
      ∀ b runs t r, transact d attempts (body.exec d) u = ((.ok b, runs), t) →
        runs.getLast? = some r → r.finish.connection.level = 1 →
        (∀ h, .sent h .begin true ∉ r.start.since r.finish) →
        ∃ h before told told', r.start.trace = before ++ .sent h .begin true :: told ∧
          r.finish.trace = r.start.trace ++ r.start.since r.finish ∧
          t.trace = r.finish.trace ++ .sent h .commit true :: told' ∧
          ∀ entry ∈ told ++ r.start.since r.finish, ¬ Ends h (.did (σ := σ) entry) := by
  refine ⟨⟨_, (p.grows_exec hq hp).trace_eq, p.backed_exec hq hp hl⟩, ?_⟩
  intro attempts body u hq hp h0 b runs t r ht hr h1 hn
  have hbody (v : Session σ H) (hv : v.connection.pretending = false) :
      v.Grows (body.exec d v).2 := body.grows_exec hq hv
  obtain ⟨list, result, t', ht', h⟩ := transact_repeats (d := d) attempts hbody hp
  rw [ht] at ht'
  obtain ⟨⟨rfl, rfl⟩, rfl⟩ : ((_ = _) ∧ (_ = _)) ∧ (_ = _) := by simpa using ht'
  obtain ⟨retries, v, r', hpv, hv0, hr', htry⟩ := h.last_of_ok hbody hp h0 rfl
  obtain rfl : r' = r := Option.some.inj (hr'.symm.trans hr)
  obtain ⟨hb, hrun⟩ := htry.run_mem rfl
  obtain ⟨before, hbefore⟩ := hb.outermost hv0
  have hpr := hb.grows.outside hpv
  have hpositive : 0 < r'.finish.connection.level := by omega
  obtain ⟨hw, hkept⟩ := kept_of_level hq hpr (congrArg Prod.snd hrun) hpositive hn
  have hg : r'.start.Grows r'.finish := by simpa only [hrun] using hbody r'.start hpr
  -- What is told of a transaction that was begun does not end it.
  have htold : ∀ entry ∈ announcement .beginning r'.start.connection,
      ¬ Ends r'.start.connection.write (.did (σ := σ) entry) := fun entry he ↦
    not_ends_of_any (any_isClosing_announcement _ _) (any_isRenewal_announcement _ _) _
      (List.mem_map_of_mem he)
  obtain ⟨w, rfl⟩ := htry.committed_of_done rfl rfl h1
  refine ⟨_, before, _, (r'.finish.sent r'.finish.connection.write .commit true w).leaving, hbefore,
    hg.trace_eq, ?_, fun entry he ↦ ?_⟩
  · rw [← hw]
    simp
  · obtain he | he := List.mem_append.mp he
    · exact htold entry he
    · exact hkept entry he

def nesting : Program Script String (Except Error Unit) :=
  .transaction 1 (.perform .begin fun _ ↦ .perform .commit fun answer ↦
    .done (answer.map fun _ ↦ ())) .done

def listening : Session Script String where
  connection :=
    { write := "write", grammar := { dialect := .mysql }, processor := .mysql, hasSink := true }
  world := { commits := [.error (.deadlock "" [] .missingReconnector)] }

def opens : Entry String → Bool
  | .sent _ .begin _ => true
  | _ => false

theorem commits_told_nesting :
    let p : Program Script String (Except Error Unit) := .transaction 2 nesting .done
    let runs := (transact Script.driver 2 (nesting.exec Script.driver) listening).1.2
    p.Plain ∧ listening.connection.pretending = false ∧ p.LeavesOpen Script.driver listening ∧
      committedEvents (p.exec Script.driver listening).2.trace = 1 ∧
      (∃ added, (p.exec Script.driver listening).2.trace = listening.trace ++ added ∧
        ∀ l, l <+: added → committedEvents l ≤ driverCommits l) ∧
      runs.length = 2 ∧ ∃ r h told, runs.getLast? = some r ∧ r.finish.connection.level = 1 ∧
        (p.exec Script.driver listening).2.trace =
          r.finish.trace ++ .sent h .commit true :: told := by
  intro p runs
  have hb : nesting.Plain := ⟨fun _ _ ↦ trivial, fun _ ↦ trivial⟩
  have hl : p.LeavesOpen Script.driver listening := by decide +kernel
  obtain ⟨hbacked, hlast⟩ :=
    commits_told (d := Script.driver) p listening ⟨hb, fun _ ↦ trivial⟩ rfl hl
  have hrun : runs.getLast?.any (fun r ↦ r.finish.connection.level == 1 &&
      (r.start.since r.finish).all (!opens ·)) := by decide +kernel
  have hok : (transact Script.driver 2 (nesting.exec Script.driver) listening).1.1.toBool := by
    decide +kernel
  refine ⟨⟨hb, fun _ ↦ trivial⟩, rfl, hl, by decide +kernel, hbacked, by decide +kernel, ?_⟩
  obtain ⟨r, hr, hkept⟩ := (Option.any_eq_true _ _).1 hrun
  simp only [Bool.and_eq_true, beq_iff_eq, List.all_eq_true] at hkept
  obtain ⟨h1, hnone⟩ := hkept
  cases hb' : (transact Script.driver 2 (nesting.exec Script.driver) listening).1.1 with
  | error e =>
    rw [hb'] at hok
    cases hok
  | ok b =>
    obtain ⟨h, _, _, told, -, -, ht, -⟩ := hlast 2 nesting listening hb rfl rfl b runs _ r
      (by rw [← hb']) hr h1 fun h hm ↦ absurd (hnone _ hm) Bool.false_ne_true
    exact ⟨r, h, told, hr, h1, ht⟩

def closing (c : Command Script String) : Program Script String (Except Error Unit) :=
  .transaction 1 (.perform c fun answer ↦ .done (answer.map fun _ ↦ ())) .done

/-- A callback that commits by itself has a second commit told of. One that rolls back by itself is
a success, with nothing committed. -/
theorem commits_told_closing :
    let s : Session Script String := { listening with world := {} }
    let committing := (closing .commit).exec Script.driver s
    let rollingBack := (closing (.rollback none)).exec Script.driver s
    (committedEvents committing.2.trace = 2 ∧ driverCommits committing.2.trace = 1) ∧
      rollingBack.1.toBool ∧ driverCommits rollingBack.2.trace = 0 := by
  decide +kernel

end Program

end FluentSql
