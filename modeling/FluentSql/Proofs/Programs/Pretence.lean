import FluentSql.Proofs.Programs.Program
import Mathlib.Data.List.Forall2

namespace FluentSql

variable {σ H α β : Type} {d : Driver σ H} {s t u v : Session σ H}
  {l l' : List (String × List Value)}

namespace Session

open FluentSql.Action Procedure

/-- Nothing is sent, and the log grows by these statements. -/
structure Silent (s : Session σ H) (l : List (String × List Value)) (t : Session σ H) : Prop where
  trace : s.trace <+: t.trace
  unsent : Entry.sends (s.since t) = []
  log : t.connection.queryLog = s.connection.queryLog ++ l

/-- The same, without an end of the pretence or of its log. -/
structure Pretends (s : Session σ H) (l : List (String × List Value)) (t : Session σ H) : Prop
    extends Silent s l t where
  pretending : t.connection.pretending = s.connection.pretending
  logging : t.connection.logging = s.connection.logging

theorem Silent.trans (h : Silent s l t) (h' : Silent t l' u) : Silent s (l ++ l') u where
  trace := h.trace.trans h'.trace
  unsent := by
    rw [since_append h.trace h'.trace, Entry.sends_append, h.unsent, h'.unsent]
    rfl
  log := by rw [h'.log, h.log, List.append_assoc]

theorem Silent.unique (h : Silent s l t) (h' : Silent s l' t) : l = l' :=
  List.append_cancel_left (h.log.symm.trans h'.log)

theorem Pretends.trans (h : Pretends s l t) (h' : Pretends t l' u) : Pretends s (l ++ l') u where
  toSilent := h.toSilent.trans h'.toSilent
  pretending := h'.pretending.trans h.pretending
  logging := h'.logging.trans h.logging

theorem Pretends.quiet (ht : t.trace = s.trace)
    (hl : t.connection.queryLog = s.connection.queryLog)
    (hp : t.connection.pretending = s.connection.pretending)
    (hlog : t.connection.logging = s.connection.logging) : Pretends s [] t where
  trace := ht ▸ List.prefix_rfl
  unsent := by simp [since, ht]
  log := by rw [hl, List.append_nil]
  pretending := hp
  logging := hlog

theorem Pretends.refl (s : Session σ H) : Pretends s [] s := .quiet rfl rfl rfl rfl

theorem pretends_raised : Pretends s [] s.raised := by
  refine ⟨⟨by simp, by simp [since], ?_⟩, rfl, rfl⟩
  simp [Connection.atLevel]

theorem pretends_lowered (level : Nat) : Pretends s [] (s.lowered level) := by
  refine ⟨⟨by simp, by simp [since], ?_⟩, rfl, rfl⟩
  simp [Connection.atLevel]

theorem pretends_left : Pretends s [] s.left := by
  refine ⟨⟨by simp, by simp [since], ?_⟩, ?_, ?_⟩ <;> simp [Connection.atLevel]

theorem pretends_atLevel (level : Nat) : Pretends s [] (s.adapt (·.atLevel level)) :=
  .quiet rfl rfl rfl rfl

theorem Reconnects.pretends {result : Except Error Unit} (h : Reconnects d s result t) :
    Pretends s [] t := by
  cases h with
  | missing hr => exact .refl s
  | failed hr hn => exact ⟨⟨by simp, by simp [since], by simp⟩, rfl, rfl⟩
  | renewed hr hn => exact ⟨⟨by simp, by simp [since], by simp⟩, rfl, rfl⟩

section

variable {level : Nat} (hp : s.connection.pretending)

include hp

theorem attempt_pretended {useRead : Bool} {r : Request} :
    (attempt d useRead r).on s = (.ok r.pretended, s) := by
  unfold attempt
  rw [on_current_bind, hp]
  rfl

theorem openLevel_pretended : (openLevel d).on s = (.ok (), s) := by
  unfold openLevel
  rw [on_current_bind, hp]
  rfl

theorem commitDriver_pretended : (commitDriver d).on s = (.ok (), s) := by
  unfold commitDriver
  rw [on_current_bind, hp, Bool.not_true, Bool.and_false]
  rfl

theorem rollbackDriver_pretended : (rollbackDriver d level).on s = (.ok (), s) := by
  unfold rollbackDriver
  rw [on_current_bind, hp]
  rfl

theorem pretends_execute {useRead : Bool} {r : Request} (hl : s.connection.logging) :
    Pretends s [(r.sql, r.bindings)] ((execute d useRead r).on s).2 := by
  rw [execute_ok (attempt_pretended hp), on_logReply]
  exact ⟨⟨by simp, by simp [since], by simp [Connection.logged, hl]⟩, rfl, rfl⟩

theorem pretends_begin : Pretends s [] ((begin d).on s).2 := by
  rw [begin_ok (openLevel_pretended hp)]
  exact pretends_raised

theorem pretends_commit : Pretends s [] ((commit d).on s).2 := by
  unfold commit
  rw [on_current_bind]
  split
  · exact .refl s
  · rw [on_observe_bind, commitDriver_pretended hp]
    dsimp only
    rw [leave_on]
    exact pretends_left

theorem rollback_pretended (target : Option Nat) :
    ∃ t, (rollback d target).on s = (.ok (), t) ∧ Pretends s [] t := by
  by_cases hl : s.connection.level ≤ target.getD (s.connection.level - 1)
  · exact ⟨s, rollback_outside hl, .refl s⟩
  · exact ⟨_, rollback_ok rfl (Nat.not_le.mp hl) (rollbackDriver_pretended hp), pretends_lowered _⟩

end

theorem Issues.pretends {γ : Type} {m : StateM (Session σ H) γ} (h : Issues d m s l)
    (hp : s.connection.pretending) (hl : s.connection.logging) : Pretends s l (m.run s).2 := by
  refine h.brings
    (R := fun s l t ↦ s.connection.pretending → s.connection.logging → Pretends s l t)
    (fun s _ _ ↦ .refl s) (fun h h' hp hl ↦ ?_)
    (fun useRead r s _ hp hl ↦ pretends_execute hp hl) hp hl
  have ht := h hp hl
  exact ht.trans (h' (ht.pretending.trans hp) (ht.logging.trans hl))

section

variable {body : Session σ H → Except Error α × Session σ H}
  {Q : Session σ H → List (String × List Value) → Prop}
  (hbody : ∀ u : Session σ H, u.connection.pretending → u.connection.logging →
    (∃ l, Q u l) ∧ ∀ l, Q u l → Pretends u l (body u).2)

include hbody

/-- An attempt at a transaction counts a level, runs its callback and gives the level up. -/
theorem tryTransaction_pretended (retries : Nat) (hp : s.connection.pretending)
    (hl : s.connection.logging) :
    ∃ verdict r t, (tryTransaction d (noting body) retries).run s = ((verdict, [r]), t) ∧
      (∃ l, Q r.start l) ∧ ∀ l, Q r.start l → Pretends s l t := by
  obtain ⟨⟨l, hq⟩, hall⟩ := hbody s.raised hp hl
  have hv := (hall l hq).pretending.trans hp
  have hb := begin_ok (openLevel_pretended (d := d) hp)
  have hrun {t : Session σ H} (ht : Pretends (body s.raised).2 [] t) (l) (hq : Q s.raised l) :
      Pretends s l t := by
    simpa using (pretends_raised.trans (hall l hq)).trans ht
  cases hr : body s.raised with | mk result v
  rw [hr] at hv hrun
  cases result with
  | ok a =>
    have hc := close_ok retries (a := a) (commitDriver_pretended (d := d) hv)
    exact ⟨_, _, _, tryTransaction_close retries hb hr hc, ⟨l, hq⟩, hrun pretends_left⟩
  | error e =>
    by_cases hc : e.causedByConcurrency ∧ 1 < v.connection.level
    · have ha := afterFailure_aborted (d := d) retries hc.1 hc.2
      exact ⟨_, _, _, tryTransaction_fail retries hb hr (verdictAfter_error ha), ⟨l, hq⟩,
        hrun (pretends_atLevel _)⟩
    · obtain ⟨t, ht, hpt⟩ := rollback_pretended (d := d) hv none
      exact ⟨_, _, t, tryTransaction_fail retries hb hr (afterFailure_ok retries hc ht), ⟨l, hq⟩,
        hrun hpt⟩

/-- The runs of a callback log one after the other what each of them issues. -/
theorem transactionWithin_pretended (retries : Nat) (hp : s.connection.pretending)
    (hl : s.connection.logging) :
    ∃ result runs t, (transactionWithin d (noting body) retries).run s = ((result, runs), t) ∧
      (∃ ls, List.Forall₂ (fun r l ↦ Q r.start l) runs ls) ∧
      ∀ ls, List.Forall₂ (fun r l ↦ Q r.start l) runs ls → Pretends s ls.flatten t := by
  have hone {s t : Session σ H} {r : Run σ H α} (hall : ∀ l, Q r.start l → Pretends s l t) (ls)
      (hls : List.Forall₂ (fun r l ↦ Q r.start l) [r] ls) : Pretends s ls.flatten t := by
    obtain ⟨l, rest, hq, hrest, rfl⟩ := List.forall₂_cons_left_iff.mp hls
    obtain rfl := List.forall₂_nil_left_iff.mp hrest
    simpa using hall l hq
  induction retries generalizing s with
  | zero =>
    obtain ⟨verdict, r, t, ht, ⟨l, hq⟩, hall⟩ :=
      tryTransaction_pretended (d := d) hbody 0 hp hl
    exact ⟨_, _, t, transactionWithin_zero ht, ⟨[l], .cons hq .nil⟩, hone hall⟩
  | succ retries ih =>
    obtain ⟨verdict, r, t, ht, ⟨l, hq⟩, hall⟩ :=
      tryTransaction_pretended (d := d) hbody (retries + 1) hp hl
    by_cases hagain : ∃ e, verdict = .again e
    · obtain ⟨e, rfl⟩ := hagain
      have hs := hall l hq
      obtain ⟨result, runs, t', ht', ⟨ls, hls⟩, hrest⟩ :=
        ih (hs.pretending.trans hp) (hs.logging.trans hl)
      refine ⟨_, _, t', transactionWithin_again ht ht', ⟨l :: ls, .cons hq hls⟩, fun ls hls ↦ ?_⟩
      obtain ⟨l', rest, hq', hrest', rfl⟩ := List.forall₂_cons_left_iff.mp hls
      exact (hall l' hq').trans (hrest rest hrest')
    · have hlast (e) : verdict ≠ .again e := fun he ↦ hagain ⟨e, he⟩
      exact ⟨_, _, t, transactionWithin_last hlast ht, ⟨[l], .cons hq .nil⟩, hone hall⟩

end

end Session

open FluentSql.Action in
theorem Source.query_on (source : Source) (s : Session σ H) :
    ((source.query : Action σ H Query).on s).2 = s := by
  cases source with
  | steps steps =>
    rw [Source.query, on_current_bind]
    split <;> rfl
  | saved name => rfl

namespace Command

open Session FluentSql.Action

variable (d) in
def Issues (c : Command σ H) (s : Session σ H) (l : List (String × List Value)) : Prop :=
  if c.isStatement then Session.Issues d (c.perform d).run s l else l = []

def tampers : Command σ H → Bool
  | .setLogging b => !b
  | .flushLog => true
  | _ => false

theorem issues_exists (c : Command σ H) (s : Session σ H) : ∃ l, c.Issues d s l := by
  unfold Issues
  split
  · exact c.stated_perform ‹_› s
  · exact ⟨[], rfl⟩

theorem pretends_perform {c : Command σ H} (hc : c.tampers = false) (hp : s.connection.pretending)
    (hl : s.connection.logging) (h : c.Issues d s l) : Pretends s l ((c.perform d).on s).2 := by
  unfold Issues at h
  split at h
  · exact h.pretends hp hl
  rename_i hs
  subst h
  cases c with
  | begin =>
    rw [perform, on_bind_pure]
    exact pretends_begin hp
  | commit =>
    rw [perform, on_bind_pure]
    exact pretends_commit hp
  | rollback level =>
    obtain ⟨t, ht, hpt⟩ := rollback_pretended (d := d) hp level
    rw [perform, on_bind_pure, ht]
    exact hpt
  | reconnect =>
    rw [perform, on_bind_pure]
    exact reconnects.pretends
  | setLogging b =>
    have hb : b = true := by simpa [tampers] using hc
    exact .quiet rfl rfl rfl (hb.trans hl.symm)
  | save name source =>
    rw [perform]
    cases h : (source.query : Action σ H Query).on s with | mk result t
    obtain rfl : t = s := by
      rw [← source.query_on s, h]
    cases result with
    | ok q =>
      rw [on_bind_ok h]
      exact .quiet rfl rfl rfl rfl
    | error e =>
      rw [on_bind_error h]
      exact .refl t
  | flushLog => cases hc
  | _ => first | exact absurd rfl hs | exact .quiet rfl rfl rfl rfl

end Command

def Session.entered (s : Session σ H) : Session σ H :=
  s.adapt fun c ↦ { c with queryLog := [], logging := true, pretending := true }

namespace Program

open Session Procedure

variable (d) in
/-- The statements that a program issues. Those of a pretence in it are not among them. -/
def Issues {α : Type} : Program σ H α → Session σ H → List (String × List Value) → Prop
  | done _, _, l => l = []
  | consult look next, s, l => Issues (next (look s).1) { s with world := (look s).2 } l
  | perform c next, s, l => ∃ first rest, l = first ++ rest ∧ c.Issues d s first ∧
      Issues (next ((c.perform d).on s).1) ((c.perform d).on s).2 rest
  | transaction attempts body next, s, l => ∃ runs rest, l = runs.flatten ++ rest ∧
      List.Forall₂ (fun run l ↦ Issues body run.start l)
        (transact d attempts (body.exec d) s).1.2 runs ∧
      Issues (next (transact d attempts (body.exec d) s).1.1)
        (transact d attempts (body.exec d) s).2 rest
  | pretend body next, s, l =>
      Issues (next (pretended (body.exec d) s).1) (pretended (body.exec d) s).2 l

/-- Whether a program leaves the log alone, and comes to a further pretence only at its end. -/
def PretendsLast {α : Type} : Program σ H α → Prop
  | done _ => True
  | consult _ next => ∀ x, PretendsLast (next x)
  | perform c next => c.tampers = false ∧ ∀ answer, PretendsLast (next answer)
  | transaction _ body next =>
    (Plain body ∧ PretendsLast body) ∧ ∀ result, PretendsLast (next result)
  | pretend body next => PretendsLast body ∧ ∀ result, ∃ a, next result = done a

/-- A pretence whose callback sends nothing leaves the log as it was. -/
theorem silent_pretended {body : Session σ H → Except Error Unit × Session σ H}
    (h : Silent s.entered l (body s.entered).2) : Silent s [] (pretended body s).2 where
  trace := h.trace
  unsent := h.unsent
  log := (List.append_nil _).symm

/-- What is done in a pretence is logged in the place of being sent. The pretence goes on, unless a
further one has come to its end. -/
theorem silent_exec (p : Program σ H α) (hq : p.PretendsLast) (hp : s.connection.pretending)
    (hl : s.connection.logging) :
    (∃ l, p.Issues d s l) ∧ ∀ l, p.Issues d s l →
      Silent s l (p.exec d s).2 ∧ (p.Plain → Pretends s l (p.exec d s).2) := by
  induction p generalizing s with
  | done a => exact ⟨⟨[], rfl⟩, fun l h ↦ h ▸ ⟨(Pretends.refl s).toSilent, fun _ ↦ .refl s⟩⟩
  | consult look next ih =>
    have hs : Pretends s [] { s with world := (look s).2 } := .quiet rfl rfl rfl rfl
    obtain ⟨hex, hall⟩ := ih (look s).1 (s := { s with world := (look s).2 }) (hq _) hp hl
    refine ⟨hex, fun l h ↦ ?_⟩
    obtain ⟨hsilent, hplain⟩ := hall l h
    exact ⟨hs.toSilent.trans hsilent, fun hk ↦ hs.trans (hplain (hk _))⟩
  | perform c next ih =>
    have hc (l) (h : c.Issues d s l) := Command.pretends_perform hq.1 hp hl h
    obtain ⟨first, hfirst⟩ := c.issues_exists (d := d) s
    have ht := hc first hfirst
    obtain ⟨⟨rest, hrest⟩, hall⟩ := ih _ (hq.2 _) (ht.pretending.trans hp) (ht.logging.trans hl)
    refine ⟨⟨_, first, rest, rfl, hfirst, hrest⟩, ?_⟩
    rintro l ⟨first, rest, rfl, hfirst, hrest⟩
    obtain ⟨hsilent, hplain⟩ := hall rest hrest
    exact ⟨(hc first hfirst).toSilent.trans hsilent,
      fun hk ↦ (hc first hfirst).trans (hplain (hk _))⟩
  | transaction attempts body next ihb ih =>
    have hbody (u : Session σ H) (hu : u.connection.pretending) (hlu : u.connection.logging) :
        (∃ l, body.Issues d u l) ∧ ∀ l, body.Issues d u l → Pretends u l (body.exec d u).2 := by
      obtain ⟨hex, hall⟩ := ihb hq.1.2 hu hlu
      exact ⟨hex, fun l h ↦ (hall l h).2 hq.1.1⟩
    obtain ⟨result, runs, t, ht, ⟨ls, hls⟩, hall⟩ :=
      transactionWithin_pretended (d := d) hbody (attempts - 1) hp hl
    replace ht : transact d attempts (body.exec d) s = ((result, runs), t) := ht
    have hs := hall ls hls
    obtain ⟨⟨rest, hrest⟩, hnext⟩ :=
      ih _ (hq.2 result) (hs.pretending.trans hp) (hs.logging.trans hl)
    rw [exec_transaction]
    simp only [Issues, ht]
    refine ⟨⟨_, ls, rest, rfl, hls, hrest⟩, ?_⟩
    rintro l ⟨ls, rest, rfl, hls, hrest⟩
    obtain ⟨hsilent, hplain⟩ := hnext rest hrest
    exact ⟨(hall ls hls).toSilent.trans hsilent,
      fun hk ↦ (hall ls hls).trans (hplain (hk.2 _))⟩
  | pretend body next ihb ih =>
    obtain ⟨⟨l, hbody⟩, hall⟩ := ihb hq.1 (s := s.entered) rfl rfl
    have hs := silent_pretended (hall l hbody).1
    obtain ⟨a, ha⟩ := hq.2 (pretended (body.exec d) s).1
    rw [exec_pretend]
    simp only [Issues, ha]
    exact ⟨⟨[], rfl⟩, fun l h ↦ h ▸ ⟨hs, fun hk ↦ hk.elim⟩⟩

/-- A pretence sends nothing, and logs the statements of its callback in order. The callback may
come to a further pretence at its end. -/
theorem pretend_silent (d : Driver σ H) (s : Session σ H) (body : Program σ H (Except Error Unit))
    (hq : body.PretendsLast) :
    s.trace <+: (pretended (body.exec d) s).2.trace ∧
      Entry.sends (s.since (pretended (body.exec d) s).2) = [] ∧
      ∃ log, (body.exec d s.entered).2.connection.queryLog = log ∧
        (∀ l, body.Issues d s.entered l ↔ l = log) ∧
        (pretended (body.exec d) s).1 = (body.exec d s.entered).1.map fun _ ↦ log := by
  obtain ⟨⟨l, hbody⟩, hall⟩ := body.silent_exec (d := d) hq (s := s.entered) rfl rfl
  have hs := silent_pretended (hall l hbody).1
  have hlog : (body.exec d s.entered).2.connection.queryLog = l := (hall l hbody).1.log
  refine ⟨hs.trace, hs.unsent, l, hlog, fun l' ↦ ⟨fun h ↦ ?_, fun h ↦ h ▸ hbody⟩, ?_⟩
  · exact (hall l' h).1.unique (hall l hbody).1
  · rw [← hlog]
    rfl

def only (c : Command Script String) : Program Script String (Except Error Unit) :=
  .perform c fun answer ↦ .done (answer.map fun _ ↦ ())

def rehearsal : Program Script String (Except Error Unit) :=
  .perform (.statement "a" [.int32 1]) fun _ ↦ .perform .commit fun _ ↦
    .transaction 2 (.perform (.query (.steps [.source (.name "t"), .limit 1]) .delete) fun _ ↦
      only (.fail (.deadlock "" [] .missingReconnector))) fun _ : Except Error Unit ↦
        .pretend (only (.statement "b" [])) fun result ↦ .done (result.map fun _ ↦ ())

def busy : Session Script String where
  connection :=
    { write := "write", grammar := { dialect := .mysql }, processor := .mysql, level := 1 }
  world := {}

theorem pretend_silent_rehearsal : rehearsal.PretendsLast ∧
    Entry.sends (busy.since (pretended (rehearsal.exec Script.driver) busy).2) = [] ∧
      ∃ log, (∀ l, rehearsal.Issues Script.driver busy.entered l ↔ l = log) ∧
        log.map Prod.fst =
          ["a", "delete from `t` limit 1", "delete from `t` limit 1"] := by
  have hq : rehearsal.PretendsLast :=
    ⟨rfl, fun _ ↦ ⟨rfl, fun _ ↦ ⟨⟨fun _ _ ↦ trivial, rfl, fun _ ↦ ⟨rfl, fun _ ↦ trivial⟩⟩,
      fun _ ↦ ⟨⟨rfl, fun _ ↦ trivial⟩, fun _ ↦ ⟨_, rfl⟩⟩⟩⟩⟩
  obtain ⟨-, hsends, log, hlog, hissues, -⟩ := pretend_silent Script.driver busy rehearsal hq
  exact ⟨hq, hsends, log, hissues, hlog ▸ by decide +kernel⟩

/-- After a pretence inside another one, statements are sent. -/
theorem pretend_silent_resumed :
    let body : Program Script String (Except Error Unit) :=
      .pretend (only (.statement "a" [])) fun _ ↦ only (.statement "b" [])
    (Entry.sends (busy.since (pretended (body.exec Script.driver) busy).2)).map
      (fun x ↦ (x.1, x.2.1.sql)) = [("write", "b")] := by
  decide +kernel

end Program

end FluentSql
