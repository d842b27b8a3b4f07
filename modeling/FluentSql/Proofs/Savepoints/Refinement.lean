import FluentSql.Proofs.Savepoints.Alive
import FluentSql.Session.Script

namespace FluentSql

open FluentSql.Action Call

variable {σ H : Type}

def Request.writes (g : Grammar) : Request → Bool
  | .statement .. => true
  | .affecting .. => true
  | .unprepared sql => (g.mark? sql).isNone
  | _ => false

theorem Server.receive_writes {g : Grammar} {v : Server} {r : Request} (hr : r.writes g) :
    v.receive g r = { v.write r with requests := v.requests + 1 } := by
  cases r with
  | statement sql bindings => rfl
  | affecting sql bindings => rfl
  | unprepared sql =>
    have hm : g.mark? sql = none := Option.isNone_iff_eq_none.mp hr
    simp only [receive, perform, hm]
  | select sql bindings => cases hr
  | begin => cases hr
  | commit => cases hr
  | rollback => cases hr

def Call.action (d : Driver σ H) : Call → Action σ H Unit
  | .begin => Session.begin d
  | .commit => Session.commit d
  | .rollback target => Session.rollback d target
  | .write r => do let _ ← Session.execute d true r

def Connection.Same (c c' : Connection H) : Prop :=
  c.write = c'.write ∧ c.grammar = c'.grammar ∧ c.pretending = c'.pretending

namespace Entry

def Succeeds (trace : List (Entry H)) : Prop :=
  ∀ x ∈ sends trace, x.2.2 = true

@[simp] theorem succeeds_append {trace added : List (Entry H)} :
    Succeeds (trace ++ added) ↔ Succeeds trace ∧ Succeeds added := by
  simp only [Succeeds, sends_append, List.mem_append, or_imp, forall_and]

@[simp] theorem succeeds_sent {h : H} {r : Request} {ok : Bool} {added : List (Entry H)} :
    Succeeds (sent h r ok :: added) ↔ ok = true ∧ Succeeds added := by
  simp only [Succeeds, sends_sent, List.forall_mem_cons]

def Restores (g : Grammar) (trace : List (Entry H)) : Prop :=
  ∀ before h sql name ok after, trace = before ++ .sent h (.unprepared sql) ok :: after →
    g.mark? sql = some (.restore name) →
    name ∈ (Server.after g {} before).savepoints.map Prod.fst

theorem Restores.concat {g : Grammar} {trace : List (Entry H)} {e : Entry H}
    (h : Restores g trace)
    (he : ∀ handle sql name ok, e = .sent handle (.unprepared sql) ok →
      g.mark? sql = some (.restore name) →
      name ∈ (Server.after g {} trace).savepoints.map Prod.fst) : Restores g (trace ++ [e]) := by
  intro before handle sql name ok after hs hm
  obtain ⟨rfl, hs, _⟩ | ⟨after, hs, _⟩ := concat_eq_append_cons.mp hs
  · exact he handle sql name ok hs hm
  · exact h before handle sql name ok after hs hm

theorem Restores.told {g : Grammar} {trace told : List (Entry H)} (h : Restores g trace)
    (hs : sends told = []) : Restores g (trace ++ told) := by
  induction told using List.reverseRecOn with
  | nil => rwa [List.append_nil]
  | append_singleton told e ih =>
    rw [sends_append, List.append_eq_nil_iff] at hs
    rw [← List.append_assoc]
    refine (ih hs.1).concat ?_
    rintro handle sql name ok rfl
    cases hs.2

end Entry

namespace Session

variable {d : Driver σ H} {s t : Session σ H} {n : Nest}

structure Follows (s t : Session σ H) (n : Nest) : Prop where
  handle : t.connection.write = s.connection.write
  grammar : t.connection.grammar = s.connection.grammar
  pretending : t.connection.pretending = false
  level : t.connection.level = n.levels.length
  handles : ∀ x ∈ Entry.sends t.trace, x.1 = s.connection.write
  restores : Entry.Restores s.connection.grammar t.trace
  server : (Server.after s.connection.grammar {} t.trace).Agrees n

theorem Follows.told (h : Follows s t n) {t' : Session σ H} {n' : Nest} {told : List (Entry H)}
    (hs : Entry.sends told = []) (ht : t'.trace = t.trace ++ told)
    (hc : t'.connection.Same t.connection) (hl : t'.connection.level = n'.levels.length)
    (hv : (Server.after s.connection.grammar {} t.trace).Agrees n') : Follows s t' n' := by
  refine ⟨hc.1.trans h.handle, hc.2.1.trans h.grammar, hc.2.2.trans h.pretending, hl, ?_, ?_, ?_⟩
  · rw [ht, Entry.sends_append, hs, List.append_nil]
    exact h.handles
  · rw [ht]
    exact h.restores.told hs
  · rw [ht, Server.after_append, Server.after_told hs]
    exact hv

theorem Follows.sent (h : Follows s t n) {t' : Session σ H} {n' : Nest} {r : Request}
    {told : List (Entry H)} (hs : Entry.sends told = [])
    (ht : t'.trace = t.trace ++ [.sent t.connection.write r true] ++ told)
    (hc : t'.connection.Same t.connection) (hl : t'.connection.level = n'.levels.length)
    (hr : ∀ sql name, r = .unprepared sql → s.connection.grammar.mark? sql = some (.restore name) →
      name ∈ (Server.after s.connection.grammar {} t.trace).savepoints.map Prod.fst)
    (hv : ((Server.after s.connection.grammar {} t.trace).receive s.connection.grammar r).Agrees n') :
    Follows s t' n' := by
  refine ⟨hc.1.trans h.handle, hc.2.1.trans h.grammar, hc.2.2.trans h.pretending, hl, ?_, ?_, ?_⟩
  · rw [ht, Entry.sends_append, hs, List.append_nil, Entry.sends_append]
    intro x hx
    obtain hx | hx := List.mem_append.mp hx
    · exact h.handles x hx
    · rw [List.mem_singleton.mp hx]
      exact h.handle
  · rw [ht]
    refine (h.restores.concat ?_).told hs
    rintro _ sql name _ ⟨⟩ hm
    exact hr sql name rfl hm
  · rw [ht, Server.after_append, Server.after_told hs, Server.after_append]
    exact hv

theorem Follows.begin (h : Follows s t n) {result : Except Error Unit} {t' : Session σ H}
    (hb : Begins d t result t') (hs : s.connection.grammar.supportsSavepoints)
    (hok : Entry.Succeeds t'.trace) : Follows s t' n.begin := by
  have hl : t.connection.level + 1 = n.begin.levels.length := congrArg (· + 1) h.level
  cases hb with
  | opened h0 hd =>
    have hn : n.levels = [] := List.length_eq_zero_iff.mp (h.level.symm.trans h0)
    exact h.sent (sends_announcement _ _) rfl ⟨rfl, rfl, rfl⟩ hl nofun (h.server.begin hn)
  | marked h0 _ hd =>
    have hn : n.levels ≠ [] := fun hn ↦ h0 (h.level.trans (congrArg List.length hn))
    have hr : t.savepointRequest = .unprepared
        (s.connection.grammar.savepoint (savepointName (n.levels.length + 1))) := by
      rw [savepointRequest, h.grammar, h.level]
    refine h.sent (sends_announcement _ _) rfl ⟨rfl, rfl, rfl⟩ hl ?_ ?_
    · rw [hr]
      rintro _ name ⟨⟩ hm
      rw [Grammar.mark?_savepoint] at hm
      cases hm
    · rw [hr]
      exact h.server.save hn
  | counted h0 hs' =>
    rw [h.grammar, hs] at hs'
    cases hs'
  | failed h0 hd he => simp at hok
  | unrenewable h0 hd he hr => simp at hok
  | unrenewed h0 hd he hr hn => simp at hok
  | openedAgain h0 hd he hr hn hd' => simp at hok
  | failedAgain h0 hd he hr hn hd' => simp at hok
  | unmarked h0 hs hd => simp at hok

theorem Follows.commit (h : Follows s t n) {result : Except Error Unit} {t' : Session σ H}
    (hb : Commits d t result t') (hok : Entry.Succeeds t'.trace) : Follows s t' n.commit := by
  have hl : t.connection.level - 1 = n.commit.levels.length :=
    (congrArg (· - 1) h.level).trans (Nest.length_levels_step n .commit).symm
  cases hb with
  | outside h0 =>
    have hn : n.levels = [] := List.length_eq_zero_iff.mp (h.level.symm.trans h0)
    have hc : n.commit = n := by rw [Nest.commit, hn]
    exact hc.symm ▸ h
  | @committed w h1 hd =>
    let u := t.sent t.connection.write .commit true w
    have hc : u.left.connection = u.connection.atLevel (u.connection.level - 1) :=
      connection_left _
    refine h.sent (sends_leaving u) (trace_left u) ?_ ?_ ?_ ?_
    · rw [hc]
      exact ⟨rfl, rfl, rfl⟩
    · rw [hc]
      exact hl
    · rintro _ _ ⟨⟩
    · exact h.server.commit (h.level.symm.trans h1)
  | left h1 =>
    refine h.told (sends_leaving t) (trace_left t) ?_ ?_ ?_
    · rw [connection_left]
      exact ⟨rfl, rfl, rfl⟩
    · rw [connection_left]
      exact hl
    · exact h.server.left (h.level ▸ h1)
  | failed h1 hd => simp at hok

theorem Follows.rollback (h : Follows s t n) {level : Nat} {result : Except Error Unit}
    {t' : Session σ H} (hb : Rollbacks d t level result t')
    (hs : s.connection.grammar.supportsSavepoints) (hok : Entry.Succeeds t'.trace) :
    Follows s t' (n.rollback level) := by
  have hlevel (hl : level < t.connection.level) : level = (n.rollback level).levels.length := by
    rw [h.level] at hl
    rw [Nest.rollback, if_neg (Nat.not_le.mpr hl), List.length_drop]
    omega
  cases hb with
  | outside hl =>
    have hc : n.rollback level = n := if_pos (h.level ▸ hl)
    exact hc.symm ▸ h
  | undone hl h0 hd =>
    subst h0
    have hn : n.levels ≠ [] := List.ne_nil_of_length_pos (h.level ▸ hl)
    refine h.sent (sends_announcement _ _) rfl ⟨rfl, rfl, rfl⟩ (hlevel hl) ?_ (h.server.rollback hn)
    rintro _ _ ⟨⟩
  | restored hl h0 _ hd =>
    obtain ⟨hm, hv⟩ := h.server.restore (g := s.connection.grammar) h0 (h.level ▸ hl)
    have hr : t.restoreRequest level = .unprepared
        (s.connection.grammar.savepointRollback (savepointName (level + 1))) := by
      rw [restoreRequest, h.grammar]
    refine h.sent (sends_announcement _ _) rfl ⟨rfl, rfl, rfl⟩ (hlevel hl) ?_ ?_
    · rw [hr]
      rintro _ name ⟨⟩ hn
      rw [Grammar.mark?_savepointRollback] at hn
      cases hn
      exact hm
    · rw [hr]
      exact hv
  | counted hl h0 hs' =>
    rw [h.grammar, hs] at hs'
    cases hs'
  | failed hl h0 hd => simp at hok
  | unrestored hl h0 hs hd => simp at hok

theorem Follows.write (h : Follows s t n) {r : Request} (hr : r.writes s.connection.grammar)
    {result : Except Error r.Reply} {t' : Session σ H} (hb : Executes d true r t result t')
    (hok : Entry.Succeeds t'.trace) : Follows s t' (n.write r) := by
  have ht : t.target true r = t.connection.write := by
    cases r <;> first | rfl | cases hr
  cases hb with
  | @answered reply w hd =>
    have hl : t.connection.level = (n.write r).levels.length :=
      h.level.trans (Nest.length_levels_step n (.write r)).symm
    have htrace : (t.answered true r reply w).trace = t.trace ++ [.sent t.connection.write r true] ++
        announcement (.executed · r.sql r.bindings) t.connection := by
      rw [← ht]
      rfl
    refine h.sent (sends_announcement _ _) htrace ⟨rfl, rfl, rfl⟩ hl ?_ ?_
    · rintro sql name rfl hm
      rw [Request.writes, hm] at hr
      cases hr
    · rw [Server.receive_writes hr]
      exact h.server.write r
  | failed hd hl => simp [tried] at hok
  | unrenewable hl hr => simp [tried] at hok
  | unrenewed hl hr hn => simp [tried] at hok
  | answeredAgain hl hr hn hd => simp [tried, Session.answered, renewed] at hok
  | failedAgain hl hr hn hd => simp [tried, renewed] at hok

def call (d : Driver σ H) (s : Session σ H) (calls : List Call) : Session σ H :=
  calls.foldl (fun s c ↦ ((c.action d).on s).2) s

theorem call_concat (s : Session σ H) (calls : List Call) (c : Call) :
    s.call d (calls ++ [c]) = ((c.action d).on (s.call d calls)).2 := by
  rw [call, List.foldl_append]
  rfl

theorem on_write (r : Request) (s : Session σ H) :
    (((Call.write r).action d).on s).2 = ((execute d true r).on s).2 := by
  unfold Call.action
  cases h : (execute d true r).on s with | mk result t
  cases result with
  | ok reply => rw [on_bind_ok h, on_pure]
  | error e => rw [on_bind_error h]

theorem Follows.step (h : Follows s t n) (hs : s.connection.grammar.supportsSavepoints) (c : Call)
    (hw : ∀ r, c = .write r → r.writes s.connection.grammar)
    (hok : Entry.Succeeds ((c.action d).on t).2.trace) :
    Follows s ((c.action d).on t).2 (n.step c) := by
  cases c with
  | begin => exact h.begin (begins h.pretending) hs hok
  | commit => exact h.commit (commits h.pretending) hok
  | rollback target =>
    have hr := rollbacks (d := d) h.pretending target
    rw [h.level] at hr
    exact h.rollback hr hs hok
  | write r =>
    rw [on_write] at hok ⊢
    exact h.write (hw r rfl) (executes h.pretending) hok

theorem action_grows (hp : s.connection.pretending = false) (c : Call) :
    s.Grows ((c.action d).on s).2 := by
  cases c with
  | begin => exact (begins hp).grows
  | commit => exact (commits hp).grows
  | rollback target => exact (rollbacks hp target).grows
  | write r =>
    rw [on_write]
    exact (executes hp).grows

structure Untouched (s : Session σ H) : Prop where
  level : s.connection.level = 0
  pretending : s.connection.pretending = false
  savepoints : s.connection.grammar.supportsSavepoints
  trace : s.trace = []

theorem call_pretending (h : s.Untouched) (calls : List Call) :
    (s.call d calls).connection.pretending = false := by
  induction calls using List.reverseRecOn with
  | nil => exact h.pretending
  | append_singleton calls c ih =>
    rw [call_concat]
    exact (action_grows ih c).outside ih

theorem follows_call (h : s.Untouched) (calls : List Call)
    (hw : ∀ r, .write r ∈ calls → r.writes s.connection.grammar)
    (hok : Entry.Succeeds (s.call d calls).trace) :
    Follows s (s.call d calls) (({} : Nest).run calls) := by
  induction calls using List.reverseRecOn with
  | nil =>
    have ht : (s.call d []).trace = [] := h.trace
    refine ⟨rfl, rfl, h.pretending, h.level, ?_, ?_, ?_⟩
    · rw [ht]
      nofun
    · rw [ht]
      rintro ⟨⟩ <;> nofun
    · rw [ht]
      exact ⟨rfl, rfl, rfl, rfl, trivial⟩
  | append_singleton calls c ih =>
    rw [call_concat] at hok ⊢
    rw [Nest.run_append]
    obtain ⟨added, ha⟩ := (action_grows (call_pretending h calls) c).trace
    have hf := ih (fun r hr ↦ hw r (List.mem_append_left _ hr))
      ((Entry.succeeds_append.mp (ha ▸ hok)).1)
    refine hf.step h.savepoints c ?_ hok
    rintro r rfl
    exact hw r (List.mem_append_right _ (List.mem_singleton_self _))

theorem call_extends (h : s.Untouched) (calls calls' : List Call) :
    (s.call d calls).trace <+: (s.call d (calls ++ calls')).trace := by
  induction calls' using List.reverseRecOn with
  | nil => simp only [List.append_nil, List.prefix_rfl]
  | append_singleton calls' c ih =>
    rw [← List.append_assoc, call_concat]
    exact ih.trans (action_grows (call_pretending h _) c).trace

def server (d : Driver σ H) (s : Session σ H) (calls : List Call) : Server :=
  Server.after s.connection.grammar {} (s.call d calls).trace

theorem server_agrees (h : s.Untouched) {calls before after : List Call}
    (hw : ∀ r, .write r ∈ calls → r.writes s.connection.grammar)
    (hok : Entry.Succeeds (s.call d calls).trace) (hc : calls = before ++ after) :
    (s.server d before).Agrees (({} : Nest).run before) := by
  subst hc
  obtain ⟨added, ha⟩ := call_extends (d := d) h before after
  refine (follows_call h before (fun r hr ↦ hw r (List.mem_append_left _ hr)) ?_).server
  exact (Entry.succeeds_append.mp (ha ▸ hok)).1

/-- What holds of a server when transactions are nested in calls that succeed. A write is known by
the number of requests before it. -/
structure Refines (d : Driver σ H) (s : Session σ H) (calls : List Call) : Prop where
  level : (s.call d calls).connection.level = depths 0 calls
  isOpen : (s.server d calls).isOpen = decide (0 < depths 0 calls)
  alive : ∀ level, 1 < level → level ≤ depths 0 calls →
    savepointName level ∈ (s.server d calls).savepoints.map Prod.fst
  handles : ∀ x ∈ Entry.sends (s.call d calls).trace, x.1 = s.connection.write
  restores : Entry.Restores s.connection.grammar (s.call d calls).trace
  pending : ∀ before target after, calls = before ++ .rollback target :: after →
    ∀ t, target.getD (depths 0 before - 1) = t → t < depths 0 before →
      ∃ outer inner, Raised before t outer inner ∧
        (s.server d (before ++ [.rollback target])).pending =
          (s.server d (outer ++ [.begin])).pending
  base : ∀ before target after, calls = before ++ .rollback target :: after →
    target.getD (depths 0 before - 1) = 0 →
      (s.server d (before ++ [.rollback target])).pending = []
  durable : ∀ before r after, calls = before ++ .write r :: after → 0 < depths 0 before →
    (((s.server d before).requests, r) ∈ (s.server d calls).durable ↔
      Committed (depths 0 before) after)

/-- Nested transactions are what they are meant to be on any server with savepoints. -/
theorem refines (d : Driver σ H) (s : Session σ H) (h : s.Untouched) (calls : List Call)
    (hw : ∀ r, .write r ∈ calls → r.writes s.connection.grammar)
    (hok : Entry.Succeeds (s.call d calls).trace) : s.Refines d calls := by
  have hf := follows_call h calls hw hok
  have hlen (calls) : (({} : Nest).run calls).levels.length = depths 0 calls :=
    Nest.length_levels_run {} calls
  have hall := server_agrees h hw hok (List.append_nil calls).symm
  refine ⟨hf.level.trans (hlen calls), ?_, ?_, hf.handles, hf.restores, ?_, ?_, ?_⟩
  · rw [hall.isOpen, ← hlen]
    cases (({} : Nest).run calls).levels <;> simp
  · intro level h1 hl
    obtain ⟨t, rfl⟩ : ∃ t, level = t + 1 := ⟨level - 1, by omega⟩
    exact (hall.restore (g := s.connection.grammar) (by omega) (by rw [hlen]; omega)).1
  · intro before target after hc t ht hl
    obtain ⟨outer, inner, hr, levels, hn, hlevels⟩ := exists_raised before hl
    refine ⟨outer, inner, hr, ?_⟩
    have hroll := server_agrees h hw hok (hc.trans (List.append_cons _ _ _))
    have hc' : calls = (outer ++ [.begin]) ++ (inner ++ .rollback target :: after) := by
      rw [hc, hr.split, List.append_assoc, List.append_assoc]
      rfl
    have hbegin := server_agrees h hw hok hc'
    rw [hroll.pending, hbegin.pending, Nest.run_append, Nest.run_append]
    change (Nest.rollback _ _).pending = (Nest.begin _).pending
    have ho := (hlen outer).trans hr.depth
    rw [hlen, ht, Nest.pending_begin, Nest.pending, ← ho, Nest.levels_rollback _ hlevels hn]
    rfl
  · intro before target after hc ht
    have hroll := server_agrees h hw hok (hc.trans (List.append_cons _ _ _))
    rw [hroll.pending, Nest.run_append]
    change (Nest.rollback _ _).pending = []
    rw [hlen, ht, Nest.pending, Nest.levels_rollback_zero]
    rfl
  · intro before r after hc hl
    have hn : (({} : Nest).run before).levels ≠ [] :=
      List.ne_nil_of_length_pos (Nat.lt_of_lt_of_eq hl (hlen before).symm)
    have hfate := ((Nest.fresh_run before).fate hn r after).1
    rw [hlen] at hfate
    rw [(server_agrees h hw hok hc).requests, ← hfate.durable_iff]
    rw [hall.durable, hc, Nest.run_append]
    rfl

def reissued : List Call := [
  .write (.statement "a" []), .begin, .write (.affecting "b" []), .begin, .begin,
  .write (.unprepared "c"), .commit, .begin, .write (.statement "d" []), .rollback (some 2),
  .begin, .rollback (some 1), .write (.statement "e" []), .commit]

def untouched : Session Script String :=
  { connection :=
      { write := "write", grammar := { dialect := .sqlServer }, processor := .sqlServer }
    world := {} }

theorem refines_reissued : untouched.Untouched ∧
    (∀ r, .write r ∈ reissued → r.writes untouched.connection.grammar) ∧
    Entry.Succeeds (untouched.call Script.driver reissued).trace ∧
    untouched.Refines Script.driver reissued ∧
    (untouched.server Script.driver reissued).durable.map (·.2.sql) = ["a", "b", "e"] := by
  have h : untouched.Untouched := ⟨rfl, rfl, rfl, rfl⟩
  have hw : ∀ r, .write r ∈ reissued → r.writes untouched.connection.grammar := by
    intro r hr
    simp only [reissued, List.mem_cons, List.not_mem_nil, or_false, reduceCtorEq, false_or,
      Call.write.injEq] at hr
    obtain rfl | rfl | rfl | rfl | rfl := hr <;> decide +kernel
  have hok : Entry.Succeeds (untouched.call Script.driver reissued).trace := by
    unfold Entry.Succeeds
    decide +kernel
  exact ⟨h, hw, hok, refines Script.driver untouched h reissued hw hok, by decide +kernel⟩

end Session

end FluentSql
