import FluentSql.Proofs.Savepoints.Refinement
import FluentSql.Proofs.Transactions.Procedure

namespace FluentSql

variable {σ H : Type}

def Request.marks (g : Grammar) : Request → Bool
  | .rollback => true
  | .unprepared sql => (g.mark? sql).isSome
  | _ => false

theorem Request.writes_or_reads {g : Grammar} {r : Request} (hr : r.isStatement)
    (hm : r.marks g = false) : r.writes g ∨ ∃ sql bindings, r = .select sql bindings := by
  cases r with
  | select sql bindings => exact .inr ⟨sql, bindings, rfl⟩
  | affecting sql bindings => exact .inl rfl
  | statement sql bindings => exact .inl rfl
  | unprepared sql =>
    rw [marks, Option.isSome_eq_false_iff] at hm
    exact .inl hm
  | begin => cases hr
  | commit => cases hr
  | rollback => cases hr

namespace Nest

variable {n n' : Nest} {outer : List (List Written)}

def Over (outer : List (List Written)) (n : Nest) : Prop :=
  ∃ inner, inner ≠ [] ∧ n.levels = inner ++ outer

theorem Over.length (h : n.Over outer) : outer.length < n.levels.length := by
  obtain ⟨inner, hi, hl⟩ := h
  have hp := List.length_pos_iff.mpr hi
  rw [hl, List.length_append]
  omega

theorem Over.ne_nil (h : n.Over outer) : n.levels ≠ [] :=
  List.ne_nil_of_length_pos (Nat.zero_lt_of_lt h.length)

theorem over_begin : n.begin.Over n.levels := ⟨[[]], List.cons_ne_nil _ _, rfl⟩

theorem Over.begin (h : n.Over outer) : n.begin.Over outer := by
  obtain ⟨inner, _, hl⟩ := h
  exact ⟨[] :: inner, List.cons_ne_nil _ _, congrArg ([] :: ·) hl⟩

/-- Whether a nest has become another with nothing changed in the levels outside of both, and
nothing made durable in the meantime. -/
def Keeps (n n' : Nest) : Prop :=
  ∀ outer, outer ≠ [] → n.Over outer → outer.length < n'.levels.length →
    n'.Over outer ∧ n'.durable = n.durable

theorem keeps_of_eq (hl : n'.levels = n.levels) (hd : n'.durable = n.durable) : n.Keeps n' := by
  rintro outer _ ⟨inner, hi, h⟩ _
  exact ⟨⟨inner, hi, hl.trans h⟩, hd⟩

theorem keeps_of_empty (h : n.levels = []) : n.Keeps n' :=
  fun _ _ ho ↦ absurd h ho.ne_nil

theorem commit_inner {l l' : List Written} (h : n.levels = l :: l' :: outer) :
    n.commit = { n with levels := (l' ++ l) :: outer } := by
  rw [commit, h]

@[simp] theorem durable_rollback (level : Nat) : (n.rollback level).durable = n.durable := by
  unfold rollback
  split <;> rfl

theorem keeps_step (c : Call) : n.Keeps (n.step c) := by
  rintro outer _ ⟨inner, hi, h⟩ hl
  refine ⟨n.levels_step_append c h hi hl, ?_⟩
  obtain ⟨requests, durable, levels⟩ := n
  subst h
  cases c with
  | begin => rfl
  | commit =>
    match inner, outer with
    | [_], [] => simp [step, commit] at hl
    | [_], _ :: _ => rfl
    | _ :: _ :: _, _ => rfl
  | rollback target => exact durable_rollback _
  | write r =>
    obtain ⟨l, inner, rfl⟩ := List.exists_cons_of_ne_nil hi
    rfl

end Nest

namespace Entry

def Steady (g : Grammar) (trace : List (Entry H)) : Prop :=
  ∀ x ∈ sends trace, x.2.1.marks g → x.2.2 = true

variable {g : Grammar} {trace added : List (Entry H)}

@[simp] theorem steady_append :
    Steady g (trace ++ added) ↔ Steady g trace ∧ Steady g added := by
  simp only [Steady, sends_append, List.mem_append, or_imp, forall_and]

@[simp] theorem steady_sent {h : H} {r : Request} {ok : Bool} :
    Steady g (sent h r ok :: added) ↔ (r.marks g → ok = true) ∧ Steady g added := by
  simp only [Steady, sends_sent, List.forall_mem_cons]

theorem Steady.of_prefix {trace' : List (Entry H)} (h : Steady g trace') (hp : trace <+: trace') :
    Steady g trace := by
  obtain ⟨added, rfl⟩ := hp
  exact (steady_append.mp h).1

end Entry

theorem Server.agrees_opened {g : Grammar} (v : Server) :
    (v.receive g .begin).Agrees
      { requests := v.requests + 1, durable := v.durable, levels := [[]] } :=
  ⟨rfl, rfl, rfl, rfl, nofun⟩

theorem Server.Agrees.read {g : Grammar} {v : Server} {n : Nest} (h : v.Agrees n) (sql : String)
    (bindings : List Value) :
    (v.receive g (.select sql bindings)).Agrees { n with requests := n.requests + 1 } :=
  ⟨congrArg (· + 1) h.requests, h.durable, h.pending, h.isOpen, h.alive⟩

namespace Session

open Entry

variable {d : Driver σ H} {g : Grammar} {s t : Session σ H} {n n' : Nest}

/-- How a session stands over a server with the levels of `n`. Without a level the server may be
left in any state. -/
structure Mirrors (g : Grammar) (t : Session σ H) (n : Nest) : Prop where
  grammar : t.connection.grammar = g
  pretending : t.connection.pretending = false
  level : t.connection.level = n.levels.length
  server : 0 < t.connection.level → (Server.after g {} t.trace).Agrees n

theorem Mirrors.levels_ne_nil (h : s.Mirrors g n) (h0 : s.connection.level ≠ 0) : n.levels ≠ [] :=
  fun hn ↦ h0 (h.level.trans (congrArg List.length hn))

theorem Mirrors.levels_eq_nil (h : s.Mirrors g n) (h0 : s.connection.level = 0) : n.levels = [] :=
  List.length_eq_zero_iff.mp (h.level.symm.trans h0)

theorem Untouched.mirrors (h : s.Untouched) : s.Mirrors s.connection.grammar {} :=
  ⟨rfl, h.pretending, h.level, fun hl ↦ absurd h.level (Nat.ne_of_gt hl)⟩

theorem Mirrors.sent (h : s.Mirrors g n) {handle : H} {r : Request} {ok : Bool}
    {told : List (Entry H)} (hs : sends told = [])
    (ht : t.trace = s.trace ++ [.sent handle r ok] ++ told)
    (hg : t.connection.grammar = s.connection.grammar)
    (hp : t.connection.pretending = s.connection.pretending)
    (hl : t.connection.level = n'.levels.length)
    (hv : 0 < t.connection.level → (if ok then (Server.after g {} s.trace).receive g r
      else Server.after g {} s.trace).Agrees n') : t.Mirrors g n' := by
  refine ⟨hg.trans h.grammar, hp.trans h.pretending, hl, ?_⟩
  intro h0
  rw [ht, Server.after_append, Server.after_told hs, Server.after_append]
  exact hv h0

theorem Mirrors.told (h : s.Mirrors g n) {told : List (Entry H)} (hs : sends told = [])
    (ht : t.trace = s.trace ++ told) (hg : t.connection.grammar = s.connection.grammar)
    (hp : t.connection.pretending = s.connection.pretending)
    (hl : t.connection.level = n'.levels.length)
    (hv : 0 < t.connection.level → (Server.after g {} s.trace).Agrees n') : t.Mirrors g n' := by
  refine ⟨hg.trans h.grammar, hp.trans h.pretending, hl, ?_⟩
  intro h0
  rw [ht, Server.after_append, Server.after_told hs]
  exact hv h0

theorem Mirrors.closed (h : s.Mirrors g n) (hg : t.connection.grammar = s.connection.grammar)
    (hp : t.connection.pretending = s.connection.pretending) (hl : t.connection.level = 0)  :
    t.Mirrors g {} :=
  ⟨hg.trans h.grammar, hp.trans h.pretending, hl, fun h0 ↦ absurd hl (Nat.ne_of_gt h0)⟩

theorem marks_savepointRequest (h : s.connection.grammar = g) : s.savepointRequest.marks g := by
  rw [savepointRequest, h, Request.marks, Grammar.mark?_savepoint]
  rfl

theorem marks_restoreRequest (h : s.connection.grammar = g) (level : Nat) :
    (s.restoreRequest level).marks g := by
  rw [restoreRequest, h, Request.marks, Grammar.mark?_savepointRollback]
  rfl

/-- Leaving a level sends nothing, and hands its writes to the level outside. -/
theorem Mirrors.leave (h : s.Mirrors g n) {told : List (Entry H)} (hs : sends told = [])
    (ht : t.trace = s.trace ++ told) (hg : t.connection.grammar = s.connection.grammar)
    (hp : t.connection.pretending = s.connection.pretending)
    (hl : t.connection.level = s.connection.level - 1) : t.Mirrors g n.commit := by
  refine h.told hs ht hg hp ?_ ?_
  · rw [hl, h.level]
    exact (n.length_levels_step .commit).symm
  · intro h0
    have hl1 : 1 < s.connection.level := by omega
    exact (h.server (Nat.zero_lt_of_lt hl1)).left (h.level ▸ hl1)

theorem Mirrors.opened (h : s.Mirrors g n) (h0 : s.connection.level = 0) {handle : H} {w : σ} :
    ∃ n', (s.sent handle .begin true w).raised.Mirrors g n' := by
  have hv := (Server.after g {} s.trace).agrees_opened (g := g)
  refine ⟨_, h.sent (sends_announcement _ _) rfl rfl rfl ?_ fun _ ↦ hv⟩
  exact congrArg (· + 1) h0

theorem Mirrors.begin (h : s.Mirrors g n) {result : Except Error Unit}
    (hb : Begins d s result t) (hs : g.supportsSavepoints) (hk : Steady g t.trace) :
    ∃ n', t.Mirrors g n' ∧ n.Keeps n' ∧
      (s.connection.level ≠ 0 → result = .ok () ∧ n' = n.begin) := by
  cases hb with
  | opened h0 hd =>
    obtain ⟨n', hm⟩ := h.opened h0
    exact ⟨n', hm, Nest.keeps_of_empty (h.levels_eq_nil h0), fun hl ↦ absurd h0 hl⟩
  | failed h0 hd he =>
    exact ⟨_, h.closed rfl rfl h0, Nest.keeps_of_empty (h.levels_eq_nil h0), fun hl ↦ absurd h0 hl⟩
  | unrenewable h0 hd he hr =>
    exact ⟨_, h.closed rfl rfl h0, Nest.keeps_of_empty (h.levels_eq_nil h0), fun hl ↦ absurd h0 hl⟩
  | unrenewed h0 hd he hr hn =>
    exact ⟨_, h.closed rfl rfl h0, Nest.keeps_of_empty (h.levels_eq_nil h0), fun hl ↦ absurd h0 hl⟩
  | @openedAgain e handles w w' w'' h0 hd he hr hn hd' =>
    let u := ((s.sent s.connection.write .begin false w).reconnected true w').adapt (·.over handles)
    have hu : u.Mirrors g {} := h.closed rfl rfl rfl
    obtain ⟨n', hm⟩ := hu.opened rfl
    exact ⟨n', hm, Nest.keeps_of_empty (h.levels_eq_nil h0), fun hl ↦ absurd h0 hl⟩
  | failedAgain h0 hd he hr hn hd' =>
    exact ⟨_, h.closed rfl rfl rfl, Nest.keeps_of_empty (h.levels_eq_nil h0), fun hl ↦ absurd h0 hl⟩
  | marked h0 _ hd =>
    have hn := h.levels_ne_nil h0
    have hr : s.savepointRequest = .unprepared
        (g.savepoint (savepointName (n.levels.length + 1))) := by
      rw [savepointRequest, h.grammar, h.level]
    refine ⟨n.begin, ?_, n.keeps_step .begin, fun _ ↦ ⟨rfl, rfl⟩⟩
    refine h.sent (sends_announcement _ _) rfl rfl rfl (congrArg (· + 1) h.level) ?_
    intro _
    rw [hr, if_pos rfl]
    exact (h.server (Nat.pos_of_ne_zero h0)).save hn
  | unmarked h0 _ hd =>
    have hm := (steady_append.mp hk).2
    cases (steady_sent.mp hm).1 (marks_savepointRequest h.grammar)
  | counted h0 hs' =>
    rw [h.grammar, hs] at hs'
    cases hs'

theorem Mirrors.commit (h : s.Mirrors g n) {result : Except Error Unit}
    (hb : Commits d s result t) : ∃ n', t.Mirrors g n' ∧ n.Keeps n' := by
  cases hb with
  | outside h0 => exact ⟨n, h, Nest.keeps_of_eq rfl rfl⟩
  | @committed w h1 hd =>
    have hl : (s.sent s.connection.write .commit true w).left.connection.level = 0 := by
      rw [connection_left, level_atLevel, connection_sent, h1]
    have hm := h.closed (t := (s.sent s.connection.write .commit true w).left) (by simp; rfl)
      (by simp) hl
    refine ⟨{}, hm, ?_⟩
    exact fun outer ho _ hl ↦ absurd hl (Nat.not_lt_zero _)
  | @failed e w h1 hd =>
    by_cases he : e.causedByLostConnection
    · have hb : (s.sent s.connection.write .commit false w).broken e =
          (s.sent s.connection.write .commit false w).adapt (·.atLevel 0) := if_pos he
      rw [hb]
      refine ⟨{}, h.closed rfl rfl rfl, ?_⟩
      exact fun outer ho _ hl ↦ absurd hl (Nat.not_lt_zero _)
    · have hb : (s.sent s.connection.write .commit false w).broken e =
          s.sent s.connection.write .commit false w := if_neg he
      rw [hb]
      refine ⟨n, ?_, Nest.keeps_of_eq rfl rfl⟩
      exact h.sent sends_nil (List.append_nil _).symm rfl rfl h.level h.server
  | left h1 =>
    refine ⟨n.commit, ?_, n.keeps_step .commit⟩
    exact h.leave (sends_leaving s) (trace_left s) (by simp; rfl) (by simp) (by simp)

theorem Mirrors.rollback (h : s.Mirrors g n) {level : Nat} (hb : Rollbacks d s level (.ok ()) t)
    (hs : g.supportsSavepoints) : t.Mirrors g (n.rollback level) ∧
      (level < s.connection.level → (Server.after g {} t.trace).Agrees (n.rollback level)) := by
  have hlevel (hl : level < s.connection.level) : level = (n.rollback level).levels.length := by
    rw [h.level] at hl
    rw [Nest.rollback, if_neg (Nat.not_le.mpr hl), List.length_drop]
    omega
  -- A rollback that is sent has the server agree at level zero too.
  have hsent {r : Request} {w : σ} (hl : level < s.connection.level)
      (hv : ((Server.after g {} s.trace).receive g r).Agrees (n.rollback level)) :
      ((s.sent s.connection.write r true w).lowered level).Mirrors g (n.rollback level) ∧
        (level < s.connection.level →
          (Server.after g {} ((s.sent s.connection.write r true w).lowered level).trace).Agrees
            (n.rollback level)) := by
    refine ⟨h.sent (sends_announcement _ _) rfl rfl rfl (hlevel hl) fun _ ↦ hv, ?_⟩
    intro _
    rw [trace_lowered, Server.after_append, Server.after_told (sends_announcement _ _), trace_sent,
      Server.after_append]
    exact hv
  cases hb with
  | outside hl =>
    have hc : n.rollback level = n := if_pos (h.level ▸ hl)
    exact ⟨hc.symm ▸ h, fun hl' ↦ absurd hl (Nat.not_le.mpr hl')⟩
  | undone hl h0 hd =>
    subst h0
    exact hsent hl ((h.server hl).rollback (h.levels_ne_nil (Nat.ne_of_gt hl)))
  | restored hl h0 _ hd =>
    refine hsent hl ?_
    rw [restoreRequest, h.grammar]
    exact ((h.server (Nat.zero_lt_of_lt hl)).restore h0 (h.level ▸ hl)).2
  | counted hl h0 hs' =>
    rw [h.grammar, hs] at hs'
    cases hs'

theorem Mirrors.rollback_ok (h : s.Mirrors g n) {level : Nat} {result : Except Error Unit}
    (hb : Rollbacks d s level result t) (hk : Steady g t.trace) : result = .ok () := by
  cases hb with
  | outside hl => rfl
  | undone hl h0 hd => rfl
  | restored hl h0 hs hd => rfl
  | counted hl h0 hs => rfl
  | failed hl h0 hd =>
    rw [trace_broken, trace_sent] at hk
    have hm := (steady_append.mp hk).2
    cases (steady_sent.mp hm).1 rfl
  | unrestored hl h0 _ hd =>
    rw [trace_broken, trace_sent] at hk
    have hm := (steady_append.mp hk).2
    cases (steady_sent.mp hm).1 (marks_restoreRequest h.grammar level)

theorem Mirrors.execute (h : s.Mirrors g n) {useRead : Bool} {r : Request}
    (hr : r.isStatement) (hm : r.marks g = false) {result : Except Error r.Reply}
    (hb : Executes d useRead r s result t) : ∃ n', t.Mirrors g n' ∧ n.Keeps n' := by
  have hclosed (h0 : s.connection.level = 0) (hg : t.connection.grammar = s.connection.grammar)
      (hp : t.connection.pretending = s.connection.pretending) (hl : t.connection.level = 0) :
      ∃ n', t.Mirrors g n' ∧ n.Keeps n' :=
    ⟨{}, h.closed hg hp hl, Nest.keeps_of_empty (h.levels_eq_nil h0)⟩
  cases hb with
  | @answered reply w hd =>
    have htrace : (s.answered useRead r reply w).trace = s.trace ++
        [.sent (s.target useRead r) r true] ++
          announcement (.executed · r.sql r.bindings) s.connection := rfl
    obtain hw | ⟨sql, bindings, rfl⟩ := Request.writes_or_reads hr hm
    · have hl : s.connection.level = (n.write r).levels.length :=
        h.level.trans (Nest.length_levels_step n (.write r)).symm
      refine ⟨n.write r, ?_, n.keeps_step (.write r)⟩
      refine h.sent (sends_announcement _ _) htrace rfl rfl hl ?_
      intro h0
      rw [if_pos rfl, Server.receive_writes hw]
      exact (h.server h0).write r
    · refine ⟨{ n with requests := n.requests + 1 }, ?_, Nest.keeps_of_eq rfl rfl⟩
      refine h.sent (sends_announcement _ _) htrace rfl rfl h.level ?_
      exact fun h0 ↦ (h.server h0).read sql bindings
  | failed hd hl =>
    refine ⟨n, ?_, Nest.keeps_of_eq rfl rfl⟩
    exact h.sent sends_nil (List.append_nil _).symm rfl rfl h.level h.server
  | unrenewable hl _ => exact hclosed hl.1 rfl rfl hl.1
  | unrenewed hl _ hn => exact hclosed hl.1 rfl rfl hl.1
  | answeredAgain hl _ hn hd => exact hclosed hl.1 rfl rfl rfl
  | failedAgain hl _ hn hd => exact hclosed hl.1 rfl rfl rfl

end Session

end FluentSql
