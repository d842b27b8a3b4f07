import FluentSql.Proofs.Savepoints.Mirroring
import FluentSql.Proofs.Transactions.Attempts

namespace FluentSql

open Session Entry

variable {σ H α β : Type} {d : Driver σ H} {g : Grammar} {s t u : Session σ H} {n : Nest}

namespace Procedure

/-- Whether a callback leaves savepoints to the connection. -/
def Unmarked (g : Grammar) {α : Type} : Procedure σ H α → Prop
  | done _ => True
  | consult _ next => ∀ x, Unmarked g (next x)
  | execute _ r _ next => r.marks g = false ∧ ∀ reply, Unmarked g (next reply)
  | begin next => ∀ result, Unmarked g (next result)
  | commit next => ∀ result, Unmarked g (next result)
  | rollback _ next => ∀ result, Unmarked g (next result)
  | transaction _ body next => Unmarked g body ∧ ∀ result, Unmarked g (next result)

/-- Whether a session is one that a callback finds itself in, also inside its own transactions. -/
def Visits (d : Driver σ H) {α : Type} : Procedure σ H α → Session σ H → Session σ H → Prop
  | done _, s, u => u = s
  | consult look next, s, u => u = s ∨ Visits d (next (look s).1) { s with world := (look s).2 } u
  | execute useRead r _ next, s, u =>
    u = s ∨ Visits d (next ((Session.execute d useRead r).on s).1)
      ((Session.execute d useRead r).on s).2 u
  | begin next, s, u =>
    u = s ∨ Visits d (next ((Session.begin d).on s).1) ((Session.begin d).on s).2 u
  | commit next, s, u =>
    u = s ∨ Visits d (next ((Session.commit d).on s).1) ((Session.commit d).on s).2 u
  | rollback target next, s, u =>
    u = s ∨ Visits d (next ((Session.rollback d target).on s).1)
      ((Session.rollback d target).on s).2 u
  | transaction attempts body next, s, u =>
    u = s ∨ (∃ run ∈ (transact d attempts (body.exec d) s).1.2, Visits d body run.start u) ∨
      Visits d (next (transact d attempts (body.exec d) s).1.1)
        (transact d attempts (body.exec d) s).2 u

def StaysAbove (d : Driver σ H) (k : Nat) (p : Procedure σ H α) (s : Session σ H) : Prop :=
  ∀ u, p.Visits d s u → k < u.connection.level

theorem visits_start (p : Procedure σ H α) (s : Session σ H) : p.Visits d s s := by
  cases p with
  | done a => rfl
  | consult look next => exact .inl rfl
  | execute useRead r hr next => exact .inl rfl
  | begin next => exact .inl rfl
  | commit next => exact .inl rfl
  | rollback target next => exact .inl rfl
  | transaction attempts body next => exact .inl rfl

theorem StaysAbove.level {p : Procedure σ H α} {k : Nat} (h : p.StaysAbove d k s) :
    k < s.connection.level := h s (p.visits_start s)

theorem staysAbove_iff {p q : Procedure σ H α} {k : Nat}
    (h : ∀ u, p.Visits d s u ↔ u = s ∨ q.Visits d t u) :
    k < s.connection.level ∧ q.StaysAbove d k t ↔ p.StaysAbove d k s := by
  simp only [StaysAbove, h, forall_eq_or_imp]

theorem staysAbove_transaction_iff {attempts k : Nat} {body : Procedure σ H (Except Error β)}
    {next : Except Error β → Procedure σ H α} :
    (k < s.connection.level ∧
        (∀ run ∈ (transact d attempts (body.exec d) s).1.2, body.StaysAbove d k run.start) ∧
        (next (transact d attempts (body.exec d) s).1.1).StaysAbove d k
          (transact d attempts (body.exec d) s).2) ↔
      (transaction attempts body next).StaysAbove d k s := by
  constructor
  · rintro ⟨hs, hruns, hnext⟩ u (rfl | ⟨run, hr, hu⟩ | hu)
    · exact hs
    · exact hruns run hr u hu
    · exact hnext u hu
  · intro h
    exact ⟨h.level, fun run hr u hu ↦ h u (.inr (.inl ⟨run, hr, hu⟩)),
      fun u hu ↦ h u (.inr (.inr hu))⟩

instance decidableStaysAbove (k : Nat) {α : Type} : (p : Procedure σ H α) → (s : Session σ H) →
    Decidable (p.StaysAbove d k s)
  | done _, s => decidable_of_iff (k < s.connection.level) ⟨fun h _ hu ↦ hu ▸ h, StaysAbove.level⟩
  | consult look next, s =>
    have := decidableStaysAbove k (next (look s).1) { s with world := (look s).2 }
    decidable_of_iff _ (staysAbove_iff fun _ ↦ Iff.rfl)
  | execute useRead r _ next, s =>
    have := decidableStaysAbove k (next ((Session.execute d useRead r).on s).1)
      ((Session.execute d useRead r).on s).2
    decidable_of_iff _ (staysAbove_iff fun _ ↦ Iff.rfl)
  | begin next, s =>
    have := decidableStaysAbove k (next ((Session.begin d).on s).1) ((Session.begin d).on s).2
    decidable_of_iff _ (staysAbove_iff fun _ ↦ Iff.rfl)
  | commit next, s =>
    have := decidableStaysAbove k (next ((Session.commit d).on s).1) ((Session.commit d).on s).2
    decidable_of_iff _ (staysAbove_iff fun _ ↦ Iff.rfl)
  | rollback target next, s =>
    have := decidableStaysAbove k (next ((Session.rollback d target).on s).1)
      ((Session.rollback d target).on s).2
    decidable_of_iff _ (staysAbove_iff fun _ ↦ Iff.rfl)
  | transaction attempts body next, s =>
    have := fun s ↦ decidableStaysAbove k body s
    have := decidableStaysAbove k (next (transact d attempts (body.exec d) s).1.1)
      (transact d attempts (body.exec d) s).2
    decidable_of_iff _ staysAbove_transaction_iff

end Procedure

namespace Session

/-- Whether a callback has the session it ends in mirror its server, and what is outside of it left
alone as long as it is `inside`. -/
def Preserves (g : Grammar) (inside : Nat → Session σ H → Prop)
    (body : Session σ H → α × Session σ H) : Prop :=
  ∀ u n, u.Mirrors g n → Steady g (body u).2.trace →
    ∃ n', (body u).2.Mirrors g n' ∧ ∀ outer, outer ≠ [] → n.Over outer → inside outer.length u →
      n'.Over outer ∧ n'.durable = n.durable

section

variable {body : Session σ H → Except Error α × Session σ H} {retries : Nat}
  {inside : Nat → Session σ H → Prop} {verdict : Verdict α} {run : Option (Run σ H α)}

theorem Mirrors.ran (h : s.Mirrors g n) (hs : g.supportsSavepoints) (hb : Preserves g inside body)
    (hbegin : Begins d s (.ok ()) u) {result : Except Error α} (hr : body u = (result, t))
    (hu : u.trace <+: t.trace) (hk : Steady g t.trace) :
    ∃ n', t.Mirrors g n' ∧
      (s.connection.level ≠ 0 → inside s.connection.level u →
        n'.Over n.levels ∧ n'.durable = n.durable) ∧
      ∀ outer, outer ≠ [] → n.Over outer → inside outer.length u →
        n'.Over outer ∧ n'.durable = n.durable := by
  obtain ⟨n₁, hm, -, hn⟩ := h.begin hbegin hs (hk.of_prefix hu)
  have hb' := hb u n₁ hm
  rw [hr] at hb'
  obtain ⟨n', hm', ho⟩ := hb' hk
  refine ⟨n', hm', ?_, ?_⟩
  · intro h0 hi
    obtain ⟨-, rfl⟩ := hn h0
    rw [h.level] at hi
    exact ho _ (h.levels_ne_nil h0) Nest.over_begin hi
  · intro outer hne hover hi
    have h0 : s.connection.level ≠ 0 := fun h0 ↦ hover.ne_nil (h.levels_eq_nil h0)
    obtain ⟨-, rfl⟩ := hn h0
    exact ho outer hne hover.begin hi

variable (hbody : ∀ u : Session σ H, u.connection.pretending = false → u.Grows (body u).2)

include hbody

theorem Mirrors.tries (h : s.Mirrors g n) (hs : g.supportsSavepoints) (hb : Preserves g inside body)
    (ht : Tries d body retries s verdict run t) (hk : Steady g t.trace) :
    ∃ n', t.Mirrors g n' ∧ ∀ outer, outer ≠ [] → n.Over outer →
      (∀ r, run = some r → inside outer.length r.start) →
        (∀ e, verdict ≠ .again e) ∧
          (outer.length < t.connection.level → n'.Over outer ∧ n'.durable = n.durable) := by
  have hran {u v : Session σ H} {result : Except Error α} (hbegin : Begins d s (.ok ()) u)
      (hr : body u = (result, v)) (hv : v.trace <+: t.trace) :
      ∃ n', v.Mirrors g n' ∧ ∀ outer, outer ≠ [] → n.Over outer → inside outer.length u →
        1 < v.connection.level ∧ ∀ n'', n'.Keeps n'' → outer.length < n''.levels.length →
          n''.Over outer ∧ n''.durable = n.durable := by
    have hp := hbegin.grows.outside h.pretending
    have hu := (hbody u hp).trace
    rw [hr] at hu
    obtain ⟨n', hm, -, ho⟩ := h.ran hs hb hbegin hr hu (hk.of_prefix hv)
    refine ⟨n', hm, ?_⟩
    intro outer hne hover hi
    obtain ⟨hover', hd⟩ := ho outer hne hover hi
    have hl := hover'.length
    have hpos := List.length_pos_iff.mpr hne
    refine ⟨by rw [hm.level]; omega, ?_⟩
    intro n'' hkeep hl''
    obtain ⟨hover'', hd'⟩ := hkeep outer hne hover' hl''
    exact ⟨hover'', hd'.trans hd⟩
  cases ht with
  | unbegun hbegin =>
    obtain ⟨n', hm, hkeep, _⟩ := h.begin hbegin hs hk
    refine ⟨n', hm, fun outer hne hover _ ↦ ⟨nofun, fun hl ↦ ?_⟩⟩
    exact hkeep outer hne hover (hm.level ▸ hl)
  | @committed u v a w hbegin hr h1 hd =>
    obtain ⟨n', hm, ho⟩ := hran hbegin hr (by simp)
    have hl : (v.sent v.connection.write .commit true w).left.connection.level = 0 := by
      simp [h1]
    refine ⟨{}, hm.closed (by simp; rfl) (by simp) hl, fun outer hne hover hi ↦ ?_⟩
    exact absurd h1 (Nat.ne_of_gt (ho outer hne hover (hi _ rfl)).1)
  | @uncommitted u v a e w hbegin hr h1 hd =>
    obtain ⟨n', hm, ho⟩ := hran hbegin hr (by simp)
    refine ⟨{}, hm.closed rfl rfl rfl, fun outer hne hover hi ↦ ?_⟩
    exact absurd h1 (Nat.ne_of_gt (ho outer hne hover (hi _ rfl)).1)
  | @left u v a hbegin hr h1 =>
    obtain ⟨n', hm, ho⟩ := hran hbegin hr (by simp)
    have hm' := hm.leave (t := v.left) (sends_leaving v) (trace_left v) (by simp; rfl) (by simp)
      (by simp)
    refine ⟨n'.commit, hm', fun outer hne hover hi ↦ ⟨nofun, fun hl ↦ ?_⟩⟩
    exact (ho outer hne hover (hi _ rfl)).2 _ (n'.keeps_step .commit) (hm'.level ▸ hl)
  | @aborted u v e hbegin hr hc h1 =>
    obtain ⟨n', hm, ho⟩ := hran hbegin hr List.prefix_rfl
    have hm' := hm.leave (t := v.adapt fun c ↦ c.atLevel (c.level - 1)) sends_nil
      (List.append_nil _).symm rfl rfl rfl
    refine ⟨n'.commit, hm', fun outer hne hover hi ↦ ⟨nofun, fun hl ↦ ?_⟩⟩
    exact (ho outer hne hover (hi _ rfl)).2 _ (n'.keeps_step .commit) (hm'.level ▸ hl)
  | @rolledBack u v t e hbegin hr hc ht =>
    obtain ⟨n', hm, ho⟩ := hran hbegin hr ht.grows.trace
    obtain ⟨hm', -⟩ := hm.rollback ht hs
    refine ⟨_, hm', fun outer hne hover hi ↦ ?_⟩
    obtain ⟨h1, ho⟩ := ho outer hne hover (hi _ rfl)
    refine ⟨?_, fun hl ↦ ?_⟩
    · intro e' he
      exact hc ⟨(verdictOf_eq_again _ he).2, h1⟩
    · exact ho _ (n'.keeps_step (.rollback (some _))) (hm'.level ▸ hl)
  | @stuck u v t e e' hbegin hr hc ht =>
    obtain ⟨n', hm, -⟩ := hran hbegin hr ht.grows.trace
    cases hm.rollback_ok ht hk

theorem Mirrors.repeats (h : s.Mirrors g n) (hs : g.supportsSavepoints)
    (hb : Preserves g inside body) {attempts : List (Attempt σ H α)} {result : Except Error α}
    (hr : Repeats d body retries s attempts result t) (hk : Steady g t.trace) :
    ∃ n', t.Mirrors g n' ∧ ∀ outer, outer ≠ [] → n.Over outer →
      (∀ r ∈ Attempt.runs attempts, inside outer.length r.start) →
        outer.length < t.connection.level → n'.Over outer ∧ n'.durable = n.durable := by
  induction hr generalizing n with
  | @last retries s t verdict run ht hv =>
    obtain ⟨n', hm, ho⟩ := h.tries hbody hs hb ht hk
    refine ⟨n', hm, fun outer hne hover hi ↦ (ho outer hne hover ?_).2⟩
    intro r hr
    exact hi r (Attempt.mem_runs (List.mem_singleton_self _) hr)
  | @again retries s t t' e run attempts result ht hrest ih =>
    have hp := (ht.grows hbody h.pretending).outside h.pretending
    have htrace := (hrest.grows hbody hp).trace
    obtain ⟨n₁, hm, ho⟩ := h.tries hbody hs hb ht (hk.of_prefix htrace)
    obtain ⟨n', hm', -⟩ := ih hm hk
    refine ⟨n', hm', fun outer hne hover hi _ ↦ ?_⟩
    -- An attempt whose callback stays inside is not made again.
    refine absurd rfl ((ho outer hne hover ?_).1 e)
    intro r hr
    exact hi r (Attempt.mem_runs List.mem_cons_self hr)

theorem Repeats.grows_start {attempts : List (Attempt σ H α)} {result : Except Error α}
    (hr : Repeats d body retries s attempts result t) (hp : s.connection.pretending = false)
    {r : Run σ H α} (hm : r ∈ Attempt.runs attempts) : s.Grows r.start := by
  induction hr with
  | last ht hv =>
    rw [Attempt.runs_singleton] at hm
    exact (ht.run_mem (Option.mem_toList.mp hm)).1.grows
  | again ht hrest ih =>
    rw [Attempt.runs_cons, List.mem_append] at hm
    obtain hm | hm := hm
    · exact (ht.run_mem (Option.mem_toList.mp hm)).1.grows
    · have hg := ht.grows hbody hp
      exact hg.trans (ih (hg.outside hp) hm)

theorem Mirrors.start (h : s.Mirrors g n) (hs : g.supportsSavepoints)
    (hb : Preserves g inside body) {attempts : List (Attempt σ H α)} {result : Except Error α}
    (hr : Repeats d body retries s attempts result t) {r : Run σ H α}
    (hm : r ∈ Attempt.runs attempts) (hk : Steady g r.start.trace) :
    ∃ n', r.start.Mirrors g n' := by
  have hfirst {s t : Session σ H} {retries : Nat} {verdict : Verdict α} {run : Option (Run σ H α)}
      {n : Nest} (h : s.Mirrors g n) (ht : Tries d body retries s verdict run t)
      (hm : r ∈ run.toList) : ∃ n', r.start.Mirrors g n' := by
    have hbegin := (ht.run_mem (Option.mem_toList.mp hm)).1
    obtain ⟨n', hm, -⟩ := h.begin hbegin hs hk
    exact ⟨n', hm⟩
  induction hr generalizing n with
  | last ht hv =>
    rw [Attempt.runs_singleton] at hm
    exact hfirst h ht hm
  | again ht hrest ih =>
    rw [Attempt.runs_cons, List.mem_append] at hm
    obtain hm | hm := hm
    · exact hfirst h ht hm
    · have hp := (ht.grows hbody h.pretending).outside h.pretending
      have htrace := (hrest.grows_start hbody hp hm).trace
      obtain ⟨n₁, hm₁, -⟩ := h.tries hbody hs hb ht (hk.of_prefix htrace)
      exact ih hm₁ hm

/-- An attempt inside another transaction that comes to nothing, though its callback ends where it
began: the callback failed, and its level was left or gone back from. -/
theorem Mirrors.failed (h : s.Mirrors g n) (h0 : s.connection.level ≠ 0)
    (hs : g.supportsSavepoints) (hb : Preserves g inside body)
    (ht : Tries d body retries s verdict run t) (hk : Steady g t.trace)
    (hi : ∀ r, run = some r → inside s.connection.level r.start ∧
      r.finish.connection.level = r.start.connection.level)
    (hv : ∀ a, verdict ≠ .done a) :
    ∃ r e n', run = some r ∧ r.result = .error e ∧ verdict = .failed e ∧
      r.finish.Mirrors g n' ∧ n'.Over n.levels ∧ n'.durable = n.durable ∧
      r.finish.connection.level = s.connection.level + 1 ∧
      (e.causedByConcurrency ∧ t = r.finish.adapt (fun c ↦ c.atLevel (c.level - 1)) ∨
        e.causedByConcurrency = false ∧ Rollbacks d r.finish s.connection.level (.ok ()) t) := by
  have hran {u v : Session σ H} {result : Except Error α} (hbegin : Begins d s (.ok ()) u)
      (hr : body u = (result, v)) (hm : run = some ⟨u, result, v⟩) (htrace : v.trace <+: t.trace) :
      ∃ n', v.Mirrors g n' ∧ n'.Over n.levels ∧ n'.durable = n.durable ∧
        v.connection.level = s.connection.level + 1 := by
    have hp := hbegin.grows.outside h.pretending
    have hu := (hbody u hp).trace
    rw [hr] at hu
    obtain ⟨hi, hl⟩ := hi _ hm
    obtain ⟨n', hm', ho, -⟩ := h.ran hs hb hbegin hr hu (hk.of_prefix htrace)
    obtain ⟨hover, hd⟩ := ho h0 hi
    refine ⟨n', hm', hover, hd, hl.trans ?_⟩
    cases hbegin with
    | opened h0' hd => exact absurd h0' h0
    | openedAgain h0' hd he hr hn hd' => exact absurd h0' h0
    | marked _ _ hd => rfl
    | counted _ _ => rfl
  cases ht with
  | unbegun hbegin =>
    obtain ⟨_, _, _, hn⟩ := h.begin hbegin hs hk
    cases (hn h0).1
  | committed hbegin hr h1 hd => exact absurd rfl (hv _)
  | left hbegin hr h1 => exact absurd rfl (hv _)
  | uncommitted hbegin hr h1 hd =>
    obtain ⟨_, _, _, _, hl⟩ := hran hbegin hr rfl (by simp)
    omega
  | @aborted u v e hbegin hr hc h1 =>
    obtain ⟨n', hm, hover, hd, hl⟩ := hran hbegin hr rfl List.prefix_rfl
    exact ⟨_, e, n', rfl, rfl, rfl, hm, hover, hd, hl, .inl ⟨hc, rfl⟩⟩
  | @rolledBack u v t e hbegin hr hc ht =>
    obtain ⟨n', hm, hover, hd, hl⟩ := hran hbegin hr rfl ht.grows.trace
    have hc' : e.causedByConcurrency = false := by
      by_contra hc'
      exact hc ⟨by simpa using hc', by omega⟩
    refine ⟨_, e, n', rfl, rfl, ?_, hm, hover, hd, hl, .inr ⟨hc', ?_⟩⟩
    · rw [verdictOf, hc']
      rfl
    · rwa [hl] at ht
  | stuck hbegin hr hc ht =>
    obtain ⟨n', hm, -⟩ := hran hbegin hr rfl ht.grows.trace
    cases hm.rollback_ok ht hk

end

end Session

namespace Procedure

theorem continued {p : Procedure σ H α} {n₁ : Nest}
    (hp : Preserves g (fun k s ↦ p.StaysAbove d k s) (p.exec d)) (hm : t.Mirrors g n₁)
    (hkeep : n.Keeps n₁) (hk : Steady g (p.exec d t).2.trace) :
    ∃ n', (p.exec d t).2.Mirrors g n' ∧ ∀ outer, outer ≠ [] → n.Over outer →
      p.StaysAbove d outer.length t → n'.Over outer ∧ n'.durable = n.durable := by
  obtain ⟨n', hm', ho⟩ := hp t n₁ hm hk
  refine ⟨n', hm', fun outer hne hover hi ↦ ?_⟩
  obtain ⟨hover₁, hd⟩ := hkeep outer hne hover (hm.level ▸ hi.level)
  obtain ⟨hover', hd'⟩ := ho outer hne hover₁ hi
  exact ⟨hover', hd'.trans hd⟩

theorem exec_preserves (p : Procedure σ H α) (hp : p.Unmarked g) (hs : g.supportsSavepoints) :
    Preserves g (fun k s ↦ p.StaysAbove d k s) (p.exec d) := by
  induction p with
  | done a => exact fun u n hm _ ↦ ⟨n, hm, fun outer _ hover _ ↦ ⟨hover, rfl⟩⟩
  | consult look next ih =>
    intro u n hm hk
    have hm' : { u with world := (look u).2 }.Mirrors g n :=
      ⟨hm.grammar, hm.pretending, hm.level, hm.server⟩
    obtain ⟨n', hm', ho⟩ := continued (ih _ (hp _)) hm' (Nest.keeps_of_eq rfl rfl) hk
    exact ⟨n', hm', fun outer hne hover hi ↦ ho outer hne hover fun v hv ↦ hi v (.inr hv)⟩
  | execute useRead r hr next ih =>
    intro u n hm hk
    obtain ⟨n₁, hm₁, hkeep⟩ := hm.execute hr hp.1 (executes (d := d) hm.pretending)
    obtain ⟨n', hm', ho⟩ := continued (ih _ (hp.2 _)) hm₁ hkeep hk
    exact ⟨n', hm', fun outer hne hover hi ↦ ho outer hne hover fun v hv ↦ hi v (.inr hv)⟩
  | begin next ih =>
    intro u n hm hk
    have hb := begins (d := d) hm.pretending
    have htrace := ((next ((Session.begin d).on u).1).exec_grows (d := d)
      (hb.grows.outside hm.pretending)).trace
    obtain ⟨n₁, hm₁, hkeep, -⟩ := hm.begin hb hs (hk.of_prefix htrace)
    obtain ⟨n', hm', ho⟩ := continued (ih _ (hp _)) hm₁ hkeep hk
    exact ⟨n', hm', fun outer hne hover hi ↦ ho outer hne hover fun v hv ↦ hi v (.inr hv)⟩
  | commit next ih =>
    intro u n hm hk
    obtain ⟨n₁, hm₁, hkeep⟩ := hm.commit (commits (d := d) hm.pretending)
    obtain ⟨n', hm', ho⟩ := continued (ih _ (hp _)) hm₁ hkeep hk
    exact ⟨n', hm', fun outer hne hover hi ↦ ho outer hne hover fun v hv ↦ hi v (.inr hv)⟩
  | rollback target next ih =>
    intro u n hm hk
    have hb := rollbacks (d := d) hm.pretending target
    have htrace := ((next ((Session.rollback d target).on u).1).exec_grows (d := d)
      (hb.grows.outside hm.pretending)).trace
    rw [hm.rollback_ok hb (hk.of_prefix htrace)] at hb
    obtain ⟨hm₁, -⟩ := hm.rollback hb hs
    obtain ⟨n', hm', ho⟩ := continued (ih _ (hp _)) hm₁ (n.keeps_step (.rollback (some _))) hk
    exact ⟨n', hm', fun outer hne hover hi ↦ ho outer hne hover fun v hv ↦ hi v (.inr hv)⟩
  | transaction attempts body next ihb ih =>
    intro u n hm hk
    have hbody (u : Session σ H) (hu : u.connection.pretending = false) :=
      body.exec_grows (d := d) hu
    obtain ⟨list, result, t, ht, hr⟩ := transact_repeats (d := d) attempts hbody hm.pretending
    rw [exec_transaction, ht] at hk ⊢
    have htrace := ((next result).exec_grows (d := d)
      ((hr.grows hbody hm.pretending).outside hm.pretending)).trace
    obtain ⟨n₁, hm₁, ho₁⟩ := hm.repeats hbody hs (ihb hp.1) hr (hk.of_prefix htrace)
    obtain ⟨n', hm', ho⟩ := ih result (hp.2 _) t n₁ hm₁ hk
    refine ⟨n', hm', fun outer hne hover hi ↦ ?_⟩
    obtain ⟨-, hruns, hnext⟩ := staysAbove_transaction_iff.mpr hi
    rw [ht] at hruns hnext
    obtain ⟨hover₁, hd⟩ := ho₁ outer hne hover hruns hnext.level
    obtain ⟨hover', hd'⟩ := ho outer hne hover₁ hnext
    exact ⟨hover', hd'.trans hd⟩

theorem Visits.grows {p : Procedure σ H α} (h : p.Visits d s u)
    (hp : s.connection.pretending = false) : s.Grows u := by
  induction p generalizing s with
  | done a =>
    obtain rfl : u = s := h
    exact u.grows_refl
  | consult look next ih =>
    obtain rfl | h := h
    · exact u.grows_refl
    · have hs : s.Grows { s with world := (look s).2 } := ⟨rfl, List.prefix_rfl⟩
      exact hs.trans (ih _ h hp)
  | execute useRead r hr next ih =>
    obtain rfl | h := h
    · exact u.grows_refl
    · have he : Executes d useRead r s _ _ := executes hp
      exact he.grows.trans (ih _ h (he.grows.outside hp))
  | begin next ih =>
    obtain rfl | h := h
    · exact u.grows_refl
    · have hs := (begins (d := d) hp).grows
      exact hs.trans (ih _ h (hs.outside hp))
  | commit next ih =>
    obtain rfl | h := h
    · exact u.grows_refl
    · have hs := (commits (d := d) hp).grows
      exact hs.trans (ih _ h (hs.outside hp))
  | rollback target next ih =>
    obtain rfl | h := h
    · exact u.grows_refl
    · have hs := (rollbacks (d := d) hp target).grows
      exact hs.trans (ih _ h (hs.outside hp))
  | transaction attempts body next ihb ih =>
    have hbody (u : Session σ H) (hu : u.connection.pretending = false) :=
      body.exec_grows (d := d) hu
    obtain ⟨list, result, t, ht, hr⟩ := transact_repeats (d := d) attempts hbody hp
    rw [Visits, ht] at h
    obtain rfl | ⟨r, hm, h⟩ | h := h
    · exact u.grows_refl
    · have hs := hr.grows_start hbody hp hm
      exact hs.trans (ihb h (hs.outside hp))
    · have hs := hr.grows hbody hp
      exact hs.trans (ih _ h (hs.outside hp))

/-- Wherever a callback comes, the session mirrors its server. -/
theorem Visits.mirrors {p : Procedure σ H α} (h : p.Visits d s u) (hp : p.Unmarked g)
    (hs : g.supportsSavepoints) (hm : s.Mirrors g n) (hk : Steady g u.trace) :
    ∃ n', u.Mirrors g n' := by
  induction p generalizing s n with
  | done a =>
    cases h
    exact ⟨n, hm⟩
  | consult look next ih =>
    obtain rfl | h := h
    · exact ⟨n, hm⟩
    · exact ih _ h (hp _) ⟨hm.grammar, hm.pretending, hm.level, hm.server⟩
  | execute useRead r hr next ih =>
    obtain rfl | h := h
    · exact ⟨n, hm⟩
    · obtain ⟨n₁, hm₁, -⟩ := hm.execute hr hp.1 (executes (d := d) hm.pretending)
      exact ih _ h (hp.2 _) hm₁
  | begin next ih =>
    obtain rfl | h := h
    · exact ⟨n, hm⟩
    · have hb := begins (d := d) hm.pretending
      have htrace := (h.grows (hb.grows.outside hm.pretending)).trace
      obtain ⟨n₁, hm₁, -⟩ := hm.begin hb hs (hk.of_prefix htrace)
      exact ih _ h (hp _) hm₁
  | commit next ih =>
    obtain rfl | h := h
    · exact ⟨n, hm⟩
    · obtain ⟨n₁, hm₁, -⟩ := hm.commit (commits (d := d) hm.pretending)
      exact ih _ h (hp _) hm₁
  | rollback target next ih =>
    obtain rfl | h := h
    · exact ⟨n, hm⟩
    · have hb := rollbacks (d := d) hm.pretending target
      have htrace := (h.grows (hb.grows.outside hm.pretending)).trace
      rw [hm.rollback_ok hb (hk.of_prefix htrace)] at hb
      obtain ⟨hm₁, -⟩ := hm.rollback hb hs
      exact ih _ h (hp _) hm₁
  | transaction attempts body next ihb ih =>
    have hbody (u : Session σ H) (hu : u.connection.pretending = false) :=
      body.exec_grows (d := d) hu
    obtain ⟨list, result, t, ht, hr⟩ := transact_repeats (d := d) attempts hbody hm.pretending
    have hb : Preserves g (fun k s ↦ body.StaysAbove d k s) (body.exec d) :=
      exec_preserves body hp.1 hs
    rw [Visits, ht] at h
    obtain rfl | ⟨r, hr', h⟩ | h := h
    · exact ⟨n, hm⟩
    · have hpr := (hr.grows_start hbody hm.pretending hr').outside hm.pretending
      obtain ⟨n₁, hm₁⟩ := hm.start hbody hs hb hr hr' (hk.of_prefix (h.grows hpr).trace)
      exact ihb h hp.1 hm₁
    · have hpt := (hr.grows hbody hm.pretending).outside hm.pretending
      obtain ⟨n₁, hm₁, -⟩ := hm.repeats hbody hs hb hr (hk.of_prefix (h.grows hpt).trace)
      exact ih _ h (hp.2 _) hm₁

/-- What is left of a transaction that was entered from `u` inside another, and failed with `e`. -/
structure Undone (g : Grammar) (d : Driver σ H) (u : Session σ H) (runs : List (Run σ H α))
    (e : Error) (t : Session σ H) : Prop where
  once : ∃ r, runs = [r] ∧ r.result = .error e ∧
    -- After a lost race nothing is sent.
    (e.causedByConcurrency → t.trace = r.finish.trace)
  level : t.connection.level = u.connection.level
  durable : (Server.after g {} t.trace).durable = (Server.after g {} u.trace).durable
  outside : (Server.after g {} u.trace).pending <+: (Server.after g {} t.trace).pending
  inside : e.causedByConcurrency = false →
    (Server.after g {} t.trace).pending = (Server.after g {} u.trace).pending
  enclosing : ∀ w, (Session.rollback d none).on t = (.ok (), w) →
    (Server.after g {} w.trace).pending <+: (Server.after g {} u.trace).pending

/-- It is enough that the levels are those of the start, with nothing more in the innermost unless the
race was lost. -/
theorem undone_of_mirrors {l l' : List Written} {outer : List (List Written)} {n' : Nest}
    {r : Run σ H α} {e : Error} (hs : g.supportsSavepoints) (hm : u.Mirrors g n)
    (hn : n.levels = l :: outer) (hm' : t.Mirrors g n') (hn' : n'.levels = (l ++ l') :: outer)
    (hd : n'.durable = n.durable) (hl' : e.causedByConcurrency = false → l' = [])
    (hr : r.result = .error e) (ht : e.causedByConcurrency → t.trace = r.finish.trace) :
    Undone g d u [r] e t := by
  have hlevel (t : Session σ H) (n' : Nest) (l' : List Written) (hm : t.Mirrors g n')
      (hn : n'.levels = l' :: outer) : t.connection.level = outer.length + 1 :=
    hm.level.trans (congrArg List.length hn)
  have hl := hlevel u n l hm hn
  have hlt := hlevel t n' (l ++ l') hm' hn'
  have hv := hm.server (hl ▸ Nat.succ_pos _)
  have hv' := hm'.server (hlt ▸ Nat.succ_pos _)
  refine ⟨⟨r, rfl, hr, ht⟩, hlt.trans hl.symm, ?_, ?_, ?_, ?_⟩
  · rw [hv'.durable, hv.durable, hd]
  · rw [hv'.pending, hv.pending, Nest.pending, Nest.pending, hn, hn']
    simp
  · intro hc
    rw [hv'.pending, hv.pending, Nest.pending, Nest.pending, hn, hn', hl' hc, List.append_nil]
  · intro w hw
    have hb := rollbacks (d := d) hm'.pretending none
    rw [hw, Option.getD_none, hlt, Nat.add_sub_cancel] at hb
    have hvw := (hm'.rollback hb hs).2 (hlt ▸ Nat.lt_succ_self _)
    have ho := n'.levels_rollback (show n'.levels = [l ++ l'] ++ outer from hn')
      (List.cons_ne_nil _ _)
    rw [hvw.pending, hv.pending, Nest.pending, Nest.pending, ho, hn]
    simp

/-- A transaction inside another that fails is undone, if its callback stays inside it and leaves the
level as it was: all it wrote is forgotten, or after a lost race left to the transaction around it. -/
theorem transact_undone (d : Driver σ H) (s : Session σ H) (h : s.Untouched)
    (p : Procedure σ H α) (hp : p.Unmarked s.connection.grammar)
    (body : Procedure σ H (Except Error β)) (hbody : body.Unmarked s.connection.grammar)
    (attempts : Nat) (u : Session σ H) (hu : p.Visits d s u) (h0 : 0 < u.connection.level)
    (hk : Steady s.connection.grammar (transact d attempts (body.exec d) u).2.trace)
    (hi : ∀ r ∈ (transact d attempts (body.exec d) u).1.2,
      body.StaysAbove d u.connection.level r.start ∧
        r.finish.connection.level = r.start.connection.level)
    (e : Error) (he : (transact d attempts (body.exec d) u).1.1 = .error e) :
    Undone s.connection.grammar d u (transact d attempts (body.exec d) u).1.2 e
      (transact d attempts (body.exec d) u).2 := by
  have hpu := (hu.grows h.pretending).outside h.pretending
  have hgrows (u : Session σ H) (hu : u.connection.pretending = false) :=
    body.exec_grows (d := d) hu
  have hb : Preserves s.connection.grammar (fun k s ↦ body.StaysAbove d k s) (body.exec d) :=
    exec_preserves body hbody h.savepoints
  obtain ⟨list, result, t, ht, hr⟩ := transact_repeats (d := d) attempts hgrows hpu
  rw [ht] at hk hi he ⊢
  obtain ⟨n, hm⟩ := hu.mirrors hp h.savepoints h.mirrors
    (hk.of_prefix (hr.grows hgrows hpu).trace)
  have h0' : u.connection.level ≠ 0 := Nat.ne_of_gt h0
  generalize attempts - 1 = retries at hr
  cases hr with
  | again htry hrest =>
    have hp' := (htry.grows hgrows hpu).outside hpu
    have hk' := hk.of_prefix (hrest.grows hgrows hp').trace
    obtain ⟨_, _, _, _, _, hv, -⟩ := hm.failed hgrows h0' h.savepoints hb htry hk'
      (fun r hr ↦ hi r (Attempt.mem_runs List.mem_cons_self hr)) nofun
    cases hv
  | last htry hv =>
    obtain ⟨r, e', n', rfl, hr, rfl, hm', ⟨inner, _, hn'⟩, hd, hl, hleft⟩ :=
      hm.failed hgrows h0' h.savepoints hb htry hk
        (fun r hr ↦ hi r (Attempt.mem_runs (List.mem_singleton_self _) hr))
        (by rintro a rfl; cases he)
    obtain rfl : e' = e := Except.error.inj he
    obtain ⟨l, outer, hn⟩ := List.exists_cons_of_ne_nil (hm.levels_ne_nil h0')
    obtain ⟨l', rfl⟩ : ∃ l', inner = [l'] := by
      apply List.length_eq_one_iff.mp
      have hlen := congrArg List.length hn'
      rw [← hm'.level, hl, hm.level, List.length_append] at hlen
      omega
    obtain ⟨hc, rfl⟩ | ⟨hc, ht⟩ := hleft
    · have hcommit : n'.commit = { n' with levels := (l ++ l') :: outer } :=
        Nest.commit_inner (by rw [hn', hn]; rfl)
      have hm'' := hm'.leave (t := r.finish.adapt fun c ↦ c.atLevel (c.level - 1)) sends_nil
        (List.append_nil _).symm rfl rfl rfl
      rw [hcommit] at hm''
      exact undone_of_mirrors h.savepoints hm hn hm'' rfl hd (by simp [hc]) hr fun _ ↦ rfl
    · obtain ⟨hm'', -⟩ := hm'.rollback ht h.savepoints
      rw [hm.level] at hm''
      have hn'' := n'.levels_rollback hn' (List.cons_ne_nil _ _)
      have hd' : (n'.rollback n.levels.length).durable = n.durable :=
        (n'.durable_rollback _).trans hd
      exact undone_of_mirrors h.savepoints hm hn hm'' (by rw [hn'', hn, List.append_nil]) hd'
        (fun _ ↦ rfl) hr (by simp [hc])

def opening : Procedure Script String Unit :=
  .begin fun _ ↦ .execute true (.statement "insert order" []) rfl fun _ ↦ .done ()

def overdrawn : Procedure Script String (Except Error Unit) :=
  .execute true (.statement "debit" []) rfl fun _ ↦
    .transaction 2 (.execute true (.affecting "credit" []) rfl fun _ ↦ .done (.ok ())) fun _ ↦
      .done (.error (.driver "insufficient funds"))

def ordering : Session Script String := (opening.exec Script.driver untouched).2

theorem visits_ordering : opening.Visits Script.driver untouched ordering := .inr (.inr rfl)

def pendingAfter (body : Procedure Script String (Except Error Unit)) : List String :=
  (Server.after untouched.connection.grammar {}
    (transact Script.driver 3 (body.exec Script.driver) ordering).2.trace).pending.map (·.2.sql)

theorem transact_undone_overdrawn :
    untouched.Untouched ∧ overdrawn.Unmarked untouched.connection.grammar ∧
    opening.Visits Script.driver untouched ordering ∧ 0 < ordering.connection.level ∧
    Steady untouched.connection.grammar
      (transact Script.driver 3 (overdrawn.exec Script.driver) ordering).2.trace ∧
    (∀ r ∈ (transact Script.driver 3 (overdrawn.exec Script.driver) ordering).1.2,
      overdrawn.StaysAbove Script.driver ordering.connection.level r.start ∧
        r.finish.connection.level = r.start.connection.level) ∧
    Undone untouched.connection.grammar Script.driver ordering
      (transact Script.driver 3 (overdrawn.exec Script.driver) ordering).1.2
      (.driver "insufficient funds")
      (transact Script.driver 3 (overdrawn.exec Script.driver) ordering).2 ∧
    pendingAfter overdrawn = ["insert order"] := by
  have h : untouched.Untouched := ⟨rfl, rfl, rfl, rfl⟩
  have hp : opening.Unmarked untouched.connection.grammar := fun _ ↦ ⟨rfl, fun _ ↦ trivial⟩
  have hb : overdrawn.Unmarked untouched.connection.grammar :=
    ⟨rfl, fun _ ↦ ⟨⟨rfl, fun _ ↦ trivial⟩, fun _ ↦ trivial⟩⟩
  obtain ⟨h0, hk, hi, hpending⟩ : 0 < ordering.connection.level ∧
      Steady untouched.connection.grammar
        (transact Script.driver 3 (overdrawn.exec Script.driver) ordering).2.trace ∧
      (∀ r ∈ (transact Script.driver 3 (overdrawn.exec Script.driver) ordering).1.2,
        overdrawn.StaysAbove Script.driver ordering.connection.level r.start ∧
          r.finish.connection.level = r.start.connection.level) ∧
      pendingAfter overdrawn = ["insert order"] := by
    unfold Steady
    decide +kernel
  refine ⟨h, hb, visits_ordering, h0, hk, hi, ?_, hpending⟩
  exact transact_undone Script.driver untouched h opening hp overdrawn hb 3 ordering visits_ordering
    h0 hk hi (.driver "insufficient funds") rfl

def raced : Procedure Script String (Except Error Unit) :=
  .execute true (.statement "debit" []) rfl fun _ ↦ .done (.error (.driver "deadlock detected"))

def reentered : Procedure Script String (Except Error Unit) :=
  .execute true (.statement "debit" []) rfl fun _ ↦ .commit fun _ ↦ .begin fun _ ↦
    .done (.error (.driver "insufficient funds"))

/-- What a callback wrote stays pending after a lost race, although the callback stays inside its
transaction, and after any failure when the callback has left the level in the meantime. -/
theorem transact_undone_pending :
    untouched.connection.grammar.supportsSavepoints ∧ 0 < ordering.connection.level ∧
    (∀ body ∈ [raced, reentered],
      Steady untouched.connection.grammar
        (transact Script.driver 3 (body.exec Script.driver) ordering).2.trace ∧
      (∀ r ∈ (transact Script.driver 3 (body.exec Script.driver) ordering).1.2,
        r.finish.connection.level = r.start.connection.level) ∧
      (transact Script.driver 3 (body.exec Script.driver) ordering).1.1.toBool = false ∧
      pendingAfter body = ["insert order", "debit"]) ∧
    ∀ r ∈ (transact Script.driver 3 (raced.exec Script.driver) ordering).1.2,
      raced.StaysAbove Script.driver ordering.connection.level r.start := by
  unfold Steady
  decide +kernel

end Procedure

end FluentSql
