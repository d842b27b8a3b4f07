import FluentSql.Proofs.Failures.Faults
import FluentSql.Proofs.Transactions.Procedure

namespace FluentSql

variable {σ H τ α β α' β' : Type}

/-- One failure, with statements attached to it once and again. -/
inductive Error.Akin : Error → Error → Prop where
  | refl (e : Error) : Akin e e
  | wrapped {r : Error} (hr : r.sql? = none) (statements statements' : List (String × List Value)) :
    Akin (r.wrapped statements) (r.wrapped statements')

inductive Matches (R : Error → Error → Prop) {α : Type} : Except Error α → Except Error α → Prop where
  | ok (a : α) : Matches R (.ok a) (.ok a)
  | error {e e' : Error} (h : R e e') : Matches R (.error e) (.error e')

def Alongside (R : α → β → Prop) (p : α × τ) (p' : β × τ) : Prop := R p.1 p'.1 ∧ p.2 = p'.2

structure Driver.Akin (d d' : Driver σ H) : Prop where
  send (h : H) (r : Request) (w : σ) :
    Alongside (Matches Error.Akin) (d.send h r w) (d'.send h r w)
  reconnect (w : σ) : Alongside (Matches Error.Akin) (d.reconnect w) (d'.reconnect w)

/-- What comes to related results and leaves the same session, wherever it starts. -/
def InStep (R : α → β → Prop) (f : Session σ H → α × Session σ H)
    (f' : Session σ H → β × Session σ H) : Prop :=
  ∀ s, Alongside R (f s) (f' s)

namespace Error

variable {e e' : Error} {sql : String} {bindings : List Value}

namespace Akin

theorem symm (h : e.Akin e') : e'.Akin e := by
  cases h with
  | refl e => exact .refl e
  | wrapped hr statements statements' => exact .wrapped hr _ _

theorem lostConnection (h : e.Akin e') : e.causedByLostConnection = e'.causedByLostConnection := by
  cases h with
  | refl e => rfl
  | wrapped hr statements statements' =>
    rw [(stands_wrapped hr statements).lostConnection, (stands_wrapped hr statements').lostConnection]

theorem concurrency (h : e.Akin e') : e.causedByConcurrency = e'.causedByConcurrency := by
  cases h with
  | refl e => rfl
  | wrapped hr statements statements' =>
    rw [(stands_wrapped hr statements).concurrency, (stands_wrapped hr statements').concurrency]

theorem classify (h : e.Akin e') : (e.classify sql bindings).Akin (e'.classify sql bindings) := by
  cases h with
  | refl e => exact .refl _
  | wrapped hr statements statements' =>
    rw [← wrapped_concat, ← wrapped_concat]
    exact .wrapped hr _ _

end Akin

def Told (e e' : Error) : Prop := e.Akin e' ∧ e.isConnectionLost = e'.isConnectionLost

theorem Told.refl (e : Error) : e.Told e := ⟨.refl e, rfl⟩

theorem Akin.told (h : e.Akin e') : (e.classify sql bindings).Told (e'.classify sql bindings) :=
  ⟨h.classify, by simp only [isConnectionLost_classify, h.lostConnection]⟩

end Error

section

variable {R Q : Error → Error → Prop} {x y : Except Error α}

theorem Matches.refl (hR : ∀ e, R e e) (x : Except Error α) : Matches R x x := by
  cases x with
  | ok a => exact .ok a
  | error e => exact .error (hR e)

theorem Matches.symm (h : Matches Error.Akin x y) : Matches Error.Akin y x := by
  cases h with
  | ok a => exact .ok a
  | error he => exact .error he.symm

theorem Matches.mono (h : Matches R x y) (hR : ∀ {e e'}, R e e' → Q e e') : Matches Q x y := by
  cases h with
  | ok a => exact .ok a
  | error he => exact .error (hR he)

theorem Alongside.cases {p p' : Except Error α × τ} (h : Alongside (Matches R) p p') :
    (∃ a t, p = (.ok a, t) ∧ p' = (.ok a, t)) ∨
      ∃ e e' t, R e e' ∧ p = (.error e, t) ∧ p' = (.error e', t) := by
  obtain ⟨x, t⟩ := p
  obtain ⟨y, u⟩ := p'
  obtain ⟨hr, rfl : t = u⟩ := h
  cases hr with
  | ok a => exact .inl ⟨a, t, rfl, rfl⟩
  | error he => exact .inr ⟨_, _, t, he, rfl, rfl⟩

end

theorem Driver.Akin.symm {d d' : Driver σ H} (h : d.Akin d') : d'.Akin d where
  send handle r w := ⟨(h.send handle r w).1.symm, (h.send handle r w).2.symm⟩
  reconnect w := ⟨(h.reconnect w).1.symm, (h.reconnect w).2.symm⟩

namespace InStep

open FluentSql.Action

section

variable {R : α → α' → Prop} {Q : β → β' → Prop}

theorem pure {a : α} {a' : α'} (h : R a a') :
    InStep R (Pure.pure a : StateM (Session σ H) α).run
      (Pure.pure a' : StateM (Session σ H) α').run := fun _ ↦ ⟨h, rfl⟩

theorem bind {m : StateM (Session σ H) α} {m' : StateM (Session σ H) α'}
    {f : α → StateM (Session σ H) β} {f' : α' → StateM (Session σ H) β'}
    (h : InStep R m.run m'.run) (hf : ∀ a a', R a a' → InStep Q (f a).run (f' a').run) :
    InStep Q (m >>= f).run (m' >>= f').run := by
  intro s
  obtain ⟨hr, hs⟩ := h s
  change Alongside Q ((f (m.run s).1).run (m.run s).2) ((f' (m'.run s).1).run (m'.run s).2)
  rw [← hs]
  exact hf _ _ hr _

end

section

variable {R Q : Error → Error → Prop} {a b : Action σ H α} {f g : α → Action σ H β} {e e' : Error}

theorem refl (hR : ∀ e, R e e) (a : Action σ H α) : InStep (Matches R) a.on a.on :=
  fun _ ↦ ⟨.refl hR _, rfl⟩

theorem throw (h : R e e') : InStep (Matches R) (MonadExcept.throw e : Action σ H α).on
    (MonadExcept.throw e' : Action σ H α).on := fun _ ↦ ⟨.error h, rfl⟩

theorem mono (h : InStep (Matches R) a.on b.on) (hR : ∀ {e e'}, R e e' → Q e e') :
    InStep (Matches Q) a.on b.on := fun s ↦ ⟨(h s).1.mono hR, (h s).2⟩

theorem current {f g : Connection H → Action σ H β}
    (hf : ∀ c, InStep (Matches R) (f c).on (g c).on) :
    InStep (Matches R) (Action.current >>= f).on (Action.current >>= g).on := fun s ↦ hf _ s

theorem andThen (h : InStep (Matches R) a.on b.on)
    (hf : ∀ x, InStep (Matches R) (f x).on (g x).on) :
    InStep (Matches R) (a >>= f).on (b >>= g).on := by
  intro s
  obtain ⟨x, t, ha, hb⟩ | ⟨e, e', t, he, ha, hb⟩ := (h s).cases
  · rw [on_bind_ok ha, on_bind_ok hb]
    exact hf x t
  · rw [on_bind_error ha, on_bind_error hb]
    exact ⟨.error he, rfl⟩

theorem observe {f g : Except Error α → Action σ H β} (h : InStep (Matches R) a.on b.on)
    (hf : ∀ x y, Matches R x y → InStep (Matches Q) (f x).on (g y).on) :
    InStep (Matches Q) (Action.observe a >>= f).on (Action.observe b >>= g).on := by
  intro s
  obtain ⟨hr, hs⟩ := h s
  rw [on_observe_bind, on_observe_bind, ← hs]
  exact hf _ _ hr _

end

end InStep

namespace Session

open FluentSql.Action

theorem failClosing_inStep {e e' : Error} (he : e.Akin e') :
    InStep (Matches Error.Akin) (failClosing e : Action σ H α).on
      (failClosing e' : Action σ H α).on := by
  intro s
  rw [failClosing_on, failClosing_on]
  unfold broken
  rw [he.lostConnection]
  exact ⟨.error he, rfl⟩

section

variable {d d' : Driver σ H} (hd : d.Akin d') (useRead : Bool) (r : Request)

include hd

theorem send_inStep (h : H) :
    InStep (Matches Error.Akin) (send d h r).on (send d' h r).on := by
  intro s
  obtain ⟨reply, w, hx, hy⟩ | ⟨e, e', w, he, hx, hy⟩ := (hd.send h r s.world).cases
  · rw [on_send_ok hx, on_send_ok hy]
    exact ⟨.ok reply, rfl⟩
  · rw [on_send_error hx, on_send_error hy]
    exact ⟨.error he, rfl⟩

theorem reconnect_inStep : InStep (Matches Error.Akin) (reconnect d).on (reconnect d').on := by
  intro s
  cases hc : s.connection.hasReconnector with
  | false =>
    rw [reconnect_missing hc, reconnect_missing hc]
    exact ⟨.error (.refl _), rfl⟩
  | true =>
    obtain ⟨handles, w, hx, hy⟩ | ⟨e, e', w, he, hx, hy⟩ := (hd.reconnect s.world).cases
    · rw [reconnect_ok hc hx, reconnect_ok hc hy]
      exact ⟨.ok (), rfl⟩
    · rw [reconnect_error hc hx, reconnect_error hc hy]
      exact ⟨.error he, rfl⟩

variable {useRead r} in
theorem Loses.akin {s : Session σ H} {w : σ} (h : s.Loses d useRead r w) :
    s.Loses d' useRead r w := by
  obtain ⟨h0, e, hs, hl⟩ := h
  obtain ⟨reply, t, hx, -⟩ | ⟨e₁, e', t, he, hx, hy⟩ :=
    (hd.send (s.target useRead r) r s.world).cases
  · cases hs.symm.trans hx
  · cases hs.symm.trans hx
    exact ⟨h0, e', hy, by rw [← he.told.2, hl]⟩

/-- A failed statement is called a lost connection over both drivers, or over neither. -/
theorem attempt_inStep :
    InStep (Matches Error.Told) (attempt d useRead r).on (attempt d' useRead r).on := by
  unfold attempt
  refine .current fun c ↦ ?_
  split
  · exact .refl Error.Told.refl _
  refine .observe (send_inStep hd r _) fun x y h ↦ ?_
  cases h with
  | ok reply => exact .refl Error.Told.refl _
  | error he => exact .throw he.told

theorem attemptAgain_inStep {e e' : Error} (he : e.Told e') :
    InStep (Matches Error.Akin) (attemptAgain d useRead r e).on (attemptAgain d' useRead r e').on := by
  unfold attemptAgain
  refine .current fun c ↦ ?_
  -- What is asked here is the outermost class, which a bare failure has not got: it comes from
  -- `attempt`, which has just classified both.
  rw [← he.2]
  split
  · exact .throw he.1
  · exact .andThen (reconnect_inStep hd) fun _ ↦ (attempt_inStep hd useRead r).mono And.left

theorem execute_inStep :
    InStep (Matches Error.Akin) (execute d useRead r).on (execute d' useRead r).on := by
  intro s
  obtain ⟨reply, t, hx, hy⟩ | ⟨e, e', t, he, hx, hy⟩ := (attempt_inStep hd useRead r s).cases
  · rw [execute_ok hx, execute_ok hy]
    exact InStep.refl .refl _ t
  · rw [execute_error hx, execute_error hy]
    exact InStep.andThen (attemptAgain_inStep hd useRead r he) (fun _ ↦ .refl .refl _) t

theorem openLevel_inStep : InStep (Matches Error.Akin) (openLevel d).on (openLevel d').on := by
  unfold openLevel
  refine .current fun c ↦ ?_
  split
  · exact .refl .refl _
  split
  · refine .observe (send_inStep hd _ _) fun x y h ↦ ?_
    cases h with
    | ok reply => exact .refl .refl _
    | error he =>
      dsimp only
      rw [he.lostConnection]
      split
      · exact .throw he
      · exact .andThen (reconnect_inStep hd) fun _ ↦ .current fun c ↦ send_inStep hd _ _
  split
  · exact .andThen (send_inStep hd _ _) fun _ ↦ .refl .refl _
  · exact .refl .refl _

theorem begin_inStep : InStep (Matches Error.Akin) (begin d).on (begin d').on := by
  unfold begin
  exact .andThen (openLevel_inStep hd) fun _ ↦ .refl .refl _

theorem commitDriver_inStep :
    InStep (Matches Error.Akin) (commitDriver d).on (commitDriver d').on := by
  unfold commitDriver
  refine .current fun c ↦ ?_
  split
  · exact send_inStep hd _ _
  · exact .refl .refl _

theorem commit_inStep : InStep (Matches Error.Akin) (commit d).on (commit d').on := by
  unfold commit
  refine .current fun c ↦ ?_
  split
  · exact .refl .refl _
  refine .observe (commitDriver_inStep hd) fun x y h ↦ ?_
  cases h with
  | ok _ => exact .refl .refl _
  | error he => exact failClosing_inStep he

theorem rollbackDriver_inStep (level : Nat) :
    InStep (Matches Error.Akin) (rollbackDriver d level).on (rollbackDriver d' level).on := by
  unfold rollbackDriver
  refine .current fun c ↦ ?_
  split
  · exact .refl .refl _
  split
  · exact send_inStep hd _ _
  split
  · exact .andThen (send_inStep hd _ _) fun _ ↦ .refl .refl _
  · exact .refl .refl _

theorem rollback_inStep (target : Option Nat) :
    InStep (Matches Error.Akin) (rollback d target).on (rollback d' target).on := by
  unfold rollback
  refine .current fun c ↦ ?_
  dsimp only
  split
  · exact .refl .refl _
  refine .observe (rollbackDriver_inStep hd _) fun x y h ↦ ?_
  cases h with
  | ok _ => exact .refl .refl _
  | error he => exact failClosing_inStep he

theorem afterFailure_inStep {e e' : Error} (he : e.Akin e') (retries : Nat) :
    InStep (Matches Error.Akin) (afterFailure d e retries).on (afterFailure d' e' retries).on := by
  unfold afterFailure
  refine .current fun c ↦ ?_
  rw [he.concurrency]
  dsimp only
  split
  · exact .andThen (.refl .refl _) fun _ ↦ .throw he
  refine .andThen (rollback_inStep hd _) fun _ ↦ ?_
  split
  · exact .throw he
  · exact .refl .refl _

end

theorem afterFailedCommit_inStep {e e' : Error} (he : e.Akin e') (retries : Nat) :
    InStep (Matches Error.Akin) (afterFailedCommit e retries : Action σ H Unit).on
      (afterFailedCommit e' retries : Action σ H Unit).on := by
  unfold afterFailedCommit
  rw [he.concurrency]
  refine .andThen (.refl .refl _) fun _ ↦ ?_
  split
  · exact failClosing_inStep he
  · exact .refl .refl _

end Session

end FluentSql
