import FluentSql.Proofs.Failures.Alongside
import FluentSql.Session.Script
import Mathlib.Data.List.Forall2

namespace FluentSql

variable {σ H α β ρ : Type}

structure Run.Akin (run run' : Run σ H α) : Prop where
  start : run.start = run'.start
  result : Matches Error.Akin run.result run'.result
  finish : run.finish = run'.finish

def Noted (R : α → α → Prop) (S : ρ → ρ → Prop) (x y : α × ρ) : Prop := R x.1 y.1 ∧ S x.2 y.2

namespace Session

open FluentSql.Action Procedure

inductive Verdict.Akin : Verdict α → Verdict α → Prop where
  | done (a : α) : Akin (.done a) (.done a)
  | failed {e e' : Error} (h : e.Akin e') : Akin (.failed e) (.failed e')
  | again {e e' : Error} (h : e.Akin e') : Akin (.again e) (.again e')

theorem Verdict.Akin.result {verdict verdict' : Verdict α} (h : verdict.Akin verdict') :
    Matches Error.Akin verdict.result verdict'.result := by
  cases h with
  | done a => exact .ok a
  | failed he => exact .error he
  | again he => exact .error he

variable {e e' : Error} (retries : Nat)

theorem verdictAfter_inStep {deal deal' : Action σ H Unit} (he : e.Akin e')
    (h : InStep (Matches Error.Akin) deal.on deal'.on) :
    InStep Verdict.Akin (verdictAfter e deal : StateM (Session σ H) (Verdict α)).run
      (verdictAfter e' deal' : StateM (Session σ H) (Verdict α)).run := by
  unfold verdictAfter
  refine .bind h fun x y hxy ↦ ?_
  cases hxy with
  | ok _ => exact .pure (.again he)
  | error hx => exact .pure (.failed hx)

section

variable {d d' : Driver σ H} (hd : d.Akin d') {S : ρ → ρ → Prop}
  {callback callback' : StateM (Session σ H) (Except Error α × ρ)}
  (hc : InStep (Noted (Matches Error.Akin) S) callback.run callback'.run)

include hd

theorem close_inStep (a : α) :
    InStep Verdict.Akin (close d retries a).run (close d' retries a).run := by
  unfold close
  refine .bind (commitDriver_inStep hd) fun x y h ↦ ?_
  cases h with
  | ok _ => exact .bind (InStep.refl Error.Akin.refl _) fun _ _ _ ↦ .pure (.done a)
  | error he => exact verdictAfter_inStep he (afterFailedCommit_inStep he retries)

include hc

theorem tryTransaction_inStep :
    InStep (Noted Verdict.Akin (List.Forall₂ S)) (tryTransaction d callback retries).run
      (tryTransaction d' callback' retries).run := by
  unfold tryTransaction
  refine .bind (begin_inStep hd) fun x y h ↦ ?_
  cases h with
  | error he => exact .pure ⟨.failed he, .nil⟩
  | ok _ =>
    refine .bind hc fun x y h ↦ ?_
    obtain ⟨result, notes⟩ := x
    obtain ⟨result', notes'⟩ := y
    obtain ⟨hr, hs⟩ := h
    have hn : List.Forall₂ S [notes] [notes'] := .cons hs .nil
    cases hr with
    | ok a => exact .bind (close_inStep retries hd a) fun _ _ hv ↦ .pure ⟨hv, hn⟩
    | error he =>
      exact .bind (verdictAfter_inStep he (afterFailure_inStep hd he retries)) fun _ _ hv ↦
        .pure ⟨hv, hn⟩

/-- By induction on the retries left: an attempt is made again over both drivers, or over
neither. -/
theorem transactionWithin_inStep :
    InStep (Noted (Matches Error.Akin) (List.Forall₂ S)) (transactionWithin d callback retries).run
      (transactionWithin d' callback' retries).run := by
  induction retries with
  | zero =>
    unfold transactionWithin
    exact .bind (tryTransaction_inStep 0 hd hc) fun _ _ h ↦ .pure ⟨h.1.result, h.2⟩
  | succ retries ih =>
    unfold transactionWithin
    refine .bind (tryTransaction_inStep (retries + 1) hd hc) fun x y h ↦ ?_
    obtain ⟨verdict, notes⟩ := x
    obtain ⟨verdict', notes'⟩ := y
    obtain ⟨hv, hn⟩ := h
    cases hv with
    | done a => exact .pure ⟨.ok a, hn⟩
    | failed he => exact .pure ⟨.error he, hn⟩
    | again he => exact .bind ih fun _ _ h ↦ .pure ⟨h.1, List.rel_append hn h.2⟩

end

theorem noting_inStep {body body' : Session σ H → Except Error α × Session σ H}
    (h : InStep (Matches Error.Akin) body body') :
    InStep (Noted (Matches Error.Akin) Run.Akin) (noting body).run (noting body').run :=
  fun s ↦ ⟨⟨(h s).1, rfl, (h s).1, (h s).2⟩, (h s).2⟩

end Session

open Session Procedure

namespace Driver

variable {d d' : Driver σ H}

/-- Drivers over which it makes no difference to a session which of them it has. -/
structure Interchangeable (d d' : Driver σ H) : Prop where
  loses (s : Session σ H) (useRead : Bool) (r : Request) (w : σ) :
    s.Loses d useRead r w ↔ s.Loses d' useRead r w
  execute (useRead : Bool) (r : Request) :
    InStep (Matches Error.Akin) (Session.execute d useRead r).on (Session.execute d' useRead r).on
  begin : InStep (Matches Error.Akin) (Session.begin d).on (Session.begin d').on
  commit : InStep (Matches Error.Akin) (Session.commit d).on (Session.commit d').on
  rollback (target : Option Nat) :
    InStep (Matches Error.Akin) (Session.rollback d target).on (Session.rollback d' target).on
  transaction {α : Type} (attempts : Nat) {body body' : Session σ H → Except Error α × Session σ H}
    (h : InStep (Matches Error.Akin) body body') :
    InStep (Noted (Matches Error.Akin) (List.Forall₂ Run.Akin)) (transact d attempts body)
      (transact d' attempts body')

theorem Akin.interchangeable (hd : d.Akin d') : Interchangeable d d' where
  loses _ _ _ _ := ⟨.akin hd, .akin hd.symm⟩
  execute := execute_inStep hd
  begin := begin_inStep hd
  commit := commit_inStep hd
  rollback := rollback_inStep hd
  transaction attempts _ _ h := transactionWithin_inStep (attempts - 1) hd (noting_inStep h)

end Driver

namespace Procedure

/-- Callbacks that do the same but for what they make of the statements attached to failures. -/
inductive Akin : {α : Type} → (α → α → Prop) → Procedure σ H α → Procedure σ H α → Prop where
  | done {α : Type} {R : α → α → Prop} {a a' : α} (h : R a a') : Akin R (done a) (done a')
  | consult {α τ : Type} {R : α → α → Prop} (look : Session σ H → τ × σ)
      {next next' : τ → Procedure σ H α} (h : ∀ x, Akin R (next x) (next' x)) :
      Akin R (consult look next) (consult look next')
  | execute {α : Type} {R : α → α → Prop} (useRead : Bool) (r : Request) (hr : r.isStatement)
      {next next' : Except Error r.Reply → Procedure σ H α}
      (h : ∀ x x', Matches Error.Akin x x' → Akin R (next x) (next' x')) :
      Akin R (execute useRead r hr next) (execute useRead r hr next')
  | begin {α : Type} {R : α → α → Prop} {next next' : Except Error Unit → Procedure σ H α}
      (h : ∀ x x', Matches Error.Akin x x' → Akin R (next x) (next' x')) :
      Akin R (begin next) (begin next')
  | commit {α : Type} {R : α → α → Prop} {next next' : Except Error Unit → Procedure σ H α}
      (h : ∀ x x', Matches Error.Akin x x' → Akin R (next x) (next' x')) :
      Akin R (commit next) (commit next')
  | rollback {α : Type} {R : α → α → Prop} (target : Option Nat)
      {next next' : Except Error Unit → Procedure σ H α}
      (h : ∀ x x', Matches Error.Akin x x' → Akin R (next x) (next' x')) :
      Akin R (rollback target next) (rollback target next')
  | transaction {α β : Type} {R : α → α → Prop} (attempts : Nat)
      {body body' : Procedure σ H (Except Error β)} (hb : Akin (Matches Error.Akin) body body')
      {next next' : Except Error β → Procedure σ H α}
      (h : ∀ x x', Matches Error.Akin x x' → Akin R (next x) (next' x')) :
      Akin R (transaction attempts body next) (transaction attempts body' next')

/-- Whole callbacks go the same way, with all transactions inside them. -/
theorem Akin.inStep {d d' : Driver σ H} (hd : d.Akin d') {R : α → α → Prop}
    {p p' : Procedure σ H α} (h : p.Akin R p') : InStep R (p.exec d) (p'.exec d') := by
  have hi := hd.interchangeable
  induction h with
  | done h => exact fun _ ↦ ⟨h, rfl⟩
  | consult look h ih => exact fun s ↦ ih _ _
  | execute useRead r hr h ih => exact .bind (hi.execute useRead r) ih
  | begin h ih => exact .bind hi.begin ih
  | commit h ih => exact .bind hi.commit ih
  | rollback target h ih => exact .bind (hi.rollback target) ih
  | transaction attempts hb h ihb ih =>
    exact .bind (hi.transaction attempts ihb) fun x y hxy ↦ ih _ _ hxy.1

end Procedure

def Error.relayed (statements : List (String × List Value)) (e : Error) : Error :=
  if e.sql? = none then e.wrapped statements else e

theorem Error.akin_relayed (statements : List (String × List Value)) (e : Error) :
    e.Akin (e.relayed statements) := by
  unfold relayed
  split
  case isTrue hr => exact .wrapped hr [] statements
  case isFalse => exact .refl e

def Driver.relaying (d : Driver σ H) (statements : List (String × List Value)) : Driver σ H :=
  { d with send := fun h r w ↦
      ((d.send h r w).1.mapError (Error.relayed statements), (d.send h r w).2) }

theorem Driver.akin_relaying (d : Driver σ H) (statements : List (String × List Value)) :
    d.Akin (d.relaying statements) where
  send h r w := by
    refine ⟨?_, rfl⟩
    change Matches Error.Akin (d.send h r w).1 ((d.send h r w).1.mapError (Error.relayed statements))
    cases (d.send h r w).1 with
    | ok reply => exact .ok reply
    | error e => exact .error (Error.akin_relayed statements e)
  reconnect w := ⟨.refl .refl _, rfl⟩

def Error.conflict : Error :=
  .database (.reported (some "40001") "Lost connection")

def Error.twice : List (String × List Value) := [("enlist", []), ("pay", [.int32 5])]

def Session.contended : Session Script String :=
  { connection := { write := "write", grammar := { dialect := .postgres }, processor := .postgres }
    world := { statements := [.error Error.conflict] } }

def Driver.relay : Driver Script String := Script.driver.relaying Error.twice

def Procedure.enlisting : Procedure Script String (Except Error Unit) :=
  .execute true (.statement "enlist" []) rfl fun reply ↦ .done (reply.map fun _ ↦ ())

theorem Procedure.enlisting_akin : enlisting.Akin (Matches Error.Akin) enlisting := by
  refine .execute _ _ _ fun x x' h ↦ .done ?_
  cases h with
  | ok reply => exact .ok ()
  | error he => exact .error he

/-- Statements attached to a failure that came without any make it no other failure, and no session
deals with it in another way. -/
theorem Error.faults_kept {r : Error} (hr : r.sql? = none)
    (statements : List (String × List Value)) {d d' : Driver σ H} (hd : d.Akin d') :
    r.Stands statements (r.wrapped statements) ∧ r.Akin (r.wrapped statements) ∧
      d.Interchangeable d' :=
  ⟨stands_wrapped hr statements, .wrapped hr [] statements, hd.interchangeable⟩

/-- Over both drivers the transaction is tried twice, though its failure passes for a lost
connection. -/
theorem Error.faults_kept_conflict :
    conflict.sql? = none ∧ Script.driver.Akin Driver.relay ∧
      conflict.Stands twice (conflict.wrapped twice) ∧ conflict.Akin (conflict.wrapped twice) ∧
      Script.driver.Interchangeable Driver.relay ∧ conflict.fault = .lostConnection ∧
      (transact Script.driver 3 (enlisting.exec Script.driver) contended).1.2.length = 2 ∧
      (transact Driver.relay 3 (enlisting.exec Driver.relay) contended).1.2.length = 2 := by
  have hd : Script.driver.Akin Driver.relay := Script.driver.akin_relaying twice
  obtain ⟨hs, ha, hi⟩ := Error.faults_kept (r := conflict) rfl twice hd
  have hruns := (hi.transaction 3 (enlisting_akin.inStep hd) contended).1.2.length_eq
  have htwo : (transact Script.driver 3 (enlisting.exec Script.driver) contended).1.2.length = 2 := by
    decide +kernel
  exact ⟨rfl, hd, hs, ha, hi, by decide +kernel, htwo, hruns.symm.trans htwo⟩

end FluentSql
