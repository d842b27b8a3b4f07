import FluentSql.Proofs.Programs.Pretence

namespace FluentSql

variable {σ H α : Type}

def failure? : Except Error α → Option Error
  | .ok _ => none
  | .error e => some e

namespace Session

variable (d : Driver σ H) (s : Session σ H)

def undoRequest : Option Request :=
  if s.connection.pretending || s.connection.level == 0 then none
  else if s.connection.level = 1 then some .rollback
  else if s.connection.grammar.supportsSavepoints then
    some (s.restoreRequest (s.connection.level - 1))
  else none

def undoFailure : Option Error :=
  s.undoRequest.bind fun r ↦ failure? (d.send s.connection.write r s.world).1

end Session

namespace Run

variable (d : Driver σ H) (r : Run σ H α) (e : Error)

/-- Whether a failure ends the transactions around it too, and leaves the undoing to them. -/
def aborts : Bool := e.causedByConcurrency && 1 < r.finish.connection.level

def undoRequest : Option Request := if r.aborts e then none else r.finish.undoRequest

def undoFailure : Option Error := if r.aborts e then none else r.finish.undoFailure d

/-- How a transaction ends after a run that failed for the last time. -/
structure Surfaces (result : Except Error α) (t : Session σ H) : Prop where
  result : result = .error ((r.undoFailure d e).getD e)
  grows : r.finish.trace <+: t.trace
  sends : Entry.sends (r.finish.since t) = (r.undoRequest e).toList.map fun request ↦
    (r.finish.connection.write, request, (r.undoFailure d e).isNone)

end Run

namespace Session

open FluentSql.Action Procedure Entry

variable {d : Driver σ H} {s t : Session σ H} {e : Error} {r : Run σ H α} {retries : Nat}
  {body : Session σ H → Except Error α × Session σ H}

structure Undoes (d : Driver σ H) (s : Session σ H) (result : Except Error Unit)
    (t : Session σ H) : Prop where
  result : result = (s.undoFailure d).elim (.ok ()) .error
  grows : s.trace <+: t.trace
  sends : sends (s.since t) = s.undoRequest.toList.map fun request ↦
    (s.connection.write, request, (s.undoFailure d).isNone)

theorem Undoes.quiet {result : Except Error Unit} (hu : s.undoRequest = none)
    (hr : result = .ok ()) (ht : s.trace <+: t.trace) (hs : Entry.sends (s.since t) = []) :
    Undoes d s result t := by
  have hf : s.undoFailure d = none := by rw [undoFailure, hu]; rfl
  exact ⟨by rw [hr, hf]; rfl, ht, by rw [hs, hu]; rfl⟩

theorem Undoes.answered {request : Request} {reply : request.Reply} {w : σ} {told : List (Entry H)}
    (hu : s.undoRequest = some request)
    (hd : d.send s.connection.write request s.world = (.ok reply, w))
    (ht : t.trace = s.trace ++ .sent s.connection.write request true :: told)
    (hs : Entry.sends told = []) : Undoes d s (.ok ()) t := by
  have hf : s.undoFailure d = none := by simp [undoFailure, failure?, hu, hd]
  refine ⟨by rw [hf]; rfl, ht ▸ List.prefix_append _ _, ?_⟩
  rw [since_eq ht, sends_sent, hs, hu, hf]
  rfl

theorem Undoes.unanswered {request : Request} {w : σ} (hu : s.undoRequest = some request)
    (hd : d.send s.connection.write request s.world = (.error e, w))
    (ht : t.trace = s.trace ++ [.sent s.connection.write request false]) :
    Undoes d s (.error e) t := by
  have hf : s.undoFailure d = some e := by simp [undoFailure, failure?, hu, hd]
  refine ⟨by rw [hf]; rfl, ht ▸ List.prefix_append _ _, ?_⟩
  rw [since_eq ht, sends_sent, hu, hf]
  rfl

theorem trace_sent_lowered {h : H} {request : Request} {w : σ} {level : Nat} :
    ((s.sent h request true w).lowered level).trace =
      s.trace ++ .sent h request true :: announcement .rolledBack s.connection := by
  simp

theorem undoes : Undoes d s ((rollback d none).on s).1 ((rollback d none).on s).2 := by
  cases hp : s.connection.pretending with
  | true =>
    obtain ⟨t, ht, hq⟩ := rollback_pretended (d := d) hp none
    rw [ht]
    exact .quiet (by simp [undoRequest, hp]) rfl hq.trace hq.unsent
  | false =>
    have h := rollbacks (d := d) hp none
    generalize ((rollback d none).on s).1 = result, ((rollback d none).on s).2 = t at h ⊢
    have hu : s.undoRequest = if s.connection.level = 0 then none
        else if s.connection.level = 1 then some .rollback
        else if s.connection.grammar.supportsSavepoints then
          some (s.restoreRequest (s.connection.level - 1)) else none := by
      simp [undoRequest, hp]
    cases h with
    | outside hl =>
      have h0 : s.connection.level = 0 := by simp at hl; omega
      exact .quiet (by rw [hu, if_pos h0]) rfl List.prefix_rfl (by simp)
    | undone hl h0 hd =>
      have h1 : s.connection.level = 1 := by simp at hl h0; omega
      exact .answered (by rw [hu, h1]; rfl) hd trace_sent_lowered (sends_announcement _ _)
    | failed hl h0 hd =>
      have h1 : s.connection.level = 1 := by simp at hl h0; omega
      exact .unanswered (by rw [hu, h1]; rfl) hd (by simp)
    | restored hl h0 hs hd =>
      have h1 : s.connection.level ≠ 0 ∧ s.connection.level ≠ 1 := by simp at hl h0; omega
      exact .answered (by rw [hu, if_neg h1.1, if_neg h1.2, if_pos hs]; rfl) hd
        trace_sent_lowered (sends_announcement _ _)
    | unrestored hl h0 hs hd =>
      have h1 : s.connection.level ≠ 0 ∧ s.connection.level ≠ 1 := by simp at hl h0; omega
      exact .unanswered (by rw [hu, if_neg h1.1, if_neg h1.2, if_pos hs]; rfl) hd (by simp)
    | counted hl h0 hs =>
      have h1 : s.connection.level ≠ 0 ∧ s.connection.level ≠ 1 := by simp at hl h0; omega
      refine .quiet ?_ rfl (by simp) ?_
      · rw [hu, if_neg h1.1, if_neg h1.2, if_neg (by simp [hs])]
      · rw [since_eq (trace_lowered _ _), sends_announcement]

theorem verdictOf_result : (verdictOf retries e : Verdict α).result = .error e := by
  unfold verdictOf
  split <;> rfl

variable (retries) in
theorem verdictAfter_surfaces :
    ∃ verdict t, (verdictAfter e (afterFailure d e retries) : StateM (Session σ H) (Verdict α)).run
      r.finish = (verdict, t) ∧ r.Surfaces d e verdict.result t := by
  by_cases hc : e.causedByConcurrency ∧ 1 < r.finish.connection.level
  · have ha : r.aborts e := by simpa [Run.aborts] using hc
    refine ⟨_, _, verdictAfter_error (afterFailure_aborted retries hc.1 hc.2), ?_⟩
    constructor
    case result => simp [Run.undoFailure, ha, Verdict.result]
    case grows => exact List.prefix_rfl
    case sends => simp [Run.undoRequest, ha, since]
  · have ha : r.aborts e = false := by
      rw [Run.aborts]
      simpa using hc
    have hf : r.undoFailure d e = r.finish.undoFailure d := by simp [Run.undoFailure, ha]
    have hu : r.undoRequest e = r.finish.undoRequest := by simp [Run.undoRequest, ha]
    have h := undoes (d := d) (s := r.finish)
    cases ht : (rollback d none).on r.finish with | mk result t
    rw [ht] at h
    obtain ⟨hr, hg, hs⟩ := h
    dsimp only at hr hg hs
    cases hx : r.finish.undoFailure d with
    | none =>
      obtain rfl : result = .ok () := hr.trans (by rw [hx]; rfl)
      exact ⟨_, t, afterFailure_ok retries hc ht, by rw [verdictOf_result, hf, hx]; rfl, hg,
        by rw [hs, hu, hf]⟩
    | some failure =>
      obtain rfl : result = .error failure := hr.trans (by rw [hx]; rfl)
      exact ⟨_, t, verdictAfter_error (afterFailure_error retries hc ht), by rw [hf, hx]; rfl, hg,
        by rw [hs, hu, hf]⟩

/-- An attempt whose callback fails ends as the failure and its undoing have it. -/
theorem tryTransaction_surfaces {verdict : Verdict α} {runs : List (Run σ H α)}
    (h : (tryTransaction d (noting body) retries).run s = ((verdict, runs), t))
    (hr : runs.head? = some r) (he : r.result = .error e) : r.Surfaces d e verdict.result t := by
  cases hb : (begin d).on s with | mk begun u
  cases begun with
  | error e' =>
    rw [tryTransaction_error retries hb] at h
    cases h
    cases hr
  | ok =>
    cases hv : body u with | mk result v
    cases result with
    | ok a =>
      cases hc : (close d retries a).run v with | mk verdict' t'
      rw [tryTransaction_close retries hb hv hc] at h
      cases h
      cases hr
      cases he
    | error e' =>
      obtain ⟨verdict', t', hc, hs⟩ :=
        verdictAfter_surfaces (d := d) (e := e') (r := ⟨u, .error e', v⟩) retries
      rw [tryTransaction_fail retries hb hv hc] at h
      cases h
      cases hr
      cases he
      exact hs

variable (d body) in
theorem tryTransaction_noted (retries : Nat) (s : Session σ H) :
    ∃ (verdict : Verdict α) (run : Option (Run σ H α)) (t : Session σ H),
      (tryTransaction d (noting body) retries).run s = ((verdict, run.toList), t) := by
  cases hb : (begin d).on s with | mk begun u
  cases begun with
  | error e => exact ⟨_, none, _, tryTransaction_error retries hb⟩
  | ok =>
    cases hv : body u with | mk result v
    cases result with
    | ok a => exact ⟨_, some _, _, tryTransaction_close retries hb hv rfl⟩
    | error e => exact ⟨_, some _, _, tryTransaction_fail retries hb hv rfl⟩

end Session

namespace Procedure

open Session

variable {d : Driver σ H} {body : Session σ H → Except Error α × Session σ H} {s : Session σ H}
  {a : Attempt σ H α} {r : Run σ H α} {e : Error} {retries : Nat}

variable (d body) in
/-- The attempts at a transaction, each but the last one to be made again. -/
def attempts : Nat → Session σ H → List (Attempt σ H α)
  | 0, s =>
    let ((_, runs), t) := (tryTransaction d (noting body) 0).run s
    [⟨s, runs.head?, t⟩]
  | retries + 1, s =>
    let ((verdict, runs), t) := (tryTransaction d (noting body) (retries + 1)).run s
    match verdict with
    | .again _ => ⟨s, runs.head?, t⟩ :: attempts retries t
    | _ => [⟨s, runs.head?, t⟩]

section

variable {verdict : Verdict α} {run : Option (Run σ H α)} {t : Session σ H}

theorem attempts_zero
    (h : (tryTransaction d (noting body) 0).run s = ((verdict, run.toList), t)) :
    attempts d body 0 s = [⟨s, run, t⟩] := by
  rw [attempts, h]
  dsimp only
  rw [Option.head?_toList]

theorem attempts_last (hv : ∀ e, verdict ≠ .again e)
    (h : (tryTransaction d (noting body) (retries + 1)).run s = ((verdict, run.toList), t)) :
    attempts d body (retries + 1) s = [⟨s, run, t⟩] := by
  rw [attempts, h]
  dsimp only
  rw [Option.head?_toList]
  cases verdict with
  | done a => rfl
  | failed e => rfl
  | again e => exact absurd rfl (hv e)

theorem attempts_again
    (h : (tryTransaction d (noting body) (retries + 1)).run s = ((.again e, run.toList), t)) :
    attempts d body (retries + 1) s = ⟨s, run, t⟩ :: attempts d body retries t := by
  rw [attempts, h]
  dsimp only
  rw [Option.head?_toList]

end

theorem attempts_ne_nil : attempts d body retries s ≠ [] := by
  cases retries with
  | zero => nofun
  | succ retries =>
    unfold attempts
    split
    split <;> nofun

theorem getLast?_cons_attempts :
    (a :: attempts d body retries s).getLast? = (attempts d body retries s).getLast? := by
  rw [List.getLast?_cons_of_ne_nil attempts_ne_nil]

variable (d body s retries) in
/-- A transaction is its attempts, and is left where the last of them is. -/
theorem transactionWithin_attempts :
    ((transactionWithin d (noting body) retries).run s).1.2 =
        Attempt.runs (attempts d body retries s) ∧
      (attempts d body retries s).getLast?.map Attempt.left =
        some ((transactionWithin d (noting body) retries).run s).2 := by
  induction retries generalizing s with
  | zero =>
    obtain ⟨verdict, run, t, ht⟩ := tryTransaction_noted d body 0 s
    rw [transactionWithin_zero ht, attempts_zero ht, Attempt.runs_singleton]
    exact ⟨rfl, rfl⟩
  | succ retries ih =>
    obtain ⟨verdict, run, t, ht⟩ := tryTransaction_noted d body (retries + 1) s
    by_cases hv : ∃ e, verdict = .again e
    · obtain ⟨e, rfl⟩ := hv
      obtain ⟨hr, hl⟩ := ih t
      rw [transactionWithin_again ht rfl, attempts_again ht, Attempt.runs_cons,
        getLast?_cons_attempts]
      exact ⟨congrArg (run.toList ++ ·) hr, hl⟩
    · have hv' (e) : verdict ≠ .again e := fun h ↦ hv ⟨e, h⟩
      rw [transactionWithin_last hv' ht, attempts_last hv' ht, Attempt.runs_singleton]
      exact ⟨rfl, rfl⟩

theorem transactionWithin_surfaces (ha : (attempts d body retries s).getLast? = some a)
    (hr : a.run = some r) (he : r.result = .error e) :
    r.Surfaces d e ((transactionWithin d (noting body) retries).run s).1.1
      ((transactionWithin d (noting body) retries).run s).2 := by
  induction retries generalizing s with
  | zero =>
    obtain ⟨verdict, run, t, ht⟩ := tryTransaction_noted d body 0 s
    rw [attempts_zero ht] at ha
    obtain rfl : ⟨s, run, t⟩ = a := Option.some.inj ha
    rw [transactionWithin_zero ht]
    exact tryTransaction_surfaces ht (by rw [Option.head?_toList]; exact hr) he
  | succ retries ih =>
    obtain ⟨verdict, run, t, ht⟩ := tryTransaction_noted d body (retries + 1) s
    by_cases hv : ∃ e, verdict = .again e
    · obtain ⟨_, rfl⟩ := hv
      rw [attempts_again ht, getLast?_cons_attempts] at ha
      rw [transactionWithin_again ht rfl]
      exact ih ha
    · have hv' (e) : verdict ≠ .again e := fun h ↦ hv ⟨e, h⟩
      rw [attempts_last hv' ht] at ha
      obtain rfl : ⟨s, run, t⟩ = a := Option.some.inj ha
      rw [transactionWithin_last hv' ht]
      exact tryTransaction_surfaces ht (by rw [Option.head?_toList]; exact hr) he

/-- A transaction fails with what its callback failed with for the last time, unless undoing the
level fails too: then that failure takes its place. Its attempts have the runs of the callback, and
it is left where the last of them is. -/
theorem transact_surfaces (d : Driver σ H) (n : Nat)
    (body : Session σ H → Except Error α × Session σ H) (s : Session σ H) {a : Attempt σ H α}
    {r : Run σ H α} {e : Error} (ha : (attempts d body (n - 1) s).getLast? = some a)
    (hr : a.run = some r) (he : r.result = .error e) :
    (transact d n body s).1.2 = Attempt.runs (attempts d body (n - 1) s) ∧
      (transact d n body s).2 = a.left ∧
      r.Surfaces d e (transact d n body s).1.1 (transact d n body s).2 := by
  obtain ⟨hruns, hleft⟩ := transactionWithin_attempts d body s (n - 1)
  rw [ha] at hleft
  exact ⟨hruns, (Option.some.inj hleft).symm, transactionWithin_surfaces ha hr he⟩

def racing : Procedure Script String (Except Error Unit) :=
  .execute true (.statement "reserve" []) rfl fun _ ↦
    .done (.error (.deadlock "pay" [.int32 5] (.database .workerCrashed)))

def booking (rollbacks : List (Except Error Unit)) : Session Script String :=
  { connection := { write := "write", grammar := { dialect := .mysql }, processor := .mysql }
    world := { rollbacks } }

def toldStatement (result : Except Error Unit) : Option String :=
  (failure? result).bind Error.sql?

def lastBooking (rollbacks : List (Except Error Unit)) : Option (Run Script String Unit) :=
  (attempts Script.driver (racing.exec Script.driver) 1 (booking rollbacks)).getLast?.bind (·.run)

theorem transact_surfaces_booking : ∃ a r e,
    (attempts Script.driver (racing.exec Script.driver) 1 (booking [])).getLast? = some a ∧
    a.run = some r ∧ r.result = .error e ∧ e.sql? = some "pay" ∧
    (transact Script.driver 2 (racing.exec Script.driver) (booking [])).1.2 =
      Attempt.runs (attempts Script.driver (racing.exec Script.driver) 1 (booking [])) ∧
    (transact Script.driver 2 (racing.exec Script.driver) (booking [])).2 = a.left ∧
    r.Surfaces Script.driver e (transact Script.driver 2 (racing.exec Script.driver) (booking [])).1.1
      (transact Script.driver 2 (racing.exec Script.driver) (booking [])).2 ∧
    toldStatement (transact Script.driver 2 (racing.exec Script.driver) (booking [])).1.1 =
      some "pay" := by
  have h : (lastBooking []).bind (toldStatement ·.result) = some "pay" := by
    decide +kernel
  obtain ⟨r, hr, he⟩ := Option.bind_eq_some_iff.mp h
  obtain ⟨a, ha, hr⟩ := Option.bind_eq_some_iff.mp hr
  obtain ⟨e, he, hs⟩ := Option.bind_eq_some_iff.mp he
  have he : r.result = .error e := by
    cases hr' : r.result with
    | ok b => rw [hr'] at he; cases he
    | error e' => rw [hr'] at he; cases he; rfl
  obtain ⟨hruns, hleft, hsurfaces⟩ := transact_surfaces Script.driver 2 _ _ ha hr he
  exact ⟨a, r, e, ha, hr, he, hs, hruns, hleft, hsurfaces, by decide +kernel⟩

/-- Where the last rollback fails too, the transaction does not tell of the payment. -/
theorem transact_surfaces_stuck :
    let s := booking [.ok (), .error (.database .poolClosed)]
    let result := (transact Script.driver 2 (racing.exec Script.driver) s).1.1
    (lastBooking s.world.rollbacks).bind (toldStatement ·.result) = some "pay" ∧
      (failure? result).isSome ∧ toldStatement result = none := by
  decide +kernel

end Procedure

end FluentSql
