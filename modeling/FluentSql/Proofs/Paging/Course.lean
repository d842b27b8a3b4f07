import FluentSql.Session.Paging

namespace FluentSql.Query

theorem run_bind_of {α β τ : Type} {m : StateM τ α} {f : α → StateM τ β} {s t : τ} {a : α}
    (h : m.run s = (a, t)) : (m >>= f).run s = (f a).run t := by
  rw [StateT.run_bind, h]
  rfl

variable {σ H : Type} {d : Driver σ H} {q : Query} {size bound number : Nat} {column name : String}
  {goOn : Chunk → Bool} {s t u : Session σ H} {last : Option Value} {v : Value} {rows : List Row}
  {got : List Chunk} {result : Except Error Bool}

theorem chunkAfter_ended (h : ((q.pageAfter size last column).get d).run.run s = (.ok [], t)) :
    (q.chunkAfter d size column name goOn (bound + 1) number last).run s =
      (([], .ok true), t) := by
  exact run_bind_of h

section

variable (h : ((q.pageAfter size last column).get d).run.run s = (.ok rows, t)) (hr : rows ≠ [])

include h hr

theorem chunkAfter_lost (hk : lastKey? rows name = none) :
    (q.chunkAfter d size column name goOn (bound + 1) number last).run s =
      (([], .error (.invalid (.missingKey name))), t) := by
  obtain ⟨row, rows, rfl⟩ := List.exists_cons_of_ne_nil hr
  refine (run_bind_of h).trans ?_
  dsimp only
  rw [hk]
  rfl

variable (hk : lastKey? rows name = some v)

include hk

theorem chunkAfter_stopped (hg : goOn ⟨number, rows⟩ = false) :
    (q.chunkAfter d size column name goOn (bound + 1) number last).run s =
      (([⟨number, rows⟩], .ok false), t) := by
  obtain ⟨row, rows, rfl⟩ := List.exists_cons_of_ne_nil hr
  refine (run_bind_of h).trans ?_
  simp only [hk, hg, Bool.not_false, if_true]
  rfl

variable (hg : goOn ⟨number, rows⟩)

include hg

theorem chunkAfter_short (hs : rows.length ≠ size) :
    (q.chunkAfter d size column name goOn (bound + 1) number last).run s =
      (([⟨number, rows⟩], .ok true), t) := by
  obtain ⟨row, rows, rfl⟩ := List.exists_cons_of_ne_nil hr
  refine (run_bind_of h).trans ?_
  simp only [hk, hg, Bool.not_true, Bool.false_eq_true, if_false, if_pos hs]
  rfl

theorem chunkAfter_onward (hs : rows.length = size)
    (hn : (q.chunkAfter d size column name goOn bound (number + 1) (some v)).run t =
      ((got, result), u)) :
    (q.chunkAfter d size column name goOn (bound + 1) number last).run s =
      ((⟨number, rows⟩ :: got, result), u) := by
  obtain ⟨row, rows, rfl⟩ := List.exists_cons_of_ne_nil hr
  refine (run_bind_of h).trans ?_
  simp only [hk, hg, Bool.not_true, Bool.false_eq_true, if_false, if_neg (Classical.not_not.2 hs)]
  exact run_bind_of hn

end

variable (bound number name goOn) in
/-- Either the page is the last that is read, and the callback gets it or not, or it gets the page
and the next one comes after the last key of this. -/
theorem chunkAfter_cases {answer : Except Error (List Row)}
    (h : ((q.pageAfter size last column).get d).run.run s = (answer, t)) :
    (∃ got result, (q.chunkAfter d size column name goOn (bound + 1) number last).run s =
        ((got, result), t) ∧ (got = [] ∨ ∃ rows, answer = .ok rows ∧ got = [⟨number, rows⟩])) ∨
      ∃ rows key, answer = .ok rows ∧ lastKey? rows name = some key ∧
        ∀ got result u, (q.chunkAfter d size column name goOn bound (number + 1) (some key)).run t =
            ((got, result), u) →
          (q.chunkAfter d size column name goOn (bound + 1) number last).run s =
            ((⟨number, rows⟩ :: got, result), u) := by
  cases answer with
  | error e => exact .inl ⟨_, _, run_bind_of h, .inl rfl⟩
  | ok rows =>
    by_cases hr : rows = []
    · subst hr
      exact .inl ⟨_, _, chunkAfter_ended h, .inl rfl⟩
    cases hk : lastKey? rows name with
    | none => exact .inl ⟨_, _, chunkAfter_lost h hr hk, .inl rfl⟩
    | some key =>
      cases hg : goOn ⟨number, rows⟩ with
      | false => exact .inl ⟨_, _, chunkAfter_stopped h hr hk hg, .inr ⟨_, rfl, rfl⟩⟩
      | true =>
        by_cases hs : rows.length = size
        case neg => exact .inl ⟨_, _, chunkAfter_short h hr hk hg hs, .inr ⟨_, rfl, rfl⟩⟩
        exact .inr ⟨_, _, rfl, hk, fun _ _ _ hn ↦ chunkAfter_onward h hr hk hg hs hn⟩

end FluentSql.Query
