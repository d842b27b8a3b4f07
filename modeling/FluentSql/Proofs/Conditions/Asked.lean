import FluentSql.Proofs.Programs.Restoring

namespace FluentSql.Session

open FluentSql.Action

variable {σ H α β γ δ : Type} {d : Driver σ H}

def asked (s t : Session σ H) : List Request := (Entry.sends (s.since t)).map (·.2.1)

def Asks (P : Request → Prop) (m : StateM (Session σ H) γ) : Prop :=
  ∀ s, s.trace <+: (m.run s).2.trace ∧ ∀ r ∈ s.asked (m.run s).2, P r

theorem asked_append {s t u : Session σ H} (h : s.trace <+: t.trace) (h' : t.trace <+: u.trace) :
    s.asked u = s.asked t ++ t.asked u := by
  rw [asked, since_append h h', Entry.sends_append, List.map_append]
  rfl

theorem asked_self (s : Session σ H) : s.asked s = [] := by
  simp [asked]

theorem asked_execute (useRead : Bool) (r : Request) {s : Session σ H}
    (hp : s.connection.pretending = false) :
    s.trace <+: ((Session.execute d useRead r).on s).2.trace ∧
      (s.asked ((Session.execute d useRead r).on s).2 = [r] ∨
        (∃ handles w, s.Renews d useRead r handles w) ∧
          s.asked ((Session.execute d useRead r).on s).2 = [r, r]) := by
  have hexecutes : Executes d useRead r s _ _ := executes hp
  obtain ⟨added, answers, h⟩ := hexecutes.bounded
  have hs : s.asked ((Session.execute d useRead r).on s).2 = answers.map fun _ ↦ r := by
    rw [asked, since_eq h.trace, h.sends, List.map_map]
    rfl
  refine ⟨⟨added, h.trace.symm⟩, ?_⟩
  rw [hs]
  rcases h.once_or_twice with hone | htwo
  · obtain ⟨a, rfl⟩ := List.length_eq_one_iff.1 hone
    exact .inl rfl
  · obtain ⟨a, b, rfl⟩ := List.length_eq_two.1 htwo
    exact .inr ⟨h.twice_iff.1 htwo, rfl⟩

namespace Asks

variable {P Q : Request → Prop} {m : StateM (Session σ H) γ} {a : Action σ H α}

theorem pure (x : γ) : Asks P (pure x : StateM (Session σ H) γ) := by
  intro s
  have hs : s.asked s = [] := asked_self s
  exact ⟨List.prefix_rfl, fun r hr ↦ absurd (hs ▸ hr) List.not_mem_nil⟩

theorem mono (h : Asks P m) (hPQ : ∀ r, P r → Q r) : Asks Q m :=
  fun s ↦ ⟨(h s).1, fun r hr ↦ hPQ r ((h s).2 r hr)⟩

theorem split {f : γ → StateM (Session σ H) δ} (h : Asks P m) (hf : ∀ x, Asks Q (f x))
    (s : Session σ H) : ∃ first next, s.asked ((m >>= f).run s).2 = first ++ next ∧
      (∀ r ∈ first, P r) ∧ ∀ r ∈ next, Q r := by
  obtain ⟨ht, hr⟩ := h s
  obtain ⟨ht', hr'⟩ := hf (m.run s).1 (m.run s).2
  exact ⟨_, _, asked_append ht ht', hr, hr'⟩

theorem bind {f : γ → StateM (Session σ H) δ} (h : Asks P m) (hf : ∀ x, Asks P (f x)) :
    Asks P (m >>= f) := by
  intro s
  refine ⟨(h s).1.trans (hf (m.run s).1 (m.run s).2).1, fun r hm ↦ ?_⟩
  obtain ⟨first, next, hs, hfirst, hnext⟩ := h.split hf s
  rcases List.mem_append.1 (hs ▸ hm) with hm | hm
  · exact hfirst r hm
  · exact hnext r hm

theorem ret (x : α) : Asks P (Pure.pure x : Action σ H α).run := .pure _

theorem andThen {f : α → Action σ H β} (h : Asks P a.run) (hf : ∀ x, Asks P (f x).run) :
    Asks P (a >>= f).run := by
  rw [ExceptT.run_bind]
  refine h.bind fun r ↦ ?_
  cases r with
  | ok x => exact hf x
  | error e => exact .pure _

theorem mapped (f : α → β) (h : Asks P a.run) : Asks P (f <$> a).run := by
  rw [map_eq_pure_bind]
  exact h.andThen fun _ ↦ ret _

theorem written {x : Except Error α} {f : α → Action σ H β}
    (hf : ∀ y, x = .ok y → Asks P (f y).run) : Asks P (Action.orFail x >>= f).run := by
  cases x with
  | ok y => exact hf y rfl
  | error e => exact .pure _

theorem execute {useRead : Bool} {r : Request} (hr : P r) :
    Asks P (Session.execute d useRead r).run := by
  intro s
  cases hp : s.connection.pretending with
  | true =>
    obtain ⟨t, ht, h⟩ := execute_rehearsed (d := d) hp useRead r
    have ht : (Session.execute d useRead r).run.run s = (.ok r.pretended, t) := ht
    rw [ht, asked, h.unsent]
    exact ⟨h.trace, fun _ hr' ↦ absurd hr' List.not_mem_nil⟩
  | false =>
    obtain ⟨ht, hs⟩ := asked_execute (d := d) useRead r hp
    refine ⟨ht, fun r' hr' ↦ ?_⟩
    obtain rfl : r' = r := by
      rcases hs with hs | ⟨-, hs⟩
      · exact List.mem_singleton.1 (hs ▸ hr')
      · simpa using (hs ▸ hr' : r' ∈ [r, r])
    exact hr

end Asks

end FluentSql.Session
