import FluentSql.Proofs.Programs.Marking

namespace FluentSql

open FluentSql.Action

variable {σ H α β : Type} {d : Driver σ H} {s t u : Session σ H}

/-- What happens to a connection: statements that are executed, each with the sessions before and
after, and commands that come to an end. -/
inductive Happening (σ H : Type) where
  | executed (useRead : Bool) (r : Request) (result : Except Error r.Reply)
      (before after : Session σ H)
  | performed (c : Command σ H) (result : Except Error (Answer H))

namespace Happening

def wrote : Happening σ H → Bool
  | executed _ r (.ok reply) _ _ => r.changed reply
  | performed c (.ok answer) => c.wrote answer
  | _ => false

def forgets : Happening σ H → Bool
  | performed c _ => c.forgets
  | _ => false

def readers : Happening σ H → List H
  | executed _ _ _ s t => Entry.readers (s.since t)
  | performed _ _ => []

/-- Whether a statement is sent to the handle for writing, and sent again to none but the handle
that replaces it. -/
def ReadsBack : Happening σ H → Prop
  | executed _ _ _ s t =>
    (Entry.sends (s.since t)).map Prod.fst = [s.connection.write] ∨
      (Entry.sends (s.since t)).map Prod.fst = [s.connection.write, t.connection.write]
  | performed _ _ => True

def known (before : Bool) (x : Happening σ H) : Bool :=
  !x.forgets && (before || x.wrote)

def AllReadBack : Bool → List (Happening σ H) → Prop
  | _, [] => True
  | before, x :: l => (before → x.ReadsBack) ∧ AllReadBack (known before x) l

theorem allReadBack_append {before : Bool} {l l' : List (Happening σ H)} :
    AllReadBack before (l ++ l') ↔
      AllReadBack before l ∧ AllReadBack (l.foldl known before) l' := by
  induction l generalizing before with
  | nil => exact (true_and _).symm ▸ Iff.rfl
  | cons x l ih => rw [List.cons_append, AllReadBack, ih, AllReadBack, and_assoc, List.foldl_cons]

theorem forgets_of_wrote {x : Happening σ H} (h : x.wrote) : x.forgets = false := by
  cases x with
  | executed useRead r result s t => rfl
  | performed c result =>
    cases result with
    | error e => cases h
    | ok answer =>
      cases c with
      | setRecordsModified b => cases h
      | _ => rfl

theorem known_of_known {l : List (Happening σ H)} (h : ∀ x ∈ l, x.forgets = false) :
    l.foldl known true = true := by
  induction l with
  | nil => rfl
  | cons x l ih =>
    have hx : known true x = true := by simp [known, h x List.mem_cons_self]
    rw [List.foldl_cons, hx]
    exact ih fun y hy ↦ h y (List.mem_cons_of_mem _ hy)

theorem AllReadBack.after {before : Bool} {l₁ l₂ l₃ : List (Happening σ H)} {w x : Happening σ H}
    (h : AllReadBack before (l₁ ++ w :: l₂ ++ x :: l₃)) (hw : w.wrote)
    (hl : ∀ y ∈ l₂, y.forgets = false) : x.ReadsBack := by
  apply (allReadBack_append.mp h).2.1
  have hk (b : Bool) : known b w = true := by simp [known, forgets_of_wrote hw, hw]
  rw [List.foldl_append, List.foldl_cons, hk]
  exact known_of_known hl

end Happening

namespace Session

inductive Statements (d : Driver σ H) :
    Session σ H → List (Happening σ H) → Session σ H → Prop where
  | nil (s : Session σ H) : Statements d s [] s
  | cons {s t u : Session σ H} {useRead : Bool} {r : Request} {result : Except Error r.Reply}
      {l : List (Happening σ H)} (hr : r.isStatement) (h : Executes d useRead r s result t)
      (hl : Statements d t l u) : Statements d s (.executed useRead r result s t :: l) u

theorem Statements.append {l l' : List (Happening σ H)} (h : Statements d s l t)
    (h' : Statements d t l' u) : Statements d s (l ++ l') u := by
  induction h with
  | nil s => exact h'
  | cons hr hx _ ih => exact .cons hr hx (ih h')

theorem Issues.statements {γ : Type} {m : StateM (Session σ H) γ}
    {l : List (String × List Value)} (h : Issues d m s l) (hp : s.connection.pretending = false) :
    s.Grows (m.run s).2 ∧ ∃ l', Statements d s l' (m.run s).2 := by
  refine h.brings
    (R := fun s _ t ↦ s.connection.pretending = false → s.Grows t ∧ ∃ l', Statements d s l' t)
    (fun s _ ↦ ⟨s.grows_refl, [], .nil s⟩) (fun h h' hp ↦ ?_) (fun useRead r s hr hp ↦ ?_) hp
  · obtain ⟨hg, l, hl⟩ := h hp
    obtain ⟨hg', l', hl'⟩ := h' (hg.outside hp)
    exact ⟨hg.trans hg', l ++ l', hl.append hl'⟩
  · exact ⟨(executes hp).grows, _, .cons hr (executes hp) (.nil _)⟩

theorem handleFor_modified {c : Connection H} {useRead : Bool} {r : Request} (hs : c.sticky)
    (hm : c.recordsModified) : handleFor c useRead r = c.write := by
  unfold handleFor
  cases r with
  | select sql bindings => cases c.read <;> simp [hs, hm]
  | _ => rfl

theorem Executes.readsBack {useRead : Bool} {r : Request} {result : Except Error r.Reply}
    (h : Executes d useRead r s result t) (hs : s.connection.sticky)
    (hm : s.connection.recordsModified) :
    (Happening.executed useRead r result s t).ReadsBack := by
  have ht : handleFor s.connection useRead r = s.connection.write := handleFor_modified hs hm
  have hover (handles) : handleFor (s.connection.over handles) useRead r = handles.1 :=
    handleFor_modified (c := s.connection.over handles) hs hm
  cases h with
  | answered hd => exact .inl (by simp [since, Session.answered, tried, target, ht])
  | failed hd hl => exact .inl (by simp [since, tried, target, ht])
  | unrenewable hl hr => exact .inl (by simp [since, tried, target, ht])
  | unrenewed hl hr hn => exact .inl (by simp [since, tried, target, ht])
  | answeredAgain hl hr hn hd =>
    exact .inr (by simp [since, Session.answered, renewed, tried, target, ht, hover])
  | failedAgain hl hr hn hd => exact .inr (by simp [since, renewed, tried, target, ht, hover])

structure Recalls (before : Bool) (s : Session σ H) (l : List (Happening σ H))
    (t : Session σ H) : Prop where
  grows : s.Grows t
  sticky : t.connection.sticky = s.connection.sticky
  readers : Entry.readers (s.since t) = l.flatMap Happening.readers
  readBack : Happening.AllReadBack before l
  known : l.foldl Happening.known before = true → t.connection.recordsModified

theorem Idles.recalls {before : Bool} (h : s.Idles t)
    (hm : before → s.connection.recordsModified) : Recalls before s [] t :=
  ⟨⟨h.pretending, h.trace⟩, h.sticky, h.readers, trivial, fun hb ↦ h.modified (hm hb)⟩

theorem Recalls.trans {before : Bool} {l l' : List (Happening σ H)} (h : Recalls before s l t)
    (h' : Recalls (l.foldl Happening.known before) t l' u) : Recalls before s (l ++ l') u where
  grows := h.grows.trans h'.grows
  sticky := h'.sticky.trans h.sticky
  readers := by
    rw [h.grows.since_append h'.grows, Entry.readers_append, h.readers, h'.readers,
      List.flatMap_append]
  readBack := Happening.allReadBack_append.mpr ⟨h.readBack, h'.readBack⟩
  known := by
    rw [List.foldl_append]
    exact h'.known

theorem recalls_performed {before : Bool} {c : Command σ H} {result : Except Error (Answer H)}
    (h : Happening.known before (.performed c result) = true → s.connection.recordsModified) :
    Recalls before s [.performed c result] s :=
  ⟨s.grows_refl, rfl, by rw [since_self]; rfl, ⟨fun _ ↦ trivial, trivial⟩, h⟩

theorem Executes.recalls {useRead : Bool} {r : Request} {result : Except Error r.Reply}
    {before : Bool} (h : Executes d useRead r s result t) (hs : s.connection.sticky)
    (hm : before → s.connection.recordsModified) :
    Recalls before s [.executed useRead r result s t] t where
  grows := h.grows
  sticky := h.remembers.sticky
  readers := (List.append_nil _).symm
  readBack := ⟨fun hb ↦ h.readsBack hs (hm hb), trivial⟩
  known := by
    intro hk
    obtain hb | hw : before = true ∨ (Happening.executed useRead r result s t).wrote = true := by
      simpa [Happening.known, Happening.forgets] using hk
    · exact h.remembers.modified (hm hb)
    · cases result with
      | ok reply => exact h.modified hw
      | error e => cases hw

theorem Statements.recalls {before : Bool} {l : List (Happening σ H)} (h : Statements d s l t)
    (hs : s.connection.sticky) (hm : before → s.connection.recordsModified) :
    Recalls before s l t := by
  induction h generalizing before with
  | nil s => exact (Idles.refl s).recalls hm
  | cons hr hx _ ih =>
    have h := hx.recalls hs hm
    exact h.trans (ih (h.sticky.trans hs) h.known)

end Session

namespace Command

open Session

variable (d) in
def Happens (c : Command σ H) (s : Session σ H) (l : List (Happening σ H)) : Prop :=
  if c.isStatement then Statements d s l ((c.perform d).on s).2 else l = []

theorem happens_exists (c : Command σ H) (hp : s.connection.pretending = false) :
    ∃ l, c.Happens d s l := by
  unfold Happens
  split
  · obtain ⟨l, hl⟩ := c.stated_perform (d := d) ‹_› s
    exact (hl.statements hp).2
  · exact ⟨[], rfl⟩

theorem Happens.recalls {c : Command σ H} {before : Bool} {l : List (Happening σ H)}
    (h : c.Happens d s l) (hp : s.connection.pretending = false) (hs : s.connection.sticky)
    (hm : before → s.connection.recordsModified) :
    Recalls before s (l ++ [.performed c ((c.perform d).on s).1]) ((c.perform d).on s).2 := by
  have hwrote : (Happening.performed c ((c.perform d).on s).1).wrote →
      ((c.perform d).on s).2.connection.recordsModified := by
    intro hw
    cases hx : (c.perform d).on s with | mk result t
    rw [hx] at hw
    cases result with
    | ok answer => exact c.marks_perform s answer t hp hx hw
    | error e => cases hw
  by_cases hf : c.forgets
  · cases c with
    | setRecordsModified b =>
      obtain rfl : l = [] := h
      refine ⟨⟨rfl, List.prefix_rfl⟩, rfl, ?_, ⟨fun _ ↦ trivial, trivial⟩, fun hk ↦ ?_⟩
      · exact congrArg Entry.readers (since_self s)
      · simp [Happening.known, Happening.forgets, hf] at hk
    | _ => cases hf
  · rw [Bool.not_eq_true] at hf
    have hl : Recalls before s l ((c.perform d).on s).2 := by
      unfold Happens at h
      split at h
      · exact h.recalls hs hm
      · rename_i hc
        rw [h]
        exact (c.idles_perform (Bool.not_eq_true _ ▸ hc) hf hp).recalls hm
    refine hl.trans (recalls_performed fun hk ↦ ?_)
    obtain ⟨_, hb | hw⟩ : _ ∧ (_ ∨ _) := by
      simpa [Happening.known] using hk
    · exact hl.known hb
    · exact hwrote hw

end Command

namespace Program

open Session Procedure

theorem exists_forall₂ {ι κ : Type} {R : ι → κ → Prop} {l : List ι} (h : ∀ x ∈ l, ∃ y, R x y) :
    ∃ l', List.Forall₂ R l l' := by
  induction l with
  | nil => exact ⟨[], .nil⟩
  | cons x l ih =>
    obtain ⟨y, hy⟩ := h x List.mem_cons_self
    obtain ⟨l', hl⟩ := ih fun x hx ↦ h x (List.mem_cons_of_mem _ hx)
    exact ⟨y :: l', .cons hy hl⟩

variable (d) in
def Happens {α : Type} : Program σ H α → Session σ H → List (Happening σ H) → Prop
  | done _, _, l => l = []
  | consult look next, s, l => Happens (next (look s).1) { s with world := (look s).2 } l
  | perform c next, s, l =>
    ∃ l₁ l₂, c.Happens d s l₁ ∧ Happens (next ((c.perform d).on s).1) ((c.perform d).on s).2 l₂ ∧
      l = l₁ ++ .performed c ((c.perform d).on s).1 :: l₂
  | transaction attempts body next, s, l =>
    ∃ ls l₂, List.Forall₂ (fun run l ↦ Happens body run.start l)
        (transact d attempts (body.exec d) s).1.2 ls ∧
      Happens (next (transact d attempts (body.exec d) s).1.1)
        (transact d attempts (body.exec d) s).2 l₂ ∧ l = ls.flatten ++ l₂
  | pretend .., _, _ => False

theorem happens_exists (p : Program σ H α) (hq : p.Plain) (hp : s.connection.pretending = false) :
    ∃ l, p.Happens d s l := by
  induction p generalizing s with
  | done a => exact ⟨[], rfl⟩
  | consult look next ih => exact ih _ (hq _) hp
  | perform c next ih =>
    obtain ⟨l₁, h₁⟩ := c.happens_exists (d := d) hp
    obtain ⟨l₂, h₂⟩ := ih _ (hq _) ((perform_grows (d := d) c hp).outside hp)
    exact ⟨_, l₁, l₂, h₁, h₂, rfl⟩
  | transaction attempts body next ihb ih =>
    have hbody (u : Session σ H) (hu : u.connection.pretending = false) :
        u.Grows (body.exec d u).2 := body.grows_exec hq.1 hu
    obtain ⟨list, result, t, ht, h⟩ := transact_repeats (d := d) attempts hbody hp
    obtain ⟨l₂, h₂⟩ := ih result (hq.2 _) ((h.grows hbody hp).outside hp)
    obtain ⟨ls, hls⟩ : ∃ ls, List.Forall₂ (fun run l ↦ body.Happens d run.start l)
        (Attempt.runs list) ls := by
      apply exists_forall₂
      intro r hr
      obtain ⟨a, ha, hr⟩ := List.mem_filterMap.mp hr
      exact ihb hq.1 (h.start hbody hp a ha r hr).1
    refine ⟨ls.flatten ++ l₂, ls, l₂, ?_⟩
    rw [ht]
    exact ⟨hls, h₂, rfl⟩
  | pretend body next ihb ih => exact hq.elim

end Program

namespace Session

section

variable {body : Session σ H → Except Error α × Session σ H} {retries : Nat}
  {happens : Session σ H → List (Happening σ H) → Prop}

theorem Tries.recalls {verdict : Verdict α} {run : Option (Run σ H α)}
    (h : Tries d body retries s verdict run t)
    (hbody : ∀ u (before : Bool) l, u.connection.pretending = false → u.connection.sticky →
      (before → u.connection.recordsModified) → happens u l → Recalls before u l (body u).2)
    (hp : s.connection.pretending = false) (hs : s.connection.sticky) {before : Bool}
    (hm : before → s.connection.recordsModified) {ls : List (List (Happening σ H))}
    (hl : List.Forall₂ (fun run l ↦ happens run.start l) run.toList ls) :
    Recalls before s ls.flatten t := by
  obtain ⟨rfl, hr⟩ | ⟨r, rfl, hstart, hrun, hfinish⟩ := h.idles
  · cases hl
    exact hr.recalls hm
  · obtain _ | ⟨hl, hnil⟩ := hl
    cases hnil
    have h₁ := hstart.recalls hm
    have h₂ := hbody _ _ _ (h₁.grows.outside hp) (h₁.sticky.trans hs) h₁.known hl
    rw [hrun] at h₂
    have h₃ := hfinish.recalls h₂.known
    simpa using (h₁.trans h₂).trans h₃

theorem Repeats.recalls {attempts : List (Attempt σ H α)} {result : Except Error α}
    (h : Repeats d body retries s attempts result t)
    (hbody : ∀ u (before : Bool) l, u.connection.pretending = false → u.connection.sticky →
      (before → u.connection.recordsModified) → happens u l → Recalls before u l (body u).2)
    (hp : s.connection.pretending = false) (hs : s.connection.sticky) {before : Bool}
    (hm : before → s.connection.recordsModified) {ls : List (List (Happening σ H))}
    (hl : List.Forall₂ (fun run l ↦ happens run.start l) (Attempt.runs attempts) ls) :
    Recalls before s ls.flatten t := by
  induction h generalizing before ls with
  | last h hv =>
    rw [Attempt.runs_singleton] at hl
    exact h.recalls hbody hp hs hm hl
  | @again retries s t t' e run attempts result h hr ih =>
    rw [Attempt.runs_cons] at hl
    have hl₁ := (List.forall₂_take_append _ _ _ hl.flip).flip
    have hl₂ := (List.forall₂_drop_append _ _ _ hl.flip).flip
    have h₁ := h.recalls hbody hp hs hm hl₁
    rw [← List.take_append_drop run.toList.length ls, List.flatten_append]
    exact h₁.trans (ih (h₁.grows.outside hp) (h₁.sticky.trans hs) h₁.known hl₂)

end

end Session

namespace Program

open Session Procedure

theorem Happens.recalls (p : Program σ H α) {l : List (Happening σ H)} {before : Bool}
    (h : p.Happens d s l) (hq : p.Plain) (hp : s.connection.pretending = false)
    (hs : s.connection.sticky) (hm : before → s.connection.recordsModified) :
    Recalls before s l (p.exec d s).2 := by
  induction p generalizing s l before with
  | done a =>
    obtain rfl : l = [] := h
    exact (Idles.refl s).recalls hm
  | consult look next ih =>
    have hi : s.Idles { s with world := (look s).2 } := idles_of_trace_eq ⟨rfl, rfl, id⟩ rfl
    exact (hi.recalls hm).trans (ih _ h (hq _) hp hs hm)
  | perform c next ih =>
    obtain ⟨l₁, l₂, h₁, h₂, rfl⟩ := h
    have hc := h₁.recalls hp hs hm
    rw [List.append_cons]
    exact hc.trans (ih _ h₂ (hq _) (hc.grows.outside hp) (hc.sticky.trans hs) hc.known)
  | transaction attempts body next ihb ih =>
    have hbody (u : Session σ H) (hu : u.connection.pretending = false) :
        u.Grows (body.exec d u).2 := body.grows_exec hq.1 hu
    obtain ⟨list, result, t, ht, hr⟩ := transact_repeats (d := d) attempts hbody hp
    rw [Happens, ht] at h
    obtain ⟨ls, l₂, hl, h₂, rfl⟩ := h
    have hc := hr.recalls (fun u before l hu hs hm h ↦ ihb h hq.1 hu hs hm) hp hs hm hl
    rw [exec_transaction, ht]
    exact hc.trans (ih _ h₂ (hq.2 _) (hc.grows.outside hp) (hc.sticky.trans hs) hc.known)
  | pretend body next ihb ih => exact hq.elim

/-- A sticky connection reads its own writes. Once a statement or a command tells of rows written,
every later statement goes to the handle for writing, until the connection is made to forget. -/
theorem reads_back (d : Driver σ H) (s : Session σ H) (p : Program σ H α) (hq : p.Plain)
    (hp : s.connection.pretending = false) (hs : s.connection.sticky) :
    (∃ l, p.Happens d s l) ∧ ∀ l, p.Happens d s l →
      Entry.readers (s.since (p.exec d s).2) = l.flatMap Happening.readers ∧
      ∀ l₁ w l₂ x l₃, l = l₁ ++ w :: l₂ ++ x :: l₃ → w.wrote → (∀ y ∈ l₂, y.forgets = false) →
        x.ReadsBack := by
  refine ⟨p.happens_exists hq hp, fun l hl ↦ ?_⟩
  have h : Recalls false s l (p.exec d s).2 := Happens.recalls p hl hq hp hs nofun
  refine ⟨h.readers, ?_⟩
  rintro l₁ w l₂ x l₃ rfl hw hf
  exact h.readBack.after hw hf

def journal : Program Script String (Except Error Unit) :=
  .perform (.query (.steps [.source (.name "logs")]) (.insert [("a", .bound (.int64 1))])) fun _ ↦
    .transaction 2 (.perform (.affecting "update" []) fun _ ↦ .done (.error (.driver "deadlock")))
      fun result ↦ .perform .reconnect fun _ ↦
        .perform (.select true "select 1" []) fun _ ↦ .done result

def stickySession (dialect : Dialect) (rows : List Row) : Session Script String where
  connection :=
    { write := "write", read := some "read", hasReconnector := true, grammar := { dialect },
      processor := dialect, sticky := true }
  world := { selects := [.ok rows], reconnections := [.writeAndRead] }

theorem reads_back_journal :
    journal.Plain ∧ (stickySession .mysql []).connection.pretending = false ∧
    (stickySession .mysql []).connection.sticky ∧
    Entry.readers ((stickySession .mysql []).since
      (journal.exec Script.driver (stickySession .mysql [])).2) = ["write1"] ∧
    (∃ l, journal.Happens Script.driver (stickySession .mysql []) l) ∧
    ∀ l, journal.Happens Script.driver (stickySession .mysql []) l →
      ∀ l₁ w l₂ x l₃, l = l₁ ++ w :: l₂ ++ x :: l₃ → w.wrote → (∀ y ∈ l₂, y.forgets = false) →
        x.ReadsBack := by
  have hq : journal.Plain := fun _ ↦ ⟨fun _ ↦ trivial, fun _ _ _ ↦ trivial⟩
  obtain ⟨hl, h⟩ := reads_back Script.driver (stickySession .mysql []) journal hq rfl rfl
  exact ⟨hq, rfl, rfl, by decide +kernel, hl, fun l hl ↦ (h l hl).2⟩

/-- An insert that is asked for its id in a select is not known to have written anything. -/
theorem reads_back_insertGetId :
    let insert : Command Script String :=
      .query (.steps [.source (.name "users")]) (.insertGetId [("a", .bound (.int64 1))] none)
    let p : Program Script String (Except Error (Answer String)) := .perform insert fun result ↦
      .perform (.select true "select 1" []) fun _ ↦ .done result
    (p.exec Script.driver (stickySession .postgres [[("id", .integer 7)]])).1.toBool ∧
      (p.exec Script.driver (stickySession .mysql [])).1.toBool ∧
      (Entry.sends
          (p.exec Script.driver (stickySession .postgres [[("id", .integer 7)]])).2.trace).map
        (fun x ↦ (x.1, x.2.1.sql)) =
          [("write", "insert into \"users\" (\"a\") values (?) returning \"id\""),
            ("read", "select 1")] ∧
      (Entry.sends (p.exec Script.driver (stickySession .mysql [])).2.trace).map
        (fun x ↦ (x.1, x.2.1.sql)) =
          [("write", "insert into `users` (`a`) values (?)"), ("write", "select 1")] := by
  decide +kernel

end Program

end FluentSql
