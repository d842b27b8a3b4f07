import FluentSql.Proofs.Programs.Pretence

namespace FluentSql

open FluentSql.Action

variable {σ H α β : Type} {d : Driver σ H} {s t u : Session σ H}

def Request.isSelect : Request → Bool
  | .select .. => true
  | _ => false

namespace Entry

def readers (added : List (Entry H)) : List H :=
  ((sends added).filter (·.2.1.isSelect)).map Prod.fst

variable (l l' : List (Entry H)) (h : H) (r : Request) (ok : Bool)

@[simp] theorem readers_nil : readers ([] : List (Entry H)) = [] := rfl

@[simp] theorem readers_append : readers (l ++ l') = readers l ++ readers l' := by
  simp only [readers, sends_append, List.filter_append, List.map_append]

@[simp] theorem readers_sent :
    readers (sent h r ok :: l) = if r.isSelect then h :: readers l else readers l := by
  simp only [readers, sends_sent, List.filter_cons]
  split <;> rfl

@[simp] theorem readers_reconnected : readers (reconnected ok :: l) = readers l := rfl

theorem readers_told (hs : sends l = []) : readers l = [] := by
  rw [readers, hs]
  rfl

end Entry

namespace Session

structure Remembers (s t : Session σ H) : Prop where
  pretending : t.connection.pretending = s.connection.pretending
  sticky : t.connection.sticky = s.connection.sticky
  modified : s.connection.recordsModified → t.connection.recordsModified

theorem Remembers.refl (s : Session σ H) : s.Remembers s := ⟨rfl, rfl, id⟩

theorem Remembers.trans (h : s.Remembers t) (h' : t.Remembers u) : s.Remembers u :=
  ⟨h'.pretending.trans h.pretending, h'.sticky.trans h.sticky, h'.modified ∘ h.modified⟩

structure Idles (s t : Session σ H) : Prop extends s.Remembers t where
  trace : s.trace <+: t.trace
  readers : Entry.readers (s.since t) = []

theorem Remembers.idles (h : s.Remembers t) {added : List (Entry H)}
    (ht : t.trace = s.trace ++ added) (hn : Entry.readers added = []) : s.Idles t :=
  ⟨h, ⟨added, ht.symm⟩, by rw [since_eq ht, hn]⟩

theorem idles_of_trace_eq (h : s.Remembers t) (ht : t.trace = s.trace) : s.Idles t :=
  h.idles (ht.trans (List.append_nil _).symm) rfl

theorem Idles.refl (s : Session σ H) : s.Idles s := idles_of_trace_eq (.refl s) rfl

theorem Idles.trans (h : s.Idles t) (h' : t.Idles u) : s.Idles u := by
  refine ⟨h.toRemembers.trans h'.toRemembers, h.trace.trans h'.trace, ?_⟩
  rw [since_append h.trace h'.trace, Entry.readers_append, h.readers, h'.readers]
  rfl

theorem idles_sent (s : Session σ H) (h : H) {r : Request} (hr : r.isSelect = false) (ok : Bool)
    (w : σ) : s.Idles (s.sent h r ok w) := by
  have hs : s.Remembers (s.sent h r ok w) := ⟨rfl, rfl, id⟩
  exact hs.idles rfl (by rw [Entry.readers_sent, hr]; rfl)

theorem idles_reconnected (s : Session σ H) (ok : Bool) (w : σ) : s.Idles (s.reconnected ok w) := by
  have hs : s.Remembers (s.reconnected ok w) := ⟨rfl, rfl, id⟩
  exact hs.idles rfl rfl

theorem idles_over (s : Session σ H) (handles : H × Option H) :
    s.Idles (s.adapt (·.over handles)) := idles_of_trace_eq ⟨rfl, rfl, id⟩ rfl

theorem idles_atLevel (s : Session σ H) (level : Nat) : s.Idles (s.adapt (·.atLevel level)) :=
  idles_of_trace_eq ⟨rfl, rfl, id⟩ rfl

theorem idles_raised (s : Session σ H) : s.Idles s.raised := by
  have hs : s.Remembers s.raised := ⟨rfl, rfl, id⟩
  exact hs.idles (trace_raised s) (Entry.readers_told _ (sends_announcement _ _))

theorem idles_lowered (s : Session σ H) (level : Nat) : s.Idles (s.lowered level) := by
  have hs : s.Remembers (s.lowered level) := ⟨rfl, rfl, id⟩
  exact hs.idles (trace_lowered s level) (Entry.readers_told _ (sends_announcement _ _))

theorem idles_left (s : Session σ H) : s.Idles s.left := by
  have hs : s.Remembers s.left := by constructor <;> simp [Connection.atLevel]
  exact hs.idles (trace_left s) (Entry.readers_told _ (sends_leaving s))

theorem idles_broken (s : Session σ H) (e : Error) : s.Idles (s.broken e) := by
  unfold broken
  split
  · exact s.idles_atLevel 0
  · exact .refl s

section

variable {useRead : Bool} {r : Request} {result : Except Error Unit} {level : Nat}

theorem Executes.remembers {result : Except Error r.Reply} (h : Executes d useRead r s result t) :
    s.Remembers t := by
  cases h with
  | answered hd => exact ⟨rfl, rfl, fun hm ↦ Bool.or_eq_true_iff.mpr (.inl hm)⟩
  | answeredAgain hl hr hn hd => exact ⟨rfl, rfl, fun hm ↦ Bool.or_eq_true_iff.mpr (.inl hm)⟩
  | failed hd hl => exact ⟨rfl, rfl, id⟩
  | unrenewable hl hr => exact ⟨rfl, rfl, id⟩
  | unrenewed hl hr hn => exact ⟨rfl, rfl, id⟩
  | failedAgain hl hr hn hd => exact ⟨rfl, rfl, id⟩

theorem Executes.modified {reply : r.Reply} (h : Executes d useRead r s (.ok reply) t)
    (hc : r.changed reply) : t.connection.recordsModified := by
  cases h with
  | answered hd => exact Bool.or_eq_true_iff.mpr (.inr hc)
  | answeredAgain hl hr hn hd => exact Bool.or_eq_true_iff.mpr (.inr hc)

theorem Begins.idles (h : Begins d s result t) : s.Idles t := by
  have hsent (h : H) (ok : Bool) (w : σ) := s.idles_sent h (r := .begin) rfl ok w
  cases h with
  | opened h0 hd => exact (hsent _ _ _).trans (idles_raised _)
  | failed h0 hd he => exact hsent _ _ _
  | unrenewable h0 hd he hr => exact hsent _ _ _
  | unrenewed h0 hd he hr hn => exact (hsent _ _ _).trans (idles_reconnected _ _ _)
  | @openedAgain e handles w w' w'' h0 hd he hr hn hd' =>
    have hover : s.Idles (((s.sent s.connection.write .begin false w).reconnected true w').adapt
      (·.over handles)) := ((hsent _ _ _).trans (idles_reconnected _ _ _)).trans (idles_over _ _)
    exact (hover.trans (idles_sent _ _ rfl _ _)).trans (idles_raised _)
  | @failedAgain e e' handles w w' w'' h0 hd he hr hn hd' =>
    have hover : s.Idles (((s.sent s.connection.write .begin false w).reconnected true w').adapt
      (·.over handles)) := ((hsent _ _ _).trans (idles_reconnected _ _ _)).trans (idles_over _ _)
    exact hover.trans (idles_sent _ _ rfl _ _)
  | marked h0 hs hd => exact (idles_sent _ _ rfl _ _).trans (idles_raised _)
  | unmarked h0 hs hd => exact idles_sent _ _ rfl _ _
  | counted h0 hs => exact s.idles_raised

theorem Commits.idles (h : Commits d s result t) : s.Idles t := by
  cases h with
  | outside h0 => exact .refl s
  | committed h1 hd => exact (idles_sent _ _ rfl _ _).trans (idles_left _)
  | failed h1 hd => exact (idles_sent _ _ rfl _ _).trans (idles_broken _ _)
  | left h1 => exact idles_left s

theorem Rollbacks.idles (h : Rollbacks d s level result t) : s.Idles t := by
  cases h with
  | outside hl => exact .refl s
  | undone hl h0 hd => exact (idles_sent _ _ rfl _ _).trans (idles_lowered _ _)
  | restored hl h0 hs hd => exact (idles_sent _ _ rfl _ _).trans (idles_lowered _ _)
  | counted hl h0 hs => exact s.idles_lowered level
  | failed hl h0 hd => exact (idles_sent _ _ rfl _ _).trans (idles_broken _ _)
  | unrestored hl h0 hs hd => exact (idles_sent _ _ rfl _ _).trans (idles_broken _ _)

theorem Reconnects.idles (h : Reconnects d s result t) : s.Idles t := by
  cases h with
  | missing hr => exact .refl s
  | failed hr hn => exact idles_reconnected _ _ _
  | renewed hr hn => exact (idles_reconnected _ _ _).trans (idles_over _ _)

end

theorem Tries.idles {body : Session σ H → Except Error α × Session σ H} {retries : Nat}
    {verdict : Verdict α} {run : Option (Run σ H α)} (h : Tries d body retries s verdict run t) :
    run = none ∧ s.Idles t ∨ ∃ r, run = some r ∧ s.Idles r.start ∧
      body r.start = (r.result, r.finish) ∧ r.finish.Idles t := by
  cases h with
  | unbegun hb => exact .inl ⟨rfl, hb.idles⟩
  | committed hb hr h1 hd =>
    exact .inr ⟨_, rfl, hb.idles, hr, (idles_sent _ _ rfl _ _).trans (idles_left _)⟩
  | uncommitted hb hr h1 hd =>
    exact .inr ⟨_, rfl, hb.idles, hr, (idles_sent _ _ rfl _ _).trans (idles_atLevel _ 0)⟩
  | left hb hr h1 => exact .inr ⟨_, rfl, hb.idles, hr, idles_left _⟩
  | aborted hb hr hc h1 => exact .inr ⟨_, rfl, hb.idles, hr, idles_atLevel _ _⟩
  | rolledBack hb hr hc ht => exact .inr ⟨_, rfl, hb.idles, hr, ht.idles⟩
  | stuck hb hr hc ht => exact .inr ⟨_, rfl, hb.idles, hr, ht.idles⟩

/-- Whether an action has a session know of a write, once what it comes to tells of one. -/
def Marks (told : α → Bool) (a : Action σ H α) : Prop :=
  ∀ s x t, s.connection.pretending = false → a.on s = (.ok x, t) → told x →
    t.connection.recordsModified

namespace Marks

variable {told : α → Bool} {told' : β → Bool} {a : Action σ H α}

theorem ret {x : α} (hx : told x = false) : Marks told (pure x : Action σ H α) := by
  intro s y t _ h ht
  rw [on_pure] at h
  cases h
  rw [hx] at ht
  cases ht

theorem mono {told' : α → Bool} (h : Marks told a) (ht : ∀ x, told' x → told x) : Marks told' a :=
  fun s x t hp hx hm ↦ h s x t hp hx (ht x hm)

theorem silent (h : ∀ x, told x = false) : Marks told a := by
  intro s x t _ _ ht
  rw [h x] at ht
  cases ht

theorem refused {e : Error} : Marks told' (a >>= fun _ ↦ throw e) := by
  intro s y t _ hy _
  cases hx : a.on s with | mk x u
  cases x with
  | ok x =>
    rw [on_bind_ok hx, on_throw] at hy
    cases hy
  | error e =>
    rw [on_bind_error hx] at hy
    cases hy

theorem fail {e : Error} : Marks told (throw e : Action σ H α) := by
  intro s x t _ h _
  rw [on_throw] at h
  cases h

theorem execute {useRead : Bool} {r : Request} :
    Marks r.changed (Session.execute d useRead r : Action σ H r.Reply) := by
  intro s reply t hp h ht
  have he : Executes d useRead r s _ _ := executes hp
  rw [h] at he
  exact he.modified ht

theorem written {x : Except Error α} {f : α → Action σ H β}
    (hf : ∀ y, x = .ok y → Marks told' (f y)) : Marks told' (orFail x >>= f) := by
  intro s z t hp h ht
  cases x with
  | ok y => exact hf y rfl s z t hp h ht
  | error e => cases h

theorem looked {f : α → Action σ H β} (ha : ∀ s, (a.on s).2 = s) (hf : ∀ x, Marks told' (f x)) :
    Marks told' (a >>= f) := by
  intro s y t hp h ht
  have hs := ha s
  cases hx : a.on s with | mk x u
  rw [hx] at hs
  obtain rfl : u = s := hs
  cases x with
  | ok x =>
    rw [on_bind_ok hx] at h
    exact hf x u y t hp h ht
  | error e =>
    rw [on_bind_error hx] at h
    cases h

theorem returned {g : α → β} (h : Marks told a) (hg : ∀ x, told' (g x) → told x) :
    Marks told' (a >>= fun x ↦ pure (g x)) := by
  intro s y t hp hy ht
  cases hx : a.on s with | mk x u
  cases x with
  | ok x =>
    rw [on_bind_ok hx, on_pure] at hy
    cases hy
    exact h s x _ hp hx (hg x ht)
  | error e =>
    rw [on_bind_error hx] at hy
    cases hy

theorem mapped {g : α → β} (h : Marks told a) (hg : ∀ x, told' (g x) → told x) :
    Marks told' (g <$> a) := by
  rw [map_eq_pure_bind]
  exact h.returned hg

variable {sql : String} {bindings : List Value}

theorem statement : Marks id (Session.statement d sql bindings) :=
  execute (r := .statement sql bindings)

theorem unprepared : Marks id (Session.unprepared d sql) := execute (r := .unprepared sql)

theorem affecting : Marks (fun n ↦ decide (0 < n)) (Session.affecting d sql bindings) :=
  execute (r := .affecting sql bindings)

end Marks

end Session

namespace Query

open Session

variable (q : Query)

theorem marks_insert (record : Record Value) :
    Marks (fun done ↦ done && !record.isEmpty) (q.insert d record) := by
  unfold insert
  split
  · exact .ret (by simp [*])
  · exact .written fun _ _ ↦ Marks.statement.mono fun _ h ↦ (Bool.and_eq_true_iff.mp h).1

theorem marks_insertMany (records : List (Record Value)) :
    Marks (fun done ↦ done && !records.isEmpty) (q.insertMany d records) := by
  unfold insertMany
  split
  · exact .ret (by simp [*])
  · refine .written fun _ _ ↦ .written fun _ _ ↦ ?_
    exact Marks.statement.mono fun _ h ↦ (Bool.and_eq_true_iff.mp h).1

theorem marks_insertOrIgnore (records : List (Record Value)) :
    Marks (fun n ↦ decide (0 < n)) (q.insertOrIgnore d records) := by
  unfold insertOrIgnore
  split
  · exact .ret rfl
  · exact .written fun _ _ ↦ .written fun _ _ ↦ .affecting

theorem marks_insertUsing (columns : List String) (rows : Query) :
    Marks (fun n ↦ decide (0 < n)) (q.insertUsing d columns rows) :=
  .written fun _ _ ↦ .written fun _ _ ↦ .affecting

theorem marks_upsert (records : List (Record Value)) (uniqueBy : List String)
    (update : Option (List String)) :
    Marks (fun n ↦ decide (0 < n)) (q.upsert d records uniqueBy update) := by
  unfold upsert
  split
  · exact .ret rfl
  · refine .written fun _ _ ↦ ?_
    split
    · refine .written fun _ _ ↦ Marks.statement.returned (g := fun done ↦ if done then 1 else 0) ?_
      rintro (_ | _) h
      · cases h
      · rfl
    · exact .written fun _ _ ↦ .affecting

theorem marks_update (record : Record Value) :
    Marks (fun n ↦ decide (0 < n)) (q.update d record) := by
  unfold update
  split
  · exact .ret rfl
  · exact .written fun _ _ ↦ .affecting

theorem marks_changeBy (method sign column : String) (amount : Value) (extra : Record Value) :
    Marks (fun n ↦ decide (0 < n)) (q.changeBy d method sign column amount extra) := by
  unfold changeBy
  split
  · exact .fail
  · exact .written fun _ _ ↦ q.marks_update _

theorem marks_delete : Marks (fun n ↦ decide (0 < n)) (q.delete d) :=
  .written fun _ _ ↦ .affecting

end Query

def Use.wrote : Use → Answer H → Bool
  | .insert record, .flag done => done && !record.isEmpty
  | .insertMany records, .flag done => done && !records.isEmpty
  | .insertOrIgnore _, .count n => 0 < n
  | .insertUsing _ _, .count n => 0 < n
  | .upsert _ _ _, .count n => 0 < n
  | .update _, .count n => 0 < n
  | .increment _ _ _, .count n => 0 < n
  | .decrement _ _ _, .count n => 0 < n
  | .delete, .count n => 0 < n
  | .deleteById _, .count n => 0 < n
  | _, _ => false

def Command.wrote : Command σ H → Answer H → Bool
  | .statement _ _, .flag done => done
  | .unprepared _, .flag done => done
  | .affecting _ _, .count n => 0 < n
  | .query _ use, answer => use.wrote answer
  | _, _ => false

section

open Session

theorem Query.marks_perform (q : Query) (use : Use) : Marks use.wrote (q.perform d use) := by
  cases use with
  | insert record => exact (q.marks_insert record).mapped fun _ h ↦ h
  | insertMany records => exact (q.marks_insertMany records).mapped fun _ h ↦ h
  | insertOrIgnore records => exact (q.marks_insertOrIgnore records).mapped fun _ h ↦ h
  | insertUsing columns steps =>
    rw [perform]
    cases q.fresh.run steps with | mk rows failure
    cases failure with
    | some e => exact .refused
    | none => exact (q.marks_insertUsing columns rows).returned fun _ h ↦ h
  | upsert records uniqueBy update => exact (q.marks_upsert _ _ _).mapped fun _ h ↦ h
  | update record => exact (q.marks_update record).mapped fun _ h ↦ h
  | increment column amount extra => exact (q.marks_changeBy _ _ _ _ _).mapped fun _ h ↦ h
  | decrement column amount extra => exact (q.marks_changeBy _ _ _ _ _).mapped fun _ h ↦ h
  | delete => exact q.marks_delete.mapped fun _ h ↦ h
  | deleteById id => exact (marks_delete _).mapped fun _ h ↦ h
  | _ => exact .silent fun _ ↦ rfl

theorem Command.marks_perform (c : Command σ H) : Marks c.wrote (c.perform d) := by
  cases c with
  | statement sql bindings => exact Marks.statement.mapped fun _ h ↦ h
  | unprepared sql => exact Marks.unprepared.mapped fun _ h ↦ h
  | affecting sql bindings => exact Marks.affecting.mapped fun _ h ↦ h
  | query source use => exact .looked source.query_on fun q ↦ q.marks_perform use
  | _ => exact .silent fun _ ↦ rfl

def Command.forgets : Command σ H → Bool
  | .setRecordsModified b => !b
  | _ => false

theorem Command.idles_perform {c : Command σ H} (hs : c.isStatement = false)
    (hc : c.forgets = false) (hp : s.connection.pretending = false) :
    s.Idles ((c.perform d).on s).2 := by
  have hquiet {t : Session σ H} (hr : s.Remembers t) (ht : t.trace = s.trace) : s.Idles t :=
    idles_of_trace_eq hr ht
  cases c with
  | begin =>
    rw [perform, on_bind_pure]
    exact (begins hp).idles
  | commit =>
    rw [perform, on_bind_pure]
    exact (commits hp).idles
  | rollback level =>
    rw [perform, on_bind_pure]
    exact (rollbacks hp level).idles
  | reconnect =>
    rw [perform, on_bind_pure]
    exact reconnects.idles
  | setRecordsModified b =>
    obtain rfl : b = true := by simpa [forgets] using hc
    exact hquiet ⟨rfl, rfl, fun _ ↦ rfl⟩ rfl
  | save name source =>
    have hq := source.query_on s
    rw [perform]
    cases h : (source.query : Action σ H Query).on s with | mk result t
    rw [h] at hq
    obtain rfl : t = s := hq
    cases result with
    | ok q =>
      rw [on_bind_ok h]
      exact hquiet ⟨rfl, rfl, id⟩ rfl
    | error e =>
      rw [on_bind_error h]
      exact .refl t
  | _ => first | exact hquiet ⟨rfl, rfl, id⟩ rfl | cases hs

end

end FluentSql
