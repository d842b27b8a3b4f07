import FluentSql.Proofs.Programs.Program

namespace FluentSql

variable {σ H α β : Type} {d : Driver σ H} {s t u : Session σ H}

namespace Entry

def isClosing : Entry H → Bool
  | sent _ .commit _ => true
  | sent _ .rollback _ => true
  | _ => false

def isRenewal : Entry H → Bool
  | reconnected true => true
  | _ => false

@[simp] theorem isClosing_reconnected (ok : Bool) : (reconnected ok : Entry H).isClosing = false :=
  rfl

@[simp] theorem isClosing_begin (h : H) (ok : Bool) : (sent h .begin ok).isClosing = false := rfl

@[simp] theorem isClosing_unprepared (h : H) (sql : String) (ok : Bool) :
    (sent h (.unprepared sql) ok).isClosing = false := rfl

@[simp] theorem isRenewal_sent (h : H) (r : Request) (ok : Bool) :
    (sent h r ok).isRenewal = false := rfl

@[simp] theorem isRenewal_reconnected (ok : Bool) :
    (reconnected ok : Entry H).isRenewal = ok := by
  cases ok <;> rfl

theorem isClosing_statement {r : Request} (hr : r.isStatement) (h : H) (ok : Bool) :
    (sent h r ok).isClosing = false := by
  cases r <;> first | rfl | cases hr

@[simp] theorem any_isClosing_announcement (event : String → Event) (c : Connection H) :
    (Session.announcement event c).any isClosing = false := by
  unfold Session.announcement
  split <;> rfl

@[simp] theorem any_isRenewal_announcement (event : String → Event) (c : Connection H) :
    (Session.announcement event c).any isRenewal = false := by
  unfold Session.announcement
  split <;> rfl

@[simp] theorem any_isClosing_leaving : s.leaving.any isClosing = false := by
  unfold Session.leaving
  split
  · exact any_isClosing_announcement _ _
  · rfl

@[simp] theorem any_isRenewal_leaving : s.leaving.any isRenewal = false := by
  unfold Session.leaving
  split
  · exact any_isRenewal_announcement _ _
  · rfl

end Entry

/-- What a program does, in order: the sessions it finds itself in before each step and at its end,
what is added to the trace, and handles that are put in from outside. -/
inductive Stage (σ H : Type) where
  | seen (s : Session σ H)
  | did (entry : Entry H)
  | installed

namespace Stage

def entry? : Stage σ H → Option (Entry H)
  | did entry => some entry
  | _ => none

/-- Whether no transaction is left on a handle, or the handle is replaced. -/
def Ends (h : H) : Stage σ H → Prop
  | did (.sent h' .commit true) => h' = h
  | did (.sent h' .rollback true) => h' = h
  | did (.reconnected true) => True
  | installed => True
  | _ => False

/-- Whether the driver has begun a transaction on a handle that is neither ended nor replaced. -/
def HasBegun (h : H) (past : List (Stage σ H)) : Prop :=
  ∃ earlier later, past = earlier ++ did (.sent h .begin true) :: later ∧ ∀ x ∈ later, ¬ Ends h x

def Upheld (past : List (Stage σ H)) (s : Session σ H) : Prop :=
  0 < s.connection.level → HasBegun s.connection.write past

def Fits (past : List (Stage σ H)) : Stage σ H → Prop
  | seen s => Upheld past s
  | did (.sent h .commit _) => HasBegun h past
  | did (.sent h .rollback _) => HasBegun h past
  | _ => True

/-- Whether each stage fits what was before it. -/
def Sound : List (Stage σ H) → List (Stage σ H) → Prop
  | _, [] => True
  | past, stage :: rest => Fits past stage ∧ Sound (past ++ [stage]) rest

theorem entries_did (added : List (Entry H)) :
    (added.map (did (σ := σ))).filterMap entry? = added := by
  rw [List.filterMap_map]
  exact List.filterMap_some

variable {past stages stages' : List (Stage σ H)} {added : List (Entry H)} {h : H}

theorem HasBegun.append (hb : HasBegun h past) (hs : ∀ x ∈ stages, ¬ Ends h x) :
    HasBegun h (past ++ stages) := by
  obtain ⟨earlier, later, rfl, hl⟩ := hb
  refine ⟨earlier, later ++ stages, by simp, fun x hx ↦ ?_⟩
  obtain hx | hx := List.mem_append.mp hx
  · exact hl x hx
  · exact hs x hx

theorem not_ends_did {entry : Entry H} (hc : entry.isClosing = false)
    (hr : entry.isRenewal = false) : ¬ Ends h (did (σ := σ) entry) := by
  unfold Ends
  split <;> simp_all [Entry.isClosing, Entry.isRenewal]

theorem not_ends_of_any (hc : added.any Entry.isClosing = false)
    (hr : added.any Entry.isRenewal = false) : ∀ x ∈ added.map (did (σ := σ)), ¬ Ends h x := by
  simp only [List.any_eq_false, Bool.not_eq_true] at hc hr
  simp only [List.forall_mem_map]
  exact fun entry he ↦ not_ends_did (hc entry he) (hr entry he)

theorem sound_append :
    Sound past (stages ++ stages') ↔ Sound past stages ∧ Sound (past ++ stages) stages' := by
  induction stages generalizing past with
  | nil => simp [Sound]
  | cons stage stages ih => simp [Sound, ih, and_assoc]

theorem sound_did (hc : added.any Entry.isClosing = false) : Sound past (added.map did) := by
  induction added generalizing past with
  | nil => trivial
  | cons entry added ih =>
    simp only [List.any_cons, Bool.or_eq_false_iff] at hc
    refine ⟨?_, ih hc.2⟩
    unfold Fits
    split <;> simp_all [Entry.isClosing]

theorem Sound.fits {x : Stage σ H} (hs : Sound past (stages ++ x :: stages')) :
    Fits (past ++ stages) x :=
  (sound_append.mp hs).2.1

end Stage

open Stage

structure Leads (past : List (Stage σ H)) (s : Session σ H) (stages : List (Stage σ H))
    (t : Session σ H) : Prop where
  grows : s.Grows t
  entries : stages.filterMap entry? = s.since t
  sound : Sound past stages
  upheld : Upheld (past ++ stages) t

namespace Leads

variable {past stages stages' : List (Stage σ H)}

theorem nil (hs : Upheld past s) : Leads past s [] s :=
  ⟨s.grows_refl, by simp, trivial, by simpa using hs⟩

theorem trans (h : Leads past s stages t) (h' : Leads (past ++ stages) t stages' u) :
    Leads past s (stages ++ stages') u where
  grows := h.grows.trans h'.grows
  entries := by
    rw [List.filterMap_append, h.entries, h'.entries, ← h.grows.since_append h'.grows]
  sound := sound_append.mpr ⟨h.sound, h'.sound⟩
  upheld := by simpa using h'.upheld

theorem seen (hs : Upheld past s) (h : Leads (past ++ [.seen s]) s stages t) :
    Leads past s (.seen s :: stages) t where
  grows := h.grows
  entries := h.entries
  sound := ⟨hs, h.sound⟩
  upheld := by simpa using h.upheld

theorem upheld_seen (hs : Upheld past s) : Upheld (past ++ [.seen s]) s :=
  fun hl ↦ (hs hl).append (by simp [Ends])

/-- Where no transaction is to end, only renewed handles and raised levels matter. -/
theorem harmless (hg : s.Grows t) (hs : Upheld past s)
    (hc : (s.since t).any Entry.isClosing = false)
    (hl : 0 < t.connection.level → 0 < s.connection.level ∧
      t.connection.write = s.connection.write ∧ (s.since t).any Entry.isRenewal = false) :
    Leads past s ((s.since t).map did) t where
  grows := hg
  entries := entries_did _
  sound := sound_did hc
  upheld := by
    intro h0
    obtain ⟨hs0, hw, hr⟩ := hl h0
    rw [hw]
    exact (hs hs0).append (not_ends_of_any hc hr)

theorem opened (before told : List (Entry H)) (hg : s.Grows t)
    (ht : s.since t = before ++ .sent t.connection.write .begin true :: told)
    (hb : before.any Entry.isClosing = false) (hc : told.any Entry.isClosing = false)
    (hr : told.any Entry.isRenewal = false) : Leads past s ((s.since t).map did) t where
  grows := hg
  entries := entries_did _
  sound := by
    apply sound_did
    rw [ht]
    simp [hb, hc, Entry.isClosing]
  upheld := by
    intro _
    refine ⟨past ++ before.map did, told.map did, ?_, not_ends_of_any hc hr⟩
    rw [ht]
    simp

theorem closing (r : Request) (ok : Bool) (told : List (Entry H)) (hg : s.Grows t)
    (hs : Upheld past s) (h0 : 0 < s.connection.level)
    (ht : s.since t = .sent s.connection.write r ok :: told)
    (hr : r = .commit ∨ r = .rollback) (hc : told.any Entry.isClosing = false)
    (hn : told.any Entry.isRenewal = false)
    (hl : 0 < t.connection.level → ok = false ∧ t.connection.write = s.connection.write) :
    Leads past s ((s.since t).map did) t where
  grows := hg
  entries := entries_did _
  sound := by
    rw [ht]
    refine ⟨?_, sound_did hc⟩
    obtain rfl | rfl := hr
    · exact hs h0
    · exact hs h0
  upheld := by
    intro hl0
    obtain ⟨rfl, hw⟩ := hl hl0
    rw [hw, ht]
    refine (hs h0).append fun x hx ↦ ?_
    obtain rfl | hx := List.mem_cons.mp hx
    · obtain rfl | rfl := hr <;> exact id
    · exact not_ends_of_any hc hn x hx

end Leads

namespace Session

open Entry

variable {past : List (Stage σ H)} {result : Except Error Unit}

theorem Executes.leads {useRead : Bool} {r : Request} {result : Except Error r.Reply}
    (h : Executes d useRead r s result t) (hr : r.isStatement) (hs : Upheld past s) :
    Leads past s ((s.since t).map .did) t := by
  have hc := isClosing_statement (H := H) hr
  refine .harmless h.grows hs ?_ ?_
  · cases h <;> simp [since, Session.answered, renewed, tried, hc]
  · cases h <;> simp [since, Session.answered, renewed, tried]

theorem Begins.leads (h : Begins d s result t) (hs : Upheld past s) :
    Leads past s ((s.since t).map .did) t := by
  have hg := h.grows
  cases h with
  | opened h0 hd =>
    exact .opened [] (announcement .beginning s.connection) hg (since_eq (by simp)) rfl (by simp)
      (by simp)
  | @openedAgain e handles w w' w'' h0 hd he hr hn hd' =>
    exact .opened [.sent s.connection.write .begin false, .reconnected true]
      (announcement .beginning s.connection) hg (since_eq (by simp)) rfl (by simp) (by simp)
  | marked h0 hsp hd =>
    exact .harmless hg hs (by simp [since, savepointRequest])
      (by simp [since, savepointRequest, Nat.pos_of_ne_zero h0])
  | unmarked h0 hsp hd =>
    exact .harmless hg hs (by simp [since, savepointRequest]) (by simp [since])
  | counted h0 hsp =>
    exact .harmless hg hs (by simp [since]) (by simp [since, Nat.pos_of_ne_zero h0])
  | failed h0 hd he => exact .harmless hg hs (by simp [since]) (by simp [since])
  | unrenewable h0 hd he hr => exact .harmless hg hs (by simp [since]) (by simp [since])
  | unrenewed h0 hd he hr hn => exact .harmless hg hs (by simp [since]) (by simp [since])
  | failedAgain h0 hd he hr hn hd' => exact .harmless hg hs (by simp [since]) (by simp)

theorem Commits.leads (h : Commits d s result t) (hs : Upheld past s) :
    Leads past s ((s.since t).map .did) t := by
  have hg := h.grows
  cases h with
  | outside h0 => exact .harmless hg hs (by simp) (by simp [h0])
  | @committed w h1 hd =>
    exact .closing .commit true (s.sent s.connection.write .commit true w).leaving hg hs (by omega)
      (since_eq (by simp)) (.inl rfl) (by simp) (by simp) (by simp [h1])
  | failed h1 hd =>
    exact .closing .commit false [] hg hs (by omega) (since_eq (by simp)) (.inl rfl) rfl rfl
      (by simp)
  | left h1 => exact .harmless hg hs (by simp [since]) (by simp [since]; omega)

theorem Rollbacks.leads {level : Nat} (h : Rollbacks d s level result t) (hs : Upheld past s) :
    Leads past s ((s.since t).map .did) t := by
  have hg := h.grows
  cases h with
  | outside hl => exact .harmless hg hs (by simp) (by simp)
  | undone hl h0 hd =>
    exact .closing .rollback true (announcement .rolledBack s.connection) hg hs (by omega)
      (since_eq (by simp)) (.inr rfl) (by simp) (by simp) (by simp [h0])
  | failed hl h0 hd =>
    exact .closing .rollback false [] hg hs (by omega) (since_eq (by simp)) (.inr rfl) rfl rfl
      (by simp)
  | restored hl h0 hsp hd =>
    exact .harmless hg hs (by simp [since, restoreRequest]) (by simp [since]; omega)
  | @unrestored e w hl h0 hsp hd =>
    have hle := level_broken_le (s.sent s.connection.write (s.restoreRequest level) false w) e
    exact .harmless hg hs (by simp [since, restoreRequest])
      fun h ↦ ⟨Nat.lt_of_lt_of_le h hle, by simp [since]⟩
  | counted hl h0 hsp => exact .harmless hg hs (by simp [since]) (by simp [since]; omega)

theorem Reconnects.leads (h : Reconnects d s result t) (hs : Upheld past s) :
    Leads past s ((s.since t).map .did) t := by
  cases h with
  | missing hr => exact .harmless s.grows_refl hs (by simp) (by simp)
  | failed hr hn => exact .harmless ⟨rfl, by simp⟩ hs (by simp [since]) (by simp [since])
  | renewed hr hn => exact .harmless ⟨rfl, by simp⟩ hs (by simp [since]) (by simp)

theorem Moves.leads (h : Moves d s t) (hs : Upheld past s) :
    Leads past s ((s.since t).map .did) t := by
  induction h generalizing past with
  | quiet hp hw hl ht =>
    have hg : Session.Grows _ _ := ⟨hp, ht ▸ List.prefix_rfl⟩
    exact .harmless hg hs (by simp [since, ht]) (by simp [since, ht, hw, hl])
  | executed hr h => exact h.leads hr hs
  | begun h => exact h.leads hs
  | committed h => exact h.leads hs
  | rolledBack h => exact h.leads hs
  | reconnected h => exact h.leads hs
  | uncommitted h1 hd =>
    exact .closing .commit false [] ⟨rfl, by simp⟩ hs (by omega) (since_eq (by simp)) (.inl rfl)
      rfl rfl (by simp)
  | abandoned hl =>
    exact .harmless ⟨rfl, by simp⟩ hs (by simp [since]) (by simp [since]; omega)
  | trans h h' ih ih' =>
    have ht := ih hs
    rw [h.grows.since_append h'.grows, List.map_append]
    exact ht.trans (ih' ht.upheld)

theorem leads_left (h0 : s.connection.level = 0) (hs : Upheld past s) :
    Leads past s ((s.since s.left).map .did) s.left :=
  .harmless ⟨by simp, by simp⟩ hs (by simp [since]) (by simp [h0])

/-- The runs of a callback, as `walk` tells of them, with what is done between them. -/
def weave (walk : Session σ H → List (Stage σ H)) (s : Session σ H) :
    List (Run σ H α) → Session σ H → List (Stage σ H)
  | [], t => (s.since t).map .did
  | r :: runs, t => (s.since r.start).map .did ++ walk r.start ++ weave walk r.finish runs t

section

variable {body : Session σ H → Except Error α × Session σ H} {retries : Nat}
  {walk : Session σ H → List (Stage σ H)}

theorem Tries.leads {verdict : Verdict α} {run : Option (Run σ H α)}
    (h : Tries d body retries s verdict run t)
    (hwalk : ∀ past u, u.connection.pretending = false → Upheld past u →
      Leads past u (walk u) (body u).2)
    (hp : u.connection.pretending = false) (hu : Leads past u ((u.since s).map .did) s) :
    run = none ∧ Leads past u ((u.since t).map .did) t ∨
      ∃ r, run = some r ∧ Leads past u ((u.since r.start).map .did ++ walk r.start) r.finish ∧
        Leads (past ++ ((u.since r.start).map .did ++ walk r.start)) r.finish
          ((r.finish.since t).map .did) t := by
  have hfrom {t : Session σ H} (hm : Moves d s t) : Leads past u ((u.since t).map .did) t := by
    rw [hu.grows.since_append hm.grows, List.map_append]
    exact hu.trans (hm.leads hu.upheld)
  obtain ⟨hn, hm⟩ | ⟨r, hr, hm, hrun, hend⟩ := h.moves
  · exact .inl ⟨hn, hfrom hm⟩
  · have hstart := hfrom hm
    have hwalked := hwalk _ r.start (hstart.grows.outside hp) hstart.upheld
    rw [hrun] at hwalked
    have hfinish := hstart.trans hwalked
    refine .inr ⟨r, hr, hfinish, ?_⟩
    obtain hm | ⟨-, h0, rfl⟩ := hend
    · exact hm.leads hfinish.upheld
    · exact leads_left h0 hfinish.upheld

theorem Repeats.leads {attempts : List (Attempt σ H α)} {result : Except Error α}
    (h : Repeats d body retries s attempts result t)
    (hwalk : ∀ past u, u.connection.pretending = false → Upheld past u →
      Leads past u (walk u) (body u).2)
    (hp : u.connection.pretending = false) (hu : Leads past u ((u.since s).map .did) s) :
    Leads past u (weave walk u (Attempt.runs attempts) t) t := by
  induction h generalizing past u with
  | last h hv =>
    obtain ⟨rfl, ht⟩ | ⟨r, rfl, hr, ht⟩ := h.leads hwalk hp hu
    · exact ht
    · exact hr.trans ht
  | again h hs ih =>
    obtain ⟨rfl, -⟩ | ⟨r, rfl, hr, ht⟩ := h.leads hwalk hp hu
    · exact absurd rfl (h.run_ne_none rfl)
    · exact hr.trans (ih (hr.grows.outside hp) ht)

end

end Session

namespace Program

open Session Procedure

def stages (s t : Session σ H) : Command σ H → List (Stage σ H)
  | .setWrite _ => [.installed]
  | _ => (s.since t).map .did

variable (d) in
/-- The course of a program. A pretence is told of as a whole. -/
def course {α : Type} : Program σ H α → Session σ H → List (Stage σ H)
  | done _, s => [.seen s]
  | consult look next, s => .seen s :: course (next (look s).1) { s with world := (look s).2 }
  | perform c next, s =>
    let (answer, t) := (c.perform d).on s
    .seen s :: (stages s t c ++ course (next answer) t)
  | transaction attempts body next, s =>
    let ((result, runs), t) := transact d attempts (body.exec d) s
    .seen s :: (weave (course body) s runs t ++ course (next result) t)
  | pretend body next, s =>
    let (result, t) := pretended (body.exec d) s
    .seen s :: ((s.since t).map .did ++ course (next result) t)

theorem course_transaction {attempts : Nat} {body : Program σ H (Except Error β)}
    {next : Except Error β → Program σ H α} : (transaction attempts body next).course d s =
      .seen s :: (weave (body.course d) s (transact d attempts (body.exec d) s).1.2
        (transact d attempts (body.exec d) s).2 ++
          (next (transact d attempts (body.exec d) s).1.1).course d
            (transact d attempts (body.exec d) s).2) := rfl

theorem leads_perform {past : List (Stage σ H)} (c : Command σ H)
    (hp : s.connection.pretending = false) (hs : Upheld past s) :
    Leads past s (stages s ((c.perform d).on s).2 c) ((c.perform d).on s).2 := by
  obtain ⟨h, rfl⟩ | ⟨hc, hm⟩ := c.perform_moves (d := d) hp
  · exact ⟨⟨rfl, List.prefix_rfl⟩, (since_self s).symm, ⟨trivial, trivial⟩,
      fun h0 ↦ absurd h0 (Nat.lt_irrefl 0)⟩
  · unfold stages
    split
    · exact absurd rfl (hc _)
    · exact hm.leads hs

theorem leads_course {past : List (Stage σ H)} (p : Program σ H α) (hq : p.Plain)
    (hp : s.connection.pretending = false) (hs : Upheld past s) :
    Leads past s (p.course d s) (p.exec d s).2 := by
  induction p generalizing s past with
  | done a => exact .seen hs (.nil (Leads.upheld_seen hs))
  | consult look next ih =>
    have hl : Leads (past ++ [.seen s]) s [] { s with world := (look s).2 } :=
      ⟨⟨rfl, List.prefix_rfl⟩, (since_self s).symm, trivial,
        fun h0 ↦ by simpa using Leads.upheld_seen hs h0⟩
    exact .seen hs (hl.trans (ih _ (hq _) hp hl.upheld))
  | perform c next ih =>
    have hc := leads_perform (d := d) c hp (Leads.upheld_seen hs)
    exact .seen hs (hc.trans (ih _ (hq _) (hc.grows.outside hp) hc.upheld))
  | transaction attempts body next ihb ih =>
    have hbody (u : Session σ H) (hu : u.connection.pretending = false) :
        u.Grows (body.exec d u).2 := body.grows_exec hq.1 hu
    obtain ⟨list, result, t, ht, h⟩ := transact_repeats (d := d) attempts hbody hp
    have hl := h.leads (fun past u hu ↦ ihb hq.1 hu) hp
      (by simpa using Leads.nil (Leads.upheld_seen hs))
    rw [course_transaction, exec_transaction, ht]
    exact .seen hs (hl.trans (ih _ (hq.2 _) (hl.grows.outside hp) hl.upheld))
  | pretend body next ihb ih => exact hq.elim

end Program

namespace Session

/-- What transactions that fail leave as it was. Only a lost connection leaves no level. -/
structure FailsSafely (d : Driver σ H) (s : Session σ H) : Prop where
  begin : ∀ e t, (Session.begin d).on s = (.error e, t) →
    t.connection.level = s.connection.level ∧ Entry.events t.trace = Entry.events s.trace
  commit : ∀ e t, (Session.commit d).on s = (.error e, t) →
    t.connection.level = (if e.causedByLostConnection then 0 else s.connection.level) ∧
      Entry.events t.trace = Entry.events s.trace
  rollback : ∀ target e t, (Session.rollback d target).on s = (.error e, t) →
    t.connection.level = (if e.causedByLostConnection then 0 else s.connection.level) ∧
      Entry.events t.trace = Entry.events s.trace
  reconnect : ∀ e t, (Session.reconnect d).on s = (.error e, t) →
    t.connection.write = s.connection.write ∧ t.connection.read = s.connection.read ∧
      t.connection.level = s.connection.level ∧ Entry.events t.trace = Entry.events s.trace

theorem failsSafely (hp : s.connection.pretending = false) : FailsSafely d s where
  begin e t h := by
    have hb : Begins d s (.error e) t := by
      simpa only [h] using begins (d := d) hp
    cases hb with
    | failedAgain h0 hd he hr hn hd' => simp [h0, Entry.events]
    | _ => simp [Entry.events]
  commit e t h := by
    have hc : Commits d s (.error e) t := by
      simpa only [h] using commits (d := d) hp
    cases hc with
    | failed h1 hd => simp [level_broken, Entry.events]
  rollback target e t h := by
    have hr : Rollbacks d s (target.getD (s.connection.level - 1)) (.error e) t := by
      simpa only [h] using rollbacks (d := d) hp target
    cases hr with
    | failed hl h0 hd => simp [level_broken, Entry.events]
    | unrestored hl h0 hs hd => simp [level_broken, Entry.events]
  reconnect e t h := by
    have hr : Reconnects d s (.error e) t := by
      simpa only [h] using reconnects (d := d) (s := s)
    cases hr with
    | missing hr => simp
    | failed hr hn => simp [Entry.events]

end Session

namespace Program

open Session

/-- Whatever a program does and whatever fails, a positive level means a transaction that is open on
the handle in use, and nothing is committed or rolled back on a handle without one. -/
theorem course_sound (p : Program σ H α) (s : Session σ H) (hq : p.Plain)
    (hp : s.connection.pretending = false) (h0 : s.connection.level = 0) :
    (p.exec d s).2.trace = s.trace ++ (p.course d s).filterMap entry? ∧
    (∀ before t after, p.course d s = before ++ .seen t :: after → 0 < t.connection.level →
      HasBegun t.connection.write before) ∧
    (∀ before h r ok after, p.course d s = before ++ .did (.sent h r ok) :: after →
      r = .commit ∨ r = .rollback → HasBegun h before) ∧
    ∀ t : Session σ H, t.connection.pretending = false → FailsSafely d t ∧
      ∀ target, (t.connection.level = 0 ∨ ∃ n, target = some n ∧ t.connection.level ≤ n) →
        (Session.rollback d target).on t = (.ok (), t) := by
  have hs : Upheld [] s := fun hl ↦ absurd hl (by omega)
  have hl := leads_course (d := d) p hq hp hs
  refine ⟨?_, fun before t after hc ↦ ?_, fun before h r ok after hc hr ↦ ?_, fun t ht ↦ ?_⟩
  · rw [hl.entries, hl.grows.trace_eq]
  · exact (hc ▸ hl.sound).fits
  · have hf : Fits ([] ++ before) (.did (.sent h r ok)) := (hc ▸ hl.sound).fits
    obtain rfl | rfl := hr
    · exact hf
    · exact hf
  · refine ⟨failsSafely ht, fun target htarget ↦ rollback_outside ?_⟩
    obtain h0 | ⟨n, rfl, hn⟩ := htarget
    · rw [h0]
      exact Nat.zero_le _
    · exact hn

def renewing : Program Script String (Except Error Unit) :=
  .transaction 2 (.perform .begin fun _ ↦ .perform .reconnect fun _ ↦ .perform .begin fun _ ↦
    .perform (.fail (.deadlock "a" [] .missingReconnector)) fun answer ↦
      .done (answer.map fun _ ↦ ())) fun _ : Except Error Unit ↦
  .perform .begin fun _ ↦ .perform .commit fun answer ↦ .done (answer.map fun _ ↦ ())

def losing : Session Script String where
  connection := { lostOnce.connection with hasSink := true }
  world := { begins := [.error (.database .poolClosed)] }

theorem course_sound_renewing : renewing.Plain ∧ losing.connection.pretending = false ∧
    losing.connection.level = 0 ∧
    (renewing.course Script.driver losing).countP (fun
      | .seen t => 0 < t.connection.level
      | _ => false) = 9 ∧
    (∀ before t after, renewing.course Script.driver losing = before ++ .seen t :: after →
      0 < t.connection.level → HasBegun t.connection.write before) ∧
    (renewing.course Script.driver losing).countP (fun
      | .did entry => entry.isClosing
      | _ => false) = 3 ∧
    ∀ before h r ok after, renewing.course Script.driver losing =
      before ++ .did (.sent h r ok) :: after → r = .commit ∨ r = .rollback → HasBegun h before := by
  have hq : renewing.Plain := ⟨fun _ _ _ _ ↦ trivial, fun _ _ _ ↦ trivial⟩
  obtain ⟨-, hseen, hsent, -⟩ := course_sound (d := Script.driver) renewing losing hq rfl rfl
  exact ⟨hq, rfl, rfl, by decide +kernel, hseen, by decide +kernel, hsent⟩

end Program

end FluentSql
