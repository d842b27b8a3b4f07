import FluentSql.Session.Execution

namespace FluentSql

variable {σ H α β : Type}

namespace Entry

/-- The requests a stretch of the trace tells of, with their handles and whether they succeeded. -/
def sends (added : List (Entry H)) : List (H × Request × Bool) :=
  added.filterMap fun
    | sent h r ok => some (h, r, ok)
    | _ => none

def reconnections (added : List (Entry H)) : List Bool :=
  added.filterMap fun
    | reconnected ok => some ok
    | _ => none

def events (added : List (Entry H)) : List Event :=
  added.filterMap fun
    | announced event => some event
    | _ => none

variable (l l' : List (Entry H)) (h : H) (r : Request) (ok : Bool) (event : Event)

@[simp] theorem sends_nil : sends ([] : List (Entry H)) = [] := rfl

@[simp] theorem sends_sent : sends (sent h r ok :: l) = (h, r, ok) :: sends l := rfl

@[simp] theorem sends_reconnected : sends (reconnected ok :: l) = sends l := rfl

@[simp] theorem sends_append : sends (l ++ l') = sends l ++ sends l' := List.filterMap_append

@[simp] theorem reconnections_nil : reconnections ([] : List (Entry H)) = [] := rfl

@[simp] theorem reconnections_sent : reconnections (sent h r ok :: l) = reconnections l := rfl

@[simp] theorem reconnections_reconnected :
    reconnections (reconnected ok :: l) = ok :: reconnections l := rfl

@[simp] theorem events_nil : events ([] : List (Entry H)) = [] := rfl

@[simp] theorem events_sent : events (sent h r ok :: l) = events l := rfl

@[simp] theorem events_reconnected : events (reconnected ok :: l) = events l := rfl

@[simp] theorem events_append : events (l ++ l') = events l ++ events l' :=
  List.filterMap_append

end Entry

namespace Session

variable (s : Session σ H) (f : Connection H → Connection H) (h : H) (r : Request) (ok : Bool)
  (w : σ) (event : String → Event)

def sent : Session σ H :=
  { s with world := w, trace := s.trace ++ [.sent h r ok] }

def reconnected : Session σ H :=
  { s with world := w, trace := s.trace ++ [.reconnected ok] }

def adapt : Session σ H :=
  { s with connection := f s.connection }

def announcement (c : Connection H) : List (Entry H) :=
  if c.hasSink then [.announced (event c.name)] else []

def announced : Session σ H :=
  { s with trace := s.trace ++ announcement event s.connection }

/-- A session grows into those that are outside pretence as it is and did more. -/
structure Grows (s t : Session σ H) : Prop where
  pretending : t.connection.pretending = s.connection.pretending
  trace : s.trace <+: t.trace

theorem grows_refl : s.Grows s := ⟨rfl, List.prefix_rfl⟩

theorem Grows.trans {s t u : Session σ H} (h : s.Grows t) (h' : t.Grows u) : s.Grows u :=
  ⟨h'.pretending.trans h.pretending, h.trace.trans h'.trace⟩

theorem Grows.outside {s t : Session σ H} (h : s.Grows t) (hp : s.connection.pretending = false) :
    t.connection.pretending = false := h.pretending.trans hp

section

variable (c : Connection H)

@[simp] theorem sends_announcement : Entry.sends (announcement event c) = [] := by
  unfold announcement
  split <;> rfl

@[simp] theorem reconnections_announcement : Entry.reconnections (announcement event c) = [] := by
  unfold announcement
  split <;> rfl

@[simp] theorem events_announcement :
    Entry.events (announcement event c) = if c.hasSink then [event c.name] else [] := by
  unfold announcement
  split <;> rfl

end

@[simp] theorem connection_sent : (s.sent h r ok w).connection = s.connection := rfl

@[simp] theorem trace_sent : (s.sent h r ok w).trace = s.trace ++ [.sent h r ok] := rfl

@[simp] theorem connection_reconnected : (s.reconnected ok w).connection = s.connection := rfl

@[simp] theorem trace_reconnected : (s.reconnected ok w).trace = s.trace ++ [.reconnected ok] := rfl

@[simp] theorem connection_adapt : (s.adapt f).connection = f s.connection := rfl

@[simp] theorem trace_adapt : (s.adapt f).trace = s.trace := rfl

@[simp] theorem connection_announced : (s.announced event).connection = s.connection := rfl

@[simp] theorem trace_announced :
    (s.announced event).trace = s.trace ++ announcement event s.connection := rfl

end Session

namespace Action

variable {d : Driver σ H} {a : Action σ H α} {f : α → Action σ H β} {s t : Session σ H} {x : α}
  {e : Error} {h : H} {r : Request} {w : σ}

def on (a : Action σ H α) (s : Session σ H) : Except Error α × Session σ H :=
  StateT.run (ExceptT.run a) s

theorem on_bind_ok (h : a.on s = (.ok x, t)) : (a >>= f).on s = (f x).on t := by
  simp only [on] at h
  simp only [on, ExceptT.run_bind, StateT.run_bind, h]
  rfl

theorem on_bind_error (h : a.on s = (.error e, t)) : (a >>= f).on s = (.error e, t) := by
  simp only [on] at h
  simp only [on, ExceptT.run_bind, StateT.run_bind, h]
  rfl

theorem on_bind_congr {b : Action σ H α} (h : a.on s = b.on t) :
    (a >>= f).on s = (b >>= f).on t := by
  simp only [on] at h
  simp only [on, ExceptT.run_bind, StateT.run_bind, h]

@[simp] theorem on_pure : (pure x : Action σ H α).on s = (.ok x, s) := rfl

theorem on_map_snd {f : α → β} : ((f <$> a).on s).2 = (a.on s).2 := by
  cases h : a.on s with | mk result t
  cases result with
  | ok x => rw [map_eq_pure_bind, on_bind_ok h, on_pure]
  | error e => rw [map_eq_pure_bind, on_bind_error h]

theorem orFail_ok_bind : (orFail (.ok x) >>= f) = f x := rfl

@[simp] theorem on_throw : (throw e : Action σ H α).on s = (.error e, s) := rfl

@[simp] theorem on_get_bind {f : Session σ H → Action σ H β} : (get >>= f).on s = (f s).on s := rfl

@[simp] theorem on_set_bind {f : PUnit → Action σ H β} : (set t >>= f).on s = (f ⟨⟩).on t := rfl

@[simp] theorem on_current_bind {f : Connection H → Action σ H β} :
    (current >>= f).on s = (f s.connection).on s := rfl

@[simp] theorem on_modifyConnection {f : Connection H → Connection H} :
    (modifyConnection f : Action σ H Unit).on s = (.ok (), s.adapt f) := rfl

theorem on_observe_bind {f : Except Error α → Action σ H β} :
    (observe a >>= f).on s = (f (a.on s).1).on (a.on s).2 := rfl

@[simp] theorem on_announce {event : String → Event} :
    (announce event : Action σ H Unit).on s = (.ok (), s.announced event) := by
  unfold announce Session.announced Session.announcement
  rw [on_current_bind]
  split
  · rfl
  · rw [on_pure, List.append_nil]

theorem on_send_ok {reply : r.Reply} (hd : d.send h r s.world = (.ok reply, w)) :
    (send d h r).on s = (.ok reply, s.sent h r true w) := by
  unfold send
  simp only [on_get_bind, on_set_bind, hd]
  rfl

theorem on_send_error (hd : d.send h r s.world = (.error e, w)) :
    (send d h r).on s = (.error e, s.sent h r false w) := by
  unfold send
  simp only [on_get_bind, on_set_bind, hd]
  rfl

end Action

end FluentSql
