import FluentSql.Proofs.Mistakes.Recorded

namespace FluentSql

namespace Connective

def readFrom (run : Bool) : List (Connective × Bool) → Bool
  | [] => run
  | (.and, b) :: rest => readFrom (run && b) rest
  | (.or, b) :: rest => run || readFrom b rest

def read : List (Connective × Bool) → Bool
  | [] => true
  | (_, b) :: rest => readFrom b rest

def earlierFrom (run : Bool) : List (Connective × Bool) → Bool
  | [] => false
  | (.and, b) :: rest => earlierFrom (run && b) rest
  | (.or, b) :: rest => run || earlierFrom b rest

def earlier : List (Connective × Bool) → Bool
  | [] => false
  | (_, b) :: rest => earlierFrom b rest

def latestFrom (run : Bool) : List (Connective × Bool) → Bool
  | [] => run
  | (.and, b) :: rest => latestFrom (run && b) rest
  | (.or, b) :: rest => latestFrom b rest

def latest : List (Connective × Bool) → Bool
  | [] => true
  | (_, b) :: rest => latestFrom b rest

variable (run : Bool) (l : List (Connective × Bool)) (bs : List Bool)

theorem readFrom_append : readFrom run (l ++ bs.map (.and, ·)) =
    (earlierFrom run l || (latestFrom run l && bs.all id)) := by
  induction l generalizing run with
  | nil =>
    induction bs generalizing run with
    | nil => simp [readFrom, earlierFrom, latestFrom]
    | cons b bs ih => simpa [readFrom, earlierFrom, latestFrom, Bool.and_assoc] using ih (run && b)
  | cons entry rest ih =>
    obtain ⟨connective, b⟩ := entry
    cases connective with
    | and => exact ih (run && b)
    | or => exact (congrArg (run || ·) (ih b)).trans (Bool.or_assoc ..).symm

/-- Conditions that are added by `and` belong to what stands behind the last `or`. -/
theorem read_append : read (l ++ bs.map (.and, ·)) = (earlier l || (latest l && bs.all id)) := by
  cases l with
  | nil =>
    cases bs with
    | nil => rfl
    | cons b bs =>
      simpa [read, earlierFrom, latestFrom, earlier, latest] using readFrom_append b [] bs
  | cons entry rest => exact readFrom_append entry.2 rest bs

theorem read_eq : read l = (earlier l || latest l) := by
  simpa using read_append l []

theorem earlierFrom_and (h : ∀ entry ∈ l, entry.1 = .and) : earlierFrom run l = false := by
  induction l generalizing run with
  | nil => rfl
  | cons entry rest ih =>
    obtain ⟨connective, b⟩ := entry
    obtain rfl : connective = .and := h _ List.mem_cons_self
    exact ih _ fun entry he ↦ h entry (List.mem_cons_of_mem _ he)

end Connective

mutual

/-- What the conditions of a query come to, if single conditions come to what `v` says. -/
def Query.holds (v : Test Query → Bool) : Query → Bool
  | ⟨_, _, conditions, _⟩ => Connective.read (readings v conditions)

def Test.holds (v : Test Query → Bool) : Test Query → Bool
  | .nested query => query.holds v
  | t => v t

def readings (v : Test Query → Bool) : List (Condition Query) → List (Connective × Bool)
  | [] => []
  | ⟨connective, t⟩ :: rest => (connective, t.holds v) :: readings v rest

end

theorem readings_eq_map (v : Test Query → Bool) (l : List (Condition Query)) :
    readings v l = l.map fun c ↦ (c.connective, c.test.holds v) := by
  induction l with
  | nil => rfl
  | cons c rest ih => exact congrArg (_ :: ·) ih

namespace Query

theorem holds_eq_read (v : Test Query → Bool) (q : Query) :
    q.holds v = Connective.read (readings v q.conditions) := by
  obtain ⟨_, _, conditions, _⟩ := q
  rfl

def earlier (v : Test Query → Bool) (q : Query) : Bool :=
  Connective.earlier (readings v q.conditions)

def latest (v : Test Query → Bool) (q : Query) : Bool :=
  Connective.latest (readings v q.conditions)

def Conjoined (q : Query) : Prop := ∀ c ∈ q.conditions.tail, c.connective = .and

instance (q : Query) : Decidable q.Conjoined :=
  inferInstanceAs (Decidable (∀ c ∈ q.conditions.tail, c.connective = .and))

/-- What a query selects from, and everything else but its conditions that says which rows. -/
def scope (q : Query) : Option Reference × List (Join Query) × List Reference × List Having ×
    List (Member Query) :=
  (q.source, q.joins, q.groups, q.havings, q.unions)

/-- The same query with conditions added at the end. -/
structure Narrows (q q' : Query) (tests : List (Test Query)) : Prop where
  scope : q'.scope = q.scope
  conditions : q'.conditions = q.conditions ++ tests.map (⟨.and, ·⟩)

variable {q q' r : Query} {tests tests' : List (Test Query)}

theorem Narrows.trans (h : q.Narrows q' tests) (h' : q'.Narrows r tests') :
    q.Narrows r (tests ++ tests') where
  scope := h'.scope.trans h.scope
  conditions := by rw [h'.conditions, h.conditions, List.map_append, List.append_assoc]

/-- The conditions of a query come to what stands in front of the last `or` and what stands behind
it. -/
theorem holds_eq (v : Test Query → Bool) (q : Query) : q.holds v = (q.earlier v || q.latest v) :=
  (q.holds_eq_read v).trans (Connective.read_eq _)

/-- What is added counts for what stands behind the last `or`, and for nothing else. -/
theorem Narrows.holds (h : q.Narrows q' tests) (v : Test Query → Bool) :
    q'.holds v = (q.earlier v || (q.latest v && tests.all (·.holds v))) := by
  have hr : readings v q'.conditions =
      readings v q.conditions ++ (tests.map (·.holds v)).map (.and, ·) := by
    simp [readings_eq_map, h.conditions]
  rw [holds_eq_read, hr, Connective.read_append, List.all_map]
  rfl

theorem Conjoined.earlier (h : q.Conjoined) (v : Test Query → Bool) : q.earlier v = false := by
  unfold Query.earlier
  rw [readings_eq_map]
  unfold Conjoined at h
  cases hc : q.conditions with
  | nil => rfl
  | cons c rest =>
    rw [hc] at h
    refine Connective.earlierFrom_and _ _ fun entry he ↦ ?_
    obtain ⟨c, hc, rfl⟩ := List.mem_map.1 he
    exact h c hc

end Query

end FluentSql
