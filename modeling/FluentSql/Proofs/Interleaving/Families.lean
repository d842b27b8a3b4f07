import FluentSql.Query.Run

namespace FluentSql

/-- Families of clauses. Orderings, windows and unions are one: after a union, orderings and windows
are those of the combined rows. -/
inductive Family where
  | columns
  | source
  | joins
  | conditions
  | groups
  | havings
  | rows
  | lock
  deriving DecidableEq

def Family.all : List Family :=
  [columns, source, joins, conditions, groups, havings, rows, lock]

theorem Family.mem_all (f : Family) : f ∈ all := by
  cases f <;> decide

def ClauseKind.family : ClauseKind → Family
  | .columns => .columns
  | .source => .source
  | .joins => .joins
  | .conditions => .conditions
  | .groups => .groups
  | .havings => .havings
  | .orders => .rows
  | .unions => .rows
  | .unionOrders => .rows

namespace Query

mutual

/-- Nothing of a query but its conditions. A group holds a copy of the query around it, source and
all, of which only the conditions are written. -/
def bare : Query → Query
  | ⟨_, _, conditions, _⟩ => { conditions := bareConditions conditions }

def bareConditions : List (Condition Query) → List (Condition Query)
  | [] => []
  | ⟨connective, t⟩ :: rest => ⟨connective, bareTest t⟩ :: bareConditions rest

def bareTest : Test Query → Test Query
  | .nested query => .nested query.bare
  | t => t

end

theorem bareConditions_eq_map (conditions : List (Condition Query)) :
    bareConditions conditions = conditions.map fun c ↦ ⟨c.connective, bareTest c.test⟩ := by
  induction conditions with
  | nil => rfl
  | cons c rest ih => rw [bareConditions, ih, List.map_cons]

def frame (q : Query) : Query :=
  { grammar := q.grammar, macros := q.macros, aggregate := q.aggregate, isJoin := q.isJoin }

def keep (f : Family) (q : Query) : Query :=
  match f with
  | .columns =>
    { q.frame with
      columns := q.columns, distinct := q.distinct, bindings := { columns := q.bindings.columns } }
  | .source => { q.frame with source := q.source, bindings := { source := q.bindings.source } }
  | .joins => { q.frame with joins := q.joins, bindings := { joins := q.bindings.joins } }
  | .conditions =>
    { q.frame with
      conditions := bareConditions q.conditions
      bindings := { conditions := q.bindings.conditions } }
  | .groups => { q.frame with groups := q.groups, bindings := { groups := q.bindings.groups } }
  | .havings => { q.frame with havings := q.havings, bindings := { havings := q.bindings.havings } }
  | .rows =>
    { q.frame with
      orders := q.orders, limit := q.limit, offset := q.offset, unions := q.unions
      unionOrders := q.unionOrders, unionLimit := q.unionLimit, unionOffset := q.unionOffset
      bindings :=
        { orders := q.bindings.orders, unions := q.bindings.unions
          unionOrders := q.bindings.unionOrders } }
  | .lock => { q.frame with lock := q.lock, usesWriteHandle := q.usesWriteHandle }

def put (f : Family) (q other : Query) : Query :=
  match f with
  | .columns =>
    { q with
      columns := other.columns, distinct := other.distinct
      bindings := { q.bindings with columns := other.bindings.columns } }
  | .source =>
    { q with
      source := other.source, bindings := { q.bindings with source := other.bindings.source } }
  | .joins =>
    { q with joins := other.joins, bindings := { q.bindings with joins := other.bindings.joins } }
  | .conditions =>
    { q with
      conditions := other.conditions
      bindings := { q.bindings with conditions := other.bindings.conditions } }
  | .groups =>
    { q with
      groups := other.groups, bindings := { q.bindings with groups := other.bindings.groups } }
  | .havings =>
    { q with
      havings := other.havings, bindings := { q.bindings with havings := other.bindings.havings } }
  | .rows =>
    { q with
      orders := other.orders, limit := other.limit, offset := other.offset, unions := other.unions
      unionOrders := other.unionOrders, unionLimit := other.unionLimit
      unionOffset := other.unionOffset
      bindings :=
        { q.bindings with
          orders := other.bindings.orders, unions := other.bindings.unions
          unionOrders := other.bindings.unionOrders } }
  | .lock => { q with lock := other.lock, usesWriteHandle := other.usesWriteHandle }

section

variable (f : Family) (q other : Query)

@[simp] theorem frame_keep : (q.keep f).frame = q.frame := by
  cases f <;> rfl

@[simp] theorem frame_put : (q.put f other).frame = q.frame := by
  cases f <;> rfl

theorem keep_put_of_ne {f' : Family} (h : f' ≠ f) : (q.put f other).keep f' = q.keep f' := by
  cases f <;> cases f' <;> first | rfl | exact absurd rfl h

end

variable {f : Family} {q q' other inner : Query}

theorem frame_eq (h : q.keep f = q'.keep f) : q.frame = q'.frame := by
  rw [← frame_keep f q, h, frame_keep]

theorem grammar_eq (h : q.frame = q'.frame) : q.grammar = q'.grammar := by
  have hg := congrArg (fun q : Query ↦ q.grammar) h
  exact hg

theorem macros_eq (h : q.frame = q'.frame) : q.macros = q'.macros := by
  have hm := congrArg (fun q : Query ↦ q.macros) h
  exact hm

theorem fresh_eq (h : q.frame = q'.frame) : q.fresh = q'.fresh := by
  rw [fresh, grammar_eq h, macros_eq h]
  rfl

theorem keep_put_congr (h : q.frame = q'.frame) :
    (q.put f other).keep f = (q'.put f other).keep f := by
  have ha := congrArg (fun q : Query ↦ q.aggregate) h
  have hj := congrArg (fun q : Query ↦ q.isJoin) h
  dsimp only [frame] at ha hj
  cases f <;> simp only [put, keep, frame, grammar_eq h, macros_eq h, ha, hj]

theorem keep_conditions_iff : q.keep .conditions = q'.keep .conditions ↔ q.frame = q'.frame ∧
    bareConditions q.conditions = bareConditions q'.conditions ∧
      q.bindings.conditions = q'.bindings.conditions := by
  constructor
  · intro h
    have hc := congrArg (fun q : Query ↦ q.conditions) h
    have hb := congrArg (fun q : Query ↦ q.bindings.conditions) h
    exact ⟨frame_eq h, hc, hb⟩
  · rintro ⟨hf, hc, hb⟩
    simp only [keep, hf, hc, hb]

@[simp] theorem keep_fail (m : Mistake) : (q.fail m).keep f = q.keep f := by
  unfold fail
  split
  · rfl
  · cases f <;> rfl

@[simp] theorem keep_absorb : (q.absorb inner).keep f = q.keep f := by
  unfold absorb
  split
  · exact keep_fail _
  · rfl

end Query

/-- Operations that touch no clauses but those of some families, and each of them without a look at
the others. -/
structure Acts (families : List Family) (op : Query → Query) : Prop where
  frame : ∀ q, (op q).frame = q.frame
  within : ∀ f q q', q.keep f = q'.keep f → (op q).keep f = (op q').keep f
  apart : ∀ f, f ∉ families → ∀ q, (op q).keep f = q.keep f

namespace Acts

open Query

variable {f : Family} {families families' : List Family} {op op' : Query → Query}

theorem mono (h : Acts families op) (hf : families ⊆ families') : Acts families' op :=
  ⟨h.frame, h.within, fun f hn ↦ h.apart f fun hm ↦ hn (hf hm)⟩

theorem comp (h : Acts families op) (h' : Acts families op') :
    Acts families fun q ↦ op' (op q) where
  frame q := (h'.frame _).trans (h.frame q)
  within f q q' he := h'.within f _ _ (h.within f q q' he)
  apart f hn q := (h'.apart f hn _).trans (h.apart f hn q)

theorem foldl {α : Type} {op : Query → α → Query} (h : ∀ a, Acts families (op · a)) (l : List α) :
    Acts families fun q ↦ l.foldl op q := by
  induction l with
  | nil => exact ⟨fun _ ↦ rfl, fun _ _ _ hk ↦ hk, fun _ _ _ ↦ rfl⟩
  | cons a rest ih => exact (h a).comp ih

theorem congr (h : Acts families op) (he : ∀ q, op' q = op q) : Acts families op' := by
  obtain rfl : op' = op := funext he
  exact h

theorem param {α : Type} (arg : Query → α) (op : α → Query → Query)
    (h : ∀ a, Acts families (op a)) (ha : ∀ q q', q.frame = q'.frame → arg q = arg q') :
    Acts families fun q ↦ op (arg q) q where
  frame q := (h (arg q)).frame q
  within f q q' he := by
    rw [ha q q' (frame_eq he)]
    exact (h (arg q')).within f q q' he
  apart f hn q := (h (arg q)).apart f hn q

theorem of_arg {α : Type} (arg : Query → α)
    (h : ∀ a, ∃ op', Acts families op' ∧ ∀ q, arg q = a → op q = op' q)
    (ha : ∀ q q', q.frame = q'.frame → arg q = arg q') : Acts families op := by
  have hacts := param arg (fun a ↦ (h a).choose) (fun a ↦ (h a).choose_spec.1) ha
  exact hacts.congr fun q ↦ (h (arg q)).choose_spec.2 q rfl

/-- An operation that changes one family by what it finds there. -/
theorem of_put (h : ∀ q, op q = q.put f (op (q.keep f))) : Acts [f] op where
  frame q := by rw [h, frame_put]
  within f' q q' he := by
    by_cases hf : f' = f
    · subst hf
      rw [h q, h q', he]
      exact keep_put_congr (frame_eq he)
    · rw [h q, h q', keep_put_of_ne _ _ _ hf, keep_put_of_ne _ _ _ hf, he]
  apart f' hn q := by
    rw [h q, keep_put_of_ne _ _ _ fun he ↦ hn (List.mem_singleton.2 he)]

theorem idle (h : ∀ f q, (op q).keep f = q.keep f) : Acts families op where
  frame q := frame_eq (h .columns q)
  within f q q' he := by rw [h, h, he]
  apart f _ q := h f q

theorem id : Acts families fun q ↦ q := idle fun _ _ ↦ rfl

theorem fail (m : Mistake) : Acts families (·.fail m) := idle fun _ _ ↦ keep_fail m

theorem absorb (inner : Query) : Acts families (·.absorb inner) := idle fun _ _ ↦ keep_absorb

theorem extend (added : List (Condition Query)) (values : List Value) : Acts [.conditions] fun q ↦
    { q with
      conditions := q.conditions ++ added
      bindings := { q.bindings with conditions := q.bindings.conditions ++ values } } where
  frame _ := rfl
  within f q q' he := by
    cases f
    case conditions =>
      obtain ⟨hf, hc, hb⟩ := keep_conditions_iff.1 he
      refine keep_conditions_iff.2 ⟨hf, ?_, congrArg (· ++ values) hb⟩
      simp only [bareConditions_eq_map, List.map_append] at hc ⊢
      rw [hc]
    all_goals exact he
  apart f hn q := by
    cases f
    case conditions => exact absurd (List.mem_singleton_self _) hn
    all_goals rfl

theorem addTest (connective : Connective) (t : Test Query) (values : List Value) :
    Acts [.conditions] (·.addTest connective t values) :=
  extend [⟨connective, t⟩] values

theorem addCondition (connective : Connective) (t : Test Query) :
    Acts [.conditions] (·.addCondition connective t) := by
  refine (addTest connective t []).congr fun q ↦ ?_
  simp only [Query.addTest, Query.bind, Bindings.extend, Bindings.set, Bindings.get,
    List.append_nil]
  rfl

theorem bind (kind : ClauseKind) (values : List Value) :
    Acts [kind.family] (·.bind kind values) := by
  cases kind
  case conditions =>
    have h := extend [] values
    simp only [List.append_nil] at h
    exact h
  all_goals exact of_put fun _ ↦ rfl

theorem withOperator (name : OperatorName) {add : Query → Operator → Query}
    (h : ∀ o, Acts families (add · o)) : Acts families fun q ↦ q.withOperator name (add q) := by
  cases name with
  | custom symbol => exact h ⟨symbol⟩
  | named name =>
    cases ho : Operator.parse? name with
    | some o => exact (h o).congr fun q ↦ by simp only [Query.withOperator, operator?, ho]
    | none =>
      refine (fail (.unknownOperator name)).congr fun q ↦ ?_
      simp only [Query.withOperator, operator?, ho]

theorem withEmbedded (inner : Query) {add : Query → Sql → Query}
    (h : ∀ sql, Acts families (add · sql)) : Acts families (·.withEmbedded inner add) := by
  refine of_arg (·.grammar.select inner) (fun r ↦ ?_) fun q q' hf ↦ by rw [grammar_eq hf]
  cases r with
  | ok sql =>
    refine ⟨_, (absorb inner).comp (h sql), fun q hq ↦ ?_⟩
    rw [Query.withEmbedded, embed, hq]
  | error e =>
    cases e with
    | generation reason =>
      refine ⟨_, (absorb inner).comp (fail (.subquery reason)), fun q hq ↦ ?_⟩
      rw [Query.withEmbedded, embed, hq]
    | _ =>
      refine ⟨_, absorb inner, fun q hq ↦ ?_⟩
      rw [Query.withEmbedded, embed, hq]

end Acts

end FluentSql
