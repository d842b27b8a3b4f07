import FluentSql.Proofs.Derived.Kept
import FluentSql.Proofs.Mistakes.Refused
import FluentSql.Proofs.Windows.Setting

namespace FluentSql

open Query

namespace Step

def replaces : Step → List ClauseKind
  | select _ => [.columns]
  | source _ => [.source]
  | sourceRaw .. => [.source]
  | sourceQuery .. => [.source]
  | reorder => [.orders, .unionOrders]
  | reorderBy .. => [.orders, .unionOrders]
  | _ => []

/-- The query without the clauses that a step replaces, and without their values. -/
def emptied (q : Query) : Step → Query
  | select _ => q.withPart .columns none []
  | source _ => q.withPart .source none []
  | sourceRaw .. => q.withPart .source none []
  | sourceQuery .. => q.withPart .source none []
  | reorder => q.reorder
  | reorderBy .. => q.reorder
  | _ => q

def blank (q : Query) : Step → Query
  | reorderBy .. => { q.fresh with unions := q.unions }
  | _ => q.fresh

/-- The values of the source before, where a step does not take them away. -/
def leftover (q : Query) : Step → List Value
  | source _ => q.bindings.source
  | sourceRaw .. => q.bindings.source
  | _ => []

variable (invoke : String → List Value → Query → Outcome) (arguments : List Value) (q : Query)

def Takes : Step → Prop
  | sourceQuery steps _ =>
    ∃ sql, q.grammar.select (runAllWith invoke arguments q.fresh steps).1 = .ok sql
  | _ => True

/-- What becomes of the clauses that a step replaces. -/
structure Replaced (step : Step) : Prop where
  alone : step.Takes invoke arguments q → ∀ kind ∈ step.replaces,
    (step.runWith invoke arguments q).1.part kind =
        (step.runWith invoke arguments (step.blank q)).1.part kind ∧
      (step.runWith invoke arguments q).1.bindings.get kind = step.leftover q ++
        (step.runWith invoke arguments (step.blank q)).1.bindings.get kind
  traceless : step.Takes invoke arguments q → step.leftover q = [] → ∀ rest,
    runAllWith invoke arguments q (step :: rest) =
      runAllWith invoke arguments (step.emptied q) (step :: rest)
  refused : ¬ step.Takes invoke arguments q → ∀ kind ∈ step.replaces,
    (step.runWith invoke arguments q).1.part kind = q.part kind ∧
      (step.runWith invoke arguments q).1.bindings.get kind = q.bindings.get kind ∧
      (step.runWith invoke arguments q).1.mistake ≠ none

end Step

namespace Query

variable {q inner : Query} {label : String} {sql : Sql} {kind : ClauseKind} {part : Part kind}
  {values : List Value}

theorem part_withPart : (q.withPart kind part values).part kind = part := by
  cases kind <;> rfl

theorem withPart_withPart {other : Part kind} {others : List Value} :
    (q.withPart kind other others).withPart kind part values = q.withPart kind part values := by
  cases kind <;> rfl

theorem reorder_reorder : q.reorder.reorder = q.reorder := by
  simp only [reorder, clearBindings, Bindings.clear, Bindings.set]

theorem set_source_nil (h : q.bindings.source = []) : q.bindings.set .source [] = q.bindings := by
  rw [← h]
  rfl

theorem fail_eq (m : Mistake) : q.fail m = { q with mistake := q.mistake.or (some m) } := by
  obtain ⟨⟨⟩, joins, conditions, unions⟩ := q
  unfold fail
  dsimp only
  split <;> rfl

theorem absorb_eq : q.absorb inner = { q with mistake := q.mistake.or inner.mistake } := by
  unfold absorb
  cases inner.mistake with
  | none =>
    obtain ⟨⟨⟩, joins, conditions, unions⟩ := q
    dsimp only
    rw [Option.or_none]
  | some m => exact fail_eq m

theorem absorb_withPart : (q.withPart kind part values).absorb inner =
    (q.absorb inner).withPart kind part values := by
  rw [absorb_eq, absorb_eq]
  cases kind <;> rfl

theorem sourceQuery_taken (h : q.grammar.select inner = .ok sql) :
    q.sourceQuery inner label = (q.absorb inner).withPart .source
      (some (aliased sql (q.grammar.wrapTable label))) inner.allBindings := by
  have hg : (q.absorb inner).grammar = q.grammar := congrArg Prod.fst setting_absorb
  unfold sourceQuery withEmbedded embed
  rw [h]
  dsimp only
  rw [hg]
  rfl

theorem sourceQuery_refused {l : List Mistake} (hi : Made l inner) (label : String)
    (h : ¬ ∃ sql, q.grammar.select inner = .ok sql) :
    ∃ m, q.sourceQuery inner label = { q with mistake := some m } := by
  have hsome (o : Option Mistake) (m : Mistake) : ∃ m', o.or (some m) = some m' := by
    cases o with
    | none => exact ⟨m, rfl⟩
    | some m' => exact ⟨m', rfl⟩
  unfold sourceQuery withEmbedded embed
  cases hs : q.grammar.select inner with
  | ok sql => exact absurd ⟨sql, hs⟩ h
  | error e =>
    cases hm : inner.mistake with
    | some m =>
      obtain rfl : e = .invalid (.mistake m) := by
        rw [Grammar.select_mistake hm] at hs
        exact (Except.error.inj hs).symm
      obtain ⟨m', hm'⟩ := hsome q.mistake m
      refine ⟨m', ?_⟩
      show q.absorb inner = _
      rw [absorb_eq, hm, hm']
    | none =>
      obtain ⟨reason, rfl⟩ := q.grammar.expressible_select inner (hi.spotless hm) e hs
      obtain ⟨m, hm⟩ := hsome (q.absorb inner).mistake (.subquery reason)
      refine ⟨m, ?_⟩
      show (q.absorb inner).fail (.subquery reason) = _
      rw [fail_eq, hm, absorb_eq]

end Query

namespace Step

variable {invoke : String → List Value → Query → Outcome} {arguments : List Value} {q : Query}

theorem replaced_sourceQuery
    (hi : ∀ steps, ∃ l, Made l (runAllWith invoke arguments q.fresh steps).1)
    (steps : List Step) (label : String) :
    Replaced invoke arguments q (.sourceQuery steps label) where
  alone := by
    rintro ⟨sql, hsql⟩ kind hk
    obtain rfl := List.mem_singleton.1 hk
    have hfresh : q.fresh.grammar.select
        (runAllWith invoke arguments q.fresh.fresh steps).1 = .ok sql := hsql
    simp only [runWith, Outcome.around, blank, sourceQuery_taken hsql, sourceQuery_taken hfresh,
      part_withPart, bindings_withPart, Bindings.get_set_same]
    exact ⟨rfl, rfl⟩
  traceless := by
    rintro ⟨sql, hsql⟩ - rest
    have he : (sourceQuery steps label).runWith invoke arguments q =
        (sourceQuery steps label).runWith invoke arguments (q.withPart .source none []) := by
      have hemptied : (q.withPart .source none []).grammar.select
          (runAllWith invoke arguments (q.withPart .source none []).fresh steps).1 = .ok sql := hsql
      simp only [runWith, Outcome.around, sourceQuery_taken hsql, sourceQuery_taken hemptied,
        absorb_withPart, withPart_withPart]
      rfl
    rw [runAllWith, runAllWith, he]
    rfl
  refused := by
    intro hno kind hk
    obtain rfl := List.mem_singleton.1 hk
    obtain ⟨l, hl⟩ := hi steps
    obtain ⟨m, hm⟩ := sourceQuery_refused hl label hno
    have hrun : ((sourceQuery steps label).runWith invoke arguments q).1 =
        { q with mistake := some m } := hm
    rw [hrun]
    exact ⟨rfl, rfl, nofun⟩

/-- A step that always takes, and that does the same where the clause was not there before. -/
theorem replaced_of_taken {step : Step} (ht : step.Takes invoke arguments q)
    (ha : ∀ kind ∈ step.replaces,
      (step.runWith invoke arguments q).1.part kind =
          (step.runWith invoke arguments (step.blank q)).1.part kind ∧
        (step.runWith invoke arguments q).1.bindings.get kind = step.leftover q ++
          (step.runWith invoke arguments (step.blank q)).1.bindings.get kind)
    (he : step.leftover q = [] →
      step.runWith invoke arguments q = step.runWith invoke arguments (step.emptied q)) :
    Replaced invoke arguments q step where
  alone _ := ha
  traceless _ hl rest := by
    rw [runAllWith, runAllWith, he hl]
  refused hno := absurd ht hno

end Step

namespace Query

/-- A step that puts clauses in the place of others does with them what it does alone. Of what it
replaces nothing is left, but for the values of the source before a named one or a fragment. A
source that cannot be written is not put in the place of the one before, and the query holds a
mistake. -/
theorem clauses_replaced (depth : Nat) (arguments : List Value) (q : Query) (step : Step) :
    step.Replaced (callWithin depth) arguments q := by
  cases step with
  | select columns =>
    refine Step.replaced_of_taken trivial (fun kind hk ↦ ?_) fun _ ↦ rfl
    obtain rfl := List.mem_singleton.1 hk
    exact ⟨rfl, rfl⟩
  | source table =>
    refine Step.replaced_of_taken trivial (fun kind hk ↦ ?_) fun hl ↦ ?_
    · obtain rfl := List.mem_singleton.1 hk
      exact ⟨rfl, (List.append_nil _).symm⟩
    · simp only [Step.runWith, Step.emptied, withPart, setSource, set_source_nil hl]
  | sourceRaw sql terms =>
    refine Step.replaced_of_taken trivial (fun kind hk ↦ ?_) fun hl ↦ ?_
    · obtain rfl := List.mem_singleton.1 hk
      exact ⟨rfl, rfl⟩
    · simp only [Step.runWith, Step.emptied, sourceRaw, bind, withPart, setSource,
        set_source_nil hl]
  | sourceQuery steps label =>
    exact Step.replaced_sourceQuery
      (fun steps ↦ ⟨_, (Step.told_runAllWith (told_callWithin depth) q.fresh steps).fresh⟩)
      steps label
  | reorder =>
    refine Step.replaced_of_taken trivial (fun kind hk ↦ ?_) fun _ ↦ ?_
    · rcases List.mem_pair.1 hk with rfl | rfl <;> exact ⟨rfl, rfl⟩
    · simp only [Step.runWith, Step.emptied, reorder_reorder]
  | reorderBy column direction =>
    refine Step.replaced_of_taken trivial (fun kind hk ↦ ?_) fun _ ↦ ?_
    · obtain ⟨c, joins, conditions, unions⟩ := q
      rcases List.mem_pair.1 hk with rfl | rfl <;> cases unions <;> exact ⟨rfl, rfl⟩
    · simp only [Step.runWith, Step.emptied, reorder_reorder]
  | _ =>
    refine Step.replaced_of_taken trivial (fun _ hk ↦ absurd hk List.not_mem_nil) fun _ ↦ ?_
    simp only [Step.emptied]

/-- A fragment brings a value to a source, which is still bound for the source that replaces it. -/
theorem clauses_replaced_stale :
    let q := (run { grammar := { dialect := .mysql } } [.sourceRaw "f(?)" [.value (.int32 1)]]).1
    let named := (q.run [.source (.name "posts")]).1
    let alone := (q.fresh.run [.source (.name "posts")]).1
    named.mistake = none ∧ (named.bindings.get .source).length = 1 ∧
      (alone.bindings.get .source).length = 0 ∧
      named.sql.toOption.map Sql.text = alone.sql.toOption.map Sql.text ∧
      named.allBindings.length = 1 := by
  decide +kernel

end Query

end FluentSql
