import FluentSql.Proofs.Interleaving.Building

namespace FluentSql

def callFamilies (method : String) (m : Macros) : List Family :=
  if m.has method then Family.all else [.conditions]

/-- The families that a step may touch. Groups, sub-selects and the clauses of joins are queries of
their own: what matters is where they are put. -/
def Step.families : Step → Macros → List Family
  | select _, _ => [.columns]
  | addSelect _, _ => [.columns]
  | selectRaw .., _ => [.columns]
  | selectQuery .., _ => [.columns]
  | distinct, _ => [.columns]
  | source _, _ => [.source]
  | sourceRaw .., _ => [.source]
  | sourceQuery .., _ => [.source]
  | join .., _ => [.joins]
  | crossJoin _, _ => [.joins]
  | joinWith .., _ => [.joins]
  | joinQuery .., _ => [.joins]
  | groupBy _, _ => [.groups]
  | groupByRaw .., _ => [.groups]
  | having .., _ => [.havings]
  | havingNull .., _ => [.havings]
  | havingBetween .., _ => [.havings]
  | rawHaving .., _ => [.havings]
  | orderBy .., _ => [.rows]
  | orderByRaw .., _ => [.rows]
  | orderByQuery .., _ => [.rows]
  | randomOrder _, _ => [.rows]
  | reorder, _ => [.rows]
  | reorderBy .., _ => [.rows]
  | limit _, _ => [.rows]
  | offset _, _ => [.rows]
  | page .., _ => [.rows]
  | unite .., _ => [.rows]
  | pageAfter .., _ => [.conditions, .rows]
  | lock _, _ => [.lock]
  | useWriteHandle, _ => [.lock]
  | addBinding kind _, _ => [kind.family]
  | call method _, m => callFamilies method m
  | fail _, _ => Family.all
  | _, _ => [.conditions]

/-- A computation in which every family goes its own way, and that fails or not by what the query is
from its start. -/
structure Heeds (act : Query → Outcome) : Prop where
  frame : ∀ q, (act q).1.frame = q.frame
  failure : ∀ q q', q.frame = q'.frame → (act q).2 = (act q').2
  within : ∀ f q q', q.keep f = q'.keep f → (act q).1.keep f = (act q').1.keep f

structure Confined (families : Macros → List Family) (act : Query → Outcome) : Prop
    extends Heeds act where
  apart : ∀ f q, f ∉ families q.macros → (act q).1.keep f = q.keep f

open Query

variable {act act' : Query → Outcome} {families : List Family}

namespace Heeds

theorem andThen (h : Heeds act) (h' : Heeds act') : Heeds fun q ↦
    match act q with
    | (q, none) => act' q
    | (q, some e) => (q, some e) where
  frame q := by
    have hq := h.frame q
    cases he : act q with | mk t failure
    rw [he] at hq
    cases failure with
    | none => exact (h'.frame t).trans hq
    | some e => exact hq
  failure q q' hf := by
    have hfailure := h.failure q q' hf
    have hframe : (act q).1.frame = (act q').1.frame :=
      (h.frame q).trans (hf.trans (h.frame q').symm)
    cases he : act q with | mk t failure
    cases he' : act q' with | mk t' failure'
    rw [he, he'] at hfailure hframe
    obtain rfl : failure = failure' := hfailure
    cases failure with
    | none => exact h'.failure t t' hframe
    | some e => rfl
  within f q q' hk := by
    have hfailure := h.failure q q' (frame_eq hk)
    have hkeep := h.within f q q' hk
    cases he : act q with | mk t failure
    cases he' : act q' with | mk t' failure'
    rw [he, he'] at hfailure hkeep
    obtain rfl : failure = failure' := hfailure
    cases failure with
    | none => exact h'.within f t t' hkeep
    | some e => exact hkeep

theorem param {α : Type} (arg : Query → α) (act : α → Query → Outcome) (h : ∀ a, Heeds (act a))
    (ha : ∀ q q', q.frame = q'.frame → arg q = arg q') : Heeds fun q ↦ act (arg q) q where
  frame q := (h (arg q)).frame q
  failure q q' hf := by
    rw [ha q q' hf]
    exact (h (arg q')).failure q q' hf
  within f q q' hk := by
    rw [ha q q' (frame_eq hk)]
    exact (h (arg q')).within f q q' hk

end Heeds

namespace Confined

theorem done {op : Query → Query} (h : Acts families op) :
    Confined (fun _ ↦ families) fun q ↦ .done (op q) where
  frame := h.frame
  failure _ _ _ := rfl
  within := h.within
  apart f q hn := h.apart f hn q

theorem failed (e : Error) : Confined (fun _ ↦ families) fun q ↦ (q, some e) where
  frame _ := rfl
  failure _ _ _ := rfl
  within _ _ _ hk := hk
  apart _ _ _ := rfl

theorem mono {families families' : Macros → List Family} (h : Confined families act)
    (hf : ∀ m, families m ⊆ families' m) : Confined families' act :=
  ⟨h.toHeeds, fun f q hn ↦ h.apart f q fun hm ↦ hn (hf _ hm)⟩

theorem around {start : Query → Query} (hstart : ∀ q q', q.frame = q'.frame → start q = start q')
    (inner : Query → Outcome) {add : Query → Query → Query}
    (h : ∀ inner, Acts families (add · inner)) :
    Confined (fun _ ↦ families) fun q ↦ (inner (start q)).around (add q) where
  frame q := (h _).frame q
  failure q q' hf := by rw [hstart q q' hf]; rfl
  within f q q' hk := by
    rw [hstart q q' (frame_eq hk)]
    exact (h _).within f q q' hk
  apart f q hn := (h _).apart f hn q

end Confined

namespace Query

variable {q q' inner inner' : Query} {connective : Connective} {t t' : Test Query}
  {values : List Value}

theorem keep_addTest (hk : q.keep .conditions = q'.keep .conditions)
    (ht : bareTest t = bareTest t') :
    (q.addTest connective t values).keep .conditions =
      (q'.addTest connective t' values).keep .conditions := by
  obtain ⟨hf, hc, hb⟩ := keep_conditions_iff.1 hk
  refine keep_conditions_iff.2 ⟨hf, ?_, congrArg (· ++ values) hb⟩
  change bareConditions (q.conditions ++ [⟨connective, t⟩]) =
    bareConditions (q'.conditions ++ [⟨connective, t'⟩])
  simp only [bareConditions_eq_map] at hc
  simp only [bareConditions_eq_map, List.map_append, hc, List.map_cons, ht]

/-- Of a group, only the conditions count. -/
theorem keep_addNested (hk : inner.keep .conditions = inner'.keep .conditions) :
    (q.addNested connective inner).keep .conditions =
      (q.addNested connective inner').keep .conditions := by
  obtain ⟨-, hc, hb⟩ := keep_conditions_iff.1 hk
  have habsorb : (q.absorb inner).keep .conditions = (q.absorb inner').keep .conditions := by
    rw [keep_absorb, keep_absorb]
  have hempty : inner.conditions.isEmpty = inner'.conditions.isEmpty := by
    have hl := congrArg List.isEmpty hc
    simpa [bareConditions_eq_map] using hl
  have ht : bareTest (.nested inner) = bareTest (.nested inner') := by
    obtain ⟨_, _, conditions, _⟩ := inner
    obtain ⟨_, _, conditions', _⟩ := inner'
    simp only [bareTest, bare]
    rw [show bareConditions conditions = bareConditions conditions' from hc]
  unfold addNested
  rw [hempty, hb]
  split
  · exact habsorb
  · exact keep_addTest habsorb ht

end Query

/-- A group is built on a copy of the source around it, which nobody writes. -/
theorem Confined.group {connective : Connective} {inner : Query → Outcome} (h : Heeds inner) :
    Confined (fun _ ↦ [.conditions]) fun q ↦
      (inner { q.fresh with source := q.source }).around (q.addNested connective) where
  frame q := (Acts.addNested _).frame q
  failure q q' hf := h.failure _ _ (by rw [fresh_eq hf]; rfl)
  within f q q' hk := by
    by_cases hf : f = .conditions
    · subst hf
      have hstart : keep .conditions { q.fresh with source := q.source } =
          keep .conditions { q'.fresh with source := q'.source } := by
        rw [fresh_eq (frame_eq hk)]
        rfl
      have hinner := h.within .conditions _ _ hstart
      exact (keep_addNested hinner).trans ((Acts.addNested _).within _ _ _ hk)
    · have hn : f ∉ [Family.conditions] := fun hm ↦ hf (List.mem_singleton.1 hm)
      exact ((Acts.addNested _).apart f hn q).trans
        (hk.trans ((Acts.addNested _).apart f hn q').symm)
  apart f q hn := (Acts.addNested _).apart f hn q

namespace Step

variable {invoke : String → List Value → Query → Outcome} {arguments : List Value}

mutual

/-- A step touches its families and no others, if calls do. -/
theorem confined_runWith
    (hc : ∀ method values, Confined (callFamilies method) (invoke method values)) :
    ∀ step : Step, Confined step.families fun q ↦ step.runWith invoke arguments q := by
  intro step
  have hfresh : ∀ q q' : Query, q.frame = q'.frame → q.fresh = q'.fresh := fun _ _ ↦ fresh_eq
  let build (steps : List Step) (q : Query) : Outcome := runAllWith invoke arguments q steps
  cases step with
  | compare connective c => exact .done (.withOperator _ fun o ↦ .addComparison)
  | compareDate part connective c => exact .done (.withOperator _ fun o ↦ .addTest _ _ _)
  | compareJsonLength connective c => exact .done (.withOperator _ fun o ↦ .addTest _ _ _)
  | compareColumns connective first operator second =>
    exact .done (.withOperator _ fun o ↦ .addCondition _ _)
  | compareQuery connective column operator steps =>
    exact .around hfresh (build steps) fun inner ↦ .withOperator operator fun o ↦
      @Acts.addQueryComparison connective column o inner
  | compareRow connective columns operator operands =>
    exact .done (.withOperator _ fun o ↦ .addRow _ _)
  | nest connective steps => exact .group (heeds_runAllWith hc steps)
  | exist connective negated steps =>
    exact .around hfresh (build steps) fun inner ↦ .addExistence inner _
  | isIn connective negated column operands => exact .done (.addTest _ _ _)
  | isInQuery connective negated column steps =>
    exact .around hfresh (build steps) fun inner ↦ .addInQuery inner _
  | isInIntegers connective negated column terms => exact .done (.addCondition _ _)
  | isNull connective negated column => exact .done (.addNull _)
  | between connective negated column low high => exact .done (.addTest _ _ _)
  | betweenColumns connective negated column low high => exact .done (.addCondition _ _)
  | rawCondition connective sql terms => exact .done (.addTest _ _ _)
  | jsonContains connective negated column term => exact .done (.addJsonContains _ _)
  | matchRecord connective record => exact .done (.addRecord _)
  | having connective c => exact .done (.withOperator _ fun o ↦ .having)
  | havingNull negated column => exact .done (.addHaving _ _)
  | havingBetween column low high => exact .done (.addHaving _ _)
  | rawHaving connective sql terms => exact .done (.addHaving _ _)
  | select columns => exact .done (.select _)
  | addSelect columns => exact .done (.addSelect _)
  | selectRaw sql terms => exact .done (.selectRaw _ _)
  | selectQuery steps label => exact .around hfresh (build steps) fun inner ↦ .selectQuery inner _
  | distinct => exact .done .distinct
  | source table => exact .done (.setSource _)
  | sourceRaw sql terms => exact .done (.sourceRaw _ _)
  | sourceQuery steps label => exact .around hfresh (build steps) fun inner ↦ .sourceQuery inner _
  | groupBy columns => exact .done (.addGroups _)
  | groupByRaw sql terms => exact .done (.groupByRaw _ _)
  | orderBy column direction => exact .done (.addOrder _ _)
  | orderByRaw sql terms => exact .done (.addOrder _ _)
  | orderByQuery steps direction =>
    exact .around hfresh (build steps) fun inner ↦ .orderByQuery inner _
  | randomOrder seed => exact .done (.randomOrder _)
  | reorder => exact .done .reorder
  | reorderBy column direction => exact .done (Acts.reorder.comp (.addOrder _ _))
  | limit n => exact .done (.setLimit n)
  | offset n => exact .done (.setOffset n)
  | page number size => exact .done ((Acts.setOffset _).comp (.setLimit size))
  | pageAfter size last column => exact .done (.pageAfter size _)
  | unite all steps => exact .around hfresh (build steps) fun inner ↦ .unite inner all
  | lock l => exact .done (.setLock l)
  | useWriteHandle => exact .done .useWriteHandle
  | join kind table first operator second => exact .done (.joinOn _ _ _ _ _)
  | crossJoin table =>
    exact .done (Acts.param joinClause (fun clause q ↦ q.addJoin .cross table.reference clause)
      (Acts.addJoin · _ _) fun _ _ ↦ Acts.joinClause_eq)
  | joinWith kind table steps =>
    exact .around (fun _ _ ↦ Acts.joinClause_eq) (build steps) fun inner ↦ .addJoin inner kind _
  | joinQuery kind steps label first operator second =>
    exact .around hfresh (build steps) fun inner ↦ .joinQuery inner kind _ _ _ _
  | addBinding kind term => exact .done (.bind kind _)
  | call method terms => exact hc method _
  | fail text => exact .failed _

theorem heeds_runAllWith
    (hc : ∀ method values, Confined (callFamilies method) (invoke method values)) :
    ∀ steps : List Step, Heeds fun q ↦ runAllWith invoke arguments q steps := by
  intro steps
  cases steps with
  | nil => exact (Confined.done (Acts.id : Acts [] _)).toHeeds
  | cons step rest => exact (confined_runWith hc step).andThen (heeds_runAllWith hc rest)

end

end Step

namespace Query

theorem confined_addDynamicWhere (method : String) (arguments : List Value) :
    Confined (callFamilies method) fun q ↦ q.addDynamicWhere method arguments := by
  have hfamilies : ∀ m, [.conditions] ⊆ callFamilies method m := by
    intro m f hf
    unfold callFamilies
    split
    · exact f.mem_all
    · exact hf
  refine Confined.mono ?_ hfamilies
  unfold Query.addDynamicWhere
  cases DynamicWhere.parse method with
  | error e => exact .failed e
  | ok columns =>
    dsimp only
    split
    · exact .failed _
    · exact .done (.foldl (fun _ ↦ .addComparison) _)

theorem confined_callWithin (depth : Nat) : ∀ (method : String) (arguments : List Value),
    Confined (callFamilies method) (callWithin depth method arguments) := by
  induction depth with
  | zero => exact confined_addDynamicWhere
  | succ depth ih =>
    intro method arguments
    have hdynamic := confined_addDynamicWhere method arguments
    have hfound : ∀ found : Option (List Step), Heeds fun q ↦
        found.elim (q.addDynamicWhere method arguments)
          (Step.runAllWith (callWithin depth) arguments q) := by
      intro found
      cases found with
      | some steps => exact Step.heeds_runAllWith ih steps
      | none => exact hdynamic.toHeeds
    have hcall : callWithin (depth + 1) method arguments = fun q ↦
        (q.macros.get? method).elim (q.addDynamicWhere method arguments)
          (Step.runAllWith (callWithin depth) arguments q) := by
      funext q
      rw [callWithin]
      cases q.macros.get? method <;> rfl
    have hheeds : Heeds (callWithin (depth + 1) method arguments) := by
      rw [hcall]
      exact .param (·.macros.get? method) _ hfound fun _ _ hf ↦ by rw [macros_eq hf]
    refine ⟨hheeds, ?_⟩
    intro f q hn
    simp only [callWithin]
    split
    · rename_i steps hs
      refine absurd f.mem_all ?_
      simpa [callFamilies, Macros.has, hs] using hn
    · exact hdynamic.apart f q hn

end Query

namespace Step

def touching (f : Family) (m : Macros) (steps : List Step) : List Step :=
  steps.filter (f ∈ ·.families m)

theorem exists_mem_families (step : Step) (m : Macros) : ∃ f, f ∈ step.families m := by
  cases step with
  | call method terms =>
    simp only [families, callFamilies]
    split
    · exact ⟨.columns, by decide⟩
    · exact ⟨.conditions, by decide⟩
  | _ => exact ⟨_, List.mem_cons_self⟩

variable {invoke : String → List Value → Query → Outcome} {arguments : List Value} {f : Family}
  {step : Step} {q q' : Query}

theorem runAllWith_cons (rest : List Step) (h : (step.runWith invoke arguments q).2 = none) :
    runAllWith invoke arguments q (step :: rest) =
      runAllWith invoke arguments (step.runWith invoke arguments q).1 rest := by
  rw [runAllWith]
  cases he : step.runWith invoke arguments q with | mk t failure
  rw [he] at h
  cases h
  rfl

theorem runWith_of_runAllWith_cons {rest : List Step}
    (h : (runAllWith invoke arguments q (step :: rest)).2 = none) :
    (step.runWith invoke arguments q).2 = none := by
  rw [runAllWith] at h
  split at h
  · rename_i t he
    rw [he]
  · cases h

section

variable (hc : ∀ method values, Confined (callFamilies method) (invoke method values))
include hc

/-- In whatever order steps are taken, they all succeed, or else there is one that fails. -/
theorem runAllWith_eq_none_iff {steps : List Step} :
    (runAllWith invoke arguments q steps).2 = none ↔
      ∀ step ∈ steps, (step.runWith invoke arguments q).2 = none := by
  induction steps generalizing q with
  | nil => simp [runAllWith, Outcome.done]
  | cons first rest ih =>
    have hframe : (first.runWith invoke arguments q).1.frame = q.frame :=
      (confined_runWith hc first).frame q
    rw [List.forall_mem_cons]
    constructor
    · intro h
      have hfirst := runWith_of_runAllWith_cons h
      rw [runAllWith_cons rest hfirst, ih] at h
      exact ⟨hfirst, fun step hs ↦
        ((confined_runWith hc step).failure _ _ hframe.symm).trans (h step hs)⟩
    · rintro ⟨hfirst, hrest⟩
      rw [runAllWith_cons rest hfirst, ih]
      exact fun step hs ↦ ((confined_runWith hc step).failure _ _ hframe).trans (hrest step hs)

/-- What becomes of a family, only the steps that touch it decide. -/
theorem keep_runAllWith {steps : List Step} (h : (runAllWith invoke arguments q steps).2 = none)
    (hk : q.keep f = q'.keep f) :
    (runAllWith invoke arguments q steps).1.keep f =
      (runAllWith invoke arguments q' (touching f q.macros steps)).1.keep f := by
  induction steps generalizing q q' with
  | nil => exact hk
  | cons step rest ih =>
    have hstep : Confined step.families fun q ↦ step.runWith invoke arguments q :=
      confined_runWith hc step
    have hq := runWith_of_runAllWith_cons h
    rw [runAllWith_cons rest hq] at h ⊢
    have hm : (step.runWith invoke arguments q).1.macros = q.macros := macros_eq (hstep.frame q)
    by_cases hf : f ∈ step.families q.macros
    · have hq' : (step.runWith invoke arguments q').2 = none :=
        (hstep.failure q q' (frame_eq hk)).symm.trans hq
      have hrest := ih h (hstep.within f q q' hk)
      rw [touching, List.filter_cons_of_pos (by simpa using hf), runAllWith_cons _ hq']
      rw [hm] at hrest
      exact hrest
    · have hrest := ih h ((hstep.apart f q hf).trans hk)
      rw [touching, List.filter_cons_of_neg (by simpa using hf)]
      rw [hm] at hrest
      exact hrest

end

end Step

/-- Steps may be taken in any order that leaves those of each family in theirs. -/
theorem Query.keep_run {q : Query} {steps steps' : List Step}
    (hs : ∀ f, Step.touching f q.macros steps = Step.touching f q.macros steps')
    (h : (q.run steps).2 = none) :
    (q.run steps').2 = none ∧ ∀ f, (q.run steps).1.keep f = (q.run steps').1.keep f := by
  have hc := confined_callWithin q.callDepth
  have h' : (q.run steps').2 = none := by
    refine (Step.runAllWith_eq_none_iff hc).2 fun step hstep ↦ ?_
    obtain ⟨f, hf⟩ := step.exists_mem_families q.macros
    have hmem : step ∈ Step.touching f q.macros steps' :=
      List.mem_filter.2 ⟨hstep, by simpa using hf⟩
    rw [← hs f] at hmem
    exact (Step.runAllWith_eq_none_iff hc).1 h step (List.mem_filter.1 hmem).1
  refine ⟨h', fun f ↦ ?_⟩
  have hk := Step.keep_runAllWith hc h (rfl : q.keep f = q.keep f)
  have hk' := Step.keep_runAllWith hc h' (rfl : q.keep f = q.keep f)
  rw [← hs f] at hk'
  exact hk.trans hk'.symm

end FluentSql
