import FluentSql.Proofs.Numbering.Chosen
import FluentSql.Proofs.Numbering.Fluent

namespace FluentSql.Query

open Text Placeholders

def numberableCall : Nat → String → List Value → Query → Bool
  | 0, _, _, _ => true
  | depth + 1, method, arguments, q =>
    match q.macros.get? method with
    | some steps =>
      Step.allNumberable (callWithin depth) (numberableCall depth) arguments q steps
    | none => true

/-- Whether all fragments and operators of the steps can be numbered, at any depth. -/
def numberableSteps (q : Query) (steps : List Step) : Bool :=
  Step.allNumberable (callWithin q.callDepth) (numberableCall q.callDepth) [] q steps

variable {q inner : Query} {o : Operator} {sql : Sql}

theorem Neat.addDynamicWhere (h : q.Neat) (method : String) (arguments : List Value) :
    (q.addDynamicWhere method arguments).1.Neat := by
  unfold Query.addDynamicWhere
  split
  · exact h
  · split
    · exact h
    · exact List.foldlRecOn _ _ h fun _ ht entry _ ↦
        ht.addEquality (Operand.neat_bound entry.2)

theorem neat_callWithin (depth : Nat) : ∀ (method : String) (arguments : List Value) (q : Query),
    q.Neat → numberableCall depth method arguments q →
    (callWithin depth method arguments q).1.Neat := by
  induction depth with
  | zero =>
    intro method arguments q h _
    exact h.addDynamicWhere method arguments
  | succ depth ih =>
    intro method arguments q h hn
    simp only [callWithin]
    simp only [numberableCall] at hn
    split
    · rename_i steps hsteps
      rw [hsteps] at hn
      exact Step.neat_runAllWith h ih steps hn
    · exact h.addDynamicWhere method arguments

theorem grammar_absorb : (q.absorb inner).grammar = q.grammar := by
  unfold absorb fail
  split
  · split <;> rfl
  · rfl

theorem subset_enclosed (a b : Sql) : sql.pieces ⊆ (sql.enclosed ++ a ++ b).pieces := by
  intro p hp
  simp [Sql.enclosed, hp]

namespace Uses

variable (hu : inner.Uses o) (hi : inner.Neat) (hs : q.grammar.select inner = .ok sql)

include hu hi hs

theorem withEmbedded {add : Query → Sql → Query} (hg : ∀ q, (add q sql).grammar = q.grammar)
    (ha : ∀ q (embedded : Sql → Prop),
      (∀ whole : Sql, sql.pieces ⊆ whole.pieces → embedded whole) →
      (add q sql).Writes o embedded) : (q.withEmbedded inner add).Uses o := by
  obtain ⟨depth, hu⟩ := hu
  simp only [Query.withEmbedded, embed, hs]
  refine ⟨depth + 1, ha _ _ fun whole hp ↦ ⟨inner, sql, hi, ?_, hp, hu⟩⟩
  rw [hg, grammar_absorb, hs]

theorem selectQuery (label : String) : (q.selectQuery inner label).Uses o := by
  refine hu.withEmbedded hi hs (fun _ ↦ rfl) fun q embedded h ↦ writes_iff.2 (.inl ?_)
  exact .column _ (List.mem_append_right _ List.mem_cons_self) (h _ (subset_enclosed _ _))

theorem sourceQuery (label : String) : (q.sourceQuery inner label).Uses o := by
  refine hu.withEmbedded hi hs (fun _ ↦ rfl) fun q embedded h ↦ writes_iff.2 (.inl ?_)
  exact .source _ rfl (h _ (subset_enclosed _ _))

theorem orderByQuery (direction : Direction) : (q.orderByQuery inner direction).Uses o := by
  refine hu.withEmbedded hi hs (fun q ↦ ?_) fun q embedded h ↦ writes_iff.2 ?_
  · unfold addOrder
    split <;> rfl
  · have hr : (Order.raw (sql.enclosed ++ " " ++ direction.word)).Writes embedded :=
      h _ (subset_enclosed _ _)
    unfold addOrder
    split
    · exact .inl (.order _ (List.mem_append_right _ List.mem_cons_self) hr)
    · rename_i hn
      refine .inr (.inl ⟨fun he ↦ hn (List.isEmpty_iff.2 he), _, ?_, hr⟩)
      exact List.mem_append_right _ List.mem_cons_self

theorem joinQuery (kind : JoinKind) (label first : String) (operator : OperatorName)
    (second : String) : (q.joinQuery kind inner label first operator second).Uses o := by
  refine hu.withEmbedded hi hs (fun q ↦ ?_) fun q embedded h ↦ writes_iff.2 (.inr (.inr (.inl ?_)))
  · exact grammar_absorb
  · refine joinsWrite_iff.2 ⟨_, List.mem_append_right _ List.mem_cons_self, ?_⟩
    exact .inl (h _ (subset_enclosed _ _))

end Uses

theorem mistake_of_sql {s : Sql} (h : q.sql = .ok s) : q.mistake = none := by
  obtain ⟨c, joins, conditions, unions⟩ := q
  simp only [Query.sql, Grammar.select, bind_eq_ok] at h
  obtain ⟨_, hc, -⟩ := h
  unfold Clauses.checked at hc
  split at hc
  · cases hc
  · assumption

/-- The statement of a query that is built by steps, numbered. Its parameters are those of its
bindings from left to right, each where the statement has the placeholder of that binding. All
operators that the steps choose or the query uses are spelled out. -/
theorem numbered_run (g : Grammar) (macros : Macros) (steps : List Step)
    (hg : g.dialect = .postgres) (hp : properSteps { grammar := g, macros } steps)
    (hn : numberableSteps { grammar := g, macros } steps) {text : String} {bindings : List Value}
    (h : (Query.run { grammar := g, macros } steps).1.compiled = .ok (text, bindings)) :
    ∃ s, (Query.run { grammar := g, macros } steps).1.sql = .ok s ∧
      s.text = text ∧ s.slots = bindings ∧ s.Sound ∧
      (numberedPlaceholders text).toList = Sql.numberedPieces 0 s.pieces ∧
      parameters none (numberedPlaceholders text).toList = List.range' 1 bindings.length ∧
      ∀ o : Operator, o.isKnown → choosesOperator { grammar := g, macros } steps o ∨
          (Query.run { grammar := g, macros } steps).1.Uses o →
        o.symbol.toList <:+: (numberedPlaceholders text).toList := by
  have hstart : Aligned g .select { grammar := g, macros } := Aligned.start g macros rfl fun _ ↦ rfl
  have ha : (Query.run { grammar := g, macros } steps).1.Aligned g .select :=
    Step.aligned_runAllWith hstart (aligned_callWithin _) steps hp
  have hneat : (Query.run { grammar := g, macros } steps).1.Neat :=
    Step.neat_runAllWith (Neat.start g macros hg (by simp)) (neat_callWithin _) steps hn
  obtain ⟨s, hs, h⟩ := bind_eq_ok.1 h
  cases pure_eq_ok.1 h
  have hsound : s.Sound := Grammar.sound_select hneat.dialect _ hneat s hs
  have hslots : s.slots = (Query.run { grammar := g, macros } steps).1.allBindings := by
    rw [sql, ha.grammar] at hs
    exact ha.slots_select hs
  refine ⟨s, hs, rfl, hslots, hsound, ?_, ?_, fun o ho hu ↦ ?_⟩
  · rw [numberedPlaceholders, String.toList_ofList, Sql.toList_text]
    exact Sql.PiecesSound.number_letters hsound 0
  · rw [numberedPlaceholders, String.toList_ofList, parameters_number hsound.reads 0, hslots]
  · obtain ⟨depth, hu⟩ := hu.elim (fun h ↦ uses_of_chooses h (mistake_of_sql hs)) id
    have hspells := spells_of_usesWithin ho depth _ _ hneat.dialect hneat hu s hs
    exact hspells.numbered hsound

def taggedUsers : List Step := [
  .source (.name "users"),
  .selectQuery [.source (.name "posts"), .selectRaw "count(*) - ?" [.value (.int32 1)],
    .compare .and ⟨"why?", .named "@?", .bound (.value (.string "$.a"))⟩] "n",
  .compare .and ⟨"tags", .named "?|", .bound (.value (.string "a"))⟩,
  .rawCondition .or "note <> 'why?' and kind = ?" [.value (.int32 2)],
  .exist .and true [.source (.name "bans"),
    .compare .and ⟨"meta", .named "?&", .raw "array['x?']"⟩,
    .compare .and ⟨"data->is?", .equal, .bound (.value (.bool true))⟩],
  .having .and ⟨"total", .named "<", .bound (.value (.int32 3))⟩,
  .unite true [.source (.name "guests"), .isIn .and false "id" [.bound (.value (.int32 4)),
    .bound (.value (.int32 5))]]]

theorem numbered_run_taggedUsers :
    let g : Grammar := { dialect := .postgres }
    properSteps { grammar := g } taggedUsers ∧ numberableSteps { grammar := g } taggedUsers ∧
      ∃ text bindings, (Query.run { grammar := g } taggedUsers).1.compiled = .ok (text, bindings) ∧
        bindings.map Value.text = ["1", "$.a", "a", "2", "3", "4", "5"] ∧
        parameters none (numberedPlaceholders text).toList = [1, 2, 3, 4, 5, 6, 7] ∧
        ∀ symbol ∈ ["?|", "?&", "=", "<"],
          choosesOperator { grammar := g } taggedUsers ⟨symbol⟩ ∧
            symbol.toList <:+: (numberedPlaceholders text).toList := by
  intro g
  have hp : properSteps { grammar := g } taggedUsers := by decide +kernel
  have hn : numberableSteps { grammar := g } taggedUsers := by decide +kernel
  have hb : (Query.run { grammar := g } taggedUsers).1.allBindings.map Value.text =
      ["1", "$.a", "a", "2", "3", "4", "5"] := by
    decide +kernel
  have hok : (Query.run { grammar := g } taggedUsers).1.sql.isOk := by decide +kernel
  have hchosen : ∀ symbol ∈ ["?|", "?&", "=", "<"],
      (⟨symbol⟩ : Operator).isKnown ∧ choosesOperator { grammar := g } taggedUsers ⟨symbol⟩ := by
    decide +kernel
  cases hs : (Query.run { grammar := g } taggedUsers).1.sql with
  | ok s =>
    have h : (Query.run { grammar := g } taggedUsers).1.compiled =
        .ok (s.text, (Query.run { grammar := g } taggedUsers).1.allBindings) :=
      bind_eq_ok.2 ⟨s, hs, rfl⟩
    obtain ⟨-, -, -, -, -, -, hparameters, hspelled⟩ := numbered_run g {} taggedUsers rfl hp hn h
    have hlength := congrArg List.length hb
    rw [List.length_map] at hlength
    rw [hlength] at hparameters
    refine ⟨hp, hn, s.text, _, h, hb, hparameters, fun symbol hsymbol ↦ ?_⟩
    obtain ⟨hknown, hchosen⟩ := hchosen symbol hsymbol
    exact ⟨hchosen, hspelled ⟨symbol⟩ hknown (.inl hchosen)⟩
  | error e =>
    rw [hs] at hok
    cases hok

/-- Only a comparison with a value escapes its operator. Of two columns that are compared by one,
the question mark between them is numbered, though nothing is bound. -/
def markedColumns : List Step := [
  .source (.name "users"), .compareColumns .and "a" (.named "?") "b"]

theorem numbered_run_markedColumns :
    let g : Grammar := { dialect := .postgres }
    properSteps { grammar := g } markedColumns ∧
      choosesOperator { grammar := g } markedColumns ⟨"?"⟩ ∧
      ∃ text, (Query.run { grammar := g } markedColumns).1.compiled = .ok (text, []) ∧
        numberedPlaceholders text = "select * from \"users\" where \"a\" $1 \"b\"" ∧
        parameters none (numberedPlaceholders text).toList = [1] ∧
        ¬ "?".toList <:+: (numberedPlaceholders text).toList := by
  intro g
  have hc : ((Query.run { grammar := g } markedColumns).1.compiled.toOption.map fun c ↦
      (c.1, c.2.map Value.text)) = some ("select * from \"users\" where \"a\" ? \"b\"", []) := by
    decide +kernel
  have hn : numberedPlaceholders "select * from \"users\" where \"a\" ? \"b\"" =
      "select * from \"users\" where \"a\" $1 \"b\"" := by
    decide +kernel
  refine ⟨by decide +kernel, by decide +kernel, ?_⟩
  cases h : (Query.run { grammar := g } markedColumns).1.compiled with
  | ok c =>
    obtain ⟨text, bindings⟩ := c
    rw [h] at hc
    obtain ⟨rfl, hb⟩ := Prod.mk.inj (Option.some.inj hc)
    cases List.map_eq_nil_iff.1 hb
    refine ⟨_, rfl, hn, ?_⟩
    rw [hn]
    exact ⟨by decide +kernel, by decide +kernel⟩
  | error e =>
    rw [h] at hc
    cases hc

end FluentSql.Query
