import FluentSql.Proofs.Derived.Aggregates

namespace FluentSql

open Grammar Lexing

/-- Every value of the query has its placeholder, and row numbers are asked for where they are. -/
structure Query.Balanced (g : Grammar) (q : Query) : Prop where
  aligned : q.Aligned g .select
  kept : q.Kept g

namespace Query.Balanced

variable {g : Grammar} {q : Query} {s : Sql} {a : Aggregate}

theorem of_sql (h : q.Kept g) (hj : q.isJoin = false) (hs : q.sql = .ok s)
    (ha : s.slots = q.allBindings) : q.Balanced g :=
  ⟨h.aligned hj hs ha, h⟩

theorem fresh (h : q.Balanced g) : q.fresh.Balanced g := ⟨h.aligned.fresh, h.kept.fresh⟩

theorem of_select (h : q.Balanced g) (hs : q.sql = .ok s) :
    s.slots = q.allBindings ∧ (g.dialect = .sqlServer → s.RowsNumbered) := by
  rw [sql, h.aligned.grammar] at hs
  exact ⟨h.aligned.slots_select hs, (h.kept.fits_select hs).numbered⟩

section building

theorem dropColumns (h : q.Balanced g) : (q.withPart .columns none []).Balanced g where
  aligned := h.aligned.withPart .columns none [] (fun _ ↦ rfl) h.aligned.unionOrders
    (fun _ _ _ ↦ rfl)
  kept := h.kept.withPart .columns none [] (.none rfl _) h.kept.unionOrders

theorem dropOrders (h : q.Balanced g) : (q.withPart .orders [] []).Balanced g where
  aligned := h.aligned.withPart .orders [] [] (fun _ ↦ rfl) h.aligned.unionOrders
    (fun _ _ _ ↦ rfl)
  kept := h.kept.withPart .orders [] [] (.none rfl _) h.kept.unionOrders

theorem select (h : q.Balanced g) (name : String) : (q.select [.name name]).Balanced g :=
  ⟨h.aligned.select _ rfl, h.kept.select _ (ClauseKind.Backed.identifiers [.name name]).1⟩

theorem setLimit (h : q.Balanced g) (n : Nat) : (q.setLimit n).Balanced g :=
  ⟨h.aligned.setLimit n, h.kept.setLimit n⟩

theorem setOffset (h : q.Balanced g) (n : Nat) : (q.setOffset n).Balanced g :=
  ⟨h.aligned.setOffset n, h.kept.setOffset n⟩

theorem addComparison (h : q.Balanced g) (connective : Connective) (column : String)
    (operator : Operator) (operand : Operand Value) :
    (q.addComparison connective column operator operand).Balanced g :=
  ⟨h.aligned.addComparison connective column operator operand,
    h.kept.addComparison connective column operator operand⟩

theorem unwindowed (h : q.Balanced g) : q.unwindowed.Balanced g := by
  have ha := h.aligned.reorder
  have hk := h.kept.reorder
  exact ⟨⟨ha.grammar, ha.isJoin, ha.aggregate, ha.shows, ha.unionOrders, ha.others⟩,
    ⟨hk.grammar, hk.aggregate, hk.unionOrders, hk.backed⟩⟩

theorem derivedTable (h : q.Balanced g) (hs : q.sql = .ok s) {outer : Query}
    (ho : outer.Balanced g) (hb : outer.bindings.source = []) (label : String) :
    Balanced g
      ((outer.setSource (aliased s (g.wrapSegment label))).bind .source q.allBindings) := by
  rw [sql, h.aligned.grammar] at hs
  have hslots := h.aligned.slots_select hs
  have hfits := h.kept.fits_select hs
  constructor
  · refine ho.aligned.withPart .source (some (aliased s (g.wrapSegment label)))
      (outer.bindings.source ++ q.allBindings) (fun _ ↦ ?_) ho.aligned.unionOrders
      (by rintro ⟨⟩)
    rw [hb, List.nil_append]
    exact (values_aliased _ _).trans hslots
  · have hk := ho.kept.setSourceAliased hfits fun hd ↦ numbered_wrapSegment hd label
    have hbind : outer.bindings.extend .source q.allBindings =
        outer.bindings.set .source q.allBindings :=
      congrArg (outer.bindings.set .source) (congrArg (· ++ q.allBindings) hb)
    unfold Query.bind
    exact hbind ▸ hk

end building

/-- An aggregate has all its values unless it loses orderings with values, and it has the row
numbers that it asks for exactly if it is not one over a range of rows. -/
theorem of_counted (h : q.Balanced g) (hf : isFixed [] a.function.toList) {name : String}
    (hn : a.columns = [.name name])
    (hc : q.unions = [] → q.havings = [] → q.bindings.columns = [])
    (hs : (q.counted a).sql = .ok s) :
    (s.slots = (q.counted a).allBindings ↔ ¬ (q.CountsRange ∧ q.bindings.orders ≠ [])) ∧
      (g.dialect = .sqlServer → (s.RowsNumbered ↔ ¬ q.CountsRange)) ∧
      (q.CountsRange → q.AsksInVain g s) := by
  have hg : (q.counted a).grammar = g := h.aligned.grammar
  rw [sql, hg] at hs
  have hv : a.columns.flatMap Reference.values = [] := by
    rw [hn]
    rfl
  refine ⟨h.aligned.slots_counted hv hc hs, fun hd ↦ ?_, fun hr ↦ hr.asksInVain hg hs⟩
  have hcolumns : AllNumbered borders g.reference a.columns := by
    intro r hr s hs
    rw [hn] at hr
    obtain rfl := List.mem_singleton.1 hr
    exact (fits_name hs).numbered hd
  exact ⟨fun hn hr ↦ h.kept.not_rowsNumbered_counted hf hcolumns hr hs hn,
    fun hr ↦ h.kept.rowsNumbered_counted hd hf hcolumns hr hs⟩

end Query.Balanced

namespace Query

variable {g : Grammar} {q inner : Query} {s sql : Sql} {function name : String}

def unordered (q : Query) : Query :=
  if q.groups.isEmpty then q.withPart .orders [] [] else q

theorem setAggregate_eq (q : Query) (function : String) (columns : List Reference) :
    q.setAggregate function columns = q.unordered.counted ⟨function, columns⟩ := by
  unfold setAggregate unordered
  dsimp only
  split <;> rfl

theorem forAggregate_eq (q : Query) : q.forAggregate =
    if q.unions = [] ∧ q.havings = [] then q.withPart .columns none [] else q := by
  simp only [forAggregate, List.isEmpty_iff]
  rfl

theorem countsRange_unordered : q.unordered.CountsRange ↔ q.CountsRange := by
  unfold unordered
  split <;> rfl

theorem countsRange_forAggregate : q.forAggregate.CountsRange ↔ q.CountsRange := by
  rw [forAggregate_eq]
  split <;> rfl

theorem AsksInVain.of_unordered (h : q.unordered.AsksInVain g s) : q.AsksInVain g s := by
  unfold unordered at h
  split at h <;> exact h

theorem AsksInVain.of_forAggregate (h : q.forAggregate.AsksInVain g s) : q.AsksInVain g s := by
  rw [forAggregate_eq] at h
  split at h <;> exact h

theorem orders_unordered : q.unordered.bindings.orders ≠ [] ↔
    q.groups ≠ [] ∧ q.bindings.orders ≠ [] := by
  unfold unordered
  split
  · rename_i hgroups
    simp [withPart, Bindings.set, List.isEmpty_iff.1 hgroups]
  · rename_i hgroups
    simp [show q.groups ≠ [] from fun he ↦ hgroups (by simp [he])]

namespace Balanced

theorem unordered (h : q.Balanced g) : q.unordered.Balanced g := by
  unfold Query.unordered
  split
  · exact h.dropOrders
  · exact h

theorem forAggregate (h : q.Balanced g) : q.forAggregate.Balanced g := by
  rw [forAggregate_eq]
  split
  · exact h.dropColumns
  · exact h

/-- The same of the aggregate as it is set: orderings are only kept with groups. -/
theorem of_setAggregate (h : q.Balanced g) (hf : isFixed [] function.toList)
    (hc : q.unions = [] → q.havings = [] → q.bindings.columns = [])
    (hs : (q.setAggregate function [.name name]).sql = .ok s) :
    (s.slots = (q.setAggregate function [.name name]).allBindings ↔
        ¬ (q.CountsRange ∧ q.groups ≠ [] ∧ q.bindings.orders ≠ [])) ∧
      (g.dialect = .sqlServer → (s.RowsNumbered ↔ ¬ q.CountsRange)) ∧
      (q.CountsRange → q.AsksInVain g s) := by
  rw [setAggregate_eq] at hs ⊢
  rw [← countsRange_unordered, ← orders_unordered]
  have hcolumns : q.unordered.unions = [] → q.unordered.havings = [] →
      q.unordered.bindings.columns = [] := by
    unfold Query.unordered
    split <;> exact hc
  obtain ⟨hslots, hnumbered, hvain⟩ :=
    h.unordered.of_counted (a := ⟨function, [.name name]⟩) hf rfl hcolumns hs
  exact ⟨hslots, hnumbered, fun hr ↦ (hvain hr).of_unordered⟩

theorem of_aggregate (h : q.Balanced g) (hf : isFixed [] function.toList)
    (hs : (q.forAggregate.setAggregate function [.name name]).sql = .ok s) :
    (s.slots = (q.forAggregate.setAggregate function [.name name]).allBindings ↔
        ¬ (q.CountsRange ∧ q.groups ≠ [] ∧ q.bindings.orders ≠ [])) ∧
      (g.dialect = .sqlServer → (s.RowsNumbered ↔ ¬ q.CountsRange)) ∧
      (q.CountsRange → q.AsksInVain g s) := by
  have hq := h.forAggregate.of_setAggregate hf ?_ hs
  · rw [countsRange_forAggregate] at hq
    have hgroups : q.forAggregate.groups = q.groups := by
      rw [forAggregate_eq]
      split <;> rfl
    have horders : q.forAggregate.bindings.orders = q.bindings.orders := by
      rw [forAggregate_eq]
      split <;> rfl
    rw [hgroups, horders] at hq
    exact ⟨hq.1, hq.2.1, fun hr ↦ (hq.2.2 hr).of_forAggregate⟩
  · rw [forAggregate_eq]
    split
    · exact fun _ _ ↦ rfl
    · rename_i hn
      exact fun hu hh ↦ absurd ⟨hu, hh⟩ hn

/-- Where no rows are skipped, an aggregate is sound. -/
theorem of_setAggregate_of_windowless (h : q.Balanced g) (hf : isFixed [] function.toList)
    (hn : skipsRows q.toClauses = false)
    (hc : q.unions = [] → q.havings = [] → q.bindings.columns = [])
    (hs : (q.setAggregate function [.name name]).sql = .ok s) :
    s.slots = (q.setAggregate function [.name name]).allBindings ∧
      (g.dialect = .sqlServer → s.RowsNumbered) := by
  have hr : ¬ q.CountsRange := fun hr ↦ Bool.false_ne_true (hn.symm.trans hr.2.1)
  obtain ⟨hslots, hnumbered, -⟩ := h.of_setAggregate hf hc hs
  exact ⟨hslots.2 fun hm ↦ hr hm.1, fun hd ↦ (hnumbered hd).2 hr⟩

theorem of_derivedCount (h : q.Balanced g) (hq : inner.Balanced g) (hi : inner.sql = .ok sql)
    (hs : (((q.fresh.setSource (aliased sql (q.grammar.wrapSegment "aggregate_table"))).bind .source
      inner.allBindings).setAggregate "count" [.name "*"]).sql = .ok s) :
    s.slots = (((q.fresh.setSource (aliased sql (q.grammar.wrapSegment "aggregate_table"))).bind
        .source inner.allBindings).setAggregate "count" [.name "*"]).allBindings ∧
      (g.dialect = .sqlServer → s.RowsNumbered) := by
  have hg : q.grammar = g := h.aligned.grammar
  rw [hg] at hs ⊢
  exact (hq.derivedTable hi h.fresh rfl "aggregate_table").of_setAggregate_of_windowless (by decide)
    rfl (fun _ _ ↦ rfl) hs

theorem of_counting (h : q.Balanced g) {outer : Query} (ho : q.counting = .ok outer)
    (hs : outer.sql = .ok s) :
    s.slots = outer.allBindings ∧ (g.dialect = .sqlServer → s.RowsNumbered) := by
  have hall := h.unwindowed
  have hword : isFixed [] "count".toList := by decide
  unfold counting at ho
  dsimp only at ho
  split at ho
  · split at ho
    · cases ho
      exact hall.dropColumns.of_setAggregate_of_windowless hword rfl (fun _ _ ↦ rfl) hs
    · rename_i hu
      cases ho
      exact hall.of_setAggregate_of_windowless hword rfl
        (fun he ↦ absurd (List.isEmpty_iff.2 he) hu) hs
  · obtain ⟨inner, hinner, ho⟩ := bind_eq_ok.1 ho
    cases pure_eq_ok.1 ho
    refine h.of_derivedCount ?_ hinner hs
    split
    · split
      · exact hall
      · exact hall.select _
    · exact hall

end Balanced

end Query

end FluentSql
