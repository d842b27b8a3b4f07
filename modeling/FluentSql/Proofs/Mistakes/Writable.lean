import FluentSql.Proofs.Mistakes.Recorded
import FluentSql.Proofs.Slots.Select
import FluentSql.Proofs.Windows.Setting

namespace FluentSql

namespace Grammar

variable {g : Grammar} {q : Query} {c : Condition Query} {s : Sql}

theorem select_parts (h : g.select q = .ok s) :
    ∃ e : Embedded, q.joins.mapM g.joinOf = .ok e.joins ∧
      q.conditions.mapM g.conditionOf = .ok e.conditions ∧
      q.unions.mapM g.memberOf = .ok e.unions ∧ q.assemble g e = .ok s := by
  obtain ⟨c, joins, conditions, unions⟩ := q
  simp only [select, bind_eq_ok] at h
  obtain ⟨-, -, js, hj, cs, hc, us, hu, hs⟩ := h
  rw [joinList_eq_mapM] at hj
  rw [conditionList_eq_mapM] at hc
  rw [memberList_eq_mapM] at hu
  exact ⟨⟨js, cs, us⟩, hj, hc, hu, hs⟩

theorem exists_test {conditions : List (Condition Query)} {cs : List (Connective × Sql)}
    (h : conditions.mapM g.conditionOf = .ok cs) (hc : c ∈ conditions) :
    ∃ s, g.test c.test = .ok s := by
  obtain ⟨_, -, hs⟩ := exists_mem_of_mapM h hc
  obtain ⟨s, hs, -⟩ := bind_eq_ok.1 hs
  exact ⟨s, hs⟩

def Compared (g : Grammar) (q : Query) : Prop :=
  (∃ js, q.joins.mapM g.joinOf = .ok js) ∧ ∃ cs, q.conditions.mapM g.conditionOf = .ok cs

theorem compared_select (h : g.select q = .ok s) : g.Compared q := by
  obtain ⟨e, hj, hc, -⟩ := select_parts h
  exact ⟨⟨_, hj⟩, ⟨_, hc⟩⟩

theorem compared_join {j : Join Query} (h : g.Compared q) (hj : j ∈ q.joins) :
    g.Compared j.clause := by
  obtain ⟨js, hjs⟩ := h.1
  obtain ⟨_, -, hs⟩ := exists_mem_of_mapM hjs hj
  simp only [joinOf, bind_eq_ok, joinList_eq_mapM, conditionList_eq_mapM] at hs
  obtain ⟨js, hjs, cs, hcs, -⟩ := hs
  exact ⟨⟨js, hjs⟩, ⟨cs, hcs⟩⟩

mutual

theorem written_of_involves : ∀ {q p : Query} {s : Sql}, q.Involves p → g.select q = .ok s →
    ∃ s, g.select p = .ok s
  | _, _, s, .self _, h => ⟨s, h⟩
  | _, _, _, .member hm hp, h => by
    obtain ⟨e, -, -, hu, -⟩ := select_parts h
    obtain ⟨_, -, hs⟩ := exists_mem_of_mapM hu hm
    obtain ⟨t, ht, -⟩ := bind_eq_ok.1 hs
    exact written_of_involves hp ht
  | _, _, _, .compared hp, h => written_of_compares hp (compared_select h)

theorem written_of_compares : ∀ {q p : Query}, q.Compares p → g.Compared q →
    ∃ s, g.select p = .ok s
  | _, _, .condition hc hp, h => by
    obtain ⟨cs, hcs⟩ := h.2
    obtain ⟨t, ht⟩ := exists_test hcs hc
    exact written_of_test hp ht
  | _, _, .join hj hp, h => written_of_compares hp (compared_join h hj)

theorem written_of_test : ∀ {t : Test Query} {p : Query} {s : Sql}, t.Compares p →
    g.test t = .ok s → ∃ s, g.select p = .ok s
  | _, _, _, .isInQuery hp, h => by
    simp only [test, bind_eq_ok] at h
    obtain ⟨_, -, t, ht, -⟩ := h
    exact written_of_involves hp ht
  | _, _, _, .query hp, h => by
    simp only [test, bind_eq_ok] at h
    obtain ⟨_, -, t, ht, -⟩ := h
    exact written_of_involves hp ht
  | _, _, _, .existence hp, h => by
    simp only [test, bind_eq_ok] at h
    obtain ⟨t, ht, -⟩ := h
    exact written_of_involves hp ht
  | .nested ⟨_, _, _, _⟩, _, _, .nested hc hp, h => by
    simp only [test, bind_eq_ok, conditionList_eq_mapM] at h
    obtain ⟨cs, hcs, -⟩ := h
    obtain ⟨t, ht⟩ := exists_test hcs hc
    exact written_of_test hp ht

end

theorem select_skipsUnion (hg : g.dialect = .sqlServer) (h : q.SkipsUnion) :
    g.select q ≠ .ok s := by
  intro hs
  obtain ⟨e, -, -, hu, hs⟩ := select_parts hs
  have hne : e.unions ≠ [] := fun he ↦ h.2 ((memberList_eq_nil (memberList_eq_mapM _ ▸ hu)).1 he)
  have hplain {c : Clauses} (hc : Query.skipsRows c) (t : Sql) : c.plain g e ≠ .ok t := by
    unfold Clauses.plain
    dsimp only
    rw [if_pos ⟨⟨hg, hc⟩, by simpa using hne⟩]
    nofun
  unfold Clauses.assemble at hs
  split at hs
  · split at hs
    · exact hplain h.1 s hs
    · obtain ⟨_, -, hs⟩ := bind_eq_ok.1 hs
      obtain ⟨t, ht, -⟩ := bind_eq_ok.1 hs
      exact hplain (c := { q.toClauses with aggregate := none }) h.1 t ht
  · exact hplain h.1 s hs

end Grammar

namespace Query

/-- A query without a mistake is written by every dialect that is named, other than SQL Server. That
fails on it if and only if it, or a query that is written along with it, skips rows of a union. -/
theorem sql_fails_iff (g : Grammar) (macros : Macros) (steps : List Step) :
    let q := (run { grammar := g, macros } steps).1
    q.mistake = none →
      (g.dialect = .mysql ∨ g.dialect = .postgres ∨ g.dialect = .sqlite → ∃ s, q.sql = .ok s) ∧
      (g.dialect = .sqlServer →
        ((∃ e, q.sql = .error e) ↔ ∃ p, q.Involves p ∧ p.SkipsUnion) ∧
        ∀ e, q.sql = .error e → e = .generation .offsetOfUnion) := by
  intro q hm
  have hspotless : q.Spotless := ((told_run _ steps).made (spotless_start g macros)).spotless hm
  have hg : q.grammar = g := congrArg Prod.fst (setting_run { grammar := g, macros } steps)
  have hselect : HinderedBy (g.Obstructs q.Involves) q.sql := by
    rw [Query.sql, hg]
    exact g.hindered_select q hspotless fun _ ↦ id
  refine ⟨fun hd ↦ hselect.exists_ok ?_, fun hd ↦ ⟨⟨?_, ?_⟩, fun e he ↦ ?_⟩⟩
  · rintro _ (⟨hgeneric, -⟩ | ⟨-, hserver, -⟩) <;> simp_all
  · rintro ⟨e, he⟩
    obtain ⟨reason, ⟨hgeneric, -⟩ | ⟨-, -, hp⟩, -⟩ := hselect e he
    · simp [hd] at hgeneric
    · exact hp
  · rintro ⟨p, hp, hskips⟩
    cases hs : q.sql with
    | error e => exact ⟨e, rfl⟩
    | ok s =>
      rw [Query.sql, hg] at hs
      obtain ⟨t, ht⟩ := Grammar.written_of_involves hp hs
      exact absurd ht (Grammar.select_skipsUnion hd hskips)
  · obtain ⟨reason, ⟨hgeneric, -⟩ | ⟨rfl, -⟩, rfl⟩ := hselect e he
    · simp [hd] at hgeneric
    · rfl

def buried : List Step := [
  .source (.name "users"),
  .joinWith .inner (.name "posts") [.nest .and [.isNull .and false "gone", .exist .or false [
    .source (.name "videos"), .offset 5, .unite false [.source (.name "films")]]]]]

theorem sql_fails_buried :
    let server := (run { grammar := { dialect := .sqlServer } } buried).1
    let lite := (run { grammar := { dialect := .sqlite } } buried).1
    server.mistake = none ∧ server.sql = .error (.generation .offsetOfUnion) ∧
      lite.mistake = none ∧ ∃ s, lite.sql = .ok s := by
  intro server lite
  have hserver : server.mistake = none := rfl
  obtain ⟨hiff, herror⟩ := (sql_fails_iff { dialect := .sqlServer } {} buried hserver).2 rfl
  obtain ⟨e, he⟩ := hiff.2 ⟨_, .compared (.join List.mem_cons_self (.condition List.mem_cons_self
    (.nested (.tail _ List.mem_cons_self) (.existence (.self _))))), rfl, nofun⟩
  have hlite : lite.mistake = none := rfl
  exact ⟨hserver, herror e he ▸ he, hlite,
    (sql_fails_iff { dialect := .sqlite } {} buried hlite).1 (.inr (.inr rfl))⟩

end Query

end FluentSql
