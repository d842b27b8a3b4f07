import FluentSql.Proofs.Windows.Framed
import FluentSql.Proofs.Numbering.Scanning
import Std.Data.String.ToNat

namespace FluentSql

open Text (isDigit)
open Placeholders (isDigit_of_mem_toString)

section

variable {c : Char} {a a' r r' : List Char}

theorem append_cons_inj (ha : c ∉ a) (ha' : c ∉ a') (h : a ++ c :: r = a' ++ c :: r') :
    a = a' ∧ r = r' := by
  induction a generalizing a' with
  | nil =>
    cases a' with
    | nil => exact ⟨rfl, (List.cons.inj h).2⟩
    | cons d a' => exact absurd ((List.cons.inj h).1 ▸ List.mem_cons_self) ha'
  | cons d a ih =>
    cases a' with
    | nil => exact absurd ((List.cons.inj h).1 ▸ List.mem_cons_self) ha
    | cons d' a' =>
      obtain ⟨rfl, ht⟩ := List.cons.inj h
      obtain ⟨rfl, hr⟩ := ih (fun hc ↦ ha (List.mem_cons_of_mem _ hc))
        (fun hc ↦ ha' (List.mem_cons_of_mem _ hc)) ht
      exact ⟨rfl, hr⟩

/-- The character need not be known by its place: the first one in the middle tells the two sides
apart. -/
theorem append_middle_inj {m : List Char} (hm : c ∈ m) (ha : c ∉ a) (ha' : c ∉ a')
    (h : a ++ (m ++ r) = a' ++ (m ++ r')) : a = a' ∧ r = r' := by
  obtain ⟨front, back, rfl, hf⟩ := List.eq_append_cons_of_mem hm
  have hc : c ∉ a ++ front := by simp [ha, hf]
  have hc' : c ∉ a' ++ front := by simp [ha', hf]
  obtain ⟨h₁, h₂⟩ := append_cons_inj hc hc' (by simpa using h)
  exact ⟨List.append_cancel_right h₁, List.append_cancel_left h₂⟩

end

section

variable {ss ts : List String}

theorem toList_spaced_cons (s : String) (ss : List String) :
    (spaced (s :: ss)).toList = ' ' :: (s.toList ++ (spaced ss).toList) := by
  rw [spaced, String.toList_append, String.toList_append]
  rfl

theorem exists_blank_spaced (ss : List String) : ∃ r, (spaced ss).toList ++ [' '] = ' ' :: r := by
  cases ss with
  | nil => exact ⟨[], rfl⟩
  | cons s ss =>
    rw [toList_spaced_cons]
    exact ⟨_, rfl⟩

theorem spaced_inj (hs : ∀ s ∈ ss, ' ' ∉ s.toList) (ht : ∀ t ∈ ts, ' ' ∉ t.toList)
    (h : spaced ss = spaced ts) : ss = ts := by
  induction ss generalizing ts with
  | nil =>
    cases ts with
    | nil => rfl
    | cons t ts =>
      have h := congrArg String.toList h
      rw [toList_spaced_cons] at h
      cases h
  | cons s ss ih =>
    cases ts with
    | nil =>
      have h := congrArg String.toList h
      rw [toList_spaced_cons] at h
      cases h
    | cons t ts =>
      have h := congrArg String.toList h
      rw [toList_spaced_cons, toList_spaced_cons] at h
      -- With one more blank at the end, a blank stands behind the first word in either case.
      obtain ⟨r, hr⟩ := exists_blank_spaced ss
      obtain ⟨r', hr'⟩ := exists_blank_spaced ts
      have he : s.toList ++ ' ' :: r = t.toList ++ ' ' :: r' := by
        rw [← hr, ← hr', ← List.append_assoc, ← List.append_assoc, (List.cons.inj h).2]
      obtain ⟨hst, hrest⟩ := append_cons_inj (hs s List.mem_cons_self) (ht t List.mem_cons_self) he
      have hrest : (spaced ss).toList ++ [' '] = (spaced ts).toList ++ [' '] := by
        rw [hr, hr', hrest]
      rw [String.toList_inj.1 hst, ih (fun s h ↦ hs s (List.mem_cons_of_mem _ h))
        (fun t h ↦ ht t (List.mem_cons_of_mem _ h))
        (String.toList_inj.1 (List.append_cancel_right hrest))]

end

theorem toString_inj {n m : Nat} (h : toString n = toString m) : n = m :=
  Nat.repr_injective h

namespace Bound

def tokens (limit offset : Option Nat) : List String :=
  limit.toList.flatMap (fun n ↦ ["limit", toString n]) ++
    offset.toList.flatMap fun n ↦ ["offset", toString n]

theorem spaced_words (limit offset : Option Nat) :
    spaced (clauses limit offset).words = spaced (tokens limit offset) := by
  have hl (s : String) : "limit" ++ (" " ++ s) = "limit " ++ s := by
    rw [← String.append_assoc]
    rfl
  have ho (s : String) : "offset" ++ (" " ++ s) = "offset " ++ s := by
    rw [← String.append_assoc]
    rfl
  cases limit <;> cases offset <;>
    simp only [words, tokens, Option.map_none, Option.map_some, Option.toList_none,
      Option.toList_some, List.flatMap_nil, List.flatMap_singleton, List.nil_append,
      List.cons_append, spaced, String.append_assoc, hl, ho]

theorem tokens_inj {limit offset limit' offset' : Option Nat}
    (h : tokens limit offset = tokens limit' offset') : limit = limit' ∧ offset = offset' := by
  cases limit <;> cases offset <;> cases limit' <;> cases offset' <;>
    simp_all [tokens]

theorem notMem_toString {c : Char} (hc : isDigit c = false) (n : Nat) :
    c ∉ (toString n).toList := by
  intro hn
  rw [isDigit_of_mem_toString hn] at hc
  cases hc

theorem notMem_tokens {c : Char} (hc : isDigit c = false) (hl : c ∉ "limit".toList)
    (ho : c ∉ "offset".toList) {limit offset : Option Nat} :
    ∀ s ∈ tokens limit offset, c ∉ s.toList := by
  intro s hs
  simp only [tokens, List.mem_append, List.mem_flatMap, List.mem_cons, List.not_mem_nil,
    or_false] at hs
  rcases hs with ⟨n, -, rfl | rfl⟩ | ⟨n, -, rfl | rfl⟩
  · exact hl
  · exact notMem_toString hc n
  · exact ho
  · exact notMem_toString hc n

theorem notMem_spaced {c : Char} (hc : c ≠ ' ') {ss : List String} (h : ∀ s ∈ ss, c ∉ s.toList) :
    c ∉ (spaced ss).toList := by
  induction ss with
  | nil => exact List.not_mem_nil
  | cons s ss ih =>
    rw [toList_spaced_cons, List.mem_cons, List.mem_append, not_or, not_or]
    exact ⟨hc, h s List.mem_cons_self, ih fun t ht ↦ h t (List.mem_cons_of_mem _ ht)⟩

theorem notMem_spaced_words (limit offset : Option Nat) :
    ')' ∉ (spaced (clauses limit offset).words).toList := by
  rw [spaced_words]
  exact notMem_spaced (by decide) (notMem_tokens (by decide) (by decide) (by decide))

theorem spaced_words_inj {limit offset limit' offset' : Option Nat}
    (h : spaced (clauses limit offset).words = spaced (clauses limit' offset').words) :
    limit = limit' ∧ offset = offset' := by
  rw [spaced_words, spaced_words] at h
  have hb {l o : Option Nat} : ∀ s ∈ tokens l o, ' ' ∉ s.toList :=
    notMem_tokens (by decide) (by decide) (by decide)
  exact tokens_inj (spaced_inj hb hb h)

def conditionTokens (low : Nat) : Option Nat → List String
  | some high => ["between", toString low, "and", toString high]
  | none => [">=", toString low]

theorem spaced_conditionTokens (low : Nat) (high : Option Nat) :
    spaced (conditionTokens low high) = " " ++ condition low high := by
  have hb (s : String) : "between" ++ (" " ++ s) = "between " ++ s := by
    rw [← String.append_assoc]
    rfl
  have ha (s : String) : " " ++ ("and" ++ (" " ++ s)) = " and " ++ s := by
    rw [← String.append_assoc, ← String.append_assoc]
    rfl
  have hg (s : String) : ">=" ++ (" " ++ s) = ">= " ++ s := by
    rw [← String.append_assoc]
    rfl
  cases high <;>
    simp only [conditionTokens, condition, spaced, String.append_assoc, String.append_empty, hb, ha,
      hg]

theorem condition_inj {low low' : Nat} {high high' : Option Nat}
    (h : condition low high = condition low' high') : low = low' ∧ high = high' := by
  have hb (l : Nat) (u : Option Nat) : ∀ s ∈ conditionTokens l u, ' ' ∉ s.toList := by
    intro s hs
    cases u <;> simp only [conditionTokens, List.mem_cons, List.not_mem_nil, or_false] at hs
    · rcases hs with rfl | rfl
      · decide
      · exact notMem_toString (by decide) l
    · rcases hs with rfl | rfl | rfl | rfl
      · decide
      · exact notMem_toString (by decide) l
      · decide
      · exact notMem_toString (by decide) _
  have ht : conditionTokens low high = conditionTokens low' high' := by
    refine spaced_inj (hb low high) (hb low' high') ?_
    rw [spaced_conditionTokens, spaced_conditionTokens, h]
  cases high <;> cases high' <;> simp_all [conditionTokens]

end Bound

namespace Frame

variable {f : Frame}

theorem withClauses_eq (words : List String) :
    f.withClauses words = f.verb ++ f.columns ++ spaced (f.middle ++ f.orders.toList) ++
      spaced words ++ spaced f.lock.toList := by
  simp only [withClauses, spaced_append, String.append_assoc]

theorem length_withClauses_nil : (f.withClauses []).length =
    f.verb.length + f.columns.length + (spaced f.middle).length +
      (spaced f.orders.toList).length + (spaced f.lock.toList).length := by
  simp only [withClauses, List.nil_append, spaced_append, String.length_append]
  omega

theorem length_lt_withTop (n : Nat) : (f.withClauses []).length < (f.withTop n).length := by
  have h : 0 < "top ".length := by decide
  rw [length_withClauses_nil]
  simp only [withTop, spaced_append, String.length_append]
  omega

theorem length_lt_withRange (low : Nat) (high : Option Nat) :
    (f.withClauses []).length < (f.withRange low high).length := by
  have h : 0 < "select * from (".length := by decide
  have hb : " ".length ≤ ", row_number() over (".length := by decide
  have ho : (spaced f.orders.toList).length ≤
      " ".length + (f.orders.getD "order by (select 0)").length := by
    cases f.orders with
    | none => exact Nat.zero_le _
    | some s =>
      simp only [Option.toList_some, spaced, String.append_empty, String.length_append,
        Option.getD_some]
      exact le_rfl
  rw [length_withClauses_nil]
  unfold withRange
  simp only [spaced_append, String.length_append]
  omega

/-- Behind `select `, what is numbered goes on with a star, anything else with a letter. -/
theorem withTop_ne_withRange (n low : Nat) (high : Option Nat) :
    f.withTop n ≠ f.withRange low high := by
  intro h
  have hr : "select * from (".toList = "select ".toList ++ '*' :: " from (".toList := by decide
  have hd : "select distinct ".toList = "select ".toList ++ 'd' :: "istinct ".toList := by decide
  have ht : "top ".toList = 't' :: "op ".toList := by decide
  have h := congrArg String.toList h
  unfold withTop withRange verb at h
  simp only [String.toList_append, List.append_assoc, hr] at h
  split at h
  · rw [hd, List.append_assoc] at h
    exact absurd (List.cons.inj (List.append_cancel_left h)).1 (by decide)
  · rw [ht] at h
    exact absurd (List.cons.inj (List.append_cancel_left h)).1 (by decide)

theorem withTop_inj {n n' : Nat} (h : f.withTop n = f.withTop n') : n = n' := by
  have h := congrArg String.toList h
  simp only [withTop, String.toList_append, List.append_assoc] at h
  have h := List.append_cancel_left (List.append_cancel_left h)
  exact Nat.repr_injective (String.toList_inj.1 (List.append_cancel_right h))

theorem withRange_inj {low low' : Nat} {high high' : Option Nat}
    (h : f.withRange low high = f.withRange low' high') : low = low' ∧ high = high' := by
  have h := congrArg String.toList h
  unfold withRange at h
  simp only [String.toList_append] at h
  have h := List.append_cancel_left (List.append_cancel_right h)
  exact Bound.condition_inj (String.toList_inj.1 h)

/-- A bound without clauses is read off the text. -/
theorem write_inj {b b' : Bound} (hb : b.words = []) (hb' : b'.words = [])
    (h : f.write b = f.write b') : b = b' := by
  have hnone {l o : Option Nat} (hw : (Bound.clauses l o).words = []) : l = none ∧ o = none := by
    cases l <;> cases o <;> simp_all [Bound.words]
  cases b with
  | clauses l o =>
    obtain ⟨rfl, rfl⟩ := hnone hb
    cases b' with
    | clauses l' o' =>
      obtain ⟨rfl, rfl⟩ := hnone hb'
      rfl
    | top n' => exact absurd (congrArg String.length h) (length_lt_withTop n').ne
    | range low' high' => exact absurd (congrArg String.length h) (length_lt_withRange _ _).ne
  | top n =>
    cases b' with
    | clauses l' o' =>
      obtain ⟨rfl, rfl⟩ := hnone hb'
      exact absurd (congrArg String.length h) (length_lt_withTop n).ne'
    | top n' => rw [withTop_inj h]
    | range low' high' => exact absurd h (withTop_ne_withRange n low' high')
  | range low high =>
    cases b' with
    | clauses l' o' =>
      obtain ⟨rfl, rfl⟩ := hnone hb'
      exact absurd (congrArg String.length h) (length_lt_withRange _ _).ne'
    | top n' => exact absurd h.symm (withTop_ne_withRange n' low high)
    | range low' high' =>
      obtain ⟨rfl, rfl⟩ := withRange_inj h
      rfl

end Frame

namespace Layout

variable {l : Layout} {g : Grammar} {w w' : Windows}

theorem write_of_none (hl : l.combination = none) (own union : Bound) :
    l.write own union = l.first.write own := by
  simp only [write, hl]

theorem toList_write_of_some {c : Combination} (hl : l.combination = some c) (own union : Bound) :
    (l.write own union).toList = c.opening.toList ++ ((l.first.write own).toList ++
      (c.closing.toList ++ ((spaced (c.members ++ c.orders.toList)).toList ++
        (spaced union.words).toList))) := by
  simp only [write, hl, ← List.append_assoc, spaced_append, String.toList_append]

theorem toList_write_clauses (f : Frame) (limit offset : Option Nat) :
    (f.write (.clauses limit offset)).toList =
      (f.verb ++ f.columns ++ spaced (f.middle ++ f.orders.toList)).toList ++
        ((spaced (Bound.clauses limit offset).words).toList ++ (spaced f.lock.toList).toList) := by
  rw [Frame.write, Frame.withClauses_eq, String.toList_append, String.toList_append,
    List.append_assoc]

/-- Between the clauses of the two windows stands a closing parenthesis, which none of them has. -/
theorem clauses_inj {limit offset limit' offset' unionLimit unionOffset unionLimit' unionOffset' :
    Option Nat} (h : l.write (.clauses limit offset) (.clauses unionLimit unionOffset) =
      l.write (.clauses limit' offset') (.clauses unionLimit' unionOffset')) :
    (limit = limit' ∧ offset = offset') ∧
      (l.combination ≠ none → unionLimit = unionLimit' ∧ unionOffset = unionOffset') := by
  have h := congrArg String.toList h
  cases hl : l.combination with
  | none =>
    rw [write_of_none hl, write_of_none hl, toList_write_clauses, toList_write_clauses] at h
    have hw := List.append_cancel_right (List.append_cancel_left h)
    exact ⟨Bound.spaced_words_inj (String.toList_inj.1 hw), fun hne ↦ absurd rfl hne⟩
  | some c =>
    rw [toList_write_of_some hl, toList_write_of_some hl, toList_write_clauses,
      toList_write_clauses] at h
    simp only [List.append_assoc] at h
    have h := List.append_cancel_left (List.append_cancel_left h)
    have hm : ')' ∈ (spaced l.first.lock.toList).toList ++ (c.closing.toList ++
        (spaced (c.members ++ c.orders.toList)).toList) := by
      simp [c.closes]
    obtain ⟨hown, hunion⟩ := append_middle_inj hm (Bound.notMem_spaced_words _ _)
      (Bound.notMem_spaced_words _ _) (by simpa only [List.append_assoc] using h)
    exact ⟨Bound.spaced_words_inj (String.toList_inj.1 hown),
      fun _ ↦ Bound.spaced_words_inj (String.toList_inj.1 hunion)⟩

theorem words_bound (hs : g.dialect = .sqlServer) (w : Window) : (g.bound w).words = [] := by
  simp only [Grammar.bound, hs]
  split
  · rfl
  · rcases w.limit with _ | _ | n <;> rfl

/-- In one layout, what is written for two pairs of windows is the same only if the windows are
bounded in the same way. -/
theorem bounds_inj (h : l.write (g.bound w.own) (g.unionBound w.union) =
      l.write (g.bound w'.own) (g.unionBound w'.union)) :
    g.bound w.own = g.bound w'.own ∧
      (l.combination ≠ none → g.unionBound w.union = g.unionBound w'.union) := by
  by_cases hs : g.dialect = .sqlServer
  · have hu : g.unionBound w.union = g.unionBound w'.union := by
      simp only [Grammar.unionBound, hs]
    refine ⟨l.first.write_inj (words_bound hs _) (words_bound hs _) ?_, fun _ ↦ hu⟩
    cases hl : l.combination with
    | none => rwa [write_of_none hl, write_of_none hl] at h
    | some c =>
      have h := congrArg String.toList h
      rw [toList_write_of_some hl, toList_write_of_some hl, hu] at h
      exact String.toList_inj.1 (List.append_cancel_right (List.append_cancel_left h))
  · simp only [Grammar.bound_of_ne hs, Grammar.unionBound_of_ne hs] at h ⊢
    obtain ⟨⟨hl, ho⟩, hunion⟩ := clauses_inj h
    refine ⟨by rw [hl, ho], fun hc ↦ ?_⟩
    obtain ⟨hl, ho⟩ := hunion hc
    rw [hl, ho]

end Layout

namespace Window

variable {w w' : Window}

theorem mem_positions {i : Nat} :
    i ∈ w.positions ↔ w.skip ≤ i ∧ ∀ n ∈ w.limit, i < w.skip + n := Iff.rfl

/-- Of rows that are their own positions, those at the positions of the window are returned. -/
theorem mem_rows_range {n i : Nat} : i ∈ w.rows (List.range n) ↔ i < n ∧ i ∈ w.positions := by
  rw [mem_positions]
  unfold rows
  cases w.limit with
  | none =>
    rw [List.range_eq_range', List.drop_range', List.mem_range'_1]
    simp only [Option.not_mem_none, false_implies, implies_true, and_true]
    omega
  | some m =>
    change i ∈ ((List.range n).drop w.skip).take m ↔ _
    rw [List.take_drop, List.take_range, List.range_eq_range', List.drop_range', List.mem_range'_1]
    simp only [Option.mem_def, Option.some.injEq, forall_eq']
    omega

theorem positions_eq_of_rows (h : ∀ l : List Nat, w.rows l = w'.rows l) :
    w.positions = w'.positions := by
  ext i
  have hi := mem_rows_range (w := w) (n := i + 1) (i := i)
  rw [h, mem_rows_range] at hi
  simpa using hi.symm

end Window

end FluentSql
