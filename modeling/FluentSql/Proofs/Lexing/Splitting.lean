import FluentSql.Grammar.Quoting
import Mathlib.Data.List.DropRight
import Mathlib.Data.List.Infix
import Mathlib.Tactic.Common

namespace FluentSql.Text

variable {mark s t before after : List Char} {ss : List (List Char)} {c quote : Char}

section firstMark

theorem splitFirst?_eq_none_iff : splitFirst? mark s = none ↔ ¬ mark <:+: s := by
  induction s with
  | nil => cases mark <;> simp [splitFirst?]
  | cons c s ih =>
    rw [splitFirst?, List.infix_cons_iff]
    split
    · rename_i hp
      simp [List.isPrefixOf_iff_prefix.1 hp]
    · rename_i hp
      rw [List.isPrefixOf_iff_prefix] at hp
      simp [hp, ih]

theorem contains_iff : contains mark s ↔ mark <:+: s := by
  rw [contains, Option.isSome_iff_ne_none, ne_eq, splitFirst?_eq_none_iff, not_not]

theorem length_le_of_splitFirst? (h : splitFirst? mark s = some (before, after))
    {before' after' : List Char} (hs : s = before' ++ mark ++ after') :
    before.length ≤ before'.length := by
  induction s generalizing before before' with
  | nil =>
    simp only [splitFirst?] at h
    split at h
    · cases h
      exact Nat.zero_le _
    · cases h
  | cons c s ih =>
    rw [splitFirst?] at h
    split at h
    · cases h
      exact Nat.zero_le _
    · rename_i hp
      obtain ⟨⟨b, a⟩, hb, hpair⟩ := Option.map_eq_some_iff.1 h
      cases hpair
      cases before' with
      | nil => exact absurd (List.isPrefixOf_iff_prefix.2 ⟨after', by simpa using hs.symm⟩) hp
      | cons d before' =>
        have hs' : s = before' ++ mark ++ after' := by simpa using (List.cons.inj hs).2
        exact Nat.succ_le_succ (ih hb hs')

theorem not_infix_of_splitFirst? (hm : mark ≠ []) (h : splitFirst? mark s = some (before, after)) :
    ¬ mark <:+: before := by
  rintro ⟨x, y, rfl⟩
  have hs : s = x ++ mark ++ (y ++ mark ++ after) := by
    simpa using eq_append_of_splitFirst? h
  have hle := length_le_of_splitFirst? h hs
  have hpos := List.length_pos_iff.2 hm
  simp only [List.length_append] at hle
  omega

theorem splitFirst?_append {d : Char} (hcd : c ≠ d) (h : ¬ [c, d] <:+: s) (after : List Char) :
    splitFirst? [c, d] (s ++ [c, d] ++ after) = some (s, after) := by
  induction s with
  | nil => simp [splitFirst?]
  | cons e s ih =>
    rw [List.infix_cons_iff, not_or] at h
    have hp : ¬ [c, d].isPrefixOf (e :: (s ++ [c, d] ++ after)) := by
      rw [List.isPrefixOf_iff_prefix, List.cons_prefix_cons]
      rintro ⟨rfl, hd⟩
      cases s with
      | nil => exact hcd.symm (List.cons_prefix_cons.1 hd).1
      | cons f s =>
        obtain rfl := (List.cons_prefix_cons.1 hd).1
        exact h.1 ⟨s, rfl⟩
    rw [List.cons_append, List.cons_append, splitFirst?, if_neg hp, ih h.2]
    rfl

end firstMark

section segments

theorem segmentsAfter_eq (mark : List Char) (skip : Nat) (s : List Char) :
    segmentsAfter mark skip s = segments mark (s.drop skip) := by
  induction skip generalizing s with
  | zero => rfl
  | succ skip ih =>
    cases s with
    | nil => simp [segmentsAfter, segments]
    | cons c s => simpa [segmentsAfter] using ih s

theorem segments_ne_nil (mark s : List Char) : segments mark s ≠ [] :=
  segmentsAfter_ne_nil mark s 0

theorem segments_eq (hm : mark ≠ []) (s : List Char) : segments mark s =
    match splitFirst? mark s with
    | none => [s]
    | some (before, after) => before :: segments mark after := by
  induction s with
  | nil => simp [segments, segmentsAfter, splitFirst?, hm]
  | cons c s ih =>
    rw [segments, segmentsAfter, splitFirst?]
    split
    · rw [segmentsAfter_eq]
      obtain ⟨m, mark, rfl⟩ := List.exists_cons_of_ne_nil hm
      rfl
    · rw [← segments, ih]
      cases splitFirst? mark s <;> rfl

theorem length_lt_of_splitFirst? (hm : mark ≠ []) (h : splitFirst? mark s = some (before, after)) :
    after.length < s.length := by
  have hpos := List.length_pos_iff.2 hm
  rw [eq_append_of_splitFirst? h]
  simp only [List.length_append]
  omega

theorem not_infix_of_mem_segments (hm : mark ≠ []) {s t : List Char} (h : t ∈ segments mark s) :
    ¬ mark <:+: t := by
  rw [segments_eq hm] at h
  split at h
  · rename_i hs
    rw [List.mem_singleton.1 h]
    exact splitFirst?_eq_none_iff.1 hs
  · rename_i before after hs
    rcases List.mem_cons.1 h with rfl | h
    · exact not_infix_of_splitFirst? hm hs
    · have := length_lt_of_splitFirst? hm hs
      exact not_infix_of_mem_segments hm h
termination_by s.length

theorem segments_eq_splitOn (c : Char) (s : List Char) : segments [c] s = s.splitOn c := by
  have hm : [c] ≠ [] := List.cons_ne_nil c []
  have hc : ∀ t ∈ segments [c] s, c ∉ t := fun t ht hmem ↦
    not_infix_of_mem_segments hm ht ((List.singleton_infix_iff c t).2 hmem)
  rw [← List.splitOn_intercalate c hc (segments_ne_nil _ _), intercalate_segments hm]

theorem segments_intercalate {d : Char} (hcd : c ≠ d) (hss : ss ≠ []) (h : ∀ s ∈ ss, ¬ [c, d] <:+: s) :
    segments [c, d] ([c, d].intercalate ss) = ss := by
  have hm : [c, d] ≠ [] := List.cons_ne_nil c [d]
  induction ss with
  | nil => exact absurd rfl hss
  | cons s rest ih =>
    by_cases hrest : rest = []
    · subst hrest
      rw [List.intercalate_singleton, segments_eq hm,
        splitFirst?_eq_none_iff.2 (h s List.mem_cons_self)]
    · rw [List.intercalate_cons_of_ne_nil hrest, segments_eq hm,
        splitFirst?_append hcd (h s List.mem_cons_self)]
      exact congrArg (s :: ·) (ih hrest fun t ht ↦ h t (List.mem_cons_of_mem _ ht))

end segments

section doubled

def undouble (quote : Char) : List Char → List Char
  | c :: d :: s =>
    if c = quote ∧ d = quote then quote :: undouble quote s else c :: undouble quote (d :: s)
  | s => s

theorem undouble_cons_of_ne (hc : c ≠ quote) (s : List Char) :
    undouble quote (c :: s) = c :: undouble quote s := by
  cases s <;> simp [undouble, hc]

theorem double_cons_of_ne (hc : c ≠ quote) (s : List Char) :
    double quote (c :: s) = c :: double quote s := by
  rw [double, if_neg hc]

theorem double_cons_self (quote : Char) (s : List Char) :
    double quote (quote :: s) = quote :: quote :: double quote s := by
  rw [double, if_pos rfl]

theorem undouble_double (quote : Char) (s : List Char) : undouble quote (double quote s) = s := by
  induction s with
  | nil => rfl
  | cons c s ih =>
    by_cases hc : c = quote
    · subst hc
      rw [double_cons_self]
      simp [undouble, ih]
    · rw [double_cons_of_ne hc, undouble_cons_of_ne hc, ih]

theorem double_append (quote : Char) (s t : List Char) :
    double quote (s ++ t) = double quote s ++ double quote t := by
  induction s with
  | nil => rfl
  | cons c s ih =>
    rw [List.cons_append, double, double, ih]
    split <;> rfl

theorem double_of_notMem (h : quote ∉ s) : double quote s = s := by
  induction s with
  | nil => rfl
  | cons c s ih =>
    have hc : c ≠ quote := fun he ↦ h (he ▸ List.mem_cons_self)
    rw [double_cons_of_ne hc, ih fun hs ↦ h (List.mem_cons_of_mem _ hs)]

theorem mem_double {d : Char} : d ∈ double quote s ↔ d ∈ s := by
  induction s with
  | nil => rfl
  | cons c s ih =>
    rw [double]
    split <;> simp [ih]

theorem head?_double (quote : Char) (s : List Char) : (double quote s).head? = s.head? := by
  cases s with
  | nil => rfl
  | cons c s =>
    rw [double]
    split <;> rfl

theorem getLast?_double (quote : Char) (s : List Char) :
    (double quote s).getLast? = s.getLast? := by
  induction s with
  | nil => rfl
  | cons c s ih =>
    rw [double]
    split <;> simp [List.getLast?_cons, ih]

theorem intercalate_double (h : quote ∉ mark) (ss : List (List Char)) :
    mark.intercalate (ss.map (double quote)) = double quote (mark.intercalate ss) := by
  induction ss with
  | nil => rfl
  | cons s rest ih =>
    by_cases hrest : rest = []
    · subst hrest
      simp
    · rw [List.map_cons, List.intercalate_cons_of_ne_nil (by simpa using hrest),
        List.intercalate_cons_of_ne_nil hrest, double_append, double_append, double_of_notMem h, ih]

theorem prefix_double_iff (h : quote ∉ mark) : mark <+: double quote s ↔ mark <+: s := by
  induction mark generalizing s with
  | nil => simp
  | cons m mark ih =>
    rw [List.mem_cons, not_or] at h
    cases s with
    | nil => simp [double]
    | cons c s =>
      by_cases hc : c = quote
      · subst hc
        rw [double_cons_self]
        simp [List.cons_prefix_cons, Ne.symm h.1]
      · rw [double_cons_of_ne hc, List.cons_prefix_cons, List.cons_prefix_cons, ih h.2]

theorem splitFirst?_double (hm : mark ≠ []) (h : quote ∉ mark) (s : List Char) :
    splitFirst? mark (double quote s) =
      (splitFirst? mark s).map fun p ↦ (double quote p.1, double quote p.2) := by
  have hdotless (s : List Char) : mark.isPrefixOf (double quote s) = mark.isPrefixOf s := by
    rw [Bool.eq_iff_iff, List.isPrefixOf_iff_prefix, List.isPrefixOf_iff_prefix,
      prefix_double_iff h]
  induction s with
  | nil => simp [double, splitFirst?, hm]
  | cons c s ih =>
    by_cases hp : mark.isPrefixOf (c :: s)
    · obtain ⟨t, ht⟩ := List.isPrefixOf_iff_prefix.1 hp
      have hd : double quote (c :: s) = mark ++ double quote t := by
        rw [← ht, double_append, double_of_notMem h]
      obtain ⟨m, mark, rfl⟩ := List.exists_cons_of_ne_nil hm
      have hsplit (u : List Char) : splitFirst? (m :: mark) (m :: mark ++ u) = some ([], u) := by
        simp [splitFirst?]
      rw [hd, ← ht, hsplit, hsplit]
      rfl
    · have hstep : splitFirst? mark (double quote (c :: s)) =
          (splitFirst? mark (double quote s)).map fun p ↦ (double quote [c] ++ p.1, p.2) := by
        have hq : ¬ mark.isPrefixOf (double quote (c :: s)) := by rwa [hdotless]
        by_cases hc : c = quote
        · subst hc
          have hc' : ¬ mark.isPrefixOf (c :: double c s) := by
            obtain ⟨m, mark, rfl⟩ := List.exists_cons_of_ne_nil hm
            have hmc : m ≠ c := fun he ↦ h (he ▸ List.mem_cons_self)
            simp [List.isPrefixOf, hmc]
          rw [double_cons_self] at hq ⊢
          rw [splitFirst?, if_neg hq, splitFirst?, if_neg hc', Option.map_map]
          simp [double, Function.comp_def]
        · rw [double_cons_of_ne hc] at hq ⊢
          rw [splitFirst?, if_neg hq]
          simp [double, hc]
      rw [hstep, ih, splitFirst?, if_neg hp, Option.map_map, Option.map_map]
      refine congrArg (fun f ↦ Option.map f (splitFirst? mark s)) (funext fun p ↦ ?_)
      simp only [Function.comp_apply, ← double_append, List.singleton_append]

theorem segments_double (hm : mark ≠ []) (h : quote ∉ mark) (s : List Char) :
    segments mark (double quote s) = (segments mark s).map (double quote) := by
  rw [segments_eq hm, segments_eq hm, splitFirst?_double hm h]
  cases hs : splitFirst? mark s with
  | none => rfl
  | some p =>
    have hlt : p.2.length < s.length := length_lt_of_splitFirst? hm hs
    exact congrArg (double quote p.1 :: ·) (segments_double hm h p.2)
termination_by s.length

end doubled

end FluentSql.Text
