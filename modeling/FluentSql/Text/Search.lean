import FluentSql.Text.Blank

namespace FluentSql.Text

def splitFirst? (mark : List Char) : List Char → Option (List Char × List Char)
  | [] => if mark.isEmpty then some ([], []) else none
  | c :: s =>
    if mark.isPrefixOf (c :: s) then some ([], (c :: s).drop mark.length)
    else (splitFirst? mark s).map fun (before, after) ↦ (c :: before, after)

def contains (mark s : List Char) : Bool :=
  (splitFirst? mark s).isSome

theorem eq_append_of_splitFirst? {mark s before after : List Char}
    (h : splitFirst? mark s = some (before, after)) : s = before ++ mark ++ after := by
  induction s generalizing before with
  | nil =>
    simp only [splitFirst?] at h
    split at h <;> simp_all
  | cons c s ih =>
    simp only [splitFirst?] at h
    split at h
    · rename_i hp
      obtain ⟨t, ht⟩ := List.isPrefixOf_iff_prefix.1 hp
      simp only [Option.some.injEq, Prod.mk.injEq] at h
      simp [← h.1, ← h.2, ← ht]
    · obtain ⟨⟨b, a⟩, hb, heq⟩ := Option.map_eq_some_iff.1 h
      obtain ⟨rfl, rfl⟩ := heq
      rw [ih hb, List.cons_append, List.cons_append]

def consFirst (c : Char) : List (List Char) → List (List Char)
  | [] => [[c]]
  | s :: rest => (c :: s) :: rest

/-- The segments from `s` on, after `skip` more characters of a mark already seen. -/
def segmentsAfter (mark : List Char) : Nat → List Char → List (List Char)
  | _, [] => [[]]
  | skip + 1, _ :: s => segmentsAfter mark skip s
  | 0, c :: s =>
    if mark.isPrefixOf (c :: s) then [] :: segmentsAfter mark (mark.length - 1) s
    else consFirst c (segmentsAfter mark 0 s)

/-- What stands between the occurrences of a mark; one segment more than there are occurrences. -/
def segments (mark s : List Char) : List (List Char) :=
  segmentsAfter mark 0 s

def afterLast? (mark : List Char) : List Char → Option (List Char)
  | [] => none
  | c :: s =>
    match afterLast? mark s with
    | some after => some after
    | none => if mark.isPrefixOf (c :: s) then some ((c :: s).drop mark.length) else none

theorem segmentsAfter_ne_nil (mark s : List Char) (skip : Nat) :
    segmentsAfter mark skip s ≠ [] := by
  fun_induction segmentsAfter mark skip s with
  | case1 => simp
  | case2 _ _ _ ih => exact ih
  | case3 => simp
  | case4 _ _ _ ih =>
    match h : segmentsAfter mark 0 _ with
    | [] => exact absurd h ih
    | _ :: _ => simp [consFirst]

theorem intercalate_consFirst (mark : List Char) (c : Char) {segs : List (List Char)}
    (h : segs ≠ []) : mark.intercalate (consFirst c segs) = c :: mark.intercalate segs := by
  match segs with
  | [] => exact absurd rfl h
  | [s] => simp [consFirst]
  | s :: t :: rest => simp [consFirst]

theorem intercalate_segmentsAfter {mark : List Char} (hm : mark ≠ []) (s : List Char)
    (skip : Nat) : mark.intercalate (segmentsAfter mark skip s) = s.drop skip := by
  fun_induction segmentsAfter mark skip s with
  | case1 skip => simp
  | case2 skip c s ih => simpa using ih
  | case3 c s hp ih =>
    rw [List.intercalate_cons_of_ne_nil (segmentsAfter_ne_nil mark s _), ih]
    obtain ⟨t, ht⟩ := List.isPrefixOf_iff_prefix.1 hp
    obtain ⟨m, mark, rfl⟩ := List.exists_cons_of_ne_nil hm
    obtain ⟨rfl, rfl⟩ := List.cons.inj ht
    simp
  | case4 c s _ ih =>
    rw [intercalate_consFirst _ _ (segmentsAfter_ne_nil mark s 0), ih]
    rfl

/-- Taking a text apart loses nothing but the marks. -/
theorem intercalate_segments {mark : List Char} (hm : mark ≠ []) (s : List Char) :
    mark.intercalate (segments mark s) = s :=
  intercalate_segmentsAfter hm s 0

def replace (mark by' s : List Char) : List Char :=
  by'.intercalate (segments mark s)

def double (c : Char) : List Char → List Char
  | [] => []
  | d :: s => if d = c then d :: d :: double c s else d :: double c s

end FluentSql.Text
