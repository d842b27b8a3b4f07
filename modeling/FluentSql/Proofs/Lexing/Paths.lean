import FluentSql.Grammar.Selector
import FluentSql.Proofs.Lexing.Scanner

namespace FluentSql

open Text Lexing Lexis

namespace Text

variable {quote mark : Char} {s : List Char}

theorem takeWhile_double (h : mark ≠ quote) (s : List Char) :
    (double quote s).takeWhile (· != mark) = double quote (s.takeWhile (· != mark)) := by
  induction s with
  | nil => rfl
  | cons c s ih =>
    by_cases hc : c = quote
    · subst hc
      simp [double_cons_self, Ne.symm h, ih]
    · rw [double_cons_of_ne hc, List.takeWhile_cons, List.takeWhile_cons, ih]
      split
      · rw [double_cons_of_ne hc]
      · rfl

theorem dropWhile_double (h : mark ≠ quote) (s : List Char) :
    (double quote s).dropWhile (· != mark) = double quote (s.dropWhile (· != mark)) := by
  induction s with
  | nil => rfl
  | cons c s ih =>
    by_cases hc : c = quote
    · subst hc
      simp [double_cons_self, Ne.symm h, ih]
    · rw [double_cons_of_ne hc, List.dropWhile_cons, List.dropWhile_cons, ih]
      split
      · rfl
      · rw [double_cons_of_ne hc]

end Text

namespace Selector

variable {s t : List Char} {c d : Char} {keys : List (List Char)}

def dropEscapes : List Char → List Char
  | [] => []
  | c :: s => if c = '\\' ∧ (dropEscapes s).head? = some '\x27' then dropEscapes s
    else c :: dropEscapes s

theorem dropEscapes_cons_of_ne (hc : c ≠ '\\') (s : List Char) :
    dropEscapes (c :: s) = c :: dropEscapes s := by
  rw [dropEscapes, if_neg fun h ↦ hc h.1]

/-- Backslashes are held back until the character behind them is known. -/
theorem escapePath_eq (n : Nat) (s : List Char) :
    escapePath n s = (if (dropEscapes s).head? = some '\x27' then [] else List.replicate n '\\') ++
      double '\x27' (dropEscapes s) := by
  fun_induction escapePath n s with
  | case1 n => simp [dropEscapes, double]
  | case2 n s ih =>
    rw [ih, dropEscapes]
    by_cases hs : (dropEscapes s).head? = some '\x27'
    · simp [hs]
    · simp [hs, List.replicate_succ', double_cons_of_ne (show '\\' ≠ '\x27' by decide)]
  | case3 n s ih =>
    have hquote : dropEscapes ('\x27' :: s) = '\x27' :: dropEscapes s :=
      dropEscapes_cons_of_ne (by decide) s
    rw [ih, hquote, double_cons_self]
    simp
  | case4 n c s hb hq ih =>
    rw [ih, dropEscapes_cons_of_ne hb, double_cons_of_ne hq]
    simp [show c ≠ '\x27' from hq]

theorem calm_dropEscapes (s : List Char) : Calm (dropEscapes s) := by
  induction s with
  | nil => exact .nil
  | cons c s ih =>
    rw [dropEscapes]
    split
    · exact ih
    · rename_i hc
      exact List.isChain_cons.2 ⟨fun d hd hcd ↦ hc ⟨hcd.1, hcd.2 ▸ hd⟩, ih⟩

theorem dropEscapes_append (hc : c ≠ '\\') (hq : c ≠ '\x27') (s t : List Char) :
    dropEscapes (s ++ c :: t) = dropEscapes s ++ c :: dropEscapes t := by
  induction s with
  | nil => exact dropEscapes_cons_of_ne hc t
  | cons e s ih =>
    have hhead : (dropEscapes s ++ c :: dropEscapes t).head? = some '\x27' ↔
        (dropEscapes s).head? = some '\x27' := by
      cases dropEscapes s <;> simp [hq]
    rw [List.cons_append, dropEscapes, dropEscapes, ih]
    simp only [hhead]
    split <;> rfl

theorem head?_of_head?_dropEscapes (hc : c ≠ '\x27') (h : (dropEscapes s).head? = some c) :
    s.head? = some c := by
  cases s with
  | nil => exact h
  | cons e s =>
    rw [dropEscapes] at h
    split at h
    · rename_i he
      exact absurd (Option.some.inj (h.symm.trans he.2)) hc
    · exact h

theorem infix_of_infix_dropEscapes (hd : d ≠ '\x27')
    (h : [c, d] <:+: dropEscapes s) : [c, d] <:+: s := by
  induction s with
  | nil => exact h
  | cons e s ih =>
    rw [dropEscapes] at h
    split at h
    · exact (ih h).trans (List.suffix_cons e s).isInfix
    · rcases List.infix_cons_iff.1 h with hp | hi
      · obtain ⟨rfl, r, hr⟩ := List.cons_prefix_cons.1 hp
        have hhead : s.head? = some d := head?_of_head?_dropEscapes hd (by rw [← hr]; rfl)
        obtain ⟨u, rfl⟩ := List.head?_eq_some_iff.1 hhead
        exact ⟨[], u, rfl⟩
      · exact (ih hi).trans (List.suffix_cons e s).isInfix

theorem dropEscapes_intercalate (keys : List (List Char)) :
    dropEscapes (Quoting.arrow.intercalate keys) =
      Quoting.arrow.intercalate (keys.map dropEscapes) := by
  induction keys with
  | nil => rfl
  | cons k rest ih =>
    by_cases hrest : rest = []
    · subst hrest
      simp
    · have hsplit : dropEscapes (k ++ '-' :: '>' :: Quoting.arrow.intercalate rest) =
          dropEscapes k ++ '-' :: '>' :: Quoting.arrow.intercalate (rest.map dropEscapes) := by
        rw [dropEscapes_append (by decide) (by decide), dropEscapes_cons_of_ne (by decide), ih]
      rw [List.map_cons, List.intercalate_cons_of_ne_nil hrest,
        List.intercalate_cons_of_ne_nil (by simpa using hrest)]
      simpa [Quoting.arrow] using hsplit

/-- The keys of a path lose their escapes one by one. -/
theorem segments_dropEscapes (path : List Char) : segments Quoting.arrow (dropEscapes path) =
    (segments Quoting.arrow path).map dropEscapes := by
  have hm : Quoting.arrow ≠ [] := List.cons_ne_nil _ _
  have hkeys : ∀ k ∈ (segments Quoting.arrow path).map dropEscapes, ¬ Quoting.arrow <:+: k := by
    intro k hk hi
    obtain ⟨key, hkey, rfl⟩ := List.mem_map.1 hk
    exact not_infix_of_mem_segments hm hkey
      (infix_of_infix_dropEscapes (by decide) hi)
  have hne : (segments Quoting.arrow path).map dropEscapes ≠ [] := by
    rw [ne_eq, List.map_eq_nil_iff]
    exact segments_ne_nil Quoting.arrow path
  have hjoin := segments_intercalate (by decide) hne hkeys
  rwa [← Quoting.arrow, ← dropEscapes_intercalate, intercalate_segments hm] at hjoin

section document

def documentPath (keys : List (List Char)) : List Char :=
  let path := ['.'].intercalate (keys.map pathSegment)
  (if path.head? = some '[' then ['$'] else ['$', '.']) ++ path

theorem splitBrackets?_double (s : List Char) : splitBrackets? (double '\x27' s) =
    (splitBrackets? s).map fun p ↦ (double '\x27' p.1, double '\x27' p.2) := by
  rw [splitBrackets?, splitBrackets?, getLast?_double]
  simp only [mem_double]
  split
  · simp [List.span_eq_takeWhile_dropWhile, takeWhile_double, dropWhile_double]
  · rfl

theorem pathSegment_double (s : List Char) :
    pathSegment (double '\x27' s) = double '\x27' (pathSegment s) := by
  have hquote (s : List Char) : double '\x27' ('"' :: s) = '"' :: double '\x27' s :=
    double_cons_of_ne (by decide) s
  rw [pathSegment, splitBrackets?_double]
  unfold pathSegment
  match splitBrackets? s with
  | none =>
    dsimp only [Option.map_none]
    rw [double_append, hquote]
    rfl
  | some ([], brackets) => rfl
  | some (c :: key, brackets) =>
    have hne : double '\x27' (c :: key) ≠ [] := by
      rw [double]
      split <;> exact List.cons_ne_nil _ _
    obtain ⟨e, r, he⟩ := List.exists_cons_of_ne_nil hne
    dsimp only [Option.map_some]
    rw [double_append, hquote, hquote, he]

theorem pathLiteral_eq (path : List Char) : pathLiteral path = '\x27' ::
    double '\x27' (documentPath ((segments Quoting.arrow path).map dropEscapes)) ++ ['\x27'] := by
  have hpath : (segments Quoting.arrow (escapePath 0 path)).map pathSegment =
      ((((segments Quoting.arrow path).map dropEscapes).map pathSegment).map (double '\x27')) := by
    have hescape : escapePath 0 path = double '\x27' (dropEscapes path) := by
      simp [escapePath_eq]
    rw [hescape, segments_double (by decide) (by decide), segments_dropEscapes]
    simp only [List.map_map, Function.comp_def, pathSegment_double]
  rw [pathLiteral, hpath, intercalate_double (by decide), documentPath, head?_double]
  split <;> simp [double]

/-- Text that neither begins with a quote nor ends in a backslash, and is calm in between. -/
structure Solid (s : List Char) : Prop where
  calm : Calm s
  head : s.head? ≠ some '\x27'
  last : s.getLast? ≠ some '\\'

theorem Solid.append (hs : Solid s) (ht : Solid t) : Solid (s ++ t) where
  calm := List.isChain_append.2
    ⟨hs.calm, ht.calm, fun c _ d hd hcd ↦ ht.head (hcd.2 ▸ hd)⟩
  head := by
    cases s with
    | nil => exact ht.head
    | cons => exact hs.head
  last := by
    rw [List.getLast?_append]
    cases h : t.getLast? with
    | none => simpa using hs.last
    | some c => simpa [h] using ht.last

theorem solid_nil : Solid [] := ⟨.nil, nofun, nofun⟩

theorem solid_singleton (hq : c ≠ '\x27') (hb : c ≠ '\\') : Solid [c] :=
  ⟨.singleton c, fun h ↦ hq (Option.some.inj h), fun h ↦ hb (Option.some.inj h)⟩

theorem solid_quoted (hs : Calm s) : Solid ('"' :: s ++ ['"']) where
  calm := by
    refine List.isChain_append.2 ⟨List.isChain_cons.2 ⟨fun d _ h ↦ ?_, hs⟩, .singleton _, ?_⟩
    · exact absurd h.1 (by decide)
    · intro c _ d hd h
      cases hd
      exact absurd h.2 (by decide)
  head := by simp
  last := by
    rw [List.getLast?_concat]
    decide

theorem solid_intercalate (h : ∀ s ∈ keys, Solid s) : Solid (['.'].intercalate keys) := by
  induction keys with
  | nil => exact solid_nil
  | cons s rest ih =>
    have hs := h s List.mem_cons_self
    by_cases hrest : rest = []
    · subst hrest
      simpa using hs
    · rw [List.intercalate_cons_of_ne_nil hrest]
      exact (hs.append (solid_singleton (by decide) (by decide))).append
        (ih fun t ht ↦ h t (List.mem_cons_of_mem _ ht))

theorem splitBrackets?_eq_some {key brackets : List Char}
    (h : splitBrackets? s = some (key, brackets)) :
    s = key ++ brackets ∧ '[' ∉ key ∧ ∃ inner, brackets = '[' :: inner ++ [']'] := by
  rw [splitBrackets?] at h
  split at h
  · rename_i hs
    obtain ⟨hlast, hmem⟩ := hs
    rw [List.span_eq_takeWhile_dropWhile] at h
    cases h
    refine ⟨(List.takeWhile_append_dropWhile).symm, fun hk ↦ ?_, ?_⟩
    · exact absurd (List.mem_takeWhile_imp hk) (by simp)
    · obtain ⟨front, rest, hs, hfront⟩ := List.eq_append_cons_of_mem hmem
      have hdrop : s.dropWhile (· != '[') = '[' :: rest := by
        rw [hs, List.dropWhile_append_of_pos fun c hc ↦ ?_]
        · simp
        · rw [bne_iff_ne]
          rintro rfl
          exact hfront hc
      rw [hdrop]
      rw [hs, List.getLast?_append, List.getLast?_cons] at hlast
      cases hr : rest.getLast? with
      | none => simp [hr] at hlast
      | some c =>
        obtain rfl : c = ']' := by simpa [hr] using hlast
        obtain ⟨inner, rfl⟩ := List.getLast?_eq_some_iff.1 hr
        exact ⟨inner, rfl⟩
  · cases h

theorem solid_pathSegment (h : Calm s) : Solid (pathSegment s) := by
  have hbrackets {brackets : List Char} (hcalm : Calm brackets)
      (he : ∃ inner, brackets = '[' :: inner ++ [']']) : Solid brackets := by
    obtain ⟨inner, rfl⟩ := he
    refine ⟨hcalm, by simp, ?_⟩
    rw [List.getLast?_concat]
    decide
  unfold pathSegment
  match hs : splitBrackets? s with
  | none => exact solid_quoted h
  | some ([], brackets) =>
    obtain ⟨rfl, -, he⟩ := splitBrackets?_eq_some hs
    exact hbrackets h he
  | some (c :: key, brackets) =>
    obtain ⟨rfl, -, he⟩ := splitBrackets?_eq_some hs
    obtain ⟨hkey, hrest, -⟩ := List.isChain_append.1 h
    simpa using (solid_quoted hkey).append (hbrackets hrest he)

theorem solid_documentPath (h : ∀ k ∈ keys, Calm k) : Solid (documentPath keys) := by
  have hpath : Solid (['.'].intercalate (keys.map pathSegment)) := solid_intercalate fun s hs ↦ by
    obtain ⟨k, hk, rfl⟩ := List.mem_map.1 hs
    exact solid_pathSegment (h k hk)
  have hroot : Solid ['$'] := solid_singleton (by decide) (by decide)
  have hdot : Solid ['.'] := solid_singleton (by decide) (by decide)
  rw [documentPath]
  split
  · exact hroot.append hpath
  · exact (hroot.append hdot).append hpath

end document

end Selector

end FluentSql
