import FluentSql.Grammar.Placeholders
import FluentSql.Text.Blank
import Mathlib.Data.List.DropRight
import Mathlib.Data.List.Infix

namespace FluentSql.Placeholders

open Text

def IsQuote (c : Char) : Prop := c = '\x27' ∨ c = '"'

/-- Text that closes its quotes, with no question mark and no dollar sign outside them. -/
inductive Quiet : Option Char → List Char → Prop
  | done : Quiet none []
  | within {opening c : Char} {s : List Char} (hc : c ≠ opening) (h : Quiet (some opening) s) :
      Quiet (some opening) (c :: s)
  | close {opening : Char} {s : List Char} (h : Quiet none s) : Quiet (some opening) (opening :: s)
  | «open» {c : Char} {s : List Char} (hc : IsQuote c) (h : Quiet (some c) s) : Quiet none (c :: s)
  | other {c : Char} {s : List Char} (hq : ¬ IsQuote c) (hm : c ≠ '?') (hd : c ≠ '$')
      (h : Quiet none s) : Quiet none (c :: s)

def Clear (s : List Char) : Prop := ∀ c ∈ s.head?, c ≠ '?' ∧ isDigit c = false

def Apart (s t : List Char) : Prop := s.getLast? = some '?' → Clear t

/-- Text with this many placeholders, which closes its quotes. There are no dollar signs outside
them, so a reader of the numbered text takes nothing else for a parameter. -/
inductive Reads : Option Char → Nat → List Char → Prop
  | done : Reads none 0 []
  | within {opening c : Char} {k : Nat} {s : List Char} (hc : c ≠ opening)
      (h : Reads (some opening) k s) : Reads (some opening) k (c :: s)
  | close {opening : Char} {k : Nat} {s : List Char} (h : Reads none k s) :
      Reads (some opening) k (opening :: s)
  | «open» {c : Char} {k : Nat} {s : List Char} (hc : IsQuote c) (h : Reads (some c) k s) :
      Reads none k (c :: s)
  | mark {k : Nat} {s : List Char} (h : Reads none k s) : Reads none k ('?' :: '?' :: s)
  | placeholder {k : Nat} {s : List Char} (hs : Clear s) (h : Reads none k s) :
      Reads none (k + 1) ('?' :: s)
  | other {c : Char} {k : Nat} {s : List Char} (hq : ¬ IsQuote c) (hm : c ≠ '?') (hd : c ≠ '$')
      (h : Reads none k s) : Reads none k (c :: s)

def count? (quote : Option Char) : List Char → Option Nat
  | [] => if quote.isNone then some 0 else none
  | c :: s =>
    match quote with
    | some opening => count? (if c = opening then none else quote) s
    | none =>
      if c = '\x27' ∨ c = '"' then count? (some c) s
      else if c = '?' then
        match s with
        | '?' :: s => count? none s
        | s => if s.head?.any isDigit then none else (count? none s).map (· + 1)
      else if c = '$' then none
      else count? none s

/-- The parameters that a reader of the numbered text finds outside quotes. -/
def parameters (quote : Option Char) : List Char → List Nat
  | [] => []
  | c :: s =>
    match quote with
    | some opening => parameters (if c = opening then none else quote) s
    | none =>
      if c = '\x27' ∨ c = '"' then parameters (some c) s
      else if c = '$' then digitsValue (s.takeWhile isDigit) :: parameters none s
      else parameters none s

variable {quote : Option Char} {c opening : Char} {n k l : Nat} {s t u : List Char}

section

theorem number_within (hc : c ≠ opening) :
    number (some opening) n (c :: s) = c :: number (some opening) n s := by
  simp only [number, if_neg hc]

theorem number_close : number (some opening) n (opening :: s) = opening :: number none n s := by
  simp only [number, if_true]

theorem number_open (hc : IsQuote c) : number none n (c :: s) = c :: number (some c) n s := by
  unfold IsQuote at hc
  rw [number.eq_def]
  exact if_pos hc

theorem number_mark : number none n ('?' :: '?' :: s) = '?' :: number none n s := rfl

theorem number_parameter (hs : ∀ c ∈ s.head?, c ≠ '?') :
    number none n ('?' :: s) = '$' :: numeral (n + 1) ++ number none (n + 1) s := by
  cases s with
  | nil => rfl
  | cons c s =>
    rw [number.eq_def]
    refine (if_neg (by decide)).trans ((if_pos rfl).trans ?_)
    split
    · rename_i he
      exact absurd (List.head_eq_of_cons_eq he) (hs c rfl)
    · rfl

theorem number_placeholder (hs : Clear s) :
    number none n ('?' :: s) = '$' :: numeral (n + 1) ++ number none (n + 1) s :=
  number_parameter fun c hc ↦ (hs c hc).1

theorem number_other (hq : ¬ IsQuote c) (hm : c ≠ '?') :
    number none n (c :: s) = c :: number none n s := by
  unfold IsQuote at hq
  rw [number.eq_def]
  exact (if_neg hq).trans (if_neg hm)

end

theorem reads_of_count? (h : count? quote s = some k) : Reads quote k s := by
  fun_induction count? quote s generalizing k with
  | case1 quote hq =>
    cases h
    cases quote with
    | none => exact .done
    | some opening => cases hq
  | case2 => cases h
  | case3 c s opening ih =>
    by_cases hc : c = opening
    · rw [if_pos hc] at ih h
      subst hc
      exact .close (ih h)
    · rw [if_neg hc] at ih h
      exact .within hc (ih h)
  | case4 c s hc ih => exact .open hc (ih h)
  | case5 s _ ih => exact .mark (ih h)
  | case6 => cases h
  | case7 s hm hd _ ih =>
    obtain ⟨k, hk, rfl⟩ := Option.map_eq_some_iff.1 h
    refine .placeholder (fun c hc ↦ ⟨fun he ↦ ?_, by simpa [Option.mem_def.1 hc] using hd⟩) (ih hk)
    obtain ⟨t, rfl⟩ := List.head?_eq_some_iff.1 hc
    exact hm t (he ▸ rfl)
  | case8 => cases h
  | case9 c s hq hm hd ih => exact .other hq hm hd (ih h)

theorem Clear.append (hs : Clear s) (ht : s = [] → Clear t) : Clear (s ++ t) := by
  cases s with
  | nil => exact ht rfl
  | cons c s => exact hs

theorem Apart.tail (h : Apart (c :: s) t) : Apart s t := by
  cases s with
  | nil => simp [Apart]
  | cons d s => exact h

theorem Apart.of_append (h : Apart (s ++ t) u) : Apart t u := by
  induction s with
  | nil => exact h
  | cons c s ih => exact ih h.tail

theorem Reads.append (hs : Reads quote k s) (ht : Reads none l t) (h : Apart s t) :
    Reads quote (k + l) (s ++ t) := by
  induction hs with
  | done => simpa using ht
  | within hc _ ih => exact .within hc (ih h.tail)
  | close _ ih => exact .close (ih h.tail)
  | «open» hc _ ih => exact .open hc (ih h.tail)
  | mark _ ih => exact .mark (ih h.tail.tail)
  | placeholder hs _ ih =>
    rw [Nat.add_right_comm]
    refine .placeholder (hs.append fun hn ↦ ?_) (ih h.tail)
    subst hn
    exact h rfl
  | other hq hm hd _ ih => exact .other hq hm hd (ih h.tail)

/-- The placeholders of a further part are numbered on from those of the parts in front of it. -/
theorem number_append (hs : Reads quote k s) (h : Apart s t) (n : Nat) :
    number quote n (s ++ t) = number quote n s ++ number none (n + k) t := by
  induction hs generalizing n with
  | done => rfl
  | within hc _ ih => simp only [List.cons_append, number_within hc, ih h.tail]
  | close _ ih => simp only [List.cons_append, number_close, ih h.tail]
  | «open» hc _ ih => simp only [List.cons_append, number_open hc, ih h.tail]
  | mark _ ih => simp only [List.cons_append, number_mark, ih h.tail.tail]
  | @placeholder k s hs _ ih =>
    have hst : Clear (s ++ t) := by
      refine hs.append fun hn ↦ ?_
      subst hn
      exact h rfl
    have hk : n + 1 + k = n + (k + 1) := by omega
    simp only [List.cons_append, number_placeholder hs, number_placeholder hst, ih h.tail, hk,
      List.append_assoc]
  | other hq hm _ _ ih => simp only [List.cons_append, number_other hq hm, ih h.tail]

theorem trimEnd_cons (c : Char) (s : List Char) : trimEnd (c :: s) = c :: trimEnd s ∨
    isBlank c ∧ trimEnd s = [] ∧ trimEnd (c :: s) = [] := by
  unfold trimEnd
  rw [List.reverse_cons, List.dropWhile_append]
  by_cases hs : s.reverse.dropWhile isBlank = []
  · by_cases hc : isBlank c
    · exact .inr ⟨hc, by simp [hs], by simp [hs, hc]⟩
    · exact .inl (by simp [hs, hc])
  · exact .inl (by simp [hs])

theorem Clear.of_initial (h : Clear t) (hs : s <+: t) : Clear s := by
  obtain ⟨u, rfl⟩ := hs
  cases s with
  | nil => simp [Clear]
  | cons c s => exact h

theorem IsQuote.none : ∀ c ∈ (none : Option Char), IsQuote c := by
  simp

theorem IsQuote.some (h : IsQuote c) : ∀ o ∈ some c, IsQuote o := by
  simpa using h

theorem IsQuote.ne_mark (h : IsQuote c) : c ≠ '?' := by
  rcases h with rfl | rfl <;> decide

theorem IsQuote.not_blank (h : IsQuote c) : ¬ isBlank c := by
  rcases h with rfl | rfl <;> decide

theorem trimEnd_cons_of_not_blank (hc : ¬ isBlank c) : trimEnd (c :: s) = c :: trimEnd s :=
  (trimEnd_cons c s).resolve_right fun h ↦ hc h.1

/-- Blanks at the end are neither quotes nor placeholders. -/
theorem Reads.trimEnd (h : Reads quote k s) (hq : ∀ c ∈ quote, IsQuote c) :
    Reads quote k (trimEnd s) := by
  induction h with
  | done => exact .done
  | @within opening c k s hc h ih =>
    have hi := ih hq
    rcases trimEnd_cons c s with hs | ⟨-, hs, -⟩
    · exact hs ▸ .within hc hi
    · rw [hs] at hi
      cases hi
  | close h ih =>
    rw [trimEnd_cons_of_not_blank (hq _ rfl).not_blank]
    exact .close (ih .none)
  | «open» hc h ih =>
    rw [trimEnd_cons_of_not_blank hc.not_blank]
    exact .open hc (ih hc.some)
  | mark h ih =>
    rw [trimEnd_cons_of_not_blank (by decide), trimEnd_cons_of_not_blank (by decide)]
    exact .mark (ih .none)
  | placeholder hs h ih =>
    rw [trimEnd_cons_of_not_blank (by decide)]
    exact .placeholder (hs.of_initial (List.rdropWhile_prefix _ _)) (ih .none)
  | @other c k s hc hm hd h ih =>
    have hi := ih .none
    rcases trimEnd_cons c s with hs | ⟨-, hs, he⟩
    · exact hs ▸ .other hc hm hd hi
    · rw [hs] at hi
      cases hi
      exact he ▸ .done

namespace Quiet

theorem append (hs : Quiet quote s) (ht : Quiet none t) : Quiet quote (s ++ t) := by
  induction hs with
  | done => exact ht
  | within hc _ ih => exact .within hc ih
  | close _ ih => exact .close ih
  | «open» hc _ ih => exact .open hc ih
  | other hq hm hd _ ih => exact .other hq hm hd ih

theorem reads (h : Quiet quote s) : Reads quote 0 s := by
  induction h with
  | done => exact .done
  | within hc _ ih => exact .within hc ih
  | close _ ih => exact .close ih
  | «open» hc _ ih => exact .open hc ih
  | other hq hm hd _ ih => exact .other hq hm hd ih

theorem number_eq (h : Quiet quote s) : number quote n s = s := by
  induction h with
  | done => rfl
  | within hc _ ih => rw [number_within hc, ih]
  | close _ ih => rw [number_close, ih]
  | «open» hc _ ih => rw [number_open hc, ih]
  | other hq hm _ _ ih => rw [number_other hq hm, ih]

theorem getLast?_ne (h : Quiet quote s) (hq : ∀ c ∈ quote, IsQuote c) :
    s.getLast? ≠ some '?' := by
  have hcons (c : Char) (s : List Char) (hc : c ≠ '?') (hs : s.getLast? ≠ some '?') :
      (c :: s).getLast? ≠ some '?' := by
    cases s with
    | nil => simpa using hc
    | cons d s => simpa using hs
  induction h with
  | done => simp
  | @within opening c s hc h ih =>
    cases s with
    | nil => cases h
    | cons d s => simpa using ih hq
  | close _ ih => exact hcons _ _ (hq _ rfl).ne_mark (ih .none)
  | «open» hc _ ih => exact hcons _ _ hc.ne_mark (ih hc.some)
  | other hq hm hd _ ih => exact hcons _ _ hm (ih .none)

/-- Anything may follow: a quote that ends like a placeholder would not be closed. -/
theorem apart (h : Quiet none s) : Apart s t :=
  fun hl ↦ absurd hl (h.getLast?_ne .none)

end Quiet

section

theorem Clear.head?_number (hs : Clear s) : (number none n s).head? = s.head? := by
  cases s with
  | nil => rfl
  | cons c s =>
    by_cases hq : IsQuote c
    · rw [number_open hq]
      rfl
    · rw [number_other hq (hs c rfl).1]
      rfl

theorem parameters_within (hc : c ≠ opening) :
    parameters (some opening) (c :: s) = parameters (some opening) s := by
  simp only [parameters, if_neg hc]

theorem parameters_close : parameters (some opening) (opening :: s) = parameters none s := by
  simp only [parameters, if_true]

theorem parameters_open (hc : IsQuote c) : parameters none (c :: s) = parameters (some c) s := by
  unfold IsQuote at hc
  rw [parameters.eq_def]
  exact if_pos hc

theorem parameters_other (hq : ¬ IsQuote c) (hd : c ≠ '$') :
    parameters none (c :: s) = parameters none s := by
  unfold IsQuote at hq
  rw [parameters.eq_def]
  exact (if_neg hq).trans (if_neg hd)

theorem ne_of_class {p : Char → Bool} {d : Char} (hc : p c) (hd : p d = false) : c ≠ d := by
  rintro rfl
  exact Bool.false_ne_true (hd.symm.trans hc)

theorem not_isQuote_of_isDigit (hc : isDigit c) : ¬ IsQuote c :=
  fun hq ↦ hq.elim (ne_of_class hc (by decide)) (ne_of_class hc (by decide))

theorem parameters_digits (hs : ∀ c ∈ s, isDigit c) :
    parameters none (s ++ t) = parameters none t := by
  induction s with
  | nil => rfl
  | cons c s ih =>
    have hc := hs c List.mem_cons_self
    rw [List.cons_append, parameters_other (not_isQuote_of_isDigit hc) (ne_of_class hc (by decide))]
    exact ih fun d hd ↦ hs d (List.mem_cons_of_mem _ hd)

theorem isDigit_of_mem_numeral (hc : c ∈ numeral n) : isDigit c :=
  Nat.isDigit_of_mem_toDigits (by decide) (by decide) hc

theorem isDigit_of_mem_toString (hc : c ∈ (toString n).toList) : isDigit c := by
  rw [Nat.toString_eq_ofList_toDigits, String.toList_ofList] at hc
  exact isDigit_of_mem_numeral hc

theorem takeWhile_numeral (hs : ∀ c ∈ s.head?, isDigit c = false) :
    (numeral n ++ s).takeWhile isDigit = numeral n := by
  rw [List.takeWhile_append_of_pos fun _ ↦ isDigit_of_mem_numeral]
  cases s with
  | nil => simp
  | cons c s => simp [hs c rfl]

theorem parameters_numeral (hs : ∀ c ∈ s.head?, isDigit c = false) :
    parameters none ('$' :: numeral n ++ s) = n :: parameters none s := by
  rw [List.cons_append, parameters.eq_def]
  refine (if_neg (by decide)).trans ((if_pos rfl).trans ?_)
  rw [takeWhile_numeral hs, digitsValue_numeral, parameters_digits fun _ ↦ isDigit_of_mem_numeral]

end

/-- A reader of numbered text finds one parameter for each placeholder, in order. -/
theorem parameters_number (h : Reads quote k s) (n : Nat) :
    parameters quote (number quote n s) = List.range' (n + 1) k := by
  induction h generalizing n with
  | done => rfl
  | within hc _ ih => rw [number_within hc, parameters_within hc, ih]
  | close _ ih => rw [number_close, parameters_close, ih]
  | «open» hc _ ih => rw [number_open hc, parameters_open hc, ih]
  | mark _ ih => rw [number_mark, parameters_other (fun h ↦ h.ne_mark rfl) (by decide), ih]
  | @placeholder k s hs _ ih =>
    have hd : ∀ c ∈ (number none (n + 1) s).head?, isDigit c = false := by
      rw [hs.head?_number]
      exact fun c hc ↦ (hs c hc).2
    rw [number_placeholder hs, parameters_numeral hd, ih, List.range'_succ]
  | other hq hm hd _ ih => rw [number_other hq hm, parameters_other hq hd, ih]

end FluentSql.Placeholders
