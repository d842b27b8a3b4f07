import FluentSql.Proofs.Lexing.Splitting
import FluentSql.Proofs.Numbering.Scanning
import Mathlib.Data.List.Chain

namespace FluentSql.Placeholders

open Text

instance : DecidablePred IsQuote :=
  fun c ↦ inferInstanceAs (Decidable (c = '\x27' ∨ c = '"'))

/-- Text outside quotes, a text or name in quotes, a parameter, or an escaped question mark. -/
inductive Token where
  | plain (s : List Char) (hs : ∀ c ∈ s, ¬ IsQuote c ∧ c ≠ '?')
  | quoted (quote : Char) (hq : IsQuote quote) (s : List Char)
  | parameter
  | mark

namespace Token

/-- A quote is doubled within its own quotes only. -/
def written : Token → List Char
  | plain s _ => s
  | quoted quote _ s => quote :: (double quote s ++ [quote])
  | parameter => ['?']
  | mark => ['?', '?']

def isMarked : Token → Bool
  | plain .. => false
  | quoted .. => false
  | parameter => true
  | mark => true

end Token

def numbered (count : Nat) : List Token → List Char
  | [] => []
  | .parameter :: rest => '$' :: numeral (count + 1) ++ numbered (count + 1) rest
  | .mark :: rest => '?' :: numbered count rest
  | token :: rest => token.written ++ numbered count rest

/-- No two of the parameters and escapes are neighbours. An empty text stands between nothing. -/
def Spaced (tokens : List Token) : Prop :=
  (tokens.filter fun token ↦ !token.written.isEmpty).IsChain fun first second ↦
    ¬ (first.isMarked ∧ second.isMarked)

variable {tokens : List Token} {token : Token} {quote : Char} {s : List Char} {n : Nat}

theorem Spaced.tail (h : Spaced (token :: tokens)) : Spaced tokens := by
  unfold Spaced at h
  rw [List.filter_cons] at h
  split at h
  · exact h.tail
  · exact h

/-- Behind a parameter no question mark is written. -/
theorem Spaced.head?_ne (h : Spaced (.parameter :: tokens)) :
    ∀ c ∈ (tokens.flatMap Token.written).head?, c ≠ '?' := by
  induction tokens with
  | nil => simp
  | cons token tokens ih =>
    have hmarked : token.isMarked → token.written = [] := by
      intro hm
      by_contra hne
      unfold Spaced at h
      rw [List.filter_cons_of_pos rfl, List.filter_cons_of_pos (by simpa using hne)] at h
      exact (List.isChain_cons_cons.1 h).1 ⟨rfl, hm⟩
    rw [List.flatMap_cons]
    cases token with
    | plain s hs =>
      cases s with
      | nil => exact ih h
      | cons c s =>
        rintro _ ⟨⟩
        exact (hs c List.mem_cons_self).2
    | quoted quote hq s =>
      rintro _ ⟨⟩
      exact hq.ne_mark
    | parameter => exact absurd (hmarked rfl) (List.cons_ne_nil _ _)
    | mark => exact absurd (hmarked rfl) (List.cons_ne_nil _ _)

theorem number_plain (hs : ∀ c ∈ s, ¬ IsQuote c ∧ c ≠ '?') (n : Nat) (t : List Char) :
    number none n (s ++ t) = s ++ number none n t := by
  induction s with
  | nil => rfl
  | cons c s ih =>
    obtain ⟨hc, hs⟩ := List.forall_mem_cons.1 hs
    rw [List.cons_append, number_other hc.1 hc.2, ih hs]
    rfl

theorem number_quoted (hq : IsQuote quote) (s : List Char) (n : Nat) (t : List Char) :
    number (some quote) n (double quote s ++ quote :: t) =
      double quote s ++ quote :: number none n t := by
  induction s with
  | nil => exact number_close
  | cons c s ih =>
    by_cases hc : c = quote
    · subst hc
      rw [double_cons_self]
      simp only [List.cons_append, number_close, number_open hq, ih]
    · rw [double_cons_of_ne hc]
      simp only [List.cons_append, number_within hc, ih]

theorem number_written (h : Spaced tokens) (n : Nat) :
    number none n (tokens.flatMap Token.written) = numbered n tokens := by
  induction tokens generalizing n with
  | nil => rfl
  | cons token tokens ih =>
    have hrest (n : Nat) := ih h.tail n
    rw [List.flatMap_cons]
    cases token with
    | plain s hs =>
      rw [Token.written, number_plain hs, hrest]
      rfl
    | quoted quote hq s =>
      simp only [Token.written, List.cons_append, List.append_assoc, List.nil_append, numbered]
      rw [number_open hq, number_quoted hq, hrest]
    | parameter =>
      simp only [Token.written, List.singleton_append]
      rw [number_parameter h.head?_ne, hrest]
      rfl
    | mark =>
      simp only [Token.written, List.cons_append, List.nil_append]
      rw [number_mark, hrest]
      rfl

/-- Numbering a text gives its tokens with the k-th parameter as `$k` and every escape as a question
mark; all other text stays as it is. -/
theorem numberedPlaceholders_tokens (tokens : List Token) (h : Spaced tokens) :
    numberedPlaceholders (String.ofList (tokens.flatMap Token.written)) =
      String.ofList (numbered 0 tokens) := by
  rw [numberedPlaceholders, String.toList_ofList, number_written h]

def searchTokens : List Token :=
  [.plain "select ".toList (by simp [IsQuote]),
    .quoted '\x27' (by decide) "it's \"?".toList,
    .plain " from ".toList (by simp [IsQuote]),
    .quoted '"' (by decide) "t'?".toList,
    .plain " where data ".toList (by simp [IsQuote]),
    .mark,
    .plain " $1 in (".toList (by simp [IsQuote]),
    .parameter,
    .plain ", ".toList (by simp [IsQuote]),
    .parameter,
    .plain ")".toList (by simp [IsQuote])]

theorem numberedPlaceholders_tokens_search :
    Spaced searchTokens ∧
      String.ofList (searchTokens.flatMap Token.written) =
        "select 'it''s \"?' from \"t'?\" where data ?? $1 in (?, ?)" ∧
      numberedPlaceholders "select 'it''s \"?' from \"t'?\" where data ?? $1 in (?, ?)" =
        "select 'it''s \"?' from \"t'?\" where data ? $1 in ($1, $2)" := by
  have hspaced : Spaced searchTokens := by
    unfold Spaced
    decide
  have hwritten : String.ofList (searchTokens.flatMap Token.written) =
      "select 'it''s \"?' from \"t'?\" where data ?? $1 in (?, ?)" := by decide
  refine ⟨hspaced, hwritten, ?_⟩
  rw [← hwritten, numberedPlaceholders_tokens searchTokens hspaced]
  decide

end FluentSql.Placeholders
