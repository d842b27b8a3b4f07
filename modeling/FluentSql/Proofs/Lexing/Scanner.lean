import FluentSql.Proofs.Lexing.Splitting
import FluentSql.Text.Digits
import Mathlib.Data.List.Chain
import Mathlib.Tactic.Common

namespace FluentSql.Lexing

open Text

inductive Quoted where
  | name
  | literal
  deriving DecidableEq

/-- The quotes around names, and whether a backslash escapes in a literal. -/
structure Lexis where
  opening : Char
  closing : Char
  escapes : Bool

/-- A token between quotes has the text as it stands there. -/
inductive Token where
  | quoted (kind : Quoted) (body : List Char)
  | word (s : List Char)
  | arrow
  | textArrow
  | symbol (c : Char)
  deriving DecidableEq

/-- The token being read. A quote just closed may turn out to be doubled. -/
inductive Mode where
  | between
  | quoted (kind : Quoted) (body : List Char)
  | escaped (kind : Quoted) (body : List Char)
  | closed (kind : Quoted) (body : List Char)
  | word (s : List Char)
  | arrow
  | textArrow
  | symbol (c : Char)
  deriving DecidableEq

def Mode.pending : Mode → Option (List Token)
  | between => some []
  | quoted .. | escaped .. => none
  | closed kind body => some [.quoted kind body]
  | word s => some [.word s]
  | arrow => some [.arrow]
  | textArrow => some [.textArrow]
  | symbol c => some [.symbol c]

def isWordChar (c : Char) : Bool := c.isAlphanum || c == '_'

namespace Lexis

/-- Backticks and backslash escapes on MySQL, brackets on SQL Server, double quotes elsewhere. -/
def of : Dialect → Lexis
  | .mysql => ⟨'\x60', '\x60', true⟩
  | .sqlServer => ⟨'[', ']', false⟩
  | _ => ⟨'"', '"', false⟩

def openingOf (l : Lexis) : Quoted → Char
  | .name => l.opening
  | .literal => '\x27'

def closingOf (l : Lexis) : Quoted → Char
  | .name => l.closing
  | .literal => '\x27'

def escapesIn (l : Lexis) : Quoted → Bool
  | .name => false
  | .literal => l.escapes

def start (l : Lexis) (c : Char) : Mode :=
  if c = l.opening then .quoted .name []
  else if c = '\x27' then .quoted .literal []
  else if isWordChar c then .word [c]
  else .symbol c

def grow (l : Lexis) : Mode → Char → Option Mode
  | .between, _ | .textArrow, _ => none
  | .quoted kind body, c => some <|
    if c = l.closingOf kind then .closed kind body
    else if c = '\\' ∧ l.escapesIn kind then .escaped kind (body ++ [c])
    else .quoted kind (body ++ [c])
  | .escaped kind body, c => some (.quoted kind (body ++ [c]))
  | .closed kind body, c =>
    if c = l.closingOf kind then some (.quoted kind (body ++ [c, c])) else none
  | .word s, c => if isWordChar c then some (.word (s ++ [c])) else none
  | .arrow, c => if c = '>' then some .textArrow else none
  | .symbol sign, c =>
    if sign = '-' ∧ c = '>' then some .arrow
    else if (sign = '-' ∨ sign = '+') ∧ isDigit c then some (.word [sign, c])
    else none

def scan (l : Lexis) : Mode → List Char → Option (List Token)
  | m, [] => m.pending
  | m, c :: s =>
    match l.grow m c with
    | some m => l.scan m s
    | none => do return (← m.pending) ++ (← l.scan (l.start c) s)

def tokens (l : Lexis) (s : List Char) : Option (List Token) := l.scan .between s

def Stops (l : Lexis) (m : Mode) (s : List Char) : Prop :=
  ∀ c ∈ s.head?, l.grow m c = none

/-- This text is one token, read completely in the mode. -/
def Spells (l : Lexis) (s : List Char) (t : Token) (m : Mode) : Prop :=
  ∃ c r, s = c :: r ∧ r.foldlM l.grow (l.start c) = some m ∧ m.pending = some [t]

variable {l : Lexis} {m : Mode} {s rest : List Char} {t : Token} {ts : List Token}

theorem scan_append {m' : Mode} (h : s.foldlM l.grow m = some m') (rest : List Char) :
    l.scan m (s ++ rest) = l.scan m' rest := by
  induction s generalizing m with
  | nil =>
    cases h
    rfl
  | cons c s ih =>
    rw [List.foldlM_cons] at h
    obtain ⟨m₁, hm, hs⟩ := Option.bind_eq_some_iff.1 h
    rw [List.cons_append, scan, hm]
    exact ih hs

theorem scan_of_stops (hm : m.pending = some ts) (h : l.Stops m rest) :
    l.scan m rest = (l.tokens rest).map (ts ++ ·) := by
  cases rest with
  | nil => simpa [scan, tokens, Mode.pending] using hm
  | cons c s =>
    have hgrow : l.grow m c = none := h c rfl
    rw [tokens, scan, scan, hgrow, hm]
    cases l.scan (l.start c) s <;> rfl

theorem Spells.tokens_append (h : l.Spells s t m) (hstop : l.Stops m rest)
    (hrest : l.tokens rest = some ts) : l.tokens (s ++ rest) = some (t :: ts) := by
  obtain ⟨c, r, rfl, hr, hm⟩ := h
  have hread : l.scan (l.start c) (r ++ rest) = some (t :: ts) := by
    rw [scan_append hr, scan_of_stops hm hstop, hrest]
    rfl
  rw [List.cons_append, tokens, scan]
  simp [grow, Mode.pending, hread]

section quoted

variable {kind : Quoted} {body : List Char}

def Calm (s : List Char) : Prop :=
  s.IsChain fun c d ↦ ¬ (c = '\\' ∧ d = '\x27')

def Sealed (l : Lexis) (kind : Quoted) (s : List Char) : Prop :=
  l.escapesIn kind → Calm s ∧ s.getLast? ≠ some '\\'

theorem sealed_name (l : Lexis) (s : List Char) : l.Sealed .name s :=
  fun h ↦ absurd h Bool.false_ne_true

theorem closingOf_of_escapesIn (h : l.escapesIn kind) : l.closingOf kind = '\x27' := by
  cases kind with
  | name => cases h
  | literal => rfl

theorem Sealed.tail {c : Char} (h : l.Sealed kind (c :: s)) : l.Sealed kind s := by
  intro he
  obtain ⟨hcalm, hlast⟩ := h he
  refine ⟨hcalm.tail, fun hs ↦ hlast ?_⟩
  rw [List.getLast?_cons, hs]
  rfl

/-- A backslash that escapes has a character behind it, and not a quote. -/
theorem Sealed.exists_escaped (h : l.Sealed kind ('\\' :: s)) (he : l.escapesIn kind) :
    ∃ d r, s = d :: r ∧ d ≠ l.closingOf kind := by
  obtain ⟨hcalm, hlast⟩ := h he
  cases s with
  | nil => exact absurd rfl hlast
  | cons d r =>
    refine ⟨d, r, rfl, fun hd ↦ ?_⟩
    rw [closingOf_of_escapesIn he] at hd
    exact (List.isChain_cons_cons.1 hcalm).1 ⟨rfl, hd⟩

/-- Doubled closing quotes do not end the token. -/
theorem foldlM_double {s : List Char} (hs : l.Sealed kind s) (body : List Char) :
    (double (l.closingOf kind) s).foldlM l.grow (.quoted kind body) =
      some (.quoted kind (body ++ double (l.closingOf kind) s)) := by
  match s with
  | [] => simp [double]
  | c :: r =>
    by_cases hc : c = l.closingOf kind
    · subst hc
      rw [double_cons_self]
      have ih := foldlM_double hs.tail (body ++ [l.closingOf kind, l.closingOf kind])
      simpa [grow] using ih
    · by_cases he : c = '\\' ∧ l.escapesIn kind
      · obtain ⟨rfl, he⟩ := he
        obtain ⟨d, r, rfl, hd⟩ := hs.exists_escaped he
        rw [double_cons_of_ne hc, double_cons_of_ne hd]
        have ih := foldlM_double hs.tail.tail (body ++ ['\\', d])
        simpa [grow, hc, he] using ih
      · rw [double_cons_of_ne hc]
        have ih := foldlM_double hs.tail (body ++ [c])
        simpa [grow, hc, he] using ih
termination_by s.length

end quoted

section dialects

variable {d : Dialect} {c : Char}

theorem start_openingOf (d : Dialect) (kind : Quoted) :
    (of d).start ((of d).openingOf kind) = .quoted kind [] := by
  cases d <;> cases kind <;> rfl

theorem tokens_quoted {kind : Quoted} (hs : (of d).Sealed kind s)
    (hstop : rest.head? ≠ some ((of d).closingOf kind)) (h : (of d).tokens rest = some ts) :
    (of d).tokens ((of d).openingOf kind :: double ((of d).closingOf kind) s ++
        (of d).closingOf kind :: rest) =
      some (.quoted kind (double ((of d).closingOf kind) s) :: ts) := by
  have hspells : (of d).Spells ((of d).openingOf kind :: double ((of d).closingOf kind) s ++
      [(of d).closingOf kind]) (.quoted kind (double ((of d).closingOf kind) s))
      (.closed kind (double ((of d).closingOf kind) s)) := by
    refine ⟨_, _, rfl, ?_, rfl⟩
    rw [start_openingOf, List.append_eq, List.foldlM_append, foldlM_double hs]
    simp [grow]
  have hend : (of d).Stops (.closed kind (double ((of d).closingOf kind) s)) rest := by
    intro c hc
    have hne : c ≠ (of d).closingOf kind := by
      rintro rfl
      exact hstop hc
    simp [grow, hne]
  simpa using hspells.tokens_append hend h

def marks : List Char := [' ', '.', ',', '(', ')', '*']

theorem tokens_symbol (hstart : (of d).start c = .symbol c) (hsign : c ≠ '-' ∧ c ≠ '+')
    (h : (of d).tokens rest = some ts) : (of d).tokens (c :: rest) = some (.symbol c :: ts) := by
  have hspells : (of d).Spells [c] (.symbol c) (.symbol c) :=
    ⟨c, [], rfl, congrArg some hstart, rfl⟩
  exact hspells.tokens_append (fun e _ ↦ by simp [grow, hsign]) h

theorem tokens_mark (hc : c ∈ marks) (h : (of d).tokens rest = some ts) :
    (of d).tokens (c :: rest) = some (.symbol c :: ts) := by
  have hstarts : marks.all fun c ↦ decide ((of d).start c = .symbol c) := by
    cases d <;> decide
  have hstart : (of d).start c = .symbol c := of_decide_eq_true (List.all_eq_true.1 hstarts c hc)
  refine tokens_symbol hstart ?_ h
  constructor <;>
  · rintro rfl
    exact absurd hc (by decide)

theorem tokens_arrow (hstop : rest.head? ≠ some '>') (h : (of d).tokens rest = some ts) :
    (of d).tokens ('-' :: '>' :: rest) = some (.arrow :: ts) := by
  have hspells : (of d).Spells ['-', '>'] .arrow .arrow :=
    ⟨'-', ['>'], rfl, by cases d <;> rfl, rfl⟩
  refine hspells.tokens_append (fun c hc ↦ ?_) h
  have hne : c ≠ '>' := by
    rintro rfl
    exact hstop hc
  simp [grow, hne]

theorem tokens_textArrow (h : (of d).tokens rest = some ts) :
    (of d).tokens ('-' :: '>' :: '>' :: rest) = some (.textArrow :: ts) := by
  have hspells : (of d).Spells ['-', '>', '>'] .textArrow .textArrow :=
    ⟨'-', ['>', '>'], rfl, by cases d <;> rfl, rfl⟩
  exact hspells.tokens_append (fun c _ ↦ rfl) h

theorem foldlM_word (hs : ∀ c ∈ s, isWordChar c) (w : List Char) :
    s.foldlM l.grow (.word w) = some (.word (w ++ s)) := by
  induction s generalizing w with
  | nil => simp
  | cons c s ih =>
    have hc := hs c List.mem_cons_self
    have ih := ih (fun e he ↦ hs e (List.mem_cons_of_mem _ he)) (w ++ [c])
    simpa [grow, hc] using ih

theorem start_of_isWordChar (hc : isWordChar c) : (of d).start c = .word [c] := by
  have hquote : ¬ isWordChar (of d).opening ∧ ¬ isWordChar '\x27' := by
    cases d <;> decide
  have hopening : c ≠ (of d).opening := by
    rintro rfl
    exact hquote.1 hc
  have hliteral : c ≠ '\x27' := by
    rintro rfl
    exact hquote.2 hc
  rw [start, if_neg hopening, if_neg hliteral, if_pos hc]

def Apart (s : List Char) : Prop := ∀ c ∈ s.head?, ¬ isWordChar c

theorem Apart.stops (h : Apart rest) (w : List Char) : l.Stops (.word w) rest := by
  intro c hc
  rw [grow, if_neg (h c hc)]

theorem tokens_word (hne : s ≠ []) (hs : s.all isWordChar) (hrest : Apart rest)
    (h : (of d).tokens rest = some ts) : (of d).tokens (s ++ rest) = some (.word s :: ts) := by
  have hs := List.all_eq_true.1 hs
  obtain ⟨c, r, rfl⟩ := List.exists_cons_of_ne_nil hne
  have hspells : (of d).Spells (c :: r) (.word (c :: r)) (.word (c :: r)) := by
    refine ⟨c, r, rfl, ?_, rfl⟩
    rw [start_of_isWordChar (hs c List.mem_cons_self)]
    exact foldlM_word (fun e he ↦ hs e (List.mem_cons_of_mem _ he)) [c]
  exact hspells.tokens_append (hrest.stops _) h

theorem isWordChar_of_isDigit (hc : isDigit c) : isWordChar c := by
  simp only [isDigit, Bool.and_eq_true, decide_eq_true_eq] at hc
  simp [isWordChar, Char.isAlphanum, Char.isDigit, Char.le_def] at hc ⊢
  grind

theorem tokens_signed {sign : Char} (hsign : sign = '-' ∨ sign = '+') (hne : s ≠ [])
    (hs : ∀ c ∈ s, isDigit c) (hrest : Apart rest) (h : (of d).tokens rest = some ts) :
    (of d).tokens (sign :: s ++ rest) = some (.word (sign :: s) :: ts) := by
  obtain ⟨c, r, rfl⟩ := List.exists_cons_of_ne_nil hne
  have hstart : (of d).start sign = .symbol sign := by
    rcases hsign with rfl | rfl <;> cases d <;> rfl
  have hgrow : (of d).grow (.symbol sign) c = some (.word [sign, c]) := by
    have hc := hs c List.mem_cons_self
    have harrow : c ≠ '>' := by
      rintro rfl
      exact absurd hc (by decide)
    simp [grow, harrow, hsign, hc]
  have hspells :
      (of d).Spells (sign :: c :: r) (.word (sign :: c :: r)) (.word (sign :: c :: r)) := by
    refine ⟨sign, c :: r, rfl, ?_, rfl⟩
    rw [hstart, List.foldlM_cons, hgrow]
    exact foldlM_word (fun e he ↦ isWordChar_of_isDigit (hs e (List.mem_cons_of_mem _ he)))
      [sign, c]
  exact hspells.tokens_append (hrest.stops _) h

theorem exists_digits_of_integer? {low high i : Int} (hs : integer? low high s = some i) :
    ∃ digits, digits ≠ [] ∧ (∀ c ∈ digits, isDigit c) ∧
      (s = digits ∨ ∃ sign, (sign = '-' ∨ sign = '+') ∧ s = sign :: digits) := by
  have hbody : (signOf s).2 ≠ [] ∧ ∀ c ∈ (signOf s).2, isDigit c := by
    unfold integer? at hs
    dsimp only at hs
    split at hs
    · cases hs
    · rename_i hn
      simpa using hn
  unfold signOf at hbody
  split at hbody
  · exact ⟨_, hbody.1, hbody.2, .inr ⟨'-', .inl rfl, rfl⟩⟩
  · exact ⟨_, hbody.1, hbody.2, .inr ⟨'+', .inr rfl, rfl⟩⟩
  · exact ⟨s, hbody.1, hbody.2, .inl rfl⟩

theorem tokens_integer {low high i : Int} (hs : integer? low high s = some i)
    (hrest : Apart rest) (h : (of d).tokens rest = some ts) :
    (of d).tokens (s ++ rest) = some (.word s :: ts) := by
  obtain ⟨digits, hne, hdigits, rfl | ⟨sign, hsign, rfl⟩⟩ := exists_digits_of_integer? hs
  · have hs := List.all_eq_true.2 fun c hc ↦ isWordChar_of_isDigit (hdigits c hc)
    exact tokens_word hne hs hrest h
  · exact tokens_signed hsign hne hdigits hrest h

end dialects

end Lexis

end FluentSql.Lexing
