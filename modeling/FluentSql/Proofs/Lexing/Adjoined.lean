import FluentSql.Proofs.Lexing.Scanner
import FluentSql.Text.Blank

namespace FluentSql.Lexing

open Text

variable {d : Dialect} {m : Mode} {c : Char} {s t z : List Char} {ts us : List Token}

def isBreak (c : Char) : Bool :=
  !isWordChar c && !(['\x27', '"', '\x60', ']', '>'].contains c)

def isLone (c : Char) : Bool := isBreak c && !(['[', '-', '+'].contains c)

def Severed (s t : List Char) : Prop :=
  (∃ c ∈ s.getLast?, isLone c) ∨ ∀ c ∈ t.head?, isBreak c

/-- Two texts that differ only in blanks, at an end where every character is a token. -/
def EndsAlike (s t : List Char) : Prop :=
  ∃ front z z', s = front ++ z ∧ t = front ++ z' ∧ (∀ c ∈ z, isLone c) ∧ (∀ c ∈ z', isLone c) ∧
    z'.filter (fun c ↦ !Text.isBlank c) = z.filter fun c ↦ !Text.isBlank c

def Token.isBlank : Token → Bool
  | .symbol c => Text.isBlank c
  | _ => false

theorem Severed.cons (h : isBreak c) : Severed s (c :: t) := by
  refine .inr fun e he ↦ ?_
  obtain rfl : c = e := Option.some.inj he
  exact h

theorem isBreak_iff : isBreak c ↔
    ¬ isWordChar c ∧ c ≠ '\x27' ∧ c ≠ '"' ∧ c ≠ '\x60' ∧ c ≠ ']' ∧ c ≠ '>' := by
  simp [isBreak]

theorem isLone_iff : isLone c ↔ isBreak c ∧ c ≠ '[' ∧ c ≠ '-' ∧ c ≠ '+' := by
  simp [isLone]

theorem isAlphanum_of_isBlank (h : isBlank c) : c.isAlphanum = false := by
  refine Bool.eq_false_iff.2 fun ha ↦ ?_
  have hclass : (decide (65 ≤ c.val ∧ c.val ≤ 90) ||
      (decide (97 ≤ c.val) && decide (c.val ≤ 122)) ||
      (decide (48 ≤ c.val) && decide (c.val ≤ 57))) = true := ha
  simp only [Bool.or_eq_true, Bool.and_eq_true, decide_eq_true_eq, UInt32.le_iff_toNat_le,
    UInt32.reduceToNat] at hclass
  simp only [isBlank, Bool.or_eq_true, Bool.and_eq_true, decide_eq_true_eq, beq_iff_eq,
    Char.toNat] at h
  omega

theorem isLone_of_isBlank (h : isBlank c) : isLone c := by
  have hne (e : Char) (he : isBlank e = false) : c ≠ e := by
    rintro rfl
    rw [he] at h
    cases h
  have hword : ¬ isWordChar c := by simp [isWordChar, isAlphanum_of_isBlank h, hne '_' rfl]
  exact isLone_iff.2 ⟨isBreak_iff.2 ⟨hword, hne _ rfl, hne _ rfl, hne _ rfl, hne _ rfl, hne _ rfl⟩,
    hne _ rfl, hne _ rfl, hne _ rfl⟩

theorem EndsAlike.cons (h : EndsAlike s t) (r : List Char) : EndsAlike (r ++ s) (r ++ t) := by
  obtain ⟨front, z, z', rfl, rfl, h⟩ := h
  exact ⟨r ++ front, z, z', by simp, by simp, h⟩

theorem EndsAlike.blanks (h : EndsAlike s t) (ht : ∀ c ∈ t, isLone c) (hz : ∀ c ∈ z, isBlank c) :
    EndsAlike (z ++ s) t := by
  obtain ⟨front, y, y', rfl, rfl, hy, hy', he⟩ := h
  have hfront : ∀ c ∈ front, isLone c := fun c hc ↦ ht c (List.mem_append_left _ hc)
  refine ⟨[], z ++ (front ++ y), front ++ y', rfl, rfl, ?_, ht, ?_⟩
  · simp only [List.forall_mem_append]
    exact ⟨fun c hc ↦ isLone_of_isBlank (hz c hc), hfront, hy⟩
  · have hnone : z.filter (fun c ↦ !isBlank c) = [] := by simpa using hz
    rw [List.filter_append, List.filter_append, List.filter_append, hnone, he, List.nil_append]

theorem isBreak_of_isLone (h : isLone c) : isBreak c := (isLone_iff.1 h).1

namespace Lexis

def lexemes (l : Lexis) (s : List Char) : Option (List Token) :=
  (l.tokens s).map (·.filter fun t ↦ !t.isBlank)

theorem ne_closingOf_of_isBreak (hc : isBreak c) (kind : Quoted) : c ≠ (of d).closingOf kind := by
  obtain ⟨-, hliteral, hdouble, hback, hbracket, -⟩ := isBreak_iff.1 hc
  cases kind with
  | literal => exact hliteral
  | name => cases d <;> assumption

theorem grow_of_isBreak (hc : isBreak c) (hm : m.pending = some ts) : (of d).grow m c = none := by
  obtain ⟨hword, -, -, -, -, harrow⟩ := isBreak_iff.1 hc
  cases m with
  | between => rfl
  | textArrow => rfl
  | quoted kind body => cases hm
  | escaped kind body => cases hm
  | closed kind body => simp [grow, ne_closingOf_of_isBreak hc]
  | word w => simp [grow, hword]
  | arrow => simp [grow, harrow]
  | symbol sign =>
    have hdigit : ¬ isDigit c := fun h ↦ hword (isWordChar_of_isDigit h)
    simp [grow, harrow, hdigit]

theorem start_of_isLone (hc : isLone c) : (of d).start c = .symbol c := by
  obtain ⟨hbreak, hbracket, -⟩ := isLone_iff.1 hc
  obtain ⟨hword, hliteral, hdouble, hback, -⟩ := isBreak_iff.1 hbreak
  have hopening : c ≠ (of d).opening := by cases d <;> assumption
  rw [start, if_neg hopening, if_neg hliteral, if_neg hword]

theorem stops_of_isLone (hc : isLone c) (t : List Char) : (of d).Stops (.symbol c) t := by
  obtain ⟨-, -, hminus, hplus⟩ := isLone_iff.1 hc
  intro e _
  simp [grow, hminus, hplus]

theorem scan_symbol (hc : isLone c) (ht : (of d).tokens t = some us) :
    (of d).scan (.symbol c) t = some (.symbol c :: us) := by
  rw [scan_of_stops rfl (stops_of_isLone hc t), ht]
  rfl

/-- What is open stays open. -/
theorem scan_eq_none (hm : m.pending = none) (hz : ∀ c ∈ z, isBreak c) :
    (of d).scan m z = none := by
  induction z generalizing m with
  | nil => exact hm
  | cons c z ih =>
    have hne (kind : Quoted) : c ≠ (of d).closingOf kind :=
      ne_closingOf_of_isBreak (hz c List.mem_cons_self) kind
    have hopen : ∃ m', (of d).grow m c = some m' ∧ m'.pending = none := by
      cases m with
      | quoted kind body =>
        simp only [grow, if_neg (hne kind)]
        split <;> exact ⟨_, rfl, rfl⟩
      | escaped kind body => exact ⟨_, rfl, rfl⟩
      | _ => cases hm
    obtain ⟨m', hg, hm'⟩ := hopen
    rw [scan, hg]
    exact ih hm' fun e he ↦ hz e (List.mem_cons_of_mem _ he)

theorem tokens_cons_of_isLone (hc : isLone c) (ht : (of d).tokens t = some us) :
    (of d).tokens (c :: t) = some (.symbol c :: us) := by
  rw [tokens, scan, start_of_isLone hc, scan_symbol hc ht]
  rfl

theorem tokens_lone (hz : ∀ c ∈ z, isLone c) : (of d).tokens z = some (z.map .symbol) := by
  induction z with
  | nil => rfl
  | cons c z ih =>
    exact tokens_cons_of_isLone (hz c List.mem_cons_self)
      (ih fun e he ↦ hz e (List.mem_cons_of_mem _ he))

theorem scan_append_of_isBreak (hs : (of d).scan m s = some ts)
    (ht : (of d).tokens t = some us) (h : ∀ c ∈ t.head?, isBreak c) :
    (of d).scan m (s ++ t) = some (ts ++ us) := by
  induction s generalizing m ts with
  | nil =>
    have hm : m.pending = some ts := hs
    rw [List.nil_append, scan_of_stops hm fun c hc ↦ grow_of_isBreak (h c hc) hm, ht]
    rfl
  | cons c s ih =>
    rw [scan] at hs
    rw [List.cons_append, scan]
    cases hg : (of d).grow m c with
    | some m' =>
      rw [hg] at hs
      exact ih hs
    | none =>
      simp only [hg, Option.bind_eq_bind, Option.bind_eq_some_iff, Option.pure_def,
        Option.some.injEq] at hs
      obtain ⟨ps, hps, qs, hqs, rfl⟩ := hs
      simp [hps, ih hqs]

/-- Text in which no quote ends is read for itself, or not at all. -/
theorem scan_append_of_all (hz : ∀ c ∈ z, isBreak c) :
    (of d).scan m (s ++ z) = do return (← (of d).scan m s) ++ (← (of d).tokens z) := by
  induction s generalizing m with
  | nil =>
    rw [List.nil_append]
    cases hm : m.pending with
    | none => simp [scan_eq_none hm hz, scan, hm]
    | some ps =>
      have hstops : (of d).Stops m z := fun c hc ↦
        grow_of_isBreak (hz c (List.mem_of_mem_head? hc)) hm
      rw [scan_of_stops hm hstops, scan, hm]
      cases (of d).tokens z <;> rfl
  | cons c s ih =>
    rw [List.cons_append, scan, scan]
    cases (of d).grow m c with
    | some m' => exact ih
    | none =>
      simp only [ih]
      cases m.pending <;> cases (of d).scan ((of d).start c) s <;> cases (of d).tokens z <;> simp

/-- Where no token can go on, either text is read for itself. -/
theorem tokens_append (hs : (of d).tokens s = some ts) (ht : (of d).tokens t = some us)
    (h : Severed s t) : (of d).tokens (s ++ t) = some (ts ++ us) := by
  rcases h with ⟨c, hc, hlone⟩ | h
  · obtain ⟨r, rfl⟩ := List.getLast?_eq_some_iff.1 hc
    have hbreak := isBreak_of_isLone hlone
    rw [tokens, scan_append_of_all (by simpa using hbreak),
      tokens_lone (by simpa using hlone)] at hs
    obtain ⟨ps, hps, rfl⟩ : ∃ ps, (of d).scan .between r = some ps ∧ ps ++ [.symbol c] = ts := by
      cases hr : (of d).scan .between r with
      | none => simp [hr] at hs
      | some ps => exact ⟨ps, rfl, by simpa [hr] using hs⟩
    have hread :=
      scan_append_of_isBreak hps (tokens_cons_of_isLone hlone ht) (by simpa using hbreak)
    simpa [tokens] using hread
  · exact scan_append_of_isBreak hs ht h

theorem lexemes_append (hs : (of d).lexemes s = some ts) (ht : (of d).lexemes t = some us)
    (h : Severed s t) : (of d).lexemes (s ++ t) = some (ts ++ us) := by
  obtain ⟨ts, hts, rfl⟩ := Option.map_eq_some_iff.1 hs
  obtain ⟨us, hus, rfl⟩ := Option.map_eq_some_iff.1 ht
  rw [lexemes, tokens_append hts hus h]
  simp

/-- A text between two others, from which it is set off. -/
theorem lexemes_joined {mark : List Char} {ms : List Token} (hs : (of d).lexemes s = some ts)
    (hm : (of d).lexemes mark = some ms) (hb : mark.head?.any isBreak)
    (hl : mark.getLast?.any isLone) (ht : (of d).lexemes t = some us) :
    (of d).lexemes (s ++ mark ++ t) = some (ts ++ ms ++ us) := by
  obtain ⟨c, hc, hlone⟩ := (Option.any_eq_true _ _).1 hl
  obtain ⟨e, he, hbreak⟩ := (Option.any_eq_true _ _).1 hb
  obtain ⟨r, rfl⟩ := List.head?_eq_some_iff.1 he
  have hmark := lexemes_append hm ht (.inl ⟨c, hc, hlone⟩)
  rw [List.append_assoc, List.append_assoc]
  exact lexemes_append hs hmark (.cons hbreak)

theorem lexemes_of_endsAlike (h : EndsAlike s t) : (of d).lexemes t = (of d).lexemes s := by
  obtain ⟨front, z, z', rfl, rfl, hz, hz', he⟩ := h
  have hread (z : List Char) (hz : ∀ c ∈ z, isLone c) : (of d).lexemes (front ++ z) =
      do return (← (of d).lexemes front) ++ (z.filter fun c ↦ !isBlank c).map .symbol := by
    rw [lexemes, tokens, scan_append_of_all fun c hc ↦ isBreak_of_isLone (hz c hc), tokens_lone hz,
      lexemes, tokens]
    cases (of d).scan .between front with
    | none => rfl
    | some ts =>
      simp [List.filter_map]
      rfl
  rw [hread z hz, hread z' hz', he]

end Lexis

end FluentSql.Lexing
