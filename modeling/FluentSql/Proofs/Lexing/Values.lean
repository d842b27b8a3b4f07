import FluentSql.Proofs.Lexing.Selectors

namespace FluentSql.Lexing

open Text Selector Lexis

inductive Expr where
  | column (names : List (List Char))
  | step (s : Accessor)
  | access (document step : Expr) (asText : Bool)
  | cast (operand : Expr) (type : List Char)
  | call (function : List Char) (argument : Expr)
  deriving DecidableEq

namespace Expr

def documentAt (e : Expr) (steps : List Accessor) : Expr :=
  steps.foldl (fun e s ↦ .access e (.step s) false) e

def document : Expr → Expr
  | access e s _ => access e s false
  | e => e

/-- What a cast behind the value takes, where no parentheses are around it. -/
def trailing : Expr → Expr
  | access _ s _ => s
  | e => e

def castBehind (e : Expr) (type : List Char) : Expr :=
  match e with
  | access e s asText => access e (cast s type) asText
  | e => cast e type

def casts : Expr → List (Expr × List Char)
  | column _ | step _ => []
  | access e s _ => e.casts ++ s.casts
  | cast e type => e.casts ++ [(e, type)]
  | call _ e => e.casts

theorem casts_documentAt (e : Expr) (steps : List Accessor) :
    (e.documentAt steps).casts = e.casts := by
  induction steps generalizing e with
  | nil => rfl
  | cons s steps ih =>
    have hcasts : (access e (step s) false).casts = e.casts := List.append_nil _
    exact (ih _).trans hcasts

theorem casts_castBehind {e : Expr} (h : e.casts = []) (type : List Char) :
    (e.castBehind type).casts = [(e.trailing, type)] := by
  cases e <;> simp_all [castBehind, casts, trailing]

theorem casts_document {e : Expr} (h : e.casts = []) : e.document.casts = [] := by
  cases e <;> simp_all [document, casts]

end Expr

inductive Latest where
  | nothing
  | value (e : Expr)
  | dotted (names : List (List Char))
  | colon (operand : Expr)
  | colons (operand : Expr)
  | function (name : List Char)

/-- What was read between two parentheses: a document with an arrow, and what stands behind it. -/
structure Level where
  document : Option (Expr × Bool) := none
  latest : Latest := .nothing

def Level.value? : Level → Option Expr
  | ⟨none, .value e⟩ => some e
  | ⟨some (document, asText), .value e⟩ => some (.access document e asText)
  | _ => none

/-- The innermost level, and those around it with the functions that the parentheses belong to. -/
structure Reader where
  level : Level := {}
  outer : List (Option (List Char) × Level) := []

namespace Reader

def put (r : Reader) (latest : Latest) : Reader :=
  { r with level := { r.level with latest } }

def enter (r : Reader) (function : Option (List Char)) : Reader :=
  ⟨{}, (function, r.level) :: r.outer⟩

def follow (r : Reader) (asText : Bool) : Option Reader := do
  return { r with level := ⟨some (← r.level.value?, asText), .nothing⟩ }

def leave (r : Reader) : Option Reader := do
  let e ← r.level.value?
  match r.outer with
  | (function, level) :: outer =>
    some ⟨{ level with latest := .value (function.elim e (.call · e)) }, outer⟩
  | [] => none

def begin (r : Reader) (t : Token) : Option Reader :=
  match accessorOf? t with
  | some s => some (r.put (.value (.step s)))
  | none =>
    match t with
    | .word f => some (r.put (.function f))
    | .symbol '(' => some (r.enter none)
    | t => ((of .postgres).nameOf? t).map fun name ↦ r.put (.value (.column [name]))

def extend (r : Reader) (e : Expr) : Token → Option Reader
  | .symbol '.' =>
    match e with
    | .column names => some (r.put (.dotted names))
    | _ => none
  | .symbol ':' => some (r.put (.colon e))
  | .arrow => r.follow false
  | .textArrow => r.follow true
  | .symbol ')' => r.leave
  | _ => none

def read (r : Reader) (t : Token) : Option Reader :=
  match r.level.latest, t with
  | .nothing, t => r.begin t
  | .value e, t => r.extend e t
  | .dotted names, t =>
    ((of .postgres).nameOf? t).map fun name ↦ r.put (.value (.column (names ++ [name])))
  | .function f, .symbol '(' => some (r.enter (some f))
  | .colon e, .symbol ':' => some (r.put (.colons e))
  | .colons e, .word type => some (r.put (.value (.cast e type)))
  | _, _ => none

variable {r : Reader} {e : Expr}

theorem read_of_nothing (h : r.level.latest = .nothing) (t : Token) : r.read t = r.begin t := by
  unfold read
  rw [h]

theorem read_of_value (h : r.level.latest = .value e) (t : Token) : r.read t = r.extend e t := by
  unfold read
  rw [h]

theorem read_of_dotted {names : List (List Char)} {name : List Char} {t : Token}
    (h : r.level.latest = .dotted names) (ht : (of .postgres).nameOf? t = some name) :
    r.read t = some (r.put (.value (.column (names ++ [name])))) := by
  have hread : r.read t = ((of .postgres).nameOf? t).map fun name ↦
      r.put (.value (.column (names ++ [name]))) := by
    unfold read
    rw [h]
  rw [hread, ht]
  rfl

theorem begin_of_name {name : List Char} {t : Token} (ht : (of .postgres).nameOf? t = some name) :
    r.begin t = some (r.put (.value (.column [name]))) := by
  unfold nameOf? at ht
  split at ht
  · cases ht
    rfl
  · cases ht
    rfl
  · cases ht

end Reader

def valueOf? (ts : List Token) : Option Expr := do
  let r ← ts.foldlM Reader.read {}
  if r.outer.isEmpty then r.level.value? else none

def readValue (text : String) : Option Expr := do
  valueOf? (← (of .postgres).tokens text.toList)

/-- Wherever a value is expected, these tokens are one, and a cast behind them takes all of it. -/
def Tight (ts : List Token) (e : Expr) : Prop :=
  ∀ r : Reader, r.level.latest = .nothing → ts.foldlM Reader.read r = some (r.put (.value e))

/-- These tokens are a value on a level of their own. -/
def Loose (ts : List Token) (e : Expr) : Prop :=
  ∀ outer, ∃ level operand, ts.foldlM Reader.read ⟨{}, outer⟩ = some ⟨level, outer⟩ ∧
    level.latest = .value operand ∧ level.value? = some e

variable {ts us : List Token} {e x : Expr} {f type : List Char} {t : Token} {s : Accessor}

theorem Tight.loose (h : Tight ts e) : Loose ts e :=
  fun outer ↦ ⟨_, e, h ⟨{}, outer⟩ rfl, rfl, rfl⟩

theorem Loose.valueOf? (h : Loose ts e) : valueOf? ts = some e := by
  obtain ⟨level, operand, hread, -, hvalue⟩ := h []
  rw [Lexing.valueOf?, hread]
  exact hvalue

theorem tight_step (ht : accessorOf? t = some s) : Tight [t] (.step s) := by
  intro r hr
  rw [List.foldlM_cons, Reader.read_of_nothing hr]
  unfold Reader.begin
  rw [ht]
  rfl

theorem Tight.cast (h : Tight ts e) (type : List Char) :
    Tight (ts ++ [.symbol ':', .symbol ':', .word type]) (.cast e type) := by
  intro r hr
  rw [List.foldlM_append, h r hr]
  rfl

/-- What stands in parentheses is one value, or the argument of a function. -/
theorem Loose.foldlM_leave (h : Loose ts e) (r : Reader) (function : Option (List Char)) :
    (ts ++ [Token.symbol ')']).foldlM Reader.read (r.enter function) =
      some (r.put (.value (function.elim e (.call · e)))) := by
  obtain ⟨level, operand, hread, hlatest, hvalue⟩ := h ((function, r.level) :: r.outer)
  have hleave : Reader.read ⟨level, (function, r.level) :: r.outer⟩ (.symbol ')') =
      some (r.put (.value (function.elim e (.call · e)))) := by
    rw [Reader.read_of_value hlatest, Reader.extend, Reader.leave, hvalue]
    rfl
  rw [List.foldlM_append, Reader.enter, hread]
  exact (bind_pure _).trans hleave

theorem Loose.enclosed (h : Loose ts e) : Tight (.symbol '(' :: ts ++ [.symbol ')']) e := by
  intro r hr
  rw [List.cons_append, List.foldlM_cons, Reader.read_of_nothing hr]
  exact h.foldlM_leave r none

theorem Loose.call (h : Loose ts e) (hf : int64? f = none) :
    Tight (.word f :: .symbol '(' :: ts ++ [.symbol ')']) (.call f e) := by
  intro r hr
  have hword : accessorOf? (.word f) = none := by
    rw [accessorOf?, hf]
    rfl
  rw [List.cons_append, List.cons_append, List.foldlM_cons, Reader.read_of_nothing hr]
  unfold Reader.begin
  rw [hword]
  exact h.foldlM_leave (r.put (.function f)) (some f)

def arrowToken : (asText : Bool) → Token
  | true => .textArrow
  | false => .arrow

/-- What stands before an arrow is one document, and a cast behind the arrow belongs to the step. -/
theorem Loose.access (h : Loose ts e) (hx : Tight us x) (asText : Bool) :
    Loose (ts ++ arrowToken asText :: us) (.access e x asText) := by
  intro outer
  obtain ⟨level, operand, hread, hlatest, hvalue⟩ := h outer
  have hextend : Reader.extend ⟨level, outer⟩ operand (arrowToken asText) =
      Reader.follow ⟨level, outer⟩ asText := by
    cases asText <;> rfl
  have hfollow : Reader.follow ⟨level, outer⟩ asText =
      some ⟨⟨some (e, asText), .nothing⟩, outer⟩ := by
    rw [Reader.follow, hvalue]
    rfl
  refine ⟨⟨some (e, asText), .value x⟩, x, ?_, rfl, rfl⟩
  rw [List.foldlM_append, hread, Option.bind_eq_bind, Option.bind_some, List.foldlM_cons,
    Reader.read_of_value hlatest, hextend, hfollow]
  exact hx ⟨⟨some (e, asText), .nothing⟩, outer⟩ rfl

theorem nameTokens_cons_cons (d : Dialect) (s t : List Char) (names : List (List Char)) :
    nameTokens d (s :: t :: names) = nameToken d s :: .symbol '.' :: nameTokens d (t :: names) :=
  rfl

theorem foldlM_dotted {names before : List (List Char)} (hne : names ≠ []) {r : Reader}
    (hr : r.level.latest = .dotted before) : (nameTokens .postgres names).foldlM Reader.read r =
      some (r.put (.value (.column (before ++ names)))) := by
  match names with
  | [s] =>
    have hname := Reader.read_of_dotted hr (nameOf?_nameToken .postgres s)
    exact congrArg (· >>= pure) hname
  | s :: t :: names =>
    rw [nameTokens_cons_cons, List.foldlM_cons,
      Reader.read_of_dotted hr (nameOf?_nameToken .postgres s)]
    have hrest := foldlM_dotted (List.cons_ne_nil t names)
      (r := r.put (.dotted (before ++ [s]))) rfl
    rw [List.append_assoc] at hrest
    exact hrest

theorem tight_names {names : List (List Char)} (hne : names ≠ []) :
    Tight (nameTokens .postgres names) (.column names) := by
  intro r hr
  have hname (s : List Char) :
      r.read (nameToken .postgres s) = some (r.put (.value (.column [s]))) :=
    (Reader.read_of_nothing hr _).trans (Reader.begin_of_name (nameOf?_nameToken .postgres s))
  match names with
  | [s] => exact congrArg (· >>= pure) (hname s)
  | s :: t :: names =>
    rw [nameTokens_cons_cons, List.foldlM_cons, hname]
    exact foldlM_dotted (List.cons_ne_nil t names) (r := r.put (.dotted [s])) rfl

def Lexed (s : List Char) (us : List Token) : Prop :=
  ∀ rest ts, (∀ c ∈ rest.head?, c ∈ ['-', ':', ')']) → (of .postgres).tokens rest = some ts →
    (of .postgres).tokens (s ++ rest) = some (us ++ ts)

def IsPrimary (s : List Char) (e : Expr) : Prop := ∃ us, Lexed s us ∧ Tight us e

def IsValue (s : List Char) (e : Expr) : Prop := ∃ us, Lexed s us ∧ Loose us e

section texts

variable {s k : List Char} {e x : Expr} {us vs : List Token}

theorem tokens_colon {rest : List Char} {ts : List Token}
    (h : (of .postgres).tokens rest = some ts) :
    (of .postgres).tokens (':' :: rest) = some (.symbol ':' :: ts) :=
  tokens_symbol rfl (by decide) h

theorem apart_of_head? {rest : List Char} (h : ∀ c ∈ rest.head?, c ∈ ['-', ':', ')']) :
    Apart rest := by
  intro c hc
  have hall : ['-', ':', ')'].all (!isWordChar ·) := by decide
  simpa using List.all_eq_true.1 hall c (h c hc)

theorem head?_ne {rest : List Char} (h : ∀ c ∈ rest.head?, c ∈ ['-', ':', ')']) {q : Char}
    (hq : q ∉ ['-', ':', ')']) : rest.head? ≠ some q :=
  fun hc ↦ hq (h q hc)

theorem IsPrimary.isValue (h : IsPrimary s e) : IsValue s e :=
  let ⟨us, hs, hus⟩ := h
  ⟨us, hs, hus.loose⟩

theorem IsValue.readValue (h : IsValue s e) : readValue (String.ofList s) = some e := by
  obtain ⟨us, hs, hus⟩ := h
  have htokens := hs [] [] nofun rfl
  rw [List.append_nil, List.append_nil] at htokens
  rw [Lexing.readValue, String.toList_ofList, htokens]
  exact hus.valueOf?

theorem IsPrimary.cast (h : IsPrimary s e) {type : List Char} (hne : type ≠ [])
    (hword : type.all isWordChar) : IsPrimary (s ++ ':' :: ':' :: type) (.cast e type) := by
  obtain ⟨us, hs, hus⟩ := h
  refine ⟨_, fun rest ts hrest hts ↦ ?_, hus.cast type⟩
  have htype := tokens_word hne hword (apart_of_head? hrest) hts
  have hread := hs _ _ (by simp) (tokens_colon (tokens_colon htype))
  simpa using hread

theorem IsValue.enclosed (h : IsValue s e) : IsPrimary ('(' :: s ++ [')']) e := by
  obtain ⟨us, hs, hus⟩ := h
  refine ⟨_, fun rest ts _ hts ↦ ?_, hus.enclosed⟩
  have hclose := tokens_mark (c := ')') (by decide) hts
  have hread := tokens_mark (c := '(') (by decide) (hs _ _ (by simp) hclose)
  simpa using hread

theorem IsValue.call (h : IsValue s e) {f : List Char} (hne : f ≠ []) (hword : f.all isWordChar)
    (hf : int64? f = none) : IsPrimary (f ++ '(' :: s ++ [')']) (.call f e) := by
  obtain ⟨us, hs, hus⟩ := h
  refine ⟨_, fun rest ts _ hts ↦ ?_, hus.call hf⟩
  have hclose := tokens_mark (c := ')') (by decide) hts
  have hopen := tokens_mark (c := '(') (by decide) (hs _ _ (by simp) hclose)
  have happart : Apart ('(' :: (s ++ ')' :: rest)) := by
    rintro c ⟨⟩
    decide
  have hread := tokens_word hne hword happart hopen
  simpa using hread

def arrowChars : (asText : Bool) → List Char
  | true => ['-', '>', '>']
  | false => ['-', '>']

theorem IsValue.access (h : IsValue s e) (hk : IsPrimary k x) (hne : ∃ c r, k = c :: r ∧ c ≠ '>')
    (asText : Bool) : IsValue (s ++ arrowChars asText ++ k) (.access e x asText) := by
  obtain ⟨us, hs, hus⟩ := h
  obtain ⟨vs, hk, hvs⟩ := hk
  refine ⟨_, fun rest ts hrest hts ↦ ?_, hus.access hvs asText⟩
  obtain ⟨c, r, rfl, hc⟩ := hne
  have hkey := hk rest ts hrest hts
  have harrow : (of .postgres).tokens (arrowChars asText ++ (c :: r ++ rest)) =
      some (arrowToken asText :: (vs ++ ts)) := by
    cases asText with
    | true => exact tokens_textArrow hkey
    | false => exact tokens_arrow (fun he ↦ hc (Option.some.inj he)) hkey
  have hdash : ∀ e ∈ (arrowChars asText ++ (c :: r ++ rest)).head?, e ∈ ['-', ':', ')'] := by
    cases asText <;> simp [arrowChars]
  have hread := hs _ _ hdash harrow
  simpa using hread

theorem isPrimary_columnChars {g : Grammar} (hd : g.dialect = .postgres) (s : List Char) :
    IsPrimary (g.columnChars s)
      (.column (Quoting.qualified g.tablePrefix.toList (s.splitOn '.'))) := by
  refine ⟨g.columnTokens s, fun rest ts hrest hts ↦ ?_, ?_⟩
  · rw [← hd] at hts ⊢
    refine Grammar.tokens_columnChars s ?_ hts
    rw [hd]
    exact head?_ne hrest (by decide)
  · rw [Grammar.columnTokens, hd]
    exact tight_names (Grammar.columnTokens_names_ne_nil g s)

theorem isPrimary_written {a : Accessor} (h : Written k a) : IsPrimary k (.step a) := by
  obtain ⟨t, ht, hread⟩ := h.exists_token (d := .postgres) (by decide)
  exact ⟨[t], fun rest ts hrest hts ↦ hread rest ts (apart_of_head? hrest)
    (head?_ne hrest (by decide)) hts, tight_step ht⟩

end texts

end FluentSql.Lexing
