import FluentSql.Proofs.Lexing.Names
import FluentSql.Proofs.Lexing.Paths

namespace FluentSql

open Text Lexing Lexis

namespace Selector

variable {s rest : List Char} {ts : List Token}

inductive Accessor where
  | key (s : List Char)
  | index (i : Int)
  deriving DecidableEq

def int64? (s : List Char) : Option Int := integer? Value.int64Low Value.int64High s

/-- An integer is an index even where a key is expected. -/
def Accessor.ofText (s : List Char) : Accessor :=
  match int64? s with
  | some i => .index i
  | none => .key s

def bracketed (indexes : List (List Char)) : List Char :=
  indexes.flatMap fun i ↦ '[' :: i ++ [']']

/-- The steps that one segment of a path stands for: a key and the integers in brackets behind it,
or the segment itself where it does not end in such brackets. -/
inductive Leads : List Char → List Accessor → Prop
  | indexed {key : List Char} {texts : List (List Char)} {indexes : List Int} : '[' ∉ key →
      texts ≠ [] → List.Forall₂ (fun t i ↦ int64? t = some i) texts indexes →
      Leads (key ++ bracketed texts)
        ((if key = [] then [] else [.ofText key]) ++ indexes.map .index)
  | whole {s : List Char} :
      (∀ key texts, '[' ∉ key → texts ≠ [] → (∀ t ∈ texts, (int64? t).isSome) →
        s ≠ key ++ bracketed texts) → Leads s [.ofText s]

inductive Written : List Char → Accessor → Prop
  | index {s : List Char} {i : Int} : int64? s = some i → Written s (.index i)
  | key (s : List Char) : Written ('\x27' :: double '\x27' s ++ ['\x27']) (.key s)

theorem written_accessor (s : List Char) : Written (accessor s) (.ofText s) := by
  rw [accessor, isIndex, Accessor.ofText, int64?]
  cases h : integer? Value.int64Low Value.int64High s with
  | none => exact .key s
  | some i => exact .index h

theorem forall₂_of_all_isIndex {texts : List (List Char)} (h : texts.all isIndex) :
    ∃ indexes, List.Forall₂ (fun t i ↦ int64? t = some i) texts indexes := by
  induction texts with
  | nil => exact ⟨[], .nil⟩
  | cons t texts ih =>
    rw [List.all_cons, Bool.and_eq_true] at h
    obtain ⟨i, hi⟩ := Option.isSome_iff_exists.1 h.1
    obtain ⟨indexes, hindexes⟩ := ih h.2
    exact ⟨i :: indexes, .cons hi hindexes⟩

theorem bracket_notMem_of_int64? {i : Int} (h : int64? s = some i) : ']' ∉ s := by
  intro hm
  have hdigit : ¬ isDigit ']' := by decide
  obtain ⟨digits, -, hdigits, rfl | ⟨sign, hsign, rfl⟩⟩ := exists_digits_of_integer? h
  · exact hdigit (hdigits _ hm)
  · rcases List.mem_cons.1 hm with rfl | hm
    · exact absurd hsign (by decide)
    · exact hdigit (hdigits _ hm)

theorem bracketed_eq {texts : List (List Char)} (h : texts ≠ []) :
    bracketed texts = '[' :: [']', '['].intercalate texts ++ [']'] := by
  induction texts with
  | nil => exact absurd rfl h
  | cons t rest ih =>
    by_cases hrest : rest = []
    · subst hrest
      simp [bracketed]
    · have ih := ih hrest
      rw [bracketed] at ih ⊢
      rw [List.flatMap_cons, ih, List.intercalate_cons_of_ne_nil hrest]
      simp

theorem splitBrackets?_bracketed {key : List Char} {texts : List (List Char)} (hkey : '[' ∉ key)
    (h : texts ≠ []) :
    splitBrackets? (key ++ bracketed texts) = some (key, bracketed texts) := by
  have hend : bracketed texts = '[' :: ([']', '['].intercalate texts ++ [']']) := bracketed_eq h
  have hlast : (key ++ bracketed texts).getLast? = some ']' := by
    rw [bracketed_eq h, ← List.append_assoc, List.getLast?_concat]
  have hkeep : ∀ c ∈ key, (c != '[') = true := fun c hc ↦ bne_iff_ne.2 fun he ↦ hkey (he ▸ hc)
  rw [splitBrackets?, if_pos ⟨hlast, by simp [hend]⟩, List.span_eq_takeWhile_dropWhile,
    List.takeWhile_append_of_pos hkeep, List.dropWhile_append_of_pos hkeep, hend]
  simp

theorem segments_bracketed {texts : List (List Char)} (h : texts ≠ [])
    (htexts : ∀ t ∈ texts, (int64? t).isSome) :
    segments [']', '['] (((bracketed texts).drop 1).dropLast) = texts := by
  have hplain : ∀ t ∈ texts, ¬ [']', '['] <:+: t := fun t ht hi ↦ by
    obtain ⟨i, hi'⟩ := Option.isSome_iff_exists.1 (htexts t ht)
    exact bracket_notMem_of_int64? hi' (hi.subset List.mem_cons_self)
  rw [bracketed_eq h, List.cons_append, List.drop_succ_cons, List.drop_zero, List.dropLast_concat]
  exact segments_intercalate (by decide) h hplain

theorem leads_accessors (s : List Char) :
    ∃ steps, Leads s steps ∧ List.Forall₂ Written (accessors s) steps := by
  have hwhole (h : ∀ key texts, '[' ∉ key → texts ≠ [] → (∀ t ∈ texts, (int64? t).isSome) →
      s ≠ key ++ bracketed texts) :
      ∃ steps, Leads s steps ∧ List.Forall₂ Written [accessor s] steps :=
    ⟨_, .whole h, .cons (written_accessor s) .nil⟩
  rw [accessors]
  split
  · rename_i key brackets hs
    obtain ⟨rfl, hkey, inner, rfl⟩ := splitBrackets?_eq_some hs
    dsimp only
    split
    · rename_i hall
      obtain ⟨indexes, hindexes⟩ := forall₂_of_all_isIndex hall
      have hinner : ((('[' :: inner ++ [']']).drop 1).dropLast) = inner := by simp
      rw [hinner] at hindexes ⊢
      have htexts := segments_ne_nil [']', '['] inner
      have hbrackets : '[' :: inner ++ [']'] = bracketed (segments [']', '['] inner) := by
        rw [bracketed_eq htexts, intercalate_segments (List.cons_ne_nil _ _)]
      rw [hbrackets]
      refine ⟨_, .indexed hkey htexts hindexes, List.rel_append ?_ ?_⟩
      · cases key with
        | nil => exact .nil
        | cons c key => exact .cons (written_accessor (c :: key)) .nil
      · exact List.forall₂_map_right_iff.2 (hindexes.imp fun _ _ ↦ .index)
    · rename_i hall
      refine hwhole fun key' texts hkey' hne htexts he ↦ hall ?_
      have hs' := splitBrackets?_bracketed hkey' hne
      rw [← he, hs] at hs'
      obtain ⟨rfl, hb⟩ := Prod.mk.inj (Option.some.inj hs')
      rw [hb, segments_bracketed hne htexts]
      exact List.all_eq_true.2 htexts
  · rename_i hs
    refine hwhole fun key texts hkey hne htexts he ↦ ?_
    rw [he, splitBrackets?_bracketed hkey hne] at hs
    cases hs

theorem Leads.ne_nil {steps : List Accessor} (h : Leads s steps) : steps ≠ [] := by
  cases h with
  | indexed hkey hne hindexes =>
    cases hindexes with
    | nil => exact absurd rfl hne
    | cons => simp
  | whole => exact List.cons_ne_nil _ _

theorem accessors_ne_nil (s : List Char) : accessors s ≠ [] := by
  obtain ⟨steps, hleads, hwritten⟩ := leads_accessors s
  intro h
  rw [h, List.forall₂_nil_left_iff] at hwritten
  exact hleads.ne_nil hwritten

theorem flatMap_accessors_ne_nil {keys : List (List Char)} (h : keys ≠ []) :
    keys.flatMap accessors ≠ [] := by
  obtain ⟨key, hkey⟩ := List.exists_mem_of_ne_nil _ h
  exact fun h ↦ accessors_ne_nil key (List.flatMap_eq_nil_iff.1 h key hkey)

/-- What is written for a path are the steps of its segments. -/
theorem leads_path (keys : List (List Char)) : ∃ groups, List.Forall₂ Leads keys groups ∧
    List.Forall₂ Written (keys.flatMap accessors) groups.flatten := by
  induction keys with
  | nil => exact ⟨[], .nil, .nil⟩
  | cons key keys ih =>
    obtain ⟨group, hkey, hwritten⟩ := leads_accessors key
    obtain ⟨groups, hkeys, hrest⟩ := ih
    exact ⟨group :: groups, .cons hkey hkeys, List.rel_append hwritten hrest⟩

section chain

def steps : List (List Char) → List Char
  | [] => []
  | [key] => '-' :: '>' :: '>' :: key
  | key :: keys => '-' :: '>' :: key ++ steps keys

theorem head?_steps {keys : List (List Char)} (h : keys ≠ []) : (steps keys).head? = some '-' := by
  match keys with
  | [] => exact absurd rfl h
  | [_] | _ :: _ :: _ => rfl

theorem chain_eq (field : List Char) (keys : List (List Char)) :
    chain field keys = field ++ steps keys := by
  rw [chain]
  split
  · rename_i h
    rw [List.getLast?_eq_none_iff.1 h, steps, List.append_nil]
  · rename_i last h
    obtain ⟨front, rfl⟩ := List.getLast?_eq_some_iff.1 h
    rw [List.dropLast_concat]
    clear h
    induction front generalizing field with
    | nil => simp [steps]
    | cons key front ih =>
      have hsteps : steps (key :: front ++ [last]) =
          '-' :: '>' :: key ++ steps (front ++ [last]) := by
        cases front <;> rfl
      rw [List.foldl_cons, ih, hsteps]
      simp [Quoting.arrow]

variable {d : Dialect} {step : Accessor} {keys : List (List Char)} {accessors : List Accessor}

def accessorOf? : Token → Option Accessor
  | .word s => (int64? s).map .index
  | .quoted .literal body => some (.key (undouble '\x27' body))
  | _ => none

/-- A chain of steps. Only the last arrow asks for text. -/
def readChain : List Token → Option (List Accessor)
  | [.textArrow, last] => do return [← accessorOf? last]
  | .arrow :: step :: rest => do return (← accessorOf? step) :: (← readChain rest)
  | _ => none

theorem Written.head? (h : Written s step) : ∃ c r, s = c :: r ∧ c ≠ '>' := by
  cases h with
  | index hs =>
    obtain ⟨digits, hne, hdigits, rfl | ⟨sign, rfl | rfl, rfl⟩⟩ := exists_digits_of_integer? hs
    · obtain ⟨c, r, rfl⟩ := List.exists_cons_of_ne_nil hne
      refine ⟨c, r, rfl, ?_⟩
      rintro rfl
      exact absurd (hdigits '>' List.mem_cons_self) (by decide)
    · exact ⟨'-', _, rfl, by decide⟩
    · exact ⟨'+', _, rfl, by decide⟩
  | key => exact ⟨'\x27', _, rfl, by decide⟩

theorem sealed_of_ne_mysql (hd : d ≠ .mysql) (kind : Quoted) (s : List Char) :
    (of d).Sealed kind s := by
  intro h
  cases kind with
  | name => cases h
  | literal => cases d <;> contradiction

/-- A step is one token, wherever no quote, letter or digit comes next. -/
theorem Written.exists_token (hd : d ≠ .mysql) (hs : Written s step) :
    ∃ t, accessorOf? t = some step ∧ ∀ rest ts, Apart rest → rest.head? ≠ some '\x27' →
      (of d).tokens rest = some ts → (of d).tokens (s ++ rest) = some (t :: ts) := by
  cases hs with
  | index hs =>
    refine ⟨.word s, by rw [accessorOf?, hs]; rfl, fun rest ts hrest _ h ↦ ?_⟩
    exact tokens_integer hs hrest h
  | key s =>
    refine ⟨.quoted .literal (double '\x27' s), by rw [accessorOf?, undouble_double], ?_⟩
    intro rest ts _ hstop h
    have hread := tokens_quoted (sealed_of_ne_mysql hd .literal s) hstop h
    simpa [openingOf, closingOf] using hread

/-- A chain reads back as its steps, with the arrow for text before the last one. -/
theorem tokens_steps (hd : d ≠ .mysql) (hne : keys ≠ [])
    (h : List.Forall₂ Written keys accessors) :
    ∃ ts, (of d).tokens (steps keys) = some ts ∧ readChain ts = some accessors := by
  induction h with
  | nil => exact absurd rfl hne
  | @cons key step keys accessors hkey hkeys ih =>
    obtain ⟨c, r, hcons, hc⟩ := hkey.head?
    obtain ⟨t, ht, hread⟩ := hkey.exists_token hd
    cases hkeys with
    | nil =>
      have hend := hread [] [] nofun nofun rfl
      rw [List.append_nil] at hend
      exact ⟨[.textArrow, t], tokens_textArrow hend, by simp [readChain, ht]⟩
    | @cons key' _ keys' _ _ _ =>
      obtain ⟨ts, hts, hchain⟩ := ih (List.cons_ne_nil _ _)
      have hdash := head?_steps (List.cons_ne_nil key' keys')
      have hread := hread (steps (key' :: keys')) ts
        (fun e he ↦ Option.some.inj (hdash.symm.trans he) ▸ by decide) (by rw [hdash]; decide) hts
      refine ⟨.arrow :: t :: ts, ?_, by simp [readChain, ht, hchain]⟩
      have hstop : (key ++ steps (key' :: keys')).head? ≠ some '>' := by
        rw [hcons]
        exact fun he ↦ hc (Option.some.inj he)
      simpa [steps] using tokens_arrow hstop hread

end chain

def functions : Dialect → List String
  | .mysql => ["json_unquote", "json_extract"]
  | .sqlite => ["json_extract"]
  | .sqlServer => ["json_value"]
  | .postgres | .generic => []

def calls (d : Dialect) : List Token :=
  (functions d).flatMap fun f ↦ [.word f.toList, .symbol '(']

def closings (d : Dialect) : List Token :=
  (functions d).map fun _ ↦ .symbol ')'

def literalBody (path : List Char) : List Char :=
  double '\x27' (documentPath ((segments Quoting.arrow path).map dropEscapes))

theorem pathLiteral_literalBody (path : List Char) :
    pathLiteral path = '\x27' :: literalBody path ++ ['\x27'] :=
  pathLiteral_eq path

theorem sealed_literal (l : Lexis) (path : List Char) :
    l.Sealed .literal (documentPath ((segments Quoting.arrow path).map dropEscapes)) := by
  have hsolid : Solid (documentPath ((segments Quoting.arrow path).map dropEscapes)) :=
    solid_documentPath fun k hk ↦ by
      obtain ⟨key, -, rfl⟩ := List.mem_map.1 hk
      exact calm_dropEscapes key
  exact fun _ ↦ ⟨hsolid.calm, hsolid.last⟩

/-- This text is read as these tokens wherever no quote comes next. -/
def Reads (d : Dialect) (s : List Char) (us : List Token) : Prop :=
  ∀ rest ts, rest.head? ≠ some '\x27' → (of d).tokens rest = some ts →
    (of d).tokens (s ++ rest) = some (us ++ ts)

theorem Reads.tokens {d : Dialect} {us : List Token} (h : Reads d s us) :
    (of d).tokens s = some us := by
  simpa using h [] [] nofun rfl

/-- The literal ends where its closing quote stands. -/
theorem reads_pathLiteral (d : Dialect) (path : List Char) :
    Reads d (pathLiteral path) [.quoted .literal (literalBody path)] := by
  intro rest ts hstop h
  have hread := tokens_quoted (sealed_literal (of d) path) hstop h
  rw [pathLiteral_eq]
  simpa [openingOf, closingOf, literalBody] using hread

theorem Reads.call {d : Dialect} {arguments : List Char} {us : List Token}
    (h : Reads d arguments us) {function : String} (hne : function.toList ≠ [])
    (hword : function.toList.all isWordChar) :
    Reads d (Grammar.callOf function arguments)
      (.word function.toList :: .symbol '(' :: us ++ [.symbol ')']) := by
  intro rest ts _ hrest
  have hclose := tokens_mark (c := ')') (by decide) hrest
  have hstop : (')' :: rest).head? ≠ some '\x27' := by simp
  have hopen := tokens_mark (c := '(') (by decide) (h (')' :: rest) _ hstop hclose)
  have happart : Apart ('(' :: (arguments ++ ')' :: rest)) := by
    intro c hc
    obtain rfl : '(' = c := Option.some.inj hc
    decide
  simpa [Grammar.callOf] using tokens_word hne hword happart hopen

end Selector

namespace Grammar

open Quoting Selector

variable {g : Grammar} {v : String} {field path rest : List Char} {ts : List Token}

def columnTokens (g : Grammar) (s : List Char) : List Token :=
  nameTokens g.dialect (qualified g.tablePrefix.toList (s.splitOn '.'))

theorem columnTokens_names_ne_nil (g : Grammar) (s : List Char) :
    qualified g.tablePrefix.toList (s.splitOn '.') ≠ [] :=
  qualified_ne_nil _ (List.splitOn_ne_nil '.' s)

theorem tokens_columnChars (s : List Char) (hstop : rest.head? ≠ some (of g.dialect).closing)
    (h : (of g.dialect).tokens rest = some ts) :
    (of g.dialect).tokens (g.columnChars s ++ rest) = some (g.columnTokens s ++ ts) := by
  rw [columnChars, column_eq, spelled, List.append_nil]
  exact tokens_names (columnTokens_names_ne_nil g s) hstop h

theorem reference?_columnTokens (s : List Char) : (of g.dialect).reference? (g.columnTokens s) =
    some (qualified g.tablePrefix.toList (s.splitOn '.'), none) := by
  have hnames := reference?_names (d := g.dialect) (columnTokens_names_ne_nil g s) none
  rwa [labelTokens, List.append_nil] at hnames

theorem reads_pathArguments {s : List Char} (hs : splitFirst? arrow s = some (field, path)) :
    Reads g.dialect (g.pathArguments s) (g.columnTokens field ++
      [.symbol ',', .symbol ' ', .quoted .literal (literalBody path)]) := by
  intro rest ts hstop h
  have hliteral := reads_pathLiteral g.dialect path rest ts hstop h
  have hcomma := tokens_mark (c := ',') (by decide) (tokens_mark (c := ' ') (by decide) hliteral)
  have hread := tokens_columnChars field (head?_ne_closing (by decide) _) hcomma
  have harguments : g.pathArguments s = g.columnChars field ++ ',' :: ' ' :: pathLiteral path := by
    rw [pathArguments, fieldAndPath, hs]
    rfl
  rw [harguments]
  simpa using hread

/-- Outside Postgres, a selector is the column and one literal as the arguments of functions. -/
theorem tokens_selector {s t : List Char} (hd : g.dialect ≠ .postgres)
    (hs : splitFirst? arrow s = some (field, path)) (ht : g.selector s = .ok t) :
    (of g.dialect).tokens t = some (calls g.dialect ++ g.columnTokens field ++
      [.symbol ',', .symbol ' ', .quoted .literal (literalBody path)] ++ closings g.dialect) := by
  have harguments := reads_pathArguments (g := g) hs
  obtain ⟨dialect, tablePrefix, savepoints⟩ := g
  cases dialect with
  | generic => cases ht
  | postgres => exact absurd rfl hd
  | mysql =>
    obtain rfl := Except.ok.inj ht
    have hextract : Reads .mysql (callOf "json_extract" _) _ :=
      harguments.call (by decide) (by decide)
    have hunquote : Reads .mysql (callOf "json_unquote" _) _ :=
      hextract.call (by decide) (by decide)
    simpa [calls, closings, functions] using hunquote.tokens
  | sqlite =>
    obtain rfl := Except.ok.inj ht
    have hextract : Reads .sqlite (callOf "json_extract" _) _ :=
      harguments.call (by decide) (by decide)
    simpa [calls, closings, functions] using hextract.tokens
  | sqlServer =>
    obtain rfl := Except.ok.inj ht
    have hvalue : Reads .sqlServer (callOf "json_value" _) _ :=
      harguments.call (by decide) (by decide)
    simpa [calls, closings, functions] using hvalue.tokens

theorem postgresChain_eq {s : List Char} (hs : splitFirst? arrow s = some (field, path)) :
    g.postgresChain s = g.columnChars field ++ steps ((segments arrow path).flatMap accessors) := by
  have hm : arrow ≠ [] := List.cons_ne_nil _ _
  rw [postgresChain, segments_eq hm, hs]
  exact chain_eq _ _

/-- On Postgres, a selector is the column and a chain of the steps that the path stands for. -/
theorem tokens_postgresChain {s : List Char} (hd : g.dialect = .postgres)
    (hs : splitFirst? arrow s = some (field, path)) :
    ∃ ts groups, (of g.dialect).tokens (g.postgresChain s) = some (g.columnTokens field ++ ts) ∧
      List.Forall₂ Leads (segments arrow path) groups ∧ readChain ts = some groups.flatten := by
  obtain ⟨groups, hgroups, hwritten⟩ := leads_path (segments arrow path)
  have hne := flatMap_accessors_ne_nil (segments_ne_nil arrow path)
  have hmysql : g.dialect ≠ .mysql := by
    rw [hd]
    decide
  obtain ⟨ts, hts, hchain⟩ := tokens_steps hmysql hne hwritten
  refine ⟨ts, groups, ?_, hgroups, hchain⟩
  have hstop : (steps ((segments arrow path).flatMap accessors)).head? ≠
      some (of g.dialect).closing := by
    intro he
    have hdash := head?_steps hne
    rw [he, hd] at hdash
    exact absurd hdash (by decide)
  rw [postgresChain_eq hs]
  exact tokens_columnChars field hstop hts

/-- No character of a selector leaves its quotes. The text of the selector is read as the functions
of the dialect around the column and one literal, which holds the path to all its keys; on Postgres
it is the column and the keys and indexes of the path in turn, text being asked for with the
last. -/
theorem wrap_selector (g : Grammar) (hdialect : g.dialect ≠ .generic) (v : String)
    (hv : arrow <:+: v.toList) (halias : ¬ aliasMark <:+: v.toList.map Char.toLower) :
    ∃ text field path keys names, g.wrap v = .ok text ∧
      v.toList = field ++ arrow ++ path ∧ ¬ arrow <:+: field ∧
      keys ≠ [] ∧ path = arrow.intercalate keys ∧ (∀ key ∈ keys, ¬ arrow <:+: key) ∧
      (of g.dialect).reference? names =
        some (qualified g.tablePrefix.toList (field.splitOn '.'), none) ∧
      (g.dialect = .postgres → ∃ ts groups,
        (of g.dialect).tokens text.toList = some (names ++ ts) ∧
        List.Forall₂ Leads keys groups ∧ readChain ts = some groups.flatten) ∧
      (g.dialect ≠ .postgres → ∃ body, pathLiteral path = '\x27' :: body ++ ['\x27'] ∧
        undouble '\x27' body = documentPath (keys.map dropEscapes) ∧
        (of g.dialect).tokens text.toList = some (calls g.dialect ++ names ++
          [.symbol ',', .symbol ' ', .quoted .literal body] ++ closings g.dialect)) := by
  have hm : arrow ≠ [] := List.cons_ne_nil _ _
  obtain ⟨⟨field, path⟩, hs⟩ := Option.isSome_iff_exists.1 (contains_iff.2 hv)
  have hwrap : g.wrap v = (g.selector v.toList).map String.ofList := by
    have hsplit := (Parted.plain halias).splitAlias?_eq
    have hselector : isJsonSelector v.toList = true := contains_iff.2 hv
    rw [wrap, hsplit]
    dsimp only [Option.map_none]
    rw [unaliased, hselector]
    rfl
  have hok : ∃ t, g.selector v.toList = .ok t := by
    rw [selector]
    cases hd : g.dialect with
    | generic => exact absurd hd hdialect
    | _ => exact ⟨_, rfl⟩
  obtain ⟨t, ht⟩ := hok
  refine ⟨String.ofList t, field, path, segments arrow path, g.columnTokens field, ?_,
    eq_append_of_splitFirst? hs, not_infix_of_splitFirst? hm hs, segments_ne_nil _ _, ?_,
    fun key ↦ not_infix_of_mem_segments hm, reference?_columnTokens field, fun hd ↦ ?_, fun hd ↦ ?_⟩
  · rw [hwrap, ht]
    rfl
  · exact (intercalate_segments hm _).symm
  · have hchain : g.selector v.toList = .ok (g.postgresChain v.toList) := by
      rw [selector, hd]
    obtain rfl := Except.ok.inj (ht.symm.trans hchain)
    rw [String.toList_ofList]
    exact tokens_postgresChain hd hs
  · refine ⟨literalBody path, pathLiteral_literalBody path, undouble_double _ _, ?_⟩
    rw [String.toList_ofList]
    exact tokens_selector hd hs ht

/-- An escaped quote in a key does not end the literal, on MySQL either. -/
theorem wrap_selector_escaped :
    arrow <:+: "meta->o\\'x->tags[0]".toList ∧
      ¬ aliasMark <:+: "meta->o\\'x->tags[0]".toList.map Char.toLower ∧
      ∃ text names body, wrap ⟨.mysql, "", none⟩ "meta->o\\'x->tags[0]" = .ok text ∧
        undouble '\x27' body = "$.\"o'x\".\"tags\"[0]".toList ∧
        (of .mysql).tokens text.toList = some (calls .mysql ++ names ++
          [.symbol ',', .symbol ' ', .quoted .literal body] ++ closings .mysql) := by
  have hv : arrow <:+: "meta->o\\'x->tags[0]".toList := by decide
  have halias : ¬ aliasMark <:+: "meta->o\\'x->tags[0]".toList.map Char.toLower := by decide
  obtain ⟨text, field, path, keys, names, htext, hsplit, hfield, hne, hpath, hkeys, -, -, hread⟩ :=
    wrap_selector ⟨.mysql, "", none⟩ (by decide) "meta->o\\'x->tags[0]" hv halias
  obtain ⟨body, -, hbody, htokens⟩ := hread (by decide)
  have hfirst := splitFirst?_append (by decide) hfield path
  rw [← arrow, ← hsplit] at hfirst
  have hparts : splitFirst? arrow "meta->o\\'x->tags[0]".toList =
      some ("meta".toList, "o\\'x->tags[0]".toList) := by decide
  obtain ⟨rfl, rfl⟩ := Prod.mk.inj (Option.some.inj (hparts.symm.trans hfirst))
  have hsegments := segments_intercalate (by decide) hne hkeys
  rw [← arrow, ← hpath] at hsegments
  subst hsegments
  refine ⟨hv, halias, text, names, body, htext, hbody.trans ?_, htokens⟩
  decide

end Grammar

end FluentSql
