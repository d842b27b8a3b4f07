import FluentSql.Proofs.Numbering.Scanning
import FluentSql.Proofs.Slots.Written

namespace FluentSql

open Text Placeholders

namespace Placeholders

def isPlain (c : Char) : Bool := c != '\x27' && c != '"' && c != '?' && c != '$'

theorem isPlain_of_class {p : Char → Bool} {c : Char} (hc : p c)
    (hp : ['\x27', '"', '?', '$'].all fun d ↦ !p d) : isPlain c := by
  simp only [List.all_cons, List.all_nil, Bool.and_true, Bool.and_eq_true, Bool.not_eq_true'] at hp
  obtain ⟨hs, hd, hm, hp⟩ := hp
  simp only [isPlain, Bool.and_eq_true, bne_iff_ne]
  exact ⟨⟨⟨ne_of_class hc hs, ne_of_class hc hd⟩, ne_of_class hc hm⟩, ne_of_class hc hp⟩

theorem isPlain_of_isDigit {c : Char} (hc : isDigit c) : isPlain c :=
  isPlain_of_class hc (by decide)

namespace Quiet

variable {quote : Option Char} {c : Char} {s t mark : List Char}

theorem cons_iff (hc : isPlain c) (hq : ∀ o ∈ quote, IsQuote o) :
    Quiet quote (c :: s) ↔ Quiet quote s := by
  simp only [isPlain, Bool.and_eq_true, bne_iff_ne] at hc
  obtain ⟨⟨⟨hs, hd⟩, hm⟩, hp⟩ := hc
  have hn : ¬ IsQuote c := fun h ↦ h.elim hs hd
  constructor
  · intro h
    cases h with
    | within _ h => exact h
    | close h => exact absurd (hq c rfl) hn
    | «open» hc _ => exact absurd hc hn
    | other _ _ _ h => exact h
  · intro h
    cases quote with
    | none => exact .other hn hm hp h
    | some o => exact .within (fun he ↦ hn (he ▸ hq o rfl)) h

theorem plain_cons (hc : isPlain c) (h : Quiet none s) : Quiet none (c :: s) :=
  (cons_iff hc .none).2 h

theorem of_plain (h : s.all isPlain) : Quiet none s := by
  induction s with
  | nil => exact .done
  | cons c s ih =>
    simp only [List.all_cons, Bool.and_eq_true] at h
    exact plain_cons h.1 (ih h.2)

theorem within_double (hc : IsQuote c) (s : List Char) (ht : Quiet none t) :
    Quiet (some c) (double c s ++ c :: t) := by
  induction s with
  | nil => exact .close ht
  | cons d s ih =>
    rw [double]
    split
    · rename_i hd
      subst hd
      exact .close (.open hc ih)
    · rename_i hd
      exact .within hd ih

theorem quoted (hc : IsQuote c) (s : List Char) : Quiet none (c :: double c s ++ [c]) :=
  .open hc (within_double hc s .done)

theorem join (hm : Quiet none mark) {ss : List (List Char)} (h : ∀ s ∈ ss, Quiet none s) :
    Quiet none (mark.intercalate ss) := by
  induction ss with
  | nil => exact .done
  | cons s rest ih =>
    have hs := h s List.mem_cons_self
    by_cases hrest : rest = []
    · subst hrest
      simpa using hs
    · rw [List.intercalate_cons_of_ne_nil hrest]
      exact (hs.append hm).append (ih fun t ht ↦ h t (List.mem_cons_of_mem _ ht))

theorem intercalate {mark : String} (hm : Quiet none mark.toList) {ss : List String}
    (h : ∀ s ∈ ss, Quiet none s.toList) : Quiet none (mark.intercalate ss).toList := by
  rw [String.toList_intercalate]
  exact join hm fun s hs ↦ by
    obtain ⟨t, ht, rfl⟩ := List.mem_map.1 hs
    exact h t ht

theorem of_digits (h : s.all isDigit) : Quiet none s :=
  of_plain (List.all_eq_true.2 fun c hc ↦ isPlain_of_isDigit (List.all_eq_true.1 h c hc))

end Quiet

end Placeholders

namespace Selector

variable {s : List Char}

theorem quiet_index (h : isIndex s) : Quiet none s := by
  have hbody : (signOf s).2.all isDigit := by
    unfold isIndex integer? at h
    dsimp only at h
    split at h
    · cases h
    · rename_i hn
      rw [Bool.or_eq_true, not_or] at hn
      simpa using hn.2
  unfold signOf at hbody
  split at hbody
  · exact .plain_cons (by decide) (.of_digits hbody)
  · exact .plain_cons (by decide) (.of_digits hbody)
  · exact .of_digits hbody

theorem quiet_accessor (s : List Char) : Quiet none (accessor s) := by
  unfold accessor
  split
  · rename_i h
    exact quiet_index h
  · exact .quoted (.inl rfl) s

theorem quiet_accessors (s : List Char) : ∀ key ∈ accessors s, Quiet none key := by
  intro key hk
  unfold accessors at hk
  split at hk
  · dsimp only at hk
    split at hk
    · rename_i hi
      rcases List.mem_append.1 hk with hk | hk
      · split at hk
        · cases hk
        · exact List.mem_singleton.1 hk ▸ quiet_accessor _
      · exact quiet_index (List.all_eq_true.1 hi key hk)
    · exact List.mem_singleton.1 hk ▸ quiet_accessor _
  · exact List.mem_singleton.1 hk ▸ quiet_accessor _

theorem quiet_chain {field : List Char} {keys : List (List Char)} (hf : Quiet none field)
    (hk : ∀ key ∈ keys, Quiet none key) : Quiet none (chain field keys) := by
  unfold chain
  split
  · exact hf
  · rename_i last hlast
    have hfront : Quiet none (keys.dropLast.foldl (fun s key ↦ s ++ Quoting.arrow ++ key) field) :=
      List.foldlRecOn _ _ hf fun s hs key hm ↦
        (hs.append (.of_plain (by decide))).append (hk key (List.dropLast_subset _ hm))
    exact (hfront.append (.of_plain (by decide))).append (hk last (List.mem_of_getLast? hlast))

end Selector

namespace Grammar

variable {g : Grammar} (hg : g.dialect = .postgres)

include hg

theorem quiet_enclose (s : List Char) : Quiet none (g.quotes.enclose s) := by
  unfold quotes Quotes.enclose
  rw [hg]
  split
  · exact .of_plain (by simp [*, isPlain])
  · exact .quoted (.inr rfl) s

theorem quiet_join_enclose (names : List (List Char)) :
    Quiet none (['.'].intercalate (names.map g.quotes.enclose)) := by
  refine .join (.of_plain (by decide)) fun s hs ↦ ?_
  obtain ⟨name, -, rfl⟩ := List.mem_map.1 hs
  exact quiet_enclose hg name

theorem quiet_column (s : List Char) : Quiet none (g.columnChars s) := by
  unfold columnChars Quoting.column
  split <;> exact quiet_join_enclose hg _

theorem quiet_chain (s : List Char) : Quiet none (g.postgresChain s) := by
  unfold postgresChain
  split
  · refine Selector.quiet_chain (quiet_column hg _) fun key hk ↦ ?_
    obtain ⟨segment, -, hk⟩ := List.mem_flatMap.1 hk
    exact Selector.quiet_accessors segment key hk
  · exact .done

theorem quiet_unaliased {s t : List Char} (h : g.unaliased s = .ok t) : Quiet none t := by
  unfold unaliased at h
  split at h
  · rw [selector, hg] at h
    cases h
    exact quiet_chain hg s
  · cases h
    exact quiet_column hg s

theorem quiet_wrap {s t : String} (h : g.wrap s = .ok t) : Quiet none t.toList := by
  unfold wrap at h
  split at h
  · obtain ⟨column, hc, h⟩ := bind_eq_ok.1 h
    cases pure_eq_ok.1 h
    rw [String.toList_ofList]
    have hmark : Quiet none Quoting.aliasMark := .of_plain (by decide)
    exact ((quiet_unaliased hg hc).append hmark).append (quiet_enclose hg _)
  · obtain ⟨column, hc, h⟩ := bind_eq_ok.1 h
    cases pure_eq_ok.1 h
    rw [String.toList_ofList]
    exact quiet_unaliased hg hc

theorem quiet_wrapTable (s : String) : Quiet none (g.wrapTable s).toList := by
  unfold wrapTable Quoting.table
  dsimp only
  split
  · rw [String.toList_ofList]
    have hmark : Quiet none Quoting.aliasMark := .of_plain (by decide)
    exact ((quiet_join_enclose hg _).append hmark).append (quiet_enclose hg _)
  · rw [String.toList_ofList]
    exact quiet_join_enclose hg _

theorem quiet_wrapSegment (s : String) : Quiet none (g.wrapSegment s).toList := by
  rw [wrapSegment, String.toList_ofList]
  exact quiet_enclose hg _

end Grammar

section

variable {quote : Option Char} {c : Char} {s : List Char}

/-- An arrow loses one of its heads; in front of it and behind it the text is read as before. -/
theorem Placeholders.Quiet.replace_after {skip : Nat} (hq : ∀ c ∈ quote, IsQuote c)
    (h : Quiet quote (s.drop skip)) :
    Quiet quote (Quoting.arrow.intercalate (segmentsAfter ['-', '>', '>'] skip s)) := by
  fun_induction segmentsAfter ['-', '>', '>'] skip s generalizing quote with
  | case1 => simpa using h
  | case2 _ _ _ ih => exact ih hq h
  | case3 c s hp ih =>
    obtain ⟨t, ht⟩ := List.isPrefixOf_iff_prefix.1 hp
    obtain ⟨rfl, rfl⟩ := List.cons.inj ht
    rw [List.intercalate_cons_of_ne_nil (segmentsAfter_ne_nil _ _ _)]
    have hdash : isPlain '-' := by decide
    have hhead : isPlain '>' := by decide
    refine (Quiet.cons_iff hdash hq).2 ((Quiet.cons_iff hhead hq).2 (ih hq ?_))
    have h := (Quiet.cons_iff hdash hq).1 h
    exact (Quiet.cons_iff hhead hq).1 ((Quiet.cons_iff hhead hq).1 h)
  | case4 c s _ ih =>
    rw [intercalate_consFirst _ _ (segmentsAfter_ne_nil _ s 0)]
    cases h with
    | within hc h => exact .within hc (ih hq h)
    | close h => exact .close (ih .none h)
    | «open» hc h => exact .open hc (ih hc.some h)
    | other hn hm hd h => exact .other hn hm hd (ih .none h)

theorem Placeholders.Quiet.replace_arrow (hq : ∀ c ∈ quote, IsQuote c) (h : Quiet quote s) :
    Quiet quote (Text.replace ['-', '>', '>'] Quoting.arrow s) := by
  have hs : Quiet quote (s.drop 0) := h
  exact hs.replace_after hq

theorem quiet_asDocument {s : String} (h : Quiet none s.toList) :
    Quiet none (Grammar.asDocument s).toList := by
  rw [Grammar.asDocument, String.toList_ofList]
  exact h.replace_arrow .none

end

end FluentSql
