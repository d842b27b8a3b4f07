import FluentSql.Proofs.Conditions.Spelled

namespace FluentSql.DynamicWhere

open Text

def spelledAfter (later : List (List Char × Connective)) : List Char :=
  later.flatMap fun (s, connective) ↦ joint connective ++ s

/-- Behind `before` there is a connective, and a capital behind that. -/
def Stands (capital : Char → Bool) (spelled before : List Char) (connective : Connective) : Prop :=
  ∃ c rest, spelled = before ++ joint connective ++ c :: rest ∧ capital c

def Cuts (first : List Char) (later : List (List Char × Connective)) (before : List Char)
    (connective : Connective) : Prop :=
  ∃ l s l', later = l ++ (s, connective) :: l' ∧ before = first ++ spelledAfter l

/-- The parts of a text, cut at all connectives with a capital behind them and at no other. -/
structure Divides (capital : Char → Bool) (spelled first : List Char)
    (later : List (List Char × Connective)) : Prop where
  spelled_eq : first ++ spelledAfter later = spelled
  cuts_iff : ∀ before connective,
    Cuts first later before connective ↔ Stands capital spelled before connective

variable {c d : Char} {s t first before : List Char} {connective k : Connective}
  {later : List (List Char × Connective)}

section connectives

theorem connective?_joint (hc : isCapital c) (s : List Char) :
    connective? (joint connective ++ c :: s) = some (connective, c :: s) := by
  cases connective <;> simp [joint, connective?, hc]

theorem exists_joint_of_connective? (h : connective? s = some (connective, t)) :
    ∃ c rest, isCapital c ∧ t = c :: rest ∧ s = joint connective ++ c :: rest := by
  unfold connective? at h
  split at h
  · split at h
    · cases h
      exact ⟨_, _, ‹_›, rfl, rfl⟩
    · cases h
  · split at h
    · cases h
      exact ⟨_, _, ‹_›, rfl, rfl⟩
    · cases h
  · cases h

/-- Induction along a name: by characters that start no connective, and by connectives that end a
part. -/
theorem name_induction {P : List Char → Prop} (nil : P [])
    (plain : ∀ c s, connective? (c :: s) = none → P s → P (c :: s))
    (cut : ∀ connective c s, isCapital c → P (c :: s) → P (joint connective ++ c :: s))
    (s : List Char) : P s := by
  induction hn : s.length using Nat.strong_induction_on generalizing s with
  | _ n ih =>
    subst hn
    cases s with
    | nil => exact nil
    | cons c s =>
      cases h : connective? (c :: s) with
      | none => exact plain c s h (ih _ (Nat.lt_succ_self _) s rfl)
      | some found =>
        obtain ⟨d, rest, hd, -, hs⟩ := exists_joint_of_connective? h
        rw [hs] at ih ⊢
        refine cut _ d rest hd (ih _ ?_ _ rfl)
        cases found.1 <;> simp [joint]

theorem joint_inj {k : Connective} (h : joint connective ++ s = joint k ++ t) :
    connective = k ∧ s = t := by
  cases connective <;> cases k <;> simp_all [joint]

end connectives

theorem isUpper_of_isCapital (hc : isCapital c) : isUpper c := by
  rw [isCapital, Bool.and_eq_true, decide_eq_true_eq, decide_eq_true_eq] at hc
  have hlow : 0x41 ≤ c.toNat := hc.1
  have hhigh : c.toNat ≤ 0x5a := hc.2
  refine List.any_eq_true.2 ⟨⟨0x41, 0x5a, 1⟩, List.mem_cons_self, ?_⟩
  simp [Run.contains, hlow, hhigh, Nat.mod_one]

section standing

variable {capital : Char → Bool}

theorem stands_nil : ¬ Stands capital [] before connective := by
  rintro ⟨c, rest, h, -⟩
  simp at h

theorem stands_cons (h : connective? (c :: s) = none) :
    Stands isCapital (c :: s) before connective ↔
      ∃ u, before = c :: u ∧ Stands isCapital s u connective := by
  constructor
  · rintro ⟨d, rest, hs, hd⟩
    cases before with
    | nil =>
      rw [hs, List.nil_append, connective?_joint hd] at h
      cases h
    | cons b u =>
      obtain ⟨rfl, rfl⟩ := List.cons.inj hs
      exact ⟨u, rfl, d, rest, rfl, hd⟩
  · rintro ⟨u, rfl, d, rest, rfl, hd⟩
    exact ⟨d, rest, rfl, hd⟩

theorem stands_joint (hd : capital d) :
    Stands capital (joint k ++ d :: s) before connective ↔
      before = [] ∧ connective = k ∨
        ∃ u, before = joint k ++ u ∧ Stands capital (d :: s) u connective := by
  constructor
  · rintro ⟨c, rest, h, hc⟩
    rw [List.append_assoc] at h
    rcases List.append_eq_append_iff.1 h with ⟨u, rfl, hu⟩ | ⟨u, hk, hu⟩
    · exact .inr ⟨u, rfl, c, rest, by rw [hu, List.append_assoc], hc⟩
    · obtain ⟨a, letters, hjoint, -, -, hletters⟩ := joint_eq k
      cases before with
      | nil =>
        rw [List.nil_append] at hk
        subst hk
        exact .inl ⟨rfl, (joint_inj hu).1⟩
      | cons b before =>
        cases u with
        | nil =>
          rw [List.append_nil] at hk
          exact .inr ⟨[], by rw [hk, List.append_nil], c, rest, hu.symm, hc⟩
        | cons e u =>
          -- the connective would begin with a small letter of the other one
          obtain ⟨a', letters', hjoint', -, ha', -⟩ := joint_eq connective
          rw [hjoint'] at hu
          obtain ⟨rfl, -⟩ := List.cons.inj hu
          rw [hjoint] at hk
          have hplain : isPlain a'.toUpper := hletters _ (by simp [(List.cons.inj hk).2])
          exact absurd (isCapital_toUpper ha') (by simp [isCapital_of_isPlain hplain])
  · rintro (⟨rfl, rfl⟩ | ⟨u, rfl, c, rest, h, hc⟩)
    · exact ⟨d, s, rfl, hd⟩
    · exact ⟨c, rest, by rw [h, List.append_assoc, List.append_assoc, List.append_assoc], hc⟩

end standing

section cutting

theorem spelledAfter_cons :
    spelledAfter ((s, connective) :: later) = joint connective ++ (s ++ spelledAfter later) := by
  rw [spelledAfter, List.flatMap_cons, List.append_assoc]
  rfl

theorem joint_ne_nil : joint connective ≠ [] := by
  cases connective <;> exact List.cons_ne_nil _ _

theorem cuts_nil : ¬ Cuts first [] before connective := by
  rintro ⟨l, s, l', h, -⟩
  simp at h

theorem cuts_cons : Cuts (c :: first) later before connective ↔
    ∃ u, before = c :: u ∧ Cuts first later u connective := by
  constructor
  · rintro ⟨l, s, l', h, rfl⟩
    exact ⟨_, rfl, l, s, l', h, rfl⟩
  · rintro ⟨_, rfl, l, s, l', h, rfl⟩
    exact ⟨l, s, l', h, rfl⟩

theorem cuts_joint : Cuts [] ((s, k) :: later) before connective ↔
    before = [] ∧ connective = k ∨ ∃ u, before = joint k ++ u ∧ Cuts s later u connective := by
  constructor
  · rintro ⟨l, t, l', h, rfl⟩
    cases l with
    | nil =>
      obtain ⟨⟨rfl, rfl⟩, rfl⟩ := List.cons.inj h
      exact .inl ⟨rfl, rfl⟩
    | cons entry l =>
      obtain ⟨rfl, rfl⟩ := List.cons.inj h
      exact .inr ⟨_, spelledAfter_cons, l, t, l', rfl, rfl⟩
  · rintro (⟨rfl, rfl⟩ | ⟨_, rfl, l, t, l', rfl, rfl⟩)
    · exact ⟨[], s, later, rfl, rfl⟩
    · exact ⟨(s, k) :: l, t, l', rfl, spelledAfter_cons.symm⟩

end cutting

section dividing

variable {capital : Char → Bool}

theorem divides_nil : Divides capital [] first later ↔ first = [] ∧ later = [] := by
  constructor
  · intro h
    obtain ⟨hfirst, hlater⟩ := List.append_eq_nil_iff.1 h.spelled_eq
    refine ⟨hfirst, ?_⟩
    cases later with
    | nil => rfl
    | cons entry later =>
      rw [spelledAfter_cons] at hlater
      exact absurd (List.append_eq_nil_iff.1 hlater).1 joint_ne_nil
  · rintro ⟨rfl, rfl⟩
    exact ⟨rfl, fun _ _ ↦ iff_of_false cuts_nil stands_nil⟩

theorem divides_cons (h : connective? (c :: s) = none) : Divides isCapital (c :: s) first later ↔
    ∃ t, first = c :: t ∧ Divides isCapital s t later := by
  constructor
  · intro hdiv
    cases first with
    | nil =>
      cases later with
      | nil => cases hdiv.spelled_eq
      | cons entry later =>
        obtain ⟨u, hu, -⟩ :=
          (stands_cons h).1 ((hdiv.cuts_iff [] entry.2).1 (cuts_joint.2 (.inl ⟨rfl, rfl⟩)))
        cases hu
    | cons b t =>
      obtain ⟨rfl, hs⟩ := List.cons.inj hdiv.spelled_eq
      refine ⟨t, rfl, hs, fun u connective ↦ ?_⟩
      have hu := hdiv.cuts_iff (b :: u) connective
      rw [cuts_cons, stands_cons h] at hu
      simpa using hu
  · rintro ⟨t, rfl, hdiv⟩
    refine ⟨congrArg (c :: ·) hdiv.spelled_eq, fun u connective ↦ ?_⟩
    rw [cuts_cons, stands_cons h]
    exact exists_congr fun v ↦ and_congr_right fun _ ↦ hdiv.cuts_iff v connective

theorem divides_joint (hc : capital c) :
    Divides capital (joint connective ++ c :: s) first later ↔
      ∃ t later', first = [] ∧ later = (t, connective) :: later' ∧
        Divides capital (c :: s) t later' := by
  constructor
  · intro hdiv
    obtain ⟨l, t, l', rfl, hnil⟩ :=
      (hdiv.cuts_iff [] connective).2 ((stands_joint hc).2 (.inl ⟨rfl, rfl⟩))
    obtain ⟨rfl, hl⟩ := List.append_eq_nil_iff.1 hnil.symm
    cases l with
    | cons entry l =>
      rw [spelledAfter_cons] at hl
      exact absurd (List.append_eq_nil_iff.1 hl).1 joint_ne_nil
    | nil =>
      have hs := hdiv.spelled_eq
      rw [List.nil_append, List.nil_append, spelledAfter_cons] at hs
      refine ⟨t, l', rfl, rfl, (joint_inj hs).2, fun u k ↦ ?_⟩
      have hu := hdiv.cuts_iff (joint connective ++ u) k
      rw [List.nil_append, cuts_joint, stands_joint hc] at hu
      simpa [joint_ne_nil] using hu
  · rintro ⟨t, later, rfl, rfl, hdiv⟩
    refine ⟨?_, fun u k ↦ ?_⟩
    · rw [List.nil_append, spelledAfter_cons, hdiv.spelled_eq]
    · rw [cuts_joint, stands_joint hc]
      exact or_congr_right (exists_congr fun v ↦ and_congr_right fun _ ↦ hdiv.cuts_iff v k)

theorem exists_split (before : Connective) (s : List Char) :
    ∃ t later, split before 0 s = (t, before) :: later := by
  induction s using name_induction with
  | nil => exact ⟨[], [], rfl⟩
  | plain c s h ih =>
    obtain ⟨t, later, hs⟩ := ih
    exact ⟨c :: t, later, split_cons h hs⟩
  | cut connective c s hc _ =>
    exact ⟨[], _, split_joint (List.cons_ne_nil _ _) (by simpa [Opens] using hc)⟩

/-- A text has one division, and it is taken apart by it. -/
theorem divides_iff (before : Connective) (s first : List Char)
    (later : List (List Char × Connective)) :
    Divides isCapital s first later ↔ split before 0 s = (first, before) :: later := by
  induction s using name_induction generalizing before first later with
  | nil => simp [divides_nil, split, eq_comm]
  | plain c s h ih =>
    obtain ⟨t, rest, hs⟩ := exists_split before s
    rw [divides_cons h, split_cons h hs]
    simp [ih before, hs, eq_comm]
  | cut connective c s hc ih =>
    obtain ⟨t, rest, hs⟩ := exists_split connective (c :: s)
    rw [divides_joint hc, split_joint (List.cons_ne_nil _ _) (by simpa [Opens] using hc)]
    simp [ih connective, hs, eq_comm]

theorem Divides.upper_iff (h : Divides isCapital s first later) :
    Divides isUpper s first later ↔ ∀ before connective,
      Stands isUpper s before connective → Stands isCapital s before connective := by
  constructor
  · intro hupper before connective hs
    exact (h.cuts_iff _ _).1 ((hupper.cuts_iff _ _).2 hs)
  · intro hall
    refine ⟨h.spelled_eq, fun before connective ↦ (h.cuts_iff _ _).trans ⟨?_, hall _ _⟩⟩
    rintro ⟨c, rest, hs, hc⟩
    exact ⟨c, rest, hs, isUpper_of_isCapital hc⟩

end dividing

section naming

theorem lower_ne_nil (c : Char) : lower c ≠ [] := by
  unfold lower
  split
  · exact List.cons_ne_nil _ _
  · split <;> exact List.cons_ne_nil _ _

theorem columnName_eq_empty : columnName s = "" ↔ ∀ c ∈ s, isBlank c := by
  have hsnake (t : List Char) : snake t = [] ↔ t = [] := by
    cases t with
    | nil => exact iff_of_true rfl rfl
    | cons c t => simp [snake, lower_ne_nil]
  rw [columnName, ← String.toList_inj, String.toList_ofList, String.toList_empty, hsnake,
    List.filter_eq_nil_iff]
  simp

end naming

/-- How a name is read that spells these parts behind `where`. -/
structure Parsed (method : String) (spelled first : List Char)
    (later : List (List Char × Connective)) : Prop where
  divides_iff : ∀ f l, Divides isCapital spelled f l ↔ f = first ∧ l = later
  refused : (∃ part ∈ (first, .and) :: later, part.1 = []) →
    parse method = .error (.undefinedMethod method)
  read : (∀ part ∈ (first, .and) :: later, part.1 ≠ []) →
    parse method = .ok (((first, .and) :: later).map fun (s, connective) ↦
      (columnName s, connective))
  unnamed_iff : ∀ part ∈ (first, Connective.and) :: later,
    columnName part.1 = "" ↔ ∀ c ∈ part.1, isBlank c
  upper_iff : Divides isUpper spelled first later ↔ ∀ before connective,
    Stands isUpper spelled before connective → Stands isCapital spelled before connective

/-- A name is read by its one division at the connectives in front of a letter from A to Z, unless
it does not start with `where` or has an empty part. A column has no name if its part is blank. The
connectives in front of other capitals are cut at only if there are none. -/
theorem parse_divided (method : String) :
    (¬ "where".toList <+: method.toList →
      parse method = .error (.undefinedMethod method)) ∧
    ∀ spelled, method.toList = "where".toList ++ spelled →
      ∃ first later, Parsed method spelled first later := by
  have hwhere : "where".toList = ['w', 'h', 'e', 'r', 'e'] := by decide
  constructor
  · intro h
    unfold parse
    split
    · rename_i spelled hm
      exact absurd ⟨spelled, by rw [hm, hwhere]; rfl⟩ h
    · rfl
  · intro spelled hm
    obtain ⟨first, later, hs⟩ := exists_split .and spelled
    rw [hwhere] at hm
    replace hm : method.toList = 'w' :: 'h' :: 'e' :: 'r' :: 'e' :: spelled := hm
    refine ⟨first, later, ?_⟩
    constructor
    case divides_iff =>
      intro f l
      rw [divides_iff .and, hs]
      simp [eq_comm]
    case refused =>
      rintro ⟨part, hpart, hempty⟩
      have hany : ((first, .and) :: later).any (fun part ↦ part.1.isEmpty) :=
        List.any_eq_true.2 ⟨part, hpart, List.isEmpty_iff.2 hempty⟩
      rw [parse, hm]
      simp only [hs]
      rw [if_pos hany]
    case read =>
      intro hall
      have hany : ¬ ((first, .and) :: later).any (fun part ↦ part.1.isEmpty) := by
        rw [List.any_eq_true]
        rintro ⟨part, hpart, hempty⟩
        exact hall part hpart (List.isEmpty_iff.1 hempty)
      rw [parse, hm]
      simp only [hs]
      rw [if_neg hany]
    case unnamed_iff => exact fun _ _ ↦ columnName_eq_empty
    case upper_iff => exact ((divides_iff .and _ _ _).2 hs).upper_iff

/-- A column without a name, and two columns read as one: the capital behind the connective is none
from A to Z, although words are broken in front of it. -/
theorem parse_divided_misread :
    parse "where " = .ok [("", .and)] ∧
      Stands isUpper "FooAndÉtat".toList "Foo".toList .and ∧
      parse "whereFooAndÉtat" = .ok [("foo_and_état", .and)] := by
  refine ⟨rfl, ⟨'É', "tat".toList, ?_, ?_⟩, ?_⟩
  · decide
  · decide +kernel
  · rfl

end FluentSql.DynamicWhere
