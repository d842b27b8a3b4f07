import FluentSql.Proofs.Savepoints.Server
import Mathlib.Data.List.Induction
import Mathlib.Tactic.Common

namespace FluentSql

inductive Call where
  | begin
  | commit
  | rollback (target : Option Nat)
  | write (r : Request)

namespace Call

def depth (n : Nat) : Call → Nat
  | begin => n + 1
  | commit => n - 1
  | rollback target => min n (target.getD (n - 1))
  | write _ => n

def depths (n : Nat) (calls : List Call) : Nat := calls.foldl depth n

@[simp] theorem depths_nil (n : Nat) : depths n [] = n := rfl

@[simp] theorem depths_append (n : Nat) (calls calls' : List Call) :
    depths n (calls ++ calls') = depths (depths n calls) calls' := List.foldl_append

@[simp] theorem depths_cons (n : Nat) (c : Call) (calls : List Call) :
    depths n (c :: calls) = depths (c.depth n) calls := rfl

end Call

open Call

/-- The writes of every open level, the innermost first. -/
structure Nest where
  requests : Nat := 0
  durable : List Written := []
  levels : List (List Written) := []

namespace Nest

variable (n : Nest)

def pending : List Written := n.levels.reverse.flatten

def begin : Nest :=
  { n with requests := n.requests + 1, levels := [] :: n.levels }

def commit : Nest :=
  match n.levels with
  | [] => n
  | [l] => { requests := n.requests + 1, durable := n.durable ++ l }
  | l :: l' :: outer => { n with levels := (l' ++ l) :: outer }

def rollback (level : Nat) : Nest :=
  if n.levels.length ≤ level then n
  else
    { n with
      requests := n.requests + 1
      levels := n.levels.drop (n.levels.length - level) }

def write (r : Request) : Nest :=
  match n.levels with
  | [] => { n with requests := n.requests + 1, durable := n.durable ++ [(n.requests, r)] }
  | l :: outer => { n with requests := n.requests + 1, levels := (l ++ [(n.requests, r)]) :: outer }

def step : Call → Nest
  | .begin => n.begin
  | .commit => n.commit
  | .rollback target => n.rollback (target.getD (n.levels.length - 1))
  | .write r => n.write r

def run (calls : List Call) : Nest := calls.foldl step n

@[simp] theorem run_nil : n.run [] = n := rfl

@[simp] theorem run_append (calls calls' : List Call) :
    n.run (calls ++ calls') = (n.run calls).run calls' := List.foldl_append

@[simp] theorem run_cons (c : Call) (calls : List Call) :
    n.run (c :: calls) = (n.step c).run calls := rfl

theorem length_levels_step (c : Call) : (n.step c).levels.length = c.depth n.levels.length := by
  obtain ⟨requests, durable, levels⟩ := n
  cases c with
  | begin => rfl
  | commit =>
    match levels with
    | [] => rfl
    | [_] => rfl
    | _ :: _ :: _ => rfl
  | rollback target =>
    simp only [step, rollback, depth]
    split
    · rename_i h
      exact (Nat.min_eq_left h).symm
    · rename_i h
      rw [List.length_drop]
      omega
  | write r =>
    match levels with
    | [] => rfl
    | _ :: _ => rfl

theorem length_levels_run (calls : List Call) :
    (n.run calls).levels.length = depths n.levels.length calls := by
  induction calls generalizing n with
  | nil => rfl
  | cons c calls ih => rw [run_cons, ih, length_levels_step, depths_cons]

@[simp] theorem pending_begin : n.begin.pending = n.pending := by
  simp [pending, begin]

theorem levels_rollback {inner outer : List (List Written)} (h : n.levels = inner ++ outer)
    (hi : inner ≠ []) : (n.rollback outer.length).levels = outer := by
  obtain ⟨requests, durable, levels⟩ := n
  subst h
  have hl : ¬ (inner ++ outer).length ≤ outer.length := by
    have hp := List.length_pos_iff.mpr hi
    rw [List.length_append]
    omega
  rw [rollback, if_neg hl]
  simp only [List.length_append, Nat.add_sub_cancel, List.drop_left]

theorem levels_rollback_zero : (n.rollback 0).levels = [] := by
  unfold rollback
  split
  · rename_i h
    exact List.length_eq_zero_iff.mp (Nat.le_zero.mp h)
  · exact List.drop_eq_nil_of_le (Nat.le_refl _)

theorem levels_step_append {inner outer : List (List Written)} (c : Call)
    (h : n.levels = inner ++ outer) (hi : inner ≠ [])
    (hl : outer.length < (n.step c).levels.length) :
    ∃ inner', inner' ≠ [] ∧ (n.step c).levels = inner' ++ outer := by
  obtain ⟨requests, durable, levels⟩ := n
  subst h
  cases c with
  | begin => exact ⟨[] :: inner, List.cons_ne_nil _ _, rfl⟩
  | commit =>
    match inner, outer with
    | [l], [] => simp [step, commit] at hl
    | [l], l' :: outer => simp [step, commit] at hl
    | l :: l' :: inner, outer => exact ⟨(l' ++ l) :: inner, List.cons_ne_nil _ _, rfl⟩
  | rollback target =>
    simp only [step, rollback] at hl ⊢
    split
    · exact ⟨inner, hi, rfl⟩
    · rename_i ht
      rw [if_neg ht] at hl
      simp only [List.length_drop, List.length_append] at hl ht ⊢
      refine ⟨inner.drop _, ?_, List.drop_append_of_le_length (by omega)⟩
      apply List.ne_nil_of_length_pos
      rw [List.length_drop]
      omega
  | write r =>
    obtain ⟨l, inner, rfl⟩ := List.exists_cons_of_ne_nil hi
    exact ⟨(l ++ [(requests, r)]) :: inner, List.cons_ne_nil _ _, rfl⟩

end Nest

theorem mem_flatten_of_drop {α : Type} {k : Nat} {l : List (List α)} {a : α}
    (h : a ∈ (l.drop k).flatten) : a ∈ l.flatten := by
  obtain ⟨m, hm, ha⟩ := List.mem_flatten.mp h
  exact List.mem_flatten.mpr ⟨m, List.mem_of_mem_drop hm, ha⟩

theorem concat_eq_append_cons {α : Type} {l p q : List α} {c a : α} :
    l ++ [c] = p ++ a :: q ↔ l = p ∧ c = a ∧ q = [] ∨ ∃ q', l = p ++ a :: q' ∧ q = q' ++ [c] := by
  induction q using List.reverseRecOn with
  | nil => simp
  | append_singleton q c' _ =>
    constructor
    · intro h
      rw [← List.cons_append, ← List.append_assoc] at h
      obtain ⟨hl, hc⟩ := List.append_inj' h rfl
      exact .inr ⟨q, hl, by rw [hc]⟩
    · rintro (⟨_, _, hq⟩ | ⟨q', rfl, hq⟩)
      · exact absurd hq (List.append_ne_nil_of_right_ne_nil _ (List.cons_ne_nil _ _))
      · rw [hq, List.append_assoc, List.cons_append]

/-- The begin, among some calls, that last raised the depth from `t`. -/
structure Raised (calls : List Call) (t : Nat) (before after : List Call) : Prop where
  split : calls = before ++ .begin :: after
  depth : depths 0 before = t
  last : ∀ p q, after = p ++ .begin :: q → depths 0 (before ++ .begin :: p) ≠ t

theorem exists_raised (calls : List Call) {t : Nat} (h : t < depths 0 calls) :
    ∃ before after, Raised calls t before after ∧
      ∃ inner, inner ≠ [] ∧
        (({} : Nest).run calls).levels = inner ++ (({} : Nest).run before).levels := by
  induction calls using List.reverseRecOn with
  | nil => exact absurd h (Nat.not_lt_zero _)
  | append_singleton calls c ih =>
    rw [depths_append, depths_cons, depths_nil] at h
    -- Either the depth was above `t` before the last call, or that call is the begin itself.
    by_cases ht : t < depths 0 calls
    · obtain ⟨before, after, hr, inner, hi, hl⟩ := ih ht
      refine ⟨before, after ++ [c], ⟨?_, hr.depth, ?_⟩, ?_⟩
      · rw [hr.split, List.append_assoc, List.cons_append]
      · intro p q hpq
        obtain ⟨rfl, _, _⟩ | ⟨q, hq, _⟩ := concat_eq_append_cons.mp hpq
        · rw [← hr.split]
          omega
        · exact hr.last p q hq
      · rw [Nest.run_append, Nest.run_cons, Nest.run_nil]
        apply Nest.levels_step_append _ _ hl hi
        rw [Nest.length_levels_step, Nest.length_levels_run, Nest.length_levels_run]
        change depths 0 before < c.depth (depths 0 calls)
        rw [hr.depth]
        exact h
    · cases c with
      | begin =>
        have ht : t = depths 0 calls := by simp only [depth] at h; omega
        refine ⟨calls, [], ⟨rfl, ht.symm, ?_⟩, [[]], List.cons_ne_nil _ _, ?_⟩
        · intro p q hpq
          cases p <;> cases hpq
        · rw [Nest.run_append]
          rfl
      | commit => simp only [depth] at h; omega
      | rollback target => simp only [depth] at h; omega
      | write r => exact absurd h ht

/-- Whether some rollback goes back to before a write, made at depth `l` just before the calls. -/
def RolledBack (l : Nat) (calls : List Call) : Prop :=
  ∃ p target q, calls = p ++ .rollback target :: q ∧
    ∀ p', p' <+: p → target.getD (depths l p - 1) < depths l p'

/-- Whether the outermost level is committed before the write is rolled back. -/
def Committed (l : Nat) (calls : List Call) : Prop :=
  ∃ p q, calls = p ++ .commit :: q ∧ depths l p = 1 ∧ ¬ RolledBack l p

section

variable {l : Nat} {calls : List Call} {c : Call}

theorem rolledBack_concat : RolledBack l (calls ++ [c]) ↔ RolledBack l calls ∨
    ∃ target, c = .rollback target ∧
      ∀ p, p <+: calls → target.getD (depths l calls - 1) < depths l p := by
  constructor
  · rintro ⟨p, target, q, h, hp⟩
    obtain ⟨rfl, rfl, _⟩ | ⟨q, h, _⟩ := concat_eq_append_cons.mp h
    · exact .inr ⟨target, rfl, hp⟩
    · exact .inl ⟨p, target, q, h, hp⟩
  · rintro (⟨p, target, q, rfl, hp⟩ | ⟨target, rfl, hp⟩)
    · exact ⟨p, target, q ++ [c], by rw [List.append_assoc, List.cons_append], hp⟩
    · exact ⟨calls, target, [], rfl, hp⟩

theorem committed_concat : Committed l (calls ++ [c]) ↔ Committed l calls ∨
    c = .commit ∧ depths l calls = 1 ∧ ¬ RolledBack l calls := by
  constructor
  · rintro ⟨p, q, h, hp⟩
    obtain ⟨rfl, rfl, _⟩ | ⟨q, h, _⟩ := concat_eq_append_cons.mp h
    · exact .inr ⟨rfl, hp⟩
    · exact .inl ⟨p, q, h, hp⟩
  · rintro (⟨p, q, rfl, hp⟩ | ⟨rfl, hp⟩)
    · exact ⟨p, q ++ [c], by rw [List.append_assoc, List.cons_append], hp⟩
    · exact ⟨calls, [], rfl, hp⟩

structure Floor (l : Nat) (calls : List Call) (floor : Nat) : Prop where
  le : ∀ p, p <+: calls → floor ≤ depths l p
  met : ∃ p, p <+: calls ∧ depths l p = floor

theorem Floor.concat {floor : Nat} (h : Floor l calls floor) :
    Floor l (calls ++ [c]) (min floor (c.depth (depths l calls))) := by
  constructor
  · intro p hp
    obtain rfl | hp := List.prefix_concat_iff.mp hp
    · rw [depths_append]
      exact Nat.min_le_right _ _
    · exact Nat.le_trans (Nat.min_le_left _ _) (h.le p hp)
  · by_cases hd : floor ≤ c.depth (depths l calls)
    · obtain ⟨p, hp, hm⟩ := h.met
      exact ⟨p, hp.trans (List.prefix_append _ _), by omega⟩
    · exact ⟨calls ++ [c], List.prefix_rfl, by simp; omega⟩

end

namespace Nest

variable {n : Nest} {w : Written} {floor : Nat}

structure Holds (n : Nest) (w : Written) (floor : Nat) : Prop where
  levels : ∃ inner here outer, n.levels = inner ++ here :: outer ∧ outer.length + 1 = floor ∧
    w ∈ here ∧ w ∉ outer.flatten
  durable : w ∉ n.durable

structure Gone (n : Nest) (w : Written) : Prop where
  levels : w ∉ n.levels.flatten
  durable : w ∉ n.durable

theorem requests_le_step (c : Call) : n.requests ≤ (n.step c).requests := by
  obtain ⟨requests, durable, levels⟩ := n
  cases c with
  | begin => exact Nat.le_succ _
  | commit =>
    match levels with
    | [] => exact Nat.le_refl _
    | [_] => exact Nat.le_succ _
    | _ :: _ :: _ => exact Nat.le_refl _
  | rollback target =>
    simp only [step, rollback]
    split
    · exact Nat.le_refl _
    · exact Nat.le_succ _
  | write r =>
    match levels with
    | [] => exact Nat.le_succ _
    | _ :: _ => exact Nat.le_succ _

theorem durable_prefix_step (c : Call) : n.durable <+: (n.step c).durable := by
  obtain ⟨requests, durable, levels⟩ := n
  cases c with
  | begin => exact List.prefix_rfl
  | commit =>
    match levels with
    | [] => exact List.prefix_rfl
    | [l] => exact List.prefix_append _ _
    | _ :: _ :: _ => exact List.prefix_rfl
  | rollback target =>
    simp only [step, rollback]
    split
    · exact List.prefix_rfl
    · exact List.prefix_rfl
  | write r =>
    match levels with
    | [] => exact List.prefix_append _ _
    | _ :: _ => exact List.prefix_rfl

theorem Holds.begin (h : n.Holds w floor) : n.begin.Holds w floor := by
  obtain ⟨inner, here, outer, hl, hw⟩ := h.levels
  exact ⟨⟨[] :: inner, here, outer, congrArg ([] :: ·) hl, hw⟩, h.durable⟩

theorem Holds.write (h : n.Holds w floor) (r : Request) : (n.write r).Holds w floor := by
  obtain ⟨requests, durable, levels⟩ := n
  obtain ⟨inner, here, outer, rfl, hf, hw, ho⟩ := h.levels
  match inner with
  | [] => exact ⟨⟨[], _, outer, rfl, hf, List.mem_append_left _ hw, ho⟩, h.durable⟩
  | l :: inner => exact ⟨⟨(l ++ [(requests, r)]) :: inner, here, outer, rfl, hf, hw, ho⟩, h.durable⟩

theorem Holds.commit (h : n.Holds w floor) (hn : n.levels.length ≠ 1) :
    n.commit.Holds w (min floor (n.levels.length - 1)) := by
  obtain ⟨requests, durable, levels⟩ := n
  obtain ⟨inner, here, outer, rfl, rfl, hw, ho⟩ := h.levels
  match inner, outer with
  | [], [] => exact absurd rfl hn
  | [], l :: outer =>
    rw [List.flatten_cons, List.mem_append, not_or] at ho
    exact ⟨⟨[], l ++ here, outer, rfl, by simp, List.mem_append_right _ hw, ho.2⟩, h.durable⟩
  | [l], outer =>
    exact ⟨⟨[], here ++ l, outer, rfl, by simp, List.mem_append_left _ hw, ho⟩, h.durable⟩
  | l :: l' :: inner, outer =>
    refine ⟨⟨(l' ++ l) :: inner, here, outer, rfl, ?_, hw, ho⟩, h.durable⟩
    simp only [List.length_append, List.length_cons]
    omega

theorem Holds.committed (h : n.Holds w floor) (hn : n.levels.length = 1) : w ∈ n.commit.durable := by
  obtain ⟨requests, durable, levels⟩ := n
  obtain ⟨inner, here, outer, rfl, _, hw, _⟩ := h.levels
  match inner, outer with
  | [], [] => exact List.mem_append_right _ hw
  | [], _ :: _ => simp at hn
  | _ :: _, _ => simp at hn

theorem Holds.rollback (h : n.Holds w floor) {t : Nat} (ht : floor ≤ t) :
    (n.rollback t).Holds w floor := by
  obtain ⟨requests, durable, levels⟩ := n
  unfold Nest.rollback
  split
  · exact h
  · obtain ⟨inner, here, outer, rfl, rfl, hw⟩ := h.levels
    refine ⟨⟨inner.drop _, here, outer, List.drop_append_of_le_length ?_, rfl, hw⟩, h.durable⟩
    simp only [List.length_append, List.length_cons]
    omega

theorem Holds.gone (h : n.Holds w floor) {t : Nat} (ht : t < floor) (hf : floor ≤ n.levels.length) :
    (n.rollback t).Gone w := by
  obtain ⟨requests, durable, levels⟩ := n
  unfold Nest.rollback
  rw [if_neg (by omega)]
  obtain ⟨inner, here, outer, rfl, rfl, hw, ho⟩ := h.levels
  refine ⟨?_, h.durable⟩
  obtain ⟨k, hk⟩ : ∃ k, (inner ++ here :: outer).length - t = inner.length + (k + 1) := by
    refine ⟨outer.length - t, ?_⟩
    rw [List.length_append, List.length_cons]
    omega
  simp only [hk]
  rw [← List.drop_drop, List.drop_left, List.drop_succ_cons]
  exact fun hm ↦ ho (mem_flatten_of_drop hm)

theorem Gone.step {c : Call} (h : n.Gone w) (hw : ∀ r, c = .write r → w.1 ≠ n.requests) :
    (n.step c).Gone w := by
  obtain ⟨requests, durable, levels⟩ := n
  obtain ⟨hl, hd⟩ := h
  cases c with
  | begin => exact ⟨hl, hd⟩
  | commit =>
    match levels with
    | [] => exact ⟨hl, hd⟩
    | [l] =>
      rw [List.flatten_singleton] at hl
      exact ⟨List.not_mem_nil, fun hm ↦ (List.mem_append.mp hm).elim hd hl⟩
    | l :: l' :: outer =>
      refine ⟨?_, hd⟩
      simp only [List.flatten_cons, List.mem_append, not_or] at hl
      simp only [Nest.step, Nest.commit, List.flatten_cons, List.mem_append, not_or]
      exact ⟨⟨hl.2.1, hl.1⟩, hl.2.2⟩
  | rollback target =>
    simp only [Nest.step, Nest.rollback]
    split
    · exact ⟨hl, hd⟩
    · exact ⟨fun hm ↦ hl (mem_flatten_of_drop hm), hd⟩
  | write r =>
    have hr : w ∉ [(requests, r)] := fun hm ↦ hw r rfl (congrArg Prod.fst (List.mem_singleton.mp hm))
    match levels with
    | [] => exact ⟨hl, fun hm ↦ (List.mem_append.mp hm).elim hd hr⟩
    | l :: outer =>
      refine ⟨?_, hd⟩
      simp only [List.flatten_cons, List.mem_append, not_or] at hl
      simp only [Nest.step, Nest.write, List.flatten_cons, List.mem_append, not_or]
      exact ⟨⟨hl.1, hr⟩, hl.2⟩

/-- What became of a write, by the calls since. -/
inductive Fate (n : Nest) (w : Written) (l : Nat) (calls : List Call) : Prop where
  | pending {floor : Nat} (hh : n.Holds w floor) (hf : Floor l calls floor)
      (hr : ¬ RolledBack l calls) (hc : ¬ Committed l calls)
  | durable (hd : w ∈ n.durable) (hc : Committed l calls)
  | gone (hg : n.Gone w) (hr : RolledBack l calls) (hc : ¬ Committed l calls)

theorem Fate.durable_iff {l : Nat} {calls : List Call} (h : n.Fate w l calls) :
    w ∈ n.durable ↔ Committed l calls := by
  cases h with
  | pending hh _ _ hc => exact iff_of_false hh.durable hc
  | durable hd hc => exact iff_of_true hd hc
  | gone hg _ hc => exact iff_of_false hg.durable hc

theorem Fate.step {l : Nat} {calls : List Call} (h : n.Fate w l calls) (hw : w.1 < n.requests)
    (hl : n.levels.length = depths l calls) (c : Call) : (n.step c).Fate w l (calls ++ [c]) := by
  cases h with
  | durable hd hc => exact .durable ((durable_prefix_step c).subset hd) (committed_concat.mpr (.inl hc))
  | gone hg hr hc =>
    refine .gone (hg.step fun _ _ ↦ Nat.ne_of_lt hw) (rolledBack_concat.mpr (.inl hr)) ?_
    rw [committed_concat, not_or]
    exact ⟨hc, fun h ↦ h.2.2 hr⟩
  | @pending floor hh hf hr hc =>
    -- The write stands at the least depth since it was made, so that a rollback forgets it just
    -- when it goes below that.
    have hfl : floor ≤ depths l calls := hf.le calls List.prefix_rfl
    have hf' := hf.concat (c := c)
    cases c with
    | begin =>
      rw [depth, Nat.min_eq_left (by omega)] at hf'
      refine .pending hh.begin hf' ?_ ?_
      · exact fun h ↦ (rolledBack_concat.mp h).elim hr nofun
      · exact fun h ↦ (committed_concat.mp h).elim hc nofun
    | commit =>
      by_cases h1 : depths l calls = 1
      · exact .durable (hh.committed (hl.trans h1)) (committed_concat.mpr (.inr ⟨rfl, h1, hr⟩))
      · rw [depth, ← hl] at hf'
        refine .pending (hh.commit (hl ▸ h1)) hf' ?_ ?_
        · exact fun h ↦ (rolledBack_concat.mp h).elim hr nofun
        · exact fun h ↦ (committed_concat.mp h).elim hc fun h ↦ h1 h.2.1
    | rollback target =>
      have hc' : ¬ Committed l (calls ++ [.rollback target]) :=
        fun h ↦ (committed_concat.mp h).elim hc nofun
      simp only [Nest.step, hl]
      by_cases ht : target.getD (depths l calls - 1) < floor
      · refine .gone (hh.gone ht (hl ▸ hfl)) (rolledBack_concat.mpr (.inr ⟨target, rfl, ?_⟩)) hc'
        exact fun p hp ↦ Nat.lt_of_lt_of_le ht (hf.le p hp)
      · replace ht := Nat.not_lt.mp ht
        rw [depth, Nat.min_eq_left (Nat.le_min.mpr ⟨hfl, ht⟩)] at hf'
        refine .pending (hh.rollback ht) hf' ?_ hc'
        rw [rolledBack_concat, not_or]
        refine ⟨hr, ?_⟩
        rintro ⟨_, ⟨⟩, hp⟩
        obtain ⟨p, hpre, hm⟩ := hf.met
        exact absurd (hp p hpre) (by omega)
    | write r =>
      rw [depth, Nat.min_eq_left hfl] at hf'
      refine .pending (hh.write r) hf' ?_ ?_
      · exact fun h ↦ (rolledBack_concat.mp h).elim hr nofun
      · exact fun h ↦ (committed_concat.mp h).elim hc nofun

def Fresh (n : Nest) : Prop := ∀ w : Written, n.requests ≤ w.1 → n.Gone w

theorem requests_write (r : Request) : (n.write r).requests = n.requests + 1 := by
  obtain ⟨requests, durable, levels⟩ := n
  cases levels <;> rfl

theorem Fresh.step (h : n.Fresh) (c : Call) : (n.step c).Fresh := by
  intro w hw
  refine (h w (Nat.le_trans (requests_le_step c) hw)).step ?_
  rintro r rfl
  have hr : (n.step (.write r)).requests = n.requests + 1 := requests_write r
  omega

theorem fresh_run (calls : List Call) : (({} : Nest).run calls).Fresh := by
  induction calls using List.reverseRecOn with
  | nil => exact fun w _ ↦ ⟨List.not_mem_nil, List.not_mem_nil⟩
  | append_singleton calls c ih =>
    rw [run_append]
    exact ih.step c

theorem Fresh.holds_write (h : n.Fresh) (hn : n.levels ≠ []) (r : Request) :
    (n.write r).Holds (n.requests, r) n.levels.length := by
  have hg := h (n.requests, r) (Nat.le_refl _)
  obtain ⟨requests, durable, levels⟩ := n
  obtain ⟨l, outer, rfl⟩ := List.exists_cons_of_ne_nil hn
  have hl := hg.levels
  rw [List.flatten_cons, List.mem_append, not_or] at hl
  exact ⟨⟨[], _, outer, rfl, rfl, List.mem_append_right _ (List.mem_singleton_self _), hl.2⟩,
    hg.durable⟩

theorem Fresh.fate (h : n.Fresh) (hn : n.levels ≠ []) (r : Request) (calls : List Call) :
    ((n.write r).run calls).Fate (n.requests, r) n.levels.length calls ∧
      n.requests < ((n.write r).run calls).requests := by
  induction calls using List.reverseRecOn with
  | nil =>
    have hf : Floor n.levels.length [] n.levels.length :=
      ⟨fun p hp ↦ by rw [List.prefix_nil.mp hp]; exact Nat.le_refl _, [], List.prefix_rfl, rfl⟩
    refine ⟨.pending (h.holds_write hn r) hf ?_ ?_, ?_⟩
    · rintro ⟨p, _, _, hp, _⟩
      cases p <;> cases hp
    · rintro ⟨p, _, hp, _⟩
      cases p <;> cases hp
    · rw [run_nil, requests_write]
      exact Nat.lt_succ_self _
  | append_singleton calls c ih =>
    obtain ⟨hf, hr⟩ := ih
    rw [run_append]
    have hl : (n.write r).levels.length = n.levels.length := length_levels_step n (.write r)
    have hd := length_levels_run (n.write r) calls
    exact ⟨hf.step hr (hl ▸ hd) c, Nat.lt_of_lt_of_le hr (requests_le_step c)⟩

end Nest

end FluentSql
