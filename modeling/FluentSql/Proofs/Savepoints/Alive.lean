import FluentSql.Proofs.Savepoints.Nesting
import FluentSql.Session.Transaction
import Std.Data.String.ToNat

namespace FluentSql

open Session (savepointName)

theorem savepointName_inj {i j : Nat} (h : savepointName i = savepointName j) : i = j := by
  have h' := congrArg String.toList h
  simp only [savepointName, String.toList_append] at h'
  exact Nat.repr_injective (String.toList_inj.mp (List.append_cancel_left h'))

def Deeper (level : Nat) (marks : List (String × Nat)) : Prop :=
  ∀ mark ∈ marks, ∃ j, level < j ∧ mark.1 = savepointName j

/-- Whether every open level but the outermost has its savepoint, behind none but deeper ones. -/
def Alive : List (String × Nat) → List (List Written) → Prop
  | _, [] => True
  | marks, [_] => Deeper 1 marks
  | marks, _ :: l :: outer =>
    ∃ stale rest, marks = stale ++
        (savepointName (outer.length + 2), (l :: outer).reverse.flatten.length) :: rest ∧
      Deeper (outer.length + 2) stale ∧ Alive rest (l :: outer)

theorem Alive.head {marks : List (String × Nat)} {l l' : List Written}
    {outer : List (List Written)} (h : Alive marks (l :: outer)) : Alive marks (l' :: outer) := by
  cases outer with
  | nil => exact h
  | cons m outer => exact h

theorem Alive.append {stale marks : List (String × Nat)} {levels : List (List Written)}
    (h : Alive marks levels) (hs : Deeper levels.length stale) : Alive (stale ++ marks) levels := by
  match levels with
  | [] => trivial
  | [l] =>
    intro mark hm
    exact (List.mem_append.mp hm).elim (hs mark) (h mark)
  | l :: l' :: outer =>
    obtain ⟨stale', rest, rfl, hd, ha⟩ := h
    refine ⟨stale ++ stale', rest, (List.append_assoc _ _ _).symm, ?_, ha⟩
    intro mark hm
    exact (List.mem_append.mp hm).elim (hs mark) (hd mark)

theorem Alive.cons {marks : List (String × Nat)} {levels : List (List Written)} {j k : Nat}
    (h : Alive marks levels) (hj : levels.length < j) :
    Alive ((savepointName j, k) :: marks) levels := by
  have hs : Deeper levels.length [(savepointName j, k)] := by
    intro mark hm
    exact ⟨j, hj, congrArg Prod.fst (List.mem_singleton.mp hm)⟩
  exact h.append hs

theorem Alive.commit {marks : List (String × Nat)} {l l' : List Written}
    {outer : List (List Written)} (h : Alive marks (l :: l' :: outer)) :
    Alive marks ((l' ++ l) :: outer) := by
  obtain ⟨stale, rest, rfl, hd, ha⟩ := h
  have ha' : Alive rest ((l' ++ l) :: outer) := ha.head
  refine (ha'.cons (Nat.lt_succ_self _)).append ?_
  intro mark hm
  obtain ⟨j, hj, he⟩ := hd mark hm
  exact ⟨j, Nat.lt_of_succ_lt hj, he⟩

theorem dropWhile_deeper {level : Nat} {stale marks : List (String × Nat)}
    (h : Deeper level stale) :
    (stale ++ marks).dropWhile (·.1 != savepointName level) =
      marks.dropWhile (·.1 != savepointName level) := by
  apply List.dropWhile_append_of_pos
  intro mark hm
  obtain ⟨j, hj, he⟩ := h mark hm
  rw [he, bne_iff_ne]
  exact fun hn ↦ Nat.ne_of_gt hj (savepointName_inj hn)

/-- Where the server finds the savepoint of the level just outside some levels. -/
theorem Alive.dropWhile {inner outer : List (List Written)} {marks : List (String × Nat)}
    (h : Alive marks (inner ++ outer)) (hi : inner ≠ []) (ho : outer ≠ []) :
    ∃ rest, marks.dropWhile (·.1 != savepointName (outer.length + 1)) =
        (savepointName (outer.length + 1), outer.reverse.flatten.length) :: rest ∧
      Alive rest outer := by
  induction inner generalizing marks with
  | nil => exact absurd rfl hi
  | cons l inner ih =>
    match inner, outer with
    | _, [] => exact absurd rfl ho
    | [], l' :: outer =>
      obtain ⟨stale, rest, rfl, hd, ha⟩ := h
      refine ⟨rest, ?_, ha⟩
      rw [List.length_cons, dropWhile_deeper hd, List.dropWhile_cons_of_neg (by simp)]
    | l' :: inner, outer =>
      -- The savepoint of this level goes, with the stale ones before it, since all are deeper.
      obtain ⟨stale, rest, rfl, hd, ha⟩ := h
      obtain ⟨rest', hr, ha'⟩ := ih ha (List.cons_ne_nil _ _)
      refine ⟨rest', ?_, ha'⟩
      rw [← hr, List.append_cons]
      apply dropWhile_deeper
      intro mark hm
      obtain hm | hm := List.mem_append.mp hm
      · obtain ⟨j, hj, he⟩ := hd mark hm
        refine ⟨j, ?_, he⟩
        simp only [List.append_eq, List.length_append] at hj
        omega
      · refine ⟨(inner ++ outer).length + 2, ?_, congrArg Prod.fst (List.mem_singleton.mp hm)⟩
        rw [List.length_append]
        omega

structure Server.Agrees (v : Server) (n : Nest) : Prop where
  requests : v.requests = n.requests
  durable : v.durable = n.durable
  pending : v.pending = n.pending
  isOpen : v.isOpen = !n.levels.isEmpty
  alive : Alive v.savepoints n.levels

namespace Server

variable {g : Grammar} {v : Server} {n : Nest}

theorem Agrees.begin (h : v.Agrees n) (hn : n.levels = []) :
    (v.receive g .begin).Agrees n.begin := by
  obtain ⟨requests, durable, levels⟩ := n
  subst hn
  exact ⟨congrArg (· + 1) h.requests, h.durable, rfl, rfl, nofun⟩

theorem Agrees.save (h : v.Agrees n) (hn : n.levels ≠ []) :
    (v.receive g (.unprepared (g.savepoint (savepointName (n.levels.length + 1))))).Agrees
      n.begin := by
  obtain ⟨requests, durable, levels⟩ := n
  obtain ⟨l, outer, rfl⟩ := List.exists_cons_of_ne_nil hn
  simp only [receive, perform, Grammar.mark?_savepoint, Server.save]
  refine ⟨congrArg (· + 1) h.requests, h.durable, ?_, h.isOpen, ?_⟩
  · simpa [Nest.pending, Nest.begin] using h.pending
  · exact ⟨[], v.savepoints, by rw [h.pending]; rfl, fun _ hx ↦ absurd hx List.not_mem_nil, h.alive⟩

theorem Agrees.commit (h : v.Agrees n) (hn : n.levels.length = 1) :
    (v.receive g .commit).Agrees n.commit := by
  obtain ⟨requests, durable, levels⟩ := n
  obtain ⟨l, rfl⟩ := List.length_eq_one_iff.mp hn
  refine ⟨congrArg (· + 1) h.requests, ?_, rfl, rfl, trivial⟩
  have hp : v.pending = l := h.pending.trans (List.append_nil l)
  simp only [receive, perform, h.durable, hp]
  rfl

theorem Agrees.left (h : v.Agrees n) (hn : 1 < n.levels.length) : v.Agrees n.commit := by
  obtain ⟨requests, durable, levels⟩ := n
  match levels with
  | [] => exact absurd hn (Nat.not_lt_zero _)
  | [_] => exact absurd hn (Nat.lt_irrefl _)
  | l :: l' :: outer =>
    refine ⟨h.requests, h.durable, ?_, h.isOpen, h.alive.commit⟩
    simpa [Nest.pending, Nest.commit] using h.pending

theorem Agrees.rollback (h : v.Agrees n) (hn : n.levels ≠ []) :
    (v.receive g .rollback).Agrees (n.rollback 0) := by
  obtain ⟨requests, durable, levels⟩ := n
  have hl : ¬ levels.length ≤ 0 := by simpa using hn
  unfold Nest.rollback
  rw [if_neg hl]
  simp only [Nat.sub_zero, List.drop_length]
  exact ⟨congrArg (· + 1) h.requests, h.durable, rfl, rfl, trivial⟩

theorem Agrees.restore (h : v.Agrees n) {t : Nat} (h0 : t ≠ 0) (ht : t < n.levels.length) :
    savepointName (t + 1) ∈ v.savepoints.map Prod.fst ∧
      (v.receive g (.unprepared (g.savepointRollback (savepointName (t + 1))))).Agrees
        (n.rollback t) := by
  obtain ⟨requests, durable, levels⟩ := n
  obtain ⟨inner, outer, rfl, rfl⟩ : ∃ inner outer, levels = inner ++ outer ∧ outer.length = t := by
    refine ⟨levels.take (levels.length - t), levels.drop (levels.length - t),
      (List.take_append_drop _ _).symm, ?_⟩
    rw [List.length_drop]
    exact Nat.sub_sub_self (Nat.le_of_lt ht)
  have ho : outer ≠ [] := List.ne_nil_of_length_pos (Nat.pos_of_ne_zero h0)
  have hi : inner ≠ [] := by
    rintro rfl
    exact Nat.lt_irrefl _ ht
  obtain ⟨rest, hd, ha⟩ := h.alive.dropWhile hi ho
  refine ⟨?_, ?_⟩
  · apply List.mem_map_of_mem (f := Prod.fst)
      (a := (savepointName (outer.length + 1), outer.reverse.flatten.length))
    apply (List.dropWhile_suffix _).subset
    rw [hd]
    exact List.mem_cons_self
  · have hl : (inner ++ outer).length - outer.length = inner.length := by
      rw [List.length_append, Nat.add_sub_cancel]
    have hp : v.pending = outer.reverse.flatten ++ inner.reverse.flatten := by
      rw [h.pending, Nest.pending, List.reverse_append, List.flatten_append]
    simp only [receive, perform, Grammar.mark?_savepointRollback, Server.restore, hd]
    rw [Nest.rollback, if_neg (Nat.not_le.mpr ht)]
    simp only [hl, List.drop_left]
    refine ⟨congrArg (· + 1) h.requests, h.durable, ?_, ?_, ha.cons (Nat.lt_succ_self _)⟩
    · simp only [hp, List.take_left]
      rfl
    · have hn : inner ++ outer ≠ [] := List.append_ne_nil_of_left_ne_nil hi _
      rw [h.isOpen, List.isEmpty_eq_false_iff.mpr hn, List.isEmpty_eq_false_iff.mpr ho]

theorem Agrees.write (h : v.Agrees n) (r : Request) :
    { v.write r with requests := v.requests + 1 }.Agrees (n.write r) := by
  obtain ⟨requests, durable, levels⟩ := n
  have hr : v.requests = requests := h.requests
  unfold Server.write
  match levels with
  | [] =>
    have ho : v.isOpen = false := h.isOpen
    simp only [ho, Bool.false_eq_true, if_false]
    exact ⟨congrArg (· + 1) hr, by rw [h.durable, hr]; rfl, h.pending, rfl, trivial⟩
  | l :: outer =>
    have ho : v.isOpen = true := h.isOpen
    simp only [ho, if_true]
    refine ⟨congrArg (· + 1) hr, h.durable, ?_, rfl, h.alive.head⟩
    simp only [h.pending, hr]
    simp [Nest.pending, Nest.write]

end Server

end FluentSql
