import FluentSql.Proofs.Conditions.Restricting
import FluentSql.Proofs.Paging.Tiling

namespace FluentSql

section

variable {α β α' β' : Type} {x : Except Error α} {y : Except Error β}

def FailsAlike (x : Except Error α) (y : Except Error β) : Prop :=
  x.map (fun _ ↦ ()) = y.map fun _ ↦ ()

namespace FailsAlike

theorem refl (x : Except Error α) : FailsAlike x x := rfl

theorem ret (a : α) (b : β) : FailsAlike (pure a) (pure b) := rfl

theorem ret_ite (p p' : Prop) [Decidable p] [Decidable p'] (a a' : α) (b b' : β) :
    FailsAlike (if p then pure a else pure a') (if p' then pure b else pure b') := by
  split <;> split <;> exact ret _ _

theorem bind {f : α → Except Error α'} {k : β → Except Error β'} (h : FailsAlike x y)
    (hf : ∀ a b, FailsAlike (f a) (k b)) : FailsAlike (x >>= f) (y >>= k) := by
  cases x with
  | ok a =>
    cases y with
    | ok b => exact hf a b
    | error e => cases h
  | error e =>
    cases y with
    | ok b => cases h
    | error e' =>
      cases h
      rfl

theorem andThen {f : α → Except Error α'} {k : α → Except Error β'}
    (hf : ∀ a, FailsAlike (f a) (k a)) : FailsAlike (x >>= f) (x >>= k) := by
  cases x with
  | ok a => exact hf a
  | error e => rfl

theorem exists_ok (h : FailsAlike x y) {b : β} (hy : y = .ok b) : ∃ a, x = .ok a := by
  subst hy
  cases x with
  | ok a => exact ⟨a, rfl⟩
  | error e => cases h

theorem eq_error (h : FailsAlike x y) {e : Error} (hy : y = .error e) : x = .error e := by
  subst hy
  cases x with
  | ok a => cases h
  | error e' =>
    cases h
    rfl

end FailsAlike

end

namespace Clauses

open Grammar

variable (g : Grammar) (c : Clauses) {e : Embedded} (limit offset : Option Nat)

theorem failsAlike_plain (he : e.unions = []) :
    FailsAlike (plain g { c with limit, offset } e) (c.plain g e) := by
  have hcolumns : FailsAlike (g.columnClause { c with limit, offset }) (g.columnClause c) := by
    unfold columnClause
    dsimp only
    split
    · exact .bind (.refl _) fun _ _ ↦ .ret _ _
    · exact .ret _ _
  cases ha : c.aggregate
  all_goals
    simp only [plain, ha, he, List.isEmpty_nil, not_true_eq_false, and_false, if_false, if_true]
    refine .bind ?_ fun _ _ ↦ .bind (.refl _) fun _ _ ↦ .bind (.refl _) fun _ _ ↦ ?_
    rotate_left
    · exact .ret_ite ..
  · exact hcolumns
  · exact .refl _

theorem failsAlike_assemble (he : e.unions = []) :
    FailsAlike (assemble g { c with limit, offset } e) (c.assemble g e) := by
  have hplain : FailsAlike (plain g { c with limit, offset } e) (c.plain g e) :=
    failsAlike_plain g c limit offset he
  cases ha : c.aggregate with
  | none => simpa only [assemble, ha] using hplain
  | some a =>
    simp only [ha] at hplain
    simp only [assemble, ha]
    split
    · exact hplain
    · exact .bind (.refl _) fun _ _ ↦
        .bind (failsAlike_plain g { c with aggregate := none } limit offset he) fun _ _ ↦ .ret _ _

end Clauses

namespace Query

variable {q : Query}

/-- Without a union, what is written of a query does not fail for its window. -/
theorem failsAlike_page (hu : q.unions = []) (number size : Nat) :
    FailsAlike (q.page number size).sql q.sql := by
  obtain ⟨c, joins, conditions, unions⟩ := q
  obtain rfl : unions = [] := hu
  refine .andThen fun _ ↦ .andThen fun joins ↦ .andThen fun conditions ↦ ?_
  exact c.failsAlike_assemble c.grammar _ _ (e := ⟨joins, conditions, []⟩) rfl

open Session FluentSql.Action

variable {σ H : Type} {d : Driver σ H} {s t : Session σ H}

theorem get_written {sql : String} {bindings : List Value} (h : q.compiled = .ok (sql, bindings)) :
    q.get d = execute d (!q.usesWriteHandle) (.select sql bindings) := by
  unfold get
  rw [h]
  rfl

theorem get_unwritten {e : Error} (h : q.sql = .error e) (s : Session σ H) :
    (q.get d).on s = (.error e, s) := by
  unfold get compiled
  rw [h]
  rfl

theorem get_grows (q : Query) (hp : s.connection.pretending = false) :
    s.Grows ((q.get d).on s).2 := by
  cases h : q.sql with
  | error e =>
    rw [get_unwritten h]
    exact grows_refl s
  | ok sql =>
    have hc : q.compiled = .ok (sql.text, q.allBindings) := by
      rw [compiled, h]
      rfl
    rw [get_written hc]
    exact (executes hp).grows

theorem exists_send {useRead : Bool} {r : Request} {reply : r.Reply}
    (h : Executes d useRead r s (.ok reply) t) : ∃ h w, (d.send h r w).1 = .ok reply := by
  cases h with
  | answered hd => exact ⟨_, _, congrArg Prod.fst hd⟩
  | answeredAgain _ _ _ hd => exact ⟨_, _, congrArg Prod.fst hd⟩

def visited (d : Driver σ H) (q : Query) (size : Nat) (s : Session σ H) : Nat → Session σ H
  | 0 => s
  | n + 1 => (((q.page (n + 1) size).get d).on (visited d q size s n)).2

def reading (d : Driver σ H) (q : Query) (size : Nat) (s : Session σ H) (n : Nat) :
    Except Error (List Row) :=
  (((q.page (n + 1) size).get d).on (q.visited d size s n)).1

/-- Whether a driver, if it does not fail, answers the statements of the pages with windows of some
rows, whatever it was asked before and over whichever handle. -/
def Paged (d : Driver σ H) (q : Query) (size : Nat) (rows : List Row) : Prop :=
  ∀ offset sql bindings, ((q.setOffset offset).setLimit size).compiled = .ok (sql, bindings) →
    ∀ h w reply, (d.send h (.select sql bindings) w).1 = .ok reply →
      reply = (rows.drop offset).take size

variable {size : Nat} {rows : List Row} {goOn : Chunk → Bool} {number bound n : Nat}
  {got : List Chunk} {result : Except Error Bool}

theorem visited_grows (hp : s.connection.pretending = false) (n : Nat) :
    s.Grows (q.visited d size s n) := by
  induction n with
  | zero => exact grows_refl s
  | succ n ih => exact ih.trans (get_grows _ (ih.outside hp))

theorem get_visited (n : Nat) : ((q.page (n + 1) size).get d).on (q.visited d size s n) =
    (q.reading d size s n, q.visited d size s (n + 1)) := rfl

theorem reading_eq (hd : Paged d q size rows) (hfits : rows.length < UInt64.size)
    (hp : s.connection.pretending = false) {reply : List Row}
    (h : q.reading d size s n = .ok reply) : reply = (rows.drop (n * size)).take size := by
  cases hc : (q.page (n + 1) size).compiled with
  | error e =>
    have hget : ((q.page (n + 1) size).get d).on (q.visited d size s n) =
        (.error e, q.visited d size s n) := by
      unfold get
      rw [hc]
      rfl
    rw [reading, hget] at h
    cases h
  | ok c =>
    have hn : s.Grows (q.visited d size s n) := visited_grows hp n
    have hx : Executes d (!(q.page (n + 1) size).usesWriteHandle) (.select c.1 c.2) _ _ _ :=
      executes (hn.outside hp)
    rw [← get_written hc, get_visited, h] at hx
    obtain ⟨handle, w, hsend⟩ := exists_send hx
    rw [hd _ _ _ hc handle w reply hsend, Nat.add_sub_cancel, drop_saturated hfits]

section

variable (h : ((q.page number size).get d).on s = (.ok rows, t)) (hr : rows ≠ [])

theorem chunkFrom_failed {e : Error} (h : ((q.page number size).get d).on s = (.error e, t)) :
    (q.chunkFrom d size goOn (bound + 1) number).run s = (([], .error e), t) :=
  run_bind_of h

theorem chunkFrom_ended (h : ((q.page number size).get d).on s = (.ok [], t)) :
    (q.chunkFrom d size goOn (bound + 1) number).run s = (([], .ok true), t) :=
  run_bind_of h

include h hr

theorem chunkFrom_stopped (hg : goOn ⟨number, rows⟩ = false) :
    (q.chunkFrom d size goOn (bound + 1) number).run s = (([⟨number, rows⟩], .ok false), t) := by
  obtain ⟨row, rows, rfl⟩ := List.exists_cons_of_ne_nil hr
  refine (run_bind_of h).trans ?_
  simp only [hg, Bool.not_false, if_true]
  rfl

variable (hg : goOn ⟨number, rows⟩)

include hg

theorem chunkFrom_short (hs : rows.length ≠ size) :
    (q.chunkFrom d size goOn (bound + 1) number).run s = (([⟨number, rows⟩], .ok true), t) := by
  obtain ⟨row, rows, rfl⟩ := List.exists_cons_of_ne_nil hr
  refine (run_bind_of h).trans ?_
  simp only [hg, Bool.not_true, Bool.false_eq_true, if_false, if_pos hs]
  rfl

theorem chunkFrom_full (hs : rows.length = size) {u : Session σ H}
    (hn : (q.chunkFrom d size goOn bound (number + 1)).run t = ((got, result), u)) :
    (q.chunkFrom d size goOn (bound + 1) number).run s =
      ((⟨number, rows⟩ :: got, result), u) := by
  obtain ⟨row, rows, rfl⟩ := List.exists_cons_of_ne_nil hr
  refine (run_bind_of h).trans ?_
  simp only [hg, Bool.not_true, Bool.false_eq_true, if_false, if_neg (not_not.2 hs)]
  exact run_bind_of hn

end

def nthChunk (size : Nat) (rows : List Row) (n : Nat) : Chunk :=
  ⟨n + 1, (rows.drop (n * size)).take size⟩

theorem chunks_eq_nthChunk (size : Nat) (rows : List Row) : chunks size 1 rows =
    (List.range ((rows.length + size - 1) / size)).map (nthChunk size rows) := by
  refine List.map_congr_left fun n _ ↦ ?_
  rw [nthChunk, Nat.add_comm]

theorem lt_chunks_iff (hsize : 0 < size) :
    n < (rows.length + size - 1) / size ↔ n * size < rows.length := by
  rw [← Nat.succ_le_iff, Nat.le_div_iff_mul_le hsize, Nat.succ_mul]
  omega

theorem take_chunks (hsize : 0 < size) (h : n * size ≤ rows.length) :
    (chunks size 1 rows).take n = (List.range n).map (nthChunk size rows) := by
  have hn : n ≤ (rows.length + size - 1) / size := by
    rw [Nat.le_div_iff_mul_le hsize]
    omega
  rw [chunks_eq_nthChunk, ← List.map_take, List.take_range, Nat.min_eq_left hn]

theorem chunks_split (hsize : 0 < size) {first rest : List Chunk} {c : Chunk}
    (h : chunks size 1 rows = first ++ c :: rest) :
    first.length * size < rows.length ∧ (List.range first.length).map (nthChunk size rows) = first ∧
      c = nthChunk size rows first.length := by
  have hlt : first.length < (rows.length + size - 1) / size := by
    have hl := congrArg List.length h
    simp only [chunks, List.length_map, List.length_range, List.length_append,
      List.length_cons] at hl
    omega
  have hrows := (lt_chunks_iff hsize).1 hlt
  refine ⟨hrows, ?_, ?_⟩
  · rw [← take_chunks hsize (Nat.le_of_lt hrows), h, List.take_left]
  · have hn := congrArg (·[first.length]?) h
    simpa [chunks_eq_nthChunk, List.getElem?_range hlt] using hn.symm

theorem chunks_eq_append (hsize : 0 < size) : chunks size 1 rows =
    (List.range (rows.length / size)).map (nthChunk size rows) ++
      if rows.length / size * size < rows.length then [nthChunk size rows (rows.length / size)]
      else [] := by
  have hn : (rows.length + size - 1) / size ≤ rows.length / size + 1 := by
    rw [← Nat.add_div_right _ hsize]
    exact Nat.div_le_div_right (by omega)
  have hle : rows.length / size ≤ (rows.length + size - 1) / size :=
    Nat.div_le_div_right (by omega)
  rw [chunks_eq_nthChunk]
  split
  · rename_i hlt
    have hlast : rows.length / size < (rows.length + size - 1) / size := (lt_chunks_iff hsize).2 hlt
    rw [show (rows.length + size - 1) / size = rows.length / size + 1 by omega, List.range_succ,
      List.map_append]
    rfl
  · rename_i hlt
    rw [← lt_chunks_iff hsize] at hlt
    rw [show (rows.length + size - 1) / size = rows.length / size by omega, List.append_nil]

section

variable (hd : Paged d q size rows) (hfits : rows.length < UInt64.size)
  (hp : s.connection.pretending = false)

include hd hfits hp

theorem get_nthChunk (h : (q.reading d size s n).isOk) :
    ((q.page (n + 1) size).get d).on (q.visited d size s n) =
      (.ok (nthChunk size rows n).rows, q.visited d size s (n + 1)) := by
  rw [get_visited]
  cases hr : q.reading d size s n with
  | error e => simp [hr, Except.isOk, Except.toBool] at h
  | ok reply => rw [reading_eq hd hfits hp hr, nthChunk]

/-- Pages that the rows fill are read one after the other, if the driver answers and the callback
wants more. -/
theorem chunkFrom_filled (hfull : n * size ≤ rows.length) (hsize : 0 < size)
    (hr : ∀ k < n, (q.reading d size s k).isOk) (hg : ∀ k < n, goOn (nthChunk size rows k))
    (h : (q.chunkFrom d size goOn bound (n + 1)).run (q.visited d size s n) =
      ((got, result), t)) :
    (q.chunkFrom d size goOn (n + bound) 1).run s =
      (((List.range n).map (nthChunk size rows) ++ got, result), t) := by
  induction n generalizing bound got with
  | zero => simpa [visited] using h
  | succ n ih =>
    rw [Nat.succ_mul] at hfull
    have hlen : (nthChunk size rows n).rows.length = size := by
      rw [nthChunk, List.length_take, List.length_drop]
      omega
    have hstep := chunkFrom_full (get_nthChunk hd hfits hp (hr n (Nat.lt_succ_self n)))
      (List.length_pos_iff.1 (hlen.symm ▸ hsize)) (hg n (Nat.lt_succ_self n)) hlen h
    have hrun := ih (by omega) (fun k hk ↦ hr k (Nat.lt_succ_of_lt hk))
      (fun k hk ↦ hg k (Nat.lt_succ_of_lt hk)) hstep
    rw [List.range_succ, List.map_append, List.append_assoc, Nat.add_right_comm, Nat.add_assoc]
    exact hrun

variable (hsize : 0 < size) (hb : rows.length / size < bound)

include hsize hb

/-- The pages before one that cannot be read are all that the callback gets. -/
theorem chunkFrom_failing {e : Error} (hn : n ≤ rows.length / size)
    (hg : ∀ c ∈ (chunks size 1 rows).take n, goOn c)
    (hr : ∀ k < n, (q.reading d size s k).isOk) (he : q.reading d size s n = .error e) :
    (q.chunkFrom d size goOn bound 1).run s =
      (((chunks size 1 rows).take n, .error e), q.visited d size s (n + 1)) := by
  obtain ⟨rest, rfl⟩ : ∃ rest, bound = n + (rest + 1) := ⟨bound - n - 1, by omega⟩
  have hfull : n * size ≤ rows.length := (Nat.le_div_iff_mul_le hsize).1 hn
  rw [take_chunks hsize hfull] at hg ⊢
  have hlast : (q.chunkFrom d size goOn (rest + 1) (n + 1)).run (q.visited d size s n) =
      (([], .error e), q.visited d size s (n + 1)) :=
    chunkFrom_failed (by rw [get_visited, he])
  have hrun := chunkFrom_filled hd hfits hp hfull hsize hr (fun k hk ↦ hg _ ?_) hlast
  · rwa [List.append_nil] at hrun
  · exact List.mem_map_of_mem (List.mem_range.2 hk)

/-- The page that the callback stops at is the last one. -/
theorem chunkFrom_stopping {first rest : List Chunk} {c : Chunk}
    (h : chunks size 1 rows = first ++ c :: rest) (hg : ∀ b ∈ first, goOn b)
    (hc : goOn c = false) (hr : ∀ k ≤ first.length, (q.reading d size s k).isOk) :
    (q.chunkFrom d size goOn bound 1).run s =
      ((first ++ [c], .ok false), q.visited d size s (first.length + 1)) := by
  obtain ⟨hlt, hfirst, rfl⟩ := chunks_split hsize h
  obtain ⟨rest, rfl⟩ : ∃ rest, bound = first.length + (rest + 1) := by
    have hn : first.length ≤ rows.length / size :=
      (Nat.le_div_iff_mul_le hsize).2 (Nat.le_of_lt hlt)
    exact ⟨bound - first.length - 1, by omega⟩
  have hrows : (nthChunk size rows first.length).rows ≠ [] := by
    rw [← List.length_pos_iff, nthChunk, List.length_take, List.length_drop]
    omega
  have hlast : (q.chunkFrom d size goOn (rest + 1) (first.length + 1)).run
      (q.visited d size s first.length) =
        (([nthChunk size rows first.length], .ok false), q.visited d size s (first.length + 1)) :=
    chunkFrom_stopped (get_nthChunk hd hfits hp (hr _ (Nat.le_refl _))) hrows hc
  have hrun := chunkFrom_filled hd hfits hp (Nat.le_of_lt hlt) hsize
    (fun k hk ↦ hr k (Nat.le_of_lt hk)) (fun k hk ↦ hg _ ?_) hlast
  · rwa [hfirst] at hrun
  · rw [← hfirst]
    exact List.mem_map_of_mem (List.mem_range.2 hk)

/-- The last page is one that the rows do not fill, if only because none are left. -/
theorem chunkFrom_complete (hg : ∀ c ∈ chunks size 1 rows, goOn c)
    (hr : ∀ k ≤ rows.length / size, (q.reading d size s k).isOk) :
    (q.chunkFrom d size goOn bound 1).run s =
      ((chunks size 1 rows, .ok true), q.visited d size s (rows.length / size + 1)) := by
  have hfull : rows.length / size * size ≤ rows.length := Nat.div_mul_le_self _ _
  have hleft : rows.length < rows.length / size * size + size := Nat.lt_div_mul_add hsize
  have hget := get_nthChunk hd hfits hp (hr _ (Nat.le_refl _))
  obtain ⟨rest, rfl⟩ : ∃ rest, bound = rows.length / size + (rest + 1) :=
    ⟨bound - rows.length / size - 1, by omega⟩
  rw [chunks_eq_append hsize] at hg ⊢
  refine chunkFrom_filled hd hfits hp hfull hsize (fun k hk ↦ hr k (Nat.le_of_lt hk))
    (fun k hk ↦ hg _ (List.mem_append_left _ (List.mem_map_of_mem (List.mem_range.2 hk)))) ?_
  have hlen : (nthChunk size rows (rows.length / size)).rows.length =
      rows.length - rows.length / size * size := by
    rw [nthChunk, List.length_take, List.length_drop]
    omega
  split
  · rename_i hlt
    rw [if_pos hlt] at hg
    have hpos : 0 < (nthChunk size rows (rows.length / size)).rows.length := by omega
    have hshort : (nthChunk size rows (rows.length / size)).rows.length ≠ size := by omega
    exact chunkFrom_short hget (List.length_pos_iff.1 hpos)
      (hg _ (List.mem_append_right _ List.mem_cons_self)) hshort
  · rename_i hlt
    rw [List.length_eq_zero_iff.1 (by omega : (nthChunk size rows _).rows.length = 0)] at hget
    exact chunkFrom_ended hget

end

section

variable {useRead : Bool} {r : Request} (hok : ∀ h w, (d.send h r w).1.isOk)

include hok

theorem not_send_error {h : H} {e : Error} {w w' : σ} : d.send h r w ≠ (.error e, w') := by
  intro he
  simpa [he, Except.isOk, Except.toBool] using hok h w

theorem not_loses {w : σ} : ¬ s.Loses d useRead r w :=
  fun ⟨_, _, he, _⟩ ↦ not_send_error hok he

theorem isOk_of_executes {result : Except Error r.Reply} (h : Executes d useRead r s result t) :
    result.isOk := by
  cases h with
  | answered => rfl
  | failed he => exact absurd he (not_send_error hok)
  | unrenewable hl => exact absurd hl (not_loses hok)
  | unrenewed hl => exact absurd hl (not_loses hok)
  | answeredAgain => rfl
  | failedAgain hl => exact absurd hl (not_loses hok)

end

/-- How the pages of a query are asked for: each by its own statement, which is sent once, or a
second time over a connection that was renewed. -/
structure Requested (d : Driver σ H) (q : Query) (size : Nat) (s : Session σ H)
    (statement : Nat → String × List Value) : Prop where
  written : ∀ n, (q.page (n + 1) size).compiled = .ok (statement n)
  executes : ∀ n, Executes d (!q.usesWriteHandle) (.select (statement n).1 (statement n).2)
    (q.visited d size s n) (q.reading d size s n) (q.visited d size s (n + 1))
  asked : ∃ times : Nat → Nat,
    (∀ n, times n = 1 ∨ times n = 2 ∧ ∃ handles w, (q.visited d size s n).Renews d
      (!q.usesWriteHandle) (.select (statement n).1 (statement n).2) handles w) ∧
    ∀ n, s.asked (q.visited d size s n) =
      (List.range n).flatMap fun k ↦ .replicate (times k) (.select (statement k).1 (statement k).2)
  unfailing : (∀ n h w, (d.send h (.select (statement n).1 (statement n).2) w).1.isOk) →
    ∀ n, (q.reading d size s n).isOk ∧
      s.asked (q.visited d size s n) =
        (List.range n).map fun k ↦ .select (statement k).1 (statement k).2

/-- What reading an ordered query in pages comes to. The pages divide the rows. The callback gets
all of them, or those up to the first it stops at, or those before the first that cannot be read. -/
structure Chunked (d : Driver σ H) (q : Query) (size : Nat) (goOn : Chunk → Bool)
    (rows : List Row) (s : Session σ H) (got : List Chunk) (result : Except Error Bool)
    (t : Session σ H) : Prop where
  divides : Divides size 1 rows (chunks size 1 rows)
  unordered : q.orders = [] → q.unionOrders = [] →
    got = [] ∧ result = .error (.invalid .unordered) ∧ t = s
  unwritten : q.orders ≠ [] ∨ q.unionOrders ≠ [] → ∀ e, q.sql = .error e →
    got = [] ∧ result = .error e ∧ t = s
  complete : q.orders ≠ [] ∨ q.unionOrders ≠ [] → (∀ c ∈ chunks size 1 rows, goOn c) →
    (∀ n ≤ rows.length / size, (q.reading d size s n).isOk) →
    got = chunks size 1 rows ∧ result = .ok true ∧
      t = q.visited d size s (rows.length / size + 1)
  stopped : q.orders ≠ [] ∨ q.unionOrders ≠ [] → ∀ first c rest,
    chunks size 1 rows = first ++ c :: rest → (∀ b ∈ first, goOn b) → goOn c = false →
    (∀ n ≤ first.length, (q.reading d size s n).isOk) →
    got = first ++ [c] ∧ result = .ok false ∧ t = q.visited d size s (first.length + 1)
  failed : q.orders ≠ [] ∨ q.unionOrders ≠ [] → ∀ n e, n ≤ rows.length / size →
    (∀ c ∈ (chunks size 1 rows).take n, goOn c) →
    (∀ k < n, (q.reading d size s k).isOk) → q.reading d size s n = .error e →
    got = (chunks size 1 rows).take n ∧ result = .error e ∧ t = q.visited d size s (n + 1)
  requested : ∀ written, q.sql = .ok written → ∃ statement, Requested d q size s statement

section requests

variable {n : Nat} {statement : String × List Value}

theorem exists_statement (hu : q.unions = []) {written : Sql} (h : q.sql = .ok written)
    (size n : Nat) : ∃ statement, (q.page (n + 1) size).compiled = .ok statement := by
  obtain ⟨sql, hsql⟩ := (failsAlike_page hu (n + 1) size).exists_ok h
  exact ⟨_, bind_eq_ok.2 ⟨sql, hsql, rfl⟩⟩

theorem execute_visited (hu : q.unions = [])
    (h : (q.page (n + 1) size).compiled = .ok statement) :
    (execute d (!q.usesWriteHandle) (.select statement.1 statement.2)).on (q.visited d size s n) =
      (q.reading d size s n, q.visited d size s (n + 1)) := by
  have hwrite : (q.page (n + 1) size).usesWriteHandle = q.usesWriteHandle := by
    simp [page, setLimit, setOffset, hu]
  rw [← get_visited, get_written h, hwrite]

theorem executes_visited (hu : q.unions = []) (hp : s.connection.pretending = false)
    (h : (q.page (n + 1) size).compiled = .ok statement) :
    Executes d (!q.usesWriteHandle) (.select statement.1 statement.2) (q.visited d size s n)
      (q.reading d size s n) (q.visited d size s (n + 1)) := by
  have hgrows : s.Grows (q.visited d size s n) := visited_grows hp n
  have hx : Executes d (!q.usesWriteHandle) (.select statement.1 statement.2) _ _ _ :=
    executes (hgrows.outside hp)
  rwa [execute_visited hu h] at hx

/-- A page is asked for once, or a second time after the connection was renewed. -/
theorem asked_visited (hu : q.unions = []) (hp : s.connection.pretending = false)
    (h : (q.page (n + 1) size).compiled = .ok statement) :
    ∃ times, (times = 1 ∨ times = 2 ∧ ∃ handles w, (q.visited d size s n).Renews d
        (!q.usesWriteHandle) (.select statement.1 statement.2) handles w) ∧
      (q.visited d size s n).asked (q.visited d size s (n + 1)) =
        .replicate times (.select statement.1 statement.2) := by
  have hgrows : s.Grows (q.visited d size s n) := visited_grows hp n
  obtain ⟨-, ha⟩ := asked_execute (d := d) (!q.usesWriteHandle)
    (.select statement.1 statement.2) (hgrows.outside hp)
  rw [execute_visited hu h] at ha
  rcases ha with ha | ⟨hr, ha⟩
  · exact ⟨1, .inl rfl, ha⟩
  · exact ⟨2, .inr ⟨rfl, hr⟩, ha⟩

theorem asked_pages (hp : s.connection.pretending = false) {asked : Nat → List Request}
    (h : ∀ n, (q.visited d size s n).asked (q.visited d size s (n + 1)) = asked n) (n : Nat) :
    s.asked (q.visited d size s n) = (List.range n).flatMap asked := by
  induction n with
  | zero => exact asked_self s
  | succ n ih =>
    have hgrows : s.Grows (q.visited d size s n) := visited_grows hp n
    have hstep : (q.visited d size s n).Grows (q.visited d size s (n + 1)) :=
      get_grows _ (hgrows.outside hp)
    rw [asked_append hgrows.trace hstep.trace, ih, h, List.range_succ, List.flatMap_append,
      List.flatMap_singleton]

theorem requested (hu : q.unions = []) (hp : s.connection.pretending = false) {written : Sql}
    (h : q.sql = .ok written) : ∃ statement, Requested d q size s statement := by
  choose statement hstatement using exists_statement hu h size
  have hexecutes (n : Nat) := executes_visited (d := d) hu hp (hstatement n)
  choose times htimes hasked using fun n ↦ asked_visited (d := d) hu hp (hstatement n)
  have hall := asked_pages hp hasked
  refine ⟨statement, hstatement, hexecutes, ⟨times, htimes, hall⟩, fun hok n ↦ ⟨?_, ?_⟩⟩
  · exact isOk_of_executes (hok n) (hexecutes n)
  · have hone (k : Nat) : times k = 1 :=
      (htimes k).resolve_right fun ⟨_, _, _, _, _, hl, _⟩ ↦ not_loses (hok k) hl
    rw [hall, List.map_eq_flatMap]
    exact List.flatMap_congr fun k _ ↦ by rw [hone]; rfl

end requests

def usersOrdered : Query :=
  { usersById with orders := [.column (.name "id") .ascending] }

theorem compiled_usersOrdered (offset limit : Nat) :
    ((usersOrdered.setOffset offset).setLimit limit).compiled =
      .ok ("select * from `users` order by `id` asc" ++ " " ++ ("limit " ++ toString limit) ++
        " " ++ ("offset " ++ toString offset), []) := by
  have hjoin : ((usersOrdered.setOffset offset).setLimit limit).compiled =
      .ok (String.join ["select ", "", "*", " ", "from ", "`users`", " ", "order by ", "`id`", " ",
        "asc", " ", "limit " ++ toString limit, " ", "offset " ++ toString offset], []) := rfl
  rw [hjoin]
  simp only [String.join, List.foldl]
  rfl

theorem paged_usersOrdered : Paged (pager userRows) usersOrdered 2 userRows := by
  intro offset sql bindings hc h w reply hsend
  rw [compiled_usersOrdered] at hc
  obtain ⟨rfl, rfl⟩ := Prod.mk.inj (Except.ok.inj hc)
  have hselect (clauses : String) : "select count(".toList.isPrefixOf
      ("select * from `users` order by `id` asc" ++ clauses).toList = false := by
    simp only [String.toList_append]
    rfl
  rw [send_pager (by simpa only [String.append_assoc] using hselect _), readWindow_clauses] at hsend
  exact (Except.ok.inj hsend).symm

def lossy (d : Driver Unit String) : Driver Bool String where
  send h r lost :=
    if lost then (.error (.driver "MySQL server has gone away"), false)
    else ((d.send h r ()).1, false)
  lastInsertId? h _ := d.lastInsertId? h ()
  reconnect lost := ((d.reconnect ()).1, lost)
  horizon _ := d.horizon ()

theorem Paged.lossy {d : Driver Unit String} (h : Paged d q size rows) :
    Paged (lossy d) q size rows := by
  intro offset sql bindings hc handle lost reply hsend
  cases lost with
  | true => cases hsend
  | false => exact h offset sql bindings hc handle () reply hsend

def nobody : Driver Unit String := lister 2 (listing [] .nil)

theorem paged_nobody (q : Query) : Paged nobody q 2 [] := by
  intro offset sql bindings _ h w reply hsend
  obtain rfl : (listing [] .nil).page 2 (boundKey bindings) = reply := Except.ok.inj hsend
  rw [List.drop_nil, List.take_nil]
  cases boundKey bindings <;> rfl

end Query

end FluentSql
