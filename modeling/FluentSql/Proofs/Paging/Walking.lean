import FluentSql.Proofs.Paging.Following
import FluentSql.Proofs.Paging.Listing

namespace FluentSql.Query

open Session FluentSql.Action

section

variable {name : String} {goOn : Chunk → Bool} {size number n : Nat} {rows : List Row}
  {got : List Chunk} {result : Except Error Bool}

variable (name goOn size) in
/-- How the pages of some rows are walked through: what the callback gets, how it ends, and how many
pages are read. -/
inductive Walks : Nat → List Row → List Chunk → Except Error Bool → Nat → Prop where
  | ended {number : Nat} : Walks number [] [] (.ok true) 1
  | lost {number : Nat} {rows : List Row} (hr : rows ≠ [])
      (hk : ¬ Chunk.Resumes name ⟨number, rows.take size⟩) :
      Walks number rows [] (.error (.invalid (.missingKey name))) 1
  | stopped {number : Nat} {rows : List Row} (hr : rows ≠ [])
      (hk : Chunk.Resumes name ⟨number, rows.take size⟩)
      (hg : goOn ⟨number, rows.take size⟩ = false) :
      Walks number rows [⟨number, rows.take size⟩] (.ok false) 1
  | short {number : Nat} {rows : List Row} (hr : rows ≠ [])
      (hk : Chunk.Resumes name ⟨number, rows.take size⟩) (hg : goOn ⟨number, rows.take size⟩)
      (hs : rows.length < size) : Walks number rows [⟨number, rows.take size⟩] (.ok true) 1
  | onward {number n : Nat} {rows : List Row} {got : List Chunk} {result : Except Error Bool}
      (hr : rows ≠ []) (hk : Chunk.Resumes name ⟨number, rows.take size⟩)
      (hg : goOn ⟨number, rows.take size⟩) (hs : size ≤ rows.length)
      (h : Walks (number + 1) (rows.drop size) got result n) :
      Walks number rows (⟨number, rows.take size⟩ :: got) result (n + 1)

variable (name goOn) in
def Passes (c : Chunk) : Prop := goOn c ∧ c.Resumes name

/-- What comes of the pages: the callback gets all of them, or those up to the first it stops at, or
those before the first that has no key to go on after. -/
structure Walked (name : String) (goOn : Chunk → Bool) (size : Nat) (rows : List Row)
    (all got : List Chunk) (result : Except Error Bool) (n : Nat) : Prop where
  complete : (∀ c ∈ all, Passes name goOn c) →
    got = all ∧ result = .ok true ∧ n = rows.length / size + 1
  stopped : ∀ first c rest, all = first ++ c :: rest → (∀ b ∈ first, Passes name goOn b) →
    c.Resumes name → goOn c = false →
    got = first ++ [c] ∧ result = .ok false ∧ n = first.length + 1
  lost : ∀ first c rest, all = first ++ c :: rest → (∀ b ∈ first, Passes name goOn b) →
    ¬ c.Resumes name →
    got = first ∧ result = .error (.invalid (.missingKey name)) ∧ n = first.length + 1

theorem forall_places {c : Chunk} {rest : List Chunk} {P : List Chunk → Chunk → Prop}
    (hc : P [] c) (hrest : ∀ first b after, rest = first ++ b :: after → P (c :: first) b)
    (first : List Chunk) (b : Chunk) (after : List Chunk) (h : c :: rest = first ++ b :: after) :
    P first b := by
  cases first with
  | nil =>
    obtain ⟨rfl, -⟩ := List.cons.inj h
    exact hc
  | cons a first =>
    obtain ⟨rfl, he⟩ := List.cons.inj h
    exact hrest first b after he

theorem Walks.walked (hsize : 0 < size) (h : Walks name goOn size number rows got result n) :
    Walked name goOn size rows (chunks size number rows) got result n := by
  induction h with
  | ended =>
    rw [chunks_nil hsize]
    constructor
    case complete => exact fun _ ↦ ⟨rfl, rfl, by simp⟩
    case stopped => simp
    case lost => simp
  | @lost number rows hr hk =>
    rw [chunks_cons hsize hr]
    constructor
    case complete => exact fun ha ↦ absurd (ha _ List.mem_cons_self).2 hk
    case stopped =>
      exact forall_places (fun _ hc ↦ absurd hc hk)
        fun _ _ _ _ hf ↦ absurd (hf _ List.mem_cons_self).2 hk
    case lost =>
      exact forall_places (fun _ _ ↦ ⟨rfl, rfl, rfl⟩)
        fun _ _ _ _ hf ↦ absurd (hf _ List.mem_cons_self).2 hk
  | @stopped number rows hr hk hg =>
    rw [chunks_cons hsize hr]
    have hno : ¬ Passes name goOn ⟨number, rows.take size⟩ := fun h ↦ by simp [h.1] at hg
    constructor
    case complete => exact fun ha ↦ absurd (ha _ List.mem_cons_self) hno
    case stopped =>
      exact forall_places (fun _ _ _ ↦ ⟨rfl, rfl, rfl⟩)
        fun _ _ _ _ hf ↦ absurd (hf _ List.mem_cons_self) hno
    case lost =>
      exact forall_places (fun _ hc ↦ absurd hk hc)
        fun _ _ _ _ hf ↦ absurd (hf _ List.mem_cons_self) hno
  | @short number rows hr hk hg hs =>
    have hd : chunks size (number + 1) (rows.drop size) = [] := by
      rw [List.drop_of_length_le (Nat.le_of_lt hs), chunks_nil hsize]
    rw [chunks_cons hsize hr, hd]
    constructor
    case complete => exact fun _ ↦ ⟨rfl, rfl, by rw [Nat.div_eq_of_lt hs]⟩
    case stopped =>
      refine forall_places (fun _ _ hc ↦ ?_) (by simp)
      simp [hg] at hc
    case lost => exact forall_places (fun _ hc ↦ absurd hk hc) (by simp)
  | @onward number n rows got result hr hk hg hs h ih =>
    rw [chunks_cons hsize hr]
    constructor
    case complete =>
      intro ha
      obtain ⟨rfl, hres, hn⟩ := ih.complete fun c hc ↦ ha c (List.mem_cons_of_mem _ hc)
      refine ⟨rfl, hres, ?_⟩
      rw [hn, List.length_drop, ← Nat.sub_add_cancel hs, Nat.add_sub_cancel,
        Nat.add_div_right _ hsize]
    case stopped =>
      refine forall_places (fun _ _ hc ↦ ?_) fun first c rest he hf hc hg' ↦ ?_
      · simp [hg] at hc
      · obtain ⟨rfl, hres, hn⟩ :=
          ih.stopped first c rest he (fun b hb ↦ hf b (List.mem_cons_of_mem _ hb)) hc hg'
        exact ⟨rfl, hres, by rw [hn]; rfl⟩
    case lost =>
      refine forall_places (fun _ hc ↦ absurd hk hc) fun first c rest he hf hc ↦ ?_
      obtain ⟨rfl, hres, hn⟩ :=
        ih.lost first c rest he (fun b hb ↦ hf b (List.mem_cons_of_mem _ hb)) hc
      exact ⟨rfl, hres, by rw [hn]; rfl⟩

end

section

variable {σ H : Type} {d : Driver σ H} {s : Session σ H}

theorem execute_answered (useRead : Bool) {r : Request} {reply : r.Reply}
    (hd : ∀ h w, (d.send h r w).1 = .ok reply) (hp : s.connection.pretending = false) :
    ∃ t, (execute d useRead r).on s = (.ok reply, t) ∧ s.Grows t ∧ s.asked t = [r] := by
  obtain ⟨w, hw⟩ : ∃ w, d.send (handleFor s.connection useRead r) r s.world = (.ok reply, w) :=
    ⟨_, Prod.ext (hd _ _) rfl⟩
  refine ⟨_, (execute_ok (attempt_ok hp hw)).trans on_logReply, ⟨by simp, by simp⟩, ?_⟩
  simp [asked, since]

variable {before : Key → Key → Prop} [DecidableRel before] {name column : String}
  {l : Listing before name} {q : Query} {size : Nat} {goOn : Chunk → Bool}

/-- Whether a driver answers the statements of the pages from a listing, whatever it was asked before
and over whichever handle. -/
def Serves (d : Driver σ H) (q : Query) (size : Nat) (column : String)
    (l : Listing before name) : Prop :=
  ∀ last sql bindings, (q.pageAfter size (last.map Key.value) column).compiled =
    .ok (sql, bindings) →
      ∀ h w, (d.send h (.select sql bindings) w).1 = .ok (l.page size last)

def Pageable (q : Query) (size : Nat) (column : String) : Prop :=
  ∃ c, (q.pageAfter size none column).compiled = .ok c

theorem Pageable.after (h : q.Pageable size column) (last : Option Key) :
    ∃ c, (q.pageAfter size (last.map Key.value) column).compiled = .ok c := by
  obtain ⟨c, hc⟩ := h
  cases last with
  | none => exact ⟨c, hc⟩
  | some k => exact exists_pageAfter hc k.isNull_value k.value_ne_bool

theorem get_served (hd : Serves d q size column l) (hq : q.Pageable size column)
    (hp : s.connection.pretending = false) (last : Option Key) :
    ∃ t r, ((q.pageAfter size (last.map Key.value) column).get d).run.run s =
        (.ok (l.page size last), t) ∧ s.Grows t ∧ s.asked t = [r] ∧
      (q.pageAfter size (last.map Key.value) column).Reads r := by
  obtain ⟨⟨sql, bindings⟩, hc⟩ := hq.after last
  obtain ⟨t, ht, hg, ha⟩ := execute_answered
    (!(q.pageAfter size (last.map Key.value) column).usesWriteHandle) (hd last sql bindings hc) hp
  refine ⟨t, _, ?_, hg, ha, ?_⟩
  · unfold get
    rw [hc]
    exact ht
  · obtain ⟨written, hw, hc⟩ := bind_eq_ok.1 hc
    cases hc
    exact ⟨written, hw, rfl⟩

def AsksPage (q : Query) (size : Nat) (column name : String) (first : Option Value)
    (got : List Chunk) (r : Request) : Prop :=
  (q.pageAfter size first column).Reads r ∨
    ∃ c ∈ got, ∃ key, lastKey? c.rows name = some key ∧
      (q.pageAfter size (some key) column).Reads r

section

variable {t : Session σ H} {bound number : Nat} {last : Option Value} {got : List Chunk}
  {result : Except Error Bool}

/-- Nothing else is asked for, however the pages end. -/
theorem chunkAfter_asked
    (h : (q.chunkAfter d size column name goOn bound number last).run s = ((got, result), t)) :
    s.trace <+: t.trace ∧ ∀ r ∈ s.asked t, q.AsksPage size column name last got r := by
  induction bound generalizing number last s got with
  | zero =>
    cases h
    exact ⟨List.prefix_rfl, fun r hr ↦ absurd (asked_self _ ▸ hr) List.not_mem_nil⟩
  | succ bound ih =>
    obtain ⟨htrace, hreads⟩ := get_asks (d := d) (q := q.pageAfter size last column) s
    cases hget : ((q.pageAfter size last column).get d).run.run s with | mk answer u
    rw [hget] at htrace hreads
    rcases chunkAfter_cases bound number name goOn hget with
      ⟨got', result', hrun, -⟩ | ⟨rows, key, rfl, hkey, hrun⟩
    · cases hrun.symm.trans h
      exact ⟨htrace, fun r hr ↦ .inl (hreads r hr)⟩
    cases hnext : (q.chunkAfter d size column name goOn bound (number + 1) (some key)).run u
      with | mk rest v
    cases (hrun _ _ _ hnext).symm.trans h
    obtain ⟨htrace', hreads'⟩ := ih hnext
    refine ⟨htrace.trans htrace', fun r hmem ↦ ?_⟩
    rw [asked_append htrace htrace', List.mem_append] at hmem
    rcases hmem with hmem | hmem
    · exact .inl (hreads r hmem)
    rcases hreads' r hmem with hfirst | ⟨c, hc, hlater⟩
    · exact .inr ⟨_, List.mem_cons_self, key, hkey, hfirst⟩
    · exact .inr ⟨c, List.mem_cons_of_mem _ hc, hlater⟩

theorem chunkById_asked {key : Option String}
    (h : (q.chunkById d size column key goOn bound).run s = ((got, result), t)) :
    ∀ r ∈ s.asked t, q.AsksPage size column (key.getD column) none got r := by
  unfold chunkById at h
  split at h
  · cases h
    exact fun r hr ↦ absurd (asked_self _ ▸ hr) List.not_mem_nil
  · exact (chunkAfter_asked h).2

end

theorem lastKey?_eq_none {number : Nat} {rows : List Row} :
    lastKey? rows name = none ↔ ¬ Chunk.Resumes name ⟨number, rows⟩ := by
  unfold lastKey? Chunk.Resumes
  simp only [Option.map_eq_none_iff]
  cases rows.getLast?.bind fun row ↦ row.get? name with
  | none => simp
  | some j => simp

omit [DecidableRel before] in
theorem lastKey?_eq_some {number : Nat} {x : Key × Row} {xs : List (Key × Row)}
    (hx : x ∈ l.entries) (hr : Chunk.Resumes name ⟨number, (xs ++ [x]).map Prod.snd⟩) :
    lastKey? ((xs ++ [x]).map Prod.snd) name = some x.1.value := by
  unfold lastKey?
  unfold Chunk.Resumes at hr
  simp only [List.map_append, List.map_cons, List.map_nil, List.getLast?_concat,
    Option.bind_some] at hr ⊢
  cases hj : x.2.get? name with
  | none => simp [hj] at hr
  | some j =>
    have hn : j.isNull = false := by simpa [hj] using hr
    obtain rfl := l.shown x hx j hj hn
    simp [hn, Key.ofJson_json]

variable (goOn) in
/-- From a key on, the pages behind it are walked through, and nothing else is read. -/
theorem chunkAfter_walks [Std.Asymm before] (hsize : 0 < size) (hd : Serves d q size column l)
    (hq : q.Pageable size column) {bound : Nat} (number : Nat) {last : Option Key}
    {first rest : List (Key × Row)} (he : l.entries = first ++ rest) (ha : l.after last = rest)
    (hb : rest.length / size < bound) (hp : s.connection.pretending = false) :
    ∃ got result t,
      (q.chunkAfter d size column name goOn bound number (last.map Key.value)).run s =
        ((got, result), t) ∧
      Walks name goOn size number (rest.map Prod.snd) got result (s.asked t).length ∧ s.Grows t ∧
      ∀ r ∈ s.asked t, ∃ last, (q.pageAfter size (Option.map Key.value last) column).Reads r := by
  induction bound generalizing number last first rest s with
  | zero => exact absurd hb (Nat.not_lt_zero _)
  | succ bound ih =>
    obtain ⟨t, r, ht, hg, hr, hreads⟩ := get_served hd hq hp last
    rw [Listing.page, ha, List.map_take] at ht
    have hone : (s.asked t).length = 1 := by rw [hr]; rfl
    have hask : ∀ r ∈ s.asked t,
        ∃ last, (q.pageAfter size (Option.map Key.value last) column).Reads r := by
      rw [hr]
      simpa using ⟨last, hreads⟩
    by_cases hne : rest = []
    · subst hne
      rw [List.map_nil, List.take_nil] at ht
      exact ⟨_, _, t, chunkAfter_ended ht, hone ▸ .ended, hg, hask⟩
    have hrows : rest.map Prod.snd ≠ [] := by simpa using hne
    have htake : rest.take size ≠ [] := by
      simpa [List.take_eq_nil_iff, hne] using Nat.ne_of_gt hsize
    have htake' : (rest.map Prod.snd).take size ≠ [] := by
      rw [← List.map_take]
      simpa using htake
    by_cases hk : Chunk.Resumes name ⟨number, (rest.map Prod.snd).take size⟩
    case neg =>
      exact ⟨_, _, t, chunkAfter_lost ht htake' (lastKey?_eq_none.2 hk), hone ▸ .lost hrows hk, hg,
        hask⟩
    -- The entry that the next page comes after.
    obtain ⟨xs, x, hxs⟩ : ∃ xs x, rest.take size = xs ++ [x] :=
      ⟨_, _, (List.dropLast_append_getLast htake).symm⟩
    have hsplit : rest = xs ++ x :: rest.drop size := by
      have h := List.take_append_drop size rest
      rw [hxs, List.append_assoc] at h
      exact h.symm
    have hentries : l.entries = (first ++ xs) ++ x :: rest.drop size := by
      rw [he, List.append_assoc, ← hsplit]
    have hkey : lastKey? ((rest.map Prod.snd).take size) name = some x.1.value := by
      rw [← List.map_take, hxs] at hk ⊢
      exact lastKey?_eq_some (by rw [hentries]; simp) hk
    cases hgo : goOn ⟨number, (rest.map Prod.snd).take size⟩ with
    | false =>
      exact ⟨_, _, t, chunkAfter_stopped ht htake' hkey hgo, hone ▸ .stopped hrows hk hgo, hg, hask⟩
    | true =>
      rcases Nat.lt_or_ge rest.length size with hs | hs
      · have hlen : ((rest.map Prod.snd).take size).length ≠ size := by
          rw [List.length_take, List.length_map]
          omega
        exact ⟨_, _, t, chunkAfter_short ht htake' hkey hgo hlen,
          hone ▸ .short hrows hk hgo (by rwa [List.length_map]), hg, hask⟩
      · have hlen : ((rest.map Prod.snd).take size).length = size := by
          rw [List.length_take, List.length_map]
          omega
        have hb' : (rest.drop size).length / size < bound := by
          rw [← Nat.sub_add_cancel hs, Nat.add_div_right _ hsize] at hb
          rw [List.length_drop]
          omega
        have hentries' : l.entries = (first ++ xs ++ [x]) ++ rest.drop size := by simp [hentries]
        obtain ⟨got, result, u, hu, hw, hg', hask'⟩ :=
          ih (number + 1) hentries' (l.after_key hentries) hb' (hg.outside hp)
        have happend : s.asked u = s.asked t ++ t.asked u := asked_append hg.trace hg'.trace
        rw [List.map_drop] at hw
        refine ⟨_, _, u, chunkAfter_onward ht htake' hkey hgo hlen hu, ?_, hg.trans hg', ?_⟩
        · rw [happend, List.length_append, hone, Nat.add_comm]
          exact .onward hrows hk hgo (by rwa [List.length_map]) hw
        · intro r hr
          rw [happend] at hr
          exact (List.mem_append.1 hr).elim (hask r) (hask' r)

/-- What reading a listing in pages comes to: the pages divide the rows, each is read by its
statement, and what the callback gets of them depends on where it stops or a key is missing. -/
structure Pages (d : Driver σ H) (q : Query) (size : Nat) (column name : String)
    (goOn : Chunk → Bool) (rows : List Row) (s : Session σ H) (got : List Chunk)
    (result : Except Error Bool) (t : Session σ H) : Prop where
  divides : Divides size 1 rows (chunks size 1 rows)
  resumes : (∀ row ∈ rows, (row.get? name).any fun j ↦ !j.isNull) →
    ∀ c ∈ chunks size 1 rows, c.Resumes name
  walked : Walked name goOn size rows (chunks size 1 rows) got result (s.asked t).length
  asked : ∀ r ∈ s.asked t,
    ∃ last, (q.pageAfter size (Option.map Key.value last) column).Reads r

/-- Pages by a key are walked through to the end of the listing, unless the callback stops, or a page
ends without a key. -/
theorem chunkById_pages [Std.Asymm before] (d : Driver σ H) (q : Query) (size : Nat)
    (column : String) (key : Option String) (l : Listing before (key.getD column))
    (goOn : Chunk → Bool) (bound : Nat) (s : Session σ H) (hsize : 0 < size)
    (hd : Serves d q size column l) (hq : q.Pageable size column)
    (hb : l.rows.length / size < bound) (hp : s.connection.pretending = false) :
    Pages d q size column (key.getD column) goOn l.rows s
      ((q.chunkById d size column key goOn bound).run s).1.1
      ((q.chunkById d size column key goOn bound).run s).1.2
      ((q.chunkById d size column key goOn bound).run s).2 := by
  rw [Listing.rows, List.length_map] at hb
  obtain ⟨got, result, t, ht, hw, -, ha⟩ :=
    chunkAfter_walks goOn hsize hd hq 1 (List.nil_append _).symm
      (show l.after none = l.entries from rfl) hb hp
  have hrun : (q.chunkById d size column key goOn bound).run s = ((got, result), t) := by
    unfold chunkById
    rw [if_neg (Nat.ne_of_gt hsize)]
    exact ht
  rw [hrun]
  exact ⟨chunks_divides hsize, resumes_of_shown hsize, hw.walked hsize, ha⟩

end

def Ascending : Key → Key → Prop
  | .integer i, .integer j => i < j
  | .text s, .text s' => s < s'
  | _, _ => False

instance : DecidableRel Ascending
  | .integer i, .integer j => inferInstanceAs (Decidable (i < j))
  | .text s, .text s' => inferInstanceAs (Decidable (s < s'))
  | .integer _, .text _ => inferInstanceAs (Decidable False)
  | .text _, .integer _ => inferInstanceAs (Decidable False)

instance : Std.Asymm Ascending where
  asymm
    | .integer _, .integer _, h => Int64.lt_asymm h
    | .text _, .text _, h => String.lt_asymm h

def boundKey : List Value → Option Key
  | [.int64 i] => some (.integer i)
  | [.string s] => some (.text s)
  | _ => none

def lister (size : Nat) (l : Listing Ascending "id") : Driver Unit String where
  send _ r w :=
    match r with
    | .select _ bindings => (.ok (l.page size (boundKey bindings)), w)
    | .affecting .. => (.ok (0 : Nat), w)
    | .statement .. => (.ok true, w)
    | .unprepared _ => (.ok true, w)
    | .begin => (.ok (), w)
    | .commit => (.ok (), w)
    | .rollback => (.ok (), w)
  lastInsertId? _ _ := none
  reconnect w := (.ok ("write", none), w)
  horizon _ := 0

def listing (ids : List Int64) (h : (ids.map Key.integer).Pairwise Ascending) :
    Listing Ascending "id" where
  entries := ids.map fun i ↦ (.integer i, [("id", Json.integer i.toInt)])
  sorted := by simpa [List.pairwise_map] using h
  shown := by
    intro x hx j hj _
    obtain ⟨i, -, rfl⟩ := List.mem_map.1 hx
    exact (Option.some.inj hj).symm

def userList : Listing Ascending "id" := listing [3, 5, 9] (by decide)

def usersById : Query := { grammar := { dialect := .mysql }, source := some (.name "users") }

def userSession : Session Unit String :=
  { connection := { write := "write", grammar := { dialect := .mysql }, processor := .mysql }
    world := () }

theorem chunkById_pages_users :
    0 < 2 ∧ Serves (lister 2 userList) usersById 2 "id" userList ∧ usersById.Pageable 2 "id" ∧
    userList.rows.length / 2 < 2 ∧ userSession.connection.pretending = false ∧
    Pages (lister 2 userList) usersById 2 "id" "id" (fun _ ↦ true) userList.rows userSession
      ((usersById.chunkById (lister 2 userList) 2 "id" none (fun _ ↦ true) 2).run userSession).1.1
      ((usersById.chunkById (lister 2 userList) 2 "id" none (fun _ ↦ true) 2).run userSession).1.2
      ((usersById.chunkById (lister 2 userList) 2 "id" none (fun _ ↦ true) 2).run userSession).2 ∧
    ((usersById.chunkById (lister 2 userList) 2 "id" none (fun _ ↦ true) 2).run
      userSession).1.1.map (fun c ↦ (c.number, c.rows.length)) = [(1, 2), (2, 1)] := by
  have hd : Serves (lister 2 userList) usersById 2 "id" userList := by
    intro last sql bindings hc h w
    obtain ⟨_, -, hc⟩ := bind_eq_ok.1 hc
    cases hc
    rcases last with _ | i | s <;> rfl
  have hq : usersById.Pageable 2 "id" := ⟨_, rfl⟩
  have hb : userList.rows.length / 2 < 2 := by decide
  refine ⟨Nat.two_pos, hd, hq, hb, rfl, ?_, by decide +kernel⟩
  exact chunkById_pages _ usersById 2 "id" none userList _ 2 userSession Nat.two_pos hd hq hb rfl

/-- SQL Server cannot skip rows of a union, so there its pages fail although nothing was mistaken. -/
theorem chunkById_pages_unwritten :
    let q := (Query.run { grammar := { dialect := .sqlServer } } [.source (.name "users"), .offset 5,
      .unite false [.source (.name "posts")]]).1
    let nobody := listing [] .nil
    q.mistake = none ∧ Serves (lister 2 nobody) q 2 "id" nobody ∧
      ((q.chunkById (lister 2 nobody) 2 "id" none (fun _ ↦ true) 1).run
        userSession).1.2.toOption = none := by
  intro q nobody
  have hp (last : Option Key) : nobody.page 2 last = [] := by
    cases last <;> rfl
  have hd : Serves (lister 2 nobody) q 2 "id" nobody :=
    fun last _ bindings _ _ _ ↦ congrArg Except.ok ((hp (boundKey bindings)).trans (hp last).symm)
  exact ⟨by decide +kernel, hd, by decide +kernel⟩

end FluentSql.Query
