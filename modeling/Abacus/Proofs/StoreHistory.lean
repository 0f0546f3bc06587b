import Mathlib.Data.List.Forall2
import Mathlib.Data.List.InsertIdx
import Abacus.Outcome
import Abacus.Proofs.StoreRows
import Abacus.Store.Desk

/-!
What a store is after any requests. The requests that name a row decide what becomes of it, whatever
is done to other rows: so the store is the list of all rows that were ever made, each followed
through the requests after it. Where rows and lists are objects in memory the replies are the same,
and a snapshot goes on showing what it showed first.
-/

namespace Abacus.Proofs.StoreHistory

open Store (Request Reply fresh requestsFor)
open StoreRows

variable {s : Store} {h n : ℕ} {v : Variable} {r : Row} {q : Request} {rs : List Request}

/-! ### What becomes of a row -/

/-- The names that are given to the row `h`, in order. -/
def namesGiven (h : ℕ) (rs : List Request) : List String :=
  rs.filterMap fun q =>
    match q with
    | .update k name _ => if k = h then name else none
    | _ => none

def valuesGiven (h : ℕ) (rs : List Request) : List String :=
  rs.filterMap fun q =>
    match q with
    | .update k _ value => if k = h then value else none
    | _ => none

/-- The row `h` that was made as `v` before the requests: removed, or with the name and the value
that were given last. -/
def afterwards (h : ℕ) (v : Variable) (rs : List Request) : Option Row :=
  if .remove h ∈ rs then none
  else some ⟨h, (namesGiven h rs).getLast?.getD v.name, (valuesGiven h rs).getLast?.getD v.value⟩

/-- The rows that the requests make, the first of them with the handle `n`, as they are after all
the requests. -/
def survivors (n : ℕ) : List Request → List Row
  | [] => []
  | .add name value :: rs =>
    (afterwards n (fresh name value) rs).toList ++ survivors (n + 1) rs
  | _ :: rs => survivors n rs

/-- What one request makes of the variable of the row `h`. -/
def touched (h : ℕ) (v : Variable) : Request → Option Variable
  | .remove k => if k = h then none else some v
  | .update k name value =>
    if k = h then some ⟨name.getD v.name, value.getD v.value⟩ else some v
  | _ => some v

/-- The row that a request makes. -/
def made (n : ℕ) : Request → List Row
  | .add name value => [⟨n, fresh name value⟩]
  | _ => []

lemma afterwards_nil : afterwards h v [] = some ⟨h, v⟩ := rfl

lemma afterwards_cons :
    afterwards h v (q :: rs) = (touched h v q).bind (afterwards h · rs) := by
  cases q with
  | remove k =>
    by_cases hk : k = h
    · simp [afterwards, touched, hk]
    · have hk' : ¬ h = k := fun e => hk e.symm
      simp [afterwards, touched, hk, hk', namesGiven, valuesGiven]
  | update k name value =>
    by_cases hk : k = h
    · cases name <;> cases value <;>
        simp [afterwards, touched, hk, namesGiven, valuesGiven, List.getLast?_cons]
    · simp [afterwards, touched, hk, namesGiven, valuesGiven]
  | _ => simp [afterwards, touched, namesGiven, valuesGiven]

lemma survivors_cons :
    survivors n (q :: rs) =
      (made n q).filterMap (fun r => afterwards r.handle r.entry rs) ++
        survivors (n + (made n q).length) rs := by
  cases q with
  | add name value =>
    simp only [survivors, made, List.length_singleton, List.filterMap_cons, List.filterMap_nil]
    cases afterwards n (fresh name value) rs <;> rfl
  | _ => rfl

/-! ### Requests one by one -/

/-- Each row as it becomes by itself under one request. -/
def step (q : Request) (rows : List Row) : List Row :=
  rows.filterMap fun r => (touched r.handle r.entry q).map (⟨r.handle, ·⟩)

lemma step_of_forall {rows : List Row} (h : ∀ r ∈ rows, touched r.handle r.entry q = some r.entry) :
    step q rows = rows := by
  rw [step, List.filterMap_congr (g := some) fun r hr => by simp [h r hr], List.filterMap_some]

lemma rows_change (s : Store) (k : ℕ) (name value : Option String) :
    (s.modify k fun v => ⟨name.getD v.name, value.getD v.value⟩).rows =
      step (.update k name value) s.rows := by
  rw [rows_modify, step, ← List.filterMap_eq_map]
  refine List.filterMap_congr fun r _ => ?_
  by_cases hk : r.handle = k
  · simp [touched, hk]
  · have hk' : ¬ k = r.handle := fun e => hk e.symm
    simp [touched, hk, hk']

lemma rows_removal (s : Store) (k : ℕ) : (s.erase k).rows = step (.remove k) s.rows := by
  rw [rows_erase, step, ← List.filterMap_eq_filter]
  refine List.filterMap_congr fun r _ => ?_
  by_cases hk : r.handle = k
  · simp [touched, hk]
  · have hk' : ¬ k = r.handle := fun e => hk e.symm
    simp [touched, hk, hk']

/-- The rows after a request: each row as it becomes by itself, and the new one. -/
lemma rows_perform (s : Store) (q : Request) :
    (s.perform q).1.rows = step q s.rows ++ made s.next q := by
  cases q with
  | add name value => simp [Store.perform, Store.add, step, touched, made]
  | get k =>
    simp only [Store.perform, step, touched, made]
    cases s.get? k <;> simp
  | find name => simp [Store.perform, step, touched, made]
  | snapshot => simp [Store.perform, step, touched, made]
  | update k name value =>
    cases hk : s.get? k with
    | none =>
      have hsame : step (.update k name value) s.rows = s.rows :=
        step_of_forall fun r hr => by simp [touched, (get?_eq_none.mp hk r hr).symm]
      simp [Store.perform, Store.update?, made, hk, hsame]
    | some t => simp [Store.perform, Store.update?, made, hk, rows_change]
  | remove k =>
    cases hk : s.get? k with
    | none =>
      have hsame : step (.remove k) s.rows = s.rows :=
        step_of_forall fun r hr => by simp [touched, (get?_eq_none.mp hk r hr).symm]
      simp [Store.perform, Store.remove?, made, hk, hsame]
    | some t => simp [Store.perform, Store.remove?, made, hk, rows_removal]

lemma next_perform (s : Store) (q : Request) :
    (s.perform q).1.next = s.next + (made s.next q).length := by
  cases q with
  | add name value => rfl
  | find name | snapshot => rfl
  | get k => cases hk : s.get? k <;> simp [Store.perform, made, hk]
  | update k name value =>
    cases hk : s.get? k <;> simp [Store.perform, Store.update?, Store.modify, made, hk]
  | remove k => cases hk : s.get? k <;> simp [Store.perform, Store.remove?, Store.erase, made, hk]

/-! ### Requests one after another -/

lemma run_cons (s : Store) (q : Request) (rs : List Request) :
    s.run (q :: rs) = (s.perform q).1.run rs := rfl

lemma run_append (s : Store) (rs rs' : List Request) : s.run (rs ++ rs') = (s.run rs).run rs' :=
  List.foldl_append

/-- **The rows after any requests** are those that were there and those that were made, each followed
through the requests after it. -/
theorem rows_run (s : Store) (rs : List Request) :
    (s.run rs).rows =
      s.rows.filterMap (fun r => afterwards r.handle r.entry rs) ++ survivors s.next rs := by
  induction rs generalizing s with
  | nil => simp [Store.run, afterwards_nil, survivors]
  | cons q rs ih =>
    have hstep : (step q s.rows).filterMap (fun r => afterwards r.handle r.entry rs) =
        s.rows.filterMap fun r => afterwards r.handle r.entry (q :: rs) := by
      rw [step, List.filterMap_filterMap]
      refine List.filterMap_congr fun r _ => ?_
      rw [afterwards_cons]
      cases touched r.handle r.entry q <;> rfl
    rw [run_cons, ih, rows_perform, next_perform, List.filterMap_append, hstep, survivors_cons,
      List.append_assoc]

/-- A handle that was given to a row which is there no more. -/
structure Gone (s : Store) (h : ℕ) : Prop where
  given : h < s.next
  absent : ∀ r ∈ s.rows, r.handle ≠ h

lemma Gone.perform (hg : Gone s h) (q : Request) : Gone (s.perform q).1 h := by
  refine ⟨?_, fun r hr => ?_⟩
  · rw [next_perform]
    exact Nat.lt_add_right _ hg.given
  · rw [rows_perform, List.mem_append] at hr
    rcases hr with hr | hr
    · obtain ⟨t, ht, hrt⟩ := List.mem_filterMap.mp hr
      obtain ⟨v, -, rfl⟩ := Option.map_eq_some_iff.mp hrt
      exact hg.absent t ht
    · have hnext : r.handle = s.next := by
        cases q <;> simp_all [made]
      have := hg.given
      omega

/-- **A handle is never given again.** -/
theorem Gone.run (hg : Gone s h) (rs : List Request) : Gone (s.run rs) h := by
  induction rs generalizing s with
  | nil => exact hg
  | cons q rs ih => exact ih (hg.perform q)

lemma gone_of_remove (hn : h < s.next) : Gone (s.perform (.remove h)).1 h := by
  refine ⟨by rw [next_perform]; exact hn, fun r hr => ?_⟩
  rw [rows_perform, show made s.next (.remove h) = [] from rfl, List.append_nil] at hr
  obtain ⟨t, -, hrt⟩ := List.mem_filterMap.mp hr
  obtain ⟨v, hv, rfl⟩ := Option.map_eq_some_iff.mp hrt
  rintro rfl
  simp [touched] at hv

/-! ### Replies -/

/-- What asks for the row `h` is refused and changes nothing. -/
structure Refuses (s : Store) (h : ℕ) : Prop where
  get : s.perform (.get h) = (s, .refused h)
  update : ∀ name value, s.perform (.update h name value) = (s, .refused h)
  remove : s.perform (.remove h) = (s, .refused h)

/-- The row is found by its handle, and changed or removed at the handle's request. -/
structure Answers (s : Store) (r : Row) : Prop where
  get : s.perform (.get r.handle) = (s, .row (some r))
  update : ∀ name value, (s.perform (.update r.handle name value)).2 =
    .row (some ⟨r.handle, name.getD r.entry.name, value.getD r.entry.value⟩)
  remove : (s.perform (.remove r.handle)).2 = .row (some r)

/-- The first of the rows with a name, letter case aside, or none. -/
def FirstNamed (rows : List Row) (name : String) : Option Row → Prop
  | some r => ∃ as bs, rows = as ++ r :: bs ∧ Text.lower r.entry.name = Text.lower name ∧
      ∀ a ∈ as, Text.lower a.entry.name ≠ Text.lower name
  | none => ∀ r ∈ rows, Text.lower r.entry.name ≠ Text.lower name

lemma refuses_of_absent (h : s.get? n = none) : Refuses s n where
  get := by simp [Store.perform, h]
  update name value := by simp [Store.perform, Store.update?, h]
  remove := by simp [Store.perform, Store.remove?, h]

lemma Gone.refuses (hg : Gone s h) : Refuses s h := refuses_of_absent (get?_eq_none.mpr hg.absent)

lemma answers_of_mem (hr : r ∈ s.rows) : Answers s r where
  get := by simp [Store.perform, get?_of_mem hr]
  update name value := by
    simp [Store.perform, Store.update?, get?_of_mem hr, get?_modify]
  remove := by simp [Store.perform, Store.remove?, get?_of_mem hr]

lemma firstNamed_find? (s : Store) (name : String) :
    FirstNamed s.rows name (s.find? name) := by
  cases hr : s.find? name with
  | none => simpa [Store.find?, Variable.answersTo, FirstNamed] using hr
  | some r =>
    obtain ⟨hname, as, bs, hrows, has⟩ := List.find?_eq_some_iff_append.mp hr
    exact ⟨as, bs, hrows, by simpa [Variable.answersTo] using hname,
      fun a ha => by simpa [Variable.answersTo] using has a ha⟩

/-! ### Rows and lists in memory -/

/-- The list in memory shows these rows. -/
def Shows (d : Desk) (list : ℕ) (rows : List Row) : Prop :=
  ∃ ps, d.lists[list]? = some ps ∧ ps.map (d.rows[·]?) = rows.map some

/-- The memory of a store and of the snapshots that were taken of it: no snapshot has the list of
the store for its own. -/
structure Keeps (d : Desk) (s : Store) (taken : List (List Row)) : Prop where
  store : Shows d d.store s.rows
  next : d.next = s.next
  taken : List.Forall₂ (fun list rows => list ≠ d.store ∧ Shows d list rows) d.snapshots taken

variable {d d' : Desk} {list : ℕ} {rows : List Row} {ps : List ℕ} {taken : List (List Row)}

lemma places_eq (hps : d.lists[list]? = some ps) : d.places list = ps := by
  rw [Desk.places, hps]
  rfl

lemma Shows.shown (hs : Shows d list rows) : d.shown list = rows := by
  obtain ⟨ps, hps, hrows⟩ := hs
  calc (d.places list).filterMap (d.rows[·]?)
      = (ps.map (d.rows[·]?)).filterMap id := by
        rw [Desk.places, hps, List.filterMap_map]
        rfl
    _ = rows := by rw [hrows, List.filterMap_map]; exact List.filterMap_some

/-- An object stays as it is when others are made. -/
lemma map_make (hps : ps.map (d.rows[·]?) = rows.map some) (r : Row) :
    ps.map ((d.make r).rows[·]?) = rows.map some := by
  rw [← hps]
  refine List.map_congr_left fun p hp => ?_
  obtain ⟨t, -, ht⟩ := List.mem_map.mp (hps ▸ List.mem_map_of_mem hp)
  have hlt : p < d.rows.length := (List.getElem?_eq_some_iff.mp ht.symm).1
  exact List.getElem?_append_left hlt

lemma Shows.make (hs : Shows d list rows) (r : Row) : Shows (d.make r) list rows := by
  obtain ⟨ps, hps, hrows⟩ := hs
  exact ⟨ps, hps, map_make hrows r⟩

/-- A list stays as it is when that of the store is changed. -/
lemma Shows.relist (hs : Shows d list rows) (hne : list ≠ d.store) (ps : List ℕ) :
    Shows (d.relist ps) list rows := by
  obtain ⟨qs, hqs, hrows⟩ := hs
  refine ⟨qs, ?_, hrows⟩
  rw [Desk.relist, List.getElem?_set_ne hne.symm, hqs]

lemma shows_relist (hlt : d.store < d.lists.length) (hps : ps.map (d.rows[·]?) = rows.map some) :
    Shows (d.relist ps) d.store rows :=
  ⟨ps, List.getElem?_set_self hlt, hps⟩

/-- A new order for the list of the store leaves the snapshots alone. -/
lemma keeps_relist {t : Store} {n : ℕ} (hk : Keeps d s taken)
    (hps : ps.map (d.rows[·]?) = t.rows.map some) (hn : n = t.next) :
    Keeps { d.relist ps with next := n } t taken := by
  obtain ⟨qs, hqs, -⟩ := hk.store
  have hlt : d.store < d.lists.length := (List.getElem?_eq_some_iff.mp hqs).1
  exact ⟨shows_relist hlt hps, hn, hk.taken.imp fun _ _ h => ⟨h.1, h.2.relist h.1 ps⟩⟩

lemma keeps_make (hk : Keeps d s taken) (r : Row) : Keeps (d.make r) s taken :=
  ⟨hk.store.make r, hk.next, hk.taken.imp fun _ _ h => ⟨h.1, h.2.make r⟩⟩

lemma findIdx?_places (hps : ps.map (d.rows[·]?) = rows.map some) (h : ℕ) :
    ps.findIdx? (fun p => d.rows[p]?.any (·.handle == h)) = rows.findIdx? (·.handle == h) := by
  calc ps.findIdx? (fun p => d.rows[p]?.any (·.handle == h))
      = (ps.map (d.rows[·]?)).findIdx? (·.any (·.handle == h)) := by
        rw [List.findIdx?_map]
        rfl
    _ = rows.findIdx? (·.handle == h) := by
        rw [hps, List.findIdx?_map]
        rfl

lemma locate?_eq_none (hk : Keeps d s taken) (hr : s.get? h = none) : d.locate? h = none := by
  obtain ⟨ps, hps, hrows⟩ := hk.store
  have hidx : s.rows.findIdx? (·.handle == h) = none := by
    rw [List.findIdx?_eq_none_iff]
    exact fun r hmem => by simpa using get?_eq_none.mp hr r hmem
  have hplaces := places_eq hps
  simp only [Desk.locate?, hplaces, findIdx?_places hrows, hidx]
  rfl

lemma locate?_of_split {as bs : List Row} (hk : Keeps d s taken) (hrows : s.rows = as ++ r :: bs)
    (hr : r.handle = h) (has : ∀ a ∈ as, a.handle ≠ h) : d.locate? h = some (as.length, r) := by
  obtain ⟨ps, hps, hmap⟩ := hk.store
  have hidx : s.rows.findIdx? (·.handle == h) = some as.length := by
    have hnone : as.findIdx? (·.handle == h) = none := by
      rw [List.findIdx?_eq_none_iff]
      exact fun a ha => by simpa using has a ha
    simp [hrows, List.findIdx?_append, hnone, List.findIdx?_cons, hr]
  have hplaces := places_eq hps
  -- the place of the handle among the rows is its place on the desk
  have hat : (ps.map (d.rows[·]?))[as.length]? = some (some r) := by
    rw [hmap, hrows]
    simp
  rw [List.getElem?_map] at hat
  obtain ⟨p, hp, hpr⟩ := Option.map_eq_some_iff.mp hat
  simp only [Desk.locate?, hplaces, findIdx?_places hmap, hidx, Option.bind_eq_bind,
    Option.bind_some, hp, hpr]
  rfl

/-- The rows that a snapshot is taken of. -/
def takenBy (s : Store) : Request → List (List Row)
  | .snapshot => [s.rows]
  | _ => []

/-- A new list with the rows of the store leaves all other lists alone. -/
lemma keeps_snapshot (hk : Keeps d s taken) :
    Keeps (d.perform .snapshot).1 s (taken ++ [s.rows]) := by
  obtain ⟨ps, hps, hmap⟩ := hk.store
  have hplaces := places_eq hps
  have hlt : d.store < d.lists.length := (List.getElem?_eq_some_iff.mp hps).1
  have hkept : ∀ list rows, Shows d list rows → Shows (d.perform .snapshot).1 list rows := by
    rintro list rows ⟨qs, hqs, hrows⟩
    have hlt : list < d.lists.length := (List.getElem?_eq_some_iff.mp hqs).1
    exact ⟨qs, by rw [← hqs]; exact List.getElem?_append_left hlt, hrows⟩
  refine ⟨hkept _ _ hk.store, hk.next, ?_⟩
  refine List.rel_append (hk.taken.imp fun _ _ h => ⟨h.1, hkept _ _ h.2⟩) (.cons ⟨?_, ?_⟩ .nil)
  · exact Nat.ne_of_gt hlt
  · exact ⟨ps, by simp [Desk.perform, hplaces], hmap⟩

/-- **With rows and lists in memory every request does the same**, and is answered alike. -/
theorem keeps_perform (hk : Keeps d s taken) (q : Request) :
    Keeps (d.perform q).1 (s.perform q).1 (taken ++ takenBy s q) ∧
      (d.perform q).2 = (s.perform q).2 := by
  obtain ⟨ps, hps, hmap⟩ := hk.store
  have hplaces := places_eq hps
  have hnew : ∀ r : Row, (d.make r).rows[d.rows.length]? = some r := by simp [Desk.make]
  cases q with
  | snapshot => exact ⟨keeps_snapshot hk, by simp only [Desk.perform, hk.store.shown]; rfl⟩
  | find name =>
    simp only [takenBy, List.append_nil, Desk.perform, hk.store.shown]
    exact ⟨hk, rfl⟩
  | add name value =>
    simp only [takenBy, List.append_nil, Desk.perform, hplaces, hk.next]
    refine ⟨keeps_relist (keeps_make hk _) ?_ rfl, rfl⟩
    rw [List.map_append, map_make hmap, List.map_singleton, hnew]
    simp [Store.perform, Store.add]
  | get k =>
    simp only [takenBy, List.append_nil, Desk.perform, Store.perform]
    cases hr : s.get? k with
    | none =>
      rw [locate?_eq_none hk hr]
      exact ⟨hk, rfl⟩
    | some r =>
      obtain ⟨as, bs, hrows, hkey, has⟩ := exists_split hr
      rw [locate?_of_split hk hrows hkey has]
      exact ⟨hk, rfl⟩
  | update k name value =>
    simp only [takenBy, List.append_nil, Desk.perform, Store.perform, Store.update?]
    cases hr : s.get? k with
    | none =>
      rw [locate?_eq_none hk hr]
      exact ⟨hk, rfl⟩
    | some r =>
      obtain ⟨as, bs, hrows, rfl, has⟩ := exists_split hr
      rw [locate?_of_split hk hrows rfl has]
      simp only [Option.map_some, get?_modify, hr, hplaces]
      -- the changed row is a new one, and the old one stays as snapshots have it
      refine ⟨keeps_relist (keeps_make hk _) ?_ hk.next, trivial⟩
      rw [List.map_set, map_make hmap, hnew, rows_modify_split hrows, List.map_set]
  | remove k =>
    simp only [takenBy, List.append_nil, Desk.perform, Store.perform, Store.remove?]
    cases hr : s.get? k with
    | none =>
      rw [locate?_eq_none hk hr]
      exact ⟨hk, rfl⟩
    | some r =>
      obtain ⟨as, bs, hrows, rfl, has⟩ := exists_split hr
      rw [locate?_of_split hk hrows rfl has]
      simp only [Option.map_some, hplaces]
      refine ⟨keeps_relist hk ?_ hk.next, trivial⟩
      rw [rows_erase_split hrows, ← List.eraseIdx_map, hmap, ← List.eraseIdx_map]

/-- The rows of all the snapshots taken on the way. -/
def takenAlong (s : Store) : List Request → List (List Row)
  | [] => []
  | q :: rs => takenBy s q ++ takenAlong (s.perform q).1 rs

lemma keeps_run (hk : Keeps d s taken) (rs : List Request) :
    Keeps (d.run rs) (s.run rs) (taken ++ takenAlong s rs) := by
  induction rs generalizing d s taken with
  | nil => simpa [takenAlong, Desk.run, Store.run] using hk
  | cons q rs ih =>
    have hstep := ih (keeps_perform hk q).1
    rwa [List.append_assoc] at hstep

lemma rowsOf_of_taken (hk : Keeps d s taken) {k : ℕ} (hrows : taken[k]? = some rows) :
    d.rowsOf k = rows := by
  obtain ⟨hlt, rfl⟩ := List.getElem?_eq_some_iff.mp hrows
  obtain ⟨hlen, hall⟩ := List.forall₂_iff_get.mp hk.taken
  have hlt' : k < d.snapshots.length := hlen ▸ hlt
  have hshown := (hall k hlt' hlt).2.shown
  rw [Desk.rowsOf, List.getElem?_eq_getElem hlt']
  exact hshown

/-- **A snapshot goes on showing what it showed first**, whatever is asked for after it. -/
theorem rowsOf_run (hk : Keeps d s taken) (before later : List Request) :
    (d.run (before ++ .snapshot :: later)).rowsOf (d.run before).snapshots.length =
      (s.run before).rows := by
  have hbefore := keeps_run hk before
  have hall := keeps_run hk (before ++ .snapshot :: later)
  have hlater := keeps_run (keeps_snapshot hbefore) later
  have hrun : d.run (before ++ .snapshot :: later) = ((d.run before).perform .snapshot).1.run later :=
    List.foldl_append
  rw [hrun]
  refine rowsOf_of_taken hlater ?_
  have hlen := hbefore.taken.length_eq
  rw [List.append_assoc, List.getElem?_append_right (Nat.le_of_eq hlen.symm), hlen, Nat.sub_self]
  rfl

/-! ### Stores of pairs -/

lemma ofList_eq (vs : List Variable) : Store.ofList vs = Store.empty.run (requestsFor vs) := by
  rw [Store.ofList, Store.run, requestsFor, List.foldl_map]
  rfl

lemma keeps_empty : Keeps .empty .empty [] := ⟨⟨[], rfl, rfl⟩, rfl, .nil⟩

lemma keeps_ofPairs (pairs : List (Given × Given)) :
    ∃ taken, Keeps (.ofPairs pairs) (.ofPairs pairs) taken := by
  rw [Store.ofPairs, ofList_eq]
  exact ⟨_, keeps_run keeps_empty _⟩

/-- The requests that a store of pairs comes from. -/
def creation (pairs : List (Given × Given)) : List Request :=
  requestsFor (pairs.map fun p => Variable.ofPair p.1 p.2)

/-- **A store is its history.** After any requests its rows are the rows that were made and not
removed, in the order in which they were made, each with the name and the value that it was given
last. Every row answers to its handle, a handle whose row was removed is refused for good and
without a change, and a name finds the first row that has it. In memory, where lists and rows are
shared, all this is the same, and a snapshot shows the rows of its moment whatever was done since,
and gives the outcome of that moment. -/
theorem run_history (pairs : List (Given × Given)) (rs : List Request) :
    let s := (Store.ofPairs pairs).run rs
    let d := (Desk.ofPairs pairs).run rs
    s.rows = survivors 0 (creation pairs ++ rs) ∧
      (∀ r ∈ s.rows, Answers s r) ∧
      (∀ before later h, rs = before ++ .remove h :: later →
        h < ((Store.ofPairs pairs).run before).next → Refuses s h) ∧
      (∀ name, FirstNamed s.rows name (s.find? name)) ∧
      d.shown d.store = s.rows ∧
      (∀ q, (d.perform q).2 = (s.perform q).2) ∧
      ∀ before later, rs = before ++ .snapshot :: later →
        let moment := (Store.ofPairs pairs).run before
        let k := ((Desk.ofPairs pairs).run before).snapshots.length
        d.rowsOf k = moment.rows ∧
          ∀ (lib : Library) implied source,
            lib.calculate implied source (d.snapshot k) =
              lib.calculate implied source moment.snapshot := by
  obtain ⟨taken, hpairs⟩ := keeps_ofPairs pairs
  have hkeeps := keeps_run hpairs rs
  have hhistory : (Store.ofPairs pairs).run rs = Store.empty.run (creation pairs ++ rs) := by
    rw [run_append, Store.ofPairs, ofList_eq]
    rfl
  refine ⟨?_, fun r hr => answers_of_mem hr, ?_, firstNamed_find? _, hkeeps.store.shown,
    fun q => (keeps_perform hkeeps q).2, ?_⟩
  · rw [hhistory, rows_run]
    rfl
  · rintro before later h rfl hlt
    rw [run_append, run_cons]
    exact ((gone_of_remove hlt).run later).refuses
  · rintro before later rfl
    have hrows := rowsOf_run hpairs before later
    refine ⟨hrows, fun lib implied source => ?_⟩
    rw [Desk.snapshot, hrows]
    rfl

/-- Two rows of one name: the second is removed, the first changed, and a third is made. -/
theorem run_history_removed :
    let pairs := [(Given.text "a", Given.text "1"), (.text "A", .whole 2)]
    let rs := [Request.snapshot, .remove 1, .update 0 none (some "5"), .add (some "b") none]
    let s := (Store.ofPairs pairs).run rs
    s.rows = [⟨0, "a", "5"⟩, ⟨2, "b", "0"⟩] ∧ Refuses s 1 ∧
      ((Desk.ofPairs pairs).run rs).rowsOf 0 = [⟨0, "a", "1"⟩, ⟨1, "A", "2"⟩] := by
  intro pairs rs s
  obtain ⟨hrows, -, hremoved, -, -, -, hsnapshot⟩ := run_history pairs rs
  refine ⟨hrows.trans (by decide +kernel), ?_, ?_⟩
  · exact hremoved [.snapshot] _ 1 rfl (by decide)
  · exact (hsnapshot [] _ rfl).1.trans (by decide +kernel)

end Abacus.Proofs.StoreHistory
