import Mathlib.Data.List.Basic
import Mathlib.Data.List.Forall2
import Mathlib.Data.Nat.Notation

/-!
# Keyset pagination

A list in a strict order is served in pages. The cursor of a page names its last row, and the next
page begins behind that row.

* `filter_eq_of_getLast?`: behind the last row of a page lies the rest.
* `Page`, `follow`: a page, and what a client gets that follows the cursors.
* `pageOf`: the page of a list of rows.
* `follow_eq`: a client that follows the cursors gets every row once, in order.
* `storePage`: a page that a store cuts as it likes; `storePage_spec` says that nothing is lost.
* `follow_served`, `readPages_storePages`: a client, or a loop, that reads all pages of a store.
* `readPages_isPrefix`, `readPages_of_sized`: a loop that stops after so many pages.
-/

namespace Keyset

variable {ρ κ β ε : Type}

/-- In a list in a strict order the rows behind the last row of a prefix are the rest. -/
theorem filter_eq_of_getLast? {R : ρ → ρ → Prop} [DecidableRel R] (hasymm : ∀ v w, R v w → ¬ R w v)
    {all page rest : List ρ} (hsorted : all.Pairwise R) (h : all = page ++ rest) {v : ρ}
    (hv : page.getLast? = some v) : (all.filter fun w => R v w) = rest := by
  obtain ⟨page, rfl⟩ := List.getLast?_eq_some_iff.mp hv
  subst h
  rw [List.append_assoc, List.singleton_append] at hsorted ⊢
  obtain ⟨-, htail, hcross⟩ := List.pairwise_append.mp hsorted
  have hirrefl : ¬ R v v := fun h => hasymm v v h h
  rw [List.filter_append, List.filter_cons_of_neg (by simpa using hirrefl),
    List.filter_eq_nil_iff.mpr, List.nil_append, List.filter_eq_self.mpr]
  · intro w hw
    simpa using (List.pairwise_cons.mp htail).1 w hw
  · intro w hw
    simpa using hasymm w v (hcross w hw v List.mem_cons_self)

/-- A page of a response, with the cursor of the next one. -/
structure Page (β κ : Type) where
  items : List β
  cursor : Option κ

/-- What a client gets that starts without a cursor and follows the cursors until there is none, if no
request fails and it needs at most `fuel` requests. -/
def follow (request : ℕ → Option κ → Except ε (Page β κ)) : ℕ → Option κ → Option (List β)
  | 0, _ => none
  | fuel + 1, cursor =>
    match request 0 cursor with
    | .error _ => none
    | .ok page =>
      match page.cursor with
      | none => some page.items
      | some next => (follow (fun r => request (r + 1)) fuel (some next)).map (page.items ++ ·)

/-- More requests change nothing. -/
theorem follow_mono {request : ℕ → Option κ → Except ε (Page β κ)} {fuel fuel' : ℕ}
    {cursor : Option κ} {items : List β} (h : follow request fuel cursor = some items)
    (hle : fuel ≤ fuel') : follow request fuel' cursor = some items := by
  induction fuel generalizing request fuel' cursor items with
  | zero => cases h
  | succ fuel ih =>
    obtain ⟨fuel', rfl⟩ := Nat.exists_eq_add_of_le' (Nat.le_trans (Nat.le_add_left 1 fuel) hle)
    rw [follow] at h ⊢
    cases hpage : request 0 cursor with
    | error e =>
      rw [hpage] at h
      cases h
    | ok page =>
      rw [hpage] at h
      simp only at h ⊢
      cases hnext : page.cursor with
      | none =>
        rw [hnext] at h
        exact h
      | some next =>
        rw [hnext] at h
        obtain ⟨later, hlater, rfl⟩ := Option.map_eq_some_iff.mp h
        simp only [ih hlater (Nat.le_of_succ_le_succ hle), Option.map_some]

/-- What a client gets does not depend on how many requests it may make. -/
theorem follow_unique {request : ℕ → Option κ → Except ε (Page β κ)} {fuel fuel' : ℕ}
    {cursor : Option κ} {items items' : List β} (h : follow request fuel cursor = some items)
    (h' : follow request fuel' cursor = some items') : items = items' := by
  have hmax := follow_mono h (Nat.le_max_left fuel fuel')
  rw [follow_mono h' (Nat.le_max_right fuel fuel')] at hmax
  exact (Option.some.inj hmax).symm

/-- The page of the first `limit` rows; it has the cursor of the last of them if it is full. -/
def pageOf (limit : ℕ) (cursorOf : ρ → κ) (f : ρ → β) (rows : List ρ) : Page β κ where
  items := (rows.take limit).map f
  cursor := if limit ≤ rows.length then (rows.take limit).getLast?.map cursorOf else none

variable {limit : ℕ} {cursorOf : ρ → κ} {f : ρ → β}

/-- A page that the rows fill just now: the last of them is the cursor. -/
theorem pageOf_append_singleton {rows : List ρ} {row : ρ} (h : rows.length + 1 = limit) :
    pageOf limit cursorOf f (rows ++ [row]) = ⟨(rows ++ [row]).map f, some (cursorOf row)⟩ := by
  have hlength : (rows ++ [row]).length = limit := by simpa using h
  rw [pageOf, List.take_of_length_le (Nat.le_of_eq hlength),
    if_pos (Nat.le_of_eq hlength.symm), List.getLast?_append]
  rfl

/-- Rows behind a full page do not change it. -/
theorem pageOf_append_of_full {rows : List ρ} (h : limit ≤ rows.length) (more : List ρ) :
    pageOf limit cursorOf f (rows ++ more) = pageOf limit cursorOf f rows := by
  have hmore : limit ≤ (rows ++ more).length := by
    rw [List.length_append]
    omega
  rw [pageOf, pageOf, List.take_append_of_le_length h, if_pos h, if_pos hmore]

/-- A page that is not full holds all rows. -/
theorem pageOf_of_not_full {rows : List ρ} (h : ¬ limit ≤ rows.length) :
    pageOf limit cursorOf f rows = ⟨rows.map f, none⟩ := by
  rw [pageOf, List.take_of_length_le (by omega), if_neg h]

variable {R : ρ → ρ → Prop} [DecidableRel R]

/-- From a page on, the client gets the rows that are left. -/
theorem follow_of_serves (hlimit : 0 < limit) (hasymm : ∀ v w, R v w → ¬ R w v) {all : List ρ}
    (hsorted : all.Pairwise R) (fuel : ℕ)
    {request : ℕ → Option κ → Except ε (Page β κ)}
    (hnext : ∀ r, ∀ v ∈ all, request r (some (cursorOf v)) =
      .ok (pageOf limit cursorOf f (all.filter fun w => R v w)))
    {before rest : List ρ} (hall : all = before ++ rest) {cursor : Option κ}
    (hserves : request 0 cursor = .ok (pageOf limit cursorOf f rest)) (hfuel : rest.length < fuel) :
    follow request fuel cursor = some (rest.map f) := by
  induction fuel generalizing request before rest cursor with
  | zero => omega
  | succ fuel ih =>
    rw [follow, hserves]
    by_cases hfull : limit ≤ rest.length
    · -- The page is full: its last row is the cursor, and what is left is behind it.
      have htake : rest.take limit ≠ [] := by
        intro h
        rcases List.take_eq_nil_iff.mp h with h | h
        · omega
        · rw [h] at hfull
          exact absurd hfull (Nat.not_le.mpr hlimit)
      obtain ⟨v, hv⟩ : ∃ v, (rest.take limit).getLast? = some v :=
        ⟨_, List.getLast?_eq_some_getLast htake⟩
      have hsplit := List.take_append_drop limit rest
      have hmem : v ∈ all := by
        rw [hall, ← hsplit]
        exact List.mem_append_right _ (List.mem_append_left _ (List.mem_of_getLast? hv))
      have hrest : all = (before ++ rest.take limit) ++ rest.drop limit := by
        rw [List.append_assoc, hsplit, hall]
      have hlast : (before ++ rest.take limit).getLast? = some v := by
        rw [List.getLast?_append, hv]
        rfl
      have hserves' := hnext 1 v hmem
      rw [filter_eq_of_getLast? hasymm hsorted hrest hlast] at hserves'
      have hshorter : (rest.drop limit).length < fuel := by
        rw [List.length_drop]
        omega
      simp only [pageOf, if_pos hfull, hv, Option.map_some]
      rw [ih (fun r => hnext (r + 1)) hrest hserves' hshorter, Option.map_some, ← List.map_append,
        hsplit]
    · rw [pageOf_of_not_full hfull]

/-- A client that follows the cursors gets every row once, in order, if the first page serves all
rows and the page of a cursor serves the rows behind the row it names. -/
theorem follow_eq (hlimit : 0 < limit) (hasymm : ∀ v w, R v w → ¬ R w v) {all : List ρ}
    (hsorted : all.Pairwise R) {request : ℕ → Option κ → Except ε (Page β κ)}
    (hfirst : request 0 none = .ok (pageOf limit cursorOf f all))
    (hnext : ∀ r, ∀ v ∈ all, request r (some (cursorOf v)) =
      .ok (pageOf limit cursorOf f (all.filter fun w => R v w))) {fuel : ℕ} (hfuel : all.length < fuel) :
    follow request fuel none = some (all.map f) :=
  follow_of_serves hlimit hasymm hsorted fuel hnext (List.nil_append all).symm hfirst hfuel

section Store

/-! ### Pages that a store cuts -/

/-- What is left of the rows of a store behind a resume key, all of them if there is none. -/
def rest (behind : κ → ρ → Bool) (rows : List ρ) : Option κ → List ρ
  | none => rows
  | some key => rows.filter (behind key)

/-- A page of a store: at most `size + 1` of the rows that are left, and the key of the last of them if
some are left still, or if the store says `more` although none is. -/
def storePage (behind : κ → ρ → Bool) (keyOf : ρ → κ) (rows : List ρ) (size : ℕ) (more : Bool)
    (start : Option κ) : List ρ × Option κ :=
  let page := (rest behind rows start).take (size + 1)
  (page,
    if page.length < (rest behind rows start).length ∨ more then page.getLast?.map keyOf else none)

variable {R : ρ → ρ → Prop} [DecidableRel R] {behind : κ → ρ → Bool} {keyOf : ρ → κ} {rows : List ρ}

/-- A page and what is left behind its resume key make up what was left; there is a resume key only if
the page is not empty, and it is the key of a row. -/
theorem storePage_spec (hasymm : ∀ v w, R v w → ¬ R w v) (hsorted : rows.Pairwise R)
    (hbehind : ∀ v w, behind (keyOf v) w = decide (R v w)) (size : ℕ) (more : Bool)
    {start : Option κ} {before : List ρ} (hrows : rows = before ++ rest behind rows start) :
    (storePage behind keyOf rows size more start).2 = none ∧
        (storePage behind keyOf rows size more start).1 = rest behind rows start ∨
      ∃ v ∈ rows, (storePage behind keyOf rows size more start).2 = some (keyOf v) ∧
        (storePage behind keyOf rows size more start).1 ≠ [] ∧
        (storePage behind keyOf rows size more start).1 ++ rest behind rows (some (keyOf v)) =
          rest behind rows start := by
  simp only [storePage]
  generalize hleft : rest behind rows start = left at hrows
  have hsplit := List.take_append_drop (size + 1) left
  cases hlast : (left.take (size + 1)).getLast? with
  | none =>
    -- An empty page leaves nothing.
    have hnil : left = [] := by simpa using List.getLast?_eq_none_iff.mp hlast
    subst hnil
    simp
  | some v =>
    have hall : rows = (before ++ left.take (size + 1)) ++ left.drop (size + 1) := by
      rw [List.append_assoc, hsplit]
      exact hrows
    have hgetLast : (before ++ left.take (size + 1)).getLast? = some v := by
      rw [List.getLast?_append, hlast]
      rfl
    have hmem : v ∈ rows := by
      rw [hall]
      exact List.mem_append_left _ (List.mem_of_getLast? hgetLast)
    have hdrop : rest behind rows (some (keyOf v)) = left.drop (size + 1) := by
      rw [← filter_eq_of_getLast? hasymm hsorted hall hgetLast]
      exact List.filter_congr fun w _ => hbehind v w
    split_ifs with hmore
    · right
      refine ⟨v, hmem, rfl, ?_, by rw [hdrop, hsplit]⟩
      intro hnil
      rw [hnil] at hlast
      cases hlast
    · left
      push Not at hmore
      have hlength := hmore.1
      rw [List.length_take] at hlength
      exact ⟨rfl, List.take_of_length_le (by omega)⟩

/-- A position in a store: its beginning, or behind one of its rows. -/
def IsPosition (keyOf : ρ → κ) (rows : List ρ) (start : Option κ) : Prop :=
  ∀ key, start = some key → ∃ v ∈ rows, key = keyOf v

theorem isPosition_none (keyOf : ρ → κ) (rows : List ρ) : IsPosition keyOf rows none :=
  fun _ h => absurd h (by simp)

theorem isPosition_some {v : ρ} (hv : v ∈ rows) : IsPosition keyOf rows (some (keyOf v)) :=
  fun _ h => ⟨v, hv, (Option.some.inj h).symm⟩

/-- The rows before a position and the rows that are left make up the store. -/
theorem exists_before (hasymm : ∀ v w, R v w → ¬ R w v) (hsorted : rows.Pairwise R)
    (hbehind : ∀ v w, behind (keyOf v) w = decide (R v w)) {start : Option κ}
    (hstart : IsPosition keyOf rows start) : ∃ before, rows = before ++ rest behind rows start := by
  cases start with
  | none => exact ⟨[], rfl⟩
  | some key =>
    obtain ⟨v, hv, rfl⟩ := hstart key rfl
    obtain ⟨before, later, rfl⟩ := List.append_of_mem hv
    have hall : before ++ v :: later = (before ++ [v]) ++ later := by
      rw [List.append_assoc]
      rfl
    have hlater : rest behind (before ++ v :: later) (some (keyOf v)) = later := by
      refine Eq.trans (List.filter_congr fun w _ => hbehind v w) ?_
      exact filter_eq_of_getLast? hasymm hsorted hall (by simp)
    exact ⟨before ++ [v], by rw [hlater, hall]⟩

variable {γ : Type} {encode : κ → γ}

/-- A client that follows the cursors of a store's pages reads all rows that are left: what it gets is
made up of the pages, whatever each request may make of its own. -/
theorem follow_served (hasymm : ∀ v w, R v w → ¬ R w v) (hsorted : rows.Pairwise R)
    (hbehind : ∀ v w, behind (keyOf v) w = decide (R v w)) (Serves : List ρ → List β → Prop)
    {request : ℕ → Option γ → Except ε (Page β γ)} (size : ℕ → ℕ) (more : ℕ → Bool)
    (hrequest : ∀ r start, IsPosition keyOf rows start →
      ∃ items, Serves (storePage behind keyOf rows (size r) (more r) start).1 items ∧
        request r (start.map encode) =
          .ok ⟨items, (storePage behind keyOf rows (size r) (more r) start).2.map encode⟩)
    {start : Option κ} (hstart : IsPosition keyOf rows start) :
    ∃ (fuel : ℕ) (pages : List (List ρ)) (answers : List (List β)),
      pages.flatten = rest behind rows start ∧ List.Forall₂ Serves pages answers ∧
        follow request fuel (start.map encode) = some answers.flatten := by
  -- By the number of rows that are left: a page that has a cursor is not empty.
  induction hn : (rest behind rows start).length using Nat.strongRecOn
    generalizing request size more start with
  | _ n ih =>
  obtain ⟨before, hrows⟩ := exists_before hasymm hsorted hbehind hstart
  obtain ⟨items, hserves, hserve⟩ := hrequest 0 start hstart
  rcases storePage_spec hasymm hsorted hbehind (size 0) (more 0) hrows with
    ⟨hlast, hpage⟩ | ⟨v, hv, hlast, hne, hpage⟩
  · rw [hlast] at hserve
    rw [hpage] at hserves
    refine ⟨1, [rest behind rows start], [items], by simp, .cons hserves .nil, ?_⟩
    rw [follow, hserve]
    simp
  · have hshorter : (rest behind rows (some (keyOf v))).length < n := by
      have hlength := congrArg List.length hpage
      have hpos := List.length_pos_of_ne_nil hne
      rw [List.length_append] at hlength
      omega
    obtain ⟨fuel, pages, answers, hpages, hanswers, hfollow⟩ := ih _ hshorter (fun r => size (r + 1))
      (fun r => more (r + 1)) (fun r => hrequest (r + 1)) (isPosition_some hv) rfl
    rw [hlast] at hserve
    refine ⟨fuel + 1, (storePage behind keyOf rows (size 0) (more 0) start).1 :: pages,
      items :: answers, ?_, .cons hserves hanswers, ?_⟩
    · rw [List.flatten_cons, hpages, hpage]
    · rw [follow, hserve]
      simp only [Option.map_some] at hfollow ⊢
      rw [hfollow]
      rfl

/-- The same for pages that are all served in one way. -/
theorem follow_storePages_from (hasymm : ∀ v w, R v w → ¬ R w v) (hsorted : rows.Pairwise R)
    (hbehind : ∀ v w, behind (keyOf v) w = decide (R v w)) (serve : List ρ → List β)
    {request : ℕ → Option γ → Except ε (Page β γ)} (size : ℕ → ℕ) (more : ℕ → Bool)
    (hrequest : ∀ r start, IsPosition keyOf rows start → request r (start.map encode) =
      .ok ⟨serve (storePage behind keyOf rows (size r) (more r) start).1,
        (storePage behind keyOf rows (size r) (more r) start).2.map encode⟩)
    {start : Option κ} (hstart : IsPosition keyOf rows start) :
    ∃ (fuel : ℕ) (pages : List (List ρ)), pages.flatten = rest behind rows start ∧
      follow request fuel (start.map encode) = some (pages.flatMap serve) := by
  obtain ⟨fuel, pages, answers, hpages, hanswers, hfollow⟩ := follow_served hasymm hsorted hbehind
    (fun page items => serve page = items) size more (fun r start h => ⟨_, rfl, hrequest r start h⟩)
    hstart
  have hserve : List.Forall₂ (· = ·) (pages.map serve) answers := List.forall₂_map_left_iff.mpr hanswers
  rw [List.forall₂_eq_eq_eq] at hserve
  exact ⟨fuel, pages, hpages, by rw [hfollow, List.flatMap_def, hserve]⟩

/-- The loop of a reader that reads page after page, `fuel` of them at most. -/
def readPages (read : ℕ → Option κ → List β × Option κ) : ℕ → ℕ → Option κ → List β
  | 0, _, _ => []
  | fuel + 1, pages, start =>
    let (page, last) := read pages start
    match last with
    | none => page
    | some key => page ++ readPages read fuel (pages + 1) (some key)

/-- A loop that may read more pages than there are rows reads all that is left. -/
theorem readPages_storePages (hasymm : ∀ v w, R v w → ¬ R w v) (hsorted : rows.Pairwise R)
    (hbehind : ∀ v w, behind (keyOf v) w = decide (R v w))
    (read : ℕ → Option κ → List β × Option κ) {size : ℕ → ℕ} {more : ℕ → Bool} {p : ρ → Bool}
    {f : ρ → β}
    (hread : ∀ pages start, read pages start =
      (((storePage behind keyOf rows (size pages) (more pages) start).1.filter p).map f,
        (storePage behind keyOf rows (size pages) (more pages) start).2))
    (fuel pages : ℕ) {start : Option κ} (hstart : IsPosition keyOf rows start)
    (hfuel : (rest behind rows start).length < fuel) :
    readPages read fuel pages start = ((rest behind rows start).filter p).map f := by
  induction fuel generalizing pages start with
  | zero => omega
  | succ fuel ih =>
    obtain ⟨before, hrows⟩ := exists_before hasymm hsorted hbehind hstart
    rw [readPages, hread]
    rcases storePage_spec hasymm hsorted hbehind (size pages) (more pages) hrows with
      ⟨hlast, hpage⟩ | ⟨v, hv, hlast, hne, hpage⟩
    · simp only [hlast, hpage]
    · -- A page with a position behind it is not empty, so the rest gets shorter.
      have hlength := congrArg List.length hpage
      have hpos := List.length_pos_of_ne_nil hne
      rw [List.length_append] at hlength
      simp only [hlast]
      rw [ih (pages + 1) (isPosition_some hv) (by omega), ← List.map_append, ← List.filter_append, hpage]

/-- A loop that stops after so many pages has read the first of the rows that are left. -/
theorem readPages_isPrefix (hasymm : ∀ v w, R v w → ¬ R w v) (hsorted : rows.Pairwise R)
    (hbehind : ∀ v w, behind (keyOf v) w = decide (R v w))
    (read : ℕ → Option κ → List β × Option κ) {size : ℕ → ℕ} {more : ℕ → Bool} {p : ρ → Bool}
    {f : ρ → β}
    (hread : ∀ pages start, read pages start =
      (((storePage behind keyOf rows (size pages) (more pages) start).1.filter p).map f,
        (storePage behind keyOf rows (size pages) (more pages) start).2))
    (fuel pages : ℕ) {start : Option κ} (hstart : IsPosition keyOf rows start) :
    readPages read fuel pages start <+: ((rest behind rows start).filter p).map f := by
  induction fuel generalizing pages start with
  | zero => exact List.nil_prefix
  | succ fuel ih =>
    obtain ⟨before, hrows⟩ := exists_before hasymm hsorted hbehind hstart
    rw [readPages, hread]
    rcases storePage_spec hasymm hsorted hbehind (size pages) (more pages) hrows with
      ⟨hlast, hpage⟩ | ⟨v, hv, hlast, -, hpage⟩
    · simp only [hlast, hpage, List.prefix_rfl]
    · simp only [hlast]
      rw [← hpage, List.filter_append, List.map_append]
      exact (List.prefix_append_right_inj _).mpr (ih (pages + 1) (isPosition_some hv))

/-- It has read all of them if its pages are long enough. -/
theorem readPages_of_sized (hasymm : ∀ v w, R v w → ¬ R w v) (hsorted : rows.Pairwise R)
    (hbehind : ∀ v w, behind (keyOf v) w = decide (R v w))
    (read : ℕ → Option κ → List β × Option κ) {size : ℕ → ℕ} {more : ℕ → Bool} {p : ρ → Bool}
    {f : ρ → β}
    (hread : ∀ pages start, read pages start =
      (((storePage behind keyOf rows (size pages) (more pages) start).1.filter p).map f,
        (storePage behind keyOf rows (size pages) (more pages) start).2))
    {least : ℕ} (hsize : ∀ pages, least ≤ size pages + 1) (fuel pages : ℕ) {start : Option κ}
    (hstart : IsPosition keyOf rows start) (hfuel : (rest behind rows start).length ≤ fuel * least) :
    readPages read fuel pages start = ((rest behind rows start).filter p).map f := by
  induction fuel generalizing pages start with
  | zero =>
    rw [Nat.zero_mul, Nat.le_zero] at hfuel
    rw [List.eq_nil_of_length_eq_zero hfuel]
    rfl
  | succ fuel ih =>
    obtain ⟨before, hrows⟩ := exists_before hasymm hsorted hbehind hstart
    rw [readPages, hread]
    rcases storePage_spec hasymm hsorted hbehind (size pages) (more pages) hrows with
      ⟨hlast, hpage⟩ | ⟨v, hv, hlast, -, hpage⟩
    · simp only [hlast, hpage]
    · -- Unless it is the last, a page is as long as it may be.
      have hlength := congrArg List.length hpage
      have htake : (storePage behind keyOf rows (size pages) (more pages) start).1.length =
        min (size pages + 1) (rest behind rows start).length := List.length_take
      rw [List.length_append, htake] at hlength
      have hleast := hsize pages
      rw [Nat.succ_mul] at hfuel
      simp only [hlast]
      rw [ih (pages + 1) (isPosition_some hv) (by omega), ← List.map_append, ← List.filter_append,
        hpage]

end Store

end Keyset
