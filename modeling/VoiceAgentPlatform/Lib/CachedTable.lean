import VoiceAgentPlatform.Lib.KeyedTable

/-!
# A cache refreshed by scans

A process that caches the content of a table: each of its writes is followed by a scan, and the
result of a scan replaces the cache. Scans run concurrently with writes and with each other.

* `Watch`, `watch`: which scans were issued since the latest write, and what became of them.
* `Refreshing`: programs that follow the pattern.
* `InOrder`: no scan brings an outdated result after a scan issued since the latest write.
* `cache_eq_content`: along runs whose scans arrive in order, the cache is the content of the table
  whenever no operation is in flight and the scan issued last has succeeded.
-/

namespace CachedTable

open Async KeyedTable

variable {K V U : Type}

/-- Whether an operation changes the table. -/
def writes : Op K V U → Bool
  | .putItem _ => true
  | .putIfAbsent _ => true
  | .updateItem _ _ => true
  | .deleteItem _ => true
  | _ => false

/-- Whether an operation is a scan. -/
def isScan : Op K V U → Bool
  | .scan => true
  | _ => false

/-- What the history says about scans. -/
structure Watch where
  /-- The tasks that issued a scan since the latest write took effect, the latest first. -/
  fresh : List ℕ
  /-- One of these scans has completed successfully. -/
  installed : Bool
  /-- The task that issued the scan that was issued last. -/
  last : Option ℕ
  /-- That scan has completed successfully. -/
  succeeded : Bool

/-- Before the first operation. -/
def Watch.init : Watch := { fresh := [], installed := false, last := none, succeeded := false }

/-- Account for one entry of the history. -/
def Watch.observe (w : Watch) (entry : ℕ × Op K V U × Mark) : Watch :=
  match entry with
  | (i, op, .issued) =>
    -- A scan that is issued now sees every write that has taken effect.
    if isScan op then { w with fresh := i :: w.fresh, last := some i, succeeded := false } else w
  | (_, op, .effect ok) =>
    -- Behind a write no scan at work is fresh.
    if writes op && ok then { w with fresh := [], installed := false } else w
  | (i, op, .completed ok) =>
    if isScan op && ok then
      { w with
        installed := w.installed || i ∈ w.fresh
        succeeded := w.succeeded || w.last = some i }
    else w

/-- What a history says about scans. -/
def watch (history : List (ℕ × Op K V U × Mark)) : Watch := history.foldl Watch.observe .init

@[simp] theorem watch_nil : watch ([] : List (ℕ × Op K V U × Mark)) = .init := rfl

@[simp] theorem watch_append (history entries : List (ℕ × Op K V U × Mark)) :
    watch (history ++ entries) = entries.foldl Watch.observe (watch history) :=
  List.foldl_append

/-- The scan issued last is one of those issued since the latest write, if there are any; and if it
has succeeded, one of them has. -/
structure Watch.Sound (w : Watch) : Prop where
  head : w.fresh ≠ [] → w.fresh.head? = w.last
  installed : w.succeeded = true → w.fresh ≠ [] → w.installed = true
  last : w.succeeded = true → w.last ≠ none

theorem Watch.Sound.observe {w : Watch} (h : w.Sound) (entry : ℕ × Op K V U × Mark) :
    (w.observe entry).Sound := by
  obtain ⟨i, op, mark⟩ := entry
  cases mark with
  | issued =>
    simp only [Watch.observe]
    split_ifs
    · exact ⟨fun _ => rfl, nofun, nofun⟩
    · exact h
  | effect ok =>
    simp only [Watch.observe]
    split_ifs
    · exact ⟨fun hne => absurd rfl hne, fun _ hne => absurd rfl hne, h.last⟩
    · exact h
  | completed ok =>
    simp only [Watch.observe]
    split_ifs
    · refine ⟨h.head, fun hsucceeded hne => ?_, fun hsucceeded => ?_⟩
      · -- Either a scan had succeeded before, or the last one does now.
        rcases Bool.or_eq_true_iff.mp hsucceeded with hsucceeded | hlast
        · simp [h.installed hsucceeded hne]
        · have hhead := h.head hne
          rw [of_decide_eq_true hlast] at hhead
          simp [List.mem_of_head? hhead]
      · rcases Bool.or_eq_true_iff.mp hsucceeded with hsucceeded | hlast
        · exact h.last hsucceeded
        · rw [of_decide_eq_true hlast]
          exact Option.some_ne_none i
    · exact h

theorem sound_watch (history : List (ℕ × Op K V U × Mark)) : (watch history).Sound := by
  have hfold : ∀ (entries : List (ℕ × Op K V U × Mark)) (w : Watch), w.Sound →
      (entries.foldl Watch.observe w).Sound := by
    intro entries
    induction entries with
    | nil => exact fun w h => h
    | cons entry entries ih => exact fun w h => ih _ (h.observe entry)
  exact hfold history .init ⟨nofun, nofun, nofun⟩

/-- A scan issued since the latest write took effect, or no scan at all. -/
def Watch.Refreshed (w : Watch) : Prop := w.fresh ≠ [] ∨ w.last = none

/-- A completion takes no scan out of the fresh ones and adds none. -/
theorem fresh_completed {w : Watch} {n : ℕ} {op : Op K V U} {ok : Bool} :
    (w.observe (n, op, .completed ok)).fresh = w.fresh := by
  simp only [Watch.observe]
  split_ifs <;> rfl

theorem installed_completed {w : Watch} {n : ℕ} {op : Op K V U} {ok : Bool}
    (h : (w.observe (n, op, .completed ok)).installed = true) :
    w.installed = true ∨ isScan op = true ∧ ok = true ∧ n ∈ w.fresh := by
  simp only [Watch.observe] at h
  split_ifs at h with hscan
  · obtain ⟨hop, hok⟩ := Bool.and_eq_true_iff.mp hscan
    rcases Bool.or_eq_true_iff.mp h with hbefore | hfresh
    · exact Or.inl hbefore
    · exact Or.inr ⟨hop, hok, of_decide_eq_true hfresh⟩
  · exact Or.inl h

theorem refreshed_completed {w : Watch} {n : ℕ} {op : Op K V U} {ok : Bool}
    (h : w.Refreshed) :
    (w.observe (n, op, .completed ok)).Refreshed := by
  simp only [Watch.observe]
  split_ifs
  · exact h
  · exact h

variable [DecidableEq K] {sch : Schema K V U} {μ ε ρ α γ : Type}

/-- The cache that a resumed operation leaves: the content of a successful scan, and the same cache
after any other operation. -/
def refreshed (cache : μ → γ) (content : List V → γ) (m : μ) :
    (op : Op K V U) → Except Fault op.Reply → γ
  | .scan, .ok items => content items
  | _, _ => cache m

/-- A program that was resumed after `op` refreshes the cache if it has to, leaves it alone
otherwise, and scans the table next if it has written to it. -/
structure Resumes (cache : μ → γ) (content : List V → γ) (op : Op K V U)
    (reply : Except Fault op.Reply) (p : Prog (service sch) μ ε α) : Prop where
  cache : ∀ m, cache (p.settle m).1 = refreshed cache content m op reply
  scan : writes op = true → reply.isOk = true →
    ∀ m, ∃ k, (p.settle m).2 = .waiting .scan ⟨[], none⟩ k

/-- Programs that scan the table after each of their writes and replace the cache by the result of
each successful scan. -/
def Refreshing (cache : μ → γ) (content : List V → γ) : Prog (service sch) μ ε α → Prop
  | .done _ => True
  | .raise _ => True
  | .read k => ∀ m, Refreshing cache content (k m)
  | .write _ k => Refreshing cache content k
  | .await op k => ∀ reply, Resumes cache content op reply (k reply) ∧
      Refreshing cache content (k reply)

/-- What remains of a task follows the pattern. -/
def RefreshingStage (cache : μ → γ) (content : List V → γ) : Stage (service sch) μ ε α → Prop
  | .waiting op _ k => Refreshing cache content (.await op k)
  | .applied op reply k => Resumes cache content op reply (k reply) ∧
      Refreshing cache content (k reply)
  | .finished _ => True

theorem refreshingStage_settle {cache : μ → γ} {content : List V → γ}
    {p : Prog (service sch) μ ε α} (h : Refreshing cache content p) (m : μ) :
    RefreshingStage cache content (p.settle m).2 := by
  induction p generalizing m with
  | done a => trivial
  | raise e => trivial
  | read k ih => exact ih m (h m) m
  | write m' k ih => exact ih h m'
  | await op k => exact h

theorem flight_of_settle {p : Prog (service sch) μ ε α} {m : μ} {op : Op K V U}
    {flight : Flight K V} {k : Except Fault op.Reply → Prog (service sch) μ ε α}
    (h : (p.settle m).2 = .waiting op flight k) : flight = ⟨[], none⟩ := by
  induction p generalizing m with
  | done a => cases h
  | raise e => cases h
  | read k ih => exact ih m h
  | write m' k ih => exact ih h
  | await op k =>
    cases h
    rfl

/-- The scan of a task has seen of the table what it would see now. -/
def SeesTable (t : Table sch) : Stage (service sch) μ ε α → Prop
  | .waiting .scan flight _ => flight.items ++ t.after flight.start = t.items
  | .applied .scan (.ok items) _ => items = t.items
  | _ => True

/-- A write of the task has taken effect and the task has not been resumed yet. -/
def HasWritten : Stage (service sch) μ ε α → Prop
  | .applied op reply _ => writes op = true ∧ reply.isOk = true
  | _ => False

theorem seesTable_settle (t : Table sch) (p : Prog (service sch) μ ε α) (m : μ) :
    SeesTable t (p.settle m).2 := by
  cases hstage : (p.settle m).2 with
  | waiting op flight k =>
    obtain rfl := flight_of_settle hstage
    cases op <;> trivial
  | applied op reply k =>
    -- A program never settles in a stage whose operation has taken effect already.
    induction p generalizing m with
    | done a => cases hstage
    | raise e => cases hstage
    | read k ih => exact ih m m hstage
    | write m' k ih => exact ih m' hstage
    | await op k => cases hstage
  | finished r => trivial

section Issue

variable {w : Watch} {n i : ℕ} {stage : Stage (service sch) μ ε α}

@[simp] theorem installed_issueOf :
    ((Pool.issueOf n stage).foldl Watch.observe w).installed = w.installed := by
  cases stage with
  | waiting op flight k =>
    simp only [Pool.issueOf, List.foldl_cons, List.foldl_nil, Watch.observe]
    split_ifs <;> rfl
  | _ => rfl

theorem mem_fresh_issueOf (h : i ∈ ((Pool.issueOf n stage).foldl Watch.observe w).fresh) :
    i = n ∨ i ∈ w.fresh := by
  cases stage with
  | waiting op flight k =>
    simp only [Pool.issueOf, List.foldl_cons, List.foldl_nil, Watch.observe] at h
    split_ifs at h
    · exact List.mem_cons.mp h
    · exact Or.inr h
  | _ => exact Or.inr h

theorem refreshed_issueOf (h : w.Refreshed) :
    ((Pool.issueOf n stage).foldl Watch.observe w).Refreshed := by
  cases stage with
  | waiting op flight k =>
    simp only [Pool.issueOf, List.foldl_cons, List.foldl_nil, Watch.observe]
    split_ifs
    · exact Or.inl (List.cons_ne_nil n w.fresh)
    · exact h
  | _ => exact h

theorem refreshed_issueOf_scan {k : Except Fault (List V) → Prog (service sch) μ ε α}
    {flight : Flight K V} :
    ((Pool.issueOf n (.waiting (.scan : Op K V U) flight k : Stage (service sch) μ ε α)).foldl
      Watch.observe w).Refreshed :=
  Or.inl (List.cons_ne_nil n w.fresh)

end Issue

/-- What holds of the pool: the tasks follow the pattern, the scans issued since the latest write see
the table as it is, the cache is the content of the table if one of them has completed, and some
task still has to issue one if none has been issued. -/
structure Coherent (cache : μ → γ) (content : List V → γ) (s : Pool (service sch) ρ μ ε α) :
    Prop where
  stages : ∀ task ∈ s.tasks, RefreshingStage cache content task.stage
  snapshot : ∀ i task, s.tasks[i]? = some task → i ∈ (watch s.history).fresh →
    SeesTable s.store task.stage
  cached : (watch s.history).installed = true → cache s.memory = content s.store.items
  refresh : (watch s.history).Refreshed ∨ ∃ task ∈ s.tasks, HasWritten task.stage

/-- Requests whose programs follow the pattern and leave the cache alone before their first
operation. -/
structure Refreshes (cache : μ → γ) (content : List V → γ)
    (handler : ρ → Prog (service sch) μ ε α) : Prop where
  start : ∀ r m, cache ((handler r).settle m).1 = cache m
  program : ∀ r, Refreshing cache content (handler r)

variable {cache : μ → γ} {content : List V → γ} {handler : ρ → Prog (service sch) μ ε α}

/-- A request arrives. -/
theorem Coherent.spawn (hhandler : Refreshes cache content handler)
    {s : Pool (service sch) ρ μ ε α} (h : Coherent cache content s) (r : ρ) :
    Coherent cache content (s.step handler (.spawn r)) where
  stages task htask := by
    rcases List.mem_append.mp htask with htask | htask
    · exact h.stages task htask
    · rw [List.mem_singleton.mp htask]
      exact refreshingStage_settle (hhandler.program r) s.memory
  snapshot i task htask hfresh := by
    simp only [Pool.step, watch_append] at htask hfresh ⊢
    -- A task that was there, or the new one.
    rcases Nat.lt_or_ge i s.tasks.length with hi | hi
    · rw [List.getElem?_append_left hi] at htask
      rcases mem_fresh_issueOf hfresh with hnew | hold
      · omega
      · exact h.snapshot i task htask hold
    · rw [List.getElem?_append_right hi] at htask
      rw [List.mem_singleton.mp (List.mem_of_getElem? htask)]
      exact seesTable_settle s.store (handler r) s.memory
  cached hinstalled := by
    simp only [Pool.step, watch_append, installed_issueOf] at hinstalled ⊢
    rw [hhandler.start]
    exact h.cached hinstalled
  refresh := by
    simp only [Pool.step, watch_append]
    rcases h.refresh with hrefreshed | ⟨task, htask, hwritten⟩
    · exact Or.inl (refreshed_issueOf hrefreshed)
    · exact Or.inr ⟨task, List.mem_append_left _ htask, hwritten⟩

/-- Replacing one element keeps the others. -/
theorem mem_set_of_ne {β : Type} {l : List β} {i : ℕ} {a b c : β} (hi : l[i]? = some a)
    (hc : c ∈ l) (hne : c ≠ a) : c ∈ l.set i b := by
  obtain ⟨j, hj⟩ := List.mem_iff_getElem?.mp hc
  have hij : i ≠ j := by
    rintro rfl
    exact hne (Option.some.inj (hj.symm.trans hi))
  exact List.mem_of_getElem? (by rw [List.getElem?_set_ne hij, hj])

omit [DecidableEq K] in
/-- A page keeps what a scan sees. -/
theorem seesTable_nextPage {t : Table sch} {flight : Flight K V} (n : ℕ)
    (h : flight.items ++ t.after flight.start = t.items) :
    (nextPage t flight n).items ++ t.after (nextPage t flight n).start = t.items := by
  have hsplit := List.take_append_drop (n + 1) (t.after flight.start)
  simp only [nextPage]
  cases hlast : ((t.after flight.start).take (n + 1)).getLast? with
  | none =>
    rw [List.getLast?_eq_none_iff] at hlast
    simpa [hlast] using h
  | some v =>
    have hrest := Table.after_getLast hsplit.symm hlast
    simp only [Option.map_some, Option.some_or, hrest, List.append_assoc, hsplit, h]

/-- What an operation other than a successful write does not change. -/
theorem store_of_not_writes {op : Op K V U} {flight : Flight K V} {choice : Choice} {t t' : Table sch}
    {reply : Except Fault op.Reply} (h : perform op flight choice t = (t', .inr reply))
    (hop : ¬ (writes op && reply.isOk) = true) : t' = t := by
  cases choice with
  | ok =>
    -- A write that completes is a write.
    cases op with
    | getItem k => exact (Prod.ext_iff.mp h).1.symm
    | scan => exact (Prod.ext_iff.mp h).1.symm
    | putItem v =>
      obtain rfl := Sum.inr.inj (Prod.ext_iff.mp h).2
      exact absurd rfl hop
    | putIfAbsent v =>
      simp only [perform, complete] at h
      split_ifs at h
      · exact (Prod.ext_iff.mp h).1.symm
      · obtain rfl := Sum.inr.inj (Prod.ext_iff.mp h).2
        exact absurd rfl hop
    | updateItem k u =>
      obtain rfl := Sum.inr.inj (Prod.ext_iff.mp h).2
      exact absurd rfl hop
    | deleteItem k =>
      obtain rfl := Sum.inr.inj (Prod.ext_iff.mp h).2
      exact absurd rfl hop
  | page n => cases op <;> cases h
  | fault code => exact (Prod.ext_iff.mp h).1.symm

/-- The reply to a scan is what the scan has seen. -/
theorem seesTable_reply {op : Op K V U} {flight : Flight K V} {choice : Choice} {t t' : Table sch}
    {reply : Except Fault op.Reply} {k : Except Fault op.Reply → Prog (service sch) μ ε α}
    (h : perform op flight choice t = (t', .inr reply))
    (hsees : SeesTable t (.waiting op flight k : Stage (service sch) μ ε α)) :
    SeesTable t (.applied op reply k : Stage (service sch) μ ε α) := by
  cases op with
  | scan =>
    cases choice with
    | ok =>
      obtain rfl := Sum.inr.inj (Prod.ext_iff.mp h).2
      exact hsees
    | page n => cases h
    | fault code =>
      obtain rfl := Sum.inr.inj (Prod.ext_iff.mp h).2
      trivial
  | _ => trivial

/-- The store works on an operation. -/
theorem Coherent.perform {s : Pool (service sch) ρ μ ε α} (h : Coherent cache content s) (i : ℕ)
    (choice : Choice) : Coherent cache content (s.step handler (.perform i choice)) := by
  simp only [Pool.step]
  split
  case h_2 => exact h
  rename_i request op flight k hi
  have hstage := h.stages _ (List.mem_of_getElem? hi)
  have hother {task : Task (service sch) ρ μ ε α} {stage : Stage (service sch) μ ε α}
      (htask : task ∈ s.tasks) (hwritten : HasWritten task.stage) :
      task ∈ s.tasks.set i { request, stage } := by
    refine mem_set_of_ne hi htask ?_
    rintro rfl
    exact hwritten
  split
  · -- The operation stays in flight; only scans do so for a purpose.
    rename_i t' flight' hperform
    have hpage : t' = s.store ∧ (SeesTable s.store (.waiting op flight k : Stage _ μ ε α) →
        SeesTable s.store (.waiting op flight' k : Stage _ μ ε α)) := by
      cases choice with
      | ok => cases hperform
      | fault code => cases hperform
      | page n =>
        cases op with
        | scan =>
          cases hperform
          exact ⟨rfl, seesTable_nextPage n⟩
        | _ =>
          cases hperform
          exact ⟨rfl, fun _ => trivial⟩
    obtain ⟨rfl, hsees⟩ := hpage
    refine ⟨fun task htask => ?_, fun j task hj hfresh => ?_, h.cached, ?_⟩
    · rcases List.mem_or_eq_of_mem_set htask with htask | rfl
      · exact h.stages task htask
      · exact hstage
    · rcases eq_or_ne i j with rfl | hij
      · rw [List.getElem?_set_self (List.getElem?_eq_some_iff.mp hi).1] at hj
        obtain rfl := Option.some.inj hj
        exact hsees (h.snapshot i _ hi hfresh)
      · rw [List.getElem?_set_ne hij] at hj
        exact h.snapshot j task hj hfresh
    · rcases h.refresh with hrefreshed | ⟨task, htask, hwritten⟩
      · exact Or.inl hrefreshed
      · exact Or.inr ⟨task, hother htask hwritten, hwritten⟩
  · -- The operation takes effect.
    rename_i t' reply hperform
    have hstages : ∀ task ∈ s.tasks.set i { request, stage := .applied op reply k },
        RefreshingStage cache content task.stage := by
      intro task htask
      rcases List.mem_or_eq_of_mem_set htask with htask | rfl
      · exact h.stages task htask
      · exact hstage reply
    have hmem : { request, stage := .applied op reply k } ∈
        s.tasks.set i { request, stage := .applied op reply k } :=
      List.mem_of_getElem? (List.getElem?_set_self (List.getElem?_eq_some_iff.mp hi).1)
    by_cases hwrites : (writes op && reply.isOk) = true
    · -- A write: no scan is fresh any more, and this task has to issue one.
      have hwatch : watch (s.history ++ [(i, op, .effect reply.isOk)]) =
          { watch s.history with fresh := [], installed := false } := by
        simp [Watch.observe, hwrites]
      refine ⟨hstages, fun j task _ hfresh => ?_, fun hinstalled => ?_, Or.inr ⟨_, hmem, ?_⟩⟩
      · rw [hwatch] at hfresh
        exact absurd hfresh List.not_mem_nil
      · rw [hwatch] at hinstalled
        cases hinstalled
      · exact Bool.and_eq_true_iff.mp hwrites
    · -- Anything else leaves the table and the watch as they are.
      obtain rfl := store_of_not_writes hperform hwrites
      have hwatch : watch (s.history ++ [(i, op, .effect reply.isOk)]) = watch s.history := by
        simp [Watch.observe, hwrites]
      refine ⟨hstages, fun j task hj hfresh => ?_, ?_, ?_⟩
      · rw [hwatch] at hfresh
        rcases eq_or_ne i j with rfl | hij
        · rw [List.getElem?_set_self (List.getElem?_eq_some_iff.mp hi).1] at hj
          obtain rfl := Option.some.inj hj
          exact seesTable_reply hperform (h.snapshot i _ hi hfresh)
        · rw [List.getElem?_set_ne hij] at hj
          exact h.snapshot j task hj hfresh
      · rw [hwatch]
        exact h.cached
      · rw [hwatch]
        rcases h.refresh with hrefreshed | ⟨task, htask, hwritten⟩
        · exact Or.inl hrefreshed
        · exact Or.inr ⟨task, hother htask hwritten, hwritten⟩

/-- Where a scan completes successfully after a scan issued since the latest write has done so, it
brings the content of the table. -/
def InOrder (content : List V → γ) (s : Pool (service sch) ρ μ ε α) (e : Event (service sch) ρ) :
    Prop :=
  ∀ i request items k, e = .resume i →
    s.tasks[i]? = some { request, stage := .applied (.scan : Op K V U) (.ok items) k } →
      (watch s.history).installed = true → content items = content s.store.items

/-- Before a scan issued since the latest write has completed, every result is in order. -/
theorem inOrder_of_not_installed {s : Pool (service sch) ρ μ ε α} {e : Event (service sch) ρ}
    (h : (watch s.history).installed = false) : InOrder content s e := by
  intro i request items k _ _ hinstalled
  rw [h] at hinstalled
  cases hinstalled

/-- A task is resumed. -/
theorem Coherent.resume {s : Pool (service sch) ρ μ ε α} (h : Coherent cache content s) (i : ℕ)
    (horder : InOrder content s (.resume i)) : Coherent cache content (s.step handler (.resume i)) := by
  simp only [Pool.step]
  split
  case h_2 => exact h
  rename_i request op reply k hi
  obtain ⟨hresumes, hprogram⟩ := h.stages _ (List.mem_of_getElem? hi)
  have hcache := hresumes.cache s.memory
  have hsees := seesTable_settle s.store (k reply) s.memory
  have hnext := refreshingStage_settle hprogram s.memory
  refine ⟨fun task htask => ?_, fun j task hj hfresh => ?_, fun hinstalled => ?_, ?_⟩
  · rcases List.mem_or_eq_of_mem_set htask with htask | rfl
    · exact h.stages task htask
    · exact hnext
  · rw [watch_append, List.foldl_cons] at hfresh
    rcases eq_or_ne i j with rfl | hij
    · rw [List.getElem?_set_self (List.getElem?_eq_some_iff.mp hi).1] at hj
      obtain rfl := Option.some.inj hj
      exact hsees
    · rw [List.getElem?_set_ne hij] at hj
      rcases mem_fresh_issueOf hfresh with rfl | hfresh
      · exact absurd rfl hij
      · rw [fresh_completed] at hfresh
        exact h.snapshot j task hj hfresh
  · rw [watch_append, List.foldl_cons, installed_issueOf] at hinstalled
    rw [hcache]
    rcases installed_completed hinstalled with hbefore | ⟨hscan, hok, hfresh⟩
    · cases op with
      | scan =>
        cases reply with
        | ok items => exact horder i request items k rfl hi hbefore
        | error f => exact h.cached hbefore
      | _ => exact h.cached hbefore
    · -- The first scan to complete since the latest write.
      cases op with
      | scan =>
        cases reply with
        | ok items => exact congrArg content (h.snapshot i _ hi hfresh)
        | error f => cases hok
      | _ => cases hscan
  · rw [watch_append, List.foldl_cons]
    by_cases hwrites : writes op = true ∧ reply.isOk = true
    · obtain ⟨k', hk'⟩ := hresumes.scan hwrites.1 hwrites.2 s.memory
      rw [hk']
      exact Or.inl refreshed_issueOf_scan
    · rcases h.refresh with hrefreshed | ⟨task, htask, hwritten⟩
      · exact Or.inl (refreshed_issueOf (refreshed_completed hrefreshed))
      · refine Or.inr ⟨task, mem_set_of_ne hi htask ?_, hwritten⟩
        rintro rfl
        exact hwrites hwritten

/-- Every event of a run whose scans arrive in order keeps the pool coherent. -/
theorem Coherent.step (hhandler : Refreshes cache content handler)
    {s : Pool (service sch) ρ μ ε α} (h : Coherent cache content s) {e : Event (service sch) ρ}
    (horder : InOrder content s e) : Coherent cache content (s.step handler e) := by
  cases e with
  | spawn r => exact h.spawn hhandler r
  | perform i choice => exact h.perform i choice
  | resume i => exact h.resume i horder

/-- No operation is in flight. -/
def Quiescent (s : Pool (service sch) ρ μ ε α) : Prop :=
  ∀ task ∈ s.tasks, ∃ result, task.stage = .finished result

/-- When no operation is in flight and the scan issued last has succeeded, the cache is the content
of the table. -/
theorem Coherent.cache_eq {s : Pool (service sch) ρ μ ε α} (h : Coherent cache content s)
    (hquiet : Quiescent s) (hlast : (watch s.history).succeeded = true) :
    cache s.memory = content s.store.items := by
  have hsound := sound_watch s.history
  refine h.cached (hsound.installed hlast ?_)
  rcases h.refresh with (hfresh | hnone) | ⟨task, htask, hwritten⟩
  · exact hfresh
  · exact absurd hnone (hsound.last hlast)
  · obtain ⟨result, hresult⟩ := hquiet task htask
    rw [hresult] at hwritten
    exact hwritten.elim

/-- Along a run whose scans arrive in order, whenever no operation is in flight and the scan issued
last has succeeded, the cache is the content of the table. -/
theorem cache_eq_content (hhandler : Refreshes cache content handler) (t : Table sch) (m : μ)
    {es : List (Event (service sch) ρ)}
    (horder : Run.Guarded (Pool.step handler) (InOrder content) (Pool.start t m) es) :
    Run.Always (Pool.step handler)
      (fun s => Quiescent s → (watch s.history).succeeded = true →
        cache s.memory = content s.store.items)
      (Pool.start t m) es := by
  have hstart : Coherent cache content (Pool.start t m : Pool (service sch) ρ μ ε α) :=
    ⟨nofun, nofun, nofun, Or.inl (Or.inr rfl)⟩
  have hcoherent := Run.always_of_guarded
    (fun s e (h : Coherent cache content s) horder => h.step hhandler horder) hstart horder
  exact Run.always_iff_prefixes.mpr fun pre hpre =>
    (Run.always_iff_prefixes.mp hcoherent pre hpre).cache_eq

end CachedTable
