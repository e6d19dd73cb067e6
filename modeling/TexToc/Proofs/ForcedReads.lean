import TexToc.Proofs.CacheReuse
import Mathlib.Data.List.Nodup
import Mathlib.Logic.Function.Iterate

/-!
# A read is forced only for a path that failed

Loading a document that has no unsaved text polls the cache: it asks whether a load of the
path is pending, which queues one for a path neither held, failed nor loading, and stops as
soon as a load is pending or the document is there; otherwise it lets the ready loads run,
as a caller that sleeps does, and after the last poll it forces a read.

So a load sleeps and forces a read only for a path that, when the load starts, holds no
document, has no registered load and is marked failed. Such a path stays so while the load
sleeps: the register gains no entry for it, and a running load of it can only fail again,
since every failure mark and every text a load has read agree with the files. The load then
sleeps exactly `max attempts 1` times and forces one read. Every other path is obtained
through one question whether its load is pending and the wait for that load, with no sleep
and no forced read.

Both facts rest on invariants of the reachable caches. The register names only unfinished
loads, even when a load queued before an invalidation ends after a newer load of its path was
queued: tasks carry distinct numbers, and a load that ends drops only its own task.

A load here means a registered one. The converse fails: a load that ends unregisters its path
whichever load the path is registered to, so an older load that ends after an invalidation and
a newer queued load leaves the newer one running unregistered. Its path can then count as only
failed while a load of it is unfinished (`overtakenLoad`), and a load of the path sleeps and
forces a read.

* `DocCache.Reachable`: the caches that the cache operations reach from the empty cache.
* `DocCache.Faithful`, `DocCache.Tracked`: the invariants; every reachable cache has both
  (`Reachable.sound`), since every operation keeps them.
* `DocCache.onlyFailed`: the paths for which a load sleeps.
* `loadDocument_forces_only_failed`: what a load does, for every reachable cache.
-/

namespace TexToc

open Outline

namespace DocCache

variable {r : Reading} {c : DocCache} {p : String}

/-- The caches reached from the empty cache by the cache operations, the files being read as
`r` gives them: asking whether a path is pending, waiting for a path, forcing a read,
dropping a path, and letting the ready loads run while a caller sleeps. Looking a document
up changes nothing. -/
inductive Reachable (r : Reading) : DocCache → Prop
  | empty : Reachable r .empty
  | hasPending {c : DocCache} (p : String) : Reachable r c → Reachable r (c.hasPending p).2
  | waitPending {c : DocCache} (p : String) : Reachable r c → Reachable r (c.waitPending r p)
  | forceRefresh {c : DocCache} (p : String) : Reachable r c →
      Reachable r (c.forceRefresh r p).2
  | invalidate {c : DocCache} (p : String) : Reachable r c → Reachable r (c.invalidate p)
  | yieldOnce {c : DocCache} : Reachable r c → Reachable r (c.yieldOnce r)

/-- The text a load has read, once it has read one, is the text of its file. -/
def ReadsFresh (r : Reading) (t : LoadTask) : Prop :=
  match t.stage with
  | .scheduled => True
  | .read text => text = readFresh r t.path
  | .handedOver text => text = readFresh r t.path

/-- A cache whose loads read the files as `r` gives them, and whose failure marks stand only
on paths whose file cannot be read or parsed. -/
structure Faithful (r : Reading) (c : DocCache) : Prop where
  tasks : ∀ t ∈ c.tasks, ReadsFresh r t
  failed : ∀ q ∈ c.failed, parseRead r (readFresh r q) = none

/-- A cache whose register names only unfinished loads: every registered load is a task of
the cache, of the registered path. Tasks carry distinct numbers below the next one, so a load
that ends drops only its own task, though it unregisters its path whichever load the path is
registered to. -/
structure Tracked (c : DocCache) : Prop where
  ids : (c.tasks.map (·.id)).Nodup
  below : ∀ t ∈ c.tasks, t.id < c.nextId
  live : ∀ q i, (q, i) ∈ c.register → ∃ t ∈ c.tasks, t.id = i ∧ t.path = q

/-- The invariant of the reachable caches. -/
structure Sound (r : Reading) (c : DocCache) : Prop extends Faithful r c, Tracked c

/-- A path that a poll cannot get: it holds no document, has no registered load, and is
marked failed. -/
structure Failed (c : DocCache) (p : String) : Prop where
  absent : c.get p = none
  unregistered : c.register.lookup p = none
  marked : p ∈ c.failed

/-- Whether a poll of `p` finds nothing to wait for: no document, no registered load, and a
failure mark. -/
def onlyFailed (c : DocCache) (p : String) : Bool :=
  (c.get p).isNone && (c.register.lookup p).isNone && c.failed.contains p

theorem failed_iff_onlyFailed : c.Failed p ↔ c.onlyFailed p = true := by
  simp only [onlyFailed, Bool.and_eq_true, Option.isNone_iff_eq_none, List.contains_iff_mem]
  exact ⟨fun ⟨absent, unregistered, marked⟩ => ⟨⟨absent, unregistered⟩, marked⟩,
    fun ⟨⟨absent, unregistered⟩, marked⟩ => ⟨absent, unregistered, marked⟩⟩

/-! ## The fields each operation touches -/

@[simp] theorem tasks_store (c : DocCache) (q : String) (d : Document) :
    (c.store q d).tasks = c.tasks := rfl

@[simp] theorem failed_store (c : DocCache) (q : String) (d : Document) :
    (c.store q d).failed = c.failed := rfl

@[simp] theorem register_store (c : DocCache) (q : String) (d : Document) :
    (c.store q d).register = c.register := rfl

@[simp] theorem nextId_store (c : DocCache) (q : String) (d : Document) :
    (c.store q d).nextId = c.nextId := rfl

@[simp] theorem tasks_markFailed (c : DocCache) (q : String) :
    (c.markFailed q).tasks = c.tasks := by
  unfold DocCache.markFailed
  split <;> rfl

@[simp] theorem register_markFailed (c : DocCache) (q : String) :
    (c.markFailed q).register = c.register := by
  unfold DocCache.markFailed
  split <;> rfl

@[simp] theorem get_withTasks (c : DocCache) (ts : List LoadTask) (q : String) :
    ({ c with tasks := ts } : DocCache).get q = c.get q := rfl

@[simp] theorem get_withRegister (c : DocCache) (reg : List (String × Nat)) (q : String) :
    ({ c with register := reg } : DocCache).get q = c.get q := rfl

@[simp] theorem nextId_markFailed (c : DocCache) (q : String) :
    (c.markFailed q).nextId = c.nextId := by
  unfold DocCache.markFailed
  split <;> rfl

theorem mem_failed_markFailed (c : DocCache) (q x : String) :
    x ∈ (c.markFailed q).failed ↔ x ∈ c.failed ∨ x = q := by
  unfold DocCache.markFailed
  split
  · rename_i marked
    constructor
    · exact .inl
    · rintro (mem | rfl)
      · exact mem
      · simpa using marked
  · simp

/-! ## One step of a load keeps the invariant -/

theorem Faithful.of_eq {c' : DocCache} (h : c.Faithful r) (tasks : c'.tasks = c.tasks)
    (failed : c'.failed = c.failed) : c'.Faithful r :=
  ⟨tasks ▸ h.tasks, failed ▸ h.failed⟩

theorem Failed.of_eq {c' : DocCache} (h : c.Failed p) (docs : c'.docs = c.docs)
    (register : c'.register = c.register) (failed : c'.failed = c.failed) : c'.Failed p := by
  refine ⟨?_, register ▸ h.unregistered, failed ▸ h.marked⟩
  show c'.docs.lookup p = none
  rw [docs]
  exact h.absent

/-- A task moved on to a stage whose text, if any, is the text of its file keeps the cache
faithful. -/
theorem Faithful.restage {t : LoadTask} (h : c.Faithful r) (id : Nat) (fresh : ReadsFresh r t)
    (rd : List ReadyStep) :
    ({ c with tasks := c.tasks.filter (·.id != id) ++ [t], ready := rd } : DocCache).Faithful r := by
  refine ⟨fun x mem => ?_, h.failed⟩
  rcases List.mem_append.1 mem with mem | mem
  · exact h.tasks x (List.mem_filter.1 mem).1
  · rw [List.mem_singleton.1 mem]
    exact fresh

/-- Waking the caller after a load ends keeps the cache faithful and a failed path failed,
when the cache the load left does. -/
theorem wake_faithful {c' : DocCache} {id : Nat} (h : c'.Faithful r)
    (stays : ∀ p, c.Failed p → c'.Failed p) :
    (if c'.waitingFor = some id then
        { c' with ready := c'.ready ++ [ReadyStep.wake], waitingFor := none } else c').Faithful r ∧
      ∀ p, c.Failed p → (if c'.waitingFor = some id then
        { c' with ready := c'.ready ++ [ReadyStep.wake], waitingFor := none } else c').Failed p := by
  split
  · exact ⟨h.of_eq rfl rfl, fun p failing => (stays p failing).of_eq rfl rfl rfl⟩
  · exact ⟨h, stays⟩

/-- A step of a load keeps the cache faithful, and a path that a poll cannot get stays so: a
load of that path can only fail again, and a load of another path neither stores its
document nor registers it. -/
theorem advance_faithful (h : c.Faithful r) (id : Nat) :
    (c.advance r id).Faithful r ∧ ∀ p, c.Failed p → (c.advance r id).Failed p := by
  unfold advance
  split
  · exact ⟨h, fun _ stays => stays⟩
  · rename_i t found
    have fresh := h.tasks t (List.mem_of_find?_eq_some found)
    split
    · -- the load reads its file
      exact ⟨h.restage id (by simp [ReadsFresh]) _, fun p stays => stays.of_eq rfl rfl rfl⟩
    · -- the text read is handed over
      rename_i text reading
      exact ⟨h.restage id (by simpa [ReadsFresh, reading] using fresh) _,
        fun p stays => stays.of_eq rfl rfl rfl⟩
    · -- the load parses what it read and ends
      rename_i text handed
      have read : text = readFresh r t.path := by simpa [ReadsFresh, handed] using fresh
      have others : ∀ x ∈ c.tasks.filter (·.id != id), ReadsFresh r x :=
        fun x mem => h.tasks x (List.mem_filter.1 mem).1
      refine wake_faithful ⟨fun x mem => others x ?_, fun q mem => ?_⟩ fun p stays => ⟨?_, ?_, ?_⟩
      · split at mem <;> simpa using mem
      · split at mem
        · exact h.failed q (by simpa using mem)
        · -- a new failure mark stands on the path of a load that could not parse its text
          rename_i unparsed
          rcases (mem_failed_markFailed _ _ _).1 mem with mem | rfl
          · exact h.failed q mem
          · rw [← read]
            exact unparsed
      · split
        · -- a document stored is never the document of a path marked failed
          rename_i d parsed
          have other : p ≠ t.path := by
            rintro rfl
            have := h.failed _ stays.marked
            rw [← read, parsed] at this
            cases this
          rw [get_withRegister, get_store, if_neg other, get_withTasks]
          exact stays.absent
        · rw [get_withRegister, get_markFailed, get_withTasks]
          exact stays.absent
      · simp only [lookup_filter_key]
        split
        · rfl
        · split <;> simpa using stays.unregistered
      · split
        · simpa using stays.marked
        · exact (mem_failed_markFailed _ _ _).2 (.inl stays.marked)

theorem Tracked.of_eq {c' : DocCache} (h : c.Tracked) (tasks : c'.tasks = c.tasks)
    (register : c'.register = c.register) (nextId : c'.nextId = c.nextId) : c'.Tracked := by
  refine ⟨?_, ?_, ?_⟩
  · rw [tasks]
    exact h.ids
  · rw [tasks, nextId]
    exact h.below
  · rw [tasks, register]
    exact h.live

/-- The task a ready step names is the only task with its number. -/
theorem Tracked.task_of_id {t x : LoadTask} {id : Nat} (h : c.Tracked)
    (found : c.tasks.find? (·.id == id) = some t) (mem : x ∈ c.tasks) (same : x.id = id) :
    x = t := by
  have named : t.id = id := by simpa using List.find?_some found
  exact List.inj_on_of_nodup_map h.ids mem (List.mem_of_find?_eq_some found)
    (same.trans named.symm)

/-- A task moved on to its next stage keeps its number and path, and so what is registered to
it. -/
theorem Tracked.restage {t : LoadTask} {id : Nat} (h : c.Tracked)
    (found : c.tasks.find? (·.id == id) = some t) (s : LoadStage) (rd : List ReadyStep) :
    ({ c with tasks := c.tasks.filter (·.id != id) ++ [{ t with stage := s }], ready := rd } :
      DocCache).Tracked := by
  have named : t.id = id := by simpa using List.find?_some found
  have task := List.mem_of_find?_eq_some found
  refine ⟨?_, ?_, ?_⟩
  · rw [List.map_append, List.nodup_append]
    refine ⟨h.ids.sublist (List.filter_sublist.map _), by simp, ?_⟩
    simp only [List.mem_map, List.mem_filter, List.mem_singleton, named]
    rintro _ ⟨x, ⟨_, other⟩, rfl⟩ _ ⟨_, rfl, rfl⟩ same
    simp [same] at other
  · intro x mem
    rcases List.mem_append.1 mem with mem | mem
    · exact h.below x (List.mem_filter.1 mem).1
    · rw [List.mem_singleton.1 mem]
      exact h.below t task
  · intro q i registered
    obtain ⟨x, mem, numbered, path⟩ := h.live q i registered
    by_cases same : x.id = id
    · -- the registered task is the one moved on
      obtain rfl := h.task_of_id found mem same
      exact ⟨{ x with stage := s }, by simp, numbered, path⟩
    · exact ⟨x, List.mem_append_left _ (List.mem_filter.2 ⟨mem, by simpa using same⟩),
        numbered, path⟩

/-- A load that ends takes its task away and unregisters its path: what stays registered is
registered to another task, which is still there. -/
theorem Tracked.finish {t : LoadTask} {id : Nat} (h : c.Tracked)
    (found : c.tasks.find? (·.id == id) = some t) :
    ({ c with tasks := c.tasks.filter (·.id != id),
              register := c.register.filter (·.1 != t.path) } : DocCache).Tracked := by
  refine ⟨h.ids.sublist (List.filter_sublist.map _),
    fun x mem => h.below x (List.mem_filter.1 mem).1, ?_⟩
  intro q i registered
  obtain ⟨registered, other⟩ := List.mem_filter.1 registered
  obtain ⟨x, mem, numbered, path⟩ := h.live q i registered
  refine ⟨x, List.mem_filter.2 ⟨mem, ?_⟩, numbered, path⟩
  have : x.id ≠ id := by
    rintro same
    obtain rfl := h.task_of_id found mem same
    simp [path] at other
  simpa using this

theorem advance_tracked (h : c.Tracked) (id : Nat) : (c.advance r id).Tracked := by
  unfold advance
  split
  · exact h
  · rename_i t found
    split
    · exact h.restage found _ _
    · exact h.restage found _ _
    · have ended := h.finish found
      dsimp only
      split_ifs
      · exact ended.of_eq (by split <;> simp) (by split <;> simp) (by split <;> simp)
      · exact ended.of_eq (by split <;> simp) (by split <;> simp) (by split <;> simp)

/-! ## Every operation keeps the invariant -/

theorem Sound.of_eq {c' : DocCache} (h : c.Sound r) (tasks : c'.tasks = c.tasks)
    (failed : c'.failed = c.failed) (register : c'.register = c.register)
    (nextId : c'.nextId = c.nextId) : c'.Sound r :=
  ⟨h.toFaithful.of_eq tasks failed, h.toTracked.of_eq tasks register nextId⟩

theorem advance_sound (h : c.Sound r) (id : Nat) : (c.advance r id).Sound r :=
  ⟨(advance_faithful h.toFaithful id).1, advance_tracked h.toTracked id⟩

/-- What each step of a run keeps, and reordering the ready steps keeps, the whole run keeps. -/
theorem runUntilWake_invariant {P : DocCache → Prop}
    (reorder : ∀ c rd, P c → P { c with ready := rd })
    (step : ∀ c id, P c → P (c.advance r id)) (fuel : Nat) (h : P c) :
    P (runUntilWake r fuel c) := by
  induction fuel generalizing c with
  | zero => exact h
  | succ fuel ih =>
    rw [runUntilWake]
    split
    · exact h
    · exact reorder c _ h
    · exact ih (reorder c _ h)
    · exact ih (step _ _ (reorder c _ h))

theorem runUntilWake_sound (fuel : Nat) (h : c.Sound r) : (runUntilWake r fuel c).Sound r :=
  runUntilWake_invariant (P := fun c => c.Sound r) (fun _ _ h => h.of_eq rfl rfl rfl rfl)
    (fun _ id h => advance_sound h id) fuel h

theorem yieldOnce_sound (h : c.Sound r) : (c.yieldOnce r).Sound r :=
  runUntilWake_sound _ (h.of_eq rfl rfl rfl rfl)

/-- A load queued for a path gets the next number, and the path is registered to it. -/
theorem hasPending_sound (h : c.Sound r) (p : String) : (c.hasPending p).2.Sound r := by
  unfold hasPending
  split
  · exact h
  split
  · exact h
  refine ⟨⟨fun t mem => ?_, h.failed⟩, ⟨?_, fun t mem => ?_, fun q i registered => ?_⟩⟩
  · rcases List.mem_append.1 mem with mem | mem
    · exact h.tasks t mem
    · rw [List.mem_singleton.1 mem]
      trivial
  · rw [List.map_append, List.nodup_append]
    refine ⟨h.ids, by simp, ?_⟩
    simp only [List.mem_map, List.mem_singleton]
    rintro _ ⟨t, mem, rfl⟩ _ ⟨_, rfl, rfl⟩
    exact Nat.ne_of_lt (h.below t mem)
  · rcases List.mem_append.1 mem with mem | mem
    · exact Nat.lt_succ_of_lt (h.below t mem)
    · rw [List.mem_singleton.1 mem]
      exact Nat.lt_succ_self _
  · rcases List.mem_append.1 registered with registered | registered
    · obtain ⟨t, mem, numbered, path⟩ := h.live q i (List.mem_filter.1 registered).1
      exact ⟨t, List.mem_append_left _ mem, numbered, path⟩
    · obtain ⟨rfl, rfl⟩ := Prod.mk.inj (List.mem_singleton.1 registered)
      exact ⟨_, List.mem_append_right _ (List.mem_singleton_self _), rfl, rfl⟩

theorem waitPending_sound (h : c.Sound r) (p : String) : (c.waitPending r p).Sound r := by
  unfold waitPending
  split
  · exact h
  · exact runUntilWake_sound _ (h.of_eq rfl rfl rfl rfl)

/-- Dropping a failure mark keeps the invariant: the marks left still agree with the files. -/
theorem Sound.unmark (h : c.Sound r) : { c with failed := c.failed.filter (· != p) }.Sound r :=
  ⟨⟨h.tasks, fun q mem => h.failed q (List.mem_filter.1 mem).1⟩, h.toTracked.of_eq rfl rfl rfl⟩

theorem forceRefresh_sound (h : c.Sound r) (p : String) : (c.forceRefresh r p).2.Sound r := by
  unfold forceRefresh
  dsimp only
  have ran : (runUntilWake r ({ c with failed := c.failed.filter (· != p) }.stepBound + 1)
      { c with failed := c.failed.filter (· != p),
               ready := c.ready ++ [ReadyStep.handOver] }).Sound r :=
    runUntilWake_sound _ (h.unmark.of_eq rfl rfl rfl rfl)
  split
  · exact ran
  · split
    · exact ran.of_eq rfl rfl rfl rfl
    · exact ran

theorem invalidate_sound (h : c.Sound r) (p : String) : (c.invalidate p).Sound r :=
  ⟨⟨h.tasks, fun q mem => h.failed q (List.mem_filter.1 mem).1⟩,
    ⟨h.ids, h.below, fun q i registered => h.live q i (List.mem_filter.1 registered).1⟩⟩

theorem Reachable.sound (h : c.Reachable r) : c.Sound r := by
  induction h with
  | empty => exact ⟨⟨nofun, nofun⟩, ⟨List.nodup_nil, nofun, nofun⟩⟩
  | hasPending p _ ih => exact hasPending_sound ih p
  | waitPending p _ ih => exact waitPending_sound ih p
  | forceRefresh p _ ih => exact forceRefresh_sound ih p
  | invalidate p _ ih => exact invalidate_sound ih p
  | yieldOnce _ ih => exact yieldOnce_sound ih

/-! ## A failed path stays failed while the caller sleeps -/

/-- Sleeping lets the ready loads run; none of them stores a document of a failed path or
registers it. -/
theorem yieldOnce_failed (h : c.Faithful r) (failing : c.Failed p) :
    (c.yieldOnce r).Faithful r ∧ (c.yieldOnce r).Failed p :=
  runUntilWake_invariant (P := fun c => c.Faithful r ∧ c.Failed p)
    (fun _ _ ⟨faithful, failing⟩ => ⟨faithful.of_eq rfl rfl, failing.of_eq rfl rfl rfl⟩)
    (fun _ id ⟨faithful, failing⟩ => ⟨(advance_faithful faithful id).1,
      (advance_faithful faithful id).2 p failing⟩)
    _ ⟨h.of_eq rfl rfl, failing.of_eq rfl rfl rfl⟩

/-- Asking whether a failed path is pending changes nothing: it is not. -/
theorem hasPending_of_failed (failing : c.Failed p) : c.hasPending p = (false, c) := by
  have marked : c.failed.contains p = true := List.contains_iff_mem.2 failing.marked
  unfold hasPending
  rw [if_neg (by simp [failing.unregistered]), if_pos (by rw [marked, Bool.or_true])]

/-- Asking whether any other path is pending settles the poll: a load of it is pending, or
its document is there. -/
theorem hasPending_settles (notFailed : c.onlyFailed p = false) :
    ((c.hasPending p).1 || ((c.hasPending p).2.get p).isSome) = true := by
  unfold hasPending
  split
  · rfl
  split
  · rename_i unregistered heldOrMarked
    cases held : c.get p with
    | some d => rfl
    | none =>
      have unheld : (c.docs.lookup p).isSome = false := by
        rw [show c.docs.lookup p = c.get p from rfl, held]
        rfl
      have marked : p ∈ c.failed := by simpa [unheld] using heldOrMarked
      have failing : c.Failed p := ⟨held, Option.not_isSome_iff_eq_none.1 unregistered, marked⟩
      rw [failed_iff_onlyFailed.1 failing] at notFailed
      cases notFailed
  · rfl

end DocCache

/-- A tree without files opens nothing, whatever the path. -/
theorem Disk.readText?_of_no_files {d : Disk} (empty : d.files = []) (cwd p : String) :
    d.readText? cwd p = none := by
  have opened : d.open? cwd p = none := by
    unfold Disk.open?
    dsimp only
    generalize d.walkNames _ _ = walked
    cases walked with
    | none => rfl
    | some target =>
      dsimp only
      split
      · rfl
      · split <;> simp [empty]
  simp [Disk.readText?, opened]

namespace Outline

open DocCache

variable {g : Gathering} {c : DocCache} {p : String}

/-- Polling a failed path sleeps at every poll, since the path stays failed, and forces a read
after the last. -/
theorem pollDocument_failed_path (h : c.Faithful g.reading) (failing : c.Failed p) (n : Nat) :
    pollDocument g p (n + 1) c =
      (((DocCache.yieldOnce g.reading)^[n + 1] c).forceRefresh g.reading p).2 := by
  induction n generalizing c with
  | zero => simp [pollDocument, hasPending_of_failed failing, failing.absent]
  | succ n ih =>
    obtain ⟨faithful, stays⟩ := yieldOnce_failed h failing
    rw [pollDocument]
    simp only [hasPending_of_failed failing, failing.absent, Option.isSome_none, Bool.or_false,
      Bool.false_eq_true, if_false]
    rw [ih faithful stays, ← Function.iterate_succ_apply]

/-- Polling any other path ends at the first poll. -/
theorem pollDocument_settled_path (notFailed : c.onlyFailed p = false) (n : Nat) :
    pollDocument g p (n + 1) c = (c.hasPending p).2 := by
  have settles := hasPending_settles notFailed
  rw [pollDocument]
  generalize c.hasPending p = polled at settles ⊢
  obtain ⟨pending, polled⟩ := polled
  dsimp only at settles ⊢
  rw [if_pos settles]

/-- How a document without unsaved text is loaded, from every cache the cache operations
reach: the register names only unfinished loads, and the load sleeps and forces a read only
for a path that holds no document, has no registered load and is marked failed. It then sleeps
`max attempts 1` times and forces one read; any other path is obtained by one question whether
its load is pending and the wait for that load. -/
theorem loadDocument_forces_only_failed (reachable : c.Reachable g.reading)
    (saved : g.unsaved.lookup p = none) :
    c.Tracked ∧
      loadDocument g p c =
        let polled := if c.onlyFailed p then
            (((DocCache.yieldOnce g.reading)^[max g.attempts 1] c).forceRefresh g.reading p).2
          else (c.hasPending p).2
        ((polled.waitPending g.reading p).get p, polled.waitPending g.reading p) := by
  have sound := reachable.sound
  refine ⟨sound.toTracked, ?_⟩
  obtain ⟨n, attempts⟩ : ∃ n, max g.attempts 1 = n + 1 := ⟨max g.attempts 1 - 1, by omega⟩
  simp only [loadDocument, saved, attempts]
  cases failing : c.onlyFailed p with
  | true =>
    rw [pollDocument_failed_path sound.toFaithful (failed_iff_onlyFailed.2 failing)]
    rfl
  | false =>
    rw [pollDocument_settled_path failing]
    rfl

/-- A run over a tree with no files, polling twice before it forces a read. -/
def pollingTwice : Gathering :=
  { reading := ⟨⟨["/"], []⟩, "/", Markup.Grammar.standard⟩
    cfg := ⟨[], [], [], [], true, false, false, false⟩
    rootFile := "/main.tex"
    unsaved := []
    attempts := 2 }

/-- The cache after a load of a missing file has run to its end: the path is marked failed. -/
def missingLoaded : DocCache :=
  (DocCache.empty.hasPending "/main.tex").2.waitPending pollingTwice.reading "/main.tex"

theorem missingLoaded_onlyFailed : missingLoaded.onlyFailed "/main.tex" = true := by
  have unread := Disk.readText?_of_no_files (d := pollingTwice.reading.disk) rfl
  simp [missingLoaded, DocCache.waitPending, DocCache.hasPending, DocCache.empty,
    DocCache.runUntilWake, DocCache.stepBound, DocCache.advance, unread, DocCache.parseRead,
    DocCache.markFailed, DocCache.onlyFailed, DocCache.get]

theorem missingLoaded_load_forced :
    missingLoaded.Reachable pollingTwice.reading ∧ pollingTwice.unsaved.lookup "/main.tex" = none ∧
      missingLoaded.onlyFailed "/main.tex" = true ∧ missingLoaded.Tracked ∧
      loadDocument pollingTwice "/main.tex" missingLoaded =
        let polled := if missingLoaded.onlyFailed "/main.tex" then
            (((DocCache.yieldOnce pollingTwice.reading)^[max pollingTwice.attempts 1]
              missingLoaded).forceRefresh pollingTwice.reading "/main.tex").2
          else (missingLoaded.hasPending "/main.tex").2
        ((polled.waitPending pollingTwice.reading "/main.tex").get "/main.tex",
          polled.waitPending pollingTwice.reading "/main.tex") :=
  ⟨.waitPending _ (.hasPending _ .empty), rfl, missingLoaded_onlyFailed,
    loadDocument_forces_only_failed (.waitPending _ (.hasPending _ .empty)) rfl⟩

/-- A load of a missing file overtaken by a newer one: the first load reads, the path is
dropped, a second load is queued, and the first load ends, marking the path failed and
unregistering it while the second load is still running. -/
def overtakenLoad : DocCache :=
  let r := pollingTwice.reading
  ((((DocCache.empty.hasPending "/main.tex").2.yieldOnce r).invalidate "/main.tex"
    |>.hasPending "/main.tex").2.yieldOnce r).yieldOnce r

example : overtakenLoad.Reachable pollingTwice.reading ∧
    overtakenLoad.tasks.map (·.path) = ["/main.tex"] ∧
    overtakenLoad.onlyFailed "/main.tex" = true := by
  have unread := Disk.readText?_of_no_files (d := pollingTwice.reading.disk) rfl
  refine ⟨.yieldOnce (.yieldOnce (.hasPending _ (.invalidate _ (.yieldOnce (.hasPending _ .empty))))),
    ?_⟩
  simp [overtakenLoad, DocCache.yieldOnce, DocCache.invalidate, DocCache.hasPending,
    DocCache.empty, DocCache.runUntilWake, DocCache.stepBound, DocCache.advance, unread,
    DocCache.parseRead, DocCache.markFailed, DocCache.onlyFailed, DocCache.get]

end Outline

end TexToc
