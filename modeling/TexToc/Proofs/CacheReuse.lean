import TexToc.Proofs.OutlineFailures

/-!
# Reusing the document cache

A session keeps its document cache from one outline request to the next: the documents it
has read, the loads it queued and the paths whose reading failed. None of this changes an
outline, as long as the files do not change.

A cache is *settled* when no load is queued or running and every document it holds is the
one that reading and parsing its file now gives. Every request leaves the cache settled, also
a request whose run stops on a path that does not resolve and keeps what it read before, and
from a settled cache a document is loaded by one of three routes: a held document is used as
it is, a path marked failed is read again by force, and any other path is loaded by a queued
load that the request waits for. Each route gives the document that a fresh read gives, which
is what an empty cache gives. A run then gathers the same forests from any settled cache, and
every request of a session answers as the same request on a fresh session does.

* `DocCache.Settled`: the cache at rest.
* `loadDocument_settled`: a load from a settled cache gives what an empty cache gives.
* `gather_settled`: gathering from two settled caches gives the same forests, or stops on the
  same failure, and leaves settled caches.
* `outlines_eq_fresh`: a sequence of requests answers request by request as a fresh session.
-/

namespace TexToc

open Outline Markup

namespace DocCache

variable {r : Reading} {c : DocCache} {p : String}

/-- A cache at rest: no load queued, running or registered, no step ready, nobody waiting,
and every document it holds is the one that reading and parsing its file now gives. -/
structure Settled (r : Reading) (c : DocCache) : Prop where
  tasks : c.tasks = []
  ready : c.ready = []
  register : c.register = []
  waiting : c.waitingFor = none
  fresh : ∀ p d, c.get p = some d → parseRead r (r.disk.readText? r.cwd p) = some d

theorem settled_empty (r : Reading) : empty.Settled r :=
  ⟨rfl, rfl, rfl, rfl, fun _ _ held => by simp [get, empty] at held⟩

/-- Looking up a key after dropping the entries of another key. -/
theorem lookup_filter_key {α : Type} (l : List (String × α)) (p q : String) :
    (l.filter (·.1 != p)).lookup q = if q = p then none else l.lookup q := by
  induction l with
  | nil => simp
  | cons x rest ih =>
    obtain ⟨k, v⟩ := x
    rw [List.filter_cons]
    by_cases kept : k = p
    · -- the entry is dropped
      rw [if_neg (by simp [kept]), ih]
      by_cases same : q = p
      · simp [same]
      · rw [if_neg same, if_neg same, List.lookup_cons,
          beq_false_of_ne (show q ≠ k by rw [kept]; exact same)]
    · rw [if_pos (by simp [kept]), List.lookup_cons, List.lookup_cons, ih]
      by_cases found : q = k
      · subst found
        simp [kept]
      · simp [beq_false_of_ne found]

theorem get_store (c : DocCache) (p q : String) (d : Document) :
    (c.store p d).get q = if q = p then some d else c.get q := by
  simp only [get, store, List.lookup_append, lookup_filter_key]
  by_cases same : q = p
  · simp [same]
  · have other : [(p, d)].lookup q = none := by simp [List.lookup, beq_false_of_ne same]
    simp [same, other]

/-- A settled cache with a fresh document stored, or a path marked failed, stays settled. -/
theorem Settled.store (h : c.Settled r) {d : Document}
    (fresh : parseRead r (r.disk.readText? r.cwd p) = some d) : (c.store p d).Settled r := by
  refine ⟨h.tasks, h.ready, h.register, h.waiting, fun q e held => ?_⟩
  rw [get_store] at held
  by_cases same : q = p
  · subst same
    simp only [if_true, Option.some.injEq] at held
    rw [← held]
    exact fresh
  · rw [if_neg same] at held
    exact h.fresh q e held

theorem Settled.markFailed (h : c.Settled r) : (c.markFailed p).Settled r := by
  unfold DocCache.markFailed
  split
  · exact h
  · exact ⟨h.tasks, h.ready, h.register, h.waiting, h.fresh⟩

/-- Letting the ready steps of a settled cache run changes nothing: there are none. -/
theorem yieldOnce_of_settled (h : c.Settled r) : c.yieldOnce r = c := by
  rcases c with ⟨docs, failed, register, tasks, ready, nextId, waitingFor⟩
  obtain ⟨_, hready, _, _, _⟩ := h
  dsimp only at hready
  subst hready
  simp [yieldOnce, runUntilWake]

/-- The text of a path on disk, as a load reads it. -/
abbrev readFresh (r : Reading) (p : String) : Option String :=
  r.disk.readText? r.cwd p

/-- A forced read of a path, on a settled cache, reads and parses at once: the document is
stored if there is one, and the path's failure mark is dropped either way. -/
theorem forceRefresh_of_settled (h : c.Settled r) :
    (c.forceRefresh r p).2 =
      match parseRead r (readFresh r p) with
      | some d => { c with failed := c.failed.filter (· != p) }.store p d
      | none => { c with failed := c.failed.filter (· != p) } := by
  rcases c with ⟨docs, failed, register, tasks, ready, nextId, waitingFor⟩
  obtain ⟨htasks, hready, _, _, _⟩ := h
  dsimp only at htasks hready
  subst htasks hready
  unfold forceRefresh
  cases text : r.disk.readText? r.cwd p with
  | none => simp [runUntilWake, stepBound, parseRead, text]
  | some t =>
    cases parsed : parse r.grammar t <;> simp [runUntilWake, stepBound, parseRead, text, parsed]

/-- A load queued on a settled cache and waited for runs to its end: the document read is
stored, or the path marked failed, and nothing is left queued. -/
theorem waitPending_hasPending (h : c.Settled r) (notHeld : c.get p = none)
    (notFailed : c.failed.contains p = false) :
    ((c.hasPending p).2.waitPending r p) =
      match parseRead r (readFresh r p) with
      | some d => { c with nextId := c.nextId + 1 }.store p d
      | none => { c with nextId := c.nextId + 1 }.markFailed p := by
  rcases c with ⟨docs, failed, register, tasks, ready, nextId, waitingFor⟩
  obtain ⟨htasks, hready, hregister, hwaiting, _⟩ := h
  dsimp only at htasks hready hregister hwaiting
  subst htasks hready hregister hwaiting
  simp only [get] at notHeld
  have unmarked : p ∉ failed := by simpa using notFailed
  cases fresh : parseRead r (readFresh r p) <;>
    simp [hasPending, waitPending, runUntilWake, stepBound, advance, notHeld, unmarked, fresh,
      store, markFailed]

theorem Settled.unmark (h : c.Settled r) : { c with failed := c.failed.filter (· != p) }.Settled r :=
  ⟨h.tasks, h.ready, h.register, h.waiting, h.fresh⟩

theorem Settled.bumpId (h : c.Settled r) : { c with nextId := c.nextId + 1 }.Settled r :=
  ⟨h.tasks, h.ready, h.register, h.waiting, h.fresh⟩

/-- Waiting on a settled cache waits for nothing. -/
theorem waitPending_of_settled (h : c.Settled r) : c.waitPending r p = c := by
  simp [waitPending, h.register]

@[simp] theorem get_markFailed (c : DocCache) (p q : String) : (c.markFailed p).get q = c.get q := by
  unfold DocCache.markFailed
  split <;> rfl

/-- A read into a settled cache that held no document of the path leaves the cache settled and
holding the document a fresh read gives: the document is stored if there is one, and
otherwise the cache falls back to a settled one without it. -/
theorem Settled.of_read {fallback : DocCache} (h : c.Settled r) (settledFallback : fallback.Settled r)
    (notHeld : fallback.get p = none) :
    (match parseRead r (readFresh r p) with
      | some d => c.store p d
      | none => fallback).Settled r ∧
    (match parseRead r (readFresh r p) with
      | some d => c.store p d
      | none => fallback).get p = parseRead r (readFresh r p) := by
  cases fresh : parseRead r (readFresh r p) with
  | none => exact ⟨settledFallback, notHeld⟩
  | some d => exact ⟨h.store fresh, by simp [get_store]⟩

end DocCache

namespace Outline

open DocCache

variable {g : Gathering} {p : String} {c : DocCache}

/-- Polling a settled cache that holds the path's document finds it at once. -/
theorem pollDocument_of_held (h : c.Settled g.reading) (held : (c.get p).isSome) (n : Nat) :
    pollDocument g p (n + 1) c = c := by
  have unpending : c.hasPending p = (false, c) := by
    simp only [DocCache.get] at held
    simp [hasPending, h.register, held]
  simp [pollDocument, unpending, held]

/-- Polling a settled cache that holds no document of a path marked failed finds nothing, and
ends in a forced read. -/
theorem pollDocument_of_failed (h : c.Settled g.reading) (notHeld : c.get p = none)
    (marked : c.failed.contains p = true) (n : Nat) :
    pollDocument g p (n + 1) c = (c.forceRefresh g.reading p).2 := by
  have unpending : c.hasPending p = (false, c) := by
    have member : p ∈ c.failed := by simpa using marked
    simp only [DocCache.get] at notHeld
    simp [hasPending, h.register, member]
  induction n with
  | zero => simp [pollDocument, unpending, notHeld, yieldOnce_of_settled h]
  | succ n ih =>
    rw [pollDocument]
    simp only [unpending, notHeld, yieldOnce_of_settled h]
    exact ih

/-- Polling a settled cache for a path neither held nor failed queues its load. -/
theorem pollDocument_of_new (h : c.Settled g.reading) (notHeld : c.get p = none)
    (unmarked : c.failed.contains p = false) (n : Nat) :
    pollDocument g p (n + 1) c = (c.hasPending p).2 := by
  have pending : (c.hasPending p).1 = true := by
    have notMember : p ∉ c.failed := by simpa using unmarked
    simp only [DocCache.get] at notHeld
    simp [hasPending, h.register, notHeld, notMember]
  rw [pollDocument]
  simp [pending]

/-- Loading a file without unsaved text from a settled cache gives the document a fresh read
gives, and leaves the cache settled. -/
theorem loadDocument_of_saved (h : c.Settled g.reading) (saved : g.unsaved.lookup p = none) :
    (loadDocument g p c).1 = parseRead g.reading (readFresh g.reading p) ∧
      (loadDocument g p c).2.Settled g.reading := by
  obtain ⟨n, attempts⟩ : ∃ n, max g.attempts 1 = n + 1 := ⟨max g.attempts 1 - 1, by omega⟩
  simp only [loadDocument, saved, attempts]
  cases held : c.get p with
  | some d =>
    rw [pollDocument_of_held h (by simp [held]), waitPending_of_settled h, held]
    exact ⟨(h.fresh p d held).symm, h⟩
  | none =>
    cases marked : c.failed.contains p with
    | true =>
      rw [pollDocument_of_failed h held marked, forceRefresh_of_settled h]
      obtain ⟨settled, found⟩ := (h.unmark (p := p)).of_read (p := p) h.unmark
        (by simpa [DocCache.get] using held)
      rw [waitPending_of_settled settled]
      exact ⟨found, settled⟩
    | false =>
      rw [pollDocument_of_new h held marked, waitPending_hasPending h held marked]
      obtain ⟨settled, found⟩ := h.bumpId.of_read (p := p) (h.bumpId.markFailed (p := p))
        (by rw [get_markFailed]; exact held)
      exact ⟨found, settled⟩

/-- Loading from a settled cache gives the document that loading from an empty cache gives,
and leaves the cache settled. -/
theorem loadDocument_settled (h : c.Settled g.reading) :
    (loadDocument g p c).1 = (loadDocument g p .empty).1 ∧
      (loadDocument g p c).2.Settled g.reading := by
  cases saved : g.unsaved.lookup p with
  | some text =>
    cases parsed : parse g.reading.grammar text <;> exact ⟨by simp [loadDocument, saved, parsed],
      by simpa [loadDocument, saved, parsed] using h⟩
  | none =>
    obtain ⟨found, settled⟩ := loadDocument_of_saved h saved
    exact ⟨found.trans (loadDocument_of_saved (settled_empty g.reading) saved).1.symm, settled⟩

/-! ## Runs in lockstep -/

/-- Two outcomes of the same step from two starting points agree: the same failure met in
runs related by `R`, or results related by `S`. -/
def Lockstep {α : Type} (R : Run → Run → Prop) (S : α → α → Prop) :
    Except (Failure × Run) α → Except (Failure × Run) α → Prop
  | .error (e, run), .error (e', run') => e = e' ∧ R run run'
  | .ok a, .ok a' => S a a'
  | _, _ => False

section Lockstep

variable {α : Type} {R : Run → Run → Prop} {S : α → α → Prop}

theorem Lockstep.cases {x y : Except (Failure × Run) α} (h : Lockstep R S x y) :
    (∃ e run run', x = .error (e, run) ∧ y = .error (e, run') ∧ R run run') ∨
      ∃ a b, x = .ok a ∧ y = .ok b ∧ S a b := by
  rcases x with ⟨e, run⟩ | a <;> rcases y with ⟨e', run'⟩ | b
  · obtain ⟨rfl, related⟩ := h
    exact .inl ⟨e, run, run', rfl, rfl, related⟩
  · cases h
  · cases h
  · exact .inr ⟨a, b, rfl, rfl, h⟩

theorem Lockstep.error {e : Failure} {run run' : Run} (h : R run run') :
    Lockstep R S (.error (e, run) : Except (Failure × Run) α) (.error (e, run')) := ⟨rfl, h⟩

theorem Lockstep.ok {a b : α} (h : S a b) :
    Lockstep R S (.ok a : Except (Failure × Run) α) (.ok b) := h

end Lockstep

section Walk

variable (g : Gathering) (file : String) {sub : String → Run → Except (Failure × Run) Run}
  {R : Run → Run → Prop}
  (subAgree : ∀ p run run', R run run' → Lockstep R R (sub p run) (sub p run'))
include subAgree

/-- The entry of a command is the same from two related runs, and the runs after it stay
related. -/
theorem commandEntry_lockstep {pl : Place} {name : String} {args : List Arg} {run run' : Run}
    (h : R run run') :
    Lockstep R (fun a b => a.1 = b.1 ∧ R a.2 b.2) (commandEntry g file sub pl name args run)
      (commandEntry g file sub pl name args run') := by
  unfold commandEntry
  dsimp only
  split
  · exact .ok ⟨rfl, h⟩
  · split
    · exact .ok ⟨rfl, h⟩
    · split
      · exact .error h
      · exact .ok ⟨rfl, h⟩
      · rename_i sf raw _
        split
        · rcases (subAgree sf run run' h).cases with
            ⟨e, stop, stop', failed, failed', agree⟩ | ⟨run₁, run₁', sub₁, sub₁', agree⟩
          · simp only [failed, failed', Except.map]
            exact .error agree
          · simpa [sub₁, sub₁', Except.map, Lockstep] using agree
        · exact .ok ⟨rfl, h⟩

theorem nodeEntry_lockstep (pl : Place) (n : Node) {run run' : Run} (h : R run run') :
    Lockstep R (fun a b => a.1 = b.1 ∧ R a.2 b.2) (nodeEntry g file sub pl n run)
      (nodeEntry g file sub pl n run') := by
  unfold nodeEntry
  split
  · exact commandEntry_lockstep g file subAgree h
  · exact .ok ⟨rfl, h⟩
  · split <;> exact .ok ⟨rfl, h⟩
  · exact .ok ⟨rfl, h⟩

/-- Child documents are placed alike from two related runs. -/
theorem placeChunks_lockstep (pl : Place) (chunks : List ChildChunk) {run run' : Run}
    (h : R run run') :
    Lockstep R (fun a b => a.1 = b.1 ∧ a.2.1 = b.2.1 ∧ R a.2.2 b.2.2)
      (placeChunks g file sub pl chunks run) (placeChunks g file sub pl chunks run') := by
  induction chunks generalizing run run' with
  | nil => exact .ok ⟨rfl, rfl, h⟩
  | cons c rest ih =>
    unfold placeChunks
    split
    · dsimp only
      have gathered : Lockstep R R (if g.cfg.mergeIncluded then sub c.file run else .ok run)
          (if g.cfg.mergeIncluded then sub c.file run' else .ok run') := by
        split
        · exact subAgree _ _ _ h
        · exact .ok h
      rcases gathered.cases with
        ⟨e, stop, stop', failed, failed', agree⟩ | ⟨run₁, run₁', sub₁, sub₁', agree⟩
      · rw [failed, failed']
        exact .error agree
      · rw [sub₁, sub₁']
        dsimp only
        rcases (ih agree).cases with
          ⟨e, stop, stop', failed, failed', agree₂⟩ |
          ⟨⟨es, left, run₂⟩, ⟨es', left', run₂'⟩, placed, placed', same, sameLeft, agree₂⟩
        · rw [failed, failed']
          exact .error agree₂
        · rw [placed, placed']
          dsimp only at same sameLeft agree₂ ⊢
          subst same sameLeft
          exact .ok ⟨rfl, rfl, agree₂⟩
    · exact .ok ⟨rfl, rfl, h⟩

omit subAgree

/-- What the walk needs of two related runs to walk them alike. -/
abbrev WalkAgree (R : Run → Run → Prop) : List Entry × WalkState → List Entry × WalkState → Prop :=
  fun a b => a.1 = b.1 ∧ a.2.pending = b.2.pending ∧ R a.2.run b.2.run

mutual

/-- The walk of a node gives the same entries and child documents from two related runs, and
keeps them related. -/
theorem walkNode_lockstep
    (subAgree : ∀ p run run', R run run' → Lockstep R R (sub p run) (sub p run'))
    (idx : Text.LineIndex) (n : Node) (pending : List ChildChunk) {run run' : Run}
    (h : R run run') :
    Lockstep R (WalkAgree R) (walkNode g file sub idx n ⟨run, pending⟩)
      (walkNode g file sub idx n ⟨run', pending⟩) := by
  rw [walkNode, walkNode, walkWith, walkWith]
  rcases (nodeEntry_lockstep g file subAgree (placeOf idx n) n h).cases with
    ⟨e, stop, stop', failed, failed', agree⟩ | ⟨⟨own, run₁⟩, ⟨own', run₁'⟩, entry, entry', same, agree₁⟩
  · simp only [failed, failed']
    exact .error agree
  · simp only [entry, entry']
    dsimp only at same agree₁
    subst same
    rcases (placeChunks_lockstep g file subAgree (placeOf idx n) pending agree₁).cases with
      ⟨e, stop, stop', failed, failed', agree⟩ | ⟨⟨chunks, left, run₂⟩, ⟨chunks', left', run₂'⟩,
        placed, placed', sameChunks, sameLeft, agree₂⟩
    · simp only [failed, failed']
      exact .error agree
    · simp only [placed, placed']
      dsimp only at sameChunks sameLeft agree₂
      subst sameChunks sameLeft
      rcases (walkNodes_lockstep subAgree idx n.body left agree₂).cases with
        ⟨e, stop, stop', failed, failed', agree⟩ |
        ⟨⟨es, st⟩, ⟨es', st'⟩, walked, walked', same, samePending, agree₃⟩
      · simp only [failed, failed']
        exact .error agree
      · simp only [walked, walked']
        dsimp only at same samePending agree₃
        subst same
        split <;> exact .ok ⟨rfl, samePending, agree₃⟩
termination_by 2 * sizeOf n + 1
decreasing_by have := Node.sizeOf_body_le n; omega

/-- The walk of a sequence of nodes gives the same entries from two related runs. -/
theorem walkNodes_lockstep
    (subAgree : ∀ p run run', R run run' → Lockstep R R (sub p run) (sub p run'))
    (idx : Text.LineIndex) (ns : List Node) (pending : List ChildChunk) {run run' : Run}
    (h : R run run') :
    Lockstep R (WalkAgree R) (walkNodes g file sub idx ns ⟨run, pending⟩)
      (walkNodes g file sub idx ns ⟨run', pending⟩) := by
  match ns with
  | [] =>
    rw [walkNodes, walkNodes]
    exact .ok ⟨rfl, rfl, h⟩
  | n :: ns =>
    rw [walkNodes, walkNodes]
    rcases (walkNode_lockstep subAgree idx n pending h).cases with
      ⟨e, stop, stop', failed, failed', agree⟩ |
      ⟨⟨es, st⟩, ⟨es', st'⟩, walked, walked', same, samePending, agree₁⟩
    · simp only [failed, failed']
      exact .error agree
    · simp only [walked, walked']
      dsimp only at same samePending agree₁
      subst same
      obtain ⟨run₁, left⟩ := st
      obtain ⟨run₁', left'⟩ := st'
      dsimp only at samePending agree₁
      subst samePending
      rcases (walkNodes_lockstep subAgree idx ns left agree₁).cases with
        ⟨e, stop, stop', failed, failed', agree⟩ |
        ⟨⟨more, st₂⟩, ⟨more', st₂'⟩, rest, rest', same, samePending, agree₂⟩
      · simp only [failed, failed']
        exact .error agree
      · simp only [rest, rest']
        dsimp only at same samePending agree₂
        subst same
        exact .ok ⟨rfl, samePending, agree₂⟩
termination_by 2 * sizeOf ns
decreasing_by
  all_goals simp only [List.cons.sizeOf_spec]
  all_goals omega

end

end Walk

/-! ## Gathering from settled caches -/

/-- Two runs with the same forests and settled caches. -/
structure Run.Agree (r : Reading) (run run' : Run) : Prop where
  forests : run.forests = run'.forests
  settled : run.cache.Settled r
  settled' : run'.cache.Settled r

theorem Run.Agree.setForest {r : Reading} {run run' : Run} (h : run.Agree r run') (p : String)
    (es : List Entry) : (run.setForest p es).Agree r (run'.setForest p es) :=
  ⟨by simp [Run.setForest, h.forests], h.settled, h.settled'⟩

/-- Gathering a file from two runs with the same forests and settled caches fails alike or
gives the same forests, and leaves settled caches either way: each file's document is the one
a fresh read gives, whichever route the cache takes to it. -/
theorem gatherFile_settled (g : Gathering) (depth : Nat) (p : String) {run run' : Run}
    (h : run.Agree g.reading run') :
    Lockstep (Run.Agree g.reading) (Run.Agree g.reading) (gatherFile g depth p run)
      (gatherFile g depth p run') := by
  induction depth generalizing p run run' with
  | zero => exact .ok h
  | succ depth ih =>
    rw [gatherFile, gatherFile, ← h.forests]
    split
    · exact .ok h
    · dsimp only
      obtain ⟨sameDoc, settled⟩ := loadDocument_settled (p := p) h.settled
      obtain ⟨sameDoc', settled'⟩ := loadDocument_settled (p := p) h.settled'
      rcases loaded : loadDocument g p run.cache with ⟨doc, cache⟩
      rcases loaded' : loadDocument g p run'.cache with ⟨doc', cache'⟩
      rw [loaded] at sameDoc settled
      rw [loaded'] at sameDoc' settled'
      obtain rfl : doc = doc' := sameDoc.trans sameDoc'.symm
      have agree : Run.Agree g.reading { run with forests := run.forests ++ [(p, [])], cache }
          { run' with forests := run.forests ++ [(p, [])], cache := cache' } :=
        ⟨rfl, settled, settled'⟩
      dsimp only
      cases doc with
      | none => exact .ok agree
      | some d =>
        dsimp only
        split
        · exact .error agree
        · rename_i chunks _
          rcases (walkNodes_lockstep g p (fun q run run' h => ih q h)
              (Text.LineIndex.ofChars d.content.toList.toArray) d.nodes chunks agree).cases
            with ⟨e, stop, stop', failed, failed', agree₁⟩ |
              ⟨⟨es, st⟩, ⟨es', st'⟩, walked, walked', same, -, agree₁⟩
          · simp only [failed, failed']
            exact .error agree₁
          · simp only [walked, walked']
            dsimp only at same agree₁
            subst same
            exact .ok (agree₁.setForest p es)

theorem gather_settled (g : Gathering) (p : String) {run run' : Run}
    (h : run.Agree g.reading run') :
    Lockstep (Run.Agree g.reading) (Run.Agree g.reading) (gather g p run) (gather g p run') :=
  gatherFile_settled g _ p h

end Outline

/-! ## Requests of a session -/

namespace Session

theorem gathering_withCache (s : Session) (c : DocCache) (cfg : Config) (target : String) :
    ({ s with cache := c } : Session).gathering cfg target = s.gathering cfg target := rfl

/-- An outline request on a session with a settled cache answers as the same request on the
session with an empty cache, and leaves the session as it was but for a settled cache, whether
its run succeeds or fails. -/
theorem outline_of_settled {s : Session} (h : s.cache.Settled s.reading) (file : Option String)
    (merge : Bool) :
    (s.outline file merge).1 = (({ s with cache := .empty } : Session).outline file merge).1 ∧
      ∃ c, (s.outline file merge).2 = { s with cache := c } ∧ c.Settled s.reading := by
  unfold Session.outline
  dsimp only
  split
  · exact ⟨rfl, s.cache, rfl, h⟩
  · exact ⟨rfl, s.cache, rfl, h⟩
  · rename_i target _
    split
    · exact ⟨rfl, s.cache, rfl, h⟩
    · rename_i cfg _
      have start : Run.Agree s.reading ⟨[], s.cache⟩ ⟨[], .empty⟩ :=
        ⟨rfl, h, DocCache.settled_empty _⟩
      have agree := Outline.gather_settled (s.gathering cfg target) target start
      rw [gathering_withCache s .empty]
      rcases agree.cases with ⟨e, stop, stop', failed, failed', ⟨-, settled, -⟩⟩ |
        ⟨run, run', gathered, gathered', ⟨sameForests, settled, -⟩⟩
      · rw [failed, failed']
        exact ⟨rfl, stop.cache, rfl, settled⟩
      · rw [gathered, gathered']
        dsimp only
        exact ⟨by rw [sameForests], run.cache, rfl, settled⟩

/-- The answers to a sequence of outline requests, each on the session the one before left. -/
def outlines (s : Session) : List (Option String × Bool) → List (Except Failure (List Entry))
  | [] => []
  | (file, merge) :: calls => (s.outline file merge).1 :: (s.outline file merge).2.outlines calls

/-- A session whose cache is settled answers every request of a sequence as the same request
on that session with an empty cache. -/
theorem outlines_of_settled (calls : List (Option String × Bool)) {s : Session}
    (h : s.cache.Settled s.reading) :
    s.outlines calls =
      calls.map fun (file, merge) => (({ s with cache := .empty } : Session).outline file merge).1 := by
  induction calls generalizing s with
  | nil => rfl
  | cons call calls ih =>
    obtain ⟨file, merge⟩ := call
    obtain ⟨answer, c, after, settled⟩ := outline_of_settled h file merge
    have later : (s.outline file merge).2.outlines calls =
        calls.map fun (file, merge) => (({ s with cache := .empty } : Session).outline file merge).1 := by
      rw [after, ih settled]
    simp only [outlines, List.map_cons, answer, later]

end Session

/-- Outline requests on one session answer, request by request, as a fresh session does: the
documents cached, the loads queued and the paths marked failed by earlier requests, those that
failed included, never change a later answer. -/
theorem outlines_eq_fresh (s : Session) (calls : List (Option String × Bool)) :
    ({ s with cache := .empty } : Session).outlines calls =
      calls.map fun (file, merge) => (({ s with cache := .empty } : Session).outline file merge).1 :=
  Session.outlines_of_settled calls (DocCache.settled_empty _)

end TexToc
