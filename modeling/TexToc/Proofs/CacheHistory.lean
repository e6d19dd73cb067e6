import TexToc.Proofs.ForcedReads

/-!
# What the document cache remembers of a path

A caller looks documents up, asks whether a load is pending (which queues one for a path the
cache knows nothing of), waits for a path's load, forces a read, or drops a path, in any order
and over any paths; the files do not change meanwhile. This module follows one path `p`
through such a sequence.

* A document, once held, stays, the same, until `p` is dropped: a load or a forced read of
  `p` that succeeds stores the document already held, since every document held is the one
  its file gives (`Fresh`), and one that fails stores nothing.
* The cache knows of `p` (`Knows`: a document, a registered load or a failure mark) once a
  question whether `p` is pending has been asked, and it keeps knowing of it until `p` is
  dropped or a forced read of `p` fails. Asking again then changes nothing: a load of `p` is
  queued exactly when the cache does not know of `p`.
* Waiting for the load of a path the cache knows of settles it (`Resolved`: a document or a
  failure mark, and no registered load). A wait lets the ready steps run until the load waited
  for ends; the steps left to the loads and the ready hand-overs bound how long that takes
  (`workLeft`), and the wait gives the run enough steps (`runUntilWake_idle`). Between two
  operations the cache is at rest (`Idle`), so every wait ends with the load it waited for.

* `cache_keeps_what_it_knows`: the three facts, for every cache the operations reach.
-/

namespace TexToc

namespace DocCache

/-- An operation a caller makes on the cache. -/
inductive Op where
  | get (p : String)
  | hasPending (p : String)
  | waitPending (p : String)
  | forceRefresh (p : String)
  | invalidate (p : String)

namespace Op

/-- The cache after an operation; looking a document up changes nothing. -/
def apply (r : Reading) : Op → DocCache → DocCache
  | .get _, c => c
  | .hasPending p, c => (c.hasPending p).2
  | .waitPending p, c => c.waitPending r p
  | .forceRefresh p, c => (c.forceRefresh r p).2
  | .invalidate p, c => c.invalidate p

/-- An operation that keeps what the cache knows of `p`: it does not drop `p`, and it forces a
read of `p` only when the file of `p` reads and parses. -/
def Keeps (r : Reading) (p : String) : Op → Prop
  | .invalidate q => q ≠ p
  | .forceRefresh q => q = p → (parseRead r (readFresh r p)).isSome
  | _ => True

end Op

/-- The cache after a sequence of operations. -/
def runOps (r : Reading) (ops : List Op) (c : DocCache) : DocCache :=
  ops.foldl (fun c o => o.apply r c) c

variable {r : Reading} {c : DocCache} {p : String}

@[simp] theorem runOps_nil : runOps r [] c = c := rfl

@[simp] theorem runOps_cons (o : Op) (ops : List Op) :
    runOps r (o :: ops) c = runOps r ops (o.apply r c) := rfl

/-- What every operation keeps, a sequence of them keeps. -/
theorem runOps_invariant {P : DocCache → Prop} {ops : List Op} {Q : Op → Prop}
    (step : ∀ c o, Q o → P c → c.Reachable r → P (o.apply r c)) (all : ∀ o ∈ ops, Q o)
    (reachable : c.Reachable r) (h : P c) : P (runOps r ops c) ∧ (runOps r ops c).Reachable r := by
  induction ops generalizing c with
  | nil => exact ⟨h, reachable⟩
  | cons o ops ih =>
    have next : (o.apply r c).Reachable r := by
      cases o with
      | get q => exact reachable
      | hasPending q => exact .hasPending q reachable
      | waitPending q => exact .waitPending q reachable
      | forceRefresh q => exact .forceRefresh q reachable
      | invalidate q => exact .invalidate q reachable
    exact ih (fun o mem => all o (List.mem_cons_of_mem _ mem)) next
      (step c o (all o List.mem_cons_self) h reachable)

/-- A forced read succeeds exactly when the file reads and parses, whatever the cache holds. -/
theorem forceRefresh_ok_iff :
    (c.forceRefresh r p).1 = .ok () ↔ (parseRead r (readFresh r p)).isSome := by
  unfold forceRefresh parseRead readFresh
  cases r.disk.readText? r.cwd p with
  | none => simp
  | some t =>
    dsimp only
    cases Markup.parse r.grammar t <;> simp

/-! ## A document held stays -/

/-- Every document the cache holds is the one that reading and parsing its file gives. -/
def Fresh (r : Reading) (c : DocCache) : Prop :=
  ∀ q d, c.get q = some d → parseRead r (readFresh r q) = some d

@[simp] theorem docs_markFailed (c : DocCache) (q : String) : (c.markFailed q).docs = c.docs := by
  unfold DocCache.markFailed
  split <;> rfl

@[simp] theorem get_withReady (c : DocCache) (rd : List ReadyStep) (q : String) :
    ({ c with ready := rd } : DocCache).get q = c.get q := rfl

@[simp] theorem get_withWake (c : DocCache) (rd : List ReadyStep) (w : Option Nat) (q : String) :
    ({ c with ready := rd, waitingFor := w } : DocCache).get q = c.get q := rfl

@[simp] theorem get_withFailed (c : DocCache) (fs : List String) (q : String) :
    ({ c with failed := fs } : DocCache).get q = c.get q := rfl

/-- A fresh cache holds, for a path, only the document its file gives: storing that document
again changes nothing, and storing any document keeps the cache fresh if it is the file's. -/
theorem Fresh.store (h : c.Fresh r) {q : String} {d : Document}
    (read : parseRead r (readFresh r q) = some d) :
    (c.store q d).Fresh r ∧ ∀ x e, c.get x = some e → (c.store q d).get x = some e := by
  constructor
  · intro x e held
    rw [get_store] at held
    split at held
    · rename_i same
      subst same
      rw [← held]
      exact read
    · exact h x e held
  · intro x e held
    rw [get_store]
    split
    · rename_i same
      subst same
      have := h x e held
      rw [read] at this
      exact this
    · exact held

/-- A step of a load keeps the cache fresh, and every document it holds: a load that ends
stores the document its file gives, or marks the path failed. -/
theorem advance_fresh (faithful : c.Faithful r) (h : c.Fresh r) (id : Nat) :
    (c.advance r id).Fresh r ∧ ∀ q d, c.get q = some d → (c.advance r id).get q = some d := by
  unfold advance
  split
  · exact ⟨h, fun _ _ held => held⟩
  · rename_i t found
    have fresh := faithful.tasks t (List.mem_of_find?_eq_some found)
    split
    · exact ⟨h, fun _ _ held => held⟩
    · exact ⟨h, fun _ _ held => held⟩
    · rename_i text handed
      have read : text = readFresh r t.path := by simpa [ReadsFresh, handed] using fresh
      have unloaded : ({ c with tasks := c.tasks.filter (·.id != id) } : DocCache).Fresh r := h
      dsimp only
      split
      · rename_i d parsed
        obtain ⟨fresh', kept⟩ := unloaded.store (show parseRead r (readFresh r t.path) = some d
          by rw [← read]; exact parsed)
        split <;> exact ⟨fresh', fun q e held => kept q e held⟩
      · split <;> exact ⟨fun q e held => h q e (by simpa [get] using held),
          fun q e held => by simpa [get] using held⟩

/-- A run of ready steps keeps the cache fresh, and every document it holds. -/
theorem runUntilWake_fresh (fuel : Nat) (faithful : c.Faithful r) (h : c.Fresh r) :
    (runUntilWake r fuel c).Fresh r ∧
      ∀ q d, c.get q = some d → (runUntilWake r fuel c).get q = some d := by
  have run := runUntilWake_invariant
    (P := fun c' => c'.Faithful r ∧ c'.Fresh r ∧ ∀ q d, c.get q = some d → c'.get q = some d)
    (fun _ _ ⟨faithful, fresh, kept⟩ => ⟨faithful.of_eq rfl rfl, fresh, kept⟩)
    (fun _ id ⟨faithful, fresh, kept⟩ => ⟨(advance_faithful faithful id).1,
      (advance_fresh faithful fresh id).1,
      fun q d held => (advance_fresh faithful fresh id).2 q d (kept q d held)⟩)
    fuel ⟨faithful, h, fun _ _ held => held⟩
  exact ⟨run.2.1, run.2.2⟩

theorem get_hasPending (c : DocCache) (p q : String) : (c.hasPending p).2.get q = c.get q := by
  unfold hasPending
  split
  · rfl
  · split <;> rfl

theorem get_invalidate (c : DocCache) (p q : String) :
    (c.invalidate p).get q = if q = p then none else c.get q :=
  lookup_filter_key c.docs p q

/-- Every operation keeps the cache fresh, and every document it holds but the one it drops. -/
theorem Op.apply_fresh (faithful : c.Faithful r) (h : c.Fresh r) (o : Op) :
    (o.apply r c).Fresh r ∧ ∀ q d, o ≠ .invalidate q → c.get q = some d →
      (o.apply r c).get q = some d := by
  cases o with
  | get x => exact ⟨h, fun _ _ _ held => held⟩
  | hasPending x =>
    refine ⟨fun q d held => h q d ?_, fun q d _ held => ?_⟩
    · rwa [Op.apply, get_hasPending] at held
    · rwa [Op.apply, get_hasPending]
  | waitPending x =>
    simp only [Op.apply]
    unfold DocCache.waitPending
    split
    · exact ⟨h, fun _ _ _ held => held⟩
    · rename_i id _
      obtain ⟨fresh, kept⟩ := runUntilWake_fresh (c := { c with waitingFor := some id }) _
        (faithful.of_eq rfl rfl) h
      exact ⟨fresh, fun q d _ held => kept q d held⟩
  | forceRefresh x =>
    simp only [Op.apply]
    unfold DocCache.forceRefresh
    dsimp only
    obtain ⟨fresh, kept⟩ := runUntilWake_fresh
      (c := { c with failed := c.failed.filter (· != x), ready := c.ready ++ [.handOver] }) _
      ⟨faithful.tasks, fun q mem => faithful.failed q (List.mem_filter.1 mem).1⟩ h
    cases read : r.disk.readText? r.cwd x with
    | none => exact ⟨fresh, fun q d _ held => kept q d held⟩
    | some t =>
      dsimp only
      cases parsed : Markup.parse r.grammar t with
      | error e => exact ⟨fresh, fun q d _ held => kept q d held⟩
      | ok nodes =>
        obtain ⟨fresh', kept'⟩ := fresh.store (q := x) (d := ⟨t, nodes⟩)
          (by simp [parseRead, readFresh, read, parsed])
        exact ⟨fresh', fun q d _ held => kept' q d (kept q d held)⟩
  | invalidate x =>
    refine ⟨fun q d held => ?_, fun q d other held => ?_⟩
    · rw [Op.apply, get_invalidate] at held
      split at held
      · cases held
      · exact h q d held
    · rw [Op.apply, get_invalidate, if_neg fun same => other (by rw [same])]
      exact held

/-- Every cache the operations reach is fresh. -/
theorem Reachable.fresh (h : c.Reachable r) : c.Fresh r := by
  induction h with
  | empty => exact fun _ _ held => by simp [get, DocCache.empty] at held
  | hasPending p reachable ih =>
    exact (Op.apply_fresh (o := .hasPending p) reachable.sound.toFaithful ih).1
  | waitPending p reachable ih =>
    exact (Op.apply_fresh (o := .waitPending p) reachable.sound.toFaithful ih).1
  | forceRefresh p reachable ih =>
    exact (Op.apply_fresh (o := .forceRefresh p) reachable.sound.toFaithful ih).1
  | invalidate p reachable ih =>
    exact (Op.apply_fresh (o := .invalidate p) reachable.sound.toFaithful ih).1
  | @yieldOnce c reachable ih =>
    exact (runUntilWake_fresh (c := { c with ready := c.ready ++ [.wake] }) _
      (reachable.sound.toFaithful.of_eq rfl rfl) ih).1

/-- A document held stays, the same, through any operations that do not drop its path. -/
theorem get_runOps {d : Document} {ops : List Op} (reachable : c.Reachable r)
    (held : c.get p = some d) (kept : ∀ o ∈ ops, o ≠ .invalidate p) :
    (runOps r ops c).get p = some d :=
  (runOps_invariant (P := fun c => c.get p = some d)
    (fun _ o other held reachable =>
      (Op.apply_fresh reachable.sound.toFaithful reachable.fresh o).2 p d other held)
    kept reachable held).1

/-! ## What the cache knows of a path -/

/-- The cache knows of a path: it holds its document, has a load of it registered, or has
marked it failed. -/
def Knows (c : DocCache) (p : String) : Prop :=
  (c.get p).isSome ∨ (c.register.lookup p).isSome ∨ p ∈ c.failed

/-- The cache has settled a path: it holds its document or has marked it failed, and has no
load of it registered. -/
def Resolved (c : DocCache) (p : String) : Prop :=
  ((c.get p).isSome ∨ p ∈ c.failed) ∧ c.register.lookup p = none

theorem Resolved.knows (h : c.Resolved p) : c.Knows p := by
  rcases h.1 with held | marked
  · exact .inl held
  · exact .inr (.inr marked)

/-- What the cache knows of `p` only grows from `c` to `c'`: a document or a failure mark of
`p` stays one of the two, and a registered load of `p` stays registered until `p` has a document
or a failure mark. -/
structure KnowsMore (c c' : DocCache) (p : String) : Prop where
  settled : (c.get p).isSome ∨ p ∈ c.failed → (c'.get p).isSome ∨ p ∈ c'.failed
  register : c'.register.lookup p = c.register.lookup p ∨
    (c'.register.lookup p = none ∧ ((c'.get p).isSome ∨ p ∈ c'.failed))

theorem KnowsMore.refl (c : DocCache) (p : String) : c.KnowsMore c p :=
  ⟨id, .inl rfl⟩

theorem KnowsMore.trans {c' c'' : DocCache} (h : c.KnowsMore c' p) (h' : c'.KnowsMore c'' p) :
    c.KnowsMore c'' p := by
  refine ⟨fun settled => h'.settled (h.settled settled), ?_⟩
  rcases h'.register with same | ⟨dropped, settled⟩
  · rcases h.register with same' | ⟨dropped', settled'⟩
    · exact .inl (same.trans same')
    · exact .inr ⟨same.trans dropped', h'.settled settled'⟩
  · exact .inr ⟨dropped, settled⟩

/-- Knowing is about the documents, failure marks and register only. -/
theorem KnowsMore.congr {c' c'' : DocCache} (h : c.KnowsMore c' p) (docs : c''.docs = c'.docs)
    (failed : c''.failed = c'.failed) (register : c''.register = c'.register) :
    c.KnowsMore c'' p := by
  have get : c''.get p = c'.get p := by rw [DocCache.get, docs]; rfl
  refine ⟨?_, ?_⟩
  · rw [get, failed]
    exact h.settled
  · rw [register, get, failed]
    exact h.register

theorem Knows.of_knowsMore {c' : DocCache} (h : c.Knows p) (more : c.KnowsMore c' p) :
    c'.Knows p := by
  rcases h with held | registered | marked
  · rcases more.settled (.inl held) with held | marked
    · exact .inl held
    · exact .inr (.inr marked)
  · rcases more.register with same | ⟨_, held | marked⟩
    · exact .inr (.inl (same ▸ registered))
    · exact .inl held
    · exact .inr (.inr marked)
  · rcases more.settled (.inr marked) with held | marked
    · exact .inl held
    · exact .inr (.inr marked)

theorem Resolved.of_knowsMore {c' : DocCache} (h : c.Resolved p) (more : c.KnowsMore c' p) :
    c'.Resolved p := by
  refine ⟨more.settled h.1, ?_⟩
  rcases more.register with same | ⟨dropped, _⟩
  · rw [same, h.2]
  · exact dropped

/-- A step of a load only adds to what the cache knows: a load that ends gives its path a
document or a failure mark before it drops the path from the register. -/
theorem advance_knowsMore (c : DocCache) (id : Nat) (p : String) :
    c.KnowsMore (c.advance r id) p := by
  unfold advance
  split
  · exact KnowsMore.refl c p
  · rename_i t _
    split
    · exact (KnowsMore.refl c p).congr rfl rfl rfl
    · exact (KnowsMore.refl c p).congr rfl rfl rfl
    · dsimp only
      have ended : ∀ c' : DocCache, c'.register = c.register →
          ((c.get p).isSome ∨ p ∈ c.failed → (c'.get p).isSome ∨ p ∈ c'.failed) →
          ((c'.get t.path).isSome ∨ t.path ∈ c'.failed) →
          c.KnowsMore { c' with register := c'.register.filter (·.1 != t.path) } p := by
        intro c' register settled loaded
        refine ⟨settled, ?_⟩
        simp only [lookup_filter_key, register]
        split
        · rename_i same
          subst same
          exact .inr ⟨rfl, loaded⟩
        · exact .inl rfl
      split
      · rename_i d _
        have stored := ended
          (({ c with tasks := c.tasks.filter (·.id != id) } : DocCache).store t.path d) rfl
          (fun settled => by rw [get_store]; split <;> simp_all)
          (.inl (by rw [get_store, if_pos rfl]; rfl))
        split <;> exact stored.congr rfl rfl rfl
      · have marked := ended
          (({ c with tasks := c.tasks.filter (·.id != id) } : DocCache).markFailed t.path)
          (register_markFailed _ _)
          (fun settled => by
            rw [get_markFailed, mem_failed_markFailed]
            rcases settled with held | marked
            · exact .inl held
            · exact .inr (.inl marked))
          (.inr ((mem_failed_markFailed _ _ _).2 (.inr rfl)))
        split <;> exact marked.congr rfl rfl rfl

/-- The ready steps only add to what the cache knows. -/
theorem runUntilWake_knowsMore (fuel : Nat) (c : DocCache) (p : String) :
    c.KnowsMore (runUntilWake r fuel c) p :=
  runUntilWake_invariant (P := fun c' => c.KnowsMore c' p) (fun _ _ h => h.congr rfl rfl rfl)
    (fun c' id h => h.trans (advance_knowsMore c' id p)) fuel (KnowsMore.refl c p)

theorem failed_hasPending (c : DocCache) (p : String) : (c.hasPending p).2.failed = c.failed := by
  unfold hasPending
  split
  · rfl
  · split <;> rfl

/-- Asking whether a path is pending registers no other path. -/
theorem lookup_hasPending (c : DocCache) {x q : String} (other : q ≠ x) :
    (c.hasPending x).2.register.lookup q = c.register.lookup q := by
  unfold hasPending
  split
  · rfl
  · split
    · rfl
    · simp [List.lookup_append, lookup_filter_key, other, List.lookup, beq_false_of_ne other]

/-- Asking whether a path the cache knows of is pending changes nothing. -/
theorem hasPending_of_knows (h : c.Knows p) : (c.hasPending p).2 = c := by
  unfold hasPending
  split
  · rfl
  · rename_i unregistered
    rw [if_pos]
    rcases h with held | registered | marked
    · simp [show c.docs.lookup p = c.get p from rfl, held]
    · exact absurd registered unregistered
    · simp [marked]

/-- After asking whether a path is pending, the cache knows of it. -/
theorem knows_hasPending (c : DocCache) (p : String) : (c.hasPending p).2.Knows p := by
  unfold hasPending
  split
  · exact .inr (.inl ‹_›)
  · split
    · rename_i heldOrMarked
      simp only [Bool.or_eq_true, List.contains_iff_mem] at heldOrMarked
      rcases heldOrMarked with held | marked
      · exact .inl held
      · exact .inr (.inr marked)
    · exact .inr (.inl (by simp [List.lookup_append, lookup_filter_key]))

/-- A question whether a path is pending queues a load of it exactly when the cache knows
nothing of the path: no document, no registered load and no failure mark. -/
theorem hasPending_eq_self_iff : (c.hasPending p).2 = c ↔ c.Knows p :=
  ⟨fun same => same ▸ knows_hasPending c p, hasPending_of_knows⟩

theorem KnowsMore.of_other {c' : DocCache} {x : String} (other : p ≠ x)
    (get : c'.get p = c.get p) (failed : ∀ q, q ≠ x → (q ∈ c'.failed ↔ q ∈ c.failed))
    (register : c'.register.lookup p = c.register.lookup p) : c.KnowsMore c' p :=
  ⟨fun settled => by rwa [get, failed p other], .inl register⟩

/-- Every operation that keeps `p` only adds to what a cache that knows of `p` knows of it. -/
theorem Op.knowsMore (o : Op) (keeps : o.Keeps r p) (h : c.Knows p) :
    c.KnowsMore (o.apply r c) p := by
  cases o with
  | get x => exact KnowsMore.refl c p
  | hasPending x =>
    rw [Op.apply]
    by_cases same : x = p
    · subst same
      rw [hasPending_of_knows h]
      exact KnowsMore.refl c x
    · exact KnowsMore.of_other (x := x) (Ne.symm same) (get_hasPending c x p)
        (fun q _ => by rw [failed_hasPending]) (lookup_hasPending c (Ne.symm same))
  | waitPending x =>
    simp only [Op.apply]
    unfold DocCache.waitPending
    split
    · exact KnowsMore.refl c p
    · rename_i id _
      have waiting : c.KnowsMore { c with waitingFor := some id } p :=
        (KnowsMore.refl c p).congr rfl rfl rfl
      exact waiting.trans (runUntilWake_knowsMore _ _ p)
  | forceRefresh x =>
    simp only [Op.apply]
    unfold DocCache.forceRefresh
    dsimp only
    have ran := runUntilWake_knowsMore (r := r)
      (({ c with failed := c.failed.filter (· != x) } : DocCache).stepBound + 1)
      { c with failed := c.failed.filter (· != x), ready := c.ready ++ [.handOver] } p
    by_cases same : x = p
    · subst same
      have parses : (parseRead r (readFresh r x)).isSome := keeps rfl
      cases read : r.disk.readText? r.cwd x with
      | none => simp [parseRead, readFresh, read] at parses
      | some t =>
        dsimp only
        cases parsed : Markup.parse r.grammar t with
        | error e => simp [parseRead, readFresh, read, parsed] at parses
        | ok nodes =>
          dsimp only
          refine ⟨fun _ => .inl (by rw [get_store, if_pos rfl]; rfl), ?_⟩
          rw [register_store]
          rcases ran.register with same | ⟨dropped, _⟩
          · exact .inl same
          · exact .inr ⟨dropped, .inl (by rw [get_store, if_pos rfl]; rfl)⟩
    · have unmarked : c.KnowsMore
          { c with failed := c.failed.filter (· != x), ready := c.ready ++ [.handOver] } p :=
        KnowsMore.of_other (Ne.symm same) rfl (fun q other => by simp [other]) rfl
      have kept := unmarked.trans ran
      cases read : r.disk.readText? r.cwd x with
      | none => exact kept
      | some t =>
        dsimp only
        cases parsed : Markup.parse r.grammar t with
        | error e => exact kept
        | ok nodes =>
          exact kept.trans (KnowsMore.of_other (Ne.symm same) (by rw [get_store, if_neg (Ne.symm same)])
            (fun _ _ => Iff.rfl) rfl)
  | invalidate x =>
    have other : p ≠ x := fun same => keeps same.symm
    exact KnowsMore.of_other other (by rw [Op.apply, get_invalidate, if_neg other])
      (fun q other => by simp [Op.apply, DocCache.invalidate, other])
      (by simp [Op.apply, DocCache.invalidate, lookup_filter_key, other])

/-- The cache keeps knowing of `p`, and keeps `p` settled, through operations that keep `p`. -/
theorem knowsMore_runOps {ops : List Op} (h : c.Knows p) (keeps : ∀ o ∈ ops, o.Keeps r p) :
    c.KnowsMore (runOps r ops c) p := by
  induction ops generalizing c with
  | nil => exact KnowsMore.refl c p
  | cons o ops ih =>
    have first := o.knowsMore (keeps o List.mem_cons_self) h
    exact first.trans (ih (h.of_knowsMore first) fun o mem => keeps o (List.mem_cons_of_mem _ mem))

end DocCache

/-! ## Runs of ready steps end at the caller's wake-up -/

/-- How many steps a load has left: read, hand over, parse. -/
def LoadTask.stepsLeft (t : LoadTask) : Nat :=
  match t.stage with
  | .scheduled => 3
  | .read _ => 2
  | .handedOver _ => 1

/-- How many steps a ready step takes before the caller resumes: a hand-over schedules the
caller's wake-up. -/
def ReadyStep.cost : ReadyStep → Nat
  | .handOver => 2
  | _ => 1

/-- Whether a ready step is the next step of a load. -/
def ReadyStep.isAdvance : ReadyStep → Bool
  | .advance _ => true
  | _ => false

namespace DocCache

variable {r : Reading} {c : DocCache} {p : String}

@[simp] theorem ready_markFailed (c : DocCache) (q : String) : (c.markFailed q).ready = c.ready := by
  unfold DocCache.markFailed
  split <;> rfl

@[simp] theorem waitingFor_markFailed (c : DocCache) (q : String) :
    (c.markFailed q).waitingFor = c.waitingFor := by
  unfold DocCache.markFailed
  split <;> rfl

/-- The steps a run of ready steps can still take: those left to the loads, and those the
ready hand-overs and wake-ups take. -/
def workLeft (c : DocCache) : Nat :=
  (c.tasks.map LoadTask.stepsLeft).sum + (c.ready.map ReadyStep.cost).sum

theorem stepsLeft_le_three (t : LoadTask) : t.stepsLeft ≤ 3 := by
  unfold LoadTask.stepsLeft
  split <;> omega

theorem sum_stepsLeft_le (ts : List LoadTask) : (ts.map LoadTask.stepsLeft).sum ≤ 3 * ts.length := by
  induction ts with
  | nil => simp
  | cons t ts ih =>
    simp only [List.map_cons, List.sum_cons, List.length_cons]
    have := stepsLeft_le_three t
    omega

theorem sum_stepsLeft_filter_le (ts : List LoadTask) (id : Nat) :
    ((ts.filter (·.id != id)).map LoadTask.stepsLeft).sum ≤ (ts.map LoadTask.stepsLeft).sum := by
  induction ts with
  | nil => simp
  | cons t ts ih =>
    rw [List.filter_cons]
    split <;> simp only [List.map_cons, List.sum_cons] <;> omega

/-- Taking a load out of the tasks takes its steps out of what is left. -/
theorem sum_stepsLeft_filter {ts : List LoadTask} {t : LoadTask} {id : Nat} (mem : t ∈ ts)
    (named : t.id = id) :
    ((ts.filter (·.id != id)).map LoadTask.stepsLeft).sum + t.stepsLeft ≤
      (ts.map LoadTask.stepsLeft).sum := by
  induction ts with
  | nil => cases mem
  | cons x ts ih =>
    rw [List.filter_cons]
    rcases List.mem_cons.1 mem with rfl | mem
    · rw [if_neg (by simp [named])]
      have := sum_stepsLeft_filter_le ts id
      simp only [List.map_cons, List.sum_cons]
      omega
    · have := ih mem
      split <;> simp only [List.map_cons, List.sum_cons] <;> omega

theorem sum_cost_of_advances {rd : List ReadyStep} (h : ∀ s ∈ rd, s.isAdvance) :
    (rd.map ReadyStep.cost).sum = rd.length := by
  induction rd with
  | nil => rfl
  | cons s rd ih =>
    have advance := h s List.mem_cons_self
    simp only [List.map_cons, List.sum_cons, List.length_cons,
      ih fun s mem => h s (List.mem_cons_of_mem _ mem)]
    cases s <;> simp_all [ReadyStep.cost, ReadyStep.isAdvance]
    omega

/-- What a step of a load does to the scheduling: nothing, for a load that has ended; a load
that moves on to its next stage schedules its next step; a load that ends is taken out, wakes
a caller waiting for it, and leaves its path settled. -/
theorem advance_schedule (c : DocCache) (id : Nat) :
    (c.tasks.find? (·.id == id) = none ∧ c.advance r id = c) ∨
    (∃ t t', c.tasks.find? (·.id == id) = some t ∧ t'.id = t.id ∧ t'.path = t.path ∧
      t'.stepsLeft + 1 = t.stepsLeft ∧
      (c.advance r id).tasks = c.tasks.filter (·.id != id) ++ [t'] ∧
      (c.advance r id).ready = c.ready ++ [.advance id] ∧
      (c.advance r id).waitingFor = c.waitingFor) ∨
    (∃ t, c.tasks.find? (·.id == id) = some t ∧ t.stepsLeft = 1 ∧
      (c.advance r id).tasks = c.tasks.filter (·.id != id) ∧
      (c.advance r id).Resolved t.path ∧
      if c.waitingFor = some id then
        (c.advance r id).ready = c.ready ++ [.wake] ∧ (c.advance r id).waitingFor = none
      else (c.advance r id).ready = c.ready ∧ (c.advance r id).waitingFor = c.waitingFor) := by
  unfold advance
  split
  · rename_i missing
    exact .inl ⟨missing, rfl⟩
  · rename_i t found
    split
    · rename_i scheduled
      exact .inr (.inl ⟨t, { t with stage := .read (r.disk.readText? r.cwd t.path) }, found, rfl,
        rfl, by simp [LoadTask.stepsLeft, scheduled], rfl, rfl, rfl⟩)
    · rename_i text reading
      exact .inr (.inl ⟨t, { t with stage := .handedOver text }, found, rfl, rfl,
        by simp [LoadTask.stepsLeft, reading], rfl, rfl, rfl⟩)
    · rename_i text handed
      refine .inr (.inr ⟨t, found, by simp [LoadTask.stepsLeft, handed], ?_⟩)
      dsimp only
      cases parseRead r text with
      | some d =>
        dsimp only
        simp only [store]
        by_cases waited : c.waitingFor = some id <;>
          simp only [waited, if_true, if_false, reduceCtorEq, true_and, and_true] <;>
          refine ⟨.inl ?_, ?_⟩ <;> simp [get, List.lookup_append, lookup_filter_key]
      | none =>
        dsimp only
        simp only [docs_markFailed, register_markFailed, tasks_markFailed, ready_markFailed,
          waitingFor_markFailed, nextId_markFailed]
        by_cases waited : c.waitingFor = some id <;>
          simp only [waited, if_true, if_false, reduceCtorEq, true_and, and_true] <;>
          exact ⟨.inr ((mem_failed_markFailed _ _ _).2 (.inr rfl)), by simp [lookup_filter_key]⟩

theorem find?_id {ts : List LoadTask} {t : LoadTask} {id : Nat}
    (found : ts.find? (·.id == id) = some t) : t.id = id := by
  simpa using List.find?_some found

/-- A step of a load takes one of the steps left. -/
theorem workLeft_advance_le (c : DocCache) (id : Nat) : (c.advance r id).workLeft ≤ c.workLeft := by
  rcases advance_schedule (r := r) c id with
    ⟨_, same⟩ | ⟨t, t', found, -, -, left, tasks, ready, -⟩ | ⟨t, found, left, tasks, -, scheduled⟩
  · rw [same]
  · have := sum_stepsLeft_filter (List.mem_of_find?_eq_some found) (find?_id found)
    simp only [workLeft, tasks, ready, List.map_append, List.sum_append, List.map_cons,
      List.map_nil, List.sum_cons, List.sum_nil, ReadyStep.cost]
    omega
  · have := sum_stepsLeft_filter (List.mem_of_find?_eq_some found) (find?_id found)
    split at scheduled <;> obtain ⟨ready, -⟩ := scheduled <;>
      simp only [workLeft, tasks, ready, List.map_append, List.sum_append, List.map_cons,
        List.map_nil, List.sum_cons, List.sum_nil, ReadyStep.cost] <;> omega

/-- A cache at rest between two operations: nobody waits, only steps of loads are ready, and
every load has its next step ready. -/
structure Idle (c : DocCache) : Prop where
  waiting : c.waitingFor = none
  advances : ∀ s ∈ c.ready, s.isAdvance
  queued : ∀ t ∈ c.tasks, ReadyStep.advance t.id ∈ c.ready

/-- A run of ready steps on its way to the caller's wake-up: every load has its next step
ready, and either nobody waits and one wake-up or hand-over is ready, or the caller waits for a
load that is still there and only steps of loads are ready. -/
structure Running (c : DocCache) : Prop where
  queued : ∀ t ∈ c.tasks, ReadyStep.advance t.id ∈ c.ready
  resumes : (c.waitingFor = none ∧ c.ready.countP (fun s => !s.isAdvance) = 1) ∨
    ∃ id, c.waitingFor = some id ∧ (∃ t ∈ c.tasks, t.id = id) ∧ ∀ s ∈ c.ready, s.isAdvance

/-- A run on its way has a step left. -/
theorem Running.workLeft_pos (h : c.Running) : 0 < c.workLeft := by
  rcases h.resumes with ⟨-, marker⟩ | ⟨id, -, ⟨t, mem, -⟩, -⟩
  · cases ready : c.ready with
    | nil => simp [ready] at marker
    | cons s rest =>
      simp only [workLeft, ready, List.map_cons, List.sum_cons]
      cases s <;> simp [ReadyStep.cost]
  · have := List.le_sum_of_mem (List.mem_map_of_mem (f := LoadTask.stepsLeft) mem)
    have : 0 < t.stepsLeft := by unfold LoadTask.stepsLeft; split <;> omega
    simp only [workLeft]
    omega

/-- A step of a load keeps a run on its way: the load moved on schedules its next step, and a
load that ends wakes the caller waiting for it. -/
theorem Running.advance {id : Nat} {rest : List ReadyStep} (h : c.Running)
    (head : c.ready = .advance id :: rest) :
    (({ c with ready := rest } : DocCache).advance r id).Running := by
  have others : ∀ x ∈ c.tasks, x.id ≠ id → ReadyStep.advance x.id ∈ rest := by
    intro x mem other
    have := h.queued x mem
    rw [head, List.mem_cons] at this
    rcases this with same | mem
    · cases same
      exact absurd rfl other
    · exact mem
  have markers : rest.countP (fun s => !s.isAdvance) = c.ready.countP (fun s => !s.isAdvance) := by
    simp [head, ReadyStep.isAdvance]
  have advances : (∀ s ∈ c.ready, s.isAdvance) → ∀ s ∈ rest, s.isAdvance := fun all s mem =>
    all s (by rw [head]; exact List.mem_cons_of_mem _ mem)
  rcases advance_schedule (r := r) ({ c with ready := rest } : DocCache) id with
    ⟨missing, same⟩ | ⟨t, t', found, named, -, -, tasks, ready, waiting⟩ |
      ⟨t, found, -, tasks, -, scheduled⟩
  · rw [same]
    refine ⟨fun x mem => others x mem fun same => ?_, ?_⟩
    · have := List.find?_eq_none.1 missing x mem
      simp [same] at this
    · rcases h.resumes with ⟨waiting, one⟩ | ⟨w, waiting, task, all⟩
      · exact .inl ⟨waiting, markers.trans one⟩
      · exact .inr ⟨w, waiting, task, advances all⟩
  · have renamed : t'.id = id := named.trans (find?_id found)
    refine ⟨fun x mem => ?_, ?_⟩
    · rw [tasks, List.mem_append, List.mem_filter, List.mem_singleton] at mem
      rw [ready]
      rcases mem with ⟨mem, other⟩ | rfl
      · exact List.mem_append_left _ (others x mem (by simpa using other))
      · rw [renamed]
        exact List.mem_append_right _ (List.mem_singleton_self _)
    · rw [waiting, ready, tasks]
      rcases h.resumes with ⟨waiting, one⟩ | ⟨w, waiting, ⟨y, mem, yid⟩, all⟩
      · refine .inl ⟨waiting, ?_⟩
        rw [List.countP_append, markers, one]
        simp [ReadyStep.isAdvance]
      · refine .inr ⟨w, waiting, ?_, fun s mem => ?_⟩
        · by_cases same : w = id
          · exact ⟨t', by simp, renamed.trans same.symm⟩
          · exact ⟨y, List.mem_append_left _ (List.mem_filter.2 ⟨mem, by simpa [yid] using same⟩),
              yid⟩
        · rcases List.mem_append.1 mem with mem | mem
          · exact advances all s mem
          · rw [List.mem_singleton.1 mem]
            rfl
  · -- the load ends: the caller waiting for it is woken, anyone else goes on waiting
    have stay : ∀ rd, rest ⊆ rd → ∀ x ∈ c.tasks.filter (·.id != id), ReadyStep.advance x.id ∈ rd :=
      fun rd sub x mem => sub (others x (List.mem_filter.1 mem).1 (by
        simpa using (List.mem_filter.1 mem).2))
    by_cases waited : c.waitingFor = some id
    · rw [if_pos waited] at scheduled
      obtain ⟨ready, waiting⟩ := scheduled
      refine ⟨fun x mem => ?_, .inl ⟨waiting, ?_⟩⟩
      · rw [ready]
        rw [tasks] at mem
        exact stay _ (List.subset_append_left _ _) x mem
      · rcases h.resumes with ⟨none_, -⟩ | ⟨w, -, -, all⟩
        · rw [none_] at waited
          cases waited
        · rw [ready, List.countP_append, List.countP_eq_zero.2 fun s mem => by
            simpa using advances all s mem]
          rfl
    · rw [if_neg waited] at scheduled
      obtain ⟨ready, waiting⟩ := scheduled
      refine ⟨fun x mem => ?_, ?_⟩
      · rw [ready]
        rw [tasks] at mem
        exact stay _ (List.Subset.refl _) x mem
      · rw [waiting, ready, tasks]
        rcases h.resumes with ⟨none_, one⟩ | ⟨w, waiting, ⟨y, mem, yid⟩, all⟩
        · exact .inl ⟨none_, markers.trans one⟩
        · refine .inr ⟨w, waiting, ⟨y, List.mem_filter.2 ⟨mem, ?_⟩, yid⟩, advances all⟩
          have : w ≠ id := fun same => waited (by rw [waiting, same])
          simpa [yid] using this

/-- A run of ready steps given as many steps as are left ends at the caller's wake-up, with the
cache at rest, and keeps what every kind of step keeps. By induction on the steps given: every
step but the wake-up takes one of the steps left. -/
theorem runUntilWake_idle {Q : DocCache → Prop}
    (step : ∀ c id rest, c.ready = .advance id :: rest → Q c →
      Q (({ c with ready := rest } : DocCache).advance r id))
    (handOver : ∀ c rest, c.ready = .handOver :: rest → Q c → Q { c with ready := rest ++ [.wake] })
    (wake : ∀ c rest, c.ready = .wake :: rest → Q c → Q { c with ready := rest })
    (fuel : Nat) (h : c.Running) (enough : c.workLeft ≤ fuel) (q : Q c) :
    (runUntilWake r fuel c).Idle ∧ Q (runUntilWake r fuel c) := by
  induction fuel generalizing c with
  | zero =>
    have := h.workLeft_pos
    omega
  | succ fuel ih =>
    rw [runUntilWake]
    split
    · rename_i empty
      rcases h.resumes with ⟨-, one⟩ | ⟨-, -, ⟨t, mem, -⟩, -⟩
      · simp [empty] at one
      · have := h.queued t mem
        simp [empty] at this
    · rename_i rest head
      -- the caller resumes: the wake-up was the one step that is not a load's
      have waiting : c.waitingFor = none := by
        rcases h.resumes with ⟨none_, -⟩ | ⟨-, -, -, all⟩
        · exact none_
        · simpa [head, ReadyStep.isAdvance] using all .wake (by simp [head])
      have one := (h.resumes.resolve_right fun resumed => by
        obtain ⟨_, some_, _⟩ := resumed
        simp [waiting] at some_).2
      rw [head] at one
      refine ⟨⟨waiting, fun s mem => ?_, fun t mem => ?_⟩, wake c rest head q⟩
      · have none_ : rest.countP (fun s => !s.isAdvance) = 0 := by
          simpa [ReadyStep.isAdvance] using one
        simpa using List.countP_eq_zero.1 none_ s mem
      · have := h.queued t mem
        rw [head] at this
        simpa using this
    · rename_i rest head
      have waiting : c.waitingFor = none ∧ c.ready.countP (fun s => !s.isAdvance) = 1 :=
        h.resumes.resolve_right fun resumed => by
          obtain ⟨_, _, _, all⟩ := resumed
          simpa [head, ReadyStep.isAdvance] using all .handOver (by simp [head])
      refine ih ⟨fun t mem => ?_, .inl ⟨waiting.1, ?_⟩⟩ ?_ (handOver c rest head q)
      · have := h.queued t mem
        rw [head] at this
        simpa using this
      · have one := waiting.2
        rw [head] at one
        simpa [ReadyStep.isAdvance] using one
      · simp only [workLeft, head, List.map_append, List.sum_append, List.map_cons,
          List.sum_cons, List.map_nil, List.sum_nil, ReadyStep.cost] at enough ⊢
        omega
    · rename_i id rest head
      refine ih (h.advance head) ?_ (step c id rest head q)
      have := workLeft_advance_le (r := r) ({ c with ready := rest } : DocCache) id
      simp only [workLeft, head, List.map_cons, List.sum_cons, ReadyStep.cost] at enough this ⊢
      omega

theorem Idle.of_eq {c' : DocCache} (h : c.Idle) (tasks : c'.tasks = c.tasks)
    (ready : c'.ready = c.ready) (waiting : c'.waitingFor = c.waitingFor) : c'.Idle :=
  ⟨waiting ▸ h.waiting, ready ▸ h.advances, by rw [tasks, ready]; exact h.queued⟩

/-- At rest, a run has at most three steps per load and one per ready step left. -/
theorem Idle.workLeft_le (h : c.Idle) : c.workLeft ≤ 3 * c.tasks.length + c.ready.length := by
  have := sum_stepsLeft_le c.tasks
  rw [workLeft, sum_cost_of_advances h.advances]
  omega

/-- Letting the ready steps run until a wake-up scheduled after them comes round, or until a
hand-over scheduled after them has come round and then its wake-up, leaves the cache at rest. -/
theorem Idle.runUntilWake (h : c.Idle) (marker : ReadyStep) (notAdvance : marker.isAdvance = false)
    (fuel : Nat) (enough : 3 * c.tasks.length + c.ready.length + marker.cost ≤ fuel) :
    (runUntilWake r fuel { c with ready := c.ready ++ [marker] }).Idle :=
  (runUntilWake_idle (c := { c with ready := c.ready ++ [marker] }) (Q := fun _ => True)
    (fun _ _ _ _ _ => trivial) (fun _ _ _ _ => trivial) (fun _ _ _ _ => trivial) fuel
    ⟨fun t mem => List.mem_append_left _ (h.queued t mem), .inl ⟨h.waiting, by
      rw [List.countP_append, List.countP_eq_zero.2 fun s mem => by simpa using h.advances s mem]
      simp [notAdvance]⟩⟩
    (by
      have := h.workLeft_le
      simp only [workLeft, List.map_append, List.sum_append, List.map_cons, List.map_nil,
        List.sum_cons, List.sum_nil] at this ⊢
      omega)
    trivial).1

theorem mem_of_lookup {q : String} {i : Nat} (registered : c.register.lookup q = some i) :
    (q, i) ∈ c.register := by
  obtain ⟨l₁, l₂, split, -⟩ := List.lookup_eq_some_iff.1 registered
  rw [split]
  simp

/-- Every cache the operations reach is at rest: every wait, forced read and sleep lets the
ready steps run until its wake-up. -/
theorem Reachable.idle (h : c.Reachable r) : c.Idle := by
  induction h with
  | empty => exact ⟨rfl, nofun, nofun⟩
  | @hasPending c p _ ih =>
    unfold DocCache.hasPending
    split
    · exact ih
    · split
      · exact ih
      · -- a load queued has its first step ready
        refine ⟨ih.waiting, fun s mem => ?_, fun t mem => ?_⟩
        · rcases List.mem_append.1 mem with mem | mem
          · exact ih.advances s mem
          · rw [List.mem_singleton.1 mem]
            rfl
        · rcases List.mem_append.1 mem with mem | mem
          · exact List.mem_append_left _ (ih.queued t mem)
          · rw [List.mem_singleton.1 mem]
            exact List.mem_append_right _ (List.mem_singleton_self _)
  | @waitPending c p reachable ih =>
    unfold DocCache.waitPending
    split
    · exact ih
    · rename_i id registered
      obtain ⟨t, mem, named, -⟩ := reachable.sound.live p id (mem_of_lookup registered)
      have enough : ({ c with waitingFor := some id } : DocCache).workLeft ≤ c.stepBound + 1 := by
        have := ih.workLeft_le
        show c.workLeft ≤ 3 * c.tasks.length + c.ready.length + 3 + 1
        omega
      exact (runUntilWake_idle (c := { c with waitingFor := some id }) (Q := fun _ => True)
        (fun _ _ _ _ _ => trivial) (fun _ _ _ _ => trivial) (fun _ _ _ _ => trivial) _
        ⟨ih.queued, .inr ⟨id, rfl, ⟨t, mem, named⟩, ih.advances⟩⟩ enough trivial).1
  | @forceRefresh c p _ ih =>
    unfold DocCache.forceRefresh
    dsimp only
    have ran := Idle.runUntilWake (r := r) (c := { c with failed := c.failed.filter (· != p) })
      (ih.of_eq rfl rfl rfl) .handOver rfl
      (({ c with failed := c.failed.filter (· != p) } : DocCache).stepBound + 1)
      (by simp [stepBound, ReadyStep.cost])
    cases r.disk.readText? r.cwd p with
    | none => exact ran
    | some t =>
      dsimp only
      cases Markup.parse r.grammar t with
      | error e => exact ran
      | ok nodes => exact ran.of_eq rfl rfl rfl
  | invalidate p _ ih => exact ih.of_eq rfl rfl rfl
  | @yieldOnce c _ ih =>
    exact ih.runUntilWake .wake rfl _ (by simp [stepBound, ReadyStep.cost])

/-- Waiting for a path the cache knows of settles it: the wait lets the ready steps run until
the registered load of the path ends, which gives the path a document or a failure mark, and
nothing registers the path again meanwhile. -/
theorem waitPending_resolved (reachable : c.Reachable r) (h : c.Knows p) :
    (c.waitPending r p).Resolved p := by
  unfold waitPending
  split
  · rename_i unregistered
    refine ⟨?_, unregistered⟩
    rcases h with held | registered | marked
    · exact .inl held
    · simp [unregistered] at registered
    · exact .inr marked
  · rename_i id registered
    have idle := reachable.idle
    obtain ⟨t, mem, named, path⟩ := reachable.sound.live p id (mem_of_lookup registered)
    have enough : ({ c with waitingFor := some id } : DocCache).workLeft ≤ c.stepBound + 1 := by
      have := idle.workLeft_le
      show c.workLeft ≤ 3 * c.tasks.length + c.ready.length + 3 + 1
      omega
    -- until the load waited for ends, the caller waits for a load of `p`; then `p` is settled
    have run := runUntilWake_idle (r := r) (c := { c with waitingFor := some id })
      (Q := fun c => c.Tracked ∧
        ((∃ w, c.waitingFor = some w ∧ ∃ t ∈ c.tasks, t.id = w ∧ t.path = p) ∨ c.Resolved p))
      (fun c' id' rest _ q => by
        obtain ⟨tracked, waiting⟩ := q
        have tracked' : ({ c' with ready := rest } : DocCache).Tracked := tracked.of_eq rfl rfl rfl
        refine ⟨advance_tracked tracked' id', ?_⟩
        rcases waiting with ⟨w, waiting, y, mem, yid, ypath⟩ | resolved
        · rcases advance_schedule (r := r) ({ c' with ready := rest } : DocCache) id' with
            ⟨_, same⟩ | ⟨t, t', found, tnamed, tpath, -, tasks, -, waiting'⟩ |
              ⟨t, found, -, tasks, settled, scheduled⟩
          · rw [same]
            exact .inl ⟨w, waiting, y, mem, yid, ypath⟩
          · refine .inl ⟨w, by rw [waiting']; exact waiting, ?_⟩
            by_cases same : w = id'
            · -- the load waited for moves on
              obtain rfl := tracked'.task_of_id found mem (yid.trans same)
              exact ⟨t', by rw [tasks]; simp, tnamed.trans yid, tpath.trans ypath⟩
            · refine ⟨y, ?_, yid, ypath⟩
              rw [tasks]
              exact List.mem_append_left _ (List.mem_filter.2 ⟨mem, by simpa [yid] using same⟩)
          · by_cases same : w = id'
            · -- the load waited for ends and settles `p`
              obtain rfl := tracked'.task_of_id found mem (yid.trans same)
              exact .inr (ypath ▸ settled)
            · have other : ¬({ c' with ready := rest } : DocCache).waitingFor = some id' := by
                simpa [waiting] using same
              rw [if_neg other] at scheduled
              refine .inl ⟨w, by rw [scheduled.2]; exact waiting, y, ?_, yid, ypath⟩
              rw [tasks]
              exact List.mem_filter.2 ⟨mem, by simpa [yid] using same⟩
        · exact .inr (Resolved.of_knowsMore (c := { c' with ready := rest }) resolved
            (advance_knowsMore _ id' p)))
      (fun _ _ _ q => ⟨q.1.of_eq rfl rfl rfl, q.2⟩)
      (fun _ _ _ q => ⟨q.1.of_eq rfl rfl rfl, q.2⟩)
      _ ⟨idle.queued, .inr ⟨id, rfl, ⟨t, mem, named⟩, idle.advances⟩⟩ enough
      ⟨reachable.sound.toTracked.of_eq rfl rfl rfl, .inl ⟨id, rfl, t, mem, named, path⟩⟩
    rcases run.2.2 with ⟨w, waiting, -⟩ | resolved
    · rw [run.1.waiting] at waiting
      cases waiting
    · exact resolved

/-- Asking whether a settled path is pending changes nothing, and answers that it is not. -/
theorem hasPending_of_resolved (h : c.Resolved p) : c.hasPending p = (false, c) := by
  unfold hasPending
  rw [if_neg (by simp [h.2]), if_pos]
  rcases h.1 with held | marked
  · simp [show c.docs.lookup p = c.get p from rfl, held]
  · simp [marked]

theorem Reachable.runOps (h : c.Reachable r) (ops : List Op) : (runOps r ops c).Reachable r :=
  (runOps_invariant (P := fun _ => True) (Q := fun _ => True) (fun _ _ _ _ _ => trivial)
    (fun _ _ => trivial) h trivial).2

/-- What the cache remembers of a path `p`, over every sequence of operations from a cache the
operations reach, the files staying as they are:

* a document held stays, the same, through every operation but dropping `p`, whatever loads
  or forced reads fail meanwhile;
* asking whether `p` is pending queues a load exactly when the cache holds no document of `p`,
  has no load of it registered and has not marked it failed; after the question, through
  operations that neither drop `p` nor force a read of `p` that fails, asking again changes
  nothing;
* after the question, whatever it answered, and such operations, a wait for `p` leaves `p`
  with a document or a failure mark, and from then on, through such operations, `p` keeps one
  of the two and the question answers that nothing is pending and changes nothing. -/
theorem cache_keeps_what_it_knows (r : Reading) {c : DocCache} (reachable : c.Reachable r)
    (p : String) :
    (∀ (d : Document) (ops : List Op), c.get p = some d → (∀ o ∈ ops, o ≠ .invalidate p) →
      (runOps r ops c).get p = some d) ∧
    ((c.hasPending p).2 = c ↔ (c.get p).isSome ∨ (c.register.lookup p).isSome ∨ p ∈ c.failed) ∧
    (∀ ops : List Op, (∀ o ∈ ops, o.Keeps r p) →
      ((runOps r ops (c.hasPending p).2).hasPending p).2 = runOps r ops (c.hasPending p).2) ∧
    ∀ ops ops' : List Op, (∀ o ∈ ops, o.Keeps r p) → (∀ o ∈ ops', o.Keeps r p) →
      let c' := runOps r ops' ((runOps r ops (c.hasPending p).2).waitPending r p)
      ((c'.get p).isSome ∨ p ∈ c'.failed) ∧ c'.hasPending p = (false, c') := by
  have asked := knows_hasPending c p
  have knowing : ∀ ops : List Op, (∀ o ∈ ops, o.Keeps r p) →
      (runOps r ops (c.hasPending p).2).Knows p :=
    fun ops keeps => asked.of_knowsMore (knowsMore_runOps asked keeps)
  refine ⟨fun d ops held kept => get_runOps reachable held kept, hasPending_eq_self_iff,
    fun ops keeps => hasPending_of_knows (knowing ops keeps), fun ops ops' keeps keeps' => ?_⟩
  have waited := waitPending_resolved ((reachable.hasPending p).runOps ops) (knowing ops keeps)
  have settled := waited.of_knowsMore (knowsMore_runOps waited.knows keeps')
  exact ⟨settled.1, hasPending_of_resolved settled⟩

/-- The cache after a load of a missing file has run to its end, and a path in it. -/
theorem missingLoaded_keeps_what_it_knows :
    Outline.missingLoaded.Reachable Outline.pollingTwice.reading ∧
    (∀ (d : Document) (ops : List Op), Outline.missingLoaded.get "/main.tex" = some d →
      (∀ o ∈ ops, o ≠ .invalidate "/main.tex") →
      (runOps Outline.pollingTwice.reading ops Outline.missingLoaded).get "/main.tex" = some d) ∧
    ((Outline.missingLoaded.hasPending "/main.tex").2 = Outline.missingLoaded ↔
      (Outline.missingLoaded.get "/main.tex").isSome ∨
        (Outline.missingLoaded.register.lookup "/main.tex").isSome ∨
        "/main.tex" ∈ Outline.missingLoaded.failed) ∧
    (∀ ops : List Op, (∀ o ∈ ops, o.Keeps Outline.pollingTwice.reading "/main.tex") →
      ((runOps Outline.pollingTwice.reading ops
          (Outline.missingLoaded.hasPending "/main.tex").2).hasPending "/main.tex").2 =
        runOps Outline.pollingTwice.reading ops (Outline.missingLoaded.hasPending "/main.tex").2) ∧
    ∀ ops ops' : List Op, (∀ o ∈ ops, o.Keeps Outline.pollingTwice.reading "/main.tex") →
      (∀ o ∈ ops', o.Keeps Outline.pollingTwice.reading "/main.tex") →
      let c' := runOps Outline.pollingTwice.reading ops'
        ((runOps Outline.pollingTwice.reading ops
          (Outline.missingLoaded.hasPending "/main.tex").2).waitPending
            Outline.pollingTwice.reading "/main.tex")
      ((c'.get "/main.tex").isSome ∨ "/main.tex" ∈ c'.failed) ∧
        c'.hasPending "/main.tex" = (false, c') :=
  ⟨.waitPending _ (.hasPending _ .empty),
    cache_keeps_what_it_knows _ (.waitPending _ (.hasPending _ .empty)) "/main.tex"⟩

end DocCache

end TexToc
