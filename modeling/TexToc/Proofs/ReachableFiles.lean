import TexToc.Proofs.CacheReuse
import Mathlib.Logic.Relation
import Mathlib.Data.Finset.Card

/-!
# The files a run reaches

Gathering a file registers it, loads it and walks it, and the walk gathers each file that an
inclusion names from inside the walk, while the including file's forest is still half built.
This module shows that the recursion is a depth-first search over a fixed graph of files.

* A walk is its requests replayed (`walkNodes_follows`): walked with any way of gathering
  included files, it fails where the walk that only notes them (`noteFile`) fails, and
  otherwise gives that walk's entries, with the noted files gathered one after another.
* So each file has fixed `requests`, read off its own walk (`soloWalk`), and `Reaches` is the
  reflexive-transitive closure of "asks for". Requested files are files on disk, and none is
  requested when included files are not merged (`requests_onDisk`).
* The files on disk not yet registered bound the depth of the search, so the fuel of
  `gather` never runs out: `gatherFile_grows` says what one gathering adds to a run, and
  `gatherFile_ok` when it succeeds.
* `gather_reaches_exactly`: a run from no forests succeeds exactly when every file reached
  has a walk that succeeds. It then registers the target first and exactly the files
  reached, each once; it loads each once, in the order registered; it stores for each the
  forest that gathering that file alone stores; and with included files not merged it
  holds the target alone.
-/

namespace TexToc.Outline

open Markup

/-- The files registered in a run, in the order they were first reached. -/
def Run.files (run : Run) : List String := run.forests.map Prod.fst

/-- Gathering an included file by only noting it, at the end of the run's forests. -/
def noteFile (q : String) (run : Run) : Except (Failure × Run) Run :=
  .ok { run with forests := run.forests ++ [(q, [])] }

/-- Gathering the files `qs` one after another from `start`. -/
def gatherEach (sub : String → Run → Except (Failure × Run) Run) (qs : List String) (start : Run) :
    Except (Failure × Run) Run :=
  qs.foldlM (fun run q => sub q run) start

@[simp] theorem files_noted (run : Run) (q : String) :
    ({ run with forests := run.forests ++ [(q, [])] } : Run).files = run.files ++ [q] := by
  simp [Run.files]

theorem gatherEach_concat (sub : String → Run → Except (Failure × Run) Run) (qs : List String)
    (q : String) (start : Run) :
    gatherEach sub (qs ++ [q]) start = gatherEach sub qs start >>= sub q := by
  simp [gatherEach, List.foldlM_append]

/-- `run` is `rec` with files noted after its own: files on disk, noted only while included
files are merged. -/
def Run.NotedAfter (run : Run) (g : Gathering) (rec : Run) : Prop :=
  ∃ more : List String, run.files = rec.files ++ more ∧
    ∀ q ∈ more, g.reading.disk.isFile q = true ∧ g.cfg.mergeIncluded = true

namespace Run.NotedAfter

variable {g : Gathering} {run run₁ run₂ : Run}

theorem refl (run : Run) : run.NotedAfter g run := ⟨[], by simp, by simp⟩

theorem trans (first : run₁.NotedAfter g run) (second : run₂.NotedAfter g run₁) :
    run₂.NotedAfter g run := by
  obtain ⟨more, files, onDisk⟩ := first
  obtain ⟨more', files', onDisk'⟩ := second
  refine ⟨more ++ more', by rw [files', files, List.append_assoc], fun q mem => ?_⟩
  rcases List.mem_append.1 mem with old | new
  · exact onDisk q old
  · exact onDisk' q new

theorem note {q : String} (onDisk : g.reading.disk.isFile q = true)
    (merged : g.cfg.mergeIncluded = true) :
    ({ run with forests := run.forests ++ [(q, [])] } : Run).NotedAfter g run :=
  ⟨[q], files_noted run q, by simp [onDisk, merged]⟩

end Run.NotedAfter

/-- The child documents of a list all name files on disk. -/
def ChunksOnDisk (g : Gathering) (chunks : List ChildChunk) : Prop :=
  ∀ c ∈ chunks, g.reading.disk.isFile c.file = true

/-! ## A walk follows the walk that notes files -/

/-- The outcome `x` of a step with `sub` follows the outcome `y` of the same step from `rec`
with files only noted: where the noting step fails, so does `x`; where it gives `b`, it noted
only files on disk after those of `rec`, `Q b` holds, and `x` is `b` with its run replaced by
the noted files gathered by `sub` one after another from `start`. -/
def Follows {α : Type} (g : Gathering) (runOf : α → Run) (withRun : α → Run → α) (Q : α → Prop)
    (sub : String → Run → Except (Failure × Run) Run) (start rec : Run)
    (x : Except (Failure × Run) α) : Except (Failure × Run) α → Prop
  | .error _ => ∃ e, x = .error e
  | .ok b => (runOf b).NotedAfter g rec ∧ Q b ∧
      x = (gatherEach sub (runOf b).files start).map (withRun b)

section Follows

variable {g : Gathering} {sub : String → Run → Except (Failure × Run) Run} {start : Run}
  {α β : Type} {runOf : α → Run} {withRun : α → Run → α} {Q : α → Prop}
  {runOf' : β → Run} {withRun' : β → Run → β} {Q' : β → Prop}

/-- Following is kept by running one step after another. -/
theorem Follows.bind {rec : Run} {real : Run → Except (Failure × Run) α}
    {noted : Except (Failure × Run) α} {real' : α → Except (Failure × Run) β}
    {noted' : α → Except (Failure × Run) β}
    (first : Follows g runOf withRun Q sub start rec (gatherEach sub rec.files start >>= real)
      noted)
    (rest : ∀ a, noted = .ok a → Q a → Follows g runOf' withRun' Q' sub start (runOf a)
      (gatherEach sub (runOf a).files start >>= fun r => real' (withRun a r)) (noted' a)) :
    Follows g runOf' withRun' Q' sub start rec
      (gatherEach sub rec.files start >>= fun run => real run >>= real') (noted >>= noted') := by
  rw [← bind_assoc]
  cases noted with
  | error e =>
    obtain ⟨e', failed⟩ := first
    exact ⟨e', by rw [failed]; rfl⟩
  | ok a =>
    obtain ⟨notedA, holds, walked⟩ := first
    have next := rest a rfl holds
    rw [walked]
    change Follows g runOf' withRun' Q' sub start rec _ (noted' a)
    cases hb : noted' a with
    | error e =>
      rw [hb] at next
      obtain ⟨e', failed⟩ := next
      refine ⟨e', ?_⟩
      rw [← failed]
      cases gatherEach sub (runOf a).files start <;> rfl
    | ok b =>
      rw [hb] at next
      obtain ⟨notedB, holdsB, walkedB⟩ := next
      refine ⟨notedA.trans notedB, holdsB, ?_⟩
      rw [← walkedB]
      cases gatherEach sub (runOf a).files start <;> rfl

/-- A step that gives its result without gathering follows. -/
theorem Follows.pure {rec : Run} {b : α} {real : Run → α} (self : runOf b = rec) (holds : Q b)
    (same : ∀ r, real r = withRun b r) :
    Follows g runOf withRun Q sub start rec
      (gatherEach sub rec.files start >>= fun r => .ok (real r)) (.ok b) := by
  refine ⟨self ▸ .refl _, holds, ?_⟩
  rw [self]
  cases gatherEach sub rec.files start with
  | error e => rfl
  | ok r => exact congrArg Except.ok (same r)

end Follows

/-! ## Included files are files on disk -/

/-- What every step of a fold keeps holds of the fold's result. -/
theorem foldlM_invariant {ε α β : Type} {P : β → Prop} {f : β → α → Except ε β}
    {l : List α} (step : ∀ a ∈ l, ∀ b b', f b a = .ok b' → P b → P b') {init r : β}
    (h : l.foldlM f init = .ok r) (start : P init) : P r := by
  induction l generalizing init with
  | nil =>
    cases h
    exact start
  | cons a rest ih =>
    rw [List.foldlM_cons] at h
    cases hf : f init a with
    | error e =>
      rw [hf] at h
      cases h
    | ok b =>
      rw [hf] at h
      exact ih (fun a' mem => step a' (.tail _ mem)) h (step a (.head _) init b hf start)

theorem resolveInclude_go_isFile {disk : Disk} {cwd input ext p : String} :
    ∀ dirs : List String, resolveInclude.go disk cwd ext input dirs = .ok (some p) →
      disk.isFile p = true := by
  intro dirs
  induction dirs with
  | nil =>
    intro h
    cases h
  | cons dir rest ih =>
    intro h
    rw [resolveInclude.go] at h
    split at h
    · cases h
    · dsimp only at h
      split at h
      · cases h
      · split at h
        · rename_i onDisk
          cases h
          exact onDisk
        · exact ih h

/-- An inclusion resolves only to a file on disk. -/
theorem resolveInclude_isFile {disk : Disk} {cwd : String} {dirs : List String}
    {input ext p : String} (h : resolveInclude disk cwd dirs input ext = .ok (some p)) :
    disk.isFile p = true := by
  unfold resolveInclude at h
  dsimp only at h
  split at h
  · cases h
  · exact resolveInclude_go_isFile _ h

theorem childChunks_onDisk {g : Gathering} {dirs : List String} {content : String}
    {chunks : List ChildChunk}
    (h : childChunks g.reading.disk g.reading.cwd dirs content = .ok chunks) :
    ChunksOnDisk g chunks := by
  unfold childChunks at h
  refine foldlM_invariant (P := ChunksOnDisk g) (fun header _ acc acc' step kept => ?_) h
    (by simp [ChunksOnDisk])
  obtain ⟨start, path⟩ := header
  simp only at step
  split at step
  · cases step
  · cases step
    exact kept
  · rename_i file resolved
    cases step
    intro c mem
    rcases List.mem_append.1 mem with old | new
    · exact kept c old
    · rw [List.mem_singleton] at new
      subst new
      exact resolveInclude_isFile resolved

theorem found_some {r : Except Failure (Option String)} {raw sf raw' : String}
    (h : r.map (Option.map fun f => (f, raw)) = .ok (some (sf, raw'))) : r = .ok (some sf) := by
  cases r with
  | error e => cases h
  | ok o =>
    cases o with
    | none => cases h
    | some f =>
      simp only [Except.map, Option.map_some, Except.ok.injEq, Option.some.injEq,
        Prod.mk.injEq] at h
      rw [h.1]

theorem includedFile_isFile (g : Gathering) (file : String) {name : String} {args : List Arg}
    {sf raw : String} (h : includedFile g file name args = .ok (some (sf, raw))) :
    g.reading.disk.isFile sf = true := by
  unfold includedFile at h
  dsimp only at h
  split at h
  · exact resolveInclude_isFile (found_some h)
  · split at h
    · exact resolveInclude_isFile (found_some h)
    · split at h
      · exact resolveInclude_isFile (found_some h)
      · cases h

/-! ## The steps of a walk follow the steps that note files -/

section Walk

variable (g : Gathering) (file : String) (sub : String → Run → Except (Failure × Run) Run) (start : Run)

/-- How an entry step follows: its entry is kept, its run replaced. -/
abbrev EntryFollows : Run → Except (Failure × Run) (Option Entry × Run) →
    Except (Failure × Run) (Option Entry × Run) → Prop :=
  Follows g Prod.snd (fun a r => (a.1, r)) (fun _ => True) sub start

/-- How placing child documents follows: the documents left name files on disk. -/
abbrev ChunksFollows : Run → Except (Failure × Run) (List Entry × List ChildChunk × Run) →
    Except (Failure × Run) (List Entry × List ChildChunk × Run) → Prop :=
  Follows g (·.2.2) (fun a r => (a.1, a.2.1, r)) (fun a => ChunksOnDisk g a.2.1) sub start

/-- How a walk follows: the child documents still pending name files on disk. -/
abbrev WalkFollows : Run → Except (Failure × Run) (List Entry × WalkState) →
    Except (Failure × Run) (List Entry × WalkState) → Prop :=
  Follows g (·.2.run) (fun a r => (a.1, ⟨r, a.2.pending⟩)) (fun a => ChunksOnDisk g a.2.pending)
    sub start

theorem commandEntry_follows (pl : Place) (name : String) (args : List Arg) (rec : Run) :
    EntryFollows g sub start rec
      (gatherEach sub rec.files start >>= fun run => commandEntry g file sub pl name args run)
      (commandEntry g file noteFile pl name args rec) := by
  by_cases ranked : (g.cfg.rank name).isSome
  · simp only [commandEntry, ranked, if_true]
    exact Follows.pure rfl trivial fun r => rfl
  by_cases listed : g.cfg.commands.contains name
  · simp only [commandEntry, ranked, listed, Bool.false_eq_true, if_false, if_true]
    exact Follows.pure rfl trivial fun r => rfl
  cases found : includedFile g file name args with
  | error e =>
    simp only [commandEntry, ranked, listed, found, Bool.false_eq_true, if_false]
    cases gatherEach sub rec.files start with
    | error e' => exact ⟨e', rfl⟩
    | ok run => exact ⟨(e, run), rfl⟩
  | ok target =>
    cases target with
    | none =>
      simp only [commandEntry, ranked, listed, found, Bool.false_eq_true, if_false]
      exact Follows.pure rfl trivial fun r => rfl
    | some target =>
      obtain ⟨sf, raw⟩ := target
      by_cases merged : g.cfg.mergeIncluded
      · -- the included file is gathered, and noted on the other side
        simp only [commandEntry, ranked, listed, found, merged, Bool.false_eq_true, if_false,
          if_true]
        refine ⟨.note (includedFile_isFile g file found) merged, trivial, ?_⟩
        simp only [Except.map, files_noted, gatherEach_concat]
        cases gatherEach sub rec.files start with
        | error e => rfl
        | ok run => cases sub sf run <;> rfl
      · simp only [commandEntry, ranked, listed, found, merged, Bool.false_eq_true, if_false]
        exact Follows.pure rfl trivial fun r => rfl

theorem nodeEntry_follows (pl : Place) (n : Node) (rec : Run) :
    EntryFollows g sub start rec
      (gatherEach sub rec.files start >>= fun run => nodeEntry g file sub pl n run)
      (nodeEntry g file noteFile pl n rec) := by
  cases n with
  | control name args _ => exact commandEntry_follows g file sub start pl name args rec
  | mathEnv name _ _ _ =>
    simp only [nodeEntry]
    split <;> exact Follows.pure rfl trivial fun r => rfl
  | _ =>
    simp only [nodeEntry]
    exact Follows.pure rfl trivial fun r => rfl

/-- Gathering a child document when included files are merged follows noting it. -/
theorem gathered_follows {q : String} (onDisk : g.reading.disk.isFile q = true) (rec : Run) :
    Follows g id (fun _ r => r) (fun _ => True) sub start rec
      (gatherEach sub rec.files start >>= fun run =>
        if g.cfg.mergeIncluded then sub q run else .ok run)
      (if g.cfg.mergeIncluded then noteFile q rec else .ok rec) := by
  by_cases merged : g.cfg.mergeIncluded
  · simp only [merged, if_true]
    refine ⟨.note onDisk merged, trivial, ?_⟩
    simp only [id, files_noted, gatherEach_concat]
    cases gatherEach sub rec.files start with
    | error e => rfl
    | ok run =>
      show sub q run = (sub q run).map fun r => r
      cases sub q run <;> rfl
  · simp only [merged, Bool.false_eq_true, if_false]
    exact Follows.pure rfl trivial fun r => rfl

/-- Placing the first child document, in the form of one step after another. -/
theorem placeChunks_cons_bind (pl : Place) (c : ChildChunk) (rest : List ChildChunk) (run : Run) :
    placeChunks g file sub pl (c :: rest) run =
      if c.line ≤ pl.lineStart then
        ((if g.cfg.mergeIncluded then sub c.file run else .ok run) >>= fun run =>
          placeChunks g file sub pl rest run >>= fun r =>
            .ok (⟨.included, childChunkName, if g.cfg.mergeIncluded then c.file else c.path,
              pl.offset - 1, pl.lineStart, pl.lineEnd, file, []⟩ :: r.1, r.2.1, r.2.2))
      else .ok ([], c :: rest, run) := by
  rw [placeChunks]
  split
  · dsimp only [bind, Except.bind]
    cases (if g.cfg.mergeIncluded then sub c.file run else .ok run) with
    | error e => rfl
    | ok run =>
      dsimp only
      cases placeChunks g file sub pl rest run with
      | error e => rfl
      | ok placed => rfl
  · rfl

theorem placeChunks_follows (pl : Place) (chunks : List ChildChunk)
    (onDisk : ChunksOnDisk g chunks) (rec : Run) :
    ChunksFollows g sub start rec
      (gatherEach sub rec.files start >>= fun run => placeChunks g file sub pl chunks run)
      (placeChunks g file noteFile pl chunks rec) := by
  induction chunks generalizing rec with
  | nil =>
    simp only [placeChunks]
    exact Follows.pure rfl onDisk fun r => rfl
  | cons c rest ih =>
    simp only [placeChunks_cons_bind]
    by_cases due : c.line ≤ pl.lineStart
    · simp only [due, if_true]
      refine Follows.bind (gathered_follows g sub start (onDisk c (.head _)) rec)
        fun run _ _ => ?_
      refine Follows.bind (ih (fun c' mem => onDisk c' (.tail _ mem)) run) fun placed _ left => ?_
      exact Follows.pure rfl left fun r => rfl
    · simp only [due, if_false]
      exact Follows.pure rfl onDisk fun r => rfl

/-- The walk of a node, in the form of one step after another. -/
theorem walkNode_bind (idx : Text.LineIndex) (n : Node) (st : WalkState) :
    walkNode g file sub idx n st =
      (nodeEntry g file sub (placeOf idx n) n st.run >>= fun a =>
        placeChunks g file sub (placeOf idx n) st.pending a.2 >>= fun b =>
          walkNodes g file sub idx n.body ⟨b.2.2, b.2.1⟩ >>= fun c =>
            .ok ((match a.1 with
              | some e => b.1 ++ [e.withChildren c.1]
              | none => b.1 ++ c.1), c.2)) := by
  rw [walkNode, walkWith]
  dsimp only [bind, Except.bind]
  cases nodeEntry g file sub (placeOf idx n) n st.run with
  | error e => rfl
  | ok a =>
    obtain ⟨own, run⟩ := a
    dsimp only
    cases placeChunks g file sub (placeOf idx n) st.pending run with
    | error e => rfl
    | ok b =>
      obtain ⟨chunks, pending, run⟩ := b
      dsimp only
      cases walkNodes g file sub idx n.body ⟨run, pending⟩ with
      | error e => rfl
      | ok c => cases own <;> rfl

/-- The walk of a sequence of nodes, in the form of one step after another. -/
theorem walkNodes_cons_bind (idx : Text.LineIndex) (n : Node) (ns : List Node) (st : WalkState) :
    walkNodes g file sub idx (n :: ns) st =
      (walkNode g file sub idx n st >>= fun a =>
        walkNodes g file sub idx ns a.2 >>= fun b => .ok (a.1 ++ b.1, b.2)) := by
  rw [walkNodes]
  dsimp only [bind, Except.bind]
  cases walkNode g file sub idx n st with
  | error e => rfl
  | ok a =>
    obtain ⟨es, st⟩ := a
    dsimp only
    cases walkNodes g file sub idx ns st <;> rfl

mutual

/-- The walk of a node with `sub` follows its walk that notes files. -/
theorem walkNode_follows (idx : Text.LineIndex) (n : Node) (pending : List ChildChunk)
    (onDisk : ChunksOnDisk g pending) (rec : Run) :
    WalkFollows g sub start rec
      (gatherEach sub rec.files start >>= fun run => walkNode g file sub idx n ⟨run, pending⟩)
      (walkNode g file noteFile idx n ⟨rec, pending⟩) := by
  simp only [walkNode_bind]
  refine Follows.bind (nodeEntry_follows g file sub start (placeOf idx n) n rec) fun a _ _ => ?_
  dsimp only
  refine Follows.bind (placeChunks_follows g file sub start (placeOf idx n) pending onDisk a.2)
    fun b _ left => ?_
  dsimp only
  refine Follows.bind (walkNodes_follows idx n.body b.2.1 left b.2.2) fun c _ left' => ?_
  exact Follows.pure rfl left' fun r => rfl
termination_by 2 * sizeOf n + 1
decreasing_by have := Node.sizeOf_body_le n; omega

/-- The walk of a sequence of nodes with `sub` follows its walk that notes files. -/
theorem walkNodes_follows (idx : Text.LineIndex) (ns : List Node) (pending : List ChildChunk)
    (onDisk : ChunksOnDisk g pending) (rec : Run) :
    WalkFollows g sub start rec
      (gatherEach sub rec.files start >>= fun run => walkNodes g file sub idx ns ⟨run, pending⟩)
      (walkNodes g file noteFile idx ns ⟨rec, pending⟩) := by
  match ns with
  | [] =>
    simp only [walkNodes]
    exact Follows.pure rfl onDisk fun r => rfl
  | n :: ns =>
    simp only [walkNodes_cons_bind]
    refine Follows.bind (walkNode_follows idx n pending onDisk rec) fun a _ left => ?_
    dsimp only
    refine Follows.bind (walkNodes_follows idx ns a.2.pending left a.2.run) fun b _ left' => ?_
    exact Follows.pure rfl left' fun r => rfl
termination_by 2 * sizeOf ns
decreasing_by
  all_goals simp only [List.cons.sizeOf_spec]
  all_goals omega

end

end Walk

/-! ## The files a file asks for -/

/-- The walk of a file on its own: its document as a fresh read gives it, its child documents,
and its nodes walked with included files only noted. A file with no document asks for
nothing. -/
def soloWalk (g : Gathering) (p : String) : Except (Failure × Run) (List Entry × WalkState) :=
  match (loadDocument g p .empty).1 with
  | none => .ok ([], ⟨⟨[], .empty⟩, []⟩)
  | some doc =>
    match childChunks g.reading.disk g.reading.cwd (childSearchDirs p g.rootFile g.cfg.texDirs)
        doc.content with
    | .error e => .error (e, ⟨[], .empty⟩)
    | .ok chunks =>
      walkNodes g p noteFile (Text.LineIndex.ofChars doc.content.toList.toArray) doc.nodes
        ⟨⟨[], .empty⟩, chunks⟩

/-- The files that gathering a file asks to gather, in order. -/
def requests (g : Gathering) (p : String) : List String :=
  match soloWalk g p with
  | .ok (_, st) => st.run.files
  | .error _ => []

/-- `p` reaches `q` when a chain of requests leads from `p` to `q`. -/
abbrev Reaches (g : Gathering) : String → String → Prop :=
  Relation.ReflTransGen fun p q => q ∈ requests g p

theorem soloWalk_noted {g : Gathering} {p : String} {es : List Entry} {st : WalkState}
    (h : soloWalk g p = .ok (es, st)) : st.run.NotedAfter g ⟨[], .empty⟩ := by
  unfold soloWalk at h
  split at h
  · cases h
    exact .refl _
  · split at h
    · cases h
    · rename_i doc _ _ chunks found
      have walked := walkNodes_follows g p noteFile ⟨[], .empty⟩
        (Text.LineIndex.ofChars doc.content.toList.toArray) doc.nodes chunks
        (childChunks_onDisk found) ⟨[], .empty⟩
      rw [h] at walked
      exact walked.1

/-- A file asks only for files on disk, and only while included files are merged. -/
theorem requests_onDisk {g : Gathering} {p q : String} (h : q ∈ requests g p) :
    g.reading.disk.isFile q = true ∧ g.cfg.mergeIncluded = true := by
  unfold requests at h
  split at h
  · rename_i es st walked
    obtain ⟨more, files, onDisk⟩ := soloWalk_noted walked
    rw [files] at h
    exact onDisk q (by simpa [Run.files] using h)
  · cases h

theorem requests_of_soloWalk {g : Gathering} {p : String} {es : List Entry} {st : WalkState}
    (h : soloWalk g p = .ok (es, st)) : requests g p = st.run.files := by
  simp [requests, h]

/-! ## One file gathered -/

/-- A run with `p` registered and its document loaded into the cache. -/
def Run.enter (run : Run) (g : Gathering) (p : String) : Run :=
  { forests := run.forests ++ [(p, [])], cache := (loadDocument g p run.cache).2 }

@[simp] theorem files_enter (run : Run) (g : Gathering) (p : String) :
    (run.enter g p).files = run.files ++ [p] := by
  simp [Run.enter, Run.files]

theorem registered_iff (run : Run) (p : String) :
    run.forests.any (·.1 == p) = true ↔ p ∈ run.files := by
  simp [Run.files]

theorem setForest_enter_nil {run : Run} {g : Gathering} {p : String} (fresh : p ∉ run.files) :
    (run.enter g p).setForest p [] = run.enter g p := by
  simp only [Run.setForest, Run.enter, List.map_append, List.map_cons, List.map_nil, if_true]
  congr 2
  rw [List.map_congr_left (g := id) fun x mem => ?_, List.map_id]
  have other : x.1 ≠ p := fun same => fresh (same ▸ List.mem_map_of_mem mem)
  simp [other]

/-- Gathering a file not yet registered: it fails if the file's own walk fails; otherwise it
registers and loads the file, gathers the files the walk asks for one after another, and
puts the walk's entries as the file's forest. -/
theorem gatherFile_succ (g : Gathering) (d : Nat) {p : String} {run : Run}
    (settled : run.cache.Settled g.reading) (fresh : p ∉ run.files) :
    match soloWalk g p with
    | .error _ => ∃ e, gatherFile g (d + 1) p run = .error e
    | .ok (es, st) => gatherFile g (d + 1) p run =
        (gatherEach (gatherFile g d) st.run.files (run.enter g p)).map (·.setForest p es) := by
  have notRegistered : run.forests.any (·.1 == p) = false :=
    Bool.eq_false_iff.2 fun registered => fresh ((registered_iff run p).1 registered)
  obtain ⟨sameDoc, -⟩ := loadDocument_settled (p := p) settled
  unfold soloWalk
  rw [← sameDoc]
  simp only [gatherFile, notRegistered, Bool.false_eq_true, if_false]
  cases loaded : loadDocument g p run.cache with
  | mk doc cache =>
    have entered : run.enter g p = { forests := run.forests ++ [(p, [])], cache } := by
      simp [Run.enter, loaded]
    dsimp only
    rw [← entered]
    cases doc with
    | none =>
      show Except.ok (run.enter g p) = Except.ok ((run.enter g p).setForest p [])
      rw [setForest_enter_nil fresh]
    | some doc =>
      dsimp only
      cases found : childChunks g.reading.disk g.reading.cwd
          (childSearchDirs p g.rootFile g.cfg.texDirs) doc.content with
      | error e => exact ⟨_, rfl⟩
      | ok chunks =>
        dsimp only
        -- the walk with gathering follows the walk that notes, started from no forests
        have walked := walkNodes_follows g p (gatherFile g d) (run.enter g p)
          (Text.LineIndex.ofChars doc.content.toList.toArray) doc.nodes chunks
          (childChunks_onDisk found) ⟨[], .empty⟩
        have start : (gatherEach (gatherFile g d) (⟨[], .empty⟩ : Run).files (run.enter g p) >>=
            fun run => walkNodes g p (gatherFile g d)
              (Text.LineIndex.ofChars doc.content.toList.toArray) doc.nodes ⟨run, chunks⟩) =
            walkNodes g p (gatherFile g d) (Text.LineIndex.ofChars doc.content.toList.toArray)
              doc.nodes ⟨run.enter g p, chunks⟩ := rfl
        rw [start] at walked
        cases noted : walkNodes g p noteFile (Text.LineIndex.ofChars doc.content.toList.toArray)
            doc.nodes ⟨⟨[], .empty⟩, chunks⟩ with
        | error e =>
          rw [noted] at walked
          obtain ⟨e', failed⟩ := walked
          exact ⟨e', by rw [failed]⟩
        | ok result =>
          obtain ⟨es, st⟩ := result
          rw [noted] at walked
          obtain ⟨-, -, real⟩ := walked
          dsimp only
          rw [real]
          cases gatherEach (gatherFile g d) st.run.files (run.enter g p) <;> rfl

theorem gatherFile_succ_of_walk (g : Gathering) (d : Nat) {p : String} {run : Run}
    (settled : run.cache.Settled g.reading) (fresh : p ∉ run.files) {es : List Entry}
    {st : WalkState} (walked : soloWalk g p = .ok (es, st)) :
    gatherFile g (d + 1) p run =
      (gatherEach (gatherFile g d) (requests g p) (run.enter g p)).map (·.setForest p es) := by
  have step := gatherFile_succ g d (p := p) settled fresh
  rw [walked] at step
  rw [requests_of_soloWalk walked]
  exact step

theorem gatherFile_succ_of_error (g : Gathering) (d : Nat) {p : String} {run : Run}
    (settled : run.cache.Settled g.reading) (fresh : p ∉ run.files) {e : Failure × Run}
    (walked : soloWalk g p = .error e) : ∃ e', gatherFile g (d + 1) p run = .error e' := by
  have step := gatherFile_succ g d (p := p) settled fresh
  rw [walked] at step
  exact step

/-- The files a file asks for are on disk, and reach only what the file reaches. -/
theorem requests_within {g : Gathering} {p : String} {P : String → Prop}
    (reached : ∀ x, Reaches g p x → P x) :
    ∀ q ∈ requests g p, g.reading.disk.isFile q = true ∧ ∀ x, Reaches g q x → P x :=
  fun _ asks => ⟨(requests_onDisk asks).1, fun x reach => reached x (.head asks reach)⟩

/-! ## Forests by file -/

@[simp] theorem files_setForest (run : Run) (p : String) (es : List Entry) :
    (run.setForest p es).files = run.files := by
  simp only [Run.files, Run.setForest, List.map_map]
  congr 1
  funext x
  simp only [Function.comp]
  split <;> rfl

theorem forestOf?_append_of_mem {forests more : Forests} {q : String}
    (mem : q ∈ forests.map Prod.fst) : forestOf? (forests ++ more) q = forestOf? forests q := by
  induction forests with
  | nil => cases mem
  | cons x rest ih =>
    obtain ⟨f, es⟩ := x
    simp only [List.cons_append, forestOf?]
    split
    · rfl
    · rename_i other
      exact ih (by simpa [Ne.symm other] using mem)

theorem forestOf?_setForest_ne (run : Run) {p q : String} (es : List Entry) (other : q ≠ p) :
    forestOf? (run.setForest p es).forests q = forestOf? run.forests q := by
  obtain ⟨forests, cache⟩ := run
  simp only [Run.setForest]
  induction forests with
  | nil => rfl
  | cons x rest ih =>
    obtain ⟨f, old⟩ := x
    by_cases same : f = p
    · subst same
      simp [forestOf?, Ne.symm other, ih]
    · simp [forestOf?, same, ih]

theorem forestOf?_setForest_self (run : Run) {p : String} (es : List Entry)
    (mem : p ∈ run.files) : forestOf? (run.setForest p es).forests p = some es := by
  obtain ⟨forests, cache⟩ := run
  simp only [Run.setForest]
  induction forests with
  | nil => cases mem
  | cons x rest ih =>
    obtain ⟨f, old⟩ := x
    by_cases same : f = p
    · simp [forestOf?, same]
    · simp only [Run.files, List.map_cons, List.mem_cons] at mem
      simp [forestOf?, same, ih (mem.resolve_left (Ne.symm same))]

/-! ## Runs that grow by gathering -/

/-- A registered file whose gathering is done: its own walk succeeds, the run holds the walk's
entries as its forest, and every file it asks for is registered. -/
def Run.Finished (run : Run) (g : Gathering) (q : String) : Prop :=
  ∃ es st, soloWalk g q = .ok (es, st) ∧ forestOf? run.forests q = some es ∧
    ∀ q' ∈ requests g q, q' ∈ run.files

/-- `run'` is `run` grown by registering the files `new`, each within `within`: the new files
come after the old ones and are loaded into the cache once each, in that order; the forests of
the old files are kept; and the new files are finished. -/
structure Run.Grows (run : Run) (g : Gathering) (within : String → Prop) (new : List String)
    (run' : Run) : Prop where
  files : run'.files = run.files ++ new
  loads : run'.cache = new.foldl (fun c q => (loadDocument g q c).2) run.cache
  kept : ∀ q ∈ run.files, forestOf? run'.forests q = forestOf? run.forests q
  finished : ∀ q ∈ new, run'.Finished g q
  within : ∀ q ∈ new, within q

/-- A run that registers no file twice, with a settled document cache. -/
structure Run.Sound (run : Run) (g : Gathering) : Prop where
  nodup : run.files.Nodup
  settled : run.cache.Settled g.reading

section Grows

variable {g : Gathering} {within within' : String → Prop} {run run₁ run₂ : Run}
  {new new' : List String}

theorem Run.Finished.grow {q : String} (done : run₁.Finished g q) (mem : q ∈ run₁.files)
    (grows : run₁.Grows g within new run₂) : run₂.Finished g q := by
  obtain ⟨es, st, walked, stored, asked⟩ := done
  refine ⟨es, st, walked, (grows.kept q mem).trans stored, fun q' asks => ?_⟩
  rw [grows.files]
  exact List.mem_append_left _ (asked q' asks)

theorem Run.Grows.refl (run : Run) : run.Grows g within [] run :=
  ⟨by simp, rfl, fun _ _ => rfl, by simp, by simp⟩

theorem Run.Grows.trans (first : run.Grows g within new run₁)
    (second : run₁.Grows g within new' run₂) : run.Grows g within (new ++ new') run₂ where
  files := by rw [second.files, first.files, List.append_assoc]
  loads := by rw [second.loads, first.loads, List.foldl_append]
  kept q mem := by
    rw [second.kept q (first.files ▸ List.mem_append_left _ mem), first.kept q mem]
  finished q mem := by
    rcases List.mem_append.1 mem with old | fresh
    · exact (first.finished q old).grow (first.files ▸ List.mem_append_right _ old) second
    · exact second.finished q fresh
  within q mem := by
    rcases List.mem_append.1 mem with old | fresh
    · exact first.within q old
    · exact second.within q fresh

theorem Run.Grows.mono (grows : run.Grows g within new run₁) (wider : ∀ q, within q → within' q) :
    run.Grows g within' new run₁ :=
  { grows with within := fun q mem => wider q (grows.within q mem) }

theorem Run.Finished.setForest {p q : String} (done : run.Finished g q) (other : q ≠ p)
    (es : List Entry) : (run.setForest p es).Finished g q := by
  obtain ⟨es', st', walked, stored, asked⟩ := done
  refine ⟨es', st', walked, ?_, fun q' asks => ?_⟩
  · rw [forestOf?_setForest_ne run es other]
    exact stored
  · rw [files_setForest]
    exact asked q' asks

theorem Run.Sound.setForest (sound : run.Sound g) (p : String) (es : List Entry) :
    (run.setForest p es).Sound g :=
  ⟨by rw [files_setForest]; exact sound.nodup, sound.settled⟩

/-- Finishing a file that was registered into `run`: once the files it asks for are
registered and its walk's entries are put as its forest, `run` has grown by the file and by
what was gathered after it. -/
theorem Run.Grows.finish {p : String} {es : List Entry} {st : WalkState}
    (fresh : p ∉ run.files) (grown : (run.enter g p).Grows g within new run₁)
    (nodup : run₁.files.Nodup) (walked : soloWalk g p = .ok (es, st))
    (asked : ∀ q ∈ requests g p, q ∈ run₁.files) (self : within p) :
    run.Grows g within (p :: new) (run₁.setForest p es) := by
  have entered : p ∈ run₁.files := by
    rw [grown.files, files_enter]
    simp
  have notNew : p ∉ new := by
    rw [grown.files, files_enter, List.append_assoc] at nodup
    exact (List.nodup_cons.1 nodup.of_append_right).1
  refine ⟨?_, grown.loads, fun q mem => ?_, fun q mem => ?_, fun q mem => ?_⟩
  · rw [files_setForest, grown.files, files_enter, List.append_assoc]
    rfl
  · -- an old file's forest is neither the entered nor the finished one
    have other : q ≠ p := fun same => fresh (same ▸ mem)
    rw [forestOf?_setForest_ne run₁ es other,
      grown.kept q (by rw [files_enter]; exact List.mem_append_left _ mem)]
    exact forestOf?_append_of_mem mem
  · rcases List.mem_cons.1 mem with rfl | later
    · refine ⟨es, st, walked, forestOf?_setForest_self run₁ es entered, fun q' asks => ?_⟩
      rw [files_setForest]
      exact asked q' asks
    · exact (grown.finished q later).setForest (fun same : q = p => notNew (same ▸ later)) es
  · rcases List.mem_cons.1 mem with rfl | later
    · exact self
    · exact grown.within q later

end Grows

/-! ## Fuel -/

/-- The number of files on disk that are not among `files`. -/
def unseen (g : Gathering) (files : List String) : Nat :=
  ((g.reading.disk.files.map Prod.fst).toFinset \ files.toFinset).card

/-- Fuel `d` is enough to gather `p` into `run`: once `p` is registered, fewer files on disk
than `d` are left unregistered. -/
def Fueled (g : Gathering) (d : Nat) (p : String) (run : Run) : Prop :=
  p ∉ run.files → unseen g (run.files ++ [p]) < d

theorem unseen_anti {g : Gathering} {files files' : List String}
    (sub : ∀ q ∈ files, q ∈ files') : unseen g files' ≤ unseen g files :=
  Finset.card_le_card (Finset.sdiff_subset_sdiff (subset_refl _)
    fun q mem => List.mem_toFinset.2 (sub q (List.mem_toFinset.1 mem)))

theorem unseen_concat_lt {g : Gathering} {files : List String} {q : String}
    (onDisk : g.reading.disk.isFile q = true) (fresh : q ∉ files) :
    unseen g (files ++ [q]) < unseen g files := by
  have added : (files ++ [q]).toFinset = insert q files.toFinset := by
    ext x
    simp
  have present : q ∈ (g.reading.disk.files.map Prod.fst).toFinset \ files.toFinset := by
    obtain ⟨entry, mem, same⟩ := List.lookup_isSome_iff.1 onDisk
    simp only [Finset.mem_sdiff, List.mem_toFinset, List.mem_map]
    exact ⟨⟨entry, mem, (beq_iff_eq.1 same).symm⟩, fresh⟩
  unfold unseen
  rw [added, Finset.sdiff_insert]
  exact Finset.card_erase_lt_of_mem present

theorem unseen_le_length (g : Gathering) (files : List String) :
    unseen g files ≤ g.reading.disk.files.length :=
  calc unseen g files
      ≤ (g.reading.disk.files.map Prod.fst).toFinset.card := Finset.card_le_card Finset.sdiff_subset
    _ ≤ (g.reading.disk.files.map Prod.fst).length := List.toFinset_card_le _
    _ = g.reading.disk.files.length := List.length_map _

/-- A file on disk can be gathered with the fuel that bounds the files left unregistered. -/
theorem fueled_of_unseen_le {g : Gathering} {d : Nat} {q : String} {run : Run}
    (onDisk : g.reading.disk.isFile q = true) (fuel : unseen g run.files ≤ d) :
    Fueled g d q run :=
  fun fresh => Nat.lt_of_lt_of_le (unseen_concat_lt onDisk fresh) fuel

theorem Fueled.enter {g : Gathering} {d : Nat} {p : String} {run : Run}
    (fueled : Fueled g (d + 1) p run) (fresh : p ∉ run.files) :
    unseen g (run.enter g p).files ≤ d := by
  rw [files_enter]
  exact Nat.le_of_lt_succ (fueled fresh)

theorem Run.Grows.unseen_le {g : Gathering} {within : String → Prop} {run run' : Run}
    {new : List String} (grows : run.Grows g within new run') :
    unseen g run'.files ≤ unseen g run.files :=
  unseen_anti fun _ mem => grows.files ▸ List.mem_append_left _ mem

/-! ## Gathering grows a run by the files reached -/

/-- With fuel `d`, gathering a file into a sound run that has fuel enough for it gives a
sound run that holds the file, grown by files the file reaches, the file first among them if
it was new. -/
def GatherGrows (g : Gathering) (d : Nat) : Prop :=
  ∀ (p : String) (run run' : Run), run.Sound g → Fueled g d p run →
    gatherFile g d p run = .ok run' →
    ∃ new, run.Grows g (Reaches g p) new run' ∧ run'.Sound g ∧ p ∈ run'.files ∧
      (p ∉ run.files → new.head? = some p)

/-- Gathering files one after another grows the run by files they reach, and registers them
all. -/
theorem gatherEach_grows {g : Gathering} {d : Nat} (grows : GatherGrows g d)
    {within : String → Prop} :
    ∀ (qs : List String) (run run' : Run),
      (∀ q ∈ qs, g.reading.disk.isFile q = true ∧ ∀ x, Reaches g q x → within x) →
      run.Sound g → unseen g run.files ≤ d → gatherEach (gatherFile g d) qs run = .ok run' →
      ∃ new, run.Grows g within new run' ∧ run'.Sound g ∧ ∀ q ∈ qs, q ∈ run'.files := by
  intro qs
  induction qs with
  | nil =>
    intro run run' _ sound _ h
    cases h
    exact ⟨[], .refl _, sound, by simp⟩
  | cons q rest ih =>
    intro run run' each sound fuel h
    obtain ⟨onDisk, reached⟩ := each q (.head _)
    simp only [gatherEach, List.foldlM_cons] at h
    cases first : gatherFile g d q run with
    | error e =>
      rw [first] at h
      cases h
    | ok run₁ =>
      rw [first] at h
      obtain ⟨new, grown, sound₁, mem, -⟩ :=
        grows q run run₁ sound (fueled_of_unseen_le onDisk fuel) first
      obtain ⟨new', grown', sound', mems⟩ := ih run₁ run' (fun q' mem' => each q' (.tail _ mem'))
        sound₁ (grown.unseen_le.trans fuel) h
      refine ⟨new ++ new', (grown.mono reached).trans grown', sound', fun q' mem' => ?_⟩
      rcases List.mem_cons.1 mem' with rfl | later
      · rw [grown'.files]
        exact List.mem_append_left _ mem
      · exact mems q' later

theorem Run.Sound.enter {g : Gathering} {run : Run} {p : String} (sound : run.Sound g)
    (fresh : p ∉ run.files) : (run.enter g p).Sound g where
  nodup := by
    rw [files_enter]
    exact List.nodup_append.2 ⟨sound.nodup, List.nodup_singleton p,
      fun a mem b same => by rw [List.mem_singleton] at same; subst same; exact ne_of_mem_of_not_mem mem fresh⟩
  settled := (loadDocument_settled sound.settled).2

/-- Gathering a file grows the run by the files it reaches, and its fuel never runs out. -/
theorem gatherFile_grows (g : Gathering) : ∀ d, GatherGrows g d := by
  intro d
  induction d with
  | zero =>
    intro p run run' sound fueled h
    have registered : p ∈ run.files := by
      by_contra fresh
      exact Nat.not_lt_zero _ (fueled fresh)
    cases h
    exact ⟨[], .refl _, sound, registered, fun fresh => absurd registered fresh⟩
  | succ d ih =>
    intro p run run' sound fueled h
    by_cases registered : p ∈ run.files
    · rw [gatherFile, if_pos ((registered_iff run p).2 registered)] at h
      cases h
      exact ⟨[], .refl _, sound, registered, fun fresh => absurd registered fresh⟩
    cases walked : soloWalk g p with
    | error e =>
      obtain ⟨e', failed⟩ := gatherFile_succ_of_error g d sound.settled registered walked
      rw [failed] at h
      cases h
    | ok result =>
      obtain ⟨es, st⟩ := result
      rw [gatherFile_succ_of_walk g d sound.settled registered walked] at h
      cases gathered : gatherEach (gatherFile g d) (requests g p) (run.enter g p) with
      | error e =>
        rw [gathered] at h
        cases h
      | ok run₁ =>
        rw [gathered] at h
        cases h
        obtain ⟨new, grown, sound₁, asked⟩ := gatherEach_grows ih _ _ _
          (requests_within fun _ => id) (sound.enter registered) (fueled.enter registered)
          gathered
        have grown' := grown.finish registered sound₁.nodup walked asked .refl
        exact ⟨p :: new, grown', sound₁.setForest p es, by rw [grown'.files]; simp, fun _ => rfl⟩

/-! ## When gathering succeeds -/

/-- Gathering files one after another succeeds when each is on disk and reaches only files
whose walks succeed. -/
theorem gatherEach_ok {g : Gathering} {d : Nat}
    (ok : ∀ (p : String) (run : Run), run.Sound g → Fueled g d p run →
      (∀ x, Reaches g p x → (soloWalk g x).isOk) → ∃ run', gatherFile g d p run = .ok run') :
    ∀ (qs : List String) (run : Run),
      (∀ q ∈ qs, g.reading.disk.isFile q = true ∧ ∀ x, Reaches g q x → (soloWalk g x).isOk) →
      run.Sound g → unseen g run.files ≤ d →
      ∃ run', gatherEach (gatherFile g d) qs run = .ok run' := by
  intro qs
  induction qs with
  | nil =>
    intro run _ _ _
    exact ⟨run, rfl⟩
  | cons q rest ih =>
    intro run each sound fuel
    obtain ⟨onDisk, walks⟩ := each q (.head _)
    have fueled := fueled_of_unseen_le onDisk fuel
    obtain ⟨run₁, first⟩ := ok q run sound fueled walks
    obtain ⟨new, grown, sound₁, -, -⟩ := gatherFile_grows g d q run run₁ sound fueled first
    obtain ⟨run', rest'⟩ := ih run₁ (fun q' mem => each q' (.tail _ mem)) sound₁
      (grown.unseen_le.trans fuel)
    refine ⟨run', ?_⟩
    simp only [gatherEach, List.foldlM_cons, first]
    exact rest'

/-- Gathering a file with fuel enough succeeds when every file it reaches has a walk that
succeeds. -/
theorem gatherFile_ok (g : Gathering) :
    ∀ (d : Nat) (p : String) (run : Run), run.Sound g → Fueled g d p run →
      (∀ x, Reaches g p x → (soloWalk g x).isOk) → ∃ run', gatherFile g d p run = .ok run' := by
  intro d
  induction d with
  | zero =>
    intro p run _ _ _
    exact ⟨run, rfl⟩
  | succ d ih =>
    intro p run sound fueled walks
    by_cases registered : p ∈ run.files
    · exact ⟨run, by rw [gatherFile, if_pos ((registered_iff run p).2 registered)]⟩
    cases walked : soloWalk g p with
    | error e =>
      have own := walks p .refl
      rw [walked] at own
      cases own
    | ok result =>
      obtain ⟨es, st⟩ := result
      obtain ⟨run₁, gathered⟩ := gatherEach_ok ih _ _ (requests_within walks)
        (sound.enter registered) (fueled.enter registered)
      refine ⟨run₁.setForest p es, ?_⟩
      rw [gatherFile_succ_of_walk g d sound.settled registered walked, gathered]
      rfl

/-! ## A run from no forests -/

section Gather

variable {g : Gathering} {p : String} {c : DocCache}

theorem start_sound (settled : c.Settled g.reading) : (⟨[], c⟩ : Run).Sound g :=
  ⟨by simp [Run.files], settled⟩

/-- The fuel of `gather` exceeds the number of files on disk. -/
theorem gather_fueled (g : Gathering) (p : String) (c : DocCache) :
    Fueled g (g.reading.disk.files.length + g.unsaved.length + 2) p ⟨[], c⟩ :=
  fun _ => Nat.lt_of_le_of_lt (unseen_le_length g _) (by omega)

/-- A run whose files are finished holds every file that one of them reaches. -/
theorem mem_of_reaches {run : Run} {q : String} (start : p ∈ run.files)
    (finished : ∀ x ∈ run.files, run.Finished g x) (reach : Reaches g p q) : q ∈ run.files := by
  induction reach with
  | refl => exact start
  | tail _ asks held =>
    obtain ⟨_, _, _, _, asked⟩ := finished _ held
    exact asked _ asks

/-- Without merged included files, a file reaches only itself. -/
theorem reaches_unmerged (unmerged : g.cfg.mergeIncluded = false) {q : String}
    (reach : Reaches g p q) : q = p := by
  induction reach with
  | refl => rfl
  | tail _ asks _ =>
    have merged := (requests_onDisk asks).2
    rw [unmerged] at merged
    cases merged

/-- A run gathered from no forests holds its target first, and is the empty run grown by
its files. -/
theorem gather_grows (settled : c.Settled g.reading) {run : Run}
    (h : gather g p ⟨[], c⟩ = .ok run) :
    (⟨[], c⟩ : Run).Grows g (Reaches g p) run.files run ∧ run.Sound g ∧
      run.files.head? = some p := by
  obtain ⟨new, grown, sound, -, first⟩ :=
    gatherFile_grows g _ p _ run (start_sound settled) (gather_fueled g p c) h
  have files : run.files = new := by
    rw [grown.files]
    rfl
  rw [files]
  exact ⟨grown, sound, first (by simp [Run.files])⟩

theorem gather_files_iff (settled : c.Settled g.reading) {run : Run}
    (h : gather g p ⟨[], c⟩ = .ok run) (q : String) : q ∈ run.files ↔ Reaches g p q := by
  obtain ⟨grown, -, first⟩ := gather_grows settled h
  exact ⟨grown.within q, mem_of_reaches (List.mem_of_mem_head? first) grown.finished⟩

theorem gather_walks (settled : c.Settled g.reading) {run : Run}
    (h : gather g p ⟨[], c⟩ = .ok run) (q : String) (reach : Reaches g p q) :
    (soloWalk g q).isOk := by
  obtain ⟨grown, -, -⟩ := gather_grows settled h
  obtain ⟨es, st, walked, -, -⟩ := grown.finished q ((gather_files_iff settled h q).2 reach)
  rw [walked]
  rfl

theorem gather_ok (settled : c.Settled g.reading)
    (walks : ∀ q, Reaches g p q → (soloWalk g q).isOk) : ∃ run, gather g p ⟨[], c⟩ = .ok run :=
  gatherFile_ok g _ p _ (start_sound settled) (gather_fueled g p c) walks

/-- Each file of a run stores the forest that gathering that file alone stores, from any
settled cache. -/
theorem gather_forest_alone (settled : c.Settled g.reading) {run : Run}
    (h : gather g p ⟨[], c⟩ = .ok run) {q : String} (mem : q ∈ run.files) {c' : DocCache}
    (settled' : c'.Settled g.reading) :
    ∃ run', gather g q ⟨[], c'⟩ = .ok run' ∧
      forestOf? run'.forests q = forestOf? run.forests q := by
  have reached := (gather_files_iff settled h q).1 mem
  obtain ⟨run', alone⟩ :=
    gather_ok settled' fun x reach => gather_walks settled h x (reached.trans reach)
  refine ⟨run', alone, ?_⟩
  obtain ⟨grown, -, -⟩ := gather_grows settled h
  obtain ⟨grown', -, first'⟩ := gather_grows settled' alone
  obtain ⟨es, st, walked, stored, -⟩ := grown.finished q mem
  obtain ⟨es', st', walked', stored', -⟩ := grown'.finished q (List.mem_of_mem_head? first')
  rw [walked] at walked'
  cases walked'
  rw [stored, stored']

end Gather

/-- Gathering a file from no forests and a settled document cache succeeds exactly when every
file it reaches has a walk that succeeds. A run that succeeds holds its target first and
exactly the files the target reaches, each once, however the files include each other; it
loads each file once, in the order the files were registered; each file's forest is the one
that gathering that file alone stores; and without merged included files it holds the target
alone. -/
theorem gather_reaches_exactly {g : Gathering} {p : String} {c : DocCache}
    (settled : c.Settled g.reading) :
    ((∃ run, gather g p ⟨[], c⟩ = .ok run) ↔ ∀ q, Reaches g p q → (soloWalk g q).isOk) ∧
    ∀ run, gather g p ⟨[], c⟩ = .ok run →
      run.files.head? = some p ∧ run.files.Nodup ∧ (∀ q, q ∈ run.files ↔ Reaches g p q) ∧
      run.cache = run.files.foldl (fun c q => (loadDocument g q c).2) c ∧
      (∀ q ∈ run.files, ∀ c' : DocCache, c'.Settled g.reading →
        ∃ run', gather g q ⟨[], c'⟩ = .ok run' ∧
          forestOf? run'.forests q = forestOf? run.forests q) ∧
      (g.cfg.mergeIncluded = false → run.files = [p]) := by
  refine ⟨⟨fun ⟨_, h⟩ => gather_walks settled h, gather_ok settled⟩, fun run h => ?_⟩
  obtain ⟨grown, sound, first⟩ := gather_grows settled h
  refine ⟨first, sound.nodup, gather_files_iff settled h, grown.loads,
    fun q mem c' settled' => gather_forest_alone settled h mem settled', fun unmerged => ?_⟩
  -- the target comes first, and every other file would be a second copy of it
  obtain ⟨rest, files⟩ := List.head?_eq_some_iff.1 first
  have nodup := sound.nodup
  rw [files] at nodup
  have empty : rest = [] := List.eq_nil_iff_forall_not_mem.2 fun q mem => by
    have same : q = p :=
      reaches_unmerged unmerged ((gather_files_iff settled h q).1 (files ▸ .tail _ mem))
    exact (List.nodup_cons.1 nodup).1 (same ▸ mem)
  rw [files, empty]

/-- Two files on disk that include each other. -/
def cyclicGathering : Gathering :=
  ⟨⟨⟨[], [("/a.tex", [92, 105, 110, 112, 117, 116, 123, 98, 125]),
      ("/b.tex", [92, 105, 110, 112, 117, 116, 123, 97, 125])]⟩, "/", Grammar.standard⟩,
    ⟨[("section", 2)], [], [], [], true, false, false, true⟩, "/a.tex", [], 1⟩

theorem cyclicGathering_reaches_exactly :
    DocCache.empty.Settled cyclicGathering.reading ∧
    ((∃ run, gather cyclicGathering "/a.tex" ⟨[], .empty⟩ = .ok run) ↔
      ∀ q, Reaches cyclicGathering "/a.tex" q → (soloWalk cyclicGathering q).isOk) ∧
    ∀ run, gather cyclicGathering "/a.tex" ⟨[], .empty⟩ = .ok run →
      run.files.head? = some "/a.tex" ∧ run.files.Nodup ∧
      (∀ q, q ∈ run.files ↔ Reaches cyclicGathering "/a.tex" q) ∧
      run.cache = run.files.foldl (fun c q => (loadDocument cyclicGathering q c).2) .empty ∧
      (∀ q ∈ run.files, ∀ c' : DocCache, c'.Settled cyclicGathering.reading →
        ∃ run', gather cyclicGathering q ⟨[], c'⟩ = .ok run' ∧
          forestOf? run'.forests q = forestOf? run.forests q) ∧
      (cyclicGathering.cfg.mergeIncluded = false → run.files = ["/a.tex"]) :=
  ⟨DocCache.settled_empty _, gather_reaches_exactly (DocCache.settled_empty _)⟩

end TexToc.Outline
