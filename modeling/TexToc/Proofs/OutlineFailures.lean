import Mathlib
import TexToc.Session

/-!
# How an outline request can fail

An outline run reads many files, and most of what can go wrong with one of them is
absorbed where it happens: a file that cannot be read or parsed gets an empty forest, and
an inclusion that names no file gets no entry. Two kinds of failure do escape the run:

* the settings list a sectioning command under two ranks; this is found from the settings
  alone, before any document is asked for, and the session is left as it was;
* a path fails to resolve: it holds the null character, it starts from the home directory
  of a user that is not known, or an inclusion path resolves to the root directory, whose
  name cannot be extended. Nothing catches these, wherever in the run the path is met.

`Failure.IsPath` names the second kind, and `outline_fails_only_on_ranks_or_paths` states
that these two are the only ways an outline fails, that a rank conflict fails the outline
before anything is read, and that without a target there is nothing to outline.

The proof follows the run outward: resolving one path, resolving an inclusion, the child
documents of a file, the entry of one node, the walk over a tree (`walkNode_error`), a
whole file (`gatherFile_error`) and the session's request.
-/

namespace TexToc

open Outline Markup

/-- A failure to resolve a path: a path holding the null character or starting from a home
directory that is not known, or an inclusion path whose name cannot be extended. -/
def Failure.IsPath : Failure → Prop
  | .nullInPath | .noHome | .rootHasNoName | .invalidName _ => True
  | _ => False

/-- A failure out of a fold is a failure of one of its steps. -/
theorem foldlM_error {α β : Type} {P : Failure → Prop} {f : β → α → Except Failure β}
    (step : ∀ b a e, f b a = .error e → P e) :
    ∀ (l : List α) (init : β) (e : Failure), l.foldlM f init = .error e → P e := by
  intro l
  induction l with
  | nil =>
    intro init e h
    cases h
  | cons a rest ih =>
    intro init e h
    rw [List.foldlM_cons] at h
    cases hf : f init a with
    | error e' =>
      rw [hf] at h
      cases h
      exact step init a e hf
    | ok b =>
      rw [hf] at h
      exact ih b e h

theorem error_of_map {ε α β : Type} {f : α → β} {r : Except ε α} {e : ε}
    (h : r.map f = .error e) : r = .error e := by
  cases r with
  | error e' => cases h; rfl
  | ok a => cases h

/-! ## Resolving paths -/

theorem resolvePath_error {cwd p : String} {e : Failure} (h : resolvePath cwd p = .error e) :
    e.IsPath := by
  unfold resolvePath at h
  split at h
  · cases h
    trivial
  · cases h

/-- Taking a path from a home directory fails only on a path. -/
theorem expandHome_error {homes : String → Option String} {p : String} {e : Failure}
    (h : expandHome homes p = .error e) : e.IsPath := by
  unfold expandHome at h
  split at h
  · cases h
  · split at h
    · split at h
      · split at h
        · cases h
          trivial
        · split at h
          · cases h
            trivial
          · dsimp only at h
            split at h
            · cases h
              trivial
            · cases h
      · cases h
    · cases h

theorem normalizePath_error {homes : String → Option String} {cwd p : String} {e : Failure}
    (h : normalizePath homes cwd p = .error e) : e.IsPath := by
  unfold normalizePath at h
  split at h
  · rename_i e' expanded
    cases h
    exact expandHome_error expanded
  · exact resolvePath_error h

theorem extendName_error {p ext : String} {e : Failure} (h : extendName p ext = .error e) :
    e.IsPath := by
  unfold extendName at h
  split at h
  · cases h
    trivial
  · dsimp only at h
    split at h
    · cases h
      trivial
    · cases h

theorem resolveInclude_go_error {disk : Disk} {cwd input ext : String} :
    ∀ (dirs : List String) (e : Failure),
      resolveInclude.go disk cwd ext input dirs = .error e → e.IsPath := by
  intro dirs
  induction dirs with
  | nil =>
    intro e h
    cases h
  | cons dir rest ih =>
    intro e h
    rw [resolveInclude.go] at h
    cases hr : resolvePath cwd (Path.join dir input) with
    | error e' =>
      rw [hr] at h
      cases h
      exact resolvePath_error hr
    | ok candidate =>
      rw [hr] at h
      dsimp only at h
      split at h
      · rename_i chosen
        cases h
        split at chosen
        · exact extendName_error chosen
        · split at chosen
          · cases chosen
          · split at chosen
            · cases chosen
            · rename_i extended
              cases chosen
              exact extendName_error extended
      · split at h
        · cases h
        · exact ih e h

theorem resolveInclude_error {disk : Disk} {cwd : String} {dirs : List String}
    {input ext : String} {e : Failure} (h : resolveInclude disk cwd dirs input ext = .error e) :
    e.IsPath := by
  unfold resolveInclude at h
  dsimp only at h
  split at h
  · cases h
  · exact resolveInclude_go_error _ e h

theorem childChunks_error {disk : Disk} {cwd : String} {dirs : List String} {content : String}
    {e : Failure} (h : childChunks disk cwd dirs content = .error e) : e.IsPath := by
  unfold childChunks at h
  refine foldlM_error (fun acc header e' step => ?_) _ _ e h
  obtain ⟨start, path⟩ := header
  simp only at step
  split at step
  · cases step
    exact resolveInclude_error ‹_›
  · cases step
  · cases step

/-! ## Walking the files of a run

`sub` gathers an included file. Every lemma here assumes that `sub` fails only on a path,
which `gatherFile_error` establishes one file deeper at a time.
-/

section Walk

variable (g : Gathering) (file : String) {sub : String → Run → Except (Failure × Run) Run}
  (subFails : ∀ p run e, sub p run = .error e → e.1.IsPath)
include subFails

omit subFails in
theorem includedFile_error {name : String} {args : List Arg} {e : Failure}
    (h : includedFile g file name args = .error e) : e.IsPath := by
  unfold includedFile at h
  dsimp only at h
  split at h
  · exact resolveInclude_error (error_of_map h)
  · split at h
    · exact resolveInclude_error (error_of_map h)
    · split at h
      · exact resolveInclude_error (error_of_map h)
      · cases h

theorem commandEntry_error {pl : Place} {name : String} {args : List Arg} {run : Run}
    {e : Failure × Run} (h : commandEntry g file sub pl name args run = .error e) :
    e.1.IsPath := by
  unfold commandEntry at h
  dsimp only at h
  split at h
  · cases h
  · split at h
    · cases h
    · split at h
      · rename_i e' included
        cases h
        exact includedFile_error g file included
      · cases h
      · split at h
        · exact subFails _ _ _ (error_of_map h)
        · cases h

theorem nodeEntry_error {pl : Place} {n : Node} {run : Run} {e : Failure × Run}
    (h : nodeEntry g file sub pl n run = .error e) : e.1.IsPath := by
  unfold nodeEntry at h
  split at h
  · exact commandEntry_error g file subFails h
  · cases h
  · split at h <;> cases h
  · cases h

theorem placeChunks_error {pl : Place} :
    ∀ (chunks : List ChildChunk) (run : Run) (e : Failure × Run),
      placeChunks g file sub pl chunks run = .error e → e.1.IsPath := by
  intro chunks
  induction chunks with
  | nil =>
    intro run e h
    cases h
  | cons c rest ih =>
    intro run e h
    unfold placeChunks at h
    split at h
    · dsimp only at h
      split at h
      · rename_i e' gathered
        cases h
        split at gathered
        · exact subFails _ _ _ gathered
        · cases gathered
      · split at h
        · rename_i e' more
          cases h
          exact ih _ _ more
        · cases h
    · cases h

theorem walkWith_error {idx : Text.LineIndex} {n : Node}
    {inner : WalkState → Except (Failure × Run) (List Entry × WalkState)} {st : WalkState}
    {e : Failure × Run} (innerFails : ∀ st e, inner st = .error e → e.1.IsPath)
    (h : walkWith g file sub idx n inner st = .error e) : e.1.IsPath := by
  unfold walkWith at h
  dsimp only at h
  split at h
  · rename_i e' entry
    cases h
    exact nodeEntry_error g file subFails entry
  · split at h
    · rename_i e' placed
      cases h
      exact placeChunks_error g file subFails _ _ _ placed
    · split at h
      · rename_i e' walked
        cases h
        exact innerFails _ _ walked
      · split at h <;> cases h

omit subFails

mutual

theorem walkNode_error (subFails : ∀ p run e, sub p run = .error e → e.1.IsPath)
    (idx : Text.LineIndex) (n : Node) (st : WalkState) (e : Failure × Run)
    (h : walkNode g file sub idx n st = .error e) : e.1.IsPath := by
  rw [walkNode] at h
  exact walkWith_error g file subFails
    (fun st e inner => walkNodes_error subFails idx n.body st e inner) h
termination_by 2 * sizeOf n + 1
decreasing_by have := Node.sizeOf_body_le n; omega

theorem walkNodes_error (subFails : ∀ p run e, sub p run = .error e → e.1.IsPath)
    (idx : Text.LineIndex) (ns : List Node) (st : WalkState) (e : Failure × Run)
    (h : walkNodes g file sub idx ns st = .error e) : e.1.IsPath := by
  match ns with
  | [] =>
    rw [walkNodes] at h
    cases h
  | n :: ns =>
    rw [walkNodes] at h
    split at h
    · rename_i e' first
      cases h
      exact walkNode_error subFails idx n st e first
    · split at h
      · rename_i e' more
        cases h
        exact walkNodes_error subFails idx ns _ e more
      · cases h
termination_by 2 * sizeOf ns
decreasing_by
  all_goals simp only [List.cons.sizeOf_spec]
  all_goals omega

end

end Walk

/-- Gathering a file, and what it includes at any depth, fails only on a path. -/
theorem gatherFile_error (g : Gathering) :
    ∀ (depth : Nat) (p : String) (run : Run) (e : Failure × Run),
      gatherFile g depth p run = .error e → e.1.IsPath := by
  intro depth
  induction depth with
  | zero =>
    intro p run e h
    rw [gatherFile] at h
    cases h
  | succ depth ih =>
    intro p run e h
    rw [gatherFile] at h
    split at h
    · cases h
    · dsimp only at h
      split at h
      · cases h
      · split at h
        · rename_i e' chunks
          cases h
          exact childChunks_error chunks
        · split at h
          · rename_i e' walked
            cases h
            exact walkNodes_error g p ih _ _ _ _ walked
          · cases h

theorem gather_error {g : Gathering} {p : String} {run : Run} {e : Failure × Run}
    (h : gather g p run = .error e) : e.1.IsPath :=
  gatherFile_error g _ p run e h

/-! ## The settings -/

theorem addGroup_error {rank : Nat} :
    ∀ (names : List String) (table : List (String × Nat)) (e : Failure),
      addGroup rank table names = .error e →
        ∃ name first later, e = .rankConflict name first later := by
  intro names
  induction names with
  | nil =>
    intro table e h
    cases h
  | cons name rest ih =>
    intro table e h
    rw [addGroup] at h
    split at h
    · split at h
      · exact ih _ e h
      · cases h
        exact ⟨_, _, _, rfl⟩
    · exact ih _ e h

theorem rankTable_error :
    ∀ (groups : List String) (table : List (String × Nat)) (rank : Nat) (e : Failure),
      rankTable table rank groups = .error e →
        ∃ name first later, e = .rankConflict name first later := by
  intro groups
  induction groups with
  | nil =>
    intro table rank e h
    cases h
  | cons group rest ih =>
    intro table rank e h
    rw [rankTable] at h
    split at h
    · exact ih _ _ e h
    · rename_i e' added
      cases h
      exact addGroup_error _ _ e added

/-- The configuration of a run fails only on a rank conflict. -/
theorem Config.ofSettings_error {s : Settings} {merge : Bool} {e : Failure}
    (h : Config.ofSettings s merge = .error e) :
    ∃ name first later, e = .rankConflict name first later := by
  unfold Config.ofSettings at h
  split at h
  · rename_i e' ranked
    cases h
    exact rankTable_error _ _ _ e ranked
  · cases h

theorem Config.ofSettings_ok {s : Settings} {merge : Bool} {cfg : Config}
    (h : Config.ofSettings s merge = .ok cfg) :
    cfg.mergeIncluded = merge ∧ cfg.numberSections = s.sectionNumbers := by
  unfold Config.ofSettings at h
  split at h
  · cases h
  · cases h
    exact ⟨rfl, rfl⟩

/-! ## An outline request -/

namespace Session

variable {s : Session} {file : Option String} {merge : Bool} {e : Failure}

theorem outline_without_target (noRoot : s.root = none) : s.outline none merge = (.ok [], s) := by
  simp [outline, noRoot]

/-- A rank conflict answers a request whose target resolves, and leaves the session as it
was: no document has been asked for. -/
theorem outline_of_rankConflict (conflict : Config.ofSettings s.settings merge = .error e)
    (target : (file.isSome || s.root.isSome) = true)
    (resolves : ∀ f, file = some f → ∃ t, normalizePath s.homes s.cwd f = .ok t) :
    s.outline file merge = (.error e, s) := by
  cases file with
  | none =>
    obtain ⟨r, rooted⟩ : ∃ r, s.root = some r :=
      Option.isSome_iff_exists.mp (by simpa using target)
    simp [outline, rooted, conflict]
  | some f =>
    obtain ⟨t, normalized⟩ := resolves f rfl
    simp [outline, normalized, conflict, Except.map]

theorem outline_error (h : (s.outline file merge).1 = .error e) :
    (Config.ofSettings s.settings merge = .error e ∧ (s.outline file merge).2 = s) ∨
      e.IsPath := by
  unfold outline at h ⊢
  dsimp only at h ⊢
  split at h
  · -- the target itself does not resolve
    rename_i e' unresolved
    cases h
    right
    split at unresolved
    · exact normalizePath_error (error_of_map unresolved)
    · cases unresolved
  · cases h
  · split at h
    · cases h
      exact .inl ⟨‹_›, rfl⟩
    · split at h
      · rename_i e' run gathered
        cases h
        exact .inr (gather_error gathered)
      · cases h

/-- An outline request that succeeds gives the empty outline, when there is no target, or the
outline arranged from a run gathered from the target with the configuration of the
settings. -/
theorem outline_ok {entries : List Entry} (h : (s.outline file merge).1 = .ok entries) :
    entries = [] ∨ ∃ cfg target run, Config.ofSettings s.settings merge = .ok cfg ∧
      gather (s.gathering cfg target) target ⟨[], s.cache⟩ = .ok run ∧
      entries = arrange cfg run.forests ((forestOf? run.forests target).getD []) (some target) := by
  unfold outline at h
  dsimp only at h
  split at h
  · cases h
  · cases h
    exact .inl rfl
  · rename_i target _
    split at h
    · cases h
    · rename_i cfg configured
      split at h
      · cases h
      · rename_i run gathered
        cases h
        exact .inr ⟨cfg, target, run, configured, gathered, rfl⟩

end Session

/-- An outline request ends in an outline or in one of two failures. Without a file or a
root file it is the empty outline. With a target whose path resolves, settings that list a
command under two ranks answer the request with that conflict, before any document is
read and with the session left as it was. Any other failure is a path that does not
resolve, the target's own or one met in the run: an unreadable or unparsable file, or an
inclusion that names no file, never fails the request. -/
theorem outline_fails_only_on_ranks_or_paths (s : Session) (file : Option String)
    (merge : Bool) :
    (file = none → s.root = none → s.outline file merge = (.ok [], s)) ∧
    (∀ e, Config.ofSettings s.settings merge = .error e →
      (file.isSome || s.root.isSome) = true →
      (∀ f, file = some f → ∃ t, normalizePath s.homes s.cwd f = .ok t) →
      s.outline file merge = (.error e, s)) ∧
    (∀ e, (s.outline file merge).1 = .error e →
      (Config.ofSettings s.settings merge = .error e ∧ (s.outline file merge).2 = s) ∨
        e.IsPath) := by
  refine ⟨?_, ?_, ?_⟩
  · rintro rfl noRoot
    exact Session.outline_without_target noRoot
  · intro e conflict target resolves
    exact Session.outline_of_rankConflict conflict target resolves
  · intro e failed
    exact Session.outline_error failed

/-- Settings that list the command `x` under ranks 0 and 1. -/
def twiceRanked : Settings := { Settings.standard with sections := ["x", "x"] }

theorem config_twiceRanked :
    Config.ofSettings twiceRanked false = .error (.rankConflict "x" 0 1) := by
  have split : "x".splitOn "|" = ["x"] := by cbv
  have trimmed : Text.trimBlank "x" = "x" := by decide +kernel
  have names : groupNames "x" = ["x"] := by simp [groupNames, split, trimmed]
  simp [Config.ofSettings, twiceRanked, rankTable, addGroup, names]

/-- A session over an empty project whose settings rank `x` twice fails its outline of the
root file with that conflict. -/
theorem outline_twiceRanked :
    Config.ofSettings twiceRanked false = .error (.rankConflict "x" 0 1) ∧
    (Session.mk ⟨[], []⟩ "/" (fun _ => none) twiceRanked (some "/main.tex") [] .empty).outline
        none false =
      (.error (.rankConflict "x" 0 1),
        Session.mk ⟨[], []⟩ "/" (fun _ => none) twiceRanked (some "/main.tex") [] .empty) :=
  ⟨config_twiceRanked,
    (outline_fails_only_on_ranks_or_paths _ none false).2.1 _ config_twiceRanked rfl
      (fun _ named => nomatch named)⟩

end TexToc
