import TexToc.Proofs.SplicedFiles
import TexToc.Proofs.LevelNesting

/-!
# Splicing twice changes nothing, unless a cycle is left behind

Splicing replaces each included-file entry by the forest of its file, except where the file
is the root or is open further up; those entries stay. A second splice sees none of the files
opened by the first, only the root, so it replaces every entry that stays for being open
above it. Whether the second splice changes anything is therefore a question about cycles: an
entry stays for being open above it exactly where unfolding runs around a cycle of inclusions
that avoids the root.

* `Includes forests avoid f g`: the forest of `f` holds an included-file entry for `g`, at any
  depth, `g` has a forest, and neither file is one of `avoid`.
* `Settled`: every included file with a forest is one of the files open, so splicing leaves the
  forest as it is (`spliceWith_settled`).
* `Unfolds.reaches`: every file opened on the way down to an entry is reached from an included
  file of the forest, and the entry's own file is reached from each of them in one step or
  more. An entry that stays for being open above itself thus closes a cycle.
* `splice_idempotent`: with no cycle avoiding the root reachable from the forest, a second
  splice changes nothing. An empty root names no file, so a file named by the empty string is
  expanded like any other; including itself, it is expanded again by a second splice
  (`splice_twice_empty_root`).
-/

namespace TexToc.Outline

open Entry Relation

/-- The file `f` includes the file `g`, neither being one of the files `avoid`: the forest of
`f` holds, at any depth, an included-file entry for `g`, and `g` has a forest. -/
def Includes (forests : Forests) (avoid : List String) (f g : String) : Prop :=
  f ∉ avoid ∧ g ∉ avoid ∧ (forestOf? forests g).isSome ∧
    ∃ es, forestOf? forests f = some es ∧ ∃ e ∈ preorder es, e.kind = .included ∧ e.label = g

/-- Every included file of the forest, at any depth, that has a forest is one of the files
`expanding`: splicing with those files open has nothing to replace. -/
def Settled (forests : Forests) (expanding : List String) (es : List Entry) : Prop :=
  ∀ y ∈ preorder es, y.kind = .included → (forestOf? forests y.label).isSome →
    y.label ∈ expanding

theorem mem_preorder_of_mem {e : Entry} {es : List Entry} (mem : e ∈ es) : e ∈ preorder es :=
  mem_preorder_of_single mem (by simp)

theorem mem_preorder_of_children {e : Entry} {es : List Entry} (mem : e ∈ es) {x : Entry}
    (inner : x ∈ preorder e.children) : x ∈ preorder es :=
  mem_preorder_of_single mem (by simp [inner])

/-! ## A settled forest is spliced to itself -/

section Settled

variable {forests : Forests} {expanding : List String} {e : Entry} {rest : List Entry}

theorem Settled.children (settled : Settled forests expanding (e :: rest)) :
    Settled forests expanding e.children :=
  fun y mem => settled y (by simp [mem])

theorem Settled.later (settled : Settled forests expanding (e :: rest)) :
    Settled forests expanding rest :=
  fun y mem => settled y (by simp [mem])

theorem spliceWith_settled {es : List Entry} (settled : Settled forests expanding es) :
    spliceWith forests expanding es = es := by
  induction expanding, es using spliceWith.induct forests with
  | case1 expanding => simp [spliceWith]
  | case2 expanding e rest expands sub found _ _ _ =>
    exact absurd (settled e (by simp) expands.1 (by simp [found])) expands.2
  | case3 expanding e rest expands missing ihChildren ihRest =>
    rw [spliceWith_cons_keep (fun h => by simpa [missing] using h.2.2),
      ihChildren (Settled.children settled), ihRest (Settled.later settled), withChildren_self]
  | case4 expanding e rest stays ihChildren ihRest =>
    rw [spliceWith_cons_keep (fun h => stays ⟨h.1, h.2.1⟩),
      ihChildren (Settled.children settled), ihRest (Settled.later settled), withChildren_self]

end Settled

/-! ## Files reached on the way down -/

section Reaching

variable {forests : Forests} {avoid : List String}

/-- An included-file entry of a file's forest gives an inclusion. -/
theorem Includes.of_mem {f : String} {sub : List Entry} {m : Entry} (outside : f ∉ avoid)
    (found : forestOf? forests f = some sub) (inner : m ∈ preorder sub)
    (included : m.kind = .included) (labelOutside : m.label ∉ avoid)
    (labelFound : (forestOf? forests m.label).isSome) :
    Includes forests avoid f m.label :=
  ⟨outside, labelOutside, labelFound, sub, found, m, inner, included, rfl⟩

/-- A file from which a path of inclusions starts is outside `avoid` and has a forest, as
is the file where the path ends. -/
theorem Includes.source {a f : String} (path : ReflTransGen (Includes forests avoid) a f)
    (outside : f ∉ avoid) (found : (forestOf? forests f).isSome) :
    a ∉ avoid ∧ (forestOf? forests a).isSome := by
  rcases path.cases_head with rfl | ⟨c, step, -⟩
  · exact ⟨outside, found⟩
  · obtain ⟨sourceOutside, -, -, es, sourceFound, -⟩ := step
    exact ⟨sourceOutside, by simp [sourceFound]⟩

/-- Unfolding from `es` with the files `expanding` open, each file opened on the way down to
`x` is outside `avoid`, has a forest and is reached from an included file of `es`, and the
file of `x`, if `x` is an included file with a forest outside `avoid`, is reached from it in
one step or more. Where no file is opened, `x` is an entry of `es`. -/
theorem Unfolds.reaches {expanding opened : List String} {es : List Entry} {x : Entry}
    (reach : Unfolds forests expanding es opened x) (closed : ∀ f ∈ avoid, f ∈ expanding) :
    (opened = [] → x ∈ preorder es) ∧
    ∀ f ∈ opened, f ∉ avoid ∧ (forestOf? forests f).isSome ∧
      (∃ m ∈ preorder es, m.kind = .included ∧ ReflTransGen (Includes forests avoid) m.label f) ∧
      (x.kind = .included → (forestOf? forests x.label).isSome → x.label ∉ avoid →
        TransGen (Includes forests avoid) f x.label) := by
  induction reach with
  | top mem => exact ⟨fun _ => mem_preorder_of_mem mem, by simp⟩
  | under mem _ _ ih =>
    obtain ⟨unopened, chain⟩ := ih closed
    refine ⟨fun none => mem_preorder_of_children mem (unopened none), fun f opened => ?_⟩
    obtain ⟨outside, found, ⟨m, inner, included, path⟩, toX⟩ := chain f opened
    exact ⟨outside, found, ⟨m, mem_preorder_of_children mem inner, included, path⟩, toX⟩
  | @inside expanding es sub e x opened mem included fresh found _ ih =>
    obtain ⟨unopened, chain⟩ := ih fun f avoided => List.mem_cons_of_mem _ (closed f avoided)
    have eOutside : e.label ∉ avoid := fun avoided => fresh (closed _ avoided)
    have fromE : ∀ f ∈ opened, ReflTransGen (Includes forests avoid) e.label f := by
      intro f inOpened
      obtain ⟨outside, fFound, ⟨m, inner, mIncluded, path⟩, -⟩ := chain f inOpened
      obtain ⟨mOutside, mFound⟩ := Includes.source path outside fFound
      exact .head (Includes.of_mem eOutside found inner mIncluded mOutside mFound) path
    refine ⟨fun none => absurd none (by simp), fun f inOpened => ?_⟩
    rcases List.mem_append.1 inOpened with inOpened | opensE
    · obtain ⟨outside, fFound, -, toX⟩ := chain f inOpened
      exact ⟨outside, fFound, ⟨e, mem_preorder_of_mem mem, included, fromE f inOpened⟩, toX⟩
    · rw [List.mem_singleton.1 opensE]
      refine ⟨eOutside, by simp [found], ⟨e, mem_preorder_of_mem mem, included, .refl⟩,
        fun xIncluded xFound xOutside => ?_⟩
      rcases opened with _ | ⟨g, later⟩
      · exact .single
          (Includes.of_mem eOutside found (unopened rfl) xIncluded xOutside xFound)
      · exact TransGen.trans_right (fromE g (List.mem_cons_self ..))
          ((chain g (List.mem_cons_self ..)).2.2.2 xIncluded xFound xOutside)

end Reaching

/-! ## Splicing twice -/

/-- With no cycle of inclusions avoiding the root reachable from an included file of the
forest, every included file with a forest left in the splice is the root. -/
theorem splice_settled {forests : Forests} {es : List Entry} {root : Option String}
    (acyclic : ∀ m ∈ preorder es, m.kind = .included → ∀ f,
      ReflTransGen (Includes forests (rootExpanding root)) m.label f →
      ¬ TransGen (Includes forests (rootExpanding root)) f f) :
    Settled forests (rootExpanding root) (splice forests es root) := by
  intro y mem included found
  unfold splice at mem
  obtain ⟨opened, x, reach, kept, rfl⟩ := unfolds_of_mem_preorder mem
  rw [kind_withChildren] at included
  rw [label_withChildren] at found ⊢
  -- the entry stays, so its file is open above it or is the root
  have stays : x.label ∈ opened ++ rootExpanding root :=
    Classical.byContradiction fun unopened => kept ⟨included, unopened, found⟩
  rcases List.mem_append.1 stays with inOpened | atRoot
  · -- open above itself: unfolding ran around a cycle
    obtain ⟨outside, -, ⟨m, inner, mIncluded, path⟩, toX⟩ :=
      (reach.reaches fun _ avoided => avoided).2 _ inOpened
    exact absurd (toX included found outside) (acyclic m inner mIncluded _ path)
  · exact atRoot

/-- Splicing a forest a second time changes nothing when no cycle of inclusions among files
other than the root is reachable from its included files; a root given as the empty string
names no file. -/
theorem splice_idempotent (forests : Forests) (es : List Entry) (root : Option String)
    (acyclic : ∀ m ∈ preorder es, m.kind = .included → ∀ f,
      ReflTransGen (Includes forests (rootExpanding root)) m.label f →
      ¬ TransGen (Includes forests (rootExpanding root)) f f) :
    splice forests (splice forests es root) root = splice forests es root :=
  spliceWith_settled (splice_settled acyclic)

/-- A root that includes `a.tex`, whose forest includes the root back after a section. -/
def rootIncludedBack : Forests :=
  [("main.tex", [⟨.included, "input", "a.tex", 0, 0, 0, "main.tex", []⟩]),
   ("a.tex", [⟨.section, "section", "A", 0, 0, 0, "a.tex", []⟩,
     ⟨.included, "input", "main.tex", 10, 0, 0, "a.tex", []⟩])]

/-- Away from the root `main.tex`, no file of `rootIncludedBack` includes another. -/
theorem rootIncludedBack_no_inclusion (f g : String) :
    ¬ Includes rootIncludedBack ["main.tex"] f g := by
  rintro ⟨fOut, gOut, -, es, found, e, inner, included, rfl⟩
  simp only [rootIncludedBack, forestOf?] at found
  split at found
  · -- the root is avoided
    rename_i root
    exact fOut (by simp [← root])
  · split at found
    · -- the forest of `a.tex` includes the root only
      cases found
      simp at inner
      rcases inner with rfl | rfl
      · cases included
      · exact gOut (List.mem_singleton_self _)
    · cases found

/-- A file that includes the root back: the cycle runs through the root, so a second splice
changes nothing. -/
theorem rootIncludedBack_splice_idempotent :
    (∀ m ∈ preorder [⟨.included, "input", "a.tex", 0, 0, 0, "main.tex", []⟩],
        m.kind = .included → ∀ f,
        ReflTransGen (Includes rootIncludedBack (rootExpanding (some "main.tex"))) m.label f →
        ¬ TransGen (Includes rootIncludedBack (rootExpanding (some "main.tex"))) f f) ∧
      splice rootIncludedBack
          (splice rootIncludedBack [⟨.included, "input", "a.tex", 0, 0, 0, "main.tex", []⟩]
            (some "main.tex")) (some "main.tex") =
        splice rootIncludedBack [⟨.included, "input", "a.tex", 0, 0, 0, "main.tex", []⟩]
          (some "main.tex") := by
  have acyclic : ∀ m ∈ preorder [⟨.included, "input", "a.tex", 0, 0, 0, "main.tex", []⟩],
      m.kind = .included → ∀ f,
      ReflTransGen (Includes rootIncludedBack (rootExpanding (some "main.tex"))) m.label f →
      ¬ TransGen (Includes rootIncludedBack (rootExpanding (some "main.tex"))) f f := by
    intro m _ _ f _ cycle
    obtain ⟨c, step, -⟩ := TransGen.head'_iff.1 cycle
    exact rootIncludedBack_no_inclusion f c (by simpa [rootExpanding] using step)
  exact ⟨acyclic, splice_idempotent _ _ _ acyclic⟩

/-- A file named by the empty string whose forest is a section and then the file itself. -/
def selfIncludedEmpty : Forests :=
  [("", [⟨.section, "section", "A", 0, 0, 0, "", []⟩, ⟨.included, "input", "", 0, 0, 0, "", []⟩])]

/-- With the empty string as the root, the only cycle runs through the file the root names,
yet a second splice expands that file once more: an empty root is no root, so the first
splice expanded it, leaving its inclusion of itself open above itself. -/
theorem splice_twice_empty_root :
    (∀ m ∈ preorder [⟨.included, "input", "", 0, 0, 0, "", []⟩], m.kind = .included → ∀ f,
        ReflTransGen (Includes selfIncludedEmpty [""]) m.label f →
        ¬ TransGen (Includes selfIncludedEmpty [""]) f f) ∧
      splice selfIncludedEmpty
          (splice selfIncludedEmpty [⟨.included, "input", "", 0, 0, 0, "", []⟩] (some ""))
          (some "") ≠
        splice selfIncludedEmpty [⟨.included, "input", "", 0, 0, 0, "", []⟩] (some "") := by
  refine ⟨fun m _ _ f _ cycle => ?_, fun same => ?_⟩
  · -- every inclusion starts at a file with a forest, and the only one is the root
    obtain ⟨c, ⟨fOut, -, -, es, found, -⟩, -⟩ := TransGen.head'_iff.1 cycle
    simp only [selfIncludedEmpty, forestOf?] at found
    split at found
    · rename_i root
      exact fOut (by simp [← root])
    · cases found
  · have twice : (splice selfIncludedEmpty
        (splice selfIncludedEmpty [⟨.included, "input", "", 0, 0, 0, "", []⟩] (some ""))
        (some "")).length = 3 := by cbv
    have once : (splice selfIncludedEmpty [⟨.included, "input", "", 0, 0, 0, "", []⟩]
        (some "")).length = 2 := by cbv
    have := congrArg List.length same
    omega

end TexToc.Outline
