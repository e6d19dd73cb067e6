import TexToc.Proofs.DocumentOrder
import Mathlib.Data.List.Perm.Subperm

/-!
# Splicing unfolds included files along each path

Splicing replaces every included-file entry whose file has a forest, and whose file is not
already being expanded further up, by that file's forest, spliced in turn. Read from the
forests it starts from, the spliced forest is an unfolding: from the top, go into the
entries nested under an entry that stays, and into the forest of an included file that is
replaced, which opens that file for everything below it. The files opened on the way down
are pairwise distinct and none is the root, so every path opens each file at most once and
no path opens more files than there are forests: this is why splicing ends on cyclic
inclusions.

* `Entry.Expands`: the included-file entries that splicing replaces.
* `Unfolds`: the entries reached by unfolding, with the files opened on the way down.
* `mem_preorder_spliceWith`: the entries of a spliced forest are exactly the entries reached
  by unfolding that are not replaced themselves, each with its nested entries spliced.
* `spliceWith_append`, `spliceWith_expand_at`: splicing works entry by entry and replaces an
  included file at its own place, so a file included twice side by side is expanded twice.
* `splice_unfolds_included_files`: the statement for the splice of a run.
-/

namespace TexToc.Outline

open Entry

@[simp] theorem Entry.label_withChildren (e : Entry) (cs : List Entry) :
    (e.withChildren cs).label = e.label := rfl

/-- An included-file entry that splicing replaces while the files `expanding` are being
expanded: its file has a forest and is not among them. -/
def Entry.Expands (forests : Forests) (expanding : List String) (e : Entry) : Prop :=
  e.kind = .included ∧ e.label ∉ expanding ∧ (forestOf? forests e.label).isSome

/-! ## Splicing entry by entry -/

section Splicing

variable {forests : Forests} {expanding : List String}

theorem spliceWith_cons_expand {e : Entry} {sub : List Entry} (included : e.kind = .included)
    (fresh : e.label ∉ expanding) (found : forestOf? forests e.label = some sub)
    (rest : List Entry) :
    spliceWith forests expanding (e :: rest) =
      spliceWith forests (e.label :: expanding) sub ++ spliceWith forests expanding rest := by
  rw [spliceWith, dif_pos ⟨included, fresh⟩]
  split
  · rename_i sub' found'
    rw [found] at found'
    cases found'
    rfl
  · rename_i missing
    simp [found] at missing

theorem spliceWith_cons_keep {e : Entry} (kept : ¬ e.Expands forests expanding)
    (rest : List Entry) :
    spliceWith forests expanding (e :: rest) =
      e.withChildren (spliceWith forests expanding e.children) ::
        spliceWith forests expanding rest := by
  rw [spliceWith]
  split
  · rename_i expands
    split
    · rename_i sub found
      exact absurd ⟨expands.1, expands.2, by simp [found]⟩ kept
    · rfl
  · rfl

/-- Splicing works entry by entry. -/
theorem spliceWith_append (as bs : List Entry) :
    spliceWith forests expanding (as ++ bs) =
      spliceWith forests expanding as ++ spliceWith forests expanding bs := by
  induction as with
  | nil => simp [spliceWith]
  | cons e rest ih =>
    by_cases expands : e.Expands forests expanding
    · obtain ⟨included, fresh, found⟩ := expands
      obtain ⟨sub, found⟩ := Option.isSome_iff_exists.mp found
      rw [List.cons_append, spliceWith_cons_expand included fresh found,
        spliceWith_cons_expand included fresh found, ih, List.append_assoc]
    · rw [List.cons_append, spliceWith_cons_keep expands, spliceWith_cons_keep expands, ih,
        List.cons_append]

/-- An included file that splicing replaces is replaced at its own place by its spliced
forest, the file being open below it. -/
theorem spliceWith_expand_at {pre post sub : List Entry} {m : Entry}
    (included : m.kind = .included) (fresh : m.label ∉ expanding)
    (found : forestOf? forests m.label = some sub) :
    spliceWith forests expanding (pre ++ m :: post) =
      spliceWith forests expanding pre ++ spliceWith forests (m.label :: expanding) sub ++
        spliceWith forests expanding post := by
  rw [spliceWith_append, spliceWith_cons_expand included fresh found, List.append_assoc]

/-- The entries that splicing one entry of a forest gives are among those of the whole. -/
theorem preorder_spliceWith_of_mem {e : Entry} {es : List Entry} (mem : e ∈ es) {y : Entry}
    (hy : y ∈ preorder (spliceWith forests expanding [e])) :
    y ∈ preorder (spliceWith forests expanding es) := by
  obtain ⟨pre, post, rfl⟩ := List.append_of_mem mem
  rw [← List.singleton_append, spliceWith_append, spliceWith_append, preorder_append,
    preorder_append]
  simp [hy]

end Splicing

/-! ## Unfolding -/

/-- `Unfolds forests expanding es opened x`: unfolding the forest `es`, with the files
`expanding` being expanded, reaches the entry `x` after opening the files `opened`, the latest
first. Unfolding goes into the entries nested under an entry that stays, and into the forest
of an included file that is replaced, which opens that file below it. -/
inductive Unfolds (forests : Forests) : List String → List Entry → List String → Entry → Prop
  | top {expanding : List String} {es : List Entry} {x : Entry} :
      x ∈ es → Unfolds forests expanding es [] x
  | under {expanding : List String} {es : List Entry} {e x : Entry} {opened : List String} :
      e ∈ es → ¬ e.Expands forests expanding → Unfolds forests expanding e.children opened x →
      Unfolds forests expanding es opened x
  | inside {expanding : List String} {es sub : List Entry} {e x : Entry} {opened : List String} :
      e ∈ es → e.kind = .included → e.label ∉ expanding → forestOf? forests e.label = some sub →
      Unfolds forests (e.label :: expanding) sub opened x →
      Unfolds forests expanding es (opened ++ [e.label]) x

namespace Unfolds

variable {forests : Forests} {expanding opened : List String} {es : List Entry} {x : Entry}

/-- What is reached from some entries of a forest is reached from the forest. -/
theorem of_subset {es' : List Entry} (reach : Unfolds forests expanding es opened x)
    (sub : ∀ e ∈ es, e ∈ es') : Unfolds forests expanding es' opened x := by
  cases reach with
  | top mem => exact .top (sub _ mem)
  | under mem kept below => exact .under (sub _ mem) kept below
  | inside mem included fresh found below => exact .inside (sub _ mem) included fresh found below

/-- The files opened on the way down are pairwise distinct, and none of them was being
expanded at the start. -/
theorem opened_fresh (reach : Unfolds forests expanding es opened x) :
    opened.Nodup ∧ ∀ f ∈ opened, f ∉ expanding := by
  induction reach with
  | top => simp
  | under _ _ _ ih => exact ih
  | @inside expanding _ _ e _ opened _ _ fresh _ _ ih =>
    obtain ⟨distinct, unopened⟩ := ih
    have new : e.label ∉ opened := fun mem => unopened _ mem (List.mem_cons_self ..)
    refine ⟨List.nodup_append.2 ⟨distinct, by simp, fun f mem g single same => ?_⟩, fun f mem => ?_⟩
    · rw [List.mem_singleton.1 single] at same
      exact new (same ▸ mem)
    rcases List.mem_append.1 mem with mem | mem
    · exact fun outer => unopened f mem (List.mem_cons_of_mem _ outer)
    · rw [List.mem_singleton.1 mem]
      exact fresh

theorem nodup (reach : Unfolds forests expanding es opened x) (distinct : expanding.Nodup) :
    (opened ++ expanding).Nodup := by
  obtain ⟨opens, unopened⟩ := reach.opened_fresh
  exact List.nodup_append.2 ⟨opens, distinct, fun f mem g mem' same => unopened f mem (same ▸ mem')⟩

/-- Every file opened on the way down has a forest. -/
theorem opened_found (reach : Unfolds forests expanding es opened x) :
    ∀ f ∈ opened, (f, (forestOf? forests f).getD []) ∈ forests := by
  induction reach with
  | top => simp
  | under _ _ _ ih => exact ih
  | inside _ _ _ found _ ih =>
    intro f mem
    rcases List.mem_append.1 mem with mem | mem
    · exact ih f mem
    · rw [List.mem_singleton.1 mem, found]
      exact mem_of_forestOf? found

/-- No path opens more files than there are forests. -/
theorem opened_length_le (reach : Unfolds forests expanding es opened x) :
    opened.length ≤ forests.length := by
  have keys : opened ⊆ forests.map (·.1) := fun f mem =>
    List.mem_map.2 ⟨_, reach.opened_found f mem, rfl⟩
  simpa using (List.Nodup.subperm reach.opened_fresh.1 keys).length_le

end Unfolds

section Splicing

variable {forests : Forests}

/-- An entry of the splice of a forest whose first entry stays is that entry, an entry under
it, or an entry of the rest, each reached as it is reached from where it stands. -/
theorem unfolds_cons_keep {y e : Entry} {expanding : List String} {rest : List Entry}
    (kept : ¬ e.Expands forests expanding)
    (children : y ∈ preorder (spliceWith forests expanding e.children) → ∃ opened x,
      Unfolds forests expanding e.children opened x ∧ ¬ x.Expands forests (opened ++ expanding) ∧
        y = x.withChildren (spliceWith forests (opened ++ expanding) x.children))
    (later : y ∈ preorder (spliceWith forests expanding rest) → ∃ opened x,
      Unfolds forests expanding rest opened x ∧ ¬ x.Expands forests (opened ++ expanding) ∧
        y = x.withChildren (spliceWith forests (opened ++ expanding) x.children))
    (mem : y ∈ preorder (spliceWith forests expanding (e :: rest))) :
    ∃ opened x, Unfolds forests expanding (e :: rest) opened x ∧
      ¬ x.Expands forests (opened ++ expanding) ∧
      y = x.withChildren (spliceWith forests (opened ++ expanding) x.children) := by
  simp only [spliceWith_cons_keep kept, preorder_cons, withChildren_children, List.cons_append,
    List.mem_cons, List.mem_append] at mem
  rcases mem with rfl | mem | mem
  · exact ⟨[], e, .top (List.mem_cons_self ..), by simpa using kept, by simp⟩
  · obtain ⟨opened, x, reach, keptX, rfl⟩ := children mem
    exact ⟨opened, x, .under (List.mem_cons_self ..) kept reach, keptX, rfl⟩
  · obtain ⟨opened, x, reach, keptX, rfl⟩ := later mem
    exact ⟨opened, x, reach.of_subset fun _ m => List.mem_cons_of_mem _ m, keptX, rfl⟩

/-- Every entry of a spliced forest is reached by unfolding and is not replaced itself; its
own nested entries are spliced with the files opened above it. -/
theorem unfolds_of_mem_preorder {y : Entry} {expanding : List String} {es : List Entry}
    (mem : y ∈ preorder (spliceWith forests expanding es)) :
    ∃ opened x, Unfolds forests expanding es opened x ∧
      ¬ x.Expands forests (opened ++ expanding) ∧
      y = x.withChildren (spliceWith forests (opened ++ expanding) x.children) := by
  induction expanding, es using spliceWith.induct forests with
  | case1 expanding => simp [spliceWith] at mem
  | case2 expanding e rest expands sub found _ ihSub ihRest =>
    rw [spliceWith_cons_expand expands.1 expands.2 found, preorder_append,
      List.mem_append] at mem
    rcases mem with mem | mem
    · -- inside the forest of the file replaced here, which is open below it
      obtain ⟨opened, x, reach, kept, rfl⟩ := ihSub mem
      exact ⟨opened ++ [e.label], x,
        .inside (List.mem_cons_self ..) expands.1 expands.2 found reach,
        by simpa using kept, by simp⟩
    · obtain ⟨opened, x, reach, kept, rfl⟩ := ihRest mem
      exact ⟨opened, x, reach.of_subset fun _ m => List.mem_cons_of_mem _ m, kept, rfl⟩
  | case3 expanding e rest expands missing ihChildren ihRest =>
    exact unfolds_cons_keep (fun h => by simpa [missing] using h.2.2) ihChildren ihRest mem
  | case4 expanding e rest stays ihChildren ihRest =>
    exact unfolds_cons_keep (fun h => stays ⟨h.1, h.2.1⟩) ihChildren ihRest mem

/-- Every entry reached by unfolding that is not replaced itself is an entry of the spliced
forest. -/
theorem mem_preorder_of_unfolds {expanding opened : List String} {es : List Entry} {x : Entry}
    (reach : Unfolds forests expanding es opened x)
    (kept : ¬ x.Expands forests (opened ++ expanding)) :
    x.withChildren (spliceWith forests (opened ++ expanding) x.children) ∈
      preorder (spliceWith forests expanding es) := by
  induction reach with
  | top mem =>
    refine preorder_spliceWith_of_mem mem ?_
    rw [spliceWith_cons_keep (by simpa using kept)]
    simp
  | under mem keptE _ ih =>
    refine preorder_spliceWith_of_mem mem ?_
    rw [spliceWith_cons_keep keptE]
    simp [ih kept]
  | inside mem included fresh found _ ih =>
    refine preorder_spliceWith_of_mem mem ?_
    rw [spliceWith_cons_expand included fresh found, preorder_append]
    refine List.mem_append.2 (.inl ?_)
    simpa using ih (by simpa using kept)

/-- The entries of a spliced forest are exactly the entries reached by unfolding that are not
replaced themselves, each with its nested entries spliced with the files opened above it. -/
theorem mem_preorder_spliceWith {y : Entry} {expanding : List String} {es : List Entry} :
    y ∈ preorder (spliceWith forests expanding es) ↔
      ∃ opened x, Unfolds forests expanding es opened x ∧
        ¬ x.Expands forests (opened ++ expanding) ∧
        y = x.withChildren (spliceWith forests (opened ++ expanding) x.children) := by
  constructor
  · exact unfolds_of_mem_preorder
  · rintro ⟨opened, x, reach, kept, rfl⟩
    exact mem_preorder_of_unfolds reach kept

end Splicing

/-- The root of a run is at most one file. -/
theorem rootExpanding_nodup (root : Option String) : (rootExpanding root).Nodup := by
  unfold rootExpanding
  split
  · split <;> simp
  · simp

/-- Splicing the forests of a run unfolds its included files along each path.

An entry of the spliced forest comes from an entry reached by unfolding, through files opened
on the way down that are pairwise distinct, none the root, and no more than there are
forests. An included file that has a forest stays an entry only where it is the root or one
of the files opened above it; every other one is replaced, at its own place, by the spliced
forest of its file, so that a file included twice side by side is expanded twice. -/
theorem splice_unfolds_included_files (forests : Forests) (es : List Entry)
    (root : Option String) :
    (∀ y ∈ preorder (splice forests es root), ∃ opened x,
      Unfolds forests (rootExpanding root) es opened x ∧
      (opened ++ rootExpanding root).Nodup ∧ opened.length ≤ forests.length ∧
      y = x.withChildren (spliceWith forests (opened ++ rootExpanding root) x.children) ∧
      (y.kind = .included → (forestOf? forests y.label).isSome →
        y.label ∈ opened ++ rootExpanding root)) ∧
    (∀ pre m post sub, es = pre ++ m :: post → m.kind = .included →
      m.label ∉ rootExpanding root → forestOf? forests m.label = some sub →
      splice forests es root = splice forests pre root ++
        spliceWith forests (m.label :: rootExpanding root) sub ++ splice forests post root) := by
  constructor
  · intro y mem
    obtain ⟨opened, x, reach, kept, rfl⟩ := unfolds_of_mem_preorder mem
    refine ⟨opened, x, reach, reach.nodup (rootExpanding_nodup root), reach.opened_length_le,
      rfl, fun included found => ?_⟩
    rw [label_withChildren] at found ⊢
    exact Classical.byContradiction fun unopened =>
      kept ⟨by simpa using included, unopened, found⟩
  · rintro pre m post sub rfl included fresh found
    exact spliceWith_expand_at included fresh found

/-- Two files that include each other, and a document that includes the first twice side by
side: each copy opens `a`, then `b`, whose entry for `a` stays, `a` being open above it. -/
example :
    splice [("a", [⟨.included, "input", "b", 0, 0, 0, "a", []⟩]),
        ("b", [⟨.included, "input", "a", 0, 0, 0, "b", []⟩])]
      [⟨.included, "input", "a", 0, 0, 0, "m", []⟩, ⟨.included, "input", "a", 0, 0, 0, "m", []⟩]
      none =
    [⟨.included, "input", "a", 0, 0, 0, "b", []⟩, ⟨.included, "input", "a", 0, 0, 0, "b", []⟩] := by
  cbv

end TexToc.Outline
