import TexToc.Outline.Entry

/-!
Splicing included files into a forest.

A run keeps, for every file it read, the flat forest of that file's entries. Splicing
replaces each included-file entry whose file has a forest by that forest, spliced in turn,
at the entry's place. A file that is being expanded on the way down, or that is the root
of the run, is not expanded again there: its entry stays as a leaf, so inclusion cycles end.
A file included twice side by side is expanded twice.

Each expansion takes a file off the files still available on that path
(`available_cons_lt`), which bounds the recursion together with the size of the forest at
hand.

* `Forests`, `forestOf?`: the forests of a run, by file.
* `splice`: the spliced forest, with `rootExpanding` the files not expanded from the top.
-/

namespace TexToc.Outline

/-- The forest of entries of each file read in a run, in the order the files were met. -/
abbrev Forests := List (String × List Entry)

/-- The forest of a file, if the run read it. -/
def forestOf? (forests : Forests) (file : String) : Option (List Entry) :=
  match forests with
  | [] => none
  | (f, es) :: rest => if f = file then some es else forestOf? rest file

/-- The number of forests whose file is not in `expanding`. -/
def available (forests : Forests) (expanding : List String) : Nat :=
  match forests with
  | [] => 0
  | (f, _) :: rest => (if f ∈ expanding then 0 else 1) + available rest expanding

/-- Expanding one more file leaves no more forests available. -/
theorem available_cons_le (forests : Forests) (file : String) (expanding : List String) :
    available forests (file :: expanding) ≤ available forests expanding := by
  induction forests with
  | nil => simp [available]
  | cons p rest ih =>
    obtain ⟨f, es⟩ := p
    simp only [available, List.mem_cons]
    by_cases h : f ∈ expanding <;> by_cases h2 : f = file <;> simp [h, h2] <;> omega

/-- Expanding a file that has a forest and is not yet expanded leaves fewer forests
available. -/
theorem available_cons_lt {forests : Forests} {file : String} {expanding : List String}
    {es : List Entry} (hfind : forestOf? forests file = some es) (hnew : file ∉ expanding) :
    available forests (file :: expanding) < available forests expanding := by
  induction forests with
  | nil => simp [forestOf?] at hfind
  | cons p rest ih =>
    obtain ⟨f, fs⟩ := p
    simp only [forestOf?] at hfind
    simp only [available, List.mem_cons]
    by_cases hf : f = file
    · subst hf
      have := available_cons_le rest f expanding
      simp [hnew]
      omega
    · rw [if_neg hf] at hfind
      have := ih hfind
      by_cases h : f ∈ expanding <;> simp [h, hf] <;> omega

/-- Splice the forests of included files into `es`; the files in `expanding` are not
expanded again. -/
def spliceWith (forests : Forests) (expanding : List String) : List Entry → List Entry
  | [] => []
  | e :: rest =>
    if hk : e.kind = .included ∧ e.label ∉ expanding then
      match hf : forestOf? forests e.label with
      | some sub =>
        have := available_cons_lt hf hk.2
        spliceWith forests (e.label :: expanding) sub ++ spliceWith forests expanding rest
      | none => e.withChildren (spliceWith forests expanding e.children) ::
          spliceWith forests expanding rest
    else e.withChildren (spliceWith forests expanding e.children) ::
        spliceWith forests expanding rest
termination_by es => (available forests expanding, sizeOf es)
decreasing_by
  all_goals first
    | exact Prod.Lex.left _ _ this
    | (apply Prod.Lex.right; cases e; simp <;> omega)

/-- The files not expanded from the top of a run: its root file, if it is named. -/
def rootExpanding (root : Option String) : List String :=
  match root with
  | some r => if r.isEmpty then [] else [r]
  | none => []

/-- Splice the forests of included files into `es`; the root of the run, if it is named,
is never expanded. -/
def splice (forests : Forests) (es : List Entry) (root : Option String) : List Entry :=
  spliceWith forests (rootExpanding root) es

end TexToc.Outline
