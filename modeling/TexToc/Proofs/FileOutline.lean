import Mathlib
import TexToc.Proofs.WalkOrder
import TexToc.Proofs.DocumentOrder

/-!
# The outline of one file

The walk of a file gives each node the entries of the child documents due there, then the
node's own entry with the entries of its body nested under it. Which child documents are
due where is decided by a list of pending documents, earliest header first, from which the
walk takes the front while the header stands on or before the first line of the node.

This module describes the outline the walk builds without that list (`outlineFrom`): a
child document goes to the first node, in walk order, whose first line is on or after the
line of its header (`dueAt`), just ahead of that node's own entry and on the same level,
one character before the node. Child documents whose headers stand below the first line of
every node are never placed (`waiting`). The description holds because child documents
come in the order of their header lines (`childChunks_sorted`), so the front of the pending
list is exactly what is due.

From the description, and from the order in which a walk meets the nodes of a text
(`Markup.parse_walk_ordered`), the outline of a file lists its entries in the order of the
text: in preorder, offsets and first lines never decrease, every entry's descendants lie on
its lines, and only environments have entries nested under them.

* `walkNodes_outline`: the walk builds `outlineFrom`, and leaves the documents still
  waiting.
* `outline_follows_text`: the statement for the outline of every file.
-/

namespace TexToc

open Markup

/-! ## Child documents in the order of their headers -/

/-- Chunk headers are found one after another, each starting after the one before. -/
theorem childHeaders_sorted (cs : Array Char) (i : Nat) :
    (∀ h ∈ childHeaders cs i, i ≤ h.1) ∧ (childHeaders cs i).Pairwise (·.1 < ·.1) := by
  fun_induction childHeaders cs i with
  | case1 i _ e path _ moved ih =>
    obtain ⟨after, sorted⟩ := ih
    refine ⟨fun h mem => ?_, List.pairwise_cons.mpr ⟨fun h mem => ?_, sorted⟩⟩
    · rcases List.mem_cons.mp mem with rfl | later
      · exact Nat.le_refl _
      · have := after h later
        omega
    · have := after h mem
      omega
  | case2 i => simp
  | case3 i _ _ ih => exact ⟨fun h mem => by have := ih.1 h mem; omega, ih.2⟩
  | case4 => simp

/-- A later index is on a later line, or the same. -/
theorem lineFeedsBetween_le_of_le (cs : Array Char) {a b : Nat} (le : a ≤ b) :
    Scan.lineFeedsBetween cs 0 a ≤ Scan.lineFeedsBetween cs 0 b := by
  unfold Scan.lineFeedsBetween
  rw [← Array.count_toList, ← Array.count_toList, Array.toList_extract, Array.toList_extract,
    List.extract_eq_take_drop, List.extract_eq_take_drop, List.drop_zero]
  exact (List.take_sublist_take_left (by omega)).count_le _

/-- Folding headers into child documents, where each header is dropped or appended with its
line, keeps the documents in the order of their lines, provided the headers come in order
and the line grows with the index. By induction on the headers left. -/
theorem foldlM_chunks_sorted {f : List ChildChunk → Nat × String → Except Failure (List ChildChunk)}
    (line : Nat → Nat) (mono : ∀ a b, a ≤ b → line a ≤ line b)
    (step : ∀ acc h acc', f acc h = .ok acc' → acc' = acc ∨ ∃ c, acc' = acc ++ [c] ∧ c.line = line h.1) :
    ∀ (hs : List (Nat × String)) (acc chunks : List ChildChunk), hs.Pairwise (·.1 < ·.1) →
      acc.Pairwise (·.line ≤ ·.line) → (∀ c ∈ acc, ∀ h ∈ hs, c.line ≤ line h.1) →
      hs.foldlM f acc = .ok chunks → chunks.Pairwise (·.line ≤ ·.line)
  | [], acc, chunks, _, sorted, _, folded => by
    cases folded
    exact sorted
  | h :: hs, acc, chunks, headers, sorted, below, folded => by
    rw [List.foldlM_cons] at folded
    obtain ⟨first, later⟩ := List.pairwise_cons.mp headers
    cases stepped : f acc h with
    | error e =>
      rw [stepped] at folded
      cases folded
    | ok acc' =>
      rw [stepped] at folded
      refine foldlM_chunks_sorted line mono step hs acc' chunks later ?_ ?_ folded
      · rcases step acc h acc' stepped with rfl | ⟨c, rfl, cLine⟩
        · exact sorted
        · refine List.pairwise_append.mpr ⟨sorted, List.pairwise_singleton _ _, ?_⟩
          intro a mem b single
          rw [List.mem_singleton.mp single, cLine]
          exact below a mem h (List.mem_cons_self ..)
      · intro c mem h' mem'
        have grows := mono _ _ (Nat.le_of_lt (first h' mem'))
        rcases step acc h acc' stepped with rfl | ⟨c', rfl, cLine⟩
        · exact below c mem h' (List.mem_cons_of_mem _ mem')
        · rcases List.mem_append.mp mem with old | single
          · exact below c old h' (List.mem_cons_of_mem _ mem')
          · rw [List.mem_singleton.mp single, cLine]
            exact grows

/-- The child documents of a text come in the order of their header lines. -/
theorem childChunks_sorted {disk : Disk} {cwd : String} {dirs : List String} {content : String}
    {chunks : List ChildChunk} (found : childChunks disk cwd dirs content = .ok chunks) :
    chunks.Pairwise (·.line ≤ ·.line) := by
  unfold childChunks at found
  dsimp only at found
  refine foldlM_chunks_sorted (Scan.lineFeedsBetween content.toList.toArray 0)
    (fun a b le => lineFeedsBetween_le_of_le _ le) ?_ _ [] chunks
    (childHeaders_sorted _ 0).2 List.Pairwise.nil (by simp) found
  intro acc h acc' stepped
  obtain ⟨start, path⟩ := h
  dsimp only at stepped
  split at stepped
  · cases stepped
  · cases stepped
    exact .inl rfl
  · cases stepped
    exact .inr ⟨_, rfl, rfl⟩

namespace Outline

/-! ## Places of nodes -/

theorem placeOf_offset (idx : Text.LineIndex) (n : Node) : (placeOf idx n).offset = n.start := by
  unfold placeOf Node.start
  split <;> simp_all

theorem placeOf_of_span (idx : Text.LineIndex) {n : Node} {sp : Span} (span : n.span? = some sp) :
    placeOf idx n = ⟨n.start, idx.lineOf n.start - 1, idx.lineOf n.stop - 1⟩ := by
  simp [placeOf, span, Node.start, Node.stop]

/-- A node that starts no earlier starts on no earlier line. -/
theorem placeOf_lineStart_le (idx : Text.LineIndex) {n m : Node} {sp sp' : Span}
    (span : n.span? = some sp) (span' : m.span? = some sp') (le : n.start ≤ m.start) :
    (placeOf idx n).lineStart ≤ (placeOf idx m).lineStart := by
  rw [placeOf_of_span idx span, placeOf_of_span idx span']
  have := idx.lineOf_mono le
  dsimp only
  omega

/-- A node that ends no later ends on no later line. -/
theorem placeOf_lineEnd_le (idx : Text.LineIndex) {n m : Node} {sp sp' : Span}
    (span : n.span? = some sp) (span' : m.span? = some sp') (le : m.stop ≤ n.stop) :
    (placeOf idx m).lineEnd ≤ (placeOf idx n).lineEnd := by
  rw [placeOf_of_span idx span, placeOf_of_span idx span']
  have := idx.lineOf_mono le
  dsimp only
  omega

/-! ## The outline, described -/

namespace Entry

@[simp] theorem offset_withChildren (e : Entry) (cs : List Entry) :
    (e.withChildren cs).offset = e.offset := rfl

@[simp] theorem lineStart_withChildren (e : Entry) (cs : List Entry) :
    (e.withChildren cs).lineStart = e.lineStart := rfl

@[simp] theorem lineEnd_withChildren (e : Entry) (cs : List Entry) :
    (e.withChildren cs).lineEnd = e.lineEnd := rfl

/-- Whether an entry stands for a child document named in a chunk header. -/
def isChunk (e : Entry) : Bool := e.kind == .included && e.name == childChunkName

@[simp] theorem isChunk_withChildren (e : Entry) (cs : List Entry) :
    (e.withChildren cs).isChunk = e.isChunk := rfl

/-- An entry stands at a place: on its lines, at its offset or one character before. -/
def StandsAt (x : Entry) (pl : Place) : Prop :=
  pl.offset - 1 ≤ x.offset ∧ x.offset ≤ pl.offset ∧ x.lineStart = pl.lineStart ∧
    x.lineEnd = pl.lineEnd

end Entry

section Spec

variable (g : Gathering) (file : String) (idx : Text.LineIndex) (chunks : List ChildChunk)

/-- How a child document is labelled: by its file when included files are merged, else by
its path as written. -/
def Gathering.chunkLabel (c : ChildChunk) : String :=
  if g.cfg.mergeIncluded then c.file else c.path

/-- The entry of a child document placed just ahead of a node at `pl`: on the node's lines,
one character before it, or at the start of the file. -/
def chunkEntry (pl : Place) (c : ChildChunk) : Entry :=
  ⟨.included, childChunkName, g.chunkLabel c, pl.offset - 1, pl.lineStart, pl.lineEnd, file, []⟩

/-- The entry a node has of its own, whatever gathering a file it includes does to the
run. -/
def ownEntry (pl : Place) (n : Node) : Option Entry :=
  match nodeEntry g file (fun _ run => .ok run) pl n ⟨[], .empty⟩ with
  | .ok (own, _) => own
  | .error _ => none

/-- The child documents still waiting once a walk has met the nodes `before`: those whose
header stands below the first line of each of them. -/
def waiting (before : List Node) : List ChildChunk :=
  chunks.filter fun c => before.all fun m => (placeOf idx m).lineStart < c.line

/-- The child documents due at a node that a walk reaches after the nodes `before`: the
waiting ones whose header stands on or above the node's first line. The node is then the
first one met whose first line is on or below the header's. -/
def dueAt (before : List Node) (n : Node) : List ChildChunk :=
  (waiting idx chunks before).filter fun c => c.line ≤ (placeOf idx n).lineStart

/-- A node's own entry with the entries of its body nested under it, or those entries
alone. -/
def hang (own : Option Entry) (inner : List Entry) : List Entry :=
  match own with
  | some e => [e.withChildren inner]
  | none => inner

/-- The outline of a forest that a walk reaches after the nodes `before`: at each node, the
entries of the child documents due there, then the node's own entry with the outline of its
body under it (or that outline alone), then the outline of the nodes after it. -/
def outlineFrom (before : List Node) : List Node → List Entry
  | [] => []
  | n :: ns =>
    (dueAt idx chunks before n).map (chunkEntry g file (placeOf idx n)) ++
      hang (ownEntry g file (placeOf idx n) n) (outlineFrom (before ++ [n]) n.body) ++
      outlineFrom (before ++ n :: walkOrder n.body) ns
termination_by ns => sizeOf ns
decreasing_by
  all_goals simp only [List.cons.sizeOf_spec]
  all_goals have := Node.sizeOf_body_le n; omega

@[simp] theorem outlineFrom_nil (before : List Node) :
    outlineFrom g file idx chunks before [] = [] := by
  rw [outlineFrom]

theorem outlineFrom_cons (before : List Node) (n : Node) (ns : List Node) :
    outlineFrom g file idx chunks before (n :: ns) =
      (dueAt idx chunks before n).map (chunkEntry g file (placeOf idx n)) ++
        hang (ownEntry g file (placeOf idx n) n) (outlineFrom g file idx chunks (before ++ [n]) n.body) ++
        outlineFrom g file idx chunks (before ++ n :: walkOrder n.body) ns := by
  rw [outlineFrom]

/-- The outline of a forest is the outline of its first node, then that of the others. -/
theorem outlineFrom_cons_split (before : List Node) (n : Node) (ns : List Node) :
    outlineFrom g file idx chunks before (n :: ns) =
      outlineFrom g file idx chunks before [n] ++
        outlineFrom g file idx chunks (before ++ n :: walkOrder n.body) ns := by
  simp [outlineFrom_cons]

@[simp] theorem preorder_hang (own : Option Entry) (inner : List Entry) :
    Entry.preorder (hang own inner) =
      (own.map (·.withChildren inner)).toList ++ Entry.preorder inner := by
  cases own <;> simp [hang]

@[simp] theorem waiting_nil : waiting idx chunks [] = chunks := by
  simp [waiting]

theorem waiting_append (before more : List Node) :
    waiting idx chunks (before ++ more) =
      (waiting idx chunks before).filter fun c =>
        more.all fun m => (placeOf idx m).lineStart < c.line := by
  simp only [waiting, List.filter_filter, List.all_append]
  exact List.filter_congr fun c _ => Bool.and_comm _ _

end Spec

/-! ## What a node's own entry is -/

section Own

variable (g : Gathering) (file : String)

/-- An included file is named by an inclusion command, never by the name of child
documents. -/
theorem includedFile_name {name : String} {args : List Arg} {found : String × String}
    (h : includedFile g file name args = .ok (some found)) : name ≠ childChunkName := by
  rintro rfl
  simp [includedFile, inputCommands, importCommands, subImportCommands, childChunkName] at h

/-- The entry of an environment stands at the environment's place. -/
theorem environmentEntry_eq_entry {pl : Place} {name : String} {args : List Arg}
    {body : List Node} {e : Entry} (h : e ∈ environmentEntry g file pl name args body) :
    e = pl.entry file .environment e.name e.label := by
  unfold environmentEntry environmentEntry.rest at h
  repeat' (first | split at h | simp only [Option.mem_def, Option.some.injEq] at h)
  all_goals first
    | (subst h; rfl)
    | cases h

/-- The entry of a command does not hang on what is gathered: with nothing gathered, from
any run, the command has the same entry. -/
theorem commandEntry_own {sub : String → Run → Except (Failure × Run) Run} {pl : Place} {name : String}
    {args : List Arg} {run run' : Run} {own : Option Entry}
    (h : commandEntry g file sub pl name args run = .ok (own, run')) (run0 : Run) :
    commandEntry g file (fun _ run => .ok run) pl name args run0 = .ok (own, run0) := by
  unfold commandEntry at h ⊢
  by_cases ranked : (g.cfg.rank name).isSome = true
  · rw [if_pos ranked] at h ⊢
    cases h
    rfl
  · rw [if_neg ranked] at h ⊢
    by_cases listed : g.cfg.commands.contains name = true
    · rw [if_pos listed] at h ⊢
      cases h
      rfl
    · rw [if_neg listed] at h ⊢
      cases found : includedFile g file name args with
      | error e =>
        rw [found] at h
        cases h
      | ok r =>
        rw [found] at h
        rcases r with _ | ⟨sf, raw⟩
        · cases h
          rfl
        · dsimp only at h ⊢
          by_cases merged : g.cfg.mergeIncluded = true
          · rw [if_pos merged] at h ⊢
            cases gathered : sub sf run with
            | error e =>
              rw [gathered] at h
              cases h
            | ok run'' =>
              rw [gathered] at h
              cases h
              rfl
          · rw [if_neg merged] at h ⊢
            cases h
            rfl

/-- The entry of a command stands at the command's place with nothing under it, and stands
for no child document. -/
theorem commandEntry_shape {sub : String → Run → Except (Failure × Run) Run} {pl : Place} {name : String}
    {args : List Arg} {run run' : Run} {own : Option Entry}
    (h : commandEntry g file sub pl name args run = .ok (own, run')) :
    ∀ e ∈ own, e = pl.entry file e.kind e.name e.label ∧ e.isChunk = false := by
  intro e mem
  have free := commandEntry_own g file h run
  unfold commandEntry at free
  by_cases ranked : (g.cfg.rank name).isSome = true
  · rw [if_pos ranked] at free
    cases free
    cases mem
    refine ⟨rfl, ?_⟩
    cases isStarred args <;> rfl
  · rw [if_neg ranked] at free
    by_cases listed : g.cfg.commands.contains name = true
    · rw [if_pos listed] at free
      cases free
      cases mem
      exact ⟨rfl, rfl⟩
    · rw [if_neg listed] at free
      cases found : includedFile g file name args with
      | error e =>
        rw [found] at free
        cases free
      | ok r =>
        rw [found] at free
        rcases r with _ | ⟨sf, raw⟩
        · cases free
          cases mem
        · dsimp only at free
          have named := includedFile_name g file found
          split at free <;> cases free <;> cases mem <;>
            exact ⟨rfl, by simp [Entry.isChunk, Place.entry, named]⟩

/-- The entry a walk gives a node of its own is `ownEntry`, whatever the walk gathers. -/
theorem nodeEntry_own {sub : String → Run → Except (Failure × Run) Run} {pl : Place} {n : Node}
    {run run' : Run} {own : Option Entry} (h : nodeEntry g file sub pl n run = .ok (own, run')) :
    own = ownEntry g file pl n := by
  have free : nodeEntry g file (fun _ run => .ok run) pl n ⟨[], .empty⟩ = .ok (own, ⟨[], .empty⟩) := by
    cases n with
    | control name args sp => exact commandEntry_own g file h _
    | mathEnv name args body sp =>
      dsimp only [nodeEntry] at h ⊢
      split at h
      · rename_i shown
        cases h
        rw [if_pos shown]
      · rename_i hidden
        cases h
        rw [if_neg hidden]
    | _ =>
      dsimp only [nodeEntry] at h ⊢
      cases h
      rfl
  unfold ownEntry
  rw [free]

/-- A node's own entry stands at the node's place with nothing under it, stands for no
child document, and is an environment's if the node has a body. -/
theorem ownEntry_eq_entry {pl : Place} {n : Node} {e : Entry} (h : ownEntry g file pl n = some e) :
    e = pl.entry file e.kind e.name e.label ∧ e.isChunk = false ∧
      (n.body ≠ [] → e.kind = .environment) := by
  unfold ownEntry at h
  split at h
  · rename_i own run entry
    subst h
    cases n with
    | control name args sp =>
      obtain ⟨shape, notChunk⟩ := commandEntry_shape g file entry e rfl
      exact ⟨shape, notChunk, fun body => absurd rfl body⟩
    | env name args body sp =>
      dsimp only [nodeEntry] at entry
      have shown : e ∈ environmentEntry g file pl name args body :=
        (Prod.mk.inj (Except.ok.inj entry)).1
      have shape := environmentEntry_eq_entry g file shown
      have kind := (environmentEntry_shown g file shown).1
      refine ⟨by rw [kind]; exact shape, ?_, fun _ => kind⟩
      rw [shape]
      rfl
    | mathEnv name args body sp =>
      dsimp only [nodeEntry] at entry
      split at entry <;> cases entry
      exact ⟨rfl, rfl, fun _ => rfl⟩
    | _ =>
      dsimp only [nodeEntry] at entry
      cases entry
  · cases h

/-- A node's own entry stands at the node's offset, on the node's lines. -/
theorem ownEntry_place {pl : Place} {n : Node} {e : Entry} (h : ownEntry g file pl n = some e) :
    e.offset = pl.offset ∧ e.lineStart = pl.lineStart ∧ e.lineEnd = pl.lineEnd := by
  rw [(ownEntry_eq_entry g file h).1]
  exact ⟨rfl, rfl, rfl⟩

end Own


/-! ## The walk builds the outline -/

/-- In a list of child documents sorted by line, taking from the front while the header
stands on or above line `k` takes exactly the documents on or above it, and leaves exactly
those below. -/
theorem takeWhile_of_sorted {l : List ChildChunk} (sorted : l.Pairwise (·.line ≤ ·.line))
    (k : Nat) :
    l.takeWhile (·.line ≤ k) = l.filter (·.line ≤ k) ∧
      l.dropWhile (·.line ≤ k) = l.filter (k < ·.line) := by
  induction l with
  | nil => simp
  | cons c rest ih =>
    obtain ⟨later, sorted⟩ := List.pairwise_cons.mp sorted
    by_cases due : c.line ≤ k
    · have notBelow : ¬ k < c.line := by omega
      simp [due, notBelow, (ih sorted).1, (ih sorted).2]
    · -- nothing after a document below line `k` stands on or above it
      have below : ∀ d ∈ c :: rest, k < d.line := by
        intro d mem
        rcases List.mem_cons.mp mem with rfl | after
        · omega
        · have := later d after
          omega
      refine ⟨?_, ?_⟩
      · rw [List.takeWhile_cons, if_neg (by simpa using due), eq_comm, List.filter_eq_nil_iff]
        intro d mem
        have := below d mem
        simp only [decide_eq_true_eq]
        omega
      · rw [List.dropWhile_cons, if_neg (by simpa using due), eq_comm, List.filter_eq_self]
        intro d mem
        simpa using below d mem

section Walk

variable (g : Gathering) (file : String) {sub : String → Run → Except (Failure × Run) Run}
  (idx : Text.LineIndex) {chunks : List ChildChunk}

/-- Placing child documents at a node takes them from the front of the pending list while
their header stands on or above the node's first line. -/
theorem placeChunks_takeWhile (pl : Place) :
    ∀ (pending : List ChildChunk) (run : Run) {es : List Entry} {left : List ChildChunk}
      {run' : Run}, placeChunks g file sub pl pending run = .ok (es, left, run') →
      es = (pending.takeWhile (·.line ≤ pl.lineStart)).map (chunkEntry g file pl) ∧
        left = pending.dropWhile (·.line ≤ pl.lineStart)
  | [], run, es, left, run', h => by
    rw [placeChunks] at h
    cases h
    simp
  | c :: rest, run, es, left, run', h => by
    rw [placeChunks] at h
    by_cases due : c.line ≤ pl.lineStart
    · rw [if_pos due] at h
      dsimp only at h
      split at h
      · cases h
      · split at h
        · cases h
        · rename_i placed
          cases h
          obtain ⟨rfl, rfl⟩ := placeChunks_takeWhile pl rest _ placed
          refine ⟨?_, ?_⟩
          · simp only [List.takeWhile_cons, decide_eq_true due, if_true, List.map_cons]
            rfl
          · simp only [List.dropWhile_cons, decide_eq_true due, if_true]
    · rw [if_neg due] at h
      cases h
      simp [due]

mutual

/-- The walk of a node gives the outline of the node, and leaves pending the child
documents still waiting after the node and its body. -/
theorem walkNode_outline (sorted : chunks.Pairwise (·.line ≤ ·.line)) (before : List Node)
    (n : Node) (st st' : WalkState) (es : List Entry)
    (pending : st.pending = waiting idx chunks before)
    (h : walkNode g file sub idx n st = .ok (es, st')) :
    es = outlineFrom g file idx chunks before [n] ∧
      st'.pending = waiting idx chunks (before ++ walkOrder [n]) := by
  rw [walkNode, walkWith] at h
  split at h
  · cases h
  · rename_i own run₁ entry
    have owned := nodeEntry_own g file entry
    split at h
    · cases h
    · rename_i placedEntries left run₂ placed
      obtain ⟨placedEq, leftEq⟩ := placeChunks_takeWhile g file (placeOf idx n) st.pending run₁ placed
      have waitingSorted : (waiting idx chunks before).Pairwise (·.line ≤ ·.line) :=
        sorted.sublist List.filter_sublist
      obtain ⟨taken, dropped⟩ := takeWhile_of_sorted waitingSorted (placeOf idx n).lineStart
      split at h
      · cases h
      · rename_i inner st₃ walked
        have bodyPending : (⟨run₂, left⟩ : WalkState).pending = waiting idx chunks (before ++ [n]) := by
          show left = _
          rw [leftEq, pending, dropped, waiting_append]
          simp
        obtain ⟨innerEq, after⟩ :=
          walkNodes_outline sorted (before ++ [n]) n.body ⟨run₂, left⟩ st₃ inner bodyPending walked
        have result : es = placedEntries ++ hang own inner ∧ st' = st₃ := by
          split at h <;> cases h <;> exact ⟨rfl, rfl⟩
        obtain ⟨rfl, rfl⟩ := result
        refine ⟨?_, ?_⟩
        · rw [outlineFrom_cons, outlineFrom_nil, List.append_nil, placedEq, pending, taken, owned,
            innerEq]
          rfl
        · rw [after]
          simp
termination_by 2 * sizeOf n + 1
decreasing_by have := Node.sizeOf_body_le n; omega

/-- The walk of a forest gives the outline of the forest, and leaves pending the child
documents still waiting after all its nodes. -/
theorem walkNodes_outline (sorted : chunks.Pairwise (·.line ≤ ·.line)) (before : List Node)
    (ns : List Node) (st st' : WalkState) (es : List Entry)
    (pending : st.pending = waiting idx chunks before)
    (h : walkNodes g file sub idx ns st = .ok (es, st')) :
    es = outlineFrom g file idx chunks before ns ∧
      st'.pending = waiting idx chunks (before ++ walkOrder ns) := by
  match ns with
  | [] =>
    rw [walkNodes] at h
    cases h
    simp [pending]
  | n :: ns =>
    rw [walkNodes] at h
    split at h
    · cases h
    · rename_i first st₁ walked
      obtain ⟨firstEq, firstPending⟩ := walkNode_outline sorted before n st st₁ first pending walked
      split at h
      · cases h
      · rename_i more st₂ walked'
        obtain ⟨moreEq, morePending⟩ :=
          walkNodes_outline sorted (before ++ walkOrder [n]) ns st₁ st₂ more firstPending walked'
        cases h
        refine ⟨by rw [outlineFrom_cons_split, firstEq, moreEq]; simp, ?_⟩
        rw [morePending]
        simp
termination_by 2 * sizeOf ns
decreasing_by
  all_goals simp only [List.cons.sizeOf_spec]
  all_goals omega

end

end Walk


/-! ## What the outline holds -/

section Shape

variable (g : Gathering) (file : String) (idx : Text.LineIndex) (chunks : List ChildChunk)

@[simp] theorem preorder_chunkEntries (pl : Place) (cs : List ChildChunk) :
    Entry.preorder (cs.map (chunkEntry g file pl)) = cs.map (chunkEntry g file pl) := by
  induction cs with
  | nil => rfl
  | cons c cs ih => simp [ih, chunkEntry]

/-- An entry of the outline of a forest is the entry of a child document due at its first
node, that node's own entry, an entry of the outline of its body, or one of the outline of
the nodes after it. -/
theorem mem_preorder_outlineFrom_cons {before : List Node} {n : Node} {ns : List Node}
    {x : Entry} (mem : x ∈ Entry.preorder (outlineFrom g file idx chunks before (n :: ns))) :
    (∃ c ∈ dueAt idx chunks before n, x = chunkEntry g file (placeOf idx n) c) ∨
      (∃ e, ownEntry g file (placeOf idx n) n = some e ∧
        x = e.withChildren (outlineFrom g file idx chunks (before ++ [n]) n.body)) ∨
      x ∈ Entry.preorder (outlineFrom g file idx chunks (before ++ [n]) n.body) ∨
      x ∈ Entry.preorder (outlineFrom g file idx chunks (before ++ n :: walkOrder n.body) ns) := by
  rw [outlineFrom_cons] at mem
  simp only [Entry.preorder_append, preorder_chunkEntries, preorder_hang, List.mem_append,
    List.mem_map, or_assoc] at mem
  rcases mem with ⟨c, due, rfl⟩ | own | inner | rest
  · exact .inl ⟨c, due, rfl⟩
  · cases owned : ownEntry g file (placeOf idx n) n with
    | none => simp [owned] at own
    | some e =>
      simp only [owned, Option.map_some, Option.toList_some, List.mem_singleton] at own
      exact .inr (.inl ⟨e, rfl, own⟩)
  · exact .inr (.inr (.inl inner))
  · exact .inr (.inr (.inr rest))

/-- Every entry of the outline of a forest stands at the place of a node the walk meets in
the forest. -/
theorem standsAt_of_mem_outlineFrom (before ns : List Node) :
    ∀ x ∈ Entry.preorder (outlineFrom g file idx chunks before ns),
      ∃ m ∈ walkOrder ns, x.StandsAt (placeOf idx m) := by
  fun_induction outlineFrom g file idx chunks before ns with
  | case1 => simp
  | case2 before n ns bodyIh restIh =>
    intro x mem
    rw [← outlineFrom_cons] at mem
    rcases mem_preorder_outlineFrom_cons g file idx chunks mem with
      ⟨c, -, rfl⟩ | ⟨e, owned, rfl⟩ | inner | rest
    · exact ⟨n, by simp, by simp [Entry.StandsAt, chunkEntry]⟩
    · have shape := (ownEntry_eq_entry g file owned).1
      refine ⟨n, by simp, ?_⟩
      rw [shape]
      simp [Entry.StandsAt, Place.entry, Entry.withChildren]
    · obtain ⟨m, inBody, stands⟩ := bodyIh x inner
      exact ⟨m, by simp [inBody], stands⟩
    · obtain ⟨m, later, stands⟩ := restIh x rest
      exact ⟨m, by simp [later], stands⟩

/-- An entry of the outline of a forest has nothing under it, or is the own entry of a node
the walk meets, with the outline of that node's body under it. -/
theorem children_of_mem_outlineFrom (before ns : List Node) :
    ∀ x ∈ Entry.preorder (outlineFrom g file idx chunks before ns), x.children = [] ∨
      ∃ n ∈ walkOrder ns, ∃ e before', ownEntry g file (placeOf idx n) n = some e ∧
        x = e.withChildren (outlineFrom g file idx chunks before' n.body) := by
  fun_induction outlineFrom g file idx chunks before ns with
  | case1 => simp
  | case2 before n ns bodyIh restIh =>
    intro x mem
    rw [← outlineFrom_cons] at mem
    rcases mem_preorder_outlineFrom_cons g file idx chunks mem with
      ⟨c, -, rfl⟩ | ⟨e, owned, rfl⟩ | inner | rest
    · exact .inl rfl
    · exact .inr ⟨n, by simp, e, _, owned, rfl⟩
    · rcases bodyIh x inner with leaf | ⟨m, inBody, nested⟩
      · exact .inl leaf
      · exact .inr ⟨m, by simp [inBody], nested⟩
    · rcases restIh x rest with leaf | ⟨m, later, nested⟩
      · exact .inl leaf
      · exact .inr ⟨m, by simp [later], nested⟩


/-! ### Sorted by a key that grows along the walk -/

section Keys

variable (key : Entry → Nat) (lo hi : Node → Nat)
  (owned : ∀ m e, ownEntry g file (placeOf idx m) m = some e → key e = hi m)
  (kept : ∀ e es, key (e.withChildren es) = key e)
  (stands : ∀ x m, x.StandsAt (placeOf idx m) → lo m ≤ key x ∧ key x ≤ hi m)

include owned kept stands

/-- Every key at a node, on its own entry or on an entry of the outline of its body, is at
least the node's `hi` and at most the `hi` of the node or of a node of its body. -/
theorem hang_keys (before : List Node) {n : Node}
    (nFirst : ∀ m ∈ walkOrder n.body, hi n ≤ lo m) :
    ∀ a ∈ (Entry.preorder (hang (ownEntry g file (placeOf idx n) n)
        (outlineFrom g file idx chunks before n.body))).map key,
      ∃ m ∈ n :: walkOrder n.body, hi n ≤ a ∧ a ≤ hi m := by
  intro a mem
  simp only [preorder_hang, List.map_append, List.mem_append, List.mem_map] at mem
  rcases mem with ⟨x, own, rfl⟩ | ⟨y, inner, rfl⟩
  · cases entry : ownEntry g file (placeOf idx n) n with
    | none => simp [entry] at own
    | some e =>
      simp only [entry, Option.map_some, Option.toList_some, List.mem_singleton] at own
      rw [own, kept, owned n e entry]
      exact ⟨n, .head _, le_refl _, le_refl _⟩
  · obtain ⟨m, inBody, at_m⟩ := standsAt_of_mem_outlineFrom g file idx chunks _ _ y inner
    have bounds := stands y m at_m
    exact ⟨m, .tail _ inBody, le_trans (nFirst m inBody) bounds.1, bounds.2⟩

/-- A node's own entry, with the outline of its body under it, comes before that outline. -/
theorem hang_sorted {before : List Node} {n : Node}
    (nFirst : ∀ m ∈ walkOrder n.body, hi n ≤ lo m)
    (inner : ((Entry.preorder (outlineFrom g file idx chunks before n.body)).map key).Pairwise
      (· ≤ ·)) :
    ((Entry.preorder (hang (ownEntry g file (placeOf idx n) n)
        (outlineFrom g file idx chunks before n.body))).map key).Pairwise (· ≤ ·) := by
  cases entry : ownEntry g file (placeOf idx n) n with
  | none => simpa [hang] using inner
  | some e =>
    have shape : Entry.preorder (hang (some e) (outlineFrom g file idx chunks before n.body)) =
        e.withChildren (outlineFrom g file idx chunks before n.body) ::
          Entry.preorder (outlineFrom g file idx chunks before n.body) := by
      simp [hang]
    rw [shape, List.map_cons, List.pairwise_cons]
    refine ⟨fun b mem => ?_, inner⟩
    obtain ⟨y, yin, rfl⟩ := List.mem_map.mp mem
    obtain ⟨m, inBody, at_m⟩ := standsAt_of_mem_outlineFrom g file idx chunks _ _ y yin
    rw [kept, owned n e entry]
    exact le_trans (nFirst m inBody) (stands y m at_m).1

/-- The outline of a forest lists its entries in the order of a key that grows along the
walk: the entry of a child document due at node `m` has key `lo m`, the own entry of `m` has
key `hi m`, every entry standing at `m` has a key between the two, and the `hi` of a node is
at most the `lo` of every node met after it. By induction on the outline: the entries due
at a node come before its own entry, which comes before the outline of its body, which
comes before the outline of the nodes after it. -/
theorem outlineFrom_sorted (marked : ∀ m c, key (chunkEntry g file (placeOf idx m) c) = lo m)
    (before ns : List Node) :
    (∀ m ∈ walkOrder ns, lo m ≤ hi m) → (walkOrder ns).Pairwise (fun m m' => hi m ≤ lo m') →
      ((Entry.preorder (outlineFrom g file idx chunks before ns)).map key).Pairwise (· ≤ ·) := by
  fun_induction outlineFrom g file idx chunks before ns with
  | case1 => simp
  | case2 before n ns bodyIh restIh =>
    intro within order
    simp only [walkOrder_cons, List.mem_cons, List.mem_append, List.pairwise_cons,
      List.pairwise_append] at within order
    obtain ⟨nFirst, bodyOrder, restOrder, bodyBefore⟩ := order
    have nWithin := within n (.inl rfl)
    have hangKeys := hang_keys g file idx chunks key lo hi owned kept stands (before ++ [n])
      fun m inBody => nFirst m (.inl inBody)
    have hangSorted := hang_sorted g file idx chunks key lo hi owned kept stands
      (fun m inBody => nFirst m (.inl inBody))
      (bodyIh (fun m mem => within m (.inr (.inl mem))) bodyOrder)
    rw [Entry.preorder_append, Entry.preorder_append, List.map_append, List.map_append,
      preorder_chunkEntries]
    have chunkKeys : ∀ a ∈ (dueAt idx chunks before n).map
        (chunkEntry g file (placeOf idx n)) |>.map key, a = lo n := by
      intro a mem
      simp only [List.map_map, List.mem_map, Function.comp] at mem
      obtain ⟨c, -, rfl⟩ := mem
      exact marked n c
    refine List.pairwise_append.mpr ⟨List.pairwise_append.mpr ⟨?_, hangSorted, ?_⟩,
      restIh (fun m mem => within m (.inr (.inr mem))) restOrder, ?_⟩
    · exact List.pairwise_of_forall_mem_list fun a am b bm => by
        rw [chunkKeys a am, chunkKeys b bm]
    · intro a am b bm
      obtain ⟨m, -, low, -⟩ := hangKeys b bm
      rw [chunkKeys a am]
      exact le_trans nWithin low
    · -- everything at the node or in its body comes before the nodes after it
      intro a am b bm
      obtain ⟨y, later, rfl⟩ := List.mem_map.mp bm
      obtain ⟨m', after, at_m'⟩ := standsAt_of_mem_outlineFrom g file idx chunks _ _ y later
      have low := (stands y m' at_m').1
      rcases List.mem_append.mp am with chunk | hung
      · rw [chunkKeys a chunk]
        exact le_trans nWithin (le_trans (nFirst m' (.inr after)) low)
      · obtain ⟨m, here, -, high⟩ := hangKeys a hung
        rcases List.mem_cons.mp here with rfl | inBody
        · exact le_trans high (le_trans (nFirst m' (.inr after)) low)
        · exact le_trans high (le_trans (bodyBefore m inBody m' after) low)

end Keys

/-- Two filters of a list sorted by line join into one when nothing the second keeps stands
on or above anything the first keeps. By induction on the list. -/
theorem filter_append_filter {l : List ChildChunk} (sorted : l.Pairwise (·.line ≤ ·.line))
    {p q : ChildChunk → Bool} (apart : ∀ x y, p x = true → q y = true → y.line ≤ x.line → False) :
    l.filter p ++ l.filter q = l.filter fun c => p c || q c := by
  induction l with
  | nil => rfl
  | cons c rest ih =>
    obtain ⟨later, sorted⟩ := List.pairwise_cons.mp sorted
    cases hp : p c <;> cases hq : q c
    · simp [hp, hq, ih sorted]
    · -- a document kept by the second stands below everything after it
      have none : rest.filter p = [] :=
        List.filter_eq_nil_iff.mpr fun x mem px => apart x c (by simpa using px) hq (later x mem)
      have joined := ih sorted
      rw [none, List.nil_append] at joined
      simp [hp, hq, none, joined]
    · simp [hp, hq, ih sorted]
    · exact (apart c c hp hq (le_refl _)).elim

@[simp] theorem label_chunkEntry (pl : Place) (c : ChildChunk) :
    (chunkEntry g file pl c).label = g.chunkLabel c := rfl

/-- The child documents placed in the outline of a forest, read in preorder, are the waiting
ones whose header stands on or above the first line of some node the walk meets, in the
order of their headers, each once. -/
theorem chunkLabels_outlineFrom (sorted : chunks.Pairwise (·.line ≤ ·.line))
    (before ns : List Node) :
    ((Entry.preorder (outlineFrom g file idx chunks before ns)).filter Entry.isChunk).map
        (·.label) =
      ((waiting idx chunks before).filter fun c =>
        (walkOrder ns).any fun m => c.line ≤ (placeOf idx m).lineStart).map g.chunkLabel := by
  fun_induction outlineFrom g file idx chunks before ns with
  | case1 => simp
  | case2 before n ns bodyIh restIh =>
    have ownDropped : ((ownEntry g file (placeOf idx n) n).map (·.withChildren
        (outlineFrom g file idx chunks (before ++ [n]) n.body))).toList.filter Entry.isChunk = [] := by
      cases entry : ownEntry g file (placeOf idx n) n with
      | none => rfl
      | some e => simp [(ownEntry_eq_entry g file entry).2.1]
    have chunksKept : ((dueAt idx chunks before n).map (chunkEntry g file (placeOf idx n))).filter
        Entry.isChunk = (dueAt idx chunks before n).map (chunkEntry g file (placeOf idx n)) :=
      List.filter_eq_self.mpr (by simp [chunkEntry, Entry.isChunk])
    rw [Entry.preorder_append, Entry.preorder_append, preorder_chunkEntries, preorder_hang,
      List.filter_append, List.filter_append, List.filter_append, ownDropped, chunksKept,
      List.nil_append, List.map_append, List.map_append, bodyIh, restIh, List.map_map]
    have waitingSorted : (waiting idx chunks before).Pairwise (·.line ≤ ·.line) :=
      sorted.sublist List.filter_sublist
    simp only [waiting_append, List.filter_filter, Function.comp_def, label_chunkEntry, dueAt]
    rw [← List.map_append, ← List.map_append]
    congr 1
    -- the documents due at the node stand above those placed in its body, and both above
    -- those placed after it
    rw [filter_append_filter waitingSorted (by
        intro x y due later above
        simp only [Bool.and_eq_true, List.all_cons, List.all_nil, decide_eq_true_eq] at due later
        omega),
      filter_append_filter waitingSorted (by
        intro x y placed later above
        simp only [Bool.or_eq_true, Bool.and_eq_true, List.any_eq_true, List.all_cons,
          List.all_nil, Bool.and_true, List.all_eq_true, decide_eq_true_eq] at placed later
        obtain ⟨-, nBelow, bodyBelow⟩ := later
        rcases placed with due | ⟨⟨m, inBody, onOrAbove⟩, -⟩
        · omega
        · have := bodyBelow m inBody
          omega)]
    refine List.filter_congr fun c _ => ?_
    simp only [walkOrder_cons, List.any_cons, List.any_append, List.all_cons, List.all_nil,
      Bool.and_true]
    have below : ∀ m, decide ((placeOf idx m).lineStart < c.line) =
        !decide (c.line ≤ (placeOf idx m).lineStart) := fun m => by
      by_cases h : c.line ≤ (placeOf idx m).lineStart
      · simp [h]
      · simp [h, Nat.lt_of_not_le h]
    simp only [below, ← List.not_any_eq_all_not]
    cases decide (c.line ≤ (placeOf idx n).lineStart) <;>
      cases (walkOrder n.body).any fun m => decide (c.line ≤ (placeOf idx m).lineStart) <;>
      cases (walkOrder ns).any fun m => decide (c.line ≤ (placeOf idx m).lineStart) <;> rfl


/-- Over nodes that start strictly one after another in walk order, the outline lists its
entries by offset: a node's child documents one character before it, its own entry at it. -/
theorem outlineFrom_offsets_sorted (before ns : List Node)
    (starts : (walkOrder ns).Pairwise (·.start < ·.start)) :
    ((Entry.preorder (outlineFrom g file idx chunks before ns)).map (·.offset)).Pairwise
      (· ≤ ·) := by
  refine outlineFrom_sorted g file idx chunks (·.offset) (fun m => (placeOf idx m).offset - 1)
    (fun m => (placeOf idx m).offset) (fun m e owned => (ownEntry_place g file owned).1)
    (fun _ _ => rfl) (fun x m at_m => ⟨at_m.1, at_m.2.1⟩) (fun _ _ => rfl) before ns
    (fun _ _ => Nat.sub_le _ _)
    (starts.imp fun {m m'} later => ?_)
  rw [placeOf_offset, placeOf_offset]
  omega

/-- Over nodes read from the text that start one after another in walk order, the outline
lists its entries by first line: everything at a node stands on the node's first line. -/
theorem outlineFrom_lineStarts_sorted (before ns : List Node)
    (spans : ∀ x ∈ walkOrder ns, ∃ sp, x.span? = some sp)
    (starts : (walkOrder ns).Pairwise (·.start < ·.start)) :
    ((Entry.preorder (outlineFrom g file idx chunks before ns)).map (·.lineStart)).Pairwise
      (· ≤ ·) := by
  refine outlineFrom_sorted g file idx chunks (·.lineStart) (fun m => (placeOf idx m).lineStart)
    (fun m => (placeOf idx m).lineStart) (fun m e owned => (ownEntry_place g file owned).2.1)
    (fun _ _ => rfl) (fun x m at_m => ⟨le_of_eq at_m.2.2.1.symm, le_of_eq at_m.2.2.1⟩)
    (fun _ _ => rfl) before ns
    (fun _ _ => le_refl _) (starts.imp_of_mem fun {m m'} mem mem' later => ?_)
  obtain ⟨sp, span⟩ := spans m mem
  obtain ⟨sp', span'⟩ := spans m' mem'
  exact placeOf_lineStart_le idx span span' (Nat.le_of_lt later)

/-- Over nodes read from the text whose bodies lie inside them, the entries under an entry of
the outline lie on its lines: they stand at nodes of the body of its node. -/
theorem outlineFrom_children_on_lines (before ns : List Node)
    (spans : ∀ x ∈ walkOrder ns, ∃ sp, x.span? = some sp)
    (within : ∀ n ∈ walkOrder ns, ∀ m ∈ walkOrder n.body, n.start ≤ m.start ∧ m.stop ≤ n.stop) :
    ∀ e ∈ Entry.preorder (outlineFrom g file idx chunks before ns),
      ∀ d ∈ Entry.preorder e.children, e.lineStart ≤ d.lineStart ∧ d.lineEnd ≤ e.lineEnd := by
  intro e mem d inner
  rcases children_of_mem_outlineFrom g file idx chunks before ns e mem with
    leaf | ⟨n, met, e0, before', owned, rfl⟩
  · rw [leaf] at inner
    exact absurd inner List.not_mem_nil
  · obtain ⟨m, inBody, at_m⟩ := standsAt_of_mem_outlineFrom g file idx chunks _ _ d inner
    obtain ⟨-, nLineStart, nLineEnd⟩ := ownEntry_place g file owned
    obtain ⟨sp, span⟩ := spans n met
    obtain ⟨sp', span'⟩ := spans m (mem_walkOrder_of_body met inBody)
    obtain ⟨startLe, stopLe⟩ := within n met m inBody
    rw [Entry.lineStart_withChildren, Entry.lineEnd_withChildren, nLineStart, nLineEnd,
      at_m.2.2.1, at_m.2.2.2]
    exact ⟨placeOf_lineStart_le idx span span' startLe, placeOf_lineEnd_le idx span span' stopLe⟩

/-- Only environments have entries under them in an outline: an entry with nested entries is
the own entry of a node with a body. -/
theorem outlineFrom_children_environment (before ns : List Node) :
    ∀ e ∈ Entry.preorder (outlineFrom g file idx chunks before ns), e.children ≠ [] →
      e.kind = .environment := by
  intro e mem nested
  rcases children_of_mem_outlineFrom g file idx chunks before ns e mem with
    leaf | ⟨n, met, e0, before', owned, rfl⟩
  · exact absurd leaf nested
  · refine (ownEntry_eq_entry g file owned).2.2 fun empty => nested ?_
    rw [Entry.withChildren_children, empty, outlineFrom_nil]

end Shape

/-! ## The outline of a file -/

/-- The outline a walk builds for a file lists its entries in the order of the text. Read
in preorder, offsets and first lines never decrease; the entries under an entry lie on its
lines; only environments have entries under them. The child documents named in chunk
headers come in the order of their header lines, and the ones placed are, in preorder, those
whose header stands on or above the first line of some node, each once. Each is placed at
the first node, in walk order, that starts on or below the line of its header, on the level
of that node's own entry and just ahead of it, one character before the node (`outlineFrom`,
`dueAt`); those below the first line of every node are left unplaced. -/
theorem outline_follows_text (g : Gathering) (file : String)
    (sub : String → Run → Except (Failure × Run) Run) {content : String} {nodes : List Node}
    {dirs : List String} {chunks : List ChildChunk} {run : Run} {es : List Entry}
    {st : WalkState} (parsed : parse g.reading.grammar content = .ok nodes)
    (chunked : childChunks g.reading.disk g.reading.cwd dirs content = .ok chunks)
    (walked : walkNodes g file sub (Text.LineIndex.ofChars content.toList.toArray) nodes
      ⟨run, chunks⟩ = .ok (es, st)) :
    let idx := Text.LineIndex.ofChars content.toList.toArray
    ((Entry.preorder es).map (·.offset)).Pairwise (· ≤ ·) ∧
      ((Entry.preorder es).map (·.lineStart)).Pairwise (· ≤ ·) ∧
      (∀ e ∈ Entry.preorder es, ∀ d ∈ Entry.preorder e.children,
        e.lineStart ≤ d.lineStart ∧ d.lineEnd ≤ e.lineEnd) ∧
      (∀ e ∈ Entry.preorder es, e.children ≠ [] → e.kind = .environment) ∧
      chunks.Pairwise (·.line ≤ ·.line) ∧
      ((Entry.preorder es).filter Entry.isChunk).map (·.label) =
        (chunks.filter fun c => (walkOrder nodes).any fun m =>
          c.line ≤ (placeOf idx m).lineStart).map g.chunkLabel ∧
      es = outlineFrom g file idx chunks [] nodes ∧
      st.pending = chunks.filter fun c => (walkOrder nodes).all fun m =>
        (placeOf idx m).lineStart < c.line := by
  intro idx
  obtain ⟨spans, starts, within⟩ := parse_walk_ordered parsed
  have sorted := childChunks_sorted chunked
  obtain ⟨rfl, left⟩ :=
    walkNodes_outline g file idx sorted [] nodes ⟨run, chunks⟩ st es (by simp) walked
  refine ⟨outlineFrom_offsets_sorted g file idx chunks [] nodes starts,
    outlineFrom_lineStarts_sorted g file idx chunks [] nodes spans starts,
    outlineFrom_children_on_lines g file idx chunks [] nodes spans within,
    outlineFrom_children_environment g file idx chunks [] nodes, sorted, ?_, rfl, ?_⟩
  · simpa using chunkLabels_outlineFrom g file idx chunks sorted [] nodes
  · rw [left, List.nil_append]
    rfl

/-- A section, a chunk header naming a child document, and a second section. -/
def chunkBetweenSections : String :=
  "\\section{One}\n<<c1, child=\"child.Rnw\">>=\n@\n\\section{Two}\n"

/-- Sections ranked, the child document on disk, included files not merged. -/
def chunkGathering : Gathering :=
  ⟨⟨⟨[], [("/child.Rnw", [])]⟩, "/", Grammar.standard⟩,
    ⟨[("section", 1)], [], [], [], false, false, false, false⟩, "/main.Rnw", [], 1⟩

/-- The nodes of `chunkBetweenSections`: the header is read as plain text. -/
def chunkBetweenSectionsNodes : List Node :=
  [.control "section" [Arg.empty, Arg.empty, .mk "\x7b" "\x7d" [.text "One" (some ⟨9, 12⟩)]]
      ⟨0, 13⟩,
    .blank ⟨13, 14⟩, .text "<<c1," (some ⟨14, 19⟩), .blank ⟨19, 20⟩,
    .text "child=\"child.Rnw\">>=" (some ⟨20, 40⟩), .blank ⟨40, 41⟩, .text "@" (some ⟨41, 42⟩),
    .blank ⟨42, 43⟩,
    .control "section" [Arg.empty, Arg.empty, .mk "\x7b" "\x7d" [.text "Two" (some ⟨52, 55⟩)]]
      ⟨43, 56⟩,
    .blank ⟨56, 57⟩]

-- the child document of the header on line 1 goes to the first node on that line, the
-- header's own text at offset 14, one character before it and between the two sections
example : walkNodes chunkGathering "/main.Rnw" (fun _ run => .ok run)
      (Text.LineIndex.ofChars chunkBetweenSections.toList.toArray) chunkBetweenSectionsNodes
      ⟨⟨[], .empty⟩, [⟨"/child.Rnw", "child.Rnw", 1⟩]⟩ =
    .ok ([⟨.section, "section", "One", 0, 0, 0, "/main.Rnw", []⟩,
      ⟨.included, "RnwChild", "child.Rnw", 13, 1, 1, "/main.Rnw", []⟩,
      ⟨.section, "section", "Two", 43, 3, 3, "/main.Rnw", []⟩], ⟨⟨[], .empty⟩, []⟩) := by
  cbv

/-- A label inside a figure, both shown. -/
def labelInFigure : String := "\\begin{figure}\n\\label{x}\n\\end{figure}"

/-- Figures and labels shown, nothing on disk. -/
def figureGathering : Gathering :=
  ⟨⟨⟨[], []⟩, "/", Grammar.standard⟩,
    ⟨[], ["label"], ["figure"], [], false, false, false, false⟩, "/main.tex", [], 1⟩

/-- The nodes of `labelInFigure`. -/
def labelInFigureNodes : List Node :=
  [.env "figure" [Arg.empty] [.blank ⟨14, 15⟩,
      .control "label" [.mk "\x7b" "\x7d" [.text "x" (some ⟨22, 23⟩)]] ⟨15, 24⟩, .blank ⟨24, 25⟩]
    ⟨0, 37⟩]

/-- The outline of `labelInFigure`: the label under the figure, on a line of the figure. -/
def labelInFigureOutline : List Entry :=
  [⟨.environment, "figure", "Figure", 0, 0, 2, "/main.tex",
    [⟨.command, "label", "#label: x", 15, 1, 1, "/main.tex", []⟩]⟩]

set_option maxRecDepth 20000 in
theorem labelInFigure_follows_text :
    parse figureGathering.reading.grammar labelInFigure = .ok labelInFigureNodes ∧
      childChunks figureGathering.reading.disk figureGathering.reading.cwd [] labelInFigure =
        .ok [] ∧
      walkNodes figureGathering "/main.tex" (fun _ run => .ok run)
          (Text.LineIndex.ofChars labelInFigure.toList.toArray) labelInFigureNodes
          ⟨⟨[], .empty⟩, []⟩ = .ok (labelInFigureOutline, ⟨⟨[], .empty⟩, []⟩) ∧
      ((Entry.preorder labelInFigureOutline).map (·.offset)).Pairwise (· ≤ ·) ∧
      (∀ e ∈ Entry.preorder labelInFigureOutline, ∀ d ∈ Entry.preorder e.children,
        e.lineStart ≤ d.lineStart ∧ d.lineEnd ≤ e.lineEnd) ∧
      ∀ e ∈ Entry.preorder labelInFigureOutline, e.children ≠ [] → e.kind = .environment :=
  have parsed : parse figureGathering.reading.grammar labelInFigure = .ok labelInFigureNodes := by
    cbv
  have chunked : childChunks figureGathering.reading.disk figureGathering.reading.cwd []
      labelInFigure = .ok [] := by
    cbv
  have walked : walkNodes figureGathering "/main.tex" (fun _ run => .ok run)
      (Text.LineIndex.ofChars labelInFigure.toList.toArray) labelInFigureNodes
      ⟨⟨[], .empty⟩, []⟩ = .ok (labelInFigureOutline, ⟨⟨[], .empty⟩, []⟩) := by
    cbv
  have follows := outline_follows_text figureGathering "/main.tex" (fun _ run => .ok run) parsed
    chunked walked
  ⟨parsed, chunked, walked, follows.1, follows.2.2.1, follows.2.2.2.1⟩

end Outline

end TexToc
