import TexToc.Outline.Config
import TexToc.Outline.Entry

/-!
Nesting a flat forest into an outline.

Two passes turn the flat forest of a document into a tree.

The first works on every level of the tree on its own: an entry that is not a section moves
under the closest section before it among its siblings, after that section's own nested
entries; entries before the first section stay where they are.

The second works on the top level: it nests sections by rank. A ranked section at the rank
of the outermost open section or above closes all open sections and starts a new top-level
one. Any other ranked section goes under the innermost open section of a smaller rank,
closing the open sections of its rank or below. An included-file entry goes under the
innermost open section; every other entry stays at the top level.

Open sections are kept on a stack, innermost first. A section is attached to the section
under it on the stack when it is closed; nothing else is added to that section while it is
open above it, so the order of nested entries is the order in which they came.

* `nestNonSections`, `nestSections`: the two passes.
-/

namespace TexToc.Outline

mutual

/-- Move every entry that is not a section under the closest section before it, on every
level of the forest. -/
def nestNonSections (es : List Entry) : List Entry :=
  nestLevel es none #[]
termination_by (sizeOf es, 1)

/-- Nest one level: `current` is the last section met, which still takes entries, and `done`
the entries placed before it. -/
def nestLevel : List Entry → Option Entry → Array Entry → List Entry
  | [], current, done => (match current with | some s => done.push s | none => done).toList
  | e :: rest, current, done =>
    let e' := e.withChildren (nestNonSections e.children)
    if e'.isSection then
      nestLevel rest (some e') (match current with | some s => done.push s | none => done)
    else
      match current with
      | some s => nestLevel rest (some (s.withChildren (s.children ++ [e']))) done
      | none => nestLevel rest none (done.push e')
termination_by es => (sizeOf es, 0)
decreasing_by
  all_goals (apply Prod.Lex.left; cases e; simp <;> omega)

end

/-- A section that is open while nesting by rank, with its rank. -/
abbrev OpenSection := Entry × Nat

/-- Close every open section; gives the outermost one with all the others nested in it. -/
def closeAll : List OpenSection → Option Entry
  | [] => none
  | [(root, _)] => some root
  | (top, _) :: (parent, r) :: rest =>
    closeAll ((parent.withChildren (parent.children ++ [top]), r) :: rest)
termination_by stack => stack.length

/-- Close open sections while the innermost one has rank `rank` or more, keeping the
outermost one. -/
def closeFrom (rank : Nat) : List OpenSection → List OpenSection
  | (top, r) :: (parent, pr) :: rest =>
    if rank ≤ r then closeFrom rank ((parent.withChildren (parent.children ++ [top]), pr) :: rest)
    else (top, r) :: (parent, pr) :: rest
  | stack => stack
termination_by stack => stack.length

/-- The state of nesting by rank: the top level so far, the position of the outermost open
section in it, and the open sections, innermost first. -/
structure RankNest where
  top : Array Entry
  slot : Nat
  stack : List OpenSection

namespace RankNest

/-- The top level with the open sections closed into their slot. -/
def finish (st : RankNest) : List Entry :=
  match closeAll st.stack with
  | some root => (st.top.setIfInBounds st.slot root).toList
  | none => st.top.toList

/-- Place one entry. -/
def step (cfg : Config) (st : RankNest) (e : Entry) : RankNest :=
  match (if e.isSection then cfg.rank e.name else none) with
  | some r =>
    match st.stack.getLast? with
    | some (_, outer) =>
      if r ≤ outer then
        let top := match closeAll st.stack with
          | some root => st.top.setIfInBounds st.slot root
          | none => st.top
        { top := top.push e, slot := top.size, stack := [(e, r)] }
      else
        { st with stack := (e, r) :: closeFrom r st.stack }
    | none => { top := st.top.push e, slot := st.top.size, stack := [(e, r)] }
  | none =>
    match e.kind, st.stack with
    | .included, (s, sr) :: rest => { st with stack := (s.withChildren (s.children ++ [e]), sr) :: rest }
    | _, _ => { st with top := st.top.push e }

end RankNest

/-- Nest the top-level sections of a forest by rank. -/
def nestSections (cfg : Config) (es : List Entry) : List Entry :=
  (es.foldl (RankNest.step cfg) ⟨#[], 0, []⟩).finish

end TexToc.Outline
