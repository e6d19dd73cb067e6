import TexToc.Outline.Config
import TexToc.Outline.Entry

/-!
Numbering an outline.

Floats are numbered per environment name across the whole outline, in the order of the
outline read from top to bottom: the label `Figure: caption` of the third figure becomes
`Figure 3: caption`. Documentation blocks (`macro` and `environment`) are not numbered.

Sections are numbered by level. Within one list of siblings a counter runs per rank; a
section takes the next number of its rank, and a starred section is marked `*` and takes
none. A number is the parent's number, a point, then one `0.` for every rank skipped below
the lowest rank of the level, then the counter. The lowest rank of the top level is the
smallest rank among its sections; below a section of rank `r` it is `r + 1`. Entries that
are not ranked sections are left alone with everything under them.

* `numberFloats`, `numberSections`: the two passes.
-/

namespace TexToc.Outline

/-- Names of documentation environments, which are never numbered. -/
def documentationEnvironments : List String := ["macro", "environment"]

/-- A label with a number put after its first part: the part before the first colon, or the
whole label if it has none. -/
def insertNumber (label : String) (n : Nat) : String :=
  let (head, tail) := label.toList.span (· != ':')
  String.ofList head ++ " " ++ toString n ++ String.ofList tail

/-- Counters by name, in the order the names were first counted. -/
abbrev Counters := List (String × Nat)

/-- The counter of a name raised by one. -/
def Counters.bump (c : Counters) (name : String) : Counters × Nat :=
  match c.lookup name with
  | some n => (c.map fun (k, v) => if k = name then (k, n + 1) else (k, v), n + 1)
  | none => (c ++ [(name, 1)], 1)

mutual

/-- Number the floats of a forest, continuing the counters `c`; gives the counters after. -/
def numberFloatsWith : List Entry → Counters → List Entry × Counters
  | [], c => ([], c)
  | e :: rest, c =>
    let (e', c1) := numberFloatsOf e c
    let (rest', c2) := numberFloatsWith rest c1
    (e' :: rest', c2)

/-- Number one entry, if it is a float, and then the entries nested under it. -/
def numberFloatsOf : Entry → Counters → Entry × Counters
  | ⟨k, n, l, o, s, t, f, cs⟩, c =>
    let (l', c1) :=
      if k = .environment ∧ n ∉ documentationEnvironments then
        let (c', i) := c.bump n
        (insertNumber l i, c')
      else (l, c)
    let (cs', c2) := numberFloatsWith cs c1
    (⟨k, n, l', o, s, t, f, cs'⟩, c2)

end

/-- Number the floats of a forest. -/
def numberFloats (es : List Entry) : List Entry :=
  (numberFloatsWith es []).1

/-- The padding for a rank `skipped` ranks below the lowest rank of its level. -/
def padding (skipped : Int) : String :=
  String.join (List.replicate skipped.toNat "0.")

mutual

/-- Number the sections of one level: `pre` is the number of the parent followed by a point,
and `lowest` the rank that takes no padding; nothing is numbered on a level without ranked
sections. -/
def numberSectionsWith (cfg : Config) (pre : String) (lowest : Option Int) (es : List Entry) :
    List Entry :=
  let ranks := es.filterMap fun e => if e.isSection then cfg.rank e.name else none
  match ranks with
  | [] => es
  | r :: rs =>
    numberLevel cfg pre (lowest.getD (rs.foldl min r : Nat)) [] es
termination_by (sizeOf es, 1)

/-- Number the entries of a level in order, with the counters per rank `c`. -/
def numberLevel (cfg : Config) (pre : String) (low : Int) (c : List (Nat × Nat)) :
    List Entry → List Entry
  | [] => []
  | e :: rest =>
    match (if e.isSection then cfg.rank e.name else none) with
    | none => e :: numberLevel cfg pre low c rest
    | some r =>
      let (c', count) :=
        if e.kind = .section then
          let n := (c.lookup r).getD 0 + 1
          ((r, n) :: c, n)
        else (c, (c.lookup r).getD 0)
      let number := pre ++ padding ((r : Int) - low) ++ toString count
      let marker := if e.kind = .section then number else "*"
      let children := numberSectionsWith cfg (number ++ ".") (some ((r : Int) + 1)) e.children
      { e with label := marker ++ " " ++ e.label, children } :: numberLevel cfg pre low c' rest
termination_by es => (sizeOf es, 0)
decreasing_by
  all_goals (apply Prod.Lex.left; cases e; simp <;> omega)

end

/-- Number the sections of a forest, from the top level down. -/
def numberSections (cfg : Config) (es : List Entry) : List Entry :=
  numberSectionsWith cfg "" none es

end TexToc.Outline
