import Mathlib
import TexToc.Session

/-!
# Nesting keeps the document order

An outline is built from a flat forest of entries: sections, environments, commands and
included files, in the order of the text. Two passes nest it. The first hangs every entry
that is not a section under the section before it, on every level; the second hangs whole
sections under a stack of open sections of smaller rank, on the top level. Both append to
entries already placed. This module shows that neither moves an entry in the document: read
in preorder, with the nesting forgotten (`Entry.flatten`), the outline is the forest it came
from, as long as every section has a rank. Float numbering then numbers the `k`-th float of a
name `k`.

* `flatten_nest`: the two passes keep the flat document. The first keeps it level by level
  (`flatten_nestLevel`); the second keeps it because each entry lands at the end of what is
  already nested (`RankNest.step_flatten`), which needs the sections of the top level to come
  last (`SectionsLast`) and to have a rank.
* `flatten_numberFloats`: float numbering is numbering the flat document by place
  (`numberedByPlace`, with `getElem_numberedFrom` giving each entry's number).
* `RankedLeaves`: every section a run gathers has a rank and nothing under it
  (`gatherFile_rankedLeaves`), and splicing keeps that (`spliceWith_rankedLeaves`).
* `nesting_keeps_document_order`: the statement for every forest and every gathered run.
-/

namespace TexToc.Outline

open Markup

namespace Entry

/-- An entry without the entries nested under it. -/
def bare (e : Entry) : Entry := e.withChildren []

/-- The entries of a forest in preorder, each without its nested entries: the forest read
as a flat document. -/
def flatten (es : List Entry) : List Entry := (preorder es).map bare

@[simp] theorem bare_withChildren (e : Entry) (cs : List Entry) :
    (e.withChildren cs).bare = e.bare := rfl

@[simp] theorem isSection_withChildren (e : Entry) (cs : List Entry) :
    (e.withChildren cs).isSection = e.isSection := rfl

@[simp] theorem name_withChildren (e : Entry) (cs : List Entry) :
    (e.withChildren cs).name = e.name := rfl

@[simp] theorem kind_withChildren (e : Entry) (cs : List Entry) :
    (e.withChildren cs).kind = e.kind := rfl

@[simp] theorem withChildren_children (e : Entry) (cs : List Entry) :
    (e.withChildren cs).children = cs := rfl

@[simp] theorem withChildren_self (e : Entry) : e.withChildren e.children = e := by
  cases e
  rfl

@[simp] theorem withChildren_withChildren (e : Entry) (cs cs' : List Entry) :
    (e.withChildren cs).withChildren cs' = e.withChildren cs' := rfl

/-- The entries under an entry are smaller than the entry, so recursion into them ends. -/
theorem sizeOf_children_lt (e : Entry) : sizeOf e.children < sizeOf e := by
  cases e
  simp only [Entry.mk.sizeOf_spec]
  omega

@[simp] theorem isSection_bare (e : Entry) : e.bare.isSection = e.isSection := rfl

@[simp] theorem name_bare (e : Entry) : e.bare.name = e.name := rfl

@[simp] theorem kind_bare (e : Entry) : e.bare.kind = e.kind := rfl

@[simp] theorem label_bare (e : Entry) : e.bare.label = e.label := rfl

theorem preorderOf_eq (e : Entry) : preorderOf e = e :: preorder e.children := by
  cases e
  rfl

@[simp] theorem preorder_nil : preorder [] = [] := rfl

@[simp] theorem preorder_cons (e : Entry) (es : List Entry) :
    preorder (e :: es) = e :: preorder e.children ++ preorder es := by
  rw [preorder, preorderOf_eq, List.cons_append]

@[simp] theorem preorder_append (as bs : List Entry) :
    preorder (as ++ bs) = preorder as ++ preorder bs := by
  induction as with
  | nil => rfl
  | cons a as ih => simp [ih]

@[simp] theorem flatten_nil : flatten [] = [] := rfl

@[simp] theorem flatten_cons (e : Entry) (es : List Entry) :
    flatten (e :: es) = e.bare :: flatten e.children ++ flatten es := by
  simp [flatten]

@[simp] theorem flatten_append (as bs : List Entry) :
    flatten (as ++ bs) = flatten as ++ flatten bs := by
  simp [flatten]

theorem bare_mem_flatten {e : Entry} {es : List Entry} (h : e ∈ es) : e.bare ∈ flatten es := by
  induction es with
  | nil => cases h
  | cons a rest ih =>
    rcases List.mem_cons.mp h with rfl | h
    · simp
    · simp [ih h]

end Entry

open Entry

/-! ## Entries under sections -/

mutual

/-- Moving entries under sections keeps the flat document. -/
theorem flatten_nestNonSections (es : List Entry) :
    flatten (nestNonSections es) = flatten es := by
  rw [nestNonSections, flatten_nestLevel]
  simp
termination_by (sizeOf es, 1)

/-- One level: the flat document of what is placed, of the section that still takes entries,
then of the entries still to place. -/
theorem flatten_nestLevel (es : List Entry) (current : Option Entry) (done : Array Entry) :
    flatten (nestLevel es current done) =
      flatten done.toList ++ flatten current.toList ++ flatten es := by
  match es with
  | [] =>
    cases current <;> simp [nestLevel]
  | e :: rest =>
    have inner : flatten (nestNonSections e.children) = flatten e.children :=
      flatten_nestNonSections e.children
    cases current with
    | some s =>
      rw [nestLevel]
      split <;> rw [flatten_nestLevel rest] <;> simp [inner]
    | none =>
      rw [nestLevel]
      split <;> rw [flatten_nestLevel rest] <;> simp [inner]
termination_by (sizeOf es, 0)
decreasing_by
  all_goals
    apply Prod.Lex.left
    cases e
    simp <;> omega

end

/-- No entry that is not a section follows a section. -/
def SectionsLast (es : List Entry) : Prop :=
  es.Pairwise fun a b => a.isSection → b.isSection

theorem SectionsLast.push_section {es : List Entry} {x : Entry} (h : SectionsLast es)
    (hx : x.isSection) : SectionsLast (es ++ [x]) :=
  List.pairwise_append.2 ⟨h, by simp, fun _ _ b hb _ => by rw [List.mem_singleton.1 hb]; exact hx⟩

theorem SectionsLast.push_of_none {es : List Entry} {x : Entry}
    (none_yet : ∀ a ∈ es, a.isSection = false) : SectionsLast (es ++ [x]) := by
  refine List.pairwise_append.2 ⟨?_, by simp, fun a ha _ _ h => by simp [none_yet a ha] at h⟩
  exact List.pairwise_of_forall_mem_list fun a ha _ _ h => by simp [none_yet a ha] at h

/-- The top level that `nestLevel` builds keeps the sections last: entries that are not
sections are placed only while no section has been met. -/
theorem nestLevel_sectionsLast (es : List Entry) (current : Option Entry) (done : Array Entry)
    (placed : SectionsLast (done.toList ++ current.toList))
    (open_section : ∀ s ∈ current, s.isSection)
    (before : current = none → ∀ d ∈ done.toList, d.isSection = false) :
    SectionsLast (nestLevel es current done) := by
  induction es generalizing current done with
  | nil => cases current <;> simpa [nestLevel] using placed
  | cons e rest ih =>
    cases current with
    | some s =>
      have hs : s.isSection := open_section s rfl
      have earlier : SectionsLast done.toList := (List.pairwise_append.1 placed).1
      rw [nestLevel]
      split
      · rename_i he
        refine ih _ _ ?_ (by simpa using he) (by simp)
        simpa using SectionsLast.push_section placed he
      · exact ih _ _ (by simpa using earlier.push_section (x := s.withChildren _) hs)
          (by simpa using hs) (by simp)
    | none =>
      have earlier : SectionsLast done.toList := by simpa using placed
      rw [nestLevel]
      split
      · rename_i he
        exact ih _ _ (by simpa using earlier.push_section he) (by simpa using he) (by simp)
      · have none_yet := before rfl
        refine ih _ _ ?_ (by simp) ?_
        · simpa using SectionsLast.push_of_none none_yet
        · intro _ d hd
          simp only [Array.toList_push, List.mem_append, List.mem_singleton] at hd
          rcases hd with hd | rfl
          · exact none_yet d hd
          · simp_all

/-- After `nestNonSections`, no entry of the top level that is not a section follows a
section. -/
theorem nestNonSections_sectionsLast (es : List Entry) :
    SectionsLast (nestNonSections es) := by
  rw [nestNonSections]
  exact nestLevel_sectionsLast es none #[] (by simp [SectionsLast]) (by simp) (by simp)

/-! ## Sections by rank -/

/-- The flat document of open sections closed into one another: each in turn from the
outermost, with what is already nested under it. -/
def stackFlat (stack : List OpenSection) : List Entry :=
  stack.reverse.flatMap fun s => flatten [s.1]

@[simp] theorem stackFlat_nil : stackFlat [] = [] := rfl

@[simp] theorem stackFlat_cons (s : OpenSection) (stack : List OpenSection) :
    stackFlat (s :: stack) = stackFlat stack ++ flatten [s.1] := by
  simp [stackFlat]

/-- Closing the open sections into the outermost one keeps their flat document: each is
attached as the last entry under the one it was opened in. -/
theorem flatten_closeAll (stack : List OpenSection) :
    flatten (closeAll stack).toList = stackFlat stack := by
  induction stack using closeAll.induct with
  | case1 => simp [closeAll]
  | case2 root r => simp [closeAll]
  | case3 top tr parent r rest ih =>
    rw [closeAll, ih]
    simp

theorem closeAll_isSome {stack : List OpenSection} (h : stack ≠ []) : (closeAll stack).isSome := by
  induction stack using closeAll.induct with
  | case1 => exact absurd rfl h
  | case2 root r => simp [closeAll]
  | case3 top tr parent r rest ih =>
    rw [closeAll]
    exact ih (by simp)

theorem stackFlat_closeFrom (rank : Nat) (stack : List OpenSection) :
    stackFlat (closeFrom rank stack) = stackFlat stack := by
  induction stack using closeFrom.induct rank with
  | case1 top r parent pr rest closes ih =>
    rw [closeFrom, if_pos closes, ih]
    simp
  | case2 top r parent pr rest stays =>
    rw [closeFrom, if_neg stays]
  | case3 stack short =>
    rw [closeFrom]
    simp_all

namespace RankNest

/-- While sections are open, the outermost one stands last on the top level, at the slot. -/
def Settled (st : RankNest) : Prop :=
  st.stack = [] ∨ st.slot + 1 = st.top.size

private theorem set_length_sub_one {α : Type} (l : List α) (x : α) (h : l ≠ []) :
    l.set (l.length - 1) x = l.dropLast ++ [x] := by
  obtain ⟨init, last, rfl⟩ := List.eq_nil_or_concat l |>.resolve_left h
  simp

/-- The flat document of the nesting so far: the closed top level, then the open sections. -/
theorem flatten_finish {st : RankNest} (settled : st.Settled) :
    flatten st.finish =
      flatten (if st.stack = [] then st.top.toList else st.top.toList.dropLast) ++
        stackFlat st.stack := by
  rw [finish]
  by_cases empty : st.stack = []
  · simp [empty, closeAll]
  · obtain ⟨root, closed⟩ := Option.isSome_iff_exists.mp (closeAll_isSome empty)
    have slot : st.slot = st.top.size - 1 := by
      rcases settled with h | h
      · exact absurd h empty
      · omega
    have nonempty : st.top.toList ≠ [] := by
      rw [Ne, ← List.length_eq_zero_iff, Array.length_toList]
      rcases settled with h | h
      · exact absurd h empty
      · omega
    rw [closed]
    dsimp only
    rw [if_neg empty, ← flatten_closeAll, closed, Option.toList_some,
      Array.toList_setIfInBounds, slot, ← Array.length_toList, set_length_sub_one _ _ nonempty,
      flatten_append]

theorem finish_of_closeAll {st : RankNest} {root : Entry} (closed : closeAll st.stack = some root) :
    st.finish = (st.top.setIfInBounds st.slot root).toList := by
  simp [finish, closed]

/-- One step of the nesting adds the entry at the end of the flat document, provided that
while sections are open the entry is a ranked section or an included file. -/
theorem step_flatten (cfg : Config) {st : RankNest} (settled : st.Settled) (e : Entry)
    (fits : st.stack ≠ [] → (e.isSection ∧ (cfg.rank e.name).isSome) ∨ e.kind = .included) :
    (st.step cfg e).Settled ∧ flatten (st.step cfg e).finish = flatten st.finish ++ flatten [e] := by
  rw [step]
  split
  · rename_i r ranked
    split
    · rename_i last outer opened
      have nonempty : st.stack ≠ [] := by
        intro h
        simp [h] at opened
      obtain ⟨root, closed⟩ := Option.isSome_iff_exists.mp (closeAll_isSome nonempty)
      have slot : st.slot + 1 = st.top.size := settled.resolve_left nonempty
      split
      · -- a section at the outermost rank or above closes every open section
        simp only [closed]
        have settled' : Settled ⟨(st.top.setIfInBounds st.slot root).push e,
            (st.top.setIfInBounds st.slot root).size, [(e, r)]⟩ := by
          simp [Settled]
        refine ⟨settled', ?_⟩
        rw [flatten_finish settled', finish_of_closeAll closed]
        simp
      · -- a deeper section goes under the innermost open section of a smaller rank
        have settled' : Settled ⟨st.top, st.slot, (e, r) :: closeFrom r st.stack⟩ :=
          .inr slot
        refine ⟨settled', ?_⟩
        rw [flatten_finish settled', flatten_finish settled]
        simp [nonempty, stackFlat_closeFrom]
    · rename_i none_open
      have empty : st.stack = [] := List.getLast?_eq_none_iff.mp none_open
      have settled' : Settled ⟨st.top.push e, st.top.size, [(e, r)]⟩ := by
        simp [Settled]
      refine ⟨settled', ?_⟩
      rw [flatten_finish settled', flatten_finish settled]
      simp [empty]
  · rename_i unranked
    split
    · -- an included file goes under the innermost open section
      rename_i s sr rest included opened
      have slot : st.slot + 1 = st.top.size := settled.resolve_left (by simp [opened])
      have settled' : Settled ⟨st.top, st.slot, (s.withChildren (s.children ++ [e]), sr) :: rest⟩ :=
        .inr slot
      refine ⟨settled', ?_⟩
      rw [flatten_finish settled', flatten_finish settled, opened]
      simp
    · rename_i others
      have empty : st.stack = [] := by
        cases opened : st.stack with
        | nil => rfl
        | cons top rest =>
          obtain ⟨s, sr⟩ := top
          rcases fits (by simp [opened]) with ⟨section_, ranked⟩ | included
          · simp [section_] at unranked
            simp [unranked] at ranked
          · exact (others s sr rest included opened).elim
      have settled' : Settled ⟨st.top.push e, st.slot, st.stack⟩ := .inl empty
      refine ⟨settled', ?_⟩
      rw [flatten_finish settled', flatten_finish settled]
      simp [empty]

theorem step_stack_of_not_section (cfg : Config) {st : RankNest} {e : Entry}
    (empty : st.stack = []) (not_section : e.isSection = false) : (st.step cfg e).stack = [] := by
  simp [step, not_section, empty]

end RankNest

/-- Nesting a top level by rank keeps its flat document, when its sections come last and all
have a rank: each entry then lands at the end of the nesting built so far. -/
theorem flatten_foldl_step (cfg : Config) (es : List Entry) (st : RankNest) (settled : st.Settled)
    (last : SectionsLast es) (ranked : ∀ e ∈ es, e.isSection → (cfg.rank e.name).isSome)
    (opened : st.stack ≠ [] → ∀ e ∈ es, e.isSection) :
    flatten (es.foldl (RankNest.step cfg) st).finish = flatten st.finish ++ flatten es := by
  induction es generalizing st with
  | nil => simp
  | cons e rest ih =>
    have fits : st.stack ≠ [] → (e.isSection ∧ (cfg.rank e.name).isSome) ∨ e.kind = .included :=
      fun nonempty =>
        .inl ⟨opened nonempty e (by simp), ranked e (by simp) (opened nonempty e (by simp))⟩
    obtain ⟨settled', stepped⟩ := RankNest.step_flatten cfg settled e fits
    have opened' : (st.step cfg e).stack ≠ [] → ∀ x ∈ rest, x.isSection := by
      intro nonempty x hx
      cases section_ : e.isSection
      · by_cases empty : st.stack = []
        · exact absurd (RankNest.step_stack_of_not_section cfg empty section_) nonempty
        · exact opened empty x (by simp [hx])
      · exact (List.pairwise_cons.1 last).1 x hx section_
    rw [List.foldl_cons, ih _ settled' (List.pairwise_cons.1 last).2
      (fun x hx => ranked x (by simp [hx])) opened', stepped]
    simp

theorem flatten_nestSections (cfg : Config) (es : List Entry) (last : SectionsLast es)
    (ranked : ∀ e ∈ es, e.isSection → (cfg.rank e.name).isSome) :
    flatten (nestSections cfg es) = flatten es := by
  rw [nestSections, flatten_foldl_step cfg es _ (.inl rfl) last ranked (fun h => absurd rfl h)]
  simp [RankNest.finish, closeAll]

/-- The two nesting passes keep the flat document of a forest whose sections all have a
rank. -/
theorem flatten_nest (cfg : Config) (es : List Entry)
    (ranked : ∀ e ∈ flatten es, e.isSection → (cfg.rank e.name).isSome) :
    flatten (nestSections cfg (nestNonSections es)) = flatten es := by
  rw [flatten_nestSections cfg _ (nestNonSections_sectionsLast es), flatten_nestNonSections]
  intro e he section_
  have top := bare_mem_flatten he
  rw [flatten_nestNonSections] at top
  simpa using ranked e.bare top (by simpa using section_)

/-! ## Float numbers -/

namespace Entry

/-- Whether float numbering counts an entry: an environment that is not a documentation
block. -/
def isFloat (e : Entry) : Bool :=
  e.kind == .environment && !documentationEnvironments.contains e.name

/-- The number of floats named `n` in a flat document. -/
def floatsNamed (n : String) (es : List Entry) : Nat :=
  es.countP fun x => x.isFloat && x.name == n

/-- The entry with another label. -/
def withLabel (e : Entry) (label : String) : Entry := { e with label }

theorem isFloat_iff (e : Entry) :
    e.isFloat = true ↔ e.kind = .environment ∧ e.name ∉ documentationEnvironments := by
  simp [isFloat]

@[simp] theorem isFloat_bare (e : Entry) : e.bare.isFloat = e.isFloat := rfl

theorem floatsNamed_singleton (n : String) (e : Entry) :
    floatsNamed n [e] = if e.isFloat ∧ e.name = n then 1 else 0 := by
  by_cases h : e.isFloat ∧ e.name = n <;> simp_all [floatsNamed]

@[simp] theorem floatsNamed_nil (n : String) : floatsNamed n [] = 0 := rfl

@[simp] theorem floatsNamed_append (n : String) (as bs : List Entry) :
    floatsNamed n (as ++ bs) = floatsNamed n as + floatsNamed n bs := by
  simp [floatsNamed, List.countP_append]

theorem floatsNamed_cons (n : String) (e : Entry) (es : List Entry) :
    floatsNamed n (e :: es) = floatsNamed n [e] + floatsNamed n es := by
  rw [← floatsNamed_append]
  rfl

end Entry

/-- A flat document with each float numbered by its place among the floats of its name, the
counts starting from `start`. -/
def numberedFrom (start : String → Nat) : List Entry → List Entry
  | [] => []
  | e :: rest =>
    let start' := fun n => start n + floatsNamed n [e]
    (if e.isFloat then e.withLabel (insertNumber e.label (start' e.name)) else e) ::
      numberedFrom start' rest

/-- A flat document with each float numbered by its place: the `k`-th float of a name gets
the number `k`. -/
def numberedByPlace (es : List Entry) : List Entry :=
  numberedFrom (fun _ => 0) es

theorem numberedFrom_append (start : String → Nat) (as bs : List Entry) :
    numberedFrom start (as ++ bs) =
      numberedFrom start as ++ numberedFrom (fun n => start n + floatsNamed n as) bs := by
  induction as generalizing start with
  | nil => simp [numberedFrom]
  | cons a rest ih =>
    simp only [List.cons_append, numberedFrom, ih, List.cons.injEq, true_and]
    congr 2
    funext n
    rw [floatsNamed_cons n a rest]
    omega

namespace Counters

/-- How often a name has been counted. -/
def count (c : Counters) (n : String) : Nat :=
  (c.lookup n).getD 0

theorem lookup_cons_ite (m x : String) (v : Nat) (rest : List (String × Nat)) :
    List.lookup m ((x, v) :: rest) = if m = x then some v else List.lookup m rest := by
  by_cases h : m = x
  · subst h
    simp
  · simp [List.lookup, beq_false_of_ne h, h]

theorem lookup_map_set (c : Counters) (n m : String) (k : Nat) :
    (c.map fun (x, v) => if x = n then (x, k) else (x, v)).lookup m =
      if m = n then (c.lookup n).map fun _ => k else c.lookup m := by
  induction c with
  | nil => simp
  | cons p rest ih =>
    obtain ⟨x, v⟩ := p
    rw [List.map_cons]
    by_cases hx : x = n
    · subst hx
      by_cases hm : m = x <;> simp_all [lookup_cons_ite]
    · have hn : ¬n = x := Ne.symm hx
      by_cases hm : m = x <;> simp_all [lookup_cons_ite]

theorem bump_snd (c : Counters) (n : String) : (c.bump n).2 = c.count n + 1 := by
  unfold bump count
  split <;> rename_i found <;> simp [found]

theorem count_bump (c : Counters) (n m : String) :
    (c.bump n).1.count m = c.count m + if m = n then 1 else 0 := by
  unfold bump count
  split
  · rename_i k found
    rw [lookup_map_set]
    by_cases hm : m = n
    · subst hm
      simp [found]
    · simp [hm]
  · rename_i missing
    by_cases hm : m = n
    · subst hm
      simp [List.lookup_append, missing]
    · simp [List.lookup_append, hm, lookup_cons_ite]

end Counters

/-- Numbering the label of one entry: a float takes the next number of its name. -/
theorem numberFloatsOf_label (k : Kind) (n l : String) (o s t : Nat) (f : String)
    (cs : List Entry) (c : Counters) :
    ∃ l' c1, numberFloatsOf ⟨k, n, l, o, s, t, f, cs⟩ c =
        (⟨k, n, l', o, s, t, f, (numberFloatsWith cs c1).1⟩, (numberFloatsWith cs c1).2) ∧
      c1.count = (fun m => c.count m + floatsNamed m [⟨k, n, l, o, s, t, f, []⟩]) ∧
      (⟨k, n, l', o, s, t, f, []⟩ : Entry) =
        if (⟨k, n, l, o, s, t, f, []⟩ : Entry).isFloat then
          (⟨k, n, l, o, s, t, f, []⟩ : Entry).withLabel (insertNumber l (c1.count n))
        else ⟨k, n, l, o, s, t, f, []⟩ := by
  by_cases float : k = .environment ∧ n ∉ documentationEnvironments
  · have isFloat : (⟨k, n, l, o, s, t, f, []⟩ : Entry).isFloat = true := (isFloat_iff _).2 float
    rcases bumped : c.bump n with ⟨c1, i⟩
    have hi : i = c.count n + 1 := by rw [← Counters.bump_snd, bumped]
    have hc1 : c1.count = fun m => c.count m + floatsNamed m [⟨k, n, l, o, s, t, f, []⟩] := by
      funext m
      have := Counters.count_bump c n m
      rw [bumped] at this
      rw [this, floatsNamed_singleton]
      by_cases hm : m = n
      · simp [hm, isFloat]
      · simp [hm, Ne.symm hm]
    refine ⟨insertNumber l i, c1, by simp [numberFloatsOf, if_pos float, bumped], hc1, ?_⟩
    rw [if_pos isFloat, hc1]
    simp [withLabel, floatsNamed_singleton, isFloat, hi]
  · have notFloat : (⟨k, n, l, o, s, t, f, []⟩ : Entry).isFloat = false := by
      cases h : (⟨k, n, l, o, s, t, f, []⟩ : Entry).isFloat
      · rfl
      · exact absurd ((isFloat_iff _).1 h) float
    refine ⟨l, c, by simp [numberFloatsOf, if_neg float], ?_, by rw [if_neg (by simp [notFloat])]⟩
    funext m
    simp [floatsNamed_singleton, notFloat]

mutual

/-- Numbering the floats of a forest numbers its flat document by place, the counts starting
from the counters `c`, and leaves each name counted once more per float of that name. -/
theorem flatten_numberFloatsWith (es : List Entry) (c : Counters) :
    flatten (numberFloatsWith es c).1 = numberedFrom c.count (flatten es) ∧
      (numberFloatsWith es c).2.count = fun n => c.count n + floatsNamed n (flatten es) := by
  match es with
  | [] => simp [numberFloatsWith, numberedFrom]
  | e :: rest =>
    obtain ⟨first, counted⟩ := flatten_numberFloatsOf e c
    rcases numbered : numberFloatsOf e c with ⟨e', c1⟩
    rw [numbered] at first counted
    obtain ⟨more, counted'⟩ := flatten_numberFloatsWith rest c1
    rcases numbered' : numberFloatsWith rest c1 with ⟨rest', c2⟩
    rw [numbered'] at more counted'
    simp only [numberFloatsWith, numbered, numbered']
    have split : ∀ (x : Entry) (xs : List Entry), x :: xs = [x] ++ xs := fun _ _ => rfl
    rw [split e', split e, flatten_append, flatten_append, numberedFrom_append, first, more,
      counted', counted]
    refine ⟨rfl, ?_⟩
    funext m
    simp only [floatsNamed_append]
    omega

/-- Numbering one entry and the entries under it. -/
theorem flatten_numberFloatsOf (e : Entry) (c : Counters) :
    flatten [(numberFloatsOf e c).1] = numberedFrom c.count (flatten [e]) ∧
      (numberFloatsOf e c).2.count = fun n => c.count n + floatsNamed n (flatten [e]) := by
  match e with
  | ⟨k, n, l, o, s, t, f, cs⟩ =>
    obtain ⟨l', c1, numbered, counted, labelled⟩ := numberFloatsOf_label k n l o s t f cs c
    obtain ⟨inner, counted'⟩ := flatten_numberFloatsWith cs c1
    rw [numbered]
    have alone : flatten [⟨k, n, l, o, s, t, f, cs⟩] = ⟨k, n, l, o, s, t, f, []⟩ :: flatten cs := by
      simp [bare, withChildren]
    have alone' : flatten [⟨k, n, l', o, s, t, f, (numberFloatsWith cs c1).1⟩] =
        ⟨k, n, l', o, s, t, f, []⟩ :: flatten (numberFloatsWith cs c1).1 := by
      simp [bare, withChildren]
    rw [alone, alone', numberedFrom, ← counted, inner, counted', labelled, counted]
    refine ⟨rfl, ?_⟩
    funext m
    simp only [floatsNamed_cons m _ (flatten cs)]
    omega

end

/-- Float numbering numbers the flat document of a forest by place. -/
theorem flatten_numberFloats (es : List Entry) :
    flatten (numberFloats es) = numberedByPlace (flatten es) :=
  (flatten_numberFloatsWith es []).1

@[simp] theorem length_numberedFrom (start : String → Nat) (es : List Entry) :
    (numberedFrom start es).length = es.length := by
  induction es generalizing start with
  | nil => rfl
  | cons e rest ih => simp [numberedFrom, ih]

/-- The entry at position `i` of a document numbered by place: a float gets the number of
floats of its name up to and including it. -/
theorem getElem_numberedFrom (start : String → Nat) (es : List Entry) (i : Nat)
    (h : i < es.length) :
    (numberedFrom start es)[i]? =
      some (if es[i].isFloat then
        es[i].withLabel (insertNumber es[i].label
          (start es[i].name + floatsNamed es[i].name (es.take (i + 1))))
      else es[i]) := by
  induction es generalizing start i with
  | nil => cases h
  | cons e rest ih =>
    cases i with
    | zero => simp [numberedFrom, floatsNamed_singleton]
    | succ i =>
      simp only [numberedFrom, List.getElem?_cons_succ, List.getElem_cons_succ, List.take_succ_cons]
      rw [ih _ i (by simpa using h), floatsNamed_cons _ e (List.take (i + 1) rest)]
      simp only [Nat.add_assoc]

/-! ## Splicing takes entries from the forests -/

theorem mem_of_forestOf? {forests : Forests} {file : String} {es : List Entry}
    (h : forestOf? forests file = some es) : (file, es) ∈ forests := by
  induction forests with
  | nil => simp [forestOf?] at h
  | cons p rest ih =>
    obtain ⟨f, fs⟩ := p
    simp only [forestOf?] at h
    split at h
    · rename_i same
      cases h
      simp [same]
    · exact List.mem_cons_of_mem _ (ih h)

/-! ## Section numbers change section labels only -/

/-- An entry with its label blanked if it is a section: what section numbering leaves as it
was. -/
def Entry.blankSection (e : Entry) : Entry :=
  if e.isSection then e.withLabel "" else e

mutual

/-- Numbering the sections of a forest changes the labels of sections and nothing else of
its flat document. -/
theorem blankSection_numberSectionsWith (cfg : Config) (pre : String) (lowest : Option Int)
    (es : List Entry) :
    (flatten (numberSectionsWith cfg pre lowest es)).map Entry.blankSection =
      (flatten es).map Entry.blankSection := by
  rw [numberSectionsWith]
  split
  · rfl
  · exact blankSection_numberLevel cfg pre _ [] es
termination_by (sizeOf es, 1)

theorem blankSection_numberLevel (cfg : Config) (pre : String) (low : Int) (c : List (Nat × Nat))
    (es : List Entry) :
    (flatten (numberLevel cfg pre low c es)).map Entry.blankSection =
      (flatten es).map Entry.blankSection := by
  match es with
  | [] => simp [numberLevel]
  | e :: rest =>
    rw [numberLevel]
    split
    · simp only [flatten_cons, List.map_cons, List.map_append]
      rw [blankSection_numberLevel cfg pre low c rest]
    · rename_i r ranked
      have section_ : e.isSection = true := by
        cases h : e.isSection
        · simp [h] at ranked
        · rfl
      simp only [flatten_cons, List.map_cons, List.map_append]
      rw [blankSection_numberSectionsWith, blankSection_numberLevel]
      have relabelled : ∀ (label : String) (cs : List Entry),
          ({ e with label, children := cs } : Entry).bare.blankSection = e.bare.blankSection := by
        intro label cs
        have relabelled : ({ e with label, children := cs } : Entry).bare.isSection = true :=
          section_
        rw [Entry.blankSection, Entry.blankSection, if_pos relabelled, if_pos (by simpa using section_)]
        rfl
      rw [relabelled]
termination_by (sizeOf es, 0)
decreasing_by
  all_goals
    apply Prod.Lex.left
    cases e
    simp <;> omega

end

/-! ## Sections of gathered forests -/

/-- Every section of the forest, at any depth, has a rank and no entries nested under it. -/
def RankedLeaves (cfg : Config) (es : List Entry) : Prop :=
  ∀ x ∈ preorder es, x.isSection → (cfg.rank x.name).isSome ∧ x.children = []

namespace RankedLeaves

variable {cfg : Config}

theorem nil : RankedLeaves cfg [] := by
  simp [RankedLeaves]

theorem append {as bs : List Entry} (ha : RankedLeaves cfg as) (hb : RankedLeaves cfg bs) :
    RankedLeaves cfg (as ++ bs) := by
  intro x hx
  rw [preorder_append, List.mem_append] at hx
  exact hx.elim (ha x) (hb x)

theorem cons_iff {e : Entry} {rest : List Entry} :
    RankedLeaves cfg (e :: rest) ↔
      (e.isSection → (cfg.rank e.name).isSome ∧ e.children = []) ∧
        RankedLeaves cfg e.children ∧ RankedLeaves cfg rest := by
  simp only [RankedLeaves, preorder_cons, List.cons_append, List.mem_cons, List.mem_append,
    forall_eq_or_imp]
  constructor
  · rintro ⟨own, rest'⟩
    exact ⟨own, fun x hx => rest' x (.inl hx), fun x hx => rest' x (.inr hx)⟩
  · rintro ⟨own, inner, rest'⟩
    exact ⟨own, fun x hx => hx.elim (inner x) (rest' x)⟩

/-- An entry that is no section, or a ranked section with nothing under it. -/
theorem single {e : Entry} (own : e.isSection → (cfg.rank e.name).isSome ∧ e.children = [])
    (inner : RankedLeaves cfg e.children) : RankedLeaves cfg [e] :=
  cons_iff.2 ⟨own, inner, nil⟩

/-- An entry given other nested entries, with nothing nested under a section. -/
theorem withChildren_cons {e : Entry} {rest cs rest' : List Entry}
    (hes : RankedLeaves cfg (e :: rest)) (hcs : RankedLeaves cfg cs)
    (leaf : e.children = [] → cs = []) (hrest : RankedLeaves cfg rest') :
    RankedLeaves cfg (e.withChildren cs :: rest') := by
  obtain ⟨own, -, -⟩ := cons_iff.1 hes
  refine cons_iff.2 ⟨fun s => ?_, hcs, hrest⟩
  obtain ⟨ranked, noChildren⟩ := own (by simpa using s)
  exact ⟨ranked, leaf noChildren⟩

theorem flatten_ranked {es : List Entry} (h : RankedLeaves cfg es) :
    ∀ x ∈ flatten es, x.isSection → (cfg.rank x.name).isSome := by
  intro x hx section_
  obtain ⟨y, hy, rfl⟩ := List.mem_map.mp hx
  exact (h y hy (by simpa using section_)).1

end RankedLeaves

/-- Every forest of the run has ranked leaves for sections. -/
def Run.RankedLeaves (cfg : Config) (run : Run) : Prop :=
  ∀ p ∈ run.forests, Outline.RankedLeaves cfg p.2

/-- Every entry an environment gets is an environment entry with nothing nested yet. -/
theorem environmentEntry_shown (g : Gathering) (file : String) {pl : Place} {name : String}
    {args : List Arg} {body : List Node} {e : Entry}
    (h : e ∈ environmentEntry g file pl name args body) :
    e.kind = .environment ∧ e.children = [] := by
  unfold environmentEntry environmentEntry.rest at h
  repeat' (first | split at h | simp only [Option.mem_def, Option.some.injEq] at h)
  all_goals first
    | (subst h; exact ⟨rfl, rfl⟩)
    | cases h

section Walk

variable (g : Gathering) (file : String) {sub : String → Run → Except (Failure × Run) Run}
  (subKeeps : ∀ p run run', sub p run = .ok run' → run.RankedLeaves g.cfg →
    run'.RankedLeaves g.cfg)
include subKeeps

/-- The entry of a command has nothing nested under it, and a rank if it is a section. -/
theorem commandEntry_rankedLeaves {pl : Place} {name : String} {args : List Arg} {run run' : Run}
    {own : Option Entry} (h : commandEntry g file sub pl name args run = .ok (own, run'))
    (hrun : run.RankedLeaves g.cfg) :
    (∀ e ∈ own, e.children = [] ∧ (e.isSection → (g.cfg.rank e.name).isSome)) ∧
      run'.RankedLeaves g.cfg := by
  unfold commandEntry at h
  dsimp only at h
  split at h
  · rename_i ranked
    cases h
    exact ⟨fun e he => by cases he; exact ⟨rfl, fun _ => ranked⟩, hrun⟩
  · split at h
    · cases h
      exact ⟨fun e he => by cases he; exact ⟨rfl, by simp [Place.entry, Entry.isSection]⟩, hrun⟩
    · split at h
      · cases h
      · cases h
        exact ⟨by simp, hrun⟩
      · rename_i sf raw _
        split at h
        · cases hsub : sub sf run with
          | error e => simp [hsub, Except.map] at h
          | ok run'' =>
            simp only [hsub, Except.map, Except.ok.injEq, Prod.mk.injEq] at h
            obtain ⟨rfl, rfl⟩ := h
            exact ⟨fun e he => by cases he; exact ⟨rfl, by simp [Place.entry, Entry.isSection]⟩,
              subKeeps _ _ _ hsub hrun⟩
        · cases h
          exact ⟨fun e he => by cases he; exact ⟨rfl, by simp [Place.entry, Entry.isSection]⟩, hrun⟩

/-- The entry of a node has nothing nested under it, and a section's is ranked and comes from
a node with no body. -/
theorem nodeEntry_rankedLeaves {pl : Place} {n : Node} {run run' : Run} {own : Option Entry}
    (h : nodeEntry g file sub pl n run = .ok (own, run')) (hrun : run.RankedLeaves g.cfg) :
    (∀ e ∈ own, e.children = [] ∧ (e.isSection → (g.cfg.rank e.name).isSome ∧ n.body = [])) ∧
      run'.RankedLeaves g.cfg := by
  unfold nodeEntry at h
  split at h
  · obtain ⟨entries, kept⟩ := commandEntry_rankedLeaves g file subKeeps h hrun
    exact ⟨fun e he => ⟨(entries e he).1, fun s => ⟨(entries e he).2 s, rfl⟩⟩, kept⟩
  · rename_i name args body _
    cases h
    refine ⟨fun e he => ?_, hrun⟩
    have shown := environmentEntry_shown g file he
    exact ⟨shown.2, fun s => by simp [Entry.isSection, shown.1] at s⟩
  · split at h <;> cases h
    · exact ⟨fun e he => by cases he; exact ⟨rfl, by simp [Place.entry, Entry.isSection]⟩, hrun⟩
    · exact ⟨by simp, hrun⟩
  · cases h
    exact ⟨by simp, hrun⟩

/-- Child documents become included-file entries with nothing nested. -/
theorem placeChunks_rankedLeaves {pl : Place} :
    ∀ (chunks : List ChildChunk) (run : Run) (es : List Entry) (left : List ChildChunk)
      (run' : Run), placeChunks g file sub pl chunks run = .ok (es, left, run') →
      run.RankedLeaves g.cfg → RankedLeaves g.cfg es ∧ run'.RankedLeaves g.cfg := by
  intro chunks
  induction chunks with
  | nil =>
    intro run es left run' h hrun
    cases h
    exact ⟨.nil, hrun⟩
  | cons c rest ih =>
    intro run es left run' h hrun
    unfold placeChunks at h
    split at h
    · dsimp only at h
      split at h
      · cases h
      · rename_i run'' gathered
        have kept : run''.RankedLeaves g.cfg := by
          split at gathered
          · exact subKeeps _ _ _ gathered hrun
          · cases gathered
            exact hrun
        split at h
        · cases h
        · rename_i more placed
          cases h
          obtain ⟨entries, kept'⟩ := ih _ _ _ _ placed kept
          refine ⟨RankedLeaves.append (RankedLeaves.single (fun s => ?_) .nil) entries, kept'⟩
          simp [Entry.isSection] at s
    · cases h
      exact ⟨.nil, hrun⟩

omit subKeeps

mutual

/-- The walk makes forests whose sections are ranked leaves, and keeps the run's forests so. -/
theorem walkNode_rankedLeaves (subKeeps : ∀ p run run', sub p run = .ok run' →
      run.RankedLeaves g.cfg → run'.RankedLeaves g.cfg)
    (idx : Text.LineIndex) (n : Node) (st st' : WalkState) (es : List Entry)
    (h : walkNode g file sub idx n st = .ok (es, st')) (hrun : st.run.RankedLeaves g.cfg) :
    RankedLeaves g.cfg es ∧ st'.run.RankedLeaves g.cfg := by
  rw [walkNode, walkWith] at h
  split at h
  · cases h
  · rename_i own run₁ entry
    obtain ⟨owned, kept₁⟩ := nodeEntry_rankedLeaves g file subKeeps entry hrun
    split at h
    · cases h
    · rename_i chunks pending run₂ placed
      obtain ⟨chunked, kept₂⟩ := placeChunks_rankedLeaves g file subKeeps _ _ _ _ _ placed kept₁
      split at h
      · cases h
      · rename_i inner st₃ walked
        obtain ⟨innerRanked, kept₃⟩ :=
          walkNodes_rankedLeaves subKeeps idx n.body ⟨run₂, pending⟩ st₃ inner walked kept₂
        split at h
        · rename_i e
          cases h
          refine ⟨chunked.append (RankedLeaves.single (fun s => ?_) innerRanked), kept₃⟩
          obtain ⟨leaf, ranked_body⟩ := owned e rfl
          obtain ⟨ranked, body⟩ := ranked_body s
          refine ⟨ranked, ?_⟩
          rw [body, walkNodes] at walked
          cases walked
          rfl
        · cases h
          exact ⟨chunked.append innerRanked, kept₃⟩
termination_by 2 * sizeOf n + 1
decreasing_by have := Node.sizeOf_body_le n; omega

theorem walkNodes_rankedLeaves (subKeeps : ∀ p run run', sub p run = .ok run' →
      run.RankedLeaves g.cfg → run'.RankedLeaves g.cfg)
    (idx : Text.LineIndex) (ns : List Node) (st st' : WalkState) (es : List Entry)
    (h : walkNodes g file sub idx ns st = .ok (es, st')) (hrun : st.run.RankedLeaves g.cfg) :
    RankedLeaves g.cfg es ∧ st'.run.RankedLeaves g.cfg := by
  match ns with
  | [] =>
    rw [walkNodes] at h
    cases h
    exact ⟨.nil, hrun⟩
  | n :: ns =>
    rw [walkNodes] at h
    split at h
    · cases h
    · rename_i first st₁ walked
      obtain ⟨ranked₁, kept₁⟩ := walkNode_rankedLeaves subKeeps idx n st st₁ first walked hrun
      split at h
      · cases h
      · rename_i more st₂ walked'
        obtain ⟨ranked₂, kept₂⟩ := walkNodes_rankedLeaves subKeeps idx ns st₁ st₂ more walked' kept₁
        cases h
        exact ⟨ranked₁.append ranked₂, kept₂⟩
termination_by 2 * sizeOf ns
decreasing_by
  all_goals simp only [List.cons.sizeOf_spec]
  all_goals omega

end

end Walk

theorem Run.RankedLeaves.setForest {cfg : Config} {run : Run} (hrun : run.RankedLeaves cfg)
    (p : String) {es : List Entry} (hes : Outline.RankedLeaves cfg es) :
    (run.setForest p es).RankedLeaves cfg := by
  intro q hq
  simp only [Run.setForest, List.mem_map] at hq
  obtain ⟨⟨f, old⟩, hold, rfl⟩ := hq
  split
  · exact hes
  · exact hrun _ hold

/-- Gathering keeps every forest of the run a forest whose sections are ranked leaves. -/
theorem gatherFile_rankedLeaves (g : Gathering) :
    ∀ (depth : Nat) (p : String) (run run' : Run), gatherFile g depth p run = .ok run' →
      run.RankedLeaves g.cfg → run'.RankedLeaves g.cfg := by
  intro depth
  induction depth with
  | zero =>
    intro p run run' h hrun
    rw [gatherFile] at h
    cases h
    exact hrun
  | succ depth ih =>
    intro p run run' h hrun
    rw [gatherFile] at h
    split at h
    · cases h
      exact hrun
    · dsimp only at h
      have registered : ({ run with forests := run.forests ++ [(p, [])] } : Run).RankedLeaves g.cfg := by
        intro q hq
        simp only [List.mem_append, List.mem_singleton] at hq
        rcases hq with hq | rfl
        · exact hrun q hq
        · exact .nil
      split at h
      · cases h
        exact registered
      · split at h
        · cases h
        · split at h
          · cases h
          · rename_i es st walked
            cases h
            obtain ⟨ranked, kept⟩ := walkNodes_rankedLeaves g p (ih) _ _ _ _ _ walked registered
            exact kept.setForest p ranked

/-- Splicing the forests of a run into a forest keeps sections ranked leaves. -/
theorem spliceWith_rankedLeaves {cfg : Config} {forests : Forests}
    (hforests : ∀ p ∈ forests, RankedLeaves cfg p.2) (expanding : List String) (es : List Entry)
    (hes : RankedLeaves cfg es) : RankedLeaves cfg (spliceWith forests expanding es) := by
  induction expanding, es using spliceWith.induct forests with
  | case1 expanding => simp [spliceWith, RankedLeaves.nil]
  | case2 expanding e rest expands sub found _ ihSub ihRest =>
    rw [spliceWith, dif_pos expands]
    split
    · rename_i sub' found'
      rw [found] at found'
      cases found'
      exact (ihSub (hforests _ (mem_of_forestOf? found))).append
        (ihRest (RankedLeaves.cons_iff.1 hes).2.2)
    · rename_i missing
      simp [found] at missing
  | case3 expanding e rest expands missing ihChildren ihRest =>
    rw [spliceWith, dif_pos expands]
    split
    · rename_i sub found
      simp [found] at missing
    · obtain ⟨-, inner, rest'⟩ := RankedLeaves.cons_iff.1 hes
      exact hes.withChildren_cons (ihChildren inner)
        (fun leaf => by simp [leaf, spliceWith]) (ihRest rest')
  | case4 expanding e rest kept ihChildren ihRest =>
    rw [spliceWith, dif_neg kept]
    obtain ⟨-, inner, rest'⟩ := RankedLeaves.cons_iff.1 hes
    exact hes.withChildren_cons (ihChildren inner)
      (fun leaf => by simp [leaf, spliceWith]) (ihRest rest')

/-! ## The outline of a run -/

/-- With included files merged and floats numbered, the outline of a run whose forests have
ranked sections, read flat and apart from section labels, is its spliced document with each
float numbered by its place. -/
theorem arrange_numbers_floats_by_place {cfg : Config} {forests : Forests} {es : List Entry}
    {root : Option String} (merge : cfg.mergeIncluded = true) (floats : cfg.numberFloats = true)
    (ranked : ∀ x ∈ flatten (splice forests es root), x.isSection → (cfg.rank x.name).isSome) :
    (flatten (arrange cfg forests es root)).map Entry.blankSection =
      (numberedByPlace (flatten (splice forests es root))).map Entry.blankSection := by
  have numbered : flatten (numberFloats (nestSections cfg (nestNonSections (splice forests es root)))) =
      numberedByPlace (flatten (splice forests es root)) := by
    rw [flatten_numberFloats, flatten_nest cfg _ ranked]
  simp only [arrange, merge, floats, Bool.true_and, if_true]
  split
  · rw [numberSections, blankSection_numberSectionsWith, numbered]
  · rw [numbered]

/-- A run gathered from nothing has forests whose sections are ranked leaves, and so has the
spliced document of any of its files. -/
theorem gather_splice_rankedLeaves {g : Gathering} {p : String} {c : DocCache} {run : Run}
    (gathered : gather g p ⟨[], c⟩ = .ok run) (root : Option String) :
    RankedLeaves g.cfg (splice run.forests ((forestOf? run.forests p).getD []) root) := by
  have forests := gatherFile_rankedLeaves g _ p _ run gathered (by simp [Run.RankedLeaves])
  have own : RankedLeaves g.cfg ((forestOf? run.forests p).getD []) := by
    cases found : forestOf? run.forests p with
    | none => exact .nil
    | some es => exact forests _ (mem_of_forestOf? found)
  exact spliceWith_rankedLeaves forests _ _ own

/-- Nesting keeps the document order, and floats are numbered by their place in it.

For a forest whose sections all have a rank, the two nesting passes give back its entries,
each once and in the same preorder, only nested differently. Float numbering of the nested
outline then gives the `k`-th float of a name the number `k`. Every run gathers forests
whose sections are ranked, so in the outline of a run that merges included files and
numbers floats, each float's number is its place among the floats of its name in the
spliced document, and nothing else changes but section labels. -/
theorem nesting_keeps_document_order (cfg : Config) (es : List Entry)
    (ranked : ∀ e ∈ flatten es, e.isSection → (cfg.rank e.name).isSome) :
    flatten (nestSections cfg (nestNonSections es)) = flatten es ∧
    (∀ i (h : i < (flatten es).length),
      (flatten (numberFloats (nestSections cfg (nestNonSections es))))[i]? =
        some (if (flatten es)[i].isFloat then
          (flatten es)[i].withLabel (insertNumber (flatten es)[i].label
            (floatsNamed (flatten es)[i].name ((flatten es).take (i + 1))))
        else (flatten es)[i])) ∧
    (∀ (g : Gathering) (p : String) (c : DocCache) (run : Run),
      gather g p ⟨[], c⟩ = .ok run → g.cfg.mergeIncluded = true → g.cfg.numberFloats = true →
      (flatten (arrange g.cfg run.forests ((forestOf? run.forests p).getD []) (some p))).map
          Entry.blankSection =
        (numberedByPlace (flatten (splice run.forests ((forestOf? run.forests p).getD [])
          (some p)))).map Entry.blankSection) := by
  refine ⟨flatten_nest cfg es ranked, fun i h => ?_, fun g p c run gathered merge floats => ?_⟩
  · rw [flatten_numberFloats, flatten_nest cfg es ranked, numberedByPlace,
      getElem_numberedFrom _ _ i h]
    simp
  · exact arrange_numbers_floats_by_place merge floats
      ((gather_splice_rankedLeaves gathered (some p)).flatten_ranked)

/-- Sections and subsections ranked, figures shown. -/
def sectionsAndFigures : Config :=
  { ranks := [("section", 0), ("subsection", 1)]
    commands := []
    environments := ["figure"]
    texDirs := []
    mergeIncluded := true
    showCaptions := true
    numberFloats := true
    numberSections := true }

/-- Figures before, between and after a section and a subsection. -/
def figuresAroundSections : List Entry :=
  [⟨.environment, "figure", "Figure: A", 0, 0, 0, "main.tex", []⟩,
    ⟨.section, "section", "Intro", 10, 1, 1, "main.tex", []⟩,
    ⟨.environment, "figure", "Figure: B", 20, 2, 2, "main.tex", []⟩,
    ⟨.section, "subsection", "Part", 30, 3, 3, "main.tex", []⟩,
    ⟨.environment, "figure", "Figure", 40, 4, 4, "main.tex", []⟩]

theorem figuresAroundSections_document_order :
    (∀ e ∈ flatten figuresAroundSections, e.isSection →
      (sectionsAndFigures.rank e.name).isSome) ∧
    flatten (nestSections sectionsAndFigures (nestNonSections figuresAroundSections)) =
      flatten figuresAroundSections ∧
    (∀ i (h : i < (flatten figuresAroundSections).length),
      (flatten (numberFloats (nestSections sectionsAndFigures
          (nestNonSections figuresAroundSections))))[i]? =
        some (if (flatten figuresAroundSections)[i].isFloat then
          (flatten figuresAroundSections)[i].withLabel
            (insertNumber (flatten figuresAroundSections)[i].label
              (floatsNamed (flatten figuresAroundSections)[i].name
                ((flatten figuresAroundSections).take (i + 1))))
        else (flatten figuresAroundSections)[i])) ∧
    (∀ (g : Gathering) (p : String) (c : DocCache) (run : Run),
      gather g p ⟨[], c⟩ = .ok run → g.cfg.mergeIncluded = true → g.cfg.numberFloats = true →
      (flatten (arrange g.cfg run.forests ((forestOf? run.forests p).getD []) (some p))).map
          Entry.blankSection =
        (numberedByPlace (flatten (splice run.forests ((forestOf? run.forests p).getD [])
          (some p)))).map Entry.blankSection) :=
  ⟨by decide, nesting_keeps_document_order sectionsAndFigures figuresAroundSections (by decide)⟩

end TexToc.Outline