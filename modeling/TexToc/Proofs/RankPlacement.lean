import TexToc.Proofs.DocumentOrder

/-!
# Sections go under the nearest earlier section of a smaller rank

The second nesting pass reads the top level of a forest once, from left to right, keeping the
open sections on a stack. This module states where the pass puts each entry without the
stack, by a rule over the whole top level (`rankParent`):

* a ranked section goes under the nearest ranked section before it whose rank is smaller, or
  stays at the top level when there is none;
* an included file goes under the nearest ranked section before it, if there is one;
* every other entry stays at the top level.

An entry put under a section becomes its last child at that moment: after the entries the
section already had, and after the entries put under it before. `treeBefore` builds the
entry at a position with what the rule puts under it from the first `m` entries, and
`nestedByRank` the top level they make.

The pass computes the rule with its stack. The stack holds the last ranked section seen and
its chain of sections under which it went, up to a section at the top level
(`Chain`): each is open, since every later ranked section ranks higher (`OpenAt`). The
nearest earlier section of a smaller rank is on that chain (`closeFrom_chain`); closing a
section into the one below it gives that section's entry with everything put under it so far
(`treeBefore_close`), and no entry after a section on the chain goes under an entry before it
(`le_of_openAt`). `Mirrors` ties the state of the pass after `m` entries to `treeBefore` with
bound `m`, every step keeps it (`Mirrors.step`), and closing what is open at the end gives
`nestedByRank` (`Mirrors.finish`).

* `nestSections_eq_nestedByRank`: the pass computes the rule.
* `sections_nest_by_rank`: the rule, the ranks it orders, and the ranks on the stack, for
  every forest and configuration.
-/

namespace TexToc.Outline

open Entry

/-! ## The placement rule -/

/-- The rank by which the pass places an entry: the rank of a section that has one. -/
def Config.sectionRank (cfg : Config) (e : Entry) : Option Nat :=
  if e.isSection then cfg.rank e.name else none

/-- The last index below `i` at which `p` holds. -/
def lastBelow (p : Nat → Bool) : Nat → Option Nat
  | 0 => none
  | i + 1 => if p i then some i else lastBelow p i

theorem lastBelow_eq_some_iff {p : Nat → Bool} {i j : Nat} :
    lastBelow p i = some j ↔ j < i ∧ p j ∧ ∀ k, j < k → k < i → p k = false := by
  induction i with
  | zero => simp [lastBelow]
  | succ i ih =>
    rw [lastBelow]
    by_cases here : p i
    · rw [if_pos here, Option.some.injEq]
      constructor
      · rintro rfl
        exact ⟨Nat.lt_succ_self _, here, fun k above below => absurd below (by omega)⟩
      · rintro ⟨below, -, none_after⟩
        by_contra ne
        have := none_after i (by omega) (Nat.lt_succ_self _)
        simp [here] at this
    · rw [if_neg here, ih]
      constructor
      · rintro ⟨below, holds, none_after⟩
        refine ⟨by omega, holds, fun k above below' => ?_⟩
        by_cases last : k = i
        · subst last
          simpa using here
        · exact none_after k above (by omega)
      · rintro ⟨below, holds, none_after⟩
        have : j ≠ i := by
          rintro rfl
          exact here holds
        exact ⟨by omega, holds, fun k above below' => none_after k above (by omega)⟩

theorem lastBelow_eq_none_iff {p : Nat → Bool} {i : Nat} :
    lastBelow p i = none ↔ ∀ k, k < i → p k = false := by
  induction i with
  | zero => simp [lastBelow]
  | succ i ih =>
    rw [lastBelow]
    by_cases here : p i
    · simp only [if_pos here, reduceCtorEq, false_iff, not_forall]
      exact ⟨i, Nat.lt_succ_self _, by simp [here]⟩
    · rw [if_neg here, ih]
      constructor
      · intro none_ k below
        by_cases last : k = i
        · subst last
          simpa using here
        · exact none_ k (by omega)
      · exact fun none_ k below => none_ k (by omega)

theorem lastBelow_lt {p : Nat → Bool} {i j : Nat} (h : lastBelow p i = some j) : j < i :=
  (lastBelow_eq_some_iff.1 h).1

/-- The last index is at or after every index below `i` where `p` holds. -/
theorem le_lastBelow {p : Nat → Bool} {i j c : Nat} (h : lastBelow p i = some j) (holds : p c)
    (below : c < i) : c ≤ j := by
  obtain ⟨-, -, none_after⟩ := lastBelow_eq_some_iff.1 h
  by_contra after
  have := none_after c (by omega) below
  simp [holds] at this

/-- Indices where `p` fails can be skipped from the top. -/
theorem lastBelow_skip {p : Nat → Bool} {i j : Nat} (le : j ≤ i)
    (fails : ∀ k, j ≤ k → k < i → p k = false) : lastBelow p i = lastBelow p j := by
  induction i with
  | zero => rw [Nat.le_zero.1 le]
  | succ i ih =>
    by_cases top : j = i + 1
    · rw [top]
    · rw [lastBelow, if_neg (by simp [fails i (by omega) (Nat.lt_succ_self _)])]
      exact ih (by omega) fun k above below => fails k above (by omega)

section Rule

variable (cfg : Config) (es : List Entry)

/-- The rank of the entry at a position, if it is a ranked section. -/
def rankAt (j : Nat) : Option Nat :=
  es[j]?.bind cfg.sectionRank

/-- The position of the section under which nesting by rank puts the entry at position `i`,
or none for the top level: for a ranked section, the nearest ranked section before it of a
smaller rank; for an included file, the nearest ranked section before it. -/
def rankParent (i : Nat) : Option Nat :=
  match es[i]? with
  | none => none
  | some x =>
    match cfg.sectionRank x with
    | some r => lastBelow (fun j => (rankAt cfg es j).any (· < r)) i
    | none => if x.kind = .included then lastBelow (fun j => (rankAt cfg es j).isSome) i else none

/-- The positions before `m` whose entries go under the entry at position `j`, in order. -/
def placedBefore (m j : Nat) : List Nat :=
  (List.range m).filter fun i => rankParent cfg es i = some j

end Rule

/-- An entry goes under one at an earlier position. -/
theorem rankParent_lt {cfg : Config} {es : List Entry} {i j : Nat}
    (h : rankParent cfg es i = some j) : j < i := by
  unfold rankParent at h
  split at h
  · cases h
  · split at h
    · exact lastBelow_lt h
    · split at h
      · exact lastBelow_lt h
      · cases h

section Rule

variable {cfg : Config} {es : List Entry}

/-- A ranked section is placed under the nearest earlier section of a smaller rank. -/
theorem rankParent_of_rankAt {i r : Nat} (ranked : rankAt cfg es i = some r) :
    rankParent cfg es i = lastBelow (fun j => (rankAt cfg es j).any (· < r)) i := by
  unfold rankAt at ranked
  unfold rankParent
  cases at_i : es[i]? with
  | none => simp [at_i] at ranked
  | some x =>
    simp only [at_i, Option.bind_some] at ranked
    simp only [ranked]

/-- An included file is placed under the nearest earlier ranked section. -/
theorem rankParent_of_included {i : Nat} {x : Entry} (at_i : es[i]? = some x)
    (unranked : cfg.sectionRank x = none) (included : x.kind = .included) :
    rankParent cfg es i = lastBelow (fun j => (rankAt cfg es j).isSome) i := by
  simp [rankParent, at_i, unranked, included]

/-- Any other entry stays at the top level. -/
theorem rankParent_of_other {i : Nat} {x : Entry} (at_i : es[i]? = some x)
    (unranked : cfg.sectionRank x = none) (other : x.kind ≠ .included) :
    rankParent cfg es i = none := by
  simp [rankParent, at_i, unranked, other]

/-- Entries go only under ranked sections. -/
theorem rankAt_of_rankParent {i j : Nat} (h : rankParent cfg es i = some j) :
    (rankAt cfg es j).isSome := by
  unfold rankParent at h
  split at h
  · cases h
  · split at h
    · have := (lastBelow_eq_some_iff.1 h).2.1
      cases ranked : rankAt cfg es j <;> simp_all
    · split at h
      · exact (lastBelow_eq_some_iff.1 h).2.1
      · cases h

theorem rankParent_isSome {i j : Nat} (h : rankParent cfg es i = some j) : i < es.length := by
  by_contra past
  have : es[i]? = none := List.getElem?_eq_none (by omega)
  simp [rankParent, this] at h

/-- The section at `c` is open after the first `m` entries: it is ranked, and every ranked
section after it among them ranks higher. -/
def OpenAt (cfg : Config) (es : List Entry) (c m : Nat) : Prop :=
  ∃ rc, rankAt cfg es c = some rc ∧
    ∀ k r, c < k → k < m → rankAt cfg es k = some r → rc < r

/-- The last ranked section is open. -/
theorem openAt_of_last {c m : Nat}
    (last : lastBelow (fun j => (rankAt cfg es j).isSome) m = some c) :
    OpenAt cfg es c m := by
  obtain ⟨-, ranked, none_after⟩ := lastBelow_eq_some_iff.1 last
  obtain ⟨rc, hc⟩ := Option.isSome_iff_exists.1 ranked
  refine ⟨rc, hc, fun k r above below hk => ?_⟩
  have := none_after k above below
  simp [hk] at this

/-- The section a ranked section went under is open while that section is: every ranked
section between them ranks at least as the later one. -/
theorem OpenAt.parent {c m p : Nat} (h : OpenAt cfg es c m) (up : rankParent cfg es c = some p) :
    OpenAt cfg es p m := by
  obtain ⟨rc, hc, later⟩ := h
  rw [rankParent_of_rankAt hc] at up
  obtain ⟨below, smaller, between⟩ := lastBelow_eq_some_iff.1 up
  obtain ⟨rp, hp, lt⟩ : ∃ rp, rankAt cfg es p = some rp ∧ rp < rc := by
    cases hp : rankAt cfg es p <;> simp_all
  refine ⟨rp, hp, fun k r above belowM hk => ?_⟩
  rcases Nat.lt_trichotomy k c with before | rfl | after
  · have := between k above before
    simp only [hk, Option.any_some, decide_eq_false_iff_not, Nat.not_lt] at this
    omega
  · rw [hc] at hk
    cases hk
    exact lt
  · have := later k r after belowM hk
    omega

/-- No entry after an open section, before the bound, goes under an entry before it. -/
theorem le_of_openAt {c m k p : Nat} (h : OpenAt cfg es c m) (after : c < k) (below : k < m)
    (up : rankParent cfg es k = some p) : c ≤ p := by
  obtain ⟨rc, hc, later⟩ := h
  obtain ⟨x, at_k⟩ : ∃ x, es[k]? = some x :=
    ⟨_, List.getElem?_eq_getElem (rankParent_isSome up)⟩
  cases ranked : cfg.sectionRank x with
  | some r =>
    have hk : rankAt cfg es k = some r := by simp [rankAt, at_k, ranked]
    rw [rankParent_of_rankAt hk] at up
    exact le_lastBelow up (by simp [hc, later k r after below hk]) after
  | none =>
    by_cases included : x.kind = .included
    · rw [rankParent_of_included at_k ranked included] at up
      exact le_lastBelow up (by simp [hc]) after
    · rw [rankParent_of_other at_k ranked included] at up
      cases up

end Rule

theorem mem_placedBefore {cfg : Config} {es : List Entry} {m j i : Nat} :
    i ∈ placedBefore cfg es m j ↔ i < m ∧ rankParent cfg es i = some j := by
  simp [placedBefore]

/-- The entry at position `j` with what nesting by rank puts under it from the first `m`
entries, each with what is put under that in turn, after the entries it had. -/
def treeBefore (cfg : Config) (es : List Entry) (m j : Nat) : Option Entry :=
  es[j]?.map fun e => e.withChildren (e.children ++
    (placedBefore cfg es m j).attach.filterMap fun ⟨i, _⟩ => treeBefore cfg es m i)
termination_by m - j
decreasing_by
  obtain ⟨below, placed⟩ := mem_placedBefore.1 ‹_›
  have after := rankParent_lt placed
  omega

theorem treeBefore_eq (cfg : Config) (es : List Entry) (m j : Nat) :
    treeBefore cfg es m j = es[j]?.map fun e =>
      e.withChildren (e.children ++ (placedBefore cfg es m j).filterMap (treeBefore cfg es m)) := by
  rw [treeBefore]
  simp

/-! ## What is placed under an entry -/

section Trees

variable {cfg : Config} {es : List Entry}

theorem placedBefore_succ (m j : Nat) :
    placedBefore cfg es (m + 1) j =
      placedBefore cfg es m j ++ if rankParent cfg es m = some j then [m] else [] := by
  unfold placedBefore
  rw [List.range_succ, List.filter_append]
  split <;> simp_all

/-- Positions from `m'` on add nothing under `j` when none of them goes under it. -/
theorem placedBefore_eq_of_none {m' m j : Nat} (le : m' ≤ m)
    (none_ : ∀ k, m' ≤ k → k < m → rankParent cfg es k ≠ some j) :
    placedBefore cfg es m j = placedBefore cfg es m' j := by
  obtain ⟨d, rfl⟩ := Nat.exists_eq_add_of_le le
  have later : ((List.range d).map (m' + ·)).filter (fun i => rankParent cfg es i = some j) = [] :=
    List.filter_eq_nil_iff.2 fun k mem => by
      obtain ⟨k, below, rfl⟩ := List.mem_map.1 mem
      simpa using none_ (m' + k) (by omega) (by simp at below; omega)
  unfold placedBefore
  rw [List.range_add, List.filter_append, later, List.append_nil]

/-- Nothing before a position goes under it. -/
theorem placedBefore_of_le {m j : Nat} (le : m ≤ j + 1) : placedBefore cfg es m j = [] := by
  refine List.eq_nil_iff_forall_not_mem.2 fun i mem => ?_
  obtain ⟨below, placed⟩ := mem_placedBefore.1 mem
  have := rankParent_lt placed
  omega

/-- Nothing goes under an entry that is no ranked section. -/
theorem placedBefore_of_unranked {m j : Nat} (unranked : rankAt cfg es j = none) :
    placedBefore cfg es m j = [] := by
  refine List.eq_nil_iff_forall_not_mem.2 fun i mem => ?_
  have := rankAt_of_rankParent (mem_placedBefore.1 mem).2
  simp [unranked] at this

/-- An entry with nothing placed under it is the entry as it stands. -/
theorem treeBefore_leaf {m j : Nat} (none_ : placedBefore cfg es m j = []) :
    treeBefore cfg es m j = es[j]? := by
  rw [treeBefore_eq, none_]
  cases es[j]? <;> simp

/-- The entry at `j` is the same from two bounds when, from `j` up to the smaller bound, every
entry has the same positions placed under it. By induction on the distance to that bound: the
positions placed under an entry come after it. -/
theorem treeBefore_congr {m m' j : Nat} (inside : j < m')
    (same : ∀ i, j ≤ i → i < m' → placedBefore cfg es m i = placedBefore cfg es m' i) :
    treeBefore cfg es m j = treeBefore cfg es m' j := by
  induction h : m' - j using Nat.strong_induction_on generalizing j with
  | _ n ih =>
    rw [treeBefore_eq, treeBefore_eq, same j (Nat.le_refl j) inside]
    congr 1
    funext e
    congr 2
    refine List.filterMap_congr fun i mem => ?_
    obtain ⟨below, placed⟩ := mem_placedBefore.1 mem
    have after := rankParent_lt placed
    exact ih (m' - i) (by omega) below (fun i' le lt => same i' (by omega) lt) rfl

/-- An entry that stays at the top level changes what is placed under no entry. -/
theorem treeBefore_succ_of_top {m j : Nat} (top : rankParent cfg es m = none) (below : j < m) :
    treeBefore cfg es (m + 1) j = treeBefore cfg es m j :=
  treeBefore_congr below fun i _ _ =>
    placedBefore_eq_of_none (Nat.le_succ m) fun k lo hi => by
      rw [show k = m by omega, top]
      simp

/-- An entry placed under `c` changes what is placed under no entry after `c`. -/
theorem treeBefore_succ_above {m c j : Nat} (up : rankParent cfg es m = some c) (above : c < j)
    (below : j ≤ m) : treeBefore cfg es (m + 1) j = treeBefore cfg es m j := by
  rcases Nat.lt_or_eq_of_le below with below | rfl
  · refine treeBefore_congr below fun i lo _ =>
      placedBefore_eq_of_none (Nat.le_succ m) fun k klo khi => ?_
    rw [show k = m by omega, up]
    intro same
    cases same
    omega
  · rw [treeBefore_leaf (placedBefore_of_le (by omega)),
      treeBefore_leaf (placedBefore_of_le (by omega))]

/-- An entry placed under `c` becomes the last entry under it. -/
theorem treeBefore_succ_under {m c : Nat} {x : Entry} (up : rankParent cfg es m = some c)
    (at_m : es[m]? = some x) :
    treeBefore cfg es (m + 1) c =
      (treeBefore cfg es m c).map fun E => E.withChildren (E.children ++ [x]) := by
  have before := rankParent_lt up
  have kids : (placedBefore cfg es m c).filterMap (treeBefore cfg es (m + 1)) =
      (placedBefore cfg es m c).filterMap (treeBefore cfg es m) :=
    List.filterMap_congr fun i mem => by
      obtain ⟨below, placed⟩ := mem_placedBefore.1 mem
      exact treeBefore_succ_above up (rankParent_lt placed) (Nat.le_of_lt below)
  have last : treeBefore cfg es (m + 1) m = some x := by
    rw [treeBefore_leaf (placedBefore_of_le (by omega)), at_m]
  rw [treeBefore_eq, treeBefore_eq, placedBefore_succ, if_pos up, List.filterMap_append, kids]
  cases es[c]? <;> simp [last]

/-- Closing an open section into the section it went under: everything placed under that
section up to the open one, then the open one with everything placed under it so far. No
entry after the open section goes under an entry before it. -/
theorem treeBefore_close {c m p : Nat} {E Ec : Entry} (h : OpenAt cfg es c m)
    (up : rankParent cfg es c = some p) (below : c < m) (hE : treeBefore cfg es c p = some E)
    (hEc : treeBefore cfg es m c = some Ec) :
    treeBefore cfg es m p = some (E.withChildren (E.children ++ [Ec])) := by
  have before := rankParent_lt up
  have placed : placedBefore cfg es m p = placedBefore cfg es c p ++ [c] := by
    rw [placedBefore_eq_of_none (show c + 1 ≤ m from below) fun k lo hi same => by
        have := le_of_openAt h (by omega) hi same
        omega,
      placedBefore_succ, if_pos up]
  have kids : (placedBefore cfg es c p).filterMap (treeBefore cfg es m) =
      (placedBefore cfg es c p).filterMap (treeBefore cfg es c) :=
    List.filterMap_congr fun i mem => by
      obtain ⟨iBelow, iUp⟩ := mem_placedBefore.1 mem
      have iAfter := rankParent_lt iUp
      refine treeBefore_congr iBelow fun i' lo hi =>
        placedBefore_eq_of_none (Nat.le_of_lt below) fun k klo khi same => ?_
      rcases Nat.lt_or_eq_of_le klo with after | rfl
      · have := le_of_openAt h after khi same
        omega
      · rw [up] at same
        cases same
        omega
  rw [treeBefore_eq] at hE ⊢
  rw [placed, List.filterMap_append, kids]
  cases at_p : es[p]? with
  | none => simp [at_p] at hE
  | some e =>
    simp only [at_p, Option.map_some, Option.some.injEq] at hE ⊢
    rw [← hE]
    simp [hEc]

/-- An entry ends up as the entry at its position, with more children. -/
theorem treeBefore_isSome {m j : Nat} (inside : j < es.length) :
    ∃ E, treeBefore cfg es m j = some E := by
  rw [treeBefore_eq, List.getElem?_eq_getElem inside]
  exact ⟨_, rfl⟩

/-- The entry last among the first `m + 1` has nothing under it yet. -/
theorem treeBefore_last {m : Nat} {x : Entry} (at_m : es[m]? = some x) :
    treeBefore cfg es (m + 1) m = some x := by
  rw [treeBefore_leaf (placedBefore_of_le (Nat.le_refl _)), at_m]

theorem rankAt_of_getElem? {m : Nat} {x : Entry} (at_m : es[m]? = some x) :
    rankAt cfg es m = cfg.sectionRank x := by
  simp [rankAt, at_m]

theorem lt_length_of_rankAt {j r : Nat} (ranked : rankAt cfg es j = some r) : j < es.length := by
  by_contra past
  simp [rankAt, List.getElem?_eq_none (Nat.le_of_not_lt past)] at ranked

end Trees

/-- The top level that nesting by rank makes of the first `m` entries: the entries it leaves at
the top level, in order, each with what it puts under them. -/
def nestedByRank (cfg : Config) (es : List Entry) (m : Nat) : List Entry :=
  ((List.range m).filter fun i => rankParent cfg es i = none).filterMap (treeBefore cfg es m)

/-- The entries after position `b`, up to `m`, that stay at the top level, as they stand. -/
def stayingAfter (cfg : Config) (es : List Entry) (b m : Nat) : List Entry :=
  ((List.range' (b + 1) (m - (b + 1))).filter fun i => rankParent cfg es i = none).filterMap
    (es[·]?)

/-! ## The top level -/

section TopLevel

variable {cfg : Config} {es : List Entry}

theorem range_eq_around {b m : Nat} (below : b < m) :
    List.range m = List.range b ++ b :: List.range' (b + 1) (m - (b + 1)) := by
  obtain ⟨d, rfl⟩ : ∃ d, m = b + (d + 1) := ⟨m - (b + 1), by omega⟩
  rw [show b + (d + 1) - (b + 1) = d by omega, List.range_eq_range', List.range_eq_range',
    ← List.range'_append, List.range'_succ]
  simp

/-- Before any ranked section, nothing is nested: the top level is the entries as they stand. -/
theorem nestedByRank_of_unranked {m : Nat} (le : m ≤ es.length)
    (none_ : ∀ k, k < m → rankAt cfg es k = none) : nestedByRank cfg es m = es.take m := by
  induction m with
  | zero => simp [nestedByRank]
  | succ m ih =>
    have at_m : es[m]? = some es[m] := List.getElem?_eq_getElem (by omega)
    have unranked : cfg.sectionRank es[m] = none := by
      simpa [rankAt, at_m] using none_ m (Nat.lt_succ_self m)
    have top : rankParent cfg es m = none := by
      by_cases included : es[m].kind = .included
      · rw [rankParent_of_included at_m unranked included, lastBelow_eq_none_iff]
        intro k below
        simp [none_ k (by omega)]
      · exact rankParent_of_other at_m unranked included
    have leaves : ∀ k, k < m + 1 → treeBefore cfg es (m + 1) k = es[k]? := fun k below =>
      treeBefore_leaf (placedBefore_of_unranked (none_ k below))
    rw [List.take_add_one, at_m, ← ih (by omega) fun k below => none_ k (by omega)]
    unfold nestedByRank
    rw [List.range_succ, List.filter_append, List.filterMap_append]
    congr 1
    · refine List.filterMap_congr fun k mem => ?_
      have below := List.mem_range.1 (List.mem_filter.1 mem).1
      rw [leaves k (by omega), treeBefore_leaf (placedBefore_of_unranked (none_ k (by omega)))]
    · simp [top, leaves m (Nat.lt_succ_self m), at_m]

/-- The top level around a ranked section `b` there that is still open: what comes before `b`
is closed and gets nothing more, and after `b` only entries that are no ranked sections stay
at the top level, with nothing under them. -/
theorem nestedByRank_around {b m : Nat} {Eb : Entry} (h : OpenAt cfg es b m)
    (top : rankParent cfg es b = none) (below : b < m) (hb : treeBefore cfg es m b = some Eb) :
    nestedByRank cfg es m = nestedByRank cfg es b ++ Eb :: stayingAfter cfg es b m := by
  obtain ⟨rb, hrb, later⟩ := h
  have before : ((List.range b).filter fun i => rankParent cfg es i = none).filterMap
      (treeBefore cfg es m) =
      ((List.range b).filter fun i => rankParent cfg es i = none).filterMap (treeBefore cfg es b) :=
    List.filterMap_congr fun j mem => by
      have jBelow := List.mem_range.1 (List.mem_filter.1 mem).1
      refine treeBefore_congr jBelow fun i lo hi =>
        placedBefore_eq_of_none (Nat.le_of_lt below) fun k klo khi same => ?_
      rcases Nat.lt_or_eq_of_le klo with after | rfl
      · have := le_of_openAt ⟨rb, hrb, later⟩ after khi same
        omega
      · rw [top] at same
        cases same
  have after :
      ((List.range' (b + 1) (m - (b + 1))).filter fun i => rankParent cfg es i = none).filterMap
      (treeBefore cfg es m) = stayingAfter cfg es b m :=
    List.filterMap_congr fun j mem => by
      obtain ⟨inRange, stays⟩ := List.mem_filter.1 mem
      have jAfter := (List.mem_range'_1.1 inRange).1
      have jBelow := (List.mem_range'_1.1 inRange).2
      -- a ranked section after `b` ranks higher, so it would go under `b` or later
      have unranked : rankAt cfg es j = none := by
        cases hj : rankAt cfg es j with
        | none => rfl
        | some r =>
          have none_ := of_decide_eq_true stays
          rw [rankParent_of_rankAt hj, lastBelow_eq_none_iff] at none_
          have := none_ b (by omega)
          simp [hrb, later j r (by omega) (by omega) hj] at this
      exact treeBefore_leaf (placedBefore_of_unranked unranked)
  unfold nestedByRank
  rw [range_eq_around below, List.filter_append, List.filterMap_append, before, List.filter_cons,
    if_pos (by simpa using top), List.filterMap_cons, hb, after]

/-- Right after its section, nothing has stayed at the top level yet. -/
theorem stayingAfter_self (b : Nat) : stayingAfter cfg es b (b + 1) = [] := by
  simp [stayingAfter]

/-- The next entry stays at the top level after `b` exactly when the rule puts it there. -/
theorem stayingAfter_succ {b m : Nat} {x : Entry} (after : b < m) (at_m : es[m]? = some x) :
    stayingAfter cfg es b (m + 1) =
      stayingAfter cfg es b m ++ if rankParent cfg es m = none then [x] else [] := by
  unfold stayingAfter
  rw [show m + 1 - (b + 1) = m - (b + 1) + 1 by omega, List.range'_concat, List.filter_append,
    List.filterMap_append, show b + 1 + 1 * (m - (b + 1)) = m by omega]
  split <;> simp_all

/-- Closing the open section into its slot on the top level. -/
theorem toList_setIfInBounds_around {top : Array Entry} {b m : Nat} {X Eb : Entry}
    (h : top.toList = nestedByRank cfg es b ++ X :: stayingAfter cfg es b m) :
    (top.setIfInBounds (nestedByRank cfg es b).length Eb).toList =
      nestedByRank cfg es b ++ Eb :: stayingAfter cfg es b m := by
  simp [h, List.set_append_right]

end TopLevel

/-! ## The open sections -/

section Stack

variable (cfg : Config) (es : List Entry)

/-- The open sections that the stack of the pass holds below the section at position `c`,
innermost first, down to the section at position `b` at the top level: each holds what is
placed under it before the section above it, with its rank. -/
inductive Chain : Nat → List OpenSection → Nat → Prop
  | root {c : Nat} : rankParent cfg es c = none → Chain c [] c
  | up {c p b : Nat} {E : Entry} {r : Nat} {rest : List OpenSection} :
      rankParent cfg es c = some p → treeBefore cfg es c p = some E →
      rankAt cfg es p = some r →
      Chain p rest b → Chain c ((E, r) :: rest) b

variable {cfg es}

/-- The section at the bottom of the stack is at the top level. -/
theorem Chain.top {c b : Nat} {rest : List OpenSection} (h : Chain cfg es c rest b) :
    rankParent cfg es b = none := by
  induction h with
  | root top => exact top
  | up _ _ _ _ ih => exact ih

/-- The section at the bottom of the stack comes first. -/
theorem Chain.le {c b : Nat} {rest : List OpenSection} (h : Chain cfg es c rest b) : b ≤ c := by
  induction h with
  | root _ => exact Nat.le_refl _
  | up up _ _ _ ih => exact Nat.le_trans ih (Nat.le_of_lt (rankParent_lt up))

/-- Every section on the stack is open while the innermost one is. -/
theorem Chain.openAt_root {c b m : Nat} {rest : List OpenSection} (h : Chain cfg es c rest b)
    (opened : OpenAt cfg es c m) : OpenAt cfg es b m := by
  induction h with
  | root _ => exact opened
  | up up _ _ _ ih => exact ih (opened.parent up)

/-- The stack's last entry holds the rank of the section at the top level. -/
theorem Chain.getLast_rank {c b r : Nat} {E : Entry} {rest : List OpenSection}
    (h : Chain cfg es c rest b) (ranked : rankAt cfg es c = some r) :
    ((E, r) :: rest).getLast?.map (·.2) = rankAt cfg es b := by
  induction h generalizing E r with
  | root _ => simp [ranked]
  | up _ _ hr _ ih =>
    rw [List.getLast?_cons_cons]
    exact ih hr

/-- The section at the bottom of the stack ranks no higher than any ranked section so far: none
before it ranks lower, and every later one ranks higher while it is open. -/
theorem Chain.root_le {c b m rb k r : Nat} {rest : List OpenSection} (h : Chain cfg es c rest b)
    (opened : OpenAt cfg es c m) (hb : rankAt cfg es b = some rb) (below : k < m)
    (hk : rankAt cfg es k = some r) : rb ≤ r := by
  obtain ⟨rb', hb', later⟩ := h.openAt_root opened
  rw [hb] at hb'
  cases hb'
  rcases Nat.lt_trichotomy k b with before | rfl | after
  · have top := h.top
    rw [rankParent_of_rankAt hb, lastBelow_eq_none_iff] at top
    have := top k before
    simp only [hk, Option.any_some, decide_eq_false_iff_not, Nat.not_lt] at this
    exact this
  · rw [hb] at hk
    cases hk
    exact Nat.le_refl _
  · exact Nat.le_of_lt (later k r after below hk)

/-- Closing every open section gives the section at the bottom with everything placed under it
so far. -/
theorem closeAll_chain {c b m : Nat} {rest : List OpenSection} (h : Chain cfg es c rest b) :
    ∀ {E : Entry} {r : Nat}, OpenAt cfg es c m → c < m → treeBefore cfg es m c = some E →
      closeAll ((E, r) :: rest) = treeBefore cfg es m b := by
  induction h with
  | root _ =>
    intro E r _ _ hE
    rw [hE, closeAll]
  | up up hE1 _ _ ih =>
    intro E r opened below hE
    rw [closeAll]
    exact ih (opened.parent up) (Nat.lt_trans (rankParent_lt up) below)
      (treeBefore_close opened up below hE1 hE)

/-- Closing the open sections of rank `r` or more leaves on top the nearest section before the
innermost one, or that one itself, of a rank below `r`: each section closed goes into the
section it went under. -/
theorem closeFrom_chain {c b m r : Nat} {rest : List OpenSection} (h : Chain cfg es c rest b) :
    ∀ {E : Entry} {rc rb : Nat}, OpenAt cfg es c m → c < m →
      treeBefore cfg es m c = some E →
      rankAt cfg es c = some rc → rankAt cfg es b = some rb → rb < r →
      ∃ a Ea ra restA, closeFrom r ((E, rc) :: rest) = (Ea, ra) :: restA ∧
        treeBefore cfg es m a = some Ea ∧ rankAt cfg es a = some ra ∧ Chain cfg es a restA b ∧
        lastBelow (fun j => (rankAt cfg es j).any (· < r)) (c + 1) = some a := by
  induction h with
  | @root c top =>
    intro E rc rb _ _ hE hrc hrb lower
    rw [hrb] at hrc
    cases hrc
    have kept : closeFrom r [(E, rc)] = [(E, rc)] := by
      rw [closeFrom]
      simp
    refine ⟨c, E, rc, [], kept, hE, hrb, .root top, ?_⟩
    rw [lastBelow, if_pos (by simp [hrb, lower])]
  | @up c p b E1 r1 rest' up hE1 hr1 chain ih =>
    intro E rc rb opened below hE hrc hrb lower
    by_cases closes : r ≤ rc
    · rw [closeFrom, if_pos closes]
      obtain ⟨a, Ea, ra, restA, closed, ha, hra, chainA, nearest⟩ :=
        ih (opened.parent up) (Nat.lt_trans (rankParent_lt up) below)
          (treeBefore_close opened up below hE1 hE) hr1 hrb lower
      refine ⟨a, Ea, ra, restA, closed, ha, hra, chainA, ?_⟩
      rw [lastBelow_skip (show p + 1 ≤ c + 1 by have := rankParent_lt up; omega)]
      · exact nearest
      · intro k lo hi
        rcases Nat.lt_or_eq_of_le (Nat.le_of_lt_succ hi) with before | rfl
        · rw [rankParent_of_rankAt hrc] at up
          have higher := (lastBelow_eq_some_iff.1 up).2.2 k (by omega) before
          cases hk : rankAt cfg es k with
          | none => rfl
          | some rk =>
            simp only [hk, Option.any_some, decide_eq_false_iff_not, Nat.not_lt] at higher ⊢
            omega
        · simp [hrc, closes]
    · rw [closeFrom, if_neg closes]
      refine ⟨c, E, rc, (E1, r1) :: rest', rfl, hE, hrc, .up up hE1 hr1 chain, ?_⟩
      rw [lastBelow, if_pos (by simp [hrc]; omega)]

end Stack

/-! ## One step of the pass -/

section Step

variable {cfg : Config} {st : RankNest} {e : Entry}

@[simp] theorem Config.sectionRank_withChildren (cs : List Entry) :
    cfg.sectionRank (e.withChildren cs) = cfg.sectionRank e := rfl

theorem RankNest.step_of_ranked {r : Nat} (ranked : cfg.sectionRank e = some r) :
    RankNest.step cfg st e =
      match st.stack.getLast? with
      | some (_, outer) =>
        if r ≤ outer then
          let top := match closeAll st.stack with
            | some root => st.top.setIfInBounds st.slot root
            | none => st.top
          { top := top.push e, slot := top.size, stack := [(e, r)] }
        else { st with stack := (e, r) :: closeFrom r st.stack }
      | none => { top := st.top.push e, slot := st.top.size, stack := [(e, r)] } := by
  have : (if e.isSection then cfg.rank e.name else none) = some r := ranked
  rw [RankNest.step]
  exact this ▸ rfl

theorem RankNest.step_of_included {s : Entry} {sr : Nat} {rest : List OpenSection}
    (unranked : cfg.sectionRank e = none) (included : e.kind = .included)
    (stack : st.stack = (s, sr) :: rest) :
    RankNest.step cfg st e =
      { st with stack := (s.withChildren (s.children ++ [e]), sr) :: rest } := by
  have : (if e.isSection then cfg.rank e.name else none) = none := unranked
  rw [RankNest.step, this, included, stack]

theorem RankNest.step_of_other (unranked : cfg.sectionRank e = none)
    (other : e.kind ≠ .included ∨ st.stack = []) :
    RankNest.step cfg st e = { st with top := st.top.push e } := by
  have : (if e.isSection then cfg.rank e.name else none) = none := unranked
  rw [RankNest.step, this]
  dsimp only
  rcases other with other | empty
  · split
    · contradiction
    · rfl
  · rw [empty]
    cases e.kind <;> rfl

end Step

/-! ## The pass follows the rule -/

section Run

variable (cfg : Config) (es : List Entry)

/-- The state of the pass after the first `m` entries, read against the rule. Before any ranked
section, the top level is the entries as they came and nothing is open. After one, the last
ranked section `c` is on top of the stack, on its chain down to the section `b` at the top
level; the top level holds the finished top level before `b`, then `b`'s slot, then the entries
that stayed at the top level since. -/
inductive Mirrors (m : Nat) : RankNest → Prop
  | unranked {st : RankNest} : lastBelow (fun j => (rankAt cfg es j).isSome) m = none →
      st.stack = [] → st.top.toList = es.take m → Mirrors m st
  | ranked {st : RankNest} {c b r : Nat} {E X : Entry} {rest : List OpenSection} :
      lastBelow (fun j => (rankAt cfg es j).isSome) m = some c → st.stack = (E, r) :: rest →
      treeBefore cfg es m c = some E → rankAt cfg es c = some r → Chain cfg es c rest b →
      st.slot = (nestedByRank cfg es b).length →
      st.top.toList = nestedByRank cfg es b ++ X :: stayingAfter cfg es b m → Mirrors m st

variable {cfg es}

theorem Mirrors.start : Mirrors cfg es 0 ⟨#[], 0, []⟩ :=
  .unranked rfl rfl rfl

/-- Closing what is open gives the top level of the rule. -/
theorem Mirrors.finish {m : Nat} {st : RankNest} (le : m ≤ es.length) (h : Mirrors cfg es m st) :
    st.finish = nestedByRank cfg es m := by
  cases h with
  | unranked none_ stack top =>
    rw [RankNest.finish, stack, closeAll, top, nestedByRank_of_unranked le]
    intro k below
    have := (lastBelow_eq_none_iff.1 none_) k below
    simpa using this
  | @ranked c b _ E X _ last stack hE hc chain slot top =>
    have opened := openAt_of_last last
    have below := lastBelow_lt last
    obtain ⟨rb, hrb, -⟩ := chain.openAt_root opened
    obtain ⟨Eb, hEb⟩ := treeBefore_isSome (m := m) (lt_length_of_rankAt hrb)
    rw [RankNest.finish, stack, closeAll_chain chain opened below hE, hEb]
    dsimp only
    rw [slot, toList_setIfInBounds_around top,
      nestedByRank_around (chain.openAt_root opened) chain.top (by have := chain.le; omega) hEb]

/-- Nothing is open only before the first ranked section. -/
theorem Mirrors.none_of_empty {m : Nat} {st : RankNest} (h : Mirrors cfg es m st)
    (empty : st.stack = []) : lastBelow (fun j => (rankAt cfg es j).isSome) m = none := by
  cases h with
  | unranked none_ _ _ => exact none_
  | ranked _ stack => simp [stack] at empty

/-- An entry that stays at the top level is pushed after what is there. -/
theorem Mirrors.push_top {m : Nat} {st : RankNest} {x : Entry} (h : Mirrors cfg es m st)
    (at_m : es[m]? = some x) (unranked : rankAt cfg es m = none)
    (top : rankParent cfg es m = none) :
    Mirrors cfg es (m + 1) { st with top := st.top.push x } := by
  have last : lastBelow (fun j => (rankAt cfg es j).isSome) (m + 1) =
      lastBelow (fun j => (rankAt cfg es j).isSome) m := by
    rw [lastBelow, if_neg (by simp [unranked])]
  cases h with
  | unranked none_ stack htop =>
    refine .unranked (by rw [last, none_]) stack ?_
    simp [htop, List.take_add_one, at_m]
  | @ranked c b r E X rest lastC stack hE hc chain slot htop =>
    have below := lastBelow_lt lastC
    refine .ranked (X := X) (by rw [last, lastC]) stack
      (by rw [treeBefore_succ_of_top top below, hE]) hc chain slot ?_
    rw [Array.toList_push, htop, stayingAfter_succ (by have := chain.le; omega) at_m, if_pos top]
    simp

/-- An included file goes under the last ranked section, on top of the stack. -/
theorem Mirrors.include {m sr : Nat} {st : RankNest} {x s : Entry} {rest : List OpenSection}
    (h : Mirrors cfg es m st) (at_m : es[m]? = some x) (unranked : cfg.sectionRank x = none)
    (included : x.kind = .included) (stack : st.stack = (s, sr) :: rest) :
    Mirrors cfg es (m + 1)
      { st with stack := (s.withChildren (s.children ++ [x]), sr) :: rest } := by
  cases h with
  | unranked _ empty _ => simp [stack] at empty
  | @ranked c b r E X rest' lastC stack' hE hc chain slot htop =>
    rw [stack'] at stack
    simp only [List.cons.injEq, Prod.mk.injEq] at stack
    obtain ⟨⟨rfl, rfl⟩, rfl⟩ := stack
    have up : rankParent cfg es m = some c := by
      rw [rankParent_of_included at_m unranked included, lastC]
    have unrankedAt : rankAt cfg es m = none := by rw [rankAt_of_getElem? at_m, unranked]
    have below := lastBelow_lt lastC
    refine .ranked (X := X) (by rw [lastBelow, if_neg (by simp [unrankedAt]), lastC]) rfl
      (by rw [treeBefore_succ_under up at_m, hE]; rfl) hc chain slot ?_
    rw [htop, stayingAfter_succ (by have := chain.le; omega) at_m, if_neg (by simp [up])]
    simp

/-- A ranked section that goes to the top level starts a new slot there. -/
theorem Mirrors.open_top {m r : Nat} {x : Entry} {top : Array Entry} (at_m : es[m]? = some x)
    (hr : rankAt cfg es m = some r) (topLevel : rankParent cfg es m = none)
    (htop : top.toList = nestedByRank cfg es m) :
    Mirrors cfg es (m + 1) ⟨top.push x, top.size, [(x, r)]⟩ :=
  .ranked (X := x) (by rw [lastBelow, if_pos (by simp [hr])]) rfl (treeBefore_last at_m) hr
    (.root topLevel) (by rw [← htop, Array.length_toList]) (by simp [htop, stayingAfter_self])

/-- A ranked section of the outermost open rank or above goes to the top level: every ranked
section so far ranks at least as the outermost open one. -/
theorem Mirrors.topLevel_of_closes {m r outer : Nat} {st : RankNest} {Eo : Entry}
    (h : Mirrors cfg es m st) (hr : rankAt cfg es m = some r)
    (last : st.stack.getLast? = some (Eo, outer)) (closes : r ≤ outer) :
    rankParent cfg es m = none := by
  cases h with
  | unranked _ empty _ => simp [empty] at last
  | @ranked c b rc E X rest lastC stack hE hc chain slot htop =>
    have hb := chain.getLast_rank (E := E) hc
    rw [← stack, last] at hb
    simp only [Option.map_some] at hb
    rw [rankParent_of_rankAt hr, lastBelow_eq_none_iff]
    intro k below
    cases hk : rankAt cfg es k with
    | none => rfl
    | some rk =>
      have := chain.root_le (openAt_of_last lastC) hb.symm below hk
      simp only [Option.any_some, decide_eq_false_iff_not, Nat.not_lt]
      omega

/-- A ranked section below the outermost open rank goes under the nearest open section of a
smaller rank, closing those of its rank or above. -/
theorem Mirrors.nest {m r outer : Nat} {st : RankNest} {x Eo : Entry} (h : Mirrors cfg es m st)
    (at_m : es[m]? = some x) (hr : rankAt cfg es m = some r)
    (last : st.stack.getLast? = some (Eo, outer)) (deeper : outer < r) :
    Mirrors cfg es (m + 1) { st with stack := (x, r) :: closeFrom r st.stack } := by
  cases h with
  | unranked _ empty _ => simp [empty] at last
  | @ranked c b rc E X rest lastC stack hE hc chain slot htop =>
    have hb := chain.getLast_rank (E := E) hc
    rw [← stack, last] at hb
    simp only [Option.map_some] at hb
    have below := lastBelow_lt lastC
    obtain ⟨a, Ea, ra, restA, closed, ha, hra, chainA, nearest⟩ :=
      closeFrom_chain chain (openAt_of_last lastC) below hE hc hb.symm deeper
    have up : rankParent cfg es m = some a := by
      rw [rankParent_of_rankAt hr, lastBelow_skip (show c + 1 ≤ m by omega), nearest]
      intro k lo hi
      have unranked := (lastBelow_eq_some_iff.1 lastC).2.2 k (by omega) hi
      cases hk : rankAt cfg es k <;> simp_all
    have newStack : ({ st with stack := (x, r) :: closeFrom r st.stack } : RankNest).stack =
        (x, r) :: (Ea, ra) :: restA := by
      simp only [stack, closed]
    refine .ranked (X := X) (by rw [lastBelow, if_pos (by simp [hr])]) newStack
      (treeBefore_last at_m) hr (.up up ha hra chainA) slot ?_
    rw [htop, stayingAfter_succ (by have := chain.le; omega) at_m, if_neg (by simp [up])]
    simp

theorem RankNest.toList_closed (st : RankNest) :
    (match closeAll st.stack with
      | some root => st.top.setIfInBounds st.slot root
      | none => st.top).toList = st.finish := by
  unfold RankNest.finish
  cases closeAll st.stack <;> rfl

/-- Every step of the pass keeps its state in line with the rule. -/
theorem Mirrors.step {m : Nat} {st : RankNest} (inside : m < es.length)
    (h : Mirrors cfg es m st) : Mirrors cfg es (m + 1) (RankNest.step cfg st es[m]) := by
  have at_m : es[m]? = some es[m] := List.getElem?_eq_getElem inside
  cases ranked : cfg.sectionRank es[m] with
  | some r =>
    have hr : rankAt cfg es m = some r := by rw [rankAt_of_getElem? at_m, ranked]
    rw [RankNest.step_of_ranked ranked]
    cases last : st.stack.getLast? with
    | none =>
      have empty := List.getLast?_eq_none_iff.1 last
      have topLevel : rankParent cfg es m = none := by
        rw [rankParent_of_rankAt hr, lastBelow_eq_none_iff]
        intro k below
        have := lastBelow_eq_none_iff.1 (h.none_of_empty empty) k below
        cases hk : rankAt cfg es k <;> simp_all
      refine Mirrors.open_top at_m hr topLevel ?_
      rw [← h.finish (Nat.le_of_lt inside), RankNest.finish, empty, closeAll]
    | some o =>
      obtain ⟨Eo, outer⟩ := o
      dsimp only
      by_cases closes : r ≤ outer
      · rw [if_pos closes]
        exact Mirrors.open_top at_m hr (h.topLevel_of_closes hr last closes)
          (by rw [RankNest.toList_closed, h.finish (Nat.le_of_lt inside)])
      · rw [if_neg closes]
        exact h.nest at_m hr last (by omega)
  | none =>
    have unrankedAt : rankAt cfg es m = none := by rw [rankAt_of_getElem? at_m, ranked]
    by_cases included : es[m].kind = .included
    · cases stack : st.stack with
      | nil =>
        rw [RankNest.step_of_other ranked (.inr stack)]
        refine h.push_top at_m unrankedAt ?_
        rw [rankParent_of_included at_m ranked included, h.none_of_empty stack]
      | cons o rest =>
        rw [RankNest.step_of_included ranked included stack]
        exact h.include at_m ranked included stack
    · rw [RankNest.step_of_other ranked (.inl included)]
      exact h.push_top at_m unrankedAt (rankParent_of_other at_m ranked included)

/-- The entry the rule builds at a position keeps that entry's rank. -/
theorem sectionRank_of_treeBefore {m j : Nat} {E : Entry} (h : treeBefore cfg es m j = some E) :
    cfg.sectionRank E = rankAt cfg es j := by
  rw [treeBefore_eq] at h
  cases at_j : es[j]? with
  | none => simp [at_j] at h
  | some x =>
    simp only [at_j, Option.map_some, Option.some.injEq] at h
    rw [← h, Config.sectionRank_withChildren, rankAt_of_getElem? at_j]

/-- A section goes under a section of a smaller rank. -/
theorem rank_lt_of_rankParent {i j r : Nat} (up : rankParent cfg es i = some j)
    (ranked : rankAt cfg es i = some r) : ∃ r', rankAt cfg es j = some r' ∧ r' < r := by
  rw [rankParent_of_rankAt ranked] at up
  have smaller := (lastBelow_eq_some_iff.1 up).2.1
  cases hj : rankAt cfg es j with
  | none => simp [hj] at smaller
  | some r' => exact ⟨r', rfl, by simpa [hj] using smaller⟩

/-- The open sections on a chain hold their own ranks, which fall from the innermost outward. -/
theorem Chain.ranks {c b : Nat} {rest : List OpenSection} (h : Chain cfg es c rest b) :
    ∀ {E : Entry} {r : Nat}, cfg.sectionRank E = some r → rankAt cfg es c = some r →
      (∀ o ∈ (E, r) :: rest, cfg.sectionRank o.1 = some o.2) ∧
        (((E, r) :: rest).map (·.2)).Pairwise (· > ·) := by
  induction h with
  | root _ =>
    intro E r hE _
    simp [hE]
  | up up hE1 hr1 _ ih =>
    intro E r hE hr
    obtain ⟨r', hr', lower⟩ := rank_lt_of_rankParent up hr
    rw [hr1] at hr'
    cases hr'
    obtain ⟨own, falling⟩ := ih (by rw [sectionRank_of_treeBefore hE1, hr1]) hr1
    refine ⟨List.forall_mem_cons.2 ⟨hE, own⟩,
      List.pairwise_cons.2 ⟨fun o mem => ?_, falling⟩⟩
    rw [List.map_cons, List.mem_cons] at mem
    rcases mem with rfl | mem
    · exact lower
    · exact Nat.lt_trans ((List.pairwise_cons.1 falling).1 o mem) lower

/-- The stack of the pass holds sections with their own ranks, falling from the innermost
outward. -/
theorem Mirrors.stack_ranks {m : Nat} {st : RankNest} (h : Mirrors cfg es m st) :
    (∀ o ∈ st.stack, cfg.sectionRank o.1 = some o.2) ∧
      (st.stack.map (·.2)).Pairwise (· > ·) := by
  cases h with
  | unranked _ stack _ => simp [stack]
  | ranked _ stack hE hc chain =>
    rw [stack]
    exact chain.ranks (by rw [sectionRank_of_treeBefore hE, hc]) hc

/-- After any number of entries, the state of the pass is in line with the rule. -/
theorem mirrors_run {m : Nat} (le : m ≤ es.length) :
    Mirrors cfg es m ((es.take m).foldl (RankNest.step cfg) ⟨#[], 0, []⟩) := by
  induction m with
  | zero => simpa using Mirrors.start
  | succ m ih =>
    rw [List.take_add_one, List.getElem?_eq_getElem (by omega), Option.toList_some,
      List.foldl_append, List.foldl_cons, List.foldl_nil]
    exact (ih (by omega)).step (by omega)

/-- Nesting by rank gives the top level of the rule. -/
theorem nestSections_eq_nestedByRank (cfg : Config) (es : List Entry) :
    nestSections cfg es = nestedByRank cfg es es.length := by
  have run : Mirrors cfg es es.length _ := mirrors_run (Nat.le_refl es.length)
  have := run.finish (Nat.le_refl _)
  rwa [List.take_length] at this

end Run

/-- Nesting by rank follows the rule: the top level it gives is the one of `nestedByRank`, in
which a ranked section goes as the last entry so far under the nearest earlier ranked section
of a smaller rank, an included file under the last ranked section, and any other entry, or a
section with no such section before it, stays at the top level, all in their order. Hence a
section goes only under a section of a smaller rank, and the ranked sections under one section,
or at the top level, come in ranks that never increase. While the pass runs, the stack holds
sections with their configured ranks, falling from the innermost outward, so the outermost
open section ranks lowest and closing sections down to a rank above it stops before the stack
runs out. The pass is a function of its input: the forest given is left as it is. -/
theorem sections_nest_by_rank (cfg : Config) (es : List Entry) :
    nestSections cfg es = nestedByRank cfg es es.length ∧
    (∀ i j r, rankParent cfg es i = some j → rankAt cfg es i = some r →
      ∃ r', rankAt cfg es j = some r' ∧ r' < r) ∧
    (∀ i i' r r', i < i' → rankParent cfg es i = rankParent cfg es i' →
      rankAt cfg es i = some r → rankAt cfg es i' = some r' → r' ≤ r) ∧
    ∀ m ≤ es.length,
      let st := (es.take m).foldl (RankNest.step cfg) ⟨#[], 0, []⟩
      (∀ o ∈ st.stack, cfg.sectionRank o.1 = some o.2) ∧
        (st.stack.map (·.2)).Pairwise (· > ·) := by
  refine ⟨nestSections_eq_nestedByRank cfg es, fun i j r up ranked =>
    rank_lt_of_rankParent up ranked, ?_, fun m le => (mirrors_run le).stack_ranks⟩
  intro i i' r r' before siblings hi hi'
  by_contra higher
  obtain ⟨p, up, after⟩ : ∃ p, rankParent cfg es i' = some p ∧ i ≤ p := by
    rw [rankParent_of_rankAt hi']
    have smaller : (rankAt cfg es i).any (· < r') := by simp [hi]; omega
    cases h : lastBelow (fun j => (rankAt cfg es j).any (· < r')) i' with
    | none => simp [lastBelow_eq_none_iff.1 h i before] at smaller
    | some p => exact ⟨p, rfl, le_lastBelow h smaller before⟩
  rw [← siblings] at up
  have := rankParent_lt up
  omega

/-- Parts, sections and subsections ranked. -/
def partsAndSections : Config :=
  { sectionsAndFigures with ranks := [("part", 0), ("section", 1), ("subsection", 2)] }

/-- A subsection before any part, then a part holding two sections, the first with a
subsection and an included file, and a figure after. -/
def partThenSections : List Entry :=
  [⟨.section, "subsection", "Preface", 0, 0, 0, "main.tex", []⟩,
    ⟨.section, "part", "P", 10, 1, 1, "main.tex", []⟩,
    ⟨.section, "section", "A", 20, 2, 2, "main.tex", []⟩,
    ⟨.section, "subsection", "A.1", 30, 3, 3, "main.tex", []⟩,
    ⟨.included, "input", "a.tex", 40, 4, 4, "main.tex", []⟩,
    ⟨.section, "section", "B", 50, 5, 5, "main.tex", []⟩,
    ⟨.environment, "figure", "Figure: X", 60, 6, 6, "main.tex", []⟩]

/-- The second section closes the subsection and the first section and goes under the part,
and the stack holds the section and the part. -/
theorem partThenSections_nest_by_rank :
    rankParent partsAndSections partThenSections 5 = some 1 ∧
    (∃ r', rankAt partsAndSections partThenSections 1 = some r' ∧ r' < 1) ∧
    (RankNest.stack ((partThenSections.take 6).foldl (RankNest.step partsAndSections)
      ⟨#[], 0, []⟩)).map (·.2) = [1, 0] := by
  obtain ⟨-, under, -, -⟩ := sections_nest_by_rank partsAndSections partThenSections
  exact ⟨by decide, under 5 1 1 (by decide) (by decide), by decide +kernel⟩

end TexToc.Outline
