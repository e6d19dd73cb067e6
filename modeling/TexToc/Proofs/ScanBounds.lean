import TexToc.Markup.Parser

/-!
# Where the scanners stop

Every scanner of `TexToc.Markup.Scan` looks ahead from an index and answers with an index
further on. Read as facts about indices, each answer lies between where the scan started
and the end of the text, and strictly past the start when something was consumed. The
reader's own lookahead steps (`Reader.stopsAt`, `Reader.readVerb`,
`Reader.readVerbatimBody`) inherit these bounds.

These are the arithmetic facts behind the placement of nodes
(`TexToc.Proofs.Placement`): every node the reader builds covers a nonempty stretch of the
text and ends no later than the text does.
-/

namespace TexToc.Markup

open Text

namespace Scan

variable {cs : Array Char}

/-! ## Searching forward -/

theorem findFrom_le_size (p : Char → Bool) (i : Nat) : findFrom cs p i ≤ cs.size := by
  fun_induction findFrom cs p i with
  | case1 i inside found => omega
  | case2 i inside skipped ih => exact ih
  | case3 i outside => exact Nat.le_refl _

theorem le_findFrom (p : Char → Bool) {i : Nat} (inside : i ≤ cs.size) :
    i ≤ findFrom cs p i := by
  fun_induction findFrom cs p i with
  | case1 i inside found => exact Nat.le_refl _
  | case2 i inside skipped ih => have := ih (by omega); omega
  | case3 i outside => exact inside

theorem findFrom_of_size_le (p : Char → Bool) {i : Nat} (outside : cs.size ≤ i) :
    findFrom cs p i = cs.size := by
  rw [findFrom, dif_neg (by omega)]

/-- A search from a character that does not satisfy `p` moves past it. -/
theorem lt_findFrom (p : Char → Bool) {i : Nat} {c : Char} (at_i : cs[i]? = some c)
    (miss : p c = false) : i < findFrom cs p i := by
  obtain ⟨inside, char⟩ := Array.getElem?_eq_some_iff.mp at_i
  rw [findFrom, dif_pos inside, char, miss]
  exact le_findFrom p (by omega)

theorem le_skipSpaces {i : Nat} (inside : i ≤ cs.size) : i ≤ skipSpaces cs i :=
  le_findFrom _ inside

/-- An argument starts at or after the index the skip begins at. -/
theorem le_skipToArg {i : Nat} (inside : i ≤ cs.size) : i ≤ skipToArg cs i := by
  have first := le_skipSpaces inside
  unfold skipToArg
  dsimp only
  split
  · rename_i feed
    have more := le_skipSpaces (show skipSpaces cs i + 1 ≤ cs.size from
      (Array.getElem?_eq_some_iff.mp feed).1)
    omega
  · exact first

theorem lt_size_of_startsAt {i : Nat} {c : Char} {l : List Char}
    (found : startsAt cs i (c :: l) = true) : i < cs.size := by
  simp only [startsAt, Bool.and_eq_true, beq_iff_eq] at found
  exact (Array.getElem?_eq_some_iff.mp found.1).1

/-- A mark found at an index of the text lies inside the text. -/
theorem startsAt_le {i : Nat} {l : List Char} (inside : i ≤ cs.size)
    (found : startsAt cs i l = true) : i + l.length ≤ cs.size := by
  induction l generalizing i with
  | nil => simpa using inside
  | cons c rest ih =>
    simp only [startsAt, Bool.and_eq_true, beq_iff_eq] at found
    obtain ⟨here, later⟩ := found
    have before : i < cs.size := (Array.getElem?_eq_some_iff.mp here).1
    have := ih (by omega) later
    simp only [List.length_cons]
    omega

theorem findSeq_bounds {l : List Char} {i k : Nat} (found : findSeq cs l i = some k) :
    i ≤ k ∧ k < cs.size := by
  fun_induction findSeq cs l i with
  | case1 i inside here => cases found; exact ⟨Nat.le_refl _, inside⟩
  | case2 i inside _ ih => have := ih found; omega
  | case3 i outside => cases found

/-! ## Braces and names -/

theorem closeFrom_bounds {j depth k : Nat} (closed : closeFrom cs j depth = some k) :
    j ≤ k ∧ k < cs.size := by
  fun_induction closeFrom cs j depth with
  | case1 j depth inside _ ih => have := ih closed; omega
  | case2 j depth inside _ _ _ => cases closed; exact ⟨Nat.le_refl _, inside⟩
  | case3 j depth inside _ _ _ ih => have := ih closed; omega
  | case4 j depth inside _ _ ih => have := ih closed; omega
  | case5 j depth outside => cases closed

/-- The brace closing the one at `i` stands after it, inside the text. -/
theorem closingBrace_bounds {i k : Nat} (closed : closingBrace cs i = some k) :
    i < k ∧ k < cs.size := by
  unfold closingBrace at closed
  split at closed
  · have := closeFrom_bounds closed
    omega
  · cases closed

theorem bracedName_bounds {i after : Nat} {name : String}
    (found : bracedName cs i = some (name, after)) : i < after ∧ after ≤ cs.size := by
  unfold bracedName at found
  obtain ⟨close, closed, named⟩ := Option.map_eq_some_iff.mp found
  obtain ⟨-, rfl⟩ := Prod.mk.inj named
  have braces := closingBrace_bounds closed
  have brace : i ≤ skipSpaces cs i := by
    rcases Nat.lt_or_ge cs.size i with outside | inside
    · have past : skipSpaces cs i = cs.size := findFrom_of_size_le _ (Nat.le_of_lt outside)
      omega
    · exact le_skipSpaces inside
  omega

/-- An end marker at `i` ends after `i`, inside the text. -/
theorem endMarker_bounds {i after : Nat} {name : String}
    (found : endMarker cs i = some (name, after)) : i < after ∧ after ≤ cs.size := by
  unfold endMarker at found
  split at found
  · split at found
    · split at found
      · cases found
      · have := bracedName_bounds found
        omega
    · have := bracedName_bounds found
      omega
  · cases found

theorem nameEnd_bounds {i e : Nat} (found : nameEnd cs i = some e) : i < e ∧ e ≤ cs.size := by
  unfold nameEnd at found
  dsimp only at found
  split at found
  · cases found
    exact ⟨‹_›, findFrom_le_size _ i⟩
  · cases found

/-! ## Raw text -/

theorem verbatimEndAt_bounds {name : List Char} {k e : Nat}
    (found : verbatimEndAt cs name k = some e) : k < e ∧ e ≤ cs.size := by
  unfold verbatimEndAt at found
  split at found
  · rename_i marker
    dsimp only at found
    split at found
    · rename_i brace
      cases found
      have afterEnd := startsAt_le (Nat.le_of_lt (lt_size_of_startsAt marker)) marker
      have four : k + 4 ≤ cs.size := by simpa using afterEnd
      have braceAt := le_findFrom (fun c => !isBlank c) four
      have closing := startsAt_le (findFrom_le_size _ _) brace
      simp only [List.length_cons, List.length_append] at afterEnd closing
      omega
    · cases found
  · cases found

/-- The end marker of a raw-text environment is found at or after where the search starts,
and ends inside the text. -/
theorem verbatimEnd_bounds {name : List Char} {k s e : Nat}
    (found : verbatimEnd cs name k = some (s, e)) : k ≤ s ∧ s < e ∧ e ≤ cs.size := by
  fun_induction verbatimEnd cs name k with
  | case1 k inside e' marker =>
    cases found
    have := verbatimEndAt_bounds marker
    omega
  | case2 k inside _ ih =>
    have := ih found
    omega
  | case3 k outside => cases found

theorem slice_succ {i : Nat} (inside : i < cs.size) :
    slice cs i (i + 1) = String.singleton cs[i] := by
  simp [slice, Array.toList_extract, List.extract, List.take_one, List.head?_drop, inside]

end Scan

namespace Reader

open Scan

variable {r : Reader}

/-! ## The reader's lookahead -/

theorem closedOutside_bounds {stop : Stop} {envs : List String} {p next : Nat} {found : Bool}
    (stops : stopsAt.closedOutside r stop envs p = some (found, next)) :
    p ≤ next ∧ next ≤ r.chars.size ∨ next = p := by
  unfold stopsAt.closedOutside at stops
  split at stops
  · split at stops
    · cases stops
      have := endMarker_bounds ‹_›
      exact .inl ⟨by omega, by omega⟩
    · split at stops
      · cases stops
        exact .inr rfl
      · cases stops
  · cases stops

/-- A sequence that stops at `p` goes on from `p` or from after its stop, inside the text. -/
theorem stopsAt_bounds {stop : Stop} {envs : List String} {p next : Nat} {found : Bool}
    (inside : p ≤ r.chars.size) (stops : r.stopsAt stop envs p = some (found, next)) :
    p ≤ next ∧ next ≤ r.chars.size := by
  have outside : ∀ {stop : Stop}, stopsAt.closedOutside r stop envs p = some (found, next) →
      p ≤ next ∧ next ≤ r.chars.size := fun closed => by
    rcases closedOutside_bounds closed with bounded | rfl
    · exact bounded
    · exact ⟨Nat.le_refl _, inside⟩
  unfold stopsAt at stops
  split at stops
  · split at stops
    · cases stops
      have := startsAt_le inside ‹_›
      simp only [String.length_toList] at this
      omega
    · exact outside stops
  · exact outside stops

/-- Inline raw text read after `\verb` at `p` ends after the control word's start, inside
the text; it is a `verb` node, or a bare `\verb` command when no delimiter follows. -/
theorem readVerb_bounds {start p e : Nat} {node : Node} (read : r.readVerb start p = (node, e))
    (after : start < p) (inside : p ≤ r.chars.size) :
    start < e ∧ e ≤ r.chars.size ∧
      ((∃ delim content, node = .verb delim content ⟨start, e⟩) ∨
        node = .control "verb" [] ⟨start, e⟩) := by
  unfold readVerb at read
  dsimp only at read
  generalize starred : (if r.chars[p]? = some '*' then p + 1 else p) = q at read
  have q_inside : q ≤ r.chars.size ∧ start < q := by
    split at starred
    · have := (Array.getElem?_eq_some_iff.mp ‹_›).1
      omega
    · omega
  split at read
  · cases read
    exact ⟨q_inside.2, q_inside.1, .inr rfl⟩
  · rename_i delim at_q
    have q_lt : q < r.chars.size := (Array.getElem?_eq_some_iff.mp at_q).1
    split at read
    · cases read
      exact ⟨q_inside.2, q_inside.1, .inr rfl⟩
    · -- the raw text ends at the next delimiter, or at the end of its line
      have found : ∀ {c k}, findSeq r.chars [c] (q + 1) = some k → q < k ∧ k < r.chars.size :=
        fun {_ _} at_k => by have := findSeq_bounds at_k; omega
      have verb : ∀ k content, q < k → k ≤ r.chars.size →
          (node, e) = (.verb delim content ⟨start, k⟩, k) →
          start < e ∧ e ≤ r.chars.size ∧
            ((∃ delim content, node = .verb delim content ⟨start, e⟩) ∨
              node = .control "verb" [] ⟨start, e⟩) := fun k _ after below made => by
        cases made
        exact ⟨by omega, below, .inl ⟨_, _, rfl⟩⟩
      rcases closing : findSeq r.chars [delim] (q + 1) with _ | k <;>
        rcases lineEnd : findSeq r.chars ['\n'] (q + 1) with _ | l <;>
        simp only [closing, lineEnd, Option.getD] at read
      · -- neither mark follows: the raw text runs to the end of the text
        exact verb _ _ q_lt (Nat.le_refl _) read.symm
      · have atLine := found lineEnd
        exact verb l _ atLine.1 (Nat.le_of_lt atLine.2) read.symm
      · have atClose := found closing
        exact verb (k + 1) _ (by omega) (by omega) read.symm
      · have atClose := found closing
        have atLine := found lineEnd
        by_cases first : l < k
        · simp only [first, if_true] at read
          exact verb l _ atLine.1 (Nat.le_of_lt atLine.2) read.symm
        · simp only [first, if_false] at read
          exact verb (k + 1) _ (by omega) (by omega) read.symm

/-- The raw body of a raw-text environment ends at or after where it starts, inside the
text. -/
theorem readVerbatimBody_bounds {name : String} {p e : Nat} {body : String}
    (read : r.readVerbatimBody name p = (body, e)) (inside : p ≤ r.chars.size) :
    p ≤ e ∧ e ≤ r.chars.size := by
  unfold readVerbatimBody at read
  split at read
  · cases read
    have := verbatimEnd_bounds ‹_›
    omega
  · cases read
    exact ⟨inside, Nat.le_refl _⟩

end Reader

end TexToc.Markup
