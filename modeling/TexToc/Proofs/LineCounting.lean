import TexToc.Proofs.Placement

/-!
# Points by halving agree with counting line feeds

The line index records where each line starts, `0` and then one past every line feed, and
finds the line of an offset by halving the table. Read without the table, the line of an
offset is one more than the number of line feeds before it, and its column is its distance
from the place just past the last of them.

The table of a text is the first start followed by the starts its line feeds open
(`ofChars_starts`). Cut at an offset, the starts opened by the line feeds before it are at
most the offset and the others lie beyond it (`breaksFrom_le`, `lt_of_mem_breaksFrom`), so
the search, which keeps the cut inside the range it halves, counts exactly the starts before
the cut (`countUpTo_eq_cut`). `point_eq_counting` is the statement for every text and every
offset, the end of the text and offsets beyond it included.
-/

namespace TexToc.Text

/-- One past each line feed among `cs`, whose indices start at `n`: the line starts that
the line feeds of `cs` open, in order. -/
def breaksFrom (cs : List Char) (n : Nat) : List Nat :=
  (cs.zipIdx n).filterMap fun p => if p.1 = '\n' then some (p.2 + 1) else none

@[simp] theorem breaksFrom_nil (n : Nat) : breaksFrom [] n = [] := rfl

theorem breaksFrom_cons (c : Char) (cs : List Char) (n : Nat) :
    breaksFrom (c :: cs) n = (if c = '\n' then [n + 1] else []) ++ breaksFrom cs (n + 1) := by
  unfold breaksFrom
  rw [List.zipIdx_cons]
  by_cases feed : c = '\n' <;> simp [feed]

theorem breaksFrom_append (as bs : List Char) (n : Nat) :
    breaksFrom (as ++ bs) n = breaksFrom as n ++ breaksFrom bs (n + as.length) := by
  simp only [breaksFrom, List.zipIdx_append, List.filterMap_append]

/-- Each line feed opens one line. -/
theorem length_breaksFrom (cs : List Char) (n : Nat) :
    (breaksFrom cs n).length = cs.count '\n' := by
  induction cs generalizing n with
  | nil => rfl
  | cons c cs ih =>
    rw [breaksFrom_cons, List.length_append, ih, List.count_cons]
    by_cases feed : c = '\n' <;> simp [feed, Nat.add_comm]

/-- The starts opened among characters indexed from `n` lie past `n` and at most one past
the last index. -/
theorem mem_breaksFrom_bounds {cs : List Char} {n x : Nat} (mem : x ∈ breaksFrom cs n) :
    n < x ∧ x ≤ n + cs.length := by
  obtain ⟨p, inside, found⟩ := List.mem_filterMap.1 mem
  obtain ⟨lower, upper, -⟩ := List.mem_zipIdx inside
  split at found
  · cases found
    omega
  · cases found

theorem breaksFrom_le {cs : List Char} {n x : Nat} (mem : x ∈ breaksFrom cs n) :
    x ≤ n + cs.length :=
  (mem_breaksFrom_bounds mem).2

theorem lt_of_mem_breaksFrom {cs : List Char} {n x : Nat} (mem : x ∈ breaksFrom cs n) :
    n < x :=
  (mem_breaksFrom_bounds mem).1

/-- A start `x` is opened among characters indexed from `n` exactly when the character just
before it is a line feed. -/
theorem mem_breaksFrom {cs : List Char} {n x : Nat} :
    x ∈ breaksFrom cs n ↔ ∃ i, cs[i]? = some '\n' ∧ x = n + i + 1 := by
  induction cs generalizing n with
  | nil => simp
  | cons c cs ih =>
    rw [breaksFrom_cons, List.mem_append, ih]
    constructor
    · rintro (here | ⟨i, feed, rfl⟩)
      · split at here
        · exact ⟨0, by simp_all, by simp_all⟩
        · simp at here
      · exact ⟨i + 1, by simpa using feed, by omega⟩
    · rintro ⟨_ | i, feed, rfl⟩
      · exact .inl (by simp_all)
      · exact .inr ⟨i, by simpa using feed, by omega⟩

/-- The offset just past the last line feed before `offset` is the last start those line
feeds open, or `0`. -/
theorem lineStartBefore_eq (cs : List Char) (offset : Nat) :
    lineStartBefore cs offset = (breaksFrom (cs.take offset) 0).getLastD 0 :=
  rfl

theorem linesBefore_eq (cs : List Char) (offset : Nat) :
    linesBefore cs offset = (breaksFrom (cs.take offset) 0).length :=
  (length_breaksFrom _ 0).symm

/-- The line starts of a text, cut at an offset: those opened before it, and the others. -/
theorem breaksFrom_cut (cs : List Char) (offset : Nat) :
    breaksFrom cs 0 = breaksFrom (cs.take offset) 0 ++ breaksFrom (cs.drop offset)
      (cs.take offset).length := by
  have whole := breaksFrom_append (cs.take offset) (cs.drop offset) 0
  rwa [List.take_append_drop, Nat.zero_add] at whole

/-- The starts that line feeds open come in increasing order. -/
theorem breaksFrom_sorted (cs : List Char) (n : Nat) : (breaksFrom cs n).Pairwise (· < ·) := by
  induction cs generalizing n with
  | nil => simp
  | cons c cs ih =>
    rw [breaksFrom_cons, List.pairwise_append]
    refine ⟨by split <;> simp, ih (n + 1), fun x here y later => ?_⟩
    split at here
    · rw [List.mem_singleton.1 here]
      exact lt_of_mem_breaksFrom later
    · simp at here

/-- The start of the line of an offset is `0` when no line feed stands before it, and
otherwise one past the last line feed before it. -/
theorem lineStartBefore_spec (cs : List Char) (offset : Nat) :
    (∀ i < offset, cs[i]? ≠ some '\n') ∧ lineStartBefore cs offset = 0 ∨
      ∃ i < offset, cs[i]? = some '\n' ∧ lineStartBefore cs offset = i + 1 ∧
        ∀ j, i < j → j < offset → cs[j]? ≠ some '\n' := by
  rw [lineStartBefore_eq]
  have opened : ∀ i < offset, cs[i]? = some '\n' → i + 1 ∈ breaksFrom (cs.take offset) 0 :=
    fun i early feed => mem_breaksFrom.2 ⟨i, by rw [List.getElem?_take_of_lt early, feed], by omega⟩
  rcases List.eq_nil_or_concat (breaksFrom (cs.take offset) 0) with none | ⟨pre, last, split⟩
  · refine .inl ⟨fun i early feed => ?_, by rw [none]; rfl⟩
    have := opened i early feed
    simp [none] at this
  · rw [List.concat_eq_append] at split
    have lastOpened : last ∈ breaksFrom (cs.take offset) 0 := by simp [split]
    obtain ⟨i, feed, rfl⟩ := mem_breaksFrom.1 lastOpened
    have early : i < offset := by
      have := (List.getElem?_eq_some_iff.1 feed).1
      simp at this
      omega
    rw [List.getElem?_take_of_lt early] at feed
    refine .inr ⟨i, early, feed, by simp [split], fun j after before later => ?_⟩
    have sorted := breaksFrom_sorted (cs.take offset) 0
    rw [split, List.pairwise_append] at sorted
    have reopened := opened j before later
    rw [split, List.mem_append, List.mem_singleton] at reopened
    rcases reopened with inPre | same
    · have := sorted.2.2 _ inPre _ (List.mem_singleton_self _)
      omega
    · omega

namespace LineIndex

/-- Recording line starts from index `i` adds the starts that the line feeds from there on
open. -/
theorem startsFrom_toList (cs : Array Char) (i : Nat) (acc : Array Nat) :
    (startsFrom cs i acc).toList = acc.toList ++ breaksFrom (cs.toList.drop i) i := by
  fun_induction startsFrom cs i acc with
  | case1 i acc inside ih =>
    rw [List.drop_eq_getElem_cons (by simpa using inside), breaksFrom_cons]
    by_cases feed : cs[i] = '\n' <;> simp_all
  | case2 i acc outside =>
    rw [List.drop_eq_nil_of_le (by simpa using Nat.le_of_not_lt outside)]
    simp

/-- The line starts of a text: `0`, then one past every line feed. -/
theorem ofChars_starts (cs : List Char) :
    (ofChars cs.toArray).starts.toList = 0 :: breaksFrom cs 0 := by
  simp [ofChars, startsFrom_toList]

/-- Where the starts are at most `o` before index `k` and beyond `o` from there to the end,
the search counts `k`: each halving keeps `k` inside the range it searches. -/
theorem countUpTo_eq_cut (starts : Array Nat) {o k : Nat}
    (before : ∀ j < k, starts[j]?.getD 0 ≤ o)
    (beyond : ∀ j, k ≤ j → j < starts.size → o < starts[j]?.getD 0) {lo hi : Nat}
    (range : lo ≤ k ∧ k ≤ hi) (inside : hi ≤ starts.size) :
    countUpTo starts o lo hi = k := by
  fun_induction countUpTo starts o lo hi with
  | case1 lo hi below mid lower ih =>
    have cut : k ≤ mid := Nat.le_of_not_lt fun past => by
      have := before mid past
      omega
    exact ih ⟨range.1, cut⟩ (by omega)
  | case2 lo hi below mid upper ih =>
    have cut : mid < k := Nat.lt_of_not_le fun early => by
      have := beyond mid early (by omega)
      omega
    exact ih ⟨cut, range.2⟩ inside
  | case3 lo hi done => omega

/-- On a table that is a list of starts at most `o` followed by starts beyond it, the
search counts the first part. -/
theorem countUpTo_eq_length {starts : Array Nat} {o : Nat} {pre post : List Nat}
    (cut : starts.toList = pre ++ post) (low : ∀ x ∈ pre, x ≤ o) (high : ∀ x ∈ post, o < x) :
    countUpTo starts o 0 starts.size = pre.length := by
  have size : starts.size = pre.length + post.length := by
    rw [← Array.length_toList, cut, List.length_append]
  refine countUpTo_eq_cut starts (fun j early => ?_) (fun j late below => ?_)
    ⟨Nat.zero_le _, by omega⟩ (Nat.le_refl _)
  · rw [← Array.getElem?_toList, cut, List.getElem?_append_left early]
    exact low _ (List.getElem_mem _) |> fun h => by simpa [List.getElem?_eq_getElem early] using h
  · rw [← Array.getElem?_toList, cut, List.getElem?_append_right late]
    have inPost : j - pre.length < post.length := by omega
    simpa [List.getElem?_eq_getElem inPost] using high _ (List.getElem_mem inPost)

end LineIndex

open LineIndex

/-- The entry at the last index of a table that starts with `a` is its last entry. -/
theorem getElem?_cons_length {α : Type} (a : α) (l : List α) :
    (a :: l)[l.length]? = some (l.getLastD a) := by
  rw [List.getLastD_eq_getLast?, ← List.getLast?_cons, List.getLast?_eq_getElem?,
    List.length_cons, Nat.add_sub_cancel]

/-- The line starts of a text cut at an offset: `0` and those opened before the offset, all
at most the offset, then the others, all beyond it. -/
theorem ofChars_starts_cut (cs : List Char) (offset : Nat) :
    (ofChars cs.toArray).starts.toList =
        (0 :: breaksFrom (cs.take offset) 0) ++
          breaksFrom (cs.drop offset) (cs.take offset).length ∧
      (∀ x ∈ 0 :: breaksFrom (cs.take offset) 0, x ≤ offset) ∧
      ∀ x ∈ breaksFrom (cs.drop offset) (cs.take offset).length, offset < x := by
  refine ⟨by rw [ofChars_starts, breaksFrom_cut cs offset, List.cons_append], ?_, ?_⟩
  · intro x mem
    rcases List.mem_cons.1 mem with rfl | opened
    · exact Nat.zero_le _
    · have := breaksFrom_le opened
      simp only [List.length_take] at this
      omega
  · intro x mem
    have past := lt_of_mem_breaksFrom mem
    have inside : offset < cs.length := Nat.lt_of_not_le fun outside => by
      rw [List.drop_eq_nil_of_le outside] at mem
      simp at mem
    rwa [List.length_take, Nat.min_eq_left inside.le] at past

/-- The line of an offset is one more than the number of line feeds before it. -/
theorem lineOf_ofChars (cs : List Char) (offset : Nat) :
    (ofChars cs.toArray).lineOf offset = 1 + linesBefore cs offset := by
  obtain ⟨cut, low, high⟩ := ofChars_starts_cut cs offset
  rw [lineOf, countUpTo_eq_length cut low high, List.length_cons, linesBefore_eq, Nat.add_comm]

/-- The start recorded for the line of an offset is the place just past the last line feed
before it. -/
theorem lineStart_ofChars (cs : List Char) (offset : Nat) :
    (ofChars cs.toArray).starts[(ofChars cs.toArray).lineOf offset - 1]?.getD 0 =
      lineStartBefore cs offset := by
  obtain ⟨cut, -, -⟩ := ofChars_starts_cut cs offset
  have index : (ofChars cs.toArray).lineOf offset - 1 = (breaksFrom (cs.take offset) 0).length := by
    rw [lineOf_ofChars, linesBefore_eq]
    omega
  rw [index, ← Array.getElem?_toList, cut,
    List.getElem?_append_left (by simp), getElem?_cons_length, lineStartBefore_eq]
  rfl

theorem lineStartBefore_le (cs : List Char) (offset : Nat) :
    lineStartBefore cs offset ≤ offset := by
  rw [lineStartBefore_eq]
  exact (ofChars_starts_cut cs offset).2.1 _ List.getLastD_mem_cons

/-- The line index answers every offset with the point that counting gives: the line is one
more than the number of line feeds before the offset, and the column is the distance from
the place just past the last of them, which is `0` when there is none; that place is never
beyond the offset. -/
theorem point_eq_counting (text : String) (offset : Nat) :
    (ofChars text.toList.toArray).point offset =
        ⟨offset, 1 + linesBefore text.toList offset, offset - lineStartBefore text.toList offset⟩ ∧
      lineStartBefore text.toList offset ≤ offset ∧
      ((∀ i < offset, text.toList[i]? ≠ some '\n') ∧ lineStartBefore text.toList offset = 0 ∨
        ∃ i < offset, text.toList[i]? = some '\n' ∧ lineStartBefore text.toList offset = i + 1 ∧
          ∀ j, i < j → j < offset → text.toList[j]? ≠ some '\n') := by
  refine ⟨?_, lineStartBefore_le _ offset, lineStartBefore_spec _ offset⟩
  simp only [point]
  rw [lineStart_ofChars, lineOf_ofChars]

end TexToc.Text
