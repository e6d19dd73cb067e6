import TexToc.Proofs.Placement

/-!
# The reader moves on, and refuses only deep texts

A sequence is read one node at a time, and the loop that reads it ends the sequence where it
stands if a node consumes nothing. That guard is never taken: a node read inside the text
covers at least one character (`readItem_advances`), so the loop is the plain loop over the
nodes of the sequence (`readSeq_unguarded`).

Nested constructs spend a depth budget, and nothing else ends the walk early. The budget
they spend is bounded by the text left to read: every nested read starts after the index its
construct starts at, a control sequence consumes its backslash and a character of its name
before it reads anything nested, and no cursor is reset before where it started. So a budget
of four units for every character left, and four more, is never exhausted
(`readSeq_settles`), and a text of up to 244 characters is never refused (`parse_settles`).

`BudgetAt r d` collects, as `PlacedAt` does for placement, what each reading function
guarantees at budget `d`: a refusal comes only from a budget short of four units for every
character left and a few more, the few depending on how far the function stands from a node
of a sequence. It holds at budget `0` and `BudgetAt.succ` carries it one budget up, one lemma
per function.

The line index answers every offset with a line between `1` and the number of line starts,
so the start of that line is always one of the starts recorded (`lineOf_ofChars_bounds`).
-/

namespace TexToc.Text.LineIndex

/-- Recording line starts keeps the first start and never drops one. -/
theorem startsFrom_first (cs : Array Char) (i : Nat) (acc : Array Nat) :
    0 < acc.size →
      (startsFrom cs i acc)[0]? = acc[0]? ∧ acc.size ≤ (startsFrom cs i acc).size := by
  fun_induction startsFrom cs i acc with
  | case1 i acc inside ih =>
    intro nonempty
    obtain ⟨kept, longer⟩ := ih (by split <;> first | omega | simp)
    refine ⟨kept.trans ?_, Nat.le_trans ?_ longer⟩
    · split
      · rw [Array.getElem?_push_lt nonempty, Array.getElem?_eq_getElem nonempty]
      · rfl
    · split <;> simp
  | case2 i acc outside => exact fun _ => ⟨rfl, Nat.le_refl _⟩

/-- The search counts the first start whenever the offset is at or past it: at each halving
a range that holds index `0` keeps it, unless the offset is below the middle start, which the
first start is not. -/
theorem countUpTo_pos (starts : Array Nat) {o : Nat} (first : starts[0]?.getD 0 ≤ o)
    (lo hi : Nat) : 0 < lo ∨ (lo = 0 ∧ 0 < hi) → 0 < countUpTo starts o lo hi := by
  fun_induction countUpTo starts o lo hi with
  | case1 lo hi below mid lower ih =>
    intro range
    apply ih
    rcases range with positive | ⟨rfl, -⟩
    · exact .inl positive
    · -- the lower half is empty only when the middle is the first start
      refine .inr ⟨rfl, Nat.pos_of_ne_zero fun zero => ?_⟩
      rw [zero] at lower
      omega
  | case2 lo hi below mid upper ih => exact fun _ => ih (.inl (Nat.succ_pos _))
  | case3 lo hi done =>
    intro range
    omega

/-- The line of every offset is one whose start the index records: the index starts with
line start `0`, so every offset is on line `1` or later, and no search answers beyond the
starts it searches. -/
theorem lineOf_ofChars_bounds (cs : Array Char) (offset : Nat) :
    1 ≤ (ofChars cs).lineOf offset ∧ (ofChars cs).lineOf offset ≤ (ofChars cs).starts.size := by
  obtain ⟨first, longer⟩ := startsFrom_first cs 0 #[0] (by decide)
  have nonempty : 0 < (ofChars cs).starts.size := by
    simp only [ofChars, List.size_toArray, List.length_singleton] at longer ⊢
    omega
  have firstZero : (ofChars cs).starts[0]?.getD 0 ≤ offset := by
    simp only [ofChars, first]
    simp
  exact ⟨countUpTo_pos _ firstZero 0 _ (.inr ⟨rfl, nonempty⟩),
    (countUpTo_bounds _ offset (Nat.zero_le _)).2⟩

end TexToc.Text.LineIndex

namespace TexToc.Markup

open Scan

/-- A construct read around a nested sequence refuses only when the sequence does. -/
theorem around_error {α : Type} {x : Parse Outcome} {f : List Node → Cursor → α}
    {e : ParseError}
    (read : (match x with
      | .error e => .error e
      | .ok ((body, _), c') => .ok (f body c', c')) = (.error e : Parse α)) :
    x = .error e := by
  match x, read with
  | .error _, read => cases read; rfl
  | .ok _, read => cases read

namespace Reader

variable (r : Reader)

/-! ## What each reading function guarantees -/

/-- A sequence refuses only with less budget than four units for every character left and
four more. -/
def SeqBudget (d : Nat) : Prop :=
  ∀ {stop envs acc c e}, r.readSeq d stop envs acc c = .error e → c.pos ≤ r.chars.size →
    d < 4 * (r.chars.size - c.pos) + 4

/-- A node read inside the text refuses only with less budget than four units for every
character left and three more. -/
def ItemBudget (d : Nat) : Prop :=
  ∀ {stop envs c e}, r.readItem d stop envs c = .error e → c.pos < r.chars.size →
    d < 4 * (r.chars.size - c.pos) + 3

/-- A control sequence read inside the text refuses only with less budget than four units
for every character left and three more. -/
def ControlBudget (d : Nat) : Prop :=
  ∀ {envs c e}, r.readControl d envs c = .error e → c.pos < r.chars.size →
    d < 4 * (r.chars.size - c.pos) + 3

/-- An environment refuses only with less budget than four units for every character left
after its begin marker and seven more. -/
def EnvironmentBudget (d : Nat) : Prop :=
  ∀ {envs start name c e}, r.readEnvironment d envs start name c = .error e →
    c.pos ≤ r.chars.size → d < 4 * (r.chars.size - c.pos) + 7

/-- The slots of a signature refuse only with less budget than four units for every
character left and six more. -/
def ArgsBudget (d : Nat) : Prop :=
  ∀ {envs sig acc c e}, r.readArgs d envs sig acc c = .error e → c.pos ≤ r.chars.size →
    d < 4 * (r.chars.size - c.pos) + 6

/-- An optional marked argument refuses only with less budget than four units for every
character left and five more. -/
def DelimitedBudget (d : Nat) : Prop :=
  ∀ {envs openMark closeMark c e}, r.readDelimited d envs openMark closeMark c = .error e →
    c.pos ≤ r.chars.size → d < 4 * (r.chars.size - c.pos) + 5

/-- A braced argument refuses only with less budget than four units for every character left
and four more. -/
def BraceArgBudget (d : Nat) : Prop :=
  ∀ {envs required c e}, r.readBraceArg d envs required c = .error e →
    c.pos ≤ r.chars.size → d < 4 * (r.chars.size - c.pos) + 4

/-- What the reading functions guarantee about refusals at budget `d`. -/
structure BudgetAt (d : Nat) : Prop where
  seq : r.SeqBudget d
  control : r.ControlBudget d
  environment : r.EnvironmentBudget d
  args : r.ArgsBudget d
  delimited : r.DelimitedBudget d
  braceArg : r.BraceArgBudget d

/-- With no budget every bound holds, since each asks for more than nothing. -/
theorem budgetAt_zero : r.BudgetAt 0 where
  seq := fun _ _ => by omega
  control := fun _ _ => by omega
  environment := fun _ _ => by omega
  args := fun _ _ => by omega
  delimited := fun _ _ => by omega
  braceArg := fun _ _ => by omega

variable {r}

/-! ## One budget up -/

/-- A node refuses only through the nested sequence or control sequence it reads, each from
past its first character. -/
theorem readItem_budget {d : Nat} (h : r.BudgetAt d) : r.ItemBudget d := by
  intro stop envs c e read inside
  unfold readItem at read
  dsimp only at read
  split at read
  · cases read
  · rename_i ch at_p
    split at read
    · cases read
    · split at read
      · cases read
      · split at read
        · exact h.control read inside
        · split at read
          · -- mathematics between single or double dollar signs
            split at read
            · rename_i doubled
              have opener := startsAt_le (Nat.le_of_lt inside) doubled
              have two : "$$".toList.length = 2 := by decide
              rw [two] at opener
              have := h.seq (around_error read) opener
              dsimp only at this
              omega
            · have := h.seq (around_error read) inside
              dsimp only at this
              omega
          · split at read
            · -- a braced group
              have := h.seq (around_error read) inside
              dsimp only at this
              omega
            · split at read <;> cases read

/-- A sequence at budget `d + 1` spends nothing on its own loop: each node is read at budget
`d` and moves the cursor on. By induction on the text left. -/
theorem readSeq_budget_from {d : Nat} (item : r.ItemBudget d) {stop : Stop}
    {envs : List String} {acc : Array Node} {c : Cursor} {e : ParseError}
    (read : r.readSeq (d + 1) stop envs acc c = .error e) (inside : c.pos ≤ r.chars.size) :
    d + 1 < 4 * (r.chars.size - c.pos) + 4 := by
  rw [readSeq] at read
  split at read
  · rename_i unread
    split at read
    · cases read
    · split at read
      · rename_i itemRead
        have := item itemRead unread
        omega
      · rename_i node c1 itemRead
        obtain ⟨tiles, within⟩ := readItem_placed (placedAt r d) itemRead unread
        have moved := tiles.single_lt
        split at read
        · have := readSeq_budget_from item read within
          omega
        · -- every node covers a character, so the cursor moved
          exact absurd moved ‹_›
  · cases read
termination_by r.chars.size - c.pos

/-- A control sequence consumes its backslash and a character of its name before it reads an
environment, a mathematics span or its arguments. -/
theorem readControl_budget {d : Nat} (h : r.BudgetAt d) : r.ControlBudget (d + 1) := by
  intro envs c e read inside
  rw [readControl] at read
  dsimp only at read
  split at read
  · cases read
  · rename_i name next named
    have after : c.pos < next ∧ next ≤ r.chars.size := by
      split at named
      · cases named
        have := nameEnd_bounds ‹_›
        omega
      · obtain ⟨ch, at_next, pair⟩ := Option.map_eq_some_iff.mp named
        cases pair
        have := (Array.getElem?_eq_some_iff.mp at_next).1
        omega
    split at read
    · -- a begin marker with a braced name opens an environment past the name
      rename_i envName afterName begun
      split at begun
      · have marker := bracedName_bounds begun
        have := h.environment read marker.2
        dsimp only at this
        omega
      · cases begun
    · split at read
      · have := h.seq (around_error read) after.2
        dsimp only at this
        omega
      · split at read
        · have := h.seq (around_error read) after.2
          dsimp only at this
          omega
        · split at read
          · cases read
          · split at read
            · rename_i argsRead
              have := h.args argsRead after.2
              dsimp only at this
              omega
            · cases read

/-- An environment reads its arguments and then its body from where the arguments end. -/
theorem readEnvironment_budget {d : Nat} (h : r.BudgetAt d) :
    r.EnvironmentBudget (d + 1) := by
  intro envs start name c e read inside
  rw [readEnvironment] at read
  dsimp only at read
  split at read
  · cases read
  · split at read
    · rename_i argsRead
      have := h.args argsRead inside
      omega
    · rename_i args c1 argsRead
      obtain ⟨-, moved, within⟩ :=
        (placedAt r d).args argsRead inside (Nat.le_refl _) (by exact trivial)
      split at read
      · rename_i bodyRead
        have := h.seq bodyRead within
        omega
      · split at read <;> cases read

/-- One slot of a signature refuses only with less budget than four units for every
character left and five more. -/
theorem readSlot_budget {d : Nat} (h : r.BudgetAt d) {envs : List String} {spec : ArgSpec}
    {c : Cursor} {e : ParseError} (read : r.readSlot d envs spec c = .error e)
    (inside : c.pos ≤ r.chars.size) :
    d < 4 * (r.chars.size - c.pos) + 5 := by
  unfold readSlot at read
  cases spec with
  | star =>
    dsimp only at read
    split at read <;> cases read
  | bracket => exact h.delimited read inside
  | angle => exact h.delimited read inside
  | optGroup =>
    have := h.braceArg read inside
    omega
  | group =>
    have := h.braceArg read inside
    omega

/-- The slots of a signature are read one after another, each from where the last ended. -/
theorem readArgs_budget {d : Nat} (h : r.BudgetAt d) : r.ArgsBudget (d + 1) := by
  intro envs sig
  induction sig with
  | nil =>
    intro acc c e read inside
    rw [readArgs] at read
    cases read
  | cons spec rest ih =>
    intro acc c e read inside
    rw [readArgs] at read
    split at read
    · rename_i slotRead
      have := readSlot_budget h slotRead inside
      omega
    · rename_i arg c1 slotRead
      obtain ⟨-, moved, within⟩ := readSlot_placed (placedAt r d) slotRead inside
      have := ih read within
      omega

/-- An optional marked argument reads its content from past its opener, and a failed read
only puts the cursor back where it was. -/
theorem readDelimited_budget {d : Nat} (h : r.BudgetAt d) : r.DelimitedBudget (d + 1) := by
  intro envs openMark closeMark c e read inside
  rw [readDelimited] at read
  dsimp only at read
  split at read
  · cases read
  · rename_i opens
    split at read
    · cases read
    · split at read
      · rename_i bodyRead
        have opener := startsAt_le inside (by simpa using opens)
        have := h.seq bodyRead opener
        dsimp only at this
        omega
      · split at read <;> cases read

/-- A braced argument reads its content from past its brace, and a bare mandatory one reads
a control sequence from its backslash, after the skipped layout. -/
theorem readBraceArg_budget {d : Nat} (h : r.BudgetAt d) : r.BraceArgBudget (d + 1) := by
  intro envs required c e read inside
  have skipped := le_skipToArg inside
  rw [readBraceArg] at read
  split at read
  · cases read
  · rename_i ch at_p
    have within := (Array.getElem?_eq_some_iff.mp at_p).1
    split at read
    · have := h.seq (around_error read) within
      dsimp only at this
      omega
    · split at read
      · split at read
        · split at read
          · rename_i controlRead
            have := h.control controlRead within
            dsimp only at this
            omega
          · cases read
        · cases read
      · cases read

/-- The guarantees at budget `d` give those at budget `d + 1`. -/
theorem BudgetAt.succ {d : Nat} (h : r.BudgetAt d) : r.BudgetAt (d + 1) where
  seq := fun read inside => readSeq_budget_from (readItem_budget h) read inside
  control := readControl_budget h
  environment := readEnvironment_budget h
  args := readArgs_budget h
  delimited := readDelimited_budget h
  braceArg := readBraceArg_budget h

/-- Every reading function refuses only short budgets, at every budget. -/
theorem budgetAt (r : Reader) : ∀ d, r.BudgetAt d
  | 0 => r.budgetAt_zero
  | d + 1 => (budgetAt r d).succ

/-! ## The walk moves on and settles -/

/-- A node read inside the text covers at least one character. -/
theorem readItem_advances {d : Nat} {stop : Stop} {envs : List String} {c c' : Cursor}
    {node : Node} (read : r.readItem d stop envs c = .ok (node, c'))
    (inside : c.pos < r.chars.size) : c.pos < c'.pos :=
  (readItem_placed (placedAt r d) read inside).1.single_lt

/-- The loop over a sequence reads node after node until its stop, the end of the text, or a
refusal: the guard against a node that consumes nothing never ends it. -/
theorem readSeq_unguarded (d : Nat) (stop : Stop) (envs : List String) (acc : Array Node)
    (c : Cursor) :
    r.readSeq (d + 1) stop envs acc c =
      if c.pos < r.chars.size then
        match r.stopsAt stop envs c.pos with
        | some (found, next) => .ok ((acc.toList, found), { c with pos := next })
        | none =>
          match r.readItem d stop envs c with
          | .error e => .error e
          | .ok (node, c') => r.readSeq (d + 1) stop envs (acc.push node) c'
      else .ok ((acc.toList, stop = .eof), c) := by
  rw [readSeq]
  split
  · rename_i unread
    cases r.stopsAt stop envs c.pos with
    | some stops => rfl
    | none =>
      cases itemRead : r.readItem d stop envs c with
      | error e => rfl
      | ok read =>
        obtain ⟨node, c'⟩ := read
        dsimp only
        rw [if_pos (readItem_advances itemRead unread)]
  · rfl

/-- With four units of budget for every character left, and four more, a sequence is read
without refusal. -/
theorem readSeq_settles (r : Reader) {d : Nat} (stop : Stop) (envs : List String)
    (acc : Array Node) (c : Cursor) (inside : c.pos ≤ r.chars.size)
    (enough : 4 * (r.chars.size - c.pos) + 4 ≤ d) :
    ∃ out, r.readSeq d stop envs acc c = .ok out := by
  cases read : r.readSeq d stop envs acc c with
  | ok out => exact ⟨out, rfl⟩
  | error e =>
    have := (budgetAt r d).seq read inside
    omega

end Reader

/-- A text short enough for the depth budget, four units for each of its characters and four
more, is read without refusal. -/
theorem parse_settles {g : Grammar} {text : String}
    (short : 4 * text.length + 4 ≤ depthBudget) : ∃ nodes, parse g text = .ok nodes := by
  let r : Reader := ⟨text.toList.toArray, g, true⟩
  have size : r.chars.size = text.length := by simp [r, String.length_toList]
  obtain ⟨⟨⟨nodes, found⟩, c'⟩, read⟩ :=
    r.readSeq_settles (d := depthBudget) .eof [] #[] ⟨0, []⟩ (Nat.zero_le _)
      (by rw [size]; exact short)
  refine ⟨nodes, ?_⟩
  unfold parse parseWith
  dsimp only
  rw [read]

/-- The reader's walk never stalls and refuses only deep texts. Every node read inside the
text moves the cursor on, so each round of a sequence's loop ends it or advances; a budget of
four units for every character left, and four more, is never exhausted, so a text of up to
244 characters is read without refusal; and the line of every offset is a line whose start the
line index records. -/
theorem reading_terminates_in_bounds :
    (∀ (r : Reader) (d : Nat) (stop : Stop) (envs : List String) (c c' : Cursor) (node : Node),
        c.pos < r.chars.size → r.readItem d stop envs c = .ok (node, c') → c.pos < c'.pos) ∧
    (∀ (r : Reader) (d : Nat) (stop : Stop) (envs : List String) (acc : Array Node)
        (c : Cursor), c.pos ≤ r.chars.size → 4 * (r.chars.size - c.pos) + 4 ≤ d →
        ∃ out, r.readSeq d stop envs acc c = .ok out) ∧
    (∀ (g : Grammar) (text : String), 4 * text.length + 4 ≤ depthBudget →
        ∃ nodes, parse g text = .ok nodes) ∧
    (∀ (cs : Array Char) (offset : Nat), 1 ≤ (Text.LineIndex.ofChars cs).lineOf offset ∧
        (Text.LineIndex.ofChars cs).lineOf offset ≤ (Text.LineIndex.ofChars cs).starts.size) :=
  ⟨fun _ _ _ _ _ _ _ inside read => Reader.readItem_advances read inside,
    fun r _ stop envs acc c inside enough => r.readSeq_settles stop envs acc c inside enough,
    fun _ _ short => parse_settles short,
    Text.LineIndex.lineOf_ofChars_bounds⟩

end TexToc.Markup
