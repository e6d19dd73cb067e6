import TexToc.Proofs.Placement

/-!
# End markers of open environments close them

While an environment is open, every sequence read inside it stops in front of an end marker
`\end{x}` that names it, and leaves the marker to the environment. So no node of such a
sequence starts at that marker. This module states that for every tree the reader builds.

The end marker is the one `Scan.endMarker` recognises: `\end`, spaces and tabs, and a
braced name. An `\end` that is not read as a marker is a control sequence like any other,
and its braced argument is read after spaces, tabs and one line feed. So an `\end` control
whose argument names an open environment does occur: when a line feed stands before the
brace, and when the `\end` is the bare argument of another control sequence, which is read
without looking for stops. `ClearSeq` says what holds instead: no node standing in a
sequence starts at an end marker naming one of the environments open around it.

`ClearAt r d` collects what each reading function guarantees at budget `d`, and
`ClearAt.succ` carries it one budget up, one lemma per function, as in the placement proof.
`parse_consumes_end_markers` is the statement for a whole text.
-/

namespace TexToc.Markup

open Scan

mutual

/-- Inside the node `n`, read with the environments `E` open, every sequence is clear of the
end markers of its open environments. An environment opens its own name for its arguments
and its body. -/
def Node.ClearWithin (cs : Array Char) (E : List String) : Node → Prop
  | .control _ args _ => ClearArgs cs E args
  | .env name args body _ | .mathEnv name args body _ =>
    ClearArgs cs (name :: E) args ∧ ClearSeq cs (name :: E) true body
  | .inlineMath body _ | .displayMath body _ | .group body _ => ClearSeq cs E true body
  | .text _ _ | .blank _ | .parbreak _ | .comment _ _ | .verbatim _ _ _ | .verb _ _ _ => True

/-- Each node of the sequence is clear within; and when the nodes were read by a sequence,
which looks for its stops before each node (`checked`), none starts at an end marker naming
an environment of `E`. -/
def ClearSeq (cs : Array Char) (E : List String) (checked : Bool) : List Node → Prop
  | [] => True
  | n :: ns =>
    (checked = true → ∀ sp, n.span? = some sp → ∀ name after,
      endMarker cs sp.start = some (name, after) → name ∉ E) ∧
      n.ClearWithin cs E ∧ ClearSeq cs E checked ns

/-- The arguments are clear. The content of an argument without an opening mark is a bare
token, read without looking for stops. -/
def ClearArgs (cs : Array Char) (E : List String) : List Arg → Prop
  | [] => True
  | .mk o _ body :: rest => ClearSeq cs E (o != "") body ∧ ClearArgs cs E rest

end

variable {cs : Array Char} {E : List String}

/-! ## Sequences and arguments -/

theorem ClearSeq.append {checked : Bool} : ∀ {xs ys : List Node},
    ClearSeq cs E checked xs → ClearSeq cs E checked ys → ClearSeq cs E checked (xs ++ ys)
  | [], _, _, second => second
  | _ :: _, _, ⟨stands, within, rest⟩, second => ⟨stands, within, rest.append second⟩

theorem ClearSeq.push {acc : Array Node} {n : Node} (before : ClearSeq cs E true acc.toList)
    (last : ClearSeq cs E true [n]) : ClearSeq cs E true (acc.push n).toList := by
  rw [Array.toList_push]
  exact before.append last

/-- What holds of nodes read by a sequence holds of them however they were read. -/
theorem ClearSeq.unchecked {checked : Bool} : ∀ {ns : List Node},
    ClearSeq cs E true ns → ClearSeq cs E checked ns
  | [], _ => trivial
  | _ :: _, ⟨stands, within, rest⟩ => ⟨fun _ => stands rfl, within, rest.unchecked⟩

theorem ClearArgs.append : ∀ {xs ys : List Arg},
    ClearArgs cs E xs → ClearArgs cs E ys → ClearArgs cs E (xs ++ ys)
  | [], _, _, second => second
  | .mk _ _ _ :: _, _, ⟨first, rest⟩, second => ⟨first, rest.append second⟩

theorem ClearArgs.push {acc : Array Arg} {arg : Arg} (before : ClearArgs cs E acc.toList)
    (last : ClearArgs cs E [arg]) : ClearArgs cs E (acc.push arg).toList := by
  rw [Array.toList_push]
  exact before.append last

/-- An argument whose content was read by a sequence is clear when the sequence is. -/
theorem ClearArgs.of_seq {o c : String} {body : List Node} (clear : ClearSeq cs E true body) :
    ClearArgs cs E [.mk o c body] :=
  ⟨clear.unchecked, trivial⟩

/-- A bare token is clear when its inside is. -/
theorem ClearArgs.bare {n : Node} (within : n.ClearWithin cs E) :
    ClearArgs cs E [.mk "" "" [n]] :=
  ⟨⟨fun unchecked => absurd unchecked (by decide), within, trivial⟩, trivial⟩

/-! ## What each reading function guarantees -/

namespace Reader

variable (r : Reader)

/-- A sequence read at budget `d` with the environments `envs` open extends a clear
accumulator with clear nodes. -/
def SeqClears (d : Nat) : Prop :=
  ∀ {stop envs acc c nodes found c'}, r.readSeq d stop envs acc c = .ok ((nodes, found), c') →
    ClearSeq r.chars envs true acc.toList → ClearSeq r.chars envs true nodes

/-- A node read at budget `d` is clear within. -/
def ItemClears (d : Nat) : Prop :=
  ∀ {stop envs c node c'}, r.readItem d stop envs c = .ok (node, c') →
    node.ClearWithin r.chars envs

/-- A control sequence read at budget `d` is clear within. -/
def ControlClears (d : Nat) : Prop :=
  ∀ {envs c node c'}, r.readControl d envs c = .ok (node, c') → node.ClearWithin r.chars envs

/-- An environment read at budget `d` is clear within. -/
def EnvironmentClears (d : Nat) : Prop :=
  ∀ {envs start name c node c'}, r.readEnvironment d envs start name c = .ok (node, c') →
    node.ClearWithin r.chars envs

/-- The arguments of a signature read at budget `d` extend clear arguments. -/
def ArgsClear (d : Nat) : Prop :=
  ∀ {envs sig acc c args c'}, r.readArgs d envs sig acc c = .ok (args, c') →
    ClearArgs r.chars envs acc.toList → ClearArgs r.chars envs args

/-- An optional argument read at budget `d` is clear. -/
def DelimitedClear (d : Nat) : Prop :=
  ∀ {envs openMark closeMark c arg c'},
    r.readDelimited d envs openMark closeMark c = .ok (arg, c') → ClearArgs r.chars envs [arg]

/-- A braced argument read at budget `d` is clear. -/
def BraceArgClear (d : Nat) : Prop :=
  ∀ {envs required c arg c'}, r.readBraceArg d envs required c = .ok (arg, c') →
    ClearArgs r.chars envs [arg]

/-- What the reading functions guarantee about end markers at budget `d`. -/
structure ClearAt (d : Nat) : Prop where
  seq : r.SeqClears d
  control : r.ControlClears d
  environment : r.EnvironmentClears d
  args : r.ArgsClear d
  delimited : r.DelimitedClear d
  braceArg : r.BraceArgClear d

/-- With no budget left every reading function refuses. -/
theorem clearAt_zero : r.ClearAt 0 where
  seq := fun read => by rw [readSeq] at read; cases read
  control := fun read => by rw [readControl] at read; cases read
  environment := fun read => by rw [readEnvironment] at read; cases read
  args := fun read => by rw [readArgs] at read; cases read
  delimited := fun read => by rw [readDelimited] at read; cases read
  braceArg := fun read => by rw [readBraceArg] at read; cases read

variable {r}

/-- Where a sequence finds no stop, no end marker names an environment open around it. -/
theorem not_open_of_stopsAt {stop : Stop} {envs : List String} {p : Nat}
    (open_ : r.stopsAt stop envs p = none) {name : String} {after : Nat}
    (marker : endMarker r.chars p = some (name, after)) : name ∉ envs := by
  have outside : stopsAt.closedOutside r stop envs p = none := by
    unfold stopsAt at open_
    split at open_
    · split at open_
      · cases open_
      · exact open_
    · exact open_
  unfold stopsAt.closedOutside at outside
  rw [marker] at outside
  dsimp only at outside
  split at outside
  · cases outside
  · split at outside
    · cases outside
    · rename_i notContained
      simpa using notContained

/-- Inline raw text holds no sequence. -/
theorem readVerb_clear {E : List String} (start p : Nat) :
    (r.readVerb start p).1.ClearWithin r.chars E := by
  unfold readVerb
  dsimp only
  split
  · trivial
  · split
    · trivial
    · split <;> trivial

theorem readItem_clears {d : Nat} (h : r.ClearAt d) : r.ItemClears d := by
  intro stop envs c node c' read
  rw [readItem] at read
  dsimp only at read
  split at read
  · cases read
    trivial
  · split at read
    · cases read
      trivial
    · split at read
      · cases read
        split <;> trivial
      · split at read
        · exact h.control read
        · split at read
          · -- mathematics between dollar signs
            split at read
            · obtain ⟨body, found, bodyRead, rfl⟩ := around_ok read
              exact h.seq bodyRead trivial
            · obtain ⟨body, found, bodyRead, rfl⟩ := around_ok read
              exact h.seq bodyRead trivial
          · split at read
            · -- a braced group
              obtain ⟨body, found, bodyRead, rfl⟩ := around_ok read
              exact h.seq bodyRead trivial
            · split at read
              · cases read
                trivial
              · cases read
                trivial

/-- A sequence at budget `d + 1` reads each node where it found no stop, so no node starts at
an end marker of an open environment. By induction on the text left. -/
theorem readSeq_clears_from {d : Nat} (item : r.ItemClears d) {stop : Stop}
    {envs : List String} {acc : Array Node} {c : Cursor} {nodes : List Node} {found : Bool}
    {c' : Cursor} (read : r.readSeq (d + 1) stop envs acc c = .ok ((nodes, found), c'))
    (before : ClearSeq r.chars envs true acc.toList) : ClearSeq r.chars envs true nodes := by
  rw [readSeq] at read
  split at read
  · rename_i unread
    split at read
    · cases read
      exact before
    · rename_i open_
      split at read
      · cases read
      · rename_i node c₁ itemRead
        obtain ⟨⟨m, span, -, -⟩, -⟩ := readItem_placed (Reader.placedAt r d) itemRead unread
        have stands : ClearSeq r.chars envs true [node] := by
          refine ⟨fun _ sp spanned name after marker => ?_, item itemRead, trivial⟩
          rw [span] at spanned
          cases spanned
          exact not_open_of_stopsAt open_ marker
        split at read
        · exact readSeq_clears_from item read (before.push stands)
        · cases read
          exact before
  · cases read
    exact before
termination_by r.chars.size - c.pos

theorem readControl_clears {d : Nat} (h : r.ClearAt d) : r.ControlClears (d + 1) := by
  intro envs c node c' read
  rw [readControl] at read
  dsimp only at read
  split at read
  · cases read
    trivial
  · split at read
    · exact h.environment read
    · split at read
      · obtain ⟨body, found, bodyRead, rfl⟩ := around_ok read
        exact h.seq bodyRead trivial
      · split at read
        · obtain ⟨body, found, bodyRead, rfl⟩ := around_ok read
          exact h.seq bodyRead trivial
        · split at read
          · cases read
            exact readVerb_clear _ _
          · split at read
            · cases read
            · rename_i args c₂ argsRead
              cases read
              exact h.args argsRead trivial

theorem readEnvironment_clears {d : Nat} (h : r.ClearAt d) :
    r.EnvironmentClears (d + 1) := by
  intro envs start name c node c' read
  rw [readEnvironment] at read
  dsimp only at read
  split at read
  · cases read
    trivial
  · split at read
    · cases read
    · rename_i args c₁ argsRead
      split at read
      · cases read
      · rename_i body found c₂ bodyRead
        have inside : ClearArgs r.chars (name :: envs) args ∧
            ClearSeq r.chars (name :: envs) true body :=
          ⟨h.args argsRead trivial, h.seq bodyRead trivial⟩
        split at read
        · cases read
          exact inside
        · cases read
          exact inside

/-- A slot is clear: a star and an absent argument trivially, the others by the guarantee
for optional and braced arguments at the same budget. -/
theorem readSlot_clear {d : Nat} (h : r.ClearAt d) {envs : List String} {spec : ArgSpec}
    {c c' : Cursor} {arg : Arg} (read : r.readSlot d envs spec c = .ok (arg, c')) :
    ClearArgs r.chars envs [arg] := by
  unfold readSlot at read
  cases spec with
  | star =>
    dsimp only at read
    split at read
    · cases read
      exact ClearArgs.bare trivial
    · cases read
      exact ClearArgs.of_seq trivial
  | bracket => exact h.delimited read
  | angle => exact h.delimited read
  | optGroup => exact h.braceArg read
  | group => exact h.braceArg read

theorem readArgs_clear {d : Nat} (h : r.ClearAt d) : r.ArgsClear (d + 1) := by
  intro envs sig
  induction sig with
  | nil =>
    intro acc c args c' read before
    rw [readArgs] at read
    cases read
    exact before
  | cons spec rest ih =>
    intro acc c args c' read before
    rw [readArgs] at read
    split at read
    · cases read
    · rename_i arg c₁ slotRead
      exact ih read (before.push (readSlot_clear h slotRead))

theorem readDelimited_clear {d : Nat} (h : r.ClearAt d) : r.DelimitedClear (d + 1) := by
  intro envs openMark closeMark c arg c' read
  rw [readDelimited] at read
  dsimp only at read
  split at read
  · cases read
    exact ClearArgs.of_seq trivial
  · split at read
    · cases read
      exact ClearArgs.of_seq trivial
    · split at read
      · cases read
      · rename_i body closed c₃ scanRead
        split at read
        · cases read
          exact ClearArgs.of_seq (h.seq scanRead trivial)
        · cases read
          exact ClearArgs.of_seq trivial

/-- A braced argument is read by a sequence; a bare control sequence is read without looking
for stops, so only its inside is clear. -/
theorem readBraceArg_clear {d : Nat} (h : r.ClearAt d) : r.BraceArgClear (d + 1) := by
  intro envs required c arg c' read
  rw [readBraceArg] at read
  split at read
  · cases read
    exact ClearArgs.of_seq trivial
  · split at read
    · obtain ⟨body, found, bodyRead, rfl⟩ := around_ok read
      exact ClearArgs.of_seq (h.seq bodyRead trivial)
    · split at read
      · split at read
        · -- a bare control sequence
          split at read
          · cases read
          · rename_i node c₁ controlRead
            cases read
            exact ClearArgs.bare (h.control controlRead)
        · -- a bare character
          cases read
          exact ClearArgs.bare trivial
      · cases read
        exact ClearArgs.of_seq trivial

/-- The guarantees at budget `d` give those at budget `d + 1`. -/
theorem ClearAt.succ {d : Nat} (h : r.ClearAt d) : r.ClearAt (d + 1) where
  seq := fun read before => readSeq_clears_from (readItem_clears h) read before
  control := readControl_clears h
  environment := readEnvironment_clears h
  args := readArgs_clear h
  delimited := readDelimited_clear h
  braceArg := readBraceArg_clear h

/-- Every reading function keeps clear of the end markers of open environments, at every
budget. -/
theorem clearAt (r : Reader) : ∀ d, r.ClearAt d
  | 0 => r.clearAt_zero
  | d + 1 => (clearAt r d).succ

end Reader

/-- In a text read without refusal, no node standing in a sequence starts at an end marker
of an environment open around it: every such marker ends its environment. -/
theorem parse_consumes_end_markers {g : Grammar} {text : String} {nodes : List Node}
    (parsed : parse g text = .ok nodes) : ClearSeq text.toList.toArray [] true nodes := by
  let r : Reader := ⟨text.toList.toArray, g, true⟩
  obtain ⟨found, c', read⟩ := parseWith_ok parsed
  exact (Reader.clearAt r depthBudget).seq read trivial

set_option maxRecDepth 8000 in
/-- With a line feed before its brace an end is no marker: it stands in the body of the
environment it names, as a control sequence with that name for argument. -/
theorem parse_end_after_line_feed :
    parse Grammar.standard "\\begin{x}\\end\n{x}" = .ok [.env "x" []
        [.control "end" [.mk "\x7b" "\x7d" [.text "x" (some ⟨15, 16⟩)]] ⟨9, 17⟩]
        ⟨0, 17⟩] ∧
      ClearSeq "\\begin{x}\\end\n{x}".toList.toArray [] true [.env "x" []
        [.control "end" [.mk "\x7b" "\x7d" [.text "x" (some ⟨15, 16⟩)]] ⟨9, 17⟩]
        ⟨0, 17⟩] :=
  have parsed : parse Grammar.standard "\\begin{x}\\end\n{x}" = .ok [.env "x" []
      [.control "end" [.mk "\x7b" "\x7d" [.text "x" (some ⟨15, 16⟩)]] ⟨9, 17⟩]
      ⟨0, 17⟩] := by
    cbv
  ⟨parsed, parse_consumes_end_markers parsed⟩

end TexToc.Markup
