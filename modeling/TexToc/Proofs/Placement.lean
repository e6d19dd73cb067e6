import Mathlib
import TexToc.Proofs.ScanBounds
import TexToc.Outline.Gather

/-!
# Nodes tile the text they were read from

The reader moves one index over the text and every node it builds records the range it
covers. This module states what those ranges are:

* the top-level nodes of a text tile it: the first starts at offset `0`, each ends where
  the next starts, and the last ends at the length of the text;
* every other sequence the reader builds (the body of an environment, a math span or a
  group, and the content of an argument) tiles a stretch inside the node that holds it;
* every node read from the text covers at least one character, and a text node holds
  exactly the characters it covers; only the star of a starred command is read from
  nowhere.

`Tiles cs a b ns` and `Node.Placed cs n` say this of a sequence and of a node, down to the
leaves. `PlacedAt r d` collects what each reading function guarantees at depth budget `d`;
it holds at budget `0`, where every function refuses, and `PlacedAt.succ` carries it one
budget up, one lemma per function (`readSeq_placed`, `readItem_placed`,
`readControl_placed`, ...). `parse_tiles` is the statement for a whole text, with the
consequence that no node's first line comes after its last.
-/

/-! ## Lines of an offset -/

namespace TexToc.Text.LineIndex

theorem countUpTo_step (starts : Array Nat) (o : Nat) {lo hi : Nat} (below : lo < hi) :
    countUpTo starts o lo hi =
      if o < starts[(lo + hi) / 2]?.getD 0 then countUpTo starts o lo ((lo + hi) / 2)
      else countUpTo starts o ((lo + hi) / 2 + 1) hi := by
  rw [countUpTo, dif_pos below]

/-- The search answers inside the range it searches. -/
theorem countUpTo_bounds (starts : Array Nat) (o : Nat) {lo hi : Nat} (ordered : lo ≤ hi) :
    lo ≤ countUpTo starts o lo hi ∧ countUpTo starts o lo hi ≤ hi := by
  fun_induction countUpTo starts o lo hi with
  | case1 lo hi below mid _ ih => have := ih (by omega); omega
  | case2 lo hi below mid _ ih => have := ih (by omega); omega
  | case3 lo hi _ => omega

/-- A later offset is counted on the same line or a later one, whatever the array of line
starts holds: at each halving the later offset goes to the same half or to the upper one. -/
theorem countUpTo_mono (starts : Array Nat) {o o' : Nat} (le : o ≤ o') (lo hi : Nat) :
    countUpTo starts o lo hi ≤ countUpTo starts o' lo hi := by
  fun_induction countUpTo starts o lo hi with
  | case1 lo hi below mid left ih =>
    have halved : mid = (lo + hi) / 2 := rfl
    rw [countUpTo_step starts o' below, ← halved]
    split
    · exact ih
    · -- only the later offset goes to the upper half
      have lower := (countUpTo_bounds starts o (show lo ≤ mid by omega)).2
      have upper := (countUpTo_bounds starts o' (show mid + 1 ≤ hi by omega)).1
      omega
  | case2 lo hi below mid right ih =>
    have halved : mid = (lo + hi) / 2 := rfl
    rw [countUpTo_step starts o' below, ← halved, if_neg (by omega)]
    exact ih
  | case3 lo hi done =>
    have stays : countUpTo starts o' lo hi = lo := by rw [countUpTo, dif_neg done]
    omega

theorem lineOf_mono (idx : LineIndex) {o o' : Nat} (le : o ≤ o') :
    idx.lineOf o ≤ idx.lineOf o' :=
  countUpTo_mono _ le _ _

end TexToc.Text.LineIndex

namespace TexToc.Markup

open Scan Text

mutual

/-- A node read from the text `cs`: it covers at least one character, the sequences inside
it tile stretches of its own range, and a text node holds the characters it covers. Text
placed nowhere is no node read from the text. -/
def Node.Placed (cs : Array Char) : Node → Prop
  | .text s (some sp) => sp.start < sp.stop ∧ s = slice cs sp.start sp.stop
  | .text _ none => False
  | .blank sp | .parbreak sp | .comment _ sp | .verbatim _ _ sp | .verb _ _ sp =>
    sp.start < sp.stop
  | .control _ args sp => sp.start < sp.stop ∧ ArgsWithin cs sp.start sp.stop args
  | .env _ args body sp | .mathEnv _ args body sp =>
    sp.start < sp.stop ∧ ArgsWithin cs sp.start sp.stop args ∧
      ∃ a b, sp.start ≤ a ∧ b ≤ sp.stop ∧ Tiles cs a b body
  | .inlineMath body sp | .displayMath body sp | .group body sp =>
    sp.start < sp.stop ∧ ∃ a b, sp.start ≤ a ∧ b ≤ sp.stop ∧ Tiles cs a b body

/-- `Tiles cs a b ns`: the nodes `ns` are placed one after another from `a` to `b`, each
ending where the next starts. -/
def Tiles (cs : Array Char) : Nat → Nat → List Node → Prop
  | a, b, [] => a = b
  | a, b, n :: ns => ∃ m, n.span? = some ⟨a, m⟩ ∧ n.Placed cs ∧ Tiles cs m b ns

/-- Every argument is a star, or its content tiles a stretch between `lo` and `hi`. -/
def ArgsWithin (cs : Array Char) (lo hi : Nat) : List Arg → Prop
  | [] => True
  | .mk o c body :: rest =>
    (Arg.mk o c body = Arg.star ∨ ∃ a b, lo ≤ a ∧ b ≤ hi ∧ Tiles cs a b body) ∧
      ArgsWithin cs lo hi rest

end

variable {cs : Array Char}

/-! ## Tilings -/

theorem Node.Placed.lt {n : Node} {sp : Span} (placed : n.Placed cs) (span : n.span? = some sp) :
    sp.start < sp.stop := by
  cases n <;> simp only [Node.span?, Option.some.injEq] at span <;> subst span <;>
    simp only [Node.Placed] at placed
  all_goals first | exact placed | exact placed.1

theorem Tiles.single {n : Node} {a b : Nat} (span : n.span? = some ⟨a, b⟩)
    (placed : n.Placed cs) : Tiles cs a b [n] :=
  ⟨b, span, placed, rfl⟩

theorem Tiles.le {a b : Nat} : ∀ {ns : List Node}, Tiles cs a b ns → a ≤ b
  | [], tiles => Nat.le_of_eq tiles
  | _ :: _, ⟨_, span, placed, rest⟩ => by
    have first := placed.lt span
    have later := Tiles.le rest
    simp only at first
    omega

/-- A single node read from the text covers at least one character. -/
theorem Tiles.single_lt {n : Node} {a b : Nat} (tiles : Tiles cs a b [n]) : a < b := by
  obtain ⟨m, span, placed, rfl⟩ := tiles
  simpa using placed.lt span

theorem Tiles.append {a m b : Nat} : ∀ {xs ys : List Node},
    Tiles cs a m xs → Tiles cs m b ys → Tiles cs a b (xs ++ ys)
  | [], _, first, second => by cases first; exact second
  | _ :: _, _, ⟨m', span, placed, rest⟩, second => ⟨m', span, placed, rest.append second⟩

theorem Tiles.push {a m b : Nat} {acc : Array Node} {n : Node}
    (before : Tiles cs a m acc.toList) (last : Tiles cs m b [n]) :
    Tiles cs a b (acc.push n).toList := by
  rw [Array.toList_push]
  exact before.append last

/-- A text node of the one character at `p` is placed at that character. -/
theorem Node.placed_singleton {p : Nat} {ch : Char} (at_p : cs[p]? = some ch) :
    (Node.text (String.singleton ch) (some ⟨p, p + 1⟩)).Placed cs := by
  obtain ⟨inside, char⟩ := Array.getElem?_eq_some_iff.mp at_p
  refine ⟨Nat.lt_succ_self _, ?_⟩
  rw [slice_succ inside, char]

/-! ## Arguments -/

theorem ArgsWithin.widen {lo hi lo' hi' : Nat} (lower : lo' ≤ lo) (upper : hi ≤ hi') :
    ∀ {args : List Arg}, ArgsWithin cs lo hi args → ArgsWithin cs lo' hi' args
  | [], _ => trivial
  | .mk _ _ _ :: _, ⟨first, rest⟩ => by
    refine ⟨?_, ArgsWithin.widen lower upper rest⟩
    rcases first with star | ⟨a, b, la, bh, tiles⟩
    · exact .inl star
    · exact .inr ⟨a, b, by omega, by omega, tiles⟩

theorem ArgsWithin.append {lo hi : Nat} : ∀ {xs ys : List Arg},
    ArgsWithin cs lo hi xs → ArgsWithin cs lo hi ys → ArgsWithin cs lo hi (xs ++ ys)
  | [], _, _, second => second
  | .mk _ _ _ :: _, _, ⟨first, rest⟩, second => ⟨first, rest.append second⟩

theorem ArgsWithin.push {lo hi : Nat} {acc : Array Arg} {arg : Arg}
    (before : ArgsWithin cs lo hi acc.toList) (last : ArgsWithin cs lo hi [arg]) :
    ArgsWithin cs lo hi (acc.push arg).toList := by
  rw [Array.toList_push]
  exact before.append last

theorem ArgsWithin.empty {lo hi : Nat} (ordered : lo ≤ hi) : ArgsWithin cs lo hi [Arg.empty] :=
  ⟨.inr ⟨lo, lo, Nat.le_refl _, ordered, rfl⟩, trivial⟩

theorem ArgsWithin.star {lo hi : Nat} : ArgsWithin cs lo hi [Arg.star] :=
  ⟨.inl rfl, trivial⟩

theorem ArgsWithin.content {lo hi a b : Nat} {o c : String} {body : List Node}
    (lower : lo ≤ a) (upper : b ≤ hi) (tiles : Tiles cs a b body) :
    ArgsWithin cs lo hi [.mk o c body] :=
  ⟨.inr ⟨a, b, lower, upper, tiles⟩, trivial⟩

/-! ## What each reading function guarantees -/

namespace Reader

variable (r : Reader)

/-- A sequence read at budget `d` extends a tiling of what came before it with its nodes,
up to where it ends: the end of the text, or its stop, after which the cursor stands. -/
def SeqPlaced (d : Nat) : Prop :=
  ∀ {stop envs acc c nodes found c' a}, r.readSeq d stop envs acc c = .ok ((nodes, found), c') →
    c.pos ≤ r.chars.size → Tiles r.chars a c.pos acc.toList →
    ∃ q, Tiles r.chars a q nodes ∧ q ≤ c'.pos ∧ c.pos ≤ c'.pos ∧
      c'.pos ≤ r.chars.size ∧
      (q = c'.pos ∧ r.chars.size ≤ q ∨ ∃ f, r.stopsAt stop envs q = some (f, c'.pos))

/-- The node read at an index inside the text covers the text up to the new cursor. -/
def ItemPlaced (d : Nat) : Prop :=
  ∀ {stop envs c node c'}, r.readItem d stop envs c = .ok (node, c') →
    c.pos < r.chars.size → Tiles r.chars c.pos c'.pos [node] ∧ c'.pos ≤ r.chars.size

/-- A control sequence read at a backslash covers the text up to the new cursor. -/
def ControlPlaced (d : Nat) : Prop :=
  ∀ {envs c node c'}, r.readControl d envs c = .ok (node, c') →
    r.chars[c.pos]? = some '\\' → Tiles r.chars c.pos c'.pos [node] ∧ c'.pos ≤ r.chars.size

/-- An environment covers the text from its begin marker up to the new cursor. -/
def EnvironmentPlaced (d : Nat) : Prop :=
  ∀ {envs start name c node c'}, r.readEnvironment d envs start name c = .ok (node, c') →
    start < c.pos → c.pos ≤ r.chars.size →
    Tiles r.chars start c'.pos [node] ∧ c'.pos ≤ r.chars.size

/-- The arguments of a signature lie between a bound `lo` before them and the new cursor. -/
def ArgsPlaced (d : Nat) : Prop :=
  ∀ {envs sig acc c args c' lo}, r.readArgs d envs sig acc c = .ok (args, c') →
    c.pos ≤ r.chars.size → lo ≤ c.pos → ArgsWithin r.chars lo c.pos acc.toList →
    ArgsWithin r.chars lo c'.pos args ∧ c.pos ≤ c'.pos ∧ c'.pos ≤ r.chars.size

/-- An optional marked argument lies between the cursor and the new cursor. -/
def DelimitedPlaced (d : Nat) : Prop :=
  ∀ {envs openMark closeMark c arg c'},
    r.readDelimited d envs openMark closeMark c = .ok (arg, c') →
    c.pos ≤ r.chars.size →
    ArgsWithin r.chars c.pos c'.pos [arg] ∧ c.pos ≤ c'.pos ∧ c'.pos ≤ r.chars.size

/-- A braced argument lies between the cursor and the new cursor. -/
def BraceArgPlaced (d : Nat) : Prop :=
  ∀ {envs required c arg c'}, r.readBraceArg d envs required c = .ok (arg, c') →
    c.pos ≤ r.chars.size →
    ArgsWithin r.chars c.pos c'.pos [arg] ∧ c.pos ≤ c'.pos ∧ c'.pos ≤ r.chars.size

/-- What the reading functions guarantee about placement at budget `d`. -/
structure PlacedAt (d : Nat) : Prop where
  seq : r.SeqPlaced d
  control : r.ControlPlaced d
  environment : r.EnvironmentPlaced d
  args : r.ArgsPlaced d
  delimited : r.DelimitedPlaced d
  braceArg : r.BraceArgPlaced d

/-- With no budget left every reading function refuses, so there is nothing to place. -/
theorem placedAt_zero : r.PlacedAt 0 where
  seq := fun read => by rw [readSeq] at read; cases read
  control := fun read => by rw [readControl] at read; cases read
  environment := fun read => by rw [readEnvironment] at read; cases read
  args := fun read => by rw [readArgs] at read; cases read
  delimited := fun read => by rw [readDelimited] at read; cases read
  braceArg := fun read => by rw [readBraceArg] at read; cases read

variable {r}

/-- A body read by a sequence from just past an opener at `p` fits a node from `p` to where
the sequence leaves the cursor. -/
theorem body_placed {d : Nat} (seq : r.SeqPlaced d) {stop : Stop} {envs : List String}
    {u : List Opener} {body : List Node} {found : Bool} {c' : Cursor} {q0 : Nat} (p : Nat)
    (read : r.readSeq d stop envs #[] ⟨q0, u⟩ = .ok ((body, found), c'))
    (opened : p < q0) (inside : q0 ≤ r.chars.size) :
    p < c'.pos ∧ c'.pos ≤ r.chars.size ∧
      ∃ a b, p ≤ a ∧ b ≤ c'.pos ∧ Tiles r.chars a b body := by
  obtain ⟨q, tiles, q_le, moved, within, -⟩ := seq read inside (rfl : Tiles r.chars q0 q0 [])
  exact ⟨by simp only at moved; omega, within, q0, q, by omega, q_le, tiles⟩

/-- Each node kind the reader builds at the cursor covers the text up to the new cursor. -/
theorem readItem_placed {d : Nat} (h : r.PlacedAt d) : r.ItemPlaced d := by
  intro stop envs c node c' read inside
  unfold readItem at read
  dsimp only at read
  split at read
  · rename_i nothing
    rw [Array.getElem?_eq_none_iff] at nothing
    omega
  · rename_i ch at_p
    split at read
    · -- a comment runs to the line feed
      cases read
      have ends := lt_findFrom (fun x => decide (x = '\n')) at_p (by simp [*])
      exact ⟨Tiles.single rfl ends, findFrom_le_size _ _⟩
    · split at read
      · -- blanks run to the first character that is no layout blank
        rename_i layout
        cases read
        have ends := lt_findFrom (fun x => !isLayout x) at_p (by simp [layout])
        refine ⟨?_, findFrom_le_size _ _⟩
        split
        · exact Tiles.single rfl ends
        · exact Tiles.single rfl ends
      · split at read
        · subst_vars
          exact h.control read at_p
        · split at read
          · -- mathematics between single or double dollar signs
            split at read
            · rename_i doubled
              have opener := startsAt_le (Nat.le_of_lt inside) doubled
              have two : "$$".toList.length = 2 := by decide
              rw [two] at opener
              obtain ⟨body, found, bodyRead, rfl⟩ := around_ok read
              obtain ⟨after, within, placed⟩ :=
                body_placed h.seq c.pos bodyRead (by omega) (by omega)
              exact ⟨Tiles.single rfl ⟨after, placed⟩, within⟩
            · obtain ⟨body, found, bodyRead, rfl⟩ := around_ok read
              obtain ⟨after, within, placed⟩ :=
                body_placed h.seq c.pos bodyRead (by omega) (by omega)
              exact ⟨Tiles.single rfl ⟨after, placed⟩, within⟩
          · split at read
            · -- a braced group
              obtain ⟨body, found, bodyRead, rfl⟩ := around_ok read
              obtain ⟨after, within, placed⟩ :=
                body_placed h.seq c.pos bodyRead (by omega) (by omega)
              exact ⟨Tiles.single rfl ⟨after, placed⟩, within⟩
            · split at read
              · -- an unbalanced closing brace is text of its own
                subst_vars
                cases read
                exact ⟨Tiles.single rfl (Node.placed_singleton at_p), inside⟩
              · -- a run of text up to the next character that ends text
                cases read
                have ends := le_findFrom stop.endsText (show c.pos + 1 ≤ r.chars.size from inside)
                exact ⟨Tiles.single rfl ⟨by dsimp only; omega, rfl⟩, findFrom_le_size _ _⟩

/-- A sequence at budget `d + 1` places one node after another, each read at budget `d`,
until the text ends or its stop stands at the cursor. By induction on the text left. -/
theorem readSeq_placed_from {d : Nat} (item : r.ItemPlaced d) {stop : Stop}
    {envs : List String} {acc : Array Node} {c : Cursor} {nodes : List Node} {found : Bool}
    {c' : Cursor} {a : Nat} (read : r.readSeq (d + 1) stop envs acc c = .ok ((nodes, found), c'))
    (inside : c.pos ≤ r.chars.size) (before : Tiles r.chars a c.pos acc.toList) :
    ∃ q, Tiles r.chars a q nodes ∧ q ≤ c'.pos ∧ c.pos ≤ c'.pos ∧
      c'.pos ≤ r.chars.size ∧
      (q = c'.pos ∧ r.chars.size ≤ q ∨ ∃ f, r.stopsAt stop envs q = some (f, c'.pos)) := by
  rw [readSeq] at read
  split at read
  · rename_i unread
    split at read
    · -- the stop stands at the cursor
      rename_i f next stops
      cases read
      have bounds := stopsAt_bounds inside stops
      exact ⟨c.pos, before, bounds.1, bounds.1, bounds.2, .inr ⟨_, stops⟩⟩
    · split at read
      · cases read
      · rename_i node c1 readOne
        obtain ⟨tiles, within⟩ := item readOne unread
        split at read
        · obtain ⟨q, rest, q_le, moved, inside', ends⟩ :=
            readSeq_placed_from item read within (before.push tiles)
          exact ⟨q, rest, q_le, by omega, inside', ends⟩
        · -- every node covers a character, so the cursor moved
          exact absurd tiles.single_lt ‹_›
  · cases read
    exact ⟨c.pos, before, Nat.le_refl _, Nat.le_refl _, inside, .inl ⟨rfl, by omega⟩⟩
termination_by r.chars.size - c.pos

theorem readControl_placed {d : Nat} (h : r.PlacedAt d) : r.ControlPlaced (d + 1) := by
  intro envs c node c' read backslash
  have inside : c.pos < r.chars.size := (Array.getElem?_eq_some_iff.mp backslash).1
  rw [readControl] at read
  dsimp only at read
  split at read
  · -- a backslash that ends the text is text of its own
    cases read
    exact ⟨Tiles.single rfl (Node.placed_singleton backslash), inside⟩
  · rename_i name next named
    have after : c.pos < next ∧ next ≤ r.chars.size := by
      split at named
      · cases named
        have := nameEnd_bounds ‹_›
        omega
      · obtain ⟨ch, at_next, pair⟩ := Option.map_eq_some_iff.mp named
        cases pair
        have := (Array.getElem?_eq_some_iff.mp at_next).1
        omega
    split at read
    · -- a begin marker with a braced name opens an environment
      rename_i envName afterName begun
      split at begun
      · have := bracedName_bounds begun
        exact h.environment read (by dsimp only; omega) this.2
      · cases begun
    · split at read
      · -- inline mathematics up to `\)`
        obtain ⟨body, found, bodyRead, rfl⟩ := around_ok read
        obtain ⟨opened, within, placed⟩ := body_placed h.seq c.pos bodyRead after.1 after.2
        exact ⟨Tiles.single rfl ⟨opened, placed⟩, within⟩
      · split at read
        · -- display mathematics up to `\]`
          obtain ⟨body, found, bodyRead, rfl⟩ := around_ok read
          obtain ⟨opened, within, placed⟩ := body_placed h.seq c.pos bodyRead after.1 after.2
          exact ⟨Tiles.single rfl ⟨opened, placed⟩, within⟩
        · split at read
          · -- inline raw text
            have verbRead : r.readVerb c.pos next =
                ((r.readVerb c.pos next).1, (r.readVerb c.pos next).2) := rfl
            cases read
            obtain ⟨opened, within, shape⟩ := readVerb_bounds verbRead after.1 after.2
            refine ⟨?_, within⟩
            rcases shape with ⟨delim, content, shaped⟩ | shaped
            · rw [shaped]
              exact Tiles.single rfl opened
            · rw [shaped]
              exact Tiles.single rfl ⟨opened, trivial⟩
          · -- any other control sequence takes the arguments of its signature
            split at read
            · cases read
            · rename_i args c2 argsRead
              cases read
              obtain ⟨args, moved, within⟩ :=
                h.args argsRead after.2 (Nat.le_of_lt after.1) (by exact trivial)
              exact ⟨Tiles.single rfl ⟨by dsimp only at moved ⊢; omega, args⟩, within⟩

theorem readEnvironment_placed {d : Nat} (h : r.PlacedAt d) : r.EnvironmentPlaced (d + 1) := by
  intro envs start name c node c' read opened inside
  rw [readEnvironment] at read
  dsimp only at read
  split at read
  · -- a raw-text environment runs to its end marker
    have bodyRead : r.readVerbatimBody name c.pos =
        ((r.readVerbatimBody name c.pos).1, (r.readVerbatimBody name c.pos).2) := rfl
    cases read
    have bounds := readVerbatimBody_bounds bodyRead inside
    exact ⟨Tiles.single rfl (show start < (r.readVerbatimBody name c.pos).2 by omega), bounds.2⟩
  · split at read
    · cases read
    · rename_i args c1 argsRead
      obtain ⟨argsWithin, afterBegin, argsInside⟩ :=
        h.args argsRead inside (Nat.le_of_lt opened) (by exact trivial)
      split at read
      · cases read
      · rename_i body found c2 bodyRead
        obtain ⟨q, tiles, q_le, afterArgs, within, -⟩ :=
          h.seq bodyRead argsInside (rfl : Tiles r.chars c1.pos c1.pos [])
        have placed : start < c2.pos ∧ ArgsWithin r.chars start c2.pos args ∧
            ∃ a b, start ≤ a ∧ b ≤ c2.pos ∧ Tiles r.chars a b body :=
          ⟨by omega, argsWithin.widen (Nat.le_refl _) afterArgs,
            c1.pos, q, by omega, q_le, tiles⟩
        split at read
        · cases read
          exact ⟨Tiles.single rfl placed, within⟩
        · cases read
          exact ⟨Tiles.single rfl placed, within⟩

/-- One slot of a signature lies between the cursor and the new cursor. -/
theorem readSlot_placed {d : Nat} (h : r.PlacedAt d) {envs : List String} {spec : ArgSpec}
    {c c' : Cursor} {arg : Arg} (read : r.readSlot d envs spec c = .ok (arg, c'))
    (inside : c.pos ≤ r.chars.size) :
    ArgsWithin r.chars c.pos c'.pos [arg] ∧ c.pos ≤ c'.pos ∧ c'.pos ≤ r.chars.size := by
  unfold readSlot at read
  cases spec with
  | star =>
    dsimp only at read
    split at read
    · rename_i starred
      cases read
      have := (Array.getElem?_eq_some_iff.mp starred).1
      exact ⟨ArgsWithin.star, by dsimp only; omega, by dsimp only; omega⟩
    · cases read
      exact ⟨ArgsWithin.empty (Nat.le_refl _), Nat.le_refl _, inside⟩
  | bracket => exact h.delimited read inside
  | angle => exact h.delimited read inside
  | optGroup => exact h.braceArg read inside
  | group => exact h.braceArg read inside

theorem readArgs_placed {d : Nat} (h : r.PlacedAt d) : r.ArgsPlaced (d + 1) := by
  intro envs sig
  induction sig with
  | nil =>
    intro acc c args c' lo read inside lower before
    rw [readArgs] at read
    cases read
    exact ⟨before, Nat.le_refl _, inside⟩
  | cons spec rest ih =>
    intro acc c args c' lo read inside lower before
    rw [readArgs] at read
    split at read
    · cases read
    · rename_i arg c1 slotRead
      obtain ⟨slot, moved, within⟩ := readSlot_placed h slotRead inside
      have widened : ArgsWithin r.chars lo c1.pos (acc.push arg).toList :=
        (before.widen (Nat.le_refl _) moved).push (slot.widen lower (Nat.le_refl _))
      obtain ⟨all, moved', within'⟩ := ih read within (by omega) widened
      exact ⟨all, by omega, within'⟩

/-- An optional marked argument is read only when its closing mark is found; otherwise the
cursor stays where it was. -/
theorem readDelimited_placed {d : Nat} (h : r.PlacedAt d) : r.DelimitedPlaced (d + 1) := by
  intro envs openMark closeMark c arg c' read inside
  have unmoved : ArgsWithin r.chars c.pos c.pos [Arg.empty] ∧ c.pos ≤ c.pos ∧
      c.pos ≤ r.chars.size :=
    ⟨ArgsWithin.empty (Nat.le_refl _), Nat.le_refl _, inside⟩
  rw [readDelimited] at read
  dsimp only at read
  split at read
  · -- no opening mark at the cursor
    cases read
    exact unmoved
  · rename_i opens
    split at read
    · -- remembered as unclosed, or no closing mark ahead
      cases read
      exact unmoved
    · split at read
      · cases read
      · rename_i body closed c1 bodyRead
        have opener := startsAt_le inside (by simpa using opens)
        obtain ⟨q, tiles, q_le, moved, within, -⟩ :=
          h.seq bodyRead opener (rfl : Tiles r.chars _ _ [])
        split at read
        · cases read
          exact ⟨ArgsWithin.content (by dsimp only; omega) q_le tiles,
            by dsimp only at moved; omega, within⟩
        · -- the scan ended before its closing mark: back to the opener
          cases read
          exact unmoved

/-- A braced argument, or a bare mandatory one, starts after the skipped layout and ends at
the new cursor; an absent one leaves the cursor where it was. -/
theorem readBraceArg_placed {d : Nat} (h : r.PlacedAt d) : r.BraceArgPlaced (d + 1) := by
  intro envs required c arg c' read inside
  have unmoved : ArgsWithin r.chars c.pos c.pos [Arg.empty] ∧ c.pos ≤ c.pos ∧
      c.pos ≤ r.chars.size :=
    ⟨ArgsWithin.empty (Nat.le_refl _), Nat.le_refl _, inside⟩
  have skipped := le_skipToArg inside
  rw [readBraceArg] at read
  split at read
  · cases read
    exact unmoved
  · rename_i ch at_p
    have within := (Array.getElem?_eq_some_iff.mp at_p).1
    split at read
    · -- a braced argument
      split at read
      · cases read
      · rename_i body found c1 bodyRead
        cases read
        obtain ⟨opened, inside', a, b, lower, upper, tiles⟩ :=
          body_placed h.seq _ bodyRead (Nat.lt_succ_self _) within
        exact ⟨ArgsWithin.content (by omega) upper tiles, by omega, inside'⟩
    · split at read
      · split at read
        · -- a bare control sequence
          split at read
          · cases read
          · rename_i backslash _ node c1 controlRead
            cases read
            subst backslash
            obtain ⟨tiles, inside'⟩ := h.control controlRead at_p
            have moved := tiles.single_lt
            exact ⟨ArgsWithin.content skipped (Nat.le_refl _) tiles,
              by dsimp only at moved; omega, inside'⟩
        · -- a bare character
          cases read
          exact ⟨ArgsWithin.content skipped (Nat.le_refl _)
            (Tiles.single rfl (Node.placed_singleton at_p)), by dsimp only; omega, within⟩
      · cases read
        exact unmoved

/-- The guarantees at budget `d` give those at budget `d + 1`. -/
theorem PlacedAt.succ {d : Nat} (h : r.PlacedAt d) : r.PlacedAt (d + 1) where
  seq := fun read inside before => readSeq_placed_from (readItem_placed h) read inside before
  control := readControl_placed h
  environment := readEnvironment_placed h
  args := readArgs_placed h
  delimited := readDelimited_placed h
  braceArg := readBraceArg_placed h

/-- Every reading function places what it reads, at every budget. -/
theorem placedAt (r : Reader) : ∀ d, r.PlacedAt d
  | 0 => r.placedAt_zero
  | d + 1 => (placedAt r d).succ

/-- A sequence read to the end of the text stops nowhere before it. -/
theorem stopsAt_eof (p : Nat) : r.stopsAt .eof [] p = none := by
  simp only [stopsAt, stopsAt.closedOutside]
  split <;> simp

end Reader

/-! ## Every node of a tree -/

/-- The arguments a node carries. -/
def Node.args : Node → List Arg
  | .control _ args _ | .env _ args _ _ | .mathEnv _ args _ _ => args
  | _ => []

/-- `n` stands in the forest `ns`: as one of its nodes, inside the body of one, or inside an
argument of one. -/
inductive Node.InForest (n : Node) : List Node → Prop
  | mem {ns : List Node} : n ∈ ns → Node.InForest n ns
  | body {m : Node} {ns : List Node} : m ∈ ns → Node.InForest n m.body → Node.InForest n ns
  | arg {m : Node} {ns : List Node} {a : Arg} :
    m ∈ ns → a ∈ m.args → Node.InForest n a.content → Node.InForest n ns

theorem Node.not_inForest_nil {n : Node} : ¬ n.InForest [] := by
  rintro (⟨⟨⟩⟩ | ⟨⟨⟩, _⟩ | ⟨⟨⟩, _, _⟩)

/-- The only node inside a star is its unplaced text. -/
theorem Node.inForest_star {n : Node} (inside : n.InForest Arg.star.content) :
    n = .text "*" none := by
  rcases inside with mem | ⟨mem, deeper⟩ | ⟨mem, arg, _⟩
  · exact List.mem_singleton.mp mem
  · rw [List.mem_singleton.mp mem] at deeper
    exact absurd deeper Node.not_inForest_nil
  · rw [List.mem_singleton.mp mem] at arg
    exact absurd arg List.not_mem_nil

theorem Tiles.placed_of_mem {n : Node} : ∀ {a b : Nat} {ns : List Node},
    Tiles cs a b ns → n ∈ ns → n.Placed cs
  | _, _, [], _, mem => absurd mem List.not_mem_nil
  | _, _, m :: _, ⟨_, _, placed, rest⟩, mem => by
    rcases List.mem_cons.mp mem with rfl | later
    · exact placed
    · exact rest.placed_of_mem later

theorem Node.Placed.body_tiles {n : Node} (placed : n.Placed cs) :
    ∃ a b, Tiles cs a b n.body := by
  cases n <;> simp only [Node.Placed] at placed
  all_goals first
    | exact ⟨0, 0, rfl⟩
    | (obtain ⟨-, -, a, b, -, -, tiles⟩ := placed; exact ⟨a, b, tiles⟩)
    | (obtain ⟨-, a, b, -, -, tiles⟩ := placed; exact ⟨a, b, tiles⟩)

theorem Node.Placed.args_within {n : Node} (placed : n.Placed cs) :
    ∃ lo hi, ArgsWithin cs lo hi n.args := by
  cases n <;> simp only [Node.Placed] at placed
  all_goals first
    | exact ⟨0, 0, trivial⟩
    | exact ⟨_, _, placed.2⟩
    | exact ⟨_, _, placed.2.1⟩

/-- An argument within bounds is a star or holds a tiled sequence. -/
theorem ArgsWithin.mem {lo hi : Nat} {a : Arg} : ∀ {args : List Arg},
    ArgsWithin cs lo hi args → a ∈ args → a = Arg.star ∨ ∃ x y, Tiles cs x y a.content
  | [], _, mem => absurd mem List.not_mem_nil
  | .mk _ _ _ :: _, ⟨first, rest⟩, mem => by
    rcases List.mem_cons.mp mem with rfl | later
    · rcases first with star | ⟨x, y, -, -, tiles⟩
      · exact .inl star
      · exact .inr ⟨x, y, tiles⟩
    · exact rest.mem later

/-- Every node inside a tiled forest is placed, apart from the text of a star. By induction
on where the node stands. -/
theorem Tiles.inForest {n : Node} {ns : List Node} (inside : n.InForest ns) :
    ∀ {a b : Nat}, Tiles cs a b ns → n.Placed cs ∨ n = .text "*" none := by
  induction inside with
  | mem mem => exact fun tiles => .inl (tiles.placed_of_mem mem)
  | body mem _ ih =>
    intro a b tiles
    obtain ⟨x, y, bodyTiles⟩ := (tiles.placed_of_mem mem).body_tiles
    exact ih bodyTiles
  | arg mem arg deeper ih =>
    intro a b tiles
    obtain ⟨lo, hi, within⟩ := (tiles.placed_of_mem mem).args_within
    rcases within.mem arg with rfl | ⟨x, y, argTiles⟩
    · exact .inr (Node.inForest_star deeper)
    · exact ih argTiles

open Outline in
/-- A node that covers a range, or none, starts on a line no later than the one it ends on. -/
theorem placeOf_lines_ordered (idx : LineIndex) {n : Node}
    (ordered : ∀ sp, n.span? = some sp → sp.start ≤ sp.stop) :
    (placeOf idx n).lineStart ≤ (placeOf idx n).lineEnd := by
  unfold placeOf
  split
  · exact Nat.le_refl _
  · rename_i sp span
    have := idx.lineOf_mono (ordered sp span)
    dsimp only
    omega

open Outline in
/-- A text that reads without error is tiled by its top-level nodes, from offset `0` to its
length. Every node of the tree is placed, apart from the text of a star, so every node
starts on a line no later than the one it ends on, whatever the index of line starts. -/
theorem parse_tiles {g : Grammar} {text : String} {nodes : List Node}
    (parsed : parse g text = .ok nodes) :
    Tiles text.toList.toArray 0 text.length nodes ∧
      ∀ n, n.InForest nodes → (n.Placed text.toList.toArray ∨ n = .text "*" none) ∧
        ∀ idx : LineIndex, (placeOf idx n).lineStart ≤ (placeOf idx n).lineEnd := by
  let r : Reader := ⟨text.toList.toArray, g, true⟩
  obtain ⟨found, c', read⟩ := parseWith_ok parsed
  obtain ⟨q, tiles, q_le, -, within, ends⟩ :=
    (Reader.placedAt r depthBudget).seq read (Nat.zero_le _) (rfl : Tiles r.chars 0 0 [])
  have whole : q = r.chars.size := by
    rcases ends with ⟨_, past⟩ | ⟨f, stops⟩
    · omega
    · rw [Reader.stopsAt_eof] at stops
      cases stops
  have size : r.chars.size = text.length := by simp [r, String.length_toList]
  refine ⟨by rw [← size, ← whole]; exact tiles, fun n inside => ?_⟩
  have placed := tiles.inForest inside
  refine ⟨placed, fun idx => placeOf_lines_ordered idx fun sp span => ?_⟩
  rcases placed with placed | rfl
  · exact Nat.le_of_lt (placed.lt span)
  · cases span

/-- A sectioning command, a blank and a word tile the text they are read from. -/
theorem parse_section_tiles :
    parse Grammar.standard "\\section{A} x" = .ok [.control "section"
        [Arg.empty, Arg.empty, .mk "\x7b" "\x7d" [.text "A" (some ⟨9, 10⟩)]] ⟨0, 11⟩,
      .blank ⟨11, 12⟩, .text "x" (some ⟨12, 13⟩)] ∧
    Tiles "\\section{A} x".toList.toArray 0 "\\section{A} x".length [.control "section"
        [Arg.empty, Arg.empty, .mk "\x7b" "\x7d" [.text "A" (some ⟨9, 10⟩)]] ⟨0, 11⟩,
      .blank ⟨11, 12⟩, .text "x" (some ⟨12, 13⟩)] :=
  have parsed : parse Grammar.standard "\\section{A} x" = .ok [.control "section"
      [Arg.empty, Arg.empty, .mk "\x7b" "\x7d" [.text "A" (some ⟨9, 10⟩)]] ⟨0, 11⟩,
      .blank ⟨11, 12⟩, .text "x" (some ⟨12, 13⟩)] := by
    cbv
  ⟨parsed, (parse_tiles parsed).1⟩

end TexToc.Markup
