import TexToc.Markup.Node
import TexToc.Markup.Signature
import TexToc.Markup.Scan

/-!
Reading LaTeX into a markup tree.

The reader walks the text once, left to right, and never fails on malformed input: a group,
math span or environment left open is closed at the end of the text, an end marker that
closes no open environment is kept as a command, and an optional argument whose closing mark
never comes is read as absent, its opener then being ordinary text.

An end marker `\end{x}` met while an environment `x` is open closes everything opened
inside that environment: each sequence read inside it stops in front of the marker and
leaves it to the environment.

The reader keeps one piece of state besides its index: the optional-argument openers it
has already found unclosed, keyed by index, closing mark and the stack of open
environments. Reading from such an opener again would find it unclosed again, so it is
not read again. A reader may also be run without this memory (`Reader.remembers` false),
reading every opener each time it is reached.

Nesting is bounded. Every step into a nested construct spends one unit of a depth budget,
as a frame of a recursive-descent reader would; a text nested beyond the budget is refused.
The budget and the length of the text left to read bound the whole walk.

* `readSeq` reads a sequence up to its stop; `readItem` reads one node of it.
* `readControl`, `readEnvironment`, `readArgs`, `readSlot`, `readDelimited`, `readBraceArg`
  read a control sequence, an environment, the argument slots of a signature, one slot, an
  optional marked argument and a braced argument.
* `parse` reads a whole text; `parseWith` chooses whether unclosed openers are remembered.
-/

namespace TexToc.Markup

open TexToc.Text Scan

/-- A text nested beyond the depth budget is refused. -/
inductive ParseError where
  | tooDeep
  deriving Repr, DecidableEq

/-- The text being read, with the grammar that gives signatures, and whether openers found
unclosed are remembered. -/
structure Reader where
  chars : Array Char
  grammar : Grammar
  remembers : Bool

/-- An optional-argument opener already found unclosed: its index, its closing mark and
the open environments, innermost first. -/
abbrev Opener := Nat × String × List String

/-- Where the reader stands, and the openers it has found unclosed. -/
structure Cursor where
  pos : Nat
  unclosed : List Opener

/-- What ends a sequence of nodes besides the end of the text. -/
inductive Stop where
  /-- Nothing: the sequence runs to the end of the text. -/
  | eof
  /-- A closing mark, such as a brace or a dollar sign. -/
  | mark (m : String)
  /-- The end marker of the named environment. -/
  | endOf (name : String)
  deriving DecidableEq

/-- Characters that end a run of text: control, comment, group and math characters and
the layout blanks; a closing mark also ends a run at its first character. -/
def Stop.endsText (stop : Stop) (c : Char) : Bool :=
  c = '\\' || c = '%' || c = '{' || c = '}' || c = '$' || c = ' ' || c = '\t' || c = '\r' ||
    c = '\n' ||
    match stop with
    | .mark m => m.toList.head? == some c
    | _ => false

/-- The blanks that make up layout between words. -/
def isLayout (c : Char) : Bool :=
  c = ' ' || c = '\t' || c = '\r' || c = '\n'

/-- The outcome of a sequence: its nodes, and whether its stop was found. -/
abbrev Outcome := List Node × Bool

/-- A reading step: a value and the cursor after it, or a refusal. -/
abbrev Parse (α : Type) := Except ParseError (α × Cursor)

namespace Reader

variable (r : Reader)

/-- Whether a sequence ends at `p` before reading a node there: `some (true, q)` when its
stop stands at `p` and reading goes on at `q`; `some (false, p)` when an end marker
stands there for an environment opened further out, which is left unread. -/
def stopsAt (stop : Stop) (envs : List String) (p : Nat) : Option (Bool × Nat) :=
  match stop with
  | .mark m =>
    if startsAt r.chars p m.toList then some (true, p + m.length) else closedOutside stop envs p
  | _ => closedOutside stop envs p
where
  closedOutside (stop : Stop) (envs : List String) (p : Nat) : Option (Bool × Nat) :=
    match endMarker r.chars p with
    | some (name, after) =>
      if stop = .endOf name then some (true, after)
      else if envs.contains name then some (false, p)
      else none
    | none => none

/-- Inline raw text after `\verb` (and its star) at `p`: up to the next copy of the
delimiter, or up to the end of the line when the line ends first. A blank delimiter, or
none, leaves a bare `\verb` command. -/
def readVerb (start p : Nat) : Node × Nat :=
  let p := if r.chars[p]? = some '*' then p + 1 else p
  match r.chars[p]? with
  | none => (.control "verb" [] ⟨start, p⟩, p)
  | some delim =>
    if isBlank delim then (.control "verb" [] ⟨start, p⟩, p)
    else
      let close := findSeq r.chars [delim] (p + 1)
      let lineEnd := findSeq r.chars ['\n'] (p + 1)
      let cut := match close, lineEnd with
        | some k, some l => if l < k then some l else none
        | some _, none => none
        | none, some l => some l
        | none, none => some r.chars.size
      match cut with
      | some e => (.verb delim (slice r.chars (p + 1) e) ⟨start, e⟩, e)
      | none =>
        let k := close.getD p
        (.verb delim (slice r.chars (p + 1) k) ⟨start, k + 1⟩, k + 1)

/-- The raw body of a raw-text environment starting at `p`, and the index after its end
marker; without an end marker the body runs to the end of the text. -/
def readVerbatimBody (name : String) (p : Nat) : String × Nat :=
  match verbatimEnd r.chars name.toList p with
  | some (k, e) => (slice r.chars p k, e)
  | none => (slice r.chars p r.chars.size, r.chars.size)

mutual

/-- Read nodes from the cursor until the stop, the end of the text, or an end marker of an
environment opened further out. -/
def readSeq : Nat → Stop → List String → Array Node → Cursor → Parse Outcome
  | 0, _, _, _, _ => .error .tooDeep
  | d + 1, stop, envs, acc, c =>
    if c.pos < r.chars.size then
      match r.stopsAt stop envs c.pos with
      | some (found, next) => .ok ((acc.toList, found), { c with pos := next })
      | none =>
        match readItem d stop envs c with
        | .error e => .error e
        | .ok (node, c') =>
          if c.pos < c'.pos then readSeq (d + 1) stop envs (acc.push node) c'
          else .ok ((acc.toList, false), c')
    else .ok ((acc.toList, stop = .eof), c)
termination_by d _ _ _ c => (d, 0, r.chars.size - c.pos)

/-- Read the node at the cursor, inside a sequence with the given stop. -/
def readItem (d : Nat) (stop : Stop) (envs : List String) (c : Cursor) : Parse Node :=
  let p := c.pos
  match r.chars[p]? with
  | none => .ok (.text "" (some ⟨p, p⟩), c)
  | some ch =>
    if ch = '%' then
      let e := findFrom r.chars (· = '\n') p
      .ok (.comment (slice r.chars (p + 1) e) ⟨p, e⟩, { c with pos := e })
    else if isLayout ch then
      let e := findFrom r.chars (fun x => !isLayout x) p
      let node := if 2 ≤ lineFeedsBetween r.chars p e then Node.parbreak ⟨p, e⟩ else .blank ⟨p, e⟩
      .ok (node, { c with pos := e })
    else if ch = '\\' then readControl d envs c
    else if ch = '$' then
      if startsAt r.chars p "$$".toList then
        match readSeq d (.mark "$$") envs #[] { c with pos := p + 2 } with
        | .error e => .error e
        | .ok ((body, _), c') => .ok (.displayMath body ⟨p, c'.pos⟩, c')
      else
        match readSeq d (.mark "$") envs #[] { c with pos := p + 1 } with
        | .error e => .error e
        | .ok ((body, _), c') => .ok (.inlineMath body ⟨p, c'.pos⟩, c')
    else if ch = '{' then
      match readSeq d (.mark "\x7d") envs #[] { c with pos := p + 1 } with
      | .error e => .error e
      | .ok ((body, _), c') => .ok (.group body ⟨p, c'.pos⟩, c')
    else if ch = '}' then .ok (.text "\x7d" (some ⟨p, p + 1⟩), { c with pos := p + 1 })
    else
      let e := findFrom r.chars stop.endsText (p + 1)
      .ok (.text (slice r.chars p e) (some ⟨p, e⟩), { c with pos := e })
termination_by (d, 1, 0)

/-- Read the control sequence at the cursor: a control word or symbol, then what its
name asks for. -/
def readControl : Nat → List String → Cursor → Parse Node
  | 0, _, _ => .error .tooDeep
  | d + 1, envs, c =>
    let start := c.pos
    let named : Option (String × Nat) :=
      match nameEnd r.chars (start + 1) with
      | some e => some (slice r.chars (start + 1) e, e)
      | none => r.chars[start + 1]?.map fun ch => (String.singleton ch, start + 2)
    match named with
    | none => .ok (.text "\\" (some ⟨start, start + 1⟩), { c with pos := start + 1 })
    | some (name, next) =>
      match (if name = "begin" then bracedName r.chars next else none) with
      | some (envName, after) => readEnvironment d envs start envName { c with pos := after }
      | none =>
        if name = "(" then
          match readSeq d (.mark "\\)") envs #[] { c with pos := next } with
          | .error e => .error e
          | .ok ((body, _), c') => .ok (.inlineMath body ⟨start, c'.pos⟩, c')
        else if name = "[" then
          match readSeq d (.mark "\\]") envs #[] { c with pos := next } with
          | .error e => .error e
          | .ok ((body, _), c') => .ok (.displayMath body ⟨start, c'.pos⟩, c')
        else if name = "verb" then
          let (node, e) := r.readVerb start next
          .ok (node, { c with pos := e })
        else
          let sig := if name = "end" then [ArgSpec.group] else r.grammar.command name
          match readArgs d envs sig #[] { c with pos := next } with
          | .error e => .error e
          | .ok (args, c') => .ok (.control name args ⟨start, c'.pos⟩, c')
termination_by d _ _ => (d, 0, 0)

/-- Read an environment whose begin marker spans from `start` to the cursor. -/
def readEnvironment : Nat → List String → Nat → String → Cursor → Parse Node
  | 0, _, _, _, _ => .error .tooDeep
  | d + 1, envs, start, name, c =>
    if verbatimEnvironments.contains name then
      let (body, e) := r.readVerbatimBody name c.pos
      .ok (.verbatim name body ⟨start, e⟩, { c with pos := e })
    else
      let envs' := name :: envs
      match readArgs d envs' (r.grammar.environment name) #[] c with
      | .error e => .error e
      | .ok (args, c1) =>
        match readSeq d (.endOf name) envs' #[] c1 with
        | .error e => .error e
        | .ok ((body, _), c2) =>
          if mathEnvironments.contains name then .ok (.mathEnv name args body ⟨start, c2.pos⟩, c2)
          else .ok (.env name args body ⟨start, c2.pos⟩, c2)
termination_by d _ _ _ _ => (d, 0, 0)

/-- Read the argument slots of a signature, in order. -/
def readArgs : Nat → List String → List ArgSpec → Array Arg → Cursor → Parse (List Arg)
  | 0, _, _, _, _ => .error .tooDeep
  | _ + 1, _, [], acc, c => .ok (acc.toList, c)
  | d + 1, envs, spec :: rest, acc, c =>
    match readSlot d envs spec c with
    | .error e => .error e
    | .ok (a, c') => readArgs (d + 1) envs rest (acc.push a) c'
termination_by d _ sig _ _ => (d, sig.length, 0)

/-- Read one argument slot: a star, an optional marked argument or a braced argument. -/
def readSlot (d : Nat) (envs : List String) (spec : ArgSpec) (c : Cursor) : Parse Arg :=
  match spec with
  | .star =>
    if r.chars[c.pos]? = some '*' then .ok (Arg.star, { c with pos := c.pos + 1 })
    else .ok (Arg.empty, c)
  | .bracket => readDelimited d envs "[" "]" c
  | .angle => readDelimited d envs "<" ">" c
  | .optGroup => readBraceArg d envs false c
  | .group => readBraceArg d envs true c
termination_by (d, 1, 0)

/-- Read an optional argument between `openMark` and `closeMark`. It is absent when the
opener is missing, when no closing mark follows, when this opener was found unclosed
before and the reader remembers it, or when reading finds it unclosed now; then the cursor
stays put, and a remembering reader notes the opener. -/
def readDelimited : Nat → List String → String → String → Cursor → Parse Arg
  | 0, _, _, _, _ => .error .tooDeep
  | d + 1, envs, openMark, closeMark, c =>
    let saved := c.pos
    let key : Opener := (saved, closeMark, envs)
    if !startsAt r.chars saved openMark.toList then .ok (Arg.empty, c)
    else if (r.remembers && c.unclosed.contains key) ||
        (findSeq r.chars closeMark.toList (saved + openMark.length)).isNone then
      .ok (Arg.empty, c)
    else
      match readSeq d (.mark closeMark) envs #[] { c with pos := saved + openMark.length } with
      | .error e => .error e
      | .ok ((body, closed), c') =>
        if closed then .ok (.mk openMark closeMark body, c')
        else
          let unclosed := if r.remembers then key :: c'.unclosed else c'.unclosed
          .ok (Arg.empty, { pos := saved, unclosed })
termination_by d _ _ _ _ => (d, 0, 0)

/-- Read a braced argument after spaces, tabs and at most one line feed. A mandatory
argument without a brace is the next single token, unless a closing brace, a comment,
a dollar sign or a line feed stands there. -/
def readBraceArg : Nat → List String → Bool → Cursor → Parse Arg
  | 0, _, _, _ => .error .tooDeep
  | d + 1, envs, required, c =>
    let p := skipToArg r.chars c.pos
    match r.chars[p]? with
    | none => .ok (Arg.empty, c)
    | some ch =>
      if ch = '{' then
        match readSeq d (.mark "\x7d") envs #[] { c with pos := p + 1 } with
        | .error e => .error e
        | .ok ((body, _), c') => .ok (.mk "\x7b" "\x7d" body, c')
      else if required && !(ch = '}' || ch = '%' || ch = '$' || ch = '\n') then
        if ch = '\\' then
          match readControl d envs { c with pos := p } with
          | .error e => .error e
          | .ok (node, c') => .ok (.mk "" "" [node], c')
        else .ok (.mk "" "" [.text (String.singleton ch) (some ⟨p, p + 1⟩)], { c with pos := p + 1 })
      else .ok (Arg.empty, c)
termination_by d _ _ _ => (d, 0, 0)

end

end Reader

/-- The depth budget of a reading: how many nested steps a text may take. -/
def depthBudget : Nat := 980

/-- Read a whole text into its top-level nodes, remembering unclosed openers or not. -/
def parseWith (remembers : Bool) (g : Grammar) (text : String) :
    Except ParseError (List Node) :=
  let r : Reader := ⟨text.toList.toArray, g, remembers⟩
  match r.readSeq depthBudget .eof [] #[] ⟨0, []⟩ with
  | .ok ((nodes, _), _) => .ok nodes
  | .error e => .error e

/-- Read a whole text into its top-level nodes. -/
def parse (g : Grammar) (text : String) : Except ParseError (List Node) :=
  parseWith true g text

/-- A text read without refusal is the outcome of one sequence read to its end. -/
theorem parseWith_ok {remembers : Bool} {g : Grammar} {text : String} {nodes : List Node}
    (parsed : parseWith remembers g text = .ok nodes) :
    ∃ found c', (⟨text.toList.toArray, g, remembers⟩ : Reader).readSeq depthBudget .eof [] #[]
      ⟨0, []⟩ = .ok ((nodes, found), c') := by
  unfold parseWith at parsed
  dsimp only at parsed
  split at parsed
  · cases parsed
    exact ⟨_, _, ‹_›⟩
  · cases parsed

/-- A construct read around a nested sequence succeeds only when the sequence does, and is
built from the body read and the cursor reached. -/
theorem around_ok {α : Type} {x : Parse Outcome} {f : List Node → Cursor → α} {w : α}
    {c'' : Cursor}
    (read : (match x with
      | .error e => .error e
      | .ok ((body, _), c') => .ok (f body c', c')) = (.ok (w, c'') : Parse α)) :
    ∃ body found, x = .ok ((body, found), c'') ∧ w = f body c'' := by
  split at read
  · cases read
  · cases read
    exact ⟨_, _, rfl, rfl⟩

end TexToc.Markup
