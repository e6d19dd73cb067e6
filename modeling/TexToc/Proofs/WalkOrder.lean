import Mathlib
import TexToc.Proofs.Placement

/-!
# The order in which a walk meets the nodes of a text

A walk over a document visits each node and then the nodes of its body
(`Markup.walkOrder`). This module shows that on the nodes of a text read without error the
walk meets the nodes in the order of the text, strictly: each starts after every node met
before it. Two facts carry this.

* Siblings tile a stretch of the text (`Tiles`), so each starts where the one before ends.
* A body starts after its node does (`Node.Opens`): an environment, a math span and a group
  are all opened by at least one character that belongs to the node and to none of its
  body. `Tiles` alone allows a body to start where its node starts, so this is a second
  induction over the reading functions, in the shape of the one for `Tiles` (`OpensAt`).

`parse_walk_ordered` is the statement for a whole text: the nodes in walk order start
strictly one after another, and every node of a body lies inside the range of its node.
-/

namespace TexToc.Markup

open Scan

/-! ## Walk order -/

/-- Where a node starts; the text of a star, placed nowhere, at `0`. -/
def Node.start (n : Node) : Nat := (n.span?.map Span.start).getD 0

/-- Where a node ends; the text of a star at `0`. -/
def Node.stop (n : Node) : Nat := (n.span?.map Span.stop).getD 0

/-- A node opens before its body: every node of its body starts after it does. -/
def Node.Opens (n : Node) : Prop := ∀ b ∈ n.body, n.start < b.start

/-- The nodes of a forest in the order a walk visits them: each node, then the nodes of its
body, then the nodes after it. -/
def walkOrder : List Node → List Node
  | [] => []
  | n :: ns => n :: walkOrder n.body ++ walkOrder ns
termination_by ns => sizeOf ns
decreasing_by
  all_goals simp only [List.cons.sizeOf_spec]
  all_goals have := Node.sizeOf_body_le n; omega

@[simp] theorem walkOrder_nil : walkOrder [] = [] := by
  rw [walkOrder]

@[simp] theorem walkOrder_cons (n : Node) (ns : List Node) :
    walkOrder (n :: ns) = n :: (walkOrder n.body ++ walkOrder ns) := by
  rw [walkOrder, List.cons_append]

@[simp] theorem walkOrder_append (ns ns' : List Node) :
    walkOrder (ns ++ ns') = walkOrder ns ++ walkOrder ns' := by
  induction ns with
  | nil => simp
  | cons n ns ih => simp [ih]

/-- A walk that meets a node meets the nodes of its body. -/
theorem mem_walkOrder_of_body {ns : List Node} {n m : Node} (mem : n ∈ walkOrder ns)
    (inner : m ∈ walkOrder n.body) : m ∈ walkOrder ns := by
  induction ns using walkOrder.induct with
  | case1 => simp at mem
  | case2 x xs bodyIh restIh =>
    simp only [walkOrder_cons, List.mem_cons, List.mem_append] at mem ⊢
    rcases mem with rfl | inBody | later
    · exact .inr (.inl inner)
    · exact .inr (.inl (bodyIh inBody))
    · exact .inr (.inr (restIh later))

theorem Node.start_of_span {n : Node} {sp : Span} (span : n.span? = some sp) :
    n.start = sp.start := by
  simp [Node.start, span]

theorem Node.stop_of_span {n : Node} {sp : Span} (span : n.span? = some sp) :
    n.stop = sp.stop := by
  simp [Node.stop, span]

/-- A node and a body that starts after it, every node of which opens before its own
body, open before their bodies all the way down. -/
theorem opens_of_body {n : Node} (later : ∀ b ∈ n.body, n.start < b.start)
    (inner : ∀ x ∈ walkOrder n.body, x.Opens) : ∀ x ∈ walkOrder [n], x.Opens := by
  intro x mem
  simp only [walkOrder_cons, walkOrder_nil, List.append_nil, List.mem_cons] at mem
  rcases mem with rfl | deeper
  · exact later
  · exact inner x deeper

/-- A node without a body opens before it. -/
theorem opens_of_leaf {n : Node} (leaf : n.body = []) : ∀ x ∈ walkOrder [n], x.Opens :=
  opens_of_body (by simp [leaf]) (by simp [leaf])

/-! ## Tilings in walk order -/

variable {cs : Array Char}

/-- A node of a tiling lies inside the tiled stretch. -/
theorem Tiles.span_of_mem {x : Node} : ∀ {a b : Nat} {ns : List Node},
    Tiles cs a b ns → x ∈ ns →
      ∃ sp, x.span? = some sp ∧ a ≤ sp.start ∧ sp.start < sp.stop ∧ sp.stop ≤ b
  | _, _, [], _, mem => absurd mem List.not_mem_nil
  | _, _, n :: _, ⟨m, span, placed, rest⟩, mem => by
    have first := placed.lt span
    have after := rest.le
    simp only at first
    rcases List.mem_cons.mp mem with rfl | later
    · exact ⟨_, span, Nat.le_refl _, first, after⟩
    · obtain ⟨sp, span', lower, inside, upper⟩ := rest.span_of_mem later
      exact ⟨sp, span', by omega, inside, upper⟩

/-- The body of a placed node tiles a stretch inside the node. -/
theorem Node.Placed.body_within {n : Node} {sp : Span} (placed : n.Placed cs)
    (span : n.span? = some sp) : ∃ a b, sp.start ≤ a ∧ b ≤ sp.stop ∧ Tiles cs a b n.body := by
  cases n <;> simp only [Node.span?, Option.some.injEq] at span <;> subst span <;>
    simp only [Node.Placed] at placed
  all_goals first
    | exact ⟨_, _, Nat.le_refl _, Nat.le_of_lt placed, (rfl : Tiles cs _ _ [])⟩
    | exact ⟨_, _, Nat.le_refl _, Nat.le_of_lt placed.1, (rfl : Tiles cs _ _ [])⟩
    | exact placed.2.2
    | exact placed.2

/-- Every node a walk meets in a tiling is placed inside the tiled stretch. By induction in
walk order: a node of the body lies in the stretch its node's body tiles. -/
theorem Tiles.span_of_walkOrder {x : Node} {ns : List Node} :
    ∀ {a b : Nat}, Tiles cs a b ns → x ∈ walkOrder ns →
      x.Placed cs ∧ ∃ sp, x.span? = some sp ∧ a ≤ sp.start ∧ sp.start < sp.stop ∧ sp.stop ≤ b := by
  induction ns using walkOrder.induct with
  | case1 => simp
  | case2 n ns bodyIh restIh =>
    intro a b tiles mem
    obtain ⟨m, span, placed, rest⟩ := tiles
    have first := placed.lt span
    have after := rest.le
    simp only at first
    simp only [walkOrder_cons, List.mem_cons, List.mem_append] at mem
    rcases mem with rfl | inBody | later
    · exact ⟨placed, _, span, Nat.le_refl _, first, after⟩
    · obtain ⟨a', b', lower, upper, bodyTiles⟩ := placed.body_within span
      obtain ⟨xPlaced, sp, span', lower', inside, upper'⟩ := bodyIh bodyTiles inBody
      simp only at lower upper
      exact ⟨xPlaced, sp, span', by omega, inside, by omega⟩
    · obtain ⟨xPlaced, sp, span', lower', inside, upper'⟩ := restIh rest later
      exact ⟨xPlaced, sp, span', by omega, inside, upper'⟩

/-- In a tiling whose nodes open before their bodies, the walk meets nodes that start
strictly one after another: a node before its body, which starts after it, and its body
before the next node, which starts where the node ends. -/
theorem Tiles.walkOrder_starts {ns : List Node} (opens : ∀ x ∈ walkOrder ns, x.Opens) :
    ∀ {a b : Nat}, Tiles cs a b ns → (walkOrder ns).Pairwise (·.start < ·.start) := by
  induction ns using walkOrder.induct with
  | case1 => simp
  | case2 n ns bodyIh restIh =>
    intro a b tiles
    simp only [walkOrder_cons, List.mem_cons, List.mem_append] at opens
    obtain ⟨m, span, placed, rest⟩ := tiles
    obtain ⟨a', b', -, upper, bodyTiles⟩ := placed.body_within span
    have nStart : n.start = a := Node.start_of_span span
    have first := placed.lt span
    simp only at first upper
    rw [walkOrder_cons, List.pairwise_cons, List.pairwise_append]
    refine ⟨fun x mem => ?_, bodyIh (fun x mem => opens x (.inr (.inl mem))) bodyTiles,
      restIh (fun x mem => opens x (.inr (.inr mem))) rest, fun x inBody y later => ?_⟩
    · rcases List.mem_append.mp mem with inBody | later
      · -- the body is not empty, and its first node starts after the node
        obtain ⟨-, sp, span', lower', -, -⟩ := bodyTiles.span_of_walkOrder inBody
        cases body : n.body with
        | nil => simp [body] at inBody
        | cons b0 rest0 =>
          rw [body] at bodyTiles
          obtain ⟨m0, span0, -, -⟩ := bodyTiles
          have opened := opens n (.inl rfl) b0 (by rw [body]; exact List.mem_cons_self ..)
          have bStart : b0.start = a' := Node.start_of_span span0
          rw [Node.start_of_span span', nStart]
          omega
      · obtain ⟨-, sp, span', lower', -, -⟩ := rest.span_of_walkOrder later
        rw [Node.start_of_span span', nStart]
        omega
    · obtain ⟨-, sp, span', -, inside, upper'⟩ := bodyTiles.span_of_walkOrder inBody
      obtain ⟨-, sp', span'', lower', -, -⟩ := rest.span_of_walkOrder later
      rw [Node.start_of_span span', Node.start_of_span span'']
      omega

/-- In a tiling, every node of a body the walk meets lies inside the range of the node
whose body it is. -/
theorem Tiles.walkOrder_body_within {ns : List Node} {a b : Nat} (tiles : Tiles cs a b ns)
    {n : Node} (mem : n ∈ walkOrder ns) {m : Node} (inner : m ∈ walkOrder n.body) :
    n.start ≤ m.start ∧ m.stop ≤ n.stop := by
  obtain ⟨placed, sp, span, -⟩ := tiles.span_of_walkOrder mem
  obtain ⟨a', b', lower, upper, bodyTiles⟩ := placed.body_within span
  obtain ⟨-, sp', span', lower', -, upper'⟩ := bodyTiles.span_of_walkOrder inner
  rw [Node.start_of_span span, Node.stop_of_span span, Node.start_of_span span',
    Node.stop_of_span span']
  omega

/-! ## Bodies start after their nodes -/

namespace Reader

variable (r : Reader)

/-- A sequence read at budget `d` adds nodes that open before their bodies to nodes that
do. -/
def SeqOpens (d : Nat) : Prop :=
  ∀ {stop envs acc c nodes found c'}, r.readSeq d stop envs acc c = .ok ((nodes, found), c') →
    (∀ x ∈ walkOrder acc.toList, x.Opens) → ∀ x ∈ walkOrder nodes, x.Opens

/-- The node read at the cursor opens before its body, all the way down. -/
def ItemOpens (d : Nat) : Prop :=
  ∀ {stop envs c node c'}, r.readItem d stop envs c = .ok (node, c') →
    ∀ x ∈ walkOrder [node], x.Opens

/-- A control sequence read at a backslash opens before its body, all the way down. -/
def ControlOpens (d : Nat) : Prop :=
  ∀ {envs c node c'}, r.readControl d envs c = .ok (node, c') →
    r.chars[c.pos]? = some '\\' → ∀ x ∈ walkOrder [node], x.Opens

/-- An environment whose begin marker ends at the cursor opens before its body, all the way
down. -/
def EnvironmentOpens (d : Nat) : Prop :=
  ∀ {envs start name c node c'}, r.readEnvironment d envs start name c = .ok (node, c') →
    start < c.pos → c.pos ≤ r.chars.size → ∀ x ∈ walkOrder [node], x.Opens

/-- What the reading functions that build nodes with bodies guarantee at budget `d`. -/
structure OpensAt (d : Nat) : Prop where
  seq : r.SeqOpens d
  control : r.ControlOpens d
  environment : r.EnvironmentOpens d

/-- With no budget left every reading function refuses, so nothing is built. -/
theorem opensAt_zero : r.OpensAt 0 where
  seq := fun read => by rw [readSeq] at read; cases read
  control := fun read => by rw [readControl] at read; cases read
  environment := fun read => by rw [readEnvironment] at read; cases read

variable {r}

/-- A body read by a sequence from past an opener at `p` starts after `p`, and its nodes
open before their bodies. -/
theorem body_opens {d : Nat} (seq : r.SeqOpens d) {stop : Stop} {envs : List String}
    {u : List Opener} {body : List Node} {found : Bool} {c' : Cursor} {q0 : Nat} (p : Nat)
    (read : r.readSeq d stop envs #[] ⟨q0, u⟩ = .ok ((body, found), c'))
    (opened : p < q0) (inside : q0 ≤ r.chars.size) :
    (∀ b ∈ body, p < b.start) ∧ ∀ x ∈ walkOrder body, x.Opens := by
  obtain ⟨q, tiles, -⟩ := (placedAt r d).seq read inside (rfl : Tiles r.chars q0 q0 [])
  refine ⟨fun b mem => ?_, seq read (by simp)⟩
  obtain ⟨sp, span, lower, -⟩ := tiles.span_of_mem mem
  rw [Node.start_of_span span]
  omega

theorem readItem_opens {d : Nat} (h : r.OpensAt d) : r.ItemOpens d := by
  intro stop envs c node c' read
  unfold readItem at read
  dsimp only at read
  split at read
  · cases read
    exact opens_of_leaf rfl
  · rename_i ch at_p
    have inside : c.pos < r.chars.size := (Array.getElem?_eq_some_iff.mp at_p).1
    split at read
    · cases read
      exact opens_of_leaf rfl
    · split at read
      · cases read
        split <;> exact opens_of_leaf rfl
      · split at read
        · subst_vars
          exact h.control read at_p
        · split at read
          · -- mathematics between single or double dollar signs
            split at read
            · rename_i doubled
              have opener := startsAt_le (Nat.le_of_lt inside) doubled
              have two : "$$".toList.length = 2 := by decide
              rw [two] at opener
              obtain ⟨body, found, bodyRead, rfl⟩ := around_ok read
              obtain ⟨later, inner⟩ := body_opens h.seq c.pos bodyRead (by omega) (by omega)
              exact opens_of_body later inner
            · obtain ⟨body, found, bodyRead, rfl⟩ := around_ok read
              obtain ⟨later, inner⟩ := body_opens h.seq c.pos bodyRead (by omega) (by omega)
              exact opens_of_body later inner
          · split at read
            · -- a braced group
              obtain ⟨body, found, bodyRead, rfl⟩ := around_ok read
              obtain ⟨later, inner⟩ := body_opens h.seq c.pos bodyRead (by omega) (by omega)
              exact opens_of_body later inner
            · split at read
              · cases read
                exact opens_of_leaf rfl
              · cases read
                exact opens_of_leaf rfl

/-- A sequence at budget `d + 1` adds one node after another, each read at budget `d`. By
induction on the text left. -/
theorem readSeq_opens_from {d : Nat} (item : r.ItemOpens d) {stop : Stop}
    {envs : List String} {acc : Array Node} {c : Cursor} {nodes : List Node} {found : Bool}
    {c' : Cursor} (read : r.readSeq (d + 1) stop envs acc c = .ok ((nodes, found), c'))
    (before : ∀ x ∈ walkOrder acc.toList, x.Opens) : ∀ x ∈ walkOrder nodes, x.Opens := by
  rw [readSeq] at read
  split at read
  · split at read
    · cases read
      exact before
    · split at read
      · cases read
      · rename_i node c1 readOne
        split at read
        · refine readSeq_opens_from item read fun x mem => ?_
          rw [Array.toList_push, walkOrder_append, List.mem_append] at mem
          rcases mem with earlier | last
          · exact before x earlier
          · exact item readOne x last
        · cases read
          exact before
  · cases read
    exact before
termination_by r.chars.size - c.pos

theorem readControl_opens {d : Nat} (h : r.OpensAt d) : r.ControlOpens (d + 1) := by
  intro envs c node c' read backslash
  rw [readControl] at read
  dsimp only at read
  split at read
  · cases read
    exact opens_of_leaf rfl
  · rename_i name next named
    have after : c.pos < next ∧ next ≤ r.chars.size := by
      split at named
      · cases named
        have := nameEnd_bounds ‹_›
        omega
      · obtain ⟨ch, at_next, pair⟩ := Option.map_eq_some_iff.mp named
        cases pair
        have := (Array.getElem?_eq_some_iff.mp at_next).1
        omega
    split at read
    · -- a begin marker with a braced name opens an environment
      rename_i envName afterName begun
      split at begun
      · have := bracedName_bounds begun
        exact h.environment read (by dsimp only; omega) this.2
      · cases begun
    · split at read
      · -- inline mathematics up to `\)`
        obtain ⟨body, found, bodyRead, rfl⟩ := around_ok read
        obtain ⟨later, inner⟩ := body_opens h.seq c.pos bodyRead after.1 after.2
        exact opens_of_body later inner
      · split at read
        · -- display mathematics up to `\]`
          obtain ⟨body, found, bodyRead, rfl⟩ := around_ok read
          obtain ⟨later, inner⟩ := body_opens h.seq c.pos bodyRead after.1 after.2
          exact opens_of_body later inner
        · split at read
          · -- inline raw text has no body
            have verbRead : r.readVerb c.pos next =
                ((r.readVerb c.pos next).1, (r.readVerb c.pos next).2) := rfl
            cases read
            obtain ⟨-, -, shape⟩ := readVerb_bounds verbRead after.1 after.2
            rcases shape with ⟨delim, content, shaped⟩ | shaped <;> rw [shaped] <;>
              exact opens_of_leaf rfl
          · split at read
            · cases read
            · cases read
              exact opens_of_leaf rfl

theorem readEnvironment_opens {d : Nat} (h : r.OpensAt d) :
    r.EnvironmentOpens (d + 1) := by
  intro envs start name c node c' read opened inside
  rw [readEnvironment] at read
  dsimp only at read
  split at read
  · cases read
    exact opens_of_leaf rfl
  · split at read
    · cases read
    · rename_i args c1 argsRead
      obtain ⟨-, afterBegin, argsInside⟩ :=
        (placedAt r d).args argsRead inside (Nat.le_of_lt opened) (by exact trivial)
      split at read
      · cases read
      · rename_i body found c2 bodyRead
        obtain ⟨later, inner⟩ := body_opens h.seq start bodyRead (by omega) argsInside
        split at read
        · cases read
          exact opens_of_body later inner
        · cases read
          exact opens_of_body later inner

/-- The guarantees at budget `d` give those at budget `d + 1`. -/
theorem OpensAt.succ {d : Nat} (h : r.OpensAt d) : r.OpensAt (d + 1) where
  seq := fun read before => readSeq_opens_from (readItem_opens h) read before
  control := readControl_opens h
  environment := readEnvironment_opens h

/-- Every reading function builds nodes that open before their bodies, at every budget. -/
theorem opensAt (r : Reader) : ∀ d, r.OpensAt d
  | 0 => r.opensAt_zero
  | d + 1 => (opensAt r d).succ

end Reader

/-! ## Whole texts -/

/-- A text that reads without error has its nodes met by a walk in the order of the text:
every node the walk meets is read from the text, each starts strictly after the ones met
before it, and every node of a body lies inside the range of its node. -/
theorem parse_walk_ordered {g : Grammar} {text : String} {nodes : List Node}
    (parsed : parse g text = .ok nodes) :
    (∀ x ∈ walkOrder nodes, ∃ sp, x.span? = some sp) ∧
      (walkOrder nodes).Pairwise (·.start < ·.start) ∧
      ∀ n ∈ walkOrder nodes, ∀ m ∈ walkOrder n.body, n.start ≤ m.start ∧ m.stop ≤ n.stop := by
  let r : Reader := ⟨text.toList.toArray, g, true⟩
  obtain ⟨found, c', read⟩ := parseWith_ok parsed
  have tiles := (parse_tiles parsed).1
  have opens : ∀ x ∈ walkOrder nodes, x.Opens :=
    (Reader.opensAt r depthBudget).seq read (by simp)
  refine ⟨fun x mem => ?_, tiles.walkOrder_starts opens, fun n mem m inner =>
    tiles.walkOrder_body_within mem inner⟩
  obtain ⟨-, sp, span, -⟩ := tiles.span_of_walkOrder mem
  exact ⟨sp, span⟩

end TexToc.Markup
