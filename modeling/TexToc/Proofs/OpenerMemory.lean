import Mathlib
import TexToc.Markup.Parser

/-!
# Remembering unclosed openers changes no tree

A remembering reader notes each optional-argument opener whose closing mark it failed to
find, keyed by the opener's index, its closing mark and the open environments, and does not
read from that opener again. This module shows that the note is never wrong: the plain
reader, which reads from every opener each time it reaches it, reads the same nodes as the
remembering one whenever both succeed.

A noted opener is unclosable in a strong sense (`Reader.Unclosable`): a sequence read by the
plain reader from just past it never stops at its closing mark, at any depth budget and from
any memory. `Reader.Agrees` says what a remembering reading owes the plain one: from a sound
memory it leaves a sound memory, and every plain reading from the same index that succeeds
gives the same value and stops at the same index. The plain side ranges over every budget
because an opener noted deep inside the text, at a small budget, is consulted later at a
larger one.

`AgreesAt r d` collects this for every reading function at budget `d`; it holds at budget
`0`, where the remembering reader refuses, and `AgreesAt.succ` carries it one budget up, one
lemma per function. The opener itself is `readDelimited_agrees`. `parse_eq_plain` is the
statement for whole texts.
-/

namespace TexToc.Markup

open Scan Text

namespace Reader

/-- The same reader, reading from every optional-argument opener each time it reaches it. -/
def plain (r : Reader) : Reader := { r with remembers := false }

variable (r : Reader)

@[simp] theorem plain_chars : r.plain.chars = r.chars := rfl
@[simp] theorem plain_grammar : r.plain.grammar = r.grammar := rfl
@[simp] theorem plain_remembers : r.plain.remembers = false := rfl
@[simp] theorem plain_stopsAt : r.plain.stopsAt = r.stopsAt := rfl
@[simp] theorem plain_readVerb : r.plain.readVerb = r.readVerb := rfl
@[simp] theorem plain_readVerbatimBody : r.plain.readVerbatimBody = r.readVerbatimBody := rfl

/-- An opener of one character whose argument the plain reader never finds closed: a
sequence read from just past it never stops at the closing mark, at any budget and from any
memory. -/
def Unclosable (key : Opener) : Prop :=
  ∀ d c₀ body c', c₀.pos = key.1 + 1 →
    r.plain.readSeq d (.mark key.2.1) key.2.2 #[] c₀ ≠ .ok ((body, true), c')

/-- A memory is sound when every opener in it is unclosable. -/
def Sound (u : List Opener) : Prop := ∀ key ∈ u, r.Unclosable key

/-- What a remembering reading `m` from the cursor `c` owes the plain readings `p d' c₀`
from the index of `c`: when `m` succeeds from a sound memory it leaves a sound memory, and
every plain reading that succeeds, at any budget `d'` and from any memory, gives the same
value and stops at the same index. -/
def Agrees {α : Type} (m : Parse α) (c : Cursor) (p : Nat → Cursor → Parse α) : Prop :=
  ∀ {v c'}, m = .ok (v, c') → r.Sound c.unclosed →
    r.Sound c'.unclosed ∧
      ∀ {d' c₀ w c''}, c₀.pos = c.pos → p d' c₀ = .ok (w, c'') →
        w = v ∧ c''.pos = c'.pos

/-- Sequences read at budget `d` agree. -/
def SeqAgrees (d : Nat) : Prop :=
  ∀ stop envs acc c, r.Agrees (r.readSeq d stop envs acc c) c
    fun d' c₀ => r.plain.readSeq d' stop envs acc c₀

/-- Nodes read at budget `d` agree. -/
def ItemAgrees (d : Nat) : Prop :=
  ∀ stop envs c, r.Agrees (r.readItem d stop envs c) c
    fun d' c₀ => r.plain.readItem d' stop envs c₀

/-- Control sequences read at budget `d` agree. -/
def ControlAgrees (d : Nat) : Prop :=
  ∀ envs c, r.Agrees (r.readControl d envs c) c fun d' c₀ => r.plain.readControl d' envs c₀

/-- Environments read at budget `d` agree. -/
def EnvironmentAgrees (d : Nat) : Prop :=
  ∀ envs start name c, r.Agrees (r.readEnvironment d envs start name c) c
    fun d' c₀ => r.plain.readEnvironment d' envs start name c₀

/-- Argument lists read at budget `d` agree. -/
def ArgsAgrees (d : Nat) : Prop :=
  ∀ envs sig acc c, r.Agrees (r.readArgs d envs sig acc c) c
    fun d' c₀ => r.plain.readArgs d' envs sig acc c₀

/-- Argument slots read at budget `d` agree. -/
def SlotAgrees (d : Nat) : Prop :=
  ∀ envs spec c, r.Agrees (r.readSlot d envs spec c) c
    fun d' c₀ => r.plain.readSlot d' envs spec c₀

/-- Optional arguments with an opener of one character, read at budget `d`, agree. -/
def DelimitedAgrees (d : Nat) : Prop :=
  ∀ envs openMark closeMark c, openMark.length = 1 →
    r.Agrees (r.readDelimited d envs openMark closeMark c) c
      fun d' c₀ => r.plain.readDelimited d' envs openMark closeMark c₀

/-- Braced arguments read at budget `d` agree. -/
def BraceArgAgrees (d : Nat) : Prop :=
  ∀ envs required c, r.Agrees (r.readBraceArg d envs required c) c
    fun d' c₀ => r.plain.readBraceArg d' envs required c₀

/-- What the reading functions owe the plain reader at budget `d`. -/
structure AgreesAt (d : Nat) : Prop where
  seq : r.SeqAgrees d
  control : r.ControlAgrees d
  environment : r.EnvironmentAgrees d
  args : r.ArgsAgrees d
  delimited : r.DelimitedAgrees d
  braceArg : r.BraceArgAgrees d

/-- With no budget left the remembering reader refuses, so it owes nothing. -/
theorem agreesAt_zero : r.AgreesAt 0 where
  seq := fun _ _ _ _ _ _ read => by rw [readSeq] at read; cases read
  control := fun _ _ _ _ read => by rw [readControl] at read; cases read
  environment := fun _ _ _ _ _ _ read => by rw [readEnvironment] at read; cases read
  args := fun _ _ _ _ _ _ read => by rw [readArgs] at read; cases read
  delimited := fun _ _ _ _ _ _ _ read => by rw [readDelimited] at read; cases read
  braceArg := fun _ _ _ _ _ read => by rw [readBraceArg] at read; cases read

variable {r}

theorem Sound.cons {key : Opener} {u : List Opener} (first : r.Unclosable key)
    (rest : r.Sound u) : r.Sound (key :: u) := by
  intro k mem
  rcases List.mem_cons.mp mem with rfl | later
  · exact first
  · exact rest k later

/-- A reading whose plain counterpart refuses at budget `0` agrees when it agrees with the
plain readings at every budget `d' + 1`. -/
theorem Agrees.of_succ {α : Type} {m : Parse α} {c : Cursor} {p : Nat → Cursor → Parse α}
    (zero : ∀ c₀, p 0 c₀ = .error .tooDeep)
    (succ : ∀ {v c'}, m = .ok (v, c') → r.Sound c.unclosed → r.Sound c'.unclosed ∧
      ∀ {d' c₀ w c''}, c₀.pos = c.pos → p (d' + 1) c₀ = .ok (w, c'') →
        w = v ∧ c''.pos = c'.pos) :
    r.Agrees m c p := by
  intro v c' read sound
  obtain ⟨sound', agree⟩ := succ read sound
  refine ⟨sound', ?_⟩
  intro d' c₀ w c'' same plainRead
  cases d' with
  | zero => rw [zero] at plainRead; cases plainRead
  | succ d' => exact agree same plainRead

/-- A node agrees: the remembering and the plain reader take the same branch at the same
index, and a nested construct agrees by the guarantee at the same budget. -/
theorem readItem_agrees {d : Nat} (h : r.AgreesAt d) : r.ItemAgrees d := by
  intro stop envs c v c' read sound
  dsimp only
  rw [readItem] at read
  dsimp only at read
  split at read
  · -- nothing at the cursor
    rename_i nothing
    cases read
    refine ⟨sound, ?_⟩
    intro d' c₀ w c'' same plainRead
    rw [readItem] at plainRead
    simp only [plain_chars, same, nothing] at plainRead
    cases plainRead
    exact ⟨rfl, same⟩
  · rename_i ch at_p
    split at read
    · -- a comment
      rename_i percent
      cases read
      refine ⟨sound, ?_⟩
      intro d' c₀ w c'' same plainRead
      rw [readItem] at plainRead
      simp only [plain_chars, same, at_p, eq_true percent, ↓reduceIte] at plainRead
      cases plainRead
      exact ⟨rfl, rfl⟩
    · rename_i notPercent
      split at read
      · -- blanks
        rename_i layout
        cases read
        refine ⟨sound, ?_⟩
        intro d' c₀ w c'' same plainRead
        rw [readItem] at plainRead
        simp only [plain_chars, same, at_p, notPercent, layout, ↓reduceIte] at plainRead
        cases plainRead
        exact ⟨rfl, rfl⟩
      · rename_i notLayout
        split at read
        · -- a control sequence
          rename_i backslash
          refine ⟨(h.control envs c read sound).1, ?_⟩
          intro d' c₀ w c'' same plainRead
          rw [readItem] at plainRead
          simp only [plain_chars, same, at_p, notPercent, notLayout, Bool.false_eq_true,
            eq_true backslash, ↓reduceIte] at plainRead
          exact (h.control envs c read sound).2 same plainRead
        · rename_i notBackslash
          split at read
          · rename_i dollar
            split at read
            · -- display mathematics
              rename_i doubled
              obtain ⟨body, found, bodyRead, rfl⟩ := around_ok read
              obtain ⟨sound₁, agree⟩ := h.seq _ envs #[] _ bodyRead sound
              refine ⟨sound₁, ?_⟩
              intro d' c₀ w c'' same plainRead
              rw [readItem] at plainRead
              simp only [plain_chars, same, at_p, notPercent, notLayout, Bool.false_eq_true,
                notBackslash, eq_true dollar, doubled, ↓reduceIte] at plainRead
              obtain ⟨body', found', plainBody, rfl⟩ := around_ok plainRead
              obtain ⟨sameBody, samePos⟩ := agree (by rfl) plainBody
              cases sameBody
              exact ⟨by rw [samePos], samePos⟩
            · -- inline mathematics
              rename_i single
              obtain ⟨body, found, bodyRead, rfl⟩ := around_ok read
              obtain ⟨sound₁, agree⟩ := h.seq _ envs #[] _ bodyRead sound
              refine ⟨sound₁, ?_⟩
              intro d' c₀ w c'' same plainRead
              rw [readItem] at plainRead
              simp only [plain_chars, same, at_p, notPercent, notLayout, Bool.false_eq_true,
                notBackslash, eq_true dollar, single, ↓reduceIte] at plainRead
              obtain ⟨body', found', plainBody, rfl⟩ := around_ok plainRead
              obtain ⟨sameBody, samePos⟩ := agree (by rfl) plainBody
              cases sameBody
              exact ⟨by rw [samePos], samePos⟩
          · rename_i notDollar
            split at read
            · -- a braced group
              rename_i brace
              obtain ⟨body, found, bodyRead, rfl⟩ := around_ok read
              obtain ⟨sound₁, agree⟩ := h.seq _ envs #[] _ bodyRead sound
              refine ⟨sound₁, ?_⟩
              intro d' c₀ w c'' same plainRead
              rw [readItem] at plainRead
              simp only [plain_chars, same, at_p, notPercent, notLayout, Bool.false_eq_true,
                notBackslash, notDollar, eq_true brace, ↓reduceIte] at plainRead
              obtain ⟨body', found', plainBody, rfl⟩ := around_ok plainRead
              obtain ⟨sameBody, samePos⟩ := agree (by rfl) plainBody
              cases sameBody
              exact ⟨by rw [samePos], samePos⟩
            · rename_i notBrace
              split at read
              · -- an unbalanced closing brace
                rename_i closing
                cases read
                refine ⟨sound, ?_⟩
                intro d' c₀ w c'' same plainRead
                rw [readItem] at plainRead
                simp only [plain_chars, same, at_p, notPercent, notLayout, Bool.false_eq_true,
                  notBackslash, notDollar, notBrace, eq_true closing, ↓reduceIte] at plainRead
                cases plainRead
                exact ⟨rfl, rfl⟩
              · -- a run of text
                rename_i notClosing
                cases read
                refine ⟨sound, ?_⟩
                intro d' c₀ w c'' same plainRead
                rw [readItem] at plainRead
                simp only [plain_chars, same, at_p, notPercent, notLayout, Bool.false_eq_true,
                  notBackslash, notDollar, notBrace, notClosing, ↓reduceIte] at plainRead
                cases plainRead
                exact ⟨rfl, rfl⟩

/-- A sequence at budget `d + 1` agrees when the nodes it reads at budget `d` do. By
induction on the text left: at each index both readers stop, or read the same node and go on
from the same index. -/
theorem readSeq_agrees_from {d : Nat} (item : r.ItemAgrees d) (stop : Stop)
    (envs : List String) (acc : Array Node) (c : Cursor) :
    r.Agrees (r.readSeq (d + 1) stop envs acc c) c
      fun d' c₀ => r.plain.readSeq d' stop envs acc c₀ := by
  refine Agrees.of_succ (fun _ => by rw [readSeq]) ?_
  intro v c' read sound
  rw [readSeq] at read
  split at read
  · rename_i unread
    split at read
    · -- the stop stands at the cursor
      rename_i found next stops
      cases read
      refine ⟨sound, ?_⟩
      intro d' c₀ w c'' same plainRead
      rw [readSeq] at plainRead
      simp only [plain_chars, plain_stopsAt, same, unread, stops, ↓reduceIte] at plainRead
      cases plainRead
      exact ⟨rfl, rfl⟩
    · rename_i open_
      split at read
      · cases read
      · rename_i node c₁ itemRead
        obtain ⟨sound₁, agree₁⟩ := item stop envs c itemRead sound
        split at read
        · -- the cursor moved, and the rest agrees by induction
          rename_i moved
          obtain ⟨sound', agree'⟩ :=
            readSeq_agrees_from item stop envs (acc.push node) c₁ read sound₁
          refine ⟨sound', ?_⟩
          intro d' c₀ w c'' same plainRead
          rw [readSeq] at plainRead
          simp only [plain_chars, plain_stopsAt, same, unread, open_, ↓reduceIte] at plainRead
          split at plainRead
          · cases plainRead
          · rename_i node' c₁' plainItem
            obtain ⟨rfl, at₁⟩ := agree₁ same plainItem
            rw [at₁, if_pos moved] at plainRead
            exact agree' at₁ plainRead
        · -- the cursor stayed, and the sequence ends there
          rename_i stuck
          cases read
          refine ⟨sound₁, ?_⟩
          intro d' c₀ w c'' same plainRead
          rw [readSeq] at plainRead
          simp only [plain_chars, plain_stopsAt, same, unread, open_, ↓reduceIte] at plainRead
          split at plainRead
          · cases plainRead
          · rename_i node' c₁' plainItem
            obtain ⟨rfl, at₁⟩ := agree₁ same plainItem
            rw [at₁, if_neg stuck] at plainRead
            cases plainRead
            exact ⟨rfl, at₁⟩
  · -- the end of the text
    rename_i past
    cases read
    refine ⟨sound, ?_⟩
    intro d' c₀ w c'' same plainRead
    rw [readSeq] at plainRead
    simp only [plain_chars, same, past, ↓reduceIte] at plainRead
    cases plainRead
    exact ⟨rfl, same⟩
termination_by r.chars.size - c.pos

/-- A control sequence agrees: both readers read the same name and take the same branch. -/
theorem readControl_agrees {d : Nat} (h : r.AgreesAt d) : r.ControlAgrees (d + 1) := by
  intro envs c
  refine Agrees.of_succ (fun _ => by rw [readControl]) ?_
  intro v c' read sound
  rw [readControl] at read
  dsimp only at read
  split at read
  · -- a backslash that ends the text
    rename_i unnamed
    cases read
    refine ⟨sound, ?_⟩
    intro d' c₀ w c'' same plainRead
    rw [readControl] at plainRead
    simp only [plain_chars, same, unnamed] at plainRead
    cases plainRead
    exact ⟨rfl, rfl⟩
  · rename_i name next named
    split at read
    · -- an environment
      rename_i envName after begun
      obtain ⟨sound', agree⟩ := h.environment envs c.pos envName _ read sound
      refine ⟨sound', ?_⟩
      intro d' c₀ w c'' same plainRead
      rw [readControl] at plainRead
      simp only [plain_chars, same, named, begun] at plainRead
      exact agree (by rfl) plainRead
    · rename_i unbegun
      split at read
      · -- inline mathematics
        rename_i paren
        obtain ⟨body, found, bodyRead, rfl⟩ := around_ok read
        obtain ⟨sound₁, agree⟩ := h.seq _ envs #[] _ bodyRead sound
        refine ⟨sound₁, ?_⟩
        intro d' c₀ w c'' same plainRead
        rw [readControl] at plainRead
        simp only [plain_chars, same, named, unbegun, eq_true paren, ↓reduceIte] at plainRead
        obtain ⟨body', found', plainBody, rfl⟩ := around_ok plainRead
        obtain ⟨sameBody, samePos⟩ := agree (by rfl) plainBody
        cases sameBody
        exact ⟨by rw [samePos], samePos⟩
      · rename_i notParen
        split at read
        · -- display mathematics
          rename_i bracket
          obtain ⟨body, found, bodyRead, rfl⟩ := around_ok read
          obtain ⟨sound₁, agree⟩ := h.seq _ envs #[] _ bodyRead sound
          refine ⟨sound₁, ?_⟩
          intro d' c₀ w c'' same plainRead
          rw [readControl] at plainRead
          simp only [plain_chars, same, named, unbegun, notParen, eq_true bracket, ↓reduceIte]
            at plainRead
          obtain ⟨body', found', plainBody, rfl⟩ := around_ok plainRead
          obtain ⟨sameBody, samePos⟩ := agree (by rfl) plainBody
          cases sameBody
          exact ⟨by rw [samePos], samePos⟩
        · rename_i notBracket
          split at read
          · -- inline raw text
            rename_i verb
            cases read
            refine ⟨sound, ?_⟩
            intro d' c₀ w c'' same plainRead
            rw [readControl] at plainRead
            simp only [plain_chars, plain_readVerb, same, named, unbegun, notParen, notBracket,
              eq_true verb, ↓reduceIte] at plainRead
            cases plainRead
            exact ⟨rfl, rfl⟩
          · -- the arguments of the signature
            rename_i notVerb
            split at read
            · cases read
            · rename_i args c₂ argsRead
              cases read
              obtain ⟨sound₂, agree⟩ := h.args envs _ #[] _ argsRead sound
              refine ⟨sound₂, ?_⟩
              intro d' c₀ w c'' same plainRead
              rw [readControl] at plainRead
              simp only [plain_chars, plain_grammar, same, named, unbegun, notParen, notBracket,
                notVerb, ↓reduceIte] at plainRead
              split at plainRead
              · cases plainRead
              · rename_i args' c₂' plainArgs
                cases plainRead
                obtain ⟨rfl, samePos⟩ := agree (by rfl) plainArgs
                exact ⟨by rw [samePos], samePos⟩

/-- An environment agrees: both readers read the same arguments and then the same body. -/
theorem readEnvironment_agrees {d : Nat} (h : r.AgreesAt d) :
    r.EnvironmentAgrees (d + 1) := by
  intro envs start name c
  refine Agrees.of_succ (fun _ => by rw [readEnvironment]) ?_
  intro v c' read sound
  rw [readEnvironment] at read
  dsimp only at read
  split at read
  · -- a raw-text environment
    rename_i verbatim
    cases read
    refine ⟨sound, ?_⟩
    intro d' c₀ w c'' same plainRead
    rw [readEnvironment] at plainRead
    simp only [plain_readVerbatimBody, same, verbatim, ↓reduceIte] at plainRead
    cases plainRead
    exact ⟨rfl, rfl⟩
  · rename_i notVerbatim
    split at read
    · cases read
    · rename_i args c₁ argsRead
      obtain ⟨sound₁, agreeArgs⟩ := h.args _ _ #[] c argsRead sound
      split at read
      · cases read
      · rename_i body found c₂ bodyRead
        obtain ⟨sound₂, agreeBody⟩ := h.seq _ _ #[] c₁ bodyRead sound₁
        have built : c' = c₂ := by split at read <;> cases read <;> rfl
        refine ⟨built ▸ sound₂, ?_⟩
        intro d' c₀ w c'' same plainRead
        rw [readEnvironment] at plainRead
        simp only [plain_grammar, notVerbatim, Bool.false_eq_true, ↓reduceIte] at plainRead
        split at plainRead
        · cases plainRead
        · rename_i args' c₁' plainArgs
          obtain ⟨rfl, at₁⟩ := agreeArgs same plainArgs
          split at plainRead
          · cases plainRead
          · rename_i body' found' c₂' plainBody
            obtain ⟨sameBody, at₂⟩ := agreeBody at₁ plainBody
            cases sameBody
            by_cases math : mathEnvironments.contains name = true
            · simp only [math, ↓reduceIte] at read plainRead
              cases read
              cases plainRead
              exact ⟨by rw [at₂], at₂⟩
            · simp only [math, Bool.false_eq_true, ↓reduceIte] at read plainRead
              cases read
              cases plainRead
              exact ⟨by rw [at₂], at₂⟩

/-- An optional argument agrees. This is where the memory is read and written: a
remembered opener is unclosable, so the plain reader, reading from it again, finds it
unclosed again; and an opener the remembering reader finds unclosed is one the plain reader
never finds closed, since their readings from it agree. -/
theorem readDelimited_agrees {d : Nat} (h : r.AgreesAt d) : r.DelimitedAgrees (d + 1) := by
  intro envs openMark closeMark c single
  refine Agrees.of_succ (fun _ => by rw [readDelimited]) ?_
  intro v c' read sound
  rw [readDelimited] at read
  dsimp only at read
  split at read
  · -- no opener at the cursor
    rename_i missing
    cases read
    refine ⟨sound, ?_⟩
    intro d' c₀ w c'' same plainRead
    rw [readDelimited] at plainRead
    simp only [plain_chars, same, missing, ↓reduceIte] at plainRead
    cases plainRead
    exact ⟨rfl, same⟩
  · rename_i opens
    split at read
    · -- a remembered opener, or no closing mark ahead
      rename_i skipped
      cases read
      refine ⟨sound, ?_⟩
      intro d' c₀ w c'' same plainRead
      rw [readDelimited] at plainRead
      simp only [plain_chars, plain_remembers, same, opens, Bool.false_and, Bool.false_or,
        Bool.false_eq_true, ↓reduceIte] at plainRead
      split at plainRead
      · cases plainRead
        exact ⟨rfl, same⟩
      · -- the plain reader reads from a remembered opener and finds it unclosed again
        rename_i ahead
        have remembered : (c.pos, closeMark, envs) ∈ c.unclosed := by
          simp only [Bool.or_eq_true, Bool.and_eq_true, List.contains_iff_mem] at skipped
          rcases skipped with ⟨-, mem⟩ | none
          · exact mem
          · exact absurd none ahead
        split at plainRead
        · cases plainRead
        · rename_i body closed c₃ plainScan
          cases closed
          · simp only [Bool.false_eq_true, ↓reduceIte] at plainRead
            cases plainRead
            exact ⟨rfl, rfl⟩
          · exact absurd plainScan
              (sound _ remembered d' _ body c₃ (show c.pos + openMark.length = c.pos + 1 by
                rw [single]))
    · -- both readers read the argument
      rename_i unskipped
      have ahead :
          ¬(findSeq r.chars closeMark.toList (c.pos + openMark.length)).isNone = true := by
        simp only [Bool.or_eq_true, not_or] at unskipped
        exact unskipped.2
      split at read
      · cases read
      · rename_i body closed c₃ scanRead
        obtain ⟨sound₃, agreeScan⟩ := h.seq _ envs #[] _ scanRead sound
        -- the plain reader scans from the same index and finds what the remembering one found
        have plainScans : ∀ {d' c₀ w c''}, c₀.pos = c.pos →
            r.plain.readDelimited (d' + 1) envs openMark closeMark c₀ = .ok (w, c'') →
            c''.pos = (if closed then c₃.pos else c.pos) ∧
              w = (if closed then .mk openMark closeMark body else Arg.empty) := by
          intro d' c₀ w c'' same plainRead
          rw [readDelimited] at plainRead
          simp only [plain_chars, plain_remembers, same, opens, ahead, Bool.false_and,
            Bool.false_or, Bool.false_eq_true, ↓reduceIte] at plainRead
          split at plainRead
          · cases plainRead
          · rename_i body' closed' c₃' plainScan
            obtain ⟨sameOutcome, at₃⟩ := agreeScan (by rfl) plainScan
            cases sameOutcome
            cases closed
            · simp only [Bool.false_eq_true, ↓reduceIte] at plainRead ⊢
              cases plainRead
              exact ⟨rfl, rfl⟩
            · simp only [↓reduceIte] at plainRead ⊢
              cases plainRead
              exact ⟨at₃, rfl⟩
        cases closed
        · -- unclosed: the remembering reader notes the opener
          cases read
          have noted : r.Unclosable (c.pos, closeMark, envs) := by
            intro d' c₀ body' c₄ at₀ plainScan
            have reached : c₀.pos = c.pos + openMark.length := by rw [at₀, single]
            exact absurd (agreeScan reached plainScan).1 (by simp)
          refine ⟨?_, fun same plainRead => ?_⟩
          · show r.Sound
              (if r.remembers then (c.pos, closeMark, envs) :: c₃.unclosed else c₃.unclosed)
            split
            · exact Sound.cons noted sound₃
            · exact sound₃
          · obtain ⟨at₀, rfl⟩ := plainScans same plainRead
            exact ⟨rfl, at₀⟩
        · -- closed
          cases read
          refine ⟨sound₃, fun same plainRead => ?_⟩
          obtain ⟨at₃, rfl⟩ := plainScans same plainRead
          exact ⟨rfl, at₃⟩

/-- A braced argument agrees: both readers skip the same layout and read the same thing. -/
theorem readBraceArg_agrees {d : Nat} (h : r.AgreesAt d) : r.BraceArgAgrees (d + 1) := by
  intro envs required c
  refine Agrees.of_succ (fun _ => by rw [readBraceArg]) ?_
  intro v c' read sound
  rw [readBraceArg] at read
  split at read
  · -- nothing after the layout
    rename_i nothing
    cases read
    refine ⟨sound, ?_⟩
    intro d' c₀ w c'' same plainRead
    rw [readBraceArg] at plainRead
    simp only [plain_chars, same, nothing] at plainRead
    cases plainRead
    exact ⟨rfl, same⟩
  · rename_i ch at_p
    split at read
    · -- a braced argument
      rename_i brace
      obtain ⟨body, found, bodyRead, rfl⟩ := around_ok read
      obtain ⟨sound₁, agree⟩ := h.seq _ envs #[] _ bodyRead sound
      refine ⟨sound₁, ?_⟩
      intro d' c₀ w c'' same plainRead
      rw [readBraceArg] at plainRead
      simp only [plain_chars, same, at_p, eq_true brace, ↓reduceIte] at plainRead
      obtain ⟨body', found', plainBody, rfl⟩ := around_ok plainRead
      obtain ⟨sameBody, samePos⟩ := agree (by rfl) plainBody
      cases sameBody
      exact ⟨rfl, samePos⟩
    · rename_i notBrace
      split at read
      · rename_i bare
        split at read
        · -- a bare control sequence
          rename_i backslash
          split at read
          · cases read
          · rename_i node c₁ controlRead
            cases read
            obtain ⟨sound₁, agree⟩ := h.control envs _ controlRead sound
            refine ⟨sound₁, ?_⟩
            intro d' c₀ w c'' same plainRead
            rw [readBraceArg] at plainRead
            simp only [plain_chars, same, at_p, notBrace, bare, eq_true backslash, ↓reduceIte]
              at plainRead
            split at plainRead
            · cases plainRead
            · rename_i node' c₁' plainControl
              cases plainRead
              obtain ⟨rfl, samePos⟩ := agree (by rfl) plainControl
              exact ⟨rfl, samePos⟩
        · -- a bare character
          rename_i notBackslash
          cases read
          refine ⟨sound, ?_⟩
          intro d' c₀ w c'' same plainRead
          rw [readBraceArg] at plainRead
          simp only [plain_chars, same, at_p, notBrace, bare, notBackslash, ↓reduceIte]
            at plainRead
          cases plainRead
          exact ⟨rfl, rfl⟩
      · -- no argument
        rename_i notBare
        cases read
        refine ⟨sound, ?_⟩
        intro d' c₀ w c'' same plainRead
        rw [readBraceArg] at plainRead
        simp only [plain_chars, same, at_p, notBrace, notBare, Bool.false_eq_true,
          ↓reduceIte] at plainRead
        cases plainRead
        exact ⟨rfl, same⟩

/-- A slot agrees: a star is read from the text alone, and the other slots by the guarantee
for optional and braced arguments at the same budget. -/
theorem readSlot_agrees {d : Nat} (h : r.AgreesAt d) : r.SlotAgrees d := by
  intro envs spec c v c' read sound
  dsimp only
  unfold readSlot at read
  cases spec with
  | star =>
    dsimp only at read
    split at read
    · rename_i starred
      cases read
      refine ⟨sound, ?_⟩
      intro d' c₀ w c'' same plainRead
      unfold readSlot at plainRead
      simp only [plain_chars, same, starred, ↓reduceIte] at plainRead
      cases plainRead
      exact ⟨rfl, rfl⟩
    · rename_i unstarred
      cases read
      refine ⟨sound, ?_⟩
      intro d' c₀ w c'' same plainRead
      unfold readSlot at plainRead
      simp only [plain_chars, same, unstarred, ↓reduceIte] at plainRead
      cases plainRead
      exact ⟨rfl, same⟩
  | bracket =>
    obtain ⟨sound', agree⟩ := h.delimited envs "[" "]" c (by decide) read sound
    refine ⟨sound', ?_⟩
    intro d' c₀ w c'' same plainRead
    unfold readSlot at plainRead
    exact agree same plainRead
  | angle =>
    obtain ⟨sound', agree⟩ := h.delimited envs "<" ">" c (by decide) read sound
    refine ⟨sound', ?_⟩
    intro d' c₀ w c'' same plainRead
    unfold readSlot at plainRead
    exact agree same plainRead
  | optGroup =>
    obtain ⟨sound', agree⟩ := h.braceArg envs false c read sound
    refine ⟨sound', ?_⟩
    intro d' c₀ w c'' same plainRead
    unfold readSlot at plainRead
    exact agree same plainRead
  | group =>
    obtain ⟨sound', agree⟩ := h.braceArg envs true c read sound
    refine ⟨sound', ?_⟩
    intro d' c₀ w c'' same plainRead
    unfold readSlot at plainRead
    exact agree same plainRead

/-- The slots of a signature agree, one after another. By induction on the signature. -/
theorem readArgs_agrees {d : Nat} (h : r.AgreesAt d) : r.ArgsAgrees (d + 1) := by
  intro envs sig
  induction sig with
  | nil =>
    intro acc c
    refine Agrees.of_succ (fun _ => by rw [readArgs]) ?_
    intro v c' read sound
    rw [readArgs] at read
    cases read
    refine ⟨sound, ?_⟩
    intro d' c₀ w c'' same plainRead
    rw [readArgs] at plainRead
    cases plainRead
    exact ⟨rfl, same⟩
  | cons spec rest ih =>
    intro acc c
    refine Agrees.of_succ (fun _ => by rw [readArgs]) ?_
    intro v c' read sound
    rw [readArgs] at read
    split at read
    · cases read
    · rename_i arg c₁ slotRead
      obtain ⟨sound₁, agreeSlot⟩ := readSlot_agrees h envs spec c slotRead sound
      obtain ⟨sound', agreeRest⟩ := ih (acc.push arg) c₁ read sound₁
      refine ⟨sound', ?_⟩
      intro d' c₀ w c'' same plainRead
      rw [readArgs] at plainRead
      split at plainRead
      · cases plainRead
      · rename_i arg' c₁' plainSlot
        obtain ⟨rfl, at₁⟩ := agreeSlot same plainSlot
        exact agreeRest at₁ plainRead

/-- The guarantees at budget `d` give those at budget `d + 1`. -/
theorem AgreesAt.succ {d : Nat} (h : r.AgreesAt d) : r.AgreesAt (d + 1) where
  seq := readSeq_agrees_from (readItem_agrees h)
  control := readControl_agrees h
  environment := readEnvironment_agrees h
  args := readArgs_agrees h
  delimited := readDelimited_agrees h
  braceArg := readBraceArg_agrees h

/-- The remembering reader agrees with the plain one at every budget. -/
theorem agreesAt (r : Reader) : ∀ d, r.AgreesAt d
  | 0 => r.agreesAt_zero
  | d + 1 => (agreesAt r d).succ

end Reader

/-- Remembering unclosed openers changes nothing: when the remembering reader and the plain
one both read a text without refusing, they read the same nodes. -/
theorem parse_eq_plain {g : Grammar} {text : String} {nodes plainNodes : List Node}
    (parsed : parse g text = .ok nodes) (plainParsed : parseWith false g text = .ok plainNodes) :
    plainNodes = nodes := by
  let r : Reader := ⟨text.toList.toArray, g, true⟩
  obtain ⟨found, c', read⟩ := parseWith_ok parsed
  obtain ⟨plainFound, plainC, plainRead⟩ := parseWith_ok plainParsed
  have nothingRemembered : r.Sound [] := fun _ mem => absurd mem List.not_mem_nil
  obtain ⟨-, agree⟩ :=
    (Reader.agreesAt r depthBudget).seq .eof [] #[] ⟨0, []⟩ read nothingRemembered
  obtain ⟨same, -⟩ := agree (by rfl) plainRead
  cases same
  rfl

/-- The second opener is found unclosed while the first one is read from, and the
remembering reader does not read from it again. -/
theorem parse_eq_plain_unclosed :
    parse Grammar.standard "\\section[\\section[\x7b]" =
      parseWith false Grammar.standard "\\section[\\section[\x7b]" := by
  have parsed : parse Grammar.standard "\\section[\\section[\x7b]" = .ok
      [.control "section" [Arg.empty, Arg.empty, .mk "" "" [.text "[" (some ⟨8, 9⟩)]]
          ⟨0, 9⟩,
        .control "section" [Arg.empty, Arg.empty, .mk "" "" [.text "[" (some ⟨17, 18⟩)]]
          ⟨9, 18⟩,
        .group [.text "]" (some ⟨19, 20⟩)] ⟨18, 20⟩] := by
    cbv
  have plainParsed : parseWith false Grammar.standard "\\section[\\section[\x7b]" = .ok
      [.control "section" [Arg.empty, Arg.empty, .mk "" "" [.text "[" (some ⟨8, 9⟩)]]
          ⟨0, 9⟩,
        .control "section" [Arg.empty, Arg.empty, .mk "" "" [.text "[" (some ⟨17, 18⟩)]]
          ⟨9, 18⟩,
        .group [.text "]" (some ⟨19, 20⟩)] ⟨18, 20⟩] := by
    cbv
  rw [parsed, plainParsed, parse_eq_plain parsed plainParsed]

end TexToc.Markup
