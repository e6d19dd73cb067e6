import TexToc.Proofs.DocumentOrder
import TexToc.Outline.Report

/-!
# The lines of a written outline

An outline is written one entry a line, in preorder, each line indented by four spaces per
level of nesting and holding the entry's label, then, where lines are shown, the entry's file
and first line. The lines are joined by line feeds, so the text has one line per entry exactly
when no line holds a line feed of its own; each line feed inside a label or a shown path adds
a line to the text.

Labels are not free of line feeds: a control symbol made of a backslash and a line feed is
written with its name, the line feed, so a section titled with one has a label of two lines
(`feedSession_outline`).

* `leveled`: the entries of a forest in preorder, each with its level.
* `lineAt`: the line of an entry at a level.
* `outline_text_lines`: the lines of an outline are the lines of its entries in preorder, and
  its text has as many lines as entries and line feeds inside them, exactly these lines when
  neither labels nor shown paths hold a line feed.
-/

namespace TexToc.Outline

open Entry

/-- Where an entry stands, as its line shows it: its file as the style shows it, and its
first line counted from 1; nothing when lines are not shown. -/
def placeText (style : LineStyle) (e : Entry) : String :=
  if style.showLines then
    "  (" ++ style.shownPath e.file ++ ":" ++ toString (e.lineStart + 1) ++ ")"
  else ""

/-- The line of an entry at nesting level `depth`: four spaces a level, the label, and where
the entry stands. -/
def lineAt (style : LineStyle) (depth : Nat) (e : Entry) : String :=
  String.ofList (List.replicate (4 * depth) ' ') ++ e.label ++ placeText style e

mutual

/-- The entries of a forest in preorder, each with its nesting level counted from `depth`. -/
def leveled (depth : Nat) : List Entry → List (Nat × Entry)
  | [] => []
  | e :: rest => leveledOf depth e ++ leveled depth rest

/-- An entry at level `depth`, then the entries nested under it, one level down. -/
def leveledOf (depth : Nat) : Entry → List (Nat × Entry)
  | e@⟨_, _, _, _, _, _, _, cs⟩ => (depth, e) :: leveled (depth + 1) cs

end

theorem leveledOf_eq (depth : Nat) (e : Entry) :
    leveledOf depth e = (depth, e) :: leveled (depth + 1) e.children := by
  cases e
  rfl

theorem linesOf_eq (style : LineStyle) (depth : Nat) (e : Entry) :
    linesOf style depth e = lineAt style depth e :: linesAt style (depth + 1) e.children := by
  cases e
  rfl

mutual

/-- The lines of a forest are the lines of its entries in preorder, each at its level. -/
theorem linesAt_eq_map (style : LineStyle) (depth : Nat) (es : List Entry) :
    linesAt style depth es = (leveled depth es).map fun p => lineAt style p.1 p.2 := by
  match es with
  | [] => rfl
  | e :: rest =>
    rw [linesAt, leveled, List.map_append, linesOf_eq_map, linesAt_eq_map]

theorem linesOf_eq_map (style : LineStyle) (depth : Nat) (e : Entry) :
    linesOf style depth e = (leveledOf depth e).map fun p => lineAt style p.1 p.2 := by
  match e with
  | ⟨k, n, l, o, s, t, f, cs⟩ =>
    rw [linesOf_eq, leveledOf_eq, List.map_cons, linesAt_eq_map]

end

mutual

/-- Leveling a forest keeps its entries in preorder. -/
theorem map_snd_leveled (depth : Nat) (es : List Entry) :
    (leveled depth es).map Prod.snd = preorder es := by
  match es with
  | [] => rfl
  | e :: rest =>
    rw [leveled, List.map_append, map_snd_leveledOf, map_snd_leveled, preorder]

theorem map_snd_leveledOf (depth : Nat) (e : Entry) :
    (leveledOf depth e).map Prod.snd = preorderOf e := by
  match e with
  | ⟨k, n, l, o, s, t, f, cs⟩ =>
    rw [leveledOf_eq, List.map_cons, map_snd_leveled, preorderOf_eq]

end

theorem length_outlineLines (style : LineStyle) (es : List Entry) :
    (outlineLines style es).length = (preorder es).length := by
  rw [outlineLines, linesAt_eq_map, List.length_map, ← map_snd_leveled 0 es, List.length_map]

/-! ## Lines of a text -/

/-- A text split at a separator has one piece more than it has separators. -/
theorem length_splitOn {α : Type} [BEq α] [LawfulBEq α] (x : α) (xs : List α) :
    (xs.splitOn x).length = xs.count x + 1 := by
  induction xs with
  | nil => simp [List.splitOn_nil]
  | cons y ys ih =>
    rw [List.splitOn_cons_eq_if_modifyHead, List.count_cons]
    split <;> simp_all

/-- Pieces joined by a separator hold the separators between them and their own. -/
theorem count_intercalate {α : Type} [BEq α] [LawfulBEq α] (x : α) {ls : List (List α)}
    (nonempty : ls ≠ []) :
    ([x].intercalate ls).count x + 1 = ls.length + (ls.map (·.count x)).sum := by
  induction ls with
  | nil => exact absurd rfl nonempty
  | cons l rest ih =>
    rcases rest with _ | ⟨l', rest⟩
    · simp [Nat.add_comm]
    · have more := ih (List.cons_ne_nil l' rest)
      rw [List.intercalate_cons_cons, List.count_append, List.count_append,
        List.count_singleton_self]
      simp only [List.length_cons, List.map_cons, List.sum_cons] at more ⊢
      omega

theorem outlineText_toList (style : LineStyle) (es : List Entry) :
    (outlineText style es).toList =
      ['\n'].intercalate ((outlineLines style es).map String.toList) := by
  rw [outlineText, String.toList_intercalate]
  rfl

/-- A numeral holds digits only. -/
theorem feed_not_mem_toString (n : Nat) : '\n' ∉ (toString n).toList := by
  intro mem
  have digits : ∀ c ∈ Nat.toDigits 10 n, c.isDigit = true :=
    fun c inside => Nat.isDigit_of_mem_toDigits (by decide) (by decide) inside
  have := digits _ (by simpa [toString, Nat.repr] using mem)
  simp at this

/-- The line of an entry holds a line feed only where its label or its shown path does. -/
theorem feed_not_mem_lineAt {style : LineStyle} {depth : Nat} {e : Entry}
    (label : '\n' ∉ e.label.toList)
    (path : style.showLines = true → '\n' ∉ (style.shownPath e.file).toList) :
    '\n' ∉ (lineAt style depth e).toList := by
  have indent : '\n' ∉ List.replicate (4 * depth) ' ' := fun mem => by
    simp [List.mem_replicate] at mem
  simp only [lineAt, placeText, String.toList_append, String.toList_ofList, List.mem_append]
  split
  · rename_i shown
    have number := feed_not_mem_toString (e.lineStart + 1)
    simp_all
  · simp_all

/-! ## The text of an outline -/

/-- The lines of an outline are the lines of its entries in preorder, each indented by its
level; its text has as many lines as it has entries and line feeds inside their lines, and
where no label and no shown path holds a line feed, the text splits at line feeds into exactly
the lines of its entries. -/
theorem outline_text_lines (style : LineStyle) (es : List Entry) :
    outlineLines style es = (leveled 0 es).map (fun p => lineAt style p.1 p.2) ∧
    (leveled 0 es).map Prod.snd = preorder es ∧
    (es ≠ [] → ((outlineText style es).toList.splitOn '\n').length =
      (preorder es).length + ((outlineLines style es).map fun l => l.toList.count '\n').sum) ∧
    (es ≠ [] → (∀ e ∈ preorder es, '\n' ∉ e.label.toList ∧
        (style.showLines = true → '\n' ∉ (style.shownPath e.file).toList)) →
      (outlineText style es).toList.splitOn '\n' = (outlineLines style es).map String.toList) := by
  have lines : outlineLines style es = (leveled 0 es).map (fun p => lineAt style p.1 p.2) :=
    linesAt_eq_map style 0 es
  have written : es ≠ [] → (outlineLines style es).map String.toList ≠ [] := by
    intro nonempty
    obtain ⟨e, rest, rfl⟩ := List.exists_cons_of_ne_nil nonempty
    have := length_outlineLines style (e :: rest)
    simp only [preorder_cons, List.length_cons, List.length_append] at this
    exact List.ne_nil_of_length_pos (by simp [this])
  refine ⟨lines, map_snd_leveled 0 es, fun nonempty => ?_, fun nonempty clear => ?_⟩
  · rw [length_splitOn, outlineText_toList, count_intercalate '\n' (written nonempty),
      List.length_map, length_outlineLines, List.map_map]
    rfl
  · rw [outlineText_toList]
    refine List.splitOn_intercalate '\n' (fun l inside => ?_) (written nonempty)
    obtain ⟨line, isLine, rfl⟩ := List.mem_map.1 inside
    rw [lines] at isLine
    obtain ⟨⟨depth, e⟩, entry, rfl⟩ := List.mem_map.1 isLine
    have inPreorder : e ∈ preorder es := by
      rw [← map_snd_leveled 0 es]
      exact List.mem_map.2 ⟨_, entry, rfl⟩
    exact feed_not_mem_lineAt (clear e inPreorder).1 (clear e inPreorder).2

/-- A session on one file whose section title holds a control symbol made of a backslash and
a line feed. -/
def feedSession : Session :=
  ⟨⟨[], []⟩, "/", fun _ => none, { Settings.standard with sections := ["s"] }, some "/main.tex",
    [("/main.tex", "\\s\x7ba\\\nb\x7d")], .empty⟩

/-- The section of `feedSession`, whose label holds a line feed. -/
def feedEntry : Entry :=
  ⟨.section, "s", "1 a\\\nb", 0, 0, 1, "/main.tex", []⟩

set_option maxRecDepth 20000 in
/-- The label of the section holds the line feed of the control symbol. -/
theorem feedSession_outline : (feedSession.outline none true).1 = .ok [feedEntry] := by
  cbv

/-- The outline of `feedSession` has one entry, and its text two lines. -/
theorem feedSession_two_lines :
    (feedSession.outline none true).1 = .ok [feedEntry] ∧
      ((outlineText ⟨false, some "/"⟩ [feedEntry]).toList.splitOn '\n').length = 2 := by
  refine ⟨feedSession_outline, ?_⟩
  rw [(outline_text_lines _ _).2.2.1 (List.cons_ne_nil _ _)]
  decide +kernel

end TexToc.Outline
