import TexToc.Proofs.DocumentOrder
import TexToc.Proofs.OutlineFailures

/-!
# Section numbers

Numbering writes a number before the label of every ranked section: the parent's number and
a point, one `0.` for every rank skipped below the level's lowest rank, then the counter of
the section's rank among its siblings. A starred section takes no number of its own but still
hands one to the sections under it: the counter of its rank as it stands, which an earlier
unstarred sibling may already have handed down. The numbers of sections under a starred
section can therefore repeat numbers given elsewhere; the numbers of the unstarred sections
that have no starred section above them never do.

* `Entry.number`: the number a label starts with.
* `SectionAt`: the unstarred sections reached through unstarred sections only.
* `RanksDescend`: every section is ranked, and ranks grow from a section to the sections
  directly under it; nesting gives this to every forest whose sections are ranked leaves.
* `numberSectionsWith_apart`: numbering gives such sections pairwise distinct numbers.
-/

namespace TexToc.Outline

open Entry

/-! ## Number strings -/

@[simp] theorem toList_padding_zero : (padding ((0 : Nat) : Int)).toList = [] := by
  simp [padding]

theorem toList_padding_succ (k : Nat) :
    (padding ((k + 1 : Nat) : Int)).toList = '0' :: '.' :: (padding (k : Int)).toList := by
  simp [padding, List.replicate_succ, String.join_cons]

theorem digit_of_mem_toString {n : Nat} {ch : Char} (h : ch ∈ (toString n).toList) :
    ch.isDigit := by
  rw [Nat.toString_eq_repr, Nat.toList_repr] at h
  exact Nat.isDigit_of_mem_toDigits (by decide) (by decide) h

theorem dot_not_mem_toString (n : Nat) : '.' ∉ (toString n).toList :=
  fun h => absurd (digit_of_mem_toString h) (by decide)

theorem space_not_mem_toString (n : Nat) : ' ' ∉ (toString n).toList :=
  fun h => absurd (digit_of_mem_toString h) (by decide)

/-- Decimal numerals are injective. -/
theorem toString_toList_injective {n m : Nat} (h : (toString n).toList = (toString m).toList) :
    n = m := by
  have digits : Nat.toDigits 10 n = Nat.toDigits 10 m := by
    simpa only [Nat.toString_eq_repr, Nat.toList_repr] using h
  calc n = Nat.ofDigitChars 10 (Nat.toDigits 10 n) 0 := Nat.ofDigitChars_ten_toDigits.symm
    _ = Nat.ofDigitChars 10 (Nat.toDigits 10 m) 0 := by rw [digits]
    _ = m := Nat.ofDigitChars_ten_toDigits

/-- What may follow the last block of a number: nothing, or a point and the blocks of the
sections below. -/
def BlockEnd (rest : List Char) : Prop :=
  rest = [] ∨ rest.head? = some '.'

/-- The part of a number up to its first point is the counter of its first block when that
block has no padding. -/
theorem takeWhile_toString_append {n : Nat} {rest : List Char} (ends : BlockEnd rest) :
    ((toString n).toList ++ rest).takeWhile (· != '.') = (toString n).toList := by
  rw [List.takeWhile_append_of_pos]
  · rcases ends with rfl | starts
    · simp
    · obtain ⟨tail, rfl⟩ : ∃ tail, rest = '.' :: tail := by
        cases rest with
        | nil => cases starts
        | cons ch tail => cases starts; exact ⟨tail, rfl⟩
      simp
  · intro ch mem
    have : ch ≠ '.' := fun same => dot_not_mem_toString n (same ▸ mem)
    simpa using this

/-- A block of a number, `k` paddings and then a counter from one up, is read back from the
characters it starts: the padding and the counter are both determined. -/
theorem block_injective {k k' n n' : Nat} {rest rest' : List Char} (pos : 0 < n)
    (pos' : 0 < n') (ends : BlockEnd rest) (ends' : BlockEnd rest')
    (same : (padding (k : Int)).toList ++ (toString n).toList ++ rest =
      (padding (k' : Int)).toList ++ (toString n').toList ++ rest') :
    k = k' ∧ n = n' := by
  induction k generalizing k' with
  | zero =>
    cases k' with
    | zero =>
      have heads := congrArg (List.takeWhile (· != '.')) same
      simp only [toList_padding_zero, List.nil_append, takeWhile_toString_append ends,
        takeWhile_toString_append ends'] at heads
      exact ⟨rfl, toString_toList_injective heads⟩
    | succ k' =>
      have heads := congrArg (List.takeWhile (· != '.')) same
      simp only [toList_padding_zero, List.nil_append, takeWhile_toString_append ends,
        toList_padding_succ] at heads
      have zero : (toString n).toList = (toString 0).toList := by simpa using heads
      exact absurd (toString_toList_injective zero) (by omega)
  | succ k ih =>
    cases k' with
    | zero =>
      have heads := congrArg (List.takeWhile (· != '.')) same
      simp only [toList_padding_zero, List.nil_append, takeWhile_toString_append ends',
        toList_padding_succ] at heads
      have zero : (toString 0).toList = (toString n').toList := by simpa using heads
      exact absurd (toString_toList_injective zero) (by omega)
    | succ k' =>
      simp only [toList_padding_succ, List.cons_append, List.cons.injEq, true_and] at same
      obtain ⟨rfl, rfl⟩ := ih same
      exact ⟨rfl, rfl⟩

/-! ## Sections reached through unstarred sections -/

/-- The number a label starts with: everything before its first space. -/
def Entry.number (e : Entry) : String :=
  String.ofList (e.label.toList.takeWhile (· != ' '))

/-- A label written as a number, a space and a title starts with that number. -/
theorem number_relabelled (e : Entry) {number title : String} (plain : ' ' ∉ number.toList)
    (cs : List Entry) :
    ({ e with label := number ++ " " ++ title, children := cs } : Entry).number.toList =
      number.toList := by
  have untilSpace : ∀ ch ∈ number.toList, (ch != ' ') = true := by
    intro ch mem
    have : ch ≠ ' ' := fun same => plain (same ▸ mem)
    simpa using this
  simp [Entry.number, List.takeWhile_append_of_pos untilSpace]

/-- `SectionAt es p x`: following the positions `p` down from the forest `es` passes through
unstarred sections only and ends at the unstarred section `x`. -/
inductive SectionAt : List Entry → List Nat → Entry → Prop
  | here {es : List Entry} {i : Nat} {x : Entry} (found : es[i]? = some x)
      (kind : x.kind = .section) : SectionAt es [i] x
  | under {es : List Entry} {i : Nat} {p : List Nat} {s x : Entry} (found : es[i]? = some s)
      (kind : s.kind = .section) (below : SectionAt s.children p x) : SectionAt es (i :: p) x

/-- Unstarred sections under no starred section carry pairwise distinct numbers. -/
def SectionNumbersApart (es : List Entry) : Prop :=
  ∀ p q x y, SectionAt es p x → SectionAt es q y → p ≠ q → x.number ≠ y.number

namespace SectionAt

theorem path_ne_nil {es : List Entry} {p : List Nat} {x : Entry} (reach : SectionAt es p x) :
    p ≠ [] := by
  cases reach <;> simp

theorem cons_iff {es : List Entry} {i : Nat} {p : List Nat} {x : Entry} :
    SectionAt es (i :: p) x ↔
      ∃ s, es[i]? = some s ∧ s.kind = .section ∧ (p = [] ∧ s = x ∨ SectionAt s.children p x) := by
  constructor
  · rintro (⟨found, kind⟩ | ⟨found, kind, below⟩)
    · exact ⟨x, found, kind, .inl ⟨rfl, rfl⟩⟩
    · exact ⟨_, found, kind, .inr below⟩
  · rintro ⟨s, found, kind, ⟨rfl, rfl⟩ | below⟩
    · exact .here found kind
    · exact .under found kind below

theorem single_iff {e x : Entry} {p : List Nat} :
    SectionAt [e] p x ↔
      e.kind = .section ∧ (p = [0] ∧ e = x ∨ ∃ q, p = 0 :: q ∧ SectionAt e.children q x) := by
  match p with
  | [] => simpa using fun reach => path_ne_nil reach rfl
  | 0 :: q => simp [cons_iff]
  | (i + 1) :: q => simp [cons_iff]

@[simp] theorem cons_zero_iff {e x : Entry} {rest : List Entry} {p : List Nat} :
    SectionAt (e :: rest) (0 :: p) x ↔ SectionAt [e] (0 :: p) x := by
  simp [cons_iff]

@[simp] theorem cons_succ_iff {e x : Entry} {rest : List Entry} {i : Nat} {p : List Nat} :
    SectionAt (e :: rest) ((i + 1) :: p) x ↔ SectionAt rest (i :: p) x := by
  simp [cons_iff]

@[simp] theorem not_nil {p : List Nat} {x : Entry} : ¬ SectionAt [] p x := by
  intro reach
  cases reach <;> simp_all

/-- A section reached in a forest with a head is reached in the head alone or in the rest,
one position earlier. -/
theorem cons_cases {e x : Entry} {rest : List Entry} {p : List Nat}
    (reach : SectionAt (e :: rest) p x) :
    SectionAt [e] p x ∨ ∃ i q, p = (i + 1) :: q ∧ SectionAt rest (i :: q) x := by
  match p, reach with
  | [], reach => exact absurd rfl (path_ne_nil reach)
  | 0 :: q, reach =>
    left
    rw [cons_iff] at reach ⊢
    simpa using reach
  | (i + 1) :: q, reach =>
    right
    rw [cons_iff] at reach
    exact ⟨i, q, rfl, cons_iff.2 (by simpa using reach)⟩

/-- A reached section is a section of the forest's top level or under one. -/
theorem exists_top {es : List Entry} {p : List Nat} {x : Entry} (reach : SectionAt es p x) :
    ∃ s ∈ es, s.kind = .section := by
  cases reach with
  | here found kind => exact ⟨x, List.mem_of_getElem? found, kind⟩
  | under found kind _ => exact ⟨_, List.mem_of_getElem? found, kind⟩

end SectionAt

namespace SectionNumbersApart

/-- The numbers in one entry's subtree are apart when those below it are, and none below
repeats its own. -/
theorem single {e : Entry} (children : SectionNumbersApart e.children)
    (below : ∀ q y, SectionAt e.children q y → e.number ≠ y.number) :
    SectionNumbersApart [e] := by
  intro p q x y hx hy apart
  obtain ⟨-, ⟨rfl, rfl⟩ | ⟨p', rfl, below_x⟩⟩ := SectionAt.single_iff.1 hx <;>
    obtain ⟨-, ⟨rfl, rfl⟩ | ⟨q', rfl, below_y⟩⟩ := SectionAt.single_iff.1 hy
  · exact absurd rfl apart
  · exact below q' y below_y
  · exact (below p' x below_x).symm
  · exact children p' q' x y below_x below_y (fun same => apart (by rw [same]))

/-- The numbers of a forest are apart when those of its head and of its rest are, and none
of the head's subtree repeats one of the rest. -/
theorem cons {e : Entry} {rest : List Entry} (head : SectionNumbersApart [e])
    (tail : SectionNumbersApart rest)
    (cross : ∀ p q x y, SectionAt [e] p x → SectionAt rest q y → x.number ≠ y.number) :
    SectionNumbersApart (e :: rest) := by
  intro p q x y hx hy apart
  rcases hx.cons_cases with head_x | ⟨i, p', rfl, rest_x⟩ <;>
    rcases hy.cons_cases with head_y | ⟨j, q', rfl, rest_y⟩
  · exact head p q x y head_x head_y apart
  · exact cross _ _ _ _ head_x rest_y
  · exact (cross _ _ _ _ head_y rest_x).symm
  · exact tail _ _ _ _ rest_x rest_y (fun same => apart (by simp_all))

end SectionNumbersApart

/-! ## Ranks along the outline -/

/-- A section is ranked, and the sections directly under it rank higher. -/
def Entry.RanksBelow (cfg : Config) (x : Entry) : Prop :=
  x.isSection → ∃ r, cfg.rank x.name = some r ∧
    ∀ d ∈ x.children, d.isSection → ∃ r', cfg.rank d.name = some r' ∧ r < r'

/-- Every section of the forest, at any depth, is ranked, and ranks grow from a section to
the sections directly under it. -/
def RanksDescend (cfg : Config) (es : List Entry) : Prop :=
  ∀ x ∈ preorder es, x.RanksBelow cfg

/-- Every ranked section at the top of the forest ranks at `low` or above. -/
def RanksFrom (cfg : Config) (low : Int) (es : List Entry) : Prop :=
  ∀ e ∈ es, e.isSection → ∀ r, cfg.rank e.name = some r → low ≤ r

namespace RanksDescend

variable {cfg : Config}

theorem cons_iff {e : Entry} {rest : List Entry} :
    RanksDescend cfg (e :: rest) ↔
      e.RanksBelow cfg ∧ RanksDescend cfg e.children ∧ RanksDescend cfg rest := by
  simp only [RanksDescend, preorder_cons, List.cons_append, List.mem_cons, List.mem_append,
    forall_eq_or_imp]
  constructor
  · rintro ⟨own, rest'⟩
    exact ⟨own, fun x hx => rest' x (.inl hx), fun x hx => rest' x (.inr hx)⟩
  · rintro ⟨own, inner, rest'⟩
    exact ⟨own, fun x hx => hx.elim (inner x) (rest' x)⟩

theorem nil : RanksDescend cfg [] := by
  simp [RanksDescend]

theorem append {as bs : List Entry} (ha : RanksDescend cfg as) (hb : RanksDescend cfg bs) :
    RanksDescend cfg (as ++ bs) := by
  intro x hx
  rw [preorder_append, List.mem_append] at hx
  exact hx.elim (ha x) (hb x)

/-- Ranks descend in a forest exactly when they do in the subtree of each of its entries. -/
theorem iff_forall {es : List Entry} : RanksDescend cfg es ↔ ∀ e ∈ es, RanksDescend cfg [e] := by
  induction es with
  | nil => simp [nil]
  | cons e rest ih =>
    rw [cons_iff, List.forall_mem_cons, ← ih, @cons_iff cfg e []]
    simp [nil, and_assoc]

/-- A forest's entries may be replaced by entries whose ranks descend. -/
theorem set {es : List Entry} (h : RanksDescend cfg es) (i : Nat) {x : Entry}
    (hx : RanksDescend cfg [x]) : RanksDescend cfg (es.set i x) := by
  rw [iff_forall] at h ⊢
  intro e mem
  rcases List.mem_or_eq_of_mem_set mem with mem | rfl
  · exact h e mem
  · exact hx

/-- Attaching an entry as the last one under `s` keeps ranks descending when the entry is no
section or ranks higher than `s`. -/
theorem attach {s t : Entry} (hs : RanksDescend cfg [s]) (ht : RanksDescend cfg [t])
    (fits : s.isSection → t.isSection → ∀ r, cfg.rank s.name = some r →
      ∃ r', cfg.rank t.name = some r' ∧ r < r') :
    RanksDescend cfg [s.withChildren (s.children ++ [t])] := by
  obtain ⟨own, inner, -⟩ := cons_iff.1 hs
  refine cons_iff.2 ⟨fun section_ => ?_, by simpa using inner.append ht, nil⟩
  rw [isSection_withChildren] at section_
  obtain ⟨r, ranked, higher⟩ := own section_
  refine ⟨r, by simpa using ranked, fun d mem dSection => ?_⟩
  rcases (by simpa using mem : d ∈ s.children ∨ d = t) with old | rfl
  · exact higher d old dSection
  · exact fits section_ dSection r ranked

theorem cons_iff_single {e : Entry} {rest : List Entry} :
    RanksDescend cfg (e :: rest) ↔ RanksDescend cfg [e] ∧ RanksDescend cfg rest := by
  rw [iff_forall, List.forall_mem_cons, ← iff_forall]

/-- Ranks descend alike in two entries of the same kind and name whose children have, one by
one, the same kinds and names. -/
theorem of_shape {e x : Entry} (h : RanksDescend cfg [e]) (children : RanksDescend cfg x.children)
    (kind : x.kind = e.kind) (name : x.name = e.name)
    (shape : x.children.map (fun d => (d.kind, d.name)) = e.children.map (fun d => (d.kind, d.name))) :
    RanksDescend cfg [x] := by
  obtain ⟨own, -, -⟩ := cons_iff.1 h
  refine cons_iff.2 ⟨fun section_ => ?_, children, nil⟩
  obtain ⟨r, ranked, higher⟩ := own (by simpa [Entry.isSection, kind] using section_)
  refine ⟨r, by rw [name]; exact ranked, fun d mem dSection => ?_⟩
  obtain ⟨d0, mem0, same⟩ : ∃ d0 ∈ e.children, (d0.kind, d0.name) = (d.kind, d.name) := by
    rw [← List.mem_map, ← shape]
    exact List.mem_map_of_mem mem
  simp only [Prod.mk.injEq] at same
  obtain ⟨r', ranked', lt⟩ := higher d0 mem0 (by simpa [Entry.isSection, same.1] using dSection)
  exact ⟨r', by rw [← same.2]; exact ranked', lt⟩

theorem of_mem {es : List Entry} (h : RanksDescend cfg es) {e : Entry} (mem : e ∈ es) :
    e.RanksBelow cfg := by
  induction es with
  | nil => cases mem
  | cons x rest ih =>
    obtain ⟨own, -, rest'⟩ := cons_iff.1 h
    rcases List.mem_cons.1 mem with rfl | mem
    · exact own
    · exact ih rest' mem

end RanksDescend

/-- The sections under a section of rank `r` rank from `r + 1` on. -/
theorem RanksFrom.children {cfg : Config} {e : Entry} {r : Nat}
    (higher : ∀ d ∈ e.children, d.isSection → ∃ r', cfg.rank d.name = some r' ∧ r < r') :
    RanksFrom cfg ((r : Int) + 1) e.children := by
  intro d mem section_ r' ranked
  obtain ⟨r'', ranked', lt⟩ := higher d mem section_
  rw [ranked] at ranked'
  cases ranked'
  omega

/-- The smallest of a list of ranks is at most each of them. -/
theorem foldl_min_le {r : Nat} {rs : List Nat} {x : Nat} (mem : x ∈ r :: rs) :
    rs.foldl min r ≤ x := by
  induction rs generalizing r x with
  | nil => simp_all
  | cons a rs ih =>
    rw [List.foldl_cons]
    have first : rs.foldl min (min r a) ≤ min r a := ih (List.mem_cons_self ..)
    rcases List.mem_cons.1 mem with rfl | mem
    · exact Nat.le_trans first (Nat.min_le_left _ _)
    · rcases List.mem_cons.1 mem with rfl | mem
      · exact Nat.le_trans first (Nat.min_le_right _ _)
      · exact ih (List.mem_cons_of_mem _ mem)

/-! ## Numbering one level -/

section Level

variable {cfg : Config}

/-- The number that a level with prefix `pre` and lowest rank `low` gives a section of rank
`r` whose counter stands at `n`. -/
def levelNumber (pre : String) (low : Int) (r n : Nat) : String :=
  pre ++ padding ((r : Int) - low) ++ toString n

theorem space_not_mem_levelNumber {pre : String} (plain : ' ' ∉ pre.toList) (low : Int)
    (r n : Nat) : ' ' ∉ (levelNumber pre low r n).toList := by
  simp only [levelNumber, padding, String.toList_append, String.toList_join, List.mem_append,
    List.mem_flatMap, List.mem_replicate, not_or]
  refine ⟨⟨plain, ?_⟩, space_not_mem_toString n⟩
  rintro ⟨_, ⟨-, rfl⟩, mem⟩
  simp at mem

theorem space_not_mem_append_dot {number : String} (plain : ' ' ∉ number.toList) :
    ' ' ∉ (number ++ ".").toList := by
  simp [plain]

theorem numberLevel_cons_section {pre : String} {low : Int} {c : List (Nat × Nat)} {e : Entry}
    {r : Nat} (kind : e.kind = .section) (ranked : cfg.rank e.name = some r)
    (rest : List Entry) :
    numberLevel cfg pre low c (e :: rest) =
      { e with
        label := levelNumber pre low r ((c.lookup r).getD 0 + 1) ++ " " ++ e.label
        children := numberSectionsWith cfg (levelNumber pre low r ((c.lookup r).getD 0 + 1) ++ ".")
          (some ((r : Int) + 1)) e.children } ::
        numberLevel cfg pre low ((r, (c.lookup r).getD 0 + 1) :: c) rest := by
  rw [numberLevel]
  simp [Entry.isSection, kind, ranked, levelNumber]

theorem numberLevel_cons_other {pre : String} {low : Int} {c : List (Nat × Nat)} {e : Entry}
    (kind : e.kind ≠ .section) (rest : List Entry) :
    ∃ e', e'.kind = e.kind ∧
      numberLevel cfg pre low c (e :: rest) = e' :: numberLevel cfg pre low c rest := by
  rw [numberLevel]
  split
  · exact ⟨e, rfl, rfl⟩
  · simp only [kind, if_false]
    refine ⟨_, ?_, rfl⟩
    rfl

/-- A section in the subtree of a numbered section has a number that starts with the
section's own, ended there or followed by a point. -/
theorem numbered_head {e x : Entry} {number : String} {cs : List Entry} {p : List Nat}
    (plain : ' ' ∉ number.toList)
    (below : ∀ q y, SectionAt cs q y → ∃ R, y.number.toList = (number ++ ".").toList ++ R)
    (reach : SectionAt [{ e with label := number ++ " " ++ e.label, children := cs }] p x) :
    ∃ R, x.number.toList = number.toList ++ R ∧ BlockEnd R := by
  obtain ⟨-, ⟨rfl, rfl⟩ | ⟨q, rfl, under⟩⟩ := SectionAt.single_iff.1 reach
  · exact ⟨[], by rw [number_relabelled e plain]; simp, .inl rfl⟩
  · obtain ⟨R, hR⟩ := below q x under
    exact ⟨'.' :: R, by simp [hR], .inr rfl⟩

/-- The counter of a rank after a section of rank `r` takes the next number is at least the
counter before. -/
theorem lookup_bump_le (c : List (Nat × Nat)) (r r' : Nat) :
    (c.lookup r').getD 0 ≤ (((r, (c.lookup r).getD 0 + 1) :: c).lookup r').getD 0 := by
  by_cases same : r' = r
  · subst same
    simp [List.lookup]
  · simp [List.lookup, beq_false_of_ne same]

/-- Every ranked section of a level whose lowest rank is the smallest rank there ranks at or
above it. -/
theorem ranksFrom_smallest {es : List Entry} {r : Nat} {rs : List Nat}
    (ranks : es.filterMap (fun e => if e.isSection then cfg.rank e.name else none) = r :: rs) :
    RanksFrom cfg ((rs.foldl min r : Nat) : Int) es := by
  intro e mem section_ r' ranked
  have listed : r' ∈ r :: rs := by
    rw [← ranks]
    exact List.mem_filterMap.2 ⟨e, mem, by simp [section_, ranked]⟩
  have := foldl_min_le listed
  omega

/-- The lowest rank a level numbers from: the one it is given, else the smallest rank
there. -/
theorem ranksFrom_level {lowest : Option Int} {es : List Entry} {r : Nat} {rs : List Nat}
    (fromLowest : ∀ l, lowest = some l → RanksFrom cfg l es)
    (ranks : es.filterMap (fun e => if e.isSection then cfg.rank e.name else none) = r :: rs) :
    RanksFrom cfg (lowest.getD (rs.foldl min r : Nat)) es := by
  cases lowest with
  | none => exact ranksFrom_smallest ranks
  | some l => exact fromLowest l rfl

/-- A level that numbers nothing has no section to reach. -/
theorem unranked_level {es : List Entry} {p : List Nat} {x : Entry} (ranks : RanksDescend cfg es)
    (none_ranked : es.filterMap (fun e => if e.isSection then cfg.rank e.name else none) = [])
    (reach : SectionAt es p x) : False := by
  obtain ⟨s, mem, kind⟩ := reach.exists_top
  have section_ : s.isSection = true := by simp [Entry.isSection, kind]
  obtain ⟨r, ranked, -⟩ := ranks.of_mem mem section_
  have listed : r ∈ es.filterMap (fun e => if e.isSection then cfg.rank e.name else none) :=
    List.mem_filterMap.2 ⟨s, mem, by simp [section_, ranked]⟩
  simp [none_ranked] at listed

mutual

/-- Every section that numbering reaches through unstarred sections has a number that starts
with the level's prefix. -/
theorem numberSectionsWith_number {pre : String} {lowest : Option Int} {es : List Entry}
    (plain : ' ' ∉ pre.toList) (ranks : RanksDescend cfg es)
    (fromLowest : ∀ l, lowest = some l → RanksFrom cfg l es) {p : List Nat} {x : Entry}
    (reach : SectionAt (numberSectionsWith cfg pre lowest es) p x) :
    ∃ R, x.number.toList = pre.toList ++ R := by
  rw [numberSectionsWith] at reach
  split at reach
  · rename_i none_ranked
    exact (unranked_level ranks none_ranked reach).elim
  · rename_i r rs some_ranked
    have fromLow := ranksFrom_level fromLowest some_ranked
    obtain ⟨i, q, rfl⟩ : ∃ i q, p = i :: q := List.exists_cons_of_ne_nil reach.path_ne_nil
    obtain ⟨k, n, r', R, -, -, numbered, -⟩ := numberLevel_number plain ranks fromLow reach
    exact ⟨(padding (k : Int)).toList ++ (toString n).toList ++ R, by rw [numbered]; simp⟩
termination_by (sizeOf es, 1)

/-- Every section that a level reaches through unstarred sections has a number made of the
level's prefix, the padding and counter of the section of the level it lies under, and then
nothing or a point; that counter is past the counter of its rank when the level started. -/
theorem numberLevel_number {pre : String} {low : Int} {c : List (Nat × Nat)} {es : List Entry}
    (plain : ' ' ∉ pre.toList) (ranks : RanksDescend cfg es) (fromLow : RanksFrom cfg low es)
    {i : Nat} {p : List Nat} {x : Entry} (reach : SectionAt (numberLevel cfg pre low c es) (i :: p) x) :
    ∃ (k n r : Nat) (R : List Char), (r : Int) = low + k ∧ (c.lookup r).getD 0 < n ∧
      x.number.toList = pre.toList ++ (padding (k : Int)).toList ++ (toString n).toList ++ R ∧
      BlockEnd R := by
  match es with
  | [] => simp [numberLevel] at reach
  | e :: rest =>
    obtain ⟨own, -, ranksRest⟩ := RanksDescend.cons_iff.1 ranks
    have fromRest : RanksFrom cfg low rest := fun d mem => fromLow d (List.mem_cons_of_mem _ mem)
    by_cases kind : e.kind = .section
    · have section_ : e.isSection = true := by simp [Entry.isSection, kind]
      obtain ⟨r, ranked, higher⟩ := own section_
      have above : low ≤ r := fromLow e (List.mem_cons_self ..) section_ r ranked
      rw [numberLevel_cons_section kind ranked] at reach
      cases i with
      | zero =>
        rw [SectionAt.cons_zero_iff] at reach
        have plainNumber := space_not_mem_levelNumber plain low r ((c.lookup r).getD 0 + 1)
        obtain ⟨R, numbered, ends⟩ := numbered_head plainNumber
          (fun q y below => numberSectionsWith_number (space_not_mem_append_dot plainNumber)
            (RanksDescend.cons_iff.1 ranks).2.1 (fun l same => by cases same; exact .children higher)
            below) reach
        have padded : (r : Int) - low = (((r : Int) - low).toNat : Nat) := by omega
        refine ⟨((r : Int) - low).toNat, (c.lookup r).getD 0 + 1, r, R, by omega, by omega, ?_,
          ends⟩
        rw [numbered, levelNumber, padded]
        simp
      | succ i =>
        rw [SectionAt.cons_succ_iff] at reach
        obtain ⟨k, n, r', R, hr', past, numbered, ends⟩ :=
          numberLevel_number plain ranksRest fromRest reach
        exact ⟨k, n, r', R, hr', Nat.lt_of_le_of_lt (lookup_bump_le c r r') past, numbered, ends⟩
    · obtain ⟨e', kind', numbered⟩ := @numberLevel_cons_other cfg pre low c e kind rest
      rw [numbered] at reach
      cases i with
      | zero =>
        rw [SectionAt.cons_zero_iff, SectionAt.single_iff] at reach
        exact absurd (kind'.symm.trans reach.1) kind
      | succ i =>
        rw [SectionAt.cons_succ_iff] at reach
        exact numberLevel_number plain ranksRest fromRest reach
termination_by (sizeOf es, 0)
decreasing_by
  all_goals
    apply Prod.Lex.left
    cases e
    simp <;> omega

end

/-- Sections of a level that are reached under two different sections of that level, or under
one and at another, have different numbers: the padding tells the ranks apart, and among
sections of one rank the counter only grows. -/
theorem numbered_head_apart_rest {pre : String} {low : Int} {c : List (Nat × Nat)} {e x y : Entry}
    {r : Nat} {cs rest : List Entry} {p q : List Nat} (plain : ' ' ∉ pre.toList)
    (above : low ≤ r) (ranks : RanksDescend cfg rest) (fromLow : RanksFrom cfg low rest)
    (below : ∀ q y, SectionAt cs q y → ∃ R, y.number.toList =
      (levelNumber pre low r ((c.lookup r).getD 0 + 1) ++ ".").toList ++ R)
    (hx : SectionAt [{ e with
      label := levelNumber pre low r ((c.lookup r).getD 0 + 1) ++ " " ++ e.label
      children := cs }] p x)
    (hy : SectionAt (numberLevel cfg pre low ((r, (c.lookup r).getD 0 + 1) :: c) rest) q y) :
    x.number ≠ y.number := by
  intro same
  obtain ⟨R, numbered, ends⟩ :=
    numbered_head (space_not_mem_levelNumber plain low r ((c.lookup r).getD 0 + 1)) below hx
  obtain ⟨j, q, rfl⟩ : ∃ j q', q = j :: q' := List.exists_cons_of_ne_nil hy.path_ne_nil
  obtain ⟨k, n, r', R', ranked', past, numbered', ends'⟩ := numberLevel_number plain ranks fromLow hy
  have padded : (r : Int) - low = (((r : Int) - low).toNat : Nat) := by omega
  have chars := congrArg String.toList same
  rw [numbered, numbered', levelNumber, padded] at chars
  simp only [String.toList_append, List.append_assoc, List.append_cancel_left_eq] at chars
  obtain ⟨samePadding, sameCounter⟩ := block_injective (Nat.succ_pos _)
    (Nat.lt_of_le_of_lt (Nat.zero_le _) past) ends ends'
    (by simpa only [List.append_assoc] using chars)
  -- the same padding means the same rank, whose counter has since passed this section's
  have sameRank : r' = r := by omega
  subst sameRank sameCounter
  simp [List.lookup] at past

mutual

/-- Numbering a forest gives the unstarred sections it reaches through unstarred sections
pairwise distinct numbers. -/
theorem numberSectionsWith_apart {pre : String} {lowest : Option Int} {es : List Entry}
    (plain : ' ' ∉ pre.toList) (ranks : RanksDescend cfg es)
    (fromLowest : ∀ l, lowest = some l → RanksFrom cfg l es) :
    SectionNumbersApart (numberSectionsWith cfg pre lowest es) := by
  rw [numberSectionsWith]
  split
  · rename_i none_ranked
    intro p q x y hx _ _
    exact (unranked_level ranks none_ranked hx).elim
  · rename_i r rs some_ranked
    exact numberLevel_apart plain ranks (ranksFrom_level fromLowest some_ranked)
termination_by (sizeOf es, 1)

/-- Numbering one level gives the unstarred sections it reaches through unstarred sections
pairwise distinct numbers. -/
theorem numberLevel_apart {pre : String} {low : Int} {c : List (Nat × Nat)} {es : List Entry}
    (plain : ' ' ∉ pre.toList) (ranks : RanksDescend cfg es) (fromLow : RanksFrom cfg low es) :
    SectionNumbersApart (numberLevel cfg pre low c es) := by
  match es with
  | [] =>
    intro p q x y hx
    simp [numberLevel] at hx
  | e :: rest =>
    obtain ⟨own, inner, ranksRest⟩ := RanksDescend.cons_iff.1 ranks
    have fromRest : RanksFrom cfg low rest := fun d mem => fromLow d (List.mem_cons_of_mem _ mem)
    by_cases kind : e.kind = .section
    · have section_ : e.isSection = true := by simp [Entry.isSection, kind]
      obtain ⟨r, ranked, higher⟩ := own section_
      have above : low ≤ r := fromLow e (List.mem_cons_self ..) section_ r ranked
      have plainNumber := space_not_mem_levelNumber plain low r ((c.lookup r).getD 0 + 1)
      have childrenFrom : ∀ l, some ((r : Int) + 1) = some l → RanksFrom cfg l e.children :=
        fun l same => by cases same; exact .children higher
      have below := fun q y (hy : SectionAt (numberSectionsWith cfg
          (levelNumber pre low r ((c.lookup r).getD 0 + 1) ++ ".") (some ((r : Int) + 1))
          e.children) q y) =>
        numberSectionsWith_number (space_not_mem_append_dot plainNumber) inner childrenFrom hy
      rw [numberLevel_cons_section kind ranked]
      refine .cons (.single ?children ?own) (numberLevel_apart plain ranksRest fromRest)
        (fun p q x y hx hy => numbered_head_apart_rest plain above ranksRest fromRest below hx hy)
      · exact numberSectionsWith_apart (space_not_mem_append_dot plainNumber) inner childrenFrom
      · -- a number is a strict prefix of the numbers below it
        intro q y hy same
        obtain ⟨R, numbered⟩ := below q y hy
        have lengths := congrArg (·.toList.length) same
        simp only [number_relabelled e plainNumber] at lengths
        rw [numbered] at lengths
        simp at lengths
    · obtain ⟨e', kind', numbered⟩ := @numberLevel_cons_other cfg pre low c e kind rest
      have unreached : ∀ p x, ¬ SectionAt [e'] p x := fun p x hx =>
        kind ((kind'.symm.trans (SectionAt.single_iff.1 hx).1))
      rw [numbered]
      exact .cons (fun p _ x _ hx => (unreached p x hx).elim)
        (numberLevel_apart plain ranksRest fromRest) (fun p _ x _ hx => (unreached p x hx).elim)
termination_by (sizeOf es, 0)
decreasing_by
  all_goals
    apply Prod.Lex.left
    cases e
    simp <;> omega

end

end Level

/-! ## Ranks grow under nesting -/

section Nesting

variable {cfg : Config}

mutual

/-- Moving entries under sections keeps ranks descending when every section is a ranked leaf:
a section then gets only entries that are no sections. -/
theorem nestNonSections_ranksDescend {es : List Entry} (leaves : RankedLeaves cfg es) :
    RanksDescend cfg (nestNonSections es) := by
  rw [nestNonSections]
  exact nestLevel_ranksDescend leaves (by simp) (by simp [RanksDescend.nil])
termination_by (sizeOf es, 1)

theorem nestLevel_ranksDescend {es : List Entry} {current : Option Entry} {done : Array Entry}
    (leaves : RankedLeaves cfg es) (opened : ∀ s ∈ current, RanksDescend cfg [s])
    (placed : RanksDescend cfg done.toList) :
    RanksDescend cfg (nestLevel es current done) := by
  match es with
  | [] =>
    cases current with
    | none => simpa [nestLevel] using placed
    | some s => simpa [nestLevel] using placed.append (opened s rfl)
  | e :: rest =>
    obtain ⟨own, inner, leavesRest⟩ := RankedLeaves.cons_iff.1 leaves
    have placedHere : RanksDescend cfg [e.withChildren (nestNonSections e.children)] := by
      refine RanksDescend.cons_iff.2 ⟨fun section_ => ?_,
        by simpa using nestNonSections_ranksDescend inner, .nil⟩
      rw [isSection_withChildren] at section_
      obtain ⟨ranked, noChildren⟩ := own section_
      obtain ⟨r, hr⟩ := Option.isSome_iff_exists.1 ranked
      refine ⟨r, by simpa using hr, fun d mem _ => ?_⟩
      simp [noChildren, nestNonSections, nestLevel] at mem
    cases current with
    | none =>
      rw [nestLevel]
      split
      · exact nestLevel_ranksDescend leavesRest (by simpa using placedHere) placed
      · exact nestLevel_ranksDescend leavesRest (by simp) (by simpa using placed.append placedHere)
    | some s =>
      rw [nestLevel]
      split
      · exact nestLevel_ranksDescend leavesRest (by simpa using placedHere)
          (by simpa using placed.append (opened s rfl))
      · rename_i notSection
        refine nestLevel_ranksDescend leavesRest ?_ placed
        simpa using RanksDescend.attach (opened s rfl) placedHere
          (fun _ section_ => absurd section_ notSection)
termination_by (sizeOf es, 0)
decreasing_by
  all_goals
    apply Prod.Lex.left
    cases e
    simp <;> omega

end

/-- The open sections while nesting by rank: each a ranked section whose ranks descend, the
ranks strictly falling from the innermost to the outermost. -/
def StackRanked (cfg : Config) (stack : List OpenSection) : Prop :=
  (∀ s ∈ stack, s.1.isSection ∧ cfg.rank s.1.name = some s.2 ∧ RanksDescend cfg [s.1]) ∧
    (stack.map (·.2)).Pairwise (· > ·)

/-- Closing an open section into the one under it keeps the stack ranked. -/
theorem StackRanked.close {top parent : Entry} {tr r : Nat} {rest : List OpenSection}
    (h : StackRanked cfg ((top, tr) :: (parent, r) :: rest)) :
    StackRanked cfg ((parent.withChildren (parent.children ++ [top]), r) :: rest) := by
  obtain ⟨entries, falling⟩ := h
  obtain ⟨topSection, topRanked, topDescends⟩ := entries (top, tr) (by simp)
  obtain ⟨parentSection, parentRanked, parentDescends⟩ := entries (parent, r) (by simp)
  have deeper : r < tr := by
    simp only [List.map_cons, List.pairwise_cons, List.mem_cons, List.mem_map] at falling
    exact falling.1 r (.inl rfl)
  refine ⟨fun s mem => ?_, by simpa using (List.pairwise_cons.1 falling).2⟩
  rcases List.mem_cons.1 mem with rfl | mem
  · refine ⟨by simpa using parentSection, by simpa using parentRanked, ?_⟩
    exact RanksDescend.attach parentDescends topDescends fun _ _ r' ranked' =>
      ⟨tr, topRanked, by rw [parentRanked] at ranked'; cases ranked'; exact deeper⟩
  · exact entries s (by simp [mem])

/-- Closing every open section gives a root whose ranks descend. -/
theorem closeAll_ranksDescend {stack : List OpenSection} (h : StackRanked cfg stack)
    {root : Entry} (closed : closeAll stack = some root) : RanksDescend cfg [root] := by
  induction stack using closeAll.induct with
  | case1 => simp [closeAll] at closed
  | case2 s r =>
    simp only [closeAll, Option.some.injEq] at closed
    subst closed
    exact (h.1 (s, r) (by simp)).2.2
  | case3 top tr parent r rest ih =>
    rw [closeAll] at closed
    exact ih h.close closed

/-- Closing the open sections of rank `rank` or more, when the outermost ranks below `rank`,
keeps the stack ranked and leaves only sections of smaller rank. -/
theorem closeFrom_ranked (rank : Nat) {stack : List OpenSection} (h : StackRanked cfg stack)
    (outer : ∀ o ∈ (stack.map (·.2)).getLast?, o < rank) :
    StackRanked cfg (closeFrom rank stack) ∧ ∀ s ∈ closeFrom rank stack, s.2 < rank := by
  induction stack using closeFrom.induct rank with
  | case1 top tr parent pr rest closes ih =>
    rw [closeFrom, if_pos closes]
    exact ih h.close (by simpa using outer)
  | case2 top tr parent pr rest stays =>
    rw [closeFrom, if_neg stays]
    refine ⟨h, fun s mem => ?_⟩
    have falling := h.2
    simp only [List.map_cons, List.pairwise_cons, List.mem_cons, List.mem_map] at falling
    rcases List.mem_cons.1 mem with rfl | mem
    · omega
    · have := falling.1 s.2 (by
        rcases List.mem_cons.1 mem with rfl | mem
        · exact .inl rfl
        · exact .inr ⟨s, mem, rfl⟩)
      omega
  | case3 stack short =>
    rw [closeFrom]
    · refine ⟨h, fun s mem => ?_⟩
      rcases stack with _ | ⟨a, _ | ⟨b, rest⟩⟩
      · cases mem
      · rw [List.mem_singleton.1 mem]
        exact outer a.2 (by simp)
      · exact (short a.1 a.2 b.1 b.2 rest rfl).elim
    · simp_all

namespace RankNest

/-- While nesting by rank, the top level and the open sections keep ranks descending. -/
def Ranked (cfg : Config) (st : RankNest) : Prop :=
  RanksDescend cfg st.top.toList ∧ StackRanked cfg st.stack

/-- One step of the nesting keeps ranks descending, for an entry whose own ranks descend. -/
theorem step_ranked {st : RankNest} (h : st.Ranked cfg) {e : Entry}
    (he : RanksDescend cfg [e]) : (st.step cfg e).Ranked cfg := by
  obtain ⟨top, stack⟩ := h
  have opens : ∀ r, cfg.rank e.name = some r → e.isSection = true →
      StackRanked cfg [(e, r)] :=
    fun r ranked section_ => ⟨by simp [section_, ranked, he], by simp⟩
  rw [step]
  split
  · rename_i r ranked
    have section_ : e.isSection = true := by
      cases h : e.isSection <;> simp_all
    have ranked' : cfg.rank e.name = some r := by simpa [section_] using ranked
    split
    · rename_i last outer opened
      split
      · -- the open sections close into their slot before the section opens anew
        cases closing : closeAll st.stack with
        | none => exact ⟨by simpa using top.append he, opens r ranked' section_⟩
        | some root =>
          refine ⟨?_, opens r ranked' section_⟩
          simpa [Array.toList_setIfInBounds] using
            (top.set st.slot (closeAll_ranksDescend stack closing)).append he
      · rename_i deeper
        have outerBelow : ∀ o ∈ (st.stack.map (·.2)).getLast?, o < r := by
          intro o mem
          rw [List.getLast?_map, opened] at mem
          simp at mem
          omega
        obtain ⟨closedRanked, below⟩ := closeFrom_ranked r stack outerBelow
        refine ⟨top, fun s mem => ?_, ?_⟩
        · rcases List.mem_cons.1 mem with rfl | mem
          · exact ⟨section_, ranked', he⟩
          · exact closedRanked.1 s mem
        · refine List.pairwise_cons.2 ⟨fun o listed => ?_, closedRanked.2⟩
          obtain ⟨s, mem, rfl⟩ := List.mem_map.1 listed
          exact below s mem
    · exact ⟨by simpa using top.append he, opens r ranked' section_⟩
  · split
    · rename_i s sr rest included opened
      rw [opened] at stack
      obtain ⟨sSection, sRanked, sDescends⟩ := stack.1 (s, sr) (by simp)
      refine ⟨top, fun x mem => ?_, by simpa using stack.2⟩
      rcases List.mem_cons.1 mem with rfl | mem
      · refine ⟨by simpa using sSection, by simpa using sRanked, ?_⟩
        exact RanksDescend.attach sDescends he fun _ eSection =>
          absurd eSection (by simp [Entry.isSection, included])
      · exact stack.1 x (by simp [mem])
    · exact ⟨by simpa using top.append he, stack⟩

theorem finish_ranked {st : RankNest} (h : st.Ranked cfg) : RanksDescend cfg st.finish := by
  rw [finish]
  split
  · rename_i root closing
    simpa [Array.toList_setIfInBounds] using h.1.set st.slot (closeAll_ranksDescend h.2 closing)
  · exact h.1

end RankNest

mutual

/-- Numbering floats changes labels only, so ranks still descend. -/
theorem numberFloatsWith_ranksDescend {es : List Entry} {c : Counters} (h : RanksDescend cfg es) :
    RanksDescend cfg (numberFloatsWith es c).1 ∧
      (numberFloatsWith es c).1.map (fun d => (d.kind, d.name)) =
        es.map (fun d => (d.kind, d.name)) := by
  match es with
  | [] => simp [numberFloatsWith, RanksDescend.nil]
  | e :: rest =>
    obtain ⟨first, rest'⟩ := RanksDescend.cons_iff_single.1 h
    obtain ⟨firstNumbered, kind, name⟩ := numberFloatsOf_ranksDescend (c := c) first
    rcases numbered : numberFloatsOf e c with ⟨e', c1⟩
    rw [numbered] at firstNumbered kind name
    obtain ⟨restNumbered, shape⟩ := numberFloatsWith_ranksDescend (c := c1) rest'
    rcases numbered' : numberFloatsWith rest c1 with ⟨rest'', c2⟩
    rw [numbered'] at restNumbered shape
    dsimp only at firstNumbered kind name restNumbered shape
    simp only [numberFloatsWith, numbered, numbered']
    exact ⟨RanksDescend.cons_iff_single.2 ⟨firstNumbered, restNumbered⟩, by simp [kind, name, shape]⟩

theorem numberFloatsOf_ranksDescend {e : Entry} {c : Counters} (h : RanksDescend cfg [e]) :
    RanksDescend cfg [(numberFloatsOf e c).1] ∧ (numberFloatsOf e c).1.kind = e.kind ∧
      (numberFloatsOf e c).1.name = e.name := by
  match e with
  | ⟨k, n, l, o, s, t, f, cs⟩ =>
    obtain ⟨l', c1, numbered, -, -⟩ := numberFloatsOf_label k n l o s t f cs c
    obtain ⟨inner, shape⟩ := numberFloatsWith_ranksDescend (c := c1)
      (RanksDescend.cons_iff.1 h).2.1
    rw [numbered]
    exact ⟨RanksDescend.of_shape h inner rfl rfl shape, rfl, rfl⟩

end

/-- Nesting sections by rank keeps ranks descending: a section closes only into an open
section of smaller rank. -/
theorem nestSections_ranksDescend {es : List Entry} (h : RanksDescend cfg es) :
    RanksDescend cfg (nestSections cfg es) := by
  have walk : ∀ (es : List Entry) (st : RankNest), st.Ranked cfg → RanksDescend cfg es →
      (es.foldl (RankNest.step cfg) st).Ranked cfg := by
    intro es
    induction es with
    | nil => exact fun st hst _ => hst
    | cons e rest ih =>
      intro st hst hes
      rw [RanksDescend.iff_forall, List.forall_mem_cons] at hes
      exact ih _ (RankNest.step_ranked hst hes.1) (RanksDescend.iff_forall.2 hes.2)
  exact RankNest.finish_ranked (walk es _ ⟨by simp [RanksDescend.nil], by simp [StackRanked]⟩ h)

end Nesting

/-! ## Outlines -/

section Arrange

variable {cfg : Config}

/-- An outline that merges included files and numbers sections is the outline without
section numbers, numbered. -/
theorem arrange_numbered (merge : cfg.mergeIncluded = true) (numbered : cfg.numberSections = true)
    (forests : Forests) (es : List Entry) (root : Option String) :
    arrange cfg forests es root =
      numberSections cfg (arrange { cfg with numberSections := false } forests es root) := by
  simp only [arrange, merge, numbered, Bool.true_and, if_true, Bool.false_eq_true, if_false]
  rfl

/-- Before section numbers are added, the outline of a run whose spliced document has ranked
leaves for sections has ranks growing from each section to the sections under it. -/
theorem arrange_unnumbered_ranksDescend {forests : Forests} {es : List Entry}
    {root : Option String} (merge : cfg.mergeIncluded = true)
    (leaves : RankedLeaves cfg (splice forests es root)) :
    RanksDescend cfg (arrange { cfg with numberSections := false } forests es root) := by
  have nested := nestSections_ranksDescend (nestNonSections_ranksDescend leaves)
  simp only [arrange, merge, Bool.true_and, if_true, Bool.false_eq_true, if_false]
  split
  · exact (numberFloatsWith_ranksDescend nested).1
  · exact nested

/-- The outline of a run whose spliced document has ranked leaves for sections gives the
unstarred sections under no starred section pairwise distinct numbers. -/
theorem arrange_section_numbers_apart {forests : Forests} {es : List Entry}
    {root : Option String} (merge : cfg.mergeIncluded = true) (numbered : cfg.numberSections = true)
    (leaves : RankedLeaves cfg (splice forests es root)) :
    SectionNumbersApart (arrange cfg forests es root) := by
  rw [arrange_numbered merge numbered]
  exact numberSectionsWith_apart (by simp) (arrange_unnumbered_ranksDescend merge leaves)
    (fun _ none_ => nomatch none_)

end Arrange

end TexToc.Outline

namespace TexToc

open Outline

/-- With section numbering on and included files merged, the unstarred sections of an
outline that lie under no starred section carry pairwise distinct numbers. -/
theorem outline_section_numbers_apart {s : Session} {file : Option String} {outline : List Entry}
    (numbering : s.settings.sectionNumbers = true) (built : (s.outline file true).1 = .ok outline) :
    SectionNumbersApart outline := by
  rcases Session.outline_ok built with rfl | ⟨cfg, target, run, configured, gathered, rfl⟩
  · intro p q x y hx
    simp at hx
  · obtain ⟨merge, numbered⟩ := Config.ofSettings_ok configured
    exact arrange_section_numbers_apart merge (numbered.trans numbering)
      (gather_splice_rankedLeaves gathered (some target))

/-- Settings that rank the commands `s` and `t`, numbering sections. -/
def shortSections : Settings := { Settings.standard with sections := ["s", "t"] }

/-- A session on one file with a starred section between two ranked ones, each with a
section of the next rank under it. -/
def starredSession : Session :=
  ⟨⟨[], []⟩, "/", fun _ => none, shortSections, some "/main.tex",
    [("/main.tex", "\\s{A}\\t{C}\\s*{B}\\t{D}")], .empty⟩

/-- The outline of `starredSession`: the section under the starred one is numbered from the
counter the starred section found. -/
def starredOutline : List Entry :=
  [⟨.section, "s", "1 A", 0, 0, 0, "/main.tex",
      [⟨.section, "t", "1.1 C", 5, 0, 0, "/main.tex", []⟩]⟩,
    ⟨.sectionStarred, "s", "* B", 10, 0, 0, "/main.tex",
      [⟨.section, "t", "1.1 D", 16, 0, 0, "/main.tex", []⟩]⟩]

set_option maxHeartbeats 400000 in
set_option maxRecDepth 20000 in
theorem starredSession_outline : (starredSession.outline none true).1 = .ok starredOutline := by
  cbv

/-- A section under a starred section can repeat the number of an unstarred section
elsewhere: `C` and `D` are both numbered `1.1`. -/
theorem starred_section_number_repeats :
    starredSession.settings.sectionNumbers = true ∧
      ∃ outline, (starredSession.outline none true).1 = .ok outline ∧
        ∃ x ∈ Entry.preorder outline, ∃ y ∈ Entry.preorder outline,
          x.kind = .section ∧ y.kind = .section ∧ x.label ≠ y.label ∧ x.number = y.number := by
  refine ⟨rfl, starredOutline, starredSession_outline,
    ⟨.section, "t", "1.1 C", 5, 0, 0, "/main.tex", []⟩, by simp [starredOutline],
    ⟨.section, "t", "1.1 D", 16, 0, 0, "/main.tex", []⟩, by simp [starredOutline],
    rfl, rfl, by decide, by decide⟩

/-- In the outline of `starredSession`, the unstarred sections under no starred section, `A`
and `C`, are numbered apart. -/
theorem starredSession_section_numbers_apart :
    starredSession.settings.sectionNumbers = true ∧
      (starredSession.outline none true).1 = .ok starredOutline ∧
      SectionNumbersApart starredOutline :=
  ⟨rfl, starredSession_outline, outline_section_numbers_apart rfl starredSession_outline⟩

end TexToc
