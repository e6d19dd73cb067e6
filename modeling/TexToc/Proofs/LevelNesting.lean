import TexToc.Proofs.DocumentOrder

/-!
# Entries hang under the section before them

The first nesting pass takes an outline level by level. An entry that is not a section and
follows a section among its siblings moves under the closest such section, after the entries
already nested there; the entries before the first section stay where they are. The pass
builds new entries and never changes the forest it is given.

Every list of siblings splits into a run of entries that are not sections and then, section
by section, a section followed by the run after it. Two equations on such runs pin the pass
down:

* `nestNonSections_leading`: a leading run stays, each entry nested on its own
  (`nestedEntry`);
* `nestNonSections_section_run`: a section takes the run after it, after its own nested
  entries.

When no section of a forest has a section under it, as in every forest a run gathers
(`RankedLeaves.noSectionUnderSection`), every list of siblings of the result has its sections
last (`nestNonSections_sectionsLastThroughout`). The pass leaves such a forest as it is
(`nestNonSections_of_sectionsLastThroughout`), so a second pass changes nothing.

* `entries_hang_under_previous_section`: the statement for every forest.
-/

namespace TexToc.Outline

open Entry

/-- An entry with the entries under it nested, level by level. -/
def nestedEntry (e : Entry) : Entry := e.withChildren (nestNonSections e.children)

@[simp] theorem isSection_nestedEntry (e : Entry) : (nestedEntry e).isSection = e.isSection := rfl

@[simp] theorem children_nestedEntry (e : Entry) :
    (nestedEntry e).children = nestNonSections e.children := rfl

/-! ## One level -/

theorem nestLevel_nil (current : Option Entry) (done : Array Entry) :
    nestLevel [] current done = done.toList ++ current.toList := by
  cases current <;> simp [nestLevel]

/-- What is already placed stands first, whatever comes after it. -/
theorem nestLevel_placed (es : List Entry) (current : Option Entry) (done : Array Entry) :
    nestLevel es current done = done.toList ++ nestLevel es current #[] := by
  induction es generalizing current done with
  | nil => simp [nestLevel_nil]
  | cons e rest ih =>
    cases current with
    | some s =>
      rw [nestLevel, nestLevel]
      split
      · rw [ih _ (done.push s), ih _ (#[].push s)]
        simp
      · exact ih _ _
    | none =>
      rw [nestLevel, nestLevel]
      split
      · exact ih _ _
      · rw [ih _ (done.push _), ih _ (#[].push _)]
        simp

/-- A section closes the section that takes entries, and takes entries itself. -/
theorem nestLevel_section {e : Entry} (section_ : e.isSection) (rest : List Entry)
    (current : Option Entry) :
    nestLevel (e :: rest) current #[] =
      current.toList ++ nestLevel rest (some (nestedEntry e)) #[] := by
  cases current with
  | some s =>
    rw [nestLevel, if_pos (by simpa using section_), nestLevel_placed]
    rfl
  | none =>
    rw [nestLevel, if_pos (by simpa using section_)]
    rfl

/-- Before the first section, entries stay at the level, each nested on its own. -/
theorem nestLevel_leading {lead : List Entry} (others : ∀ e ∈ lead, e.isSection = false)
    (rest : List Entry) :
    nestLevel (lead ++ rest) none #[] = lead.map nestedEntry ++ nestLevel rest none #[] := by
  induction lead with
  | nil => rfl
  | cons e lead ih =>
    have notSection : e.isSection = false := others e (by simp)
    rw [List.cons_append, nestLevel, if_neg (by simp [notSection]), nestLevel_placed,
      ih fun x mem => others x (by simp [mem])]
    rfl

/-- After a section, entries that are not sections go under it, after what it already holds. -/
theorem nestLevel_run {tail : List Entry} (others : ∀ e ∈ tail, e.isSection = false)
    (rest : List Entry) (s : Entry) :
    nestLevel (tail ++ rest) (some s) #[] =
      nestLevel rest (some (s.withChildren (s.children ++ tail.map nestedEntry))) #[] := by
  induction tail generalizing s with
  | nil => simp
  | cons e tail ih =>
    have notSection : e.isSection = false := others e (by simp)
    rw [List.cons_append, nestLevel, if_neg (by simp [notSection]),
      ih (fun x mem => others x (by simp [mem]))]
    simp [nestedEntry]

/-- The section that takes entries is placed once a section or the end comes. -/
theorem nestLevel_closed {rest : List Entry} (next : ∀ x ∈ rest.head?, x.isSection)
    (s : Entry) :
    nestLevel rest (some s) #[] = s :: nestLevel rest none #[] := by
  cases rest with
  | nil => simp [nestLevel_nil]
  | cons x rest =>
    have section_ : x.isSection := next x rfl
    rw [nestLevel_section section_, nestLevel_section section_]
    rfl

/-! ## The two equations of the pass -/

/-- Entries before the first section stay where they are, each nested on its own. -/
theorem nestNonSections_leading {lead : List Entry} (others : ∀ e ∈ lead, e.isSection = false)
    (rest : List Entry) :
    nestNonSections (lead ++ rest) = lead.map nestedEntry ++ nestNonSections rest := by
  rw [nestNonSections, nestNonSections, nestLevel_leading others]

/-- A section takes the run of entries after it that are not sections, after the entries
nested under it. -/
theorem nestNonSections_section_run {s : Entry} (section_ : s.isSection) {tail : List Entry}
    (others : ∀ e ∈ tail, e.isSection = false) {rest : List Entry}
    (next : ∀ x ∈ rest.head?, x.isSection) :
    nestNonSections (s :: tail ++ rest) =
      s.withChildren (nestNonSections s.children ++ tail.map nestedEntry) ::
        nestNonSections rest := by
  rw [nestNonSections, List.cons_append, nestLevel_section section_, nestLevel_run others,
    nestLevel_closed next, ← nestNonSections]
  simp [nestedEntry]

/-- A level whose sections come last keeps its entries in place, each nested on its own. -/
theorem nestNonSections_of_sectionsLast {es : List Entry} (last : SectionsLast es) :
    nestNonSections es = es.map nestedEntry := by
  induction es with
  | nil => rw [nestNonSections, nestLevel_nil]; rfl
  | cons e rest ih =>
    have restLast : SectionsLast rest := (List.pairwise_cons.1 last).2
    cases section_ : e.isSection with
    | false =>
      have := nestNonSections_leading
        (show ∀ x ∈ [e], x.isSection = false by simp [section_]) rest
      rw [List.singleton_append] at this
      rw [this, ih restLast]
      rfl
    | true =>
      have later : ∀ x ∈ rest, x.isSection := fun x mem =>
        (List.pairwise_cons.1 last).1 x mem section_
      have := nestNonSections_section_run section_
        (show ∀ x ∈ ([] : List Entry), x.isSection = false by simp)
        (fun x mem => later x (List.mem_of_mem_head? mem))
      rw [List.singleton_append] at this
      rw [this, ih restLast]
      simp [nestedEntry]

/-! ## Every level has its sections last -/

/-- Every entry of the forest, at any depth, has its sections last among the entries under it. -/
def LevelsSectionsLast (es : List Entry) : Prop :=
  ∀ x ∈ preorder es, SectionsLast x.children

/-- Every list of siblings of the forest, at any depth, has its sections last. -/
def SectionsLastThroughout (es : List Entry) : Prop :=
  SectionsLast es ∧ LevelsSectionsLast es

/-- No section of the forest, at any depth, has a section directly under it. -/
def NoSectionUnderSection (es : List Entry) : Prop :=
  ∀ x ∈ preorder es, x.isSection → ∀ c ∈ x.children, c.isSection = false

theorem levelsSectionsLast_append {as bs : List Entry} :
    LevelsSectionsLast (as ++ bs) ↔ LevelsSectionsLast as ∧ LevelsSectionsLast bs := by
  simp only [LevelsSectionsLast, preorder_append, List.mem_append]
  exact ⟨fun h => ⟨fun x mem => h x (.inl mem), fun x mem => h x (.inr mem)⟩,
    fun h x mem => mem.elim (h.1 x) (h.2 x)⟩

theorem levelsSectionsLast_single {x : Entry} :
    LevelsSectionsLast [x] ↔ SectionsLast x.children ∧ LevelsSectionsLast x.children := by
  simp [LevelsSectionsLast]

theorem levelsSectionsLast_iff_forall {es : List Entry} :
    LevelsSectionsLast es ↔ ∀ x ∈ es, LevelsSectionsLast [x] := by
  induction es with
  | nil => simp [LevelsSectionsLast]
  | cons e rest ih =>
    rw [← List.singleton_append, levelsSectionsLast_append, ih]
    simp

/-- A level whose entries have no section among them has its sections last. -/
theorem sectionsLast_of_none {es : List Entry} (none_ : ∀ x ∈ es, x.isSection = false) :
    SectionsLast es :=
  List.pairwise_of_forall_mem_list fun a ha _ _ h => by simp [none_ a ha] at h

/-- The entries of one member of a forest, in preorder, are entries of the forest. -/
theorem mem_preorder_of_single {e : Entry} {es : List Entry} (mem : e ∈ es) {x : Entry}
    (inner : x ∈ preorder [e]) : x ∈ preorder es := by
  induction es with
  | nil => cases mem
  | cons a rest ih =>
    rw [← List.singleton_append, preorder_append, List.mem_append]
    rcases List.mem_cons.1 mem with rfl | mem
    · exact .inl inner
    · exact .inr (ih mem)

theorem noSectionUnderSection_children {es : List Entry} (h : NoSectionUnderSection es) {e : Entry}
    (mem : e ∈ es) : NoSectionUnderSection e.children :=
  fun x inner => h x (mem_preorder_of_single mem (by simp [inner]))

theorem noSectionUnderSection_own {es : List Entry} (h : NoSectionUnderSection es) {e : Entry}
    (mem : e ∈ es) (section_ : e.isSection) : ∀ c ∈ e.children, c.isSection = false :=
  h e (mem_preorder_of_single mem (by simp)) section_

/-- Sections with entries that are no sections under them, and any entries settled on their
own, give a settled level. The pass adds to the section that takes entries only entries that
are no sections. -/
theorem nestLevel_levelsSectionsLast {es : List Entry} {current : Option Entry}
    (own : ∀ e ∈ es, LevelsSectionsLast [nestedEntry e] ∧
      (e.isSection → ∀ c ∈ (nestedEntry e).children, c.isSection = false))
    (opened : ∀ s ∈ current,
      LevelsSectionsLast s.children ∧ ∀ c ∈ s.children, c.isSection = false) :
    LevelsSectionsLast (nestLevel es current #[]) := by
  induction es generalizing current with
  | nil =>
    rw [nestLevel_nil]
    cases current with
    | none => simp [LevelsSectionsLast]
    | some s =>
      obtain ⟨settled, none_⟩ := opened s rfl
      exact levelsSectionsLast_single.2 ⟨sectionsLast_of_none none_, settled⟩
  | cons e rest ih =>
    obtain ⟨eSettled, eLeaves⟩ := own e (by simp)
    have restOwn := fun x mem => own x (List.mem_cons_of_mem e mem)
    cases section_ : e.isSection with
    | true =>
      rw [nestLevel_section section_]
      refine levelsSectionsLast_append.2 ⟨?_, ih restOwn ?_⟩
      · cases current with
        | none => simp [LevelsSectionsLast]
        | some s =>
          obtain ⟨settled, none_⟩ := opened s rfl
          exact levelsSectionsLast_single.2 ⟨sectionsLast_of_none none_, settled⟩
      · intro s mem
        cases Option.mem_def.1 mem
        exact ⟨(levelsSectionsLast_single.1 eSettled).2, eLeaves section_⟩
    | false =>
      cases current with
      | none =>
        have := nestLevel_leading (show ∀ x ∈ [e], x.isSection = false by simp [section_]) rest
        rw [List.singleton_append] at this
        rw [this]
        exact levelsSectionsLast_append.2 ⟨eSettled, ih restOwn (by simp)⟩
      | some s =>
        have := nestLevel_run (show ∀ x ∈ [e], x.isSection = false by simp [section_]) rest s
        rw [List.singleton_append] at this
        rw [this]
        refine ih restOwn fun s' mem => ?_
        cases Option.mem_def.1 mem
        obtain ⟨settled, none_⟩ := opened s rfl
        refine ⟨?_, fun c inner => ?_⟩
        · simpa using levelsSectionsLast_append.2 ⟨settled, eSettled⟩
        · rcases List.mem_append.1 inner with inner | inner
          · exact none_ c inner
          · simp only [List.map_cons, List.map_nil, List.mem_singleton] at inner
            rw [inner, isSection_nestedEntry, section_]

/-- With no section under a section, every entry nested on its own has its levels settled, and
a section gets no section under it. By recursion on the entries under the entry. -/
theorem nestedEntry_levelsSectionsLast (es : List Entry) (h : NoSectionUnderSection es) :
    ∀ e ∈ es, LevelsSectionsLast [nestedEntry e] ∧
      (e.isSection → ∀ c ∈ (nestedEntry e).children, c.isSection = false) := by
  intro e mem
  have inner := nestedEntry_levelsSectionsLast e.children (noSectionUnderSection_children h mem)
  refine ⟨levelsSectionsLast_single.2 ⟨nestNonSections_sectionsLast e.children, ?_⟩,
    fun section_ c cMem => ?_⟩
  · rw [children_nestedEntry, nestNonSections]
    exact nestLevel_levelsSectionsLast inner (by simp)
  · -- the entries under a section are no sections, so the pass keeps them in place
    have none_ := noSectionUnderSection_own h mem section_
    rw [children_nestedEntry, nestNonSections_of_sectionsLast (sectionsLast_of_none none_)] at cMem
    obtain ⟨d, dMem, rfl⟩ := List.mem_map.1 cMem
    rw [isSection_nestedEntry]
    exact none_ d dMem
termination_by sizeOf es
decreasing_by exact Nat.lt_trans (sizeOf_children_lt _) (List.sizeOf_lt_of_mem ‹_ ∈ es›)

/-- With no section under a section, every list of siblings of the result has its sections
last. -/
theorem nestNonSections_sectionsLastThroughout {es : List Entry} (h : NoSectionUnderSection es) :
    SectionsLastThroughout (nestNonSections es) := by
  refine ⟨nestNonSections_sectionsLast es, ?_⟩
  rw [nestNonSections]
  exact nestLevel_levelsSectionsLast (nestedEntry_levelsSectionsLast es h) (by simp)

/-- A forest whose every list of siblings has its sections last is left as it is. -/
theorem nestNonSections_of_sectionsLastThroughout (es : List Entry)
    (h : SectionsLastThroughout es) : nestNonSections es = es := by
  rw [nestNonSections_of_sectionsLast h.1]
  conv_rhs => rw [← List.map_id es]
  refine List.map_congr_left fun e mem => ?_
  have own := (levelsSectionsLast_iff_forall.1 h.2) e mem
  have inner : nestNonSections e.children = e.children :=
    nestNonSections_of_sectionsLastThroughout e.children (levelsSectionsLast_single.1 own)
  simp [nestedEntry, inner]
termination_by sizeOf es
decreasing_by exact Nat.lt_trans (sizeOf_children_lt _) (List.sizeOf_lt_of_mem ‹_ ∈ es›)

/-- Every forest a run gathers has no section under a section: its sections have nothing
under them. -/
theorem RankedLeaves.noSectionUnderSection {cfg : Config} {es : List Entry}
    (h : RankedLeaves cfg es) : NoSectionUnderSection es :=
  fun x mem section_ c inner => by simp [(h x mem section_).2] at inner

/-- Moving entries that are not sections under the section before them, level by level.

Entries before the first section of a level stay; each section takes the run of entries that
follows it up to the next section, after its own nested entries; and the entries under every
entry are handled the same way. When no section has a section under it, as in every forest a
run gathers, every list of siblings of the result has its sections last, and the pass applied
again changes nothing. -/
theorem entries_hang_under_previous_section :
    (∀ lead rest : List Entry, (∀ e ∈ lead, e.isSection = false) →
      nestNonSections (lead ++ rest) = lead.map nestedEntry ++ nestNonSections rest) ∧
    (∀ (s : Entry) (tail rest : List Entry), s.isSection →
      (∀ e ∈ tail, e.isSection = false) →
      (∀ x ∈ rest.head?, x.isSection) →
      nestNonSections (s :: tail ++ rest) =
        s.withChildren (nestNonSections s.children ++ tail.map nestedEntry) ::
          nestNonSections rest) ∧
    (∀ es : List Entry, NoSectionUnderSection es →
      SectionsLastThroughout (nestNonSections es) ∧
        nestNonSections (nestNonSections es) = nestNonSections es) := by
  refine ⟨fun lead rest others => nestNonSections_leading others rest,
    fun s tail rest section_ others next => nestNonSections_section_run section_ others next,
    fun es h => ?_⟩
  have settled := nestNonSections_sectionsLastThroughout h
  exact ⟨settled, nestNonSections_of_sectionsLastThroughout _ settled⟩

/-- Figures around a section and a subsection: the section takes the figure after it, and a
second pass over the figures and sections changes nothing. -/
theorem figuresAroundSections_hang :
    nestNonSections (⟨.section, "section", "Intro", 10, 1, 1, "main.tex", []⟩ ::
        [⟨.environment, "figure", "Figure: B", 20, 2, 2, "main.tex", []⟩] ++
        [⟨.section, "subsection", "Part", 30, 3, 3, "main.tex", []⟩]) =
      (⟨.section, "section", "Intro", 10, 1, 1, "main.tex", []⟩ : Entry).withChildren
          (nestNonSections [] ++
            [nestedEntry ⟨.environment, "figure", "Figure: B", 20, 2, 2, "main.tex", []⟩]) ::
        nestNonSections [⟨.section, "subsection", "Part", 30, 3, 3, "main.tex", []⟩] ∧
    NoSectionUnderSection figuresAroundSections ∧
      SectionsLastThroughout (nestNonSections figuresAroundSections) ∧
      nestNonSections (nestNonSections figuresAroundSections) =
        nestNonSections figuresAroundSections := by
  have noneUnder : NoSectionUnderSection figuresAroundSections := by
    unfold NoSectionUnderSection
    decide
  exact ⟨entries_hang_under_previous_section.2.1 _ _ _ rfl (by decide) (by decide), noneUnder,
    entries_hang_under_previous_section.2.2 _ noneUnder⟩

end TexToc.Outline
