import TexToc.Proofs.SectionNumbers

/-!
# Section labels follow the ranks

Numbering writes before the label of every ranked section that is reached from the top of
the outline through sections only a number and a space, or a star and a space for a
starred section. A number is made of dot-separated segments, one for every rank from the
lowest rank of the outline's top level down to the section's own rank, and it starts with
the number of the section above it followed by a point; a starred section hands a number
to the sections under it as well, though it does not show it. Everything else keeps its
label: entries that are no ranked sections, and all the entries under them.

The law holds because nesting puts under a section only sections of a higher rank, so that
the padding of a number is never cut short. It is stated by comparing an outline with the
outline of the same request with section numbering switched off, which gathers the same
forests: gathering reads no numbering setting.

* `segments`, `lowestRank`: the segments of a number, and the lowest rank of a level.
* `NumberedLevel`, `SectionsNumbered`: the numbering law, level by level.
* `numberSections_numbered`: numbering obeys the law on every outline whose ranks grow from
  each section to the sections under it.
* `outline_numbers_sections_by_rank`: the outline of a request obeys the law, compared with
  the same request without section numbers.
-/

namespace TexToc.Outline

open Entry

/-! ## Gathering reads no numbering setting -/

section Gathering

variable (g : Gathering) (b : Bool) (file : String) (sub : String → Run → Except (Failure × Run) Run)

theorem placeChunks_numbering (pl : Place) (chunks : List ChildChunk) (run : Run) :
    placeChunks { g with cfg := { g.cfg with numberSections := b } } file sub pl chunks run =
      placeChunks g file sub pl chunks run := by
  induction chunks generalizing run with
  | nil => rfl
  | cons c rest ih =>
    rw [placeChunks, placeChunks]
    simp only [ih]

theorem walkWith_numbering (idx : Text.LineIndex) (n : Markup.Node)
    (inner : WalkState → Except (Failure × Run) (List Entry × WalkState)) (st : WalkState) :
    walkWith { g with cfg := { g.cfg with numberSections := b } } file sub idx n inner st =
      walkWith g file sub idx n inner st := by
  unfold walkWith
  simp only [placeChunks_numbering]
  rfl

mutual

theorem walkNode_numbering (idx : Text.LineIndex) (n : Markup.Node) :
    walkNode { g with cfg := { g.cfg with numberSections := b } } file sub idx n =
      walkNode g file sub idx n := by
  funext st
  rw [walkNode, walkNode, walkNodes_numbering idx n.body, walkWith_numbering]
termination_by 2 * sizeOf n + 1
decreasing_by have := Markup.Node.sizeOf_body_le n; omega

theorem walkNodes_numbering (idx : Text.LineIndex) (ns : List Markup.Node) :
    walkNodes { g with cfg := { g.cfg with numberSections := b } } file sub idx ns =
      walkNodes g file sub idx ns := by
  funext st
  match ns with
  | [] => rw [walkNodes, walkNodes]
  | n :: ns => rw [walkNodes, walkNodes, walkNode_numbering idx n, walkNodes_numbering idx ns]
termination_by 2 * sizeOf ns
decreasing_by
  all_goals simp only [List.cons.sizeOf_spec]
  all_goals omega

end

theorem pollDocument_numbering (p : String) (left : Nat) (c : DocCache) :
    pollDocument { g with cfg := { g.cfg with numberSections := b } } p left c =
      pollDocument g p left c := by
  induction left generalizing c with
  | zero => rfl
  | succ left ih =>
    rw [pollDocument, pollDocument]
    simp only [ih]

theorem loadDocument_numbering (p : String) (c : DocCache) :
    loadDocument { g with cfg := { g.cfg with numberSections := b } } p c = loadDocument g p c := by
  unfold loadDocument
  simp only [pollDocument_numbering]

theorem gatherFile_numbering (depth : Nat) :
    gatherFile { g with cfg := { g.cfg with numberSections := b } } depth = gatherFile g depth := by
  induction depth with
  | zero => funext p run; rfl
  | succ depth ih =>
    funext p run
    rw [gatherFile, gatherFile, ih]
    simp only [walkNodes_numbering, loadDocument_numbering]

/-- Gathering gives the same run whether sections are numbered or not. -/
theorem gather_numbering (p : String) (run : Run) :
    gather { g with cfg := { g.cfg with numberSections := b } } p run = gather g p run := by
  unfold gather
  rw [gatherFile_numbering]

end Gathering

theorem Config.ofSettings_sectionNumbers (st : Settings) (merge b : Bool) :
    Config.ofSettings { st with sectionNumbers := b } merge =
      (Config.ofSettings st merge).map fun cfg => { cfg with numberSections := b } := by
  unfold Config.ofSettings
  cases rankTable [] 0 st.sections <;> rfl

/-! ## The numbering law -/

/-- The number of dot-separated segments of a number. -/
def segments (number : String) : Nat :=
  number.toList.count '.' + 1

/-- The lowest rank among the ranked sections of a level, `0` when there is none. -/
def lowestRank (cfg : Config) (es : List Entry) : Nat :=
  ((es.filterMap fun e => if e.isSection then cfg.rank e.name else none).min?).getD 0

/-- `NumberedLevel cfg lowest parent plain out`: the forest `out` is `plain` with its sections
numbered, for an outline whose top level has the lowest rank `lowest`, inside the section
numbered `parent`, if any. A ranked section gets a number without blanks, of one segment
for every rank from `lowest` down to its own, that starts with the parent's number and a
point; its label becomes the number, or a star when it is starred, a space and its own
label, and the forest under it is numbered below that number. Every other entry stays as it
is, with everything under it. -/
inductive NumberedLevel (cfg : Config) (lowest : Nat) :
    Option String → List Entry → List Entry → Prop
  | nil {parent : Option String} : NumberedLevel cfg lowest parent [] []
  | ranked {parent : Option String} {e : Entry} {rest rest' cs : List Entry} {r : Nat}
      {number : String} :
      e.isSection → cfg.rank e.name = some r → ' ' ∉ number.toList →
      segments number + lowest = r + 1 →
      (∀ p, parent = some p → ∃ tail, number = p ++ "." ++ tail) →
      NumberedLevel cfg lowest (some number) e.children cs →
      NumberedLevel cfg lowest parent rest rest' →
      NumberedLevel cfg lowest parent (e :: rest)
        ({ e with label := (if e.kind = .section then number else "*") ++ " " ++ e.label
                  children := cs } :: rest')
  | unranked {parent : Option String} {e : Entry} {rest rest' : List Entry} :
      (e.isSection → cfg.rank e.name = none) → NumberedLevel cfg lowest parent rest rest' →
      NumberedLevel cfg lowest parent (e :: rest) (e :: rest')

/-- The outline `out` is the outline `plain` with its sections numbered from the lowest rank
of its top level. -/
def SectionsNumbered (cfg : Config) (plain out : List Entry) : Prop :=
  NumberedLevel cfg (lowestRank cfg plain) none plain out

/-! ## Numbering one level -/

/-- Where a level of numbering stands, in an outline whose top level has the lowest rank
`lowest`: its numbers start with `pre`, and the rank `low` takes no padding. On the top
level `pre` is empty and `low` is `lowest`; under a section numbered `p`, `pre` is `p` and a
point, and `low` is the rank just past those whose numbers have as many segments as `p`. -/
def LevelShape (lowest : Nat) (parent : Option String) (pre : String) (low : Int) : Prop :=
  match parent with
  | none => pre = "" ∧ low = lowest
  | some p => pre = p ++ "." ∧ ' ' ∉ p.toList ∧ ((segments p + lowest : Nat) : Int) = low

theorem count_dot_padding (k : Nat) : (padding (k : Int)).toList.count '.' = k := by
  induction k with
  | zero => simp [padding]
  | succ k ih => rw [toList_padding_succ]; simp [ih]

theorem count_dot_toString (n : Nat) : (toString n).toList.count '.' = 0 :=
  List.count_eq_zero.2 (dot_not_mem_toString n)

section Level

variable {cfg : Config}

/-- A number has one segment for every rank from the outline's lowest down to its own: the
parent's number brings those down to the rank that takes no padding, the padding those up to
the section's rank, and the counter the last. -/
theorem segments_levelNumber {lowest : Nat} {parent : Option String} {pre : String} {low : Int}
    (shape : LevelShape lowest parent pre low) {r : Nat} (above : low ≤ r) (n : Nat) :
    segments (levelNumber pre low r n) + lowest = r + 1 := by
  have padded : (r : Int) - low = (((r : Int) - low).toNat : Nat) := by omega
  have dots : (levelNumber pre low r n).toList.count '.' =
      pre.toList.count '.' + ((r : Int) - low).toNat := by
    simp only [levelNumber, String.toList_append, List.count_append, count_dot_toString]
    rw [padded, count_dot_padding]
    omega
  unfold segments
  rw [dots]
  cases parent with
  | none =>
    obtain ⟨rfl, rfl⟩ := shape
    simp
    omega
  | some p =>
    obtain ⟨rfl, -, segs⟩ := shape
    simp only [segments] at segs
    simp
    omega

theorem numberLevel_cons_ranked (pre : String) (low : Int) (c : List (Nat × Nat)) {e : Entry}
    {r : Nat} (section_ : e.isSection = true) (ranked : cfg.rank e.name = some r)
    (rest : List Entry) :
    ∃ n c', numberLevel cfg pre low c (e :: rest) =
      { e with
        label := (if e.kind = .section then levelNumber pre low r n else "*") ++ " " ++ e.label
        children := numberSectionsWith cfg (levelNumber pre low r n ++ ".")
          (some ((r : Int) + 1)) e.children } :: numberLevel cfg pre low c' rest := by
  rw [numberLevel]
  simp only [section_, ranked, if_true]
  by_cases kind : e.kind = .section
  · exact ⟨(c.lookup r).getD 0 + 1, (r, (c.lookup r).getD 0 + 1) :: c,
      by simp [kind, levelNumber]⟩
  · exact ⟨(c.lookup r).getD 0, c, by simp [kind, levelNumber]⟩

theorem numberLevel_cons_unranked {pre : String} {low : Int} {c : List (Nat × Nat)} {e : Entry}
    (unranked : (if e.isSection then cfg.rank e.name else none) = none) (rest : List Entry) :
    numberLevel cfg pre low c (e :: rest) = e :: numberLevel cfg pre low c rest := by
  rw [numberLevel]
  split
  · rfl
  · rename_i r ranked
    rw [unranked] at ranked
    cases ranked

/-- A level without ranked sections is left as it is. -/
theorem numberedLevel_of_unranked {lowest : Nat} {parent : Option String} {es : List Entry}
    (none_ranked : es.filterMap (fun e => if e.isSection then cfg.rank e.name else none) = []) :
    NumberedLevel cfg lowest parent es es := by
  induction es with
  | nil => exact .nil
  | cons e rest ih =>
    rw [List.filterMap_cons] at none_ranked
    split at none_ranked
    · rename_i unranked
      exact .unranked (fun section_ => by simpa [section_] using unranked) (ih none_ranked)
    · cases none_ranked

mutual

/-- Numbering the forest under a section obeys the law, when the ranks there grow from each
section to the sections under it and start past the section's own. -/
theorem numberSectionsWith_numbered {lowest : Nat} {parent : Option String} {pre : String}
    {low : Int} {es : List Entry} (ranks : RanksDescend cfg es) (fromLow : RanksFrom cfg low es)
    (shape : LevelShape lowest parent pre low) :
    NumberedLevel cfg lowest parent es (numberSectionsWith cfg pre (some low) es) := by
  rw [numberSectionsWith]
  split
  · rename_i none_ranked
    exact numberedLevel_of_unranked none_ranked
  · exact numberLevel_numbered ranks fromLow shape
termination_by (sizeOf es, 1)

/-- Numbering a level obeys the law, whatever the counters it starts from. -/
theorem numberLevel_numbered {lowest : Nat} {parent : Option String} {pre : String}
    {low : Int} {c : List (Nat × Nat)} {es : List Entry} (ranks : RanksDescend cfg es)
    (fromLow : RanksFrom cfg low es) (shape : LevelShape lowest parent pre low) :
    NumberedLevel cfg lowest parent es (numberLevel cfg pre low c es) := by
  match es with
  | [] => rw [numberLevel]; exact .nil
  | e :: rest =>
    obtain ⟨own, inner, ranksRest⟩ := RanksDescend.cons_iff.1 ranks
    have fromRest : RanksFrom cfg low rest := fun d mem => fromLow d (List.mem_cons_of_mem _ mem)
    by_cases section_ : e.isSection = true
    · obtain ⟨r, ranked, higher⟩ := own section_
      have above : low ≤ r := fromLow e (List.mem_cons_self ..) section_ r ranked
      obtain ⟨n, c', numbered⟩ := numberLevel_cons_ranked pre low c section_ ranked rest
      rw [numbered]
      have plainPre : ' ' ∉ pre.toList := by
        cases parent with
        | none => obtain ⟨rfl, -⟩ := shape; simp
        | some p => obtain ⟨rfl, plain, -⟩ := shape; simp [plain]
      have plainNumber := space_not_mem_levelNumber plainPre low r n
      refine .ranked section_ ranked plainNumber (segments_levelNumber shape above n) ?starts
        ?children (numberLevel_numbered ranksRest fromRest shape)
      case starts =>
        intro p same
        subst same
        obtain ⟨rfl, -, -⟩ := shape
        exact ⟨padding ((r : Int) - low) ++ toString n, by simp [levelNumber, String.append_assoc]⟩
      case children =>
        have segs := segments_levelNumber shape above n
        exact numberSectionsWith_numbered inner (.children higher)
          ⟨rfl, plainNumber, by omega⟩
    · have unranked : (if e.isSection then cfg.rank e.name else none) = none := by
        simp [section_]
      rw [numberLevel_cons_unranked unranked]
      exact .unranked (fun s => absurd s section_) (numberLevel_numbered ranksRest fromRest shape)
termination_by (sizeOf es, 0)
decreasing_by
  all_goals
    apply Prod.Lex.left
    cases e
    simp <;> omega

end

/-- Numbering the sections of an outline whose ranks grow from each section to the sections
under it obeys the law, from the lowest rank of its top level. -/
theorem numberSections_numbered {es : List Entry} (ranks : RanksDescend cfg es) :
    SectionsNumbered cfg es (numberSections cfg es) := by
  unfold SectionsNumbered numberSections
  rw [numberSectionsWith]
  split
  · rename_i none_ranked
    exact numberedLevel_of_unranked none_ranked
  · rename_i r rs some_ranked
    have lowest : lowestRank cfg es = rs.foldl min r := by
      rw [lowestRank, some_ranked, List.min?_cons']
      rfl
    exact numberLevel_numbered ranks (ranksFrom_smallest some_ranked) ⟨rfl, by simp [lowest]⟩

end Level

end TexToc.Outline

namespace TexToc

open Outline

namespace Session

/-- An outline request answers as the same request with section numbering switched off,
whose outline is the same run arranged without section numbers. -/
theorem outline_unnumbered {s : Session} {file : Option String} {merge : Bool}
    {outline : List Entry} (built : (s.outline file merge).1 = .ok outline) :
    ∃ plain, ({ s with settings := { s.settings with sectionNumbers := false } }.outline
        file merge).1 = .ok plain ∧
      (outline = [] ∧ plain = [] ∨ ∃ cfg forests es root,
        Config.ofSettings s.settings merge = .ok cfg ∧ RankedLeaves cfg (splice forests es root) ∧
        outline = arrange cfg forests es root ∧
        plain = arrange { cfg with numberSections := false } forests es root) := by
  unfold Session.outline at built ⊢
  dsimp only at built ⊢
  split at built
  · cases built
  · cases built
    exact ⟨[], rfl, .inl ⟨rfl, rfl⟩⟩
  · rename_i target _
    rw [Config.ofSettings_sectionNumbers]
    split at built
    · cases built
    · rename_i cfg configured
      rw [configured]
      dsimp only [Except.map]
      split at built
      · cases built
      · rename_i run gathered
        cases built
        -- the same run is gathered: gathering reads no numbering setting
        have same : gather (Session.gathering
            { s with settings := { s.settings with sectionNumbers := false } }
            { cfg with numberSections := false } target) target ⟨[], s.cache⟩ = .ok run := by
          rw [← gathered]
          exact gather_numbering (s.gathering cfg target) false target _
        rw [same]
        exact ⟨_, rfl, .inr ⟨cfg, run.forests, _, some target, rfl,
          gather_splice_rankedLeaves gathered (some target), rfl, rfl⟩⟩

end Session

/-- With section numbering on and included files merged, the outline of a request is the
outline of the same request without section numbers, with its sections numbered by rank.

Every ranked section reached from the top through sections only is labelled with its number
and a space, or with a star and a space when it is starred, before its own label. Its number,
shown or passed on to the sections under it, has one segment for every rank from the lowest
rank of the top level down to its own, and starts with the number of the section above it
and a point. Every other entry keeps its label, and so does every entry under it. -/
theorem outline_numbers_sections_by_rank {s : Session} {file : Option String}
    {outline : List Entry} (numbering : s.settings.sectionNumbers = true)
    (built : (s.outline file true).1 = .ok outline) :
    ∃ plain, ({ s with settings := { s.settings with sectionNumbers := false } }.outline
        file true).1 = .ok plain ∧
      ∀ cfg, Config.ofSettings s.settings true = .ok cfg → SectionsNumbered cfg plain outline := by
  obtain ⟨plain, unnumbered, ⟨rfl, rfl⟩ | ⟨cfg, forests, es, root, configured, leaves, rfl, rfl⟩⟩ :=
    Session.outline_unnumbered built
  · exact ⟨[], unnumbered, fun _ _ => .nil⟩
  · refine ⟨_, unnumbered, fun cfg' configured' => ?_⟩
    obtain rfl : cfg = cfg' := Except.ok.inj (configured.symm.trans configured')
    obtain ⟨merge, numbered⟩ := Config.ofSettings_ok configured
    rw [arrange_numbered merge (numbered.trans numbering)]
    exact numberSections_numbered (arrange_unnumbered_ranksDescend merge leaves)

/-- The outline of `starredSession` numbers its sections by rank. -/
theorem starredSession_sections_numbered :
    starredSession.settings.sectionNumbers = true ∧
      (starredSession.outline none true).1 = .ok starredOutline ∧
      ∃ plain, ({ starredSession with
          settings := { starredSession.settings with sectionNumbers := false } }.outline
            none true).1 = .ok plain ∧
        ∀ cfg, Config.ofSettings starredSession.settings true = .ok cfg →
          SectionsNumbered cfg plain starredOutline :=
  ⟨rfl, starredSession_outline, outline_numbers_sections_by_rank rfl starredSession_outline⟩

end TexToc
