import Mathlib
import TexToc.Outline.Config

/-!
# One rank per sectioning command

Settings list the sectioning commands in rank groups, the group at index `r` naming the
commands of rank `r`. A run reads the groups in order and the names of each group in order
(`listings`), and fills a rank table as it reads. A name may stand several times in its own
group; a name that two groups list makes the settings inconsistent, and the run fails at the
first listing, in reading order, of a name that an earlier group lists. The failure names the
rank the name was first listed under and the rank of that listing, which is the first later
rank that lists it.

`Represents table done` says that a table answers each name as the listings `done` read so
far do, and that no name of them has two ranks. It holds of the empty table, and each
listing read either keeps it (`Represents.repeat`, `Represents.add`) or is the conflict;
`addGroup_represents` and `rankTable_represents` carry it over a group and over the groups,
and `addGroup_first_conflict` and `rankTable_first_conflict` say where reading stops.
`ofSettings_rank_groups` is the statement for the settings of a run.
-/

namespace TexToc.Outline

/-- The names of rank groups in the order a run reads them, each with the rank of its group:
the groups in order from rank `rank`, and the names of each group in order. -/
def listingsFrom (rank : Nat) : List String → List (String × Nat)
  | [] => []
  | group :: rest => (groupNames group).map (·, rank) ++ listingsFrom (rank + 1) rest

/-- The names of rank groups in reading order, each with its rank. -/
def listings (groups : List String) : List (String × Nat) :=
  listingsFrom 0 groups

/-- The group of rank `rank` lists `name`. -/
def Lists (groups : List String) (rank : Nat) (name : String) : Prop :=
  ∃ g, groups[rank]? = some g ∧ name ∈ groupNames g

/-- No name of these listings has two ranks. -/
def OneRank (l : List (String × Nat)) : Prop :=
  ∀ a ∈ l, ∀ b ∈ l, a.1 = b.1 → a.2 = b.2

/-! ## Listings -/

theorem mem_listingsFrom {rank : Nat} {groups : List String} {n : String} {r : Nat} :
    (n, r) ∈ listingsFrom rank groups ↔
      ∃ i g, groups[i]? = some g ∧ n ∈ groupNames g ∧ r = rank + i := by
  induction groups generalizing rank with
  | nil => simp [listingsFrom]
  | cons group rest ih =>
    simp only [listingsFrom, List.mem_append, List.mem_map, Prod.mk.injEq, ih]
    constructor
    · rintro (⟨m, listed, rfl, rfl⟩ | ⟨i, g, found, listed, rfl⟩)
      · exact ⟨0, group, rfl, listed, rfl⟩
      · exact ⟨i + 1, g, by simpa using found, listed, by omega⟩
    · rintro ⟨_ | i, g, found, listed, rfl⟩
      · simp only [List.getElem?_cons_zero, Option.some.injEq] at found
        exact .inl ⟨n, found ▸ listed, rfl, rfl⟩
      · exact .inr ⟨i, g, by simpa using found, listed, by omega⟩

/-- A name is listed at a rank exactly when the group of that rank lists it. -/
theorem mem_listings {groups : List String} {n : String} {r : Nat} :
    (n, r) ∈ listings groups ↔ Lists groups r n := by
  rw [listings, mem_listingsFrom]
  constructor
  · rintro ⟨i, g, found, listed, rfl⟩
    exact ⟨g, by simpa using found, listed⟩
  · rintro ⟨g, found, listed⟩
    exact ⟨r, g, found, listed, by omega⟩

/-- Listings are read in the order of their ranks. -/
theorem listingsFrom_sorted (rank : Nat) (groups : List String) :
    (listingsFrom rank groups).Pairwise (fun a b => a.2 ≤ b.2) := by
  induction groups generalizing rank with
  | nil => simp [listingsFrom]
  | cons group rest ih =>
    rw [listingsFrom, List.pairwise_append]
    refine ⟨?_, ih (rank + 1), fun a here b later => ?_⟩
    · exact List.pairwise_map.2 (List.pairwise_of_forall fun _ _ => Nat.le_refl rank)
    · obtain ⟨m, -, rfl⟩ := List.mem_map.1 here
      obtain ⟨i, g, -, -, same⟩ := mem_listingsFrom.1 (show (b.1, b.2) ∈ _ from later)
      dsimp only
      omega

/-! ## Rank tables -/

theorem mem_of_lookup_eq_some {l : List (String × Nat)} {n : String} {r : Nat}
    (found : l.lookup n = some r) : (n, r) ∈ l := by
  obtain ⟨pre, post, rfl, -⟩ := List.lookup_eq_some_iff.1 found
  simp

theorem not_mem_of_lookup_eq_none {l : List (String × Nat)} {n : String}
    (missing : l.lookup n = none) (r : Nat) : (n, r) ∉ l := fun mem => by
  have := List.lookup_eq_none_iff.1 missing _ mem
  simp at this

/-- Where no name has two ranks, the table answers every listing's rank. -/
theorem OneRank.lookup {l : List (String × Nat)} (one : OneRank l) {n : String} {r : Nat}
    (mem : (n, r) ∈ l) : l.lookup n = some r := by
  cases found : l.lookup n with
  | none => exact absurd mem (not_mem_of_lookup_eq_none found r)
  | some r' => exact congrArg some (one _ (mem_of_lookup_eq_some found) _ mem rfl)

/-- One more listing keeps every name at one rank if its name has no other rank yet. -/
theorem OneRank.append_single {done : List (String × Nat)} (one : OneRank done) {n : String}
    {r : Nat} (fits : ∀ r', (n, r') ∈ done → r' = r) : OneRank (done ++ [(n, r)]) := by
  rintro ⟨a, ra⟩ inA ⟨b, rb⟩ inB same
  simp only [List.mem_append, List.mem_singleton, Prod.mk.injEq] at inA inB same ⊢
  rcases inA with inA | ⟨rfl, rfl⟩ <;> rcases inB with inB | ⟨rfl, rfl⟩
  · exact one _ inA _ inB same
  · exact fits ra (same ▸ inA)
  · exact (fits rb (same ▸ inB)).symm
  · rfl

/-- A rank table that stands for the listings `done` read so far: it answers each name as
the first of them with that name does, and no name of them has two ranks. -/
structure Represents (table done : List (String × Nat)) : Prop where
  lookup : ∀ n, table.lookup n = done.lookup n
  one : OneRank done

theorem Represents.nil : Represents [] [] :=
  ⟨fun _ => rfl, fun _ mem => by simp at mem⟩

/-- A name listed again under the rank it already has leaves the table as it is. -/
theorem Represents.repeat {table done : List (String × Nat)} (h : Represents table done)
    {n : String} {r : Nat} (found : table.lookup n = some r) :
    Represents table (done ++ [(n, r)]) := by
  have first : done.lookup n = some r := (h.lookup n).symm.trans found
  refine ⟨fun x => ?_, h.one.append_single fun r' mem => ?_⟩
  · rw [List.lookup_append, ← h.lookup x]
    cases known : table.lookup x with
    | some _ => rfl
    | none =>
      have other : (x == n) = false := beq_false_of_ne fun same => by
        rw [same, found] at known
        cases known
      simp [List.lookup_cons, other]
  · exact Option.some.inj ((h.one.lookup mem).symm.trans first)

/-- A name not yet listed is added to the table under its rank. -/
theorem Represents.add {table done : List (String × Nat)} (h : Represents table done)
    {n : String} {r : Nat} (missing : table.lookup n = none) :
    Represents (table ++ [(n, r)]) (done ++ [(n, r)]) := by
  have unlisted : done.lookup n = none := (h.lookup n).symm.trans missing
  refine ⟨fun x => by rw [List.lookup_append, List.lookup_append, h.lookup x],
    h.one.append_single fun r' mem => absurd mem (not_mem_of_lookup_eq_none unlisted r')⟩

/-! ## Reading one group, and all of them -/

/-- Reading a group without conflict leaves a table that stands for the listings read so far
and the group's. -/
theorem addGroup_represents {rank : Nat} {names : List String}
    {table done t : List (String × Nat)}
    (h : Represents table done) (added : addGroup rank table names = .ok t) :
    Represents t (done ++ names.map (·, rank)) := by
  induction names generalizing table done with
  | nil =>
    cases added
    simpa using h
  | cons name rest ih =>
    rw [addGroup] at added
    split at added
    next r found =>
      split at added
      next same =>
        subst same
        simpa using ih (h.repeat found) added
      next => cases added
    next missing => simpa using ih (h.add missing) added

/-- Reading a group fails at the first of its names that an earlier listing gives another
rank, naming that rank and the group's. -/
theorem addGroup_first_conflict {rank : Nat} {names : List String}
    {table done : List (String × Nat)}
    {e : Failure} (h : Represents table done) (added : addGroup rank table names = .error e) :
    ∃ pre n r0 post, names.map (·, rank) = pre ++ (n, rank) :: post ∧ OneRank (done ++ pre) ∧
      (done ++ pre).lookup n = some r0 ∧ r0 ≠ rank ∧ e = .rankConflict n r0 rank := by
  induction names generalizing table done with
  | nil => cases added
  | cons name rest ih =>
    rw [addGroup] at added
    split at added
    next r found =>
      split at added
      next same =>
        subst same
        obtain ⟨pre, n, r0, post, split, one, first, apart, rfl⟩ := ih (h.repeat found) added
        exact ⟨(name, r) :: pre, n, r0, post, by simp [split], by simpa using one,
          by simpa using first, apart, rfl⟩
      next apart =>
        cases added
        exact ⟨[], name, r, rest.map (·, rank), rfl, by simpa using h.one,
          by simpa [h.lookup] using found, apart, rfl⟩
    next missing =>
      obtain ⟨pre, n, r0, post, split, one, first, apart, rfl⟩ := ih (h.add missing) added
      exact ⟨(name, rank) :: pre, n, r0, post, by simp [split], by simpa using one,
        by simpa using first, apart, rfl⟩

theorem rankTable_represents {rank : Nat} {groups : List String}
    {table done t : List (String × Nat)}
    (h : Represents table done) (ranked : rankTable table rank groups = .ok t) :
    Represents t (done ++ listingsFrom rank groups) := by
  induction groups generalizing table done rank with
  | nil =>
    cases ranked
    simpa [listingsFrom] using h
  | cons group rest ih =>
    rw [rankTable] at ranked
    split at ranked
    next t' added => simpa [listingsFrom] using ih (addGroup_represents h added) ranked
    next => cases ranked

/-- Reading the groups fails at the first listing, in reading order, whose name an earlier
listing gives another rank. -/
theorem rankTable_first_conflict {rank : Nat} {groups : List String}
    {table done : List (String × Nat)}
    {e : Failure} (h : Represents table done) (ranked : rankTable table rank groups = .error e) :
    ∃ pre n r0 r1 post, listingsFrom rank groups = pre ++ (n, r1) :: post ∧
      OneRank (done ++ pre) ∧ (done ++ pre).lookup n = some r0 ∧ r0 ≠ r1 ∧
      e = .rankConflict n r0 r1 := by
  induction groups generalizing table done rank with
  | nil => cases ranked
  | cons group rest ih =>
    rw [rankTable] at ranked
    split at ranked
    next t' added =>
      obtain ⟨pre, n, r0, r1, post, split, one, first, apart, rfl⟩ :=
        ih (addGroup_represents h added) ranked
      exact ⟨(groupNames group).map (·, rank) ++ pre, n, r0, r1, post,
        by simp [listingsFrom, split], by simpa using one, by simpa using first, apart, rfl⟩
    next e' added =>
      cases ranked
      obtain ⟨pre, n, r0, post, split, one, first, apart, rfl⟩ := addGroup_first_conflict h added
      exact ⟨pre, n, r0, rank, post ++ listingsFrom (rank + 1) rest,
        by simp [listingsFrom, split], one, first, apart, rfl⟩

/-! ## The configuration of a run -/

theorem ofSettings_error_iff {s : Settings} {merge : Bool} {e : Failure} :
    Config.ofSettings s merge = .error e ↔ rankTable [] 0 s.sections = .error e := by
  unfold Config.ofSettings
  split <;> simp_all

theorem rankTable_of_ofSettings_ok {s : Settings} {merge : Bool} {cfg : Config}
    (ok : Config.ofSettings s merge = .ok cfg) : rankTable [] 0 s.sections = .ok cfg.ranks := by
  unfold Config.ofSettings at ok
  split at ok
  · cases ok
  · cases ok
    assumption

/-- A conflict found at a listing names the rank its name was first listed under and the
first later rank that lists it. -/
theorem first_conflict {groups : List String} {pre post : List (String × Nat)} {n : String}
    {r0 r1 : Nat} (split : listings groups = pre ++ (n, r1) :: post) (one : OneRank pre)
    (first : pre.lookup n = some r0) (apart : r0 ≠ r1) :
    r0 < r1 ∧ Lists groups r0 n ∧ Lists groups r1 n ∧ ∀ r < r1, Lists groups r n → r = r0 := by
  have sorted := listingsFrom_sorted 0 groups
  rw [← listings, split, List.pairwise_append, List.pairwise_cons] at sorted
  have earlier := mem_of_lookup_eq_some first
  have listed : ∀ x, x ∈ pre ∨ x ∈ (n, r1) :: post → x ∈ listings groups := fun x mem => by
    rw [split]
    exact List.mem_append.2 mem
  refine ⟨?_, mem_listings.1 (listed _ (.inl earlier)),
    mem_listings.1 (listed _ (.inr (List.mem_cons_self ..))), fun r below other => ?_⟩
  · have := sorted.2.2 _ earlier _ (List.mem_cons_self ..)
    dsimp only at this
    omega
  · -- a listing of a rank below `r1` is read before the conflict
    have inPre : (n, r) ∈ pre := by
      rcases List.mem_append.1 (split ▸ mem_listings.2 other) with inPre | later
      · exact inPre
      · rcases List.mem_cons.1 later with same | inPost
        · cases same
          omega
        · have := sorted.2.1.1 _ inPost
          dsimp only at this
          omega
    exact one _ inPre _ earlier rfl

/-- A run's settings fail exactly when two rank groups list one sectioning command. The
failure comes at the first listing, reading the groups and the names of each group in order,
of a name that an earlier group lists, and its message names the rank the name was first
listed under and the first later rank that lists it. Otherwise the rank of a command is the
rank of the group that lists it, and a command that no group lists has none; a name repeated
inside its own group is no conflict. -/
theorem ofSettings_rank_groups (s : Settings) (merge : Bool) :
    ((∃ e, Config.ofSettings s merge = .error e) ↔
      ∃ n r r', r ≠ r' ∧ Lists s.sections r n ∧ Lists s.sections r' n) ∧
    (∀ e, Config.ofSettings s merge = .error e → ∃ n r0 r1, e = .rankConflict n r0 r1 ∧
      e.message = "Section command '" ++ n ++ "' is listed under ranks " ++ toString r0 ++
        " and " ++ toString r1 ∧
      r0 < r1 ∧ Lists s.sections r0 n ∧ Lists s.sections r1 n ∧
      (∀ r < r1, Lists s.sections r n → r = r0) ∧
      ∃ pre post, listings s.sections = pre ++ (n, r1) :: post ∧ OneRank pre) ∧
    (∀ cfg, Config.ofSettings s merge = .ok cfg → ∀ n r,
      cfg.rank n = some r ↔ Lists s.sections r n) := by
  have failure : ∀ e, Config.ofSettings s merge = .error e → ∃ n r0 r1 pre post,
      e = .rankConflict n r0 r1 ∧ listings s.sections = pre ++ (n, r1) :: post ∧ OneRank pre ∧
      pre.lookup n = some r0 ∧ r0 ≠ r1 := by
    intro e failed
    obtain ⟨pre, n, r0, r1, post, split, one, first, apart, rfl⟩ :=
      rankTable_first_conflict Represents.nil (ofSettings_error_iff.1 failed)
    exact ⟨n, r0, r1, pre, post, rfl, split, by simpa using one, by simpa using first, apart⟩
  have success : ∀ cfg, Config.ofSettings s merge = .ok cfg →
      Represents cfg.ranks (listings s.sections) := fun cfg ok => by
    simpa [listings] using rankTable_represents Represents.nil (rankTable_of_ofSettings_ok ok)
  refine ⟨⟨?_, ?_⟩, fun e failed => ?_, fun cfg ok n r => ?_⟩
  · rintro ⟨e, failed⟩
    obtain ⟨n, r0, r1, pre, post, -, split, one, first, apart⟩ := failure e failed
    obtain ⟨-, at0, at1, -⟩ := first_conflict split one first apart
    exact ⟨n, r0, r1, apart, at0, at1⟩
  · rintro ⟨n, r, r', apart, at_r, at_r'⟩
    cases run : Config.ofSettings s merge with
    | error e => exact ⟨e, rfl⟩
    | ok cfg =>
      exact absurd ((success cfg run).one _ (mem_listings.2 at_r) _ (mem_listings.2 at_r') rfl)
        apart
  · obtain ⟨n, r0, r1, pre, post, rfl, split, one, first, apart⟩ := failure e failed
    obtain ⟨below, at0, at1, only⟩ := first_conflict split one first apart
    exact ⟨n, r0, r1, rfl, rfl, below, at0, at1, only, pre, post, split, one⟩
  · have h := success cfg ok
    rw [Config.rank, h.lookup n, ← mem_listings]
    exact ⟨mem_of_lookup_eq_some, h.one.lookup⟩

end TexToc.Outline
