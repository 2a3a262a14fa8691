import ResidualPolicy.Proofs.Residual.Conjunction

/-!
# What a conjunction and a disjunction report

`conjoin` and `disjoin` weigh one part after the other against what they have so far.
`ConjunctionRule` and `DisjunctionRule` say what comes out of it in terms of all parts at once. Where
one part is reported, it is the first among those of the lowest rank (`IsFirstLowest`): conflicts are
ranked by the path at which they begin, open parts by the number of their constraints. Where parts are
reported together, they are put together path by path (`Filed.IsUnion`).

The conflicts and the open parts among the residuals do not get into each other's way, so both folds
come apart into folds over the one and over the other (`conjoin_eq`, `foldl_otherwise_conflict`). For
those there is one step lemma each, `IsFirstLowest.append` and `Filed.IsUnion.append`.
-/

namespace ResidualPolicy

/-! ## The first of the lowest -/

section Lowest

variable {α κ : Type} [Ord κ] {rank : α → κ} {x : α} {xs : List α}

/-- Of all elements `x` has the lowest rank, and it is the first one that has it. -/
def IsFirstLowest (rank : α → κ) (x : α) (xs : List α) : Prop :=
  ∃ before after, xs = before ++ x :: after ∧
    (∀ y ∈ before, compare (rank x) (rank y) = .lt) ∧ ∀ y ∈ after, compare (rank x) (rank y) ≠ .gt

variable [Std.TransOrd κ]

theorem IsFirstLowest.isLE (h : IsFirstLowest rank x xs) :
    ∀ y ∈ xs, (compare (rank x) (rank y)).isLE := by
  obtain ⟨before, after, rfl, lower, above⟩ := h
  intro y member
  rcases List.mem_append.mp member with among | behind
  · exact Ordering.isLE_of_eq_lt (lower y among)
  · rcases List.mem_cons.mp behind with rfl | among
    · rw [Std.ReflOrd.compare_self]
      rfl
    · exact Ordering.isLE_iff_ne_gt.mpr (above y among)

/-- With one element more the first of the lowest is the old one, unless the new one is lower. -/
theorem IsFirstLowest.append (h : IsFirstLowest rank x xs) (y : α) :
    IsFirstLowest rank (pick rank x y) (xs ++ [y]) := by
  unfold pick
  split
  · next lower =>
    refine ⟨xs, [], rfl, fun z member => ?_, nofun⟩
    exact Std.TransCmp.lt_of_lt_of_isLE lower (h.isLE z member)
  · next notLower =>
    obtain ⟨before, after, rfl, lower, above⟩ := h
    refine ⟨before, after ++ [y], by simp, lower, fun z member => ?_⟩
    rcases List.mem_append.mp member with among | last
    · exact above z among
    · rw [List.mem_singleton.mp last]
      exact fun greater => notLower (Std.OrientedCmp.lt_of_gt greater)

theorem IsFirstLowest.foldl (h : IsFirstLowest rank x xs) (ys : List α) :
    IsFirstLowest rank (ys.foldl (pick rank) x) (xs ++ ys) := by
  induction ys generalizing x xs with
  | nil =>
    rw [List.append_nil]
    exact h
  | cons y ys ih =>
    rw [List.foldl_cons, List.append_cons]
    exact ih (h.append y)

theorem isFirstLowest_foldl_pick (x : α) (xs : List α) :
    IsFirstLowest rank (xs.foldl (pick rank) x) (x :: xs) := by
  have alone : IsFirstLowest rank x [x] := ⟨[], [], rfl, nofun, nofun⟩
  exact alone.foldl xs

end Lowest

/-! ## Filings put together -/

namespace Filed

variable {α : Type}

/-- The entries under a path. -/
def under (path : Path) (filed : Filed α) : List α :=
  entriesOf (Ascending.entryAt? path filed)

/-- The form in which a path is held. -/
def pathAt? (path : Path) (filed : Filed α) : Option Path :=
  (Ascending.entryAt? path filed).map Prod.fst

variable [BEq α]

/-- Filings put together: the paths are those of all of them, in the forms in which they come first,
and under each path stand the entries of all of them in their order, without repetition. -/
structure IsUnion (parts : List (Filed α)) (whole : Filed α) : Prop where
  ascending : Ascending.IsAscending (Ascending.keys whole)
  paths : ∀ path, whole.pathAt? path = parts.findSome? (pathAt? path)
  entries : ∀ path, whole.under path = (parts.flatMap (under path)).eraseDups

theorem appendNew_eq_eraseDups (entries : List α) : appendNew [] entries = entries.eraseDups := by
  have run (seen : List α) : appendNew seen.reverse entries =
      List.eraseDupsBy.loop (· == ·) entries seen := by
    induction entries generalizing seen with
    | nil => rfl
    | cons entry rest ih =>
      have present : seen.reverse.contains entry = seen.any (entry == ·) := by
        rw [List.contains_eq_any_beq, List.any_reverse]
      rw [appendNew_cons, present, List.eraseDupsBy.loop]
      cases seen.any (entry == ·) with
      | true => exact ih seen
      | false =>
        rw [if_neg Bool.false_ne_true, ← List.reverse_cons]
        exact ih (entry :: seen)
  exact run []

theorem isUnion_nil : IsUnion ([] : List (Filed α)) [] where
  ascending := .nil
  paths _ := rfl
  entries _ := rfl

/-- One filing more is merged. -/
theorem IsUnion.append {parts : List (Filed α)} {whole part : Filed α} (h : IsUnion parts whole)
    (ascending : Ascending.IsAscending (Ascending.keys part)) :
    IsUnion (parts ++ [part]) (whole.merge part) where
  ascending := ascending_merge h.ascending part
  paths path := by
    have kept := h.paths path
    unfold pathAt? at kept ⊢
    rw [entryAt?_merge h.ascending ascending, List.findSome?_append, ← kept]
    unfold joined
    cases Ascending.entryAt? path whole <;> cases found : Ascending.entryAt? path part <;>
      simp [found]
  entries path := by
    have kept := h.entries path
    unfold under at kept ⊢
    rw [entryAt?_merge h.ascending ascending, entriesOf_joined, kept, ← appendNew_eq_eraseDups,
      ← appendNew_append, appendNew_eq_eraseDups, List.flatMap_append, List.flatMap_singleton]

theorem IsUnion.foldl {parts more : List (Filed α)} {whole : Filed α} (h : IsUnion parts whole)
    (ascending : ∀ part ∈ more, Ascending.IsAscending (Ascending.keys part)) :
    IsUnion (parts ++ more) (more.foldl merge whole) := by
  induction more generalizing parts whole with
  | nil =>
    rw [List.append_nil]
    exact h
  | cons part more ih =>
    obtain ⟨first, others⟩ := List.forall_mem_cons.mp ascending
    rw [List.foldl_cons, List.append_cons]
    exact ih (h.append first) others

/-- Merging filings puts them together. -/
theorem isUnion_foldl_merge {pathOf : α → Path} {parts : List (Filed α)}
    (filed : ∀ part ∈ parts, part.WellFormed pathOf) : IsUnion parts (parts.foldl merge []) :=
  isUnion_nil.foldl fun part member => (filed part member).ascending

theorem isUnion_foldl_merge_cons {pathOf : α → Path} {part : Filed α} {more : List (Filed α)}
    (filed : ∀ other ∈ part :: more, other.WellFormed pathOf) :
    IsUnion (part :: more) (more.foldl merge part) := by
  have union := isUnion_foldl_merge filed
  rw [List.foldl_cons, nil_merge (List.forall_mem_cons.mp filed).1] at union
  exact union

end Filed

namespace Residual

/-! ## The conflicts and the open ones among residuals -/

/-- The violations of the conflicts among residuals. -/
def conflicts (rs : List Residual) : List (Filed Violation) :=
  rs.filterMap fun
    | .conflict violations => some violations
    | _ => none

/-- The constraints of the open ones among residuals. -/
def openings (rs : List Residual) : List (Filed Constraint) :=
  rs.filterMap fun
    | .pending constraints => some constraints
    | _ => none

theorem mem_conflicts {rs : List Residual} {violations : Filed Violation} :
    violations ∈ conflicts rs ↔ .conflict violations ∈ rs := by
  rw [conflicts, List.mem_filterMap]
  constructor
  · rintro ⟨s, member, eq⟩
    cases s <;> cases eq
    exact member
  · exact fun member => ⟨_, member, rfl⟩

theorem mem_openings {rs : List Residual} {constraints : Filed Constraint} :
    constraints ∈ openings rs ↔ .pending constraints ∈ rs := by
  rw [openings, List.mem_filterMap]
  constructor
  · rintro ⟨s, member, eq⟩
    cases s <;> cases eq
    exact member
  · exact fun member => ⟨_, member, rfl⟩

/-- Residuals without a conflict and without an open one are satisfied. -/
theorem forall_satisfied_iff {rs : List Residual} :
    (∀ s ∈ rs, s = .satisfied) ↔ conflicts rs = [] ∧ openings rs = [] := by
  induction rs with
  | nil => exact iff_of_true nofun ⟨rfl, rfl⟩
  | cons s rs ih => cases s <;> simp_all [conflicts, openings]

/-! ## Conjunctions -/

/-- Which residual a conjunction has, from those of its parts. -/
structure ConjunctionRule (rs : List Residual) (r : Residual) : Prop where
  satisfied_iff : r = .satisfied ↔ ∀ s ∈ rs, s = .satisfied
  /-- Of the conflicts the first one is reported among those that begin at the lowest path. One
  without any path is lowest. -/
  of_conflicts : conflicts rs ≠ [] →
    ∃ violations, r = .conflict violations ∧ IsFirstLowest Filed.first? violations (conflicts rs)
  /-- Without a conflict all is reported that is open. -/
  of_openings : conflicts rs = [] → openings rs ≠ [] →
    ∃ constraints, r = .pending constraints ∧ Filed.IsUnion (openings rs) constraints

theorem foldl_also_conflict (violations : Filed Violation) (rs : List Residual) :
    rs.foldl also (.conflict violations) =
      .conflict ((conflicts rs).foldl (pick Filed.first?) violations) := by
  rw [← lowerOf_eq_pick]
  induction rs generalizing violations with
  | nil => rfl
  | cons s rs ih => cases s <;> exact ih _

theorem foldl_also_pending (constraints : Filed Constraint) (rs : List Residual) :
    rs.foldl also (.pending constraints) =
      match conflicts rs with
      | [] => .pending ((openings rs).foldl Filed.merge constraints)
      | violations :: more => .conflict (more.foldl (pick Filed.first?) violations) := by
  induction rs generalizing constraints with
  | nil => rfl
  | cons s rs ih =>
    cases s with
    | satisfied => exact ih _
    | pending more => exact ih _
    | conflict violations =>
      -- The first conflict drops what is open, and what is open behind it makes no difference.
      exact foldl_also_conflict violations rs

/-- A conjunction goes through the conflicts if there is one, and through the open parts otherwise. -/
theorem conjoin_eq (rs : List Residual) :
    conjoin rs =
      match conflicts rs, openings rs with
      | [], [] => .satisfied
      | [], constraints :: more => .pending (more.foldl Filed.merge constraints)
      | violations :: more, _ => .conflict (more.foldl (pick Filed.first?) violations) := by
  induction rs with
  | nil => rfl
  | cons s rs ih =>
    rw [conjoin, List.foldl_cons, satisfied_also]
    cases s with
    | satisfied => exact ih
    | pending constraints =>
      rw [foldl_also_pending]
      have same : conflicts (.pending constraints :: rs) = conflicts rs := rfl
      rw [same]
      cases conflicts rs <;> rfl
    | conflict violations => exact foldl_also_conflict violations rs

theorem WellFormed.openings {rs : List Residual} (hrs : ∀ s ∈ rs, s.WellFormed) :
    ∀ constraints ∈ openings rs, constraints.WellFormed Constraint.path := fun _ member => by
  cases hrs _ (mem_openings.mp member) with
  | pending filed => exact filed

theorem WellFormed.conflicts {rs : List Residual} (hrs : ∀ s ∈ rs, s.WellFormed) :
    ∀ violations ∈ conflicts rs, violations.WellFormed Violation.path := fun _ member => by
  cases hrs _ (mem_conflicts.mp member) with
  | conflict filed => exact filed

theorem conjunctionRule_conjoin {rs : List Residual} (hrs : ∀ s ∈ rs, s.WellFormed) :
    ConjunctionRule rs (conjoin rs) := by
  have filed := WellFormed.openings hrs
  rw [conjoin_eq]
  refine ⟨?_, fun found => ?_, fun none found => ?_⟩
  · rw [forall_satisfied_iff]
    cases conflicts rs <;> cases openings rs <;> simp
  · obtain ⟨violations, more, split⟩ := List.exists_cons_of_ne_nil found
    rw [split]
    exact ⟨_, rfl, isFirstLowest_foldl_pick violations more⟩
  · obtain ⟨constraints, more, split⟩ := List.exists_cons_of_ne_nil found
    rw [split] at filed
    rw [none, split]
    exact ⟨_, rfl, Filed.isUnion_foldl_merge_cons filed⟩

/-! ## Disjunctions -/

/-- Which residual a disjunction has, from those of its parts. -/
structure DisjunctionRule (rs : List Residual) (r : Residual) : Prop where
  satisfied_iff : r = .satisfied ↔ ∃ s ∈ rs, s = .satisfied
  /-- Of the open parts the first one is reported among those with the fewest constraints. -/
  of_openings : (∀ s ∈ rs, s ≠ .satisfied) → openings rs ≠ [] →
    ∃ constraints, r = .pending constraints ∧ IsFirstLowest Filed.count constraints (openings rs)
  /-- Without an open part all violations are reported. -/
  of_conflicts : (∀ s ∈ rs, s ≠ .satisfied) → openings rs = [] →
    ∃ violations, r = .conflict violations ∧ Filed.IsUnion (conflicts rs) violations

theorem foldl_otherwise_pending (constraints : Filed Constraint) {rs : List Residual}
    (unsatisfied : ∀ s ∈ rs, s ≠ .satisfied) :
    rs.foldl otherwise (.pending constraints) =
      .pending ((openings rs).foldl (pick Filed.count) constraints) := by
  induction rs generalizing constraints with
  | nil => rfl
  | cons s rs ih =>
    obtain ⟨first, others⟩ := List.forall_mem_cons.mp unsatisfied
    cases s with
    | satisfied => exact absurd rfl first
    | pending more =>
      rw [List.foldl_cons, pending_otherwise_pending]
      exact ih _ others
    | conflict violations => exact ih _ others

/-- Without a satisfied part a disjunction goes through the open parts if there is one, and through
the conflicts otherwise. -/
theorem foldl_otherwise_conflict (violations : Filed Violation) {rs : List Residual}
    (unsatisfied : ∀ s ∈ rs, s ≠ .satisfied) :
    rs.foldl otherwise (.conflict violations) =
      match openings rs with
      | [] => .conflict ((conflicts rs).foldl Filed.merge violations)
      | constraints :: more => .pending (more.foldl (pick Filed.count) constraints) := by
  induction rs generalizing violations with
  | nil => rfl
  | cons s rs ih =>
    obtain ⟨first, others⟩ := List.forall_mem_cons.mp unsatisfied
    cases s with
    | satisfied => exact absurd rfl first
    | pending constraints => exact foldl_otherwise_pending constraints others
    | conflict more => exact ih _ others

theorem disjunctionRule_disjoin {rs : List Residual} (hrs : ∀ s ∈ rs, s.WellFormed) :
    DisjunctionRule rs (disjoin rs) := by
  refine ⟨?_, fun unsatisfied found => ?_, fun unsatisfied none => ?_⟩
  · rw [disjoin, foldl_otherwise_eq_satisfied_iff]
    exact or_iff_right nofun
  · obtain ⟨constraints, more, split⟩ := List.exists_cons_of_ne_nil found
    rw [disjoin, foldl_otherwise_conflict [] unsatisfied, split]
    exact ⟨_, rfl, isFirstLowest_foldl_pick constraints more⟩
  · rw [disjoin, foldl_otherwise_conflict [] unsatisfied, none]
    exact ⟨_, rfl, Filed.isUnion_foldl_merge (WellFormed.conflicts hrs)⟩

end Residual

end ResidualPolicy
