import ResidualPolicy.Proofs.Ascending
import ResidualPolicy.Proofs.Value.Order
import ResidualPolicy.Residual

/-!
# Filed entries

Entries under paths, seen through what a look-up of a path finds. Merging joins what is found under
each path (`entryAt?_merge`), so its laws come down to those of joining two lists without
repetition.

`Filed.WellFormed` is the shape in which constraints and violations are kept: the paths ascend,
under each stands at least one entry and none twice, and every entry belongs to the path it is filed
under.
-/

namespace ResidualPolicy.Filed

variable {α : Type} [BEq α]

/-! ## Joining lists without repetition -/

@[simp]
theorem appendNew_nil (entries : List α) : appendNew entries [] = entries := rfl

theorem appendNew_cons (entries more : List α) (entry : α) :
    appendNew entries (entry :: more) =
      appendNew (if entries.contains entry then entries else entries ++ [entry]) more := rfl

theorem appendNew_append (entries more others : List α) :
    appendNew entries (more ++ others) = appendNew (appendNew entries more) others := by
  simp only [appendNew, List.foldl_append]

theorem subset_appendNew {entries more : List α} {entry : α} (h : entry ∈ entries) :
    entry ∈ appendNew entries more := by
  induction more generalizing entries with
  | nil => exact h
  | cons head more ih =>
    rw [appendNew_cons]
    refine ih ?_
    split
    · exact h
    · exact List.mem_append_left _ h

theorem mem_appendNew {entries more : List α} {entry : α} (h : entry ∈ appendNew entries more) :
    entry ∈ entries ∨ entry ∈ more := by
  induction more generalizing entries with
  | nil => exact .inl h
  | cons head more ih =>
    rw [appendNew_cons] at h
    rcases ih h with h | h
    · split at h
      · exact .inl h
      · rcases List.mem_append.mp h with h | h
        · exact .inl h
        · exact .inr (List.mem_singleton.mp h ▸ List.mem_cons_self ..)
    · exact .inr (List.mem_cons_of_mem _ h)

theorem appendNew_ne_nil {entries more : List α} (h : entries ≠ [] ∨ more ≠ []) :
    appendNew entries more ≠ [] := by
  rcases h with h | h
  · obtain ⟨entry, member⟩ := List.exists_mem_of_ne_nil _ h
    exact List.ne_nil_of_mem (subset_appendNew member)
  · obtain ⟨head, tail, rfl⟩ := List.exists_cons_of_ne_nil h
    rw [appendNew_cons]
    split
    · next present =>
      obtain ⟨entry, member, -⟩ := List.contains_iff_exists_mem_beq.mp present
      exact List.ne_nil_of_mem (subset_appendNew member)
    · exact List.ne_nil_of_mem
        (subset_appendNew (List.mem_append_right _ (List.mem_singleton_self _)))

variable [EquivBEq α]

omit [EquivBEq α] in
/-- What entries have in common with those that are the same is found in either list. -/
theorem contains_map_appendNew {β : Type} [BEq β] [EquivBEq β] {f : α → β}
    (respects : ∀ x y, (x == y) = true → (f x == f y) = true) (entries more : List α) (value : β) :
    ((appendNew entries more).map f).contains value =
      ((entries.map f).contains value || (more.map f).contains value) := by
  induction more generalizing entries with
  | nil => simp
  | cons head more ih =>
    -- An entry that is left out is present in another form, hence equality up to sameness.
    rw [appendNew_cons, ih, List.map_cons, List.contains_cons]
    by_cases present : entries.contains head = true
    · rw [if_pos present]
      by_cases same : (value == f head) = true
      · have absorbed : (entries.map f).contains value = true := by
          obtain ⟨entry, member, other⟩ := List.contains_iff_exists_mem_beq.mp present
          exact List.contains_iff_exists_mem_beq.mpr
            ⟨f entry, List.mem_map_of_mem member, BEq.trans same (respects _ _ other)⟩
        simp only [absorbed, Bool.true_or]
      · simp [same]
    · rw [if_neg present]
      simp [Bool.or_assoc]

theorem contains_appendNew (entries more : List α) (entry : α) :
    (appendNew entries more).contains entry = (entries.contains entry || more.contains entry) := by
  have found := contains_map_appendNew (f := id) (fun _ _ same => same) entries more entry
  simpa only [List.map_id] using found

theorem appendNew_appendNew_singleton (entries more : List α) (entry : α) :
    appendNew entries (appendNew more [entry]) = appendNew (appendNew entries more) [entry] := by
  rw [appendNew_cons more]
  split
  · next present =>
    have absorbed : (appendNew entries more).contains entry = true := by
      rw [contains_appendNew, present, Bool.or_true]
    -- Left out of `more`, the entry is also left out behind it.
    rw [appendNew_cons (appendNew entries more), if_pos absorbed]
    rfl
  · rw [appendNew_nil, appendNew_append]

theorem appendNew_assoc (entries more others : List α) :
    appendNew (appendNew entries more) others = appendNew entries (appendNew more others) := by
  induction others generalizing more with
  | nil => rfl
  | cons head others ih =>
    rw [show head :: others = [head] ++ others from rfl, appendNew_append, appendNew_append,
      ← appendNew_appendNew_singleton, ih]

omit [EquivBEq α] in
theorem appendNew_of_distinct {entries more : List α}
    (distinct : (entries ++ more).Pairwise fun a b => (b == a) = false) :
    appendNew entries more = entries ++ more := by
  induction more generalizing entries with
  | nil => simp
  | cons head more ih =>
    have fresh : entries.contains head = false := by
      rw [Bool.eq_false_iff, ne_eq, List.contains_iff_exists_mem_beq]
      rintro ⟨entry, member, same⟩
      have apart := (List.pairwise_append.mp distinct).2.2 entry member head (List.mem_cons_self ..)
      rw [apart] at same
      exact Bool.false_ne_true same
    have regrouped : entries ++ head :: more = entries ++ [head] ++ more := by simp
    rw [appendNew_cons, fresh, if_neg Bool.false_ne_true, regrouped]
    exact ih (regrouped ▸ distinct)

omit [EquivBEq α] in
/-- Entries that are there already add nothing. -/
theorem appendNew_of_present {entries more : List α}
    (present : ∀ entry ∈ more, entries.contains entry = true) : appendNew entries more = entries := by
  induction more with
  | nil => rfl
  | cons head more ih =>
    obtain ⟨first, others⟩ := List.forall_mem_cons.mp present
    rw [appendNew_cons, if_pos first]
    exact ih others

/-- What has been joined once adds nothing when it is joined again. -/
theorem appendNew_appendNew_self (entries more : List α) :
    appendNew (appendNew entries more) entries = appendNew entries more := by
  refine appendNew_of_present fun entry member => ?_
  exact List.contains_iff_exists_mem_beq.mpr ⟨entry, subset_appendNew member, BEq.rfl⟩

omit [EquivBEq α] in
theorem distinct_appendNew {entries : List α} (more : List α)
    (distinct : entries.Pairwise fun a b => (b == a) = false) :
    (appendNew entries more).Pairwise fun a b => (b == a) = false := by
  induction more generalizing entries with
  | nil => exact distinct
  | cons head more ih =>
    rw [appendNew_cons]
    refine ih ?_
    split
    · exact distinct
    · next fresh =>
      refine List.pairwise_append.mpr ⟨distinct, List.pairwise_singleton _ _, ?_⟩
      intro entry member other single
      rw [List.mem_singleton.mp single, Bool.eq_false_iff]
      exact fun same => fresh (List.contains_iff_exists_mem_beq.mpr ⟨entry, member, same⟩)

/-! ## What stands under a path -/

/-- The entries that a look-up has found. -/
def entriesOf : Option (Path × List α) → List α
  | none => []
  | some under => under.2

/-- What two filings hold together under one path. -/
def joined (a b : Option (Path × List α)) : Option (Path × List α) :=
  (a.or b).map fun under => (under.1, appendNew (entriesOf a) (entriesOf b))

omit [EquivBEq α] in
@[simp]
theorem joined_none (a : Option (Path × List α)) : joined a none = a := by
  cases a <;> rfl

omit [EquivBEq α] in
theorem entriesOf_joined (a b : Option (Path × List α)) :
    entriesOf (joined a b) = appendNew (entriesOf a) (entriesOf b) := by
  cases a <;> cases b <;> rfl

theorem joined_assoc (a b c : Option (Path × List α)) :
    joined (joined a b) c = joined a (joined b c) := by
  have lists : appendNew (entriesOf (joined a b)) (entriesOf c) =
      appendNew (entriesOf a) (entriesOf (joined b c)) := by
    rw [entriesOf_joined, entriesOf_joined, appendNew_assoc]
  unfold joined at lists ⊢
  rw [lists]
  cases a <;> cases b <;> cases c <;> rfl

theorem joined_joined_self (a b : Option (Path × List α)) : joined (joined a b) a = joined a b := by
  have lists : appendNew (entriesOf (joined a b)) (entriesOf a) = entriesOf (joined a b) := by
    rw [entriesOf_joined, appendNew_appendNew_self]
  unfold joined at lists ⊢
  cases a with
  | none => cases b <;> rfl
  | some u => exact congrArg (fun entries => some (u.1, entries)) lists

omit [EquivBEq α]

/-! ## Merging -/

theorem merge_cons (filed : Filed α) (under : Path × List α) (more : Filed α) :
    filed.merge (under :: more) = (file under.1 under.2 filed).merge more := rfl

@[simp]
theorem merge_nil (filed : Filed α) : filed.merge [] = filed := rfl

theorem file_cons (path q : Path) (more entries : List α) (rest : Filed α) :
    file path more ((q, entries) :: rest) =
      match compare path q with
      | .lt => (path, appendNew [] more) :: (q, entries) :: rest
      | .eq => (q, appendNew entries more) :: rest
      | .gt => (q, entries) :: file path more rest := rfl

/-- An entry that is the same as the one that is there is not added. -/
theorem file_single {path : Path} {entry other : α} (same : (other == entry) = true) :
    file path [other] (single path entry) = single path entry := by
  have present : [entry].contains other = true := by
    rw [List.contains_cons, same, Bool.true_or]
  rw [single, file_cons, Std.ReflOrd.compare_self]
  show [(path, appendNew [entry] [other])] = _
  rw [appendNew_cons, if_pos present, appendNew_nil]

theorem file_ne_nil (path : Path) (more : List α) (filed : Filed α) : file path more filed ≠ [] :=
  Ascending.alter_ne_nil path _ filed

/-- A merge is empty only if both parts are. -/
theorem merge_eq_nil_iff {filed more : Filed α} :
    filed.merge more = [] ↔ filed = [] ∧ more = [] := by
  induction more generalizing filed with
  | nil => simp
  | cons under more ih =>
    rw [merge_cons, ih]
    simp [file_ne_nil]

/-- What is filed stays filed when more is. -/
theorem exists_mem_file {filed : Filed α} {under : Path × List α} {entry : α}
    (member : under ∈ filed) (among : entry ∈ under.2) (path : Path) (more : List α) :
    ∃ under' ∈ file path more filed, entry ∈ under'.2 := by
  induction filed with
  | nil => exact absurd member List.not_mem_nil
  | cons head rest ih =>
    obtain ⟨q, entries⟩ := head
    rw [file_cons]
    cases compare path q with
    | lt => exact ⟨under, List.mem_cons_of_mem _ member, among⟩
    | eq =>
      rcases List.mem_cons.mp member with rfl | member
      · exact ⟨_, List.mem_cons_self .., subset_appendNew among⟩
      · exact ⟨under, List.mem_cons_of_mem _ member, among⟩
    | gt =>
      rcases List.mem_cons.mp member with rfl | member
      · exact ⟨_, List.mem_cons_self .., among⟩
      · obtain ⟨under', member', among'⟩ := ih member
        exact ⟨under', List.mem_cons_of_mem _ member', among'⟩

/-- All that is filed has a property. -/
def All (P : α → Prop) (filed : Filed α) : Prop :=
  ∀ under ∈ filed, ∀ entry ∈ under.2, P entry

omit [BEq α] in
theorem all_nil {P : α → Prop} : All P [] :=
  fun _ member => absurd member List.not_mem_nil

/-- What holds under every path still does when more is filed, if it holds under the path where that
goes. -/
theorem forall_mem_file {P : Path × List α → Prop} {filed : Filed α} {path : Path} {more : List α}
    (before : ∀ under ∈ filed, P under) (fresh : P (path, appendNew [] more))
    (joined : ∀ under ∈ filed, P under → P (under.1, appendNew under.2 more)) :
    ∀ under ∈ Filed.file path more filed, P under := by
  induction filed with
  | nil => exact List.forall_mem_singleton.mpr fresh
  | cons head rest ih =>
    obtain ⟨first, others⟩ := List.forall_mem_cons.mp before
    obtain ⟨here, there⟩ := List.forall_mem_cons.mp joined
    rw [file_cons]
    cases compare path head.1 with
    | lt => exact List.forall_mem_cons.mpr ⟨fresh, before⟩
    | eq => exact List.forall_mem_cons.mpr ⟨here first, others⟩
    | gt => exact List.forall_mem_cons.mpr ⟨first, ih others there⟩

theorem All.file {P : α → Prop} {filed : Filed α} (h : filed.All P) (path : Path) {more : List α}
    (added : ∀ entry ∈ more, P entry) : (Filed.file path more filed).All P := by
  have joined (entries : List α) (before : ∀ entry ∈ entries, P entry) :
      ∀ entry ∈ appendNew entries more, P entry := fun entry member =>
    (mem_appendNew member).elim (before entry) (added entry)
  exact forall_mem_file h (joined [] fun _ member => absurd member List.not_mem_nil)
    fun under _ => joined under.2

/-- What is filed can be found, up to sameness. -/
theorem exists_same_file [EquivBEq α] (path : Path) {more : List α} {entry : α}
    (member : entry ∈ more) (filed : Filed α) :
    ∃ under ∈ file path more filed, ∃ other ∈ under.2, (entry == other) = true := by
  have added (entries : List α) : ∃ other ∈ appendNew entries more, (entry == other) = true := by
    rw [← List.contains_iff_exists_mem_beq, contains_appendNew, Bool.or_eq_true]
    exact .inr (List.contains_iff_exists_mem_beq.mpr ⟨entry, member, BEq.rfl⟩)
  induction filed with
  | nil => exact ⟨_, List.mem_cons_self .., added []⟩
  | cons head rest ih =>
    obtain ⟨q, entries⟩ := head
    rw [file_cons]
    cases compare path q with
    | lt => exact ⟨_, List.mem_cons_self .., added []⟩
    | eq => exact ⟨_, List.mem_cons_self .., added entries⟩
    | gt =>
      obtain ⟨under, among, other, found⟩ := ih
      exact ⟨under, List.mem_cons_of_mem _ among, other, found⟩

theorem ascending_file {filed : Filed α} (h : Ascending.IsAscending (Ascending.keys filed))
    (path : Path) (more : List α) : Ascending.IsAscending (Ascending.keys (file path more filed)) :=
  h.alter path _

theorem ascending_merge {filed : Filed α} (h : Ascending.IsAscending (Ascending.keys filed))
    (more : Filed α) : Ascending.IsAscending (Ascending.keys (filed.merge more)) := by
  induction more generalizing filed with
  | nil => exact h
  | cons under more ih => exact ih (ascending_file h _ _)

theorem entryAt?_file {filed : Filed α} (h : Ascending.IsAscending (Ascending.keys filed))
    (path : Path) (under : Path × List α) :
    Ascending.entryAt? path (file under.1 under.2 filed) =
      joined (Ascending.entryAt? path filed) (Ascending.entryAt? path [under]) := by
  rw [file, Ascending.entryAt?_alter h, Ascending.entryAt?_cons]
  split
  · cases Ascending.entryAt? path filed <;> rfl
  · exact (joined_none _).symm

/-- Under each path a merge holds what its parts hold there together. -/
theorem entryAt?_merge {filed more : Filed α} (hf : Ascending.IsAscending (Ascending.keys filed))
    (hm : Ascending.IsAscending (Ascending.keys more)) (path : Path) :
    Ascending.entryAt? path (filed.merge more) =
      joined (Ascending.entryAt? path filed) (Ascending.entryAt? path more) := by
  induction more generalizing filed with
  | nil => exact (joined_none _).symm
  | cons under more ih =>
    rw [merge_cons, ih (ascending_file hf _ _) hm.tail, entryAt?_file hf, Ascending.entryAt?_cons,
      Ascending.entryAt?_cons]
    by_cases same : Ascending.sameKey path under.1 = true
    · rw [if_pos same, if_pos same, hm.entryAt?_tail same, joined_none]
    · rw [if_neg same, if_neg same, Ascending.entryAt?_nil, joined_none]

theorem merge_assoc [EquivBEq α] {a b c : Filed α}
    (ha : Ascending.IsAscending (Ascending.keys a)) (hb : Ascending.IsAscending (Ascending.keys b))
    (hc : Ascending.IsAscending (Ascending.keys c)) :
    (a.merge b).merge c = a.merge (b.merge c) := by
  refine Ascending.ext_entryAt? (ascending_merge (ascending_merge ha b) c) (ascending_merge ha _)
    fun path => ?_
  rw [entryAt?_merge (ascending_merge ha b) hc, entryAt?_merge ha hb,
    entryAt?_merge ha (ascending_merge hb c), entryAt?_merge hb hc, joined_assoc]

/-- What has been merged once adds nothing when it is merged again. -/
theorem merge_merge_self [EquivBEq α] {a b : Filed α}
    (ha : Ascending.IsAscending (Ascending.keys a)) (hb : Ascending.IsAscending (Ascending.keys b)) :
    (a.merge b).merge a = a.merge b := by
  refine Ascending.ext_entryAt? (ascending_merge (ascending_merge ha b) a) (ascending_merge ha b)
    fun path => ?_
  rw [entryAt?_merge (ascending_merge ha b) ha, entryAt?_merge ha hb, joined_joined_self]

/-! ## Well-formed filings -/

/-- The entries under one path: there is one, none stands twice, and all belong to the path. -/
structure Kept (pathOf : α → Path) (under : Path × List α) : Prop where
  occupied : under.2 ≠ []
  distinct : under.2.Pairwise fun a b => (b == a) = false
  placed : ∀ entry ∈ under.2, Ascending.sameKey (pathOf entry) under.1 = true

/-- The shape in which entries are filed. -/
structure WellFormed (pathOf : α → Path) (filed : Filed α) : Prop where
  ascending : Ascending.IsAscending (Ascending.keys filed)
  kept : ∀ under ∈ filed, Kept pathOf under

variable {pathOf : α → Path}

theorem kept_single (entry : α) : Kept pathOf (pathOf entry, [entry]) where
  occupied := List.cons_ne_nil _ _
  distinct := List.pairwise_singleton _ _
  placed other h := by
    rw [List.mem_singleton.mp h]
    exact Ascending.sameKey_self _

theorem joined_none_left {b : Option (Path × List α)} (hb : ∀ under ∈ b, Kept pathOf under) :
    joined none b = b := by
  cases b with
  | none => rfl
  | some v =>
    have all : appendNew [] v.2 = v.2 := appendNew_of_distinct (hb v rfl).distinct
    show some (v.1, appendNew [] v.2) = some v
    rw [all]

theorem Kept.joined {a b : Option (Path × List α)} (ha : ∀ under ∈ a, Kept pathOf under)
    (hb : ∀ under ∈ b, Kept pathOf under)
    (same : ∀ u ∈ a, ∀ v ∈ b, Ascending.sameKey v.1 u.1 = true) :
    ∀ under ∈ joined a b, Kept pathOf under := by
  intro under h
  cases a with
  | none =>
    cases b with
    | none => exact absurd h (Option.not_mem_none _)
    | some v =>
      rw [joined_none_left hb] at h
      exact hb under h
  | some u =>
    have kept := ha u rfl
    have eq : (u.1, appendNew u.2 (entriesOf b)) = under := Option.some.inj h
    rw [← eq]
    refine ⟨appendNew_ne_nil (.inl kept.occupied), distinct_appendNew _ kept.distinct,
      fun entry member => ?_⟩
    rcases mem_appendNew member with member | member
    · exact kept.placed entry member
    · cases b with
      | none => exact absurd member List.not_mem_nil
      | some v =>
        rw [Ascending.sameKey_congr ((hb v rfl).placed entry member)]
        exact same u rfl v rfl

theorem wellFormed_nil : WellFormed pathOf ([] : Filed α) where
  ascending := List.Pairwise.nil
  kept _ h := absurd h List.not_mem_nil

theorem wellFormed_singleton {under : Path × List α} (kept : Kept pathOf under) :
    WellFormed pathOf [under] where
  ascending := List.pairwise_singleton _ _
  kept other h := by
    rw [List.mem_singleton.mp h]
    exact kept

/-- Leaving out paths keeps a filing well-formed. -/
theorem WellFormed.sublist {filed more : Filed α} (h : WellFormed pathOf filed)
    (part : more.Sublist filed) : WellFormed pathOf more where
  ascending := List.Pairwise.sublist (part.map Prod.fst) h.ascending
  kept under member := h.kept under (part.subset member)

theorem WellFormed.entryAt? {filed : Filed α} (h : WellFormed pathOf filed) (path : Path) :
    ∀ under ∈ Ascending.entryAt? path filed, Kept pathOf under := fun under found =>
  h.kept under (Ascending.mem_of_entryAt? found).1

theorem WellFormed.merge {filed more : Filed α} (hf : WellFormed pathOf filed)
    (hm : WellFormed pathOf more) : WellFormed pathOf (filed.merge more) where
  ascending := ascending_merge hf.ascending more
  kept under h := by
    -- An entry of the merge comes from a look-up, and that is a look-up in both parts.
    have found := Ascending.entryAt?_of_mem (ascending_merge hf.ascending more) h
    rw [entryAt?_merge hf.ascending hm.ascending] at found
    refine Kept.joined (hf.entryAt? _) (hm.entryAt? _) (fun u hu v hv => ?_) under found
    rw [← Ascending.sameKey_congr (Ascending.mem_of_entryAt? hv).2]
    exact (Ascending.mem_of_entryAt? hu).2

/-! ## Filing anew -/

/-- A path of a filing is above those before it. -/
theorem WellFormed.above {filed more : Filed α} {under : Path × List α}
    (whole : WellFormed pathOf (filed ++ under :: more)) :
    ∀ entry ∈ filed, compare under.1 entry.1 = .gt := by
  intro entry member
  have ascending := whole.ascending
  rw [Ascending.keys, List.map_append] at ascending
  exact Std.OrientedCmp.gt_of_lt ((List.pairwise_append.mp ascending).2.2 entry.1
    (List.mem_map_of_mem member) under.1 (List.mem_cons_self ..))

/-- Entries of the last path, filed one by one, come to stand behind those that are there. -/
theorem foldl_file_last {filed : Filed α} {path : Path}
    (above : ∀ under ∈ filed, compare path under.1 = .gt) (entries : List α) {more : List α}
    (placed : ∀ entry ∈ more, Ascending.sameKey (pathOf entry) path = true) :
    more.foldl (fun filed entry => file (pathOf entry) [entry] filed) (filed ++ [(path, entries)]) =
      filed ++ [(path, appendNew entries more)] := by
  induction more generalizing entries with
  | nil => rfl
  | cons entry more ih =>
    obtain ⟨here, others⟩ := List.forall_mem_cons.mp placed
    have same := Ascending.sameKey_iff.mp here
    have behind : ∀ under ∈ filed, compare (pathOf entry) under.1 = .gt := fun under member => by
      rw [Std.TransCmp.congr_left same]
      exact above under member
    have stored : file (pathOf entry) [entry] (filed ++ [(path, entries)]) =
        filed ++ [(path, appendNew entries [entry])] := by
      rw [file, Ascending.alter_append_of_above behind]
      show filed ++ file (pathOf entry) [entry] [(path, entries)] = _
      rw [file_cons, same]
    rw [List.foldl_cons, stored, ih _ others]
    rfl

/-- Filing the entries of a filing one by one, in their order, builds it again, if each path is
written as in the first entry under it. -/
theorem foldl_file_of_headed {filed more : Filed α} (whole : WellFormed pathOf (filed ++ more))
    (headed : ∀ under ∈ more, under.2.head?.map pathOf = some under.1) :
    (more.flatMap Prod.snd).foldl (fun filed entry => file (pathOf entry) [entry] filed) filed =
      filed ++ more := by
  induction more generalizing filed with
  | nil => exact (List.append_nil filed).symm
  | cons under more ih =>
    obtain ⟨first, others⟩ := List.forall_mem_cons.mp headed
    obtain ⟨path, entries⟩ := under
    obtain ⟨entry, head, rfl⟩ := Option.map_eq_some_iff.mp first
    obtain ⟨rest, rfl⟩ := List.head?_eq_some_iff.mp head
    have kept := whole.kept (pathOf entry, entry :: rest)
      (List.mem_append_right _ (List.mem_cons_self ..))
    have begun : file (pathOf entry) [entry] filed = filed ++ [(pathOf entry, [entry])] :=
      Ascending.alter_of_above whole.above
    have group : appendNew [entry] rest = entry :: rest := appendNew_of_distinct kept.distinct
    have regrouped : filed ++ (pathOf entry, entry :: rest) :: more =
        filed ++ [(pathOf entry, entry :: rest)] ++ more := by simp
    rw [List.flatMap_cons, List.foldl_append, List.foldl_cons, begun,
      foldl_file_last whole.above [entry] (List.forall_mem_cons.mp kept.placed).2, group,
      ih (regrouped ▸ whole) others, regrouped]

/-! ## Filings apart from each other -/

/-- Two filings have no path in common. -/
def Apart {β : Type} (filed : Filed α) (more : Filed β) : Prop :=
  ∀ p ∈ Ascending.keys filed, ∀ q ∈ Ascending.keys more, Ascending.sameKey p q = false

omit [BEq α] in
theorem Apart.entryAt? {filed : Filed α} {more : Filed α} (h : Apart filed more) (path : Path) :
    Ascending.entryAt? path filed = none ∨ Ascending.entryAt? path more = none := by
  cases hf : Ascending.entryAt? path filed with
  | none => exact .inl rfl
  | some u =>
    cases hm : Ascending.entryAt? path more with
    | none => exact .inr rfl
    | some v =>
      obtain ⟨memberU, sameU⟩ := Ascending.mem_of_entryAt? hf
      obtain ⟨memberV, sameV⟩ := Ascending.mem_of_entryAt? hm
      have apart := h _ (List.mem_map_of_mem memberU) _ (List.mem_map_of_mem memberV)
      rw [← Ascending.sameKey_congr sameU, sameV] at apart
      exact Bool.noConfusion apart

/-- Filings without a common path merge to the same in both orders. -/
theorem merge_comm {a b : Filed α} (ha : WellFormed pathOf a) (hb : WellFormed pathOf b)
    (apart : Apart a b) : a.merge b = b.merge a := by
  refine Ascending.ext_entryAt? (ascending_merge ha.ascending b) (ascending_merge hb.ascending a)
    fun path => ?_
  rw [entryAt?_merge ha.ascending hb.ascending, entryAt?_merge hb.ascending ha.ascending]
  rcases apart.entryAt? path with none | none
  · rw [none, joined_none, joined_none_left (hb.entryAt? path)]
  · rw [none, joined_none, joined_none_left (ha.entryAt? path)]

theorem nil_merge {filed : Filed α} (h : WellFormed pathOf filed) :
    Filed.merge [] filed = filed :=
  merge_comm wellFormed_nil h fun _ member => absurd member List.not_mem_nil

end ResidualPolicy.Filed
