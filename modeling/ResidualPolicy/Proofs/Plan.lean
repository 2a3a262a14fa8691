import ResidualPolicy.Compilation
import ResidualPolicy.Proofs.ConstraintSet
import ResidualPolicy.Proofs.Value.Navigation

/-!
# Plans run like conjunctions

A plan goes through the constraints in the order of their paths, each once, and stops at the first
violation. The policies it was made from are a conjunction of the same constraints in the order in
which they were written, possibly several times. Both end in the same residual
(`run_ofConstraints`): adding a constraint to the filed ones has the effect on the run that it has
on the conjunction (`conjoin_steps_file`). Judging must not distinguish constraints that are the
same; for the operators of a registry it is enough that they do not distinguish equal operands of
these constraints (`run_registered`).
-/

namespace ResidualPolicy

open Residual (conjoin)

variable {judge : Constraint → Value → Bool} {document : Value}

/-! ## Steps -/

namespace Plan

/-- The plan of filed constraints, given how to judge values. -/
def ofFiled (judge : Constraint → Value → Bool) (filed : Filed Constraint) : Plan :=
  filed.map fun under => ⟨under.1, under.2.map fun c => (c, judge c)⟩

theorem mapM_eq_ok {ε α β : Type} {f : α → Except ε β} {g : α → β} {xs : List α}
    (h : ∀ x ∈ xs, f x = .ok (g x)) : xs.mapM f = .ok (xs.map g) := by
  induction xs with
  | nil => rfl
  | cons x xs ih =>
    obtain ⟨first, others⟩ := List.forall_mem_cons.mp h
    rw [List.mapM_cons, first, ok_bind, ih others, ok_bind]
    rfl

theorem ofSet_eq_ofFiled {ε : Type} {check : Constraint → Except ε (Value → Bool)}
    {set : ConstraintSet}
    (h : ∀ under ∈ set.constraints, ∀ c ∈ under.2, check c = .ok (judge c)) :
    ofSet check set = .ok (ofFiled judge set.constraints) := by
  unfold ofSet
  refine mapM_eq_ok fun under member => ?_
  have checks : (under.2.mapM fun c => do
      let holds ← check c
      return (c, holds)) = .ok (under.2.map fun c => (c, judge c)) :=
    mapM_eq_ok fun c among => by rw [h under member c among, ok_bind]; rfl
  dsimp only
  rw [checks]
  rfl

/-- Plans of the same constraints are equal if these are judged alike. -/
theorem ofFiled_congr {other : Constraint → Value → Bool} {filed : Filed Constraint}
    (alike : filed.All fun c => judge c = other c) : ofFiled judge filed = ofFiled other filed := by
  refine List.map_congr_left fun under member => ?_
  have checks : (under.2.map fun c => (c, judge c)) = under.2.map fun c => (c, other c) :=
    List.map_congr_left fun c among => by rw [alike under member c among]
  rw [checks]

/-- One step of a run: a missing path keeps its constraints open, and the first constraint that
fails ends the run. -/
theorem runFrom_ofFiled_cons (pending : Filed Constraint) (under : Path × List Constraint)
    (rest : Filed Constraint) :
    (ofFiled judge (under :: rest)).runFrom document pending =
      match under.1.find? document with
      | none => (ofFiled judge rest).runFrom document (Ascending.put under.1 under.2 pending)
      | some found =>
        match under.2.find? fun c => !judge c found with
        | some c => .violated c found
        | none => (ofFiled judge rest).runFrom document pending := by
  have listed : (under.2.map fun c => (c, judge c)).map Prod.fst = under.2 := by
    rw [List.map_map]
    exact List.map_id _
  have checked (found : Value) : (under.2.map fun c => (c, judge c)).find?
      (fun check => !check.2 found) =
        (under.2.find? fun c => !judge c found).map fun c => (c, judge c) := List.find?_map ..
  rw [ofFiled, List.map_cons, runFrom]
  cases under.1.find? document with
  | none =>
    dsimp only
    rw [listed]
    rfl
  | some found =>
    dsimp only
    rw [checked]
    cases under.2.find? fun c => !judge c found <;> rfl

end Plan

/-- What becomes of the constraints under one path. -/
def stepResidual (judge : Constraint → Value → Bool) (document : Value)
    (under : Path × List Constraint) : Residual :=
  match under.1.find? document with
  | none => .pending [under]
  | some found =>
    match under.2.find? fun c => !judge c found with
    | some c => .violated c found
    | none => .satisfied

theorem stepResidual_missing {under : Path × List Constraint}
    (there : under.1.find? document = none) :
    stepResidual judge document under = .pending [under] := by
  rw [stepResidual, there]

theorem stepResidual_failed {under : Path × List Constraint} {found : Value} {c : Constraint}
    (there : under.1.find? document = some found)
    (failed : (under.2.find? fun c => !judge c found) = some c) :
    stepResidual judge document under = .violated c found := by
  rw [stepResidual, there]
  dsimp only
  rw [failed]

theorem stepResidual_holds {under : Path × List Constraint} {found : Value}
    (there : under.1.find? document = some found)
    (holds : (under.2.find? fun c => !judge c found) = none) :
    stepResidual judge document under = .satisfied := by
  rw [stepResidual, there]
  dsimp only
  rw [holds]

theorem wellFormed_stepResidual {under : Path × List Constraint}
    (kept : Filed.Kept Constraint.path under) : (stepResidual judge document under).WellFormed := by
  unfold stepResidual
  split
  · exact .pending (Filed.wellFormed_singleton kept) (List.cons_ne_nil _ _)
  · split
    · exact Residual.wellFormed_violated _ _
    · exact .satisfied

theorem isAt_stepResidual {under : Path × List Constraint}
    (kept : Filed.Kept Constraint.path under) :
    (stepResidual judge document under).IsAt under.1 := by
  unfold stepResidual
  split
  · exact .pending _ (Ascending.sameKey_self _)
  · split
    · next failed =>
      exact .conflict _ (kept.placed _ (List.mem_of_find?_eq_some failed))
    · exact .satisfied

theorem wellFormed_steps {filed : Filed Constraint} (filing : filed.WellFormed Constraint.path) :
    ∀ s ∈ filed.map (stepResidual judge document), s.WellFormed :=
  List.forall_mem_map.mpr fun under member => wellFormed_stepResidual (filing.kept under member)

theorem stepResidual_single (c : Constraint) :
    stepResidual judge document (c.path, [c]) = c.residual judge document := by
  unfold stepResidual Constraint.residual
  cases c.path.find? document with
  | none => rfl
  | some found =>
    dsimp only
    rw [List.find?_singleton]
    cases judge c found <;> rfl

/-- Judging does not distinguish constraints that are the same. -/
def JudgesSame (judge : Constraint → Value → Bool) : Prop :=
  ∀ c d : Constraint, (c == d) = true → ∀ found, judge c found = judge d found

/-- One more constraint under a path has its own residual as effect on the step. -/
theorem stepResidual_appendNew (fit : document.ArraysFit) (judges : JudgesSame judge) {q : Path}
    {constraints : List Constraint} (kept : Filed.Kept Constraint.path (q, constraints))
    {c : Constraint} (same : compare c.path q = .eq) :
    stepResidual judge document (q, Filed.appendNew constraints [c]) =
      (stepResidual judge document (q, constraints)).also (c.residual judge document) := by
  have there : c.path.find? document = q.find? document :=
    Path.find?_congr fit (Ascending.sameKey_iff.mpr same)
  unfold stepResidual Constraint.residual
  rw [there]
  cases q.find? document with
  | none =>
    have merged : Filed.merge [(q, constraints)] [(c.path, [c])] =
        [(q, Filed.appendNew constraints [c])] := by
      rw [Filed.merge_cons, Filed.merge_nil, Filed.file_cons, same]
    exact congrArg Residual.pending merged.symm
  | some found =>
    dsimp only
    cases failed : constraints.find? fun c => !judge c found with
    | some d =>
      have first : (Filed.appendNew constraints [c]).find? (fun c => !judge c found) = some d := by
        rw [Filed.appendNew_cons]
        split
        · exact failed
        · rw [Filed.appendNew_nil, List.find?_append, failed]
          rfl
      have placed : compare d.path c.path = .eq := by
        have among := kept.placed d (List.mem_of_find?_eq_some failed)
        rw [Std.TransCmp.congr_right same]
        exact Ascending.sameKey_iff.mp among
      rw [first]
      dsimp only
      have report : (if judge c found = true then Residual.satisfied else .violated c found).IsAt
          c.path := by
        split
        · exact .satisfied
        · exact .conflict _ (Ascending.sameKey_self _)
      rw [Residual.violated_also report (by rw [placed]; decide)]
    | none =>
      dsimp only
      rw [Residual.satisfied_also, Filed.appendNew_cons, Filed.appendNew_nil]
      -- A constraint that is left out has the same verdict as the one that stands for it.
      by_cases present : constraints.contains c = true
      · obtain ⟨d, among, equal⟩ := List.contains_iff_exists_mem_beq.mp present
        have holds : judge d found = true := by
          simpa using List.find?_eq_none.mp failed d among
        rw [if_pos present, failed, judges c d equal, holds]
        rfl
      · rw [if_neg present, List.find?_append, failed, Option.none_or, List.find?_singleton]
        cases judge c found <;> rfl

/-! ## Filing one more constraint -/

/-- A constraint commutes with steps at other paths. -/
theorem steps_also_comm {filed : Filed Constraint} (filing : filed.WellFormed Constraint.path)
    {c : Constraint} (apart : ∀ under ∈ filed, Ascending.sameKey under.1 c.path = false) :
    (conjoin (filed.map (stepResidual judge document))).also (c.residual judge document) =
      (c.residual judge document).also (conjoin (filed.map (stepResidual judge document))) := by
  have own := Constraint.wellFormed_residual judge document c
  refine Residual.conjoin_also_comm own (wellFormed_steps filing) ?_
  refine List.forall_mem_map.mpr fun under member => ?_
  have kept := filing.kept under member
  exact (isAt_stepResidual kept).also_comm (Constraint.isAt_residual judge document c)
    (wellFormed_stepResidual kept) own (apart under member)

/-- Filing a constraint adds its residual to the conjunction of the steps. -/
theorem conjoin_steps_file (fit : document.ArraysFit) (judges : JudgesSame judge)
    {filed : Filed Constraint} (filing : filed.WellFormed Constraint.path) (c : Constraint) :
    conjoin ((Filed.file c.path [c] filed).map (stepResidual judge document)) =
      (conjoin (filed.map (stepResidual judge document))).also (c.residual judge document) := by
  have own := Constraint.wellFormed_residual judge document c
  induction filed with
  | nil =>
    show conjoin [stepResidual judge document (c.path, [c])] = Residual.also .satisfied _
    rw [Residual.conjoin_singleton, stepResidual_single, Residual.satisfied_also]
  | cons under rest ih =>
    obtain ⟨q, constraints⟩ := under
    have kept : Filed.Kept Constraint.path (q, constraints) := filing.kept _ (List.mem_cons_self ..)
    have step : (stepResidual judge document (q, constraints)).WellFormed :=
      wellFormed_stepResidual kept
    have tail : Filed.WellFormed Constraint.path rest := filing.sublist (List.sublist_cons_self ..)
    have steps : ∀ s ∈ rest.map (stepResidual judge document), s.WellFormed := wellFormed_steps tail
    have parts : ∀ s ∈ ((q, constraints) :: rest).map (stepResidual judge document), s.WellFormed :=
      wellFormed_steps filing
    have above : ∀ under ∈ rest, compare q under.1 = .lt := fun under member =>
      filing.ascending.head_lt member
    have alone : Filed.appendNew [] [c] = [c] := rfl
    rw [Filed.file_cons]
    cases order : compare c.path q with
    | lt =>
      -- The constraint comes first, and commutes with the steps, all of them at higher paths.
      have apart : ∀ under ∈ (q, constraints) :: rest,
          Ascending.sameKey under.1 c.path = false := by
        intro under member
        have below : compare c.path under.1 = .lt := by
          rcases List.mem_cons.mp member with rfl | member
          · exact order
          · exact Std.TransCmp.lt_trans order (above under member)
        rw [Ascending.sameKey, Std.OrientedCmp.gt_of_lt below]
        rfl
      dsimp only
      rw [alone, List.map_cons, stepResidual_single, Residual.conjoin_cons own parts,
        steps_also_comm filing apart]
    | eq =>
      -- The constraint joins the first step, and is moved past the steps at higher paths.
      have apart : ∀ under ∈ rest, Ascending.sameKey under.1 c.path = false := by
        intro under member
        have below : compare c.path under.1 = .lt :=
          Std.TransCmp.lt_of_eq_of_lt order (above under member)
        rw [Ascending.sameKey, Std.OrientedCmp.gt_of_lt below]
        rfl
      dsimp only
      rw [List.map_cons, stepResidual_appendNew fit judges kept order,
        Residual.conjoin_cons (step.also own) steps, Residual.also_assoc step own (.conjoin steps),
        ← steps_also_comm tail apart, ← Residual.also_assoc step (.conjoin steps) own,
        List.map_cons, Residual.conjoin_cons step steps]
    | gt =>
      -- The constraint is filed behind the first step.
      have later : ∀ s ∈ (Filed.file c.path [c] rest).map (stepResidual judge document),
          s.WellFormed :=
        wellFormed_steps (tail.merge (Filed.wellFormed_singleton (Filed.kept_single c)))
      dsimp only
      rw [List.map_cons, Residual.conjoin_cons step later, ih tail,
        ← Residual.also_assoc step (.conjoin steps) own, List.map_cons,
        Residual.conjoin_cons step steps]

/-! ## Running -/

theorem Residual.wellFormed_ofPending {filed : Filed Constraint}
    (filing : filed.WellFormed Constraint.path) : (Residual.ofPending filed).WellFormed := by
  unfold Residual.ofPending
  split
  · exact .satisfied
  · next occupied => exact .pending filing fun empty => occupied (List.isEmpty_iff.mpr empty)

/-- What is open under a path above all others is listed last. -/
theorem ofPending_append {pending : Filed Constraint} {under : Path × List Constraint}
    (whole : Filed.WellFormed Constraint.path (pending ++ [under])) :
    Residual.ofPending (pending ++ [under]) =
      (Residual.ofPending pending).also (.pending [under]) := by
  by_cases empty : pending = []
  · rw [empty]
    rfl
  · have kept : Filed.Kept Constraint.path under :=
      whole.kept under (List.mem_append_right _ (List.mem_singleton_self _))
    have all : Filed.appendNew [] under.2 = under.2 := Filed.appendNew_of_distinct kept.distinct
    have merged : Filed.merge pending [under] = pending ++ [under] := by
      show Filed.file under.1 under.2 pending = _
      rw [Filed.file, Ascending.alter_of_above whole.above]
      exact congrArg (fun entries => pending ++ [(under.1, entries)]) all
    have occupied : ∀ filed : Filed Constraint, filed ≠ [] →
        Residual.ofPending filed = .pending filed := fun filed nonempty =>
      if_neg fun isEmpty => nonempty (List.isEmpty_iff.mp isEmpty)
    have longer : pending ++ [under] ≠ [] :=
      List.append_ne_nil_of_right_ne_nil _ (List.cons_ne_nil _ _)
    rw [occupied pending empty, occupied _ longer, ← merged]
    rfl

theorem ofPending_also_violated (pending : Filed Constraint) (c : Constraint) (found : Value) :
    (Residual.ofPending pending).also (.violated c found) = .violated c found := by
  unfold Residual.ofPending
  split <;> rfl

/-- A violation outweighs all steps at higher paths. -/
theorem violated_also_steps {under : Path × List Constraint} {rest : Filed Constraint}
    (later : Filed.WellFormed Constraint.path (under :: rest)) {c : Constraint}
    (among : c ∈ under.2) (found : Value) :
    (Residual.violated c found).also (conjoin (rest.map (stepResidual judge document))) =
      .violated c found := by
  have tail : Filed.WellFormed Constraint.path rest := later.sublist (List.sublist_cons_self ..)
  have placed := (later.kept under (List.mem_cons_self ..)).placed c among
  refine Residual.also_conjoin_absorb (Residual.wellFormed_violated c found)
    (wellFormed_steps tail) (List.forall_mem_map.mpr fun other member => ?_)
  refine Residual.violated_also (isAt_stepResidual (tail.kept other member)) ?_
  rw [Std.TransCmp.congr_left (Ascending.sameKey_iff.mp placed), later.ascending.head_lt member]
  decide

/-- A run goes on like the conjunction of what is open so far with the remaining steps. -/
theorem runFrom_ofFiled {pending filed : Filed Constraint}
    (whole : Filed.WellFormed Constraint.path (pending ++ filed)) :
    (Plan.ofFiled judge filed).runFrom document pending =
      (Residual.ofPending pending).also (conjoin (filed.map (stepResidual judge document))) := by
  induction filed generalizing pending with
  | nil => exact (Residual.also_satisfied _).symm
  | cons under rest ih =>
    obtain ⟨q, constraints⟩ := under
    have before := Residual.wellFormed_ofPending (whole.sublist (List.sublist_append_left ..))
    have later := whole.sublist (List.sublist_append_right ..)
    have kept : Filed.Kept Constraint.path (q, constraints) := later.kept _ (List.mem_cons_self ..)
    have tail : Filed.WellFormed Constraint.path rest := later.sublist (List.sublist_cons_self ..)
    have step : (stepResidual judge document (q, constraints)).WellFormed :=
      wellFormed_stepResidual kept
    have steps : ∀ s ∈ rest.map (stepResidual judge document), s.WellFormed := wellFormed_steps tail
    have regrouped :
        pending ++ (q, constraints) :: rest = pending ++ [(q, constraints)] ++ rest := by
      simp
    rw [List.map_cons, Residual.conjoin_cons step steps, Plan.runFrom_ofFiled_cons]
    dsimp only
    cases there : q.find? document with
    | none =>
      have waiting : stepResidual judge document (q, constraints) = .pending [(q, constraints)] :=
        stepResidual_missing there
      -- What is open so far stands at lower paths, so the step is stored behind it.
      have stored : Ascending.put q constraints pending = pending ++ [(q, constraints)] :=
        Ascending.alter_of_above whole.above
      have grown := regrouped ▸ whole
      rw [waiting] at step ⊢
      dsimp only
      rw [stored, ih grown, ofPending_append (grown.sublist (List.sublist_append_left ..)),
        Residual.also_assoc before step (.conjoin steps)]
    | some found =>
      cases failed : constraints.find? fun c => !judge c found with
      | some c =>
        dsimp only
        rw [failed, stepResidual_failed there failed,
          violated_also_steps later (List.mem_of_find?_eq_some failed), ofPending_also_violated]
      | none =>
        -- The step leaves no trace.
        have shorter : Filed.WellFormed Constraint.path (pending ++ rest) :=
          whole.sublist (List.Sublist.append_left (List.sublist_cons_self ..) pending)
        dsimp only
        rw [failed, stepResidual_holds there failed, Residual.satisfied_also]
        exact ih shorter

/-- A plan runs like the conjunction of its steps. -/
theorem run_ofFiled {filed : Filed Constraint} (filing : filed.WellFormed Constraint.path) :
    (Plan.ofFiled judge filed).run document =
      conjoin (filed.map (stepResidual judge document)) := by
  have start : Filed.WellFormed Constraint.path ([] ++ filed) := filing
  rw [Plan.run, runFrom_ofFiled start]
  exact Residual.satisfied_also _

/-! ## The plan of a list of constraints -/

namespace ConstraintSet

theorem wellFormed_foldl_addConstraint (cs : List Constraint) {set : ConstraintSet}
    (filing : set.constraints.WellFormed Constraint.path) :
    (cs.foldl addConstraint set).constraints.WellFormed Constraint.path := by
  induction cs generalizing set with
  | nil => exact filing
  | cons c cs ih => exact ih (filing.merge (Filed.wellFormed_singleton (Filed.kept_single c)))

theorem conjoin_steps_foldl (fit : document.ArraysFit) (judges : JudgesSame judge)
    (cs : List Constraint) {set : ConstraintSet}
    (filing : set.constraints.WellFormed Constraint.path) :
    conjoin ((cs.foldl addConstraint set).constraints.map (stepResidual judge document)) =
      (conjoin (set.constraints.map (stepResidual judge document))).also
        (conjoin (cs.map (Constraint.residual judge document))) := by
  have each (cs : List Constraint) : ∀ s ∈ cs.map (Constraint.residual judge document),
      s.WellFormed :=
    List.forall_mem_map.mpr fun c _ => Constraint.wellFormed_residual judge document c
  induction cs generalizing set with
  | nil => exact (Residual.also_satisfied _).symm
  | cons c cs ih =>
    have own := Constraint.wellFormed_residual judge document c
    have added : (set.addConstraint c).constraints.WellFormed Constraint.path :=
      filing.merge (Filed.wellFormed_singleton (Filed.kept_single c))
    rw [List.foldl_cons, ih added, List.map_cons, Residual.conjoin_cons own (each cs),
      ← Residual.also_assoc (.conjoin (wellFormed_steps filing)) own (.conjoin (each cs))]
    refine congrArg (Residual.also · _) ?_
    exact conjoin_steps_file fit judges filing c

/-- Running the plan of some constraints gives the residual of their conjunction. -/
theorem run_ofConstraints (fit : document.ArraysFit) (judges : JudgesSame judge)
    (cs : List Constraint) :
    (Plan.ofFiled judge (cs.foldl addConstraint empty).constraints).run document =
      conjoin (cs.map (Constraint.residual judge document)) := by
  have start : empty.constraints.WellFormed Constraint.path := Filed.wellFormed_nil
  rw [run_ofFiled (wellFormed_foldl_addConstraint cs start),
    conjoin_steps_foldl fit judges cs start]
  exact Residual.satisfied_also _

/-- What is true of some constraints is true of all that stay when they are added. -/
theorem all_foldl_addConstraint {P : Constraint → Prop} {cs : List Constraint} {set : ConstraintSet}
    (before : set.constraints.All P) (added : ∀ c ∈ cs, P c) :
    (cs.foldl addConstraint set).constraints.All P := by
  induction cs generalizing set with
  | nil => exact before
  | cons c cs ih =>
    obtain ⟨first, others⟩ := List.forall_mem_cons.mp added
    exact ih (before.file c.path (List.forall_mem_singleton.mpr first)) others

end ConstraintSet

/-! ## The plan of the operators of a registry -/

namespace Registry

variable {registry : Registry} {operands : List Value}

/-- Judges a constraint with the first of some operands that equals its own, in the place of that. -/
def judgeAmong (registry : Registry) (operands : List Value) (c : Constraint) (found : Value) :
    Bool :=
  (operands.find? fun o => c.operand == o).any fun o => registry.judge { c with operand := o } found

theorem judgesSame_judgeAmong (registry : Registry) (operands : List Value) :
    JudgesSame (registry.judgeAmong operands) := by
  intro c d same found
  obtain ⟨-, operator, operand, negated⟩ := Constraint.beq_iff.mp same
  have first : (operands.find? fun o => c.operand == o) =
      operands.find? fun o => d.operand == o := by
    congr 1
    funext o
    exact BEq.congr_left operand
  have turned (o : Value) : registry.judge { c with operand := o } found =
      registry.judge { d with operand := o } found := by
    unfold judge Constraint.admits
    rw [operator, negated]
  simp only [judgeAmong, first, turned]

/-- Where operators do not distinguish equal operands, any of them can be judged with. -/
theorem RespectsOperands.judgeAmong_eq (respects : registry.RespectsOperands operands)
    {c : Constraint} (own : c.operand ∈ operands) :
    registry.judgeAmong operands c = registry.judge c := by
  funext found
  have present : (operands.find? fun o => c.operand == o).isSome :=
    List.find?_isSome.mpr ⟨c.operand, own, BEq.rfl⟩
  obtain ⟨o, first⟩ := Option.isSome_iff_exists.mp present
  have equal : (o == c.operand) = true := BEq.symm (List.find?_some first)
  unfold judgeAmong judge
  rw [first, Option.any_some]
  cases registered : registry.find? c.operator with
  | none => rfl
  | some op =>
    have same := respects _ op registered found o (List.mem_of_find?_eq_some first) _ own equal
    rw [Option.any_some, Option.any_some, Constraint.admits, Constraint.admits, same]

end Registry

/-- Running the plan of some constraints by the operators of a registry gives the residual of their
conjunction, if these do not distinguish operands of the constraints that are equal. -/
theorem ConstraintSet.run_registered {registry : Registry} {operands : List Value}
    (respects : registry.RespectsOperands operands) (fit : document.ArraysFit)
    {cs : List Constraint} (own : ∀ c ∈ cs, c.operand ∈ operands) :
    (Plan.ofFiled registry.judge (cs.foldl addConstraint empty).constraints).run document =
      conjoin (cs.map (Constraint.residual registry.judge document)) := by
  -- Operands are represented by the first one that is equal, so that judging respects sameness.
  have alike {c : Constraint} (among : c.operand ∈ operands) :
      registry.judge c = registry.judgeAmong operands c := (respects.judgeAmong_eq among).symm
  have start : empty.constraints.All fun c => c.operand ∈ operands := Filed.all_nil
  have stays := all_foldl_addConstraint start own
  have plans := Plan.ofFiled_congr fun under member c among => alike (stays under member c among)
  have residuals : cs.map (Constraint.residual registry.judge document) =
      cs.map (Constraint.residual (registry.judgeAmong operands) document) :=
    List.map_congr_left fun c member => by
      rw [Constraint.residual, Constraint.residual, alike (own c member)]
  rw [plans, residuals]
  exact run_ofConstraints fit (registry.judgesSame_judgeAmong operands) cs

end ResidualPolicy
