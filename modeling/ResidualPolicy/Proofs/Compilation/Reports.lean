import ResidualPolicy.Proofs.Compilation
import ResidualPolicy.Proofs.ConstraintSet.Normal

/-!
# What evaluations report

Residuals are well-formed, whether policies are interpreted or compiled, so being satisfied is the
only way to report nothing that is left to do. A conflict always reports a violation, but for one
case: a disjunction without parts is in conflict with every document and has nothing to blame. That
conflict can only be passed on, never made of other residuals (`Residual.also_eq_bare`,
`Residual.otherwise_eq_bare`), so some connective without parts stands in every policy that yields
it.
-/

namespace ResidualPolicy

/-! ## Conflicts without violations -/

namespace Residual

theorem violated_ne_bare (c : Constraint) (witness : Value) :
    violated c witness ≠ .conflict [] := by
  intro h
  cases h

theorem waitFor_ne_bare (c : Constraint) : waitFor c ≠ .conflict [] := by
  intro h
  cases h

theorem ofPending_ne_bare (constraints : Filed Constraint) :
    ofPending constraints ≠ .conflict [] := by
  intro h
  unfold ofPending at h
  split at h <;> cases h

/-- Of two conflicts a conjunction reports one as it is. -/
theorem also_eq_bare {r s : Residual} (h : r.also s = .conflict []) :
    r = .conflict [] ∨ s = .conflict [] := by
  cases r with
  | satisfied => exact .inr (satisfied_also s ▸ h)
  | pending a =>
    cases s with
    | conflict b => exact .inr h
    | _ => cases h
  | conflict a =>
    cases s with
    | conflict b =>
      have lower : lowerOf a b = [] := Residual.conflict.inj h
      unfold lowerOf at lower
      split at lower
      · exact .inr (congrArg _ lower)
      · exact .inl (congrArg _ lower)
    | _ => exact .inl h

theorem foldl_also_eq_bare {rs : List Residual} {start : Residual}
    (h : rs.foldl also start = .conflict []) : start = .conflict [] ∨ .conflict [] ∈ rs := by
  induction rs generalizing start with
  | nil => exact .inl h
  | cons r rs ih =>
    rcases ih h with first | later
    · rcases also_eq_bare first with before | own
      · exact .inl before
      · rw [own]
        exact .inr List.mem_cons_self
    · exact .inr (List.mem_cons_of_mem _ later)

/-- The violations of all parts of a disjunction are reported together. -/
theorem otherwise_eq_bare {r s : Residual} (h : r.otherwise s = .conflict []) :
    r = .conflict [] ∧ s = .conflict [] := by
  cases r <;> cases s <;> try cases h
  next a b =>
    obtain ⟨left, right⟩ := Filed.merge_eq_nil_iff.mp (Residual.conflict.inj h)
    exact ⟨congrArg _ left, congrArg _ right⟩

theorem foldl_otherwise_eq_bare {rs : List Residual} {start : Residual}
    (h : rs.foldl otherwise start = .conflict []) : ∀ r ∈ rs, r = .conflict [] := by
  have all : start = .conflict [] ∧ ∀ r ∈ rs, r = .conflict [] := by
    induction rs generalizing start with
    | nil => exact ⟨h, nofun⟩
    | cons r rs ih =>
      obtain ⟨first, others⟩ := ih h
      obtain ⟨before, own⟩ := otherwise_eq_bare first
      exact ⟨before, List.forall_mem_cons.mpr ⟨own, others⟩⟩
  exact all.2

end Residual

namespace Quantifier

theorem conclude_eq_bare {quantifier : Quantifier} {pending : Filed Constraint}
    {violations : Filed Violation} {unmatched : Residual}
    (h : quantifier.conclude pending violations unmatched = .conflict []) :
    unmatched = .conflict [] := by
  unfold conclude at h
  split at h
  · cases quantifier with
    | universal => cases h
    | existential =>
      dsimp only at h
      split at h
      · exact h
      · next occupied => exact absurd (List.isEmpty_iff.mpr (Residual.conflict.inj h)) occupied
  · cases h

theorem inner_of_decides_bare {quantifier : Quantifier} {selected inner : Residual}
    (h : quantifier.verdict selected inner = .decides (.conflict [])) : inner = .conflict [] := by
  cases quantifier <;> cases selected <;> cases inner <;> cases h
  rfl

/-- A survey passes on a conflict without violations only from an element. -/
theorem Surveyed.exists_of_bare {quantifier : Quantifier} {filter body : AtPlace}
    {unmatched r : Residual} {pending : Filed Constraint} {violations : Filed Violation}
    {elements : List (Path × Value)}
    (surveyed : Surveyed quantifier filter body unmatched pending violations elements r)
    (bare : r = .conflict []) (matched : unmatched ≠ .conflict []) :
    ∃ element ∈ elements, body element.2 element.1 = .ok (.conflict []) := by
  induction surveyed with
  | concluded pending violations => exact absurd (conclude_eq_bare bare) matched
  | @decided pending violations element rest r judged =>
    subst bare
    generalize decision : Verdict.decides (.conflict []) = verdict at judged
    cases judged with
    | rejected filtered => cases decision
    | selected filtered evaluated =>
      rw [inner_of_decides_bare decision.symm] at evaluated
      exact ⟨element, List.mem_cons_self, evaluated⟩
  | added judged later ih =>
    obtain ⟨element, member, evaluated⟩ := ih bare
    exact ⟨element, List.mem_cons_of_mem _ member, evaluated⟩

end Quantifier

/-! ## Interpreted policies -/

/-- A constraint that is violated is reported. -/
theorem Constraint.evaluate_ne_bare {registry : Registry} {document : Value} {place : Path}
    {positive : Bool} (c : Constraint) :
    c.evaluate registry document place positive ≠ .ok (.conflict []) := by
  intro h
  cases there : c.path.find? document with
  | none =>
    rw [evaluate_missing there] at h
    exact absurd (Except.ok.inj h) (Residual.waitFor_ne_bare _)
  | some found =>
    rw [evaluate, there] at h
    obtain ⟨op, -, h⟩ := bind_eq_ok h
    split at h
    · cases h
    · exact absurd (Except.ok.inj h) (Residual.violated_ne_bare _ _)

namespace Policy

/-- A connective without parts stands in the policy. -/
def HasBareConnective (p : Policy) : Prop :=
  ∃ connective, p.Contains (.connected connective [])

variable {registry : Registry}

theorem HasBareConnective.part {connective : Connective} {parts : List Policy} {p : Policy}
    (member : p ∈ parts) : p.HasBareConnective → (connected connective parts).HasBareConnective
  | ⟨bare, inner⟩ => ⟨bare, .part member inner⟩

/-- A policy that is in conflict without a violation has a connective without parts. -/
theorem hasBareConnective_of_evaluateAt {p : Policy} {document : Value} {place : Path}
    {positive : Bool} (h : p.evaluateAt registry document place positive = .ok (.conflict [])) :
    p.HasBareConnective := by
  induction p generalizing document place positive with
  | leaf c =>
    rw [evaluateAt] at h
    exact absurd h c.evaluate_ne_bare
  | connected connective parts ih =>
    rw [evaluateAt] at h
    cases joined : connective.withPolarity positive with
    | conjunction =>
      rw [joined] at h
      obtain ⟨rs, all, bare⟩ := map_eq_ok h
      have among : .conflict [] ∈ rs := by
        rcases Residual.foldl_also_eq_bare bare with start | among
        · cases start
        · exact among
      obtain ⟨p, member, found⟩ := exists_mem_of_forall₂ (forall₂_of_evaluateAll all) _ among
      exact (ih p member found).part member
    | disjunction =>
      rw [joined] at h
      obtain ⟨rs, some, bare⟩ := map_eq_ok h
      cases parts with
      | nil => exact ⟨connective, .self _⟩
      | cons p rest =>
        -- The first part is evaluated in any case, and what it reports is reported.
        obtain ⟨r, first, later⟩ := evaluateSome_eq_ok some
        have among : r ∈ rs := by
          rcases later with ⟨-, rfl⟩ | ⟨-, later, -, rfl⟩ <;> exact List.mem_cons_self
        rw [Residual.foldl_otherwise_eq_bare bare r among] at first
        exact (ih p List.mem_cons_self first).part List.mem_cons_self
  | negation p ih =>
    rw [evaluateAt] at h
    obtain ⟨connective, inner⟩ := ih h
    exact ⟨connective, .negation inner⟩
  | quantified quantifier path filter body ihFilter ihBody =>
    rw [evaluateAt] at h
    split at h
    · exact absurd (Except.ok.inj h) (Residual.waitFor_ne_bare _)
    · split at h
      · exact absurd (Except.ok.inj h) (Residual.violated_ne_bare _ _)
      · obtain ⟨element, -, evaluated⟩ := (Quantifier.surveyed_of_survey h).exists_of_bare rfl
          (Residual.violated_ne_bare _ _)
        obtain ⟨connective, inner⟩ := ihBody evaluated
        exact ⟨connective, .body inner⟩
  | counted path filter comparator operand ih =>
    rw [evaluateAt] at h
    split at h
    · exact absurd (Except.ok.inj h) (Residual.waitFor_ne_bare _)
    · split at h
      · exact absurd (Except.ok.inj h) (Residual.violated_ne_bare _ _)
      · obtain ⟨count, -, h⟩ := bind_eq_ok h
        obtain ⟨op, -, h⟩ := bind_eq_ok h
        split at h
        · cases h
        · exact absurd (Except.ok.inj h) (Residual.violated_ne_bare _ _)

/-- The conjunction of policies is in conflict without a violation only if one of them has a
connective without parts. Without any policy it is satisfied. -/
theorem exists_hasBareConnective_of_conjunction {policies : List Policy} {document : Value}
    (h : (conjunction policies).evaluate registry document = .ok (.conflict [])) :
    ∃ q ∈ policies, q.HasBareConnective := by
  match policies with
  | [] =>
    have none : conjunction [] = .connected .conjunction [] := rfl
    rw [none, evaluate, evaluateAt] at h
    cases h
  | [p] => exact ⟨p, List.mem_singleton_self p, hasBareConnective_of_evaluateAt h⟩
  | p :: q :: rest =>
    obtain ⟨connective, inner⟩ := hasBareConnective_of_evaluateAt h
    cases inner with
    | part member inner => exact ⟨_, member, connective, inner⟩

end Policy

/-! ## Compiled policies -/

/-- A run ends with what is open or with a violation. -/
theorem Plan.runFrom_ne_bare (plan : Plan) (document : Value) (pending : Filed Constraint) :
    plan.runFrom document pending ≠ .conflict [] := by
  induction plan generalizing pending with
  | nil => exact Residual.ofPending_ne_bare pending
  | cons step rest ih =>
    rw [runFrom]
    split
    · exact ih _
    · split
      · exact Residual.violated_ne_bare _ _
      · exact ih pending

theorem wellFormed_run {judge : Constraint → Value → Bool} {filed : Filed Constraint}
    (filing : filed.WellFormed Constraint.path) (document : Value) :
    ((Plan.ofFiled judge filed).run document).WellFormed := by
  rw [run_ofFiled filing]
  exact .conjoin (wellFormed_steps filing)

namespace CompiledPolicy

/-- Residuals are well-formed: what waits is never nothing, and in what waits and in what is
violated every path has entries, none of them twice, all of which belong to the path. A conflict
without any violation comes only from policies in which a connective without parts stands.

This is true of policies that are interpreted, by any registry, and of compiled ones on the
interpreted, the guarded and the generic tier when no fallback is supplied, for these evaluators are
made from the policies. The evaluator of the specialized tier comes from a specializer that may not be
one of ours. It is asked to return, for constraints on built-in operators, what checking them by the
registered operators returns (`Specializer.IsFaithful`); the inline specializer does
(`inlineSpecializer_isFaithful`). -/
theorem wellFormed_reports [PatternEngine] :
    (∀ (registry : Registry) (p : Policy) (document : Value) (r : Residual),
      p.evaluate registry document = .ok r →
        r.WellFormed ∧ (r = .conflict [] → p.HasBareConnective)) ∧
    ∀ start : Registry, start.IsInitial → ∀ (before : List Operator) (policies : List Policy)
      (options : CompileOptions), options.IsFaithful →
      ∀ p, compile (start.after before) policies options = .ok p →
        ∀ (later : List Operator) (document : Value) (r : Residual),
          p.evaluate ((start.after before).after later) document = .ok r →
            r.WellFormed ∧ (r = .conflict [] → ∃ q ∈ policies, q.HasBareConnective) := by
  refine ⟨fun registry p document r evaluated => ?_, ?_⟩
  · refine ⟨Policy.wellFormed_of_evaluateAt evaluated, ?_⟩
    rintro rfl
    exact Policy.hasBareConnective_of_evaluateAt evaluated
  · intro start initial before policies options faithful p compiled later document r evaluated
    have complete := initial.complete.after before
    rcases evaluate_cases complete faithful compiled later document with same | ⟨-, -, ran⟩
    · rw [same] at evaluated
      refine ⟨Policy.wellFormed_of_evaluateAt evaluated, ?_⟩
      rintro rfl
      exact Policy.exists_hasBareConnective_of_conjunction evaluated
    · rw [ran] at evaluated
      rw [← Except.ok.inj evaluated]
      have filing := (ConstraintSet.isNormal_ofPolicies policies).filed
      exact ⟨wellFormed_run filing document, fun bare => absurd bare (Plan.runFrom_ne_bare _ _ _)⟩

/-- A quantifier over a disjunction without parts, interpreted and compiled, and constraints that
are compiled to specialized checks and wait for a value. -/
theorem wellFormed_reports_of_hollow :
    let path (name : String) : Path := ⟨[.string name]⟩
    let hollow : Policy := .quantified .universal (path "items") none (.connected .disjunction [])
    let age : Constraint := { path := path "age", operator := "<", operand := .number (.int 18) }
    let document : Value := .object [(.string "items", .array [.null])]
    let options : CompileOptions := { specializer := some inlineSpecializer }
    Registry.builtins.IsInitial ∧ options.IsFaithful ∧
      hollow.evaluate .builtins document = .ok (.conflict []) ∧ hollow.HasBareConnective ∧
      (∃ p, compile .builtins [.leaf age, hollow] options = .ok p ∧ p.tier = .interpreted ∧
        p.evaluate .builtins document = .ok (.conflict []) ∧
        ∃ q ∈ [.leaf age, hollow], q.HasBareConnective) ∧
      ∃ p, compile .builtins [.leaf age, .leaf age] options = .ok p ∧ p.tier = .specialized ∧
        p.evaluate .builtins document = .ok (.pending [(age.path, [age])]) ∧
        (Residual.pending [(age.path, [age])]).WellFormed := by
  intro path hollow age document options
  have initial : Registry.builtins.IsInitial := .inl rfl
  have faithful : options.IsFaithful := CompileOptions.IsStandard.isFaithful ⟨.inl rfl, .inr rfl⟩
  obtain ⟨interpreted, compiled⟩ := wellFormed_reports
  have alone : hollow.evaluate .builtins document = .ok (.conflict []) := rfl
  have asGiven : (compile .builtins [.leaf age, hollow] options).map
      (fun p => (p.tier, p.evaluate .builtins document)) =
        .ok (.interpreted, .ok (.conflict [])) := by
    unfold options document age hollow path
    rfl
  have inlined : (compile .builtins [.leaf age, .leaf age] options).map
      (fun p => (p.tier, p.evaluate .builtins document)) =
        .ok (.specialized, .ok (.pending [(age.path, [age])])) := by
    unfold options document age path
    rfl
  refine ⟨initial, faithful, alone, (interpreted _ _ _ _ alone).2 rfl, ?_, ?_⟩
  · obtain ⟨p, found, both⟩ := map_eq_ok asGiven
    obtain ⟨tier, evaluated⟩ := Prod.mk.inj both
    obtain ⟨-, bare⟩ := compiled _ initial [] _ options faithful p found [] document _ evaluated
    exact ⟨p, found, tier, evaluated, bare rfl⟩
  · obtain ⟨p, found, both⟩ := map_eq_ok inlined
    obtain ⟨tier, evaluated⟩ := Prod.mk.inj both
    obtain ⟨whole, -⟩ := compiled _ initial [] _ options faithful p found [] document _ evaluated
    exact ⟨p, found, tier, evaluated, whole⟩

end CompiledPolicy

end ResidualPolicy
