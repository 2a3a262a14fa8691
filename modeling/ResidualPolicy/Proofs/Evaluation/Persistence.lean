import ResidualPolicy.Pattern.Reader
import ResidualPolicy.Proofs.Evaluation.Decision
import ResidualPolicy.Proofs.Value.Growth

/-!
# Decisions persist when documents grow

A document grows when keys are added to its objects. Where a leaf has found a value, or a count its
collection, the same value still has to stand there afterwards. Then a policy that was satisfied
stays satisfied and one that was violated stays violated. Only what was open can change.

The condition speaks of what an evaluation on the smaller document finds (`Policy.finds`), which is
less than what its leaves ask for: a disjunction is left at its first satisfied part, a quantifier
at the element that decides, and the body is not asked about elements that fail the filter.
-/

namespace ResidualPolicy

/-! ## What an evaluation finds -/

/-- A place in a document, possibly inside an element of a collection. Elements are counted from the
first one. -/
inductive Spot where
  | here (path : Path)
  | inside (path : Path) (index : Nat) (spot : Spot)

/-- What stands at a place. -/
def Spot.find? : Spot → Value → Option Value
  | .here path, document => path.find? document
  | .inside path index spot, document =>
    (path.find? document).bind fun collection =>
      collection.elements?.bind fun elements =>
        elements[index]?.bind fun element => spot.find? element.2

theorem Spot.find?_inside {path : Path} {index : Nat} {spot : Spot} {document collection : Value}
    {elements : List (Value × Value)} {element : Value × Value}
    (there : path.find? document = some collection) (listed : collection.elements? = some elements)
    (here : elements[index]? = some element) :
    (Spot.inside path index spot).find? document = spot.find? element.2 := by
  simp only [find?, there, listed, here, Option.bind_some]

/-- The places where something is found on an element that stands at a place. -/
abbrev FindsAt := Value → Path → List Spot

namespace Quantifier

/-- What a survey finds, with the number of the element in which it is found. -/
def surveyFinds (quantifier : Quantifier) (filter body : AtPlace)
    (filterFinds bodyFinds : FindsAt) :
    List (Path × Value) → List (Nat × Spot)
  | [] => []
  | (place, element) :: rest =>
    let later := (surveyFinds quantifier filter body filterFinds bodyFinds rest).map
      fun (index, spot) => (index + 1, spot)
    (filterFinds element place).map (fun spot => (0, spot)) ++
      match filter element place with
      | .error _ => []
      | .ok (.conflict _) => later
      | .ok selected =>
        (bodyFinds element place).map (fun spot => (0, spot)) ++
          match body element place with
          | .error _ => []
          | .ok inner =>
            match quantifier.verdict selected inner with
            | .decides _ => []
            | .adds _ _ => later

end Quantifier

namespace Policy

mutual

/-- The places where an evaluation finds values for its leaves and collections for its counts. What
the filter of a count finds lies inside the collection of the count. -/
def findsAt (registry : Registry) : Policy → Value → Path → Bool → List Spot
  | .leaf c, document, _, _ => if (c.path.find? document).isSome then [.here c.path] else []
  | .connected connective parts, document, place, positive =>
    match connective.withPolarity positive with
    | .conjunction => findsAll registry parts document place positive
    | .disjunction => findsSome registry parts document place positive
  | .negation p, document, place, positive => findsAt registry p document place (!positive)
  | .quantified quantifier path filter body, document, place, positive =>
    match (path.find? document).bind Value.elements? with
    | none => []
    | some elements =>
      ((quantifier.withPolarity positive).surveyFinds (evaluateFilter registry filter)
        (fun element here => evaluateAt registry body element here positive)
        (findsFilter registry filter)
        (fun element here => findsAt registry body element here positive)
        (placedElements (place.join path) elements)).map
          fun (index, spot) => .inside path index spot
  | .counted path _ _ _, document, _, _ =>
    if ((path.find? document).bind Value.elements?).isSome then [.here path] else []

/-- What the parts of a conjunction find. -/
def findsAll (registry : Registry) : List Policy → Value → Path → Bool → List Spot
  | [], _, _, _ => []
  | p :: rest, document, place, positive =>
    findsAt registry p document place positive ++ findsAll registry rest document place positive

/-- What the parts of a disjunction find, up to the first one that is satisfied. -/
def findsSome (registry : Registry) : List Policy → Value → Path → Bool → List Spot
  | [], _, _, _ => []
  | p :: rest, document, place, positive =>
    findsAt registry p document place positive ++
      match evaluateAt registry p document place positive with
      | .ok .satisfied => []
      | _ => findsSome registry rest document place positive

/-- What a filter finds. -/
def findsFilter (registry : Registry) : Option Policy → Value → Path → List Spot
  | none, _, _ => []
  | some filter, element, place => findsAt registry filter element place true

end

/-- The places where the evaluation of a policy on a document finds what its leaves and counts ask
for. -/
def finds (registry : Registry) (p : Policy) (document : Value) : List Spot :=
  p.findsAt registry document .root true

theorem findsSome_of_ne {registry : Registry} {p : Policy} {rest : List Policy} {document : Value}
    {place : Path} {positive : Bool} {r : Residual}
    (evaluated : evaluateAt registry p document place positive = .ok r) (further : r ≠ .satisfied) :
    findsSome registry (p :: rest) document place positive =
      findsAt registry p document place positive ++
        findsSome registry rest document place positive := by
  rw [findsSome, evaluated]
  cases r with
  | satisfied => exact absurd rfl further
  | _ => rfl

end Policy

/-- What was found at some places is still there, unchanged. -/
def Kept (spots : List Spot) (d e : Value) : Prop :=
  ∀ spot ∈ spots, spot.find? e = spot.find? d

theorem kept_append {spots others : List Spot} {d e : Value} :
    Kept (spots ++ others) d e ↔ Kept spots d e ∧ Kept others d e :=
  List.forall_mem_append

/-! ## Persistence -/

/-- What may become of a residual: a decision stays, and what is open can become anything. -/
inductive Residual.Persists : Residual → Residual → Prop where
  | satisfied : Persists .satisfied .satisfied
  | conflict (violations others : Filed Violation) :
      Persists (.conflict violations) (.conflict others)
  | pending (constraints : Filed Constraint) (r : Residual) : Persists (.pending constraints) r

namespace Residual

theorem Persists.refl (r : Residual) : r.Persists r := by
  cases r with
  | satisfied => exact .satisfied
  | pending constraints => exact .pending _ _
  | conflict violations => exact .conflict _ _

theorem Persists.also {r r' s s' : Residual} (hr : r.Persists r') (hs : s.Persists s') :
    (r.also s).Persists (r'.also s') := by
  cases hr with
  | satisfied =>
    rw [satisfied_also, satisfied_also]
    exact hs
  | conflict violations others =>
    cases hs with
    | satisfied => exact .conflict _ _
    | conflict violations' others' => exact .conflict _ _
    | pending constraints s' => cases s' <;> exact .conflict _ _
  | pending constraints r' =>
    cases hs with
    | satisfied => exact .pending _ _
    | conflict violations others => cases r' <;> exact .conflict _ _
    | pending constraints' s' => exact .pending _ _

theorem Persists.otherwise {r r' s s' : Residual} (hr : r.Persists r') (hs : s.Persists s') :
    (r.otherwise s).Persists (r'.otherwise s') := by
  cases hr with
  | satisfied =>
    rw [satisfied_otherwise, satisfied_otherwise]
    exact .satisfied
  | conflict violations others =>
    cases hs with
    | satisfied => exact .satisfied
    | conflict violations' others' => exact .conflict _ _
    | pending constraints' s' => exact .pending _ _
  | pending constraints r' =>
    cases hs with
    | satisfied => cases r' <;> exact .satisfied
    | conflict violations' others' => exact .pending _ _
    | pending constraints' s' => exact .pending _ _

theorem persists_foldl_also {rs rs' : List Residual} (h : List.Forall₂ Persists rs rs')
    {r r' : Residual} (first : r.Persists r') : (rs.foldl also r).Persists (rs'.foldl also r') := by
  induction h generalizing r r' with
  | nil => exact first
  | cons head _ ih => exact ih (first.also head)

/-- A disjunction with a part that is not violated is not violated. -/
theorem not_conflict_foldl_otherwise {rs : List Residual} {r : Residual}
    (h : ∀ violations, r ≠ .conflict violations) (violations : Filed Violation) :
    rs.foldl otherwise r ≠ .conflict violations := by
  intro violated
  have decision : Connective.disjunction.quantifier.dual.Decision
      (rs.foldl Connective.disjunction.further r) :=
    Quantifier.decision_universal.mpr ⟨violations, violated⟩
  obtain ⟨failed, start⟩ :=
    Quantifier.decision_universal.mp (Connective.dual_decision_foldl_iff.mp decision).1
  exact h failed start

theorem persists_satisfied {r : Residual} (h : ∀ violations, r ≠ .conflict violations) :
    r.Persists .satisfied := by
  cases r with
  | satisfied => exact .satisfied
  | pending constraints => exact .pending _ _
  | conflict violations => exact absurd rfl (h violations)

end Residual

/-- What may become of the verdict on an element. -/
inductive Verdict.Persists : Verdict → Verdict → Prop where
  | decides {r s : Residual} (h : r.Persists s) : Persists (.decides r) (.decides s)
  | nothing (violations others : Filed Violation) :
      Persists (.adds [] violations) (.adds [] others)
  | waiting {pending : Filed Constraint} (occupied : pending ≠ []) (violations : Filed Violation)
      (verdict : Verdict) : Persists (.adds pending violations) verdict

namespace Quantifier

variable {quantifier : Quantifier}

theorem Decision.persists {r s : Residual} (hr : quantifier.Decision r)
    (hs : quantifier.Decision s) : r.Persists s := by
  cases hr <;> cases hs
  · exact .conflict _ _
  · exact .satisfied

/-- The verdict on an element persists when the residuals of filter and body do. -/
theorem persists_verdict {selected selected' inner inner' : Residual}
    (hs : selected.Persists selected') (hi : inner.Persists inner') (ws : selected.WellFormed)
    (wi : inner.WellFormed) :
    (quantifier.verdict selected inner).Persists (quantifier.verdict selected' inner') := by
  cases hs with
  | satisfied =>
    cases hi with
    | satisfied =>
      cases quantifier
      · exact .nothing _ _
      · exact .decides .satisfied
    | conflict violations others =>
      cases quantifier
      · exact .decides (.conflict _ _)
      · exact .nothing _ _
    | pending constraints inner' =>
      cases wi with
      | pending filed occupied => cases quantifier <;> exact .waiting occupied _ _
  | conflict violations others =>
    rw [verdict_conflict, verdict_conflict]
    exact .nothing _ _
  | pending waiting selected' =>
    cases ws with
    | pending filed occupied =>
      -- The filter was open. Only a body that leaves nothing open can make the verdict say nothing,
      -- and then it says nothing whatever becomes of the filter.
      cases hi with
      | satisfied =>
        cases quantifier
        · cases selected' <;> exact .nothing _ _
        · exact .waiting occupied _ _
      | conflict violations others =>
        cases quantifier
        · exact .waiting occupied _ _
        · cases selected' <;> exact .nothing _ _
      | pending constraints inner' =>
        have both : constraints.merge waiting ≠ [] := fun empty =>
          occupied (Filed.merge_eq_nil_iff.mp empty).2
        cases quantifier <;> exact .waiting both _ _

/-! ## One element -/

/-- An evaluation whose decisions persist when its document grows and what it has found is kept. -/
structure Carries (evaluation : AtPlace) (finds : FindsAt) : Prop where
  wellFormed : ∀ {d place r}, evaluation d place = .ok r → r.WellFormed
  persists : ∀ {d e : Value} {place r s}, d.GrowsTo e → Kept (finds d place) d e →
    evaluation d place = .ok r → evaluation e place = .ok s → r.Persists s

variable {filter body : AtPlace} {filterFinds bodyFinds : FindsAt}

/-- An element that the filter has rejected stays rejected. -/
theorem Judged.of_rejected (hf : Carries filter filterFinds) {d e : Value} {place : Path}
    (grown : d.GrowsTo e) (kept : Kept (filterFinds d place) d e) {failed : Filed Violation}
    (rejected : filter d place = .ok (.conflict failed)) {w : Verdict}
    (hw : Judged quantifier filter body (place, e) w) : w = .adds [] [] := by
  cases hw with
  | rejected filtered => rfl
  | selected filtered evaluated =>
    cases hf.persists grown kept rejected filtered with
    | conflict violations others => exact verdict_conflict _ _ _

theorem Judged.persists (hf : Carries filter filterFinds) (hb : Carries body bodyFinds)
    {d e : Value} {place : Path} (grown : d.GrowsTo e) (keptFilter : Kept (filterFinds d place) d e)
    (keptBody :
      (∃ selected, filter d place = .ok selected ∧ ∀ failed, selected ≠ .conflict failed) →
      Kept (bodyFinds d place) d e) {v w : Verdict}
    (hv : Judged quantifier filter body (place, d) v)
    (hw : Judged quantifier filter body (place, e) w) : v.Persists w := by
  cases hv with
  | rejected filtered =>
    rw [Judged.of_rejected hf grown keptFilter filtered hw]
    exact .nothing _ _
  | @selected selected inner filtered evaluated =>
    by_cases passes : ∀ failed, selected ≠ .conflict failed
    · have ws := hf.wellFormed filtered
      have wi := hb.wellFormed evaluated
      cases hw with
      | rejected filtered' =>
        have filters := hf.persists grown keptFilter filtered filtered'
        rw [← verdict_conflict quantifier _ inner]
        exact persists_verdict filters (.refl inner) ws wi
      | selected filtered' evaluated' =>
        have filters := hf.persists grown keptFilter filtered filtered'
        have bodies :=
          hb.persists grown (keptBody ⟨selected, filtered, passes⟩) evaluated evaluated'
        exact persists_verdict filters bodies ws wi
    · simp only [ne_eq, not_forall, not_not] at passes
      obtain ⟨failed, rfl⟩ := passes
      rw [verdict_conflict, Judged.of_rejected hf grown keptFilter filtered hw]
      exact .nothing _ _

/-! ## A whole collection -/

/-- What was found on elements is still there on the elements that they have grown to. -/
def KeptAmong (found : List (Nat × Spot)) (elements grown : List (Path × Value)) : Prop :=
  ∀ index spot, (index, spot) ∈ found → ∀ a b, elements[index]? = some a →
    grown[index]? = some b → spot.find? b.2 = spot.find? a.2

section Finds

variable {place : Path} {element : Value} {rest : List (Path × Value)} {spot : Spot}

theorem mem_surveyFinds_filter (h : spot ∈ filterFinds element place) :
    (0, spot) ∈ surveyFinds quantifier filter body filterFinds bodyFinds
      ((place, element) :: rest) :=
  List.mem_append_left _ (List.mem_map_of_mem h)

theorem mem_surveyFinds_body (h : spot ∈ bodyFinds element place) {selected : Residual}
    (filtered : filter element place = .ok selected)
    (passes : ∀ failed, selected ≠ .conflict failed) :
    (0, spot) ∈ surveyFinds quantifier filter body filterFinds bodyFinds
      ((place, element) :: rest) := by
  refine List.mem_append_right _ ?_
  rw [filtered]
  cases selected with
  | satisfied => exact List.mem_append_left _ (List.mem_map_of_mem h)
  | pending constraints => exact List.mem_append_left _ (List.mem_map_of_mem h)
  | conflict failed => exact absurd rfl (passes failed)

theorem mem_surveyFinds_later {index : Nat}
    (h : (index, spot) ∈ surveyFinds quantifier filter body filterFinds bodyFinds rest)
    {waiting : Filed Constraint} {found : Filed Violation}
    (judged : Judged quantifier filter body (place, element) (.adds waiting found)) :
    (index + 1, spot) ∈ surveyFinds quantifier filter body filterFinds bodyFinds
      ((place, element) :: rest) := by
  have later : (index + 1, spot) ∈
      (surveyFinds quantifier filter body filterFinds bodyFinds rest).map
        fun (index, spot) => (index + 1, spot) :=
    List.mem_map.mpr ⟨(index, spot), h, rfl⟩
  refine List.mem_append_right _ ?_
  generalize verdict : Verdict.adds waiting found = v at judged
  cases judged with
  | rejected filtered =>
    rw [filtered]
    exact later
  | @selected selected inner filtered evaluated =>
    rw [filtered, evaluated]
    cases selected with
    | conflict failed => exact later
    | satisfied =>
      dsimp only
      rw [← verdict]
      exact List.mem_append_right _ later
    | pending constraints =>
      dsimp only
      rw [← verdict]
      exact List.mem_append_right _ later

end Finds

variable {unmatched : Residual}

/-- As soon as something is open, a survey either decides or stays open. -/
theorem Surveyed.of_waiting {pending : Filed Constraint} {violations : Filed Violation}
    {elements : List (Path × Value)} {r : Residual}
    (surveyed : Surveyed quantifier filter body unmatched pending violations elements r)
    (occupied : pending ≠ []) :
    (∃ constraints, r = .pending constraints) ∨ quantifier.Decision r := by
  induction surveyed with
  | concluded pending violations => exact .inl ⟨pending, conclude_of_waiting occupied _ _⟩
  | decided judged => exact .inr judged.decision
  | added judged later ih => exact ih fun empty => occupied (Filed.merge_eq_nil_iff.mp empty).1

theorem persists_conclude {violations violations' failed failed' : Filed Violation} :
    (quantifier.conclude [] violations (.conflict failed)).Persists
      (quantifier.conclude [] violations' (.conflict failed')) := by
  cases quantifier with
  | universal => exact .satisfied
  | existential =>
    cases violations <;> cases violations' <;> exact .conflict _ _

/-- The residual of a survey persists when the elements grow, each for itself. -/
theorem Surveyed.persists (hf : Carries filter filterFinds) (hb : Carries body bodyFinds)
    {elements grown : List (Path × Value)}
    (matched : List.Forall₂ (fun a b => a.1 = b.1 ∧ a.2.GrowsTo b.2) elements grown)
    (kept : KeptAmong (surveyFinds quantifier filter body filterFinds bodyFinds elements) elements
      grown)
    {pending pending' : Filed Constraint} {violations violations' failed failed' : Filed Violation}
    (nothing : pending = [] → pending' = []) {r s : Residual}
    (hr : Surveyed quantifier filter body (.conflict failed) pending violations elements r)
    (hs : Surveyed quantifier filter body (.conflict failed') pending' violations' grown s) :
    r.Persists s := by
  induction matched generalizing pending pending' violations violations' with
  | nil =>
    cases hr with
    | concluded =>
    cases hs with
    | concluded =>
    by_cases occupied : pending = []
    · rw [occupied, nothing occupied]
      exact persists_conclude
    · rw [conclude_of_waiting occupied]
      exact .pending _ _
  | @cons a b rest rest' pair matched ih =>
    obtain ⟨place, d⟩ := a
    obtain ⟨place', e⟩ := b
    obtain ⟨rfl, grows⟩ := pair
    have keptFilter : Kept (filterFinds d place) d e := fun spot found =>
      kept 0 spot (mem_surveyFinds_filter found) _ _ rfl rfl
    have keptBody : (∃ selected, filter d place = .ok selected ∧
        ∀ failed, selected ≠ .conflict failed) → Kept (bodyFinds d place) d e := by
      rintro ⟨selected, filtered, passes⟩ spot found
      exact kept 0 spot (mem_surveyFinds_body found filtered passes) _ _ rfl rfl
    cases hr with
    | decided judged =>
      cases hs with
      | decided judged' => exact judged.decision.persists judged'.decision
      | added judged' later' =>
        cases judged.persists hf hb grows keptFilter keptBody judged'
    | added judged later =>
      cases hs with
      | decided judged' =>
        -- The element has decided only after growing, so something was open before.
        cases judged.persists hf hb grows keptFilter keptBody judged' with
        | waiting occupied =>
          rcases later.of_waiting fun empty => occupied (Filed.merge_eq_nil_iff.mp empty).2 with
            ⟨constraints, rfl⟩ | decision
          · exact .pending _ _
          · exact decision.persists judged'.decision
      | added judged' later' =>
        refine ih (fun index spot found x y hx hy => ?_) (fun empty => ?_) later later'
        · exact kept (index + 1) spot (mem_surveyFinds_later found judged) x y hx hy
        · obtain ⟨before, added⟩ := Filed.merge_eq_nil_iff.mp empty
          rw [nothing before]
          cases judged.persists hf hb grows keptFilter keptBody judged' with
          | nothing => rfl
          | waiting occupied => exact absurd added occupied

end Quantifier

namespace Policy

/-! ## The walk -/

variable {registry : Registry}

theorem placedElements_matched (binding : Path) {elements elements' : List (Value × Value)}
    (matched : List.Forall₂ Value.GrownElement elements elements') :
    List.Forall₂ (fun a b => a.1 = b.1 ∧ a.2.GrowsTo b.2) (placedElements binding elements)
      (placedElements binding elements') := by
  unfold placedElements
  rw [List.forall₂_map_left_iff, List.forall₂_map_right_iff]
  refine matched.imp fun a b pair => ⟨?_, pair.2⟩
  exact congrArg binding.child pair.1

theorem exists_of_placedElements {binding : Path} {elements : List (Value × Value)} {index : Nat}
    {a : Path × Value} (h : (placedElements binding elements)[index]? = some a) :
    ∃ x, elements[index]? = some x ∧ a.2 = x.2 := by
  rw [placedElements, List.getElem?_map] at h
  obtain ⟨x, there, rfl⟩ := Option.map_eq_some_iff.mp h
  exact ⟨x, there, rfl⟩

/-- What was found in an element of a collection was found inside the collection. -/
theorem keptAmong_placedElements {path : Path} {d e collection collection' : Value}
    {elements elements' : List (Value × Value)} (there : path.find? d = some collection)
    (listed : collection.elements? = some elements) (there' : path.find? e = some collection')
    (listed' : collection'.elements? = some elements') {found : List (Nat × Spot)}
    (kept : Kept (found.map fun (index, spot) => .inside path index spot) d e) (binding : Path) :
    Quantifier.KeptAmong found (placedElements binding elements)
      (placedElements binding elements') := by
  intro index spot member a b ha hb
  obtain ⟨x, hx, inner⟩ := exists_of_placedElements ha
  obtain ⟨y, hy, inner'⟩ := exists_of_placedElements hb
  have unchanged := kept (.inside path index spot) (List.mem_map.mpr ⟨_, member, rfl⟩)
  rw [Spot.find?_inside there listed hx, Spot.find?_inside there' listed' hy] at unchanged
  rw [inner, inner']
  exact unchanged

/-- What a policy decides, or its negation, persists when the document grows and what was found is
kept. -/
abbrev Carries (registry : Registry) (p : Policy) (positive : Bool) : Prop :=
  Quantifier.Carries (fun d place => evaluateAt registry p d place positive)
    fun d place => findsAt registry p d place positive

theorem carries_evaluateFilter {filter : Option Policy}
    (h : ∀ f ∈ filter, f.Carries registry true) :
    Quantifier.Carries (evaluateFilter registry filter) (findsFilter registry filter) where
  wellFormed evaluated :=
    of_evaluateFilter .satisfied evaluated fun _ _ _ found => wellFormed_of_evaluateAt found
  persists grown kept hr hs := by
    cases filter with
    | none =>
      rw [evaluateFilter] at hr hs
      rw [← Except.ok.inj hr, ← Except.ok.inj hs]
      exact .satisfied
    | some f =>
      rw [evaluateFilter] at hr hs
      rw [findsFilter] at kept
      exact (h f rfl).persists grown kept hr hs

theorem persists_evaluateAll {parts : List Policy} {d e : Value} {place : Path} {positive : Bool}
    (h : ∀ p ∈ parts, p.Carries registry positive)
    (grown : d.GrowsTo e) (kept : Kept (findsAll registry parts d place positive) d e)
    {rs ss : List Residual} (hr : evaluateAll registry parts d place positive = .ok rs)
    (hs : evaluateAll registry parts e place positive = .ok ss) :
    List.Forall₂ Residual.Persists rs ss := by
  induction parts generalizing rs ss with
  | nil =>
    rw [evaluateAll] at hr hs
    rw [← Except.ok.inj hr, ← Except.ok.inj hs]
    exact .nil
  | cons p rest ih =>
    obtain ⟨first, others⟩ := List.forall_mem_cons.mp h
    obtain ⟨r, later, evaluated, tail, rfl⟩ := evaluateAll_eq_ok hr
    obtain ⟨s, later', evaluated', tail', rfl⟩ := evaluateAll_eq_ok hs
    rw [findsAll] at kept
    obtain ⟨keptHead, keptTail⟩ := kept_append.mp kept
    exact .cons (first.persists grown keptHead evaluated evaluated')
      (ih others keptTail tail tail')

/-- A disjunction persists although after growing it may stop at an earlier part. -/
theorem persists_evaluateSome {parts : List Policy} {d e : Value} {place : Path} {positive : Bool}
    (h : ∀ p ∈ parts, p.Carries registry positive)
    (grown : d.GrowsTo e) (kept : Kept (findsSome registry parts d place positive) d e)
    {rs ss : List Residual} (hr : evaluateSome registry parts d place positive = .ok rs)
    (hs : evaluateSome registry parts e place positive = .ok ss) {r s : Residual}
    (start : r.Persists s) :
    (rs.foldl Residual.otherwise r).Persists (ss.foldl Residual.otherwise s) := by
  induction parts generalizing rs ss r s with
  | nil =>
    rw [evaluateSome] at hr hs
    rw [← Except.ok.inj hr, ← Except.ok.inj hs]
    exact start
  | cons p rest ih =>
    obtain ⟨first, others⟩ := List.forall_mem_cons.mp h
    obtain ⟨t, evaluated, before⟩ := evaluateSome_eq_ok hr
    obtain ⟨u, evaluated', after⟩ := evaluateSome_eq_ok hs
    have head : t.Persists u := by
      rw [findsSome] at kept
      exact first.persists grown (kept_append.mp kept).1 evaluated evaluated'
    have both := start.otherwise head
    rcases before with ⟨rfl, rfl⟩ | ⟨further, rs', later, rfl⟩
    · cases head
      rcases after with ⟨-, rfl⟩ | ⟨further', -⟩
      · exact both
      · exact absurd rfl further'
    · rw [findsSome_of_ne evaluated further] at kept
      rcases after with ⟨rfl, rfl⟩ | ⟨further', ss', later', rfl⟩
      · -- After growing, the disjunction ends here. Before, it went on from an open part.
        cases head with
        | satisfied => exact absurd rfl further
        | pending constraints u =>
          rw [List.foldl_cons, List.foldl_cons, Residual.otherwise_satisfied, List.foldl_nil]
          refine Residual.persists_satisfied
            (Residual.not_conflict_foldl_otherwise fun failed => ?_)
          cases r <;> exact Residual.noConfusion
      · exact ih others (kept_append.mp kept).2 later later' both

theorem carries_leaf (c : Constraint) (positive : Bool) :
    (Policy.leaf c).Carries registry positive where
  wellFormed evaluated := wellFormed_of_evaluateAt evaluated
  persists {d e place r s} grown kept hr hs := by
    rw [evaluateAt] at hr hs
    rw [findsAt] at kept
    cases there : c.path.find? d with
    | none =>
      rw [Constraint.evaluate_missing there] at hr
      exact Except.ok.inj hr ▸ .pending _ _
    | some found =>
      rw [there] at kept
      have unchanged : c.path.find? e = c.path.find? d :=
        kept (.here c.path) (List.mem_singleton_self _)
      rw [Constraint.evaluate_congr unchanged, hr] at hs
      exact Except.ok.inj hs ▸ .refl r

theorem carries_connected {connective : Connective} {parts : List Policy} {positive : Bool}
    (each : ∀ p ∈ parts, p.Carries registry positive) :
    (Policy.connected connective parts).Carries registry positive where
  wellFormed evaluated := wellFormed_of_evaluateAt evaluated
  persists {d e place r s} grown kept hr hs := by
    rw [evaluateAt] at hr hs
    rw [findsAt] at kept
    cases connected : connective.withPolarity positive with
    | conjunction =>
      rw [connected] at hr hs kept
      obtain ⟨rs, all, rfl⟩ := map_eq_ok hr
      obtain ⟨ss, all', rfl⟩ := map_eq_ok hs
      have parts := persists_evaluateAll each grown kept all all'
      exact Residual.persists_foldl_also parts .satisfied
    | disjunction =>
      rw [connected] at hr hs kept
      obtain ⟨rs, some, rfl⟩ := map_eq_ok hr
      obtain ⟨ss, some', rfl⟩ := map_eq_ok hs
      exact persists_evaluateSome each grown kept some some' (.conflict [] [])

theorem carries_quantified {quantifier : Quantifier} {path : Path} {filter : Option Policy}
    {body : Policy} {positive : Bool} (filters : ∀ f ∈ filter, f.Carries registry true)
    (bodies : body.Carries registry positive) :
    (Policy.quantified quantifier path filter body).Carries registry positive where
  wellFormed evaluated := wellFormed_of_evaluateAt evaluated
  persists {d e place r s} grown kept hr hs := by
    rw [evaluateAt] at hr hs
    rw [findsAt] at kept
    cases there : path.find? d with
    | none =>
      rw [there] at hr
      exact Except.ok.inj hr ▸ .pending _ _
    | some collection =>
      obtain ⟨collection', there', grown'⟩ := grown.lookup? there
      change path.find? e = some collection' at there'
      rw [there] at hr kept
      rw [there'] at hs
      cases listed : collection.elements? with
      | none =>
        simp only [listed] at hr
        simp only [grown'.elements?_eq_none listed] at hs
        exact Except.ok.inj hr ▸ Except.ok.inj hs ▸ .conflict _ _
      | some elements =>
        obtain ⟨elements', listed', matched⟩ := grown'.elements? listed
        simp only [listed] at hr
        simp only [listed'] at hs
        rw [Option.bind_some, listed] at kept
        exact Quantifier.Surveyed.persists (carries_evaluateFilter filters) bodies
          (placedElements_matched _ matched)
          (keptAmong_placedElements there listed there' listed' kept _) (fun _ => rfl)
          (Quantifier.surveyed_of_survey hr) (Quantifier.surveyed_of_survey hs)

theorem carries_counted (path : Path) (filter : Option Policy) (comparator : String)
    (operand : Value) (positive : Bool) :
    (Policy.counted path filter comparator operand).Carries registry positive where
  wellFormed evaluated := wellFormed_of_evaluateAt evaluated
  persists {d e place r s} grown kept hr hs := by
    rw [evaluateAt] at hr hs
    rw [findsAt] at kept
    cases found : path.find? d with
    | none =>
      rw [found] at hr
      exact Except.ok.inj hr ▸ .pending _ _
    | some collection =>
      cases listed : collection.elements? with
      | some elements =>
        -- The whole collection is kept, so the count is the same.
        rw [found, Option.bind_some, listed] at kept
        have unchanged : path.find? e = path.find? d :=
          kept (.here path) (List.mem_singleton_self _)
        rw [unchanged, hr] at hs
        exact Except.ok.inj hs ▸ .refl r
      | none =>
        obtain ⟨collection', found', grown'⟩ := grown.lookup? found
        change path.find? e = some collection' at found'
        rw [found] at hr
        rw [found'] at hs
        simp only [listed] at hr
        simp only [grown'.elements?_eq_none listed] at hs
        exact Except.ok.inj hr ▸ Except.ok.inj hs ▸ .conflict _ _

/-- What an evaluation decides persists when the document grows and what was found is kept. -/
theorem carries_evaluateAt (p : Policy) (positive : Bool) : p.Carries registry positive := by
  induction p generalizing positive with
  | leaf c => exact carries_leaf c positive
  | connected connective parts ih =>
    exact carries_connected fun p member => ih p member positive
  | negation p ih =>
    have inner := ih (!positive)
    refine ⟨fun evaluated => wellFormed_of_evaluateAt evaluated, fun grown kept hr hs => ?_⟩
    rw [evaluateAt] at hr hs
    rw [findsAt] at kept
    exact inner.persists grown kept hr hs
  | quantified quantifier path filter body ihFilter ihBody =>
    exact carries_quantified (fun f member => ihFilter f member true) (ihBody positive)
  | counted path filter comparator operand ih =>
    exact carries_counted path filter comparator operand positive

/-- Adding data to a document never changes a decision that was made without it. -/
theorem decision_persists {p : Policy} (known : registry.Knows p) {d e : Value}
    (grown : d.GrowsTo e) (kept : Kept (p.finds registry d) d e) :
    (p.evaluate registry d = .ok .satisfied → p.evaluate registry e = .ok .satisfied) ∧
      ∀ violations, p.evaluate registry d = .ok (.conflict violations) →
        ∃ others, p.evaluate registry e = .ok (.conflict others) := by
  obtain ⟨s, evaluated⟩ := evaluateAt_ok known e .root true
  refine ⟨fun satisfied => ?_, fun violations violated => ?_⟩
  · cases (carries_evaluateAt p true).persists grown kept satisfied evaluated with
    | satisfied => exact evaluated
  · cases (carries_evaluateAt p true).persists grown kept violated evaluated with
    | conflict _ others => exact ⟨others, evaluated⟩

/-- Somebody is older than forty, whatever else becomes known about the members. -/
theorem decision_persists_of_members :
    let age (n : Nat) : Value := .object [(.string "age", .ofNat n)]
    let named (n : Nat) : Value :=
      .object (Ascending.put (.string "name") (.string "ann") [(.string "age", .ofNat n)])
    let members : Value := .string "members"
    let senior : Policy :=
      .leaf { path := ⟨[.string "age"]⟩, operator := ">", operand := .ofNat 40 }
    let p : Policy := .quantified .existential ⟨[members]⟩ none senior
    let entries : List (Value × Value) := [(members, .array [age 30, age 50])]
    let d : Value := .object entries
    let e : Value := .object (Ascending.put members (.array [age 30, named 50]) entries)
    Registry.builtins.Knows p ∧ d.GrowsTo e ∧ Kept (p.finds .builtins d) d e ∧
      p.evaluate .builtins d = .ok .satisfied ∧ p.evaluate .builtins e = .ok .satisfied := by
  intro age named members senior p entries d e
  have known : Registry.builtins.Knows p := by decide +kernel
  have second : (age 50).GrowsTo (named 50) := Value.growsTo_put fun _ there => nomatch there
  have items :
      (Value.array [age 30, age 50]).GrowsTo (.array ([age 30, age 50].set 1 (named 50))) :=
    Value.growsTo_set fun old there => Option.some.inj there ▸ second
  have grown : d.GrowsTo e := Value.growsTo_put fun old there => Option.some.inj there ▸ items
  have kept : Kept (p.finds .builtins d) d e := by
    have finds : p.finds .builtins d =
        [.inside ⟨[members]⟩ 0 (.here ⟨[.string "age"]⟩),
          .inside ⟨[members]⟩ 1 (.here ⟨[.string "age"]⟩)] := rfl
    rw [finds]
    exact List.forall_mem_cons.mpr ⟨rfl, List.forall_mem_singleton.mpr rfl⟩
  have satisfied : p.evaluate .builtins d = .ok .satisfied := rfl
  exact ⟨known, grown, kept, satisfied, (decision_persists known grown kept).1 satisfied⟩

end Policy

end ResidualPolicy
