import ResidualPolicy.Proofs.Residual.Agreement

/-!
# Residuals that are compared by what they file

Two evaluations are compared by comparing residuals: they are of one kind, and what they file is
related (`Residual.Related`). If filings are related in ways that merging keeps, and that say which of
two filings is reported, then what is made of related residuals is related: their conjunctions and
disjunctions, and what elements of a collection mean for a quantifier (`Filed.Congruence`).

Filings may be related path by path. Then it is enough that what stands under a path stays related when
more is filed there (`Filed.Appends`).
-/

namespace ResidualPolicy

universe u v

theorem eq_nil_iff_of_forall₂ {α : Type u} {β : Type v} {related : α → β → Prop} {xs : List α}
    {ys : List β} (h : List.Forall₂ related xs ys) : xs = [] ↔ ys = [] := by
  cases h with
  | nil => simp
  | cons first rest => simp

/-! ## Filed entries -/

namespace Filed

variable {α β : Type}

/-- The same path, with lists under it that are related. -/
def Under (related : List α → List β → Prop) (under : Path × List α) (other : Path × List β) : Prop :=
  (under.1 == other.1) = true ∧ related under.2 other.2

section

variable {related : List α → List β → Prop}

/-- A change under the same path keeps filings related if it keeps related what stands there. -/
theorem alter_related {path path' : Path} (paths : (path == path') = true)
    {change : Option (List α) → List α} {change' : Option (List β) → List β}
    (fresh : related (change none) (change' none))
    (changed : ∀ xs ys, related xs ys → related (change (some xs)) (change' (some ys)))
    {filed : Filed α} {more : Filed β} (h : List.Forall₂ (Under related) filed more) :
    List.Forall₂ (Under related) (Ascending.alter path change filed)
      (Ascending.alter path' change' more) := by
  induction h with
  | nil => exact .cons ⟨paths, fresh⟩ .nil
  | @cons a b filed more first rest ih =>
    have order : compare path a.1 = compare path' b.1 := by
      have left : compare path path' = .eq := Std.LawfulBEqCmp.compare_eq_iff_beq.mpr paths
      have right : compare a.1 b.1 = .eq := Std.LawfulBEqCmp.compare_eq_iff_beq.mpr first.1
      rw [Std.TransCmp.congr_left left, Std.TransCmp.congr_right right]
    rw [Ascending.alter, Ascending.alter, order]
    cases compare path' b.1 with
    | lt => exact .cons ⟨paths, fresh⟩ (.cons first rest)
    | eq => exact .cons ⟨first.1, changed _ _ first.2⟩ rest
    | gt => exact .cons first ih

theorem compare_first?_related {a b : Filed α} {a' b' : Filed β}
    (ha : List.Forall₂ (Under related) a a') (hb : List.Forall₂ (Under related) b b') :
    compare a.first? b.first? = compare a'.first? b'.first? := by
  have first {a : Filed α} {a' : Filed β} (h : List.Forall₂ (Under related) a a') :
      compare a.first? a'.first? = .eq := by
    cases h with
    | nil => rfl
    | cons head _ => exact Std.LawfulBEqCmp.compare_eq_iff_beq.mpr head.1
  rw [Std.TransCmp.congr_left (first ha), Std.TransCmp.congr_right (first hb)]

variable [BEq α] [BEq β]

/-- Lists stay related when related entries are added. -/
structure Appends (related : List α → List β → Prop) : Prop where
  nil : related [] []
  append : ∀ {xs ys more others}, related xs ys → related more others →
    related (appendNew xs more) (appendNew ys others)

variable (appends : Appends related)

include appends

theorem Appends.file {under : Path × List α} {other : Path × List β}
    (first : Under related under other) {filed : Filed α} {more : Filed β}
    (h : List.Forall₂ (Under related) filed more) :
    List.Forall₂ (Under related) (file under.1 under.2 filed) (Filed.file other.1 other.2 more) :=
  alter_related first.1 (appends.append appends.nil first.2)
    (fun _ _ kept => appends.append kept first.2) h

theorem Appends.merge {a b : Filed α} {a' b' : Filed β} (ha : List.Forall₂ (Under related) a a')
    (hb : List.Forall₂ (Under related) b b') :
    List.Forall₂ (Under related) (a.merge b) (a'.merge b') := by
  induction hb generalizing a a' with
  | nil => exact ha
  | cons first _ ih => exact ih (appends.file first ha)

end

/-- Relations of what waits and of what fails that all ways of combining residuals keep. -/
structure Congruence (waiting : Filed Constraint → Filed Constraint → Prop)
    (failing : Filed Violation → Filed Violation → Prop) : Prop where
  waiting_nil : waiting [] []
  waiting_merge : ∀ {a a' b b'}, waiting a a' → waiting b b' → waiting (a.merge b) (a'.merge b')
  waiting_fewer : ∀ {a a' b b'}, waiting a a' → waiting b b' →
    waiting (if b.count < a.count then b else a) (if b'.count < a'.count then b' else a')
  waiting_empty : ∀ {a a'}, waiting a a' → (a = [] ↔ a' = [])
  failing_nil : failing [] []
  failing_merge : ∀ {v v' w w'}, failing v v' → failing w w' → failing (v.merge w) (v'.merge w')
  failing_first : ∀ {v v' w w'}, failing v v' → failing w w' →
    compare v.first? w.first? = compare v'.first? w'.first?
  failing_empty : ∀ {v v'}, failing v v' → (v = [] ↔ v' = [])

end Filed

/-! ## Residuals -/

/-- Residuals of one kind that file what is related. -/
inductive Residual.Related (waiting : Filed Constraint → Filed Constraint → Prop)
    (failing : Filed Violation → Filed Violation → Prop) : Residual → Residual → Prop where
  | satisfied : Related waiting failing .satisfied .satisfied
  | pending {a b : Filed Constraint} (h : waiting a b) :
      Related waiting failing (.pending a) (.pending b)
  | conflict {v w : Filed Violation} (h : failing v w) :
      Related waiting failing (.conflict v) (.conflict w)

/-- Verdicts that contribute what is related. -/
inductive Verdict.Related (waiting : Filed Constraint → Filed Constraint → Prop)
    (failing : Filed Violation → Filed Violation → Prop) : Verdict → Verdict → Prop where
  | decides {r s : Residual} (h : r.Related waiting failing s) :
      Related waiting failing (.decides r) (.decides s)
  | adds {a b : Filed Constraint} {v w : Filed Violation} (waits : waiting a b) (fails : failing v w) :
      Related waiting failing (.adds a v) (.adds b w)

variable {waiting : Filed Constraint → Filed Constraint → Prop}
  {failing : Filed Violation → Filed Violation → Prop}

theorem Residual.Related.isSatisfied {r s : Residual} (h : r.Related waiting failing s) :
    r.isSatisfied = s.isSatisfied := by
  cases h <;> rfl

theorem Residual.Related.kindText {r s : Residual} (h : r.Related waiting failing s) :
    r.kindText = s.kindText := by
  cases h <;> rfl

namespace Filed.Congruence

open Residual (Related satisfied_also satisfied_otherwise lowerOf_eq)

variable (congruence : Congruence waiting failing)

include congruence

theorem lowerOf {v v' w w' : Filed Violation} (hv : failing v v') (hw : failing w w') :
    failing (Residual.lowerOf v w) (Residual.lowerOf v' w') := by
  rw [lowerOf_eq, lowerOf_eq, congruence.failing_first hw hv]
  split
  · exact hw
  · exact hv

theorem also {r r' s s' : Residual} (hr : r.Related waiting failing r')
    (hs : s.Related waiting failing s') : (r.also s).Related waiting failing (r'.also s') := by
  cases hr with
  | satisfied =>
    rw [satisfied_also, satisfied_also]
    exact hs
  | pending ha =>
    cases hs with
    | satisfied => exact .pending ha
    | pending hb => exact .pending (congruence.waiting_merge ha hb)
    | conflict hw => exact .conflict hw
  | conflict hv =>
    cases hs with
    | satisfied => exact .conflict hv
    | pending hb => exact .conflict hv
    | conflict hw => exact .conflict (congruence.lowerOf hv hw)

theorem otherwise {r r' s s' : Residual} (hr : r.Related waiting failing r')
    (hs : s.Related waiting failing s') :
    (r.otherwise s).Related waiting failing (r'.otherwise s') := by
  cases hr with
  | satisfied =>
    rw [satisfied_otherwise, satisfied_otherwise]
    exact .satisfied
  | pending ha =>
    cases hs with
    | satisfied => exact .satisfied
    | pending hb => exact .pending (congruence.waiting_fewer ha hb)
    | conflict hw => exact .pending ha
  | conflict hv =>
    cases hs with
    | satisfied => exact .satisfied
    | pending hb => exact .pending hb
    | conflict hw => exact .conflict (congruence.failing_merge hv hw)

theorem conjoin {rs ss : List Residual} (h : List.Forall₂ (Related waiting failing) rs ss) :
    (Residual.conjoin rs).Related waiting failing (Residual.conjoin ss) := by
  refine List.rel_foldl ?_ .satisfied h
  intro r r' before s s' part
  exact congruence.also before part

theorem disjoin {rs ss : List Residual} (h : List.Forall₂ (Related waiting failing) rs ss) :
    (Residual.disjoin rs).Related waiting failing (Residual.disjoin ss) := by
  refine List.rel_foldl ?_ (.conflict congruence.failing_nil) h
  intro r r' before s s' part
  exact congruence.otherwise before part

/-! ## Quantifiers -/

theorem verdict (quantifier : Quantifier) {selected selected' r r' : Residual}
    (hs : selected.Related waiting failing selected') (hr : r.Related waiting failing r') :
    (quantifier.verdict selected r).Related waiting failing (quantifier.verdict selected' r') := by
  have nothing := congruence.waiting_nil
  have nowhere := congruence.failing_nil
  cases hs with
  | satisfied =>
    cases hr with
    | satisfied =>
      cases quantifier
      exacts [.adds nothing nowhere, .decides .satisfied]
    | pending ha => cases quantifier <;> exact .adds ha nowhere
    | conflict hv =>
      cases quantifier
      exacts [.decides (.conflict hv), .adds nothing hv]
  | pending awaited =>
    cases hr with
    | satisfied =>
      cases quantifier
      exacts [.adds nothing nowhere, .adds awaited nowhere]
    | pending ha => cases quantifier <;> exact .adds (congruence.waiting_merge ha awaited) nowhere
    | conflict hv =>
      cases quantifier
      exacts [.adds awaited nowhere, .adds nothing hv]
  | conflict hw => cases quantifier <;> exact .adds nothing nowhere

theorem conclude (quantifier : Quantifier) {a b : Filed Constraint} {v w : Filed Violation}
    {unmatched unmatched' : Residual} (waits : waiting a b) (fails : failing v w)
    (others : unmatched.Related waiting failing unmatched') :
    (quantifier.conclude a v unmatched).Related waiting failing
      (quantifier.conclude b w unmatched') := by
  have waits_empty : a.isEmpty = b.isEmpty := by
    rw [Bool.eq_iff_iff, List.isEmpty_iff, List.isEmpty_iff]
    exact congruence.waiting_empty waits
  have fails_empty : v.isEmpty = w.isEmpty := by
    rw [Bool.eq_iff_iff, List.isEmpty_iff, List.isEmpty_iff]
    exact congruence.failing_empty fails
  unfold Quantifier.conclude
  rw [waits_empty, fails_empty]
  split
  · cases quantifier with
    | universal => exact .satisfied
    | existential =>
      dsimp only
      split
      · exact others
      · exact .conflict fails
  · exact .pending waits

end Filed.Congruence

end ResidualPolicy
