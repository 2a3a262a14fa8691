import ResidualPolicy.Value

/-!
# Induction on values

Values hold their items in lists and their entries in lists of pairs. The principle here has one case
for each kind of value, with the hypothesis for every item, and for every key and every field of an
object.
-/

namespace ResidualPolicy

/-- Induction with one case for each kind of value. -/
@[elab_as_elim, induction_eliminator]
theorem Value.induct {motive : Value → Prop} (null : motive .null) (bool : ∀ b, motive (.bool b))
    (number : ∀ n, motive (.number n)) (string : ∀ s, motive (.string s))
    (array : ∀ items, (∀ v ∈ items, motive v) → motive (.array items))
    (set : ∀ members, (∀ v ∈ members, motive v) → motive (.set members))
    (object : ∀ entries, (∀ entry ∈ entries, motive entry.1 ∧ motive entry.2) →
      motive (.object entries))
    (v : Value) : motive v := by
  refine @Value.rec motive (fun items => ∀ v ∈ items, motive v)
    (fun entries => ∀ entry ∈ entries, motive entry.1 ∧ motive entry.2)
    (fun entry => motive entry.1 ∧ motive entry.2) null bool number string array set object
    ?_ ?_ ?_ ?_ ?_ v
  · exact fun _ member => absurd member List.not_mem_nil
  · exact fun v rest here there => List.forall_mem_cons.mpr ⟨here, there⟩
  · exact fun _ member => absurd member List.not_mem_nil
  · exact fun entry rest here there => List.forall_mem_cons.mpr ⟨here, there⟩
  · exact fun key field ofKey ofField => ⟨ofKey, ofField⟩

end ResidualPolicy
