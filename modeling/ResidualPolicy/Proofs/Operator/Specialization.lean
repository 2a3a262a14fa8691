import Mathlib
import ResidualPolicy.Operator.Cached
import ResidualPolicy.Pattern.Reader
import ResidualPolicy.Proofs.Registry
import ResidualPolicy.Proofs.Value.Digest

/-!
# Operators with a known operand answer like the general ones

A policy that is evaluated again and again asks its operators with the operand built in. Three things are
done differently there. A collection is put into a search tree once, where the general predicate goes through
its items and asks each for equality. A pattern is read once, where the general predicate reads it whenever it
is asked, or finds it among the patterns used last. And the kind of the operand is looked at once. None of
this shows in an answer: the search tree asks the order of values, which agrees with their equality, and what
is kept for a text is what reading it gives, whatever was asked before.
-/

namespace ResidualPolicy

/-! ## Caches -/

namespace TextCache

variable {α : Type}

/-- What is kept is what was put last. -/
def KeepsLast (kept entries : List (String × α)) : Prop :=
  ∀ entry ∈ kept, entries.lookup entry.1 = some entry.2

theorem Reached.keepsLast {size : Nat} {state : (recent α size).State}
    {entries : List (String × α)} (reached : (recent α size).Reached state entries) :
    KeepsLast state entries := by
  induction reached with
  | empty => exact fun _ member => absurd member List.not_mem_nil
  | @get state _ text _ ih =>
    intro entry member
    -- Looking a text up moves an entry to the front, or does nothing.
    simp only [recent] at member
    split at member
    · next found asked =>
      rcases List.mem_cons.mp member with rfl | member
      · exact ih entry (List.mem_of_find?_eq_some asked)
      · exact ih entry (List.mem_filter.mp member).1
    · exact ih entry member
  | put text a _ ih =>
    intro entry member
    rcases List.mem_cons.mp (List.mem_of_mem_take member) with rfl | member
    · exact List.lookup_cons_self
    · obtain ⟨member, other⟩ := List.mem_filter.mp member
      rw [List.lookup_cons, beq_false_of_ne (bne_iff_ne.mp other)]
      exact ih entry member

theorem lawful_recent (size : Nat) : (recent α size).Lawful := by
  intro state entries text a reached got
  simp only [recent] at got
  split at got
  · next found asked =>
    have same : found.1 = text := by
      have asked := List.find?_some asked
      exact beq_iff_eq.mp asked
    rw [← Option.some.inj got, ← same]
    exact reached.keepsLast found (List.mem_of_find?_eq_some asked)
  · exact nomatch got

theorem mem_of_lookup {text : String} {a : α} {entries : List (String × α)}
    (h : entries.lookup text = some a) : (text, a) ∈ entries := by
  obtain ⟨before, after, rfl, -⟩ := List.lookup_eq_some_iff.mp h
  exact List.mem_append_cons_self

end TextCache

/-! ## Kept patterns -/

section
variable [PatternEngine]

namespace PatternCache

variable {cache : PatternCache}

/-- Every pattern that has been put into a cache is that of the text. -/
def IsSound (cache : PatternCache) (state : cache.State) : Prop :=
  ∃ entries, cache.Reached state entries ∧
    ∀ entry ∈ entries, entry.2 = Builtin.patternOf? (.string entry.1)

theorem isSound_empty : cache.IsSound cache.empty :=
  ⟨[], .empty, fun _ member => absurd member List.not_mem_nil⟩

variable {state : cache.State}

/-- A cache gives the pattern that reading the text gives. -/
theorem IsSound.compiled (lawful : cache.Lawful) (sound : cache.IsSound state) (text : String) :
    (cache.compiled state text).1 = Builtin.patternOf? (.string text) ∧
      cache.IsSound (cache.compiled state text).2 := by
  obtain ⟨entries, reached, read⟩ := sound
  have next := reached.get text
  have answer := lawful state entries text
  unfold PatternCache.compiled
  rcases got : cache.get state text with ⟨_ | p?, after⟩
  · rw [got] at next
    exact ⟨rfl, _, next.put text _, List.forall_mem_cons.mpr ⟨rfl, read⟩⟩
  · rw [got] at next answer
    exact ⟨read _ (TextCache.mem_of_lookup (answer p? reached rfl)), entries, next, read⟩

theorem IsSound.fits (lawful : cache.Lawful) (sound : cache.IsSound state) (v o : Value) :
    (cache.fits state v o).1 = Builtin.fits v o ∧ cache.IsSound (cache.fits state v o).2 := by
  rcases v with _ | _ | _ | s | _ | _ | _ <;> try exact ⟨rfl, sound⟩
  rcases o with _ | _ | _ | text | _ | _ | _ <;> try exact ⟨rfl, sound⟩
  obtain ⟨same, next⟩ := sound.compiled lawful text
  refine ⟨?_, next⟩
  show (cache.compiled state text).1.any _ = _
  rw [same, ← Builtin.patternCheck_patternOf?]
  rfl

/-- Keeping patterns does not change the answers of an operator. -/
theorem IsSound.holds (lawful : cache.Lawful) (sound : cache.IsSound state) (builtin : Builtin)
    (v o : Value) :
    (cache.holds state (builtin, v, o)).1 = builtin.holds v o ∧
      cache.IsSound (cache.holds state (builtin, v, o)).2 := by
  obtain ⟨same, next⟩ := sound.fits lawful v o
  rcases builtin <;> try exact ⟨rfl, sound⟩
  · exact ⟨same, next⟩
  · exact ⟨congrArg (!·) same, next⟩

theorem isSound_after (lawful : cache.Lawful) (questions : List Question) :
    cache.IsSound (cache.after questions) := by
  refine List.foldlRecOn questions _ isSound_empty fun state sound question _ => ?_
  exact (sound.holds lawful question.1 question.2.1 question.2.2).2

/-- One cache for all operators does not change their answers, in whatever order they are asked. -/
theorem IsSound.answers_eq_map (lawful : cache.Lawful) (sound : cache.IsSound state)
    (questions : List Question) :
    cache.answers state questions = questions.map fun (builtin, v, o) => builtin.holds v o := by
  induction questions generalizing state with
  | nil => rfl
  | cons question rest ih =>
    obtain ⟨builtin, v, o⟩ := question
    obtain ⟨same, next⟩ := sound.holds lawful builtin v o
    rw [answers, same, ih next, List.map_cons]

end PatternCache

end

/-! ## Search trees -/

namespace Builtin

/-- The members of a collection in a search tree. -/
def searchTree : Value → Std.TreeSet Value Ord.compare
  | .array items => Std.TreeSet.ofList items Ord.compare
  | .set members => Std.TreeSet.ofList members Ord.compare
  | _ => ∅

theorem contains_ofList (items : List Value) (v : Value) :
    (Std.TreeSet.ofList items Ord.compare).contains v = Ascending.hasMember v items := by
  rw [Std.TreeSet.contains_ofList, List.contains_eq_any_beq]
  rfl

/-- A search in the tree of an array is a search for an equal item. -/
theorem contains_searchTree_array (items : List Value) (v : Value) :
    (searchTree (.array items)).contains v = items.any fun item => Value.equal item v := by
  have equal : (fun item => Value.equal item v) = fun item => item == v :=
    funext fun item => Value.equal_eq_beq item v
  rw [equal, any_beq_eq_hasMember]
  exact contains_ofList items v

theorem contains_searchTree (v o : Value) : (searchTree o).contains v = isItem v o := by
  rcases o with _ | _ | _ | _ | items | members | _
  case array =>
    rw [isItem_array]
    exact contains_ofList items v
  case set => exact contains_ofList members v
  all_goals exact Std.TreeSet.contains_emptyc

/-- An operator with its operand known in advance, where collections are search trees. -/
def treeCheck [PatternEngine] : Builtin → Value → Value → Bool
  | .memberOf, o =>
    let members := searchTree o
    fun v => members.contains v
  | .notMemberOf, o =>
    let members := searchTree o
    fun v => !members.contains v
  | builtin, o => builtin.check o

theorem treeCheck_eq_check [PatternEngine] (builtin : Builtin) (o v : Value) :
    builtin.treeCheck o v = builtin.check o v := by
  rcases builtin <;> try rfl
  · show (searchTree o).contains v = Ascending.hasMember v (membersOf o)
    rw [contains_searchTree, hasMember_membersOf]
  · show (!(searchTree o).contains v) = !Ascending.hasMember v (membersOf o)
    rw [contains_searchTree, hasMember_membersOf]

end Builtin

/-! ## By name -/

section

variable [PatternEngine]

theorem specialize?_id (builtin : Builtin) (operand : Value) :
    specialize? builtin.id operand = some (builtin.check operand) := by
  rw [specialize?, Builtin.ofId?_id]
  rfl

theorem specialize?_eq_none {id : String} (custom : isBuiltin id = false) (operand : Value) :
    specialize? id operand = none := by
  unfold isBuiltin at custom
  rw [Option.isSome_eq_false_iff, Option.isNone_iff_eq_none] at custom
  rw [specialize?, custom]
  rfl

/-- Every built-in operator has a check for every operand, with the answers of the predicate registered under
its name: searched for in a tree or item by item, and with the patterns kept from any calls before. Other
operators have none. -/
theorem specialize?_agrees {cache : PatternCache} (lawful : cache.Lawful) (id : String)
    (operand : Value) (questions : List Question) :
    (isBuiltin id = true → ∃ (builtin : Builtin) (op : Operator) (check : Value → Bool),
        builtin.id = id ∧ Registry.builtins.find? id = some op ∧ specialize? id operand = some check ∧
        ∀ v, check v = op.holds v operand ∧ check v = builtin.treeCheck operand v ∧
          check v = (cache.holds (cache.after questions) (builtin, v, operand)).1) ∧
      (isBuiltin id = false → specialize? id operand = none) ∧
      (∀ items v, (Builtin.searchTree (.array items)).contains v =
        items.any fun item => Value.equal item v) := by
  refine ⟨fun reserved => ?_, fun custom => specialize?_eq_none custom operand,
    Builtin.contains_searchTree_array⟩
  obtain ⟨builtin, rfl⟩ := exists_of_isBuiltin reserved
  refine ⟨builtin, _, _, rfl, Registry.hasBuiltins_builtins builtin,
    specialize?_id builtin operand, fun v => ⟨?_, ?_, ?_⟩⟩
  · exact builtin.check_eq_holds v operand
  · exact (builtin.treeCheck_eq_check operand v).symm
  · have sound := PatternCache.isSound_after lawful questions
    rw [(sound.holds lawful builtin v operand).1, builtin.check_eq_holds]

end

/-- Membership in an array of mixed numbers, and matching with a pattern that is kept already. -/
theorem specialize?_agrees_in_matches :
    let cache : PatternCache := .recent _ 256
    cache.Lawful ∧
      (∃ (op : Operator) (check : Value → Bool), Registry.builtins.find? "in" = some op ∧
        specialize? "in" (.array [.number (.int 1), .number (.float .nan), .null]) = some check ∧
        check (.number (.float ⟨0x3ff0000000000000⟩)) =
          op.holds (.number (.float ⟨0x3ff0000000000000⟩))
            (.array [.number (.int 1), .number (.float .nan), .null])) ∧
      (∃ (builtin : Builtin) (check : Value → Bool),
        specialize? "matches" (.string "^a+$") = some check ∧
        check (.string "aa") =
          (cache.holds (cache.after
            [(.matching, .string "b", .string "^a+$"), (.matching, .string "b", .string "(")])
            (builtin, .string "aa", .string "^a+$")).1) ∧
      specialize? "near" .null = none := by
  intro cache
  have lawful : cache.Lawful := TextCache.lawful_recent 256
  obtain ⟨_, op, check, -, registered, specialized, agrees⟩ :=
    (specialize?_agrees lawful "in" (.array [.number (.int 1), .number (.float .nan), .null]) []).1
      (by decide +kernel)
  obtain ⟨builtin, _, check', -, -, specialized', agrees'⟩ :=
    (specialize?_agrees lawful "matches" (.string "^a+$")
      [(.matching, .string "b", .string "^a+$"), (.matching, .string "b", .string "(")]).1
      (by decide +kernel)
  exact ⟨lawful, ⟨op, check, registered, specialized, (agrees _).1⟩,
    ⟨builtin, check', specialized', (agrees' _).2.2⟩,
    (specialize?_agrees lawful "near" .null []).2.1 (by decide +kernel)⟩

end ResidualPolicy
