import Mathlib.Data.List.Forall2
import ResidualPolicy.Ascending

/-!
# Look-ups in ascending lists

What insertions do to look-ups. For the value under a key this needs no order at all, since a
look-up takes the first entry whose key is the same. For the whole entry, whose key may be another
form of the key that is asked for, the list has to be ascending, and then the entries that look-ups
find determine the list.
-/

namespace ResidualPolicy.Ascending

universe u v w

variable {κ : Type u} {β : Type v} [Ord κ]

/-- The entry under a key, with the key in the form in which the list holds it. -/
def entryAt? (key : κ) (entries : List (κ × β)) : Option (κ × β) :=
  entries.find? fun entry => sameKey key entry.1

@[simp]
theorem entryAt?_nil (key : κ) : entryAt? key ([] : List (κ × β)) = none := rfl

theorem entryAt?_cons (key : κ) (entry : κ × β) (rest : List (κ × β)) :
    entryAt? key (entry :: rest) =
      if sameKey key entry.1 then some entry else entryAt? key rest := by
  unfold entryAt?
  rw [List.find?_cons]
  cases sameKey key entry.1 <;> rfl

theorem sameKey_iff {a b : κ} : sameKey a b = true ↔ compare a b = .eq :=
  beq_iff_eq

theorem IsAscending.tail {entry : κ × β} {rest : List (κ × β)}
    (ascending : IsAscending (keys (entry :: rest))) : IsAscending (keys rest) :=
  (List.pairwise_cons.mp ascending).2

theorem IsAscending.head_lt {entry : κ × β} {rest : List (κ × β)}
    (ascending : IsAscending (keys (entry :: rest))) {other : κ × β} (h : other ∈ rest) :
    compare entry.1 other.1 = .lt :=
  (List.pairwise_cons.mp ascending).1 _ (List.mem_map_of_mem h)

theorem entryAt?_eq_none {key : κ} {entries : List (κ × β)}
    (lower : ∀ entry ∈ entries, compare key entry.1 = .lt) : entryAt? key entries = none := by
  refine List.find?_eq_none.mpr fun entry h => ?_
  rw [sameKey, lower entry h]
  exact Bool.false_ne_true

theorem mem_of_entryAt? {key : κ} {entries : List (κ × β)} {entry : κ × β}
    (h : entryAt? key entries = some entry) : entry ∈ entries ∧ sameKey key entry.1 = true :=
  ⟨List.mem_of_find?_eq_some h,
    List.find?_some (p := fun entry : κ × β => sameKey key entry.1) h⟩

theorem mem_keys_alter {key : κ} {change : Option β → β} {entries : List (κ × β)} {k : κ}
    (h : k ∈ keys (alter key change entries)) : k = key ∨ k ∈ keys entries := by
  induction entries with
  | nil => exact .inl (List.mem_singleton.mp h)
  | cons entry rest ih =>
    obtain ⟨l, v⟩ := entry
    unfold alter at h
    cases c : compare key l with
    | lt =>
      rw [c] at h
      exact List.mem_cons.mp h
    | eq =>
      rw [c] at h
      exact .inr h
    | gt =>
      rw [c] at h
      rcases List.mem_cons.mp h with rfl | h
      · exact .inr (List.mem_cons_self ..)
      · exact (ih h).imp_right (List.mem_cons_of_mem _)

theorem alter_ne_nil (key : κ) (change : Option β → β) (entries : List (κ × β)) :
    alter key change entries ≠ [] := by
  cases entries with
  | nil => exact List.cons_ne_nil _ _
  | cons entry rest =>
    obtain ⟨k, v⟩ := entry
    unfold alter
    cases compare key k <;> exact List.cons_ne_nil _ _

/-- Entries with lower keys are left where they are. -/
theorem alter_append_of_above {key : κ} {change : Option β → β} {entries : List (κ × β)}
    (above : ∀ entry ∈ entries, compare key entry.1 = .gt) (rest : List (κ × β)) :
    alter key change (entries ++ rest) = entries ++ alter key change rest := by
  induction entries with
  | nil => rfl
  | cons entry entries ih =>
    obtain ⟨first, others⟩ := List.forall_mem_cons.mp above
    rw [List.cons_append, alter, first]
    exact congrArg (entry :: ·) (ih others)

/-- A key above all others comes last. -/
theorem alter_of_above {key : κ} {change : Option β → β} {entries : List (κ × β)}
    (above : ∀ entry ∈ entries, compare key entry.1 = .gt) :
    alter key change entries = entries ++ [(key, change none)] := by
  have last : alter key change (entries ++ []) = entries ++ alter key change [] :=
    alter_append_of_above above []
  rw [List.append_nil] at last
  exact last

/-! ## Lists that are ascending already -/

theorem ofMembers_of_ascending {members : List κ} (ascending : IsAscending members) :
    ofMembers members = members := by
  induction members with
  | nil => rfl
  | cons x rest ih =>
    obtain ⟨lower, others⟩ := List.pairwise_cons.mp ascending
    have kept : ofMembers (x :: rest) = addMember x rest := congrArg (addMember x) (ih others)
    rw [kept]
    cases rest with
    | nil => rfl
    | cons y rest => rw [addMember, lower y List.mem_cons_self]

/-- Storing entries in the order of their keys appends them. -/
theorem foldl_put_of_ascending {entries items : List (κ × β)} [Std.OrientedOrd κ]
    (ascending : IsAscending (keys (entries ++ items))) :
    items.foldl (fun entries entry => put entry.1 entry.2 entries) entries = entries ++ items := by
  induction items generalizing entries with
  | nil => exact (List.append_nil entries).symm
  | cons item items ih =>
    have above : ∀ entry ∈ entries, compare item.1 entry.1 = .gt := fun entry member => by
      rw [keys, List.map_append] at ascending
      have lower := (List.pairwise_append.mp ascending).2.2 _ (List.mem_map_of_mem member) item.1
        List.mem_cons_self
      exact Std.OrientedCmp.gt_of_lt lower
    have appended : put item.1 item.2 entries = entries ++ [item] := alter_of_above above
    have split : entries ++ item :: items = entries ++ [item] ++ items := by simp
    rw [List.foldl_cons, appended, ih (split ▸ ascending), split]

theorem ofEntries_of_ascending {entries : List (κ × β)} [Std.OrientedOrd κ]
    (ascending : IsAscending (keys entries)) : ofEntries entries = entries :=
  @foldl_put_of_ascending κ β _ [] entries _ ascending

/-! ## Entries under different keys -/

theorem perm_put {key : κ} (value : β) {entries : List (κ × β)}
    (fresh : ∀ entry ∈ entries, sameKey key entry.1 = false) :
    (put key value entries).Perm ((key, value) :: entries) := by
  unfold put
  induction entries with
  | nil => exact .refl _
  | cons entry rest ih =>
    obtain ⟨k, v⟩ := entry
    obtain ⟨apart, others⟩ := List.forall_mem_cons.mp fresh
    unfold alter
    cases h : compare key k with
    | lt => exact .refl _
    | eq => exact absurd (sameKey_iff.mpr h) (Bool.eq_false_iff.mp apart)
    | gt => exact ((ih others).cons (k, v)).trans (.swap ..)

theorem perm_foldl_put {items entries : List (κ × β)}
    (distinct : items.Pairwise fun a b => sameKey b.1 a.1 = false)
    (fresh : ∀ item ∈ items, ∀ entry ∈ entries, sameKey item.1 entry.1 = false) :
    (items.foldl (fun entries entry => put entry.1 entry.2 entries) entries).Perm
      (items ++ entries) := by
  induction items generalizing entries with
  | nil => exact .refl _
  | cons item items ih =>
    obtain ⟨apart, others⟩ := List.pairwise_cons.mp distinct
    obtain ⟨first, later⟩ := List.forall_mem_cons.mp fresh
    have stored := perm_put item.2 first
    refine (ih others fun other member entry among => ?_).trans ?_
    · rcases List.mem_cons.mp (stored.mem_iff.mp among) with rfl | among
      · exact apart other member
      · exact later other member entry among
    · exact (stored.append_left items).trans List.perm_middle

/-- Entries whose keys are all different are all kept. -/
theorem perm_ofEntries {items : List (κ × β)}
    (distinct : items.Pairwise fun a b => sameKey b.1 a.1 = false) :
    (ofEntries items).Perm items := by
  have fresh : ∀ item ∈ items, ∀ entry ∈ ([] : List (κ × β)), sameKey item.1 entry.1 = false :=
    fun _ _ => nofun
  have all := perm_foldl_put distinct fresh
  rwa [List.append_nil] at all

/-! ## Sameness of keys -/

variable [Std.TransOrd κ]

@[simp]
theorem sameKey_self (a : κ) : sameKey a a = true :=
  sameKey_iff.mpr Std.ReflOrd.compare_self

theorem sameKey_symm {a b : κ} (h : sameKey a b = true) : sameKey b a = true :=
  sameKey_iff.mpr (Std.OrientedCmp.eq_symm (sameKey_iff.mp h))

/-- Keys that are the same are the same as the same keys. -/
theorem sameKey_congr {a b : κ} (h : sameKey a b = true) (c : κ) : sameKey a c = sameKey b c := by
  unfold sameKey
  rw [Std.TransCmp.congr_left (sameKey_iff.mp h)]

theorem sameKey_congr_right {a b : κ} (h : compare a b = .eq) (key : κ) :
    sameKey key a = sameKey key b := by
  rw [sameKey, sameKey, Std.TransCmp.congr_right h]

theorem get?_congr {a b : κ} (h : sameKey a b = true) (entries : List (κ × β)) :
    get? a entries = get? b entries := by
  induction entries with
  | nil => rfl
  | cons entry rest ih => rw [get?_cons, get?_cons, ih, sameKey_congr h]

/-- A member of an ascending list is found in the form in which it is held. -/
theorem IsAscending.eq_of_member? {members : List κ} (ascending : IsAscending members) {x y : κ}
    (member : x ∈ members) (found : member? x members = some y) : y = x := by
  induction members with
  | nil => exact absurd member List.not_mem_nil
  | cons z rest ih =>
    obtain ⟨lower, ascending⟩ := List.pairwise_cons.mp ascending
    rw [member?, List.find?_cons] at found
    rcases List.mem_cons.mp member with rfl | later
    · rw [sameKey_self] at found
      exact (Option.some.inj found).symm
    · have apart : sameKey x z = false := by
        rw [sameKey, Std.OrientedCmp.gt_of_lt (lower x later)]
        rfl
      rw [apart] at found
      exact ih ascending later found

theorem member?_congr {a b : κ} (h : sameKey a b = true) (members : List κ) :
    member? a members = member? b members := by
  unfold member?
  congr 1
  funext member
  exact sameKey_congr h member

/-- What is found under a key in lists whose members are the same. -/
theorem member?_of_forall₂ {xs ys : List κ}
    (h : List.Forall₂ (fun x y => compare x y = .eq) xs ys) (key : κ) :
    Option.Rel (fun x y => compare x y = .eq) (member? key xs) (member? key ys) := by
  unfold member?
  induction h with
  | nil => exact .none
  | @cons x y _ _ first _ ih =>
    rw [List.find?_cons, List.find?_cons, sameKey_congr_right first]
    cases sameKey key y with
    | true => exact .some first
    | false => exact ih

/-- What is found under a key in lists of entries with the same keys. -/
theorem get?_of_forall₂ {γ : Type w} {related : β → γ → Prop} {xs : List (κ × β)}
    {ys : List (κ × γ)}
    (h : List.Forall₂ (fun x y => compare x.1 y.1 = .eq ∧ related x.2 y.2) xs ys) (key : κ) :
    Option.Rel related (get? key xs) (get? key ys) := by
  induction h with
  | nil => exact .none
  | cons first _ ih =>
    rw [get?, get?, sameKey_congr_right first.1]
    split
    · exact .some first.2
    · exact ih

theorem entryAt?_congr {a b : κ} (h : sameKey a b = true) (entries : List (κ × β)) :
    entryAt? a entries = entryAt? b entries := by
  unfold entryAt?
  congr 1
  funext entry
  exact sameKey_congr h entry.1

/-- Lists of the same keys are ascending together. -/
theorem isAscending_congr {xs ys : List κ} (same : List.Forall₂ (fun x y => compare x y = .eq) xs ys)
    (ascending : IsAscending ys) : IsAscending xs := by
  induction same with
  | nil => exact .nil
  | @cons x y xs ys first others ih =>
    obtain ⟨lower, rest⟩ := List.pairwise_cons.mp ascending
    refine List.pairwise_cons.mpr ⟨fun x' member => ?_, ih rest⟩
    obtain ⟨i, inside, rfl⟩ := List.getElem_of_mem member
    have inside' : i < ys.length := others.length_eq ▸ inside
    have equal : compare xs[i] ys[i] = .eq := others.get inside inside'
    rw [Std.TransCmp.congr_left first, Std.TransCmp.congr_right equal]
    exact lower _ (List.getElem_mem inside')

/-! ## Members -/

theorem hasMember_addMember (x y : κ) (members : List κ) :
    hasMember x (addMember y members) = (sameKey x y || hasMember x members) := by
  induction members with
  | nil => simp [hasMember, addMember]
  | cons z rest ih =>
    unfold addMember
    cases h : compare y z with
    | lt => simp [hasMember]
    | eq =>
      have same : sameKey x y = sameKey x z := by
        unfold sameKey
        rw [Std.TransCmp.congr_right h]
      simp [hasMember, same]
    | gt =>
      have tail := ih
      simp only [hasMember, List.any_cons] at tail ⊢
      rw [tail, Bool.or_left_comm]

/-- Sorting a list keeps its members. -/
theorem hasMember_ofMembers (x : κ) (items : List κ) :
    hasMember x (ofMembers items) = items.any (sameKey x) := by
  induction items with
  | nil => rfl
  | cons y rest ih =>
    have tail : hasMember x (addMember y (ofMembers rest)) = _ := hasMember_addMember x y _
    rw [ih] at tail
    exact tail

omit [Std.TransOrd κ] in
theorem mem_addMember {x y : κ} {members : List κ} (h : y ∈ addMember x members) :
    y = x ∨ y ∈ members := by
  induction members with
  | nil => exact .inl (List.mem_singleton.mp h)
  | cons z rest ih =>
    unfold addMember at h
    cases c : compare x z with
    | lt =>
      rw [c] at h
      exact List.mem_cons.mp h
    | eq =>
      rw [c] at h
      exact .inr h
    | gt =>
      rw [c] at h
      rcases List.mem_cons.mp h with rfl | h
      · exact .inr (List.mem_cons_self ..)
      · exact (ih h).imp_right (List.mem_cons_of_mem _)

theorem IsAscending.addMember {members : List κ} (ascending : IsAscending members) (x : κ) :
    IsAscending (addMember x members) := by
  induction members with
  | nil => exact List.pairwise_singleton _ _
  | cons y rest ih =>
    obtain ⟨above, tail⟩ := List.pairwise_cons.mp ascending
    unfold Ascending.addMember
    cases h : compare x y with
    | lt =>
      refine List.pairwise_cons.mpr ⟨fun z member => ?_, ascending⟩
      rcases List.mem_cons.mp member with rfl | member
      · exact h
      · exact Std.TransCmp.lt_trans h (above z member)
    | eq => exact ascending
    | gt =>
      refine List.pairwise_cons.mpr ⟨fun z member => ?_, ih tail⟩
      rcases mem_addMember member with rfl | member
      · exact Std.OrientedCmp.lt_of_gt h
      · exact above z member

/-- Sorting a list gives an ascending one. -/
theorem isAscending_ofMembers (items : List κ) : IsAscending (ofMembers items) := by
  induction items with
  | nil => exact .nil
  | cons x rest ih => exact ih.addMember x

/-- Ascending lists with the same members are equal. -/
theorem IsAscending.eq_of_mem_iff {xs ys : List κ} (hx : IsAscending xs) (hy : IsAscending ys)
    (members : ∀ x, x ∈ xs ↔ x ∈ ys) : xs = ys := by
  have distinct {zs : List κ} (h : IsAscending zs) : zs.Nodup := by
    refine h.imp fun {a b} lower same => ?_
    rw [same, Std.ReflOrd.compare_self] at lower
    exact nomatch lower
  have perm : xs.Perm ys := (List.perm_ext_iff_of_nodup (distinct hx) (distinct hy)).mpr members
  refine List.Perm.eq_of_pairwise (fun a b _ _ lower upper => ?_) hx hy perm
  rw [Std.OrientedCmp.gt_of_lt lower] at upper
  exact nomatch upper

/-! ## Values under keys -/

theorem get?_put (key key' : κ) (value : β) (entries : List (κ × β)) :
    get? key (put key' value entries) =
      if sameKey key key' then some value else get? key entries := by
  induction entries with
  | nil => rfl
  | cons entry rest ih =>
    obtain ⟨k, v⟩ := entry
    simp only [put] at ih ⊢
    unfold alter
    cases h : compare key' k with
    | lt => rfl
    | eq =>
      have same : sameKey key key' = sameKey key k := by
        unfold sameKey
        rw [Std.TransCmp.congr_right h]
      simp only [get?_cons, same]
      split <;> rfl
    | gt =>
      have other : sameKey key key' = true → sameKey key k = false := by
        intro same
        rw [sameKey_congr same, sameKey, h]
        rfl
      simp only [get?_cons, ih]
      by_cases same : sameKey key key' = true
      · simp [same, other same]
      · simp [same]

theorem hasKey_put (key key' : κ) (value : β) (entries : List (κ × β)) :
    hasKey key (put key' value entries) = (sameKey key key' || hasKey key entries) := by
  unfold hasKey
  rw [get?_put]
  cases sameKey key key' <;> rfl

theorem hasKey_foldl_put (key : κ) (items entries : List (κ × β)) :
    hasKey key (items.foldl (fun entries entry => put entry.1 entry.2 entries) entries) =
      (hasKey key entries || items.any fun item => sameKey key item.1) := by
  induction items generalizing entries with
  | nil => exact (Bool.or_false _).symm
  | cons item items ih =>
    rw [List.foldl_cons, ih, hasKey_put, List.any_cons, Bool.or_left_comm, Bool.or_assoc]

/-- The keys of a map are those of the entries that it was made of. -/
theorem hasKey_ofEntries (key : κ) (items : List (κ × β)) :
    hasKey key (ofEntries items) = items.any fun item => sameKey key item.1 :=
  hasKey_foldl_put key items []

theorem get?_foldl_put (key : κ) (items entries : List (κ × β)) :
    get? key (items.foldl (fun entries entry => put entry.1 entry.2 entries) entries) =
      ((items.reverse.find? fun item => sameKey key item.1).map Prod.snd).or (get? key entries) := by
  induction items generalizing entries with
  | nil => rfl
  | cons item items ih =>
    rw [List.foldl_cons, ih, get?_put, List.reverse_cons, List.find?_append, List.find?_singleton]
    cases items.reverse.find? fun item => sameKey key item.1 with
    | some later => rfl
    | none => split <;> rfl

/-- Under a key of a map stands what the last of the entries under that key holds. -/
theorem get?_ofEntries (key : κ) (items : List (κ × β)) :
    get? key (ofEntries items) =
      (items.reverse.find? fun item => sameKey key item.1).map Prod.snd := by
  rw [ofEntries, get?_foldl_put, get?_nil, Option.or_none]

omit [Std.TransOrd κ] in
theorem mem_of_get? {key : κ} {value : β} {entries : List (κ × β)}
    (h : get? key entries = some value) : ∃ k, (k, value) ∈ entries := by
  induction entries with
  | nil => exact nomatch h
  | cons entry rest ih =>
    obtain ⟨k, v⟩ := entry
    rw [get?_cons] at h
    split at h
    · exact ⟨k, Option.some.inj h ▸ List.mem_cons_self ..⟩
    · obtain ⟨l, member⟩ := ih h
      exact ⟨l, List.mem_cons_of_mem _ member⟩

theorem mem_of_get?_foldl {key : κ} {value : β} {items entries : List (κ × β)}
    (h : get? key (items.foldl (fun entries entry => put entry.1 entry.2 entries) entries) =
      some value) : (∃ k, (k, value) ∈ items) ∨ get? key entries = some value := by
  induction items generalizing entries with
  | nil => exact .inr h
  | cons item items ih =>
    rcases ih h with ⟨k, member⟩ | found
    · exact .inl ⟨k, List.mem_cons_of_mem _ member⟩
    · rw [get?_put] at found
      split at found
      · refine .inl ⟨item.1, ?_⟩
        rw [← Option.some.inj found]
        exact List.mem_cons_self ..
      · exact .inr found

/-- What stands under a key of a map comes from the entries that it was made of. -/
theorem mem_of_get?_ofEntries {key : κ} {value : β} {items : List (κ × β)}
    (h : get? key (ofEntries items) = some value) : ∃ k, (k, value) ∈ items :=
  (mem_of_get?_foldl h).resolve_right fun found => nomatch found

/-! ## Whole entries -/

/-- The keys behind the head of an ascending list differ from every key that is the same as the
head. -/
theorem IsAscending.entryAt?_tail {entry : κ × β} {rest : List (κ × β)}
    (ascending : IsAscending (keys (entry :: rest))) {key : κ} (h : sameKey key entry.1 = true) :
    entryAt? key rest = none := by
  rw [entryAt?_congr h]
  exact entryAt?_eq_none fun _ member => ascending.head_lt member

theorem IsAscending.alter {entries : List (κ × β)} (ascending : IsAscending (keys entries))
    (key : κ) (change : Option β → β) : IsAscending (keys (alter key change entries)) := by
  induction entries with
  | nil => exact List.pairwise_singleton _ _
  | cons entry rest ih =>
    obtain ⟨k, v⟩ := entry
    obtain ⟨above, tail⟩ := List.pairwise_cons.mp ascending
    unfold Ascending.alter
    cases h : compare key k with
    | lt =>
      refine List.pairwise_cons.mpr ⟨fun l member => ?_, ascending⟩
      rcases List.mem_cons.mp member with rfl | member
      · exact h
      · exact Std.TransCmp.lt_trans h (above l member)
    | eq => exact ascending
    | gt =>
      refine List.pairwise_cons.mpr ⟨fun l member => ?_, ih tail⟩
      rcases mem_keys_alter member with rfl | member
      · exact Std.OrientedCmp.lt_of_gt h
      · exact above l member

/-- Changing an entry changes what is found under its key, and nothing else. -/
theorem entryAt?_alter {entries : List (κ × β)} (ascending : IsAscending (keys entries))
    (key key' : κ) (change : Option β → β) :
    entryAt? key (alter key' change entries) =
      if sameKey key key' then
        some (((entryAt? key entries).map Prod.fst).getD key',
          change ((entryAt? key entries).map Prod.snd))
      else entryAt? key entries := by
  induction entries with
  | nil => rw [alter, entryAt?_cons]; rfl
  | cons entry rest ih =>
    obtain ⟨k, v⟩ := entry
    unfold alter
    cases h : compare key' k with
    | lt =>
      simp only [entryAt?_cons]
      -- The new entry stands in front. If it is the one looked for, nothing was found before.
      by_cases same : sameKey key key' = true
      · have none : entryAt? key ((k, v) :: rest) = none := by
          rw [entryAt?_congr same]
          refine entryAt?_eq_none fun other member => ?_
          rcases List.mem_cons.mp member with rfl | member
          · exact h
          · exact Std.TransCmp.lt_trans h (ascending.head_lt member)
        rw [entryAt?_cons] at none
        simp [same, none]
      · simp [same]
    | eq =>
      -- The entry that is there already keeps its key, so it is found in its old form.
      have same : sameKey key key' = sameKey key k := by
        unfold sameKey
        rw [Std.TransCmp.congr_right h]
      simp only [entryAt?_cons, same]
      by_cases found : sameKey key k = true <;> simp [found]
    | gt =>
      simp only [entryAt?_cons, ih ascending.tail]
      by_cases same : sameKey key key' = true
      · have other : sameKey key k = false := by
          rw [sameKey_congr same, sameKey, h]
          rfl
        simp [same, other]
      · simp [same]

theorem entryAt?_of_mem {entries : List (κ × β)} (ascending : IsAscending (keys entries))
    {entry : κ × β} (h : entry ∈ entries) : entryAt? entry.1 entries = some entry := by
  induction entries with
  | nil => exact absurd h List.not_mem_nil
  | cons head rest ih =>
    rw [entryAt?_cons]
    rcases List.mem_cons.mp h with rfl | h
    · rw [if_pos (sameKey_self _)]
    · have apart : ¬ sameKey entry.1 head.1 = true := fun same =>
        absurd (ascending.head_lt h) (by rw [sameKey_iff.mp (sameKey_symm same)]; decide)
      rw [if_neg apart]
      exact ih ascending.tail h

/-- An ascending list is determined by the entries that look-ups find. -/
theorem ext_entryAt? {xs ys : List (κ × β)} (hx : IsAscending (keys xs))
    (hy : IsAscending (keys ys))
    (h : ∀ key, entryAt? key xs = entryAt? key ys) : xs = ys := by
  induction xs generalizing ys with
  | nil =>
    cases ys with
    | nil => rfl
    | cons y ys => simpa [entryAt?_cons] using h y.1
  | cons x xs ih =>
    cases ys with
    | nil => simpa [entryAt?_cons] using h x.1
    | cons y ys =>
      have foundX := h x.1
      have foundY := h y.1
      simp only [entryAt?_cons, sameKey_self, if_true] at foundX foundY
      have head : x = y := by
        by_cases same : sameKey x.1 y.1 = true
        · simpa [same] using foundX
        · -- Each head would stand behind the other one.
          have same' : ¬ sameKey y.1 x.1 = true := fun flipped => same (sameKey_symm flipped)
          simp only [same, same'] at foundX foundY
          have below := hx.head_lt (mem_of_entryAt? foundY).1
          have above := hy.head_lt (mem_of_entryAt? foundX.symm).1
          exact absurd below (Std.OrientedCmp.not_lt_of_lt above)
      subst head
      refine congrArg (x :: ·) (ih hx.tail hy.tail fun key => ?_)
      by_cases same : sameKey key x.1 = true
      · rw [hx.entryAt?_tail same, hy.entryAt?_tail same]
      · simpa [entryAt?_cons, same] using h key

/-- Ascending lists of the same entries are equal. -/
theorem IsAscending.eq_of_perm {xs ys : List (κ × β)} (hx : IsAscending (keys xs))
    (hy : IsAscending (keys ys)) (perm : xs.Perm ys) : xs = ys := by
  refine List.Perm.eq_of_pairwise (fun a b _ _ lower upper => ?_) (List.pairwise_map.mp hx)
    (List.pairwise_map.mp hy) perm
  rw [Std.OrientedCmp.gt_of_lt lower] at upper
  exact nomatch upper

end ResidualPolicy.Ascending
