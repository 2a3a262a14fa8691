import ResidualPolicy.Proofs.Json.Tokens

/-!
# Reading and writing here is standard

The tokens of an event, in the place where an event may begin, make it complete, unless it is nested too
deep there (`completes`). Together with what is known of tokens, the texts and the reader here are a library
as it is asked for (`isStandard_library`).
-/

namespace ResidualPolicy.Json

/-! ## Events as a reader reports them -/

namespace Event

theorem depth_asRead (e : Event) : e.asRead.depth = e.depth := by
  induction e with
  | unit | bool | uint64 | double | string => rfl
  | int64 i =>
    rw [asRead]
    split <;> rfl
  | seq items ih =>
    have each : depthOf (asReadItems items) = depthOf items := by
      induction items with
      | nil => rfl
      | cons e rest rest_ih =>
        obtain ⟨here, there⟩ := List.forall_mem_cons.mp ih
        rw [asReadItems, depthOf, depthOf, here, rest_ih there]
    rw [asRead, depth, depth, each]
  | map entries ih =>
    have each : depthOfEntries (asReadEntries entries) = depthOfEntries entries := by
      induction entries with
      | nil => rfl
      | cons entry rest rest_ih =>
        obtain ⟨here, there⟩ := List.forall_mem_cons.mp ih
        rw [asReadEntries, depthOfEntries, depthOfEntries, here, rest_ih there]
    rw [asRead, depth, depth, each]

theorem map_asRead_intercalate (tss : List (List Token)) :
    (List.intercalate [.comma] tss).map Token.asRead =
      List.intercalate [.comma] (tss.map fun ts => ts.map Token.asRead) := by
  induction tss with
  | nil => rfl
  | cons ts tss ih =>
    cases tss with
    | nil => simp [List.intercalate]
    | cons us tss =>
      rw [List.intercalate_cons_cons, List.map_append, List.map_append, ih]
      exact List.intercalate_cons_cons.symm

theorem tokens_asRead (e : Event) : e.asRead.tokens = e.tokens.map Token.asRead := by
  induction e with
  | unit | bool | uint64 | double | string => rfl
  | int64 i =>
    show _ = [Token.scalar (asRead (.int64 i))]
    rw [asRead]
    split <;> rfl
  | seq items ih =>
    have each : itemTokens (asReadItems items) =
        (itemTokens items).map fun ts => ts.map Token.asRead := by
      rw [asReadItems_eq_map, itemTokens_eq_map, itemTokens_eq_map, List.map_map, List.map_map]
      exact List.map_congr_left ih
    rw [asRead, tokens, tokens, each, ← map_asRead_intercalate, List.map_cons, List.map_append]
    rfl
  | map entries ih =>
    have each : entryTokens (asReadEntries entries) =
        (entryTokens entries).map fun ts => ts.map Token.asRead := by
      rw [asReadEntries_eq_map, entryTokens_eq_map, entryTokens_eq_map, List.map_map, List.map_map]
      refine List.map_congr_left fun entry member => ?_
      exact congrArg (fun ts => .scalar (.string entry.1) :: .colon :: ts) (ih entry member)
    rw [asRead, tokens, tokens, each, ← map_asRead_intercalate, List.map_cons, List.map_append]
    rfl

end Event

/-! ## From tokens to events -/

/-- A comma comes before every part but the first. -/
theorem intercalate_cons (ts : List Token) (tss : List (List Token)) :
    List.intercalate [.comma] (ts :: tss) = ts ++ tss.flatMap (.comma :: ·) := by
  induction tss generalizing ts with
  | nil => simp [List.intercalate]
  | cons us tss ih =>
    rw [List.intercalate_cons_cons, ih, List.flatMap_cons, List.append_assoc,
      List.singleton_append, List.cons_append]

section
variable {limit : Nat} {frames : List Frame}

theorem eventOf?_of_step {expecting : Expecting} {token : Token} {after : List Frame × Expecting}
    (step : step? limit frames expecting token = some after) (rest : List Token) :
    eventOf? limit frames expecting (token :: rest) = eventOf? limit after.1 after.2 rest := by
  rw [eventOf?, step]

/-- The tokens of the event complete it wherever one may begin, unless it is nested too deep there. -/
def Completes (limit : Nat) (e : Event) : Prop :=
  ∀ frames expecting rest, frames.length + e.depth ≤ limit →
    expecting = .event ∨ expecting = .firstItem →
      eventOf? limit frames expecting (e.tokens ++ rest) = eventOf? limit frames (.after e) rest

/-- The token of an event that holds no others completes it. -/
theorem eventOf?_scalar (e : Event) {frames : List Frame} {expecting : Expecting}
    (begins : expecting = .event ∨ expecting = .firstItem) (rest : List Token) :
    eventOf? limit frames expecting (.scalar e :: rest) = eventOf? limit frames (.after e) rest := by
  have step : step? limit frames expecting (.scalar e) = some (frames, .after e) := by
    rcases begins with rfl | rfl <;> rfl
  exact eventOf?_of_step step rest

/-- Behind an item of a sequence: the other items and the closing bracket. -/
theorem eventOf?_items {items : List Event} (each : ∀ f ∈ items, Completes limit f)
    (shallow : ∀ f ∈ items, frames.length + 1 + f.depth ≤ limit) (sofar : List Event) (e : Event)
    (rest : List Token) :
    eventOf? limit (.array sofar :: frames) (.after e)
        ((Event.itemTokens items).flatMap (.comma :: ·) ++ .closeArray :: rest) =
      eventOf? limit frames (.after (.seq (sofar.reverse ++ e :: items))) rest := by
  induction items generalizing sofar e with
  | nil =>
    have closed : step? limit (.array sofar :: frames) (.after e) .closeArray =
        some (frames, .after (.seq (e :: sofar).reverse)) := rfl
    rw [Event.itemTokens, List.flatMap_nil, List.nil_append, eventOf?_of_step closed,
      List.reverse_cons]
  | cons f items ih =>
    obtain ⟨here, others⟩ := List.forall_mem_cons.mp each
    obtain ⟨fits, otherFits⟩ := List.forall_mem_cons.mp shallow
    have comma : step? limit (.array sofar :: frames) (.after e) .comma =
        some (.array (e :: sofar) :: frames, .event) := rfl
    rw [Event.itemTokens, List.flatMap_cons, List.append_assoc, List.cons_append,
      eventOf?_of_step comma, here (.array (e :: sofar) :: frames) .event _ fits (.inl rfl),
      ih others otherFits, List.reverse_cons, List.append_assoc, List.singleton_append]

/-- Behind the key of an entry: its colon and its event. -/
theorem eventOf?_entry {e : Event} (completes : Completes limit e)
    (shallow : frames.length + 1 + e.depth ≤ limit) (sofar : List (String × Event)) (key : String)
    (rest : List Token) :
    eventOf? limit frames (.colon sofar key) (.colon :: (e.tokens ++ rest)) =
      eventOf? limit (.object sofar key :: frames) (.after e) rest := by
  have colon : step? limit frames (.colon sofar key) .colon =
      some (.object sofar key :: frames, .event) := by
    rw [step?]
  rw [eventOf?_of_step colon]
  exact completes (.object sofar key :: frames) .event rest shallow (.inl rfl)

/-- Behind an entry of a map: the other entries and the closing brace. -/
theorem eventOf?_entries {entries : List (String × Event)}
    (each : ∀ entry ∈ entries, Completes limit entry.2)
    (shallow : ∀ entry ∈ entries, frames.length + 1 + entry.2.depth ≤ limit)
    (sofar : List (String × Event)) (key : String) (e : Event) (rest : List Token) :
    eventOf? limit (.object sofar key :: frames) (.after e)
        ((Event.entryTokens entries).flatMap (.comma :: ·) ++ .closeObject :: rest) =
      eventOf? limit frames (.after (.map (sofar.reverse ++ (key, e) :: entries))) rest := by
  induction entries generalizing sofar key e with
  | nil =>
    have closed : step? limit (.object sofar key :: frames) (.after e) .closeObject =
        some (frames, .after (.map ((key, e) :: sofar).reverse)) := rfl
    rw [Event.entryTokens, List.flatMap_nil, List.nil_append, eventOf?_of_step closed,
      List.reverse_cons]
  | cons entry entries ih =>
    obtain ⟨completes, later⟩ := List.forall_mem_cons.mp each
    obtain ⟨fits, otherFits⟩ := List.forall_mem_cons.mp shallow
    obtain ⟨nextKey, next⟩ := entry
    have comma : step? limit (.object sofar key :: frames) (.after e) .comma =
        some (frames, .key ((key, e) :: sofar)) := rfl
    have named : step? limit frames (.key ((key, e) :: sofar)) (.scalar (.string nextKey)) =
        some (frames, .colon ((key, e) :: sofar) nextKey) := by
      rw [step?]
    rw [Event.entryTokens, List.flatMap_cons, List.append_assoc, List.cons_append, List.cons_append,
      List.cons_append, eventOf?_of_step comma, eventOf?_of_step named,
      eventOf?_entry completes fits, ih later otherFits, List.reverse_cons, List.append_assoc,
      List.singleton_append]

theorem completes_seq {items : List Event} (each : ∀ e ∈ items, Completes limit e) :
    Completes limit (.seq items) := by
  intro frames expecting rest shallow begins
  rw [Event.depth] at shallow
  have fits (e : Event) (member : e ∈ items) : frames.length + 1 + e.depth ≤ limit := by
    have below := Event.depth_le_depthOf member
    omega
  have room : frames.length < limit := by omega
  have opened : step? limit frames expecting .openArray =
      some (.array [] :: frames, .firstItem) := by
    rcases begins with rfl | rfl <;> rw [step?, if_pos room]
  rw [Event.tokens, List.cons_append, List.append_assoc, List.singleton_append,
    eventOf?_of_step opened]
  cases items with
  | nil =>
    have closed : step? limit (.array [] :: frames) .firstItem .closeArray =
        some (frames, .after (.seq [])) := rfl
    exact eventOf?_of_step closed rest
  | cons e items =>
    obtain ⟨here, others⟩ := List.forall_mem_cons.mp each
    obtain ⟨first, otherFits⟩ := List.forall_mem_cons.mp fits
    rw [Event.itemTokens, intercalate_cons, List.append_assoc,
      here (.array [] :: frames) .firstItem _ first (.inr rfl), eventOf?_items others otherFits]
    rfl

theorem completes_map {entries : List (String × Event)}
    (each : ∀ entry ∈ entries, Completes limit entry.2) : Completes limit (.map entries) := by
  intro frames expecting rest shallow begins
  rw [Event.depth] at shallow
  have fits (entry : String × Event) (member : entry ∈ entries) :
      frames.length + 1 + entry.2.depth ≤ limit := by
    have below := Event.depth_le_depthOfEntries member
    omega
  have room : frames.length < limit := by omega
  have opened : step? limit frames expecting .openObject =
      some (.object [] "" :: frames, .firstKey) := by
    rcases begins with rfl | rfl <;> rw [step?, if_pos room]
  rw [Event.tokens, List.cons_append, List.append_assoc, List.singleton_append,
    eventOf?_of_step opened]
  cases entries with
  | nil =>
    have closed : step? limit (.object [] "" :: frames) .firstKey .closeObject =
        some (frames, .after (.map [])) := rfl
    exact eventOf?_of_step closed rest
  | cons entry entries =>
    obtain ⟨here, others⟩ := List.forall_mem_cons.mp each
    obtain ⟨first, otherFits⟩ := List.forall_mem_cons.mp fits
    obtain ⟨key, e⟩ := entry
    have named : step? limit (.object [] "" :: frames) .firstKey (.scalar (.string key)) =
        some (frames, .colon [] key) := rfl
    rw [Event.entryTokens, intercalate_cons, List.cons_append, List.cons_append, List.append_assoc,
      List.cons_append, eventOf?_of_step named, eventOf?_entry here first,
      eventOf?_entries others otherFits]
    rfl

theorem completes (e : Event) : Completes limit e := by
  induction e with
  | unit | bool | int64 | uint64 | double | string =>
    exact fun _ _ rest _ begins => eventOf?_scalar _ begins rest
  | seq items ih => exact completes_seq ih
  | map entries ih => exact completes_map ih

end

/-! ## The library -/

/-- A text that stands for an event is read as the event if it is nested no deeper than allowed. -/
theorem eventWithin?_of_isText {limit : Nat} {cs : List Char} {e : Event} (text : IsText cs e)
    (shallow : e.depth ≤ limit) : eventWithin? limit cs = some e.asRead := by
  have split : tokens? cs = some (e.asRead.tokens ++ []) := by
    rw [List.append_nil, e.tokens_asRead]
    exact tokens?_of_spells text
  have fits : ([] : List Frame).length + e.asRead.depth ≤ limit := by
    rw [List.length_nil, Nat.zero_add, e.depth_asRead]
    exact shallow
  rw [eventWithin?, split, Option.bind_some, completes e.asRead [] .event [] fits (.inl rfl)]
  rfl

theorem isStandard_library : Library.IsStandard where
  compact plain := plain.spellsAhead_compact.isText
  pretty plain := (plain.spellsAhead_prettyAt 0).isText
  read? := eventWithin?_of_isText

end ResidualPolicy.Json
