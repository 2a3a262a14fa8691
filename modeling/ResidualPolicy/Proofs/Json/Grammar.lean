import ResidualPolicy.Json.Token
import ResidualPolicy.Proofs.Json.Event
import ResidualPolicy.Proofs.Json.Quoted

/-!
# The grammar of JSON

Which texts stand for an event, said without writing or reading them (`IsText`): the tokens of the event are
spelt one after the other, with any blanks between them. How doubles are spelt is left open, so no text
stands for an event that holds one.

This is what is asked of a library (`Library.IsStandard`). It writes an event as a text that stands for it,
and reads every text that stands for an event as that event, unless it is nested too deep.
-/

namespace ResidualPolicy.Json

/-! ## Texts -/

/-- How a literal is spelt. -/
inductive IsLiteral : Event → List Char → Prop
  | unit : IsLiteral .unit "null".toList
  | bool (b : Bool) : IsLiteral (.bool b) (boolText b)
  | int64 (i : Int64) : IsLiteral (.int64 i) (Double.intText i.toInt)
  | uint64 (n : UInt64) : IsLiteral (.uint64 n) (Double.intText n.toNat)
  | string {literal content : List Char} : IsContent literal content →
      IsLiteral (.string (.ofList content)) ('"' :: (literal ++ ['"']))

/-- The characters that may stand directly behind a literal. -/
def enders : List Char := [',', ':', ']', '\x7d', ' ', '\t', '\n', '\x0d']

/-- The text is empty or goes on with such a character. -/
def Ends (rest : List Char) : Prop :=
  ∀ c ∈ rest.head?, c ∈ enders

theorem ends_nil : Ends [] := nofun

theorem ends_cons {c : Char} (rest : List Char) (member : c ∈ enders) : Ends (c :: rest) :=
  fun _ first => Option.some.inj first ▸ member

/-- The text consists of the tokens, with blanks between them. -/
inductive Spells : List Char → List Token → Prop
  | done : Spells [] []
  | blank {c : Char} {cs : List Char} {ts : List Token} : isBlank c = true → Spells cs ts →
      Spells (c :: cs) ts
  | punctuation {c : Char} {token : Token} {cs : List Char} {ts : List Token} :
      punctuation? c = some token → Spells cs ts → Spells (c :: cs) (token :: ts)
  | literal {e : Event} {lexeme cs : List Char} {ts : List Token} : IsLiteral e lexeme → Ends cs →
      Spells cs ts → Spells (lexeme ++ cs) (.scalar e :: ts)

/-- The text stands for the event. -/
def IsText (cs : List Char) (e : Event) : Prop :=
  Spells cs e.tokens

/-! ## Libraries -/

/-- An event without doubles. -/
inductive Event.IsPlain : Event → Prop
  | unit : IsPlain .unit
  | bool (b : Bool) : IsPlain (.bool b)
  | int64 (i : Int64) : IsPlain (.int64 i)
  | uint64 (n : UInt64) : IsPlain (.uint64 n)
  | string (s : String) : IsPlain (.string s)
  | seq {items : List Event} : (∀ e ∈ items, IsPlain e) → IsPlain (.seq items)
  | map {entries : List (String × Event)} : (∀ entry ∈ entries, IsPlain entry.2) →
      IsPlain (.map entries)

/-- What is asked of a library: standard texts, and standard reading down to the usual depth. Integers are
reported without a sign unless they are negative. -/
structure Library.IsStandard [Library] : Prop where
  compact {e : Event} : e.IsPlain → IsText (Library.compact e) e
  pretty {e : Event} : e.IsPlain → IsText (Library.pretty e) e
  read? {cs : List Char} {e : Event} : IsText cs e → e.depth ≤ depthLimit →
    Library.read? cs = some e.asRead

end ResidualPolicy.Json
