import ResidualPolicy.Notation.Reader
import ResidualPolicy.Policy

/-!
# Reading policies

A policy is given as nested tagged arrays, or as the text of such an array in policy notation. One
colon in front of a tag, of the marker `where`, of a comparator or of a key of a path is dropped, so
keywords that kept their colon and plain strings mean the same.

An error names the smallest part of the expression in which it was found.
-/

namespace ResidualPolicy.Policy

/-! ## Errors -/

/-- What is wrong with an expression. -/
inductive Fault where
  | emptyExpression
  | untagged
  | tagNotKeyword
  | emptyTag
  | notArity
  | whereOutside
  | constraintArity (operator : String)
  | emptyPath
  | pathNotVector
  | pathKey
  | quantifierArity (quantifier : Quantifier)
  | countArity
  | comparator
  | operand (operator : String) (mismatch : OperandMismatch)
  /-- The text is no value. -/
  | unreadable (diagnostic : String)
  deriving DecidableEq, Repr

/-- Wording of a fault. -/
def Fault.text : Fault → String
  | .emptyExpression => "empty expression"
  | .untagged => "expression must be a tagged vector"
  | .tagNotKeyword => "expression tag must be a keyword"
  | .emptyTag => "expression tag must not be empty"
  | .notArity => "`not` takes exactly one expression"
  | .whereOutside => "`where` is only allowed inside a quantifier"
  | .constraintArity operator => "constraint `" ++ operator ++ "` takes a path and an operand"
  | .emptyPath => "path must not be empty"
  | .pathNotVector => "path must be a vector of keys"
  | .pathKey => "path keys must be keywords, strings or indexes"
  | .quantifierArity quantifier =>
    "`" ++ quantifier.tag ++ "` takes a binding path, an optional `:where` filter and a body"
  | .countArity =>
    "`count` takes a binding path, an optional `:where` filter, a comparator and a value"
  | .comparator => "count comparator must be an operator keyword"
  | .operand operator mismatch => "`" ++ operator ++ "` " ++ mismatch.message
  | .unreadable diagnostic => diagnostic

/-- A fault, and the part of the expression in which it was found. -/
structure ParseError where
  fault : Fault
  offending : Value
  deriving Repr

/-- Wording of an error. -/
def ParseError.message (e : ParseError) : String :=
  e.fault.text ++ ": " ++ String.ofList (Notation.text e.offending)

/-! ## Parts of expressions -/

/-- A string without the colon in front. -/
def keyword (s : String) : String :=
  match s.toList with
  | ':' :: rest => String.ofList rest
  | _ => s

/-- Whether a value marks the filter of a quantifier or a count. -/
def isWhere : Value → Bool
  | .string s => keyword s == "where"
  | _ => false

/-- One key of a path: a string, or a number that is an index. -/
def readKey : Value → Except ParseError Value
  | .string s => .ok (.string (keyword s))
  | .number n =>
    if n.toNat?.isSome then .ok (.number n) else .error ⟨.pathKey, .number n⟩
  | key => .error ⟨.pathKey, key⟩

/-- A path that is not empty. -/
def readPath : Value → Except ParseError Path
  | .array [] => .error ⟨.emptyPath, .array []⟩
  | .array keys => (keys.mapM readKey).map Path.mk
  | e => .error ⟨.pathNotVector, e⟩

/-- Refuses an operand that does not fit a built-in operator; custom operators take any. -/
def checkOperand [PatternEngine] (operator : String) (operand whole : Value) : Except ParseError Unit :=
  match Builtin.ofId? operator with
  | none => .ok ()
  | some builtin =>
    (builtin.operandKind.check operand).mapError fun mismatch => ⟨.operand operator mismatch, whole⟩

/-- The comparator of a count. -/
def readComparator : Value → Except ParseError String
  | .string s => if keyword s == "" then .error ⟨.comparator, .string s⟩ else .ok (keyword s)
  | e => .error ⟨.comparator, e⟩

/-- What the tag of an expression says about its form. -/
inductive Form where
  | empty
  | connected (connective : Connective)
  | negation
  | quantified (quantifier : Quantifier)
  | counted
  | filter
  | constraint (operator : String)
  deriving DecidableEq, Repr

/-- The form of the expressions with a tag. -/
def Form.ofTag (tag : String) : Form :=
  match tag with
  | "" => .empty
  | "and" => .connected .conjunction
  | "or" => .connected .disjunction
  | "not" => .negation
  | "forall" => .quantified .universal
  | "exists" => .quantified .existential
  | "count" => .counted
  | "where" => .filter
  | operator => .constraint operator

/-! ## Reading -/

section
variable [PatternEngine]

mutual

/-- Reads an expression as a policy. -/
def ofExpr : Value → Except ParseError Policy
  | .array (.string tag :: args) =>
    let whole := .array (.string tag :: args)
    match Form.ofTag (keyword tag) with
    | .empty => .error ⟨.emptyTag, whole⟩
    | .connected connective => do
      let parts ← ofExprs args
      return .connected connective parts
    | .negation =>
      match args with
      | [e] => do
        let p ← ofExpr e
        return .negation p
      | _ => .error ⟨.notArity, whole⟩
    | .quantified quantifier =>
      match args with
      | [binding, body] => do
        let binding ← readPath binding
        let body ← ofExpr body
        return .quantified quantifier binding none body
      | [binding, marker, filter, body] =>
        if isWhere marker then do
          let binding ← readPath binding
          let filter ← ofExpr filter
          let body ← ofExpr body
          return .quantified quantifier binding (some filter) body
        else .error ⟨.quantifierArity quantifier, whole⟩
      | _ => .error ⟨.quantifierArity quantifier, whole⟩
    | .counted =>
      match args with
      | [binding, comparator, operand] => do
        let comparator ← readComparator comparator
        checkOperand comparator operand whole
        let binding ← readPath binding
        return .counted binding none comparator operand
      | [binding, marker, filter, comparator, operand] =>
        if isWhere marker then do
          let comparator ← readComparator comparator
          checkOperand comparator operand whole
          let binding ← readPath binding
          let filter ← ofExpr filter
          return .counted binding (some filter) comparator operand
        else .error ⟨.countArity, whole⟩
      | _ => .error ⟨.countArity, whole⟩
    | .filter => .error ⟨.whereOutside, whole⟩
    | .constraint operator =>
      match args with
      | [path, operand] => do
        let path ← readPath path
        checkOperand operator operand whole
        return .leaf { path, operator, operand }
      | _ => .error ⟨.constraintArity operator, whole⟩
  | .array [] => .error ⟨.emptyExpression, .array []⟩
  | .array (head :: args) => .error ⟨.tagNotKeyword, .array (head :: args)⟩
  | e => .error ⟨.untagged, e⟩

/-- Reads expressions in order; the first one that is no policy gives the error. -/
def ofExprs : List Value → Except ParseError (List Policy)
  | [] => .ok []
  | e :: rest => do
    let p ← ofExpr e
    let ps ← ofExprs rest
    return p :: ps

end

/-- Reads a policy in policy notation. -/
def read (text : String) : Except ParseError Policy :=
  match Notation.Source.read ⟨"<policy>", text⟩ with
  | .ok e => ofExpr e
  | .error diagnostic => .error ⟨.unreadable diagnostic, .string text⟩

end

end ResidualPolicy.Policy
