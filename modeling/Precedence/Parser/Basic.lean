import Precedence.Parser.Fault
import Precedence.Parser.Reader

/-!
# Parsers

A parser is a description: primitive parsers that match one token or none, and ways to
put parsers together. What a parser does with a reader is defined in
`Precedence.Parser.Run`.

A *forward* parser is a name that stands for a parser which is defined elsewhere, so that
a grammar may refer to itself. All forwards of a grammar yield values of one type `τ`;
their names have type `ν`.

Values are transformed by *actions*, which run in a monad `m`. A grammar whose actions
only compute uses `Except`; one whose actions also keep a record adds a state to it.
-/

namespace Precedence

/-- A parser that yields values of the last type. -/
inductive Parser (ν τ : Type) (m : Type → Type) : Type → Type 1 where
  /-- One token with the given tag and text, which is the value. -/
  | reserved (tag : Tag) (text : String) : Parser ν τ m String
  /-- One token with the given tag; its text is the value. -/
  | tag (tag : Tag) : Parser ν τ m String
  /-- Nothing; the message says why. -/
  | fail {α : Type} (message : String) : Parser ν τ m α
  /-- Whatever the parser matches that the name is defined as. -/
  | forward (name : ν) : Parser ν τ m τ
  /-- What the parser matches, provided that no token remains behind it. -/
  | phrase {α : Type} (p : Parser ν τ m α) : Parser ν τ m α
  /-- What the parser matches; the action makes the value from its value and location. -/
  | process {α β : Type} (p : Parser ν τ m α) (action : α → Location → m β) :
      Parser ν τ m β
  /-- What the first parser matches and behind it the second; both values together. -/
  | seq {α β : Type} (p : Parser ν τ m α) (q : Parser ν τ m β) : Parser ν τ m (α × β)
  /-- What the first parser matches or, if it fails, the second. -/
  | orElse {α : Type} (p q : Parser ν τ m α) : Parser ν τ m α
  /-- What the parser matches, as often as it does; the list of the values. -/
  | rep {α : Type} (p : Parser ν τ m α) : Parser ν τ m (List α)
  /--
  What the first parser matches and behind it the second, as often as it does. The action
  folds each further value, from left to right, into the value so far.
  -/
  | leftRec {α β : Type} (p : Parser ν τ m α) (q : Parser ν τ m β)
      (combine : α → β → Location → m α) : Parser ν τ m α

/-- What a parser makes of a reader. -/
inductive Result (α : Type) where
  /-- It matched: where, with which value, and the reader behind the match. -/
  | success (location : Location) (value : α) (next : Reader)
  /-- It did not match: where and why. -/
  | failure (location : Location) (message : String)

/--
The literal of a result, given the literals of values. A success shows the number of tokens
before the reader behind it, a failure the report of its location.
-/
def Result.literal {α : Type} (ofValue : α → String) : Result α → String
  | success location value next =>
      recordLiteral "Success" [location.literal, ofValue value, toString next.pos]
  | failure location message => recordLiteral "Failure" [location.render, message]

namespace Parser

variable {ν τ α β γ : Type} {m : Type → Type} [Monad m]

/-- What the parser matches, with a function of its value. -/
def map (f : α → β) (p : Parser ν τ m α) : Parser ν τ m β :=
  p.process fun value _ => pure (f value)

/-- One parser behind the other; only the first value is kept. -/
def keepLeft (p : Parser ν τ m α) (q : Parser ν τ m β) : Parser ν τ m α :=
  (p.seq q).map Prod.fst

/-- One parser behind the other; only the second value is kept. -/
def keepRight (p : Parser ν τ m α) (q : Parser ν τ m β) : Parser ν τ m β :=
  (p.seq q).map Prod.snd

/-- One or more matches with separators between them; the list of the values. -/
def rep1Sep (p : Parser ν τ m α) (separator : Parser ν τ m β) : Parser ν τ m (List α) :=
  (p.seq (separator.keepRight p).rep).map fun values => values.1 :: values.2

end Parser

/-- What the forward names of a grammar stand for, as far as they are defined. -/
abbrev Definitions (ν τ : Type) (m : Type → Type) :=
  ν → Option (Parser ν τ m τ)

namespace Definitions

variable {ν τ : Type} {m : Type → Type}

/-- No name is defined. -/
def empty : Definitions ν τ m :=
  fun _ => none

/-- Whether a name is defined. -/
def isDefined (definitions : Definitions ν τ m) (name : ν) : Bool :=
  (definitions name).isSome

/-- Define one more name. What is not a parser is refused before a second definition. -/
def define {ε : Type} [DecidableEq ν] (definitions : Definitions ν τ m) (name : ν)
    (parser : Option (Parser ν τ m τ)) : Except (Fault ε) (Definitions ν τ m) :=
  match parser with
  | none => .error .notAParser
  | some parser =>
      if definitions.isDefined name then
        .error .definedTwice
      else
        .ok fun other => if other = name then some parser else definitions other

end Definitions

/-- A parser together with the definitions of the names that it refers to. -/
structure Grammar (ν τ : Type) (m : Type → Type) where
  start : Parser ν τ m τ
  definitions : Definitions ν τ m

end Precedence
