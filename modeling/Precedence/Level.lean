import Precedence.Parser.Run

/-!
# Grammars composed of levels

An expression grammar is usually a chain of rules, each of which calls the next
tighter-binding one. Here each rule is a *level creator*, a function that gets the parser
for the whole grammar (`top`) and the parser for all tighter levels (`next`) and gives
back the parser for its own level and all tighter ones. A list of creators, loosest
binding first, is a grammar, and operators are added or reordered by editing the list.

* `compose` wires creators together. They are called from the last to the first, each
  with what the one behind it gave back, the last one with the bottom parser. The name
  `top` is defined when all of them have been called.
* `leftAssociative`, `rightAssociative` and `orNext` are the creators for operators and
  for alternatives.

What takes the place of a parser may fail to be one. It is a fault for a creator to give
back nothing, and for a level to be built on nothing.
-/

namespace Precedence
namespace Level

variable {ν τ β : Type} {ε : Type} {m : Type → Type} [Monad m] [MonadExcept (Fault ε) m]

/-- What may stand for a parser. -/
abbrev Candidate (ν τ : Type) (m : Type → Type) :=
  Option (Parser ν τ m τ)

/-- A level: from the whole grammar and the tighter levels to this level and those. -/
abbrev Creator (ν τ : Type) (ε : Type) (m : Type → Type) :=
  Parser ν τ m τ → Candidate ν τ m → Except (Fault ε) (Candidate ν τ m)

/-- The parser that a level is built on. -/
def required (candidate : Candidate ν τ m) : Except (Fault ε) (Parser ν τ m τ) :=
  match candidate with
  | some parser => .ok parser
  | none => .error .notAParser

/-- A level that is made of the tighter levels, whatever `top` is. -/
def ofNext (build : Parser ν τ m τ → Parser ν τ m τ) : Creator ν τ ε m :=
  fun _ next => (required next).map fun next => some (build next)

/--
Combine operands from the last pair to the first: `a b c` gives
`combine a (combine b c)`. There is no value to begin with but the last operand.
-/
def reduceRight (combine : τ → τ → m τ) : List τ → m τ
  | [] => throw Fault.nothingToReduce
  | [operand] => pure operand
  | operand :: operands => do
      let right ← reduceRight combine operands
      combine operand right

/--
An operator that groups to the left. Each operand is combined with the previous result;
the value of the operator is ignored and a single operand is left unchanged.
-/
def leftAssociative (operator : Parser ν τ m β) (combine : τ → τ → m τ) :
    Creator ν τ ε m :=
  ofNext fun next =>
    next.leftRec (operator.keepRight next) fun left right _ => combine left right

/--
An operator that groups to the right. All operands are collected before the last two are
combined; the value of the operator is ignored and a single operand is left unchanged.
-/
def rightAssociative (operator : Parser ν τ m β) (combine : τ → τ → m τ) :
    Creator ν τ ε m :=
  ofNext fun next =>
    (next.rep1Sep operator).process fun operands _ => reduceRight combine operands

/-- An alternative to the tighter levels, tried before them. -/
def orNext (parser : Parser ν τ m τ) : Creator ν τ ε m :=
  ofNext fun next => parser.orElse next

/-- Call a creator and refuse what is not a parser. -/
def create (creator : Creator ν τ ε m) (top : Parser ν τ m τ) (next : Candidate ν τ m) :
    Except (Fault ε) (Candidate ν τ m) := do
  match ← creator top next with
  | some parser => .ok (some parser)
  | none => .error .levelWithoutParser

/--
Call all creators of a list, the last one first. The list that comes with the outcome has
the places, in the whole list, of the creators that were called, in the order of the calls.
-/
def chain (top : Parser ν τ m τ) (bottom : Candidate ν τ m) :
    Nat → List (Creator ν τ ε m) → List Nat × Except (Fault ε) (Candidate ν τ m)
  | _, [] => ([], .ok bottom)
  | place, creator :: creators =>
      match chain top bottom (place + 1) creators with
      | (called, .ok next) => (called ++ [place], create creator top next)
      | (called, .error fault) => (called, .error fault)

/--
The grammar of a list of levels, with the places of the creators that were called for it.
The name becomes a forward parser for the whole grammar.
-/
def composeWith [DecidableEq ν] (definitions : Definitions ν τ m) (top : ν)
    (bottom : Candidate ν τ m) (creators : List (Creator ν τ ε m)) :
    List Nat × Except (Fault ε) (Grammar ν τ m) :=
  let (called, outcome) := chain (.forward top) bottom 0 creators
  (called, do
    let candidate ← outcome
    let definitions ← definitions.define top candidate
    let parser ← required candidate
    return ⟨parser, definitions⟩)

/-- The grammar of a list of levels that refers to no other forward parser than `top`. -/
def compose [DecidableEq ν] (top : ν) (bottom : Candidate ν τ m)
    (creators : List (Creator ν τ ε m)) : Except (Fault ε) (Grammar ν τ m) :=
  (composeWith .empty top bottom creators).2

/-- The message of the default bottom parser. -/
def bottomMessage : String := "Bottom parser reached. No viable alternative"

/-- The default bottom parser: where it is reached, nothing matches. -/
def bottom : Parser ν τ m τ :=
  .fail bottomMessage

/-- The grammar of a list of levels on the default bottom parser. -/
def composeWithDefault [DecidableEq ν] (top : ν) (creators : List (Creator ν τ ε m)) :
    Except (Fault ε) (Grammar ν τ m) :=
  compose top (some bottom) creators

end Level
end Precedence
