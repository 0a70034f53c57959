/-!
# Faults

A parser that does not match *fails*, and its caller may try something else. A *fault*
ends the whole run instead: it shows a mistake in the grammar or in what it is applied
to, and no alternative and no repetition recovers from it.
-/

namespace Precedence

universe u

/-- Why the composition or a run of a parser has no result at all. -/
inductive Fault (ε : Type u) where
  /-- Something that is not a parser was used as one. -/
  | notAParser
  /-- A level creator gave back something that is not a parser. -/
  | levelWithoutParser
  /-- A forward parser was called before it was defined. -/
  | undefinedForward
  /-- A forward parser was defined a second time. -/
  | definedTwice
  /-- A token was asked for where none remains. -/
  | endOfTokens
  /-- Locations in two files were combined. -/
  | differentFiles
  /-- An empty list was reduced, which has no last operand to begin with. -/
  | nothingToReduce
  /-- More forward parsers were open at once than the run allows. -/
  | nestedTooDeeply
  /-- A repetition would never end, since what it repeats matched without a token. -/
  | endless
  /-- An action of the grammar raised an error of its own. -/
  | action (cause : ε)

namespace Fault

variable {ε : Type u}

/-- The wording of a fault, given the wording of the errors that actions raise. -/
def message (ofAction : ε → String) : Fault ε → String
  | notAParser => ""
  | levelWithoutParser => "level creator did not return a parser"
  | undefinedForward => "forward parser called before it was defined"
  | definedTwice => "forward parser is already defined"
  | endOfTokens => ""
  | differentFiles => ""
  | nothingToReduce => "reduce() of empty iterable with no initial value"
  | nestedTooDeeply => "expression is nested too deeply"
  | endless => "repetition does not end"
  | action cause => ofAction cause

end Fault
end Precedence
