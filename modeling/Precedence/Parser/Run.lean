import Precedence.Parser.Basic

/-!
# Running a parser

A run of a parser at a reader has three endings, and they are kept apart. It succeeds or
it fails, which is a `Result`; or it has no result, because of a `Fault` that the monad
carries past every alternative and repetition.

## Termination

* A repetition ends when what it repeats fails. Every round but the last consumes a token
  or never lets the repetition end: a parser depends on nothing but the reader, so one
  that matched without a token matches again. The tokens that remain therefore count the
  rounds, and `Fault.endless` is raised when they run out first.
* A call of a forward parser descends into its definition. The number of calls that may
  be open at once is limited, and `Fault.nestedTooDeeply` is raised at the limit.
-/

namespace Precedence

universe u

namespace Parser

variable {ν τ α β : Type} {ε : Type u} {m : Type → Type} [Monad m] [MonadExcept (Fault ε) m]

/-- The message of a parser that asks for a token where none remains. -/
def endMessage : String := "unexpected end of file"

/-- The message of a phrase that does not reach the end of the tokens. -/
def garbageMessage : String := "found garbage at end of file"

/-- Match one token. A mismatch is described by what was expected and what was found. -/
def expect (matching : Token → Bool) (expected : String) (found : Token → String)
    (reader : Reader) : Result String :=
  match reader.next? with
  | none => .failure reader.location endMessage
  | some (token, next) =>
      if matching token then
        .success token.location token.text next
      else
        .failure token.location ("expected " ++ expected ++ " but found " ++ found token)

/-- The least location that covers both; a fault if they are in different files. -/
def cover (a b : Location) : m Location :=
  match a.combine? b with
  | some location => pure location
  | none => throw Fault.differentFiles

/-- Go on behind a success; a failure is passed on. -/
@[specialize]
def onSuccess (outcome : m (Result α)) (go : Location → α → Reader → m (Result β)) :
    m (Result β) := do
  match ← outcome with
  | .success location value next => go location value next
  | .failure location message => pure (.failure location message)

/--
Repeat a step until it fails, collecting the values. The first argument counts the rounds
that may still be made; the location is what has been covered so far.
-/
@[specialize]
def repeatFrom (step : Reader → m (Result α)) :
    List Token → Location → Reader → m (Result (List α))
  | rounds, location, reader => do
    match ← step reader with
    | .failure _ _ => pure (.success location [] reader)
    | .success here value next =>
        let location ← cover location here
        match rounds with
        | [] => throw Fault.endless
        | _ :: rounds =>
            onSuccess (repeatFrom step rounds location next) fun location values next =>
              pure (.success location (value :: values) next)

/--
Repeat a step until it fails, folding each value into the one so far. The first argument
counts the rounds that may still be made; the location is what has been covered so far.
-/
@[specialize]
def foldFrom (step : Reader → m (Result β)) (combine : α → β → Location → m α) :
    List Token → Location → α → Reader → m (Result α)
  | rounds, location, value, reader => do
    match ← step reader with
    | .failure _ _ => pure (.success location value reader)
    | .success here operand next =>
        let location ← cover location here
        let value ← combine value operand location
        match rounds with
        | [] => throw Fault.endless
        | _ :: rounds => foldFrom step combine rounds location value next

/-- Run a parser at a reader, given what a call of a forward parser does. -/
@[specialize]
def runWith (call : ν → Reader → m (Result τ)) :
    {α : Type} → Parser ν τ m α → Reader → m (Result α)
  | _, .reserved name text, reader =>
      pure (expect (fun token => token.tag == name && token.text == text) text Token.text
        reader)
  | _, .tag name, reader =>
      pure (expect (fun token => token.tag == name) name Token.tag reader)
  | _, .fail message, reader =>
      pure (.failure reader.location message)
  | _, .forward name, reader =>
      call name reader
  | _, .phrase p, reader =>
      onSuccess (runWith call p reader) fun location value next =>
        pure (if next.isEmpty then
          .success location value next
        else
          .failure next.location garbageMessage)
  | _, .process p action, reader =>
      onSuccess (runWith call p reader) fun location value next => do
        let value ← action value location
        pure (.success location value next)
  | _, .seq p q, reader =>
      onSuccess (runWith call p reader) fun first left next =>
        onSuccess (runWith call q next) fun second right next => do
          let location ← cover first second
          pure (.success location (left, right) next)
  | _, .orElse p q, reader => do
      match ← runWith call p reader with
      | .success location value next => pure (.success location value next)
      | .failure _ _ => runWith call q reader
  | _, .rep p, reader =>
      repeatFrom (runWith call p) reader.rest reader.location reader
  | _, .leftRec p q combine, reader =>
      onSuccess (runWith call p reader) fun location value next =>
        foldFrom (runWith call q) combine next.rest location value next

/--
Call a forward parser, where at most the given number of calls may be open at once. That
a name is not defined is found out before the call is opened.
-/
@[specialize]
def callForward (definitions : Definitions ν τ m) : Nat → ν → Reader → m (Result τ)
  | limit, name, reader =>
    match definitions name with
    | none => throw Fault.undefinedForward
    | some parser =>
        match limit with
        | 0 => throw Fault.nestedTooDeeply
        | limit + 1 => runWith (callForward definitions limit) parser reader

/-- Run a parser at a reader, with at most so many forward parsers open at once. -/
@[specialize]
def run (definitions : Definitions ν τ m) (limit : Nat) (parser : Parser ν τ m α)
    (reader : Reader) : m (Result α) :=
  runWith (callForward definitions limit) parser reader

/--
A limit that no run reaches which would end without one, for so many forward names: with
more calls open, one of the names is open twice at the same place, and so forever.
-/
def ampleLimit (names : Nat) (reader : Reader) : Nat :=
  names * (reader.rest.length + 1)

end Parser

namespace Grammar

variable {ν τ : Type} {ε : Type u} {m : Type → Type} [Monad m] [MonadExcept (Fault ε) m]

/-- Run a grammar from its start, with at most so many forward parsers open at once. -/
def run (grammar : Grammar ν τ m) (limit : Nat) (reader : Reader) : m (Result τ) :=
  Parser.run grammar.definitions limit grammar.start reader

end Grammar
end Precedence
