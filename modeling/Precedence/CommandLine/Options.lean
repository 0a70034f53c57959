import Precedence.Text.CharacterClass
import Precedence.Text.Quoted

/-!
# Options of the command line

The words of a command line are options and arguments. First each word is classified on
its own, then the words are read from left to right.

* A word that begins with a dash is an option, written in full, abbreviated to a beginning
  that no other option has, or with a value attached behind an equals sign. The short
  option may be repeated within one word.
* Other words are arguments, and so are a lone dash, a negative number and a word with a
  blank in it that is no option. Behind the first `--` all words are arguments.
* The expressions are the first run of arguments. Arguments that stand apart from them and
  options that do not exist are not recognized, which is found out at the end; a request
  for help and a fault in the use of an option end the reading where they stand.
-/

namespace Precedence
namespace CommandLine

/-- The options. -/
inductive Flag where
  | help
  | eval
  | levels
  | verbose
deriving DecidableEq

namespace Flag

/-- The short spelling of the request for help. -/
def shortHelp : String := "-h"

/-- All spellings of options, in the order in which they are listed. -/
def spellings : List (String × Flag) :=
  [(shortHelp, help), ("--help", help), ("--eval", eval), ("--levels", levels),
    ("--verbose", verbose)]

/-- The option with a given spelling. -/
def ofSpelling? (word : String) : Option Flag :=
  spellings.lookup word

/-- All spellings of an option together. -/
def name (flag : Flag) : String :=
  "/".intercalate ((spellings.filter fun entry => entry.2 = flag).map Prod.fst)

end Flag

/-- Why a command line is refused. -/
inductive Misuse where
  /-- A word abbreviates several options. -/
  | ambiguous (word : String) (options : List String)
  /-- An option lacks its value. -/
  | missingValue (flag : Flag)
  /-- A value is attached to an option that takes none. -/
  | unusedValue (flag : Flag) (value : String)
  /-- Some words are neither expressions nor options. -/
  | unrecognized (words : List String)

/-- The wording of a refusal. -/
def Misuse.message : Misuse → String
  | ambiguous word options =>
      "ambiguous option: " ++ word ++ " could match " ++ ", ".intercalate options
  | missingValue flag => "argument " ++ flag.name ++ ": expected one argument"
  | unusedValue flag value =>
      "argument " ++ flag.name ++ ": ignored explicit argument " ++ Text.quoted value
  | unrecognized words => "unrecognized arguments: " ++ " ".intercalate words

/-- What a word is taken for. -/
inductive Word where
  /-- An argument. -/
  | argument (text : String)
  /-- The word behind which there are no options. -/
  | separator
  /-- An option, perhaps with a value attached. -/
  | option (flag : Flag) (attached : Option String)
  /-- An option that does not exist. -/
  | unknown (text : String)
deriving DecidableEq

namespace Word

/-- The separator as it is written. -/
def separatorText : String := "--"

/-- A word in two parts, before and behind the first equals sign, if there is one. -/
def splitValue (word : List Char) : String × Option String :=
  let name := String.ofList (word.takeWhile (· ≠ '='))
  match word.dropWhile (· ≠ '=') with
  | [] => (name, none)
  | _ :: value => (name, some (String.ofList value))

/-- Whether a text is a run of digits and nothing else. -/
def isDigits (chars : List Char) : Bool :=
  chars.all fun c => (Text.digitValue? c).isSome

/--
Whether a word is a negative number: a dash, digits, and perhaps a point with digits
behind it. A line feed may follow.
-/
def isNegativeNumber (word : List Char) : Bool :=
  match word with
  | '-' :: number =>
      let number := if number.getLast? = some '\n' then number.dropLast else number
      match number.dropWhile (· ≠ '.') with
      | [] => !number.isEmpty && isDigits number
      | _ :: fraction =>
          isDigits (number.takeWhile (· ≠ '.')) && !fraction.isEmpty && isDigits fraction
  | _ => false

/--
The value that is attached to the short option. Letters that repeat the option are none, and
the first one that does not begins the value; where nothing at all is attached behind an
equals sign, the value is empty.
-/
def valueBehindShort (attached : List Char) : Option String :=
  match attached.dropWhile (· = 'h') with
  | [] => if attached.isEmpty then some "" else none
  | value => some (String.ofList value)

/-- The spellings that a word may abbreviate; only long options are abbreviated. -/
def candidates (name : String) : List (String × Flag) :=
  if separatorText.toList.isPrefixOf name.toList then
    Flag.spellings.filter fun entry => name.toList.isPrefixOf entry.1.toList
  else
    []

/-- What a word is taken for that begins with a dash and is no option in full. -/
def classifyOther (word : String) : Except Misuse Word :=
  let (name, attached) := splitValue word.toList
  match candidates name with
  | [(_, flag)] => .ok (option flag attached)
  | first :: second :: rest =>
      .error (.ambiguous word ((first :: second :: rest).map Prod.fst))
  | [] =>
      match word.toList with
      | '-' :: 'h' :: rest => .ok (option .help (valueBehindShort rest))
      | chars =>
          if isNegativeNumber chars || chars.contains ' ' then
            .ok (argument word)
          else
            .ok (unknown word)

/-- What a word before the separator is taken for. -/
def classify (word : String) : Except Misuse Word :=
  match word.toList with
  | '-' :: _ :: _ =>
      match Flag.ofSpelling? word with
      | some flag => .ok (option flag none)
      | none =>
          match splitValue word.toList with
          | (name, some value) =>
              match Flag.ofSpelling? name with
              | some flag =>
                  if name = Flag.shortHelp then
                    .ok (option flag (valueBehindShort value.toList))
                  else
                    .ok (option flag (some value))
              | none => classifyOther word
          | (_, none) => classifyOther word
  | _ => .ok (argument word)

/-- What all words of a command line are taken for. -/
def classifyAll : List String → Except Misuse (List Word)
  | [] => .ok []
  | word :: words =>
      if word = separatorText then
        .ok (separator :: words.map argument)
      else do
        let first ← classify word
        let rest ← classifyAll words
        return first :: rest

end Word

/-- Where the level table of a command line comes from. -/
inductive TableSource where
  /-- No table is asked for. -/
  | standard
  /-- The table in the file at a path is asked for. -/
  | file (path : String)
  /-- A table is asked for, but nothing is left of the path. -/
  | nowhere
deriving DecidableEq

/--
The table that an attached path asks for. The separator is taken out of what an option is
given, even where it is all that the option is given.
-/
def TableSource.ofAttached (path : String) : TableSource :=
  if path = Word.separatorText then nowhere else file path

/-- What a command line asks for. -/
structure Options where
  expressions : List String
  /-- Whether values are asked for instead of trees. -/
  evaluates : Bool
  table : TableSource
  /-- Whether each step is logged. -/
  isVerbose : Bool

/-- What keeps a command line from being run. -/
inductive Stop where
  /-- A request for help. -/
  | help
  /-- A fault in the use of the command. -/
  | misuse (error : Misuse)

namespace Options

/-- Nothing is asked for. -/
def none : Options := ⟨[], false, .standard, false⟩

/-- How far the expressions have been read. -/
inductive Stage where
  /-- No argument has come yet. -/
  | before
  /-- The words before were arguments. -/
  | within
  /-- An option has ended the expressions. -/
  | behind
deriving DecidableEq

/-- An option ends the expressions if they have begun. -/
def Stage.next : Stage → Stage
  | before => before
  | _ => behind

/-- The options at the end of the words, given the words that were not recognized. -/
def finish (options : Options) : List String → Except Stop Options
  | [] => .ok options
  | unrecognized => .error (.misuse (.unrecognized unrecognized))

/-- Read classified words, given what was read from those before them. -/
def readFrom (stage : Stage) (options : Options) (unrecognized : List String) :
    List Word → Except Stop Options
  | [] => options.finish unrecognized
  | .argument text :: words =>
      if stage = .behind then
        readFrom stage options (unrecognized ++ [text]) words
      else
        readFrom .within { options with expressions := options.expressions ++ [text] }
          unrecognized words
  | .separator :: words =>
      if stage = .behind then
        readFrom stage options (unrecognized ++ [Word.separatorText]) words
      else
        readFrom .within options unrecognized words
  | .unknown text :: words =>
      readFrom stage.next options (unrecognized ++ [text]) words
  | .option .levels (some path) :: words =>
      readFrom stage.next { options with table := .ofAttached path } unrecognized words
  | .option .levels Option.none :: .argument path :: words =>
      readFrom stage.next { options with table := .file path } unrecognized words
  | .option .levels Option.none :: _ => .error (.misuse (.missingValue .levels))
  | .option flag (some value) :: _ => .error (.misuse (.unusedValue flag value))
  | .option .help Option.none :: _ => .error .help
  | .option .eval Option.none :: words =>
      readFrom stage.next { options with evaluates := true } unrecognized words
  | .option .verbose Option.none :: words =>
      readFrom stage.next { options with isVerbose := true } unrecognized words

/-- What the words of a command line ask for. -/
def ofWords (words : List String) : Except Stop Options :=
  match Word.classifyAll words with
  | .ok words => readFrom .before Options.none [] words
  | .error error => .error (.misuse error)

end Options
end CommandLine
end Precedence
