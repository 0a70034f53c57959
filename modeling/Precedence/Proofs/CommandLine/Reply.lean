import Precedence.CommandLine.Session
import Precedence.Proofs.Arithmetic.Faults
import Precedence.Proofs.Evaluation.Meaning
import Precedence.Proofs.Text.Lines

/-!
# Replies to single expressions

Every expression that is parsed with the default table gets an answer or a report of one line,
with a place in the expression. The only other thing that can happen is that an integer has
more digits than may be read, or the value of the expression more than may be written
(`Exceeds`), which ends the session.
-/

namespace Precedence

namespace Location

variable {file : String}
variable {location : Location}

/-- A location in a file that has a name is known. -/
theorem eq_ofPositions
    (located : location.fileName = file)
    (named : file ≠ unknownName) :
    ∃ start stop, location = .ofPositions file start stop := by
  cases location with
  | unknown => exact absurd located.symm named
  | known span =>
      cases located
      exact ⟨span.start, span.stop, rfl⟩

theorem oneLine_render
    (named : OneLine file)
    (start stop : Position) :
    OneLine (ofPositions file start stop).render := by
  have dot : OneLine "." := by
    decide
  exact ((((((named.append (by decide)).append (.integer _)).append dot).append
    (.integer _)).append (by decide)).append (.integer _)).append dot |>.append (.integer _)

end Location

/-- A diagnostic in a file, about a text and not about a table, that is reported in one line. -/
structure Diagnostic.IsIn (file : String) (diagnostic : Diagnostic) : Prop where
  located : ∃ start stop, diagnostic.location = some (.ofPositions file start stop)
  kind_ne : diagnostic.kind ≠ .configuration
  oneLine : OneLine diagnostic.report

theorem Diagnostic.isIn_of_message
    {file message : String}
    {location : Location}
    {kind : Diagnostic.Kind}
    (named : OneLine file)
    (known : file ≠ Location.unknownName)
    (located : location.fileName = file)
    (kind_ne : kind ≠ .configuration)
    (oneLine : OneLine message) :
    Diagnostic.IsIn file ⟨kind, some location, message⟩ := by
  obtain ⟨start, stop, rfl⟩ := Location.eq_ofPositions located known
  refine ⟨⟨start, stop, rfl⟩, kind_ne, ?_⟩
  have ofKind : OneLine kind.name := by
    cases kind <;> decide
  exact ((((Location.oneLine_render named start stop).append (by decide)).append ofKind).append
    (by decide)).append oneLine

/-- Whatever is read from tokens of a file is there, with all that it is made of. -/
theorem Reads.located_of_mem_postorder
    {table : LevelTable}
    {tokens : List Token}
    {node sub : Node}
    {file : String}
    (reads : Reads table tokens node)
    (inFile : ∀ token ∈ tokens, token.location.fileName = file)
    (there : sub ∈ node.postorder) :
    sub.location.fileName = file := by
  induction reads with
  | integer tagged reads =>
      obtain rfl := List.mem_singleton.mp there
      exact inFile _ List.mem_cons_self
  | group opens inner closes ih =>
      exact ih (fun token there => inFile token (by simp [there])) there
  | binary among separates leftReads rightReads covers ihLeft ihRight =>
      obtain ⟨_, whole⟩ := (Reads.binary among separates leftReads rightReads covers).denotes inFile
      rw [Node.postorder_binary] at there
      rcases List.mem_append.mp there with there | there
      · exact ihLeft (fun token there => inFile token (by simp [there])) there
      rcases List.mem_append.mp there with there | there
      · exact ihRight (fun token there => inFile token (by simp [there])) there
      · obtain rfl := List.mem_singleton.mp there
        exact whole.located

namespace CommandLine

open Arithmetic

/-- What is logged for a source, where logging is asked for. -/
def Source.log (options : Options) (source : Source) : Transcript :=
  match Arithmetic.tokens source.name (Text.strip source.text) with
  | .error _ => Log.write options (Log.parsing source)
  | .ok _ =>
      Log.write options (Log.parsing source) ++
        Log.write options (Log.composed LevelTable.default)

/-- The tree of a source, the text of which is read without its margin. -/
def Source.tree (source : Source) : Except Problem Node :=
  parseText LevelTable.default source.name (Text.strip source.text)

/-- What is written for the tree of a source. -/
def Source.outcome (options : Options) (source : Source) : Except Problem String := do
  let tree ← source.tree
  answer options tree

theorem process_eq
    (options : Options)
    (source : Source) :
    process options LevelTable.default source = (source.log options, source.outcome options) := by
  unfold process Source.log Source.outcome Source.tree parseText
  cases Arithmetic.tokens source.name (Text.strip source.text) <;> rfl

/-- Nothing is logged where logging is not asked for. -/
theorem log_eq_empty
    {options : Options}
    (quiet : options.isVerbose = false)
    (source : Source) :
    source.log options = .empty := by
  unfold Source.log Log.write
  rw [quiet]
  split <;> rfl

/-- A source whose name fits into a line and is not that of the unknown location. -/
structure Source.Named (source : Source) : Prop where
  oneLine : OneLine source.name
  known : source.name ≠ Location.unknownName

/-- Why there is no reply to a source: some number has more digits than the limit allows. -/
inductive Exceeds (options : Options) (source : Source) : Numeral.Error → Prop
  | unreadable
      {tokens : List Token}
      {token : Token}
      (lexes : Lexer.printableTokens source.name (Text.strip source.text) = .ok tokens)
      (there : token ∈ tokens)
      (tagged : token.tag = Tag.integer)
      (long : Numeral.digitLimit < token.text.length) :
      Exceeds options source (.tooLongToRead token.text.length)
  | unwritable
      {tree : Node}
      {value : Int}
      (evaluates : options.evaluates = true)
      (parses : source.tree = .ok tree)
      (evaluated : evaluate tree = .ok value)
      (long : Nat.pow 10 Numeral.digitLimit ≤ value.natAbs) :
      Exceeds options source .tooLongToWrite

/-- How a stage of a source may end: with a result, a diagnostic in it, or too many digits. -/
inductive Ends (options : Options) (source : Source) {α : Type} : Except Problem α → Prop
  | result
      (value : α) :
      Ends options source (.ok value)
  | reported
      {diagnostic : Diagnostic}
      (isIn : diagnostic.IsIn source.name) :
      Ends options source (.error (.reported diagnostic))
  | exceeds
      {error : Numeral.Error}
      (exceeds : Exceeds options source error) :
      Ends options source (.error (.breakdown (.numeral error)))

variable {options : Options}
variable {source : Source}

/-- A message of one line at a location in the source is a report. -/
theorem Ends.of_message
    {α : Type}
    {kind : Diagnostic.Kind}
    {location : Location}
    {message : String}
    (named : source.Named)
    (located : location.fileName = source.name)
    (kind_ne : kind ≠ .configuration)
    (oneLine : OneLine message) :
    Ends options source (.error (.reported ⟨kind, some location, message⟩) : Except Problem α) :=
  .reported (Diagnostic.isIn_of_message named.oneLine named.known located kind_ne oneLine)

theorem Ends.bind
    {α β : Type}
    {outcome : Except Problem α}
    {next : α → Except Problem β}
    (ends : Ends options source outcome)
    (nextEnds : ∀ value, outcome = .ok value → Ends options source (next value)) :
    Ends options source (outcome >>= next) := by
  cases ends with
  | result value => exact nextEnds value rfl
  | reported isIn => exact .reported isIn
  | exceeds exceeds => exact .exceeds exceeds

theorem tokens_ends
    (options : Options)
    (named : source.Named)
    (text : String) :
    Ends options source (Arithmetic.tokens source.name text) := by
  unfold Arithmetic.tokens Lexer.printableTokens
  cases lexes : Lexer.tokens source.name text with
  | ok tokens => exact .result _
  | error error =>
      obtain ⟨located, differs⟩ := Lexer.tokens_error lexes
      exact .of_message named located (by decide) (.append (by decide) (.singleton differs))

/-- An integer among the tokens of a text is unreadable only because it is too long. -/
theorem tooLong_of_unreadable
    {file text : String}
    {tokens : List Token}
    {token : Token}
    {error : Numeral.Error}
    (lexes : Lexer.printableTokens file text = .ok tokens)
    (there : token ∈ tokens)
    (tagged : token.tag = Tag.integer)
    (unreadable : Numeral.read token.text = .error error) :
    Numeral.digitLimit < token.text.length ∧ error = .tooLongToRead token.text.length := by
  obtain ⟨formed, _⟩ := Lexer.formed_of_mem_printableTokens lexes there
  have digits : ∀ c ∈ token.text.toList, c.isDigit = true := formed.all_inClass .integer tagged
  have read := Numeral.read_digits digits formed.chars_ne_nil
  rw [String.ofList_toList, unreadable, String.length_toList] at read
  split at read
  · exact ⟨‹_›, Except.error.inj read⟩
  · cases read

/-- The tree of a text was read from the tokens of the text, all of which are in the file. -/
theorem reads_of_tree
    {tree : Node}
    (parses : source.tree = .ok tree) :
    ∃ tokens,
      Reads LevelTable.default tokens tree ∧
      ∀ token ∈ tokens, token.location.fileName = source.name := by
  obtain ⟨tokens, lexes, parsed⟩ := Parser.bind_inv parses
  exact ⟨tokens, reads_of_parseWithin parsed,
    Lexer.fileName_of_mem_printableTokens (Parser.mapError_inv lexes)⟩

theorem tree_ends
    (options : Options)
    (named : source.Named) :
    Ends options source source.tree := by
  refine (tokens_ends options named _).bind fun tokens lexes => ?_
  have lexes := Parser.mapError_inv lexes
  have inFile := Lexer.fileName_of_mem_printableTokens lexes
  rcases parse_ends LevelTable.default inFile with
    ⟨tree, parses, _⟩ | ⟨location, message, fails, located, among⟩ |
    ⟨token, error, there, tagged, unreadable, fails⟩
  · rw [parses]
    exact .result tree
  · have oneLine : ∀ message ∈ syntaxMessages, OneLine message := by
      decide
    rw [fails]
    exact .of_message named located (by decide) (oneLine message among)
  · obtain ⟨long, rfl⟩ := tooLong_of_unreadable lexes there tagged unreadable
    rw [fails]
    exact .exceeds (.unreadable lexes there tagged long)

theorem evaluate_ends
    {tree : Node}
    (named : source.Named)
    (parses : source.tree = .ok tree) :
    Ends options source (evaluate tree) := by
  obtain ⟨tokens, reads, inFile⟩ := reads_of_tree parses
  obtain ⟨expr, denotes⟩ := reads.denotes inFile
  have ends := Evaluation.outcome_evaluate denotes.expr_eq
  unfold evaluate
  generalize tree.evaluate = outcome at ends
  cases ends with
  | value _ _ => exact .result _
  | undefined _ first =>
      have located := reads.located_of_mem_postorder inFile (List.mem_of_find?_eq_some first)
      exact .of_message named located (by decide) (by decide)

theorem answer_ends
    {tree : Node}
    (named : source.Named)
    (parses : source.tree = .ok tree) :
    Ends options source (answer options tree) := by
  unfold answer
  split
  · rename_i evaluates
    refine (evaluate_ends named parses).bind fun value evaluated => ?_
    cases written : Numeral.write value with
    | ok digits => exact .result _
    | error error =>
        obtain ⟨rfl, long⟩ := Numeral.write_error_inv written
        exact .exceeds (.unwritable evaluates parses evaluated long)
  · exact .result _

/-- Every source gets an answer or a report, unless some number has too many digits. -/
theorem outcome_ends
    (options : Options)
    (named : source.Named) :
    Ends options source (source.outcome options) :=
  (tree_ends options named).bind fun _ parses => answer_ends named parses

/-- What is written for a source, and whether it has been answered. -/
inductive Reply (options : Options) (source : Source) : Transcript × Bool → Prop
  | answered
      {text : String}
      (answers : source.outcome options = .ok text) :
      Reply options source (source.log options ++ .ofOutput text, true)
  | reported
      {diagnostic : Diagnostic}
      (fails : source.outcome options = .error (.reported diagnostic))
      (isIn : diagnostic.IsIn source.name) :
      Reply options source (source.log options ++ .ofReport diagnostic.report, false)

theorem perform_eq
    (options : Options)
    (source : Source) :
    perform options LevelTable.default source =
      match source.outcome options with
      | .ok text => (source.log options ++ .ofOutput text, .ok true)
      | .error (.reported diagnostic) =>
          (source.log options ++ .ofReport diagnostic.report, .ok false)
      | .error (.breakdown cause) => (source.log options, .error cause) := by
  unfold perform
  rw [process_eq]
  rcases source.outcome options with (_ | _) | _ <;> rfl

/-- There is a reply to every source, unless some number has too many digits. -/
theorem perform_ends
    (options : Options)
    (named : source.Named) :
    (∃ written isAnswered,
      Reply options source (written, isAnswered) ∧
      perform options LevelTable.default source = (written, .ok isAnswered)) ∨
    ∃ error,
      Exceeds options source error ∧
      perform options LevelTable.default source =
        (source.log options, .error (.numeral error)) := by
  have ends := outcome_ends options named
  rw [perform_eq]
  cases ran : source.outcome options with
  | ok text => exact .inl ⟨_, _, .answered ran, rfl⟩
  | error problem =>
      rw [ran] at ends
      cases ends with
      | reported isIn => exact .inl ⟨_, _, .reported ran isIn, rfl⟩
      | exceeds exceeds => exact .inr ⟨_, exceeds, rfl⟩

theorem strip_of_digits
    {chars : List Char}
    (digits : ∀ c ∈ chars, c.isDigit = true) :
    Text.strip (String.ofList chars) = String.ofList chars := by
  have keeps : ∀ {chars : List Char}, (∀ c ∈ chars, c.isDigit = true) →
      chars.dropWhile Text.isBlank = chars := by
    intro chars digits
    refine List.dropWhile_eq_self_iff.mpr fun positive => ?_
    simp [Numeral.not_isBlank_of_isDigit (digits _ (List.getElem_mem positive))]
  rw [Text.strip, String.toList_ofList, Text.stripChars, keeps digits,
    keeps fun c there => digits c (List.mem_reverse.mp there), List.reverse_reverse]

/-- Digits in a text of their own are an integer, which is not read if there are too many. -/
theorem tree_of_tooLong
    {chars : List Char}
    (name : String)
    (digits : ∀ c ∈ chars, c.isDigit = true)
    (long : Numeral.digitLimit < chars.length) :
    Source.tree ⟨name, String.ofList chars⟩ =
      .error (.breakdown (.numeral (.tooLongToRead chars.length))) := by
  have nonempty : chars ≠ [] := List.ne_nil_of_length_pos (Nat.zero_lt_of_lt long)
  have fails := Numeral.read_digits digits nonempty
  rw [if_pos long] at fails
  have formed : Lexer.Lexeme.Formed ⟨Tag.integer, chars⟩ := by
    obtain ⟨c, rest, rfl⟩ := List.exists_cons_of_ne_nil nonempty
    exact .run .integer digits
  obtain ⟨tokens, lexes, spelled, _⟩ :=
    Lexer.printableTokens_of_canonical name (.cons formed (by simp) .nil)
  obtain ⟨token, rfl, same⟩ := List.map_eq_singleton_iff.mp spelled
  obtain ⟨tagged, text⟩ := Lexer.Lexeme.mk.inj same
  have unreadable : Numeral.read token.text = .error (.tooLongToRead chars.length) := by
    rw [← fails, ← text, String.ofList_toList]
  rw [Lexer.charsOf_cons, Lexer.charsOf_nil, List.append_nil] at lexes
  unfold Source.tree parseText Arithmetic.tokens
  dsimp only
  rw [strip_of_digits digits, lexes]
  exact parse_of_unreadable tagged unreadable LevelTable.default name []

end CommandLine
end Precedence
