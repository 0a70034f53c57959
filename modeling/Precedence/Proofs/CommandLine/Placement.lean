import Precedence.Proofs.CommandLine.Independence
import Precedence.Proofs.Token.Position

/-!
# Places in reports

A session takes the blanks off a text before it reads it, and what it reports about a text is
placed in what is left: at the first illegal character, or at the first token that the grammar
leaves over (`Concerns`). The blanks in front of a text are not counted. So the place is right for
the text as it is given exactly if there are none, or there is no line feed among them but one
behind them and in front of what is reported (`run_located`). Two blanks are enough to put it wrong
(`run_misplaced`).
-/

namespace Precedence

namespace Text

/-- The blanks in front of a text, which are taken off before it is read. -/
def margin (text : String) : List Char :=
  text.toList.takeWhile isBlank

theorem toList_eq_margin_append_strip
    (text : String) :
    ∃ behind, text.toList = margin text ++ (strip text).toList ++ behind := by
  have back := @List.takeWhile_append_dropWhile _ isBlank (text.toList.dropWhile isBlank).reverse
  have inner := congrArg List.reverse back
  rw [List.reverse_append, List.reverse_reverse] at inner
  refine ⟨((text.toList.dropWhile isBlank).reverse.takeWhile isBlank).reverse, ?_⟩
  rw [strip, stripChars, String.toList_ofList, List.append_assoc, inner, margin,
    List.takeWhile_append_dropWhile]

/-- What is in front of a line feed is not in the last line. -/
theorem lastLine_append_of_lineFeed
    (front : List Char)
    {back : List Char}
    (lineFeed : '\n' ∈ back) :
    lastLine (front ++ back) = lastLine back := by
  have stops : ¬ (back.reverse.takeWhile (· ≠ '\n')).length = back.reverse.length := by
    intro same
    have all := List.takeWhile_eq_self_iff.mp
      ((List.takeWhile_prefix _).eq_of_length same) '\n' (List.mem_reverse.mpr lineFeed)
    simp at all
  rw [lastLine, lastLine, List.reverse_append, List.takeWhile_append, if_neg stops]

theorem lastLine_of_not_mem
    {chars : List Char}
    (noLineFeed : '\n' ∉ chars) :
    lastLine chars = chars :=
  lastLine_append [] noLineFeed

end Text

namespace Position

/-- What a margin adds to the position behind a text. -/
theorem behind_append
    (margin before : List Char) :
    behind (margin ++ before) =
      ⟨(behind before).row + margin.count '\n',
        if '\n' ∈ before then (behind before).column
        else (behind before).column + (Text.lastLine margin).length⟩ := by
  unfold behind
  rw [List.count_append]
  split_ifs with lineFeed
  · rw [Text.lastLine_append_of_lineFeed margin lineFeed, mk.injEq]
    exact ⟨by push_cast; omega, rfl⟩
  · rw [Text.lastLine_append margin lineFeed, Text.lastLine_of_not_mem lineFeed, List.length_append,
      mk.injEq]
    exact ⟨by push_cast; omega, by push_cast; omega⟩

/-- A margin matters unless the last line is not that of the margin. -/
theorem behind_append_eq_iff
    (margin before : List Char) :
    behind (margin ++ before) = behind before ↔
      margin = [] ∨ '\n' ∉ margin ∧ '\n' ∈ before := by
  rw [behind_append]
  constructor
  · intro same
    have sameRow : (behind before).row + margin.count '\n' = (behind before).row :=
      congrArg row same
    have sameColumn := congrArg column same
    have noLineFeed : '\n' ∉ margin := List.count_eq_zero.mp (by omega)
    by_cases lineFeed : '\n' ∈ before
    · exact .inr ⟨noLineFeed, lineFeed⟩
    · dsimp only at sameColumn
      rw [if_neg lineFeed, Text.lastLine_of_not_mem noLineFeed] at sameColumn
      exact .inl (List.eq_nil_of_length_eq_zero (by omega))
  · rintro (rfl | ⟨noLineFeed, lineFeed⟩)
    · simp [Text.lastLine]
    · rw [List.count_eq_zero.mpr noLineFeed, if_pos lineFeed]
      simp

end Position

namespace Arithmetic

open Precedence.Parser Precedence.Lexer

variable {table : LevelTable}
variable {file text message : String}
variable {tokens : List Token}
variable {location : Location}
variable {diagnostic : Diagnostic}
variable {before piece : List Char}

/-- The grammar of a table takes some tokens, and leaves over what stands behind them. -/
def LeavesOver (table : LevelTable) (file : String) (front back : List Token) : Prop :=
  ∃ composed location tree next,
    grammar table = .ok composed ∧
    composed.run nestingLimit (.ofTokens file (front ++ back)) =
      .ok (.success location tree next) ∧
    (Reader.ofTokens file (front ++ back)).Passes front next ∧ next.rest = back

/--
What a diagnostic of a text is about, with the text in front of it: an illegal character, or
the first token that is left over.
-/
inductive Concerns (table : LevelTable) (file text : String) :
    Diagnostic → List Char → List Char → Prop
  | illegal
      {before after : List Char}
      {c : Char}
      (first : FirstIllegal text.toList before c after) :
      Concerns table file text
        ⟨.lexical, some (locationBehind file before 1), "illegal character: " ++ String.singleton c⟩
        before [c]
  | leftOver
      {front back : List Token}
      {token : Token}
      (lexes : Lexer.tokens file text = .ok (front ++ token :: back))
      (printable : token.isPrintable = true)
      (leavesOver : LeavesOver table file (front.filter Token.isPrintable)
        (token :: back.filter Token.isPrintable)) :
      Concerns table file text
        ⟨.grammatical,
          some (locationBehind file (charsOf (front.map lexemeOf)) token.text.length),
          garbageMessage⟩
        (charsOf (front.map lexemeOf)) token.text.toList

namespace Concerns

/-- What a diagnostic is about stands in the text. -/
theorem split
    (concerns : Concerns table file text diagnostic before piece) :
    ∃ behind, text.toList = before ++ piece ++ behind := by
  cases concerns with
  | illegal first => exact ⟨_, by rw [first.split, List.append_assoc]; rfl⟩
  | leftOver lexes => exact ⟨_, (location_of_mem_tokens lexes).1⟩

/-- The report begins with the file and the position behind the text before. -/
theorem report_eq
    (concerns : Concerns table file text diagnostic before piece) :
    ∃ others,
      diagnostic.report =
        file ++ ":" ++ toString (Position.behind before).row ++ "." ++
          toString (Position.behind before).column ++ "-" ++ others := by
  cases concerns <;>
  · simp only [Diagnostic.report, Diagnostic.place, locationBehind, Location.ofPositions,
      Location.render, String.append_assoc]
    exact ⟨_, rfl⟩

end Concerns

theorem concerns_of_tokens_error
    {problem : Problem}
    (table : LevelTable)
    (fails : Arithmetic.tokens file text = .error problem) :
    ∃ diagnostic before piece,
      problem = .reported diagnostic ∧ Concerns table file text diagnostic before piece := by
  rw [Arithmetic.tokens, printableTokens] at fails
  cases lexes : Lexer.tokens file text with
  | ok found =>
      rw [lexes] at fails
      cases fails
  | error error =>
      rw [lexes] at fails
      obtain ⟨before, after, first, located⟩ := location_of_tokens_error lexes
      refine ⟨error.diagnostic, before, [error.character], (Except.error.inj fails).symm, ?_⟩
      rw [Error.diagnostic, located]
      exact .illegal first

/-- What is reported about tokens is grammatical, and if it is garbage then what is left over. -/
theorem parse_error_inv
    (fails : parse table file tokens = .error (.reported diagnostic)) :
    diagnostic.kind = .grammatical ∧
    (diagnostic.message = garbageMessage →
      ∃ front token back,
        tokens = front ++ token :: back ∧ LeavesOver table file front (token :: back) ∧
        diagnostic = ⟨.grammatical, some token.location, garbageMessage⟩) := by
  change parseWithin nestingLimit table file tokens = _ at fails
  rw [parseWithin_eq] at fails
  cases ran : runWith (call table nestingLimit) (.phrase (parserOf table))
      (.ofTokens file tokens) with
  | error fault =>
      rw [ran] at fails
      have deep : Fault.nestedTooDeeply.message Numeral.Error.message ≠ garbageMessage := by
        decide
      cases fault <;> cases fails
      exact ⟨rfl, fun same => absurd same deep⟩
  | ok result =>
      rw [ran] at fails
      cases result with
      | success => cases fails
      | failure location message =>
          cases fails
          refine ⟨rfl, ?_⟩
          rintro rfl
          rw [runWith] at ran
          rcases onSuccess_inv ran with ⟨place, tree, next, ranStart, ran⟩ | ⟨_, _, ranStart, same⟩
          · obtain ⟨front, passes, _⟩ :=
              reads_of_parserOf (sound_call table nestingLimit) (fun _ there => there) ranStart
            have split : tokens = front ++ next.rest := passes.rest_eq
            cases remaining : next.rest with
            | nil =>
                rw [Reader.isEmpty, remaining] at ran
                cases ran
            | cons token back =>
                have located : next.location = token.location := by
                  rw [Reader.location, remaining]
                rw [Reader.isEmpty, remaining, located] at ran
                cases ran
                rw [remaining] at split
                refine ⟨front, token, back, split, ?_, rfl⟩
                rw [LeavesOver, ← split]
                exact ⟨_, place, tree, next, grammar_eq table, ranStart, passes, remaining⟩
          · cases same
            exact absurd (failure_of_parserOf ranStart).2.symm bottomMessage_ne_garbageMessage

theorem concerns_of_parse_error
    (lexes : Arithmetic.tokens file text = .ok tokens)
    (fails : parse table file tokens = .error (.reported diagnostic))
    (garbage : diagnostic.message = garbageMessage) :
    ∃ before piece, Concerns table file text diagnostic before piece := by
  obtain ⟨whole, all, rfl⟩ := printableTokens_inv (mapError_inv lexes)
  obtain ⟨front, token, back, split, leavesOver, rfl⟩ := (parse_error_inv fails).2 garbage
  -- The tokens that the grammar does not see belong to what is in front of the token, too.
  obtain ⟨first, others, rfl, rfl, ofOthers⟩ := List.filter_eq_append_iff.mp split
  obtain ⟨between, last, rfl, unseen, printable, rfl⟩ := List.filter_eq_cons_iff.mp ofOthers
  have seen : (first ++ between).filter Token.isPrintable = first.filter Token.isPrintable := by
    rw [List.filter_append, List.filter_eq_nil_iff.mpr unseen, List.append_nil]
  rw [← List.append_assoc] at all
  rw [← seen] at leavesOver
  rw [(location_of_mem_tokens all).2]
  exact ⟨_, _, .leftOver all printable leavesOver⟩

/-- What is reported about the value of a tree is a division, and not about its text. -/
theorem evaluate_error_inv
    {tree : Node}
    (fails : evaluate tree = .error (.reported diagnostic)) :
    diagnostic.kind = .evaluation ∧ diagnostic.message ≠ garbageMessage := by
  rw [evaluate] at fails
  cases evaluates : tree.evaluate with
  | ok value =>
      rw [evaluates] at fails
      cases fails
  | error error =>
      rw [evaluates] at fails
      cases error <;> cases fails
      exact ⟨rfl, (by decide : Evaluation.divisionMessage ≠ garbageMessage)⟩

end Arithmetic

namespace CommandLine

open Arithmetic

variable {options : Options}
variable {table : LevelTable}
variable {source : Source}
variable {diagnostic : Diagnostic}

theorem answer_error_inv
    {tree : Node}
    (fails : answer options tree = .error (.reported diagnostic)) :
    diagnostic.kind = .evaluation ∧ diagnostic.message ≠ Parser.garbageMessage := by
  rw [answer] at fails
  split_ifs at fails
  cases evaluates : evaluate tree with
  | error problem =>
      rw [evaluates] at fails
      cases fails
      exact evaluate_error_inv evaluates
  | ok value =>
      rw [evaluates] at fails
      cases writes : Numeral.write value <;> simp [writes, bind, Except.bind] at fails

/-- A report about an illegal character or garbage concerns the text without its margin. -/
theorem concerns_of_process_error
    (fails : (process options table source).2 = .error (.reported diagnostic))
    (ofText : diagnostic.kind = .lexical ∨ diagnostic.message = Parser.garbageMessage) :
    ∃ before piece,
      Concerns table source.name (Text.strip source.text) diagnostic before piece := by
  rw [process] at fails
  cases lexes : Arithmetic.tokens source.name (Text.strip source.text) with
  | error problem =>
      rw [lexes] at fails
      cases fails
      obtain ⟨_, before, piece, ⟨⟩, concerns⟩ := concerns_of_tokens_error table lexes
      exact ⟨before, piece, concerns⟩
  | ok tokens =>
      rw [lexes] at fails
      dsimp only at fails
      cases parses : parse table source.name tokens with
      | error problem =>
          rw [parses] at fails
          cases fails
          rcases ofText with lexical | garbage
          · cases (parse_error_inv parses).1.symm.trans lexical
          · exact concerns_of_parse_error lexes parses garbage
      | ok tree =>
          rw [parses] at fails
          obtain ⟨ofValue, notGarbage⟩ := answer_error_inv fails
          rcases ofText with lexical | garbage
          · cases ofValue.symm.trans lexical
          · exact absurd garbage notGarbage

/-- What a session writes is what it writes for its sources, up to one that ends it. -/
theorem performAll_processed
    (options : Options)
    (table : LevelTable)
    (sources : List Source) :
    ∃ processed waiting,
      sources = processed ++ waiting ∧
      (performAll options table sources).1 =
        .join (processed.map fun source => (perform options table source).1) ∧
      (waiting = [] ∨ ∃ cause, (performAll options table sources).2 = .error cause) := by
  induction sources with
  | nil => exact ⟨[], [], rfl, rfl, .inl rfl⟩
  | cons source sources ih =>
      obtain ⟨processed, waiting, rfl, written, stops⟩ := ih
      cases performed : perform options table source with
      | mk first outcome =>
          cases outcome with
          | error cause =>
              refine ⟨[source], processed ++ waiting, rfl, ?_, .inr ⟨cause, ?_⟩⟩
              · rw [performAll, performed, List.map_singleton, performed, Transcript.join,
                  Transcript.join, Transcript.append_empty]
              · rw [performAll, performed]
          | ok isAnswered =>
              refine ⟨source :: processed, waiting, rfl, ?_, stops.imp_right ?_⟩
              · rw [performAll, performed, List.map_cons, performed, Transcript.join, ← written]
              · rintro ⟨cause, ends⟩
                refine ⟨cause, ?_⟩
                rw [performAll, performed]
                dsimp only
                rw [ends]
                rfl

theorem perform_of_reported
    (fails : (process options table source).2 = .error (.reported diagnostic)) :
    (perform options table source).1 =
      (process options table source).1 ++ .ofReport diagnostic.report := by
  rw [perform]
  generalize process options table source = processed at fails ⊢
  obtain ⟨log, outcome⟩ := processed
  cases fails
  rfl

theorem process_of_illegal
    {error : Lexer.Error}
    (lexes : Lexer.tokens source.name (Text.strip source.text) = .error error)
    (options : Options)
    (table : LevelTable) :
    process options table source =
      (Log.write options (Log.parsing source), .error (.reported error.diagnostic)) := by
  rw [process, Arithmetic.tokens, Lexer.printableTokens, lexes]
  rfl

/--
What a session reports of a source about an illegal character or garbage begins with the row and
the column of that character, or of the first token that the grammar leaves over, in the text
without its margin. In the text as it is given the same stands at this position exactly if there
is no margin, or no line feed in the margin but one behind it and in front of what is reported.
-/
theorem run_located
    (words : List String)
    (options : Options)
    (environment : Environment)
    (input : String)
    (log : Transcript)
    (table : LevelTable)
    (accepted : Options.ofWords words = .ok options)
    (loaded : loadTable options environment = .ok (log, table)) :
    (∃ processed waiting,
      Source.ofOptions options input = processed ++ waiting ∧
      (run words environment input).1 =
        log ++ .join (processed.map fun source => (perform options table source).1) ∧
      (waiting = [] ∨ ∃ cause, (run words environment input).2 = .breakdown cause)) ∧
    ∀ source diagnostic,
      (process options table source).2 = .error (.reported diagnostic) →
      (perform options table source).1 =
        (process options table source).1 ++ .ofReport diagnostic.report ∧
      (diagnostic.kind = .lexical ∨ diagnostic.message = Parser.garbageMessage →
        ∃ before piece behind others,
          Concerns table source.name (Text.strip source.text) diagnostic before piece ∧
          diagnostic.report =
            source.name ++ ":" ++ toString (Position.behind before).row ++ "." ++
              toString (Position.behind before).column ++ "-" ++ others ∧
          source.text.toList = Text.margin source.text ++ before ++ piece ++ behind ∧
          (Position.behind (Text.margin source.text ++ before) = Position.behind before ↔
            Text.margin source.text = [] ∨
            '\n' ∉ Text.margin source.text ∧ '\n' ∈ before)) := by
  constructor
  · obtain ⟨processed, waiting, split, written, stops⟩ :=
      performAll_processed options table (Source.ofOptions options input)
    refine ⟨processed, waiting, split, ?_, stops.imp_right ?_⟩
    · rw [run_eq_session accepted, session_of_loaded loaded, written]
    · rintro ⟨cause, ends⟩
      refine ⟨cause, ?_⟩
      rw [run_eq_session accepted, session_of_loaded loaded, ends]
      rfl
  · intro source diagnostic fails
    refine ⟨perform_of_reported fails, fun ofText => ?_⟩
    obtain ⟨before, piece, concerns⟩ := concerns_of_process_error fails ofText
    obtain ⟨others, report⟩ := concerns.report_eq
    obtain ⟨behind, stripped⟩ := concerns.split
    obtain ⟨trail, given⟩ := Text.toList_eq_margin_append_strip source.text
    refine ⟨before, piece, behind ++ trail, others, concerns, report, ?_,
      Position.behind_append_eq_iff _ _⟩
    rw [given, stripped]
    simp only [List.append_assoc]

/-- Without a margin a dollar sign is reported where it is. -/
theorem run_located_dollar :
    let source : Source := ⟨"<arg0>", "2 $"⟩
    let options : Options := ⟨["2 $"], false, .standard, false⟩
    let diagnostic := Lexer.Error.diagnostic ⟨.ofPositions "<arg0>" ⟨1, 3⟩ ⟨1, 4⟩, '$'⟩
    Options.ofWords ["2 $"] = .ok options ∧
    (process options LevelTable.default source).2 = .error (.reported diagnostic) ∧
    ∃ before piece behind,
      Concerns LevelTable.default "<arg0>" (Text.strip "2 $") diagnostic before piece ∧
      "2 $".toList = Text.margin "2 $" ++ before ++ piece ++ behind ∧
      Position.behind (Text.margin "2 $" ++ before) = Position.behind before := by
  intro source options diagnostic
  have accepted : Options.ofWords ["2 $"] = .ok options := ofWords_of_plain (by decide)
  have lexes : Lexer.tokens source.name (Text.strip source.text) =
      .error ⟨.ofPositions "<arg0>" ⟨1, 3⟩ ⟨1, 4⟩, '$'⟩ := by
    cbv
  have fails : (process options LevelTable.default source).2 = .error (.reported diagnostic) :=
    congrArg Prod.snd (process_of_illegal lexes options LevelTable.default)
  obtain ⟨-, reports⟩ := run_located ["2 $"] options .bare "" .empty
    LevelTable.default accepted rfl
  obtain ⟨before, piece, behind, _, concerns, _, split, right⟩ :=
    (reports source diagnostic fails).2 (.inl rfl)
  exact ⟨accepted, fails, before, piece, behind, concerns, split, right.mpr (.inl (by decide))⟩

/-- Behind two blanks the only dollar sign is in the fifth column and reported in the third one. -/
theorem run_misplaced :
    run ["  1 $"] .bare "" =
      (.ofReport "<arg0>:1.3-1.4: lexical error: illegal character: $", .status 1) ∧
    "  1 $".toList = "  1 ".toList ++ ['$'] ∧ '$' ∉ "  1 ".toList ∧
    Position.behind "  1 ".toList = ⟨1, 5⟩ := by
  have accepted : Options.ofWords ["  1 $"] = .ok ⟨["  1 $"], false, .standard, false⟩ :=
    ofWords_of_plain (by decide)
  have lexes : Lexer.tokens (Source.name ⟨"<arg0>", "  1 $"⟩) (Text.strip "  1 $") =
      .error ⟨.ofPositions "<arg0>" ⟨1, 3⟩ ⟨1, 4⟩, '$'⟩ := by
    cbv
  have processed := @process_of_illegal ⟨"<arg0>", "  1 $"⟩ _ lexes
    ⟨["  1 $"], false, .standard, false⟩ LevelTable.default
  have given : Source.ofOptions ⟨["  1 $"], false, .standard, false⟩ "" =
      [⟨"<arg0>", "  1 $"⟩] := by
    cbv
  refine ⟨?_, by decide, by decide, by decide⟩
  rw [run_of_accepted accepted rfl, given, performAll, perform, processed]
  rfl

end CommandLine

end Precedence
