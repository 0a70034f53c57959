import Precedence.Proofs.Location.Order
import Precedence.Proofs.Token.Expression

/-!
# Where tokens stand

The lexer places its tokens one behind the other in the file that it reads: each begins where
the one before it ends, or at the beginning of the next line. So a token never begins before
another one in front of it ends, and this stays so when tokens are left out.
-/

namespace Precedence

namespace Token

/-- Where the token begins. -/
def start (token : Token) : Position :=
  token.location.span.start

/-- Where the token ends. -/
def stop (token : Token) : Position :=
  token.location.span.stop

end Token

/-- Tokens of a file from left to right, none of which begins before those in front end. -/
structure InOrder (file : String) (tokens : List Token) : Prop where
  located : ∀ token ∈ tokens,
    token.location = .ofPositions file token.start token.stop ∧ token.start ≤ token.stop
  ordered : tokens.Pairwise fun s t => s.stop ≤ t.start

namespace InOrder

variable {file : String}
variable {tokens part front back : List Token}

theorem of_sublist
    (inOrder : InOrder file tokens)
    (isPart : part.Sublist tokens) :
    InOrder file part :=
  ⟨fun token there => inOrder.located token (isPart.subset there), inOrder.ordered.sublist isPart⟩

theorem stop_le_start
    {token token' : Token}
    (inOrder : InOrder file (front ++ back))
    (there : token ∈ front)
    (there' : token' ∈ back) :
    token.stop ≤ token'.start :=
  (List.pairwise_append.mp inOrder.ordered).2.2 token there token' there'

end InOrder

namespace Lexer

variable {file text : String}
variable {start : Position}
variable {lexemes : List Lexeme}
variable {token : Token}
variable {found : List Token}

theorem stop_tokenAt_le_advance
    (file : String)
    (start : Position)
    (lexeme : Lexeme) :
    (tokenAt file start lexeme).stop ≤ advance start lexeme := by
  by_cases newline : lexeme.tag = Tag.newline
  · simp [Position.le_iff, advance, newline, Token.stop, tokenAt, locate, Location.ofPositions,
      Location.span]
  · simp [advance, newline, Token.stop, tokenAt, locate, Location.ofPositions, Location.span]

theorem start_le_advance
    (start : Position)
    (lexeme : Lexeme) :
    start ≤ advance start lexeme := by
  by_cases newline : lexeme.tag = Tag.newline <;> simp [Position.le_iff, advance, newline]

theorem start_le_of_mem_placed
    (there : token ∈ placed file start lexemes) :
    start ≤ token.start := by
  induction lexemes generalizing start with
  | nil => cases there
  | cons lexeme rest ih =>
      rcases List.mem_cons.mp there with rfl | there
      · exact le_refl start
      · exact (start_le_advance start lexeme).trans (ih there)

theorem inOrder_placed
    (file : String)
    (start : Position)
    (lexemes : List Lexeme) :
    InOrder file (placed file start lexemes) := by
  induction lexemes generalizing start with
  | nil => exact ⟨by simp [placed], by simp [placed]⟩
  | cons lexeme rest ih =>
      obtain ⟨located, ordered⟩ := ih (advance start lexeme)
      constructor
      · refine List.forall_mem_cons.mpr ⟨⟨rfl, ?_⟩, located⟩
        simp [Position.le_iff, Token.start, Token.stop, tokenAt, locate, Location.ofPositions,
          Location.span]
      · refine List.pairwise_cons.mpr ⟨fun token there => ?_, ordered⟩
        exact (stop_tokenAt_le_advance file start lexeme).trans (start_le_of_mem_placed there)

theorem exists_placed_of_tokens
    (lexes : tokens file text = .ok found) :
    ∃ lexemes, found = placed file Position.origin lexemes := by
  obtain ⟨segments, _⟩ := segments_of_tokens lexes
  exact ⟨_, Except.ok.inj (lexes.symm.trans (tokens_of_segments segments file))⟩

theorem inOrder_of_tokens
    (lexes : tokens file text = .ok found) :
    InOrder file found := by
  obtain ⟨lexemes, rfl⟩ := exists_placed_of_tokens lexes
  exact inOrder_placed file Position.origin lexemes

theorem inOrder_of_printableTokens
    (lexes : printableTokens file text = .ok found) :
    InOrder file found := by
  obtain ⟨whole, all, rfl⟩ := printableTokens_inv lexes
  exact (inOrder_of_tokens all).of_sublist List.filter_sublist

theorem fileName_of_mem_printableTokens
    (lexes : printableTokens file text = .ok found) :
    ∀ token ∈ found, token.location.fileName = file := by
  intro token there
  rw [((inOrder_of_printableTokens lexes).located token there).1]
  rfl

end Lexer
end Precedence
