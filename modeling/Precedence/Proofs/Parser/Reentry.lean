import Precedence.Proofs.Parser.Inversion

/-!
# Calls of forward parsers

A run of a parser calls forward parsers at certain readers (`Calls`), and it depends on them
only through these calls (`runWith_congr`). A fault of one of them ends the run: no
alternative and no repetition recovers from it (`runWith_escape`).

Where any number of calls may be open, a call runs the definition of its name with the same
calls again (`Unlimited`). A limit on the open calls only replaces what such a run ends with
(`callForward_agrees`), and it does so exactly when the run comes to open more calls at once
than the limit allows (`runWith_nestedTooDeeply_iff`).
-/

namespace Precedence
namespace Parser

variable {ν τ α β : Type} {ε : Type}

section Loop

theorem bind_congr_ok
    {x : Except ε α}
    {f g : α → Except ε β}
    (same : ∀ a, x = .ok a → f a = g a) :
    x >>= f = x >>= g := by
  cases x with
  | error fault => rfl
  | ok a => exact same a rfl

theorem bind_error_inv
    {x : Except ε α}
    {f : α → Except ε β}
    {fault : ε}
    (ran : (x >>= f) = .error fault) :
    x = .error fault ∨ ∃ a, x = .ok a ∧ f a = .error fault := by
  cases x with
  | error other =>
      cases ran
      exact .inl rfl
  | ok a => exact .inr ⟨a, rfl, ran⟩

variable {step step' : Reader → Except (Fault ε) (Result β)}
variable {combine : α → β → Location → Except (Fault ε) α}
variable {rounds : List Token}
variable {location : Location}
variable {value : α}
variable {reader place : Reader}
variable {fault : Fault ε}

/-- A loop comes to make its step at the last reader. -/
inductive Reaches (step : Reader → Except (Fault ε) (Result β))
    (combine : α → β → Location → Except (Fault ε) α) :
    List Token → Location → α → Reader → Reader → Prop
  | here
      {rounds : List Token}
      {location : Location}
      {value : α}
      {reader : Reader} :
      Reaches step combine rounds location value reader reader
  | next
      {round : Token}
      {rounds : List Token}
      {location here wider : Location}
      {value folded : α}
      {operand : β}
      {reader next place : Reader}
      (matching : step reader = .ok (.success here operand next))
      (covered : cover location here = (.ok wider : Except (Fault ε) Location))
      (combined : combine value operand wider = .ok folded)
      (later : Reaches step combine rounds wider folded next place) :
      Reaches step combine (round :: rounds) location value reader place

theorem foldFrom_congr
    (same : ∀ place, Reaches step combine rounds location value reader place →
      step' place = step place) :
    foldFrom step' combine rounds location value reader =
      foldFrom step combine rounds location value reader := by
  induction rounds generalizing location value reader with
  | nil =>
      rw [foldFrom, foldFrom, same reader .here]
  | cons round rounds ih =>
      rw [foldFrom, foldFrom, same reader .here]
      refine bind_congr_ok fun result matching => ?_
      cases result with
      | failure here message => rfl
      | success here operand next =>
          refine bind_congr_ok fun wider covered => ?_
          refine bind_congr_ok fun folded combined => ?_
          exact ih fun place reaches => same place (.next matching covered combined reaches)

/-- A fault of the step ends the loop. -/
theorem foldFrom_escape
    (agrees : ∀ place, step' place = .error fault ∨ step' place = step place)
    (reaches : Reaches step combine rounds location value reader place)
    (fails : step' place = .error fault) :
    foldFrom step' combine rounds location value reader = .error fault := by
  induction reaches with
  | @here rounds location value reader =>
      cases rounds <;> rw [foldFrom, fails] <;> rfl
  | next matching covered combined later ih =>
      rw [foldFrom]
      rcases agrees _ with stops | same
      · rw [stops]
        rfl
      · rw [same, matching]
        simp [bind, Except.bind, covered, combined, ih fails]

theorem eq_differentFiles_of_cover
    {a b : Location}
    (fails : cover a b = (.error fault : Except (Fault ε) Location)) :
    fault = .differentFiles := by
  unfold cover at fails
  split at fails
  · cases fails
  · cases fails
    rfl

/-- From the reader on the step matches more often than so many times in a row. -/
def Exceeds (step : Reader → Except (Fault ε) (Result β)) : Nat → Reader → Prop
  | 0, reader => ∃ here operand next, step reader = .ok (.success here operand next)
  | count + 1, reader =>
      ∃ here operand next, step reader = .ok (.success here operand next) ∧
        Exceeds step count next

/-- A fault of a loop is one of its step, of its action, or of its own. -/
theorem foldFrom_error_inv
    (ran : foldFrom step combine rounds location value reader = .error fault) :
    (∃ place, Reaches step combine rounds location value reader place ∧
      step place = .error fault) ∨
    fault = .differentFiles ∨ fault = .endless ∧ Exceeds step rounds.length reader ∨
      ∃ a b location, combine a b location = .error fault := by
  induction rounds generalizing location value reader with
  | nil =>
      rw [foldFrom] at ran
      rcases bind_error_inv ran with fails | ⟨result, matching, ran⟩
      · exact .inl ⟨reader, .here, fails⟩
      cases result with
      | failure here message => cases ran
      | success here operand next =>
          rcases bind_error_inv ran with fails | ⟨wider, covered, ran⟩
          · exact .inr (.inl (eq_differentFiles_of_cover fails))
          rcases bind_error_inv ran with fails | ⟨folded, combined, ran⟩
          · exact .inr (.inr (.inr ⟨_, _, _, fails⟩))
          · cases ran
            exact .inr (.inr (.inl ⟨rfl, here, operand, next, matching⟩))
  | cons round rounds ih =>
      rw [foldFrom] at ran
      rcases bind_error_inv ran with fails | ⟨result, matching, ran⟩
      · exact .inl ⟨reader, .here, fails⟩
      cases result with
      | failure here message => cases ran
      | success here operand next =>
          rcases bind_error_inv ran with fails | ⟨wider, covered, ran⟩
          · exact .inr (.inl (eq_differentFiles_of_cover fails))
          rcases bind_error_inv ran with fails | ⟨folded, combined, ran⟩
          · exact .inr (.inr (.inr ⟨_, _, _, fails⟩))
          rcases ih ran with ⟨place, reaches, fails⟩ | files | ⟨endless, exceeds⟩ | acted
          · exact .inl ⟨place, .next matching covered combined reaches, fails⟩
          · exact .inr (.inl files)
          · exact .inr (.inr (.inl ⟨endless, here, operand, next, matching, exceeds⟩))
          · exact .inr (.inr (.inr acted))

end Loop

/-- Running the parser at the reader calls the forward parser of the name at the place. -/
def Calls (call : ν → Reader → Except (Fault ε) (Result τ)) (name : ν) (place : Reader) :
    {α : Type} → Parser ν τ (Except (Fault ε)) α → Reader → Prop
  | _, .reserved _ _, _ => False
  | _, .tag _, _ => False
  | _, .fail _, _ => False
  | _, .forward other, reader => other = name ∧ reader = place
  | _, .phrase p, reader => Calls call name place p reader
  | _, .process p _, reader => Calls call name place p reader
  | _, .seq p q, reader =>
      Calls call name place p reader ∨
      ∃ here value middle, runWith call p reader = .ok (.success here value middle) ∧
        Calls call name place q middle
  | _, .orElse p q, reader =>
      Calls call name place p reader ∨
      (∃ here message, runWith call p reader = .ok (.failure here message)) ∧
        Calls call name place q reader
  | _, .rep p, reader =>
      ∃ middle,
        Reaches (runWith call p) (fun values value _ => collect values value) reader.rest
          reader.location [] reader middle ∧
        Calls call name place p middle
  | _, .leftRec p q combine, reader =>
      Calls call name place p reader ∨
      ∃ here value behind middle, runWith call p reader = .ok (.success here value behind) ∧
        Reaches (runWith call q) combine behind.rest here value behind middle ∧
        Calls call name place q middle

section Runs

variable {call call' : ν → Reader → Except (Fault ε) (Result τ)}
variable {p : Parser ν τ (Except (Fault ε)) α}
variable {reader : Reader}
variable {fault : Fault ε}

theorem onSuccess_congr
    {outcome outcome' : Except (Fault ε) (Result α)}
    {go go' : Location → α → Reader → Except (Fault ε) (Result β)}
    (first : outcome' = outcome)
    (second : ∀ here value next, outcome = .ok (.success here value next) →
      go' here value next = go here value next) :
    onSuccess outcome' go' = onSuccess outcome go := by
  subst first
  refine bind_congr_ok fun result ran => ?_
  cases result with
  | failure here message => rfl
  | success here value next => exact second here value next ran

theorem onSuccess_ok
    {here : Location}
    {value : α}
    {next : Reader}
    {go : Location → α → Reader → Except (Fault ε) (Result β)} :
    onSuccess (.ok (.success here value next)) go = go here value next :=
  rfl

theorem onSuccess_error_inv
    {outcome : Except (Fault ε) (Result α)}
    {go : Location → α → Reader → Except (Fault ε) (Result β)}
    (ran : onSuccess outcome go = .error fault) :
    outcome = .error fault ∨
    ∃ here value next, outcome = .ok (.success here value next) ∧
      go here value next = .error fault := by
  rcases bind_error_inv ran with fails | ⟨result, first, ran⟩
  · exact .inl fails
  cases result with
  | failure here message => cases ran
  | success here value next => exact .inr ⟨here, value, next, first, ran⟩

/-- A run depends on forward parsers only through the calls that it makes. -/
theorem runWith_congr
    (same : ∀ name place, Calls call name place p reader →
      call' name place = call name place) :
    runWith call' p reader = runWith call p reader := by
  induction p generalizing reader with
  | reserved tag text => rfl
  | tag tag => rfl
  | fail message => rfl
  | forward name => exact same name reader ⟨rfl, rfl⟩
  | phrase p ih =>
      rw [runWith, runWith, ih same]
  | process p action ih =>
      rw [runWith, runWith, ih same]
  | seq p q ihLeft ihRight =>
      rw [runWith, runWith]
      refine onSuccess_congr (ihLeft fun name place calls => same name place (.inl calls)) ?_
      intro here left middle ran
      refine onSuccess_congr (ihRight fun name place calls => ?_) fun _ _ _ _ => rfl
      exact same name place (.inr ⟨here, left, middle, ran, calls⟩)
  | orElse p q ihLeft ihRight =>
      rw [runWith, runWith, ihLeft fun name place calls => same name place (.inl calls)]
      refine bind_congr_ok fun result ran => ?_
      cases result with
      | success here value middle => rfl
      | failure here message =>
          exact ihRight fun name place calls =>
            same name place (.inr ⟨⟨here, message, ran⟩, calls⟩)
  | rep p ih =>
      rw [runWith, runWith, repeatFrom_eq_foldFrom, repeatFrom_eq_foldFrom]
      refine foldFrom_congr fun middle reaches => ih fun name place calls => ?_
      exact same name place ⟨middle, reaches, calls⟩
  | leftRec p q combine ihLeft ihRight =>
      rw [runWith, runWith]
      refine onSuccess_congr (ihLeft fun name place calls => same name place (.inl calls)) ?_
      intro here value behind ran
      refine foldFrom_congr fun middle reaches => ihRight fun name place calls => ?_
      exact same name place (.inr ⟨here, value, behind, middle, ran, reaches, calls⟩)

/-- Other calls, some of which end with a fault, end the run so or change nothing. -/
theorem runWith_agrees
    (agrees : ∀ name place, call' name place = .error fault ∨ call' name place = call name place) :
    (∃ name place, Calls call name place p reader ∧ call' name place = .error fault) ∨
      runWith call' p reader = runWith call p reader := by
  by_cases some : ∃ name place, Calls call name place p reader ∧ call' name place = .error fault
  · exact .inl some
  · refine .inr (runWith_congr fun name place calls => ?_)
    exact (agrees name place).resolve_left fun fails => some ⟨name, place, calls, fails⟩

/-- A fault of a call ends the run: nothing recovers from it. -/
theorem runWith_escape
    {name : ν}
    {place : Reader}
    (agrees : ∀ name place, call' name place = .error fault ∨ call' name place = call name place)
    (calls : Calls call name place p reader)
    (fails : call' name place = .error fault) :
    runWith call' p reader = .error fault := by
  induction p generalizing reader name place with
  | reserved tag text => cases calls
  | tag tag => cases calls
  | fail message => cases calls
  | forward other =>
      obtain ⟨rfl, rfl⟩ := calls
      exact fails
  | phrase p ih =>
      rw [runWith, ih calls fails]
      rfl
  | process p action ih =>
      rw [runWith, ih calls fails]
      rfl
  | seq p q ihLeft ihRight =>
      rw [runWith]
      rcases calls with calls | ⟨here, left, middle, ran, calls⟩
      · rw [ihLeft calls fails]
        rfl
      -- Either a call of the first parser ends the run already, or that one runs as before.
      rcases runWith_agrees agrees with ⟨_, _, earlier, stops⟩ | same
      · rw [ihLeft earlier stops]
        rfl
      · rw [same, ran, onSuccess_ok, ihRight calls fails]
        rfl
  | orElse p q ihLeft ihRight =>
      rw [runWith]
      rcases calls with calls | ⟨⟨here, message, ran⟩, calls⟩
      · rw [ihLeft calls fails]
        rfl
      rcases runWith_agrees agrees with ⟨_, _, earlier, stops⟩ | same
      · rw [ihLeft earlier stops]
        rfl
      · rw [same, ran]
        exact ihRight calls fails
  | rep p ih =>
      obtain ⟨middle, reaches, calls⟩ := calls
      rw [runWith, repeatFrom_eq_foldFrom]
      refine foldFrom_escape (fun place => ?_) reaches (ih calls fails)
      rcases runWith_agrees agrees with ⟨_, _, earlier, stops⟩ | same
      · exact .inl (ih earlier stops)
      · exact .inr same
  | leftRec p q combine ihLeft ihRight =>
      rw [runWith]
      rcases calls with calls | ⟨here, value, behind, middle, ran, reaches, calls⟩
      · rw [ihLeft calls fails]
        rfl
      rcases runWith_agrees agrees with ⟨_, _, earlier, stops⟩ | same
      · rw [ihLeft earlier stops]
        rfl
      · rw [same, ran, onSuccess_ok]
        refine foldFrom_escape (fun place => ?_) reaches (ihRight calls fails)
        rcases runWith_agrees agrees with ⟨_, _, earlier, stops⟩ | same
        · exact .inl (ihRight earlier stops)
        · exact .inr same

/-- Other calls, some of which end with a fault, end the run so or change nothing. -/
theorem runWith_error_or_eq
    (agrees : ∀ name place, call' name place = .error fault ∨ call' name place = call name place) :
    runWith call' p reader = .error fault ∨
      runWith call' p reader = runWith call p reader :=
  (runWith_agrees agrees).imp_left fun ⟨_, _, calls, fails⟩ => runWith_escape agrees calls fails

/-- The faults that a parser may raise by itself, whatever forward parsers do. -/
def MayRaise (fault : Fault ε) :
    {α : Type} → Parser ν τ (Except (Fault ε)) α → Prop
  | _, .phrase p => MayRaise fault p
  | _, .process p action =>
      MayRaise fault p ∨ ∃ value location, action value location = .error fault
  | _, .seq p q => fault = .differentFiles ∨ MayRaise fault p ∨ MayRaise fault q
  | _, .orElse p q => MayRaise fault p ∨ MayRaise fault q
  | _, .rep p => fault = .differentFiles ∨ fault = .endless ∨ MayRaise fault p
  | _, .leftRec p q combine =>
      fault = .differentFiles ∨ fault = .endless ∨ MayRaise fault p ∨ MayRaise fault q ∨
        ∃ a b location, combine a b location = .error fault
  | _, _ => False

theorem exists_call_mono
    {q : Parser ν τ (Except (Fault ε)) β}
    {reader' : Reader}
    (also : ∀ {name place}, Calls call name place p reader → Calls call name place q reader')
    (fails : ∃ name place, Calls call name place p reader ∧ call name place = .error fault) :
    ∃ name place, Calls call name place q reader' ∧ call name place = .error fault := by
  obtain ⟨name, place, calls, stops⟩ := fails
  exact ⟨name, place, also calls, stops⟩

/-- A fault that ends a run is raised by the parser itself or by a call. -/
theorem runWith_error_inv
    (ran : runWith call p reader = .error fault) :
    MayRaise fault p ∨
    ∃ name place, Calls call name place p reader ∧ call name place = .error fault := by
  induction p generalizing reader with
  | reserved tag text => cases ran
  | tag tag => cases ran
  | fail message => cases ran
  | forward name => exact .inr ⟨name, reader, ⟨rfl, rfl⟩, ran⟩
  | phrase p ih =>
      rw [runWith] at ran
      rcases onSuccess_error_inv ran with fails | ⟨_, _, _, _, fails⟩
      · exact ih fails
      · cases fails
  | process p action ih =>
      rw [runWith] at ran
      rcases onSuccess_error_inv ran with fails | ⟨here, value, _, _, fails⟩
      · exact (ih fails).imp_left .inl
      rcases bind_error_inv fails with acted | ⟨_, _, fails⟩
      · exact .inl (.inr ⟨value, here, acted⟩)
      · cases fails
  | seq p q ihLeft ihRight =>
      rw [runWith] at ran
      rcases onSuccess_error_inv ran with fails | ⟨here, left, middle, ranLeft, fails⟩
      · exact (ihLeft fails).imp (fun own => .inr (.inl own)) (exists_call_mono .inl)
      rcases onSuccess_error_inv fails with fails | ⟨there, right, stop, _, fails⟩
      · exact (ihRight fails).imp (fun own => .inr (.inr own))
          (exists_call_mono fun calls => .inr ⟨here, left, middle, ranLeft, calls⟩)
      rcases bind_error_inv fails with covered | ⟨_, _, fails⟩
      · exact .inl (.inl (eq_differentFiles_of_cover covered))
      · cases fails
  | orElse p q ihLeft ihRight =>
      rw [runWith] at ran
      rcases bind_error_inv ran with fails | ⟨result, ranLeft, fails⟩
      · exact (ihLeft fails).imp .inl (exists_call_mono .inl)
      cases result with
      | success here value next => cases fails
      | failure here message =>
          exact (ihRight fails).imp .inr
            (exists_call_mono fun calls => .inr ⟨⟨here, message, ranLeft⟩, calls⟩)
  | rep p ih =>
      rw [runWith, repeatFrom_eq_foldFrom] at ran
      rcases foldFrom_error_inv ran with
        ⟨middle, reaches, fails⟩ | files | ⟨endless, _⟩ | ⟨_, _, _, acted⟩
      · exact (ih fails).imp (fun own => .inr (.inr own))
          (exists_call_mono fun calls => ⟨middle, reaches, calls⟩)
      · exact .inl (.inl files)
      · exact .inl (.inr (.inl endless))
      · cases acted
  | leftRec p q combine ihLeft ihRight =>
      rw [runWith] at ran
      rcases onSuccess_error_inv ran with fails | ⟨here, value, behind, ranLeft, fails⟩
      · exact (ihLeft fails).imp (fun own => .inr (.inr (.inl own))) (exists_call_mono .inl)
      rcases foldFrom_error_inv fails with
        ⟨middle, reaches, fails⟩ | files | ⟨endless, _⟩ | acted
      · exact (ihRight fails).imp (fun own => .inr (.inr (.inr (.inl own))))
          (exists_call_mono fun calls => .inr ⟨here, value, behind, middle, ranLeft, reaches, calls⟩)
      · exact .inl (.inl files)
      · exact .inl (.inr (.inl endless))
      · exact .inl (.inr (.inr (.inr (.inr acted))))

end Runs

section Limits

variable {definitions : Definitions ν τ (Except (Fault ε))}
variable {call : ν → Reader → Except (Fault ε) (Result τ)}

/-- What calls do if any number of them may be open: each runs its definition with them. -/
def Unlimited (definitions : Definitions ν τ (Except (Fault ε)))
    (call : ν → Reader → Except (Fault ε) (Result τ)) : Prop :=
  ∀ name reader,
    call name reader =
      match definitions name with
      | none => .error .undefinedForward
      | some body => runWith call body reader

/-- A run of the parser at the reader comes to have so many calls open at once. -/
def Opens (definitions : Definitions ν τ (Except (Fault ε)))
    (call : ν → Reader → Except (Fault ε) (Result τ)) :
    Nat → {α : Type} → Parser ν τ (Except (Fault ε)) α → Reader → Prop
  | 0, _, _, _ => True
  | depth + 1, _, p, reader =>
      ∃ name place body, Calls call name place p reader ∧ definitions name = some body ∧
        Opens definitions call depth body place

theorem callForward_error_inv
    {limit : Nat}
    {name : ν}
    {reader : Reader}
    {fault : Fault ε}
    (ran : callForward definitions limit name reader = .error fault) :
    fault = .undefinedForward ∨ fault = .nestedTooDeeply ∨
      ∃ name body, definitions name = some body ∧ MayRaise fault body := by
  induction limit generalizing name reader with
  | zero =>
      rw [callForward] at ran
      cases defined : definitions name with
      | none =>
          rw [defined] at ran
          cases ran
          exact .inl rfl
      | some body =>
          rw [defined] at ran
          cases ran
          exact .inr (.inl rfl)
  | succ limit ih =>
      rw [callForward] at ran
      cases defined : definitions name with
      | none =>
          rw [defined] at ran
          cases ran
          exact .inl rfl
      | some body =>
          rw [defined] at ran
          rcases runWith_error_inv ran with own | ⟨_, _, _, deeper⟩
          · exact .inr (.inr ⟨name, body, defined, own⟩)
          · exact ih deeper

/-- A fault that ends a run is about a forward parser, or the parser or a definition raises it. -/
theorem run_error_inv
    {limit : Nat}
    {p : Parser ν τ (Except (Fault ε)) α}
    {reader : Reader}
    {fault : Fault ε}
    (ran : run definitions limit p reader = .error fault) :
    fault = .undefinedForward ∨ fault = .nestedTooDeeply ∨ MayRaise fault p ∨
      ∃ name body, definitions name = some body ∧ MayRaise fault body := by
  rcases runWith_error_inv ran with own | ⟨_, _, _, called⟩
  · exact .inr (.inr (.inl own))
  · exact (callForward_error_inv called).imp_right fun other => other.imp_right .inr

/-- A limit ends a call too early or changes nothing about it. -/
theorem callForward_agrees
    (unlimited : Unlimited definitions call)
    (limit : Nat)
    (name : ν)
    (reader : Reader) :
    callForward definitions limit name reader = .error .nestedTooDeeply ∨
      callForward definitions limit name reader = call name reader := by
  induction limit generalizing name reader with
  | zero =>
      rw [unlimited name reader, callForward]
      cases definitions name with
      | none => exact .inr rfl
      | some body => exact .inl rfl
  | succ limit ih =>
      rw [unlimited name reader, callForward]
      cases definitions name with
      | none => exact .inr rfl
      | some body => exact runWith_error_or_eq ih

section Exact

variable {p : Parser ν τ (Except (Fault ε)) α}
variable (unlimited : Unlimited definitions call)
variable (calm : ∀ name reader, call name reader ≠ .error .nestedTooDeeply)

include unlimited calm

theorem runWith_nestedTooDeeply_iff_calls
    (own : ¬ MayRaise .nestedTooDeeply p)
    (limit : Nat)
    (reader : Reader) :
    runWith (callForward definitions limit) p reader = .error .nestedTooDeeply ↔
      ∃ name place, Calls call name place p reader ∧
        callForward definitions limit name place = .error .nestedTooDeeply := by
  have agrees := callForward_agrees unlimited limit
  constructor
  · intro ran
    rcases runWith_agrees agrees with stopped | same
    · exact stopped
    · rw [same] at ran
      rcases runWith_error_inv ran with raised | ⟨name, place, _, fails⟩
      · exact absurd raised own
      · exact absurd fails (calm name place)
  · rintro ⟨name, place, calls, fails⟩
    exact runWith_escape agrees calls fails

theorem callForward_nestedTooDeeply_iff
    (bodies : ∀ name body, definitions name = some body → ¬ MayRaise .nestedTooDeeply body)
    (limit : Nat)
    (name : ν)
    (reader : Reader) :
    callForward definitions limit name reader = .error .nestedTooDeeply ↔
      ∃ body, definitions name = some body ∧ Opens definitions call limit body reader := by
  induction limit generalizing name reader with
  | zero =>
      rw [callForward]
      cases definitions name with
      | none => simp [throw, throwThe, MonadExceptOf.throw]
      | some body => simp [Opens, throw, throwThe, MonadExceptOf.throw]
  | succ limit ih =>
      rw [callForward]
      cases defined : definitions name with
      | none => simp [throw, throwThe, MonadExceptOf.throw]
      | some body =>
          rw [runWith_nestedTooDeeply_iff_calls unlimited calm (bodies name body defined)]
          simp only [ih, Opens, Option.some.injEq, exists_eq_left', exists_and_left]

/-- The limit ends exactly those runs that come to open more calls at once. -/
theorem runWith_nestedTooDeeply_iff
    (own : ¬ MayRaise .nestedTooDeeply p)
    (bodies : ∀ name body, definitions name = some body → ¬ MayRaise .nestedTooDeeply body)
    (limit : Nat)
    (reader : Reader) :
    runWith (callForward definitions limit) p reader = .error .nestedTooDeeply ↔
      Opens definitions call (limit + 1) p reader := by
  rw [runWith_nestedTooDeeply_iff_calls unlimited calm own]
  simp only [callForward_nestedTooDeeply_iff unlimited calm bodies, Opens, exists_and_left]

end Exact

end Limits

end Parser
end Precedence
