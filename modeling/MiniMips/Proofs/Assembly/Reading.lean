import MiniMips.Proofs.Assembly.Tokens

/-!
Contract: a text is read step by step.

Owns:
- how far a text is read, and what one step of reading does;
- that every step leads towards the tokens or the fault of the whole text, and
  that reading comes to one of them.

Does not own: what a lexeme means.
-/

namespace MiniMips

/-- How far a text is read.  No line is begun before the first step. -/
structure Reading where
  /-- The number of the line that is being read. -/
  line : Nat
  /-- What is left of the code of this line. -/
  rest : List Char
  /-- Whether there was a bare name on this line. -/
  mnemonicSeen : Bool
  below : List (List Char)
  tokens : List Token
deriving DecidableEq

namespace Reading

variable {source : String} {reading next : Reading} {lexError : LexError}
  {tokens : List Token}

def start (source : String) : Reading :=
  ⟨0, [], false, linesOfText source.toList, []⟩

/-- The next line is begun. -/
def beginLine (reading : Reading) (text : List Char)
    (below : List (List Char)) : Reading :=
  ⟨reading.line + 1, codeOfLine text, false, below, reading.tokens⟩

def skip (reading : Reading) (rest : List Char) : Reading :=
  { reading with rest }

/-- A lexeme becomes a token. -/
def take (reading : Reading) (lexeme : Lexeme) (kind : TokenKind)
    (rest : List Char) : Reading :=
  { reading with
    rest
    mnemonicSeen := reading.mnemonicSeen || lexeme.isWord
    tokens := reading.tokens ++
      [⟨kind, String.ofList lexeme.text, reading.line⟩] }

/-- One step of reading.  There is none at the end of the text. -/
def step? (reading : Reading) : Option (Except LexError Reading) :=
  match reading.rest with
  | [] =>
      match reading.below with
      | [] => none
      | text :: below => some (.ok (reading.beginLine text below))
  | first :: rest =>
      if isSeparator first then
        some (.ok (reading.skip rest))
      else
        match (Lexeme.next first rest).1.tokenKind reading.mnemonicSeen with
        | .error fault => some (.error ⟨reading.line, fault⟩)
        | .ok kind =>
            some (.ok (reading.take (Lexeme.next first rest).1 kind
              (Lexeme.next first rest).2))

/-- What reading comes to. -/
def outcome (reading : Reading) : Except LexError (List Token) :=
  match Lexeme.tokens reading.line reading.mnemonicSeen
      (Lexeme.split reading.rest) with
  | .error lexError => .error lexError
  | .ok tokens =>
      match tokensOfLines (reading.line + 1) reading.below with
      | .error lexError => .error lexError
      | .ok more => .ok (reading.tokens ++ (tokens ++ more))

/-- How much is left to be read. -/
def size (reading : Reading) : Nat :=
  reading.rest.length + (reading.below.flatten.length + reading.below.length)

/-- The steps that reading a text takes lead here. -/
inductive Reached (source : String) : Reading → Prop where
  | start : Reached source (start source)
  | step {reading next : Reading} (earlier : Reached source reading)
      (step : reading.step? = some (.ok next)) : Reached source next

/-! ## One step -/

/-- Everything that a step can do. -/
theorem step?_cases {result : Except LexError Reading}
    (step : reading.step? = some result) :
    (∃ text below, reading.rest = [] ∧ reading.below = text :: below ∧
      result = .ok (reading.beginLine text below)) ∨
    (∃ first rest, reading.rest = first :: rest ∧
      isSeparator first = true ∧ result = .ok (reading.skip rest)) ∨
    ∃ first rest, reading.rest = first :: rest ∧
      isSeparator first = false ∧
      ((∃ fault, (Lexeme.next first rest).1.tokenKind reading.mnemonicSeen =
          .error fault ∧ result = .error ⟨reading.line, fault⟩) ∨
        ∃ kind, (Lexeme.next first rest).1.tokenKind reading.mnemonicSeen =
          .ok kind ∧
          result = .ok (reading.take (Lexeme.next first rest).1 kind
            (Lexeme.next first rest).2)) := by
  unfold step? at step
  split at step
  next ended =>
    split at step
    next => cases step
    next text below lines =>
      cases step
      exact .inl ⟨text, below, ended, lines, rfl⟩
  next first rest begins =>
    split at step
    next separates =>
      cases step
      exact .inr (.inl ⟨first, rest, begins, separates, rfl⟩)
    next lexical =>
      refine .inr (.inr ⟨first, rest, begins, Bool.eq_false_iff.mpr lexical, ?_⟩)
      split at step
      next fault fails =>
        cases step
        exact .inl ⟨fault, fails, rfl⟩
      next kind means =>
        cases step
        exact .inr ⟨kind, means, rfl⟩

/-- At a lexeme, its kind of token decides the step. -/
theorem step?_of_lexeme {first : Char} {rest back : List Char} {lexeme : Lexeme}
    (begins : reading.rest = first :: rest)
    (lexical : isSeparator first = false)
    (cut : Lexeme.next first rest = (lexeme, back)) :
    reading.step? =
      match lexeme.tokenKind reading.mnemonicSeen with
      | .error fault => some (.error ⟨reading.line, fault⟩)
      | .ok kind => some (.ok (reading.take lexeme kind back)) := by
  unfold step?
  rw [begins]
  dsimp only
  rw [lexical, if_neg Bool.false_ne_true, cut]

/-- A step does not change what reading comes to. -/
theorem outcome_of_step (step : reading.step? = some (.ok next)) :
    next.outcome = reading.outcome := by
  obtain ⟨text, below, ended, lines, result⟩ |
      ⟨first, rest, begins, separates, result⟩ |
      ⟨first, rest, begins, lexical, ⟨_, _, result⟩ | ⟨kind, means, result⟩⟩ :=
    step?_cases step
  · -- Nothing is left of the line, so all tokens that follow are of the lines
    -- below, and the first of these is the one that is begun.
    cases result
    unfold outcome beginLine
    rw [ended, lines, Lexeme.split, Lexeme.tokens, tokensOfLines, tokensOfLine]
    dsimp only
    cases Lexeme.tokens (reading.line + 1) false
        (Lexeme.split (codeOfLine text)) with
    | error lexError => rfl
    | ok tokens =>
        cases tokensOfLines (reading.line + 1 + 1) below <;> rfl
  · cases result
    unfold outcome skip
    rw [begins, Lexeme.split, if_pos separates]
  · cases result
  · cases result
    unfold outcome take
    rw [begins, Lexeme.split, lexical, if_neg Bool.false_ne_true,
      Lexeme.tokens, means]
    dsimp only
    cases Lexeme.tokens reading.line
        (reading.mnemonicSeen || (Lexeme.next first rest).1.isWord)
        (Lexeme.split (Lexeme.next first rest).2) with
    | error lexError => rfl
    | ok tokens =>
        cases tokensOfLines (reading.line + 1) reading.below with
        | error lexError => rfl
        | ok more =>
            dsimp only
            rw [List.append_assoc, List.singleton_append, List.cons_append]

theorem outcome_of_fault (step : reading.step? = some (.error lexError)) :
    reading.outcome = .error lexError := by
  obtain ⟨text, below, ended, lines, result⟩ |
      ⟨first, rest, begins, separates, result⟩ |
      ⟨first, rest, begins, lexical, ⟨fault, fails, result⟩ |
        ⟨kind, means, result⟩⟩ :=
    step?_cases step
  · cases result
  · cases result
  · cases result
    unfold outcome
    rw [begins, Lexeme.split, lexical, if_neg Bool.false_ne_true,
      Lexeme.tokens, fails]
  · cases result

theorem outcome_of_end (ended : reading.step? = none) :
    reading.outcome = .ok reading.tokens := by
  unfold step? at ended
  split at ended
  next noRest =>
    split at ended
    next noLines =>
      unfold outcome
      rw [noRest, noLines, Lexeme.split]
      show Except.ok (reading.tokens ++ ([] ++ [])) = _
      rw [List.append_nil, List.append_nil]
    next => cases ended
  next =>
    split at ended
    next => cases ended
    next => split at ended <;> cases ended

/-- Every step reads something. -/
theorem size_lt_of_step (step : reading.step? = some (.ok next)) :
    next.size < reading.size := by
  obtain ⟨text, below, ended, lines, result⟩ |
      ⟨first, rest, begins, separates, result⟩ |
      ⟨first, rest, begins, lexical, ⟨_, _, result⟩ | ⟨kind, means, result⟩⟩ :=
    step?_cases step
  · cases result
    have code : (codeOfLine text).length ≤ text.length :=
      (List.takeWhile_sublist _).length_le
    simp only [size, beginLine, lines, List.flatten_cons, List.length_append,
      List.length_cons]
    omega
  · cases result
    simp only [size, skip, begins, List.length_cons]
    omega
  · cases result
  · cases result
    have shorter := Lexeme.length_next_le first rest
    simp only [size, take, begins, List.length_cons]
    omega

/-! ## All steps -/

theorem outcome_start (source : String) :
    (start source).outcome = lex source := by
  show (match Lexeme.tokens 0 false (Lexeme.split []) with
    | .error lexError => .error lexError
    | .ok tokens =>
        match tokensOfLines 1 (linesOfText source.toList) with
        | .error lexError => .error lexError
        | .ok more => .ok ([] ++ (tokens ++ more))) = lex source
  rw [Lexeme.split, lex]
  cases tokensOfLines 1 (linesOfText source.toList) <;> rfl

/-- Wherever reading is, it comes to the tokens or the fault of the text. -/
theorem Reached.outcome_eq (reached : Reached source reading) :
    reading.outcome = lex source := by
  induction reached with
  | start => exact outcome_start source
  | step earlier step inductionHypothesis =>
      rw [outcome_of_step step, inductionHypothesis]

theorem Reached.lex_of_fault (reached : Reached source reading)
    (step : reading.step? = some (.error lexError)) :
    lex source = .error lexError := by
  rw [← reached.outcome_eq, outcome_of_fault step]

/-- What is read so far begins the tokens of the text. -/
theorem Reached.begins_tokens (reached : Reached source reading)
    (reads : lex source = .ok tokens) : reading.tokens <+: tokens := by
  rw [← reached.outcome_eq] at reads
  unfold outcome at reads
  split at reads
  next => cases reads
  next =>
    split at reads
    next => cases reads
    next =>
      cases reads
      exact List.prefix_append _ _

/-- Reading comes to an end or to a fault. -/
theorem Reached.exists_last (reached : Reached source reading) :
    ∃ last, Reached source last ∧
      (last.step? = none ∨ ∃ lexError, last.step? = some (.error lexError)) := by
  generalize left : reading.size = size
  induction size using Nat.strongRecOn generalizing reading with
  | ind size inductionHypothesis =>
      cases step : reading.step? with
      | none => exact ⟨reading, reached, .inl step⟩
      | some result =>
          cases result with
          | error lexError => exact ⟨reading, reached, .inr ⟨lexError, step⟩⟩
          | ok next =>
              refine inductionHypothesis next.size ?_ (reached.step step) rfl
              rw [← left]
              exact size_lt_of_step step

/-- The fault of a text is met. -/
theorem exists_fault_of_lex (fails : lex source = .error lexError) :
    ∃ last, Reached source last ∧ last.step? = some (.error lexError) := by
  obtain ⟨last, reached, ended | ⟨other, step⟩⟩ :=
    (@Reached.start source).exists_last
  · rw [← reached.outcome_eq, outcome_of_end ended] at fails
    cases fails
  · cases (reached.lex_of_fault step).symm.trans fails
    exact ⟨last, reached, step⟩

end Reading

end MiniMips
