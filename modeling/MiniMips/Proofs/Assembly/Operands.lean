import MiniMips.Assembly.Operand

/-!
Contract: operands and the token kinds that they are written with.

Owns:
- the grammar of operand tokens, and that grouping accepts exactly what is in
  it;
- the token kinds that spell an operand out, which the grammar has for it;
- joining two written lists of operands, and cutting one at a symbol.
-/

namespace MiniMips.Operand

/-- Operands and the kinds of the tokens that they are written with.  A number
directly before a parenthesis is always the offset of what follows. -/
inductive Written : List TokenKind → List Operand → Prop where
  | nil : Written [] []
  | register {kinds : List TokenKind} {operands : List Operand}
      (index : UInt8) (others : Written kinds operands) :
      Written (.register index :: kinds) (.register index :: operands)
  | immediate {kinds : List TokenKind} {operands : List Operand}
      (value : Int32) (noOffset : kinds.head? ≠ some .openParenthesis)
      (others : Written kinds operands) :
      Written (.immediate value :: kinds) (.immediate value :: operands)
  | symbol {kinds : List TokenKind} {operands : List Operand}
      (name : String) (others : Written kinds operands) :
      Written (.symbol name :: kinds) (.symbol name :: operands)
  | memory {kinds : List TokenKind} {operands : List Operand}
      (offset : Int32) (base : UInt8) (others : Written kinds operands) :
      Written
        (.immediate offset :: .openParenthesis :: .register base ::
          .closeParenthesis :: kinds)
        (.memory offset base :: operands)
  | bareMemory {kinds : List TokenKind} {operands : List Operand}
      (base : UInt8) (others : Written kinds operands) :
      Written
        (.openParenthesis :: .register base :: .closeParenthesis :: kinds)
        (.memory 0 base :: operands)

/-- The register that an operand names, if it names one. -/
def register? : Operand → Option UInt8
  | .register index | .memory _ index => some index
  | .immediate _ | .symbol _ => none

variable {kinds left right : List TokenKind}
  {operands first second : List Operand}

/-- **Grouping.**  Token kinds are grouped exactly where the grammar has
operands for them, and into these. -/
theorem ofKinds?_eq_some_iff :
    ofKinds? kinds = some operands ↔ Written kinds operands := by
  constructor
  · intro grouped
    fun_induction ofKinds? kinds generalizing operands with
    | case1 =>
        cases grouped
        exact .nil
    | case2 offset base rest inductionHypothesis =>
        obtain ⟨others, written, rfl⟩ := Option.map_eq_some_iff.mp grouped
        exact .memory offset base (inductionHypothesis written)
    | case4 base rest inductionHypothesis =>
        obtain ⟨others, written, rfl⟩ := Option.map_eq_some_iff.mp grouped
        exact .bareMemory base (inductionHypothesis written)
    | case5 index rest inductionHypothesis =>
        obtain ⟨others, written, rfl⟩ := Option.map_eq_some_iff.mp grouped
        exact .register index (inductionHypothesis written)
    | case6 value rest _ noOffset inductionHypothesis =>
        obtain ⟨others, written, rfl⟩ := Option.map_eq_some_iff.mp grouped
        refine .immediate value ?_ (inductionHypothesis written)
        intro opens
        obtain ⟨tail, rfl⟩ := List.head?_eq_some_iff.mp opens
        exact noOffset tail rfl
    | case7 name rest inductionHypothesis =>
        obtain ⟨others, written, rfl⟩ := Option.map_eq_some_iff.mp grouped
        exact .symbol name (inductionHypothesis written)
    | case3 | case8 => contradiction
  · intro written
    induction written with
    | nil => rfl
    | register index others inductionHypothesis =>
        simp [ofKinds?, inductionHypothesis]
    | @immediate kinds operands value noOffset others inductionHypothesis =>
        rw [ofKinds?, inductionHypothesis]
        · rfl
        · rintro base rest rfl
          exact noOffset rfl
        · rintro tail rfl
          exact noOffset rfl
    | symbol name others inductionHypothesis =>
        simp [ofKinds?, inductionHypothesis]
    | memory offset base others inductionHypothesis =>
        simp [ofKinds?, inductionHypothesis]
    | bareMemory base others inductionHypothesis =>
        simp [ofKinds?, inductionHypothesis]

/-- The token kinds that an operand is written with, its offset included. -/
def tokenKinds : Operand → List TokenKind
  | .register index => [.register index]
  | .immediate value => [.immediate value]
  | .symbol name => [.symbol name]
  | .memory offset base =>
      [.immediate offset, .openParenthesis, .register base, .closeParenthesis]

theorem not_startsStatement {operand : Operand} {token : Token}
    (member : token.kind ∈ operand.tokenKinds) :
    token.startsStatement = false := by
  unfold Token.startsStatement
  split
  next declares => cases operand <;> simp [tokenKinds, declares] at member
  next names => cases operand <;> simp [tokenKinds, names] at member
  next => rfl

theorem head?_tokenKinds (operands : List Operand) :
    (operands.flatMap Operand.tokenKinds).head? ≠ some .openParenthesis := by
  cases operands with
  | nil => simp
  | cons operand operands => cases operand <;> simp [Operand.tokenKinds]

/-- Operands can be written, one after the other. -/
theorem written_tokenKinds (operands : List Operand) :
    Written (operands.flatMap Operand.tokenKinds) operands := by
  induction operands with
  | nil => exact .nil
  | cons operand operands inductionHypothesis =>
      cases operand with
      | register index => exact .register index inductionHypothesis
      | immediate value =>
          exact .immediate value (head?_tokenKinds operands) inductionHypothesis
      | symbol name => exact .symbol name inductionHypothesis
      | memory offset base => exact .memory offset base inductionHypothesis

theorem Written.eq_nil (written : Written kinds []) : kinds = [] := by
  cases written with
  | nil => rfl

/-- Every register that an operand names is written as a register token. -/
theorem Written.register_mem (written : Written kinds operands)
    {operand : Operand} (member : operand ∈ operands) {index : UInt8}
    (named : operand.register? = some index) : .register index ∈ kinds := by
  induction written with
  | nil => simp at member
  | register _ others inductionHypothesis
  | immediate _ _ others inductionHypothesis
  | symbol _ others inductionHypothesis
  | memory _ _ others inductionHypothesis
  | bareMemory _ others inductionHypothesis =>
      rcases List.mem_cons.mp member with rfl | inRest
      · cases named <;> simp
      · simp [inductionHypothesis inRest]

/-- Operands may be written one after the other, unless a parenthesis would
take the last number of the first for its offset. -/
theorem Written.append (written : Written left first)
    (others : Written right second)
    (apart : right.head? ≠ some .openParenthesis) :
    Written (left ++ right) (first ++ second) := by
  induction written with
  | nil => exact others
  | register index _ inductionHypothesis =>
      exact .register index inductionHypothesis
  | @immediate kinds operands value noOffset _ inductionHypothesis =>
      refine .immediate value ?_ inductionHypothesis
      cases kinds with
      | nil => exact apart
      | cons kind kinds => exact noOffset
  | symbol name _ inductionHypothesis => exact .symbol name inductionHypothesis
  | memory offset base _ inductionHypothesis =>
      exact .memory offset base inductionHypothesis
  | bareMemory base _ inductionHypothesis =>
      exact .bareMemory base inductionHypothesis

/-- A symbol is an operand of its own wherever it stands. -/
theorem Written.cut_symbol {name : String}
    (written : Written (left ++ .symbol name :: right) operands) :
    ∃ first second, Written left first ∧ Written right second ∧
      operands = first ++ .symbol name :: second := by
  generalize whole : left ++ .symbol name :: right = kinds at written
  induction written generalizing left with
  | nil => simp at whole
  | register index _ inductionHypothesis =>
      cases left with
      | nil => simp at whole
      | cons head left =>
          obtain ⟨rfl, same⟩ := List.cons.inj whole
          obtain ⟨first, second, before, after, rfl⟩ := inductionHypothesis same
          exact ⟨.register index :: first, second, .register index before,
            after, rfl⟩
  | immediate value noOffset _ inductionHypothesis =>
      cases left with
      | nil => simp at whole
      | cons head left =>
          obtain ⟨rfl, rfl⟩ := List.cons.inj whole
          obtain ⟨first, second, before, after, rfl⟩ := inductionHypothesis rfl
          refine ⟨.immediate value :: first, second,
            .immediate value ?_ before, after, rfl⟩
          cases left with
          | nil => simp
          | cons kind left => exact noOffset
  | symbol other others inductionHypothesis =>
      cases left with
      | nil =>
          cases whole
          exact ⟨[], _, .nil, others, rfl⟩
      | cons head left =>
          obtain ⟨rfl, same⟩ := List.cons.inj whole
          obtain ⟨first, second, before, after, rfl⟩ := inductionHypothesis same
          exact ⟨.symbol other :: first, second, .symbol other before,
            after, rfl⟩
  | memory offset base _ inductionHypothesis =>
      rcases left with _ | ⟨_, _ | ⟨_, _ | ⟨_, _ | ⟨_, left⟩⟩⟩⟩ <;>
        simp at whole
      obtain ⟨rfl, rfl, rfl, rfl, same⟩ := whole
      obtain ⟨first, second, before, after, rfl⟩ := inductionHypothesis same
      exact ⟨.memory offset base :: first, second, .memory offset base before,
        after, rfl⟩
  | bareMemory base _ inductionHypothesis =>
      rcases left with _ | ⟨_, _ | ⟨_, _ | ⟨_, left⟩⟩⟩ <;> simp at whole
      obtain ⟨rfl, rfl, rfl, same⟩ := whole
      obtain ⟨first, second, before, after, rfl⟩ := inductionHypothesis same
      exact ⟨.memory 0 base :: first, second, .bareMemory base before,
        after, rfl⟩

end MiniMips.Operand
