import MiniMips.Proofs.Assembly.LineNumbers

/-!
Contract: what the labels of an accepted program are bound to.

Owns:
- the place of every label token in the label table, and the entry there;
- the order of the entries;
- names without a declaration;
- the label that an instruction carries, which is the first one at its
  address.
-/

namespace MiniMips

variable {tokens before after : List Token} {token : Token}
  {name : String} {address index : Nat}
  {program : Program} {entry : LabelEntry}

/-! ## Declarations -/

theorem Token.length_declarations (address : Nat) (tokens : List Token) :
    (declarations address tokens).length = tokens.countP isLabel := by
  rw [List.countP_eq_length_filter, ← List.length_map Token.line,
    ← lines_declarations address, List.length_map]

/-- As many entries stand before that of a label token as label tokens stand
before it. -/
theorem Token.getElem?_declarations (declares : token.kind = .label name) :
    (declarations address (before ++ token :: after))[before.countP isLabel]? =
      some ⟨name, address + mnemonicCount before, token.line⟩ := by
  rw [declarations_append, ← length_declarations address before,
    List.getElem?_append_right (Nat.le_refl _), Nat.sub_self, declarations,
    declares]
  rfl

theorem Token.le_index_of_mem_declarations
    (member : entry ∈ declarations address tokens) :
    address ≤ entry.index := by
  obtain ⟨_, _, _, _, _, _, counted⟩ := mem_declarations_iff.mp member
  rw [← counted]
  exact Nat.le_add_right _ _

theorem Token.pairwise_declarations (address : Nat) (tokens : List Token) :
    (declarations address tokens).Pairwise
      (fun entry next => entry.index ≤ next.index) := by
  induction tokens generalizing address with
  | nil => exact .nil
  | cons token tokens inductionHypothesis =>
      rw [declarations]
      cases token.kind with
      | label name =>
          exact .cons (fun _ later => le_index_of_mem_declarations later)
            (inductionHypothesis address)
      | mnemonic name => exact inductionHypothesis (address + 1)
      | _ => exact inductionHypothesis address

/-! ## Programs -/

namespace Program

/-- The label of an instruction is that of its address. -/
theorem label?_of_ofTokens (accepts : ofTokens tokens = .ok program)
    {instruction : Instruction}
    (present : program.instructions[index]? = some instruction) :
    instruction.label? = program.labels.nameAt? index := by
  obtain ⟨statements, _, _, _, denoted⟩ := ofTokens_eq_ok_iff.mp accepts
  rw [← Array.getElem?_toList] at present
  obtain ⟨_, _, _, _, denoted⟩ := denoted.exists_of_getElem? present
  rw [denoted.label, Nat.zero_add]

/-- **Labels.**  The table of a program lists its label tokens in their order,
each with its line and the number of mnemonics before it.  The names are
distinct, and the indices never decrease and are at most the number of
instructions.  A name is resolved to the index of its entry, and to none
without an entry.  An instruction carries the first label with its index, and
none where there is no such label. -/
theorem binds_labels (tokens : List Token) (program : Program)
    (accepts : ofTokens tokens = .ok program) :
    program.labels.entries.length = tokens.countP Token.isLabel ∧
    (∀ before token after name, tokens = before ++ token :: after →
      token.kind = .label name →
      program.labels.entries[before.countP Token.isLabel]? =
        some ⟨name, Token.mnemonicCount before, token.line⟩) ∧
    (program.labels.entries.map LabelEntry.name).Nodup ∧
    program.labels.entries.Pairwise
      (fun entry next => entry.index ≤ next.index) ∧
    (∀ entry ∈ program.labels.entries, entry.index ≤ program.size ∧
      program.labels.resolve? entry.name = some entry.index) ∧
    (∀ name, program.labels.resolve? name = none ↔
      ∀ token ∈ tokens, token.kind ≠ .label name) ∧
    ∀ index instruction, program.instructions[index]? = some instruction →
      (∀ name, instruction.label? = some name ↔
        ∃ before entry after,
          program.labels.entries = before ++ entry :: after ∧
          entry.name = name ∧ entry.index = index ∧
          ∀ earlier ∈ before, earlier.index ≠ index) ∧
      (instruction.label? = none ↔
        ∀ entry ∈ program.labels.entries, entry.index ≠ index) := by
  obtain ⟨_, _, table, distinct, _⟩ := ofTokens_eq_ok_iff.mp accepts
  have entries : program.labels.entries = Token.declarations 0 tokens :=
    congrArg LabelTable.entries table
  refine ⟨?_, ?_, distinct, ?_, ?_, ?_, ?_⟩
  · rw [entries, Token.length_declarations]
  · rintro before token after name rfl declares
    rw [entries, Token.getElem?_declarations declares, Nat.zero_add]
  · rw [entries]
    exact Token.pairwise_declarations 0 tokens
  · intro entry member
    have resolved := (LabelTable.resolve?_eq_some_iff distinct).mpr
      ⟨entry, member, rfl, rfl⟩
    exact ⟨le_size_of_resolve? accepts resolved, resolved⟩
  · intro name
    have declared : name ∈ program.labels.entries.map LabelEntry.name ↔
        ∃ token ∈ tokens, token.kind = .label name := by
      rw [entries]
      exact Token.mem_names_declarations_iff
    rw [LabelTable.resolve?, Option.map_eq_none_iff,
      LabelTable.find?_eq_none_iff, declared]
    simp
  · intro index instruction present
    rw [label?_of_ofTokens accepts present]
    exact ⟨fun name => LabelTable.nameAt?_eq_some_iff,
      LabelTable.nameAt?_eq_none_iff⟩

/-- Two labels before an instruction and one behind it, on the line of the
instruction. -/
theorem binds_labels_around :
    let tokens : List Token :=
      [⟨.label "a", "a:", 1⟩, ⟨.label "b", "b:", 2⟩, ⟨.mnemonic "j", "j", 2⟩,
        ⟨.symbol "end", "end", 2⟩, ⟨.label "end", "end:", 2⟩]
    ∃ program, ofTokens tokens = .ok program ∧
      program.labels.entries[1]? = some ⟨"b", 0, 2⟩ ∧
      program.labels.entries[2]? = some ⟨"end", 1, 2⟩ ∧
      program.labels.resolve? "B" = none := by
  intro tokens
  have accepted : (ofTokens tokens).toOption.isSome = true := by
    decide +kernel
  cases accepts : ofTokens tokens with
  | error parseError =>
      rw [accepts] at accepted
      contradiction
  | ok program =>
      obtain ⟨_, listed, _, _, _, undeclared, _⟩ :=
        binds_labels tokens program accepts
      refine ⟨program, rfl, ?_, ?_, (undeclared "B").mpr (by decide)⟩
      · exact listed (tokens.take 1) _ (tokens.drop 2) "b" rfl rfl
      · exact listed (tokens.take 4) _ [] "end" rfl rfl

end Program

end MiniMips
