import Mathlib.Logic.Equiv.Basic
import MiniMips.Proofs.Assembly.Variation

/-!
Contract: programs with their labels renamed.

Owns:
- renaming the labels of a program and of the faults that name one;
- that tokens with the names of labels exchanged for others, different names
  for different ones, are assembled to the program with its labels renamed, or
  refused for the same fault.

Does not own: the texts of operands that a fault quotes.  They are as they are
written.
-/

namespace MiniMips

/-- A token with its name exchanged, on the same line.  It may have been read
from any text. -/
structure Token.RenamedTo (rename : String → String) (token other : Token) :
    Prop where
  kind : other.kind = token.kind.rename rename
  line : other.line = token.line

def LabelEntry.rename (rename : String → String) (entry : LabelEntry) :
    LabelEntry :=
  { entry with name := rename entry.name }

def Instruction.rename (rename : String → String)
    (instruction : Instruction) : Instruction :=
  { instruction with label? := instruction.label?.map rename }

def Program.rename (rename : String → String) (program : Program) :
    Program where
  instructions := program.instructions.map (Instruction.rename rename)
  labels := ⟨program.labels.entries.map (LabelEntry.rename rename)⟩

/-- Rename the label that a fault is about. -/
def ParseFault.rename (rename : String → String) : ParseFault → ParseFault
  | .unresolvedLabel label => .unresolvedLabel (rename label)
  | .duplicateLabel label firstLine => .duplicateLabel (rename label) firstLine
  | fault => fault

/-- Leave out the tokens that a fault quotes. -/
def ParseFault.withoutQuote : ParseFault → ParseFault
  | .operandMismatch mnemonic expected _ =>
      .operandMismatch mnemonic expected ""
  | .expectedMnemonic _ => .expectedMnemonic ""
  | fault => fault

variable {rename : String → String} {tokens others : List Token}

/-- Other names for labels, on the same lines. -/
def Variation.renaming (rename : String → String)
    (injective : Function.Injective rename) : Variation where
  rename := rename
  line := Eq
  quote := fun _ _ => True
  injective := injective
  quote_intercalate := fun _ _ _ _ => trivial
  quote_operand := fun _ => trivial

variable {injective : Function.Injective rename}

theorem Program.rename_id (program : Program) : program.rename id = program := by
  have sameInstruction : ∀ instruction : Instruction,
      instruction.rename id = instruction := by
    intro instruction
    rw [Instruction.rename, Option.map_id, id]
  have sameEntry : ∀ entry : LabelEntry, entry.rename id = entry :=
    fun _ => rfl
  simp [rename, funext sameInstruction, funext sameEntry]

theorem Program.Corresponds.eq_rename {program other : Program}
    (corresponds : program.Corresponds (.renaming rename injective) other) :
    other = program.rename rename := by
  rcases program with ⟨⟨instructions⟩, ⟨entries⟩⟩
  rcases other with ⟨⟨otherInstructions⟩, ⟨otherEntries⟩⟩
  have sameInstructions : instructions.map (Instruction.rename rename) =
      otherInstructions.map id := by
    refine map_eq_map_of_forall₂ (corresponds.instructions.imp ?_)
    intro instruction otherInstruction each
    have sameLine : instruction.line = otherInstruction.line := each.line
    rw [each.same, ← sameLine]
    rfl
  have sameEntries : entries.map (LabelEntry.rename rename) =
      otherEntries.map id := by
    refine map_eq_map_of_forall₂ (List.Forall₂.imp ?_ corresponds.labels)
    intro entry otherEntry each
    cases otherEntry
    cases each.name
    cases each.index
    cases each.line
    rfl
  rw [List.map_id] at sameInstructions sameEntries
  simp only [Program.rename, List.map_toArray, sameInstructions, sameEntries]

theorem ParseError.Corresponds.withoutQuote_eq {parseError other : ParseError}
    (corresponds :
      parseError.Corresponds (.renaming rename injective) other) :
    other.line = parseError.line ∧
      other.fault.withoutQuote =
        (parseError.fault.rename rename).withoutQuote := by
  refine ⟨corresponds.line.symm, ?_⟩
  have faults := corresponds.fault
  generalize parseError.fault = fault at faults ⊢
  generalize other.fault = otherFault at faults ⊢
  cases faults with
  | duplicateLabel label line =>
      cases line
      rfl
  | _ => rfl

/-- Tokens with other names, on the same lines, are accepted or refused alike. -/
theorem Program.ofTokens_alike_of_renamed (injective : Function.Injective rename)
    (renamed : List.Forall₂ (Token.RenamedTo rename) tokens others) :
    AlikeOutcomes (ParseError.Corresponds (.renaming rename injective))
      (Program.Corresponds (.renaming rename injective)) (ofTokens tokens)
      (ofTokens others) := by
  refine ofTokens_alike (renamed.imp fun _ _ each =>
    ⟨each.kind, each.line.symm, trivial⟩) ?_
  intro before token otherBefore other _ _ relatedBefore corresponds
  refine Token.isStray_iff relatedBefore corresponds ?_
  intro _ start last otherStart otherLast _
  have starts := Token.rel_lastStart? relatedBefore
  rw [Option.mem_def.mp last, Option.mem_def.mp otherLast] at starts
  cases starts with
  | some correspondsStart =>
      have sameStart : start.line = otherStart.line := correspondsStart.line
      have sameToken : token.line = other.line := corresponds.line
      rw [sameStart, sameToken]

/-- **Renaming.**  Labels may have any other names, as long as different names
stay different: tokens with their names exchanged are accepted exactly where
the tokens are, as the program with its labels renamed.  Where they are refused
it is on the same line and for the same fault, about the renamed label. -/
theorem Program.ofTokens_renamed (injective : Function.Injective rename)
    (renamed : List.Forall₂ (Token.RenamedTo rename) tokens others) :
    ((∃ program, ofTokens tokens = .ok program) ↔
      ∃ program, ofTokens others = .ok program) ∧
    (∀ program, ofTokens tokens = .ok program →
      ofTokens others = .ok (program.rename rename)) ∧
    ∀ parseError, ofTokens tokens = .error parseError →
      ∃ other, ofTokens others = .error other ∧
        other.line = parseError.line ∧
        other.fault.withoutQuote =
          (parseError.fault.rename rename).withoutQuote := by
  rcases (ofTokens_alike_of_renamed injective renamed).error_or_ok with
    ⟨parseError, other, fails, failsToo, alike⟩ |
    ⟨program, other, accepts, acceptsToo, alike⟩
  · rw [fails, failsToo]
    refine ⟨by simp, by simp, ?_⟩
    rintro _ ⟨⟩
    exact ⟨other, rfl, alike.withoutQuote_eq⟩
  · rw [accepts, acceptsToo, alike.eq_rename]
    refine ⟨by simp, ?_, by simp⟩
    rintro _ ⟨⟩
    rfl

/-- A label may have the name of a mnemonic. -/
theorem Program.ofTokens_renamed_mnemonic :
    let exchange := Equiv.swap "loop" "j"
    let tokens : List Token :=
      [⟨.label "loop", "loop:", 1⟩, ⟨.mnemonic "j", "j", 2⟩,
        ⟨.symbol "loop", "loop", 2⟩]
    let others : List Token :=
      [⟨.label "j", "j:", 1⟩, ⟨.mnemonic "j", "j", 2⟩, ⟨.symbol "j", "j", 2⟩]
    ∃ program, ofTokens tokens = .ok program ∧
      ofTokens others = .ok (program.rename exchange) ∧
      (program.rename exchange).labels.resolve? "j" = some 0 := by
  intro exchange tokens others
  let program : Program :=
    ⟨#[{ Instruction.bare .j 2 with label? := some "loop" }],
      ⟨[⟨"loop", 0, 1⟩]⟩⟩
  have accepts : ofTokens tokens = .ok program := by
    decide +kernel
  have exchanged : exchange "loop" = "j" := Equiv.swap_apply_left "loop" "j"
  have renamed : List.Forall₂ (Token.RenamedTo exchange) tokens others := by
    refine .cons ⟨?_, rfl⟩ (.cons ⟨rfl, rfl⟩ (.cons ⟨?_, rfl⟩ .nil)) <;>
      simp only [TokenKind.rename, exchanged]
  obtain ⟨_, renames, _⟩ := ofTokens_renamed exchange.injective renamed
  refine ⟨program, accepts, renames program accepts, ?_⟩
  decide +kernel

end MiniMips
