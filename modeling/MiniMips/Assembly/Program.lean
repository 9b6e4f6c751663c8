import MiniMips.Assembly.Decoding
import MiniMips.Assembly.Lexing

/-!
Contract: programs and the token lists and texts they are assembled from.

Owns:
- the program: its instructions, whose positions are their addresses, and its
  labels;
- the program of a token list, made in three steps that each may refuse it:
  statements, then labels, then instructions;
- the program of a source text, and the program listing.

All labels are bound before any operand is read, so a label may be used before
its declaration.
-/

namespace MiniMips

/-- Instructions in address order, and the labels declared among them. -/
structure Program where
  instructions : Array Instruction
  labels : LabelTable
deriving DecidableEq

/-- Bind the labels among statements, the first of which has the address
`address`.  A label takes the address of the next instruction. -/
def LabelTable.ofStatements (table : LabelTable) (address : Nat) :
    List Statement → Except ParseError LabelTable
  | [] => .ok table
  | .label name line :: rest =>
      match table.declare name address line with
      | .error parseError => .error parseError
      | .ok extended => extended.ofStatements address rest
  | .instruction _ _ _ :: rest => table.ofStatements (address + 1) rest

/-- Decode the instructions among statements, the first of which has the
address `address`. -/
def Instruction.ofStatements (labels : LabelTable) (address : Nat) :
    List Statement → Except ParseError (List Instruction)
  | [] => .ok []
  | .label _ _ :: rest => Instruction.ofStatements labels address rest
  | .instruction mnemonic line tokens :: rest =>
      match Instruction.decode labels address mnemonic line tokens with
      | .error parseError => .error parseError
      | .ok instruction =>
          match Instruction.ofStatements labels (address + 1) rest with
          | .error parseError => .error parseError
          | .ok more => .ok (instruction :: more)

namespace Program

def empty : Program where
  instructions := #[]
  labels := LabelTable.empty

def size (program : Program) : Nat :=
  program.instructions.size

def ofStatements (statements : List Statement) : Except ParseError Program :=
  match LabelTable.empty.ofStatements 0 statements with
  | .error parseError => .error parseError
  | .ok labels =>
      match Instruction.ofStatements labels 0 statements with
      | .error parseError => .error parseError
      | .ok instructions => .ok ⟨instructions.toArray, labels⟩

def ofTokens (tokens : List Token) : Except ParseError Program :=
  match Statement.ofTokens tokens with
  | .error parseError => .error parseError
  | .ok statements => ofStatements statements

def listing (program : Program) : String :=
  String.join (program.instructions.toList.mapIdx Instruction.listingText)

end Program

inductive AssemblyError where
  | lex (lexError : LexError)
  | parse (parseError : ParseError)
deriving DecidableEq, Repr

/-- A source text read completely: its tokens and its program. -/
structure Assembled where
  tokens : List Token
  program : Program
deriving DecidableEq

/-- Read a source text. -/
def assemble (source : String) : Except AssemblyError Assembled :=
  match lex source with
  | .error lexError => .error (.lex lexError)
  | .ok tokens =>
      match Program.ofTokens tokens with
      | .error parseError => .error (.parse parseError)
      | .ok program => .ok ⟨tokens, program⟩

end MiniMips
