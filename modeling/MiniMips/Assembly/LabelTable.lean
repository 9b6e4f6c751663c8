import MiniMips.Assembly.ParseError

/-!
Contract: labels and the instruction indices they are bound to.

Owns: declaring a label, finding the index of a label and the label of an
index.

Declarations are kept in the order in which they were made.  A name is declared
at most once, so the first entry with a name is the only one.
-/

namespace MiniMips

structure LabelEntry where
  name : String
  /-- Index of the next instruction, which is the length of the program for a
  label after the last one. -/
  index : Nat
  /-- Line of the declaration, counted from one. -/
  line : Nat
deriving DecidableEq, Repr

/-- The declarations of a program, in order. -/
structure LabelTable where
  entries : List LabelEntry
deriving DecidableEq, Repr

namespace LabelTable

def empty : LabelTable where
  entries := []

def find? (table : LabelTable) (name : String) : Option LabelEntry :=
  table.entries.find? (fun entry => decide (entry.name = name))

def position? (table : LabelTable) (name : String) : Option Nat :=
  table.entries.findIdx? (fun entry => decide (entry.name = name))

/-- Bind a name to an instruction index.  A name that is bound already stays
as it is. -/
def declare (table : LabelTable) (name : String) (index line : Nat) :
    Except ParseError LabelTable :=
  match table.find? name with
  | some first => .error ⟨line, .duplicateLabel name first.line⟩
  | none => .ok ⟨table.entries ++ [⟨name, index, line⟩]⟩

def resolve? (table : LabelTable) (name : String) : Option Nat :=
  (table.find? name).map LabelEntry.index

/-- Name of the first declaration that is bound to an instruction index. -/
def nameAt? (table : LabelTable) (index : Nat) : Option String :=
  (table.entries.find? (fun entry => decide (entry.index = index))).map
    LabelEntry.name

end LabelTable

end MiniMips
