import MiniMips.Column
import MiniMips.Register

/-!
Contract: the contents of the integer registers.

Owns:
- reading and writing, where the zero register reads as zero and ignores
  writes;
- the table of all registers and the one-line summary of the non-zero ones.
-/

namespace MiniMips

/-- One thirty-two bit word for every register. -/
structure RegisterFile where
  cells : Vector Int32 32
deriving DecidableEq

namespace RegisterFile

/-- The file in which every register holds zero. -/
def zeroed : RegisterFile where
  cells := Vector.replicate 32 0

/-- Contents of a register.  The zero register reads as zero. -/
def read (file : RegisterFile) (register : Register) : Int32 :=
  if register = Register.zero then 0 else file.cells.get register

/-- Replace the contents of a register.  Writes to the zero register are
ignored. -/
def write (file : RegisterFile) (register : Register) (value : Int32) :
    RegisterFile :=
  if register = Register.zero then
    file
  else
    { cells := file.cells.set register value }

/-- One entry of the table: a marked name and its value, both in columns. -/
def entryText (file : RegisterFile) (register : Register) : String :=
  Column.alignLeft 6 ("$" ++ Register.name register) ++ "=" ++
    Column.alignRight 12 (Numeral.ofInt (file.read register).toInt) ++ "  "

/-- One line of the table: four consecutive registers. -/
def rowText (file : RegisterFile) (row : Fin 8) : String :=
  String.join ((List.finRange 4).map (fun column =>
    file.entryText ⟨4 * row.val + column.val, by omega⟩)) ++ "\n"

def text (file : RegisterFile) : String :=
  String.join ((List.finRange 8).map file.rowText)

/-- Names and values of the registers whose cell is not zero, on one line. -/
def summary (file : RegisterFile) : String :=
  let entries :=
    (Register.all.filter (fun register =>
      decide (file.cells.get register ≠ 0))).map (fun register =>
        "\"" ++ Register.name register ++ "\": " ++
          Numeral.ofInt (file.cells.get register).toInt)
  "\x7b" ++ ", ".intercalate entries ++ "\x7d"

end RegisterFile

end MiniMips
