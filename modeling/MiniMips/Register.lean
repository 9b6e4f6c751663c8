import MiniMips.Numeral

/-!
Contract: the thirty-two integer registers and their names.

Owns:
- the register indices and the conventional name of each;
- reading a register name, conventional or numeric, without its `$` mark;
- reading a register field of an instruction, which may name no register.

Does not own: register contents.
-/

namespace MiniMips

/-- One of the thirty-two integer registers. -/
abbrev Register := Fin 32

namespace Register

/-- The register that always holds zero. -/
def zero : Register := 0

def stackPointer : Register := 29

/-- The frame pointer, `$fp`, also known as `$s8`. -/
def framePointer : Register := 30

def returnAddress : Register := 31

def all : List Register := List.finRange 32

/-- Conventional names in index order. -/
def names : Vector String 32 :=
  #v["zero", "at", "v0", "v1", "a0", "a1", "a2", "a3",
    "t0", "t1", "t2", "t3", "t4", "t5", "t6", "t7",
    "s0", "s1", "s2", "s3", "s4", "s5", "s6", "s7",
    "t8", "t9", "k0", "k1", "gp", "sp", "fp", "ra"]

def name (register : Register) : String :=
  names.get register

def ofNat? (index : Nat) : Option Register :=
  if bound : index < 32 then some ⟨index, bound⟩ else none

/-- The register that a signed instruction field names, if it names one. -/
def ofField? (field : Int8) : Option Register :=
  match field.toInt with
  | .ofNat index => ofNat? index
  | .negSucc _ => none

/-- Text of an index that may name no register. -/
def nameOfIndex (index : Nat) : String :=
  ((ofNat? index).map name).getD "??"

/-- Read a register name written without its mark.

A name made of digits only is a register index in decimal.  Every other name
is compared without regard to the case of its ASCII letters, with the
conventional names and with `s8`, which is a second name of the frame
pointer. -/
def ofName? (text : List Char) : Option Register :=
  if text.all Char.isDigit then
    (Numeral.value? 10 text).bind ofNat?
  else
    let lowered := text.map Char.toLower
    if lowered = ['s', '8'] then
      some framePointer
    else
      all.find? (fun register => decide ((name register).toList = lowered))

end Register

end MiniMips
