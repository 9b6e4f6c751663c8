/-!
Contract: text set in columns of a fixed width.

Owns: padding with blanks on either side.  A text that is already as wide as
its column is never cut.
-/

namespace MiniMips.Column

/-- Push a text to the left edge of a column. -/
def alignLeft (width : Nat) (text : String) : String :=
  String.ofList (text.toList.rightpad width ' ')

/-- Push a text to the right edge of a column. -/
def alignRight (width : Nat) (text : String) : String :=
  String.ofList (text.toList.leftpad width ' ')

end MiniMips.Column
