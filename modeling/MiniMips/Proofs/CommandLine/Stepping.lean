import MiniMips.CommandLine.Transcript
import MiniMips.Proofs.Machine.Walk
import MiniMips.Proofs.Simulator.Running

/-!
Contract: the transcript of stepping.

Owns:
- what is to be printed after each instruction of a walk;
- how stepping ends after a walk: the steps are used up, the program has ended,
  or the next instruction fails;
- that stepping prints what is to be printed after each instruction, and ends
  in one of these ways.

The program keeps its place in a log that grows, and only notices that there is
nothing left to execute in the step after the last instruction.  A walk has the
entries of each instruction apart.
-/

namespace MiniMips

namespace CommandLine

variable {assembled : Assembled} {simulator stepped next : Simulator}
  {strides : List Machine.Stride} {reached : Machine} {remaining number : Nat}
  {printed : String} {configuration : Configuration} {files : FileReader}
  {invocation : Invocation} {source : String}

end CommandLine

end MiniMips
