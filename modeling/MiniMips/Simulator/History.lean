import MiniMips.Simulator.Session

/-!
Contract: histories of a simulator.

Owns:
- the calls that a simulator answers, as values, and its answers;
- the simulator after a list of calls, and the answers to them;
- the simulators that calls and direct access to their machines lead to.

A call of `run` carries the fuel of the run.  Where the fuel does not suffice
there is no answer, so a history with a run that does not return leads nowhere.
The files of a simulation may change between two calls, so every call that
reads one brings its own view of them.
-/

namespace MiniMips

/-- A call of an operation of a simulator. -/
inductive Call where
  | setSource (source : String)
  | loadFile (files : FileReader) (path : String)
  | reset
  | preProcess
  | run (fuel : Nat)
  | step
  | clearLog

namespace Simulator

def answer? (simulator : Simulator) : Call → Option Response
  | .setSource source => some ⟨.ok (), simulator.setSource source⟩
  | .loadFile files path => some (simulator.loadFile files path)
  | .reset => some ⟨.ok (), simulator.reset⟩
  | .preProcess => some simulator.preProcess
  | .run fuel => simulator.run fuel
  | .step => some simulator.step
  | .clearLog => some ⟨.ok (), simulator.clearLog⟩

/-- The simulator after calls, all of which were answered, in the order of the
list.  A call that failed is followed by the next one all the same. -/
def after? (simulator : Simulator) : List Call → Option Simulator
  | [] => some simulator
  | call :: rest =>
      match simulator.answer? call with
      | none => none
      | some response => response.simulator.after? rest

/-- Calls, all of which are answered, in the order of the list, each with its
answer. -/
def exchanges? (simulator : Simulator) :
    List Call → Option (List (Call × Response))
  | [] => some []
  | call :: rest =>
      match simulator.answer? call with
      | none => none
      | some response =>
          (response.simulator.exchanges? rest).map ((call, response) :: ·)

/-- The simulators over a configuration that calls lead to, with any direct
access to their machines in between, such as setting a register. -/
inductive Reachable (configuration : Configuration) : Simulator → Prop where
  | new (source : String) : Reachable configuration (new source configuration)
  | answered {simulator : Simulator} {call : Call} {response : Response}
      (before : Reachable configuration simulator)
      (answers : simulator.answer? call = some response) :
      Reachable configuration response.simulator
  | accessed {simulator : Simulator}
      (before : Reachable configuration simulator)
      (change : Machine → Machine) :
      Reachable configuration
        { simulator with machine := change simulator.machine }

end Simulator

end MiniMips
