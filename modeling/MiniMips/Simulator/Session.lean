import MiniMips.Machine.Execution
import MiniMips.Simulator.Loading

/-!
Contract: a simulator, which keeps a source, its program and a machine
together.

Owns:
- the state of a simulator and the operations that replace its source;
- assembling the source, running it and stepping through it;
- the listings of what was assembled.

The machine is given the program anew for every instruction, so it never runs a
program that is not the installed one.  An operation that fails returns a
simulator all the same, which says what has become of it.
-/

namespace MiniMips

/-- How far the execution of a source has come. -/
inductive ExecutionState where
  /-- Nothing has been executed since the last reset. -/
  | idle
  /-- A run is under way.  No operation returns a simulator in this state. -/
  | running
  /-- A step or a breakpoint has stopped in the program. -/
  | paused
  /-- The program has ended or failed. -/
  | halted
deriving DecidableEq, Repr

namespace ExecutionState

def isRunning : ExecutionState → Bool
  | .running | .paused => true
  | .idle | .halted => false

def isPaused : ExecutionState → Bool
  | .paused => true
  | .idle | .running | .halted => false

end ExecutionState

structure Simulator where
  /-- The file that the source was loaded from last. -/
  fileName? : Option String
  source : String
  configuration : Configuration
  tokens : List Token
  program : Program
  machine : Machine
  state : ExecutionState

/-- What an operation returns: its result and the simulator after it. -/
structure Response where
  result : Except SimulatorError Unit
  simulator : Simulator

namespace Simulator

/-- A simulator over a source that is not assembled yet. -/
def new (source : String) (configuration : Configuration) : Simulator where
  fileName? := none
  source := source
  configuration := configuration
  tokens := []
  program := Program.empty
  machine := Machine.fresh configuration
  state := .idle

/-- Discard the program and reset the machine.  The source is kept. -/
def reset (simulator : Simulator) : Simulator :=
  { simulator with
    tokens := []
    program := Program.empty
    machine := Machine.fresh simulator.configuration
    state := .idle }

def setSource (simulator : Simulator) (source : String) : Simulator :=
  { simulator with source := source }.reset

/-- Replace the source by the text of a file and reset.  A file that cannot be
read changes nothing. -/
def loadFile (simulator : Simulator) (files : FileReader) (path : String) :
    Response :=
  match files.load path with
  | .error simulatorError => ⟨.error simulatorError, simulator⟩
  | .ok text =>
      ⟨.ok (), { simulator.setSource text with fileName? := some path }⟩

/-- Install what a source was assembled to.  The machine is left alone. -/
def install (simulator : Simulator) (assembled : Assembled) : Simulator :=
  { simulator with
    tokens := assembled.tokens
    program := assembled.program }

def withState (simulator : Simulator) (state : ExecutionState) : Simulator :=
  { simulator with state := state }

/-- Assemble the source and install the result.  Where the source is no
program, the program before it is kept. -/
def preProcess (simulator : Simulator) : Response :=
  match assemble simulator.source with
  | .error assemblyError =>
      ⟨.error assemblyError.simulatorError, simulator⟩
  | .ok assembled => ⟨.ok (), simulator.install assembled⟩

/-- Source line of the next instruction, and 1 where there is none. -/
def currentLine (simulator : Simulator) : Nat :=
  match simulator.program.instructions[simulator.machine.pc]? with
  | some instruction => instruction.line
  | none => 1

/-- Result of a run that ended in a given way.  The simulator is the one after
the run. -/
def runResult (simulator : Simulator) : RunEnd → Except SimulatorError Unit
  | .finished | .paused => .ok ()
  | .failed executionError => .error (.execution executionError)
  | .outOfBudget =>
      .error (.execution (.stepLimitExceeded
        (simulator.configuration.general.maxSteps?.getD 0)
        simulator.currentLine))

def stateAfterRun : RunEnd → ExecutionState
  | .paused => .paused
  | .finished | .failed _ | .outOfBudget => .halted

/-- Note how a run ended and count it.  The time it took is credited by
whoever measures it. -/
def finishRun (simulator : Simulator) (runEnd : RunEnd) : Response :=
  let stopped :=
    { simulator with
      machine := simulator.machine.recordRun 0
      state := stateAfterRun runEnd }
  ⟨stopped.runResult runEnd, stopped⟩

/-- Run the installed program from where the machine stands. -/
def runInstalled (fuel : Nat) (simulator : Simulator) : Option Response :=
  match simulator.machine.run simulator.program.instructions fuel
      simulator.configuration.general.maxSteps? with
  | none => none
  | some (runEnd, stopped) =>
      some ({ simulator with machine := stopped }.finishRun runEnd)

/-- Assemble the source and run it from where the machine stands, until it
ends, a breakpoint, a fault, or the end of the step budget.  There is no result
when `fuel` does not suffice for the run. -/
def run (fuel : Nat) (simulator : Simulator) : Option Response :=
  match simulator.preProcess with
  | ⟨.error simulatorError, unchanged⟩ =>
      some ⟨.error simulatorError, unchanged.withState .idle⟩
  | ⟨.ok (), installed⟩ => (installed.withState .running).runInstalled fuel

def advance (simulator : Simulator) : Response :=
  if simulator.program.size ≤ simulator.machine.pc then
    ⟨.ok (), simulator.withState .halted⟩
  else
    match simulator.machine.execute simulator.program.instructions with
    | .error executionError stopped =>
        ⟨.error (.execution executionError),
          { simulator with machine := stopped, state := .halted }⟩
    | .ok _ next =>
        ⟨.ok (), { simulator with machine := next, state := .paused }⟩

/-- Execute one instruction.  The source is assembled first unless execution
is under way. -/
def step (simulator : Simulator) : Response :=
  if simulator.state.isRunning then
    simulator.advance
  else
    match simulator.preProcess with
    | ⟨.error simulatorError, unchanged⟩ =>
        ⟨.error simulatorError, unchanged.withState .idle⟩
    | ⟨.ok (), installed⟩ => installed.advance

def clearLog (simulator : Simulator) : Simulator :=
  { simulator with machine := simulator.machine.clearLog }

def isRunning (simulator : Simulator) : Bool :=
  simulator.state.isRunning

def isPaused (simulator : Simulator) : Bool :=
  simulator.state.isPaused

/-! ## Listings -/

/-- Listing of the tokens, one to a line, below a heading. -/
def tokenListing (simulator : Simulator) : String :=
  "TOKENS\n" ++
    String.join (simulator.tokens.map (·.listingText ++ "\n"))

/-- Listing of the program, one instruction to a line, below a heading. -/
def instructionListing (simulator : Simulator) : String :=
  "INSTRUCTIONS\n" ++ simulator.program.listing

def listing (simulator : Simulator) : String :=
  simulator.tokenListing ++ simulator.instructionListing

end Simulator

end MiniMips
