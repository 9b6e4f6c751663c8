import MiniMips.Column
import MiniMips.FixedPoint
import MiniMips.Opcode

/-!
Contract: what a machine counts, and the report on it.

Owns:
- the counters, and recording an executed instruction and a completed run;
- the report, with its shares and rates.

Does not own: measuring time.
-/

namespace MiniMips

/-- Counters of a machine.  Every executed instruction is counted once in
`retired` and once in the counter of its class. -/
structure Statistics where
  retired : Nat
  arithmetic : Nat
  logic : Nat
  shift : Nat
  load : Nat
  store : Nat
  branch : Nat
  jump : Nat
  control : Nat
  output : Nat
  /-- Branches whose condition held. -/
  branchesTaken : Nat
  branchesNotTaken : Nat
  breakpoints : Nat
  runs : Nat
  runNanoseconds : Nat
deriving DecidableEq, Repr

namespace Statistics

def zero : Statistics where
  retired := 0
  arithmetic := 0
  logic := 0
  shift := 0
  load := 0
  store := 0
  branch := 0
  jump := 0
  control := 0
  output := 0
  branchesTaken := 0
  branchesNotTaken := 0
  breakpoints := 0
  runs := 0
  runNanoseconds := 0

/-- Count an instruction in its class.  For a branch, `taken` tells whether its
condition held. -/
def recordClass (statistics : Statistics) (taken : Bool) :
    InstructionClass → Statistics
  | .arithmetic => { statistics with arithmetic := statistics.arithmetic + 1 }
  | .logic => { statistics with logic := statistics.logic + 1 }
  | .shift => { statistics with shift := statistics.shift + 1 }
  | .load => { statistics with load := statistics.load + 1 }
  | .store => { statistics with store := statistics.store + 1 }
  | .branch =>
      if taken then
        { statistics with
          branch := statistics.branch + 1
          branchesTaken := statistics.branchesTaken + 1 }
      else
        { statistics with
          branch := statistics.branch + 1
          branchesNotTaken := statistics.branchesNotTaken + 1 }
  | .jump => { statistics with jump := statistics.jump + 1 }
  | .control => { statistics with control := statistics.control + 1 }
  | .output => { statistics with output := statistics.output + 1 }

def record (statistics : Statistics) (instructionClass : InstructionClass)
    (taken : Bool) : Statistics :=
  { statistics with retired := statistics.retired + 1 }.recordClass taken
    instructionClass

def recordBreakpoint (statistics : Statistics) : Statistics :=
  { statistics with breakpoints := statistics.breakpoints + 1 }

def addRunTime (statistics : Statistics) (nanoseconds : Nat) : Statistics :=
  { statistics with
    runNanoseconds := statistics.runNanoseconds + nanoseconds }

/-- Count a run that returned, and the time it took. -/
def recordRun (statistics : Statistics) (nanoseconds : Nat) : Statistics :=
  { statistics with runs := statistics.runs + 1 }.addRunTime nanoseconds

/-! ## The report -/

def countAsFloat (count : Nat) : Float :=
  (UInt64.ofNat count).toFloat

def nanosecondsPerSecond : Nat := 1000000000

/-- Time spent in runs, in seconds: the whole seconds and the rest are turned
into doubles apart and then added. -/
def runSeconds (statistics : Statistics) : Float :=
  countAsFloat (statistics.runNanoseconds / nanosecondsPerSecond) +
    countAsFloat (statistics.runNanoseconds % nanosecondsPerSecond) /
      countAsFloat nanosecondsPerSecond

/-- Thousands of instructions per second, and zero where no time was spent. -/
def kiloInstructionsPerSecond (statistics : Statistics) : Float :=
  let seconds := statistics.runSeconds
  if countAsFloat 0 < seconds then
    countAsFloat statistics.retired / seconds / countAsFloat 1000
  else
    countAsFloat 0

/-- Share of a count in all executed instructions, in percent.  Where none was
executed the share is taken of one. -/
def share (statistics : Statistics) (count : Nat) : Float :=
  countAsFloat count / countAsFloat (max statistics.retired 1) *
    countAsFloat 100

/-- The counters of the instruction mix, with the names they are shown by. -/
def mix (statistics : Statistics) : List (String × Nat) :=
  [("op.arith", statistics.arithmetic),
    ("op.logic", statistics.logic),
    ("op.shift", statistics.shift),
    ("op.load", statistics.load),
    ("op.store", statistics.store),
    ("op.branch", statistics.branch),
    ("op.jump", statistics.jump),
    ("op.control", statistics.control),
    ("op.output", statistics.output)]

def mixLine (statistics : Statistics) (entry : String × Nat) : String :=
  "  " ++ Column.alignLeft 22 entry.1 ++ " " ++ Numeral.ofNat entry.2 ++ " (" ++
    FixedPoint.ofFloat 2 (statistics.share entry.2) ++ "%)"

/-- A line of the report in which one character is repeated. -/
def rule (character : Char) : String :=
  String.ofList (List.replicate 58 character)

def namedLine (name value : String) : String :=
  Column.alignLeft 25 name ++ value

def reportLines (statistics : Statistics) : List String :=
  ["",
    rule '=',
    "SIMULATION STATISTICS",
    rule '=',
    namedLine "host_seconds"
      (FixedPoint.ofFloat 6 statistics.runSeconds ++ " s"),
    namedLine "sim_runs" (Numeral.ofNat statistics.runs),
    namedLine "sim_insts" (Numeral.ofNat statistics.retired),
    namedLine "sim_kips"
      (FixedPoint.ofFloat 2 statistics.kiloInstructionsPerSecond),
    namedLine "sim_breakpoints" (Numeral.ofNat statistics.breakpoints),
    rule '-',
    "INSTRUCTION MIX"] ++
  statistics.mix.map statistics.mixLine ++
  [rule '-',
    "BRANCHES",
    namedLine "  branch.taken" (Numeral.ofNat statistics.branchesTaken),
    namedLine "  branch.not_taken" (Numeral.ofNat statistics.branchesNotTaken),
    rule '=']

def report (statistics : Statistics) : String :=
  String.join (statistics.reportLines.map (· ++ "\n"))

end Statistics

end MiniMips
