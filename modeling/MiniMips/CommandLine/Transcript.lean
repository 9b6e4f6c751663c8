import MiniMips.CommandLine.Invocation
import MiniMips.Json.Decoding
import MiniMips.Simulator.Session

/-!
Contract: what the commands print.

Owns:
- the transcript of a command: its output, its diagnostics and its exit code;
- the transcripts of running, stepping and listing;
- the transcript of an invocation, given the files it reads, of which the
  configuration is read with the library of documents as trees.

The time that a run takes is only known after it, so the transcript of an
invocation is a function of that time.
-/

namespace MiniMips.CommandLine

/-- What a command leaves behind. -/
structure Transcript where
  output : String
  diagnostics : String
  exitCode : Nat
deriving DecidableEq, Repr

def Transcript.success (output : String) : Transcript where
  output := output
  diagnostics := ""
  exitCode := 0

def Transcript.failure (output : String) (simulatorError : SimulatorError) :
    Transcript where
  output := output
  diagnostics := "error: " ++ simulatorError.message ++ "\n"
  exitCode := 1

def logText (entries : List LogEntry) : String :=
  String.join (entries.map (·.text ++ "\n"))

def restText (simulator : Simulator) : String :=
  if simulator.isPaused then
    "\n[*] Paused before line " ++ Numeral.ofNat simulator.currentLine ++ "\n"
  else
    "\n[*] Halted\n"

/-- The transcript of a run.  A run that fails still shows its output and the
state it has reached. -/
def runTranscript (showStatistics : Bool) (response : Response)
    (nanoseconds : Nat) : Transcript :=
  let machine := response.simulator.machine
  let output := logText machine.log.toList
  match response.result with
  | .error simulatorError =>
      let failure := Transcript.failure (output ++ machine.dump) simulatorError
      { failure with
        diagnostics :=
          "\n[!] FATAL: " ++ simulatorError.message ++ "\n" ++
            failure.diagnostics }
  | .ok () =>
      let report :=
        if showStatistics then
          (machine.statistics.addRunTime nanoseconds).report
        else
          ""
      Transcript.success
        (output ++ restText response.simulator ++ machine.dump ++ report)

def stepText (number : Nat) (simulator : Simulator) : String :=
  "[" ++ Numeral.ofNat number ++ "] pc = " ++
    Numeral.ofNat simulator.machine.pc ++ " line " ++
    Numeral.ofNat simulator.currentLine ++ "\n"

/-- Output that one simulator has produced and another had not yet. -/
def newOutput (before after : Simulator) : String :=
  logText (after.machine.log.extract before.machine.log.size).toList

/-- Execute single steps and print after each what it produced and where
execution stands.  `number` is the number of the next step and `printed` what
the steps before it have printed. -/
def stepping (remaining number : Nat) (printed : String)
    (simulator : Simulator) : Transcript :=
  match remaining with
  | 0 => Transcript.success (printed ++ simulator.machine.dump)
  | remaining + 1 =>
      match simulator.step with
      | ⟨.error simulatorError, _⟩ => Transcript.failure printed simulatorError
      | ⟨.ok (), next⟩ =>
          let shown := printed ++ newOutput simulator next
          if next.isRunning then
            stepping remaining (number + 1) (shown ++ stepText number next) next
          else
            Transcript.success
              (shown ++ "[*] Halted after " ++ Numeral.ofNat (number - 1) ++
                " step(s)\n" ++ next.machine.dump)

def stepTranscript (count : Nat) (simulator : Simulator) : Transcript :=
  stepping count 1 "" simulator

def dumpTranscript (simulator : Simulator) : Transcript :=
  match simulator.preProcess with
  | ⟨.error simulatorError, _⟩ => Transcript.failure "" simulatorError
  | ⟨.ok (), assembled⟩ => Transcript.success assembled.listing

namespace Invocation

/-- The configuration of an invocation: the one it names, or the standard
one. -/
def configuration (invocation : Invocation) (files : FileReader) :
    Except SimulatorError Configuration :=
  match invocation.configurationPath? with
  | none => .ok Configuration.standard
  | some path => Configuration.loadFile files path

/-- The simulator of an invocation, with its source loaded.  The configuration
is read first. -/
def simulator (invocation : Invocation) (files : FileReader) :
    Except SimulatorError Simulator :=
  match invocation.configuration files with
  | .error simulatorError => .error simulatorError
  | .ok configuration =>
      match (Simulator.new "" configuration).loadFile files
          invocation.sourcePath with
      | ⟨.error simulatorError, _⟩ => .error simulatorError
      | ⟨.ok (), loaded⟩ => .ok loaded

/-- Carry out an invocation.  The transcript is a function of the nanoseconds
that carrying it out has taken; there is none when `fuel` does not suffice for
a run. -/
def execute (invocation : Invocation) (files : FileReader) (fuel : Nat) :
    Option (Nat → Transcript) :=
  match invocation.simulator files with
  | .error simulatorError =>
      some (fun _ => Transcript.failure "" simulatorError)
  | .ok simulator =>
      match invocation.command with
      | .run showStatistics =>
          (simulator.run fuel).map (runTranscript showStatistics)
      | .step count =>
          let transcript := stepTranscript count simulator
          some (fun _ => transcript)
      | .dump =>
          let transcript := dumpTranscript simulator
          some (fun _ => transcript)

end Invocation

end MiniMips.CommandLine
