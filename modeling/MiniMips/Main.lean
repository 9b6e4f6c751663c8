import MiniMips.CommandLine.Transcript

/-!
Contract: the program.

Owns: reading the files of an invocation, measuring the time it takes, and
writing its transcript.
-/

namespace MiniMips.CommandLine

/-- What is shown for arguments that are no invocation. -/
def usage : String :=
  "usage: [-c FILE] run FILE [--stats]\n" ++
  "       [-c FILE] step FILE [-n COUNT]\n" ++
  "       [-c FILE] dump FILE\n"

/-- More steps than any run that is waited for can take. -/
def plentifulFuel : Nat := 0x4000000000000000

/-- Read a file.  A file that cannot be read, or whose bytes are no text, gives
nothing. -/
def readText (path : String) : IO (Option String) := do
  try
    let bytes ← IO.FS.readBinFile path
    return String.fromUTF8? bytes
  catch _ =>
    return none

def readFiles (invocation : Invocation) : IO FileReader := do
  let texts ← invocation.paths.mapM (fun path => do
    return (path, ← readText path))
  return fun path => (texts.lookup path).join

def perform (invocation : Invocation) : IO UInt32 := do
  let files ← readFiles invocation
  let started ← IO.monoNanosNow
  match invocation.execute files plentifulFuel with
  | none =>
      IO.eprintln "error: the run was given up"
      return 1
  | some transcriptAfter =>
      let finished ← IO.monoNanosNow
      let transcript := transcriptAfter (finished - started)
      IO.print transcript.output
      IO.eprint transcript.diagnostics
      return UInt32.ofNat transcript.exitCode

end MiniMips.CommandLine

/-- The program: its arguments are an invocation. -/
def main (arguments : List String) : IO UInt32 := do
  match MiniMips.CommandLine.Invocation.ofArguments? arguments with
  | none =>
      IO.eprint MiniMips.CommandLine.usage
      return 2
  | some invocation => MiniMips.CommandLine.perform invocation
