import MiniMips.Main
import MiniMips.Proofs.Machine.InPlace
import MiniMips.Proofs.Machine.Alu
import MiniMips.Proofs.Machine.Bytes
import MiniMips.Proofs.Machine.Footprint
import MiniMips.Proofs.Machine.Iteration
import MiniMips.Proofs.Machine.Agreement
import MiniMips.Proofs.Simulator.Answers
import MiniMips.Proofs.Simulator.Consistency
import MiniMips.Proofs.Simulator.Provenance
import MiniMips.Proofs.Simulator.Running
import MiniMips.Proofs.Instruction.Plain
import MiniMips.Proofs.Machine.FaultConditions
import MiniMips.Proofs.Machine.EffectParts
import MiniMips.Proofs.Machine.Accesses
import MiniMips.Proofs.Machine.Changes
import MiniMips.Proofs.Assembly.Labels
import MiniMips.Proofs.Assembly.Decoding
import MiniMips.Proofs.Assembly.Programs
import MiniMips.Proofs.Assembly.Resolution
import MiniMips.Proofs.Assembly.Lexemes
import MiniMips.Proofs.Assembly.Tokens
import MiniMips.Proofs.Simulator.Faults
import MiniMips.Proofs.Assembly.Lines
import MiniMips.Proofs.Numeral
import MiniMips.Proofs.Assembly.Disassembly
import MiniMips.Proofs.Assembly.Display
import MiniMips.Proofs.Simulator.Stability
import MiniMips.Proofs.Simulator.Budgets
import MiniMips.Proofs.Assembly.Breakpoints
import MiniMips.Proofs.Simulator.Breakpoints
import MiniMips.Proofs.Assembly.LineByLine
import MiniMips.Proofs.Assembly.Diagnosis
import MiniMips.Proofs.Assembly.Reassembly
import MiniMips.Proofs.Machine.Accounting
import MiniMips.Proofs.Simulator.Accounting
import MiniMips.Proofs.Assembly.Variation
import MiniMips.Proofs.Assembly.Renaming
import MiniMips.Proofs.Assembly.LineNumbers
import MiniMips.Proofs.Assembly.Layout
import MiniMips.Proofs.Machine.Forward
import MiniMips.Proofs.Simulator.Forward
import MiniMips.Proofs.Machine.Extension
import MiniMips.Proofs.Simulator.LargerMemory
import MiniMips.Proofs.Assembly.TokensOnLine
import MiniMips.Proofs.Assembly.Spelling
import MiniMips.Proofs.Assembly.Spacing
import MiniMips.Proofs.Machine.Dump
import MiniMips.Proofs.Machine.Walk
import MiniMips.Proofs.CommandLine.Stepping
import MiniMips.Proofs.LetterCase
import MiniMips.Proofs.Assembly.Reading
import MiniMips.Proofs.Assembly.IntegerLiterals
import MiniMips.Proofs.Assembly.Recasing
import MiniMips.Proofs.Assembly.LabelBinding
import MiniMips.Proofs.Assembly.LineOrder
import MiniMips.Proofs.Simulator.CurrentLine
import MiniMips.Proofs.Column
import MiniMips.Proofs.Assembly.ListingLines
import MiniMips.Proofs.Simulator.Listings
import MiniMips.Proofs.Assembly.OperandItems
import MiniMips.Proofs.Assembly.LabelIndex
import MiniMips.Proofs.Json.Documents
import MiniMips.Proofs.Configuration.Loading
