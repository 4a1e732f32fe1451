import TapeDebugger.Main
import TapeDebugger.Proofs.Console.Chronicle
import TapeDebugger.Proofs.Console.Intake
import TapeDebugger.Proofs.Loop.Simulation
import TapeDebugger.Proofs.Program.FirstOffence
import TapeDebugger.Proofs.Session.FailedStart
import TapeDebugger.Proofs.Session.Feeding
import TapeDebugger.Proofs.Session.Refusal
import TapeDebugger.Proofs.Session.Telling
import TapeDebugger.Proofs.Machine.Widening
import TapeDebugger.Proofs.Machine.Emission
import TapeDebugger.Proofs.Session.Emission
import TapeDebugger.Proofs.Console.Speech
import TapeDebugger.Proofs.Console.Output
import TapeDebugger.Proofs.Console.FreshLines
import TapeDebugger.Proofs.Console.Patience
import TapeDebugger.Proofs.Transcript.Asking
import TapeDebugger.Proofs.Transcript.FreshLines
import TapeDebugger.Proofs.Text.Lines
import TapeDebugger.Proofs.Transcript.Causality
import TapeDebugger.Proofs.Number.Rounding
import TapeDebugger.Proofs.Json.Numeral
import TapeDebugger.Proofs.Json.Scalar
import TapeDebugger.Proofs.Settings.Loading
import TapeDebugger.Proofs.Json.Members
import TapeDebugger.Proofs.Settings.Files
import TapeDebugger.Proofs.Console.Verbosity
import TapeDebugger.Proofs.Transcript.Verbosity
import TapeDebugger.Proofs.Command.Pattern
import TapeDebugger.Proofs.Command.Words
import TapeDebugger.Proofs.Console.Answering
import TapeDebugger.Proofs.Settings.Warnings
import TapeDebugger.Proofs.Machine.Halting
import TapeDebugger.Proofs.Session.Diagnosis
import TapeDebugger.Proofs.Program.Comments
import TapeDebugger.Proofs.Machine.Arithmetic
import TapeDebugger.Proofs.Machine.CellSizes
import TapeDebugger.Proofs.Session.Fractions
import TapeDebugger.Proofs.Session.Jumping
import TapeDebugger.Proofs.Console.Troubles
import TapeDebugger.Proofs.Program.StackDiscipline
import TapeDebugger.Proofs.Machine.Ownership
import TapeDebugger.Proofs.Console.Idle
import TapeDebugger.Proofs.Number.Integers
