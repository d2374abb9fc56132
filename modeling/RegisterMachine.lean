import RegisterMachine.Assembler
import RegisterMachine.CommandLine.Arguments
import RegisterMachine.CommandLine.Session
import RegisterMachine.FileTree
import RegisterMachine.Limits
import RegisterMachine.Limits.Document
import RegisterMachine.Loading
import RegisterMachine.Log
import RegisterMachine.Machine.Listing
import RegisterMachine.Machine.Run
import RegisterMachine.Machine.Snapshot
import RegisterMachine.Main
import RegisterMachine.Program
import RegisterMachine.Proofs.Assignments
import RegisterMachine.Proofs.ByteOrder
import RegisterMachine.Proofs.ControlFlow
import RegisterMachine.Proofs.Echo
import RegisterMachine.Proofs.FirstFault
import RegisterMachine.Proofs.ForwardJumps
import RegisterMachine.Proofs.Histories
import RegisterMachine.Proofs.JsonSwitch
import RegisterMachine.Proofs.JsonText
import RegisterMachine.Proofs.JsonTokens
import RegisterMachine.Proofs.LabelListing
import RegisterMachine.Proofs.Layout
import RegisterMachine.Proofs.LimitsDocument
import RegisterMachine.Proofs.LineTokens
import RegisterMachine.Proofs.Lossless
import RegisterMachine.Proofs.OperationTable
import RegisterMachine.Proofs.OutputModes
import RegisterMachine.Proofs.ProgramBuilding
import RegisterMachine.Proofs.Renaming
import RegisterMachine.Proofs.Rendering
import RegisterMachine.Proofs.Repetition
import RegisterMachine.Proofs.Reset
import RegisterMachine.Proofs.Reuse
import RegisterMachine.Proofs.RunCounters
import RegisterMachine.Proofs.StepFailures
import RegisterMachine.Proofs.StepLimit
import RegisterMachine.RegisterFile
import RegisterMachine.Tally
import RegisterMachine.Text.Blank
import RegisterMachine.Text.ControlSequence
import RegisterMachine.Text.Line
import RegisterMachine.Text.Numeral
