import Mailroom.Assembly
import Mailroom.Assembly.Line
import Mailroom.CommandLine
import Mailroom.Computer
import Mailroom.Computer.Listing
import Mailroom.Computer.Report
import Mailroom.Computer.Run
import Mailroom.Computer.Setup
import Mailroom.Cpu
import Mailroom.Cpu.Lemmas
import Mailroom.Debugger
import Mailroom.Debugger.Command
import Mailroom.Debugger.Completion
import Mailroom.Debugger.Console
import Mailroom.Debugger.History
import Mailroom.Debugger.Screen
import Mailroom.Debugger.Session
import Mailroom.Floor
import Mailroom.Instruction
import Mailroom.Json
import Mailroom.Json.Number
import Mailroom.Json.Quoted
import Mailroom.Json.Reader
import Mailroom.JumpTable
import Mailroom.Log
import Mailroom.Main
import Mailroom.Memory
import Mailroom.Numeral
import Mailroom.Source
import Mailroom.Terminal.Color
import Mailroom.Text
import Mailroom.Text.Backspace
import Mailroom.Text.Grapheme
import Mailroom.Text.Grapheme.BreakClass
import Mailroom.Text.Word
import Mailroom.Value
import Mailroom.Proofs.Cpu.Effect
import Mailroom.Proofs.Cpu.Tick
import Mailroom.Proofs.Cpu.Boxes
import Mailroom.Proofs.Debugger.Moment
import Mailroom.Proofs.Debugger.Path
import Mailroom.Proofs.Debugger.Track
import Mailroom.Proofs.Assembly.Joining
import Mailroom.Proofs.Debugger.Breakpoints
import Mailroom.Proofs.Listing
import Mailroom.Proofs.Computer.Protocol
import Mailroom.Proofs.Computer.Course
import Mailroom.Proofs.Computer.Watched
import Mailroom.Proofs.Binding
import Mailroom.Proofs.Flow
import Mailroom.Proofs.Causality
import Mailroom.Proofs.Computer.Ledger
import Mailroom.Proofs.Relocation
import Mailroom.Proofs.Cpu.Letters
import Mailroom.Proofs.Labels
import Mailroom.Proofs.Debugger.Script
import Mailroom.Proofs.Debugger.Rewriting
import Mailroom.Proofs.Debugger.Toggling
import Mailroom.Proofs.Assembly.Grammar
import Mailroom.Proofs.Cpu.Exact
import Mailroom.Proofs.Cpu.Tiles
import Mailroom.Proofs.Memory.Access
import Mailroom.Proofs.Assembly.Contents
import Mailroom.Proofs.Assembly.Layout
import Mailroom.Proofs.Memory.Aliases
import Mailroom.Proofs.Computer.Setup
import Mailroom.Proofs.JumpTable.History
import Mailroom.Proofs.Listing.Range
import Mailroom.Proofs.Debugger.Language
import Mailroom.Proofs.Debugger.Completion
import Mailroom.Proofs.Value.Boxes
import Mailroom.Proofs.Floor
import Mailroom.Proofs.Terminal.Color
import Mailroom.Proofs.Cpu.Words
import Mailroom.Proofs.Debugger.Bounds
