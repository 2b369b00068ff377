import Dmg.Board.Basic
import Dmg.Board.Location
import Dmg.Bus
import Dmg.Cartridge.Basic
import Dmg.Cartridge.Mbc1
import Dmg.Cli.Arguments
import Dmg.Cli.Session
import Dmg.Cpu.Arithmetic
import Dmg.Cpu.Decode
import Dmg.Cpu.Disassembly
import Dmg.Cpu.Execute
import Dmg.Cpu.Mnemonic
import Dmg.Cpu.Operation
import Dmg.Cpu.Registers
import Dmg.Cpu.State
import Dmg.Cpu.Step
import Dmg.Interrupt
import Dmg.Joypad
import Dmg.Machine.Basic
import Dmg.Machine.Counter
import Dmg.Machine.Run
import Dmg.Machine.Snapshot
import Dmg.Main
import Dmg.Memory.Flat
import Dmg.Memory.Recorded
import Dmg.Proofs.Bits
import Dmg.Proofs.Board.Actions
import Dmg.Proofs.Board.Ram
import Dmg.Proofs.Board.Reached
import Dmg.Proofs.Board.Requests
import Dmg.Proofs.Board.Reset
import Dmg.Proofs.Board.Serial
import Dmg.Proofs.Board.Spans
import Dmg.Proofs.Board.Storage
import Dmg.Proofs.Board.Transfer
import Dmg.Proofs.Cartridge.Banking
import Dmg.Proofs.Cartridge.Images
import Dmg.Proofs.Cli.Acceptance
import Dmg.Proofs.Cli.Grammar
import Dmg.Proofs.Console.Circuit
import Dmg.Proofs.Console.Machine
import Dmg.Proofs.Console.Reset
import Dmg.Proofs.Console.Video
import Dmg.Proofs.Cpu.Accumulator
import Dmg.Proofs.Cpu.Agreement
import Dmg.Proofs.Cpu.Branch
import Dmg.Proofs.Cpu.Carry
import Dmg.Proofs.Cpu.Control
import Dmg.Proofs.Cpu.Decimal
import Dmg.Proofs.Cpu.Digits
import Dmg.Proofs.Cpu.Encoding
import Dmg.Proofs.Cpu.Flags
import Dmg.Proofs.Cpu.Latches
import Dmg.Proofs.Cpu.Listing
import Dmg.Proofs.Cpu.Permission
import Dmg.Proofs.Cpu.Readback
import Dmg.Proofs.Cpu.Spelling
import Dmg.Proofs.Cpu.Stack
import Dmg.Proofs.Cpu.Traffic
import Dmg.Proofs.Cpu.View
import Dmg.Proofs.Machine.Breakpoint
import Dmg.Proofs.Machine.Clocks
import Dmg.Proofs.Machine.Comparison
import Dmg.Proofs.Machine.Content
import Dmg.Proofs.Machine.Counter
import Dmg.Proofs.Machine.Fault
import Dmg.Proofs.Machine.Flags
import Dmg.Proofs.Machine.Frame
import Dmg.Proofs.Machine.Halt
import Dmg.Proofs.Machine.Handler
import Dmg.Proofs.Machine.History
import Dmg.Proofs.Machine.Interruption
import Dmg.Proofs.Machine.Pictures
import Dmg.Proofs.Machine.Reset
import Dmg.Proofs.Machine.Serial
import Dmg.Proofs.Machine.Service
import Dmg.Proofs.Machine.Steps
import Dmg.Proofs.Machine.Stop
import Dmg.Proofs.Machine.Turn
import Dmg.Proofs.Requests
import Dmg.Proofs.Safety.Arithmetic
import Dmg.Proofs.Safety.Board
import Dmg.Proofs.Safety.Cartridge
import Dmg.Proofs.Safety.Checked
import Dmg.Proofs.Safety.Listing
import Dmg.Proofs.Safety.Machine
import Dmg.Proofs.Safety.Picture
import Dmg.Proofs.Safety.Scanline
import Dmg.Proofs.Safety.Timer
import Dmg.Proofs.Safety.Video
import Dmg.Proofs.Text.Numeral
import Dmg.Proofs.Timer
import Dmg.Proofs.Timer.ClosedForm
import Dmg.Proofs.Timer.Rate
import Dmg.Proofs.Video.Cycle
import Dmg.Proofs.Video.Pixels
import Dmg.Proofs.Video.Place
import Dmg.Proofs.Video.Publication
import Dmg.Proofs.Video.Report
import Dmg.Proofs.Video.Spans
import Dmg.Proofs.Video.Tiles
import Dmg.Proofs.Video.Timing
import Dmg.Proofs.Video.Views
import Dmg.Serial
import Dmg.Text.Hex
import Dmg.Text.Numeral
import Dmg.Text.Utf8
import Dmg.Timer
import Dmg.Timing
import Dmg.Video.Basic
import Dmg.Video.Color
import Dmg.Video.Control
import Dmg.Video.Register
import Dmg.Video.Scanline
import Dmg.Video.Sequence
import Dmg.Video.Tile
import Dmg.Video.Views
import Dmg.Word
