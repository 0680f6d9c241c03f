import GameConsole.Cpu.Assembly
import GameConsole.Host.Folder
import GameConsole.Main
import GameConsole.Session.Windowed
import GameConsole.Proofs.Loop
import GameConsole.Proofs.Cpu.DelaySlot
import GameConsole.Proofs.Cpu.Frame
import GameConsole.Proofs.Cpu.Stable
import GameConsole.Proofs.Cpu.Encoding
import GameConsole.Proofs.Cpu.Effect
import GameConsole.Proofs.Memory.Units
import GameConsole.Proofs.Memory.Contents
import GameConsole.Proofs.Memory.Loading
import GameConsole.Proofs.Executable.RoundTrip
import GameConsole.Proofs.Gpu.CommandStream
import GameConsole.Proofs.Gpu.DrawingCommand
import GameConsole.Proofs.Board.Chain
import GameConsole.Proofs.Board.Transfer
import GameConsole.Proofs.Board.DmaWrite
import GameConsole.Proofs.Board.RendererMap
import GameConsole.Proofs.Board.Storage
import GameConsole.Proofs.Board.Registers
import GameConsole.Proofs.Board.WalkLength
import GameConsole.Proofs.Board.Operations
import GameConsole.Proofs.Board.Acceptance
import GameConsole.Proofs.Board.DelaySlots
import GameConsole.Proofs.Board.RefusedDraw
import GameConsole.Proofs.Raster.Barycentric
import GameConsole.Proofs.Raster.Layer
import GameConsole.Proofs.Raster.Picture
import GameConsole.Proofs.Raster.QuadOrder
import GameConsole.Proofs.Emulator.Run
import GameConsole.Proofs.Emulator.Calls
import GameConsole.Proofs.Emulator.Lockstep
import GameConsole.Proofs.Emulator.Boot
import GameConsole.Proofs.Checked.Emulator
import GameConsole.Proofs.Checked.Basic
import GameConsole.Proofs.Checked.Memory
import GameConsole.Proofs.Checked.Raster
import GameConsole.Proofs.Checked.Gpu
import GameConsole.Proofs.Checked.Board
import GameConsole.Proofs.Session.ExitCode
import GameConsole.Proofs.Window.Interleaving
import GameConsole.Proofs.Memory.Accesses
import GameConsole.Proofs.Window.Frame
import GameConsole.Proofs.Cpu.Assembler
