import HackToolchain.Text.Offset
import HackToolchain.Text.Blank
import HackToolchain.Text.Cut
import HackToolchain.Text.Position
import HackToolchain.Text.Columns
import HackToolchain.Text.Emoji
import HackToolchain.Text.EmojiSequence
import HackToolchain.Text.Ligature
import HackToolchain.Text.Width
import HackToolchain.Span
import HackToolchain.Snippet
import HackToolchain.Symbol
import HackToolchain.Command.Basic
import HackToolchain.Command.Fault
import HackToolchain.Command.Token
import HackToolchain.Command.Numeral
import HackToolchain.Command.Reading
import HackToolchain.Assembly.Line
import HackToolchain.Emission.LabelSupply
import HackToolchain.Emission.Template
import HackToolchain.Emission.Sink
import HackToolchain.Emission.Emitter
import HackToolchain.Assembly.CodeLine
import HackToolchain.Assembly.Program
import HackToolchain.Machine.Instruction
import HackToolchain.Machine.Memory
import HackToolchain.Machine.Computer
import HackToolchain.Files.Path
import HackToolchain.Files.Tree
import HackToolchain.Host
import HackToolchain.Source.Load
import HackToolchain.CommandLine.Arguments
import HackToolchain.CommandLine.Session
import HackToolchain.Main
import HackToolchain.Proofs.Blocks
import HackToolchain.Proofs.CodeText
import HackToolchain.Proofs.Names
import HackToolchain.Proofs.Resolution
import HackToolchain.Proofs.Linking
import HackToolchain.Proofs.GeneratedLabels
import HackToolchain.Proofs.Assembling
import HackToolchain.Proofs.StackMachine
import HackToolchain.Proofs.TemplateEffects
import HackToolchain.Proofs.Crossing
import HackToolchain.Proofs.Simulation
import HackToolchain.Proofs.FrameCells
import HackToolchain.Proofs.StackDiscipline
import HackToolchain.Proofs.Frames
import HackToolchain.Proofs.LineReading
import HackToolchain.Proofs.LineGrammar
import HackToolchain.Proofs.SymbolAddresses
import HackToolchain.Proofs.EmitterCalls
import HackToolchain.Proofs.UnitFailures
import HackToolchain.Proofs.ValidPrefix
import HackToolchain.Proofs.Annotations
import HackToolchain.Proofs.ShiftedReadings
import HackToolchain.Proofs.Recovery
import HackToolchain.Proofs.Rendering
import HackToolchain.Proofs.StaticCells
import HackToolchain.Proofs.LabelCapture
import HackToolchain.Proofs.FilledSinks
import HackToolchain.Proofs.SplitUnits
import HackToolchain.Proofs.InstructionGrammar
import HackToolchain.Proofs.AssemblyGrammar
import HackToolchain.Proofs.AddressOverflow
import HackToolchain.Proofs.Runs
import HackToolchain.Proofs.PushPop
import HackToolchain.Proofs.Comparisons
import HackToolchain.Proofs.FileTrees
import HackToolchain.Proofs.Sessions
import HackToolchain.Proofs.LoadedUnits
import HackToolchain.Proofs.AllOrNothing
import HackToolchain.Proofs.Coordinates
import HackToolchain.Proofs.FaultPlaces
import HackToolchain.Proofs.NumericArguments
import HackToolchain.Proofs.TokenTiles
