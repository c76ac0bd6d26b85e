import DebugSymbols.Bytes.Primitive
import DebugSymbols.Main
import DebugSymbols.Proofs.Store.Damage
import DebugSymbols.Proofs.Store.Builds
import DebugSymbols.Proofs.Store.SealedLayout
import DebugSymbols.Proofs.Writer
import DebugSymbols.Store.Bindings
import DebugSymbols.Proofs.Store.DefinitionOrder
import DebugSymbols.Proofs.Bytes.Appending
import DebugSymbols.Proofs.Store.Overwriting
import DebugSymbols.Proofs.Store.MethodViews
import DebugSymbols.Proofs.Store.ReadParts
import DebugSymbols.Proofs.Store.KeptMethods
import DebugSymbols.Proofs.LineProgram.Offsets
import DebugSymbols.Proofs.Store.OffsetLookup
import DebugSymbols.Proofs.Store.ListedEntries
import DebugSymbols.Proofs.Bytes.Failing
import DebugSymbols.Proofs.LineProgram.Progress
import DebugSymbols.Proofs.Bytes.Groups
import DebugSymbols.Proofs.Bytes.Moving
import DebugSymbols.Proofs.LineProgram.Forms
import DebugSymbols.Proofs.LineProgram.Reserved
import DebugSymbols.Proofs.Frame
import DebugSymbols.Proofs.Store.Opening
import DebugSymbols.Proofs.Method.BlockTable
import DebugSymbols.Proofs.Method.Points
import DebugSymbols.Proofs.Rejection
import DebugSymbols.Proofs.Store.Parents
import DebugSymbols.Proofs.Bytes.Scripts
import DebugSymbols.Proofs.LineProgram.Overflow
import DebugSymbols.Proofs.Command.Documents
import DebugSymbols.Proofs.Command.Lookup
import DebugSymbols.Proofs.Bytes.Grammar
import DebugSymbols.Proofs.Bytes.OutOfLine
import DebugSymbols.Proofs.Store.CountDriven
