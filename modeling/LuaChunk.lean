import LuaChunk.Load
import LuaChunk.Writer
import LuaChunk.Listing
import LuaChunk.Reader.Step
import LuaChunk.Proofs.StoredForm
import LuaChunk.Proofs.Reading
import LuaChunk.Proofs.ReadingRecords
import LuaChunk.Proofs.ReadingChunks
import LuaChunk.Proofs.Unambiguity
import LuaChunk.Proofs.Loading
import LuaChunk.Proofs.WrittenForm
import LuaChunk.Proofs.Sources
import LuaChunk.Proofs.WellFormed
import LuaChunk.Proofs.RoundTrip
import LuaChunk.Proofs.Canonical
import LuaChunk.Proofs.Steps
import LuaChunk.Proofs.Interning
import LuaChunk.Proofs.TableRuns
import LuaChunk.Proofs.Extension
import LuaChunk.Proofs.EarlyChecks
import LuaChunk.Proofs.Nesting
import LuaChunk.Proofs.Truncation
import LuaChunk.Proofs.StringEnds
import LuaChunk.Proofs.RecordEnds
import LuaChunk.Proofs.Noting
import LuaChunk.Proofs.Completion
import LuaChunk.Proofs.Dumping
import LuaChunk.Proofs.LoadedStrings
import LuaChunk.Proofs.Representation
import LuaChunk.Proofs.Streams
import LuaChunk.Proofs.Weight
import LuaChunk.Proofs.Causes
import LuaChunk.Proofs.LoadEvents
import LuaChunk.Proofs.Machine
import LuaChunk.Proofs.MachineReading
import LuaChunk.Proofs.MachineListing
import LuaChunk.Proofs.MachineWriting
import LuaChunk.Proofs.Definedness
import LuaChunk.Proofs.DebugInformation
import LuaChunk.Proofs.SourceInheritance
import LuaChunk.Proofs.HeaderChecks
import LuaChunk.Proofs.FixedBuffers
import LuaChunk.Proofs.InstructionCodec
import LuaChunk.Proofs.TextPieces
import LuaChunk.Proofs.InstructionTexts
import LuaChunk.Proofs.ConstantRemarks
import LuaChunk.Proofs.Preorder
import LuaChunk.Proofs.RecursiveListings
import LuaChunk.Proofs.SingleLines
import LuaChunk.Proofs.ListingShape
import LuaChunk.Proofs.ReaderRuns
import LuaChunk.Proofs.ShortestForm
import LuaChunk.Proofs.Equality
import LuaChunk.Proofs.StringFields
import LuaChunk.Proofs.JumpTargets
