import ScriptDisassembler.AddressSet
import ScriptDisassembler.Buffer
import ScriptDisassembler.Claim
import ScriptDisassembler.CommandLine.Arguments
import ScriptDisassembler.CommandLine.Run
import ScriptDisassembler.Cursor
import ScriptDisassembler.Decode
import ScriptDisassembler.Definitions.Build
import ScriptDisassembler.Definitions.Compile
import ScriptDisassembler.Definitions.Line
import ScriptDisassembler.Definitions.Source
import ScriptDisassembler.Directory
import ScriptDisassembler.Disassembly
import ScriptDisassembler.Document
import ScriptDisassembler.Encoding
import ScriptDisassembler.Event
import ScriptDisassembler.Exploration.Run
import ScriptDisassembler.Exploration.Task
import ScriptDisassembler.Fault
import ScriptDisassembler.Labels
import ScriptDisassembler.Listing
import ScriptDisassembler.Main
import ScriptDisassembler.Opcode
import ScriptDisassembler.Output
import ScriptDisassembler.Proofs.Arrivals
import ScriptDisassembler.Proofs.Blocks
import ScriptDisassembler.Proofs.Calls
import ScriptDisassembler.Proofs.CompiledTables
import ScriptDisassembler.Proofs.ControlFlow
import ScriptDisassembler.Proofs.Decoding
import ScriptDisassembler.Proofs.DefinedLabels
import ScriptDisassembler.Proofs.DefinitionLines
import ScriptDisassembler.Proofs.DefinitionTexts
import ScriptDisassembler.Proofs.Displacements
import ScriptDisassembler.Proofs.DumpedWords
import ScriptDisassembler.Proofs.Economy
import ScriptDisassembler.Proofs.Encoded
import ScriptDisassembler.Proofs.Entries
import ScriptDisassembler.Proofs.Faithful
import ScriptDisassembler.Proofs.Followed
import ScriptDisassembler.Proofs.Growth
import ScriptDisassembler.Proofs.Guards
import ScriptDisassembler.Proofs.Layout
import ScriptDisassembler.Proofs.Ledger
import ScriptDisassembler.Proofs.ListingRows
import ScriptDisassembler.Proofs.ListingTiles
import ScriptDisassembler.Proofs.LocalStacks
import ScriptDisassembler.Proofs.Lookup
import ScriptDisassembler.Proofs.Moments
import ScriptDisassembler.Proofs.Naming
import ScriptDisassembler.Proofs.OperandValues
import ScriptDisassembler.Proofs.Partition
import ScriptDisassembler.Proofs.Parts
import ScriptDisassembler.Proofs.Phases
import ScriptDisassembler.Proofs.Placement
import ScriptDisassembler.Proofs.PrintedTables
import ScriptDisassembler.Proofs.Provenance
import ScriptDisassembler.Proofs.Reachable
import ScriptDisassembler.Proofs.ReadHead
import ScriptDisassembler.Proofs.Readings
import ScriptDisassembler.Proofs.Reads
import ScriptDisassembler.Proofs.Recoding
import ScriptDisassembler.Proofs.Recorded
import ScriptDisassembler.Proofs.RecursiveDescent
import ScriptDisassembler.Proofs.References
import ScriptDisassembler.Proofs.Retention
import ScriptDisassembler.Proofs.Roles
import ScriptDisassembler.Proofs.SignatureExtension
import ScriptDisassembler.Proofs.SkippedEdges
import ScriptDisassembler.Proofs.Slots
import ScriptDisassembler.Proofs.SourceParts
import ScriptDisassembler.Proofs.Spelling
import ScriptDisassembler.Proofs.Steps
import ScriptDisassembler.Proofs.Successors
import ScriptDisassembler.Proofs.Tables
import ScriptDisassembler.Proofs.Termination
import ScriptDisassembler.Proofs.TextLines
import ScriptDisassembler.Proofs.Tiling
import ScriptDisassembler.Proofs.TrailingBytes
import ScriptDisassembler.Proofs.Trimming
import ScriptDisassembler.Script
import ScriptDisassembler.Signature
import ScriptDisassembler.SignatureFile
import ScriptDisassembler.Text.Blank
import ScriptDisassembler.Text.Combining
import ScriptDisassembler.Text.Control
import ScriptDisassembler.Text.Hex
import ScriptDisassembler.Text.Hidden
import ScriptDisassembler.Text.Quoted
import ScriptDisassembler.Text.Ranges
import ScriptDisassembler.Token
import ScriptDisassembler.Yaml.Fault
import ScriptDisassembler.Yaml.Mark
import ScriptDisassembler.Yaml.Node
import ScriptDisassembler.Yaml.Printer
import ScriptDisassembler.Yaml.Reader
import ScriptDisassembler.Yaml.Scalar
import ScriptDisassembler.Yaml.Token
import ScriptDisassembler.Proofs.Entrypoints
import ScriptDisassembler.Proofs.Room
import ScriptDisassembler.Proofs.Entering
