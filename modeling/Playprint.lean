import Playprint.Step
import Playprint.Bytes
import Playprint.ByteOrder
import Playprint.Tag
import Playprint.Error
import Playprint.Vlq
import Playprint.Stream
import Playprint.Chunk
import Playprint.Chunk.Walk
import Playprint.Chunk.Descent
import Playprint.Text.Utf8
import Playprint.Text.Decimal
import Playprint.Toc
import Playprint.Media
import Playprint.Container
import Playprint.Master
import Playprint.ByteCode.Opcode
import Playprint.ByteCode.Cursor
import Playprint.ByteCode.Instruction
import Playprint.Property
import Playprint.Property.Fields
import Playprint.Json
import Playprint.Json.Token
import Playprint.Json.Parser
import Playprint.Json.Printer
import Playprint.Manifest
import Playprint.Property.Bag
import Playprint.Object
import Playprint.Catalog
import Playprint.Stock
import Playprint.Title
import Playprint.SetTable
import Playprint.Scope
import Playprint.Replay
import Playprint.Replay.Attach
import Playprint.Replay.Execution
import Playprint.Replay.Run
import Playprint.Loader
import Playprint.Summary
import Playprint.Files.Path
import Playprint.Files.System
import Playprint.Files.Tree
import Playprint.Tool.Arguments
import Playprint.Tool.Failure
import Playprint.Tool.Dump
import Playprint.Tool.Extract
import Playprint.Tool.Load
import Playprint.Tool
import Playprint.Main
import Playprint.Proofs.Step
import Playprint.Proofs.Vlq
import Playprint.Proofs.Text.Utf8
import Playprint.Proofs.ByteCode.Reading
import Playprint.Proofs.ByteCode.Indices
import Playprint.Proofs.ByteCode.Tape
import Playprint.Proofs.Container.Layout
import Playprint.Proofs.Container.Reading
import Playprint.Proofs.Container.RoundTrip
import Playprint.Proofs.Container.Sections
import Playprint.Proofs.Replay.Rounds
import Playprint.Proofs.Replay.Assembled
import Playprint.Proofs.Replay.Effects
import Playprint.Proofs.Replay.Cast
import Playprint.Proofs.Replay.Completeness
import Playprint.Proofs.World
import Playprint.Proofs.Replay.Forest
import Playprint.Proofs.Loader.Sets
import Playprint.Proofs.Loader.Casting
import Playprint.Proofs.Loader.GroupRun
import Playprint.Proofs.Loader.Reachable
import Playprint.Proofs.Loader.Staged
import Playprint.Proofs.Container.Truncation
import Playprint.Proofs.Loader.Failures
import Playprint.Proofs.Replay.Added
import Playprint.Proofs.Loader.Attached
import Playprint.Proofs.Container.Locality
import Playprint.Proofs.Container.Siblings
import Playprint.Proofs.Container.Sequence
import Playprint.Proofs.Replay.Paired
import Playprint.Proofs.Loader.Alone
import Playprint.Proofs.Loader.Kept
import Playprint.Proofs.Loader.Abreast
import Playprint.Proofs.Loader.Alongside
import Playprint.Proofs.Loader.History
import Playprint.Proofs.Loader.Leftovers
import Playprint.Proofs.Loader.Tally
import Playprint.Proofs.Tool.Report
import Playprint.Proofs.Replay.EitherOrder
import Playprint.Proofs.Over
import Playprint.Proofs.Loader.Unseen
import Playprint.Proofs.Container.EitherOrder
import Playprint.Proofs.Loader.EitherOrder
import Playprint.Proofs.Container.Leaving
import Playprint.Proofs.Container.Children
import Playprint.Proofs.Container.Confinement
import Playprint.Proofs.Container.Checked
import Playprint.Proofs.Container.Positions
import Playprint.Proofs.Container.Tours
import Playprint.Proofs.Text.Decimal
import Playprint.Proofs.Json.Tokens
import Playprint.Proofs.Json.Values
import Playprint.Proofs.Manifest
import Playprint.Proofs.Loader.InPlace
import Playprint.Proofs.Loader.Log
import Playprint.Proofs.Loader.Enrolment
import Playprint.Proofs.Loader.Identity
import Playprint.Proofs.Files.Paths
import Playprint.Proofs.Files.Tree
import Playprint.Proofs.Tool.FileNames
import Playprint.Proofs.Tool.Parts
import Playprint.Proofs.Tool.Extraction
import Playprint.Proofs.Tool.Lossless
import Playprint.Proofs.Tool.ByTable
import Playprint.Proofs.Container.Descents
import Playprint.Proofs.Container.Inspection
import Playprint.Proofs.Container.TocState
import Playprint.Proofs.Container.TocHistory
import Playprint.Proofs.Container.RawSections
import Playprint.Proofs.Container.Scans
import Playprint.Proofs.Container.MediaLists
import Playprint.Proofs.Replay.Overlooked
import Playprint.Proofs.Loader.Setting
import Playprint.Proofs.Loader.Scenes
import Playprint.Proofs.Loader.Context
import Playprint.Proofs.Replay.Course
import Playprint.Proofs.Replay.Slots
import Playprint.Proofs.Replay.Guarded
import Playprint.Proofs.Loader.Guarded
import Playprint.Proofs.Stream
import Playprint.Proofs.Property.Fields
import Playprint.Proofs.Property.MediaRefs
import Playprint.Proofs.Scope
import Playprint.Proofs.Keeps
import Playprint.Proofs.Property.Arrays
import Playprint.Proofs.ByteCode.Fitting
import Playprint.Proofs.Replay.Upheld
import Playprint.Proofs.Replay.Arrays
import Playprint.Proofs.Loader.Arrays
