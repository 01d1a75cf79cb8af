import EffectLink.Artifact.Listing
import EffectLink.Artifact.Record
import EffectLink.Artifact.Wire
import EffectLink.Backend
import EffectLink.Command
import EffectLink.DataType
import EffectLink.Declaration
import EffectLink.Declaration.Check
import EffectLink.Diagnostic.Basic
import EffectLink.Diagnostic.Code
import EffectLink.Diagnostic.Queue
import EffectLink.Diagnostic.Terminal
import EffectLink.Disk
import EffectLink.Header
import EffectLink.Json.Reader
import EffectLink.Json.Shape
import EffectLink.KeyMap
import EffectLink.Kind
import EffectLink.Layout
import EffectLink.Linker
import EffectLink.Main
import EffectLink.Manifest.Basic
import EffectLink.Manifest.Load
import EffectLink.Module.Backend
import EffectLink.Module.Basic
import EffectLink.Module.Interface
import EffectLink.Module.Linked
import EffectLink.Module.Uniform
import EffectLink.Number.Binary
import EffectLink.Number.Shortest
import EffectLink.Program.Basic
import EffectLink.Program.Linking
import EffectLink.Program.Resolution
import EffectLink.Program.Validation
import EffectLink.Shader.Pool
import EffectLink.Shader.Source
import EffectLink.Stage
import EffectLink.Symbol
import EffectLink.Text.Blank
import EffectLink.Text.Capital
import EffectLink.Text.Printable
import EffectLink.Text.Unassigned
import EffectLink.Text.Utf8
import EffectLink.Proofs.WireReading
import EffectLink.Proofs.ArtifactRoundTrip
import EffectLink.Proofs.CollectedRows
import EffectLink.Proofs.ProgramValidity
import EffectLink.Proofs.ValidatedBatch
import EffectLink.Proofs.ShaderIdentity
import EffectLink.Proofs.ShaderPool
import EffectLink.Proofs.ResolvedStages
import EffectLink.Proofs.ResolvedBatch
import EffectLink.Proofs.OwnPermutation
import EffectLink.Proofs.RenumberedLink
import EffectLink.Proofs.StandaloneLink
import EffectLink.Proofs.EarlyReports
import EffectLink.Proofs.QueueMerging
import EffectLink.Proofs.SideBySide
import EffectLink.Proofs.BackendLinking
import EffectLink.Proofs.CanonicalArtifact
import EffectLink.Proofs.ViolationCount
import EffectLink.Proofs.InternalErrors
import EffectLink.Proofs.ArtifactContents
import EffectLink.Proofs.PackedSize
import EffectLink.Proofs.ForkedReports
import EffectLink.Proofs.UniformOffsets
import EffectLink.Proofs.CountedErrors
import EffectLink.Proofs.TextPieces
import EffectLink.Proofs.DiskWrites
import EffectLink.Proofs.WrittenFiles
import EffectLink.Proofs.FailedPrograms
import EffectLink.Proofs.QueueIndependence
import EffectLink.Proofs.SuccessfulRuns
import EffectLink.Proofs.ConfinedWrites
import EffectLink.Proofs.ArtifactSlots
import EffectLink.Proofs.WellDeclared
import EffectLink.Proofs.ReportedArtifacts
import EffectLink.Proofs.CompiledOnce
import EffectLink.Proofs.PipelineOrder
import EffectLink.Proofs.InterfaceLinking
import EffectLink.Proofs.IdentityCollisions
import EffectLink.Proofs.FlagWarnings
import EffectLink.Proofs.PathOrder
import EffectLink.Proofs.UnrolledLeaves
import EffectLink.Proofs.UnrolledSize
import EffectLink.Proofs.LayoutErrors
import EffectLink.Proofs.ListedLeaves
import EffectLink.Proofs.DamagedArtifact
import EffectLink.Proofs.VersionDirective
import EffectLink.Proofs.PathParents
import EffectLink.Proofs.MadeDirectories
import EffectLink.Proofs.DumpedSources
import EffectLink.Proofs.QuietRuns
import EffectLink.Proofs.RecordedReflection
import EffectLink.Proofs.ReorderedRows
import EffectLink.Proofs.CompileArguments
import EffectLink.Proofs.StyledBlocks
import EffectLink.Proofs.PoolIndex
import EffectLink.Proofs.SafeReading
import EffectLink.Proofs.CountedLists
