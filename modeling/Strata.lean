import Strata.Attributes
import Strata.BlockSize
import Strata.ByteField
import Strata.Bytes
import Strata.Coding.Coder
import Strata.Coding.Erasure
import Strata.Coding.Extents
import Strata.Coding.Identities
import Strata.Coding.ReedSolomon
import Strata.Coding.Replica
import Strata.Coding.Xor
import Strata.Command.Grammar
import Strata.Command.Help
import Strata.Command.Invocation
import Strata.Command.Run
import Strata.Config
import Strata.Config.Decoding
import Strata.Config.Encoding
import Strata.Config.Validity
import Strata.Contents
import Strata.Crypto.Aead
import Strata.Crypto.Aes
import Strata.Crypto.Argon2
import Strata.Crypto.Blake2b
import Strata.Crypto.Gcm
import Strata.Crypto.Sha256
import Strata.Device.Dispatcher
import Strata.Device.Fanout
import Strata.Device.Fleet
import Strata.Device.Request
import Strata.Error
import Strata.Error.Host
import Strata.Frame
import Strata.Handle
import Strata.Host.Backend
import Strata.Host.Basic
import Strata.Host.Changes
import Strata.Host.Files
import Strata.Host.Lookup
import Strata.Host.Name
import Strata.Host.Tree
import Strata.Json.Decoding
import Strata.Json.Number
import Strata.Json.Reading
import Strata.Json.Value
import Strata.Json.Writing
import Strata.Key
import Strata.Latency
import Strata.Layer
import Strata.Layer.Align
import Strata.Layer.Cipher
import Strata.Layer.Devices
import Strata.Layer.Memory
import Strata.Main
import Strata.Path
import Strata.Pipeline
import Strata.Pipeline.Latency
import Strata.Proofs.AlignStage
import Strata.Proofs.AlignedCipher
import Strata.Proofs.AlignedRequests
import Strata.Proofs.AlteredReplicas
import Strata.Proofs.Assembly
import Strata.Proofs.BlockCosts
import Strata.Proofs.BlockRequests
import Strata.Proofs.BlockRows
import Strata.Proofs.BlockRuns
import Strata.Proofs.BlockTransfers
import Strata.Proofs.Books
import Strata.Proofs.ByteDevices
import Strata.Proofs.CipherStage
import Strata.Proofs.CodeField
import Strata.Proofs.ConfigFiles
import Strata.Proofs.ConfinedPaths
import Strata.Proofs.Crews
import Strata.Proofs.CutFragments
import Strata.Proofs.DeviceBlocks
import Strata.Proofs.DeviceFiles
import Strata.Proofs.DevicesInTurn
import Strata.Proofs.ExactFrames
import Strata.Proofs.Execution
import Strata.Proofs.FailedWrites
import Strata.Proofs.FlatFile
import Strata.Proofs.FragmentNames
import Strata.Proofs.Fragments
import Strata.Proofs.Frames
import Strata.Proofs.HoleWrites
import Strata.Proofs.Holes
import Strata.Proofs.HostNames
import Strata.Proofs.HostWalks
import Strata.Proofs.Interpolation
import Strata.Proofs.Isolation
import Strata.Proofs.Joins
import Strata.Proofs.JsonDocuments
import Strata.Proofs.JsonTokens
import Strata.Proofs.Layouts
import Strata.Proofs.LinkTargets
import Strata.Proofs.ListedNames
import Strata.Proofs.LostFragments
import Strata.Proofs.MirroredLayers
import Strata.Proofs.MovedTrees
import Strata.Proofs.NameCalls
import Strata.Proofs.NameRequests
import Strata.Proofs.Naming
import Strata.Proofs.NotedCalls
import Strata.Proofs.OrphanedIdentities
import Strata.Proofs.PathNames
import Strata.Proofs.PlacedBlocks
import Strata.Proofs.QueuedJobs
import Strata.Proofs.Ranges
import Strata.Proofs.RecordedBlocks
import Strata.Proofs.RefusedWrites
import Strata.Proofs.ReleasedHandles
import Strata.Proofs.Schedules
import Strata.Proofs.SettledPaths
import Strata.Proofs.SharedFiles
import Strata.Proofs.SharedWorkers
import Strata.Proofs.ShortTransfers
import Strata.Proofs.StoredBlocks
import Strata.Proofs.StoredSizes
import Strata.Proofs.SymbolicLinks
import Strata.Proofs.Tables
import Strata.Proofs.TidyHosts
import Strata.Proofs.TiledFragments
import Strata.Proofs.TransferCounts
import Strata.Proofs.Truncation
import Strata.Proofs.UnalignedStacks
import Strata.Proofs.XorShares
import Strata.Session
import Strata.Table
import Strata.Tape
import Strata.Text.Blank
import Strata.Text.Decimal
import Strata.Text.Hexadecimal
import Strata.Text.Pieces
import Strata.Text.Quoted
import Strata.Text.Shown
import Strata.Workers
