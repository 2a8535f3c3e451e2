import AbiWrapper.Lib.Run
import AbiWrapper.Lib.Ring
import AbiWrapper.Lib.SlotMap
import AbiWrapper.Lib.Registry
import AbiWrapper.Lib.Tickets
import AbiWrapper.Lib.Bytes
import AbiWrapper.Lib.Lists
import AbiWrapper.Lib.CInt
import AbiWrapper.Lib.Layout
import AbiWrapper.Lib.Masks
import AbiWrapper.Lib.Simulation
import AbiWrapper.Lib.Stores
import AbiWrapper.Lib.Ownership
import AbiWrapper.Lib.Filling
import AbiWrapper.Lib.Words
import AbiWrapper.Lib.MulHash
import AbiWrapper.Ref.Staging
import AbiWrapper.Ref.StagedOps
import AbiWrapper.Ref.Handles
import AbiWrapper.Ref.Serialize
import AbiWrapper.Ref.Errorcodes
import AbiWrapper.Ref.Extents
import AbiWrapper.Ref.Fallbacks
import AbiWrapper.Ref.Significance
import AbiWrapper.Ref.Completion
import AbiWrapper.Ref.Keyvals
import AbiWrapper.Ref.Pools
import AbiWrapper.Ref.FortranInfo
import AbiWrapper.Ref.Spawn
import AbiWrapper.Ref.RegistryOps
import AbiWrapper.Ref.SerialOps
import AbiWrapper.Ref.ToolEvents
import AbiWrapper.Ref.Datatypes
import AbiWrapper.Ref.HandleErrors
import AbiWrapper.Ref.OutParams
import AbiWrapper.Ref.FallbackGen
import AbiWrapper.Ref.LargeCounts
import AbiWrapper.Ref.Status
import AbiWrapper.Ref.Autobuf
import AbiWrapper.Ref.Buffers
import AbiWrapper.Ref.EventCallbacks
import AbiWrapper.Ref.Attributes
import AbiWrapper.Ref.Constants
import AbiWrapper.Ref.Arithmetic
import AbiWrapper.Ref.StatusOps
import AbiWrapper.Ref.Bodies
import AbiWrapper.Ref.ExtraState
import AbiWrapper.Ref.FortranBooleans
import AbiWrapper.Ref.HeaderNames
import AbiWrapper.Ref.Vtable
import AbiWrapper.Ref.Bootstrap
import AbiWrapper.Proofs.StagedInvariant
import AbiWrapper.Proofs.StagedDistinct
import AbiWrapper.Proofs.StagedRecycling
import AbiWrapper.Proofs.PerfectHash
import AbiWrapper.Proofs.HandleBijection
import AbiWrapper.Proofs.SerialHistory
import AbiWrapper.Proofs.ErrorHistory
import AbiWrapper.Proofs.ErrorClass
import AbiWrapper.Proofs.Conversion
import AbiWrapper.Proofs.Significance
import AbiWrapper.Proofs.TwoRuns
import AbiWrapper.Proofs.InPlace
import AbiWrapper.Proofs.IgnoredCounts
import AbiWrapper.Proofs.StagedSteps
import AbiWrapper.Proofs.StagedTable
import AbiWrapper.Proofs.StagedLifetime
import AbiWrapper.Proofs.KeyvalHistory
import AbiWrapper.Proofs.PoolDispatch
import AbiWrapper.Proofs.FortranInfo
import AbiWrapper.Proofs.Spawn
import AbiWrapper.Proofs.RegistryOps
import AbiWrapper.Proofs.SerialOps
import AbiWrapper.Proofs.ToolEvents
import AbiWrapper.Proofs.Datatypes
import AbiWrapper.Proofs.HandleErrors
import AbiWrapper.Proofs.OutParams
import AbiWrapper.Proofs.FallbackGen
import AbiWrapper.Proofs.FallbackOutputs
import AbiWrapper.Proofs.LargeCount
import AbiWrapper.Proofs.StagedHistory
import AbiWrapper.Proofs.Status
import AbiWrapper.Proofs.AutobufSteps
import AbiWrapper.Proofs.AutobufOps
import AbiWrapper.Proofs.Buffers
import AbiWrapper.Proofs.EventCallbacks
import AbiWrapper.Proofs.Attributes
import AbiWrapper.Proofs.SpawnErrcodes
import AbiWrapper.Proofs.Constants
import AbiWrapper.Proofs.Bitmasks
import AbiWrapper.Proofs.Narrowing
import AbiWrapper.Proofs.StagedLayout
import AbiWrapper.Proofs.Degrees
import AbiWrapper.Proofs.DynamicIndex
import AbiWrapper.Proofs.StatusOps
import AbiWrapper.Proofs.Bodies
import AbiWrapper.Proofs.ExtraState
import AbiWrapper.Proofs.FortranBooleans
import AbiWrapper.Proofs.HeaderNames
import AbiWrapper.Proofs.Vtable
import AbiWrapper.Proofs.Bootstrap
