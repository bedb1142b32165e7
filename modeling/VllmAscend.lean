import VllmAscend.Core.Gate
import VllmAscend.Core.Table
import VllmAscend.Core.Readiness
import VllmAscend.Core.Constraints
import VllmAscend.Core.Stall
import VllmAscend.Core.Watermark
import VllmAscend.Distributed.MooncakeLoads
import VllmAscend.Distributed.LLMDataDistAlignment
import VllmAscend.Distributed.LLMDataDistRelease
import VllmAscend.Distributed.HeadSharding
import VllmAscend.Distributed.MooncakeDone
import VllmAscend.Distributed.SocketPool
import VllmAscend.Worker.BlockTables
import VllmAscend.Worker.AllowedTokenMask
import VllmAscend.Worker.TokenLimit
import VllmAscend.Worker.MetadataOrder
import VllmAscend.Sample.TargetDistribution
import VllmAscend.Worker.DrafterPropose
import VllmAscend.Kernels.GetMaskedInputAndMask
import VllmAscend.Ops.ExpertLoadBalancer
import VllmAscend.Attention.WeightAbsorption
import VllmAscend.DeviceAllocator.SleepMode
import VllmAscend.Ops.TokenDispatcherWithAllGather
import VllmAscend.Ops.All2AllBuffer
import VllmAscend.Torchair.MLAMetadata
import VllmAscend.Ops.TokenDispatcherWithMC2
import VllmAscend.Ops.TokenDispatcherWithAll2AllV
import VllmAscend.Ops.FusedExpertsMoge
import VllmAscend.Ops.FusedExpertsWithAll2AllQuant
import VllmAscend.Lora.PunicaNpu
import VllmAscend.Models.Qwen25VL
import VllmAscend.Worker.PrepareInputs
import VllmAscend.Worker.SpecDecodeMetadata
import VllmAscend.Worker.GrammarBitmask
import VllmAscend.Worker.MmEmbeddings
import VllmAscend.Attention.MLABatch
import VllmAscend.Attention.MLAChunkedContext
import VllmAscend.Machinery.PaddedRows
import VllmAscend.Ops.VanillaChunkedPrefill
import VllmAscend.Attention.FallbackAttention
import VllmAscend.Machinery.TopK
import VllmAscend.Ops.ExpertsSelector
import VllmAscend.Multistream.MsSplit
import VllmAscend.DeviceAllocator.RoundTrip
import VllmAscend.Machinery.MatrixView
import VllmAscend.Attention.AttentionMask
import VllmAscend.Kernels.RotaryEmbedding
import VllmAscend.Machinery.Strided
import VllmAscend.Lora.LoraLogits
import VllmAscend.Machinery.Rotation
import VllmAscend.Ops.DeepseekRotary
import VllmAscend.Machinery.Nucleus
import VllmAscend.Sample.TopKTopP
import VllmAscend.Machinery.Raster
import VllmAscend.Models.VisionWindows
import VllmAscend.Machinery.Shaped
import VllmAscend.Machinery.Collective
import VllmAscend.Distributed.AllToAll
import VllmAscend.Distributed.TensorParallel
import VllmAscend.Machinery.Indexed
import VllmAscend.Attention.NzLayout
import VllmAscend.Ops.SequenceParallel
import VllmAscend.Distributed.Communication310p
import VllmAscend.Models.PanguRouting
import VllmAscend.Sample.PossibleTokens
import VllmAscend.Machinery.Runs
import VllmAscend.Distributed.GroupedTransfer
import VllmAscend.Distributed.UnequalTransfer
import VllmAscend.Worker.PoolingBatch
import VllmAscend.Worker.PoolingRuns
import VllmAscend.Kernels.ExpandTiles
import VllmAscend.Distributed.RankGrid
import VllmAscend.Ops.FusedMoELayer
import VllmAscend.Worker.TokenBuffer
import VllmAscend.Worker.ScheduledDrafts
import VllmAscend.Multistream.MLASplit
