import SciAttention.Core.Types
import SciAttention.Attention.Config
import SciAttention.Attention.Decode
import SciAttention.Attention.Paged
import SciAttention.Attention.PagedDecode
import SciAttention.Attention.PagedEntry
import SciAttention.Attention.PagedRows
import SciAttention.Attention.PagedSafety
import SciAttention.KvCache.Admission
import SciAttention.KvCache.Failure
import SciAttention.KvCache.History
import SciAttention.KvCache.MultiLayer
import SciAttention.Attention.Addressing
import SciAttention.Attention.BlockReduce
import SciAttention.Attention.Flash
import SciAttention.Attention.FlashForward
import SciAttention.Attention.Naive
import SciAttention.Attention.Isolation
import SciAttention.Attention.Incremental
import SciAttention.Attention.NaiveThreads
import SciAttention.Attention.DecodeThreads
import SciAttention.Attention.TiledInterleaved
import SciAttention.Attention.NaiveSpec
import SciAttention.Attention.PipelineSafety
import SciAttention.Attention.Reads
import SciAttention.Attention.SplitCounts
import SciAttention.Common.Diamond
import SciAttention.Common.Results
import SciAttention.Common.Runs
import SciAttention.Common.Simt
import SciAttention.Common.SimtRun
import SciAttention.Core.Workspace
import SciAttention.Dispatch.Agreement
import SciAttention.Dispatch.Answers
import SciAttention.Dispatch.Coverage
import SciAttention.Dispatch.Features
import SciAttention.Dispatch.InBounds
import SciAttention.Dispatch.Layouts
import SciAttention.Dispatch.Varlen
import SciAttention.Dispatch.VarlenRows
import SciAttention.Dispatch.Rows
import SciAttention.Dispatch.Chunks
import SciAttention.Examples.RolloutOutcome
import SciAttention.Examples.RolloutRun
import SciAttention.KvCache.AppendSafety
import SciAttention.KvCache.BlockPool
import SciAttention.KvCache.SlotMapping
import SciAttention.KvCache.Stream
import SciAttention.Attention.MaskedRows
import SciAttention.Benchmarks.Flops
import SciAttention.Core.ScratchPool
import SciAttention.Dispatch.FreeMemory
import SciAttention.Dispatch.Notes
import SciAttention.KvCache.SlotBuffer
import SciAttention.Attention.KvPaths
import SciAttention.Core.HighWater
import SciAttention.Attention.Residency
import SciAttention.Tools.GgufAcceptance
import SciAttention.KvCache.Budget
