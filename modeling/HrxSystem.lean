import HrxSystem.External.Runs
import HrxSystem.Counting.Heap
import HrxSystem.Libhrx.TimelineValues
import HrxSystem.Libhrx.CommandProtocol
import HrxSystem.Libhrx.CommandOwnership
import HrxSystem.Libhrx.BatchedRuns
import HrxSystem.Libhrx.FailedRecording
import HrxSystem.Timeline.InOrder
import HrxSystem.Timeline.Carried
import HrxSystem.Libhrx.Lanes
import HrxSystem.Libhrx.TimelineSound
import HrxSystem.Libhrx.Dependencies
import HrxSystem.Libhrx.Buffer
import HrxSystem.Libhrx.Mappings
import HrxSystem.External.Triples
import HrxSystem.Libhrx.MappedBuffers
import HrxSystem.Libhrx.Ledger
import HrxSystem.Libhrx.Runtime
import HrxSystem.Libhrx.RuntimeBooks
import HrxSystem.Libhrx.RuntimeInit
import HrxSystem.Libhrx.RuntimeRuns
import HrxSystem.Hip.Table
import HrxSystem.Hip.Tracer
import HrxSystem.Libhrx.ExactPool
import HrxSystem.Hip.LiveBuffers
import HrxSystem.Hip.FreedMemory
import HrxSystem.Hip.Intercept
import HrxSystem.Hip.Logging
import HrxSystem.Hip.TableRuns
import HrxSystem.Hip.Transparency
import HrxSystem.Threads.Blocking
import HrxSystem.Hip.Deadlock
import HrxSystem.Hip.DumpRuns
import HrxSystem.Hip.Launches
import HrxSystem.Libhrx.SemaphoreLists
import HrxSystem.Libhrx.Executable
import HrxSystem.Libhrx.Module
import HrxSystem.Libhrx.Accounts
import HrxSystem.Libhrx.References
import HrxSystem.Libhrx.Ownership
import HrxSystem.Libhrx.Transfers
import HrxSystem.Libhrx.DevicePointers
import HrxSystem.Libhrx.StreamQueries
import HrxSystem.Libhrx.ValueLists
import HrxSystem.Libhrx.VirtualMemory
import HrxSystem.Hip.Dumps
import HrxSystem.Hip.HexDumps
import HrxSystem.Libhrx.Enumeration
import HrxSystem.Libhrx.DispatchPaths
import HrxSystem.Libhrx.BufferView
import HrxSystem.Libhrx.Drivers
import HrxSystem.Libhrx.Releases
import HrxSystem.Libhrx.Creations
import HrxSystem.Libhrx.Uses
import HrxSystem.Libhrx.RuntimeOwnership
import HrxSystem.Libhrx.Api
import HrxSystem.Libhrx.ApiRuns
import HrxSystem.Libhrx.DeviceLives
import HrxSystem.Libhrx.Drops
import HrxSystem.Libhrx.Worth
import HrxSystem.Libhrx.Payloads
import HrxSystem.Libhrx.AllOrNothing
import HrxSystem.Libhrx.StatusCodes
import HrxSystem.Libhrx.Timeouts
import HrxSystem.Text.CStrings
import HrxSystem.Text.Numerals
import HrxSystem.Libhrx.DeviceProperties
import HrxSystem.Hip.Atoi
import HrxSystem.Libhrx.Progress
import HrxSystem.Libhrx.HostCalls
import HrxSystem.Libhrx.SharedHandles
import HrxSystem.External.Flows
import HrxSystem.Threads.Turns
import HrxSystem.Threads.Logs
import HrxSystem.Threads.Once
import HrxSystem.Hip.Concurrent
import HrxSystem.Hip.Loading
import HrxSystem.Threads.Blocks
import HrxSystem.Libhrx.StatusMemory
import HrxSystem.Hip.Histories
import HrxSystem.Threads.Guarded
import HrxSystem.Hip.ThreadedReads
