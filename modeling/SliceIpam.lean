import SliceIpam.Net.Basic
import SliceIpam.Net.Text
import SliceIpam.Allocator.Helpers
import SliceIpam.Allocator.Pool
import SliceIpam.Allocator.Registry
import SliceIpam.Net.IPv4
import SliceIpam.V4.Block
import SliceIpam.V4.Split
import SliceIpam.V4.Pool
import SliceIpam.V4.Coalesce
import SliceIpam.V4.Invariant
import SliceIpam.V4.Text
import SliceIpam.Spec.Slice
import SliceIpam.Run.Reachable
import SliceIpam.Run.Partition
import SliceIpam.Run.Fragmentation
import SliceIpam.Run.Calls
import SliceIpam.Run.FreeList
import SliceIpam.Run.Isolation
import SliceIpam.Run.Refinement
import SliceIpam.Run.Coalesced
