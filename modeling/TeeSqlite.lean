import TeeSqlite.Lib.Runs
import TeeSqlite.Lib.ByteFile
import TeeSqlite.Lib.CTypes
import TeeSqlite.Lib.IdealAE
import TeeSqlite.Vfs.DemoFile
import TeeSqlite.Vfs.Disk
import TeeSqlite.Vfs.Buffer
import TeeSqlite.Vfs.Coalesce
import TeeSqlite.Vfs.Overlay
import TeeSqlite.Vfs.Durable
import TeeSqlite.Rpc.Message
import TeeSqlite.Rpc.Supplicant
import TeeSqlite.Rpc.Syscalls
import TeeSqlite.Rpc.Marshalling
import TeeSqlite.Rpc.Failure
import TeeSqlite.Hashmap.Hashmap
import TeeSqlite.Hashmap.Nodes
import TeeSqlite.Hashmap.Chains
import TeeSqlite.Hashmap.Accounting
import TeeSqlite.Hashmap.Atomic
import TeeSqlite.Hashmap.FiniteMap
import TeeSqlite.Hashmap.Bounds
import TeeSqlite.Codec.Tee
import TeeSqlite.Codec.Codec
import TeeSqlite.Codec.CodecExt
import TeeSqlite.Codec.Authentic
import TeeSqlite.Codec.Ideal
import TeeSqlite.Codec.TagSlot
import TeeSqlite.Codec.Databases
import TeeSqlite.Codec.RecordedTags
import TeeSqlite.Codec.MacLog
import TeeSqlite.Codec.LoadTags
import TeeSqlite.Codec.RoundTrip
import TeeSqlite.Codec.Nonces
import TeeSqlite.Codec.FailedEncryption
import TeeSqlite.Codec.Rekey
import TeeSqlite.Codec.KeyState
import TeeSqlite.Codec.Pager
import TeeSqlite.Codec.RekeyPages
import TeeSqlite.Codec.Rekeyed
import TeeSqlite.Codec.FailedRekey
import TeeSqlite.Codec.Passwords
import TeeSqlite.Lib.AddressSpace
import TeeSqlite.Lib.Chunks
import TeeSqlite.Lib.LastWrite
import TeeSqlite.Rpc.Pointers
import TeeSqlite.Rpc.Remote
import TeeSqlite.Rpc.UntrustedReads
import TeeSqlite.Vfs.Host
import TeeSqlite.Vfs.Agreement
import TeeSqlite.Rpc.Accesses
import TeeSqlite.Rpc.Validated
import TeeSqlite.Rpc.Regions
import TeeSqlite.Lib.Brackets
import TeeSqlite.Rpc.Payloads
import TeeSqlite.Rpc.Discipline
import TeeSqlite.Vfs.FullPath
import TeeSqlite.Vfs.Delete
import TeeSqlite.Vfs.Progress
import TeeSqlite.Codec.TeeHandles
import TeeSqlite.Lib.Jobs
import TeeSqlite.Lib.Oracles
import TeeSqlite.Lib.Tally
import TeeSqlite.Rpc.Transactions
import TeeSqlite.Rpc.Invoke
import TeeSqlite.Rpc.Threads
import TeeSqlite.Rpc.Waiters
import TeeSqlite.Rpc.Sessions
import TeeSqlite.Rpc.Serial
import TeeSqlite.Rpc.Registry
import TeeSqlite.Rpc.Custody
import TeeSqlite.Codec.PageFile
import TeeSqlite.Codec.PageStore
import TeeSqlite.Hashmap.Cells
import TeeSqlite.Lib.Descriptors
import TeeSqlite.Vfs.Descriptors
import TeeSqlite.Codec.HostedPages
import TeeSqlite.Codec.Secrecy
import TeeSqlite.Vfs.InOrder
import TeeSqlite.Codec.TornLog
import TeeSqlite.Codec.Restart
