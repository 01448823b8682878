import Netresolve.Library.Outcome
import Netresolve.Library.Past
import Netresolve.Library.Insertion
import Netresolve.Library.Frontier
import Netresolve.Library.Bytes
import Netresolve.Library.Store
import Netresolve.Library.Ring
import Netresolve.Library.Approximation
import Netresolve.Library.CString
import Netresolve.Library.Lines
import Netresolve.Core.Service
import Netresolve.Core.ServiceFile
import Netresolve.Core.Types
import Netresolve.Core.Release
import Netresolve.Core.Parse
import Netresolve.Core.Event
import Netresolve.Core.Report
import Netresolve.Core.PathArray
import Netresolve.Core.Walk
import Netresolve.Core.Addrinfo
import Netresolve.Core.Compat
import Netresolve.Core.Hostent
import Netresolve.Core.Packing
import Netresolve.Core.Nsswitch
import Netresolve.Core.Asyncns
import Netresolve.Core.Strings
import Netresolve.Core.Text
import Netresolve.Core.Loop
import Netresolve.Core.Query
import Netresolve.Core.Course
import Netresolve.Core.Run
import Netresolve.Core.Net
import Netresolve.Core.Pool
import Netresolve.Core.Memory
import Netresolve.Core.Socket
import Netresolve.Core.Listen
import Netresolve.Core.Options
import Netresolve.Backends.Dns
import Netresolve.Backends.Hosts
import Netresolve.Backends.Watching
import Netresolve.Core.BackendString
import Netresolve.Backends.Loopback
import Netresolve.Backends.Hostname
import Netresolve.Backends.Libc
import Netresolve.Proofs.ServiceFile
import Netresolve.Proofs.Hosts
import Netresolve.Proofs.Frame
import Netresolve.Proofs.Paths
import Netresolve.Proofs.Service
import Netresolve.Proofs.Ledger
import Netresolve.Proofs.Books
import Netresolve.Proofs.Machine
import Netresolve.Proofs.Visible
import Netresolve.Proofs.Fuel
import Netresolve.Proofs.Running
import Netresolve.Proofs.Timers
import Netresolve.Proofs.Trace
import Netresolve.Proofs.Loose
import Netresolve.Proofs.Leave
import Netresolve.Proofs.Calls
import Netresolve.Proofs.Mirror
import Netresolve.Proofs.Freed
import Netresolve.Proofs.Response
import Netresolve.Proofs.Secure
import Netresolve.Proofs.Reliable
import Netresolve.Proofs.Mandatory
import Netresolve.Proofs.Order
import Netresolve.Proofs.Counters
import Netresolve.Proofs.Courses
import Netresolve.Proofs.Priv
import Netresolve.Proofs.Shared
import Netresolve.Proofs.Leaks
import Netresolve.Proofs.Sockets
import Netresolve.Proofs.Recursion
import Netresolve.Proofs.Listen
import Netresolve.Proofs.Families
import Netresolve.Proofs.Preference
import Netresolve.Proofs.Descriptors
import Netresolve.Proofs.Requests
import Netresolve.Proofs.Waiting
import Netresolve.Proofs.Pauses
import Netresolve.Proofs.Walks
import Netresolve.Proofs.Dns
import Netresolve.Proofs.Answers
import Netresolve.Proofs.Pending
import Netresolve.Proofs.Verdict
import Netresolve.Proofs.Confluence
import Netresolve.Proofs.Srv
import Netresolve.Proofs.Loop
import Netresolve.Proofs.Select
import Netresolve.Proofs.Addrinfo
import Netresolve.Proofs.Ports
import Netresolve.Proofs.Compat
import Netresolve.Proofs.Hostent
import Netresolve.Proofs.Watching
import Netresolve.Proofs.Channel
import Netresolve.Proofs.Packing
import Netresolve.Proofs.Nsswitch
import Netresolve.Proofs.ReverseName
import Netresolve.Proofs.Libc
import Netresolve.Proofs.Reverse
import Netresolve.Proofs.Hostname
import Netresolve.Proofs.Registry
import Netresolve.Proofs.BackendString
import Netresolve.Proofs.Asyncns
import Netresolve.Proofs.Strings
import Netresolve.Proofs.Text
import Netresolve.Core.Nameinfo
import Netresolve.Backends.Numerichost
import Netresolve.Backends.Exec
import Netresolve.Backends.Nss
import Netresolve.Proofs.Nameinfo
import Netresolve.Proofs.Exec
import Netresolve.Proofs.Zones
import Netresolve.Proofs.PathText
import Netresolve.Proofs.Nss
import Netresolve.Core.Blocking
import Netresolve.Proofs.Armed
import Netresolve.Proofs.Blocking
import Netresolve.Proofs.Deadlines
import Netresolve.Core.Chain
import Netresolve.Proofs.Chain
import Netresolve.Backends.Defaults
import Netresolve.Proofs.Defaults
import Netresolve.Proofs.Later
import Netresolve.Backends.Avahi
import Netresolve.Proofs.Avahi
import Netresolve.Proofs.Browsers
import Netresolve.Proofs.Polls
