import LibNrm.Data.Table
import LibNrm.Data.Run
import LibNrm.Messages.Print
import LibNrm.Server
import LibNrm.EventBase
import LibNrm.EventBase.Exactness
import LibNrm.Control.Europar21
import LibNrm.Daemon
import LibNrm.Data.Windows
import LibNrm.Control.Windows
import LibNrm.Registry
import LibNrm.Server.Handlers
import LibNrm.Registry.Refinement
import LibNrm.Registry.Removal
import LibNrm.Messages.RoundTrip
import LibNrm.Data.Arena
import LibNrm.Messages.Heap
import LibNrm.Registry.Replies
import LibNrm.Actuation
import LibNrm.Safety
import LibNrm.Client
import LibNrm.Client.Codecs
import LibNrm.Actuator.Writers
import LibNrm.Data.Pipeline
import LibNrm.Roles
import LibNrm.Roles.Correlation
import LibNrm.Roles.Discipline
import LibNrm.Data.References
import LibNrm.Roles.Topics
import LibNrm.Server.Shutdown
import LibNrm.Delivery
import LibNrm.Daemon.Reachable
import LibNrm.Daemon.Ownership
import LibNrm.Daemon.Listing
import LibNrm.Daemon.Actuation
import LibNrm.Messages.Teardown
import LibNrm.Control.Progress
import LibNrm.Control.Range
import LibNrm.Data.Grouping
import LibNrm.EventBase.Order
import LibNrm.Control.Rates
import LibNrm.Actuator.Nearest
import LibNrm.Daemon.Tick
import LibNrm.Scope.Json
import LibNrm.Utils.Rendering
import LibNrm.Data.Buffer
import LibNrm.Scope.Print
import LibNrm.Utils.Parsers
import LibNrm.Utils.Vectors
import LibNrm.Utils.Join
import LibNrm.Utils.Strings
import LibNrm.Preloads.Ompt
import LibNrm.Preloads.Scopes
import LibNrm.Data.Ring
import LibNrm.Utils.Ringbuffer
import LibNrm.Utils.Timers
import LibNrm.Actuator.RoundTrip
import LibNrm.Data.Linked
import LibNrm.Utils.Uthash
import LibNrm.Utils.Uthash.Buckets
import LibNrm.Utils.Uthash.Expansion
import LibNrm.Utils.Uthash.Tables
import LibNrm.Utils.Hashes.Pointers
import LibNrm.Utils.Utarray
import LibNrm.Utils.Utarray.Blocks
import LibNrm.Utils.Utarray.Refinement
import LibNrm.Hwloc
import LibNrm.Preloads.Placement
import LibNrm.Preloads.Mpi
import LibNrm.Roles.Startup
import LibNrm.Roles.Startup.Invariant
import LibNrm.Roles.Startup.Progress
import LibNrm.EventBase.Ownership
import LibNrm.EventBase.Sharing
import LibNrm.Daemon.Strings
import LibNrm.Data.Getopt
import LibNrm.Tools
import LibNrm.Tools.Nrmc
import LibNrm.Tools.Libraries
import LibNrm.Tools.Lines
import LibNrm.Preloads.Geopm
