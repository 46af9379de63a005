import Nbstftp.Confinement
import Nbstftp.LockStep
import Nbstftp.Write
import Nbstftp.Acknowledgement
import Nbstftp.Endpoint
import Nbstftp.Capacity
import Nbstftp.Flush
import Nbstftp.Failure
import Nbstftp.Interest
import Nbstftp.Retransmission
import Nbstftp.Direction
import Nbstftp.Lookup
import Nbstftp.Sockets
import Nbstftp.Admission
import Nbstftp.Handles
import Nbstftp.Files
import Nbstftp.Marked
import Nbstftp.Answer
import Nbstftp.Handshake
import Nbstftp.Dispatch
import Nbstftp.Backends
import Nbstftp.Rehash
import Nbstftp.Position
import Nbstftp.Accounts
import Nbstftp.Fidelity
import Nbstftp.Counters
import Nbstftp.Storage
import Nbstftp.Encoding
import Nbstftp.Checking
import Nbstftp.Options
import Nbstftp.Messages
import Nbstftp.Polling
import Nbstftp.Watched
import Nbstftp.Fields
import Nbstftp.Privileges
import Nbstftp.CommandLine
import Nbstftp.Events
import Nbstftp.Uninitialised
import Nbstftp.Allocation
import Nbstftp.Numbers
import Nbstftp.Comments
import Nbstftp.Lines
import Nbstftp.Language
import Nbstftp.Acceptance
import Nbstftp.Growth
import Nbstftp.PidFile
import Nbstftp.Survival
import Nbstftp.Modules
import Nbstftp.Printing
import Nbstftp.Selecting
import Nbstftp.Released
import Nbstftp.Delivery
import Nbstftp.Startup
import Nbstftp.Shutdown
import Nbstftp.Serving
