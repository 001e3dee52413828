import Amps.Kernel.Transition
import Amps.Kernel.Simulation
import Amps.Kernel.Broker
import Amps.Kernel.Fairness
import Amps.Kernel.Rest
import Amps.Kernel.Cell
import Amps.Kernel.Linear
import Amps.Kernel.Separated
import Amps.Kernel.Wildcard
import Amps.Core.Context
import Amps.Core.Session
import Amps.Core.Exchange
import Amps.Core.Service
import Amps.Core.Invariant
import Amps.Security.Outcomes
import Amps.Security.Publishing
import Amps.Security.Binding
import Amps.Security.Finality
import Amps.Security.Race
import Amps.Security.Atomicity
import Amps.Security.Disconnect
import Amps.Security.Handshake
import Amps.Security.Isolation
import Amps.Security.Addressing
import Amps.Security.Classification
import Amps.Security.Rejection
import Amps.Delivery.Refinement
import Amps.Delivery.Accounts
import Amps.Delivery.Channels
import Amps.Delivery.Liveness
import Amps.Delivery.History
import Amps.Delivery.Heard
import Amps.Delivery.Dropped
import Amps.Delivery.Convergence
import Amps.Delivery.Concurrent
import Amps.Delivery.Strangers
import Amps.Delivery.Rest
