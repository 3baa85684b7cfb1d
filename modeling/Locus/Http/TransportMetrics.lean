import Mathlib.Data.UInt

/-!
# Connection counters

The counters that the listener and the tasks of its connections share. Each of them is an
atomic word that wraps.
-/

namespace Locus.Http

structure TransportMetrics where
  acceptedConnections : UInt64 := 0
  activeConnections : UInt64 := 0
  acceptErrors : UInt64 := 0
  connectionErrors : UInt64 := 0
  forcedCloses : UInt64 := 0
  deriving DecidableEq

namespace TransportMetrics

/-- The first half of `connection_opened`. -/
def countAccepted (metrics : TransportMetrics) : TransportMetrics :=
  { metrics with acceptedConnections := metrics.acceptedConnections + 1 }

/-- The second half of `connection_opened`. -/
def countActive (metrics : TransportMetrics) : TransportMetrics :=
  { metrics with activeConnections := metrics.activeConnections + 1 }

/-- `TransportConnection::drop` -/
def connectionDropped (metrics : TransportMetrics) : TransportMetrics :=
  { metrics with activeConnections := metrics.activeConnections - 1 }

def recordAcceptError (metrics : TransportMetrics) : TransportMetrics :=
  { metrics with acceptErrors := metrics.acceptErrors + 1 }

def recordConnectionError (metrics : TransportMetrics) : TransportMetrics :=
  { metrics with connectionErrors := metrics.connectionErrors + 1 }

def recordForcedCloses (metrics : TransportMetrics) (count : ℕ) : TransportMetrics :=
  { metrics with forcedCloses := metrics.forcedCloses + .ofNat count }

end TransportMetrics

end Locus.Http
