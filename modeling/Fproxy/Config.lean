import Mathlib.Init

/-!
# Configuration data

The parts of `config.rs` that the running client reads: server endpoints and their protocols; and
the interval at which client and server look for sessions that have expired.
-/

namespace Fproxy.Config

/-- `Protocol`. -/
inductive Protocol where
  | udp
  | tcp
  deriving DecidableEq, Repr

/-- `Endpoint`. -/
structure Endpoint where
  address : String
  protocol : Protocol
  deriving DecidableEq, Repr

/-- The addresses of the endpoints of a protocol, in order. -/
def addressesOf (p : Protocol) (servers : List Endpoint) : List String :=
  (servers.filter (·.protocol = p)).map Endpoint.address

/-- The interval of `session_cleanup_loop`, on either side, in nanoseconds. -/
def cleanupInterval (sessionTimeout : Nat) : Nat :=
  max (min sessionTimeout (10 * 1000000000)) (100 * 1000000)

end Fproxy.Config
