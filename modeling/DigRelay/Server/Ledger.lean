import DigRelay.Common.TaskPool
import DigRelay.Server.Run

/-!
# The registration ledger

Most of the state plays no part in who is registered where. The ledger keeps what does: the
registry and its counter, the exchange senders, the registration counts per source, and for
each connection its address, its identity, whether its channel is closed, the id and network
it acts under, the id it may be mirrored under, and the registration slots it holds.

A connection takes its seat when its record is entered, before the session is updated, and
gives it up when its teardown has passed the registry.
-/

namespace DigRelay

open Common

variable {crates : Crates}

/-- The id and network of a session. -/
def Session.seat (session : Session) : Option (String × String) :=
  session.peerId.bind fun peerId => session.networkId.map fun networkId => (peerId, networkId)

/-- The id and network a connection acts under. -/
def Conn.seat (conn : Conn crates) : Option (String × String) :=
  match conn.phase with
  | .registerPex request _ => some (request.peerId, request.networkId)
  | .registerCommit request _ => some (request.peerId, request.networkId)
  | .deregisterPex _ _ => none
  | .awaitWriter => none
  | .dropReg => none
  | .dropConn => none
  | .dropOpen => none
  | .ended => none
  | _ => conn.session.seat

/-- The id a connection may be mirrored under in the exchange: its seat, or the seat it has
given up when the mirrored departure is still to come. -/
def Conn.mirror (conn : Conn crates) : Option String :=
  match conn.phase with
  | .deregisterPex peerId _ => some peerId
  | _ => conn.seat.map Prod.fst

/-- A registration slot acquired but not yet kept. -/
def Conn.pendingSlot (conn : Conn crates) : Option Slot :=
  match conn.phase with
  | .registerLocked _ slot => some slot
  | .registerPex _ slot => some slot
  | .registerCommit _ slot => some slot
  | .refuse slot => some slot
  | _ => none

/-- What the ledger keeps of a connection. -/
structure Entry where
  addr : SocketAddr
  identity : Option String
  closed : Bool
  seat : Option (String × String)
  mirror : Option String
  kept : Option Slot
  pending : Option Slot
  deriving DecidableEq

/-- The entry of a connection. -/
def Conn.entry (conn : Conn crates) : Entry :=
  { addr := conn.addr
    identity := conn.identity
    closed := conn.out.closed
    seat := conn.seat
    mirror := conn.mirror
    kept := conn.regSlot
    pending := conn.pendingSlot }

/-- Registry, counter, exchange senders, registration counts and connection entries. -/
structure Ledger where
  registry : Registry
  connected : UInt64
  senders : Table String ConnId
  regs : Table IpKey ℕ
  entries : List Entry

/-- The ledger of a relay and its connections. -/
def ledgerOf (relay : Relay crates) (conns : List (Conn crates)) : Ledger :=
  { registry := relay.registry
    connected := relay.connected
    senders := relay.pex.conns
    regs := relay.abuse.regsPerIp
    entries := conns.map Conn.entry }

/-- The ledger of a system. -/
def System.ledger (sys : System crates) : Ledger := ledgerOf sys.relay sys.conns

/-- Replace the entry of one connection. -/
def Ledger.setEntry (ledger : Ledger) (c : ConnId) (entry : Entry) : Ledger :=
  { ledger with entries := ledger.entries.set c entry }

/-- The seat of a numbered connection. -/
def Ledger.seat (ledger : Ledger) (c : ConnId) : Option (String × String) :=
  ledger.entries[c]?.bind Entry.seat

/-- The id a numbered connection may be mirrored under. -/
def Ledger.mirror (ledger : Ledger) (c : ConnId) : Option String :=
  ledger.entries[c]?.bind Entry.mirror

end DigRelay
