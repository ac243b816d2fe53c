import DigRelay.Server.Access
import DigRelay.Server.Background

/-!
# Which shared state an access touches

An access of a connection task is confined to one part of the shared state: the abuse limits, the
counter of open connections, the traffic counters, the DHT answers, the registry with its counter,
or the exchange.
-/

namespace DigRelay

open Common

variable {crates : Crates}

/-- The shared state after an access, by the part it touches. -/
inductive Touch (relay : Relay crates) (conn : Conn crates) : Relay crates → Prop
  | limits (abuse : AbuseState) : Touch relay conn { relay with abuse }
  | opened (hphase : conn.phase = .acquireOpen) :
      Touch relay conn { relay with openConnections := relay.openConnections + 1 }
  | closed (hphase : conn.phase = .dropOpen) :
      Touch relay conn { relay with openConnections := relay.openConnections - 1 }
  | traffic {msg : RelayMessage} (hphase : conn.phase = .record msg) :
      Touch relay conn (relay.recordRelayed msg)
  | answer {msg : RelayMessage} (hphase : conn.phase = .intercept msg) :
      Touch relay conn (relay.recordDhtAnswer conn.session msg)
  | records (registry : Registry) (connected : UInt64) :
      Touch relay conn { relay with registry, connected }
  | exchange (pex : PexRelay crates) : Touch relay conn { relay with pex }

variable {setup : Setup} {clock : Clock} {closed : ConnId → Bool} {c : ConnId}
  {relay relay' : Relay crates} {conn conn' : Conn crates}

/-- Every access touches one part of the shared state. -/
theorem access_touch (h : access setup clock closed c relay conn = some (relay', conn')) :
    Touch relay conn relay' := by
  obtain ⟨phase, hphase, haccess⟩ := access_cases h
  cases haccess with
  | opened => exact .opened hphase
  | closed => exact .closed hphase
  | recorded => exact .traffic hphase
  | intercepted => exact .answer hphase
  | entered hverdict =>
    obtain ⟨-, -, -, -, hrelay⟩ := registerVerdict_accepted hverdict
    rcases hrelay with ⟨-, hrelay⟩ | ⟨-, hrelay⟩
    · rw [hrelay]
      exact .records relay'.registry _
    · rw [hrelay]
      exact .records relay'.registry relay.connected
  | removed hpeerId hnetworkId hremove =>
    obtain ⟨-, hrelay, -⟩ := removeLocked_some hremove
    rw [hrelay]
    exact .records _ _
  | mirrored | handshook | data | badFrame | unmirrored => exact .exchange _
  | banned | notBanned | acquired | refusedConn | struck | allowed | notAllowed | reserved
  | committed | refused | releasedReg | releasedConn => exact .limits _
  | _ => exact .limits relay.abuse

/-- The part of a connection that its shared accesses leave alone: who it is, its budgets, its
activity and its channels. -/
def Conn.surface (conn : Conn crates) :
    SocketAddr × Option String × PerConnLimiter × ℕ × Channel RelayMessage × Channel crates.Message :=
  (conn.addr, conn.identity, conn.limiter, conn.lastActivity, conn.out, conn.pexOut)

/-- Carrying out a decision on a message leaves the surface alone. -/
theorem intercept_surface (c : ConnId) (conn : Conn crates) (msg : RelayMessage) :
    (conn.intercept c msg).surface = conn.surface := by
  unfold Conn.intercept
  split
  · rfl
  · unfold Conn.carryOut
    split <;> rfl

/-- Every access leaves the surface of its connection alone. -/
theorem access_surface (h : access setup clock closed c relay conn = some (relay', conn')) :
    conn'.surface = conn.surface := by
  obtain ⟨phase, -, haccess⟩ := access_cases h
  cases haccess with
  | intercepted => exact intercept_surface c conn _
  | _ => rfl

end DigRelay
