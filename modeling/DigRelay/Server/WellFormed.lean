import DigRelay.Server.Access
import DigRelay.Server.Move

/-!
# Well-formed connection tasks

A connection's session names an id and a network together or neither, it is empty until the
connection speaks the relay wire, and while it names an id the connection keeps a registration
slot. A message on its way out names the session's own id as its sender, if it names one at
all. Every transition keeps this for every connection.
-/

namespace DigRelay

open Common

variable {crates : Crates}

/-- The connection has already given its registration slot back. -/
def Phase.isReleased : Phase crates → Bool
  | .dropConn | .dropOpen | .ended => true
  | _ => false

/-- Id and network are set together, a registered connection keeps its slot until the end, and
the phase carries only what the session allows. -/
structure Conn.WellFormed (conn : Conn crates) : Prop where
  paired : conn.session.peerId.isSome = conn.session.networkId.isSome
  slotted : conn.session.peerId.isSome → conn.regSlot.isSome ∨ conn.phase.isReleased = true
  phased :
    match conn.phase with
    | .checkBan | .checkOpen | .acquireOpen | .acquireConn | .refuseConn | .readHead =>
      conn.session.peerId = none
    | .forwardTo _ msg =>
      ∃ peerId, conn.session.peerId = some peerId ∧
        (msg.originator = none ∨ msg.originator = some peerId)
    | .broadcast sender _ msg => conn.session.peerId = some sender ∧ msg.originator = some sender
    | .pexHandshake _ => conn.session.peerId.isSome
    | _ => True

/-- Every connection of the system is well formed. -/
def System.WellFormed (sys : System crates) : Prop := ∀ conn ∈ sys.conns, conn.WellFormed

/-- An exchange frame starts a handshake only on a registered connection. -/
theorem takePexFrame_wellFormed {c : ConnId} {conn : Conn crates} {decoded : Option crates.Message}
    (hidle : conn.phase = .idle) (hwf : conn.WellFormed) :
    (conn.takePexFrame c decoded).WellFormed := by
  have hslotted (hsome : conn.session.peerId.isSome) : conn.regSlot.isSome := by
    simpa [hidle, Phase.isReleased] using hwf.slotted hsome
  unfold Conn.takePexFrame pexDispatch
  split
  · exact ⟨hwf.paired, hwf.slotted, by simp [hidle]⟩
  · rename_i msg hdispatch
    split at hdispatch
    · cases hdispatch
    · rename_i hsome
      exact ⟨hwf.paired, fun h => .inl (hslotted h),
        by simpa [Option.isSome_iff_ne_none] using hsome⟩
  · exact ⟨hwf.paired, fun h => .inl (hslotted h), trivial⟩
  · exact ⟨hwf.paired, fun h => .inl (hslotted h), trivial⟩
  · exact hwf

/-- Taking a frame keeps a waiting connection well formed. -/
theorem takeFrame_wellFormed {config : RelayServerConfig} {c : ConnId} {conn : Conn crates}
    {frame : Frame crates} {clock : Clock} (hidle : conn.phase = .idle) (hwf : conn.WellFormed) :
    (conn.takeFrame config c frame clock).WellFormed := by
  have hslotted (hsome : conn.session.peerId.isSome) : conn.regSlot.isSome := by
    simpa [hidle, Phase.isReleased] using hwf.slotted hsome
  have hcharged (limiter : PerConnLimiter) (outbox : List (Send crates)) :
      Conn.WellFormed { conn with lastActivity := clock.secs, limiter, outbox } :=
    ⟨hwf.paired, hwf.slotted, by simp [hidle]⟩
  dsimp only [Conn.takeFrame]
  split
  · exact ⟨hwf.paired, fun h => .inl (hslotted h), trivial⟩
  · split
    · exact takePexFrame_wellFormed hidle (hcharged _ conn.outbox)
    · split
      · exact ⟨hwf.paired, fun h => .inl (hslotted h), trivial⟩
      · exact hcharged _ _

/-- A dispatched message names the session's own id as its sender. -/
theorem intercept_wellFormed {c : ConnId} {conn : Conn crates} {msg message : RelayMessage}
    (hphase : conn.phase = .intercept message) (hwf : conn.WellFormed) :
    (conn.intercept c msg).WellFormed := by
  have hslotted (hsome : conn.session.peerId.isSome) : conn.regSlot.isSome := by
    simpa [hphase, Phase.isReleased] using hwf.slotted hsome
  unfold Conn.intercept
  split
  · exact ⟨hwf.paired, fun h => .inl (hslotted h), trivial⟩
  · cases haction : dispatch conn.session msg with
    | forwardTo target out =>
      obtain ⟨hsome, horiginator⟩ := dispatch_forwardTo_originator haction
      obtain ⟨peerId, hpeer⟩ := Option.isSome_iff_exists.mp hsome
      exact ⟨hwf.paired, fun h => .inl (hslotted h), peerId, hpeer, by simpa [hpeer] using horiginator⟩
    | broadcast sender exclude out =>
      exact ⟨hwf.paired, fun h => .inl (hslotted h), dispatch_broadcast_originator haction⟩
    | register request => exact ⟨hwf.paired, fun h => .inl (hslotted h), trivial⟩
    | replyToSelf msgs => exact ⟨hwf.paired, fun h => .inl (hslotted h), trivial⟩
    | error code message => exact ⟨hwf.paired, fun h => .inl (hslotted h), trivial⟩
    | close => exact ⟨hwf.paired, fun h => .inl (hslotted h), trivial⟩
    | nothing => exact ⟨hwf.paired, fun h => .inl (hslotted h), trivial⟩

/-- Every shared access keeps its connection well formed. -/
theorem access_wellFormed {setup : Setup} {clock : Clock} {closed : ConnId → Bool} {c : ConnId}
    {relay relay' : Relay crates} {conn conn' : Conn crates} (hwf : conn.WellFormed)
    (h : access setup clock closed c relay conn = some (relay', conn')) : conn'.WellFormed := by
  have hpaired := hwf.paired
  have hslotted := hwf.slotted
  have hphased := hwf.phased
  obtain ⟨phase, hphase, haccess⟩ := access_cases h
  rw [hphase] at hslotted hphased
  have hkept (hheld : phase.isReleased = false) (hsome : conn.session.peerId.isSome) :
      conn.regSlot.isSome := by
    simpa [hheld] using hslotted hsome
  cases haccess with
  | banned | notBanned | full | notFull => exact ⟨hpaired, by simp [hphased], by simp [hphased]⟩
  | opened | acquired | notAcquired => exact ⟨hpaired, fun hsome => .inl (hkept rfl hsome), hphased⟩
  | intercepted => exact intercept_wellFormed hphase hwf
  | committed => exact ⟨rfl, fun _ => .inl rfl, trivial⟩
  | refusedConn | releasedReg | releasedConn | closed =>
    exact ⟨hpaired, fun _ => .inr rfl, trivial⟩
  | _ => exact ⟨hpaired, fun hsome => .inl (hkept rfl hsome), trivial⟩

/-- Well-formedness is a property of session, slot and phase alone. -/
theorem wellFormed_congr {conn conn' : Conn crates} (hwf : conn'.WellFormed)
    (h : (conn.session, conn.regSlot, conn.phase) = (conn'.session, conn'.regSlot, conn'.phase)) :
    conn.WellFormed := by
  simp only [Prod.mk.injEq] at h
  obtain ⟨hsession, hslot, hphase⟩ := h
  obtain ⟨hpaired, hslotted, hphased⟩ := hwf
  rw [← hsession] at hpaired hslotted hphased
  rw [← hslot, ← hphase] at hslotted
  rw [← hphase] at hphased
  exact ⟨hpaired, hslotted, hphased⟩

/-- Replacing one connection by a well-formed one keeps all well formed. -/
theorem wellFormed_set {conns : List (Conn crates)} {c : ConnId} {conn' : Conn crates}
    (hwf : ∀ conn ∈ conns, conn.WellFormed) (hconn' : conn'.WellFormed) :
    ∀ conn ∈ conns.set c conn', conn.WellFormed := by
  intro conn hmem
  rcases List.mem_or_eq_of_mem_set hmem with hold | rfl
  · exact hwf conn hold
  · exact hconn'

/-- A send keeps all connections well formed. -/
theorem wellFormed_deliver {conns : List (Conn crates)} (send : Send crates)
    (hwf : ∀ conn ∈ conns, conn.WellFormed) : ∀ conn ∈ deliver send conns, conn.WellFormed := by
  intro conn hmem
  have hview := deliver_map (fun conn : Conn crates => (conn.session, conn.regSlot, conn.phase))
    (fun _ _ => rfl) (fun _ _ => rfl) send conns
  have hold := List.mem_map_of_mem
    (f := fun conn : Conn crates => (conn.session, conn.regSlot, conn.phase)) hmem
  rw [hview] at hold
  obtain ⟨before, hbefore, heq⟩ := List.mem_map.mp hold
  exact wellFormed_congr (hwf before hbefore) heq.symm

/-- Several sends keep all connections well formed. -/
theorem wellFormed_deliverAll {conns : List (Conn crates)} (sends : List (Send crates))
    (hwf : ∀ conn ∈ conns, conn.WellFormed) : ∀ conn ∈ deliverAll sends conns, conn.WellFormed := by
  induction sends generalizing conns with
  | nil => exact hwf
  | cons send rest ih => exact ih (wellFormed_deliver send hwf)

/-- Every transition keeps all connections well formed. -/
theorem next_wellFormed {setup : Setup} {sys sys' : System crates} {label : Label crates}
    (hwf : sys.WellFormed) (h : Next setup sys label sys') : sys'.WellFormed := by
  have hat {c : ConnId} {conn : Conn crates} (hconn : sys.conns[c]? = some conn) :
      conn.WellFormed := hwf conn (List.mem_of_getElem? hconn)
  cases next_move h with
  | accepted addr identity =>
    intro conn hmem
    rcases List.mem_append.mp hmem with hold | hnew
    · exact hwf conn hold
    · rw [List.mem_singleton.mp hnew]
      exact ⟨rfl, fun h => (nomatch h), rfl⟩
  | sent hconn => exact wellFormed_deliver _ (wellFormed_set hwf (wellFormed_congr (hat hconn) rfl))
  | accessed hconn _ haccess => exact wellFormed_set hwf (access_wellFormed (hat hconn) haccess)
  | head outcome clock hconn hphase =>
    have hold := hat hconn
    have hempty := by simpa [hphase] using hold.phased
    refine wellFormed_set hwf ?_
    cases outcome <;> exact ⟨hold.paired, by simp [Conn.takeHead, Conn.upgrade, hempty], trivial⟩
  | message frame clock hconn hphase =>
    exact wellFormed_set hwf (takeFrame_wellFormed hphase (hat hconn))
  | control hconn => exact wellFormed_set hwf (hat hconn)
  | hangup hconn hphase =>
    have hold := hat hconn
    refine wellFormed_set hwf ⟨hold.paired, fun h => .inl ?_, trivial⟩
    simpa [hphase, Phase.isReleased] using hold.slotted h
  | wrote _ hconn => exact wellFormed_set hwf (wellFormed_congr (hat hconn) rfl)
  | closed _ hconn => exact wellFormed_set hwf (wellFormed_congr (hat hconn) rfl)
  | @noticed peerId _ target _ _ _ =>
    exact wellFormed_deliver (.relay target.2 (.peerDisconnected peerId)) hwf
  | background sends => exact wellFormed_deliverAll sends hwf
  | swept | forgotten | rehashed => exact hwf

/-- In every reachable state all connections are well formed. -/
theorem wellFormed_of_reachable {setup : Setup} {sys : System crates}
    (h : IsReachable setup sys) : sys.WellFormed :=
  h.invariant System.WellFormed (fun conn hmem => by cases hmem) fun _ _ _ _ hwf hnext =>
    next_wellFormed hwf hnext

end DigRelay
