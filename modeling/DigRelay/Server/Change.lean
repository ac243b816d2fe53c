import DigRelay.Server.Ledger
import DigRelay.Server.WellFormed

/-!
# What a transition does to the ledger

Nearly all transitions leave the ledger as it is. The others are listed here once, each with
the state it is taken in and the exact ledger it produces; facts about registrations are then
proved by cases on this list.
-/

namespace DigRelay

open Common

variable {crates : Crates}

/-- The ledger after a transition. -/
inductive Change (setup : Setup) (sys : System crates) : Label crates → Ledger → Prop
  | quiet (label : Label crates) : Change setup sys label sys.ledger
  | accepted (addr : SocketAddr) (identity : Option String) :
      Change setup sys (.accept addr identity)
        { sys.ledger with
          entries := sys.ledger.entries ++
            [(Conn.accepted setup.config addr (if setup.tls then identity else none) :
              Conn crates).entry] }
  | closed {label : Label crates} {c : ConnId} {conn : Conn crates}
      (hconn : sys.conns[c]? = some conn) :
      Change setup sys label (sys.ledger.setEntry c { conn.entry with closed := true })
  | reserved {c : ConnId} {clock : Clock} {conn : Conn crates} {request : RegisterRequest}
      {connectedNow : ℕ} {slot : Slot} {abuse : AbuseState}
      (hconn : sys.conns[c]? = some conn) (hphase : conn.phase = .registerCap request connectedNow)
      (hslot : sys.relay.abuse.tryAcquireRegistration setup.config conn.addr.ip =
        some (slot, abuse)) :
      Change setup sys (.exec c clock)
        { sys.ledger.setEntry c { conn.entry with pending := some slot } with
          regs := abuse.regsPerIp }
  | entered {c : ConnId} {clock : Clock} {conn : Conn crates} {request : RegisterRequest}
      {slot : Slot} {connectedPeers : ℕ} {targets : List (String × ConnId)} {relay : Relay crates}
      (hconn : sys.conns[c]? = some conn) (houtbox : conn.outbox = [])
      (hphase : conn.phase = .registerLocked request slot)
      (hverdict : registerVerdict setup.config (isClosed sys.conns) sys.relay request conn.identity
        conn.addr clock.unix c = .accepted connectedPeers targets relay) :
      Change setup sys (.exec c clock)
        { sys.ledger.setEntry c
            { conn.entry with
              seat := some (request.peerId, request.networkId)
              mirror := some request.peerId } with
          registry := relay.registry
          connected := relay.connected }
  | mirrored {c : ConnId} {clock : Clock} {conn : Conn crates} {peerId networkId : String}
      (hconn : sys.conns[c]? = some conn) (hseat : conn.seat = some (peerId, networkId)) :
      Change setup sys (.exec c clock)
        { sys.ledger with senders := sys.ledger.senders.insert peerId c }
  | committed {c : ConnId} {clock : Clock} {conn : Conn crates} {request : RegisterRequest}
      {slot : Slot} (hconn : sys.conns[c]? = some conn)
      (hphase : conn.phase = .registerCommit request slot) :
      Change setup sys (.exec c clock)
        { sys.ledger.setEntry c { conn.entry with kept := some slot, pending := none } with
          regs := conn.regSlot.elim sys.ledger.regs (dropSlot sys.ledger.regs) }
  | refused {c : ConnId} {clock : Clock} {conn : Conn crates} {slot : Slot}
      (hconn : sys.conns[c]? = some conn) (hphase : conn.phase = .refuse slot) :
      Change setup sys (.exec c clock)
        { sys.ledger.setEntry c { conn.entry with pending := none } with
          regs := dropSlot sys.ledger.regs slot }
  | removed {c : ConnId} {clock : Clock} {conn : Conn crates} {peerId networkId : String}
      {peer : Peer} (hconn : sys.conns[c]? = some conn) (houtbox : conn.outbox = [])
      (hphase : conn.phase = .deregister)
      (hseat : conn.session.seat = some (peerId, networkId))
      (hpeer : sys.relay.registry.lookup peerId = some peer) :
      Change setup sys (.exec c clock)
        { sys.ledger.setEntry c { conn.entry with seat := none, mirror := some peerId } with
          registry := sys.ledger.registry.erase peerId
          connected := sys.ledger.connected - 1 }
  | absent {c : ConnId} {clock : Clock} {conn : Conn crates}
      (hconn : sys.conns[c]? = some conn) (houtbox : conn.outbox = [])
      (hphase : conn.phase = .deregister)
      (hnone : ∀ peerId networkId, conn.session.seat = some (peerId, networkId) →
        sys.relay.registry.lookup peerId = none) :
      Change setup sys (.exec c clock)
        (sys.ledger.setEntry c { conn.entry with seat := none, mirror := none })
  | unmirrored {c : ConnId} {clock : Clock} {conn : Conn crates} {peerId networkId : String}
      (hconn : sys.conns[c]? = some conn) (hphase : conn.phase = .deregisterPex peerId networkId) :
      Change setup sys (.exec c clock)
        { sys.ledger.setEntry c { conn.entry with mirror := none } with
          senders := sys.ledger.senders.erase peerId }
  | released {c : ConnId} {clock : Clock} {conn : Conn crates}
      (hconn : sys.conns[c]? = some conn) (hphase : conn.phase = .dropReg) :
      Change setup sys (.exec c clock)
        { sys.ledger.setEntry c { conn.entry with kept := none } with
          regs := conn.regSlot.elim sys.ledger.regs (dropSlot sys.ledger.regs) }
  | swept (now : ℕ) :
      Change setup sys (.sweep now)
        { sys.ledger with
          registry := (sweepLocked setup sys now).2.registry
          connected := (sweepLocked setup sys now).2.connected }
  | forgotten (peerId : String) :
      Change setup sys .sweepExec { sys.ledger with senders := sys.ledger.senders.erase peerId }
  | rehashed {registry : Registry} (h : Table.Rehashed sys.relay.registry registry) :
      Change setup sys .rehash { sys.ledger with registry }

variable {setup : Setup} {sys sys' : System crates} {label : Label crates} {c : ConnId}
  {conn conn' : Conn crates} {clock : Clock} {relay' : Relay crates}

attribute [local simp] Conn.entry Conn.seat Conn.mirror Conn.pendingSlot

/-- The ledger after one connection and the shared state have moved. -/
theorem ledgerOf_set (relay : Relay crates) (conns : List (Conn crates)) (c : ConnId)
    (conn : Conn crates) :
    ledgerOf relay (conns.set c conn) =
      { registry := relay.registry
        connected := relay.connected
        senders := relay.pex.conns
        regs := relay.abuse.regsPerIp
        entries := (conns.map Conn.entry).set c conn.entry } := by
  simp only [ledgerOf, List.map_set]

/-- A connection that keeps its entry leaves the ledger to the shared state. -/
theorem ledgerOf_set_of_entry_eq {conns : List (Conn crates)} (hconn : conns[c]? = some conn)
    (hentry : conn'.entry = conn.entry) (relay : Relay crates) :
    ledgerOf relay (conns.set c conn') = ledgerOf relay conns := by
  simp only [ledgerOf, map_set_of_eq Conn.entry hconn hentry]

/-- An access that keeps the shared part of the ledger and the connection's entry is quiet. -/
theorem Change.of_entry_eq (hconn : sys.conns[c]? = some conn) (hentry : conn'.entry = conn.entry)
    (hregistry : relay'.registry = sys.relay.registry)
    (hconnected : relay'.connected = sys.relay.connected)
    (hsenders : relay'.pex.conns = sys.relay.pex.conns)
    (hregs : relay'.abuse.regsPerIp = sys.relay.abuse.regsPerIp) :
    Change setup sys label (ledgerOf relay' (sys.conns.set c conn')) := by
  have hledger : ledgerOf relay' (sys.conns.set c conn') = sys.ledger := by
    rw [ledgerOf_set_of_entry_eq hconn hentry]
    simp only [ledgerOf, System.ledger, hregistry, hconnected, hsenders, hregs]
  rw [hledger]
  exact .quiet label

/-- A connection that has not begun to serve has no seat. -/
theorem seat_none_of_peerId_none {session : Session} (h : session.peerId = none) :
    session.seat = none := by
  simp [Session.seat, h]

/-- Carrying out a decision keeps the entry of a connection that is taking a message. -/
theorem entry_intercept {msg message : RelayMessage} (hphase : conn.phase = .intercept message) :
    (conn.intercept c msg).entry = conn.entry := by
  unfold Conn.intercept
  split
  · simp [hphase]
  · cases dispatch conn.session msg <;> simp [Conn.carryOut, hphase]

/-- Taking a frame keeps the entry of a waiting connection. -/
theorem entry_takeFrame {config : RelayServerConfig} {frame : Frame crates}
    (hphase : conn.phase = .idle) : (conn.takeFrame config c frame clock).entry = conn.entry := by
  dsimp only [Conn.takeFrame]
  split
  · simp [hphase]
  · split
    · unfold Conn.takePexFrame
      split <;> simp [hphase]
    · split <;> simp [hphase]

/-- The inbound message counters are no part of the ledger. -/
theorem recordRelayed_frame (relay : Relay crates) (msg : RelayMessage) :
    (relay.recordRelayed msg).registry = relay.registry ∧
      (relay.recordRelayed msg).connected = relay.connected ∧
      (relay.recordRelayed msg).pex = relay.pex ∧
      (relay.recordRelayed msg).abuse = relay.abuse := by
  unfold Relay.recordRelayed
  split
  case h_4 => split <;> exact ⟨rfl, rfl, rfl, rfl⟩
  all_goals exact ⟨rfl, rfl, rfl, rfl⟩

/-- Stored DHT answers are no part of the ledger. -/
theorem recordDhtAnswer_frame (relay : Relay crates) (session : Session) (msg : RelayMessage) :
    (relay.recordDhtAnswer session msg).registry = relay.registry ∧
      (relay.recordDhtAnswer session msg).connected = relay.connected ∧
      (relay.recordDhtAnswer session msg).pex = relay.pex ∧
      (relay.recordDhtAnswer session msg).abuse = relay.abuse := by
  unfold Relay.recordDhtAnswer
  split
  · split <;> exact ⟨rfl, rfl, rfl, rfl⟩
  · exact ⟨rfl, rfl, rfl, rfl⟩

/-- A handshake mirrors the session's id again. -/
theorem handshakeAccess_change {msg : crates.Message} (hwf : conn.WellFormed)
    (hconn : sys.conns[c]? = some conn) (hphase : conn.phase = .pexHandshake msg) :
    Change setup sys (.exec c clock)
      (ledgerOf (handshakeAccess clock.ms c sys.relay conn msg).1
        (sys.conns.set c (handshakeAccess clock.ms c sys.relay conn msg).2)) := by
  have hsome : conn.session.peerId.isSome := by simpa [hphase] using hwf.phased
  obtain ⟨peerId, hpeerId⟩ := Option.isSome_iff_exists.mp hsome
  obtain ⟨networkId, hnetworkId⟩ := Option.isSome_iff_exists.mp (hwf.paired ▸ hsome)
  have hseat : conn.seat = some (peerId, networkId) := by
    simp [Conn.seat, hphase, Session.seat, hpeerId, hnetworkId]
  have hchange : Change setup sys (.exec c clock) _ := .mirrored hconn hseat
  simp only [handshakeAccess, hpeerId, hnetworkId, Option.getD_some]
  rw [ledgerOf_set_of_entry_eq hconn (by simp [hphase, Session.seat, hpeerId, hnetworkId])]
  simpa [ledgerOf, System.ledger] using hchange

/-- Without a record under the session's id a teardown removes none. -/
theorem lookup_seat_eq_none {relay : Relay crates}
    (habsent : ∀ peerId networkId, conn.session.peerId = some peerId →
      conn.session.networkId = some networkId → removeLocked relay peerId networkId = none)
    (peerId networkId : String) (hseat : conn.session.seat = some (peerId, networkId)) :
    relay.registry.lookup peerId = none := by
  simp only [Session.seat, Option.bind_eq_some_iff, Option.map_eq_some_iff, Prod.mk.injEq] at hseat
  obtain ⟨id, hpeerId, network, hnetworkId, rfl, rfl⟩ := hseat
  exact removeLocked_eq_none_iff.mp (habsent id network hpeerId hnetworkId)

/-- What each shared access of a connection does to the ledger. -/
theorem access_change (hwf : conn.WellFormed) (hconn : sys.conns[c]? = some conn)
    (houtbox : conn.outbox = [])
    (h : access setup clock (isClosed sys.conns) c sys.relay conn = some (relay', conn')) :
    Change setup sys (.exec c clock) (ledgerOf relay' (sys.conns.set c conn')) := by
  have hphased := hwf.phased
  obtain ⟨phase, hphase, haccess⟩ := access_cases h
  rw [hphase] at hphased
  cases haccess with
  | banned | notBanned | refusedConn =>
    exact .of_entry_eq hconn (by simp [hphase, seat_none_of_peerId_none hphased]) rfl rfl rfl
      (by simp)
  | full | notFull =>
    exact .of_entry_eq hconn (by simp [hphase, seat_none_of_peerId_none hphased]) rfl rfl rfl rfl
  | acquired hslot =>
    exact .of_entry_eq hconn (by simp [hphase]) rfl rfl rfl (AbuseState.tryAcquireConn_regsPerIp hslot)
  | struck | allowed | notAllowed => exact .of_entry_eq hconn (by simp [hphase]) rfl rfl rfl (by simp)
  | @recorded msg =>
    obtain ⟨hregistry, hconnected, hpex, habuse⟩ := recordRelayed_frame sys.relay msg
    exact .of_entry_eq hconn (by simp [hphase]) hregistry hconnected (by rw [hpex])
      (by rw [habuse])
  | @intercepted msg =>
    obtain ⟨hregistry, hconnected, hpex, habuse⟩ := recordDhtAnswer_frame sys.relay conn.session msg
    exact .of_entry_eq hconn (entry_intercept hphase) hregistry hconnected (by rw [hpex])
      (by rw [habuse])
  | reserved hslot =>
    have hchange : Change setup sys (.exec c clock) _ := .reserved hconn hphase hslot
    obtain ⟨_, _, hslotEq⟩ := Option.map_eq_some_iff.mp hslot
    rw [ledgerOf_set]
    simpa [hphase, Ledger.setEntry, System.ledger, ledgerOf] using hchange
  | entered hverdict =>
    have hchange := Change.entered hconn houtbox hphase hverdict
    obtain ⟨-, -, -, -, hrelay⟩ := registerVerdict_accepted hverdict
    have hframe : relay'.pex = sys.relay.pex ∧ relay'.abuse = sys.relay.abuse := by
      rcases hrelay with ⟨-, hrelay⟩ | ⟨-, hrelay⟩ <;> rw [hrelay] <;> exact ⟨rfl, rfl⟩
    rw [ledgerOf_set, hframe.1, hframe.2]
    simpa [hphase, Ledger.setEntry, System.ledger, ledgerOf] using hchange
  | @mirrored request =>
    have hseat : conn.seat = some (request.peerId, request.networkId) := by
      simp [Conn.seat, hphase]
    have hchange : Change setup sys (.exec c clock) _ := .mirrored hconn hseat
    rw [ledgerOf_set_of_entry_eq hconn (by simp [hphase])]
    simpa [ledgerOf, System.ledger] using hchange
  | committed =>
    have hchange : Change setup sys (.exec c clock) _ := .committed hconn hphase
    rw [ledgerOf_set]
    cases hslot : conn.regSlot <;>
      simpa [commitAccess, hphase, Ledger.setEntry, System.ledger, ledgerOf, Session.seat, hslot,
        AbuseState.dropReg] using hchange
  | refused =>
    have hchange : Change setup sys (.exec c clock) _ := .refused hconn hphase
    rw [ledgerOf_set]
    simpa [hphase, Ledger.setEntry, System.ledger, ledgerOf, AbuseState.dropReg] using hchange
  | handshook => exact handshakeAccess_change hwf hconn hphase
  | data | badFrame => exact .of_entry_eq hconn (by simp [hphase]) rfl rfl (by simp) rfl
  | @removed peerId networkId _ _ hpeerId hnetworkId hremove =>
    have hseat : conn.session.seat = some (peerId, networkId) := by
      simp [Session.seat, hpeerId, hnetworkId]
    obtain ⟨⟨peer, hpeer⟩, rfl, -⟩ := removeLocked_some hremove
    have hchange : Change setup sys (.exec c clock) _ := .removed hconn houtbox hphase hseat hpeer
    rw [ledgerOf_set]
    simpa [hphase, Ledger.setEntry, System.ledger, ledgerOf] using hchange
  | absent habsent =>
    have hchange : Change setup sys (.exec c clock) _ :=
      .absent hconn houtbox hphase (lookup_seat_eq_none habsent)
    rw [ledgerOf_set]
    simpa [hphase, Ledger.setEntry, System.ledger, ledgerOf] using hchange
  | unmirrored =>
    have hchange : Change setup sys (.exec c clock) _ := .unmirrored hconn hphase
    rw [ledgerOf_set]
    simpa [hphase, Ledger.setEntry, System.ledger, ledgerOf] using hchange
  | releasedReg =>
    have hchange : Change setup sys (.exec c clock) _ := .released hconn hphase
    rw [ledgerOf_set]
    cases hslot : conn.regSlot <;>
      simpa [hphase, Ledger.setEntry, System.ledger, ledgerOf, hslot, AbuseState.dropReg]
        using hchange
  | releasedConn =>
    refine .of_entry_eq hconn (by simp [hphase]) rfl rfl rfl ?_
    cases conn.connSlot <;> rfl
  | _ => exact .of_entry_eq hconn (by simp [hphase]) rfl rfl rfl rfl

/-- Sends leave the ledger as it is. -/
theorem ledgerOf_deliver (relay : Relay crates) (send : Send crates) (conns : List (Conn crates)) :
    ledgerOf relay (deliver send conns) = ledgerOf relay conns := by
  rw [ledgerOf, deliver_map Conn.entry (fun conn msg => by simp) (fun conn msg => rfl), ledgerOf]

/-- Several sends leave the ledger as it is. -/
theorem ledgerOf_deliverAll (relay : Relay crates) (sends : List (Send crates))
    (conns : List (Conn crates)) :
    ledgerOf relay (deliverAll sends conns) = ledgerOf relay conns := by
  rw [ledgerOf, deliverAll_map Conn.entry (fun conn msg => by simp) (fun conn msg => rfl), ledgerOf]

/-- What each transition does to the ledger. -/
theorem next_change (hwf : sys.WellFormed) (h : Next setup sys label sys') :
    Change setup sys label sys'.ledger := by
  have hat {c : ConnId} {conn : Conn crates} (hconn : sys.conns[c]? = some conn) :
      conn.WellFormed := hwf conn (List.mem_of_getElem? hconn)
  cases next_move h with
  | accepted addr identity =>
    have hchange : Change setup sys (.accept addr identity) _ := .accepted addr identity
    simpa [System.ledger, ledgerOf] using hchange
  | @sent c clock conn _ rest hconn =>
    have hquiet : Change setup sys (.exec c clock)
        (ledgerOf sys.relay (sys.conns.set c { conn with outbox := rest })) :=
      .of_entry_eq hconn rfl rfl rfl rfl rfl
    simpa only [System.ledger, ledgerOf_deliver] using hquiet
  | accessed hconn houtbox haccess => exact access_change (hat hconn) hconn houtbox haccess
  | head outcome clock hconn hphase =>
    have hempty := by simpa [hphase] using (hat hconn).phased
    refine .of_entry_eq hconn ?_ rfl rfl rfl rfl
    cases outcome <;> simp [Conn.takeHead, Conn.upgrade, hphase, seat_none_of_peerId_none hempty]
  | message frame clock hconn hphase =>
    exact .of_entry_eq hconn (entry_takeFrame hphase) rfl rfl rfl rfl
  | control hconn => exact .of_entry_eq hconn rfl rfl rfl rfl rfl
  | hangup hconn hphase => exact .of_entry_eq hconn (by simp [hphase]) rfl rfl rfl rfl
  | wrote _ hconn hclosed => exact .of_entry_eq hconn (by simp [hclosed]) rfl rfl rfl rfl
  | closed _ hconn =>
    have hchange : Change setup sys label _ := .closed hconn
    rw [System.ledger, System.setConn, ledgerOf_set]
    exact hchange
  | swept now =>
    have hchange : Change setup sys (.sweep now) _ := .swept now
    have hframe := pruneLocked_frame (sys.relay.registry.deadOrStale (isClosed sys.conns)
      (activity sys.conns) now setup.config.livenessDeadline.asSecs) sys.relay
    simp only [System.ledger, ledgerOf, sweepLocked] at hchange ⊢
    rw [hframe]
    exact hchange
  | noticed =>
    simp only [System.ledger, ledgerOf_deliver]
    exact .quiet _
  | @forgotten peerId =>
    have hchange : Change setup sys .sweepExec _ := .forgotten peerId
    simpa [System.ledger, ledgerOf] using hchange
  | background sends _ hregistry hconnected hsenders habuse =>
    have hquiet : Change setup sys label sys.ledger := .quiet label
    rw [System.ledger, ledgerOf_deliverAll]
    simpa only [System.ledger, ledgerOf, hregistry, hconnected, hsenders, habuse] using hquiet
  | rehashed hrehash =>
    obtain ⟨registry, engines, regBuckets, strikes, bans, hregistry, -, -, -, -, rfl⟩ := hrehash
    exact .rehashed hregistry

/-- The entry of a connection in the ledger. -/
theorem ledger_entries_getElem? (hconn : sys.conns[c]? = some conn) :
    sys.ledger.entries[c]? = some conn.entry := by
  simp [System.ledger, ledgerOf, hconn]

/-- Every entry after replacing one is the new one or an old one. -/
theorem getElem?_setEntry {ledger : Ledger} {old entry : Entry}
    (hold : ledger.entries[c]? = some old) (i : ConnId) :
    (ledger.setEntry c entry).entries[i]? =
      if i = c then some entry else ledger.entries[i]? := by
  have hlt := (List.getElem?_eq_some_iff.mp hold).1
  by_cases hi : i = c
  · subst hi
    simp [Ledger.setEntry, hlt]
  · simp [Ledger.setEntry, hi, List.getElem?_set_ne (Ne.symm hi)]

/-- A change keeps all entries, appends the entry of an accepted connection, or replaces one entry
by one of the same address and identity. -/
theorem Change.entries_cases {ledger : Ledger} (h : Change setup sys label ledger) :
    ledger.entries = sys.ledger.entries ∨
      (∃ addr identity, label = .accept addr identity ∧
        ledger.entries = sys.ledger.entries ++
          [(Conn.accepted setup.config addr (if setup.tls then identity else none) :
            Conn crates).entry]) ∨
      ∃ c conn new, sys.conns[c]? = some conn ∧ new.addr = conn.addr ∧
        new.identity = conn.identity ∧ ledger.entries = sys.ledger.entries.set c new := by
  cases h with
  | accepted addr identity => exact .inr (.inl ⟨addr, identity, rfl, rfl⟩)
  | closed hconn | reserved hconn | entered hconn | committed hconn | refused hconn
    | removed hconn | absent hconn | unmirrored hconn | released hconn =>
    exact .inr (.inr ⟨_, _, _, hconn, rfl, rfl, rfl⟩)
  | _ => exact .inl rfl

/-- Connections keep their number, address and identity. -/
theorem Change.entry_kept {ledger : Ledger} (h : Change setup sys label ledger) {i : ConnId}
    {entry : Entry} (hentry : sys.ledger.entries[i]? = some entry) :
    ∃ entry', ledger.entries[i]? = some entry' ∧ entry'.addr = entry.addr ∧
      entry'.identity = entry.identity := by
  rcases h.entries_cases with hsame | ⟨addr, identity, -, happend⟩ |
    ⟨c, conn, new, hconn, haddr, hidentity, hset⟩
  · exact ⟨entry, hsame ▸ hentry, rfl, rfl⟩
  · have hlt := (List.getElem?_eq_some_iff.mp hentry).1
    exact ⟨entry, by rw [happend, List.getElem?_append_left hlt, hentry], rfl, rfl⟩
  · have hsame : (new.addr, new.identity) = (conn.entry.addr, conn.entry.identity) :=
      Prod.ext haddr hidentity
    have hview := map_set_of_eq (fun entry : Entry => (entry.addr, entry.identity))
      (ledger_entries_getElem? hconn) hsame
    obtain ⟨entry', hentry', hkept⟩ := exists_getElem?_of_map_eq hview hentry
    rw [Prod.mk.injEq] at hkept
    exact ⟨entry', hset ▸ hentry', hkept⟩

/-- Every entry is that of a connection just accepted or keeps an old address and identity. -/
theorem Change.entry_origin {ledger : Ledger} (h : Change setup sys label ledger) {entry : Entry}
    (hentry : entry ∈ ledger.entries) :
    (∃ addr identity, label = .accept addr identity ∧
        entry.identity = if setup.tls then identity else none) ∨
      ∃ old ∈ sys.ledger.entries, entry.addr = old.addr ∧ entry.identity = old.identity := by
  rcases h.entries_cases with hsame | ⟨addr, identity, rfl, happend⟩ |
    ⟨c, conn, new, hconn, haddr, hidentity, hset⟩
  · exact .inr ⟨entry, hsame ▸ hentry, rfl, rfl⟩
  · rcases List.mem_append.mp (happend ▸ hentry) with hold | hnew
    · exact .inr ⟨entry, hold, rfl, rfl⟩
    · rw [List.mem_singleton.mp hnew]
      exact .inl ⟨addr, identity, rfl, rfl⟩
  · rcases List.mem_or_eq_of_mem_set (hset ▸ hentry) with hold | rfl
    · exact .inr ⟨entry, hold, rfl, rfl⟩
    · have hmem := List.mem_of_getElem? (ledger_entries_getElem? hconn)
      exact .inr ⟨conn.entry, hmem, haddr, hidentity⟩

end DigRelay
