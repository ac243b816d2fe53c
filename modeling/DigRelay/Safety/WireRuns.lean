import DigRelay.Safety.Counter
import DigRelay.Safety.DeliveryOrder
import DigRelay.Safety.DialableAddresses
import DigRelay.Safety.FrameRouting
import DigRelay.Server.Occupancy
import DigRelay.Server.Script

/-!
# Every peer can read what it is sent

A relay that reads its frames by the codec only ever works on numbers that fit their fields: those it
has read, its own counts, and its clock as long as that fits. So whatever it writes to a socket is within
what the codec reads back. A peer with the same codec never meets a message it has to reject.
-/

namespace DigRelay

open Common

variable {crates : Crates} {setup : Setup} {sys sys' : System crates} {label : Label crates}
  {c : ConnId} {conn conn' : Conn crates} {codec : Codec crates}

/-- The addresses of a registration fit. -/
def RegisterRequest.Fits (request : RegisterRequest) : Prop := ∀ addr ∈ request.listenAddrs, addr.Scoped

/-- The messages of a decision fit. -/
def Action.Fits : Action → Prop
  | .replyToSelf msgs => ∀ msg ∈ msgs, msg.Fits
  | .register request => request.Fits
  | .forwardTo _ msg => msg.Fits
  | .broadcast _ _ msg => msg.Fits
  | _ => True

/-- What a connection is about to do carries only what fits. -/
def Phase.Fits : Phase crates → Prop
  | .strike replies => ∀ msg ∈ replies, msg.Fits
  | .record msg => msg.Fits
  | .intercept msg => msg.Fits
  | .forwardTo _ msg => msg.Fits
  | .broadcast _ _ msg => msg.Fits
  | .registerLoad request => request.Fits
  | .registerRate request connectedNow => request.Fits ∧ connectedNow < UInt64.size
  | .registerCap request connectedNow => request.Fits ∧ connectedNow < UInt64.size
  | .registerLocked request _ => request.Fits
  | _ => True

/-- The message of a send fits, if it is one of the relay wire. -/
def Send.Fits : Send crates → Prop
  | .relay _ msg => msg.Fits
  | .pex _ _ => True

/-- The pending sends of a task and its phase fit. -/
def TaskFits (task : Session × List (Send crates) × Phase crates) : Prop :=
  (∀ send ∈ task.2.1, send.Fits) ∧ task.2.2.Fits

/-- Everything the relay has to write, now or later, fits. -/
structure System.Fits (sys : System crates) : Prop where
  records : ∀ peerId peer, sys.relay.registry.lookup peerId = some peer → peer.info.Fits
  tasks : ∀ conn ∈ sys.conns, TaskFits conn.task

/-- Frames are read by the codec, and the clock fits its field. -/
def Label.ReadBy (codec : Codec crates) : Label crates → Prop
  | .message _ frame _ => ∃ text, frame = codec.frame text
  | .exec _ clock => clock.unix < UInt64.size
  | _ => True

section Sends

@[simp] theorem forall_mem_toSelf_fits {msgs : List RelayMessage} :
    (∀ send ∈ (toSelf c msgs : List (Send crates)), send.Fits) ↔ ∀ msg ∈ msgs, msg.Fits := by
  simp [toSelf, Send.Fits]

theorem toSelfPex_fits {msgs : List crates.Message} :
    ∀ send ∈ (toSelfPex c msgs : List (Send crates)), send.Fits := by
  simp [toSelfPex, Send.Fits]

theorem toTargets_fits {targets : List (String × ConnId)} {msg : RelayMessage} (h : msg.Fits) :
    ∀ send ∈ (toTargets targets msg : List (Send crates)), send.Fits := by
  intro send hsend
  obtain ⟨target, -, rfl⟩ := List.mem_map.mp hsend
  exact h

end Sends

/-- A refusal fits if its count does. -/
theorem refusal_fits {code : UInt32} {message : String} {connectedPeers : ℕ}
    (h : connectedPeers < UInt64.size) : ∀ msg ∈ refusal code message connectedPeers, msg.Fits := by
  simpa [refusal, RelayMessage.Fits] using h

/-- What a message gives rise to fits if the message does. -/
theorem dispatch_fits (session : Session) {msg : RelayMessage} (h : msg.Fits) :
    (dispatch session msg).Fits := by
  unfold dispatch
  split
  · exact h
  · split
    · trivial
    · cases msg with
      | register => exact h
      | holePunchRequest => exact h
      | _ => simp [dispatchRegistered, Action.Fits, RelayMessage.Fits]

/-- A decision that fits is carried out by a task that fits. -/
theorem carryOut_fits {action : Action} (houtbox : conn.outbox = []) (h : action.Fits) :
    TaskFits (conn.carryOut c action).task := by
  cases action with
  | replyToSelf msgs => exact ⟨forall_mem_toSelf_fits.mpr h, trivial⟩
  | register request => exact ⟨by simp [Conn.carryOut, Conn.task, houtbox], h⟩
  | forwardTo target msg => exact ⟨by simp [Conn.carryOut, Conn.task, houtbox], h⟩
  | broadcast sender exclude msg => exact ⟨by simp [Conn.carryOut, Conn.task, houtbox], h⟩
  | close => exact ⟨by simp [Conn.carryOut, Conn.task, houtbox], trivial⟩
  | nothing => exact ⟨by simp [Conn.carryOut, Conn.task, houtbox], trivial⟩
  | error code message => exact ⟨by simp [Conn.carryOut, Conn.task, RelayMessage.Fits], trivial⟩

/-- A message that fits is taken by a task that fits. -/
theorem intercept_fits {msg : RelayMessage} (houtbox : conn.outbox = []) (h : msg.Fits) :
    TaskFits (conn.intercept c msg).task := by
  unfold Conn.intercept
  split
  · exact ⟨by simp [Conn.task, houtbox], trivial⟩
  · exact carryOut_fits houtbox (dispatch_fits conn.session h)

/-- A frame is taken by a task that fits, if the message in it does. -/
theorem takeFrame_fits {config : RelayServerConfig} {frame : Frame crates} {clock : Clock}
    (hphase : conn.phase = .idle) (houtbox : conn.outbox = [])
    (h : ∀ msg, frame.relay = some msg → msg.Fits) :
    TaskFits (conn.takeFrame config c frame clock).task := by
  have hnone {phase : Phase crates} (hfits : phase.Fits) : TaskFits (conn.session, conn.outbox, phase) :=
    ⟨by simp [houtbox], hfits⟩
  dsimp only [Conn.takeFrame]
  split
  · exact hnone (List.forall_mem_nil _)
  · split
    · unfold Conn.takePexFrame
      split
      · exact ⟨by simp [Conn.task, RelayMessage.Fits], by simp [Conn.task, hphase, Phase.Fits]⟩
      · exact hnone trivial
      · exact hnone trivial
      · exact hnone trivial
      · exact hnone (by simp [hphase, Phase.Fits])
    · split
      · rename_i msg hmsg
        exact hnone (h msg hmsg)
      · exact ⟨by simp [Conn.task, RelayMessage.Fits], by simp [Conn.task, hphase, Phase.Fits]⟩

/-- A resolved address has a scope only if it is an IPv6 one. -/
theorem resolveOne_scoped {candidate : SocketAddr} {reflexive : IpAddr} (h : candidate.Scoped) :
    (resolveOne candidate reflexive).Scoped := by
  unfold resolveOne
  split
  · exact h
  · exact fun _ => rfl

/-- The description of a registrant fits. -/
theorem registrantInfo_fits {request : RegisterRequest} {addr : SocketAddr} {unix : ℕ} (h : request.Fits)
    (hunix : unix < UInt64.size) : (registrantInfo crates request addr unix).Fits := by
  refine ⟨hunix, hunix, fun published hpublished => ?_⟩
  have hfirst := (perm_resolveDialable crates.familyRank _ _).mem_iff.mp hpublished
  obtain ⟨candidate, hcandidate, rfl⟩ := mem_distinctResolved.mp (List.mem_of_mem_take hfirst)
  exact resolveOne_scoped (h candidate hcandidate)

/-- An accepted registration is answered with the number of records there are then. -/
theorem connectedPeers_of_registerVerdict {config : RelayServerConfig} {closed : ConnId → Bool}
    {relay relay' : Relay crates} {request : RegisterRequest} {identity : Option String}
    {addr : SocketAddr} {unix : ℕ} {connectedPeers : ℕ} {targets : List (String × ConnId)}
    (h : registerVerdict config closed relay request identity addr unix c =
      .accepted connectedPeers targets relay') : connectedPeers = relay'.registry.size := by
  unfold registerVerdict at h
  split at h
  · cases h
  · split at h
    · cases h
    · split at h <;> cases h <;> rfl

/-- A refused registration is answered with the number of records there are. -/
theorem registerVerdict_refused {config : RelayServerConfig} {closed : ConnId → Bool}
    {relay : Relay crates} {request : RegisterRequest} {identity : Option String} {addr : SocketAddr}
    {unix : ℕ} {replies : List RelayMessage}
    (h : registerVerdict config closed relay request identity addr unix c = .refused replies) :
    ∃ code message, replies = refusal code message relay.registry.size := by
  unfold registerVerdict at h
  split at h
  · cases h
    exact ⟨_, _, rfl⟩
  · split at h
    · cases h
      exact ⟨_, _, rfl⟩
    · split at h
      · rename_i reg hregister
        cases h
        rcases Registry.register_cases hregister with ⟨-, hsame, -⟩ | ⟨hne, -⟩ | ⟨hne, -⟩
        · rw [hsame]
          exact ⟨_, _, rfl⟩
        · cases hne
        · cases hne
      · cases h
      · cases h

/-- The descriptions in a registry fit if all its records do. -/
theorem peers_fits {reg : Registry}
    (h : ∀ peerId peer, reg.lookup peerId = some peer → peer.info.Fits) (networkId : Option String) :
    ∀ info ∈ reg.peers networkId, info.Fits := by
  intro info hinfo
  simp only [Registry.peers, List.mem_insertionSort, List.mem_map, List.mem_filter] at hinfo
  obtain ⟨_, ⟨⟨⟨peerId, peer⟩, hmem, rfl⟩, -⟩, rfl⟩ := hinfo
  exact h peerId peer ((reg.mem_toPairs_iff peerId peer).mp hmem)

/-- A number of records within the capacity fits. -/
theorem Counted.size_lt {config : RelayServerConfig} {reg : Registry} {connected : UInt64}
    (h : Counted config.maxConnections.toNat reg connected) : reg.size < UInt64.size :=
  h.2.trans_lt config.maxConnections.toNat_lt_size

/-- A shared access leaves a task that fits. -/
theorem access_fits {clock : Clock} {relay' : Relay crates} (hcounted : sys.Counted setup)
    (hfits : sys.Fits) (hunix : clock.unix < UInt64.size) (houtbox : conn.outbox = [])
    (htask : TaskFits conn.task)
    (h : access setup clock (isClosed sys.conns) c sys.relay conn = some (relay', conn')) :
    TaskFits conn'.task := by
  have hnone {session : Session} {phase : Phase crates} (hphase : phase.Fits) :
      TaskFits (session, conn.outbox, phase) := ⟨by simp [houtbox], hphase⟩
  obtain ⟨phase, hphase, haccess⟩ := access_cases h
  have hold : phase.Fits := hphase ▸ htask.2
  cases haccess with
  | struck => exact ⟨forall_mem_toSelf_fits.mpr hold, trivial⟩
  | recorded => exact hnone hold
  | intercepted => exact intercept_fits houtbox hold
  | @listed networkId =>
    refine ⟨forall_mem_toSelf_fits.mpr ?_, trivial⟩
    rw [List.forall_mem_singleton]
    exact peers_fits hfits.records networkId
  | forwarded => exact ⟨List.forall_mem_singleton.mpr hold, trivial⟩
  | notFound => exact ⟨by simp [Conn.task, RelayMessage.Fits], trivial⟩
  | broadcast => exact ⟨toTargets_fits hold, trivial⟩
  | loaded => exact hnone ⟨hold, sys.relay.connected.toNat_lt_size⟩
  | allowed => exact hnone hold
  | notAllowed => exact hnone (refusal_fits hold.2)
  | reserved => exact hnone hold.1
  | notReserved => exact hnone (refusal_fits hold.2)
  | entered hverdict =>
    have hsize := (registerVerdict_counted hcounted hverdict).size_lt
    rw [← connectedPeers_of_registerVerdict hverdict] at hsize
    exact ⟨List.forall_mem_cons.mpr ⟨hsize, toTargets_fits (registrantInfo_fits hold hunix)⟩, trivial⟩
  | notEntered hverdict =>
    obtain ⟨code, message, rfl⟩ := registerVerdict_refused hverdict
    exact ⟨forall_mem_toSelf_fits.mpr (refusal_fits hcounted.size_lt), trivial⟩
  | committed => exact hnone trivial
  | handshook => exact ⟨toSelfPex_fits, trivial⟩
  | data => exact ⟨toSelfPex_fits, trivial⟩
  | badFrame => exact ⟨toSelfPex_fits, trivial⟩
  | removed => exact ⟨toTargets_fits trivial, trivial⟩
  | _ => exact hnone trivial

/-- What is read by the codec fits. -/
theorem ReadBy.fits_of_message {frame : Frame crates} {clock : Clock} {msg : RelayMessage}
    (h : (Label.message c frame clock).ReadBy codec) (hmsg : frame.relay = some msg) : msg.Fits := by
  obtain ⟨text, rfl⟩ := h
  exact codec.fits_of_read text msg hmsg

/-- Every transition on what the codec reads keeps to what fits. -/
theorem next_fits (hreach : IsReachable setup sys) (hread : label.ReadBy codec)
    (hfits : sys.Fits) (h : Next setup sys label sys') : sys'.Fits where
  records := by
    intro peerId peer hpeer
    rcases (next_change (wellFormed_of_reachable hreach) h).record_origin hpeer with
      hold | ⟨c, clock, conn, request, slot, rfl, hconn, hphase, -, -, rfl⟩
    · exact hfits.records peerId peer hold
    · have hrequest : conn.phase.Fits := (hfits.tasks conn (List.mem_of_getElem? hconn)).2
      rw [hphase] at hrequest
      exact registrantInfo_fits hrequest hread
  tasks := by
    have hnone {session : Session} {phase : Phase crates} (hphase : phase.Fits) :
        TaskFits (session, [], phase) := ⟨List.forall_mem_nil _, hphase⟩
    refine next_tasks (hnone trivial) (fun c conn task _ hmove htask => ?_) hfits.tasks h
    cases hmove with
    | still => exact htask
    | sent houtbox =>
      refine ⟨fun send hsend => htask.1 send ?_, htask.2⟩
      rw [Conn.task, houtbox]
      exact List.mem_cons_of_mem _ hsend
    | accessed houtbox haccess =>
      exact access_fits (counted_of_reachable hreach) hfits hread houtbox htask haccess
    | head => split <;> exact hnone trivial
    | message hphase houtbox => exact takeFrame_fits hphase houtbox fun _ => ReadBy.fits_of_message hread
    | control => exact htask
    | hangup => exact hnone trivial

/-- What a transition offers to a channel fits. -/
theorem offers_fits (hfits : sys.Fits) {origin : Origin} {msg : RelayMessage}
    (h : (origin, msg) ∈ offers c (sys, label, sys')) : msg.Fits := by
  obtain ⟨performer, -, hmem⟩ := List.mem_flatMap.mp h
  obtain ⟨_, hmsg, heq⟩ := List.mem_map.mp hmem
  obtain ⟨rfl, rfl⟩ := Prod.mk.injEq _ _ _ _ ▸ heq
  obtain ⟨send, hsend, hto⟩ := List.mem_filterMap.mp hmsg
  have hsent : send.Fits := by
    cases performer with
    | task d =>
      simp only [performedBy, performed] at hsend
      split at hsend
      · split at hsend
        · have hpending := List.mem_of_mem_take hsend
          rw [System.pending] at hpending
          cases hconn : sys.conns[d]? with
          | none => simp [hconn] at hpending
          | some conn =>
            rw [hconn] at hpending
            exact (hfits.tasks conn (List.mem_of_getElem? hconn)).1 send hpending
        · cases hsend
      · cases hsend
    | sweep =>
      simp only [performedBy, performedNotices] at hsend
      split at hsend
      · rw [List.mem_singleton.mp hsend]
        trivial
      · cases hsend
    | dht =>
      simp only [performedBy, performedAsks] at hsend
      split at hsend
      · rw [List.mem_singleton.mp hsend]
        exact (by decide : dhtMaxKeysPerPeer < UInt64.size)
      · cases hsend
  cases send with
  | relay tx sent =>
    rw [Send.relayTo] at hto
    split at hto
    · rw [← Option.some.inj hto]
      exact hsent
    · cases hto
  | pex tx sent => cases hto

/-- Along every run whose frames are read by the codec and whose clock fits its field, every message that is
written to a socket fits its fields and is read back by the codec from what it is written as. -/
theorem run_written_readable {trace : List (System crates × Label crates × System crates)}
    (hrun : Run setup trace sys) (hread : ∀ t ∈ trace, t.2.1.ReadBy codec) (c : ConnId) :
    ∀ msg ∈ trace.flatMap (written c), msg.Fits ∧ codec.read (codec.write msg) = some msg := by
  have hfits : ∀ t ∈ trace, t.1.Fits :=
    (hrun.invariant_of_guard (fun _ label => label.ReadBy codec) System.Fits hread
      ⟨by simp [System.new, Relay.new], List.forall_mem_nil _⟩
      fun _ _ _ hreach hlabel hsys hnext => next_fits hreach hlabel hsys hnext).2
  intro msg hmsg
  rw [run_written hrun c] at hmsg
  obtain ⟨⟨origin, _⟩, htaken, rfl⟩ := List.mem_map.mp hmsg
  have hfirst := Channel.taken_prefix_admitted setup.config.outboundQueueCapacity
    (trace.flatMap (pipeEvents c))
  have hoffered := (Channel.admitted_sublist_offered _ _).subset (hfirst.subset htaken)
  rw [Channel.offered, List.filterMap_flatMap] at hoffered
  obtain ⟨t, ht, hevent⟩ := List.mem_flatMap.mp hoffered
  have hsent := offers_fits (hfits t ht) ((offered_pipeEvents c t).subset hevent)
  exact ⟨hsent, codec.read_write _ hsent⟩

/-- Frames are texts of the plain codec, and the clock fits its field. -/
def Label.isPlain : Label silentCrates → Bool
  | .message _ frame _ =>
    frame.len = 64 && frame.pex.isNone &&
      frame.relay.any fun msg => msg.Fits && frame.typeTag = some msg.tag
  | .exec _ clock => clock.unix < UInt64.size
  | _ => true

/-- Such labels are read by the plain codec. -/
theorem readBy_of_isPlain {label : Label silentCrates} (h : label.isPlain = true) :
    label.ReadBy plainCodec := by
  cases label with
  | message c frame clock =>
    obtain ⟨len, typeTag, relay, pex⟩ := frame
    cases relay with
    | none => simp [Label.isPlain] at h
    | some msg =>
      simp only [Label.isPlain, Option.any_some, Bool.and_eq_true, decide_eq_true_eq,
        Option.isNone_iff_eq_none] at h
      obtain ⟨⟨rfl, rfl⟩, hfits, rfl⟩ := h
      exact ⟨msg, by simp [Codec.frame, plainCodec, hfits]⟩
  | exec c clock =>
    have hunix : clock.unix < UInt64.size := of_decide_eq_true h
    exact hunix
  | _ => trivial

/-- A connection registers and asks for the peers: the acknowledgement and the list are read back. -/
theorem run_written_readable_registered :
    ∃ trace sys, @Run silentCrates standardSetup trace sys ∧
      (trace.flatMap (written 0)).map RelayMessage.tag = ["register_ack", "peers"] ∧
      ∀ msg ∈ trace.flatMap (written 0), msg.Fits ∧ plainCodec.read (plainCodec.write msg) = some msg := by
  obtain ⟨trace, sys, hrun, hcheck⟩ := @exists_traced_run silentCrates standardSetup
    (Script.connect 0 0 ++
      .message 0 (plainCodec.frame (RelayMessage.register "a" "net" 1 [])) (atSecond 0) ::
        Script.moves 0 0 9 ++
      .message 0 (plainCodec.frame (RelayMessage.getPeers none)) (atSecond 1) ::
        Script.moves 0 1 4 ++ List.replicate 2 (.writeRelay 0 true))
    (fun trace _ => trace.all (fun t => t.2.1.isPlain) &&
      (trace.flatMap (written 0)).map RelayMessage.tag = ["register_ack", "peers"]) (by decide +kernel)
  obtain ⟨hlabels, hwritten⟩ := Bool.and_eq_true_iff.mp hcheck
  have hread : ∀ t ∈ trace, t.2.1.ReadBy plainCodec :=
    fun t ht => readBy_of_isPlain (List.all_eq_true.mp hlabels t ht)
  exact ⟨trace, sys, hrun, of_decide_eq_true hwritten, run_written_readable hrun hread 0⟩

end DigRelay
