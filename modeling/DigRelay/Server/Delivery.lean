import DigRelay.Common.Pipe
import DigRelay.Server.Tasks
import DigRelay.Server.Touch

/-!
# Relay channels as pipes

Three kinds of tasks put messages on a connection's relay channel: connection tasks, the health sweep
and the DHT round. The connection's writer takes them off and writes them to the socket. When a write
fails, or when all senders are gone, the writer ends and the channel with it. So whatever the tasks do,
the channel goes through a sequence of offers, takings and at the end its loss, and it is the pipe that
this sequence describes.
-/

namespace DigRelay

open Common

variable {crates : Crates} {setup : Setup} {sys sys' : System crates} {label : Label crates}
  {c : ConnId}

/-- Who puts a message on a channel. -/
inductive Origin
  | task (c : ConnId)
  | sweep
  | dht
  deriving DecidableEq

/-- The message of a send to the connection's relay channel. -/
def Send.relayTo (c : ConnId) : Send crates → Option RelayMessage
  | .relay tx msg => if tx = c then some msg else none
  | .pex _ _ => none

/-- The request that a transition sends for the DHT round. -/
def performedAsks (t : System crates × Label crates × System crates) : List (Send crates) :=
  match t.2.1, t.1.asked with
  | .dhtExec, tx :: _ => [.relay tx (.getDhtRecords dhtMaxKeysPerPeer)]
  | _, _ => []

/-- The sends that a transition performs for an origin. -/
def performedBy (origin : Origin) (t : System crates × Label crates × System crates) :
    List (Send crates) :=
  match origin with
  | .task d => performed d t
  | .sweep => performedNotices t
  | .dht => performedAsks t

/-- The origin for which a transition performs sends. -/
def Label.origin : Label crates → Option Origin
  | .exec d _ => some (.task d)
  | .sweepExec => some .sweep
  | .dhtExec => some .dht
  | _ => none

/-- The messages that a transition offers to the connection's relay channel. -/
def offers (c : ConnId) (t : System crates × Label crates × System crates) :
    List (Origin × RelayMessage) :=
  t.2.1.origin.toList.flatMap fun origin =>
    ((performedBy origin t).filterMap (Send.relayTo c)).map (Prod.mk origin)

/-- What the connection's writer does to its relay channel. -/
def Label.writerEvents (c : ConnId) : Label crates → List (PipeEvent (Origin × RelayMessage))
  | .writeRelay d ok => if d = c then [if ok then .take else .drop] else []
  | .writePex d ok => if d = c ∧ ok = false then [.drop] else []
  | .writerDone d => if d = c then [.drop] else []
  | _ => []

/-- What a transition does to the relay channel of a connection that has been accepted. -/
def pipeEvents (c : ConnId) (t : System crates × Label crates × System crates) :
    List (PipeEvent (Origin × RelayMessage)) :=
  if t.1.conns[c]?.isSome then (offers c t).map .offer ++ t.2.1.writerEvents c else []

/-- The relay channel of a connection. -/
def System.channel (sys : System crates) (c : ConnId) : Option (Channel RelayMessage) :=
  sys.conns[c]?.map Conn.out

/-- The messages that a transition writes to the connection's socket. -/
def written (c : ConnId) (t : System crates × Label crates × System crates) : List RelayMessage :=
  match t.2.1 with
  | .writeRelay d ok =>
    if d = c ∧ ok = true then ((t.1.channel c).map fun out => out.queue.take 1).getD [] else []
  | _ => []

/-- A send is an offer to the channel it is addressed to. -/
theorem deliver_channel (send : Send crates) (conns : List (Conn crates)) (c : ConnId) :
    (deliver send conns)[c]?.map Conn.out =
      (conns[c]?.map Conn.out).map fun out =>
        out.actAll ((send.relayTo c).toList.map PipeEvent.offer) := by
  rw [deliver_eq_modify, List.getElem?_modify]
  cases send with
  | relay tx msg =>
    by_cases htx : tx = c
    · cases conns[c]? <;> simp [Send.target, Send.relayTo, htx, Conn.offer, Channel.actAll, Channel.act]
    · cases conns[c]? <;> simp [Send.target, Send.relayTo, htx, Channel.actAll]
  | pex tx msg =>
    cases conns[c]? with
    | none => simp
    | some conn =>
      by_cases htx : tx = c
      · simp [Send.target, Send.relayTo, htx, Conn.offer, Channel.actAll]
      · simp [Send.target, Send.relayTo, htx, Channel.actAll]

/-- A task that keeps its channel leaves every channel alone. -/
theorem channel_set {conns : List (Conn crates)} {d : ConnId} {conn : Conn crates}
    (hconn : conns[d]? = some conn) (conn' : Conn crates) (hout : conn'.out = conn.out) (c : ConnId) :
    (conns.set d conn')[c]?.map Conn.out = conns[c]?.map Conn.out := by
  rw [← List.getElem?_map, map_set_of_eq Conn.out hconn hout, List.getElem?_map]

/-- Several sends of the exchange leave every relay channel alone. -/
theorem deliverAll_pex_channel (sends : List (ConnId × crates.Message)) (conns : List (Conn crates))
    (c : ConnId) :
    (deliverAll (sends.map fun (tx, msg) => .pex tx msg) conns)[c]?.map Conn.out =
      conns[c]?.map Conn.out := by
  induction sends generalizing conns with
  | nil => rfl
  | cons send sends ih =>
    have hrest := ih (deliver (.pex send.1 send.2) conns)
    have hfirst := deliver_channel (.pex send.1 send.2) conns c
    have hnone (out : Channel RelayMessage) :
        out.actAll ((Send.relayTo c (.pex send.1 send.2 : Send crates)).toList.map PipeEvent.offer) = out := rfl
    simp only [hnone, Option.map_id'] at hfirst
    exact hrest.trans hfirst

/-- A frame is taken without touching the channel. -/
theorem takeFrame_out (config : RelayServerConfig) (c : ConnId) (conn : Conn crates) (frame : Frame crates)
    (clock : Clock) : (conn.takeFrame config c frame clock).out = conn.out := by
  unfold Conn.takeFrame
  dsimp only
  split
  · rfl
  · split
    · unfold Conn.takePexFrame
      split <;> rfl
    · split <;> rfl

/-- What a transition does to the relay channel of a connection, without the origins. -/
theorem pipeEvents_of_origin {origin : Origin} (hsome : sys.conns[c]?.isSome = true)
    (horigin : label.origin = some origin) :
    (pipeEvents c (sys, label, sys')).map (PipeEvent.map Prod.snd) =
      ((performedBy origin (sys, label, sys')).filterMap (Send.relayTo c)).map PipeEvent.offer := by
  have hwriter : label.writerEvents c = [] := by cases label <;> first | rfl | cases horigin
  simp [pipeEvents, hsome, offers, horigin, hwriter, Function.comp_def, PipeEvent.map]

/-- A transition that performs one send offers its message to the channel it is addressed to. -/
theorem channel_of_send {origin : Origin} (send : Send crates) {conns : List (Conn crates)}
    (hsome : sys.conns[c]?.isSome = true) (horigin : label.origin = some origin)
    (hsend : performedBy origin (sys, label, sys') = [send])
    (hconns : conns[c]?.map Conn.out = sys.channel c) (hsys : sys'.conns = deliver send conns) :
    sys'.channel c = (sys.channel c).map fun out =>
      out.actAll ((pipeEvents c (sys, label, sys')).map (PipeEvent.map Prod.snd)) := by
  have hevents : (pipeEvents c (sys, label, sys')).map (PipeEvent.map Prod.snd) =
      (send.relayTo c).toList.map PipeEvent.offer := by
    rw [pipeEvents_of_origin hsome horigin, hsend]
    cases hmsg : send.relayTo c <;> simp [hmsg]
  rw [System.channel, hsys, deliver_channel, hconns, hevents]

/-- A transition without an origin and without a move of the writer leaves the channel alone. -/
theorem channel_of_quiet (hevents : (pipeEvents c (sys, label, sys')).map (PipeEvent.map Prod.snd) = [])
    (hsame : sys'.channel c = sys.channel c) :
    sys'.channel c = (sys.channel c).map fun out =>
      out.actAll ((pipeEvents c (sys, label, sys')).map (PipeEvent.map Prod.snd)) := by
  rw [hevents, hsame]
  exact Option.map_id'.symm

/-- An input is taken without touching any channel. -/
theorem channel_of_input {waiting : Phase crates → Bool} {take : Conn crates → Conn crates} {d : ConnId}
    (h : inputStep sys d waiting take = some sys') (htake : ∀ conn, (take conn).out = conn.out) :
    sys'.channel c = sys.channel c := by
  obtain ⟨conn, hconn, -, -, rfl⟩ := inputStep_some h
  exact channel_set hconn _ (htake conn) c

/-- A move of a connection's writer is one of its own pipe and leaves every other channel alone. -/
theorem channel_of_writer {d : ConnId} {conn conn' : Conn crates} (hconn : sys.conns[d]? = some conn)
    (hsys : sys' = sys.setConn d conn') (horigin : label.origin = none)
    (hwriter : label.writerEvents c = if d = c then label.writerEvents d else [])
    (hout : conn'.out = conn.out.actAll ((label.writerEvents d).map (PipeEvent.map Prod.snd))) :
    sys'.channel c = (sys.channel c).map fun out =>
      out.actAll ((pipeEvents c (sys, label, sys')).map (PipeEvent.map Prod.snd)) := by
  subst hsys
  by_cases hd : d = c
  · subst hd
    have hlt := (List.getElem?_eq_some_iff.mp hconn).1
    have hevents : pipeEvents d (sys, label, sys.setConn d conn') = label.writerEvents d := by
      simp [pipeEvents, offers, horigin, hconn]
    rw [hevents, System.channel, System.channel, System.setConn, List.getElem?_set_self hlt, hconn,
      Option.map_some, Option.map_some, Option.map_some, hout]
  · have hnone : label.writerEvents c = [] := by rw [hwriter, if_neg hd]
    apply channel_of_quiet
    · simp [pipeEvents, offers, horigin, hnone]
    · simp [System.channel, System.setConn, hd]

/-- The relay channel of a connection is the pipe that the transitions describe. -/
theorem next_channel (hsome : sys.conns[c]?.isSome = true) (h : Next setup sys label sys') :
    sys'.channel c = (sys.channel c).map fun out =>
      out.actAll ((pipeEvents c (sys, label, sys')).map (PipeEvent.map Prod.snd)) := by
  have hnone (hlabel : label.origin = none) (hwriter : label.writerEvents c = []) :
      (pipeEvents c (sys, label, sys')).map (PipeEvent.map Prod.snd) = [] := by
    simp [pipeEvents, offers, hlabel, hwriter]
  cases h with
  | rehash hrehash => exact channel_of_quiet (hnone rfl rfl) rfl
  | step h =>
    cases label <;> simp only [step] at h
    case accept addr identity =>
      obtain rfl := Option.some.inj h
      obtain ⟨conn, hconn⟩ := Option.isSome_iff_exists.mp hsome
      have hlt := (List.getElem?_eq_some_iff.mp hconn).1
      exact channel_of_quiet (hnone rfl rfl) (by simp [System.channel, List.getElem?_append_left hlt])
    case exec d clock =>
      obtain ⟨conn, hconn, hexec⟩ := Option.bind_eq_some_iff.mp h
      have hpending := pending_of_outbox hconn
      rcases execStep_some hexec with ⟨send, rest, houtbox, rfl⟩ | ⟨houtbox, relay, conn', haccess, rfl⟩
      · have hkept : (sys.conns.set d { conn with outbox := rest })[c]?.map Conn.out = sys.channel c :=
          channel_set hconn { conn with outbox := rest } rfl c
        exact channel_of_send send hsome rfl (by simp [performedBy, performed, hpending, houtbox]) hkept rfl
      · have hout : conn'.out = conn.out := congrArg (fun surface => surface.2.2.2.2.1) (access_surface haccess)
        refine channel_of_quiet ?_ (channel_set hconn conn' hout c)
        rw [pipeEvents_of_origin hsome rfl]
        simp [performedBy, performed, hpending, houtbox]
    case head d outcome clock =>
      refine channel_of_quiet (hnone rfl rfl) (channel_of_input h fun conn => ?_)
      cases outcome <;> rfl
    case message d frame clock =>
      exact channel_of_quiet (hnone rfl rfl)
        (channel_of_input h fun conn => takeFrame_out setup.config d conn frame clock)
    case control d => exact channel_of_quiet (hnone rfl rfl) (channel_of_input h fun _ => rfl)
    case hangup d => exact channel_of_quiet (hnone rfl rfl) (channel_of_input h fun _ => rfl)
    case sweep now =>
      split at h
      · obtain rfl := Option.some.inj h
        exact channel_of_quiet (hnone rfl rfl) rfl
      · cases h
    case sweepExec =>
      unfold sweepStep at h
      split at h
      · cases h
      · rename_i peerId networkId target targets rest hpruned
        obtain rfl := Option.some.inj h
        exact channel_of_send (.relay target.2 (.peerDisconnected peerId)) hsome rfl
          (by simp [performedBy, performedNotices, hpruned]) rfl rfl
      · rename_i peerId networkId rest hpruned
        obtain rfl := Option.some.inj h
        refine channel_of_quiet ?_ rfl
        rw [pipeEvents_of_origin hsome rfl]
        simp [performedBy, performedNotices, hpruned]
    case pexTick nowMs =>
      obtain rfl := Option.some.inj h
      exact channel_of_quiet (hnone rfl rfl) (deliverAll_pex_channel _ _ c)
    case dhtAsk =>
      split at h
      · obtain rfl := Option.some.inj h
        exact channel_of_quiet (hnone rfl rfl) rfl
      · cases h
    case dhtExec =>
      split at h
      · cases h
      · rename_i tx rest hasked
        obtain rfl := Option.some.inj h
        exact channel_of_send (.relay tx (.getDhtRecords dhtMaxKeysPerPeer)) hsome rfl
          (by simp [performedBy, performedAsks, hasked]) rfl rfl
    case dhtBuild now =>
      split at h
      · obtain rfl := Option.some.inj h
        exact channel_of_quiet (hnone rfl rfl) rfl
      · cases h
    case stun =>
      obtain rfl := Option.some.inj h
      exact channel_of_quiet (hnone rfl rfl) rfl
    case rehash => cases h
    case writeRelay d ok =>
      obtain ⟨conn, taken, hconn, htaken, hsys⟩ := writeStep_some h
      refine channel_of_writer hconn hsys rfl (by simp [Label.writerEvents]) ?_
      obtain ⟨⟨msg, out⟩, hrecv, rfl⟩ := Option.map_eq_some_iff.mp htaken
      cases ok with
      | false => simp [Label.writerEvents, Conn.closeChannels, PipeEvent.map, Channel.actAll, Channel.act]
      | true =>
        have hout : out = { conn.out with queue := conn.out.queue.tail } := by
          unfold Channel.recv at hrecv
          split at hrecv
          · cases hrecv
          · rename_i first rest hqueue
            obtain ⟨-, rfl⟩ := Prod.mk.inj (Option.some.inj hrecv)
            rw [hqueue, List.tail_cons]
        simp [Label.writerEvents, PipeEvent.map, Channel.actAll, Channel.act, hout]
    case writePex d ok =>
      obtain ⟨conn, taken, hconn, htaken, hsys⟩ := writeStep_some h
      refine channel_of_writer hconn hsys rfl ?_ ?_
      · by_cases hd : d = c <;> simp [Label.writerEvents, hd]
      · obtain ⟨⟨msg, pexOut⟩, -, rfl⟩ := Option.map_eq_some_iff.mp htaken
        cases ok <;> simp [Label.writerEvents, Conn.closeChannels, PipeEvent.map, Channel.actAll, Channel.act]
    case writerDone d =>
      obtain ⟨conn, hconn, hdone⟩ := Option.bind_eq_some_iff.mp h
      split at hdone
      · refine channel_of_writer hconn (Option.some.inj hdone).symm rfl (by simp [Label.writerEvents]) ?_
        simp [Label.writerEvents, Conn.closeChannels, PipeEvent.map, Channel.actAll, Channel.act]
      · cases hdone

/-- A connection that has just been accepted has an empty channel. -/
theorem next_channel_of_none (hnone : sys.conns[c]? = none) (h : Next setup sys label sys') :
    sys'.channel c = none ∨ sys'.channel c = some (Channel.empty setup.config.outboundQueueCapacity) := by
  rcases next_conn_of_none hnone h with hstill | ⟨addr, identity, haccepted⟩
  · left
    rw [System.channel, hstill]
    rfl
  · right
    rw [System.channel, haccepted]
    rfl

/-- The pipe of a connection's relay channel, with the origins of its messages. -/
def pipe (setup : Setup) (c : ConnId) (trace : List (System crates × Label crates × System crates)) :
    Channel (Origin × RelayMessage) :=
  (Channel.empty setup.config.outboundQueueCapacity).actAll (trace.flatMap (pipeEvents c))

/-- Along every run, the relay channel of a connection is its pipe. -/
theorem run_channel {trace : List (System crates × Label crates × System crates)}
    (hrun : Run setup trace sys) (c : ConnId) :
    (sys.channel c = none ∧ trace.flatMap (pipeEvents c) = []) ∨
      sys.channel c = some ((pipe setup c trace).map Prod.snd) := by
  induction hrun with
  | nil => exact Or.inl ⟨rfl, rfl⟩
  | @snoc trace sys label sys' hrun hnext ih =>
    rcases ih with ⟨hnone, hevents⟩ | hsome
    · have hconn : sys.conns[c]? = none := Option.map_eq_none_iff.mp hnone
      have hno : pipeEvents c (sys, label, sys') = [] := by simp [pipeEvents, hconn]
      have hall : (trace ++ [(sys, label, sys')]).flatMap (pipeEvents c) = [] := by simp [hevents, hno]
      rcases next_channel_of_none hconn hnext with hstill | hnew
      · exact Or.inl ⟨hstill, hall⟩
      · right
        rw [hnew, pipe, hall]
        rfl
    · right
      have hconn : sys.conns[c]?.isSome = true := by
        rw [← Option.isSome_map, ← System.channel, hsome]
        rfl
      have hmore : pipe setup c (trace ++ [(sys, label, sys')]) =
          (pipe setup c trace).actAll (pipeEvents c (sys, label, sys')) := by
        simp [pipe, Channel.actAll, List.foldl_append]
      rw [next_channel hconn hnext, hsome, Option.map_some, Channel.actAll_map, hmore]

/-- What the writer takes off the channel is what it writes. -/
theorem taken_pipeEvents {pipe : Channel (Origin × RelayMessage)}
    (hchannel : sys.channel c = some (pipe.map Prod.snd)) :
    (pipe.taken (pipeEvents c (sys, label, sys'))).map Prod.snd = written c (sys, label, sys') := by
  have hconn : sys.conns[c]?.isSome = true := by
    rw [← Option.isSome_map, ← System.channel, hchannel]
    rfl
  have hevents : pipeEvents c (sys, label, sys') =
      (offers c (sys, label, sys')).map .offer ++ label.writerEvents c := if_pos hconn
  rw [hevents, Channel.taken, Channel.collect_append, ← Channel.taken, Channel.taken_offers,
    List.nil_append]
  cases label with
  | writeRelay d ok =>
    have hoffers : offers c (sys, .writeRelay d ok, sys') = [] := rfl
    rw [hoffers]
    by_cases hd : d = c
    · cases ok <;>
        simp [Label.writerEvents, written, hd, hchannel, Channel.takenBy, Channel.map, Channel.actAll]
    · simp [Label.writerEvents, written, hd]
  | writePex d ok =>
    by_cases hd : d = c ∧ ok = false <;> simp [Label.writerEvents, written, hd, Channel.takenBy]
  | writerDone d =>
    by_cases hd : d = c <;> simp [Label.writerEvents, written, hd, Channel.takenBy]
  | _ => rfl

/-- What each transition contributes to a connection's pipe, it contributes along every run. -/
theorem run_collect {N O : Type*} {trace : List (System crates × Label crates × System crates)}
    (part : Channel (Origin × RelayMessage) → PipeEvent (Origin × RelayMessage) → List N) (view : N → O)
    (contribution : System crates × Label crates × System crates → List O)
    (hnone : ∀ t : System crates × Label crates × System crates, t.1.channel c = none →
      contribution t = [])
    (hsome : ∀ sys label sys' pipe, Next setup sys label sys' →
      sys.channel c = some (pipe.map Prod.snd) →
        (Channel.collect part pipe (pipeEvents c (sys, label, sys'))).map view =
          contribution (sys, label, sys'))
    (hrun : Run setup trace sys) :
    trace.flatMap contribution =
      (Channel.collect part (Channel.empty setup.config.outboundQueueCapacity)
        (trace.flatMap (pipeEvents c))).map view := by
  induction hrun with
  | nil => rfl
  | @snoc trace sys label sys' hrun hnext ih =>
    rw [List.flatMap_append, ih, List.flatMap_append, List.flatMap_singleton, List.flatMap_singleton,
      Channel.collect_append, List.map_append]
    congr 1
    rcases run_channel hrun c with ⟨hchannel, -⟩ | hchannel
    · have hconn : sys.conns[c]? = none := Option.map_eq_none_iff.mp hchannel
      have hno : pipeEvents c (sys, label, sys') = [] := by simp [pipeEvents, hconn]
      rw [hno, hnone _ hchannel]
      rfl
    · exact (hsome _ _ _ _ hnext hchannel).symm

/-- Along every run, what comes out of a connection's pipe is written to its socket. -/
theorem run_written {trace : List (System crates × Label crates × System crates)}
    (hrun : Run setup trace sys) (c : ConnId) :
    trace.flatMap (written c) =
      ((Channel.empty setup.config.outboundQueueCapacity).taken (trace.flatMap (pipeEvents c))).map
        Prod.snd := by
  refine run_collect _ _ _ (fun t ht => ?_) (fun _ _ _ _ _ hchannel => taken_pipeEvents hchannel) hrun
  unfold written
  split
  · simp [ht]
  · rfl

end DigRelay
