import DigRelay.HttpServe
import DigRelay.Server.Outbox

/-!
# The relay against a clock

The transitions of the relay say in which order things happen. Here every transition has a
time, and the inputs of a connection come from its socket: the bytes of its request head, one by
one and for as long as they take, and then frames. Each wait for a frame has a deadline of its
own, counted from the moment the frame loop comes round. A frame that arrives later is not read;
the connection hangs up instead.
-/

namespace DigRelay

open Common

variable {crates : Crates}

/-- What the socket yields to a task that waits for input: a byte of the request head, with the
success of the handshake it may lead to; a text or binary frame; a ping, pong or raw frame; a
close frame or a malformed one; or the end of the stream. -/
inductive Arrival (crates : Crates)
  | byte (byte : UInt8) (handshakeOk : Bool)
  | message (frame : Frame crates)
  | control
  | close
  | eof

/-- The timing of a connection: when its handling began, when its current wait for a frame began,
and the bytes of its request head read so far. -/
structure Wait where
  opened : Duration
  since : Duration
  head : List UInt8

/-- The relay at a time, with the timing of every connection. -/
structure Timed (crates : Crates) where
  sys : System crates
  waits : List Wait
  now : Duration

/-- A relay that starts listening at time zero. -/
def Timed.new (crates : Crates) : Timed crates := { sys := System.new crates, waits := [], now := 0 }

/-- A transition that is no input, an arrival, or a read timer that runs out. -/
inductive Event (crates : Crates)
  | task (label : Label crates)
  | arrive (c : ConnId) (arrival : Arrival crates) (clock : Clock)
  | expire (c : ConnId)

/-- What an event comes to: a transition of the relay, or a longer head that is still
incomplete. -/
inductive Effect (crates : Crates)
  | transition (label : Label crates)
  | buffered (c : ConnId) (head : List UInt8)

/-- The label is an input to some connection's task. -/
def Label.isInput : Label crates → Bool
  | .head _ _ _ => true
  | .message _ _ _ => true
  | .control _ => true
  | .hangup _ => true
  | _ => false

/-- How long a connection waits for a frame. -/
def Conn.readDeadline (config : RelayServerConfig) (conn : Conn crates) : Duration :=
  if conn.session.peerId.isSome then config.idleTimeout else config.registerTimeout

/-- The wait for a frame has not run out. -/
def Wait.isOpen (config : RelayServerConfig) (conn : Conn crates) (wait : Wait) (t : Duration) :
    Bool :=
  t ≤ wait.since + conn.readDeadline config

/-- A plain request is answered, an upgrade is handed to the handshake, and anything else ends the
connection. -/
def headOutcome (handshakeOk : Bool) : Except HeadError RequestHead → HeadOutcome
  | .error _ => .failed
  | .ok head =>
    if !head.isWebsocketUpgrade then .http
    else if handshakeOk then .upgraded
    else .failed

/-- What arrives while the head is read. Nothing bounds the time it takes. -/
def arriveHead (c : ConnId) (head : List UInt8) (clock : Clock) :
    Arrival crates → Option (Effect crates)
  | .byte byte handshakeOk =>
    match pushByte head byte with
    | .reading head => some (.buffered c head)
    | .done outcome => some (.transition (.head c (headOutcome handshakeOk outcome) clock))
  | .eof => some (.transition (.head c .failed clock))
  | .message _ => none
  | .control => none
  | .close => none

/-- What arrives while the connection waits for a frame. -/
def arriveFrame (c : ConnId) (isOpen : Bool) (clock : Clock) :
    Arrival crates → Option (Effect crates)
  | .byte _ _ => none
  | .message frame => some (.transition (if isOpen then .message c frame clock else .hangup c))
  | .control => some (.transition (if isOpen then .control c else .hangup c))
  | .close => some (.transition (.hangup c))
  | .eof => some (.transition (.hangup c))

/-- What an event at a time comes to, if it can happen. -/
def Timed.effect (config : RelayServerConfig) (timed : Timed crates) (t : Duration) :
    Event crates → Option (Effect crates)
  | .task label => if label.isInput then none else some (.transition label)
  | .arrive c arrival clock =>
    timed.sys.conns[c]?.bind fun conn =>
      timed.waits[c]?.bind fun wait =>
        match conn.phase with
        | .readHead => arriveHead c wait.head clock arrival
        | .idle => arriveFrame c (wait.isOpen config conn t) clock arrival
        | _ => none
  | .expire c =>
    timed.sys.conns[c]?.bind fun conn =>
      timed.waits[c]?.bind fun wait =>
        if wait.since + conn.readDeadline config ≤ t then some (.transition (.hangup c)) else none

/-- Whether a connection waits for a frame. -/
def System.awaitsFrame (sys : System crates) (c : ConnId) : Bool :=
  sys.conns[c]?.any fun conn => conn.phase.isIdle && conn.outbox.isEmpty

/-- The wait of a connection that has just begun to wait starts now. -/
def Wait.rearm (t : Duration) (label : Label crates) (sys sys' : System crates) (c : ConnId)
    (wait : Wait) : Wait :=
  if sys'.awaitsFrame c && (label.inputs c || !sys.awaitsFrame c) then { wait with since := t }
  else wait

/-- The timing of a connection that a transition accepts. -/
def Label.opening (t : Duration) : Label crates → List Wait
  | .accept _ _ => [{ opened := t, since := t, head := [] }]
  | _ => []

/-- The relay after a transition to a system at a time. -/
def Timed.advance (timed : Timed crates) (t : Duration) (label : Label crates)
    (sys : System crates) : Timed crates :=
  { sys
    waits := timed.waits.mapIdx (Wait.rearm t label timed.sys sys) ++ label.opening t
    now := t }

/-- The relay after a byte of a head that is still incomplete. -/
def Timed.buffer (timed : Timed crates) (t : Duration) (c : ConnId) (head : List UInt8) :
    Timed crates :=
  { timed with waits := timed.waits.modify c fun wait => { wait with head }, now := t }

/-- The timed transition relation. Time never runs back. -/
inductive TimedNext (setup : Setup) : Timed crates → Duration × Event crates → Timed crates → Prop
  | buffered {timed : Timed crates} {t : Duration} {event : Event crates} {c : ConnId}
      {head : List UInt8} (hnow : timed.now ≤ t)
      (heffect : timed.effect setup.config t event = some (.buffered c head)) :
      TimedNext setup timed (t, event) (timed.buffer t c head)
  | transition {timed : Timed crates} {t : Duration} {event : Event crates}
      {label : Label crates} {sys' : System crates} (hnow : timed.now ≤ t)
      (heffect : timed.effect setup.config t event = some (.transition label))
      (hnext : Next setup timed.sys label sys') :
      TimedNext setup timed (t, event) (timed.advance t label sys')

/-- The timed successor of a relay under an event. -/
def timedStep (setup : Setup) (timed : Timed crates) (moment : Duration × Event crates) :
    Option (Timed crates) :=
  if timed.now ≤ moment.1 then
    (timed.effect setup.config moment.1 moment.2).bind fun
      | .buffered c head => some (timed.buffer moment.1 c head)
      | .transition label => (step setup timed.sys label).map (timed.advance moment.1 label)
  else none

/-- A timed run of the relay from its start. -/
abbrev TimedRun (setup : Setup)
    (trace : List (Timed crates × (Duration × Event crates) × Timed crates))
    (timed : Timed crates) : Prop :=
  Execution (TimedNext setup) (Timed.new crates) trace timed

variable {setup : Setup} {sys sys' : System crates} {label : Label crates}
  {timed timed' : Timed crates} {t : Duration} {event : Event crates} {c : ConnId}
  {trace : List (Timed crates × (Duration × Event crates) × Timed crates)}

/-- The timed step function computes timed transitions. -/
theorem timedStep_next {moment : Duration × Event crates}
    (h : timedStep setup timed moment = some timed') : TimedNext setup timed moment timed' := by
  unfold timedStep at h
  split at h
  · rename_i hnow
    obtain ⟨effect, heffect, hafter⟩ := Option.bind_eq_some_iff.mp h
    cases effect with
    | buffered c head =>
      obtain rfl := Option.some.inj hafter
      exact .buffered hnow heffect
    | transition label =>
      obtain ⟨sys', hsys', rfl⟩ := Option.map_eq_some_iff.mp hafter
      exact .transition hnow heffect (.step hsys')
  · cases h

/-- Whatever the timed step function records along a list of events is a timed run. -/
theorem exists_traced_timedRun (setup : Setup) (moments : List (Duration × Event crates))
    (P : List (Timed crates × (Duration × Event crates) × Timed crates) → Timed crates → Bool)
    (h : ((traceLabels (timedStep setup) (Timed.new crates) moments).any
      fun (trace, timed) => P trace timed) = true) :
    ∃ trace timed, TimedRun setup trace timed ∧ P trace timed = true := by
  obtain ⟨⟨trace, timed⟩, hrun, hP⟩ := (Option.any_eq_true _ _).mp h
  exact ⟨trace, timed, Execution.append_traceLabels (fun _ _ _ => timedStep_next) moments .nil hrun, hP⟩

/-- Every state of a timed run is a state of the relay without a clock. -/
theorem isReachable_of_timedRun (h : TimedRun setup trace timed) :
    IsReachable setup timed.sys := by
  refine Reachable.invariant (fun timed => IsReachable setup timed.sys) .refl ?_ ⟨trace, h⟩
  rintro timed moment timed' - hreach hnext
  cases hnext with
  | buffered => exact hreach
  | transition _ _ hnext => exact hreach.step hnext

/-- A label of the background opens no connection. -/
theorem opening_of_isBackground (h : label.isBackground = true) (t : Duration) :
    label.opening t = [] := by
  cases label with
  | accept => cases h
  | _ => rfl

/-- Only an accept changes the number of connections. -/
theorem next_conns_length (t : Duration) (h : Next setup sys label sys') :
    sys'.conns.length = sys.conns.length + (label.opening t).length := by
  have hdeliver (send : Send crates) (conns : List (Conn crates)) :
      (deliver send conns).length = conns.length := by
    rw [← List.length_map Conn.task, tasks_deliver, List.length_map]
  have hdeliverAll (sends : List (Send crates)) :
      (deliverAll sends sys.conns).length = sys.conns.length := by
    rw [← List.length_map Conn.task, deliverAll_map Conn.task (fun _ _ => rfl) (fun _ _ => rfl),
      List.length_map]
  cases next_move h with
  | wrote hlabel | closed hlabel =>
    simp [System.setConn, opening_of_isBackground hlabel]
  | background sends hlabel => simp [hdeliverAll, opening_of_isBackground hlabel]
  | _ => simp [hdeliver, System.setConn, Label.opening]

/-- In every timed run, each connection has its timing. -/
theorem waits_length_of_timedRun (h : TimedRun setup trace timed) :
    timed.waits.length = timed.sys.conns.length := by
  refine Reachable.invariant (fun timed => timed.waits.length = timed.sys.conns.length) rfl ?_
    ⟨trace, h⟩
  rintro timed ⟨t, event⟩ timed' - hlength hnext
  cases hnext with
  | buffered => simpa [Timed.buffer] using hlength
  | transition _ _ hnext =>
    rw [Timed.advance, next_conns_length t hnext, ← hlength]
    simp

/-- What the liveness clock shows: the whole seconds since it was first read. -/
def livenessNowSecs (start now : Duration) : ℕ := Duration.asSecs (now - start)

/-- Whole seconds of elapsed time do not exceed those of a deadline of whole seconds. -/
theorem livenessNowSecs_sub_le {start earlier now deadline : ℕ}
    (hwhole : 1000000000 ∣ deadline) (hnow : now ≤ earlier + deadline) :
    livenessNowSecs start now - livenessNowSecs start earlier ≤ Duration.asSecs deadline := by
  obtain ⟨secs, rfl⟩ := hwhole
  unfold livenessNowSecs Duration.asSecs
  omega

end DigRelay
