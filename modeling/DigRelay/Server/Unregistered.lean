import DigRelay.Server.Access
import DigRelay.Server.Tasks
import DigRelay.Server.Timed

/-!
# Connections that have not registered

What one event does to the task of a connection that has not registered and to its wait. When nothing
arrives at the connection, its task works only if it worked before, and begins to wait only from work. When
something arrives, a wait begins at that time, and the task works on it only if it is a byte of the head or
a frame that it has awaited in time.
-/

namespace DigRelay

open Common

variable {crates : Crates} {setup : Setup} {timed timed' : Timed crates} {t : Duration}
  {event : Event crates} {c : ConnId}

/-- What arrives at a connection at an event, with the connection and its timing. -/
def Timed.arriving (timed : Timed crates) (c : ConnId) :
    Event crates → Option (Arrival crates × Conn crates × Wait)
  | .arrive d arrival _ =>
    if d = c then
      timed.sys.conns[c]?.bind fun conn => timed.waits[c]?.map fun wait => (arrival, conn, wait)
    else none
  | _ => none

/-- Nothing arrives but the end of the stream. -/
def Arrival.isEof : Arrival crates → Bool
  | .eof => true
  | _ => false

/-- What arrives is a byte of the request head. -/
def Arrival.isByte : Arrival crates → Bool
  | .byte _ _ => true
  | _ => false

/-- The phases in which a task neither waits nor is torn down. -/
def Phase.isWorking : Phase crates → Bool
  | .readHead | .idle => false
  | .deregister | .deregisterPex _ _ | .awaitWriter | .dropReg | .dropConn | .dropOpen | .ended => false
  | _ => true

/-- The task has something to process: a pending send, or an access on behalf of what it has read or
of its acceptance. -/
def Conn.isWorking (conn : Conn crates) : Bool := !conn.outbox.isEmpty || conn.phase.isWorking

/-- Carrying out a message keeps the session. -/
theorem intercept_session (conn : Conn crates) (msg : RelayMessage) :
    (conn.intercept c msg).session = conn.session := by
  unfold Conn.intercept
  split
  · rfl
  · unfold Conn.carryOut
    split <;> rfl

/-- An access keeps a connection registered, and once the connection is torn down no access goes back to
work or to waiting. -/
theorem access_unregistered {clock : Clock} {closed : ConnId → Bool} {relay relay' : Relay crates}
    {conn conn' : Conn crates} (h : access setup clock closed c relay conn = some (relay', conn'))
    (houtbox : conn.outbox = []) (hpeer : conn'.session.peerId = none) :
    conn.session.peerId = none ∧
      (conn.isWorking = true ∨ conn'.isWorking = false ∧ conn'.phase.isIdle = false) := by
  obtain ⟨phase, hphase, haccess⟩ := access_cases h
  cases haccess with
  | intercepted =>
    refine ⟨?_, .inl (by rw [Conn.isWorking, hphase]; exact Bool.or_true _)⟩
    rwa [intercept_session] at hpeer
  | committed => cases hpeer
  | handshook => exact ⟨hpeer, .inl (by rw [Conn.isWorking, hphase]; exact Bool.or_true _)⟩
  | removed hpeerId => exact absurd (hpeerId.symm.trans hpeer) (Option.some_ne_none _)
  | _ => exact ⟨hpeer, by simp [Conn.isWorking, hphase, houtbox, Phase.isWorking, Phase.isIdle]⟩

/-- Taking a frame keeps the session. -/
theorem takeFrame_session (config : RelayServerConfig) (conn : Conn crates) (frame : Frame crates)
    (clock : Clock) : (conn.takeFrame config c frame clock).session = conn.session := by
  unfold Conn.takeFrame
  dsimp only
  split
  · rfl
  · split
    · unfold Conn.takePexFrame
      split <;> rfl
    · split <;> rfl

/-- A task that ends up unregistered has not been registered before. -/
theorem TaskMove.unregistered {sys : System crates} {conn : Conn crates} {label : Label crates}
    {task : Session × List (Send crates) × Phase crates} (h : TaskMove setup sys c conn label task)
    (hpeer : task.1.peerId = none) : conn.session.peerId = none := by
  cases h with
  | accessed houtbox haccess => exact (access_unregistered haccess houtbox hpeer).1
  | message =>
    rw [Conn.task, takeFrame_session] at hpeer
    exact hpeer
  | _ => exact hpeer

/-- A task that takes no input stays as it is, works, or is being torn down. -/
theorem TaskMove.still_or_working {sys : System crates} {conn : Conn crates} {label : Label crates}
    {task : Session × List (Send crates) × Phase crates} (h : TaskMove setup sys c conn label task)
    (hinputs : label.inputs c = false) (hpeer : task.1.peerId = none) :
    task = conn.task ∨ conn.isWorking = true ∨
      (!task.2.1.isEmpty || task.2.2.isWorking) = false ∧ task.2.2.isIdle = false := by
  cases h with
  | still => exact .inl rfl
  | sent houtbox => exact .inr (.inl (by rw [Conn.isWorking, houtbox]; rfl))
  | accessed houtbox haccess => exact .inr (access_unregistered haccess houtbox hpeer).2
  | _ => simp [Label.inputs] at hinputs

/-- A task that hangs up, or whose head fails, is torn down. -/
theorem TaskMove.ended {sys : System crates} {conn : Conn crates} {label : Label crates}
    {task : Session × List (Send crates) × Phase crates} (h : TaskMove setup sys c conn label task)
    (hlabel : label = .hangup c ∨ ∃ clock, label = .head c .failed clock) :
    (!task.2.1.isEmpty || task.2.2.isWorking) = false ∧ task.2.2.isIdle = false := by
  cases h with
  | hangup => exact ⟨rfl, rfl⟩
  | head =>
    rcases hlabel with hlabel | ⟨clock, hlabel⟩
    · cases hlabel
    · cases hlabel
      exact ⟨rfl, rfl⟩
  | still _ hinputs =>
    rcases hlabel with rfl | ⟨clock, rfl⟩
    · simp [Label.inputs] at hinputs
    · simp [Label.inputs] at hinputs
  | _ => rcases hlabel with hlabel | ⟨clock, hlabel⟩ <;> cases hlabel

/-- What arrives becomes an input of its connection. The end of the stream ends the connection, a byte
belongs to the head, and a frame whose wait has run out ends the connection too. -/
theorem transition_of_arrive {config : RelayServerConfig} {label : Label crates}
    {arrival : Arrival crates} {clock : Clock} {conn : Conn crates} {wait : Wait}
    (hconn : timed.sys.conns[c]? = some conn) (hwait : timed.waits[c]? = some wait)
    (h : timed.effect config t (.arrive c arrival clock) = some (.transition label)) :
    label.inputs c = true ∧
      (arrival.isEof = true → label = .hangup c ∨ ∃ clock, label = .head c .failed clock) ∧
      (arrival.isByte = true → conn.phase.isReadHead = true) ∧
      (arrival.isEof = false → arrival.isByte = false →
        conn.phase = .idle ∧ (wait.isOpen config conn t = false → label = .hangup c)) := by
  simp only [Timed.effect, hconn, hwait, Option.bind_some] at h
  split at h
  · rename_i hphase
    cases arrival with
    | byte byte handshakeOk =>
      simp only [arriveHead] at h
      split at h
      · cases h
      · cases h
        exact ⟨decide_eq_true rfl, nofun, fun _ => by rw [hphase]; rfl, nofun⟩
    | eof =>
      cases h
      exact ⟨decide_eq_true rfl, fun _ => .inr ⟨clock, rfl⟩, nofun, nofun⟩
    | _ => cases h
  · rename_i hphase
    cases arrival with
    | byte => cases h
    | message frame | control =>
      cases h
      refine ⟨?_, nofun, nofun, fun _ _ => ⟨hphase, fun hclosed => by rw [hclosed]; rfl⟩⟩
      split <;> exact decide_eq_true rfl
    | close =>
      cases h
      exact ⟨decide_eq_true rfl, nofun, nofun, fun _ _ => ⟨hphase, fun _ => rfl⟩⟩
    | eof =>
      cases h
      exact ⟨decide_eq_true rfl, fun _ => .inl rfl, nofun, nofun⟩
  · cases h

/-- A head is buffered only for the connection its byte arrives at. -/
theorem event_of_buffered {config : RelayServerConfig} {d : ConnId} {head : List UInt8}
    (h : timed.effect config t event = some (.buffered d head)) :
    ∃ byte ok clock, event = .arrive d (.byte byte ok) clock ∧
      ∀ conn, timed.sys.conns[d]? = some conn → conn.phase = .readHead := by
  cases event with
  | task label => simp [Timed.effect] at h
  | expire => simp [Timed.effect, Option.bind_eq_some_iff] at h
  | arrive e arrival clock =>
    obtain ⟨conn, hconn, h⟩ := Option.bind_eq_some_iff.mp h
    obtain ⟨wait, hwait, h⟩ := Option.bind_eq_some_iff.mp h
    split at h
    · rename_i hphase
      cases arrival with
      | byte byte ok =>
        simp only [arriveHead] at h
        split at h
        · cases h
          refine ⟨byte, ok, clock, rfl, fun found hfound => ?_⟩
          rw [← Option.some.inj (hconn.symm.trans hfound), hphase]
        · cases h
      | _ => cases h
    · cases arrival <;> cases h
    · cases h

/-- The connection waits for a frame exactly when it is idle with nothing to send. -/
theorem awaitsFrame_eq {sys : System crates} {conn : Conn crates} (hconn : sys.conns[c]? = some conn) :
    sys.awaitsFrame c = (conn.phase.isIdle && conn.outbox.isEmpty) := by
  rw [System.awaitsFrame, hconn, Option.any_some]

/-- A connection that waits for a frame has nothing to process. -/
theorem isWorking_of_awaitsFrame {sys : System crates} {conn : Conn crates}
    (hconn : sys.conns[c]? = some conn) (h : sys.awaitsFrame c = true) : conn.isWorking = false := by
  rw [awaitsFrame_eq hconn, Bool.and_eq_true] at h
  obtain ⟨hidle, hempty⟩ := h
  rw [Conn.isWorking, hempty, isIdle_iff.mp hidle]
  rfl

/-- The timing of a connection after a transition. -/
theorem advance_wait {label : Label crates} {sys' : System crates} {wait : Wait}
    (hwait : timed.waits[c]? = some wait) :
    (timed.advance t label sys').waits[c]? = some (wait.rearm t label timed.sys sys' c) := by
  have hlt := (List.getElem?_eq_some_iff.mp hwait).1
  rw [Timed.advance, List.getElem?_append_left (by rwa [List.length_mapIdx]), List.getElem?_mapIdx, hwait]
  rfl

/-- The timing of a connection after a byte of a head that is still incomplete. -/
theorem buffer_wait {d : ConnId} {head : List UInt8} {wait : Wait} (hwait : timed.waits[c]? = some wait) :
    (timed.buffer t d head).waits[c]? = some (if d = c then { wait with head } else wait) := by
  rw [Timed.buffer, List.getElem?_modify, hwait]
  rfl

/-- The wait is only ever begun anew. -/
theorem rearm_opened (wait : Wait) (label : Label crates) (sys sys' : System crates) :
    (wait.rearm t label sys sys' c).opened = wait.opened := by
  unfold Wait.rearm
  split <;> rfl

/-- An event at which nothing arrives at a connection gives it no input, unless its wait runs out. -/
theorem inputs_of_effect {config : RelayServerConfig} {label : Label crates}
    (h : timed.effect config t event = some (.transition label))
    (hother : ∀ d arrival clock, event = .arrive d arrival clock → d ≠ c) :
    label.inputs c = false ∨ label = .hangup c := by
  cases event with
  | task taken =>
    simp only [Timed.effect, Option.ite_none_left_eq_some, Option.some.injEq, Effect.transition.injEq] at h
    obtain ⟨hinput, rfl⟩ := h
    cases taken with
    | head | message | control | hangup => exact absurd rfl hinput
    | _ => exact .inl rfl
  | arrive d arrival clock =>
    have hne := hother d arrival clock rfl
    obtain ⟨conn, hconn, hwaited⟩ := Option.bind_eq_some_iff.mp h
    obtain ⟨wait, hwait, -⟩ := Option.bind_eq_some_iff.mp hwaited
    have hinputs := (transition_of_arrive hconn hwait h).1
    left
    cases label with
    | head | message | control | hangup =>
      obtain rfl := of_decide_eq_true hinputs
      exact decide_eq_false hne
    | _ => cases hinputs
  | expire d =>
    obtain ⟨conn, -, h⟩ := Option.bind_eq_some_iff.mp h
    obtain ⟨wait, -, h⟩ := Option.bind_eq_some_iff.mp h
    simp only [Option.ite_none_right_eq_some, Option.some.injEq, Effect.transition.injEq] at h
    obtain ⟨-, rfl⟩ := h
    by_cases hd : d = c
    · exact .inr (by rw [hd])
    · exact .inl (decide_eq_false hd)

/-- What an event does to an unregistered connection at which nothing arrives: its task works afterwards
only if it worked before, and begins to wait only from work. -/
structure Quiet (timed : Timed crates) (t : Duration) (timed' : Timed crates) (c : ConnId)
    (conn conn' : Conn crates) (wait wait' : Wait) : Prop where
  peer : conn.session.peerId = none
  opened : wait'.opened = wait.opened
  working : conn'.isWorking = true → conn.isWorking = true
  waiting : timed'.sys.awaitsFrame c = true →
    timed.sys.awaitsFrame c = true ∧ wait'.since = wait.since ∨ conn.isWorking = true ∧ wait'.since = t

/-- An event at which nothing arrives at a connection leaves it quiet, unless it ends up registered. -/
theorem timedNext_quiet (h : TimedNext setup timed (t, event) timed') {conn conn' : Conn crates}
    {wait wait' : Wait} (hconn : timed.sys.conns[c]? = some conn) (hwait : timed.waits[c]? = some wait)
    (hconn' : timed'.sys.conns[c]? = some conn') (hwait' : timed'.waits[c]? = some wait')
    (harriving : timed.arriving c event = none) (hpeer : conn'.session.peerId = none) :
    Quiet timed t timed' c conn conn' wait wait' := by
  have hother (d : ConnId) (arrival : Arrival crates) (clock : Clock)
      (hevent : event = .arrive d arrival clock) : d ≠ c := by
    rintro rfl
    rw [hevent, Timed.arriving, if_pos rfl, hconn, hwait] at harriving
    cases harriving
  cases h with
  | buffered _ heffect =>
    obtain ⟨byte, ok, clock, hevent, -⟩ := event_of_buffered heffect
    rw [buffer_wait hwait, if_neg (hother _ _ _ hevent)] at hwait'
    obtain rfl := Option.some.inj (hconn.symm.trans hconn')
    obtain rfl := Option.some.inj hwait'
    exact ⟨hpeer, rfl, id, fun hawaits => .inl ⟨hawaits, rfl⟩⟩
  | @transition _ _ label sys' _ heffect hnext =>
    obtain ⟨moved, hmoved, hmove⟩ := next_taskMove hconn hnext
    obtain rfl := Option.some.inj (hconn'.symm.trans hmoved)
    obtain rfl := Option.some.inj ((advance_wait hwait).symm.trans hwait')
    have hawaits' : (timed.advance t label sys').sys.awaitsFrame c = (conn'.phase.isIdle &&
        conn'.outbox.isEmpty) := awaitsFrame_eq hconn'
    have hpeer' := hmove.unregistered hpeer
    -- a task that is torn down neither works nor waits
    have hgone (hended : conn'.isWorking = false ∧ conn'.phase.isIdle = false) :
        Quiet timed t (timed.advance t label sys') c conn conn' wait
          (wait.rearm t label timed.sys sys' c) := by
      refine ⟨hpeer', rearm_opened _ _ _ _, fun hworking => ?_, fun hawaits => ?_⟩
      · exact absurd (hended.1.symm.trans hworking) Bool.false_ne_true
      · rw [hawaits', hended.2] at hawaits
        exact absurd hawaits Bool.false_ne_true
    rcases inputs_of_effect heffect hother with hinputs | hhangup
    · rcases hmove.still_or_working hinputs hpeer with hstill | hworking | hended
      · have hsame : timed.sys.awaitsFrame c = (conn'.phase.isIdle && conn'.outbox.isEmpty) := by
          rw [awaitsFrame_eq hconn]
          exact congrArg (fun task => task.2.2.isIdle && task.2.1.isEmpty) hstill.symm
        refine ⟨hpeer', rearm_opened _ _ _ _, fun hworking => ?_, fun hawaits => .inl ?_⟩
        · rw [← hworking]
          exact congrArg (fun task => !task.2.1.isEmpty || task.2.2.isWorking) hstill.symm
        · rw [hawaits', ← hsame] at hawaits
          refine ⟨hawaits, ?_⟩
          rw [Wait.rearm, hinputs, hawaits, Bool.not_true, Bool.or_false, Bool.and_false]
          rfl
      · refine ⟨hpeer', rearm_opened _ _ _ _, fun _ => hworking, fun hawaits => .inr ⟨hworking, ?_⟩⟩
        have hbefore : timed.sys.awaitsFrame c = false := by
          rw [Bool.eq_false_iff]
          intro hawaited
          exact absurd (hworking.symm.trans (isWorking_of_awaitsFrame hconn hawaited)) Bool.noConfusion
        have hafter : sys'.awaitsFrame c = true := hawaits
        rw [Wait.rearm, hafter, hbefore, Bool.not_false, Bool.or_true]
        rfl
      · exact hgone hended
    · exact hgone (hmove.ended (.inl hhangup))

/-- What an event does to an unregistered connection at which something arrives: a wait that begins
begins now, and the task works afterwards only on a byte or on a frame that it has awaited in time. -/
structure Arrives (config : RelayServerConfig) (timed : Timed crates) (t : Duration)
    (timed' : Timed crates) (c : ConnId) (arrival : Arrival crates) (conn conn' : Conn crates)
    (wait wait' : Wait) : Prop where
  peer : conn.session.peerId = none
  opened : wait'.opened = wait.opened
  working : conn'.isWorking = true → arrival.isEof = false ∧
    (arrival.isByte = false → timed.sys.awaitsFrame c = true ∧ t ≤ wait.since + config.registerTimeout)
  waiting : timed'.sys.awaitsFrame c = true → wait'.since = t

/-- What arrives at a connection arrives by an event of its own. -/
theorem arriving_some {arrival : Arrival crates} {conn : Conn crates} {wait : Wait}
    (h : timed.arriving c event = some (arrival, conn, wait)) :
    (∃ clock, event = .arrive c arrival clock) ∧ timed.sys.conns[c]? = some conn ∧
      timed.waits[c]? = some wait := by
  cases event with
  | arrive d arrived clock =>
    simp only [Timed.arriving, Option.ite_none_right_eq_some] at h
    obtain ⟨rfl, h⟩ := h
    obtain ⟨_, hconn, h⟩ := Option.bind_eq_some_iff.mp h
    obtain ⟨_, hwait, h⟩ := Option.map_eq_some_iff.mp h
    cases h
    exact ⟨⟨clock, rfl⟩, hconn, hwait⟩
  | _ => cases h

/-- Nothing arrives at a connection that is not there. -/
theorem arriving_of_none (h : timed.sys.conns[c]? = none) : timed.arriving c event = none := by
  cases harriving : timed.arriving c event with
  | none => rfl
  | some found =>
    obtain ⟨arrival, conn, wait⟩ := found
    exact absurd (h.symm.trans (arriving_some harriving).2.1) (Option.some_ne_none _).symm

/-- A task that takes an input has nothing left to send. -/
theorem TaskMove.outbox_of_inputs {sys : System crates} {conn : Conn crates} {label : Label crates}
    {task : Session × List (Send crates) × Phase crates} (h : TaskMove setup sys c conn label task)
    (hinputs : label.inputs c = true) : conn.outbox = [] := by
  cases h with
  | still _ hnone => exact absurd (hinputs.symm.trans hnone) Bool.noConfusion
  | sent | accessed => cases hinputs
  | head _ houtbox | message _ houtbox | control _ houtbox | hangup _ houtbox => exact houtbox

/-- What the arrival of something at a connection does to it, unless it ends up registered. -/
theorem timedNext_arrives (h : TimedNext setup timed (t, event) timed') {arrival : Arrival crates}
    {conn conn' : Conn crates} {wait wait' : Wait}
    (harriving : timed.arriving c event = some (arrival, conn, wait))
    (hconn' : timed'.sys.conns[c]? = some conn') (hwait' : timed'.waits[c]? = some wait')
    (hpeer : conn'.session.peerId = none) :
    Arrives setup.config timed t timed' c arrival conn conn' wait wait' := by
  obtain ⟨⟨clock, rfl⟩, hconn, hwait⟩ := arriving_some harriving
  cases h with
  | buffered _ heffect =>
    obtain ⟨byte, ok, _, hevent, hphase⟩ := event_of_buffered heffect
    cases hevent
    rw [buffer_wait hwait, if_pos rfl] at hwait'
    obtain rfl := Option.some.inj (hconn.symm.trans hconn')
    obtain rfl := Option.some.inj hwait'
    refine ⟨hpeer, rfl, fun _ => ⟨rfl, nofun⟩, fun hawaits => ?_⟩
    have hnot : timed.sys.awaitsFrame c = false := by
      rw [awaitsFrame_eq hconn, hphase conn hconn]
      rfl
    exact absurd (hnot.symm.trans hawaits) Bool.false_ne_true
  | @transition _ _ label sys' _ heffect hnext =>
    obtain ⟨moved, hmoved, hmove⟩ := next_taskMove hconn hnext
    obtain rfl := Option.some.inj (hconn'.symm.trans hmoved)
    obtain rfl := Option.some.inj ((advance_wait hwait).symm.trans hwait')
    obtain ⟨hinputs, heof, -, hframe⟩ := transition_of_arrive hconn hwait heffect
    have hpeer' := hmove.unregistered hpeer
    have hgoes (hworking : conn'.isWorking = true)
        (hended : label = .hangup c ∨ ∃ clock, label = .head c .failed clock) : False :=
      Bool.noConfusion ((hmove.ended hended).1.symm.trans hworking)
    refine ⟨hpeer', rearm_opened _ _ _ _, fun hworking => ?_, fun hawaits => ?_⟩
    · have hdata : arrival.isEof = false := by
        rw [Bool.eq_false_iff]
        exact fun hend => hgoes hworking (heof hend)
      refine ⟨hdata, fun hbyte => ?_⟩
      obtain ⟨hphase, hlate⟩ := hframe hdata hbyte
      have hopen : wait.isOpen setup.config conn t = true := by
        by_contra hclosed
        exact hgoes hworking (.inl (hlate (Bool.eq_false_iff.mpr hclosed)))
      constructor
      · rw [awaitsFrame_eq hconn, hphase, hmove.outbox_of_inputs hinputs]
        rfl
      · rw [Wait.isOpen, Conn.readDeadline, hpeer'] at hopen
        exact of_decide_eq_true hopen
    · have hafter : sys'.awaitsFrame c = true := hawaits
      rw [Wait.rearm, hafter, hinputs, Bool.true_or]
      rfl

end DigRelay
