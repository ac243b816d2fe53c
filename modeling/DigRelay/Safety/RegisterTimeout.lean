import DigRelay.Server.Script
import DigRelay.Server.Unregistered

/-!
# The register timeout

A connection that has not registered should be gone once the register timeout has passed since
its handling began. The relay has no such clock. It reads the request head without any limit on
the time, and then bounds each wait for a frame by itself: every frame, whatever it is, starts
the wait afresh. A connection that reads and processes nothing after its deadline has a client that
sends no byte of the head that late, and no frame that late unless it has been silent for longer than
the timeout before. When the task makes its own moves without delay, this decides what happens.
-/

namespace DigRelay

open Common

variable {crates : Crates} {setup : Setup} {timed timed' : Timed crates} {t : Duration}
  {event : Event crates} {c : ConnId}
  {trace : List (Timed crates × (Duration × Event crates) × Timed crates)}

/-- The event accepts a connection. -/
def Event.isAccept : Event crates → Bool
  | .task (.accept _ _) => true
  | _ => false

/-- When the handling of a connection began: the time of the event that accepted it. -/
def acceptedAt (c : ConnId) (trace : List (Timed crates × (Duration × Event crates) × Timed crates)) :
    Option Duration :=
  (trace.find? fun entry => entry.2.1.2.isAccept && entry.1.sys.conns.length = c).map
    fun entry => entry.2.1.1

/-- Whether a task reads what arrives: a byte while it reads the head, a frame while its wait has
not run out. -/
def Arrival.isRead (config : RelayServerConfig) (conn : Conn crates) (wait : Wait) (t : Duration) :
    Arrival crates → Bool
  | .byte _ _ => conn.phase.isReadHead
  | .eof => false
  | _ => conn.phase.isIdle && wait.isOpen config conn t

/-- Whether a connection that has not registered reads something at an event. -/
def Timed.readsUnregistered (config : RelayServerConfig) (c : ConnId) (timed : Timed crates)
    (moment : Duration × Event crates) : Bool :=
  (timed.arriving c moment.2).any fun (arrival, conn, wait) =>
    conn.session.peerId.isNone && arrival.isRead config conn wait moment.1

/-- Whether a connection that has not registered processes something at an event. -/
def Timed.processesUnregistered (c : ConnId) (timed : Timed crates) : Event crates → Bool
  | .task (.exec d _) =>
    d = c && timed.sys.conns[c]?.any fun conn => conn.session.peerId.isNone && conn.isWorking
  | _ => false

/-- Until it has registered, a connection neither reads nor processes anything later than the register
timeout after its handling began. -/
def ActsInTime (config : RelayServerConfig) (c : ConnId)
    (trace : List (Timed crates × (Duration × Event crates) × Timed crates)) : Prop :=
  ∀ start, acceptedAt c trace = some start → ∀ entry ∈ trace,
    (entry.1.readsUnregistered config c entry.2.1 || entry.1.processesUnregistered c entry.2.1.2) = true →
      entry.2.1.1 ≤ start + config.registerTimeout

/-- No time passes while the task of a connection has something to process. -/
def IsPrompt (c : ConnId) (trace : List (Timed crates × (Duration × Event crates) × Timed crates)) : Prop :=
  ∀ entry ∈ trace, (entry.1.sys.conns[c]?.any Conn.isWorking) = true → entry.2.1.1 = entry.1.now

instance (c : ConnId) (trace : List (Timed crates × (Duration × Event crates) × Timed crates)) :
    Decidable (IsPrompt c trace) :=
  inferInstanceAs (Decidable (∀ entry ∈ trace,
    (entry.1.sys.conns[c]?.any Conn.isWorking) = true → entry.2.1.1 = entry.1.now))

/-- What the client of a connection sends at an event before it has registered. -/
def Timed.sending (timed : Timed crates) (c : ConnId) (moment : Duration × Event crates) :
    Option (Duration × Arrival crates) :=
  (timed.arriving c moment.2).bind fun (arrival, conn, _) =>
    if conn.session.peerId.isNone then some (moment.1, arrival) else none

/-- The schedule of a client: what it sends before it has registered, and when. -/
def schedule (c : ConnId) (trace : List (Timed crates × (Duration × Event crates) × Timed crates)) :
    List (Duration × Arrival crates) :=
  trace.filterMap fun entry => entry.1.sending c entry.2.1

/-- When something was last sent by a schedule, or else when the handling began. -/
def lastSent (start : Duration) (sent : List (Duration × Arrival crates)) : Duration :=
  (sent.getLast?.map Prod.fst).getD start

/-- The client sends nothing but the end of the stream, or not later than the timeout after the handling
began, or a frame after it has been silent for longer than the timeout. -/
def isTimely (timeout start last : Duration) (sent : Duration × Arrival crates) : Bool :=
  sent.2.isEof || sent.1 ≤ start + timeout || !sent.2.isByte && last + timeout < sent.1

/-- All that a schedule sends is timely. -/
def inTime (timeout start : Duration) : Duration → List (Duration × Arrival crates) → Bool
  | _, [] => true
  | last, sent :: rest => isTimely timeout start last sent && inTime timeout start sent.1 rest

/-- The handling of a connection began in the earlier part of a run or begins in the later. -/
theorem acceptedAt_append (c : ConnId)
    (earlier later : List (Timed crates × (Duration × Event crates) × Timed crates)) :
    acceptedAt c (earlier ++ later) = (acceptedAt c earlier).or (acceptedAt c later) := by
  rw [acceptedAt, List.find?_append, Option.map_or]
  rfl

/-- An input opens no connection. -/
theorem opening_of_inputs {label : Label crates} (h : label.inputs c = true) (t : Duration) :
    label.opening t = [] := by
  cases label with
  | accept => cases h
  | _ => rfl

/-- Only the event of an accept opens a connection. -/
theorem opening_of_effect {config : RelayServerConfig} {label : Label crates}
    (h : timed.effect config t event = some (.transition label)) :
    label.opening t =
      if event.isAccept then [{ opened := t, since := t, head := [] }] else [] := by
  cases event with
  | task taken =>
    simp only [Timed.effect, Option.ite_none_left_eq_some, Option.some.injEq,
      Effect.transition.injEq] at h
    obtain ⟨-, rfl⟩ := h
    cases taken <;> rfl
  | arrive =>
    obtain ⟨conn, hconn, hwaited⟩ := Option.bind_eq_some_iff.mp h
    obtain ⟨wait, hwait, -⟩ := Option.bind_eq_some_iff.mp hwaited
    exact opening_of_inputs (transition_of_arrive hconn hwait h).1 t
  | expire =>
    obtain ⟨conn, -, h⟩ := Option.bind_eq_some_iff.mp h
    obtain ⟨wait, -, h⟩ := Option.bind_eq_some_iff.mp h
    simp only [Option.ite_none_right_eq_some, Option.some.injEq, Effect.transition.injEq] at h
    obtain ⟨-, rfl⟩ := h
    rfl

/-- The timing of a connection keeps the time at which its handling began. -/
theorem timedNext_opened (hlength : timed.waits.length = timed.sys.conns.length)
    (h : TimedNext setup timed (t, event) timed') (c : ConnId) :
    timed'.waits[c]?.map Wait.opened =
      (timed.waits[c]?.map Wait.opened).or (acceptedAt c [(timed, (t, event), timed')]) := by
  cases h with
  | buffered _ heffect =>
    have haccept : event.isAccept = false := by
      cases event with
      | task => simp [Timed.effect] at heffect
      | _ => rfl
    simp only [Timed.buffer, acceptedAt, List.getElem?_modify]
    split <;> cases timed.waits[c]? <;> simp [haccept]
  | transition _ heffect _ =>
    rw [Timed.advance, opening_of_effect heffect, List.getElem?_append, List.length_mapIdx]
    split
    · rename_i hlt
      simp [hlt, rearm_opened]
    · rename_i hge
      have hnone : timed.waits[c]? = none := by simpa using hge
      by_cases haccept : event.isAccept = true
      · by_cases hc : timed.sys.conns.length = c
        · simp [acceptedAt, haccept, hc, hlength]
        · have hlt : timed.waits.length < c := lt_of_le_of_ne (not_lt.mp hge) (hlength ▸ hc)
          simp [acceptedAt, haccept, hc, hnone, (Nat.sub_pos_of_lt hlt).ne']
      · simp [acceptedAt, haccept, hnone]

/-- In every timed run, the timing of a connection tells when its handling began. -/
theorem opened_of_timedRun (h : TimedRun setup trace timed) (c : ConnId) :
    timed.waits[c]?.map Wait.opened = acceptedAt c trace := by
  induction h with
  | nil => rfl
  | snoc hrun hnext ih =>
    rw [acceptedAt_append, ← ih]
    exact timedNext_opened (waits_length_of_timedRun hrun) hnext c

/-- The handling of a connection that has a timing somewhere in a run began when the timing
says. -/
theorem acceptedAt_of_wait (h : TimedRun setup trace timed)
    {entry : Timed crates × (Duration × Event crates) × Timed crates} (hmem : entry ∈ trace)
    {wait : Wait} (hwait : entry.1.waits[c]? = some wait) :
    acceptedAt c trace = some wait.opened := by
  obtain ⟨earlier, later, rfl⟩ := List.append_of_mem hmem
  have hopened := opened_of_timedRun h.before.1 c
  rw [hwait] at hopened
  rw [acceptedAt_append, ← hopened]
  rfl

/-! ### Runs -/

/-- A schedule is in time exactly when its two parts are, each after what was last sent before. -/
theorem inTime_append (timeout start last : Duration) (earlier later : List (Duration × Arrival crates)) :
    inTime timeout start last (earlier ++ later) =
      (inTime timeout start last earlier && inTime timeout start (lastSent last earlier) later) := by
  induction earlier generalizing last with
  | nil => rfl
  | cons sent rest ih =>
    have hlast : lastSent last (sent :: rest) = lastSent sent.1 rest := by
      rw [lastSent, lastSent, List.getLast?_cons]
      cases rest.getLast? <;> rfl
    rw [List.cons_append, inTime, inTime, ih, hlast, Bool.and_assoc]

/-- What was sent last is what an event sends, if it sends something. -/
theorem lastSent_append_singleton (start : Duration) (earlier : List (Duration × Arrival crates))
    (sent : Duration × Arrival crates) : lastSent start (earlier ++ [sent]) = sent.1 := by
  rw [lastSent, List.getLast?_concat]
  rfl

/-- An event adds to the schedule what it sends. -/
theorem schedule_append (c : ConnId)
    (earlier later : List (Timed crates × (Duration × Event crates) × Timed crates)) :
    schedule c (earlier ++ later) = schedule c earlier ++ schedule c later :=
  List.filterMap_append

/-- Nothing is sent at an event at which nothing arrives. -/
theorem schedule_quiet (h : timed.arriving c event = none) :
    schedule c [(timed, (t, event), timed')] = [] := by
  simp [schedule, Timed.sending, h]

/-- What arrives at an unregistered connection is sent. -/
theorem schedule_arrives {arrival : Arrival crates} {conn : Conn crates} {wait : Wait}
    (h : timed.arriving c event = some (arrival, conn, wait)) (hpeer : conn.session.peerId = none) :
    schedule c [(timed, (t, event), timed')] = [(t, arrival)] := by
  simp [schedule, Timed.sending, h, hpeer]

/-- How the timing of an unregistered connection trails the schedule of its client, however long the task
takes: a wait has not begun before something was last sent. -/
structure Trails (c : ConnId) (sent : List (Duration × Arrival crates)) (timed : Timed crates)
    (wait : Wait) : Prop where
  sent_le_now : lastSent wait.opened sent ≤ timed.now
  sent_le_since : timed.sys.awaitsFrame c = true → lastSent wait.opened sent ≤ wait.since

/-- How the timing of an unregistered connection that is prompt follows the schedule of its client. While the
task works it is still the time at which something was last sent, and a wait has begun at that time. As long
as the schedule is in time, the task works only before the deadline. -/
structure Follows (config : RelayServerConfig) (c : ConnId) (sent : List (Duration × Arrival crates))
    (timed : Timed crates) (conn : Conn crates) (wait : Wait) : Prop where
  working : conn.isWorking = true → timed.now = lastSent wait.opened sent
  waiting : timed.sys.awaitsFrame c = true → wait.since = lastSent wait.opened sent
  timely : conn.isWorking = true → inTime config.registerTimeout wait.opened wait.opened sent = true →
    timed.now ≤ wait.opened + config.registerTimeout

/-- A connection that has just been accepted has begun its handling now. -/
theorem timedNext_accepts (hlength : timed.waits.length = timed.sys.conns.length)
    (h : TimedNext setup timed (t, event) timed') (hnone : timed.sys.conns[c]? = none) {conn : Conn crates}
    {wait : Wait} (hconn : timed'.sys.conns[c]? = some conn) (hwait : timed'.waits[c]? = some wait) :
    wait.opened = t ∧ timed'.sys.awaitsFrame c = false := by
  have hopened := timedNext_opened hlength h c
  have hlt : timed.sys.conns.length ≤ c := List.getElem?_eq_none_iff.mp hnone
  rw [List.getElem?_eq_none (by omega : timed.waits.length ≤ c), hwait] at hopened
  have hstart : wait.opened = t := by
    simp only [Option.map_some, Option.map_none, Option.none_or, acceptedAt, List.find?_singleton] at hopened
    split at hopened
    · exact Option.some.inj hopened
    · cases hopened
  refine ⟨hstart, ?_⟩
  cases h with
  | buffered => exact absurd (hnone.symm.trans hconn) (Option.some_ne_none _).symm
  | transition _ _ hnext =>
    rcases next_conn_of_none hnone hnext with habsent | ⟨addr, identity, haccepted⟩
    · exact absurd (habsent.symm.trans hconn) (Option.some_ne_none _).symm
    · exact awaitsFrame_eq haccepted

/-- Connections stay in the system. -/
theorem timedNext_conn (h : TimedNext setup timed (t, event) timed') {conn : Conn crates}
    (hconn : timed.sys.conns[c]? = some conn) : ∃ conn', timed'.sys.conns[c]? = some conn' := by
  cases h with
  | buffered => exact ⟨conn, hconn⟩
  | transition _ _ hnext =>
    obtain ⟨conn', hconn', -⟩ := next_taskMove hconn hnext
    exact ⟨conn', hconn'⟩

/-- Nothing is sent on a connection that is not there. -/
theorem schedule_of_none (h : TimedRun setup trace timed) (hnone : timed.sys.conns[c]? = none) :
    schedule c trace = [] := by
  induction h with
  | nil => rfl
  | @snoc trace timed moment timed' hrun hnext ih =>
    have hbefore : timed.sys.conns[c]? = none := by
      cases hconn : timed.sys.conns[c]? with
      | none => rfl
      | some conn =>
        obtain ⟨conn', hconn'⟩ := timedNext_conn hnext hconn
        exact absurd (hnone.symm.trans hconn') (Option.some_ne_none _).symm
    rw [schedule_append, ih hbefore, schedule_quiet (arriving_of_none hbefore)]
    rfl

/-- The time of a state is that of the event that led to it. -/
theorem timedNext_now (h : TimedNext setup timed (t, event) timed') : timed'.now = t := by
  cases h <;> rfl

/-- Time does not go back. -/
theorem timedNext_le (h : TimedNext setup timed (t, event) timed') : timed.now ≤ timed'.now := by
  cases h with
  | buffered hnow => exact hnow
  | transition hnow => exact hnow

/-- A connection has a timing. -/
theorem wait_of_conn (h : TimedRun setup trace timed) {conn : Conn crates}
    (hconn : timed.sys.conns[c]? = some conn) : ∃ wait, timed.waits[c]? = some wait := by
  have hlt := (List.getElem?_eq_some_iff.mp hconn).1
  rw [← waits_length_of_timedRun h] at hlt
  exact ⟨_, List.getElem?_eq_getElem hlt⟩

/-- The rule for unregistered connections: what holds of a connection that has just been accepted, and is kept
by the events at which nothing arrives at it and by those at which something does, holds of its schedule and
its timing in every run. What is known of the pace of the run may be used at each event. -/
theorem unregistered_induction
    (P : List (Duration × Arrival crates) → Timed crates → Conn crates → Wait → Prop)
    (pace : Timed crates → Conn crates → Duration → Prop)
    (accepted : ∀ {timed conn wait}, wait.opened = timed.now → timed.sys.awaitsFrame c = false →
      P [] timed conn wait)
    (quiet : ∀ {sent timed timed' conn conn' wait wait'}, timed.now ≤ timed'.now →
      pace timed conn timed'.now → Quiet timed timed'.now timed' c conn conn' wait wait' →
      P sent timed conn wait → P sent timed' conn' wait')
    (arrives : ∀ {sent timed timed' conn conn' wait wait' arrival},
      Arrives setup.config timed timed'.now timed' c arrival conn conn' wait wait' →
      P sent timed conn wait → P (sent ++ [(timed'.now, arrival)]) timed' conn' wait')
    (h : TimedRun setup trace timed)
    (hpace : ∀ entry ∈ trace, ∀ conn, entry.1.sys.conns[c]? = some conn → pace entry.1 conn entry.2.1.1)
    {conn : Conn crates} {wait : Wait} (hconn : timed.sys.conns[c]? = some conn)
    (hwait : timed.waits[c]? = some wait) (hpeer : conn.session.peerId = none) :
    P (schedule c trace) timed conn wait := by
  induction h generalizing conn wait with
  | nil => cases hconn
  | @snoc trace before moment after hrun hnext ih =>
    obtain ⟨t, event⟩ := moment
    obtain ⟨hearlier, hlast⟩ := List.forall_mem_append.mp hpace
    obtain rfl : after.now = t := timedNext_now hnext
    rw [schedule_append]
    cases hbefore : before.sys.conns[c]? with
    | none =>
      obtain ⟨hopened, hawaits⟩ :=
        timedNext_accepts (waits_length_of_timedRun hrun) hnext hbefore hconn hwait
      rw [schedule_of_none hrun hbefore, schedule_quiet (arriving_of_none hbefore)]
      exact accepted hopened hawaits
    | some earlier =>
      obtain ⟨earlierWait, hearlierWait⟩ := wait_of_conn hrun hbefore
      cases harriving : before.arriving c event with
      | none =>
        have hquiet := timedNext_quiet hnext hbefore hearlierWait hconn hwait harriving hpeer
        rw [schedule_quiet harriving, List.append_nil]
        exact quiet (timedNext_le hnext) (hlast _ (List.mem_singleton_self _) earlier hbefore) hquiet
          (ih hearlier hbefore hearlierWait hquiet.peer)
      | some found =>
        obtain ⟨arrival, found, foundWait⟩ := found
        obtain ⟨-, hfound, hfoundWait⟩ := arriving_some harriving
        obtain rfl := Option.some.inj (hbefore.symm.trans hfound)
        obtain rfl := Option.some.inj (hearlierWait.symm.trans hfoundWait)
        have harrives := timedNext_arrives hnext harriving hconn hwait hpeer
        rw [schedule_arrives harriving harrives.peer]
        exact arrives harrives (ih hearlier hbefore hearlierWait harrives.peer)

/-- In every run the timing of a connection trails the schedule of its client for as long as the connection is
unregistered. -/
theorem trails_of_timedRun (h : TimedRun setup trace timed) {conn : Conn crates} {wait : Wait}
    (hconn : timed.sys.conns[c]? = some conn) (hwait : timed.waits[c]? = some wait)
    (hpeer : conn.session.peerId = none) : Trails c (schedule c trace) timed wait := by
  refine unregistered_induction (fun sent timed _ wait => Trails c sent timed wait) (fun _ _ _ => True)
    ?accepted ?quiet ?arrives h (fun _ _ _ _ => trivial) hconn hwait hpeer
  case accepted =>
    intro timed conn wait hopened hawaits
    exact ⟨hopened.le, fun hwaits => absurd (hawaits.symm.trans hwaits) Bool.false_ne_true⟩
  case quiet =>
    intro sent timed timed' conn conn' wait wait' hnow _ hquiet htrails
    have hsent : lastSent wait'.opened sent ≤ timed'.now := by
      rw [hquiet.opened]
      exact htrails.sent_le_now.trans hnow
    refine ⟨hsent, fun hwaits => ?_⟩
    rcases hquiet.waiting hwaits with ⟨hwaited, hsince⟩ | ⟨-, hsince⟩
    · rw [hsince, hquiet.opened]
      exact htrails.sent_le_since hwaited
    · rw [hsince]
      exact hsent
  case arrives =>
    intro sent timed timed' conn conn' wait wait' arrival harrives _
    refine ⟨?_, fun hwaits => ?_⟩
    · rw [lastSent_append_singleton]
    · rw [lastSent_append_singleton, harrives.waiting hwaits]

/-- In every run in which a connection is prompt, its timing follows the schedule of its client for as long
as it is unregistered. -/
theorem follows_of_timedRun (h : TimedRun setup trace timed) (hprompt : IsPrompt c trace) {conn : Conn crates}
    {wait : Wait} (hconn : timed.sys.conns[c]? = some conn) (hwait : timed.waits[c]? = some wait)
    (hpeer : conn.session.peerId = none) : Follows setup.config c (schedule c trace) timed conn wait := by
  refine unregistered_induction (Follows setup.config c)
    (fun timed conn t => conn.isWorking = true → t = timed.now) ?accepted ?quiet ?arrives h
    (fun entry hmem conn hconn hworking => hprompt entry hmem (by rw [hconn]; exact hworking))
    hconn hwait hpeer
  case accepted =>
    intro timed conn wait hopened hawaits
    refine ⟨fun _ => hopened.symm, fun hwaits => ?_, fun _ _ => ?_⟩
    · exact absurd (hawaits.symm.trans hwaits) Bool.false_ne_true
    · rw [hopened]
      exact Nat.le_add_right _ _
  case quiet =>
    intro sent timed timed' conn conn' wait wait' _ hworks hquiet hfollows
    refine ⟨fun hworking => ?_, fun hwaits => ?_, fun hworking htimely => ?_⟩
    · have hworked := hquiet.working hworking
      rw [hquiet.opened, hworks hworked]
      exact hfollows.working hworked
    · rw [hquiet.opened]
      rcases hquiet.waiting hwaits with ⟨hwaited, hsince⟩ | ⟨hworked, hsince⟩
      · rw [hsince]
        exact hfollows.waiting hwaited
      · rw [hsince, hworks hworked]
        exact hfollows.working hworked
    · have hworked := hquiet.working hworking
      rw [hquiet.opened] at htimely
      rw [hquiet.opened, hworks hworked]
      exact hfollows.timely hworked htimely
  case arrives =>
    intro sent timed timed' conn conn' wait wait' arrival harrives hfollows
    refine ⟨fun _ => ?_, fun hwaits => ?_, fun hworking htimely => ?_⟩
    · rw [lastSent_append_singleton]
    · rw [lastSent_append_singleton]
      exact harrives.waiting hwaits
    · obtain ⟨hdata, hframe⟩ := harrives.working hworking
      rw [inTime_append, Bool.and_eq_true, inTime, inTime, Bool.and_true, isTimely, hdata,
        Bool.false_or, Bool.or_eq_true, Bool.and_eq_true, decide_eq_true_eq, decide_eq_true_eq,
        Bool.not_eq_true'] at htimely
      rcases htimely.2 with hearly | ⟨hbyte, hlate⟩
      · exact hearly
      · -- a frame after a long silence is not read, so that the task does not work on it
        obtain ⟨hwaited, hopen⟩ := hframe hbyte
        rw [hfollows.waiting hwaited, ← harrives.opened] at hopen
        exact absurd hlate (not_lt.mpr hopen)

/-- What arrives at an unregistered connection and is read: every byte, and a frame exactly when the wait for
it has not run out. -/
theorem isRead_of_arriving (h : TimedNext setup timed (t, event) timed') {arrival : Arrival crates}
    {conn : Conn crates} {wait : Wait} (harriving : timed.arriving c event = some (arrival, conn, wait))
    (hpeer : conn.session.peerId = none) (heof : arrival.isEof = false) :
    arrival.isByte = true ∧ arrival.isRead setup.config conn wait t = true ∨
      arrival.isByte = false ∧ timed.sys.awaitsFrame c = true ∧
        arrival.isRead setup.config conn wait t =
          decide (t ≤ wait.since + setup.config.registerTimeout) := by
  obtain ⟨⟨clock, rfl⟩, hconn, hwait⟩ := arriving_some harriving
  cases h with
  | buffered _ heffect =>
    obtain ⟨_, _, _, hevent, hphase⟩ := event_of_buffered heffect
    cases hevent
    refine .inl ⟨rfl, ?_⟩
    rw [Arrival.isRead, hphase conn hconn]
    rfl
  | transition _ heffect hnext =>
    obtain ⟨_, _, hmove⟩ := next_taskMove hconn hnext
    obtain ⟨hinputs, -, hhead, hframe⟩ := transition_of_arrive hconn hwait heffect
    cases hbyte : arrival.isByte with
    | true =>
      refine .inl ⟨rfl, ?_⟩
      cases arrival with
      | byte => exact hhead rfl
      | _ => cases hbyte
    | false =>
      obtain ⟨hphase, -⟩ := hframe heof hbyte
      refine .inr ⟨rfl, ?_, ?_⟩
      · rw [awaitsFrame_eq hconn, hphase, hmove.outbox_of_inputs hinputs]
        rfl
      · cases arrival with
        | byte => cases hbyte
        | eof => cases heof
        | _ => simp [Arrival.isRead, hphase, Phase.isIdle, Wait.isOpen, Conn.readDeadline, hpeer]

/-- What is not read late is timely, when the wait has not begun before something was last sent. -/
theorem isTimely_of_read (h : TimedNext setup timed (t, event) timed') {arrival : Arrival crates}
    {conn : Conn crates} {wait : Wait} (harriving : timed.arriving c event = some (arrival, conn, wait))
    (hpeer : conn.session.peerId = none) {start last : Duration}
    (hlast : timed.sys.awaitsFrame c = true → last ≤ wait.since)
    (hread : arrival.isRead setup.config conn wait t = true → t ≤ start + setup.config.registerTimeout) :
    isTimely setup.config.registerTimeout start last (t, arrival) = true := by
  rw [isTimely, Bool.or_eq_true, Bool.or_eq_true, Bool.and_eq_true, decide_eq_true_eq, decide_eq_true_eq]
  cases heof : arrival.isEof with
  | true => exact .inl (.inl rfl)
  | false =>
    rcases isRead_of_arriving h harriving hpeer heof with ⟨-, hreads⟩ | ⟨hbyte, hawaits, hreads⟩
    · exact .inl (.inr (hread hreads))
    · rw [hreads, decide_eq_true_eq] at hread
      rcases Nat.lt_or_ge (wait.since + setup.config.registerTimeout) t with hlate | hopen
      · refine .inr ⟨by rw [hbyte]; rfl, ?_⟩
        exact (Nat.add_le_add_right (hlast hawaits) _).trans_lt hlate
      · exact .inl (.inr (hread hopen))

/-- What is timely is not read late, when the wait has begun by the time something was last sent. -/
theorem read_of_isTimely (h : TimedNext setup timed (t, event) timed') {arrival : Arrival crates}
    {conn : Conn crates} {wait : Wait} (harriving : timed.arriving c event = some (arrival, conn, wait))
    (hpeer : conn.session.peerId = none) {start last : Duration}
    (hlast : timed.sys.awaitsFrame c = true → wait.since ≤ last)
    (htimely : isTimely setup.config.registerTimeout start last (t, arrival) = true)
    (hread : arrival.isRead setup.config conn wait t = true) :
    t ≤ start + setup.config.registerTimeout := by
  rw [isTimely, Bool.or_eq_true, Bool.or_eq_true, Bool.and_eq_true, decide_eq_true_eq, decide_eq_true_eq]
    at htimely
  cases heof : arrival.isEof with
  | true =>
    cases arrival with
    | eof => cases hread
    | _ => cases heof
  | false =>
    rcases htimely with (hend | hearly) | ⟨hbyte, hsilent⟩
    · exact absurd (heof.symm.trans hend) Bool.false_ne_true
    · exact hearly
    · rcases isRead_of_arriving h harriving hpeer heof with ⟨hhead, -⟩ | ⟨-, hawaits, hreads⟩
      · rw [hhead] at hbyte
        exact absurd hbyte Bool.false_ne_true
      · rw [hreads, decide_eq_true_eq] at hread
        exact absurd (hread.trans (Nat.add_le_add_right (hlast hawaits) _)) (not_le.mpr hsilent)

/-- A client sends what arrives at its connection while it is unregistered. -/
theorem arriving_of_sending {sent : Duration × Arrival crates}
    (h : timed.sending c (t, event) = some sent) :
    ∃ conn wait, timed.arriving c event = some (sent.2, conn, wait) ∧ conn.session.peerId = none ∧
      sent.1 = t := by
  obtain ⟨⟨arrival, conn, wait⟩, harriving, h⟩ := Option.bind_eq_some_iff.mp h
  obtain ⟨hpeer, h⟩ := Option.ite_none_right_eq_some.mp h
  obtain rfl := Option.some.inj h
  exact ⟨conn, wait, harriving, Option.isNone_iff_eq_none.mp hpeer, rfl⟩

/-- A schedule is in time exactly when all that it sends is timely after what was sent before. -/
theorem inTime_schedule_iff (timeout start last : Duration) (c : ConnId)
    (trace : List (Timed crates × (Duration × Event crates) × Timed crates)) :
    inTime timeout start last (schedule c trace) = true ↔
      ∀ earlier entry later sent, trace = earlier ++ entry :: later →
        entry.1.sending c entry.2.1 = some sent →
          isTimely timeout start (lastSent last (schedule c earlier)) sent = true := by
  constructor
  · rintro hin earlier entry later sent rfl hsent
    have hcons : schedule c (entry :: later) = sent :: schedule c later := List.filterMap_cons_some hsent
    rw [schedule_append, hcons, inTime_append, inTime, Bool.and_eq_true, Bool.and_eq_true] at hin
    exact hin.2.1
  · intro htimely
    induction trace using List.reverseRecOn with
    | nil => rfl
    | append_singleton trace entry ih =>
      have hearlier : inTime timeout start last (schedule c trace) = true := by
        refine ih fun earlier found later sent htrace hsent => ?_
        refine htimely earlier found (later ++ [entry]) sent ?_ hsent
        rw [htrace, List.append_assoc, List.cons_append]
      rw [schedule_append, inTime_append, hearlier, Bool.true_and]
      cases hsent : entry.1.sending c entry.2.1 with
      | none => simp [schedule, hsent, inTime]
      | some sent =>
        simp only [schedule, List.filterMap_cons, hsent, List.filterMap_nil, inTime, Bool.and_true]
        exact htimely trace entry [] sent rfl hsent

/-- In every run in which nothing is read late, the schedule of the client is in time. -/
theorem inTime_of_reads (h : TimedRun setup trace timed) {start : Duration}
    (hstart : acceptedAt c trace = some start)
    (hreads : ∀ entry ∈ trace, entry.1.readsUnregistered setup.config c entry.2.1 = true →
      entry.2.1.1 ≤ start + setup.config.registerTimeout) :
    inTime setup.config.registerTimeout start start (schedule c trace) = true := by
  rw [inTime_schedule_iff]
  rintro earlier entry later sent rfl hsent
  have hmem : entry ∈ earlier ++ entry :: later := List.mem_append_right _ List.mem_cons_self
  obtain ⟨conn, wait, harriving, hpeer, htime⟩ := arriving_of_sending hsent
  obtain ⟨-, hconn, hwait⟩ := arriving_some harriving
  obtain rfl := Option.some.inj (hstart.symm.trans (acceptedAt_of_wait h hmem hwait))
  have htrails := trails_of_timedRun h.before.1 hconn hwait hpeer
  have htimely := isTimely_of_read h.before.2 harriving hpeer htrails.sent_le_since fun hread =>
    hreads entry hmem (by simp [Timed.readsUnregistered, harriving, hpeer, hread])
  rwa [← htime] at htimely

/-- In every run in which a connection is prompt, nothing is read late if the schedule of its client is in
time. -/
theorem reads_of_inTime (h : TimedRun setup trace timed) (hprompt : IsPrompt c trace) {start : Duration}
    (hstart : acceptedAt c trace = some start)
    (hin : inTime setup.config.registerTimeout start start (schedule c trace) = true)
    {entry : Timed crates × (Duration × Event crates) × Timed crates} (hmem : entry ∈ trace)
    (hreads : entry.1.readsUnregistered setup.config c entry.2.1 = true) :
    entry.2.1.1 ≤ start + setup.config.registerTimeout := by
  obtain ⟨⟨arrival, conn, wait⟩, harriving, hread⟩ := (Option.any_eq_true _ _).mp hreads
  obtain ⟨hpeer, hread⟩ := Bool.and_eq_true_iff.mp hread
  have hpeer := Option.isNone_iff_eq_none.mp hpeer
  obtain ⟨-, hconn, hwait⟩ := arriving_some harriving
  obtain rfl := Option.some.inj (hstart.symm.trans (acceptedAt_of_wait h hmem hwait))
  obtain ⟨earlier, later, rfl⟩ := List.append_of_mem hmem
  obtain ⟨hearlier, -⟩ := List.forall_mem_append.mp hprompt
  have hfollows := follows_of_timedRun h.before.1 hearlier hconn hwait hpeer
  have htimely := (inTime_schedule_iff _ _ _ c _).mp hin earlier entry later (entry.2.1.1, arrival) rfl
    (by simp [Timed.sending, harriving, hpeer])
  exact read_of_isTimely h.before.2 harriving hpeer (fun hawaits => (hfollows.waiting hawaits).le) htimely hread

/-- A connection that processes something is there, unregistered and at work. -/
theorem conn_of_processes (h : timed.processesUnregistered c event = true) :
    ∃ conn, timed.sys.conns[c]? = some conn ∧ conn.session.peerId = none ∧ conn.isWorking = true := by
  cases event with
  | task label =>
    cases label with
    | exec d clock =>
      obtain ⟨-, h⟩ := Bool.and_eq_true_iff.mp h
      obtain ⟨conn, hconn, h⟩ := (Option.any_eq_true _ _).mp h
      obtain ⟨hpeer, hworking⟩ := Bool.and_eq_true_iff.mp h
      exact ⟨conn, hconn, Option.isNone_iff_eq_none.mp hpeer, hworking⟩
    | _ => cases h
  | _ => cases h

/-- A connection that neither reads nor processes anything after its deadline until it has registered has, in
every timed run, a client whose schedule is in time; and in every run in which the connection is prompt the
schedule alone decides. -/
theorem run_actsInTime_iff (h : TimedRun setup trace timed) (c : ConnId) :
    (ActsInTime setup.config c trace → ∀ start, acceptedAt c trace = some start →
      inTime setup.config.registerTimeout start start (schedule c trace) = true) ∧
    (IsPrompt c trace →
      (ActsInTime setup.config c trace ↔ ∀ start, acceptedAt c trace = some start →
        inTime setup.config.registerTimeout start start (schedule c trace) = true)) := by
  have hnecessary (hacts : ActsInTime setup.config c trace) (start : Duration)
      (hstart : acceptedAt c trace = some start) :
      inTime setup.config.registerTimeout start start (schedule c trace) = true :=
    inTime_of_reads h hstart fun entry hmem hreads =>
      hacts start hstart entry hmem (by rw [hreads, Bool.true_or])
  refine ⟨hnecessary, fun hprompt => ⟨hnecessary, fun hin start hstart entry hmem hacts => ?_⟩⟩
  have hin := hin start hstart
  rcases Bool.or_eq_true_iff.mp hacts with hreads | hprocesses
  · exact reads_of_inTime h hprompt hstart hin hmem hreads
  · obtain ⟨conn, hconn, hpeer, hworking⟩ := conn_of_processes hprocesses
    have hnow : entry.2.1.1 = entry.1.now := hprompt entry hmem (by rw [hconn]; exact hworking)
    obtain ⟨earlier, later, rfl⟩ := List.append_of_mem hmem
    obtain ⟨hearlier, -⟩ := List.forall_mem_append.mp hprompt
    obtain ⟨wait, hwait⟩ := wait_of_conn h.before.1 hconn
    obtain rfl := Option.some.inj (hstart.symm.trans (acceptedAt_of_wait h hmem hwait))
    rw [schedule_append, inTime_append, Bool.and_eq_true] at hin
    rw [hnow]
    exact (follows_of_timedRun h.before.1 hearlier hconn hwait hpeer).timely hworking hin.1

/-- A request for an upgrade to the relay wire. -/
def upgradeRequest : String :=
  "GET / HTTP/1.1\r\nConnection: Upgrade\r\nUpgrade: websocket\r\n\r\n"

/-- What happens at time zero when a connection is accepted and sends its request at once. -/
def upgrades (c : ConnId) : List (Event silentCrates) :=
  .task (.accept sampleAddr none) :: List.replicate 4 (.task (.exec c (atSecond 0))) ++
    upgradeRequest.toList.map fun char =>
      .arrive c (.byte (UInt8.ofNat char.toNat) true) (atSecond 0)

/-- A connection is accepted and upgraded at time zero, and pinged at some whole seconds. -/
def upgradesAndPings (c : ConnId) (pings : List ℕ) : List (Duration × Event silentCrates) :=
  (upgrades c).map (fun event => (0, event)) ++
    pings.map fun secs => (Duration.fromSecs secs, .arrive c .control (atSecond secs))

/-- A client that pings after four seconds and again after fifteen is in time: the second ping finds that
the wait for it has run out. -/
theorem run_actsInTime_pinged_twice :
    ∃ trace timed, @TimedRun silentCrates standardSetup trace timed ∧ IsPrompt 0 trace ∧
      acceptedAt 0 trace = some 0 ∧
      ((schedule 0 trace).filter fun sent => !sent.2.isByte).map Prod.fst =
        [Duration.fromSecs 4, Duration.fromSecs 15] ∧
      ActsInTime standardSetup.config 0 trace := by
  obtain ⟨trace, timed, hrun, hchecks⟩ := exists_traced_timedRun standardSetup (upgradesAndPings 0 [4, 15])
    (fun trace _ => decide (IsPrompt 0 trace ∧ acceptedAt 0 trace = some 0 ∧
      ((schedule 0 trace).filter fun sent => !sent.2.isByte).map Prod.fst =
        [Duration.fromSecs 4, Duration.fromSecs 15] ∧
      inTime standardSetup.config.registerTimeout 0 0 (schedule 0 trace) = true)) (by decide +kernel)
  obtain ⟨hprompt, haccepted, hpings, hin⟩ := of_decide_eq_true hchecks
  refine ⟨trace, timed, hrun, hprompt, haccepted, hpings, ?_⟩
  refine ((run_actsInTime_iff hrun 0).2 hprompt).mpr fun start hstart => ?_
  obtain rfl := Option.some.inj (haccepted.symm.trans hstart)
  exact hin

/-- A client that pings every six seconds is still read after twelve. -/
theorem exists_timedRun_not_actsInTime :
    ∃ trace timed, @TimedRun silentCrates standardSetup trace timed ∧ IsPrompt 0 trace ∧
      ¬ ActsInTime standardSetup.config 0 trace := by
  obtain ⟨trace, timed, hrun, hchecks⟩ := exists_traced_timedRun standardSetup (upgradesAndPings 0 [6, 12])
    (fun trace _ => decide (IsPrompt 0 trace ∧ acceptedAt 0 trace = some 0 ∧
      ∃ entry ∈ trace, entry.1.readsUnregistered standardSetup.config 0 entry.2.1 = true ∧
        entry.2.1.1 = Duration.fromSecs 12)) (by decide +kernel)
  obtain ⟨hprompt, haccepted, entry, hmem, hreads, hlate⟩ := of_decide_eq_true hchecks
  refine ⟨trace, timed, hrun, hprompt, fun hin => ?_⟩
  have hintime := hin 0 haccepted entry hmem (by rw [hreads, Bool.true_or])
  have hdeadline : ¬ Duration.fromSecs 12 ≤ 0 + standardSetup.config.registerTimeout := by decide
  rw [hlate] at hintime
  exact hdeadline hintime

end DigRelay
