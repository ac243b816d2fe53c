import DigRelay.Common.TaskPool
import DigRelay.Safety.RegisterTimeout
import DigRelay.Server.Script
import DigRelay.Server.Touch
import Mathlib.Data.List.Count
import Mathlib.Data.List.Induction

/-!
# Every inbound frame is accounted for

Text and binary frames stamp the connection's activity and are charged to its budgets before
anything else is done with them. Pings, pongs and raw frames are read by the same loop and skipped
before either. So a connection is held to its message rate, and a peer that keeps sending is never
found silent, as far as text and binary frames go. The sweep compares whole seconds, so the second
half also asks for a deadline of whole seconds.
-/

namespace DigRelay

open Common

variable {crates : Crates} {setup : Setup} {sys sys' : System crates} {label : Label crates}
  {timed timed' : Timed crates} {t : Duration} {event : Event crates} {c : ConnId}
  {conn conn' : Conn crates}
  {trace : List (Timed crates × (Duration × Event crates) × Timed crates)}

/-- The connection has not come to serving the relay wire. -/
def Phase.isOpening : Phase crates → Bool
  | .checkBan | .checkOpen | .acquireOpen | .acquireConn | .refuseConn | .readHead => true
  | _ => false

/-- Spend one token at each of several times. -/
def TokenBucket.spends (capacity : ℕ) (bucket : TokenBucket) (times : List ℕ) : TokenBucket :=
  times.foldl (fun bucket nowMs => (bucket.trySpend capacity nowMs).2) bucket

/-- The last spend comes after the others. -/
theorem spends_append_singleton (capacity : ℕ) (bucket : TokenBucket) (times : List ℕ) (last : ℕ) :
    bucket.spends capacity (times ++ [last]) =
      ((bucket.spends capacity times).trySpend capacity last).2 := by
  simp [TokenBucket.spends]

/-- How many of the times fall into the one-second window of a time. -/
def inWindow (times : List ℕ) (nowMs : ℕ) : ℕ := times.countP fun time => time / 1000 = nowMs / 1000

/-- After spending at nondecreasing times, the next spend finds the capacity less what was asked for
in its own window. -/
theorem available_spends (capacity startMs : ℕ) {times : List ℕ} {nowMs : ℕ}
    (hsorted : times.Pairwise (· ≤ ·)) (hpast : ∀ time ∈ times, time ≤ nowMs) :
    ((TokenBucket.new capacity startMs).spends capacity times).available capacity nowMs =
      capacity - inWindow times nowMs := by
  induction times using List.reverseRecOn generalizing nowMs with
  | nil =>
    unfold TokenBucket.available
    split <;> rfl
  | append_singleton times last ih =>
    rw [List.pairwise_append] at hsorted
    obtain ⟨hbefore, -, hlast⟩ := hsorted
    have hlast (time : ℕ) (htime : time ∈ times) : time ≤ last :=
      hlast time htime last (List.mem_singleton_self _)
    have hle : last ≤ nowMs := hpast last (by simp)
    have htokens := ih hbefore hlast
    obtain ⟨-, hwindow, hleft⟩ := trySpend_spec
      ((TokenBucket.new capacity startMs).spends capacity times) capacity last
    rw [TokenBucket.available, spends_append_singleton, hwindow, hleft, htokens]
    split
    · rename_i hnew
      have hnone : inWindow (times ++ [last]) nowMs = 0 := by
        refine List.countP_eq_zero.mpr fun time htime => ?_
        have hearlier : time ≤ last := by
          rcases List.mem_append.mp htime with hold | hself
          · exact hlast time hold
          · exact (List.mem_singleton.mp hself).le
        simp only [decide_eq_true_eq]
        omega
      rw [hnone, Nat.sub_zero]
    · rename_i hsame
      have hcount : inWindow (times ++ [last]) nowMs = inWindow times last + 1 := by
        have hwindow : nowMs / 1000 = last / 1000 := not_not.mp hsame
        simp [inWindow, hwindow]
      rw [hcount]
      omega

/-- A spend at nondecreasing times succeeds exactly while fewer than the capacity have asked in its
window. -/
theorem trySpend_spends (capacity startMs : ℕ) {times : List ℕ} {nowMs : ℕ}
    (hsorted : times.Pairwise (· ≤ ·)) (hpast : ∀ time ∈ times, time ≤ nowMs) :
    (((TokenBucket.new capacity startMs).spends capacity times).trySpend capacity nowMs).1 =
      decide (inWindow times nowMs < capacity) := by
  rw [(trySpend_spec _ capacity nowMs).1, available_spends capacity startMs hsorted hpast]
  exact decide_eq_decide.mpr (by omega)

/-- Under a message rate a frame spends a message token, and is refused when there is none. -/
theorem charge_msgs {config : RelayServerConfig} (conn : Conn crates) (frameLen nowMs : ℕ)
    (hrate : 0 < config.messagesPerConnPerSec) :
    (conn.charge config frameLen nowMs).2.msgs =
        (conn.limiter.msgs.trySpend config.messagesPerConnPerSec nowMs).2 ∧
      ((conn.limiter.msgs.trySpend config.messagesPerConnPerSec nowMs).1 = false →
        (conn.charge config frameLen nowMs).1 = .disconnect) := by
  unfold Conn.charge PerConnLimiter.admit
  cases hspend : (conn.limiter.msgs.trySpend config.messagesPerConnPerSec nowMs).1 with
  | false => simp [hspend, hrate]
  | true =>
    refine ⟨?_, nofun⟩
    simp only [hspend, gt_iff_lt, hrate, if_true, Bool.true_eq_false, and_false, if_false]
    split
    · rfl
    · split <;> split <;> rfl

/-- A text or binary frame stamps the activity and is charged to the budgets, and a refused one
begins the teardown. -/
theorem takeFrame_accounts (config : RelayServerConfig) (frame : Frame crates) (clock : Clock)
    (hphase : conn.phase = .idle) :
    let after := conn.takeFrame config c frame clock
    after.lastActivity = clock.secs ∧
      after.limiter = (conn.charge config frame.len clock.ms).2 ∧
      after.phase.isOpening = false ∧
      ((conn.charge config frame.len clock.ms).1 = .disconnect → after.phase = .strike []) := by
  dsimp only [Conn.takeFrame, Conn.charge]
  generalize conn.limiter.admit config frame.len clock.ms = charge
  cases hcharge : charge.1 with
  | disconnect => exact ⟨rfl, rfl, rfl, fun _ => rfl⟩
  | ok =>
    dsimp only
    split
    · unfold Conn.takePexFrame
      split <;> exact ⟨rfl, rfl, by simp [hphase, Phase.isOpening], nofun⟩
    · split <;> exact ⟨rfl, rfl, by simp [hphase, Phase.isOpening], nofun⟩

/-- Dispatching a message leads to no phase before the upgrade. -/
theorem intercept_isOpening (c : ConnId) (conn : Conn crates) (msg : RelayMessage) :
    (conn.intercept c msg).phase.isOpening = false := by
  unfold Conn.intercept
  split
  · rfl
  · cases dispatch conn.session msg <;> rfl

/-- No access leads back to the phases before the upgrade. -/
theorem access_isOpening {clock : Clock} {closed : ConnId → Bool} {relay relay' : Relay crates}
    (h : access setup clock closed c relay conn = some (relay', conn'))
    (hafter : conn'.phase.isOpening = true) : conn.phase.isOpening = true := by
  obtain ⟨phase, hphase, haccess⟩ := access_cases h
  rw [hphase]
  cases haccess with
  | notBanned | notFull | opened | acquired | notAcquired => rfl
  | intercepted =>
    rw [intercept_isOpening] at hafter
    cases hafter
  | _ => cases hafter

/-- The transitions by which a frame loop reads something. -/
def Label.isRead : Label crates → Bool
  | .message _ _ _ | .control _ => true
  | _ => false

/-- A transition that reads nothing takes no frame. -/
theorem ne_message_of_not_isRead (h : label.isRead = false) (d : ConnId) (frame : Frame crates)
    (clock : Clock) : label ≠ .message d frame clock := by
  rintro rfl
  cases h

/-- A transition that reads nothing takes no control frame. -/
theorem ne_control_of_not_isRead (h : label.isRead = false) (d : ConnId) : label ≠ .control d := by
  rintro rfl
  cases h

/-- What the relay keeps about a connection's traffic, and where its task stands. -/
def Conn.meter (conn : Conn crates) : PerConnLimiter × ℕ × Phase crates :=
  (conn.limiter, conn.lastActivity, conn.phase)

/-- Budgets and activity stay as they are and the connection is not back before the upgrade. -/
def Conn.KeepsMeter (conn conn' : Conn crates) : Prop :=
  conn'.limiter = conn.limiter ∧ conn'.lastActivity = conn.lastActivity ∧
    (conn'.phase.isOpening = true → conn.phase.isOpening = true)

/-- The same meter reading keeps the meter. -/
theorem keepsMeter_of_eq (h : conn'.meter = conn.meter) : conn.KeepsMeter conn' := by
  simp only [Conn.meter, Prod.mk.injEq] at h
  exact ⟨h.1, h.2.1, fun hopening => h.2.2 ▸ hopening⟩

/-- What a transition does to a connection's meter: a frame is taken, the request's head is, or the
meter is kept. -/
inductive MeterStep (setup : Setup) (c : ConnId) (conn : Conn crates) :
    Label crates → Conn crates → Prop
  | frame {frame : Frame crates} {clock : Clock} (hphase : conn.phase = .idle) :
    MeterStep setup c conn (.message c frame clock) (conn.takeFrame setup.config c frame clock)
  | head {outcome : HeadOutcome} {clock : Clock} (hphase : conn.phase = .readHead) :
    MeterStep setup c conn (.head c outcome clock) (conn.takeHead setup.config clock outcome)
  | kept {label : Label crates} {conn' : Conn crates}
    (hlabel : ∀ frame clock, label ≠ .message c frame clock) (hkeeps : conn.KeepsMeter conn') :
    MeterStep setup c conn label conn'

/-- Updating another connection leaves this one, and its own update is the one made. -/
theorem getElem?_set_cases {conns : List (Conn crates)} {d : ConnId} {before : Conn crates}
    (after : Conn crates) (hbefore : conns[d]? = some before) (hconn : conns[c]? = some conn) :
    (d = c ∧ before = conn ∧ (conns.set d after)[c]? = some after) ∨
      (d ≠ c ∧ (conns.set d after)[c]? = some conn) := by
  by_cases hd : d = c
  · subst hd
    exact .inl ⟨rfl, Option.some.inj (hbefore.symm.trans hconn),
      List.getElem?_set_self (List.getElem?_eq_some_iff.mp hconn).1⟩
  · exact .inr ⟨hd, (List.getElem?_set_ne hd).trans hconn⟩

/-- A connection updated with its meter kept leaves every connection's meter kept. -/
theorem exists_keepsMeter_set {conns : List (Conn crates)} {d : ConnId} {before after : Conn crates}
    (hbefore : conns[d]? = some before) (hkeeps : before.KeepsMeter after)
    (hconn : conns[c]? = some conn) :
    ∃ conn', (conns.set d after)[c]? = some conn' ∧ conn.KeepsMeter conn' := by
  rcases getElem?_set_cases after hbefore hconn with ⟨-, rfl, hafter⟩ | ⟨-, hsame⟩
  · exact ⟨after, hafter, hkeeps⟩
  · exact ⟨conn, hsame, keepsMeter_of_eq rfl⟩

/-- Connections whose meters read the same keep their meters. -/
theorem exists_keepsMeter_of_map {conns conns' : List (Conn crates)}
    (hmeter : conns'.map Conn.meter = conns.map Conn.meter) (hconn : conns[c]? = some conn) :
    ∃ conn', conns'[c]? = some conn' ∧ conn.KeepsMeter conn' := by
  obtain ⟨conn', hconn', heq⟩ := exists_getElem?_of_map_eq hmeter hconn
  exact ⟨conn', hconn', keepsMeter_of_eq heq⟩

/-- A connection's budgets and activity are moved by the frames it takes and by its upgrade
alone. -/
theorem next_meter (h : Next setup sys label sys') (hconn : sys.conns[c]? = some conn) :
    ∃ conn', sys'.conns[c]? = some conn' ∧ MeterStep setup c conn label conn' := by
  have hkept (hlabel : ∀ frame clock, label ≠ .message c frame clock)
      (hkept : ∃ conn', sys'.conns[c]? = some conn' ∧ conn.KeepsMeter conn') :
      ∃ conn', sys'.conns[c]? = some conn' ∧ MeterStep setup c conn label conn' := by
    obtain ⟨conn', hconn', hkeeps⟩ := hkept
    exact ⟨conn', hconn', .kept hlabel hkeeps⟩
  have hdeliver (send : Send crates) (conns : List (Conn crates)) :
      (deliver send conns).map Conn.meter = conns.map Conn.meter :=
    deliver_map Conn.meter (fun _ _ => rfl) (fun _ _ => rfl) send conns
  have hback (hlabel : label.isBackground = true) (frame : Frame crates) (clock : Clock) :
      label ≠ .message c frame clock := by
    rintro rfl
    cases hlabel
  have hunread (hlabel : label.isRead = false) := ne_message_of_not_isRead hlabel c
  cases next_move h with
  | accepted addr identity =>
    refine hkept (hunread rfl) ⟨conn, ?_, keepsMeter_of_eq rfl⟩
    rw [List.getElem?_append_left (List.getElem?_eq_some_iff.mp hconn).1, hconn]
  | sent hbefore houtbox =>
    refine hkept (hunread rfl) (exists_keepsMeter_of_map ?_ hconn)
    rw [hdeliver]
    exact map_set_of_eq Conn.meter hbefore rfl
  | accessed hbefore houtbox haccess =>
    refine hkept (hunread rfl) (exists_keepsMeter_set hbefore ?_ hconn)
    have hsurface := access_surface haccess
    simp only [Conn.surface, Prod.mk.injEq] at hsurface
    exact ⟨hsurface.2.2.1, hsurface.2.2.2.1, access_isOpening haccess⟩
  | @head d before outcome clock hbefore hphase houtbox =>
    rcases getElem?_set_cases (before.takeHead setup.config clock outcome) hbefore hconn with
      ⟨rfl, rfl, hafter⟩ | ⟨-, hsame⟩
    · exact ⟨_, hafter, .head hphase⟩
    · exact hkept (hunread rfl) ⟨conn, hsame, keepsMeter_of_eq rfl⟩
  | @message d before frame clock hbefore hphase houtbox =>
    rcases getElem?_set_cases (before.takeFrame setup.config d frame clock) hbefore hconn with
      ⟨rfl, rfl, hafter⟩ | ⟨hd, hsame⟩
    · exact ⟨_, hafter, .frame hphase⟩
    · refine hkept (fun _ _ heq => hd ?_) ⟨conn, hsame, keepsMeter_of_eq rfl⟩
      exact (Label.message.injEq .. ▸ heq).1
  | control hbefore =>
    refine hkept (fun frame clock heq => ?_) (exists_keepsMeter_set hbefore (keepsMeter_of_eq rfl) hconn)
    cases heq
  | hangup hbefore =>
    exact hkept (hunread rfl) (exists_keepsMeter_set hbefore ⟨rfl, rfl, nofun⟩ hconn)
  | wrote hlabel hbefore | closed hlabel hbefore =>
    exact hkept (hback hlabel) (exists_keepsMeter_set hbefore (keepsMeter_of_eq rfl) hconn)
  | noticed =>
    refine hkept (hunread rfl) (exists_keepsMeter_of_map ?_ hconn)
    rw [hdeliver]
  | background sends hlabel =>
    have hmeter := deliverAll_map Conn.meter (fun _ _ => rfl) (fun _ _ => rfl) sends sys.conns
    exact hkept (hback hlabel) (exists_keepsMeter_of_map hmeter hconn)
  | swept | forgotten | rehashed => exact hkept (hunread rfl) ⟨conn, hconn, keepsMeter_of_eq rfl⟩

/-- What the frame loop of a connection reads at an event, with the clocks at that time: every
message but a close. -/
def Timed.reads (config : RelayServerConfig) (c : ConnId) (timed : Timed crates)
    (moment : Duration × Event crates) : Option (Arrival crates × Clock) :=
  match moment.2, timed.effect config moment.1 moment.2 with
  | .arrive d arrival clock, some (.transition (.message _ _ _)) =>
    if d = c then some (arrival, clock) else none
  | .arrive d arrival clock, some (.transition (.control _)) =>
    if d = c then some (arrival, clock) else none
  | _, _ => none

/-- The clocks at which a connection has read something, in order. -/
def clocksRead (config : RelayServerConfig) (c : ConnId)
    (trace : List (Timed crates × (Duration × Event crates) × Timed crates)) : List Clock :=
  trace.filterMap fun entry => (entry.1.reads config c entry.2.1).map Prod.snd

/-- What comes to an input is what arrived: a frame by a text or binary frame, a control frame by a
ping, pong or raw frame. -/
def Event.Brings (event : Event crates) (label : Label crates) : Prop :=
  (∀ d frame clock, label = .message d frame clock → event = .arrive d (.message frame) clock) ∧
    ∀ d, label = .control d → ∃ clock, event = .arrive d .control clock

/-- Nothing needs to arrive for a step that reads nothing. -/
theorem brings_of_not_isRead (h : label.isRead = false) : event.Brings label :=
  ⟨fun d frame clock heq => absurd heq (ne_message_of_not_isRead h d frame clock),
    fun d heq => absurd heq (ne_control_of_not_isRead h d)⟩

/-- An arrival brings the input its task takes. -/
theorem brings_of_arrive {config : RelayServerConfig} {d : ConnId} {arrival : Arrival crates}
    {clock : Clock}
    (h : timed.effect config t (.arrive d arrival clock) = some (.transition label)) :
    (Event.arrive d arrival clock).Brings label := by
  obtain ⟨conn, -, h⟩ := Option.bind_eq_some_iff.mp h
  obtain ⟨wait, -, h⟩ := Option.bind_eq_some_iff.mp h
  split at h
  · cases arrival with
    | byte byte handshakeOk =>
      simp only [arriveHead] at h
      split at h
      · cases h
      · cases h
        exact brings_of_not_isRead rfl
    | eof =>
      cases h
      exact brings_of_not_isRead rfl
    | _ => cases h
  · cases arrival with
    | byte => cases h
    | message frame =>
      generalize Wait.isOpen config conn wait t = inTime at h
      cases inTime <;> cases h
      · exact brings_of_not_isRead rfl
      · refine ⟨fun d' frame' clock' heq => ?_, fun d' heq => ?_⟩
        · obtain ⟨rfl, rfl, rfl⟩ := Label.message.injEq .. ▸ heq
          rfl
        · cases heq
    | control =>
      generalize Wait.isOpen config conn wait t = inTime at h
      cases inTime <;> cases h
      · exact brings_of_not_isRead rfl
      · refine ⟨fun d' frame' clock' heq => ?_, fun d' heq => ⟨clock, ?_⟩⟩
        · cases heq
        · obtain rfl := Label.control.inj heq
          rfl
    | _ =>
      cases h
      exact brings_of_not_isRead rfl
  · cases h

/-- An event brings the input its effect takes. -/
theorem effect_input {config : RelayServerConfig}
    (h : timed.effect config t event = some (.transition label)) : event.Brings label := by
  cases event with
  | task taken =>
    simp only [Timed.effect, Option.ite_none_left_eq_some, Option.some.injEq,
      Effect.transition.injEq] at h
    obtain ⟨hinput, rfl⟩ := h
    constructor
    · rintro d frame clock rfl
      exact absurd rfl hinput
    · rintro d rfl
      exact absurd rfl hinput
  | expire d =>
    obtain ⟨conn, -, h⟩ := Option.bind_eq_some_iff.mp h
    obtain ⟨wait, -, h⟩ := Option.bind_eq_some_iff.mp h
    simp only [Option.ite_none_right_eq_some, Option.some.injEq, Effect.transition.injEq] at h
    obtain ⟨-, rfl⟩ := h
    exact brings_of_not_isRead rfl
  | arrive => exact brings_of_arrive h

/-- A connection reads a text or binary frame, which its task then takes, or a control frame. -/
theorem reads_some {config : RelayServerConfig} {moment : Duration × Event crates}
    {arrival : Arrival crates} {clock : Clock}
    (h : timed.reads config c moment = some (arrival, clock)) :
    (∃ frame, arrival = .message frame ∧
        timed.effect config moment.1 moment.2 = some (.transition (.message c frame clock))) ∨
      arrival = .control ∧ timed.effect config moment.1 moment.2 = some (.transition (.control c)) := by
  unfold Timed.reads at h
  split at h
  · rename_i d arrived clock' d' frame clock'' hevent heffect
    obtain ⟨rfl, heq⟩ := Option.ite_none_right_eq_some.mp h
    obtain ⟨rfl, rfl⟩ := Prod.mk.injEq .. ▸ Option.some.inj heq
    have harrive := (effect_input heffect).1 _ _ _ rfl
    obtain ⟨rfl, rfl, rfl⟩ := Event.arrive.injEq .. ▸ hevent.symm.trans harrive
    exact .inl ⟨frame, rfl, heffect⟩
  · rename_i d arrived clock' d' hevent heffect
    obtain ⟨rfl, heq⟩ := Option.ite_none_right_eq_some.mp h
    obtain ⟨rfl, rfl⟩ := Prod.mk.injEq .. ▸ Option.some.inj heq
    obtain ⟨_, harrive⟩ := (effect_input heffect).2 _ rfl
    obtain ⟨rfl, rfl, rfl⟩ := Event.arrive.injEq .. ▸ hevent.symm.trans harrive
    exact .inr ⟨rfl, heffect⟩
  · cases h

/-- A text or binary frame that comes to an input is read. -/
theorem reads_of_message {config : RelayServerConfig} {frame : Frame crates} {clock : Clock}
    (h : timed.effect config t event = some (.transition (.message c frame clock))) :
    timed.reads config c (t, event) = some (.message frame, clock) := by
  obtain rfl := (effect_input h).1 _ _ _ rfl
  simp [Timed.reads, h]

/-- A connection that was not there before has just been accepted. -/
theorem next_fresh (h : Next setup sys label sys') (hnone : sys.conns[c]? = none)
    (hconn : sys'.conns[c]? = some conn) :
    ∃ addr identity, conn = Conn.accepted setup.config addr identity := by
  have hlength := next_conns_length 0 h
  have hge := List.getElem?_eq_none_iff.mp hnone
  have hlt := (List.getElem?_eq_some_iff.mp hconn).1
  cases label with
  | accept addr identity =>
    cases h with
    | step h =>
      obtain rfl := Option.some.inj h
      rw [List.getElem?_append_right hge] at hconn
      exact ⟨addr, _, List.mem_singleton.mp (List.mem_of_getElem? hconn)⟩
  | _ =>
    simp only [Label.opening, List.length_nil] at hlength
    omega

/-- No arrival at a connection that does not exist is read. -/
theorem reads_of_none {config : RelayServerConfig} (hnone : timed.sys.conns[c]? = none)
    (moment : Duration × Event crates) : timed.reads config c moment = none := by
  cases hreads : timed.reads config c moment with
  | none => rfl
  | some found =>
    obtain ⟨arrival, clock⟩ := found
    unfold Timed.reads at hreads
    split at hreads
    · rename_i hevent heffect
      obtain ⟨rfl, -⟩ := Option.ite_none_right_eq_some.mp hreads
      simp [Timed.effect, hevent, hnone] at heffect
    · rename_i hevent heffect
      obtain ⟨rfl, -⟩ := Option.ite_none_right_eq_some.mp hreads
      simp [Timed.effect, hevent, hnone] at heffect
    · cases hreads

/-- Every message read from a connection is read with the liveness clock at the time of reading. -/
def LivenessClocked (config : RelayServerConfig) (start : Duration) (c : ConnId)
    (trace : List (Timed crates × (Duration × Event crates) × Timed crates)) : Prop :=
  ∀ entry ∈ trace, ∀ read ∈ entry.1.reads config c entry.2.1,
    read.2.secs = livenessNowSecs start entry.2.1.1

instance (config : RelayServerConfig) (start : Duration) (c : ConnId)
    (trace : List (Timed crates × (Duration × Event crates) × Timed crates)) :
    Decidable (LivenessClocked config start c trace) :=
  inferInstanceAs (Decidable (∀ entry ∈ trace, ∀ read ∈ entry.1.reads config c entry.2.1,
    read.2.secs = livenessNowSecs start entry.2.1.1))

/-- What a connection's meter says about the messages it has read: nothing before the upgrade, one
message token spent for each, and an activity not before any of them. -/
structure Kept (config : RelayServerConfig) (start : Duration) (c : ConnId)
    (trace : List (Timed crates × (Duration × Event crates) × Timed crates)) (conn : Conn crates) :
    Prop where
  opening : conn.phase.isOpening = true → ∀ entry ∈ trace, entry.1.reads config c entry.2.1 = none
  msgs : 0 < config.messagesPerConnPerSec → ∃ startMs, conn.limiter.msgs =
    (TokenBucket.new config.messagesPerConnPerSec startMs).spends config.messagesPerConnPerSec
      ((clocksRead config c trace).map Clock.ms)
  activity : LivenessClocked config start c trace → ∀ entry ∈ trace,
    (entry.1.reads config c entry.2.1).isSome = true →
      livenessNowSecs start entry.2.1.1 ≤ conn.lastActivity

/-- Time has come to now. -/
theorem time_le_now (hrun : TimedRun setup trace timed) :
    ∀ entry ∈ trace, entry.2.1.1 ≤ timed.now := by
  induction hrun with
  | nil => simp
  | @snoc trace timed moment timed' hrun hnext ih =>
    have hstep : timed.now ≤ moment.1 ∧ timed'.now = moment.1 := by
      cases hnext with
      | buffered hnow => exact ⟨hnow, rfl⟩
      | transition hnow => exact ⟨hnow, rfl⟩
    intro entry hentry
    rcases List.mem_append.mp hentry with hold | hnew
    · exact (ih entry hold).trans (hstep.1.trans_eq hstep.2.symm)
    · rw [List.mem_singleton.mp hnew]
      exact hstep.2.ge

/-- Nothing read leaves the list of clocks as it is. -/
theorem clocksRead_of_none {config : RelayServerConfig}
    {entry : Timed crates × (Duration × Event crates) × Timed crates}
    (h : entry.1.reads config c entry.2.1 = none) :
    clocksRead config c (trace ++ [entry]) = clocksRead config c trace := by
  simp [clocksRead, h]

/-- While nothing has been read, fresh budgets keep the books. -/
theorem kept_of_unread {config : RelayServerConfig} {start : Duration} {startMs : ℕ}
    (hunread : ∀ entry ∈ trace, entry.1.reads config c entry.2.1 = none)
    (hlimiter : conn.limiter = PerConnLimiter.new config startMs) :
    Kept config start c trace conn := by
  have hclocks : clocksRead config c trace = [] :=
    List.filterMap_eq_nil_iff.mpr fun entry hentry => by rw [hunread entry hentry, Option.map_none]
  refine ⟨fun _ => hunread, fun _ => ⟨startMs, ?_⟩, fun _ entry hentry hsome => ?_⟩
  · rw [hclocks, hlimiter]
    rfl
  · rw [hunread entry hentry] at hsome
    cases hsome

/-- An event at which nothing is read keeps the books of a connection that keeps its meter. -/
theorem Kept.of_none {config : RelayServerConfig} {start : Duration}
    {entry : Timed crates × (Duration × Event crates) × Timed crates}
    (h : Kept config start c trace conn) (hreads : entry.1.reads config c entry.2.1 = none)
    (hkeeps : conn.KeepsMeter conn') : Kept config start c (trace ++ [entry]) conn' := by
  obtain ⟨hlimiter, hactivity, hopening⟩ := hkeeps
  refine ⟨fun hafter e he => ?_, fun hrate => ?_, fun hclocked e he hsome => ?_⟩
  · rcases List.mem_append.mp he with hold | hnew
    · exact h.opening (hopening hafter) e hold
    · rw [List.mem_singleton.mp hnew]
      exact hreads
  · rw [clocksRead_of_none hreads, hlimiter]
    exact h.msgs hrate
  · rw [hactivity]
    rcases List.mem_append.mp he with hold | hnew
    · exact h.activity (fun e he => hclocked e (List.mem_append_left _ he)) e hold hsome
    · rw [List.mem_singleton.mp hnew, hreads] at hsome
      cases hsome

/-- Taking a text or binary frame keeps the books. -/
theorem Kept.of_message {config : RelayServerConfig} {start : Duration} {frame : Frame crates}
    {clock : Clock} {entry : Timed crates × (Duration × Event crates) × Timed crates}
    (h : Kept config start c trace conn) (hpast : ∀ e ∈ trace, e.2.1.1 ≤ entry.2.1.1)
    (hphase : conn.phase = .idle)
    (hreads : entry.1.reads config c entry.2.1 = some (.message frame, clock)) :
    Kept config start c (trace ++ [entry]) (conn.takeFrame config c frame clock) := by
  obtain ⟨hstamped, hcharged, hopening, -⟩ := takeFrame_accounts (c := c) config frame clock hphase
  refine ⟨fun hafter => absurd hafter (by simp [hopening]), fun hrate => ?_,
    fun hclocked e he hsome => ?_⟩
  · obtain ⟨startMs, hmsgs⟩ := h.msgs hrate
    have hread : clocksRead config c (trace ++ [entry]) = clocksRead config c trace ++ [clock] := by
      simp [clocksRead, hreads]
    refine ⟨startMs, ?_⟩
    rw [hcharged, (charge_msgs conn frame.len clock.ms hrate).1, hread, List.map_append,
      List.map_singleton, spends_append_singleton, hmsgs]
  · have hnow := hclocked entry (List.mem_append_right _ (List.mem_singleton_self _)) _ hreads
    rw [hstamped, hnow]
    rcases List.mem_append.mp he with hold | hnew
    · exact Nat.div_le_div_right (Nat.sub_le_sub_right (hpast e hold) start)
    · rw [List.mem_singleton.mp hnew]

/-- A text or binary frame. -/
def Arrival.isMessage : Arrival crates → Bool
  | .message _ => true
  | _ => false

/-- No ping, pong or raw frame is read from the connection. -/
def ReadsOnlyMessages (config : RelayServerConfig) (c : ConnId)
    (trace : List (Timed crates × (Duration × Event crates) × Timed crates)) : Prop :=
  ∀ entry ∈ trace, ∀ read ∈ entry.1.reads config c entry.2.1, read.1.isMessage = true

instance (config : RelayServerConfig) (c : ConnId)
    (trace : List (Timed crates × (Duration × Event crates) × Timed crates)) :
    Decidable (ReadsOnlyMessages config c trace) :=
  inferInstanceAs (Decidable (∀ entry ∈ trace, ∀ read ∈ entry.1.reads config c entry.2.1,
    read.1.isMessage = true))

/-- A transition that is neither a frame nor a control frame of the connection reads nothing from
it. -/
theorem reads_eq_none {config : RelayServerConfig}
    (heffect : timed.effect config t event = some (.transition label))
    (hmessage : ∀ frame clock, label ≠ .message c frame clock) (hcontrol : label ≠ .control c) :
    timed.reads config c (t, event) = none := by
  cases hreads : timed.reads config c (t, event) with
  | none => rfl
  | some found =>
    obtain ⟨arrival, clock⟩ := found
    rcases reads_some hreads with ⟨frame, -, hfound⟩ | ⟨-, hfound⟩
    · have heq := Effect.transition.inj (Option.some.inj (heffect.symm.trans hfound))
      exact absurd heq (hmessage frame clock)
    · have heq := Effect.transition.inj (Option.some.inj (heffect.symm.trans hfound))
      exact absurd heq hcontrol

/-- Nothing new read leaves everything unread. -/
theorem unread_append {config : RelayServerConfig}
    {entry : Timed crates × (Duration × Event crates) × Timed crates}
    (hunread : ∀ e ∈ trace, e.1.reads config c e.2.1 = none)
    (hreads : entry.1.reads config c entry.2.1 = none) :
    ∀ e ∈ trace ++ [entry], e.1.reads config c e.2.1 = none := by
  intro e he
  rcases List.mem_append.mp he with hold | hnew
  · exact hunread e hold
  · rw [List.mem_singleton.mp hnew]
    exact hreads

/-- One transition keeps the books of a connection that exists, unless it reads a control frame. -/
theorem Kept.next {start : Duration} {later : Timed crates}
    (h : Kept setup.config start c trace conn)
    (hpast : ∀ e ∈ trace, e.2.1.1 ≤ t) (hconn : timed.sys.conns[c]? = some conn)
    (hconn' : sys'.conns[c]? = some conn')
    (heffect : timed.effect setup.config t event = some (.transition label))
    (hnext : Next setup timed.sys label sys') (hcontrol : label ≠ .control c) :
    Kept setup.config start c (trace ++ [(timed, (t, event), later)]) conn' := by
  obtain ⟨after, hafter, hmeter⟩ := next_meter hnext hconn
  obtain rfl := Option.some.inj (hafter.symm.trans hconn')
  cases hmeter with
  | frame hphase => exact h.of_message hpast hphase (reads_of_message heffect)
  | @head outcome clock hphase =>
    have hreads := reads_eq_none heffect (ne_message_of_not_isRead rfl c)
      (ne_control_of_not_isRead rfl c)
    cases outcome with
    | upgraded =>
      have hopening : conn.phase.isOpening = true := by rw [hphase]; rfl
      exact kept_of_unread (unread_append (h.opening hopening) hreads) rfl
    | http | failed => exact h.of_none hreads ⟨rfl, rfl, nofun⟩
  | kept hmessage hkeeps => exact h.of_none (reads_eq_none heffect hmessage hcontrol) hkeeps

/-- In every timed run in which no control frame is read from a connection, its books are kept. -/
theorem kept_of_timedRun (hrun : TimedRun setup trace timed) (start : Duration)
    (honly : ReadsOnlyMessages setup.config c trace) :
    (timed.sys.conns[c]? = none → ∀ entry ∈ trace, entry.1.reads setup.config c entry.2.1 = none) ∧
      ∀ conn, timed.sys.conns[c]? = some conn → Kept setup.config start c trace conn := by
  induction hrun with
  | nil => exact ⟨fun _ => by simp, fun conn hconn => by cases hconn⟩
  | @snoc trace timed moment timed' hrun hnext ih =>
    obtain ⟨hunread, hkept⟩ := ih fun entry he => honly entry (List.mem_append_left _ he)
    have hlast := honly _ (List.mem_append_right _ (List.mem_singleton_self _))
    cases hnext with
    | @buffered t event d head hnow heffect =>
      have hreads : timed.reads setup.config c (t, event) = none := by
        simp [Timed.reads, heffect]
      refine ⟨fun hnone => unread_append (hunread hnone) hreads, fun conn hconn => ?_⟩
      exact (hkept conn hconn).of_none hreads (keepsMeter_of_eq rfl)
    | @transition t event label sys' hnow heffect hnext =>
      have hcontrol : label ≠ .control c := by
        rintro rfl
        obtain ⟨clock, rfl⟩ := (effect_input heffect).2 c rfl
        have hread : timed.reads setup.config c (t, .arrive c .control clock) =
            some (.control, clock) := by simp [Timed.reads, heffect]
        exact Bool.noConfusion (hlast _ hread)
      have hpast (e) (he : e ∈ trace) : e.2.1.1 ≤ t := (time_le_now hrun e he).trans hnow
      refine ⟨fun hnone => ?_, fun conn' hconn' => ?_⟩
      · have hbefore : timed.sys.conns[c]? = none := by
          cases hconn : timed.sys.conns[c]? with
          | none => rfl
          | some conn =>
            obtain ⟨after, hafter, -⟩ := next_meter hnext hconn
            cases hafter.symm.trans hnone
        exact unread_append (hunread hbefore) (reads_of_none hbefore _)
      · cases hconn : timed.sys.conns[c]? with
        | none =>
          obtain ⟨addr, identity, rfl⟩ := next_fresh hnext hconn hconn'
          exact kept_of_unread (unread_append (hunread hconn) (reads_of_none hconn _)) rfl
        | some conn => exact (hkept conn hconn).next hpast hconn hconn' heffect hnext hcontrol

/-- A message is accounted for when it stamps the activity and is charged, by its length if it is
text or binary and by whatever length otherwise. -/
def Conn.Accounts (config : RelayServerConfig) (conn conn' : Conn crates) (arrival : Arrival crates)
    (clock : Clock) : Prop :=
  conn'.lastActivity = clock.secs ∧
    ∃ len, (∀ frame, arrival = .message frame → len = frame.len) ∧
      conn'.limiter = (conn.charge config len clock.ms).2

/-- Whatever is read from a connection is accounted for. -/
def Accounted (config : RelayServerConfig) (c : ConnId)
    (trace : List (Timed crates × (Duration × Event crates) × Timed crates)) : Prop :=
  ∀ entry ∈ trace, ∀ read ∈ entry.1.reads config c entry.2.1,
    ∃ conn conn', entry.1.sys.conns[c]? = some conn ∧ entry.2.2.sys.conns[c]? = some conn' ∧
      conn.Accounts config conn' read.1 read.2

/-- Under a message rate, whatever is read after as many messages as the rate allows in its window
breaks the loop with a strike. -/
def RateLimited (config : RelayServerConfig) (c : ConnId)
    (trace : List (Timed crates × (Duration × Event crates) × Timed crates)) : Prop :=
  0 < config.messagesPerConnPerSec → ∀ before entry after, trace = before ++ entry :: after →
    ∀ read ∈ entry.1.reads config c entry.2.1,
      config.messagesPerConnPerSec ≤ inWindow ((clocksRead config c before).map Clock.ms) read.2.ms →
        ∃ conn', entry.2.2.sys.conns[c]? = some conn' ∧ conn'.phase = .strike []

/-- A sweep no later than the liveness deadline after a message was read from a connection selects a
record of the connection only if its channel is closed. -/
def HeardInTime (config : RelayServerConfig) (start : Duration) (c : ConnId)
    (trace : List (Timed crates × (Duration × Event crates) × Timed crates)) (timed : Timed crates) :
    Prop :=
  ∀ entry ∈ trace, (entry.1.reads config c entry.2.1).isSome = true →
    ∀ now, timed.now ≤ now → now ≤ entry.2.1.1 + config.livenessDeadline →
      ∀ peerId peer, timed.sys.relay.registry.lookup peerId = some peer → peer.lastActivity = c →
        (peerId, peer.networkId) ∈ timed.sys.relay.registry.deadOrStale (isClosed timed.sys.conns)
            (activity timed.sys.conns) (livenessNowSecs start now) config.livenessDeadline.asSecs →
          isClosed timed.sys.conns peer.tx = true

/-- A text or binary frame that is read is taken by an idle task. -/
theorem reads_taken {read : Arrival crates × Clock} {moment : Duration × Event crates}
    (hnext : TimedNext setup timed moment timed')
    (hread : timed.reads setup.config c moment = some read) (hmessage : read.1.isMessage = true) :
    ∃ conn frame, timed.sys.conns[c]? = some conn ∧ conn.phase = .idle ∧ read.1 = .message frame ∧
      timed'.sys.conns[c]? = some (conn.takeFrame setup.config c frame read.2) := by
  obtain ⟨arrival, clock⟩ := read
  rcases reads_some hread with ⟨frame, rfl, heffect⟩ | ⟨rfl, -⟩
  · cases hnext with
    | buffered _ hbuffered => cases hbuffered.symm.trans heffect
    | @transition t event label sys' _ hlabel hnext =>
      obtain rfl := Effect.transition.inj (Option.some.inj (hlabel.symm.trans heffect))
      cases next_move hnext with
      | @message d conn frame clock hconn hphase houtbox =>
        exact ⟨conn, frame, hconn, hphase, rfl,
          List.getElem?_set_self (List.getElem?_eq_some_iff.mp hconn).1⟩
      | wrote hback | closed hback | background _ hback => cases hback
  · cases hmessage

/-- Every text or binary frame is accounted for. -/
theorem accounted_of_readsOnlyMessages (hrun : TimedRun setup trace timed)
    (honly : ReadsOnlyMessages setup.config c trace) : Accounted setup.config c trace := by
  intro entry hentry read hread
  obtain ⟨-, hnext⟩ := hrun.mem_trace hentry
  obtain ⟨conn, frame, hconn, hphase, hframe, hconn'⟩ :=
    reads_taken hnext hread (honly entry hentry read hread)
  obtain ⟨hstamped, hcharged, -⟩ := takeFrame_accounts (c := c) setup.config frame read.2 hphase
  refine ⟨conn, _, hconn, hconn', hstamped, frame.len, fun other hother => ?_, hcharged⟩
  rw [Arrival.message.inj (hframe.symm.trans hother)]

/-- A connection that is sent text and binary frames alone is held to its message rate. -/
theorem rateLimited_of_readsOnlyMessages (hrun : TimedRun setup trace timed)
    (honly : ReadsOnlyMessages setup.config c trace)
    (hsorted : ((clocksRead setup.config c trace).map Clock.ms).Pairwise (· ≤ ·)) :
    RateLimited setup.config c trace := by
  rintro hrate before entry after rfl read hread hfull
  obtain ⟨hbefore, hnext⟩ := hrun.before
  obtain ⟨conn, frame, hconn, hphase, -, hconn'⟩ :=
    reads_taken hnext hread (honly entry (by simp) read hread)
  obtain ⟨-, hkept⟩ := kept_of_timedRun hbefore 0 (c := c)
    fun e he => honly e (List.mem_append_left _ he)
  obtain ⟨startMs, hmsgs⟩ := (hkept conn hconn).msgs hrate
  have hread : (entry.1.reads setup.config c entry.2.1).map Prod.snd = some read.2 := by
    rw [Option.mem_def.mp hread, Option.map_some]
  simp only [clocksRead, List.filterMap_append, List.filterMap_cons, hread, List.map_append,
    List.map_cons] at hsorted
  obtain ⟨hearlier, -, hpast⟩ := List.pairwise_append.mp hsorted
  have hspent : (conn.limiter.msgs.trySpend setup.config.messagesPerConnPerSec read.2.ms).1 = false := by
    rw [hmsgs]
    refine (trySpend_spends _ startMs hearlier fun time htime => ?_).trans
      (decide_eq_false (not_lt.mpr hfull))
    exact hpast time htime _ List.mem_cons_self
  have hrefused := (charge_msgs conn frame.len read.2.ms hrate).2 hspent
  exact ⟨_, hconn', (takeFrame_accounts setup.config frame read.2 hphase).2.2.2 hrefused⟩

/-- A connection that is sent text and binary frames alone is heard in time, if the deadline is a
whole number of seconds. -/
theorem heardInTime_of_readsOnlyMessages {start : Duration} (hrun : TimedRun setup trace timed)
    (honly : ReadsOnlyMessages setup.config c trace)
    (hclocked : LivenessClocked setup.config start c trace)
    (hwhole : 1000000000 ∣ setup.config.livenessDeadline) :
    HeardInTime setup.config start c trace timed := by
  intro entry hentry hsome now hnow hdeadline peerId peer hpeer hactivity hdead
  obtain ⟨found, hfound, -, hreason⟩ := Registry.mem_deadOrStale_iff.mp hdead
  obtain rfl := Option.some.inj (hpeer.symm.trans hfound)
  refine hreason.resolve_right (not_lt.mpr ?_)
  obtain ⟨hunread, hkept⟩ := kept_of_timedRun hrun start honly
  cases hconn : timed.sys.conns[c]? with
  | none =>
    rw [hunread hconn entry hentry] at hsome
    cases hsome
  | some conn =>
    have hheard := (hkept conn hconn).activity hclocked entry hentry hsome
    have hstamp : activity timed.sys.conns peer.lastActivity = conn.lastActivity := by
      simp [activity, hactivity, hconn]
    rw [hstamp]
    exact (Nat.sub_le_sub_left hheard _).trans (livenessNowSecs_sub_le hwhole hdeadline)

/-- In every timed run in which no ping, pong or raw frame is read from a connection, whatever is
read from it is accounted for; with nondecreasing times it is held to its message rate; and with a
deadline of whole seconds no sweep finds it silent within the deadline of a message. -/
theorem timedRun_accounts_messages (hrun : TimedRun setup trace timed) (c : ConnId)
    (honly : ReadsOnlyMessages setup.config c trace) :
    Accounted setup.config c trace ∧
      (((clocksRead setup.config c trace).map Clock.ms).Pairwise (· ≤ ·) →
        RateLimited setup.config c trace) ∧
      ∀ start, LivenessClocked setup.config start c trace →
        1000000000 ∣ setup.config.livenessDeadline → HeardInTime setup.config start c trace timed :=
  ⟨accounted_of_readsOnlyMessages hrun honly, rateLimited_of_readsOnlyMessages hrun honly,
    fun _ hclocked hwhole => heardInTime_of_readsOnlyMessages hrun honly hclocked hwhole⟩

/-- All clocks at a time after the relay started. -/
def clockAt (t : Duration) : Clock := ⟨t.asMillis, t.asSecs, t.asSecs⟩

/-- A connection is sent a relay message at a time and moves a number of times. -/
def speaks (c : ConnId) (t : Duration) (msg : RelayMessage) (moves : ℕ) :
    List (Duration × Event silentCrates) :=
  (t, .arrive c (.message (relayFrame msg)) (clockAt t)) ::
    List.replicate moves (t, .task (.exec c (clockAt t)))

/-- A connection is accepted and upgraded at time zero and registers a peer at a time. -/
def joins (c : ConnId) (t : Duration) : List (Duration × Event silentCrates) :=
  (upgrades c).map (fun event => (0, event)) ++ speaks c t (.register "p" "net" 1 []) 9

/-- A peer that registers and sends a relay ping a minute later is accounted for. -/
theorem timedRun_accounts_messages_pinged :
    ∃ trace timed, @TimedRun silentCrates standardSetup trace timed ∧
      clocksRead standardSetup.config 0 trace = [clockAt 0, clockAt (Duration.fromSecs 60)] ∧
      Accounted standardSetup.config 0 trace ∧ RateLimited standardSetup.config 0 trace ∧
      HeardInTime standardSetup.config 0 0 trace timed := by
  obtain ⟨trace, timed, hrun, hcheck⟩ := exists_traced_timedRun standardSetup
    (joins 0 0 ++ speaks 0 (Duration.fromSecs 60) (.ping 0) 0)
    (fun trace _ =>
      decide (clocksRead standardSetup.config 0 trace = [clockAt 0, clockAt (Duration.fromSecs 60)]) &&
        decide (ReadsOnlyMessages standardSetup.config 0 trace) &&
        decide (LivenessClocked standardSetup.config 0 0 trace)) (by decide +kernel)
  simp only [Bool.and_eq_true, decide_eq_true_eq] at hcheck
  obtain ⟨⟨hclocks, honly⟩, hclocked⟩ := hcheck
  obtain ⟨haccounted, hlimited, hheard⟩ := timedRun_accounts_messages hrun 0 honly
  refine ⟨trace, timed, hrun, hclocks, haccounted, hlimited ?_, hheard 0 hclocked (by decide)⟩
  rw [hclocks]
  decide

/-- The last thing read is over the message rate and leaves the connection idle, with the activity
as it was. -/
def skipsLast (config : RelayServerConfig) (c : ConnId)
    (trace : List (Timed silentCrates × (Duration × Event silentCrates) × Timed silentCrates)) : Bool :=
  trace.getLast?.any fun entry => (entry.1.reads config c entry.2.1).any fun read =>
    config.messagesPerConnPerSec ≤
        inWindow ((clocksRead config c trace.dropLast).map Clock.ms) read.2.ms &&
      entry.2.2.sys.conns[c]?.all fun conn => conn.phase.isIdle && conn.lastActivity ≠ read.2.secs

/-- What is skipped is neither accounted for nor held to the rate. -/
theorem not_accounted_of_skipsLast {config : RelayServerConfig}
    {trace : List (Timed silentCrates × (Duration × Event silentCrates) × Timed silentCrates)}
    (hrate : 0 < config.messagesPerConnPerSec) (h : skipsLast config c trace = true) :
    ¬ Accounted config c trace ∧ ¬ RateLimited config c trace := by
  obtain ⟨entry, hlast, hentry⟩ := (Option.any_eq_true _ _).mp h
  obtain ⟨read, hread, hskips⟩ := (Option.any_eq_true _ _).mp hentry
  obtain ⟨hfull, hconn⟩ := Bool.and_eq_true_iff.mp hskips
  have hidle (conn : Conn silentCrates) (hafter : entry.2.2.sys.conns[c]? = some conn) :
      conn.phase.isIdle = true ∧ conn.lastActivity ≠ read.2.secs := by
    rw [hafter] at hconn
    simpa using hconn
  refine ⟨fun haccounted => ?_, fun hlimited => ?_⟩
  · obtain ⟨_, conn', -, hafter, hstamped, -⟩ :=
      haccounted entry (List.mem_of_getLast? hlast) read hread
    exact (hidle conn' hafter).2 hstamped
  · obtain ⟨conn', hafter, hstrike⟩ := hlimited hrate trace.dropLast entry []
      (List.dropLast_append_getLast? entry hlast).symm read hread (of_decide_eq_true hfull)
    have hwaits := (hidle conn' hafter).1
    rw [hstrike] at hwaits
    cases hwaits

/-- A sweep at a time within the deadline of something read selects an open record. -/
def foundSilent (config : RelayServerConfig) (start now : Duration) (c : ConnId) (peerId : String)
    (trace : List (Timed silentCrates × (Duration × Event silentCrates) × Timed silentCrates))
    (timed : Timed silentCrates) : Bool :=
  timed.now ≤ now &&
    (trace.any fun entry => (entry.1.reads config c entry.2.1).isSome &&
      now ≤ entry.2.1.1 + config.livenessDeadline) &&
    (timed.sys.relay.registry.lookup peerId).any fun peer =>
      peer.lastActivity = c && !isClosed timed.sys.conns peer.tx &&
        (timed.sys.relay.registry.deadOrStale (isClosed timed.sys.conns) (activity timed.sys.conns)
          (livenessNowSecs start now) config.livenessDeadline.asSecs).contains (peerId, peer.networkId)

/-- A connection whose peer is found silent was not heard in time. -/
theorem not_heardInTime_of_foundSilent {config : RelayServerConfig} {start now : Duration}
    {peerId : String} {timed : Timed silentCrates}
    {trace : List (Timed silentCrates × (Duration × Event silentCrates) × Timed silentCrates)}
    (h : foundSilent config start now c peerId trace timed = true) :
    ¬ HeardInTime config start c trace timed := by
  intro hheard
  simp only [foundSilent, Bool.and_eq_true, decide_eq_true_eq, List.any_eq_true, Option.any_eq_true,
    Bool.not_eq_true', List.contains_iff_mem] at h
  obtain ⟨⟨hnow, entry, hentry, hsome, hdeadline⟩, peer, hpeer, ⟨hactivity, hopen⟩, hdead⟩ := h
  have hclosed := hheard entry hentry hsome now hnow hdeadline peerId peer hpeer hactivity hdead
  cases hopen.symm.trans hclosed

/-- One message a second. -/
def meteredSetup : Setup := ⟨{ messagesPerConnPerSec := 1 }, false⟩

/-- A liveness deadline of one and a half seconds. -/
def shortSetup : Setup :=
  ⟨{ healthCheckInterval := Duration.fromSecs 1, livenessDeadline := 1500000000 }, false⟩

/-- With one message allowed in a second, two pings in one second are read and neither counts. With
the default deadline of 90 seconds, a peer that pings every 30 seconds is found silent after 91.
With a deadline of one and a half seconds, a peer is found silent 1.4 seconds after it has sent a
text frame. -/
theorem exists_timedRun_not_accounted :
    meteredSetup.config.validate = .ok () ∧ (∃ trace timed, @TimedRun silentCrates meteredSetup trace timed ∧
      ((clocksRead meteredSetup.config 0 trace).map Clock.ms).Pairwise (· ≤ ·) ∧
      ¬ Accounted meteredSetup.config 0 trace ∧ ¬ RateLimited meteredSetup.config 0 trace) ∧
    (∃ trace timed, @TimedRun silentCrates standardSetup trace timed ∧
      LivenessClocked standardSetup.config 0 0 trace ∧
      ¬ HeardInTime standardSetup.config 0 0 trace timed) ∧
    shortSetup.config.validate = .ok () ∧
    ∃ trace timed, @TimedRun silentCrates shortSetup trace timed ∧
      ReadsOnlyMessages shortSetup.config 0 trace ∧ LivenessClocked shortSetup.config 0 0 trace ∧
      ¬ HeardInTime shortSetup.config 0 0 trace timed := by
  refine ⟨rfl, ?_, ?_, rfl, ?_⟩
  · obtain ⟨trace, timed, hrun, hcheck⟩ := exists_traced_timedRun meteredSetup (upgradesAndPings 0 [3, 3])
      (fun trace _ =>
        decide (((clocksRead meteredSetup.config 0 trace).map Clock.ms).Pairwise (· ≤ ·)) &&
          skipsLast meteredSetup.config 0 trace) (by decide +kernel)
    obtain ⟨hsorted, hskips⟩ := Bool.and_eq_true_iff.mp hcheck
    exact ⟨trace, timed, hrun, of_decide_eq_true hsorted,
      not_accounted_of_skipsLast (by decide) hskips⟩
  · obtain ⟨trace, timed, hrun, hcheck⟩ := exists_traced_timedRun standardSetup
      (joins 0 0 ++ [30, 60, 90].map fun secs =>
        (Duration.fromSecs secs, .arrive 0 .control (clockAt (Duration.fromSecs secs))))
      (fun trace timed => decide (LivenessClocked standardSetup.config 0 0 trace) &&
        foundSilent standardSetup.config 0 (Duration.fromSecs 91) 0 "p" trace timed) (by decide +kernel)
    obtain ⟨hclocked, hsilent⟩ := Bool.and_eq_true_iff.mp hcheck
    exact ⟨trace, timed, hrun, of_decide_eq_true hclocked, not_heardInTime_of_foundSilent hsilent⟩
  · obtain ⟨trace, timed, hrun, hcheck⟩ := exists_traced_timedRun shortSetup (joins 0 900000000)
      (fun trace timed => decide (ReadsOnlyMessages shortSetup.config 0 trace) &&
        decide (LivenessClocked shortSetup.config 0 0 trace) &&
        foundSilent shortSetup.config 0 2300000000 0 "p" trace timed) (by decide +kernel)
    simp only [Bool.and_eq_true, decide_eq_true_eq] at hcheck
    obtain ⟨⟨honly, hclocked⟩, hsilent⟩ := hcheck
    exact ⟨trace, timed, hrun, honly, hclocked, not_heardInTime_of_foundSilent hsilent⟩

end DigRelay
