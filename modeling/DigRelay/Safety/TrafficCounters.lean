import DigRelay.Common.TaskPool
import DigRelay.Server.Outbox
import DigRelay.Server.Script
import DigRelay.Server.Touch

/-!
# The traffic counters are exact

The dashboard shows how many payload bytes were accepted for relaying, how many hole punches were asked
for and how they ended, and how many STUN requests were answered. Each message that the limits admit and
that can be read is counted once in each counter that concerns it, before it is decided what becomes of
it. Nothing else is counted. The counters wrap around at the width of a machine word.
-/

namespace DigRelay

open Common

variable {crates : Crates} {setup : Setup} {sys sys' : System crates} {label : Label crates}
  {c : ConnId} {conn conn' : Conn crates}

/-- The traffic counters. -/
inductive Gauge
  | bytesRelayed
  | holePunchRequests
  | holePunchSuccesses
  | holePunchFailures
  | stunRequests
  deriving DecidableEq

/-- The reading of a counter. -/
def Relay.gauge (relay : Relay crates) : Gauge → UInt64
  | .bytesRelayed => relay.bytesRelayed
  | .holePunchRequests => relay.holePunchRequests
  | .holePunchSuccesses => relay.holePunchSuccesses
  | .holePunchFailures => relay.holePunchFailures
  | .stunRequests => relay.stunRequests

/-- What a message adds to a counter. -/
def RelayMessage.gain : RelayMessage → Gauge → ℕ
  | relayGossipMessage _ _ payload _, .bytesRelayed => payload.length
  | broadcast _ payload _, .bytesRelayed => payload.length
  | holePunchRequest _ _ _, .holePunchRequests => 1
  | holePunchResult _ success, .holePunchSuccesses => if success then 1 else 0
  | holePunchResult _ success, .holePunchFailures => if success then 0 else 1
  | _, _ => 0

/-- What a task that has read a message has yet to count. -/
def Phase.gain (gauge : Gauge) : Phase crates → ℕ
  | .record msg => msg.gain gauge
  | _ => 0

/-- What has been read and not yet counted. -/
def System.uncounted (sys : System crates) (gauge : Gauge) : ℕ :=
  poolTotal (fun conn => conn.phase.gain gauge) sys.conns

/-- The message that a transition takes off a socket: one that the limits admit, that is no exchange frame
and that can be read. -/
def takenMessage (setup : Setup) (t : System crates × Label crates × System crates) : Option RelayMessage :=
  match t.2.1 with
  | .message c frame clock =>
    t.1.conns[c]?.bind fun conn =>
      if (conn.charge setup.config frame.len clock.ms).1 = .ok ∧ isPexFrame frame = false then
        frame.relay
      else none
  | _ => none

/-- What a transition brings in for a counter. -/
def gains (setup : Setup) (gauge : Gauge) (t : System crates × Label crates × System crates) : ℕ :=
  match t.2.1 with
  | .stun => if gauge = .stunRequests then 1 else 0
  | _ => ((takenMessage setup t).map fun msg => msg.gain gauge).getD 0

/-- Recording a message adds what it gains. -/
theorem gauge_recordRelayed (relay : Relay crates) (msg : RelayMessage) (gauge : Gauge) :
    (relay.recordRelayed msg).gauge gauge = relay.gauge gauge + UInt64.ofNat (msg.gain gauge) := by
  cases msg with
  | holePunchResult peerId success =>
    cases success <;> cases gauge <;> simp [Relay.recordRelayed, Relay.gauge, RelayMessage.gain]
  | _ => cases gauge <;> simp [Relay.recordRelayed, Relay.gauge, RelayMessage.gain]

/-- An access of another phase counts nothing. -/
theorem access_gauge {clock : Clock} {closed : ConnId → Bool} {relay relay' : Relay crates}
    (hphase : ∀ msg, conn.phase ≠ .record msg)
    (h : access setup clock closed c relay conn = some (relay', conn')) (gauge : Gauge) :
    relay'.gauge gauge = relay.gauge gauge := by
  cases access_touch h with
  | traffic hrecord => exact absurd hrecord (hphase _)
  | answer hintercept =>
    unfold Relay.recordDhtAnswer
    split
    · split <;> rfl
    · rfl
  | _ => rfl

/-- No access leaves a message to be counted. -/
theorem access_gain {clock : Clock} {closed : ConnId → Bool} {relay relay' : Relay crates}
    (h : access setup clock closed c relay conn = some (relay', conn')) (gauge : Gauge) :
    conn'.phase.gain gauge = 0 := by
  obtain ⟨phase, -, haccess⟩ := access_cases h
  cases haccess with
  | intercepted =>
    unfold Conn.intercept
    split
    · rfl
    · unfold Conn.carryOut
      split <;> rfl
  | _ => rfl

/-- A frame leaves the message in it to be counted if it is taken. -/
theorem takeFrame_gain {frame : Frame crates} {clock : Clock} (hphase : conn.phase = .idle) (gauge : Gauge)
    (hconn : sys.conns[c]? = some conn) :
    (conn.takeFrame setup.config c frame clock).phase.gain gauge =
      gains setup gauge (sys, .message c frame clock, sys') := by
  simp only [gains, takenMessage, hconn, Option.bind_some]
  dsimp only [Conn.takeFrame, Conn.charge]
  split
  · rename_i hdisconnect
    simp [hdisconnect, Phase.gain]
  · rename_i hok
    split
    · rename_i hpex
      unfold Conn.takePexFrame
      split <;> simp [hpex, hphase, Phase.gain]
    · rename_i hpex
      split
      · rename_i msg hmsg
        simp [hok, hpex, hmsg, Phase.gain]
      · rename_i hmsg
        simp [hmsg, hphase, Phase.gain]

/-- Connections whose phases are the same have the same yet to be counted. -/
theorem uncounted_of_phases {conns conns' : List (Conn crates)} (gauge : Gauge)
    (h : conns'.map Conn.phase = conns.map Conn.phase) :
    poolTotal (fun conn => conn.phase.gain gauge) conns' =
      poolTotal (fun conn => conn.phase.gain gauge) conns := by
  have hgain := congrArg (List.map (Phase.gain gauge)) h
  rw [List.map_map, List.map_map] at hgain
  exact congrArg List.sum hgain

/-- A background task counts an answered STUN request and nothing else. -/
theorem background_gauge (setup : Setup) (h : Background sys label sys') (gauge : Gauge) :
    sys'.relay.gauge gauge = sys.relay.gauge gauge + UInt64.ofNat (gains setup gauge (sys, label, sys')) ∧
      sys'.uncounted gauge = sys.uncounted gauge := by
  have hquiet (hgains : gains setup gauge (sys, label, sys') = 0)
      (hrelay : sys'.relay.gauge gauge = sys.relay.gauge gauge)
      (hphases : sys'.conns.map Conn.phase = sys.conns.map Conn.phase) :
      sys'.relay.gauge gauge = sys.relay.gauge gauge + UInt64.ofNat (gains setup gauge (sys, label, sys')) ∧
        sys'.uncounted gauge = sys.uncounted gauge := by
    rw [hgains, hrelay]
    exact ⟨(UInt64.add_zero _).symm, uncounted_of_phases gauge hphases⟩
  cases h with
  | wrote hconn hlabel =>
    rcases hlabel with ⟨ok, rfl⟩ | ⟨ok, rfl⟩
    · exact hquiet rfl rfl (map_set_of_eq Conn.phase hconn rfl)
    · exact hquiet rfl rfl (map_set_of_eq Conn.phase hconn rfl)
  | finished hconn => exact hquiet rfl rfl (map_set_of_eq Conn.phase hconn rfl)
  | ticked nowMs =>
    exact hquiet rfl rfl (deliverAll_map Conn.phase (fun _ _ => rfl) (fun _ _ => rfl) _ _)
  | asking => exact hquiet rfl rfl rfl
  | asked => exact hquiet rfl rfl (by rw [phases_deliver])
  | built => exact hquiet rfl rfl rfl
  | stunned =>
    refine ⟨?_, rfl⟩
    cases gauge <;> simp [Relay.gauge, gains]

/-- What a transition counts, and what is left to be counted after it, is what was left before and what
the transition brings in. -/
theorem next_gauge (h : Next setup sys label sys') (gauge : Gauge) :
    ∃ n, sys'.relay.gauge gauge = sys.relay.gauge gauge + UInt64.ofNat n ∧
      n + sys'.uncounted gauge = sys.uncounted gauge + gains setup gauge (sys, label, sys') := by
  by_cases hback : label.isBackground = true
  · obtain ⟨hgauge, hsame⟩ := background_gauge setup (next_background h hback) gauge
    exact ⟨_, hgauge, by rw [hsame, Nat.add_comm]⟩
  · have hquiet (hrelay : sys'.relay.gauge gauge = sys.relay.gauge gauge)
        (htotal : sys'.uncounted gauge = sys.uncounted gauge + gains setup gauge (sys, label, sys')) :
        ∃ n, sys'.relay.gauge gauge = sys.relay.gauge gauge + UInt64.ofNat n ∧
          n + sys'.uncounted gauge = sys.uncounted gauge + gains setup gauge (sys, label, sys') :=
      ⟨0, by rw [hrelay]; exact (UInt64.add_zero _).symm, by rw [htotal, Nat.zero_add]⟩
    have hsame {conns : List (Conn crates)} (hphases : conns.map Conn.phase = sys.conns.map Conn.phase) :
        poolTotal (fun conn => conn.phase.gain gauge) conns = sys.uncounted gauge :=
      uncounted_of_phases gauge hphases
    have hset {c : ConnId} {conn : Conn crates} (hconn : sys.conns[c]? = some conn) (conn' : Conn crates) :
        poolTotal (fun conn => conn.phase.gain gauge) (sys.conns.set c conn') + conn.phase.gain gauge =
          sys.uncounted gauge + conn'.phase.gain gauge := poolTotal_set _ _ _ _ _ hconn
    cases next_move h with
    | accepted => exact hquiet rfl (poolTotal_append_singleton _ _ _)
    | sent hconn houtbox =>
      refine hquiet rfl (hsame ?_)
      rw [phases_deliver]
      exact map_set_of_eq Conn.phase hconn rfl
    | @accessed c clock conn conn' relay' hconn houtbox haccess =>
      have htotal := hset hconn conn'
      rw [access_gain haccess, Nat.add_zero] at htotal
      by_cases hrecord : ∃ msg, conn.phase = .record msg
      · obtain ⟨msg, hphase⟩ := hrecord
        cases access_cases_of_phase hphase haccess
        refine ⟨msg.gain gauge, gauge_recordRelayed sys.relay msg gauge, ?_⟩
        rw [hphase, Nat.add_comm] at htotal
        exact htotal
      · have hother : ∀ msg, conn.phase ≠ .record msg := fun msg hphase => hrecord ⟨msg, hphase⟩
        have hnone : conn.phase.gain gauge = 0 := by
          cases hphase : conn.phase with
          | record msg => exact absurd hphase (hother msg)
          | _ => rfl
        rw [hnone] at htotal
        exact hquiet (access_gauge hother haccess gauge) htotal
    | @head c conn outcome clock hconn hphase houtbox =>
      have htotal := hset hconn (conn.takeHead setup.config clock outcome)
      rw [hphase] at htotal
      refine hquiet rfl ?_
      cases outcome <;> exact htotal
    | @message c conn frame clock hconn hphase houtbox =>
      have htotal := hset hconn (conn.takeFrame setup.config c frame clock)
      rw [hphase, takeFrame_gain hphase gauge hconn] at htotal
      exact hquiet rfl htotal
    | control hconn => exact hquiet rfl (hsame (map_set_of_eq Conn.phase hconn rfl))
    | @hangup c conn hconn hphase houtbox =>
      have htotal := hset hconn { conn with phase := .deregister }
      rw [hphase] at htotal
      exact hquiet rfl htotal
    | wrote hlabel | closed hlabel | background _ hlabel => exact absurd hlabel hback
    | swept now =>
      refine hquiet ?_ rfl
      rw [sweepLocked, pruneLocked_frame]
      cases gauge <;> rfl
    | noticed => exact hquiet rfl (hsame (by rw [phases_deliver]))
    | forgotten => exact hquiet rfl rfl
    | rehashed hrehash =>
      obtain ⟨registry, engines, regBuckets, strikes, bans, -, -, -, -, -, rfl⟩ := hrehash
      exact hquiet rfl rfl

/-- Along every run, what a counter shows, and what has been read and not yet counted, is exactly what all
messages taken off sockets and all answered STUN requests add up to. -/
theorem run_gauge {trace : List (System crates × Label crates × System crates)}
    (hrun : Run setup trace sys) (gauge : Gauge) :
    ∃ counted, sys.relay.gauge gauge = UInt64.ofNat counted ∧
      counted + sys.uncounted gauge = (trace.map (gains setup gauge)).sum := by
  induction hrun with
  | nil =>
    refine ⟨0, ?_, rfl⟩
    cases gauge <;> rfl
  | @snoc trace sys label sys' hrun hnext ih =>
    obtain ⟨counted, hgauge, hsum⟩ := ih
    obtain ⟨n, hmore, hbalance⟩ := next_gauge hnext gauge
    refine ⟨counted + n, ?_, ?_⟩
    · rw [hmore, hgauge, UInt64.ofNat_add]
    · rw [List.map_append, List.sum_append, ← hsum, List.map_singleton, List.sum_singleton]
      omega

/-- A relay that took two gossip messages of one byte each shows two relayed bytes. -/
theorem run_gauge_two :
    ∃ trace sys, @Run silentCrates standardSetup trace sys ∧ sys.relay.gauge .bytesRelayed = 2 ∧
      ∃ counted, sys.relay.gauge .bytesRelayed = UInt64.ofNat counted ∧
        counted + sys.uncounted .bytesRelayed =
          (trace.map (gains standardSetup .bytesRelayed)).sum := by
  obtain ⟨trace, sys, hrun, hbytes⟩ := @exists_traced_run silentCrates standardSetup twoMessages
    (fun _ sys => sys.relay.gauge .bytesRelayed = 2) (by decide +kernel)
  exact ⟨trace, sys, hrun, of_decide_eq_true hbytes, run_gauge hrun .bytesRelayed⟩

end DigRelay
