import DigRelay.Server.Script
import DigRelay.Server.Tasks
import DigRelay.WireCodec

/-!
# The routing of frames

A connection peeks at the kind of a frame to tell the exchange from the relay wire before it parses the
frame. The names of the relay's kinds keep the two apart: whatever the peek finds, a frame that parses as a
relay message is handled as that message, and no other frame is.
-/

namespace DigRelay

variable {crates : Crates} {setup : Setup} {sys sys' : System crates} {c : ConnId} {conn : Conn crates}

/-- An exchange frame leads to no parsed message. -/
theorem takePexFrame_phase (hphase : conn.phase = .idle) (decoded : Option crates.Message)
    (msg : RelayMessage) : (conn.takePexFrame c decoded).phase ≠ .record msg := by
  unfold Conn.takePexFrame
  split
  · simp [hphase]
  · simp
  · simp
  · simp
  · simp [hphase]

/-- A waiting connection goes on to handle a message exactly when its limits admit the text and the text
is read as that message. -/
theorem takeFrame_record_iff {codec : Codec crates} {text : codec.Text} {config : RelayServerConfig}
    {clock : Clock} (hphase : conn.phase = .idle) (msg : RelayMessage) :
    (conn.takeFrame config c (codec.frame text) clock).phase = .record msg ↔
      (conn.charge config (codec.len text) clock.ms).1 = .ok ∧ codec.read text = some msg := by
  have hlen : (codec.frame text).len = codec.len text := rfl
  have hrelay : (codec.frame text).relay = codec.read text := rfl
  dsimp only [Conn.takeFrame, Conn.charge]
  rw [hlen, hrelay]
  generalize conn.limiter.admit config (codec.len text) clock.ms = charge
  cases hcharge : charge.1 with
  | disconnect => simp
  | ok =>
    cases hread : codec.read text with
    | none =>
      dsimp only
      split
      · refine iff_of_false (takePexFrame_phase ?_ _ msg) (by simp)
        exact hphase
      · simp [hphase]
    | some read => simp [Codec.not_isPexFrame hread]

/-- Whatever text arrives, the connection handles a message exactly when its limits admit the text and
the text is read as that message: the peek at the kind neither takes a message away nor adds one. -/
theorem next_record_iff {codec : Codec crates} {text : codec.Text} {clock : Clock}
    (h : Next setup sys (.message c (codec.frame text) clock) sys') (hconn : sys.conns[c]? = some conn)
    (msg : RelayMessage) :
    (∃ conn', sys'.conns[c]? = some conn' ∧ conn'.phase = .record msg) ↔
      (conn.charge setup.config (codec.len text) clock.ms).1 = .ok ∧ codec.read text = some msg := by
  obtain ⟨conn', hconn', hmove⟩ := next_taskMove hconn h
  have hphase' : conn.phase = .idle ∧
      conn'.phase = (conn.takeFrame setup.config c (codec.frame text) clock).phase := by
    generalize htask : conn'.task = task at hmove
    cases hmove with
    | still _ hinputs => simp [Label.inputs] at hinputs
    | message hphase => exact ⟨hphase, congrArg (fun task => task.2.2) htask⟩
  rw [← takeFrame_record_iff hphase'.1, ← hphase'.2]
  constructor
  · rintro ⟨found, hfound, hrecord⟩
    obtain rfl := Option.some.inj (hconn'.symm.trans hfound)
    exact hrecord
  · exact fun hrecord => ⟨conn', hconn', hrecord⟩

/-- A codec whose texts are the messages themselves. -/
def plainCodec : Codec silentCrates where
  Text := RelayMessage
  len := fun _ => 64
  typeTag := fun msg => some msg.tag
  read := fun msg => if msg.Fits then some msg else none
  write := id
  readPex := fun _ => none
  read_write := fun _ hfits => if_pos hfits
  fits_of_read := by
    intro text msg hread
    obtain ⟨hfits, rfl⟩ := Option.ite_none_right_eq_some.mp hread |>.imp_right Option.some.inj
    exact hfits
  tag_of_read := by
    intro text msg tag hread htag
    obtain ⟨-, rfl⟩ := Option.ite_none_right_eq_some.mp hread |>.imp_right Option.some.inj
    exact (Option.some.inj htag).symm

/-- A keepalive from a connection that has just been upgraded is handled as a keepalive. -/
theorem next_record_iff_ping :
    ∃ trace sys sys' conn', Run standardSetup trace sys ∧
      Next standardSetup sys (.message 0 (plainCodec.frame (RelayMessage.ping 7)) (atSecond 0)) sys' ∧
      sys'.conns[0]? = some conn' ∧ conn'.phase = .record (.ping 7) := by
  obtain ⟨trace, sys, sys', hrun, hcheck⟩ := @exists_run_step silentCrates standardSetup
    (Script.connect 0 0) (.message 0 (plainCodec.frame (RelayMessage.ping 7)) (atSecond 0))
    (fun sys _ => sys.conns[0]?.any fun conn =>
      (conn.charge standardSetup.config (plainCodec.len (RelayMessage.ping 7)) (atSecond 0).ms).1 = .ok)
    (by decide +kernel)
  obtain ⟨conn, hconn, hok⟩ := (Option.any_eq_true _ _).mp hcheck
  obtain ⟨hbefore, hnext⟩ := hrun.before
  have hread : plainCodec.read (RelayMessage.ping 7) = some (.ping 7) := by decide
  obtain ⟨conn', hconn', hphase⟩ :=
    (next_record_iff hnext hconn (.ping 7)).mpr ⟨of_decide_eq_true hok, hread⟩
  exact ⟨trace, sys, sys', conn', hbefore, hnext, hconn', hphase⟩

end DigRelay
