import DigRelay.Common.Admission
import DigRelay.Server.Script
import DigRelay.Server.Touch

/-!
# The cap on open connections

A connection task first loads the counter of open connections and compares it with the cap, and
in a later step takes the guard that counts it. The guard counts it out when the task ends. The
counter is therefore exact, but the cap is only kept as long as no check passes that leaves no
room for the tasks between their own check and their guard.
-/

namespace DigRelay

open Common

variable {crates : Crates} {setup : Setup} {sys sys' : System crates} {label : Label crates}

/-- Where a connection stands with respect to its open-connection guard. -/
def Phase.openStage : Phase crates → Stage
  | .checkBan | .checkOpen | .ended => .outside
  | .acquireOpen => .checked
  | _ => .inside

/-- The counter of open connections and the stages of the connection tasks. -/
def System.admission (sys : System crates) : Admission :=
  { counter := sys.relay.openConnections
    stages := sys.conns.map fun conn => conn.phase.openStage }

/-- The number of live open-connection guards. -/
def liveGuards (sys : System crates) : ℕ := sys.admission.tasksAt .inside

/-- The transition is a passing check of the cap while the open connections and the connections
between their check and their guard already fill it. -/
def OverAdmits (setup : Setup) (sys : System crates) (label : Label crates) : Prop :=
  ∃ c clock conn, label = .exec c clock ∧ sys.conns[c]? = some conn ∧ conn.outbox = [] ∧
    conn.phase = .checkOpen ∧
    sys.relay.openConnections.toNat < setup.config.maxConnections.toNat ∧
    setup.config.maxConnections.toNat ≤
      sys.relay.openConnections.toNat + sys.admission.tasksAt .checked

/-- Taking a frame keeps the guard. -/
theorem openStage_takeFrame {config : RelayServerConfig} {c : ConnId} {conn : Conn crates}
    {frame : Frame crates} {clock : Clock} (hphase : conn.phase = .idle) :
    (conn.takeFrame config c frame clock).phase.openStage = .inside := by
  dsimp only [Conn.takeFrame]
  split
  · rfl
  · split
    · unfold Conn.takePexFrame
      split <;> simp [hphase, Phase.openStage]
    · split <;> simp [hphase, Phase.openStage]

/-- Dispatching a message keeps the guard. -/
theorem openStage_intercept {c : ConnId} {conn : Conn crates} (msg : RelayMessage) :
    (conn.intercept c msg).phase.openStage = .inside := by
  unfold Conn.intercept
  split
  · rfl
  · cases dispatch conn.session msg <;> rfl

/-- The counters of relayed traffic are no guards. -/
theorem recordRelayed_openConnections (relay : Relay crates) (msg : RelayMessage) :
    (relay.recordRelayed msg).openConnections = relay.openConnections := by
  unfold Relay.recordRelayed
  split
  case h_4 => split <;> rfl
  all_goals rfl

/-- Storing a DHT answer takes no guard. -/
theorem recordDhtAnswer_openConnections (relay : Relay crates) (session : Session)
    (msg : RelayMessage) :
    (relay.recordDhtAnswer session msg).openConnections = relay.openConnections := by
  unfold Relay.recordDhtAnswer
  split
  · split <;> rfl
  · rfl

/-- Only taking and dropping the guard move the counter of open connections. -/
theorem Touch.openConnections {relay relay' : Relay crates} {conn : Conn crates}
    (h : Touch relay conn relay') (htake : conn.phase ≠ .acquireOpen)
    (hdrop : conn.phase ≠ .dropOpen) : relay'.openConnections = relay.openConnections := by
  cases h with
  | opened hphase => exact absurd hphase htake
  | closed hphase => exact absurd hphase hdrop
  | traffic => exact recordRelayed_openConnections _ _
  | answer => exact recordDhtAnswer_openConnections _ _ _
  | _ => rfl

/-- What a shared access does to the counter of open connections: a check passes below the cap,
the guard is taken, the guard is dropped, or nothing changes. -/
theorem access_openStage {c : ConnId} {clock : Clock} {closed : ConnId → Bool}
    {relay relay' : Relay crates} {conn conn' : Conn crates}
    (h : access setup clock closed c relay conn = some (relay', conn')) :
    (conn.phase = .checkOpen ∧ relay' = relay ∧ conn'.phase = .acquireOpen ∧
        relay.openConnections.toNat < setup.config.maxConnections.toNat) ∨
      (conn.phase = .acquireOpen ∧ relay'.openConnections = relay.openConnections + 1 ∧
        conn'.phase = .acquireConn) ∨
      (conn.phase = .dropOpen ∧ relay'.openConnections = relay.openConnections - 1 ∧
        conn'.phase = .ended) ∨
      (relay'.openConnections = relay.openConnections ∧
        conn'.phase.openStage = conn.phase.openStage) := by
  have hopen := (access_touch h).openConnections
  obtain ⟨phase, hphase, haccess⟩ := access_cases h
  rw [hphase] at hopen ⊢
  cases haccess with
  | notFull hroom => exact .inl ⟨rfl, rfl, rfl, hroom⟩
  | opened => exact .inr (.inl ⟨rfl, rfl, rfl⟩)
  | closed => exact .inr (.inr (.inl ⟨rfl, rfl, rfl⟩))
  | intercepted => exact .inr (.inr (.inr ⟨hopen (by simp) (by simp), openStage_intercept _⟩))
  | _ => exact .inr (.inr (.inr ⟨hopen (by simp) (by simp), rfl⟩))

/-- A send moves no connection between stages. -/
theorem map_openStage_deliver (send : Send crates) (conns : List (Conn crates)) :
    ((deliver send conns).map fun conn => conn.phase.openStage) =
      conns.map fun conn => conn.phase.openStage :=
  deliver_map _ (fun _ _ => rfl) (fun _ _ => rfl) send conns

/-- Several sends move no connection between stages. -/
theorem map_openStage_deliverAll (sends : List (Send crates)) (conns : List (Conn crates)) :
    ((deliverAll sends conns).map fun conn => conn.phase.openStage) =
      conns.map fun conn => conn.phase.openStage :=
  deliverAll_map _ (fun _ _ => rfl) (fun _ _ => rfl) sends conns

/-- Replacing a task by one at the same stage leaves the stages alone. -/
theorem map_openStage_set {conns : List (Conn crates)} {c : ConnId} {conn conn' : Conn crates}
    (hconn : conns[c]? = some conn) (hstage : conn'.phase.openStage = conn.phase.openStage) :
    ((conns.set c conn').map fun conn => conn.phase.openStage) =
      conns.map fun conn => conn.phase.openStage :=
  map_set_of_eq _ hconn hstage

/-- What leaves the counter and the stages of all connections alone is a quiet move. -/
theorem admission_quiet (hopen : sys'.relay.openConnections = sys.relay.openConnections)
    (hstages : (sys'.conns.map fun conn => conn.phase.openStage) =
      sys.conns.map fun conn => conn.phase.openStage) :
    Admission.Move setup.config.maxConnections.toNat sys.admission sys'.admission := by
  have hsame : sys'.admission = sys.admission := by
    rw [System.admission, hopen, hstages]
    rfl
  rw [hsame]
  exact .quiet

/-- An access that does not over-admit is a move of the admission. -/
theorem access_admission {c : ConnId} {clock : Clock} {conn conn' : Conn crates} {relay : Relay crates}
    (hguard : ¬ OverAdmits setup sys (.exec c clock)) (hconn : sys.conns[c]? = some conn)
    (houtbox : conn.outbox = [])
    (haccess : access setup clock (isClosed sys.conns) c sys.relay conn = some (relay, conn')) :
    Admission.Move setup.config.maxConnections.toNat sys.admission
      (System.admission { sys with relay, conns := sys.conns.set c conn' }) := by
  have hstage : sys.admission.stages[c]? = some conn.phase.openStage := by
    simp [System.admission, hconn]
  rcases access_openStage haccess with ⟨hphase, rfl, hphase', hbelow⟩ | ⟨hphase, hopen, hphase'⟩ |
    ⟨hphase, hopen, hphase'⟩ | ⟨hopen, hsame⟩
  · have hmove : Admission.Move setup.config.maxConnections.toNat sys.admission _ :=
      .checked (i := c) (by rw [hstage, hphase]; rfl) (by
        by_contra hfull
        exact hguard ⟨c, clock, conn, rfl, hconn, houtbox, hphase, hbelow, not_lt.mp hfull⟩)
    simpa [System.admission, List.map_set, hphase', Phase.openStage] using hmove
  · have hmove : Admission.Move setup.config.maxConnections.toNat sys.admission _ :=
      .entered (i := c) (by rw [hstage, hphase]; rfl)
    simpa [System.admission, List.map_set, hphase', hopen, Phase.openStage] using hmove
  · have hmove : Admission.Move setup.config.maxConnections.toNat sys.admission _ :=
      .left (i := c) (by rw [hstage, hphase]; rfl)
    simpa [System.admission, List.map_set, hphase', hopen, Phase.openStage] using hmove
  · exact admission_quiet hopen (map_openStage_set hconn hsame)

/-- Every transition that does not over-admit is a move of the admission. -/
theorem next_admission (hguard : ¬ OverAdmits setup sys label) (h : Next setup sys label sys') :
    Admission.Move setup.config.maxConnections.toNat sys.admission sys'.admission := by
  by_cases hlabel : label.isBackground = true
  · cases next_background h hlabel with
    | wrote hconn | finished hconn => exact admission_quiet rfl (map_openStage_set hconn rfl)
    | ticked nowMs => exact admission_quiet rfl (map_openStage_deliverAll _ _)
    | asked => exact admission_quiet rfl (by rw [map_openStage_deliver])
    | asking | built | stunned => exact admission_quiet rfl rfl
  · cases next_move h with
    | wrote hback | closed hback | background _ hback => exact absurd hback hlabel
    | accepted addr identity =>
      have hmove : Admission.Move setup.config.maxConnections.toNat sys.admission _ := .arrived
      simpa [System.admission, Conn.accepted, Phase.openStage] using hmove
    | sent hconn houtbox =>
      refine admission_quiet rfl ?_
      rw [map_openStage_deliver]
      exact map_openStage_set hconn rfl
    | head outcome clock hconn hphase =>
      refine admission_quiet rfl (map_openStage_set hconn ?_)
      rw [hphase]
      cases outcome <;> rfl
    | message frame clock hconn hphase =>
      refine admission_quiet rfl (map_openStage_set hconn ?_)
      rw [openStage_takeFrame hphase, hphase]
      rfl
    | control hconn => exact admission_quiet rfl (map_openStage_set hconn rfl)
    | hangup hconn hphase =>
      refine admission_quiet rfl (map_openStage_set hconn ?_)
      rw [hphase]
      rfl
    | swept now =>
      refine admission_quiet ?_ rfl
      change (sweepLocked setup sys now).2.openConnections = _
      rw [sweepLocked, pruneLocked_frame]
    | noticed => exact admission_quiet rfl (by rw [map_openStage_deliver])
    | forgotten => exact admission_quiet rfl rfl
    | rehashed hrehash =>
      obtain ⟨_, _, _, _, _, -, -, -, -, -, rfl⟩ := hrehash
      exact admission_quiet rfl rfl
    | accessed hconn houtbox haccess => exact access_admission hguard hconn houtbox haccess

/-- In every run in which no check passes without room for the connections between their check and
their guard, the counter of open connections is the number of live guards and within the cap. -/
theorem run_openConnections_le_cap {trace : List (System crates × Label crates × System crates)}
    (hrun : Run setup trace sys) (hguard : ∀ t ∈ trace, ¬ OverAdmits setup t.1 t.2.1) :
    sys.relay.openConnections.toNat = liveGuards sys ∧
      sys.relay.openConnections.toNat ≤ setup.config.maxConnections.toNat := by
  obtain ⟨hcounter, hroom⟩ : sys.admission.Reserved setup.config.maxConnections.toNat := by
    refine (hrun.invariant_of_guard (fun sys label => ¬ OverAdmits setup sys label)
      (fun sys => sys.admission.Reserved setup.config.maxConnections.toNat) hguard ?_ ?_).1
    · exact ⟨rfl, Nat.zero_le _⟩
    · intro s label s' _ hmet hreserved hnext
      exact (next_admission hmet hnext).reserved setup.config.maxConnections.toNat_lt hreserved
  change sys.relay.openConnections.toNat = sys.admission.tasksAt .inside at hcounter
  exact ⟨hcounter, by omega⟩

/-- Whether the transition over-admits, as a check. -/
def overAdmits (setup : Setup) (sys : System crates) : Label crates → Bool
  | .exec c _ => sys.conns[c]?.any fun conn =>
    match conn.phase with
    | .checkOpen =>
      sys.relay.openConnections.toNat < setup.config.maxConnections.toNat &&
        setup.config.maxConnections.toNat ≤
          sys.relay.openConnections.toNat + sys.admission.tasksAt .checked
    | _ => false
  | _ => false

/-- A transition that passes the check does not over-admit. -/
theorem overAdmits_sound (h : overAdmits setup sys label = false) : ¬ OverAdmits setup sys label := by
  rintro ⟨c, clock, conn, rfl, hconn, -, hphase, hbelow, hfull⟩
  simp [overAdmits, hconn, hphase, hbelow, hfull] at h

/-- A relay for a number of connections, as many from one source. -/
def openCapSetup (cap : UInt64) : Setup :=
  ⟨{ maxConnections := cap, maxConnectionsPerIp := cap.toNat }, false⟩

/-- Two connections admitted one after the other fill a cap of two. -/
theorem run_openConnections_at_cap :
    ∃ trace sys, @Run silentCrates (openCapSetup 2) trace sys ∧ liveGuards sys = 2 ∧
      sys.relay.openConnections.toNat = liveGuards sys ∧
      sys.relay.openConnections.toNat ≤ (openCapSetup 2).config.maxConnections.toNat := by
  obtain ⟨trace, sys, sys', hrun, hcheck, hlive⟩ := @exists_checked_run silentCrates (openCapSetup 2)
    (fun sys label => !overAdmits (openCapSetup 2) sys label)
    (Script.connect 0 0 ++ [.accept sampleAddr none, .exec 1 (atSecond 0), .exec 1 (atSecond 0)])
    (.exec 1 (atSecond 0)) (fun _ sys' => liveGuards sys' = 2) (by decide)
  refine ⟨_, sys', hrun, of_decide_eq_true hlive, ?_⟩
  refine run_openConnections_le_cap hrun fun t ht => overAdmits_sound ?_
  simpa using hcheck t ht

/-- Two connections that both check a cap of one before either takes its guard are both open. -/
theorem exists_run_openConnections_gt_cap :
    (openCapSetup 1).config.validate = .ok () ∧
      ∃ trace sys, @Run silentCrates (openCapSetup 1) trace sys ∧ liveGuards sys = 2 ∧
        (openCapSetup 1).config.maxConnections.toNat < sys.relay.openConnections.toNat := by
  obtain ⟨trace, sys, sys', hrun, hover⟩ := @exists_run_step silentCrates (openCapSetup 1)
    [.accept sampleAddr none, .accept sampleAddr none, .exec 0 (atSecond 0), .exec 1 (atSecond 0),
      .exec 0 (atSecond 0), .exec 1 (atSecond 0), .exec 0 (atSecond 0)]
    (.exec 1 (atSecond 0))
    (fun _ sys' => liveGuards sys' = 2 &&
      (openCapSetup 1).config.maxConnections.toNat < sys'.relay.openConnections.toNat) (by decide)
  obtain ⟨hlive, hcap⟩ := Bool.and_eq_true_iff.mp hover
  exact ⟨rfl, _, sys', hrun, of_decide_eq_true hlive, of_decide_eq_true hcap⟩

end DigRelay
