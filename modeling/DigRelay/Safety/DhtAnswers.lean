import DigRelay.Common.History
import DigRelay.Server.Script
import DigRelay.Server.Touch
import Mathlib.Data.List.Dedup
import Mathlib.Data.List.Perm.Subperm

/-!
# Answers to the DHT rounds

Every `dht_records` message of a connection whose session names a peer is stored until the next
view is built from what has been stored. Nothing relates an answer to a question, to the record of
the peer or to an earlier answer, so the number of answers is bounded by the registered
connections only as far as their clients see to it.
-/

namespace DigRelay

open Common

variable {crates : Crates} {setup : Setup} {sys sys' : System crates} {label : Label crates}

/-- The label builds a view and with it begins a new window of answers. -/
def Label.isDhtBuild : Label crates → Bool
  | .dhtBuild _ => true
  | _ => false

/-- The transition begins a new window of answers. -/
def beginsWindow (t : System crates × Label crates × System crates) : Bool := t.2.1.isDhtBuild

/-- The connection whose answer a transition stores, and the peer its session names. -/
def answerOf (sys : System crates) : Label crates → Option (ConnId × String)
  | .exec c _ => sys.conns[c]?.bind fun conn =>
    match conn.outbox, conn.phase with
    | [], .intercept (.dhtRecords _ _ _) => conn.session.peerId.map fun peerId => (c, peerId)
    | _, _ => none
  | _ => none

/-- The answer a transition stores. -/
def storedAnswer (sys : System crates) : Label crates → Option PeerAnswer
  | .exec c _ => sys.conns[c]?.bind fun conn =>
    match conn.outbox, conn.phase with
    | [], .intercept (.dhtRecords records _ truncated) =>
      conn.session.peerId.map fun _ => { records, truncated }
    | _, _ => none
  | _ => none

/-- Who gave the answer that a recorded transition stores. -/
def answered (t : System crates × Label crates × System crates) : Option (ConnId × String) :=
  answerOf t.1 t.2.1

/-- The states of the current window. -/
def windowStates (trace : List (System crates × Label crates × System crates))
    (sys : System crates) : List (System crates) :=
  sys :: (since beginsWindow trace).map Prod.fst

/-- The connections that had a record at some point of the current window. -/
def connsInWindow (trace : List (System crates × Label crates × System crates))
    (sys : System crates) : List ConnId :=
  ((windowStates trace sys).flatMap fun s =>
    s.relay.registry.toPairs.map fun record => record.2.tx).dedup

/-- The peers that were registered at some point of the current window. -/
def peersInWindow (trace : List (System crates × Label crates × System crates))
    (sys : System crates) : List String :=
  ((windowStates trace sys).flatMap fun s => s.relay.registry.toPairs.map Prod.fst).dedup

/-- An answer that the transition stores comes from the connection that owns the record of the
peer its session names, and neither that connection nor that peer has answered in the window
before. -/
def AnswersOnce (earlier : List (System crates × Label crates × System crates))
    (t : System crates × Label crates × System crates) : Prop :=
  ∀ c peerId, answered t = some (c, peerId) →
    (∃ peer, t.1.relay.registry.lookup peerId = some peer ∧ peer.tx = c) ∧
      ∀ old ∈ (since beginsWindow earlier).filterMap answered, old.1 ≠ c ∧ old.2 ≠ peerId

/-- Relayed traffic is no answer. -/
theorem recordRelayed_dhtAnswers (relay : Relay crates) (msg : RelayMessage) :
    (relay.recordRelayed msg).dhtAnswers = relay.dhtAnswers := by
  unfold Relay.recordRelayed
  split
  case h_4 => split <;> rfl
  all_goals rfl

/-- Only the access that takes a message can store an answer. -/
theorem Touch.dhtAnswers {relay relay' : Relay crates} {conn : Conn crates}
    (h : Touch relay conn relay') (htake : ∀ msg, conn.phase ≠ .intercept msg) :
    relay'.dhtAnswers = relay.dhtAnswers := by
  cases h with
  | answer hphase => exact absurd hphase (htake _)
  | traffic => exact recordRelayed_dhtAnswers _ _
  | _ => rfl

/-- A registered peer's answer is appended to those stored before. -/
theorem recordDhtAnswer_dhtAnswers (relay : Relay crates) (session : Session) (msg : RelayMessage) :
    (relay.recordDhtAnswer session msg).dhtAnswers =
      relay.dhtAnswers ++
        match msg with
        | .dhtRecords records _ truncated =>
          (session.peerId.map fun _ => ({ records, truncated } : PeerAnswer)).toList
        | _ => [] := by
  cases msg
  case dhtRecords records total truncated =>
    cases hpeerId : session.peerId <;> simp [Relay.recordDhtAnswer, hpeerId]
  all_goals exact (List.append_nil _).symm

/-- An access stores the answer it takes from a named peer. -/
theorem access_dhtAnswers {c : ConnId} {clock : Clock} {conn conn' : Conn crates}
    {relay' : Relay crates} (hconn : sys.conns[c]? = some conn) (houtbox : conn.outbox = [])
    (h : access setup clock (isClosed sys.conns) c sys.relay conn = some (relay', conn')) :
    relay'.dhtAnswers = sys.relay.dhtAnswers ++ (storedAnswer sys (.exec c clock)).toList := by
  simp only [storedAnswer, hconn, Option.bind_some, houtbox]
  by_cases htake : ∃ msg, conn.phase = .intercept msg
  · obtain ⟨msg, hphase⟩ := htake
    simp only [access, hphase, Option.some.injEq, Prod.mk.injEq] at h
    rw [← h.1, recordDhtAnswer_dhtAnswers, hphase]
    cases msg <;> rfl
  · have hother := (access_touch h).dhtAnswers fun msg hphase => htake ⟨msg, hphase⟩
    rw [hother]
    split
    · rename_i hphase
      exact absurd ⟨_, hphase⟩ htake
    · exact (List.append_nil _).symm

/-- Every transition stores the answer it takes, unless it builds a view from those stored. -/
theorem next_dhtAnswers (h : Next setup sys label sys') :
    sys'.relay.dhtAnswers =
      if label.isDhtBuild then [] else sys.relay.dhtAnswers ++ (storedAnswer sys label).toList := by
  by_cases hlabel : label.isBackground = true
  · cases next_background h hlabel with
    | built => rfl
    | wrote _ hwrite => rcases hwrite with ⟨ok, rfl⟩ | ⟨ok, rfl⟩ <;> exact (List.append_nil _).symm
    | _ => exact (List.append_nil _).symm
  · cases next_move h with
    | wrote hback | closed hback | background _ hback => exact absurd hback hlabel
    | sent hconn houtbox => simp [storedAnswer, hconn, houtbox, Label.isDhtBuild]
    | accessed hconn houtbox haccess => exact access_dhtAnswers hconn houtbox haccess
    | swept now =>
      change (sweepLocked setup sys now).2.dhtAnswers = _
      rw [sweepLocked, pruneLocked_frame]
      exact (List.append_nil _).symm
    | rehashed hrehash =>
      obtain ⟨_, _, _, _, _, -, -, -, -, -, rfl⟩ := hrehash
      exact (List.append_nil _).symm
    | _ => exact (List.append_nil _).symm

/-- The stored answer and who gave it are known at the same transitions. -/
theorem length_storedAnswer (sys : System crates) (label : Label crates) :
    (storedAnswer sys label).toList.length = (answerOf sys label).toList.length := by
  cases label
  case exec c clock =>
    cases hconn : sys.conns[c]? with
    | none => simp [storedAnswer, answerOf, hconn]
    | some conn =>
      simp only [storedAnswer, answerOf, hconn, Option.bind_some]
      split
      · rw [Option.length_toList, Option.length_toList, Option.isSome_map, Option.isSome_map]
      · rfl
  all_goals rfl

/-- In a run in which every answer comes from the owner of its peer's record, and from each
connection and each peer only once in a window, the answers stored are at most the connections
and at most the peers registered in the window. -/
theorem dhtAnswers_length_le {trace : List (System crates × Label crates × System crates)}
    (hrun : Run setup trace sys)
    (hguard : ∀ earlier t later, trace = earlier ++ t :: later → AnswersOnce earlier t) :
    sys.relay.dhtAnswers.length ≤ (connsInWindow trace sys).length ∧
      sys.relay.dhtAnswers.length ≤ (peersInWindow trace sys).length := by
  have hsize : sys.relay.dhtAnswers.length = ((since beginsWindow trace).filterMap answered).length :=
    hrun.size_eq_since beginsWindow answered (fun sys => sys.relay.dhtAnswers.length) rfl <| by
      intro s label s' hnext
      rw [next_dhtAnswers hnext, beginsWindow, answered, ← length_storedAnswer]
      split
      · rfl
      · exact List.length_append
  have hfreshConns : Fresh beginsWindow answered Prod.fst trace :=
    fun earlier t later hsplit item hitem old hold =>
      ((hguard earlier t later hsplit item.1 item.2 hitem).2 old hold).1
  have hfreshPeers : Fresh beginsWindow answered Prod.snd trace :=
    fun earlier t later hsplit item hitem old hold =>
      ((hguard earlier t later hsplit item.1 item.2 hitem).2 old hold).2
  have howned : ∀ item ∈ (since beginsWindow trace).filterMap answered, ∃ s ∈ windowStates trace sys,
      ∃ peer, s.relay.registry.lookup item.2 = some peer ∧ peer.tx = item.1 := by
    intro item hitem
    obtain ⟨t, ht, hanswered⟩ := List.mem_filterMap.mp hitem
    obtain ⟨earlier, later, hsplit⟩ := List.append_of_mem (mem_of_mem_since ht)
    exact ⟨t.1, List.mem_cons_of_mem _ (List.mem_map_of_mem ht),
      (hguard earlier t later hsplit item.1 item.2 hanswered).1⟩
  constructor
  · rw [hsize, ← List.length_map Prod.fst]
    refine (List.Nodup.subperm hfreshConns.nodup fun c hc => ?_).length_le
    obtain ⟨item, hitem, rfl⟩ := List.mem_map.mp hc
    obtain ⟨s, hs, peer, hpeer, htx⟩ := howned item hitem
    refine List.mem_dedup.mpr (List.mem_flatMap.mpr ⟨s, hs, List.mem_map.mpr ⟨(item.2, peer), ?_, htx⟩⟩)
    exact (Table.mem_toPairs_iff _ _ _).mpr hpeer
  · rw [hsize, ← List.length_map Prod.snd]
    refine (List.Nodup.subperm hfreshPeers.nodup fun peerId hpeerId => ?_).length_le
    obtain ⟨item, hitem, rfl⟩ := List.mem_map.mp hpeerId
    obtain ⟨s, hs, peer, hpeer, -⟩ := howned item hitem
    refine List.mem_dedup.mpr (List.mem_flatMap.mpr ⟨s, hs, List.mem_map.mpr ⟨(item.2, peer), ?_, rfl⟩⟩)
    exact (Table.mem_toPairs_iff _ _ _).mpr hpeer

/-- In every run in which every answer comes from the owner of its peer's record, and from each
connection and each peer only once in a window, the stored answers are at most the connections
registered in the current window, and every published view counts at most one answer for each
peer registered in the window it was built from. -/
theorem run_dhtAnswers_bounded {trace : List (System crates × Label crates × System crates)}
    (hrun : Run setup trace sys)
    (hguard : ∀ earlier t later, trace = earlier ++ t :: later → AnswersOnce earlier t) :
    sys.relay.dhtAnswers.length ≤ (connsInWindow trace sys).length ∧
      ∀ earlier t later, trace = earlier ++ t :: later → t.2.1.isDhtBuild = true →
        t.2.2.relay.dhtView.reportingPeers ≤ (peersInWindow earlier t.1).length := by
  refine ⟨(dhtAnswers_length_le hrun hguard).1, ?_⟩
  rintro earlier ⟨s, label, s'⟩ later rfl hbuild
  obtain ⟨hbefore, hnext⟩ := hrun.before
  dsimp only at hbefore hnext hbuild ⊢
  have hbound := (dhtAnswers_length_le hbefore fun before t after hsplit =>
    hguard before t (after ++ (s, label, s') :: later) (by rw [hsplit]; simp)).2
  have hback : label.isBackground = true := by
    cases label <;> first | rfl | cases hbuild
  cases next_background hnext hback with
  | built => exact hbound
  | wrote _ hwrite => rcases hwrite with ⟨ok, rfl⟩ | ⟨ok, rfl⟩ <;> cases hbuild
  | _ => cases hbuild

/-- Whether a transition meets the condition on answers, as a check. -/
def answersOnce (earlier : List (System crates × Label crates × System crates))
    (t : System crates × Label crates × System crates) : Bool :=
  (answered t).all fun answer =>
    ((t.1.relay.registry.lookup answer.2).any fun peer => peer.tx = answer.1) &&
      ((since beginsWindow earlier).filterMap answered).all fun old =>
        old.1 ≠ answer.1 && old.2 ≠ answer.2

/-- A transition that passes the check meets the condition. -/
theorem answersOnce_sound {earlier : List (System crates × Label crates × System crates)}
    {t : System crates × Label crates × System crates} (h : answersOnce earlier t = true) :
    AnswersOnce earlier t := by
  intro c peerId hanswered
  rw [answersOnce, hanswered, Option.all_some, Bool.and_eq_true] at h
  obtain ⟨peer, hpeer, htx⟩ := (Option.any_eq_true _ _).mp h.1
  refine ⟨⟨peer, hpeer, of_decide_eq_true htx⟩, fun old hold => ?_⟩
  simpa using List.all_eq_true.mp h.2 old hold

/-- An answer to a DHT round. -/
def sampleAnswer : RelayMessage := .dhtRecords [{ contentKey := "k", providers := 1 }] 1 false

/-- A registered peer answers once in each of two windows. -/
theorem run_dhtAnswers_bounded_twice :
    ∃ trace sys, @Run silentCrates standardSetup trace sys ∧
      sys.relay.dhtAnswers.length = 1 ∧ sys.relay.dhtView.reportingPeers = 1 ∧
      sys.relay.dhtAnswers.length ≤ (connsInWindow trace sys).length ∧
      ∀ earlier t later, trace = earlier ++ t :: later → t.2.1.isDhtBuild = true →
        t.2.2.relay.dhtView.reportingPeers ≤ (peersInWindow earlier t.1).length := by
  obtain ⟨trace, sys, hrun, hends⟩ := @exists_traced_run silentCrates standardSetup
    (Script.connect 0 0 ++ Script.register 0 "p" "net" 0 0 ++ Script.send 0 sampleAnswer 1 2 ++ [.dhtBuild 2] ++
      Script.send 0 sampleAnswer 3 2)
    (fun trace sys => allSplits answersOnce trace && sys.relay.dhtAnswers.length = 1 &&
      sys.relay.dhtView.reportingPeers = 1) (by decide)
  simp only [Bool.and_eq_true, decide_eq_true_eq] at hends
  obtain ⟨⟨hcheck, hanswers⟩, hview⟩ := hends
  refine ⟨trace, sys, hrun, hanswers, hview, run_dhtAnswers_bounded hrun ?_⟩
  exact fun earlier t later hsplit => answersOnce_sound (allSplits_sound hcheck earlier t later hsplit)

/-- A registered peer that answers twice counts for two, both among the stored answers and in the
view built from them. A peer whose record a sweep has pruned is still counted, in a window in
which no peer is registered. -/
theorem exists_run_dhtAnswers_gt :
    (∃ trace sys sys', @Run silentCrates standardSetup trace sys ∧
      Next standardSetup sys (.dhtBuild 2) sys' ∧ sys.relay.dhtAnswers.length = 2 ∧
      connsInWindow trace sys = [0] ∧ sys'.relay.dhtView.reportingPeers = 2 ∧
      peersInWindow trace sys = ["p"]) ∧
    ∃ trace sys, @Run silentCrates standardSetup trace sys ∧ sys.relay.dhtAnswers.length = 1 ∧
      connsInWindow trace sys = [] := by
  constructor
  · obtain ⟨trace, sys, hrun, hends⟩ := @exists_traced_run silentCrates standardSetup
      (Script.connect 0 0 ++ Script.register 0 "p" "net" 0 0 ++ Script.send 0 sampleAnswer 1 2 ++
        Script.send 0 sampleAnswer 1 2)
      (fun trace sys => sys.relay.dhtAnswers.length = 2 && connsInWindow trace sys = [0] &&
        peersInWindow trace sys = ["p"] &&
        (step standardSetup sys (.dhtBuild 2)).any fun sys' =>
          sys'.relay.dhtView.reportingPeers = 2) (by decide)
    simp only [Bool.and_eq_true, decide_eq_true_eq] at hends
    obtain ⟨⟨⟨hanswers, hconns⟩, hpeers⟩, hbuild⟩ := hends
    obtain ⟨sys', hstep, hview⟩ := (Option.any_eq_true _ _).mp hbuild
    exact ⟨trace, sys, sys', hrun, .step hstep, hanswers, hconns, of_decide_eq_true hview, hpeers⟩
  · obtain ⟨trace, sys, hrun, hends⟩ := @exists_traced_run silentCrates standardSetup
      (Script.connect 0 0 ++ Script.register 0 "p" "net" 0 0 ++ [.sweep 91, .sweepExec, .dhtBuild 95] ++
        Script.send 0 sampleAnswer 100 2)
      (fun trace sys => sys.relay.dhtAnswers.length = 1 && connsInWindow trace sys = [])
      (by decide)
    simp only [Bool.and_eq_true, decide_eq_true_eq] at hends
    exact ⟨trace, sys, hrun, hends⟩

end DigRelay
