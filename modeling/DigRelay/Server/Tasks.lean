import DigRelay.Server.Outbox

/-!
# What a transition does to one task

A connection task moves by performing its next pending send, by its next shared access or by taking an
input. All other transitions leave its session, its pending sends and its phase alone. A property of
single tasks is therefore kept by every transition if these moves keep it.
-/

namespace DigRelay

open Common

variable {crates : Crates} {setup : Setup} {sys sys' : System crates} {label : Label crates}
  {c : ConnId} {conn : Conn crates}

/-- The moves of a connection's task. -/
inductive TaskMove (setup : Setup) (sys : System crates) (c : ConnId) (conn : Conn crates) :
    Label crates → Session × List (Send crates) × Phase crates → Prop
  | still {label : Label crates} (hexec : ∀ clock, label ≠ .exec c clock)
      (hinputs : label.inputs c = false) : TaskMove setup sys c conn label conn.task
  | sent {clock : Clock} {send : Send crates} {rest : List (Send crates)}
      (houtbox : conn.outbox = send :: rest) :
      TaskMove setup sys c conn (.exec c clock) (conn.session, rest, conn.phase)
  | accessed {clock : Clock} {relay' : Relay crates} {conn' : Conn crates} (houtbox : conn.outbox = [])
      (haccess : access setup clock (isClosed sys.conns) c sys.relay conn = some (relay', conn')) :
      TaskMove setup sys c conn (.exec c clock) conn'.task
  | head {outcome : HeadOutcome} {clock : Clock} (hphase : conn.phase = .readHead)
      (houtbox : conn.outbox = []) :
      TaskMove setup sys c conn (.head c outcome clock)
        (conn.session, [], if outcome = .upgraded then .idle else .dropConn)
  | message {frame : Frame crates} {clock : Clock} (hphase : conn.phase = .idle)
      (houtbox : conn.outbox = []) :
      TaskMove setup sys c conn (.message c frame clock)
        (conn.takeFrame setup.config c frame clock).task
  | control (hphase : conn.phase = .idle) (houtbox : conn.outbox = []) :
      TaskMove setup sys c conn (.control c) conn.task
  | hangup (hphase : conn.phase = .idle) (houtbox : conn.outbox = []) :
      TaskMove setup sys c conn (.hangup c) (conn.session, [], .deregister)

/-- Every transition moves the task of a connection in one of these ways. -/
theorem next_taskMove (hconn : sys.conns[c]? = some conn) (h : Next setup sys label sys') :
    ∃ conn', sys'.conns[c]? = some conn' ∧ TaskMove setup sys c conn label conn'.task := by
  have hlt := (List.getElem?_eq_some_iff.mp hconn).1
  have hset {conn' : Conn crates} : (sys.conns.set c conn')[c]? = some conn' :=
    List.getElem?_set_self hlt
  by_cases hexec : ∃ clock, label = .exec c clock
  · obtain ⟨clock, rfl⟩ := hexec
    cases h with
    | step h =>
      simp only [step, hconn, Option.bind_some] at h
      rcases execStep_some h with ⟨send, rest, houtbox, rfl⟩ | ⟨houtbox, relay, conn', haccess, rfl⟩
      · obtain ⟨moved, hmoved, htask⟩ := exists_getElem?_of_map_eq (tasks_deliver send _) hset
        refine ⟨moved, hmoved, ?_⟩
        rw [htask]
        exact .sent houtbox
      · exact ⟨conn', hset, .accessed houtbox haccess⟩
  · cases hinputs : label.inputs c with
    | false =>
      obtain ⟨conn', hconn', htask⟩ :=
        next_task (fun clock hlabel => hexec ⟨clock, hlabel⟩) hinputs hconn h
      refine ⟨conn', hconn', ?_⟩
      rw [htask]
      exact .still (fun clock hlabel => hexec ⟨clock, hlabel⟩) hinputs
    | true =>
      have hsame {d : ConnId} {other : Conn crates} (hd : decide (d = c) = true)
          (hother : sys.conns[d]? = some other) : d = c ∧ other = conn := by
        obtain rfl := of_decide_eq_true hd
        exact ⟨rfl, Option.some.inj (hother.symm.trans hconn)⟩
      cases next_move h with
      | @head d other outcome clock hother hphase houtbox =>
        obtain ⟨rfl, rfl⟩ := hsame hinputs hother
        refine ⟨_, hset, ?_⟩
        have htask : (other.takeHead setup.config clock outcome).task =
            (other.session, [], if outcome = .upgraded then .idle else .dropConn) := by
          cases outcome <;> simp [Conn.takeHead, Conn.upgrade, Conn.task, houtbox]
        rw [htask]
        exact .head hphase houtbox
      | message frame clock hother hphase houtbox =>
        obtain ⟨rfl, rfl⟩ := hsame hinputs hother
        exact ⟨_, hset, .message hphase houtbox⟩
      | control hother hphase houtbox =>
        obtain ⟨rfl, rfl⟩ := hsame hinputs hother
        exact ⟨_, hset, .control hphase houtbox⟩
      | @hangup d other hother hphase houtbox =>
        obtain ⟨rfl, rfl⟩ := hsame hinputs hother
        refine ⟨_, hset, ?_⟩
        rw [Conn.task, houtbox]
        exact .hangup hphase houtbox
      | wrote hlabel | closed hlabel | background _ hlabel =>
        cases label <;> cases hlabel <;> cases hinputs
      | _ => cases hinputs

/-- A connection that was not there before has just been accepted. -/
theorem next_conn_of_none (hnone : sys.conns[c]? = none) (h : Next setup sys label sys') :
    sys'.conns[c]? = none ∨
      ∃ addr identity, sys'.conns[c]? = some (Conn.accepted setup.config addr identity) := by
  rw [List.getElem?_eq_none_iff] at hnone
  have hlength {conns : List (Conn crates)} (hconns : conns.length = sys.conns.length) :
      conns[c]? = none := List.getElem?_eq_none_iff.mpr (hconns ▸ hnone)
  have hdeliver (send : Send crates) (conns : List (Conn crates)) :
      (deliver send conns).length = conns.length := by
    simpa using congrArg List.length (tasks_deliver send conns)
  cases next_move h with
  | accepted addr identity =>
    rw [List.getElem?_append_right hnone]
    cases c - sys.conns.length with
    | zero => exact Or.inr ⟨addr, _, rfl⟩
    | succ n => exact Or.inl rfl
  | sent => exact Or.inl (hlength (by rw [hdeliver, List.length_set]))
  | noticed => exact Or.inl (hlength (by rw [hdeliver]))
  | background sends =>
    have hmap := deliverAll_map Conn.task (fun _ _ => rfl) (fun _ _ => rfl) sends sys.conns
    exact Or.inl (hlength (by simpa using congrArg List.length hmap))
  | swept | forgotten | rehashed => exact Or.inl (hlength rfl)
  | _ => exact Or.inl (hlength List.length_set)

/-- What holds of an accepted task and is kept by every move of a task holds of all tasks after a
transition. -/
theorem next_tasks {Inv : Session × List (Send crates) × Phase crates → Prop}
    (haccepted : Inv ({}, [], .checkBan))
    (hkept : ∀ c conn task, sys.conns[c]? = some conn → TaskMove setup sys c conn label task →
      Inv conn.task → Inv task)
    (hinv : ∀ conn ∈ sys.conns, Inv conn.task) (h : Next setup sys label sys') :
    ∀ conn ∈ sys'.conns, Inv conn.task := by
  intro conn' hmem
  obtain ⟨c, hconn'⟩ := List.mem_iff_getElem?.mp hmem
  cases hconn : sys.conns[c]? with
  | none =>
    rcases next_conn_of_none hconn h with hnone | ⟨addr, identity, hsome⟩
    · simp [hnone] at hconn'
    · obtain rfl := Option.some.inj (hconn'.symm.trans hsome)
      exact haccepted
  | some conn =>
    obtain ⟨moved, hmoved, hmove⟩ := next_taskMove hconn h
    obtain rfl := Option.some.inj (hconn'.symm.trans hmoved)
    exact hkept c conn _ hconn hmove (hinv conn (List.mem_of_getElem? hconn))

end DigRelay
