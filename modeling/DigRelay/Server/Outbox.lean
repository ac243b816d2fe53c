import DigRelay.Common.TaskPool
import DigRelay.Server.Move

/-!
# Pending sends

A connection that has looked its targets up holds one pending send per target, and the health
sweep holds one pending notice per target. Pending sends are performed in order, one per move,
and nothing is added before all are performed. So along every run each send that was queued is
performed exactly once, unless it is still pending at the end. A send reaches the channel it is
addressed to and no other, and a full channel drops it without any further effect.
-/

namespace DigRelay

open Common

variable {crates : Crates} {setup : Setup} {sys sys' : System crates} {label : Label crates}
  {c : ConnId} {conn : Conn crates}

/-- The connection whose channel a send is addressed to. -/
def Send.target : Send crates → ConnId
  | .relay tx _ => tx
  | .pex tx _ => tx

/-- A non-blocking send on one of the connection's two channels. -/
def Conn.offer (conn : Conn crates) : Send crates → Conn crates
  | .relay _ msg => { conn with out := conn.out.trySend msg }
  | .pex _ msg => { conn with pexOut := conn.pexOut.trySend msg }

/-- Room for the send in the connection's channel. -/
def Conn.HasRoom (conn : Conn crates) : Send crates → Prop
  | .relay _ _ => conn.out.HasRoom
  | .pex _ _ => conn.pexOut.HasRoom

/-- The send is tried once on its target's channel; no other connection changes, and without
room nothing changes at all. -/
structure Delivers (send : Send crates) (conns conns' : List (Conn crates)) : Prop where
  target : conns'[send.target]? = conns[send.target]?.map fun conn => conn.offer send
  others : ∀ c, c ≠ send.target → conns'[c]? = conns[c]?
  full : (∀ conn, conns[send.target]? = some conn → ¬ conn.HasRoom send) → conns' = conns

/-- Without room an offer changes nothing. -/
theorem offer_of_not_hasRoom {send : Send crates} (h : ¬ conn.HasRoom send) :
    conn.offer send = conn := by
  cases send with
  | relay tx msg => rw [Conn.offer, Channel.trySend_of_not_hasRoom h]
  | pex tx msg => rw [Conn.offer, Channel.trySend_of_not_hasRoom h]

/-- A send is an offer to its target. -/
theorem deliver_eq_modify (send : Send crates) (conns : List (Conn crates)) :
    deliver send conns = conns.modify send.target fun conn => conn.offer send := by
  cases send <;> rfl

/-- Performing a send delivers it. -/
theorem delivers_deliver (send : Send crates) (conns : List (Conn crates)) :
    Delivers send conns (deliver send conns) where
  target := by
    rw [deliver_eq_modify, List.getElem?_modify]
    simp
  others := by
    intro c hc
    rw [deliver_eq_modify, List.getElem?_modify]
    simp [Ne.symm hc]
  full := by
    intro hfull
    rw [deliver_eq_modify]
    apply List.ext_getElem?
    intro c
    rw [List.getElem?_modify]
    split
    · rename_i hc
      subst hc
      cases htarget : conns[send.target]? with
      | none => rfl
      | some conn => exact congrArg some (offer_of_not_hasRoom (hfull conn htarget))
    · exact Option.map_id'

/-- The pending sends of a connection. -/
def System.pending (sys : System crates) (c : ConnId) : List (Send crates) :=
  (sys.conns[c]?.map Conn.outbox).getD []

/-- The send a transition performs for a connection. -/
def performed (c : ConnId) (t : System crates × Label crates × System crates) :
    List (Send crates) :=
  match t.2.1 with
  | .exec d _ => if d = c then (t.1.pending c).take 1 else []
  | _ => []

/-- The sends a transition queues for a connection that has none pending. -/
def queued (c : ConnId) (t : System crates × Label crates × System crates) : List (Send crates) :=
  if t.1.pending c = [] then t.2.2.pending c else []

/-- The part of a connection that only its own task moves. -/
def Conn.task (conn : Conn crates) : Session × List (Send crates) × Phase crates :=
  (conn.session, conn.outbox, conn.phase)

/-- The label is an input to the connection's task. -/
def Label.inputs (c : ConnId) : Label crates → Bool
  | .head d _ _ => d = c
  | .message d _ _ => d = c
  | .control d => d = c
  | .hangup d => d = c
  | _ => false

/-- A send leaves every task as it is. -/
theorem tasks_deliver (send : Send crates) (conns : List (Conn crates)) :
    (deliver send conns).map Conn.task = conns.map Conn.task :=
  deliver_map Conn.task (fun _ _ => rfl) (fun _ _ => rfl) send conns

/-- A send leaves every phase as it is. -/
theorem phases_deliver (send : Send crates) (conns : List (Conn crates)) :
    (deliver send conns).map Conn.phase = conns.map Conn.phase :=
  deliver_map Conn.phase (fun _ _ => rfl) (fun _ _ => rfl) send conns

/-- A connection's task is moved by its own moves and inputs alone. -/
theorem next_task (hexec : ∀ clock, label ≠ .exec c clock) (hinputs : label.inputs c = false)
    (hconn : sys.conns[c]? = some conn) (h : Next setup sys label sys') :
    ∃ conn', sys'.conns[c]? = some conn' ∧ conn'.task = conn.task := by
  have hset {d : ConnId} (after : Conn crates) (hd : d ≠ c) :
      (sys.conns.set d after)[c]? = some conn := by
    rw [List.getElem?_set_ne hd, hconn]
  cases next_move h with
  | accepted =>
    have hlt := (List.getElem?_eq_some_iff.mp hconn).1
    exact ⟨conn, by rw [List.getElem?_append_left hlt, hconn], rfl⟩
  | @sent d clock _ send rest =>
    exact exists_getElem?_of_map_eq (tasks_deliver send _)
      (hset _ fun hd => hexec clock (by rw [hd]))
  | @accessed d clock => exact ⟨conn, hset _ fun hd => hexec clock (by rw [hd]), rfl⟩
  | head | message | control | hangup =>
    exact ⟨conn, hset _ (by simpa [Label.inputs] using hinputs), rfl⟩
  | wrote _ hbefore | closed _ hbefore =>
    exact exists_getElem?_of_map_eq (map_set_of_eq Conn.task hbefore rfl) hconn
  | noticed =>
    dsimp only
    exact exists_getElem?_of_map_eq (tasks_deliver _ _) hconn
  | background =>
    exact exists_getElem?_of_map_eq
      (deliverAll_map Conn.task (fun _ _ => rfl) (fun _ _ => rfl) _ _) hconn
  | swept | forgotten | rehashed => exact ⟨conn, hconn, rfl⟩

/-- The pending sends of a connection are its outbox. -/
theorem pending_of_outbox (hconn : sys.conns[c]? = some conn) : sys.pending c = conn.outbox := by
  rw [System.pending, hconn]
  rfl

/-- Inputs are taken only when nothing is pending. -/
theorem outbox_of_inputs (hinputs : label.inputs c = true) (hconn : sys.conns[c]? = some conn)
    (h : Next setup sys label sys') : conn.outbox = [] := by
  have hsame {d : ConnId} {other : Conn crates} (hd : d = c) (hother : sys.conns[d]? = some other)
      (houtbox : other.outbox = []) : conn.outbox = [] := by
    subst hd
    obtain rfl := Option.some.inj (hconn.symm.trans hother)
    exact houtbox
  cases next_move h with
  | head _ _ hother _ houtbox => exact hsame (of_decide_eq_true hinputs) hother houtbox
  | message _ _ hother _ houtbox => exact hsame (of_decide_eq_true hinputs) hother houtbox
  | control hother _ houtbox => exact hsame (of_decide_eq_true hinputs) hother houtbox
  | hangup hother _ houtbox => exact hsame (of_decide_eq_true hinputs) hother houtbox
  | wrote hlabel | closed hlabel | background _ hlabel => cases label <;> cases hlabel <;> cases hinputs
  | _ => cases hinputs

/-- While a connection has sends pending, its next move performs the first and no other
transition touches them. -/
theorem next_pending_of_ne_nil (hpending : sys.pending c ≠ []) (h : Next setup sys label sys') :
    performed c (sys, label, sys') ++ sys'.pending c = sys.pending c := by
  obtain ⟨conn, hconn⟩ : ∃ conn, sys.conns[c]? = some conn := by
    cases hconn : sys.conns[c]? with
    | none => exact absurd (by simp [System.pending, hconn]) hpending
    | some conn => exact ⟨conn, rfl⟩
  have houtbox := pending_of_outbox hconn
  rw [houtbox] at hpending ⊢
  by_cases hexec : ∃ clock, label = .exec c clock
  · obtain ⟨clock, rfl⟩ := hexec
    cases h with
    | step h =>
      simp only [step, hconn, Option.bind_some] at h
      rcases execStep_some h with ⟨send, rest, hsend, rfl⟩ | ⟨hempty, -⟩
      · have hlt := (List.getElem?_eq_some_iff.mp hconn).1
        have hrest : (deliver send (sys.conns.set c { conn with outbox := rest })).map Conn.outbox =
            (sys.conns.set c { conn with outbox := rest }).map Conn.outbox :=
          deliver_map Conn.outbox (fun _ _ => rfl) (fun _ _ => rfl) send _
        have hafter : System.pending
            { sys with conns := deliver send (sys.conns.set c { conn with outbox := rest }) } c =
              rest := by
          rw [System.pending, ← List.getElem?_map, hrest]
          simp [hlt]
        rw [hafter]
        simp [performed, houtbox, hsend]
      · exact absurd hempty hpending
  · have hnone : performed c (sys, label, sys') = [] := by
      cases label <;> simp only [performed]
      case exec d clock => exact if_neg fun hd => hexec ⟨clock, by rw [hd]⟩
    cases hinputs : label.inputs c with
    | true => exact absurd (outbox_of_inputs hinputs hconn h) hpending
    | false =>
      obtain ⟨conn', hconn', htask⟩ :=
        next_task (fun clock hlabel => hexec ⟨clock, hlabel⟩) hinputs hconn h
      rw [hnone, pending_of_outbox hconn']
      exact congrArg (fun task => task.2.1) htask

/-- Along every run, the sends a connection has performed and those still pending are exactly the
sends that were queued, in order. -/
theorem run_performed {trace : List (System crates × Label crates × System crates)}
    (hrun : Run setup trace sys) (c : ConnId) :
    trace.flatMap (performed c) ++ sys.pending c = trace.flatMap (queued c) := by
  refine hrun.balance (performed c) (queued c) (System.pending · c) ?_
  intro s label s' hnext
  by_cases hpending : s.pending c = []
  · have hnone : performed c (s, label, s') = [] := by
      cases label <;> simp [performed, hpending]
    simp [hnone, queued, hpending]
  · rw [next_pending_of_ne_nil hpending hnext]
    simp [queued, hpending]

/-- The pending notices of the health sweep. -/
def System.pendingNotices (sys : System crates) : List (Send crates) :=
  sys.pruned.flatMap fun pruned => toTargets pruned.2.2 (.peerDisconnected pruned.1)

/-- The notice a transition performs for the health sweep. -/
def performedNotices (t : System crates × Label crates × System crates) : List (Send crates) :=
  match t.2.1, t.1.pruned with
  | .sweepExec, (peerId, _, target :: _) :: _ => [.relay target.2 (.peerDisconnected peerId)]
  | _, _ => []

/-- The notices a sweep queues. -/
def queuedNotices (t : System crates × Label crates × System crates) : List (Send crates) :=
  match t.2.1 with
  | .sweep _ => t.2.2.pendingNotices
  | _ => []

/-- One transition performs the first pending notice, queues those of a sweep when none is
pending, or leaves them alone. -/
theorem next_pendingNotices (h : Next setup sys label sys') :
    performedNotices (sys, label, sys') ++ sys'.pendingNotices =
      sys.pendingNotices ++ queuedNotices (sys, label, sys') := by
  have hsame (hlabel : performedNotices (sys, label, sys') = [])
      (hqueued : queuedNotices (sys, label, sys') = []) (hpruned : sys'.pruned = sys.pruned) :
      performedNotices (sys, label, sys') ++ sys'.pendingNotices =
        sys.pendingNotices ++ queuedNotices (sys, label, sys') := by
    simp [hlabel, hqueued, System.pendingNotices, hpruned]
  have hbackground (hlabel : label.isBackground = true) :
      performedNotices (sys, label, sys') = [] ∧ queuedNotices (sys, label, sys') = [] := by
    cases label <;> simp_all [Label.isBackground, performedNotices, queuedNotices]
  cases next_move h with
  | swept now hdone => simp [performedNotices, queuedNotices, System.pendingNotices, hdone]
  | noticed hpruned =>
    simp [performedNotices, queuedNotices, System.pendingNotices, hpruned, toTargets]
  | forgotten hpruned =>
    simp [performedNotices, queuedNotices, System.pendingNotices, hpruned, toTargets]
  | wrote hlabel | closed hlabel | background _ hlabel =>
    exact hsame (hbackground hlabel).1 (hbackground hlabel).2 rfl
  | _ => exact hsame rfl rfl rfl

/-- Along every run, the notices performed and those still pending are exactly the notices that
sweeps have queued, in order. -/
theorem run_performedNotices {trace : List (System crates × Label crates × System crates)}
    (hrun : Run setup trace sys) :
    trace.flatMap performedNotices ++ sys.pendingNotices = trace.flatMap queuedNotices :=
  hrun.balance performedNotices queuedNotices System.pendingNotices fun _ _ _ hnext =>
    next_pendingNotices hnext

end DigRelay
