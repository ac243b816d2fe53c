import DigRelay.Server.Script
import DigRelay.Server.Sweep
import DigRelay.Server.Timed

/-!
# A health sweep removes the dead and the silent, and tells the others once

The victims of a sweep are removed one by one, and whom to tell of each is looked up in what is left
of the registry. Whatever the order of the victims, each record that remains is told of every victim
on its own network once, since it is registered whenever one of them is removed. The notices are put
into the queues of the channels as far as there is room. Here the sweep is followed to its end while no
other task moves.
-/

namespace DigRelay

open Common

variable {crates : Crates} {setup : Setup} {sys sys' : System crates} {now deadline : ℕ}

/-- A health sweep past its critical section that runs by itself to its end. -/
def SweepFinishes (setup : Setup) (sys sys' : System crates) : Prop :=
  RunsUntil (step setup) (fun sys => sys.pruned = []) (fun _ => .sweepExec) sys sys'

/-- A health sweep that runs by itself and returns. -/
def SweepReturns (setup : Setup) (now : ℕ) (sys sys' : System crates) : Prop :=
  ∃ locked, step setup sys (.sweep now) = some locked ∧ SweepFinishes setup locked sys'

/-- The notices of removed records. -/
def noticesOf (pruned : List PrunedPeer) : List (Send crates) :=
  pruned.flatMap fun entry => toTargets entry.2.2 (.peerDisconnected entry.1)

/-- Mirror the departures of removed records into the exchange. -/
def PexRelay.unregisterAll (pex : PexRelay crates) (pruned : List PrunedPeer) : PexRelay crates :=
  pruned.foldl (fun pex entry => pex.onUnregister entry.1 entry.2.1) pex

/-- A sweep with something left to do goes on. -/
theorem sweepFinishes_iff_of_step {middle : System crates} (hgoes : sys.pruned ≠ [])
    (hstep : sweepStep sys = some middle) :
    SweepFinishes setup sys sys' ↔ SweepFinishes setup middle sys' :=
  runsUntil_iff_of_step hgoes hstep

/-- The notices of one record are sent before its departure is mirrored. -/
theorem sweepFinishes_iff_of_entry (peerId networkId : String) (targets : List (String × ConnId))
    (rest : List PrunedPeer) :
    SweepFinishes setup { sys with pruned := (peerId, networkId, targets) :: rest } sys' ↔
      SweepFinishes setup
        { sys with
          relay := { sys.relay with pex := sys.relay.pex.onUnregister peerId networkId }
          conns := deliverAll (toTargets targets (.peerDisconnected peerId)) sys.conns
          pruned := rest } sys' := by
  induction targets generalizing sys with
  | nil =>
    apply sweepFinishes_iff_of_step (List.cons_ne_nil _ _)
    rfl
  | cons target targets ih =>
    have hgoes : ({ sys with pruned := (peerId, networkId, target :: targets) :: rest } :
        System crates).pruned ≠ [] := List.cons_ne_nil _ _
    refine (sweepFinishes_iff_of_step hgoes rfl).trans ?_
    exact @ih { sys with conns := deliver (.relay target.2 (.peerDisconnected peerId)) sys.conns }

/-- After its critical section a sweep sends all notices and mirrors all departures. -/
theorem sweepFinishes_iff (pruned : List PrunedPeer) :
    SweepFinishes setup { sys with pruned } sys' ↔
      sys' = { sys with
        relay := { sys.relay with pex := sys.relay.pex.unregisterAll pruned }
        conns := deliverAll (noticesOf pruned) sys.conns
        pruned := [] } := by
  induction pruned generalizing sys with
  | nil => exact runsUntil_iff_of_done rfl
  | cons entry rest ih =>
    obtain ⟨peerId, networkId, targets⟩ := entry
    refine (sweepFinishes_iff_of_entry peerId networkId targets rest).trans ?_
    refine (@ih { sys with
      relay := { sys.relay with pex := sys.relay.pex.onUnregister peerId networkId }
      conns := deliverAll (toTargets targets (.peerDisconnected peerId)) sys.conns }).trans ?_
    have hnotices : deliverAll (noticesOf ((peerId, networkId, targets) :: rest)) sys.conns =
        deliverAll (noticesOf rest)
          (deliverAll (toTargets targets (.peerDisconnected peerId)) sys.conns) := by
      simp [deliverAll, noticesOf]
    rw [hnotices]
    rfl

/-- The state in which a sweep returns. -/
def System.swept (setup : Setup) (sys : System crates) (now : ℕ) : System crates :=
  let (pruned, relay) := sweepLocked setup sys now
  { sys with
    relay := { relay with pex := sys.relay.pex.unregisterAll pruned }
    conns := deliverAll (noticesOf pruned) sys.conns }

/-- Every sweep returns, in one state. -/
theorem sweepReturns_iff (hidle : sys.pruned = []) :
    SweepReturns setup now sys sys' ↔ sys' = sys.swept setup now := by
  have hlocked : step setup sys (.sweep now) = some
      { sys with relay := (sweepLocked setup sys now).2, pruned := (sweepLocked setup sys now).1 } := by
    simp [step, hidle]
  have hpex : (sweepLocked setup sys now).2.pex = sys.relay.pex := by
    rw [sweepLocked, pruneLocked_frame]
  have hfinishes := @sweepFinishes_iff crates setup { sys with relay := (sweepLocked setup sys now).2 }
    sys' (sweepLocked setup sys now).1
  rw [hpex, ← hidle] at hfinishes
  constructor
  · rintro ⟨locked, hstep, hreturns⟩
    obtain rfl := Option.some.inj (hlocked.symm.trans hstep)
    exact hfinishes.mp hreturns
  · intro hsame
    exact ⟨_, hlocked, hfinishes.mpr hsame⟩

/-- The record is removed between two states. -/
def Removed (sys sys' : System crates) (peerId networkId : String) : Prop :=
  ∃ peer, sys.relay.registry.lookup peerId = some peer ∧ peer.networkId = networkId ∧
    sys'.relay.registry.lookup peerId = none

/-- The departures a record is told of, each once per notice that names the record. -/
def noticesTo (pruned : List PrunedPeer) (id : String) : List String :=
  pruned.flatMap fun entry => List.replicate ((entry.2.2.map Prod.fst).count id) entry.1

/-- The reports name each removed record once, and each record that stays is told of every removed
record on its network once, on its own channel, and of no other. -/
structure ReportsExactly (sys sys' : System crates) (pruned : List PrunedPeer) : Prop where
  nodup : (pruned.map fun entry => (entry.1, entry.2.1)).Nodup
  mem_iff : ∀ peerId networkId,
    (peerId, networkId) ∈ pruned.map (fun entry => (entry.1, entry.2.1)) ↔
      Removed sys sys' peerId networkId
  once : ∀ id peer, sys'.relay.registry.lookup id = some peer → (noticesTo pruned id).Nodup
  told_iff : ∀ id peer, sys'.relay.registry.lookup id = some peer →
    ∀ peerId, peerId ∈ noticesTo pruned id ↔ Removed sys sys' peerId peer.networkId
  addressed : ∀ id peer, sys'.relay.registry.lookup id = some peer →
    ∀ entry ∈ pruned, ∀ tx, (id, tx) ∈ entry.2.2 → tx = peer.tx

/-- The records registered under a channel. -/
def recordsOn (registry : Registry) (c : ConnId) : List String :=
  (registry.toPairs.filter fun record => record.2.tx = c).map Prod.fst

/-- The notices that are sent on a channel, in the order of the departures. -/
def noticesOn (pruned : List PrunedPeer) (c : ConnId) : List RelayMessage :=
  pruned.flatMap fun entry =>
    List.replicate ((entry.2.2.map Prod.snd).count c) (.peerDisconnected entry.1)

/-- A connection with further messages in its queue. -/
def Conn.enqueue (conn : Conn crates) (msgs : List RelayMessage) : Conn crates :=
  { conn with out := { conn.out with queue := conn.out.queue ++ msgs } }

/-- The queues hold what they held before, followed by the notices sent on their channel as far as there
is room; what is sent on a channel are the notices to the records registered under it. -/
structure QueuesExactly (sys sys' : System crates) (pruned : List PrunedPeer) : Prop where
  length : sys'.conns.length = sys.conns.length
  queued : ∀ (c : ConnId) (conn : Conn crates), sys.conns[c]? = some conn → sys'.conns[c]? = some
    (if conn.out.closed then conn
      else conn.enqueue ((noticesOn pruned c).take (conn.out.capacity - conn.out.queue.length)))
  shared : ∀ c, (noticesOn pruned c).Perm ((recordsOn sys.relay.registry c).flatMap fun id =>
    (noticesTo pruned id).map .peerDisconnected)

/-- What a sweep does: it keeps exactly the records with an open channel that are not silent past the
deadline, lowers the counter by the number of the others, sends the notices and tells the exchange of
each departure. So a record that is kept, alone on its channel and with room in its queue, finds there
one notice for each removed record on its network and nothing else that is new, and a connection without
a record is left as it was. -/
structure SweptExactly (deadline now : ℕ) (sys sys' : System crates) : Prop where
  kept : ∀ id peer, sys'.relay.registry.lookup id = some peer ↔
    sys.relay.registry.lookup id = some peer ∧ isClosed sys.conns peer.tx = false ∧
      now - activity sys.conns peer.lastActivity ≤ deadline
  counted : sys'.relay.registry.size ≤ sys.relay.registry.size ∧
    sys'.relay.connected =
      sys.relay.connected - UInt64.ofNat (sys.relay.registry.size - sys'.relay.registry.size)
  reported : ∃ pruned, ReportsExactly sys sys' pruned ∧ QueuesExactly sys sys' pruned ∧
    sys'.relay.pex = sys.relay.pex.unregisterAll pruned
  told : ∀ id peer, sys'.relay.registry.lookup id = some peer →
    recordsOn sys.relay.registry peer.tx = [id] →
    ∃ (conn : Conn crates) (departed : List String), sys.conns[peer.tx]? = some conn ∧ departed.Nodup ∧
      (∀ peerId, peerId ∈ departed ↔ Removed sys sys' peerId peer.networkId) ∧
      (conn.out.queue.length + departed.length ≤ conn.out.capacity →
        sys'.conns[peer.tx]? = some (conn.enqueue (departed.map .peerDisconnected)))
  untold : ∀ c, recordsOn sys.relay.registry c = [] → sys'.conns[c]? = sys.conns[c]?

/-- A record is kept exactly if it was there and is no victim. -/
theorem swept_lookup (setup : Setup) (sys : System crates) (now : ℕ) (id : String) :
    (sys.swept setup now).relay.registry.lookup id =
      if id ∈ victims setup sys now then none else sys.relay.registry.lookup id :=
  sweepLocked_lookup setup sys now id

/-- A record that is kept was there before and is no victim. -/
theorem swept_lookup_eq_some {id : String} {peer : Peer} :
    (sys.swept setup now).relay.registry.lookup id = some peer ↔
      id ∉ victims setup sys now ∧ sys.relay.registry.lookup id = some peer := by
  rw [swept_lookup]
  split
  · rename_i hvictim
    simp [hvictim]
  · rename_i hkept
    simp [hkept]

/-- The removed records are the victims. -/
theorem removed_swept_iff {peerId networkId : String} :
    Removed sys (sys.swept setup now) peerId networkId ↔
      (peerId, networkId) ∈
        (sweepLocked setup sys now).1.map fun entry => (entry.1, entry.2.1) := by
  rw [sweepLocked_pruned, Registry.mem_deadOrStale_iff]
  constructor
  · rintro ⟨peer, hpeer, rfl, hgone⟩
    rw [swept_lookup] at hgone
    split at hgone
    · rename_i hvictim
      obtain ⟨found, hfound, hdead⟩ := mem_victims_iff.mp hvictim
      obtain rfl := Option.some.inj (hpeer.symm.trans hfound)
      exact ⟨peer, hpeer, rfl, hdead⟩
    · cases hpeer.symm.trans hgone
  · rintro ⟨peer, hpeer, rfl, hdead⟩
    refine ⟨peer, hpeer, rfl, ?_⟩
    rw [swept_lookup, if_pos (mem_victims_iff.mpr ⟨peer, hpeer, hdead⟩)]

/-- Reports that name a record at most once each tell it of some of the removed records. -/
theorem noticesTo_sublist {pruned : List PrunedPeer} {id : String}
    (hnodup : ∀ entry ∈ pruned, (entry.2.2.map Prod.fst).Nodup) :
    (noticesTo pruned id).Sublist (pruned.map Prod.fst) := by
  induction pruned with
  | nil => exact List.Sublist.refl _
  | cons entry rest ih =>
    have hrest := ih fun later hlater => hnodup later (List.mem_cons_of_mem _ hlater)
    have honce := List.nodup_iff_count_le_one.mp (hnodup entry List.mem_cons_self) id
    have hfirst : (List.replicate ((entry.2.2.map Prod.fst).count id) entry.1).Sublist [entry.1] :=
      (List.replicate_sublist_replicate entry.1).mpr honce
    exact hfirst.append hrest

/-- A record is told of the departures whose notices name it. -/
theorem mem_noticesTo {pruned : List PrunedPeer} {id peerId : String} :
    peerId ∈ noticesTo pruned id ↔
      ∃ entry ∈ pruned, entry.1 = peerId ∧ id ∈ entry.2.2.map Prod.fst := by
  simp only [noticesTo, List.mem_flatMap, List.mem_replicate, ne_eq, List.count_eq_zero, not_not,
    and_comm, @eq_comm _ peerId]

/-- The reports of a sweep are exact. -/
theorem reportsExactly_swept (setup : Setup) (sys : System crates) (now : ℕ) :
    ReportsExactly sys (sys.swept setup now) (sweepLocked setup sys now).1 where
  nodup := by
    rw [sweepLocked_pruned]
    exact (deadOrStale_nodup _ _ _ _ _).of_map _
  mem_iff peerId networkId := removed_swept_iff.symm
  once id peer hkept := by
    obtain ⟨hstays, hpeer⟩ := swept_lookup_eq_some.mp hkept
    have hids : ((sweepLocked setup sys now).1.map Prod.fst).Nodup := by
      rw [sweepLocked_ids]
      exact deadOrStale_nodup _ _ _ _ _
    exact hids.sublist (noticesTo_sublist fun entry hentry => (sweepLocked_names hentry hstays hpeer).1)
  told_iff id peer hkept peerId := by
    obtain ⟨hstays, hpeer⟩ := swept_lookup_eq_some.mp hkept
    rw [mem_noticesTo, removed_swept_iff, List.mem_map]
    apply exists_congr
    rintro ⟨removedId, networkId, targets⟩
    apply and_congr_right
    intro hentry
    obtain ⟨-, hnames⟩ := sweepLocked_names hentry hstays hpeer
    simp only [List.mem_map, Prod.exists, exists_and_right, exists_eq_right, hnames, Prod.mk.injEq,
      and_congr_right_iff]
    intro _
    simp [eq_comm]
  addressed id peer hkept entry hentry tx htarget := by
    obtain ⟨hstays, hpeer⟩ := swept_lookup_eq_some.mp hkept
    obtain ⟨-, hnames⟩ := sweepLocked_names hentry hstays hpeer
    exact ((hnames tx).mp htarget).2.symm

/-- A record is on a channel exactly when it is registered under it. -/
theorem mem_recordsOn {registry : Registry} {c : ConnId} {id : String} :
    id ∈ recordsOn registry c ↔ ∃ peer, registry.lookup id = some peer ∧ peer.tx = c := by
  simp only [recordsOn, List.mem_map, List.mem_filter, Prod.exists, Table.mem_toPairs_iff,
    decide_eq_true_eq, exists_and_right, exists_eq_right]

/-- No record is on a channel twice. -/
theorem nodup_recordsOn (registry : Registry) (c : ConnId) : (recordsOn registry c).Nodup :=
  registry.toPairs_keys_nodup.sublist (List.filter_sublist.map Prod.fst)

/-- Notices that name registered records go to a channel as often as they name the records on it. -/
theorem count_channel {registry : Registry} {targets : List (String × ConnId)} (c : ConnId)
    (h : ∀ target ∈ targets, ∃ peer, registry.lookup target.1 = some peer ∧ peer.tx = target.2) :
    (targets.map Prod.snd).count c =
      ((recordsOn registry c).map fun id => (targets.map Prod.fst).count id).sum := by
  induction targets with
  | nil => simp
  | cons target rest ih =>
    obtain ⟨peer, hpeer, htx⟩ := h target List.mem_cons_self
    have hrest := ih fun other hother => h other (List.mem_cons_of_mem _ hother)
    have hnamed : target.1 ∈ recordsOn registry c ↔ target.2 = c := by
      rw [mem_recordsOn, ← htx]
      constructor
      · rintro ⟨found, hfound, rfl⟩
        rw [Option.some.inj (hpeer.symm.trans hfound)]
      · intro hc
        exact ⟨peer, hpeer, hc⟩
    have hone : ((recordsOn registry c).map fun id => if target.1 = id then 1 else 0).sum =
        if target.2 = c then 1 else 0 := by
      have hcount := (nodup_recordsOn registry c).count (a := target.1)
      simp only [hnamed] at hcount
      rw [← hcount]
      generalize recordsOn registry c = ids
      induction ids with
      | nil => rfl
      | cons id ids ih =>
        rw [List.map_cons, List.sum_cons, ih, Nat.add_comm]
        by_cases hid : target.1 = id
        · rw [if_pos hid, hid, List.count_cons_self]
        · rw [if_neg hid, List.count_cons_of_ne (Ne.symm hid), Nat.add_zero]
    simp only [List.map_cons, List.count_cons, beq_iff_eq, List.sum_map_add, hrest, hone]

/-- The notices on a channel are those to the records on it. -/
theorem noticesOn_perm {registry : Registry} {pruned : List PrunedPeer} (c : ConnId)
    (h : ∀ entry ∈ pruned, ∀ target ∈ entry.2.2,
      ∃ peer, registry.lookup target.1 = some peer ∧ peer.tx = target.2) :
    (noticesOn pruned c).Perm ((recordsOn registry c).flatMap fun id =>
      (noticesTo pruned id).map .peerDisconnected) := by
  induction pruned with
  | nil => simp [noticesOn, noticesTo]
  | cons entry rest ih =>
    have hrest := ih fun later hlater => h later (List.mem_cons_of_mem _ hlater)
    have hfirst : List.replicate ((entry.2.2.map Prod.snd).count c) (RelayMessage.peerDisconnected entry.1) =
        (recordsOn registry c).flatMap fun id =>
          List.replicate ((entry.2.2.map Prod.fst).count id) (RelayMessage.peerDisconnected entry.1) := by
      rw [count_channel c (h entry List.mem_cons_self)]
      generalize recordsOn registry c = ids
      induction ids with
      | nil => rfl
      | cons id ids ih => rw [List.map_cons, List.sum_cons, List.replicate_add, ih, List.flatMap_cons]
    have hsplit := List.flatMap_append_perm (recordsOn registry c)
      (fun id => List.replicate ((entry.2.2.map Prod.fst).count id) (RelayMessage.peerDisconnected entry.1))
      (fun id => (noticesTo rest id).map RelayMessage.peerDisconnected)
    simp only [noticesOn, noticesTo, List.flatMap_cons, List.map_append, List.map_replicate]
    rw [hfirst]
    exact (hrest.append_left _).trans hsplit

/-- Sends reach the queue of their channel in order. -/
theorem deliverAll_relay (sends : List (ConnId × RelayMessage)) (conns : List (Conn crates)) (c : ConnId) :
    (deliverAll (sends.map fun send => .relay send.1 send.2) conns)[c]? = conns[c]?.map fun conn =>
      { conn with out := conn.out.sendAll ((sends.filter fun send => send.1 = c).map Prod.snd) } := by
  induction sends generalizing conns with
  | nil => simp [deliverAll, Channel.sendAll]
  | cons send rest ih =>
    have hrest := ih (deliver (.relay send.1 send.2) conns)
    rw [deliverAll, List.map_cons, List.foldl_cons]
    refine hrest.trans ?_
    rw [deliver, List.getElem?_modify, Option.map_eq_map, Option.map_map]
    congr 1
    funext conn
    by_cases hc : send.1 = c
    · simp [hc, Channel.sendAll]
    · simp [hc]

/-- The notices of removed records, with the channel each goes to. -/
def addressedNotices (pruned : List PrunedPeer) : List (ConnId × RelayMessage) :=
  pruned.flatMap fun entry => entry.2.2.map fun target => (target.2, .peerDisconnected entry.1)

/-- The notices are sent to the channels they are addressed to. -/
theorem noticesOf_eq (pruned : List PrunedPeer) :
    (noticesOf pruned : List (Send crates)) =
      (addressedNotices pruned).map fun send => .relay send.1 send.2 := by
  simp only [noticesOf, addressedNotices, toTargets, List.map_flatMap, List.map_map, Function.comp_def]

/-- What is addressed to a channel are the notices on it. -/
theorem filter_addressedNotices (pruned : List PrunedPeer) (c : ConnId) :
    ((addressedNotices pruned).filter fun send => send.1 = c).map Prod.snd = noticesOn pruned c := by
  have hentry (targets : List (String × ConnId)) (msg : RelayMessage) :
      (((targets.map fun target => (target.2, msg)).filter fun send => send.1 = c).map Prod.snd) =
        List.replicate ((targets.map Prod.snd).count c) msg := by
    induction targets with
    | nil => rfl
    | cons target rest ih =>
      by_cases hc : target.2 = c
      · simp [hc, List.replicate_succ, ih]
      · simp [hc, ih]
  simp only [addressedNotices, noticesOn, List.filter_flatMap, List.map_flatMap, hentry]

/-- The queues after a sweep are exact. -/
theorem queuesExactly_swept (setup : Setup) (sys : System crates) (now : ℕ) :
    QueuesExactly sys (sys.swept setup now) (sweepLocked setup sys now).1 where
  length := by
    rw [System.swept]
    dsimp only
    rw [← List.length_map Conn.task, deliverAll_map Conn.task (fun _ _ => rfl) (fun _ _ => rfl),
      List.length_map]
  queued c conn hconn := by
    rw [System.swept]
    dsimp only
    rw [noticesOf_eq, deliverAll_relay, filter_addressedNotices, hconn, Option.map_some]
    cases hclosed : conn.out.closed with
    | true => rw [Channel.sendAll_of_closed hclosed, if_pos rfl]
    | false =>
      rw [Channel.sendAll_of_open hclosed, if_neg Bool.false_ne_true]
      rfl
  shared c := noticesOn_perm c fun _ hentry _ htarget => sweepLocked_target hentry htarget

/-- A kept record that is alone on its channel finds one notice for each departure in its queue. -/
theorem told_of_exactly {pruned : List PrunedPeer} (hreports : ReportsExactly sys sys' pruned)
    (hqueues : QueuesExactly sys sys' pruned) {id : String} {peer : Peer}
    (hkept : sys'.relay.registry.lookup id = some peer) (hopen : isClosed sys.conns peer.tx = false)
    (halone : recordsOn sys.relay.registry peer.tx = [id]) :
    ∃ (conn : Conn crates) (departed : List String), sys.conns[peer.tx]? = some conn ∧ departed.Nodup ∧
      (∀ peerId, peerId ∈ departed ↔ Removed sys sys' peerId peer.networkId) ∧
      (conn.out.queue.length + departed.length ≤ conn.out.capacity →
        sys'.conns[peer.tx]? = some (conn.enqueue (departed.map .peerDisconnected))) := by
  obtain ⟨conn, hconn, hreceiver⟩ : ∃ conn, sys.conns[peer.tx]? = some conn ∧ conn.out.closed = false := by
    rw [isClosed] at hopen
    cases hconn : sys.conns[peer.tx]? with
    | none =>
      rw [hconn] at hopen
      cases hopen
    | some conn =>
      rw [hconn] at hopen
      exact ⟨conn, rfl, hopen⟩
  have hshared := hqueues.shared peer.tx
  rw [halone, List.flatMap_singleton] at hshared
  obtain ⟨departed, hdeparted, hperm⟩ : ∃ departed : List String,
      noticesOn pruned peer.tx = departed.map RelayMessage.peerDisconnected ∧
        departed.Perm (noticesTo pruned id) := by
    refine ⟨pruned.flatMap fun entry =>
      List.replicate ((entry.2.2.map Prod.snd).count peer.tx) entry.1, ?_, ?_⟩
    · simp only [noticesOn, List.map_flatMap, List.map_replicate]
    · refine (List.map_perm_map_iff (fun _ _ h => RelayMessage.peerDisconnected.inj h)).mp ?_
      simpa only [noticesOn, List.map_flatMap, List.map_replicate] using hshared
  refine ⟨conn, departed, hconn, ?_, fun peerId => ?_, fun hroom => ?_⟩
  · exact hperm.nodup_iff.mpr (hreports.once id peer hkept)
  · rw [hperm.mem_iff]
    exact hreports.told_iff id peer hkept peerId
  · rw [hqueues.queued peer.tx conn hconn, hreceiver, if_neg Bool.false_ne_true, hdeparted,
      List.take_of_length_le]
    rw [List.length_map]
    omega

/-- A connection without a record is left as it was. -/
theorem untold_of_exactly {pruned : List PrunedPeer} (hqueues : QueuesExactly sys sys' pruned) {c : ConnId}
    (hnone : recordsOn sys.relay.registry c = []) : sys'.conns[c]? = sys.conns[c]? := by
  have hshared := hqueues.shared c
  rw [hnone, List.flatMap_nil] at hshared
  cases hconn : sys.conns[c]? with
  | none =>
    rw [List.getElem?_eq_none_iff] at hconn ⊢
    rwa [hqueues.length]
  | some conn =>
    rw [hqueues.queued c conn hconn, hshared.eq_nil]
    split
    · rfl
    · simp [Conn.enqueue]

/-- A sweep is exact, with its deadline in whole seconds. -/
theorem sweptExactly_swept (setup : Setup) (sys : System crates) (now : ℕ) :
    SweptExactly setup.config.livenessDeadline.asSecs now sys (sys.swept setup now) where
  kept id peer := by
    rw [swept_lookup_eq_some, mem_victims_iff]
    constructor
    · rintro ⟨hstays, hpeer⟩
      have hlive := not_or.mp fun hdead => hstays ⟨peer, hpeer, hdead⟩
      exact ⟨hpeer, Bool.eq_false_iff.mpr hlive.1, not_lt.mp hlive.2⟩
    · rintro ⟨hpeer, hopen, hheard⟩
      refine ⟨?_, hpeer⟩
      rintro ⟨found, hfound, hclosed | hsilent⟩
      · obtain rfl := Option.some.inj (hpeer.symm.trans hfound)
        rw [hopen] at hclosed
        cases hclosed
      · obtain rfl := Option.some.inj (hpeer.symm.trans hfound)
        omega
  counted := by
    obtain ⟨hsizes, hconnected⟩ := pruneLocked_count
      (sys.relay.registry.deadOrStale (isClosed sys.conns) (activity sys.conns) now
        setup.config.livenessDeadline.asSecs) sys.relay
    have hsize : sys.relay.registry.size - (sys.swept setup now).relay.registry.size =
        (sweepLocked setup sys now).1.length := Nat.sub_eq_of_eq_add' hsizes.symm
    exact ⟨Nat.le.intro hsizes, hsize ▸ hconnected⟩
  reported := ⟨_, reportsExactly_swept setup sys now, queuesExactly_swept setup sys now, rfl⟩
  told id peer hkept := by
    obtain ⟨hstays, hpeer⟩ := swept_lookup_eq_some.mp hkept
    have hopen : isClosed sys.conns peer.tx = false := by
      rw [Bool.eq_false_iff]
      exact fun hclosed => hstays (mem_victims_iff.mpr ⟨peer, hpeer, .inl hclosed⟩)
    exact told_of_exactly (reportsExactly_swept setup sys now) (queuesExactly_swept setup sys now) hkept hopen
  untold _ hnone := untold_of_exactly (queuesExactly_swept setup sys now) hnone

/-- Every sweep returns, and with a deadline of whole seconds it is exact. Moreover, when the stamps
and the time of the sweep are read off one clock in whole seconds, a record with an open channel is
removed only if it has been silent for longer than the deadline. -/
theorem sweep_exact (setup : Setup) (now : ℕ) {secs : ℕ}
    (hwhole : setup.config.livenessDeadline = Duration.fromSecs secs) (hidle : sys.pruned = []) :
    (∃ sys', SweepReturns setup now sys sys') ∧
      ∀ sys', SweepReturns setup now sys sys' →
        SweptExactly secs now sys sys' ∧
          ∀ (start stampedAt nowAt : Duration) (id : String) (peer : Peer),
            now = livenessNowSecs start nowAt → sys.relay.registry.lookup id = some peer →
            isClosed sys.conns peer.tx = false →
            activity sys.conns peer.lastActivity = livenessNowSecs start stampedAt →
            sys'.relay.registry.lookup id = none → Duration.fromSecs secs < nowAt - stampedAt := by
  refine ⟨⟨_, (sweepReturns_iff hidle).mpr rfl⟩, fun sys' hreturns => ?_⟩
  rw [(sweepReturns_iff hidle).mp hreturns]
  have hsecs : setup.config.livenessDeadline.asSecs = secs := by
    rw [hwhole, Duration.fromSecs, Duration.asSecs, Nat.mul_div_cancel _ (by decide)]
  constructor
  · rw [← hsecs]
    exact sweptExactly_swept setup sys now
  · intro start stampedAt nowAt id peer hnow hpeer hopen hstamp hgone
    have hvictim : id ∈ victims setup sys now := by
      by_contra hstays
      cases (swept_lookup_eq_some.mpr ⟨hstays, hpeer⟩).symm.trans hgone
    have hsilent := silent_of_victim hvictim hpeer hopen
    rw [hnow, hstamp, hwhole] at hsilent
    by_contra hheard
    have hwithin : nowAt ≤ stampedAt + Duration.fromSecs secs :=
      Nat.sub_le_iff_le_add'.mp (not_lt.mp hheard)
    exact absurd (livenessNowSecs_sub_le (Nat.dvd_mul_left _ _) hwithin) (not_le.mpr hsilent)

/-- Of two peers on a network one has gone: the sweep keeps the other and tells it once. -/
theorem sweep_exact_one_gone :
    let peer (peerId : String) (c : ConnId) : Peer :=
      registrant silentCrates ⟨peerId, "net", 1, []⟩ sampleAddr 0 c
    let sys : System silentCrates :=
      { System.new silentCrates with
        relay := { Relay.new silentCrates with
          registry := ((∅ : Registry).insert "a" (peer "a" 0)).insert "b" (peer "b" 1)
          connected := 2 }
        conns := [(Conn.accepted {} sampleAddr none).closeChannels, Conn.accepted {} sampleAddr none] }
    ∃ sys', SweepReturns standardSetup 5 sys sys' ∧ SweptExactly 90 5 sys sys' ∧
      sys'.relay.registry.lookup "b" = some (peer "b" 1) ∧
      sys'.conns[1]?.map (fun conn => conn.out.queue) = some [.peerDisconnected "a"] := by
  intro peer sys
  obtain ⟨⟨sys', hreturns⟩, hexact⟩ := @sweep_exact silentCrates sys standardSetup 5 90 rfl rfl
  obtain ⟨hswept, -⟩ := hexact sys' hreturns
  have hlookup (id : String) : sys.relay.registry.lookup id =
      if id = "b" then some (peer "b" 1) else if id = "a" then some (peer "a" 0) else none := by
    rw [show sys.relay.registry = ((∅ : Registry).insert "a" (peer "a" 0)).insert "b" (peer "b" 1) from rfl,
      Table.lookup_insert_eq, Table.lookup_insert_eq]
    rfl
  have hkept : sys'.relay.registry.lookup "b" = some (peer "b" 1) :=
    (hswept.kept "b" (peer "b" 1)).mpr ⟨hlookup "b", rfl, by decide⟩
  have hremoved (id : String) : Removed sys sys' id "net" ↔ id = "a" := by
    constructor
    · rintro ⟨found, hfound, -, hgone⟩
      rw [hlookup] at hfound
      split at hfound
      · rename_i hb
        rw [hb, hkept] at hgone
        cases hgone
      · split at hfound
        · assumption
        · cases hfound
    · rintro rfl
      refine ⟨peer "a" 0, hlookup "a", rfl, ?_⟩
      cases hlater : sys'.relay.registry.lookup "a" with
      | none => rfl
      | some found =>
        obtain ⟨hfound, hopen, -⟩ := (hswept.kept "a" found).mp hlater
        obtain rfl := Option.some.inj ((hlookup "a").symm.trans hfound)
        cases hopen
  obtain ⟨conn, departed, hconn, hnodup, hdeparted, hqueue⟩ := hswept.told "b" (peer "b" 1) hkept (by decide)
  obtain rfl : Conn.accepted {} sampleAddr none = conn := Option.some.inj hconn
  have hone : departed = ["a"] := by
    refine List.perm_singleton.mp ((List.perm_ext_iff_of_nodup hnodup (List.nodup_singleton _)).mpr fun id => ?_)
    rw [hdeparted, List.mem_singleton]
    exact hremoved id
  refine ⟨sys', hreturns, hswept, hkept, ?_⟩
  rw [hone] at hqueue
  exact congrArg (Option.map fun conn => conn.out.queue) (hqueue (by decide))

end DigRelay
