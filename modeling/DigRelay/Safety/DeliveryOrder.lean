import DigRelay.Server.Delivery
import DigRelay.Server.Script

/-!
# In what order messages arrive

What a connection's socket is sent are messages that some task has queued for it. Messages of one task
arrive in the order in which the task has queued them; none arrives twice, and none is made up. A
message that the channel has let in is written, unless it still waits or a write to the socket fails.
-/

namespace DigRelay

open Common

variable {crates : Crates} {setup : Setup} {sys : System crates} {c : ConnId}
  {trace : List (System crates × Label crates × System crates)}

/-- Parts of the steps make up parts of the whole. -/
theorem flatMap_sublist {A B : Type*} {f g : A → List B} (items : List A)
    (h : ∀ item ∈ items, (f item).Sublist (g item)) : (items.flatMap f).Sublist (items.flatMap g) := by
  induction items with
  | nil => exact List.Sublist.refl _
  | cons item items ih =>
    obtain ⟨hitem, hitems⟩ := List.forall_mem_cons.mp h
    rw [List.flatMap_cons, List.flatMap_cons]
    exact hitem.append (ih hitems)

/-- The messages that the transitions of a run offer to the connection. -/
theorem offered_pipeEvents (c : ConnId) (t : System crates × Label crates × System crates) :
    (Channel.offered (pipeEvents c t)).Sublist (offers c t) := by
  unfold pipeEvents
  split
  · have hwriter : Channel.offered (t.2.1.writerEvents c) = [] := by
      unfold Label.writerEvents
      split <;> first | rfl | (split <;> first | rfl | (split <;> rfl))
    rw [Channel.offered, List.filterMap_append, ← Channel.offered, ← Channel.offered, hwriter,
      Channel.offered_map_offer, List.append_nil]
  · exact List.nil_sublist _

/-- What one origin offers are sends it performs. -/
theorem offers_of_origin (origin : Origin) (c : ConnId) (t : System crates × Label crates × System crates) :
    (((offers c t).filter (·.1 = origin)).map Prod.snd).Sublist
      ((performedBy origin t).filterMap (Send.relayTo c)) := by
  unfold offers
  cases t.2.1.origin with
  | none => exact List.nil_sublist _
  | some other =>
    rw [Option.toList_some, List.flatMap_singleton, List.filter_map]
    by_cases hother : other = origin
    · subst hother
      simp [Function.comp_def]
    · simp [Function.comp_def, hother]

/-- The messages of one origin among those let into a connection's channel are sends of that origin. -/
theorem sublist_of_admitted (origin : Origin) {sent : List (Origin × RelayMessage)}
    (h : sent.Sublist ((Channel.empty setup.config.outboundQueueCapacity).admitted
      (trace.flatMap (pipeEvents c)))) :
    ((sent.filter (·.1 = origin)).map Prod.snd).Sublist
      ((trace.flatMap (performedBy origin)).filterMap (Send.relayTo c)) := by
  have hoffered : Channel.offered (trace.flatMap (pipeEvents c)) =
      trace.flatMap fun t => Channel.offered (pipeEvents c t) := by
    rw [Channel.offered, List.filterMap_flatMap]
    rfl
  have hall := h.trans (Channel.admitted_sublist_offered _ _)
  rw [hoffered] at hall
  have hoffers := hall.trans (flatMap_sublist trace fun t _ => offered_pipeEvents c t)
  have hmine := (hoffers.filter (·.1 = origin)).map Prod.snd
  rw [List.filter_flatMap, List.map_flatMap] at hmine
  rw [List.filterMap_flatMap]
  exact hmine.trans (flatMap_sublist trace fun t _ => offers_of_origin origin c t)

/-- Along every run, what is written to a connection's socket are messages that tasks have queued for
it, those of each task in the order of that task, and requests that the DHT sweep has made of it. -/
theorem run_written_in_order (hrun : Run setup trace sys) (c : ConnId) :
    ∃ sent : List (Origin × RelayMessage), sent.map Prod.snd = trace.flatMap (written c) ∧
      (∀ d, ((sent.filter (·.1 = .task d)).map Prod.snd).Sublist
        ((trace.flatMap (queued d)).filterMap (Send.relayTo c))) ∧
      ((sent.filter (·.1 = .sweep)).map Prod.snd).Sublist
        ((trace.flatMap queuedNotices).filterMap (Send.relayTo c)) ∧
      ((sent.filter (·.1 = .dht)).map Prod.snd).Sublist
        ((trace.flatMap performedAsks).filterMap (Send.relayTo c)) ∧
      ∀ msg, (.dht, msg) ∈ sent → msg = .getDhtRecords dhtMaxKeysPerPeer := by
  have hfirst := Channel.taken_prefix_admitted setup.config.outboundQueueCapacity
    (trace.flatMap (pipeEvents c))
  have hasks := sublist_of_admitted .dht hfirst.sublist
  refine ⟨_, (run_written hrun c).symm, fun d => ?_, ?_, hasks, fun msg hmsg => ?_⟩
  · have hperformed : (trace.flatMap (performed d)).Sublist (trace.flatMap (queued d)) := by
      rw [← run_performed hrun d]
      exact List.sublist_append_left _ _
    exact (sublist_of_admitted (.task d) hfirst.sublist).trans (hperformed.filterMap _)
  · have hperformed : (trace.flatMap performedNotices).Sublist (trace.flatMap queuedNotices) := by
      rw [← run_performedNotices hrun]
      exact List.sublist_append_left _ _
    exact (sublist_of_admitted .sweep hfirst.sublist).trans (hperformed.filterMap _)
  · have hmem := hasks.subset (List.mem_map_of_mem (List.mem_filter.mpr ⟨hmsg, by simp⟩))
    obtain ⟨send, hsend, hto⟩ := List.mem_filterMap.mp hmem
    obtain ⟨t, -, hask⟩ := List.mem_flatMap.mp hsend
    simp only [performedBy, performedAsks] at hask
    split at hask
    · rw [List.mem_singleton.mp hask, Send.relayTo] at hto
      split at hto
      · exact (Option.some.inj hto).symm
      · cases hto
    · cases hask

/-- The acknowledgement and two messages of another peer arrive in order. -/
theorem run_written_in_order_two :
    ∃ trace sys, @Run silentCrates standardSetup trace sys ∧
      trace.flatMap (written 1) = [.registerAck true "registered" 2,
        .relayGossipMessage "p" "q" [1] 1, .relayGossipMessage "p" "q" [2] 2] ∧
      ∃ sent : List (Origin × RelayMessage), sent.map Prod.snd = trace.flatMap (written 1) ∧
        (∀ d, ((sent.filter (·.1 = .task d)).map Prod.snd).Sublist
          ((trace.flatMap (queued d)).filterMap (Send.relayTo 1))) ∧
        ((sent.filter (·.1 = .sweep)).map Prod.snd).Sublist
          ((trace.flatMap queuedNotices).filterMap (Send.relayTo 1)) ∧
        ((sent.filter (·.1 = .dht)).map Prod.snd).Sublist
          ((trace.flatMap performedAsks).filterMap (Send.relayTo 1)) ∧
        ∀ msg, (.dht, msg) ∈ sent → msg = .getDhtRecords dhtMaxKeysPerPeer := by
  obtain ⟨trace, sys, hrun, hwritten⟩ := @exists_traced_run silentCrates standardSetup
    (twoMessages ++ List.replicate 3 (.writeRelay 1 true))
    (fun trace _ => trace.flatMap (written 1) = [.registerAck true "registered" 2,
      .relayGossipMessage "p" "q" [1] 1, .relayGossipMessage "p" "q" [2] 2]) (by decide +kernel)
  exact ⟨trace, sys, hrun, of_decide_eq_true hwritten, run_written_in_order hrun 1⟩

/-- The messages of a transition that the connection's channel has room for. -/
def admittedOffers (c : ConnId) (t : System crates × Label crates × System crates) : List RelayMessage :=
  ((t.1.channel c).map fun out => if out.HasRoom then (offers c t).map Prod.snd else []).getD []

/-- The messages that wait on a connection's channel. -/
def System.waiting (sys : System crates) (c : ConnId) : List RelayMessage :=
  ((sys.channel c).map Channel.queue).getD []

/-- A transition makes at most one offer. -/
theorem length_offers_le (c : ConnId) (t : System crates × Label crates × System crates) :
    (offers c t).length ≤ 1 := by
  have hone (origin : Origin) : (performedBy origin t).length ≤ 1 := by
    cases origin with
    | task d =>
      simp only [performedBy, performed]
      split
      · split
        · exact List.length_take_le _ _
        · exact Nat.zero_le _
      · exact Nat.zero_le _
    | sweep =>
      simp only [performedBy, performedNotices]
      split <;> simp
    | dht =>
      simp only [performedBy, performedAsks]
      split <;> simp
  unfold offers
  cases t.2.1.origin with
  | none => exact Nat.zero_le _
  | some origin =>
    rw [Option.toList_some, List.flatMap_singleton, List.length_map]
    exact (List.length_filterMap_le _ _).trans (hone origin)

/-- What the channel lets in are the offers it has room for. -/
theorem admitted_pipeEvents {label : Label crates} {sys' : System crates}
    {pipe : Channel (Origin × RelayMessage)} (hchannel : sys.channel c = some (pipe.map Prod.snd)) :
    (pipe.admitted (pipeEvents c (sys, label, sys'))).map Prod.snd =
      admittedOffers c (sys, label, sys') := by
  have hconn : sys.conns[c]?.isSome = true := by
    rw [← Option.isSome_map, ← System.channel, hchannel]
    rfl
  have hevents : pipeEvents c (sys, label, sys') =
      (offers c (sys, label, sys')).map .offer ++ label.writerEvents c := if_pos hconn
  have hwriter (channel : Channel (Origin × RelayMessage)) :
      channel.admitted (label.writerEvents c) = [] := by
    unfold Label.writerEvents
    split <;> first | rfl | (split <;> first | rfl | (split <;> rfl))
  have hroom : (pipe.map Prod.snd).HasRoom ↔ pipe.HasRoom := by simp [Channel.HasRoom, Channel.map]
  have hadmitted : pipe.admitted (pipeEvents c (sys, label, sys')) =
      pipe.admitted ((offers c (sys, label, sys')).map .offer) := by
    rw [hevents, Channel.admitted, Channel.collect_append, ← Channel.admitted, hwriter, List.append_nil]
  rw [hadmitted, admittedOffers, hchannel, Option.map_some, Option.getD_some]
  have hlength := length_offers_le c (sys, label, sys')
  cases hoffers : offers c (sys, label, sys') with
  | nil => simp [Channel.admitted, Channel.collect]
  | cons message rest =>
    rw [hoffers, List.length_cons] at hlength
    obtain rfl : rest = [] := List.eq_nil_of_length_eq_zero (by omega)
    by_cases hfull : pipe.HasRoom <;>
      simp [Channel.admitted, Channel.collect, Channel.admittedBy, hroom, hfull]

/-- A write to the connection's socket fails. -/
def Label.failsWrite (c : ConnId) : Label crates → Bool
  | .writeRelay d ok => d = c && !ok
  | .writePex d ok => d = c && !ok
  | _ => false

/-- Only a failed write loses what waits on the channel: a writer that ends because all senders are gone
has written everything. -/
theorem lost_pipeEvents {label : Label crates} {sys' : System crates}
    {pipe : Channel (Origin × RelayMessage)} (hchannel : sys.channel c = some (pipe.map Prod.snd))
    (hwrites : label.failsWrite c = false) (h : Next setup sys label sys') :
    pipe.lost (pipeEvents c (sys, label, sys')) = [] := by
  obtain ⟨conn, hconn, hout⟩ := Option.map_eq_some_iff.mp hchannel
  have hevents : pipeEvents c (sys, label, sys') =
      (offers c (sys, label, sys')).map .offer ++ label.writerEvents c := if_pos (by rw [hconn]; rfl)
  have hoffers : pipe.lost ((offers c (sys, label, sys')).map .offer) = [] := pipe.lost_offers _
  rw [hevents, Channel.lost, Channel.collect_append, ← Channel.lost, hoffers, List.nil_append]
  cases label with
  | writeRelay d ok =>
    by_cases hd : d = c
    · obtain rfl : ok = true := by simpa [Label.failsWrite, hd] using hwrites
      simp [Label.writerEvents, hd, Channel.lostBy]
    · simp [Label.writerEvents, hd]
  | writePex d ok =>
    have hkept : ¬(d = c ∧ ok = false) := by
      rintro ⟨rfl, rfl⟩
      simp [Label.failsWrite] at hwrites
    simp [Label.writerEvents, hkept]
  | writerDone d =>
    by_cases hd : d = c
    · subst hd
      have hgone : sendersGone sys d conn = true := by
        cases h with
        | step h =>
          simp only [step, hconn, Option.bind_some] at h
          split at h
          · assumption
          · cases h
      have hempty : conn.out.queue = [] := by
        unfold sendersGone at hgone
        simp only [Bool.and_eq_true, List.isEmpty_iff] at hgone
        exact hgone.1.1.1.1.2
      have hqueue : pipe.queue = [] := by
        rw [hout] at hempty
        exact List.map_eq_nil_iff.mp hempty
      have hnone : offers d (sys, .writerDone d, sys') = [] := rfl
      rw [hnone]
      simp [Label.writerEvents, Channel.lostBy, Channel.actAll, hqueue]
    · simp [Label.writerEvents, hd]
  | _ => rfl

/-- Along a run in which no write fails, nothing that the channel has let in is lost. -/
theorem run_lost (hrun : Run setup trace sys) (hwrites : ∀ t ∈ trace, t.2.1.failsWrite c = false) :
    (Channel.empty setup.config.outboundQueueCapacity).lost (trace.flatMap (pipeEvents c)) = [] := by
  induction hrun with
  | nil => rfl
  | @snoc trace sys label sys' hrun hnext ih =>
    have hearlier := ih fun t ht => hwrites t (List.mem_append_left _ ht)
    have hlast := hwrites _ (List.mem_append_right _ (List.mem_singleton_self _))
    rw [List.flatMap_append, List.flatMap_singleton, Channel.lost, Channel.collect_append,
      ← Channel.lost, hearlier, List.nil_append]
    rcases run_channel hrun c with ⟨hchannel, -⟩ | hchannel
    · have hconn : sys.conns[c]? = none := Option.map_eq_none_iff.mp hchannel
      have hno : pipeEvents c (sys, label, sys') = [] := by simp [pipeEvents, hconn]
      rw [hno, Channel.lost_nil]
    · exact lost_pipeEvents hchannel hlast hnext

/-- Along every run, what a connection's channel has let in is written to its socket in order, or still
waits there, or was lost because a write failed. -/
theorem run_written_accounts (hrun : Run setup trace sys) (c : ConnId) :
    ∃ lost, trace.flatMap (written c) ++ lost ++ sys.waiting c = trace.flatMap (admittedOffers c) ∧
      (lost = [] ∨ ∃ t ∈ trace, t.2.1.failsWrite c = true) := by
  have hadmitted := run_collect Channel.admittedBy Prod.snd (admittedOffers c)
    (fun t ht => by simp [admittedOffers, ht]) (fun _ _ _ _ _ hchannel => admitted_pipeEvents hchannel) hrun
  have hbalance := congrArg (List.map Prod.snd) (Channel.taken_lost_queue
    (Channel.empty setup.config.outboundQueueCapacity) (trace.flatMap (pipeEvents c)))
  have hwaiting : sys.waiting c = (pipe setup c trace).queue.map Prod.snd := by
    rcases run_channel hrun c with ⟨hnone, hevents⟩ | hsome
    · rw [System.waiting, hnone, pipe, hevents]
      rfl
    · rw [System.waiting, hsome]
      rfl
  rw [List.map_append, List.map_append] at hbalance
  refine ⟨((Channel.empty setup.config.outboundQueueCapacity).lost (trace.flatMap (pipeEvents c))).map
    Prod.snd, ?_, ?_⟩
  · rw [run_written hrun c, hwaiting, hadmitted]
    exact hbalance
  · by_cases hfails : ∃ t ∈ trace, t.2.1.failsWrite c = true
    · exact Or.inr hfails
    · left
      rw [run_lost hrun fun t ht => by simpa using fun h => hfails ⟨t, ht, h⟩]
      rfl

/-- Of three messages that were let in, two are written and one still waits. -/
theorem run_written_accounts_two :
    ∃ trace sys, @Run silentCrates standardSetup trace sys ∧ (sys.waiting 1).length = 1 ∧
      ∃ lost, trace.flatMap (written 1) ++ lost ++ sys.waiting 1 = trace.flatMap (admittedOffers 1) ∧
        (lost = [] ∨ ∃ t ∈ trace, t.2.1.failsWrite 1 = true) := by
  obtain ⟨trace, sys, hrun, hwaiting⟩ := @exists_traced_run silentCrates standardSetup
    (twoMessages ++ List.replicate 2 (.writeRelay 1 true)) (fun _ sys => (sys.waiting 1).length = 1)
    (by decide +kernel)
  exact ⟨trace, sys, hrun, of_decide_eq_true hwaiting, run_written_accounts hrun 1⟩

end DigRelay
