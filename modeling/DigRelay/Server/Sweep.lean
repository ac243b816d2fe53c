import DigRelay.Server.Run

/-!
# What a health sweep removes

The critical section of a sweep removes its victims one by one and looks up whom to tell of each in
what is left of the registry. Every victim is reported once, and a record that stays is found
whenever a victim on its network is removed.
-/

namespace DigRelay

open Common

variable {crates : Crates} {setup : Setup} {sys : System crates} {now : ℕ}

/-- The targets are the records on the network whose id is neither the sender's nor excluded,
each named once. -/
structure ExactFanOut (reg : Registry) (sender networkId : String) (exclude : List String)
    (targets : List (String × ConnId)) : Prop where
  nodup : (targets.map Prod.fst).Nodup
  mem_iff : ∀ id tx, (id, tx) ∈ targets ↔
    ∃ peer, reg.lookup id = some peer ∧ peer.networkId = networkId ∧ id ≠ sender ∧
      id ∉ exclude ∧ peer.tx = tx

/-- A broadcast lookup is exact. -/
theorem broadcastTargets_exact (reg : Registry) (sender networkId : String)
    (exclude : List String) :
    ExactFanOut reg sender networkId exclude (reg.broadcastTargets sender networkId exclude) :=
  ⟨reg.broadcastTargets_nodup sender networkId exclude, fun _ _ => reg.mem_broadcastTargets_iff⟩

/-- The notices of a sweep are exact at the time of each removal. -/
theorem pruneLocked_exact (victims : List (String × String)) (relay : Relay crates)
    {earlier later : List PrunedPeer} {peerId networkId : String}
    {targets : List (String × ConnId)}
    (h : (pruneLocked victims relay).1 = earlier ++ (peerId, networkId, targets) :: later) :
    ∃ reg : Registry,
      (∀ id, reg.lookup id = if id = peerId ∨ id ∈ earlier.map Prod.fst then none
        else relay.registry.lookup id) ∧
      ExactFanOut reg peerId networkId [] targets := by
  induction victims generalizing relay earlier with
  | nil => simp [pruneLocked] at h
  | cons victim rest ih =>
    obtain ⟨first, network⟩ := victim
    cases hremove : removeLocked relay first network with
    | none =>
      simp only [pruneLocked, hremove] at h
      exact ih relay h
    | some removed =>
      obtain ⟨found, relay'⟩ := removed
      obtain ⟨-, hrelay', hfound⟩ := removeLocked_some hremove
      have herased (id : String) : relay'.registry.lookup id =
          if id = first then none else relay.registry.lookup id := by
        rw [hrelay']
        exact Table.lookup_erase_eq _ _ _
      simp only [pruneLocked, hremove] at h
      cases earlier with
      | nil =>
        obtain ⟨⟨rfl, rfl, rfl⟩, -⟩ : (first = peerId ∧ network = networkId ∧ found = targets) ∧
            (pruneLocked rest relay').1 = later := by simpa using h
        refine ⟨relay'.registry, fun id => by simpa using herased id, ?_⟩
        rw [hfound]
        exact broadcastTargets_exact _ _ _ _
      | cons head earlier =>
        obtain ⟨rfl, htail⟩ := List.cons_eq_cons.mp h
        obtain ⟨reg, hreg, hexact⟩ := ih relay' htail
        refine ⟨reg, fun id => ?_, hexact⟩
        rw [hreg id, herased id]
        by_cases hlater : id = peerId ∨ id ∈ earlier.map Prod.fst
        · rw [if_pos hlater, if_pos]
          simpa using hlater.imp_right Or.inr
        · rw [if_neg hlater]
          by_cases hfirst : id = first
          · rw [if_pos hfirst, if_pos (by simp [hfirst])]
          · rw [if_neg hfirst, if_neg]
            simpa [hfirst] using hlater

/-- A sweep whose victims are all registered reports exactly them. -/
theorem pruneLocked_pruned (gone : List (String × String)) (relay : Relay crates)
    (hnodup : (gone.map Prod.fst).Nodup)
    (hfound : ∀ victim ∈ gone, relay.registry.lookup victim.1 ≠ none) :
    ((pruneLocked gone relay).1.map fun pruned => (pruned.1, pruned.2.1)) = gone := by
  induction gone generalizing relay with
  | nil => rfl
  | cons victim rest ih =>
    obtain ⟨peerId, networkId⟩ := victim
    rw [List.map_cons, List.nodup_cons] at hnodup
    cases hremove : removeLocked relay peerId networkId with
    | none => exact absurd (removeLocked_eq_none_iff.mp hremove) (hfound _ List.mem_cons_self)
    | some removed =>
      obtain ⟨targets, relay'⟩ := removed
      obtain ⟨-, rfl, -⟩ := removeLocked_some hremove
      simp only [pruneLocked, hremove, List.map_cons]
      rw [ih _ hnodup.2 fun victim hvictim => ?_]
      have hmem : victim.1 ∈ rest.map Prod.fst := List.mem_map_of_mem hvictim
      have hother : victim.1 ≠ peerId := fun hsame => hnodup.1 (hsame ▸ hmem)
      rw [Table.lookup_erase_eq, if_neg hother]
      exact hfound victim (List.mem_cons_of_mem _ hvictim)

/-- A sweep selects each record at most once. -/
theorem deadOrStale_nodup (registry : Registry) (closed : ConnId → Bool) (activity : ConnId → ℕ)
    (now deadline : ℕ) : ((registry.deadOrStale closed activity now deadline).map Prod.fst).Nodup := by
  simp only [Registry.deadOrStale, List.map_map, Function.comp_def]
  exact registry.toPairs_keys_nodup.sublist (List.filter_sublist.map Prod.fst)

/-- A sweep reports exactly the records it selects. -/
theorem sweepLocked_pruned (setup : Setup) (sys : System crates) (now : ℕ) :
    ((sweepLocked setup sys now).1.map fun pruned => (pruned.1, pruned.2.1)) =
      sys.relay.registry.deadOrStale (isClosed sys.conns) (activity sys.conns) now
        setup.config.livenessDeadline.asSecs := by
  refine pruneLocked_pruned _ sys.relay (deadOrStale_nodup _ _ _ _ _) fun row hmem => ?_
  obtain ⟨existing, hexisting, -⟩ := Registry.mem_deadOrStale_iff.mp hmem
  rw [hexisting]
  exact Option.some_ne_none existing

/-- The ids a sweep removes. -/
def victims (setup : Setup) (sys : System crates) (now : ℕ) : List String :=
  (sys.relay.registry.deadOrStale (isClosed sys.conns) (activity sys.conns) now
    setup.config.livenessDeadline.asSecs).map Prod.fst

/-- The victims are the records whose channel is closed or which are silent past the deadline. -/
theorem mem_victims_iff {peerId : String} :
    peerId ∈ victims setup sys now ↔
      ∃ peer, sys.relay.registry.lookup peerId = some peer ∧
        (isClosed sys.conns peer.tx = true ∨
          now - activity sys.conns peer.lastActivity > setup.config.livenessDeadline.asSecs) := by
  simp only [victims, List.mem_map, Prod.exists, exists_and_right, exists_eq_right,
    Registry.mem_deadOrStale_iff]
  constructor
  · rintro ⟨_, peer, hpeer, -, hdead⟩
    exact ⟨peer, hpeer, hdead⟩
  · rintro ⟨peer, hpeer, hdead⟩
    exact ⟨_, peer, hpeer, rfl, hdead⟩

/-- A sweep removes a record with an open channel only if the record is silent. -/
theorem silent_of_victim {peerId : String} {peer : Peer} (hvictim : peerId ∈ victims setup sys now)
    (hpeer : sys.relay.registry.lookup peerId = some peer)
    (hopen : isClosed sys.conns peer.tx = false) :
    now - activity sys.conns peer.lastActivity > setup.config.livenessDeadline.asSecs := by
  obtain ⟨found, hfound, hreason⟩ := mem_victims_iff.mp hvictim
  obtain rfl := Option.some.inj (hpeer.symm.trans hfound)
  rcases hreason with hclosed | hsilent
  · rw [hopen] at hclosed
    cases hclosed
  · exact hsilent

/-- After a sweep exactly the victims are gone from the registry. -/
theorem sweepLocked_lookup (setup : Setup) (sys : System crates) (now : ℕ) (key : String) :
    (sweepLocked setup sys now).2.registry.lookup key =
      if key ∈ victims setup sys now then none else sys.relay.registry.lookup key :=
  pruneLocked_lookup _ sys.relay key

/-- The reported records carry the ids of the victims. -/
theorem sweepLocked_ids (setup : Setup) (sys : System crates) (now : ℕ) :
    (sweepLocked setup sys now).1.map Prod.fst = victims setup sys now := by
  rw [victims, ← sweepLocked_pruned, List.map_map]
  rfl

/-- A record that stays is named in the notices of a victim exactly if it is on the victim's
network. -/
theorem sweepLocked_names {peerId networkId other : String} {targets : List (String × ConnId)}
    {told : Peer} (hentry : (peerId, networkId, targets) ∈ (sweepLocked setup sys now).1)
    (hother : other ∉ victims setup sys now) (htold : sys.relay.registry.lookup other = some told) :
    (targets.map Prod.fst).Nodup ∧
      ∀ tx, (other, tx) ∈ targets ↔ told.networkId = networkId ∧ told.tx = tx := by
  obtain ⟨earlier, later, hsplit⟩ := List.append_of_mem hentry
  obtain ⟨reg, hreg, hexact⟩ := pruneLocked_exact _ sys.relay hsplit
  have hids := sweepLocked_ids setup sys now
  rw [hsplit, List.map_append, List.map_cons] at hids
  rw [← hids] at hother
  obtain ⟨hearlier, hlater⟩ := not_or.mp (List.mem_append.not.mp hother)
  have hne : other ≠ peerId := List.ne_of_not_mem_cons hlater
  have hlookup : reg.lookup other = some told := by
    rw [hreg other, if_neg (not_or.mpr ⟨hne, hearlier⟩), htold]
  refine ⟨hexact.nodup, fun tx => (hexact.mem_iff other tx).trans ?_⟩
  simp [hlookup, hne]

/-- A record that is told of a victim was registered under the channel it is told on. -/
theorem sweepLocked_target {entry : PrunedPeer} (hentry : entry ∈ (sweepLocked setup sys now).1)
    {target : String × ConnId} (htarget : target ∈ entry.2.2) :
    ∃ peer, sys.relay.registry.lookup target.1 = some peer ∧ peer.tx = target.2 := by
  obtain ⟨peerId, networkId, targets⟩ := entry
  obtain ⟨earlier, later, hsplit⟩ := List.append_of_mem hentry
  obtain ⟨reg, hreg, hexact⟩ := pruneLocked_exact _ sys.relay hsplit
  obtain ⟨peer, hpeer, -, -, -, htx⟩ := (hexact.mem_iff target.1 target.2).mp htarget
  rw [hreg] at hpeer
  split at hpeer
  · cases hpeer
  · exact ⟨peer, hpeer, htx⟩

/-- The counter drops by the number of records that are reported. -/
theorem pruneLocked_count (gone : List (String × String)) (relay : Relay crates) :
    (pruneLocked gone relay).2.registry.size + (pruneLocked gone relay).1.length =
        relay.registry.size ∧
      (pruneLocked gone relay).2.connected =
        relay.connected - UInt64.ofNat (pruneLocked gone relay).1.length := by
  induction gone generalizing relay with
  | nil => exact ⟨rfl, by simp [pruneLocked]⟩
  | cons victim rest ih =>
    obtain ⟨peerId, networkId⟩ := victim
    cases hremove : removeLocked relay peerId networkId with
    | none =>
      simp only [pruneLocked, hremove]
      exact ih relay
    | some removed =>
      obtain ⟨targets, relay'⟩ := removed
      obtain ⟨⟨peer, hpeer⟩, rfl, -⟩ := removeLocked_some hremove
      have hsize := Table.size_erase_of_some hpeer
      obtain ⟨hsizes, hconnected⟩ := ih
        { relay with registry := relay.registry.erase peerId, connected := relay.connected - 1 }
      simp only [pruneLocked, hremove, List.length_cons]
      refine ⟨?_, ?_⟩
      · dsimp only at hsizes
        omega
      · rw [hconnected, UInt64.ofNat_add]
        grind

end DigRelay
