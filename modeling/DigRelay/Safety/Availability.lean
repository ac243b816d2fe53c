import DigRelay.Dashboard
import DigRelay.Server.Occupancy
import DigRelay.Server.Script

/-!
# Availability of the dashboard

Every page outside the STUN host is routed after the statistics have been built, the health
page included. Unless the request asks for whole ids, a row cuts the id of its peer after twelve
bytes. Ids are chosen by clients, so the cut may fall inside a character, and then there is no
response. This is the only way a request can fail to be answered.
-/

namespace DigRelay

open Common

variable {crates : Crates} {setup : Setup} {sys : System crates}

/-- A list is traversed exactly when every element is taken. -/
theorem mapM_isSome_iff {A B : Type} (take : A → Option B) (items : List A) :
    (items.mapM take).isSome ↔ ∀ item ∈ items, (take item).isSome := by
  induction items with
  | nil => simp
  | cons item rest ih =>
    rw [List.mapM_cons, List.forall_mem_cons, ← ih]
    cases take item with
    | none => simp
    | some taken => cases rest.mapM take <;> simp

/-- The id is short or can be cut after its prefix. -/
def CanTruncate (peerId : String) : Prop :=
  utf8Len peerId.toList ≤ peerIdPrefixLen ∨ IsCharBoundary peerIdPrefixLen peerId.toList

/-- Shortening an id succeeds exactly when it is short or can be cut. -/
theorem truncatePeerId_isSome_iff (peerId : String) :
    (truncatePeerId peerId).isSome ↔ CanTruncate peerId := by
  unfold truncatePeerId CanTruncate
  split
  · rename_i hshort
    simp [hshort]
  · rename_i hlong
    rw [Option.isSome_map, sliceTo_isSome_iff]
    simp [hlong]

/-- A row is built exactly when whole ids are shown or the id can be shortened. -/
theorem peerRow_isSome_iff (nowSecs : ℕ) (full : Bool) (info : RelayPeerInfo) :
    (peerRow nowSecs full info).isSome ↔ full = true ∨ CanTruncate info.peerId := by
  dsimp only [peerRow]
  rw [Option.isSome_map]
  cases full with
  | true => simp
  | false => simpa using truncatePeerId_isSome_iff info.peerId

/-- The statistics are built exactly when every row is. -/
theorem buildSnapshot_isSome_iff (peers : List RelayPeerInfo) (counters : Counters)
    (uptimeSecs nowSecs : ℕ) (full : Bool) :
    (buildSnapshot peers counters uptimeSecs nowSecs full).isSome ↔
      full = true ∨ ∀ info ∈ peers, CanTruncate info.peerId := by
  rw [buildSnapshot, Option.isSome_map, mapM_isSome_iff]
  simp only [peerRow_isSome_iff]
  cases full <;> simp

/-- The registry describes every peer under the id it is registered by. -/
def Registry.Labelled (reg : Registry) : Prop :=
  ∀ peerId peer, reg.lookup peerId = some peer → peer.info.peerId = peerId

/-- In every reachable state the registry is labelled. -/
theorem labelled_of_reachable (h : IsReachable setup sys) : sys.relay.registry.Labelled := by
  refine h.invariant (fun sys => sys.relay.registry.Labelled) ?_ ?_
  · intro peerId peer hpeer
    cases hpeer
  · intro s label s' hreach hlabelled hnext peerId peer hpeer
    have hchange := next_change (wellFormed_of_reachable hreach) hnext
    rcases hchange.record_origin hpeer with
      hold | ⟨c, clock, conn, request, slot, -, -, -, -, rfl, rfl⟩
    · exact hlabelled peerId peer hold
    · rfl

/-- The peers of a labelled registry are described under exactly the registered ids. -/
theorem forall_mem_peers_iff {reg : Registry} (h : reg.Labelled) (P : String → Prop) :
    (∀ info ∈ reg.peers none, P info.peerId) ↔
      ∀ peerId peer, reg.lookup peerId = some peer → P peerId := by
  simp only [Registry.peers, List.mem_insertionSort, List.mem_map, List.mem_filter, Option.all_none,
    and_true]
  constructor
  · intro hall peerId peer hpeer
    have hmem := (reg.mem_toPairs_iff peerId peer).mpr hpeer
    rw [← h peerId peer hpeer]
    exact hall _ ⟨peer, ⟨(peerId, peer), hmem, rfl⟩, rfl⟩
  · rintro hall info ⟨_, ⟨⟨peerId, peer⟩, hmem, rfl⟩, rfl⟩
    have hpeer := (reg.mem_toPairs_iff peerId peer).mp hmem
    rw [h peerId peer hpeer]
    exact hall peerId peer hpeer

/-- Whenever a request reads the registry, in whatever state, it is answered exactly when it is
for the STUN host, asks for whole ids, or finds no registered id whose twelfth byte falls inside
a character. -/
theorem serveHttp_isSome_iff (hreach : IsReachable setup sys) (geo : Geo) {reads : LiveReads}
    (hreads : reads.registry = sys.relay.registry) (uptimeSecs nowSecs : ℕ) (head : RequestHead) :
    (serveHttp setup.config geo reads uptimeSecs nowSecs head).isSome ↔
      isStunHost head.host = true ∨ wantsFull head.target = true ∨
        ∀ peerId peer, sys.relay.registry.lookup peerId = some peer → CanTruncate peerId := by
  unfold serveHttp
  split
  · rename_i host hhost
    obtain ⟨hsome, hstun⟩ := Option.filter_eq_some_iff.mp hhost
    simp [hsome, hstun]
  · rename_i hnone
    have hstun : isStunHost head.host = false := by
      cases hhost : head.host with
      | none => rfl
      | some host => simpa [hhost] using hnone
    rw [Option.isSome_map, liveSnapshot, buildSnapshot_isSome_iff, hreads,
      forall_mem_peers_iff (labelled_of_reachable hreach)]
    simp [hstun]

/-- A geography in which nothing can be located. -/
def nowhere : Geo := { Place := Unit, locate := fun _ => none, cell := fun _ => (0, 0) }

/-- What a request reads of a relay that does not change meanwhile. -/
def readsOf (relay : Relay crates) : LiveReads :=
  { registry := relay.registry
    counters := countersOf relay
    mapRegistry := relay.registry
    dhtView := relay.dhtView }

/-- A request for a path, without a host. -/
def getRequest (target : String) : RequestHead :=
  { method := "GET", target, host := none, isWebsocketUpgrade := false }

/-- With an id of twelve letters registered, the health page is answered. -/
theorem serveHttp_health_answered :
    ∃ trace sys, @Run silentCrates standardSetup trace sys ∧ sys.relay.registry.size = 1 ∧
      (serveHttp standardSetup.config nowhere (readsOf sys.relay) 1 1
        (getRequest "/health")).isSome := by
  obtain ⟨trace, sys, sys', hrun, hcheck⟩ := @exists_run_step silentCrates standardSetup
    (Script.connect 0 0 ++ Script.send 0 (.register "abcdefabcdef" "net" 1 []) 0 5) (.exec 0 (atSecond 0))
    (fun _ sys' => sys'.relay.registry.size = 1 &&
      sys'.relay.registry.toPairs.all fun record =>
        utf8Len record.1.toList ≤ peerIdPrefixLen) (by decide)
  obtain ⟨hsize, hshort⟩ := Bool.and_eq_true_iff.mp hcheck
  refine ⟨_, sys', hrun, of_decide_eq_true hsize,
    (serveHttp_isSome_iff ⟨_, hrun⟩ nowhere rfl 1 1 (getRequest "/health")).mpr
      (.inr (.inr fun peerId peer hpeer => .inl ?_))⟩
  have hmem := (Table.mem_toPairs_iff _ peerId peer).mpr hpeer
  have hlen := List.all_eq_true.mp hshort _ hmem
  exact of_decide_eq_true hlen

/-- A client of the plain listener registers eleven letters followed by a character of two bytes,
and from then on the health page is not answered. -/
theorem exists_run_serveHttp_none :
    ∃ trace sys, @Run silentCrates standardSetup trace sys ∧
      serveHttp standardSetup.config nowhere (readsOf sys.relay) 1 1 (getRequest "/health") =
        none := by
  obtain ⟨trace, sys, sys', hrun, hfails⟩ := @exists_run_step silentCrates standardSetup
    (Script.connect 0 0 ++ Script.send 0 (.register "aaaaaaaaaaaé" "net" 1 []) 0 5) (.exec 0 (atSecond 0))
    (fun _ sys' => (serveHttp standardSetup.config nowhere (readsOf sys'.relay) 1 1
      (getRequest "/health")).isNone) (by decide)
  exact ⟨_, sys', hrun, Option.isNone_iff_eq_none.mp hfails⟩

end DigRelay
