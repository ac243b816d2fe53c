import DigRelay.Map
import Mathlib.Data.Multiset.MapFold

/-!
# What the map shows of the peers

The map counts every peer once, in the cell of its first address that can be located or among the
unknown ones. It is made of these counts alone: nothing else about the peers, not their ids, networks,
ports, exact places or order, makes a difference to it.
-/

namespace DigRelay

open Common

/-- The cell of a peer's first address that can be located. -/
def peerCell (geo : Geo) (peer : RelayPeerInfo) : Option (ℤ × ℤ) :=
  (firstLocated geo peer.addresses).map geo.cell

/-- How many peers have no address that can be located. -/
def unlocatable (geo : Geo) (peers : List RelayPeerInfo) : ℕ :=
  peers.countP fun peer => (peerCell geo peer).isNone

/-- The cells of the other peers, each as often as there are peers in it. -/
def cellsOf (geo : Geo) (peers : List RelayPeerInfo) : Multiset (ℤ × ℤ) :=
  Multiset.ofList (peers.filterMap (peerCell geo))

section Snapshot

variable (geo : Geo) (peers : List RelayPeerInfo)

/-- The cells that are counted, in the order of the peers. -/
theorem map_cell_places :
    ((peers.filterMap fun peer => firstLocated geo peer.addresses).map fun place => toLex (geo.cell place)) =
      (peers.filterMap (peerCell geo)).map toLex := by
  rw [List.map_filterMap, List.map_filterMap]
  apply List.filterMap_congr
  intro peer _
  rw [peerCell, Option.map_map]
  rfl

/-- Every peer has a cell or cannot be located. -/
theorem length_cells_add_unlocatable :
    (peers.filterMap (peerCell geo)).length + unlocatable geo peers = peers.length := by
  induction peers with
  | nil => rfl
  | cons peer rest ih =>
    rw [unlocatable] at ih ⊢
    cases hcell : peerCell geo peer with
    | none =>
      rw [List.filterMap_cons_none hcell, List.countP_cons_of_pos (by simp [hcell]), List.length_cons, ← ih]
      omega
    | some cell =>
      rw [List.filterMap_cons_some hcell, List.countP_cons_of_neg (by simp [hcell]), List.length_cons,
        List.length_cons, ← ih]
      omega

/-- The row of a counted cell. -/
def mapCell (entry : Lex (ℤ × ℤ) × ℕ) : MapCell := ⟨(ofLex entry.1).1, (ofLex entry.1).2, entry.2⟩

/-- The map is made of the number of unlocatable peers and the cells of the others. -/
theorem buildMapSnapshot_eq (generatedAt : ℕ) :
    buildMapSnapshot geo peers generatedAt =
      { schemaVersion := mapSchemaVersion
        generatedAt
        cellDeg := mapCellDeg
        totalPeers := (peers.filterMap (peerCell geo)).length + unlocatable geo peers
        locatedPeers := (peers.filterMap (peerCell geo)).length
        unknownPeers := unlocatable geo peers
        cells := (tally ((peers.filterMap (peerCell geo)).map toLex)).map mapCell } := by
  have hunknown : (peers.countP fun peer => (firstLocated geo peer.addresses).isNone) =
      unlocatable geo peers := by
    apply List.countP_congr
    intro peer _
    rw [peerCell, Option.isNone_map]
  rw [buildMapSnapshot, map_cell_places, sum_tally, List.length_map, hunknown, length_cells_add_unlocatable]
  rfl

end Snapshot

/-- For every way to locate addresses and every list of peers, each peer is counted once, as located or
as unknown; the counts of the cells are positive and sum up to the located peers; the cells are strictly
sorted; and every list of peers with as many unlocatable ones and the same cells has the same map. -/
theorem buildMapSnapshot_conserves (geo : Geo) (peers : List RelayPeerInfo) (generatedAt : ℕ) :
    let snapshot := buildMapSnapshot geo peers generatedAt
    snapshot.locatedPeers + snapshot.unknownPeers = snapshot.totalPeers ∧
      snapshot.totalPeers = peers.length ∧
      (∀ cell ∈ snapshot.cells, 0 < cell.count) ∧
      (snapshot.cells.map MapCell.count).sum = snapshot.locatedPeers ∧
      snapshot.cells.Pairwise (fun a b => a.lat < b.lat ∨ a.lat = b.lat ∧ a.lon < b.lon) ∧
      ∀ (geo' : Geo) (peers' : List RelayPeerInfo), unlocatable geo' peers' = unlocatable geo peers →
        cellsOf geo' peers' = cellsOf geo peers → buildMapSnapshot geo' peers' generatedAt = snapshot := by
  intro snapshot
  have hsnapshot : snapshot = _ := buildMapSnapshot_eq geo peers generatedAt
  refine ⟨?_, rfl, ?_, ?_, ?_, ?_⟩
  · change snapshot.locatedPeers + snapshot.unknownPeers = peers.length
    rw [hsnapshot, length_cells_add_unlocatable]
  · intro cell hcell
    rw [hsnapshot] at hcell
    obtain ⟨entry, hentry, rfl⟩ := List.mem_map.mp hcell
    exact pos_of_mem_tally _ entry hentry
  · rw [hsnapshot, List.map_map]
    exact (sum_tally _).trans (List.length_map _)
  · rw [hsnapshot, List.pairwise_map]
    apply (pairwise_tally _).imp
    intro a b hlt
    exact Prod.Lex.lt_iff.mp hlt
  · intro geo' peers' hunknown hcells
    have hperm : (peers'.filterMap (peerCell geo')).Perm (peers.filterMap (peerCell geo)) :=
      Multiset.coe_eq_coe.mp hcells
    rw [buildMapSnapshot_eq, hsnapshot, hperm.length_eq, hunknown, tally_perm (hperm.map toLex)]

/-- Everything at latitude and longitude zero, except the loopback addresses. -/
def sampleGeo : Geo where
  Place := Unit
  locate ip := if ip = .v6 1 then none else some ()
  cell _ := (0, 0)

/-- A peer with the given id and addresses. -/
def samplePeer (peerId : String) (addresses : List SocketAddr) : RelayPeerInfo :=
  { RelayPeerInfo.new peerId "net" 1 0 with addresses }

/-- Two peers that trade places, with other ids, ports and addresses. -/
theorem buildMapSnapshot_conserves_swapped :
    buildMapSnapshot sampleGeo
        [samplePeer "a" [⟨.v6 1, 80, 0⟩], samplePeer "b" [⟨.v6 1, 81, 0⟩, ⟨.v4 9, 9, 0⟩]] 7 =
      buildMapSnapshot sampleGeo [samplePeer "c" [⟨.v6 5, 1, 0⟩], samplePeer "d" []] 7 := by
  obtain ⟨-, -, -, -, -, hsame⟩ :=
    buildMapSnapshot_conserves sampleGeo [samplePeer "c" [⟨.v6 5, 1, 0⟩], samplePeer "d" []] 7
  apply hsame
  · decide
  · decide

end DigRelay
