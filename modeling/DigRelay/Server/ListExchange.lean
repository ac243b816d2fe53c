import DigRelay.PexLaws

/-!
# An exchange written out

An exchange crate whose engines keep their sets as lists, for runs that show what the relay does on a
concrete input. A link that comes up gets the engine's own handshake and a snapshot of the other known
peers. A tick sends a link what has been added and dropped since, if anything has and the last
message is long enough ago.
-/

namespace DigRelay

open Common

/-- The messages of the written-out exchange. -/
inductive ListMessage
  | handshake (networkId : String)
  | snapshot (peers : List String)
  | delta (added dropped : List String)
  | error
  deriving DecidableEq

/-- A link of the written-out exchange: the peers it has been told of and when its next delta may be
sent. -/
structure ListLink where
  peerId : String
  told : List String
  dueMs : ℕ

/-- An engine of the written-out exchange: the peers it knows, its links and the nodes it does not talk
to. -/
structure ListEngine where
  networkId : String
  known : List String
  links : List ListLink
  muted : List String

namespace ListEngine

variable (engine : ListEngine)

/-- The time between two deltas on one link. -/
def intervalMs : ℕ := 60000

/-- The peers an engine has a link to. -/
def linked : List String := engine.links.map ListLink.peerId

/-- The peers that a link is told of: all but its own. -/
def others (peerId : String) : List String := engine.known.filter (· ≠ peerId)

/-- What a link has not been told of yet. -/
def added (link : ListLink) : List String := (engine.others link.peerId).filter (· ∉ link.told)

/-- What a link has been told of that is gone. -/
def dropped (link : ListLink) : List String := link.told.filter (· ∉ engine.others link.peerId)

/-- A delta is due on a link that has something to be told, after the interval. -/
def isDue (nowMs : ℕ) (link : ListLink) : Bool :=
  link.dueMs ≤ nowMs && (engine.added link ++ engine.dropped link ≠ [])

/-- A link is told of the others from now on. -/
def refresh (nowMs : ℕ) (peerId : String) : ListLink :=
  { peerId, told := engine.others peerId, dueMs := nowMs + intervalMs }

/-- Bring the link of a peer up. -/
def linkUp (peerId : String) (nowMs : ℕ) : List ListMessage × ListEngine :=
  ([.handshake engine.networkId, .snapshot (engine.others peerId)],
    { engine with links := engine.refresh nowMs peerId :: engine.links.filter (·.peerId ≠ peerId) })

/-- Judge a message of a node: a handshake of another network mutes the node. -/
def onMessage (peerId : String) : ListMessage → List ListMessage × ListEngine
  | .handshake networkId =>
    if networkId = engine.networkId then ([], engine)
    else ([.error], { engine with muted := peerId :: engine.muted })
  | _ => ([], engine)

/-- Send the deltas that are due. -/
def tick (nowMs : ℕ) : List (String × ListMessage) × ListEngine :=
  ((engine.links.filter (engine.isDue nowMs)).map fun link =>
      (link.peerId, .delta (engine.added link) (engine.dropped link)),
    { engine with links := engine.links.map fun link =>
        if engine.isDue nowMs link then engine.refresh nowMs link.peerId else link })

/-- A tick keeps the links. -/
theorem linked_tick (nowMs : ℕ) : (engine.tick nowMs).2.linked = engine.linked := by
  rw [linked, tick, List.map_map]
  refine List.map_congr_left fun link _ => ?_
  dsimp only [Function.comp_apply]
  split <;> rfl

/-- A tick speaks to linked peers only. -/
theorem mem_linked_of_tick {nowMs : ℕ} {peerId : String} {msg : ListMessage}
    (h : (peerId, msg) ∈ (engine.tick nowMs).1) : peerId ∈ engine.linked := by
  obtain ⟨link, hlink, heq⟩ := List.mem_map.mp h
  exact List.mem_map.mpr ⟨link, List.mem_of_mem_filter hlink, congrArg Prod.fst heq⟩

end ListEngine

/-- An exchange crate with sets as lists. -/
def listCrates : Crates :=
  { Message := ListMessage
    Engine := ListEngine
    isHandshake := fun msg => msg matches .handshake _
    newEngine := fun _ networkId _ => ⟨networkId, [], [], []⟩
    upsertKnown := fun engine entry =>
      { engine with known := entry.peerId :: engine.known.filter (· ≠ entry.peerId) }
    removeKnown := fun engine peerId => { engine with known := engine.known.filter (· ≠ peerId) }
    linkUp := ListEngine.linkUp
    linkDown := fun engine peerId => { engine with links := engine.links.filter (·.peerId ≠ peerId) }
    onMessage := fun engine peerId msg _ => engine.onMessage peerId msg
    isMuted := fun engine peerId => peerId ∈ engine.muted
    recordBadMessage := fun engine _ _ => ([.error], engine)
    tick := ListEngine.tick
    ipText := fun _ => ""
    familyRank := fun _ => 0 }

/-- The written-out engines keep their known peers as a set. -/
def listKnown : KnownLaws listCrates where
  known engine := { peerId | peerId ∈ ListEngine.known engine }
  newEngine _ _ _ := by simp [listCrates]
  upsertKnown engine entry := by
    ext peerId
    by_cases hsame : peerId = entry.peerId <;> simp [listCrates, hsame]
  removeKnown engine peerId := by ext; simp [listCrates]
  linkUp _ _ _ := rfl
  linkDown _ _ := rfl
  onMessage engine peerId msg _ := by
    cases msg with
    | handshake networkId =>
      dsimp only [listCrates, ListEngine.onMessage]
      split <;> rfl
    | _ => rfl
  recordBadMessage _ _ _ := rfl
  tick _ _ := rfl

/-- The written-out engines keep their links as a set and speak to no others. -/
def listLinks : LinkLaws listCrates where
  linked engine := { peerId | peerId ∈ ListEngine.linked engine }
  newEngine _ _ _ := by simp [listCrates, ListEngine.linked]
  upsertKnown _ _ := Set.Subset.rfl
  removeKnown _ _ := Set.Subset.rfl
  linkUp engine peerId _ := by
    intro id hid
    rcases List.mem_cons.mp hid with rfl | hmem
    · exact .inl rfl
    · obtain ⟨link, hlink, rfl⟩ := List.mem_map.mp hmem
      exact .inr (List.mem_map_of_mem (List.mem_of_mem_filter hlink))
  linkDown engine peerId := by
    intro id hid
    obtain ⟨link, hlink, rfl⟩ := List.mem_map.mp hid
    obtain ⟨hmem, hne⟩ := List.mem_filter.mp hlink
    exact ⟨List.mem_map_of_mem hmem, by simpa using hne⟩
  onMessage engine peerId msg _ := by
    cases msg with
    | handshake networkId =>
      dsimp only [listCrates, ListEngine.onMessage]
      split <;> exact Set.Subset.rfl
    | _ => exact Set.Subset.rfl
  recordBadMessage _ _ _ := Set.Subset.rfl
  tick engine nowMs id hid := by
    have hlinked : ListEngine.linked (ListEngine.tick engine nowMs).2 = ListEngine.linked engine :=
      ListEngine.linked_tick engine nowMs
    exact hlinked ▸ hid
  emits engine _ _ _ hmem := ListEngine.mem_linked_of_tick engine hmem

end DigRelay
