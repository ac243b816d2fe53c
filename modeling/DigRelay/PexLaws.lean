import DigRelay.Pex
import Mathlib.Data.Set.Insert

/-!
# What is assumed of the exchange engines

The engines belong to another crate. Two things are assumed of them where a result needs it: that
the set of known peers is moved by the two operations named after it and by nothing else, and that
a tick speaks only to peers whose link was brought up and not taken down since. Each assumption is
a set read off an engine with the laws of the engine's operations, and is carried over to the
relay's collection of engines.
-/

namespace DigRelay

open Common

/-- The peers an engine knows, as the set its operations insert into and delete from. -/
structure KnownLaws (crates : Crates) where
  known : crates.Engine → Set String
  newEngine : ∀ localId networkId flags, known (crates.newEngine localId networkId flags) = ∅
  upsertKnown : ∀ engine entry,
    known (crates.upsertKnown engine entry) = insert entry.peerId (known engine)
  removeKnown : ∀ engine peerId, known (crates.removeKnown engine peerId) = known engine \ {peerId}
  linkUp : ∀ engine peerId nowMs, known (crates.linkUp engine peerId nowMs).2 = known engine
  linkDown : ∀ engine peerId, known (crates.linkDown engine peerId) = known engine
  onMessage : ∀ engine peerId msg nowMs,
    known (crates.onMessage engine peerId msg nowMs).2 = known engine
  recordBadMessage : ∀ engine peerId nowMs,
    known (crates.recordBadMessage engine peerId nowMs).2 = known engine
  tick : ∀ engine nowMs, known (crates.tick engine nowMs).2 = known engine

/-- The peers with an active link in an engine: those whose link was brought up and not taken down
since. A tick speaks to no others. -/
structure LinkLaws (crates : Crates) where
  linked : crates.Engine → Set String
  newEngine : ∀ localId networkId flags, linked (crates.newEngine localId networkId flags) = ∅
  upsertKnown : ∀ engine entry, linked (crates.upsertKnown engine entry) ⊆ linked engine
  removeKnown : ∀ engine peerId, linked (crates.removeKnown engine peerId) ⊆ linked engine
  linkUp : ∀ engine peerId nowMs,
    linked (crates.linkUp engine peerId nowMs).2 ⊆ insert peerId (linked engine)
  linkDown : ∀ engine peerId, linked (crates.linkDown engine peerId) ⊆ linked engine \ {peerId}
  onMessage : ∀ engine peerId msg nowMs,
    linked (crates.onMessage engine peerId msg nowMs).2 ⊆ linked engine
  recordBadMessage : ∀ engine peerId nowMs,
    linked (crates.recordBadMessage engine peerId nowMs).2 ⊆ linked engine
  tick : ∀ engine nowMs, linked (crates.tick engine nowMs).2 ⊆ linked engine
  emits : ∀ engine nowMs peerId msg, (peerId, msg) ∈ (crates.tick engine nowMs).1 →
    peerId ∈ linked engine

variable {crates : Crates}

namespace PexRelay

variable (pex : PexRelay crates) (attr : crates.Engine → Set String)

/-- The network has an engine and the engine has the peer in a set. -/
def InEngine (networkId peerId : String) : Prop :=
  ∃ engine, pex.engines.lookup networkId = some engine ∧ peerId ∈ attr engine

variable {pex attr} {networkId other peerId id : String} {engine : crates.Engine}

/-- The engine that was stored has its own set, and every other engine the set it had. -/
theorem inEngine_setEngine :
    (pex.setEngine networkId engine).InEngine attr other id ↔
      if other = networkId then id ∈ attr engine else pex.InEngine attr other id := by
  simp only [InEngine, setEngine, Table.lookup_insert_eq]
  split <;> simp

/-- An engine created on first use has nothing, like the engine that is not there. -/
theorem mem_engineFor (hnew : ∀ localId networkId flags,
    attr (crates.newEngine localId networkId flags) = ∅) :
    id ∈ attr (pex.engineFor networkId) ↔ pex.InEngine attr networkId id := by
  simp only [InEngine, engineFor]
  cases pex.engines.lookup networkId <;> simp [hnew]

/-- Storing an engine that has the same set changes no set. -/
theorem inEngine_setEngine_of_iff
    (h : id ∈ attr engine ↔ pex.InEngine attr networkId id) :
    (pex.setEngine networkId engine).InEngine attr other id ↔ pex.InEngine attr other id := by
  rw [inEngine_setEngine]
  split
  · rename_i hother
    rw [hother]
    exact h
  · rfl

/-- The enumeration order of the engines plays no part in what they have. -/
theorem inEngine_rehashed {engines : Table String crates.Engine}
    (h : Table.Rehashed pex.engines engines) :
    InEngine { pex with engines } attr networkId id ↔ pex.InEngine attr networkId id := by
  simp only [InEngine, h.lookup_eq]

end PexRelay

namespace KnownLaws

variable (laws : KnownLaws crates)

/-- The engine of the network knows the peer. -/
def Knows (pex : PexRelay crates) (networkId peerId : String) : Prop :=
  pex.InEngine laws.known networkId peerId

variable {laws} {pex : PexRelay crates} {networkId other peerId id : String}

/-- Mirroring a registration makes the peer known on its network. -/
theorem knows_onRegister (observed : SocketAddr) (tx : ConnId) (nowMs : ℕ) :
    laws.Knows (pex.onRegister peerId networkId observed tx nowMs) other id ↔
      other = networkId ∧ id = peerId ∨ laws.Knows pex other id := by
  change (pex.setEngine networkId _).InEngine laws.known other id ↔ _
  rw [PexRelay.inEngine_setEngine, laws.upsertKnown, Set.mem_insert_iff,
    PexRelay.mem_engineFor laws.newEngine]
  split
  · rename_i hother
    simp [hother, introducerEntry, Knows]
  · rename_i hother
    simp [hother, Knows]

/-- Mirroring a departure makes the peer unknown on the network it is said to leave. -/
theorem knows_onUnregister :
    laws.Knows (pex.onUnregister peerId networkId) other id ↔
      laws.Knows pex other id ∧ ¬ (other = networkId ∧ id = peerId) := by
  unfold PexRelay.onUnregister
  split
  · rename_i engine hengine
    change (pex.setEngine networkId _).InEngine laws.known other id ↔ _
    rw [PexRelay.inEngine_setEngine, laws.linkDown, laws.removeKnown]
    split
    · rename_i hother
      subst hother
      simp [Knows, PexRelay.InEngine, hengine]
    · rename_i hother
      simp [hother, Knows]
  · rename_i hnone
    change pex.InEngine laws.known other id ↔ _
    refine ⟨fun h => ⟨h, ?_⟩, And.left⟩
    rintro ⟨rfl, rfl⟩
    obtain ⟨engine, hengine, -⟩ := h
    rw [hnone] at hengine
    cases hengine

/-- A handshake leaves the known peers alone. -/
theorem knows_onNodeHandshake (msg : crates.Message) (nowMs : ℕ) :
    laws.Knows (pex.onNodeHandshake peerId networkId msg nowMs).2 other id ↔
      laws.Knows pex other id := by
  dsimp only [PexRelay.onNodeHandshake]
  split
  · refine PexRelay.inEngine_setEngine_of_iff ?_
    rw [laws.onMessage]
    exact PexRelay.mem_engineFor laws.newEngine
  · refine PexRelay.inEngine_setEngine_of_iff ?_
    rw [laws.linkUp, laws.onMessage]
    exact PexRelay.mem_engineFor laws.newEngine

/-- A later message leaves the known peers alone. -/
theorem knows_onNodeMessage (msg : crates.Message) (nowMs : ℕ) :
    laws.Knows (pex.onNodeMessage peerId networkId msg nowMs).2 other id ↔
      laws.Knows pex other id := by
  unfold PexRelay.onNodeMessage
  split
  · rename_i engine hengine
    refine PexRelay.inEngine_setEngine_of_iff ?_
    rw [laws.onMessage]
    simp [PexRelay.InEngine, hengine]
  · rfl

/-- An undecodable frame leaves the known peers alone. -/
theorem knows_onNodeBadFrame (nowMs : ℕ) :
    laws.Knows (pex.onNodeBadFrame peerId networkId nowMs).2 other id ↔
      laws.Knows pex other id := by
  unfold PexRelay.onNodeBadFrame
  split
  · rename_i engine hengine
    refine PexRelay.inEngine_setEngine_of_iff ?_
    rw [laws.recordBadMessage]
    simp [PexRelay.InEngine, hengine]
  · rfl

/-- A tick leaves the known peers alone. -/
theorem knows_tick (nowMs : ℕ) :
    laws.Knows (pex.tick nowMs).2 other id ↔ laws.Knows pex other id := by
  simp only [Knows, PexRelay.InEngine, PexRelay.tick, Table.lookup_mapValues]
  cases pex.engines.lookup other <;> simp [laws.tick]

end KnownLaws

namespace LinkLaws

variable (laws : LinkLaws crates)

/-- The peer has an active link in the engine of the network. -/
def Linked (pex : PexRelay crates) (networkId peerId : String) : Prop :=
  pex.InEngine laws.linked networkId peerId

variable {laws} {pex : PexRelay crates} {networkId other peerId id : String} {engine : crates.Engine}

/-- Storing an engine with no link the network's engine did not have brings up no link. -/
theorem linked_of_setEngine
    (hsub : ∀ id, id ∈ laws.linked engine → laws.Linked pex networkId id)
    (h : laws.Linked (pex.setEngine networkId engine) other id) : laws.Linked pex other id := by
  have hstored := PexRelay.inEngine_setEngine.mp h
  split at hstored
  · rename_i hother
    rw [hother]
    exact hsub id hstored
  · exact hstored

/-- Links of the network's engine, created on first use, were there before. -/
theorem linked_of_mem_engineFor (h : id ∈ laws.linked (pex.engineFor networkId)) :
    laws.Linked pex networkId id :=
  (PexRelay.mem_engineFor laws.newEngine).mp h

/-- Mirroring a registration brings up no link. -/
theorem linked_of_onRegister {observed : SocketAddr} {tx : ConnId} {nowMs : ℕ}
    (h : laws.Linked (pex.onRegister peerId networkId observed tx nowMs) other id) :
    laws.Linked pex other id :=
  linked_of_setEngine (fun _ hid => linked_of_mem_engineFor (laws.upsertKnown _ _ hid)) h

/-- Mirroring a departure takes the peer's link on that network down. -/
theorem linked_of_onUnregister (h : laws.Linked (pex.onUnregister peerId networkId) other id) :
    laws.Linked pex other id ∧ ¬ (other = networkId ∧ id = peerId) := by
  unfold PexRelay.onUnregister at h
  split at h
  · rename_i engine hengine
    have hstored := PexRelay.inEngine_setEngine.mp h
    split at hstored
    · rename_i hother
      obtain ⟨hlinked, hne⟩ := laws.linkDown _ _ hstored
      exact ⟨⟨engine, hother ▸ hengine, laws.removeKnown _ _ hlinked⟩, fun hsame => hne hsame.2⟩
    · rename_i hother
      exact ⟨hstored, fun hsame => hother hsame.1⟩
  · rename_i hnone
    refine ⟨h, ?_⟩
    rintro ⟨rfl, rfl⟩
    obtain ⟨engine, hengine, -⟩ := h
    exact absurd (hnone.symm.trans hengine) (by simp)

/-- A handshake brings up the link of the peer that sent it and no other. -/
theorem linked_of_onNodeHandshake {msg : crates.Message} {nowMs : ℕ}
    (h : laws.Linked (pex.onNodeHandshake peerId networkId msg nowMs).2 other id) :
    laws.Linked pex other id ∨ other = networkId ∧ id = peerId := by
  dsimp only [PexRelay.onNodeHandshake] at h
  split at h
  · exact .inl (linked_of_setEngine
      (fun _ hid => linked_of_mem_engineFor (laws.onMessage _ _ _ _ hid)) h)
  · have hstored := PexRelay.inEngine_setEngine.mp h
    split at hstored
    · rename_i hother
      rcases laws.linkUp _ _ _ hstored with rfl | hlinked
      · exact .inr ⟨hother, rfl⟩
      · rw [hother]
        exact .inl (linked_of_mem_engineFor (laws.onMessage _ _ _ _ hlinked))
    · exact .inl hstored

/-- A later message brings up no link. -/
theorem linked_of_onNodeMessage {msg : crates.Message} {nowMs : ℕ}
    (h : laws.Linked (pex.onNodeMessage peerId networkId msg nowMs).2 other id) :
    laws.Linked pex other id := by
  unfold PexRelay.onNodeMessage at h
  split at h
  · rename_i engine hengine
    exact linked_of_setEngine (fun _ hid => ⟨engine, hengine, laws.onMessage _ _ _ _ hid⟩) h
  · exact h

/-- An undecodable frame brings up no link. -/
theorem linked_of_onNodeBadFrame {nowMs : ℕ}
    (h : laws.Linked (pex.onNodeBadFrame peerId networkId nowMs).2 other id) :
    laws.Linked pex other id := by
  unfold PexRelay.onNodeBadFrame at h
  split at h
  · rename_i engine hengine
    exact linked_of_setEngine (fun _ hid => ⟨engine, hengine, laws.recordBadMessage _ _ _ hid⟩) h
  · exact h

/-- A tick brings up no link. -/
theorem linked_of_tick {nowMs : ℕ} (h : laws.Linked (pex.tick nowMs).2 other id) :
    laws.Linked pex other id := by
  obtain ⟨engine, hengine, hid⟩ := h
  simp only [PexRelay.tick, Table.lookup_mapValues] at hengine
  obtain ⟨old, hold, rfl⟩ := Option.map_eq_some_iff.mp hengine
  exact ⟨old, hold, laws.tick _ _ hid⟩

end LinkLaws

end DigRelay
