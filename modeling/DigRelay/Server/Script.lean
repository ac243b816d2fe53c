import DigRelay.Server.Run

/-!
# Runs written out in full

An exchange crate that never answers, the default configuration, and the moves of a connection as lists
of labels. They serve runs that show what the relay does on a concrete input.
-/

namespace DigRelay

/-- An exchange crate that accepts every handshake and never answers, for runs written out in
full. -/
def silentCrates : Crates :=
  { Message := Unit
    Engine := Unit
    isHandshake := fun _ => true
    newEngine := fun _ _ _ => ()
    upsertKnown := fun _ _ => ()
    removeKnown := fun _ _ => ()
    linkUp := fun _ _ _ => ([], ())
    linkDown := fun _ _ => ()
    onMessage := fun _ _ _ _ => ([], ())
    isMuted := fun _ _ => false
    recordBadMessage := fun _ _ _ => ([], ())
    tick := fun _ _ => ([], ())
    ipText := fun _ => ""
    familyRank := fun _ => 0 }

/-- The default configuration on a plain listener. -/
def standardSetup : Setup := ⟨{}, false⟩

/-- All clocks at a whole second. -/
def atSecond (secs : ℕ) : Clock := ⟨secs * 1000, secs, secs⟩

/-- A source address. -/
def sampleAddr : SocketAddr := { ip := .v4 0x7f000001, port := 40000 }

/-- A frame that parses as a relay message. -/
def relayFrame {crates : Crates} (msg : RelayMessage) : Frame crates :=
  { len := 64, typeTag := none, relay := some msg, pex := none }

namespace Script

variable {crates : Crates}

/-- A connection moves a number of times. -/
def moves (c : ConnId) (secs n : ℕ) : List (Label crates) :=
  List.replicate n (.exec c (atSecond secs))

/-- A connection is accepted with an extracted identity and upgraded to the relay wire. -/
def connectAs (c : ConnId) (secs : ℕ) (identity : Option String) : List (Label crates) :=
  .accept sampleAddr identity :: moves c secs 4 ++ [.head c .upgraded (atSecond secs)]

/-- A connection is accepted and upgraded to the relay wire. -/
def connect (c : ConnId) (secs : ℕ) : List (Label crates) := connectAs c secs none

/-- A connection sends a relay message and moves a number of times. -/
def send (c : ConnId) (msg : RelayMessage) (secs n : ℕ) : List (Label crates) :=
  .message c (relayFrame msg) (atSecond secs) :: moves c secs n

/-- A connection registers up to the release of the registry lock, after six moves. -/
def claim (c : ConnId) (peerId networkId : String) (secs : ℕ) : List (Label crates) :=
  send c (.register peerId networkId 1 []) secs 6

/-- A connection registers, acknowledging to itself and notifying a number of others. -/
def register (c : ConnId) (peerId networkId : String) (secs told : ℕ) : List (Label crates) :=
  claim c peerId networkId secs ++ moves c secs (3 + told)

/-- A connection sends an exchange handshake and moves a number of times. -/
def handshake (c : ConnId) (msg : crates.Message) (secs n : ℕ) : List (Label crates) :=
  .message c
      { len := 64, typeTag := some "pex_handshake", relay := none, pex := some msg } (atSecond secs) ::
    moves c secs n

/-- A connection hangs up and takes itself out of registry and exchange, telling a number of others
in between. -/
def depart (c : ConnId) (secs told : ℕ) : List (Label crates) :=
  .hangup c :: moves c secs (2 + told)

/-- A connection that has left lets its writer finish and ends, after a number of writes. -/
def finish (c : ConnId) (secs : ℕ) (writes : List (Label crates)) : List (Label crates) :=
  writes ++ .writerDone c :: moves c secs 4

end Script

/-- Two peers register and one sends the other two messages. -/
def twoMessages : List (Label silentCrates) :=
  Script.connect 0 0 ++ Script.connect 1 0 ++ Script.register 0 "p" "net" 0 0 ++
    Script.register 1 "q" "net" 0 1 ++ Script.send 0 (.relayGossipMessage "p" "q" [1] 1) 0 4 ++
    Script.send 0 (.relayGossipMessage "p" "q" [2] 2) 0 4

end DigRelay
