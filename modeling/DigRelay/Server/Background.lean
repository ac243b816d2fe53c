import DigRelay.Server.Move

/-!
# What the background tasks do

The writers, the exchange tick, the DHT rounds and STUN leave the registry alone, and most facts
need no more than that. Where it matters what they do to the rest of the state, their transitions
are listed here exactly.
-/

namespace DigRelay

open Common

variable {crates : Crates}

/-- The transitions of the background tasks. -/
inductive Background (sys : System crates) : Label crates → System crates → Prop
  | wrote {label : Label crates} {c : ConnId} {conn : Conn crates} {out : Channel RelayMessage}
      {pexOut : Channel crates.Message} (hconn : sys.conns[c]? = some conn)
      (hlabel : (∃ ok, label = .writeRelay c ok) ∨ ∃ ok, label = .writePex c ok)
      (hqueue : pexOut.queue ⊆ conn.pexOut.queue) :
      Background sys label (sys.setConn c { conn with out, pexOut })
  | finished {c : ConnId} {conn : Conn crates} (hconn : sys.conns[c]? = some conn) :
      Background sys (.writerDone c) (sys.setConn c conn.closeChannels)
  | ticked (nowMs : ℕ) :
      Background sys (.pexTick nowMs)
        { sys with
          relay := { sys.relay with pex := (sys.relay.pex.tick nowMs).2 }
          conns := deliverAll ((sys.relay.pex.tick nowMs).1.map fun (tx, msg) => .pex tx msg)
            sys.conns }
  | asking (hdone : sys.asked = []) :
      Background sys .dhtAsk { sys with asked := sys.relay.registry.allSenders.map Prod.snd }
  | asked {tx : ConnId} {rest : List ConnId} (hasked : sys.asked = tx :: rest) :
      Background sys .dhtExec
        { sys with
          conns := deliver (.relay tx (.getDhtRecords dhtMaxKeysPerPeer)) sys.conns
          asked := rest }
  | built (now : ℕ) (hdone : sys.asked = []) :
      Background sys (.dhtBuild now)
        { sys with
          relay := { sys.relay with
            dhtView := buildDhtView sys.relay.dhtAnswers now
            dhtAnswers := [] } }
  | stunned :
      Background sys .stun
        { sys with relay := { sys.relay with stunRequests := sys.relay.stunRequests + 1 } }

variable {setup : Setup} {sys sys' : System crates} {label : Label crates}

/-- A writer's transition replaces the channels of its connection. -/
theorem writeStep_background {c : ConnId} {ok : Bool} {take : Conn crates → Option (Conn crates)}
    (hlabel : (∃ ok, label = .writeRelay c ok) ∨ ∃ ok, label = .writePex c ok)
    (htake : ∀ conn taken, take conn = some taken → ∃ out pexOut,
      pexOut.queue ⊆ conn.pexOut.queue ∧ taken = { conn with out, pexOut })
    (h : writeStep sys c ok take = some sys') : Background sys label sys' := by
  obtain ⟨conn, taken, hconn, htaken, rfl⟩ := writeStep_some h
  cases ok with
  | false => exact .wrote hconn hlabel (List.nil_subset _)
  | true =>
    obtain ⟨out, pexOut, hqueue, rfl⟩ := htake conn taken htaken
    exact .wrote hconn hlabel hqueue

/-- Every transition with a background label is one of those listed. -/
theorem next_background (h : Next setup sys label sys') (hlabel : label.isBackground = true) :
    Background sys label sys' := by
  cases h with
  | rehash => cases hlabel
  | step h =>
    cases label <;> simp only [Label.isBackground, Bool.false_eq_true] at hlabel <;>
      simp only [step] at h
    case writeRelay c ok =>
      refine writeStep_background (.inl ⟨ok, rfl⟩) (fun conn taken htaken => ?_) h
      obtain ⟨⟨msg, out⟩, -, rfl⟩ := Option.map_eq_some_iff.mp htaken
      exact ⟨out, conn.pexOut, List.Subset.refl _, rfl⟩
    case writePex c ok =>
      refine writeStep_background (.inr ⟨ok, rfl⟩) (fun conn taken htaken => ?_) h
      obtain ⟨⟨msg, pexOut⟩, hrecv, rfl⟩ := Option.map_eq_some_iff.mp htaken
      exact ⟨conn.out, pexOut, Channel.recv_queue_subset hrecv, rfl⟩
    case writerDone c =>
      obtain ⟨conn, hconn, hdone⟩ := Option.bind_eq_some_iff.mp h
      split at hdone
      · obtain rfl := Option.some.inj hdone
        exact .finished hconn
      · cases hdone
    case pexTick nowMs =>
      obtain rfl := Option.some.inj h
      exact .ticked nowMs
    case dhtAsk =>
      split at h
      · rename_i hdone
        obtain rfl := Option.some.inj h
        exact .asking (List.isEmpty_iff.mp hdone)
      · cases h
    case dhtExec =>
      split at h
      · cases h
      · rename_i tx rest hasked
        obtain rfl := Option.some.inj h
        exact .asked hasked
    case dhtBuild now =>
      split at h
      · rename_i hdone
        obtain rfl := Option.some.inj h
        exact .built now (List.isEmpty_iff.mp hdone)
      · cases h
    case stun =>
      obtain rfl := Option.some.inj h
      exact .stunned

end DigRelay
