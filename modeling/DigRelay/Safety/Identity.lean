import DigRelay.Server.Occupancy
import DigRelay.Server.Script

/-!
# Verified identities

On a listener that terminates TLS, the identity extracted from the client certificate is
compared with the claimed id. The comparison is skipped when there is no identity, which is
how a plain listener is told apart. So the check fails closed exactly as far as every accepted
connection has an identity.
-/

namespace DigRelay

open Common

variable {crates : Crates} {setup : Setup} {sys sys' : System crates} {label : Label crates}

/-- Every record was entered by a connection whose extracted identity is the record's id. -/
def Vouched (sys : System crates) : Prop :=
  ∀ peerId peer, sys.relay.registry.lookup peerId = some peer →
    ∃ conn, sys.conns[peer.tx]? = some conn ∧ conn.identity = some peerId

/-- Every connection has an identity, and every record was entered by a connection whose identity
is the record's id. -/
def Ledger.Vouched (ledger : Ledger) : Prop :=
  (∀ entry ∈ ledger.entries, entry.identity.isSome) ∧
    ∀ peerId peer, ledger.registry.lookup peerId = some peer →
      ∃ entry, ledger.entries[peer.tx]? = some entry ∧ entry.identity = some peerId

/-- A transition that accepts no connection without an identity keeps the registry vouched. -/
theorem change_vouched {ledger : Ledger} (htls : setup.tls = true)
    (hlabel : ∀ addr, label ≠ .accept addr none) (hvouched : sys.ledger.Vouched)
    (h : Change setup sys label ledger) : ledger.Vouched := by
  obtain ⟨hidentities, hrecords⟩ := hvouched
  constructor
  · intro entry hmem
    rcases h.entry_origin hmem with ⟨addr, identity, rfl, hidentity⟩ | ⟨old, hold, -, hidentity⟩
    · cases identity with
      | none => exact absurd rfl (hlabel addr)
      | some verified => simp [hidentity, htls]
    · rw [hidentity]
      exact hidentities old hold
  · intro peerId peer hpeer
    have hbefore : ∃ entry, sys.ledger.entries[peer.tx]? = some entry ∧
        entry.identity = some peerId := by
      rcases h.record_origin hpeer with
        hold | ⟨c, clock, conn, request, slot, -, hconn, -, hverified, rfl, rfl⟩
      · exact hrecords peerId peer hold
      · have hentry := ledger_entries_getElem? hconn
        have hsome := hidentities _ (List.mem_of_getElem? hentry)
        obtain ⟨verified, hidentity⟩ := Option.isSome_iff_exists.mp hsome
        exact ⟨conn.entry, hentry, hverified verified hidentity ▸ hidentity⟩
    obtain ⟨entry, hentry, hidentity⟩ := hbefore
    obtain ⟨entry', hentry', -, hsame⟩ := h.entry_kept hentry
    exact ⟨entry', hentry', hsame.trans hidentity⟩

/-- On a TLS listener, in every run whose accepted connections all have an extracted identity,
every record was entered by a connection whose extracted identity is the record's id. -/
theorem run_vouched {trace : List (System crates × Label crates × System crates)}
    (htls : setup.tls = true) (hrun : Run setup trace sys)
    (hidentities : ∀ t ∈ trace, ∀ addr, t.2.1 ≠ .accept addr none) : Vouched sys := by
  have hledger : sys.ledger.Vouched := by
    refine (hrun.invariant_of_guard (fun _ label => ∀ addr, label ≠ .accept addr none)
      (fun sys => sys.ledger.Vouched) hidentities ?_ ?_).1
    · exact ⟨fun entry hmem => (nomatch hmem), fun peerId peer hpeer => (nomatch hpeer)⟩
    · intro s label s' hreach hlabel hvouched hnext
      exact change_vouched htls hlabel hvouched (next_change (wellFormed_of_reachable hreach) hnext)
  intro peerId peer hpeer
  obtain ⟨entry, hentry, hidentity⟩ := hledger.2 peerId peer hpeer
  obtain ⟨conn, hconn, rfl⟩ : ∃ conn, sys.conns[peer.tx]? = some conn ∧ conn.entry = entry := by
    simpa [System.ledger, ledgerOf] using hentry
  exact ⟨conn, hconn, hidentity⟩

/-- The default configuration on a TLS listener. -/
def tlsSetup : Setup := ⟨{}, true⟩

/-- Whether the label accepts a connection without an identity. -/
def acceptsAnonymous : Label crates → Bool
  | .accept _ none => true
  | _ => false

/-- A connection with the identity `p` registers as `p` over TLS. -/
theorem run_vouched_registered :
    ∃ trace sys, @Run silentCrates tlsSetup trace sys ∧ sys.relay.registry.size = 1 ∧
      Vouched sys := by
  obtain ⟨trace, sys, sys', hrun, hcheck, hsize⟩ := @exists_checked_run silentCrates tlsSetup
    (fun _ label => !acceptsAnonymous label)
    (Script.connectAs 0 0 (some "p") ++ Script.send 0 (.register "p" "net" 1 []) 0 5) (.exec 0 (atSecond 0))
    (fun _ sys' => sys'.relay.registry.size = 1) (by decide)
  refine ⟨_, sys', hrun, of_decide_eq_true hsize, run_vouched rfl hrun fun t ht addr hlabel => ?_⟩
  have hpass := hcheck t ht
  rw [hlabel] at hpass
  cases hpass

/-- Over TLS, a connection from whose certificate no identity was extracted registers as `p`. -/
theorem exists_run_not_vouched :
    ∃ trace sys, @Run silentCrates tlsSetup trace sys ∧ ¬ Vouched sys := by
  obtain ⟨trace, sys, sys', hrun, hanonymous⟩ := @exists_run_step silentCrates tlsSetup
    (Script.connectAs 0 0 none ++ Script.send 0 (.register "p" "net" 1 []) 0 5) (.exec 0 (atSecond 0))
    (fun _ sys' => (sys'.relay.registry.lookup "p").any fun peer =>
      sys'.conns[peer.tx]?.all fun conn => conn.identity.isNone)
    (by decide)
  refine ⟨_, sys', hrun, fun hvouched => ?_⟩
  obtain ⟨peer, hpeer, hnone⟩ := (Option.any_eq_true _ _).mp hanonymous
  obtain ⟨conn, hconn, hidentity⟩ := hvouched "p" peer hpeer
  simp [hconn, hidentity] at hnone

end DigRelay
