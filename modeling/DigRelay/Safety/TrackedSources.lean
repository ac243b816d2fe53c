import DigRelay.Limiters

/-!
# The maps of sources stay bounded

Whatever calls arrive, from whatever sources and at whatever times, no map of sources outgrows its
bound. A call gives up at most one entry of a map, and only a full map that does not track the
caller gives one up. The entry given up is one of the oldest, or for bans one of those that lapse
first.
-/

namespace DigRelay

open Common

variable {config : RelayServerConfig} {history : List (LimiterCall × Bool)} {s s' : Limiters}
  {perIpCapacity globalCapacity startMs : ℕ}

/-- Empty maps are within their bound. -/
theorem bounded_new : (Limiters.new perIpCapacity globalCapacity startMs).Bounded :=
  ⟨Nat.zero_le _, Nat.zero_le _, Nat.zero_le _, Nat.zero_le _⟩

/-- A rehash keeps the sizes. -/
theorem Limiters.Rehashed.bounded (h : s.Rehashed s') (hbounded : s.Bounded) : s'.Bounded := by
  obtain ⟨regBuckets, strikes, bans, perIp, hbuckets, hstrikes, hbans, hsources, rfl⟩ := h
  exact ⟨hbuckets.size_eq ▸ hbounded.regBuckets, hstrikes.size_eq ▸ hbounded.strikes,
    hbans.size_eq ▸ hbounded.bans, hsources.size_eq ▸ hbounded.perIp⟩

/-- After every history of calls the maps are within their bound, and the next call changes them at
its own key alone, but for at most one oldest entry that a full map without this key gives up. -/
theorem served_bounded (h : Limiters.Serve config (.new perIpCapacity globalCapacity startMs)
    history s) :
    s.Bounded ∧ ∀ call : LimiterCall, s.ChangesAt call.key (s.call config call).2 := by
  refine ⟨?_, fun call => (call_keepsBounds config s call).1⟩
  apply h.always fun _ s => s.Bounded
  · exact bounded_new
  · exact fun _ s call hbounded => (call_keepsBounds config s call).2 hbounded
  · exact fun _ _ _ hsame hbounded => hsame.bounded hbounded

/-- A strike and a STUN request have been answered. -/
theorem served_bounded_twice :
    let strike : LimiterCall := ⟨.strike, .v4 1, 0⟩
    let request : LimiterCall := ⟨.stun, .v4 2, 5⟩
    let struck := ((Limiters.new 5 1000 0).call {} strike).2
    let asked := (struck.call {} request).2
    asked.Bounded ∧ ∀ call : LimiterCall, asked.ChangesAt call.key (asked.call {} call).2 := by
  intro strike request struck asked
  have hserved : Limiters.Serve {} (.new 5 1000 0) _ asked := .call request (.call strike .start)
  exact served_bounded hserved

end DigRelay
