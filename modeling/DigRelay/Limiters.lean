import DigRelay.Common.Service
import DigRelay.Stun

/-!
# The limiters that remember sources

Four maps are keyed by source addresses that anybody can choose: the registration buckets, the
strikes, the bans and the STUN buckets. Here the policy and the STUN limiter answer calls in any
order and at any times, and the maps may be rehashed between two calls. Each call concerns one
key, and every result about the maps is read off the call's effect at this key and elsewhere.
-/

namespace DigRelay

open Common

/-- The limits that keep a map of sources. -/
inductive Limiter
  | registration
  | strike
  | ban
  | stun
  deriving DecidableEq

/-- A call to one of the limits. -/
structure LimiterCall where
  limiter : Limiter
  ip : IpAddr
  nowMs : ℕ
  deriving DecidableEq

/-- The key a call is counted against. -/
def LimiterCall.key (call : LimiterCall) : IpKey :=
  match call.limiter with
  | .stun => call.ip.toCanonical
  | _ => ipKey call.ip

/-- Only STUN requests are counted against the whole address. -/
theorem LimiterCall.key_of_ne {call : LimiterCall} (h : call.limiter ≠ .stun) :
    call.key = ipKey call.ip := by
  unfold LimiterCall.key
  split
  · rename_i hstun
    exact absurd hstun h
  · rfl

/-- The state behind the limits. -/
structure Limiters where
  abuse : AbuseState
  stun : StunRateLimiter

/-- No source has been seen. -/
def Limiters.new (perIpCapacity globalCapacity startMs : ℕ) : Limiters where
  abuse := .default
  stun := .new perIpCapacity globalCapacity startMs

namespace AbuseState

variable (config : RelayServerConfig) (state : AbuseState) (ip : IpAddr) (nowMs : ℕ)

/-- The strike record of a source once one more strike is counted. -/
def struck : StrikeRecord :=
  ((state.strikes.lookup (ipKey ip)).getD
    { count := 0, windowStartMs := nowMs, lastSeenMs := nowMs }).strike
      config.banStrikeWindow.asMillis nowMs

/-- Whether one more strike bans the source. -/
def strikeBans : Bool :=
  config.banThreshold ≠ 0 ∧ config.banThreshold ≤ (state.struck config ip nowMs).count

/-- A strike that bans moves the source from the strikes to the bans; any other is counted. -/
theorem recordStrike_eq (hthreshold : config.banThreshold ≠ 0) :
    state.recordStrike config ip nowMs =
      if state.strikeBans config ip nowMs then
        { state with
          strikes := (evictLruStrikes state.strikes (ipKey ip)).erase (ipKey ip)
          bans := (evictSoonestBan state.bans (ipKey ip)).insert (ipKey ip)
            (min (nowMs + config.banDuration.asMillis) u64Max) }
      else
        { state with
          strikes := (evictLruStrikes state.strikes (ipKey ip)).insert (ipKey ip)
            (state.struck config ip nowMs) } := by
  have hlookup : (evictLruStrikes state.strikes (ipKey ip)).lookup (ipKey ip) =
      state.strikes.lookup (ipKey ip) :=
    (evictMin_makesRoom StrikeRecord.lastSeenMs state.strikes (ipKey ip)).lookup_key
  dsimp only [recordStrike]
  rw [if_neg hthreshold, hlookup]
  simp [strikeBans, struck, hthreshold]

end AbuseState

/-- Answer a call. A strike has no answer of its own, so it is recorded whether it banned. -/
def Limiters.call (config : RelayServerConfig) (s : Limiters) (call : LimiterCall) :
    Bool × Limiters :=
  match call.limiter with
  | .registration =>
    let (allowed, abuse) := s.abuse.allowRegistration config call.ip call.nowMs
    (allowed, { s with abuse })
  | .strike =>
    (s.abuse.strikeBans config call.ip call.nowMs,
      { s with abuse := s.abuse.recordStrike config call.ip call.nowMs })
  | .ban =>
    let (banned, abuse) := s.abuse.isBanned config call.ip call.nowMs
    (banned, { s with abuse })
  | .stun =>
    let (allowed, stun) := s.stun.allow call.ip call.nowMs
    (allowed, { s with stun })

/-- The four maps are enumerated in another order. -/
def Limiters.Rehashed (s s' : Limiters) : Prop :=
  ∃ regBuckets strikes bans perIp,
    Table.Rehashed s.abuse.regBuckets regBuckets ∧
      Table.Rehashed s.abuse.strikes strikes ∧
      Table.Rehashed s.abuse.bans bans ∧
      Table.Rehashed s.stun.perIp perIp ∧
      s' =
        { abuse := { s.abuse with regBuckets, strikes, bans }
          stun := { s.stun with perIp } }

/-- The limits have answered a history of calls. -/
abbrev Limiters.Serve (config : RelayServerConfig) (start : Limiters)
    (history : List (LimiterCall × Bool)) (s : Limiters) : Prop :=
  Serves (Limiters.call config) Limiters.Rehashed start history s

/-- Each of the four maps changes at the key alone, but for an entry evicted from a full map that
lacks the key. -/
structure Limiters.ChangesAt (s : Limiters) (key : IpKey) (s' : Limiters) : Prop where
  regBuckets : Table.ChangesAt maxTrackedIps TokenBucket.lastSeenMs s.abuse.regBuckets key
    s'.abuse.regBuckets
  strikes : Table.ChangesAt maxTrackedIps StrikeRecord.lastSeenMs s.abuse.strikes key
    s'.abuse.strikes
  bans : Table.ChangesAt maxTrackedIps id s.abuse.bans key s'.abuse.bans
  perIp : Table.ChangesAt maxTrackedIps TokenBucket.lastSeenMs s.stun.perIp key s'.stun.perIp

/-- None of the four maps has outgrown its bound. -/
structure Limiters.Bounded (s : Limiters) : Prop where
  regBuckets : s.abuse.regBuckets.size ≤ maxTrackedIps
  strikes : s.abuse.strikes.size ≤ maxTrackedIps
  bans : s.abuse.bans.size ≤ maxTrackedIps
  perIp : s.stun.perIp.size ≤ maxTrackedIps

section

variable (config : RelayServerConfig) (ip : IpAddr) (nowMs : ℕ)

/-- Asking for a registration token touches the buckets alone. -/
theorem allowRegistration_keepsBound (state : AbuseState) :
    let after := (state.allowRegistration config ip nowMs).2
    Table.KeepsBound maxTrackedIps TokenBucket.lastSeenMs state.regBuckets (ipKey ip)
        after.regBuckets ∧
      after.strikes = state.strikes ∧ after.bans = state.bans := by
  dsimp only [AbuseState.allowRegistration]
  split
  · exact ⟨.refl, rfl, rfl⟩
  · exact ⟨(evictMin_makesRoom _ _ _).insert, rfl, rfl⟩

/-- A strike touches the strikes and the bans. -/
theorem recordStrike_keepsBound (state : AbuseState) :
    let after := state.recordStrike config ip nowMs
    Table.KeepsBound maxTrackedIps StrikeRecord.lastSeenMs state.strikes (ipKey ip) after.strikes ∧
      Table.KeepsBound maxTrackedIps id state.bans (ipKey ip) after.bans ∧
      after.regBuckets = state.regBuckets := by
  by_cases hthreshold : config.banThreshold = 0
  · rw [AbuseState.recordStrike, if_pos hthreshold]
    exact ⟨.refl, .refl, rfl⟩
  · rw [AbuseState.recordStrike_eq _ _ _ _ hthreshold]
    split
    · exact ⟨(evictMin_makesRoom _ _ _).erase, (evictMin_makesRoom _ _ _).insert, rfl⟩
    · exact ⟨(evictMin_makesRoom _ _ _).insert, .refl, rfl⟩

/-- Looking up a ban touches the bans alone. -/
theorem isBanned_keepsBound (state : AbuseState) :
    let after := (state.isBanned config ip nowMs).2
    Table.KeepsBound maxTrackedIps id state.bans (ipKey ip) after.bans ∧
      after.strikes = state.strikes ∧ after.regBuckets = state.regBuckets := by
  dsimp only [AbuseState.isBanned]
  split
  · exact ⟨.refl, rfl, rfl⟩
  · split
    · split
      · exact ⟨.refl, rfl, rfl⟩
      · exact ⟨.erase, rfl, rfl⟩
    · exact ⟨.refl, rfl, rfl⟩

/-- Asking for a response touches the source's bucket. -/
theorem allow_keepsBound (limiter : StunRateLimiter) :
    Table.KeepsBound maxTrackedIps TokenBucket.lastSeenMs limiter.perIp ip.toCanonical
      (limiter.allow ip nowMs).2.perIp := by
  rw [limiter.allow_eq]
  dsimp only [StunRateLimiter.touchedSources]
  split
  · exact (evictMin_makesRoom _ _ _).insert
  · exact .refl

end

/-- A call changes the maps at its own key and keeps them bounded. -/
theorem call_keepsBounds (config : RelayServerConfig) (s : Limiters) (call : LimiterCall) :
    s.ChangesAt call.key (s.call config call).2 ∧ (s.Bounded → (s.call config call).2.Bounded) := by
  obtain ⟨limiter, ip, nowMs⟩ := call
  have hkept {V : Type} {rank : V → ℕ} {table : Table IpKey V} {key : IpKey} :
      Table.ChangesAt maxTrackedIps rank table key table := Table.KeepsBound.refl.changes
  cases limiter with
  | registration =>
    obtain ⟨hbuckets, hstrikes, hbans⟩ := allowRegistration_keepsBound config ip nowMs s.abuse
    refine ⟨⟨hbuckets.changes, ?_, ?_, hkept⟩, fun h => ⟨hbuckets.size_le h.regBuckets, ?_, ?_, h.perIp⟩⟩
    · exact hstrikes ▸ hkept
    · exact hbans ▸ hkept
    · exact hstrikes ▸ h.strikes
    · exact hbans ▸ h.bans
  | strike =>
    obtain ⟨hstrikes, hbans, hbuckets⟩ := recordStrike_keepsBound config ip nowMs s.abuse
    refine ⟨⟨?_, hstrikes.changes, hbans.changes, hkept⟩,
      fun h => ⟨?_, hstrikes.size_le h.strikes, hbans.size_le h.bans, h.perIp⟩⟩
    · exact hbuckets ▸ hkept
    · exact hbuckets ▸ h.regBuckets
  | ban =>
    obtain ⟨hbans, hstrikes, hbuckets⟩ := isBanned_keepsBound config ip nowMs s.abuse
    refine ⟨⟨?_, ?_, hbans.changes, hkept⟩, fun h => ⟨?_, ?_, hbans.size_le h.bans, h.perIp⟩⟩
    · exact hbuckets ▸ hkept
    · exact hstrikes ▸ hkept
    · exact hbuckets ▸ h.regBuckets
    · exact hstrikes ▸ h.strikes
  | stun =>
    have hsources := allow_keepsBound ip nowMs s.stun
    exact ⟨⟨hkept, hkept, hkept, hsources.changes⟩,
      fun h => ⟨h.regBuckets, h.strikes, h.bans, hsources.size_le h.perIp⟩⟩

/-! ### Histories of calls -/

/-- The calls to some of the limits. -/
def callsTo (limiters : List Limiter) (calls : List LimiterCall) : List LimiterCall :=
  calls.filter fun call => call.limiter ∈ limiters

/-- The keys that calls to some of the limits are counted against. -/
def keysOf (limiters : List Limiter) (calls : List LimiterCall) : Finset IpKey :=
  ((callsTo limiters calls).map LimiterCall.key).toFinset

/-- The calls to some of the limits come at nondecreasing times. -/
def Chronological (limiters : List Limiter) (calls : List LimiterCall) : Prop :=
  (callsTo limiters calls).Pairwise fun earlier later => earlier.nowMs ≤ later.nowMs

/-- The calls to some of the limits come at nondecreasing times and from no more keys than a map
tracks. -/
structure Orderly (limiters : List Limiter) (calls : List LimiterCall) : Prop where
  chronological : Chronological limiters calls
  few : (keysOf limiters calls).card ≤ maxTrackedIps

instance (limiters : List Limiter) (calls : List LimiterCall) :
    Decidable (Chronological limiters calls) :=
  inferInstanceAs (Decidable (List.Pairwise _ _))

instance (limiters : List Limiter) (calls : List LimiterCall) :
    Decidable (Orderly limiters calls) :=
  decidable_of_iff (Chronological limiters calls ∧ (keysOf limiters calls).card ≤ maxTrackedIps)
    ⟨fun h => ⟨h.1, h.2⟩, fun h => ⟨h.chronological, h.few⟩⟩

/-- How often a limit granted the calls of a key in a window. -/
def grantedTo (limiter : Limiter) (history : List (LimiterCall × Bool)) (key : IpKey)
    (window : ℕ) : ℕ :=
  history.countP fun (call, granted) =>
    granted ∧ call.limiter = limiter ∧ call.key = key ∧ call.nowMs / 1000 = window

/-- How often a limit granted calls in a window. -/
def grantedBy (limiter : Limiter) (history : List (LimiterCall × Bool)) (window : ℕ) : ℕ :=
  history.countP fun (call, granted) =>
    granted ∧ call.limiter = limiter ∧ call.nowMs / 1000 = window

/-- The calls to a limit have come no later than in a window. -/
def PastOf (limiter : Limiter) (history : List (LimiterCall × Bool)) (window : ℕ) : Prop :=
  ∀ event ∈ history, event.1.limiter = limiter → event.1.nowMs / 1000 ≤ window

section

variable {limiters : List Limiter} {calls : List LimiterCall} {call : LimiterCall}

/-- A further call counts when it is to one of the limits. -/
theorem callsTo_append :
    callsTo limiters (calls ++ [call]) =
      callsTo limiters calls ++ if call.limiter ∈ limiters then [call] else [] := by
  by_cases h : call.limiter ∈ limiters <;> simp [callsTo, h]

/-- A further call adds its key when it is to one of the limits. -/
theorem mem_keysOf_append {key : IpKey} :
    key ∈ keysOf limiters (calls ++ [call]) ↔
      key ∈ keysOf limiters calls ∨ call.limiter ∈ limiters ∧ call.key = key := by
  unfold keysOf
  rw [callsTo_append]
  by_cases h : call.limiter ∈ limiters <;> simp [h, eq_comm, or_comm]

/-- A further call to one of the limits has to come no earlier than the others. -/
theorem chronological_append :
    Chronological limiters (calls ++ [call]) ↔
      Chronological limiters calls ∧ (call.limiter ∈ limiters →
        ∀ earlier ∈ calls, earlier.limiter ∈ limiters → earlier.nowMs ≤ call.nowMs) := by
  unfold Chronological
  rw [callsTo_append, List.pairwise_append]
  by_cases h : call.limiter ∈ limiters
  · simp [h, callsTo]
  · simp [h]

/-- What comes before chronological calls is chronological. -/
theorem Chronological.before (h : Chronological limiters (calls ++ [call])) :
    Chronological limiters calls := (chronological_append.mp h).1

/-- Some of the calls of orderly ones are orderly. -/
theorem Orderly.sublist {fewer : List LimiterCall} (h : Orderly limiters calls)
    (hfewer : fewer.Sublist calls) : Orderly limiters fewer := by
  have hcalls : (callsTo limiters fewer).Sublist (callsTo limiters calls) := hfewer.filter _
  refine ⟨h.chronological.sublist hcalls, le_trans (Finset.card_le_card fun key hkey => ?_) h.few⟩
  exact List.mem_toFinset.mpr ((hcalls.map _).subset (List.mem_toFinset.mp hkey))

/-- What comes before orderly calls is orderly. -/
theorem Orderly.before (h : Orderly limiters (calls ++ [call])) : Orderly limiters calls :=
  h.sublist (List.sublist_append_left calls [call])

end

section

variable {limiter : Limiter} {history : List (LimiterCall × Bool)} {call : LimiterCall}
  {granted : Bool} {key : IpKey} {window : ℕ}

/-- A further call counts when it is granted. -/
theorem grantedTo_append :
    grantedTo limiter (history ++ [(call, granted)]) key window =
      grantedTo limiter history key window +
        if granted ∧ call.limiter = limiter ∧ call.key = key ∧ call.nowMs / 1000 = window then 1
        else 0 := by
  unfold grantedTo
  rw [List.countP_append, List.countP_singleton]
  simp

/-- A call to another limit, or with another key, is not counted. -/
theorem grantedTo_append_of_ne (h : call.limiter ≠ limiter ∨ call.key ≠ key) :
    grantedTo limiter (history ++ [(call, granted)]) key window =
      grantedTo limiter history key window := by
  rw [grantedTo_append, if_neg, Nat.add_zero]
  rintro ⟨-, hlimiter, hkey, -⟩
  exact h.elim (absurd hlimiter) (absurd hkey)

/-- A granted call of the key counts in its window. -/
theorem grantedTo_append_of_eq (hlimiter : call.limiter = limiter) (hkey : call.key = key) :
    grantedTo limiter (history ++ [(call, granted)]) key window =
      grantedTo limiter history key window +
        if window = call.nowMs / 1000 then granted.toNat else 0 := by
  rw [grantedTo_append]
  cases granted <;> simp [hlimiter, hkey, eq_comm]

/-- A further call counts when it is granted by the limit. -/
theorem grantedBy_append :
    grantedBy limiter (history ++ [(call, granted)]) window =
      grantedBy limiter history window +
        if granted ∧ call.limiter = limiter ∧ call.nowMs / 1000 = window then 1 else 0 := by
  unfold grantedBy
  rw [List.countP_append, List.countP_singleton]
  simp

/-- A call to another limit is not counted. -/
theorem grantedBy_append_of_ne (h : call.limiter ≠ limiter) :
    grantedBy limiter (history ++ [(call, granted)]) window = grantedBy limiter history window := by
  rw [grantedBy_append, if_neg fun hcall => h hcall.2.1, Nat.add_zero]

/-- A granted call to the limit counts in its window. -/
theorem grantedBy_append_of_eq (hlimiter : call.limiter = limiter) :
    grantedBy limiter (history ++ [(call, granted)]) window =
      grantedBy limiter history window +
        if window = call.nowMs / 1000 then granted.toNat else 0 := by
  rw [grantedBy_append]
  cases granted <;> simp [hlimiter, eq_comm]

/-- A further call to the limit has to come no later as well. -/
theorem pastOf_append :
    PastOf limiter (history ++ [(call, granted)]) window ↔
      PastOf limiter history window ∧ (call.limiter = limiter → call.nowMs / 1000 ≤ window) := by
  simp [PastOf, or_imp, forall_and]

/-- Chronological calls to a limit have come no later than in the window of the next one. -/
theorem Chronological.pastOf (h : Chronological [limiter] (history.map Prod.fst ++ [call]))
    (hlimiter : call.limiter = limiter) : PastOf limiter history (call.nowMs / 1000) := by
  intro event hevent hto
  apply Nat.div_le_div_right
  exact (chronological_append.mp h).2 (by simp [hlimiter]) event.1 (List.mem_map_of_mem hevent) (by simp [hto])

end

/-! ### The keys the maps know -/

/-- Each map holds only keys that were counted against by calls to its limit. -/
structure Limiters.KnownTo (s : Limiters) (calls : List LimiterCall) : Prop where
  regBuckets : ∀ key, s.abuse.regBuckets.lookup key ≠ none → key ∈ keysOf [.registration] calls
  strikes : ∀ key, s.abuse.strikes.lookup key ≠ none → key ∈ keysOf [.strike] calls
  bans : ∀ key, s.abuse.bans.lookup key ≠ none → key ∈ keysOf [.strike] calls
  perIp : ∀ key, s.stun.perIp.lookup key ≠ none → key ∈ keysOf [.stun] calls

/-- A map that a call changes at its key knows the keys of one more call, if the call is to its limit
or adds no entry. -/
theorem known_of_changesAt {V : Type} {rank : V → ℕ} {table after : Table IpKey V}
    {limiters : List Limiter} {calls : List LimiterCall} {call : LimiterCall}
    (h : ∀ key, table.lookup key ≠ none → key ∈ keysOf limiters calls)
    (hchanges : Table.ChangesAt maxTrackedIps rank table call.key after)
    (hcall : call.limiter ∈ limiters ∨
      (after.lookup call.key ≠ none → table.lookup call.key ≠ none)) (key : IpKey)
    (hkey : after.lookup key ≠ none) : key ∈ keysOf limiters (calls ++ [call]) := by
  rw [mem_keysOf_append]
  by_cases hown : key = call.key
  · rcases hcall with hto | hold
    · exact .inr ⟨hto, hown.symm⟩
    · exact .inl (h key (hown ▸ hold (hown ▸ hkey)))
  · exact .inl (h key (hchanges.lookup_ne_none hown hkey))

/-- A lookup of a ban adds no ban. -/
theorem isBanned_lookup_ne_none {config : RelayServerConfig} {state : AbuseState} {ip : IpAddr}
    {nowMs : ℕ} (h : (state.isBanned config ip nowMs).2.bans.lookup (ipKey ip) ≠ none) :
    state.bans.lookup (ipKey ip) ≠ none := by
  dsimp only [AbuseState.isBanned] at h
  split at h
  · exact h
  · split at h
    · rename_i bannedUntil hbanned
      rw [hbanned]
      nofun
    · exact h

/-- The maps know the keys of one more call. -/
theorem call_knownTo {config : RelayServerConfig} {s : Limiters} {calls : List LimiterCall}
    {call : LimiterCall} (h : s.KnownTo calls) :
    (s.call config call).2.KnownTo (calls ++ [call]) := by
  have hchanges := (call_keepsBounds config s call).1
  obtain ⟨limiter, ip, nowMs⟩ := call
  refine ⟨known_of_changesAt h.regBuckets hchanges.regBuckets ?_,
    known_of_changesAt h.strikes hchanges.strikes ?_, known_of_changesAt h.bans hchanges.bans ?_,
    known_of_changesAt h.perIp hchanges.perIp ?_⟩
  · cases limiter with
    | registration => exact .inl (List.mem_singleton_self _)
    | strike =>
      right
      exact (recordStrike_keepsBound config ip nowMs s.abuse).2.2 ▸ id
    | ban =>
      right
      exact (isBanned_keepsBound config ip nowMs s.abuse).2.2 ▸ id
    | stun => exact .inr id
  · cases limiter with
    | registration =>
      right
      exact (allowRegistration_keepsBound config ip nowMs s.abuse).2.1 ▸ id
    | strike => exact .inl (List.mem_singleton_self _)
    | ban =>
      right
      exact (isBanned_keepsBound config ip nowMs s.abuse).2.1 ▸ id
    | stun => exact .inr id
  · cases limiter with
    | registration =>
      right
      exact (allowRegistration_keepsBound config ip nowMs s.abuse).2.2 ▸ id
    | strike => exact .inl (List.mem_singleton_self _)
    | ban => exact .inr isBanned_lookup_ne_none
    | stun => exact .inr id
  · cases limiter with
    | stun => exact .inl (List.mem_singleton_self _)
    | _ => exact .inr id

/-- After every history of calls the maps hold only keys of these calls. -/
theorem knownTo_of_serve {config : RelayServerConfig} {s : Limiters}
    {history : List (LimiterCall × Bool)} {perIpCapacity globalCapacity startMs : ℕ}
    (h : Limiters.Serve config (.new perIpCapacity globalCapacity startMs) history s) :
    s.KnownTo (history.map Prod.fst) := by
  apply h.always fun history s => s.KnownTo (history.map Prod.fst)
  · exact ⟨fun _ h => absurd rfl h, fun _ h => absurd rfl h, fun _ h => absurd rfl h,
      fun _ h => absurd rfl h⟩
  · intro earlier s call hknown
    rw [List.map_append]
    exact call_knownTo hknown
  · rintro earlier s s' ⟨_, _, _, _, hbuckets, hstrikes, hbans, hsources, rfl⟩ hknown
    exact ⟨fun key hkey => hknown.regBuckets key (hbuckets.lookup_eq key ▸ hkey),
      fun key hkey => hknown.strikes key (hstrikes.lookup_eq key ▸ hkey),
      fun key hkey => hknown.bans key (hbans.lookup_eq key ▸ hkey),
      fun key hkey => hknown.perIp key (hsources.lookup_eq key ▸ hkey)⟩

/-- While there is room for every key, a call leaves the entries of the other keys alone. -/
theorem lookup_of_few {V : Type} {rank : V → ℕ} {table after : Table IpKey V}
    {limiters : List Limiter} {calls : List LimiterCall} {call : LimiterCall} {key : IpKey}
    (h : ∀ key, table.lookup key ≠ none → key ∈ keysOf limiters calls)
    (hchanges : Table.ChangesAt maxTrackedIps rank table call.key after)
    (hto : call.limiter ∈ limiters) (hfew : (keysOf limiters (calls ++ [call])).card ≤ maxTrackedIps)
    (hkey : key ≠ call.key) : after.lookup key = table.lookup key := by
  refine hchanges.lookup_of_card (fun other hother => ?_) ?_ hfew hkey
  · exact mem_keysOf_append.mpr (.inl (h other hother))
  · exact mem_keysOf_append.mpr (.inr ⟨hto, rfl⟩)

end DigRelay
