import DigRelay.Common.Window
import DigRelay.Limiters

/-!
# The registration rate counts the registrations of each key

The policy keeps one bucket per key and forgets which requests emptied it. Over a history of
requests at nondecreasing times from no more keys than the map tracks, the bucket holds exactly the
rate less the registrations its key was granted in the present second.
-/

namespace DigRelay

open Common

variable {config : RelayServerConfig} {history : List (LimiterCall × Bool)} {s s' : Limiters}
  {perIpCapacity globalCapacity startMs : ℕ} {call : LimiterCall}

/-- A request for a registration token is granted when its key has one in the present window. -/
theorem allowRegistration_spec (config : RelayServerConfig) (state : AbuseState) (ip : IpAddr)
    (nowMs : ℕ) (hrate : 0 < config.registrationsPerIpPerSec) :
    (state.allowRegistration config ip nowMs).1 =
        decide (0 < offerFor state.regBuckets config.registrationsPerIpPerSec (ipKey ip)
          (nowMs / 1000)) ∧
      ∀ window, offerFor (state.allowRegistration config ip nowMs).2.regBuckets
          config.registrationsPerIpPerSec (ipKey ip) window =
        if window = nowMs / 1000 then
          offerFor state.regBuckets config.registrationsPerIpPerSec (ipKey ip) (nowMs / 1000) - 1
        else config.registrationsPerIpPerSec := by
  have hlookup : (evictLruIfFull state.regBuckets (ipKey ip)).lookup (ipKey ip) =
      state.regBuckets.lookup (ipKey ip) :=
    (evictMin_makesRoom TokenBucket.lastSeenMs state.regBuckets (ipKey ip)).lookup_key
  dsimp only [AbuseState.allowRegistration]
  rw [if_neg hrate.ne', hlookup]
  refine ⟨?_, fun window => ?_⟩
  · rw [(trySpend_spec _ _ nowMs).1, available_eq_offer, offer_getD]
  · rw [offerFor_insert, offer_trySpend, offer_getD]

/-- The buckets hold what the history of registrations leaves of the rate. -/
def RegistrationsTracked (config : RelayServerConfig) (history : List (LimiterCall × Bool))
    (buckets : Table IpKey TokenBucket) : Prop :=
  ∀ window, PastOf .registration history window → ∀ key,
    Tracks config.registrationsPerIpPerSec window (fun _ => False)
      (grantedTo .registration history key)
      (offerFor buckets config.registrationsPerIpPerSec key)

/-- A call to another limit leaves the registration buckets alone. -/
theorem call_regBuckets (h : call.limiter ≠ .registration) :
    (s.call config call).2.abuse.regBuckets = s.abuse.regBuckets := by
  obtain ⟨limiter, ip, nowMs⟩ := call
  cases limiter with
  | registration => exact absurd rfl h
  | strike => exact (recordStrike_keepsBound config ip nowMs s.abuse).2.2
  | ban => exact (isBanned_keepsBound config ip nowMs s.abuse).2.2
  | stun => rfl

/-- While there is room for every key, a call leaves the buckets of other keys alone. -/
theorem call_regBuckets_lookup {key : IpKey} (h : s.KnownTo (history.map Prod.fst))
    (horderly : Orderly [.registration] (history.map Prod.fst ++ [call]))
    (hkey : call.limiter = .registration → key ≠ call.key) :
    (s.call config call).2.abuse.regBuckets.lookup key = s.abuse.regBuckets.lookup key := by
  by_cases hlimiter : call.limiter = .registration
  · exact lookup_of_few h.regBuckets (call_keepsBounds config s call).1.regBuckets
      (List.mem_singleton.mpr hlimiter) horderly.few (hkey hlimiter)
  · rw [call_regBuckets hlimiter]

/-- A request is granted when its key has a token in the present window. -/
theorem call_registration (hrate : 0 < config.registrationsPerIpPerSec)
    (hlimiter : call.limiter = .registration) :
    (s.call config call).1 = decide (0 < offerFor s.abuse.regBuckets
        config.registrationsPerIpPerSec call.key (call.nowMs / 1000)) ∧
      ∀ window, offerFor (s.call config call).2.abuse.regBuckets config.registrationsPerIpPerSec
          call.key window =
        if window = call.nowMs / 1000 then
          offerFor s.abuse.regBuckets config.registrationsPerIpPerSec call.key (call.nowMs / 1000) - 1
        else config.registrationsPerIpPerSec := by
  obtain ⟨limiter, ip, nowMs⟩ := call
  obtain rfl : limiter = .registration := hlimiter
  exact allowRegistration_spec config s.abuse ip nowMs hrate

/-- The buckets still hold what the history leaves of the rate after one more call. -/
theorem registrationsTracked_call (hrate : 0 < config.registrationsPerIpPerSec)
    (hknown : s.KnownTo (history.map Prod.fst))
    (horderly : Orderly [.registration] (history.map Prod.fst ++ [call]))
    (h : RegistrationsTracked config history s.abuse.regBuckets) :
    RegistrationsTracked config (history ++ [(call, (s.call config call).1)])
      (s.call config call).2.abuse.regBuckets := by
  intro window hpast key
  obtain ⟨hbefore, hwindow⟩ := pastOf_append.mp hpast
  by_cases hcaller : call.limiter = .registration ∧ key = call.key
  · obtain ⟨hlimiter, rfl⟩ := hcaller
    obtain ⟨hanswer, hoffer⟩ := call_registration hrate hlimiter
    have htracks := h _ (horderly.chronological.pastOf hlimiter) call.key
    have hspent : (s.call config call).1.toNat = min 1 (offerFor s.abuse.regBuckets
        config.registrationsPerIpPerSec call.key (call.nowMs / 1000)) := by
      rw [hanswer]
      generalize offerFor s.abuse.regBuckets _ _ _ = left
      cases left <;> simp
    refine Tracks.advance (htracks.take ?_ id
      (fun _ => grantedTo_append_of_eq hlimiter rfl) fun window => ?_) (hwindow hlimiter)
    · rw [hspent]
      exact min_le_right _ _
    · rw [hoffer, hspent]
      congr 1
      omega
  · have hgranted : grantedTo .registration (history ++ [(call, (s.call config call).1)]) key =
        grantedTo .registration history key := by
      funext window
      apply grantedTo_append_of_ne
      tauto
    have hoffer : offerFor (s.call config call).2.abuse.regBuckets
        config.registrationsPerIpPerSec key =
        offerFor s.abuse.regBuckets config.registrationsPerIpPerSec key := by
      funext window
      rw [offerFor, offerFor, call_regBuckets_lookup hknown horderly
        fun hlimiter hkey => hcaller ⟨hlimiter, hkey⟩]
    rw [hgranted, hoffer]
    exact h window hbefore key

/-- Empty buckets leave every key the whole rate. -/
theorem registrationsTracked_nil : RegistrationsTracked config [] AbuseState.default.regBuckets :=
  fun _ _ _ => Tracks.start

/-- A rehash keeps what the buckets hold. -/
theorem RegistrationsTracked.rehashed {buckets buckets' : Table IpKey TokenBucket}
    (h : RegistrationsTracked config history buckets) (hsame : Table.Rehashed buckets buckets') :
    RegistrationsTracked config history buckets' := by
  intro window hpast key
  have hoffer : offerFor buckets' config.registrationsPerIpPerSec key =
      offerFor buckets config.registrationsPerIpPerSec key := by
    funext window
    rw [offerFor, offerFor, hsame.lookup_eq]
  rw [hoffer]
  exact h window hpast key

/-- After orderly calls the buckets hold what the history leaves of the rate. -/
theorem registrationsTracked_of_serve (hrate : 0 < config.registrationsPerIpPerSec)
    (h : Limiters.Serve config (.new perIpCapacity globalCapacity startMs) history s)
    (horderly : Orderly [.registration] (history.map Prod.fst)) :
    RegistrationsTracked config history s.abuse.regBuckets := by
  apply h.invariant_calls (Orderly [.registration])
    (fun history s => RegistrationsTracked config history s.abuse.regBuckets) horderly
  · exact fun calls call hlonger => hlonger.before
  · exact registrationsTracked_nil
  · intro earlier s call hserved horderly htracked
    exact registrationsTracked_call hrate (knownTo_of_serve hserved) horderly htracked
  · rintro earlier s s' ⟨regBuckets, _, _, _, hbuckets, _, _, _, rfl⟩ htracked
    exact htracked.rehashed hbuckets

/-- An IPv4 address and its mapped form have one key. -/
theorem ipKey_mapped (bits : BitVec 32) : ipKey (.v6 (0xffff#96 ++ bits)) = ipKey (.v4 bits) := by
  have hmapped : toIpv4Mapped (0xffff#96 ++ bits) = some bits := by
    rw [toIpv4Mapped, BitVec.extractLsb'_append_eq_left, if_pos rfl,
      BitVec.extractLsb'_append_eq_right]
  simp [ipKey, IpAddr.toCanonical, hmapped]

/-- The addresses of one `/64` that are not mapped IPv4 addresses have one key. -/
theorem ipKey_eq_of_prefix {x y : BitVec 128} (hx : toIpv4Mapped x = none)
    (hy : toIpv4Mapped y = none) (h : x.extractLsb' 64 64 = y.extractLsb' 64 64) :
    ipKey (.v6 x) = ipKey (.v6 y) := by
  simp only [ipKey, IpAddr.toCanonical, hx, hy, h]

/-- A registration is granted exactly when its key was granted fewer than the rate in the same
second; other keys are left alone, and the addresses of one `/64` count as one source, as do an IPv4
address and its mapped form. -/
theorem served_registration_rate (hrate : 0 < config.registrationsPerIpPerSec) {ip : IpAddr} {nowMs : ℕ}
    (h : Limiters.Serve config (.new perIpCapacity globalCapacity startMs) history s)
    (horderly : Orderly [.registration] (history.map Prod.fst ++ [⟨.registration, ip, nowMs⟩])) :
    ((s.abuse.allowRegistration config ip nowMs).1 = true ↔
        grantedTo .registration history (ipKey ip) (nowMs / 1000) < config.registrationsPerIpPerSec) ∧
      (∀ key, key ≠ ipKey ip →
        (s.abuse.allowRegistration config ip nowMs).2.regBuckets.lookup key =
          s.abuse.regBuckets.lookup key) ∧
      (∀ x y : BitVec 128, toIpv4Mapped x = none → toIpv4Mapped y = none →
        x.extractLsb' 64 64 = y.extractLsb' 64 64 → ipKey (.v6 x) = ipKey (.v6 y)) ∧
      ∀ bits : BitVec 32, ipKey (.v6 (0xffff#96 ++ bits)) = ipKey (.v4 bits) := by
  have htracked := registrationsTracked_of_serve hrate h horderly.before
  refine ⟨?_, fun key hkey => call_regBuckets_lookup (knownTo_of_serve h) horderly fun _ => hkey,
    fun x y => ipKey_eq_of_prefix, ipKey_mapped⟩
  obtain ⟨hanswer, -⟩ := allowRegistration_spec config s.abuse ip nowMs hrate
  have hbalance := (htracked _ (horderly.chronological.pastOf rfl) (ipKey ip)).balance
  have hleft := hbalance.resolve_left id
  rw [hanswer, decide_eq_true_eq]
  dsimp only at hleft
  omega

/-- The third registration of a source in one second, at a rate of two. -/
theorem served_registration_rate_twice :
    let config : RelayServerConfig := { registrationsPerIpPerSec := 2 }
    let call : LimiterCall := ⟨.registration, .v4 1, 0⟩
    let served := serveAll (Limiters.call config) (.new 5 1000 0) [call, call]
    (served.2.abuse.allowRegistration config (.v4 1) 0).1 = true ↔
      grantedTo .registration served.1 (.v4 1) 0 < 2 := by
  intro config call served
  have horderly : Orderly [.registration] [call, call, call] := by decide
  exact (served_registration_rate (by decide) (Serves.start.serveAll [call, call]) horderly).1

/-- Two addresses of one `/64` are granted a registration each in one second at a rate of one: the
second is a mapped IPv4 address and counts as such. -/
theorem exists_served_prefix_not_shared :
    ∃ (config : RelayServerConfig) (history : List (LimiterCall × Bool)) (s : Limiters)
      (x y : BitVec 128),
      Limiters.Serve config (.new 5 1000 0) history s ∧
        Orderly [.registration] (history.map Prod.fst ++ [⟨.registration, .v6 y, 0⟩]) ∧
        x.extractLsb' 64 64 = y.extractLsb' 64 64 ∧
        config.registrationsPerIpPerSec = 1 ∧
        history = [(⟨.registration, .v6 x, 0⟩, true)] ∧
        (s.abuse.allowRegistration config (.v6 y) 0).1 = true := by
  let config : RelayServerConfig := { registrationsPerIpPerSec := 1 }
  have hserved : Limiters.Serve config (.new 5 1000 0) _ _ :=
    Serves.start.serveAll [⟨.registration, .v6 1, 0⟩]
  exact ⟨config, _, _, 1, 0xffff01020304, hserved, by decide, by decide, rfl, by decide, by decide⟩

end DigRelay
