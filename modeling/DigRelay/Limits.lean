import DigRelay.Common.Eviction
import DigRelay.Common.Table
import DigRelay.Config

/-!
# Abuse limits per source and per connection

The shared policy counts connections and registrations per source key, spends registration
tokens per one-second window, and turns repeated violations into temporary bans. Slots give
their count back when they are dropped. The per-connection limiter is owned by one task and
counts messages, bytes per second and bytes in total.

Every map that attackers can fill is bounded: a new key arriving at a full map evicts one
entry with the smallest time stamp first.
-/

namespace DigRelay

open Common

/-- The bound on tracked source keys. -/
def maxTrackedIps : ℕ := 65536

/-- The largest value of a 32-bit counter. -/
def u32Max : ℕ := 2 ^ 32 - 1

/-- The largest value of a 64-bit counter. -/
def u64Max : ℕ := 2 ^ 64 - 1

/-- Whole tokens left in a one-second window. -/
structure TokenBucket where
  tokens : ℕ
  window : ℕ
  lastSeenMs : ℕ
  deriving DecidableEq

/-- A full bucket in the current window. -/
def TokenBucket.new (capacity nowMs : ℕ) : TokenBucket :=
  { tokens := capacity, window := nowMs / 1000, lastSeenMs := nowMs }

/-- Refill on entering a new window, then spend one token if there is one. -/
def TokenBucket.trySpend (bucket : TokenBucket) (capacity nowMs : ℕ) : Bool × TokenBucket :=
  let window := nowMs / 1000
  let tokens := if window ≠ bucket.window then capacity else bucket.tokens
  if tokens > 0 then (true, { tokens := tokens - 1, window, lastSeenMs := nowMs })
  else (false, { tokens, window, lastSeenMs := nowMs })

/-- The tokens a spend at a time finds: a fresh window's capacity, or what is left of this one. -/
def TokenBucket.available (bucket : TokenBucket) (capacity nowMs : ℕ) : ℕ :=
  if nowMs / 1000 ≠ bucket.window then capacity else bucket.tokens

/-- A spend succeeds when there is a token and leaves one less in the window of its time. -/
theorem trySpend_spec (bucket : TokenBucket) (capacity nowMs : ℕ) :
    (bucket.trySpend capacity nowMs).1 = decide (0 < bucket.available capacity nowMs) ∧
      (bucket.trySpend capacity nowMs).2.window = nowMs / 1000 ∧
      (bucket.trySpend capacity nowMs).2.tokens = bucket.available capacity nowMs - 1 := by
  have hspend : bucket.trySpend capacity nowMs =
      if bucket.available capacity nowMs > 0 then
        (true, ⟨bucket.available capacity nowMs - 1, nowMs / 1000, nowMs⟩)
      else (false, ⟨bucket.available capacity nowMs, nowMs / 1000, nowMs⟩) := rfl
  rw [hspend]
  split
  · rename_i htoken
    exact ⟨(decide_eq_true htoken).symm, rfl, rfl⟩
  · rename_i hnone
    refine ⟨(decide_eq_false hnone).symm, rfl, ?_⟩
    dsimp only
    omega

/-- A spend marks its bucket as seen. -/
theorem trySpend_lastSeenMs (bucket : TokenBucket) (capacity nowMs : ℕ) :
    (bucket.trySpend capacity nowMs).2.lastSeenMs = nowMs := by
  unfold TokenBucket.trySpend
  dsimp only
  split <;> split <;> rfl

/-- The tokens a spend in some window finds. -/
def TokenBucket.offer (bucket : TokenBucket) (capacity window : ℕ) : ℕ :=
  if window = bucket.window then bucket.tokens else capacity

/-- A spend finds what its window offers. -/
theorem available_eq_offer (bucket : TokenBucket) (capacity nowMs : ℕ) :
    bucket.available capacity nowMs = bucket.offer capacity (nowMs / 1000) := by
  unfold TokenBucket.available TokenBucket.offer
  exact ite_not _ _ _

/-- A full bucket offers its capacity in every window. -/
@[simp] theorem offer_new (capacity nowMs window : ℕ) :
    (TokenBucket.new capacity nowMs).offer capacity window = capacity := by
  unfold TokenBucket.offer
  split <;> rfl

/-- A spend takes a token from its own window and leaves the others full. -/
theorem offer_trySpend (bucket : TokenBucket) (capacity nowMs window : ℕ) :
    (bucket.trySpend capacity nowMs).2.offer capacity window =
      if window = nowMs / 1000 then bucket.offer capacity (nowMs / 1000) - 1 else capacity := by
  obtain ⟨-, hwindow, htokens⟩ := trySpend_spec bucket capacity nowMs
  rw [TokenBucket.offer, hwindow, htokens, available_eq_offer]

/-- Bytes left in a one-second window. -/
structure ByteBucket where
  remaining : ℕ
  window : ℕ
  deriving DecidableEq

/-- A full byte budget in the current window. -/
def ByteBucket.new (capacity nowMs : ℕ) : ByteBucket :=
  { remaining := capacity, window := nowMs / 1000 }

/-- Refill on entering a new window, then spend the whole cost if it fits. -/
def ByteBucket.trySpend (bucket : ByteBucket) (capacity cost nowMs : ℕ) : Bool × ByteBucket :=
  let window := nowMs / 1000
  let remaining := if window ≠ bucket.window then capacity else bucket.remaining
  if remaining ≥ cost then (true, { remaining := remaining - cost, window })
  else (false, { remaining, window })

/-- The strikes of one source in its current window. -/
structure StrikeRecord where
  count : ℕ
  windowStartMs : ℕ
  lastSeenMs : ℕ
  deriving DecidableEq

/-- Count one strike, in a fresh window if the current one has passed. -/
def StrikeRecord.strike (record : StrikeRecord) (windowMs nowMs : ℕ) : StrikeRecord :=
  let rolled :=
    if nowMs - record.windowStartMs > windowMs then
      { record with count := 0, windowStartMs := nowMs }
    else record
  { rolled with count := min (rolled.count + 1) u32Max, lastSeenMs := nowMs }

/-- The per-source maps behind the policy. -/
structure AbuseState where
  connsPerIp : Table IpKey ℕ
  regBuckets : Table IpKey TokenBucket
  regsPerIp : Table IpKey ℕ
  strikes : Table IpKey StrikeRecord
  bans : Table IpKey ℕ

/-- No source has been seen yet. -/
def AbuseState.default : AbuseState := ⟨∅, ∅, ∅, ∅, ∅⟩

/-- A reserved connection or registration. A slot of a disabled limit is not tracked. -/
structure Slot where
  tracked : Bool
  key : IpKey
  deriving DecidableEq

/-- Count one more reservation for the key unless it already holds `cap` of them. -/
def acquireCount (counts : Table IpKey ℕ) (cap : ℕ) (key : IpKey) : Option (Table IpKey ℕ) :=
  let count := (counts.lookup key).getD 0
  if count ≥ cap then none else some (counts.insert key (count + 1))

/-- Give one reservation back, forgetting a key that holds none. -/
def releaseCount (counts : Table IpKey ℕ) (key : IpKey) : Table IpKey ℕ :=
  match counts.lookup key with
  | none => counts
  | some count => if count - 1 = 0 then counts.erase key else counts.insert key (count - 1)

/-- Reserve a slot in one of the two counted maps; a zero cap hands out untracked slots. -/
def tryAcquire (counts : Table IpKey ℕ) (cap : ℕ) (ip : IpAddr) : Option (Slot × Table IpKey ℕ) :=
  let key := ipKey ip
  if cap = 0 then some (⟨false, key⟩, counts)
  else (acquireCount counts cap key).map fun counts => (⟨true, key⟩, counts)

/-- Drop a slot of one of the two counted maps. -/
def dropSlot (counts : Table IpKey ℕ) (slot : Slot) : Table IpKey ℕ :=
  if slot.tracked then releaseCount counts slot.key else counts

/-- What a slot contributes to the count of a key. -/
def Slot.weight (slot : Slot) (key : IpKey) : ℕ := if slot.tracked ∧ slot.key = key then 1 else 0

/-- Dropping a slot lowers the counts by what the slot contributes. -/
theorem dropSlot_count (counts : Table IpKey ℕ) (slot : Slot) (key : IpKey) :
    ((dropSlot counts slot).lookup key).getD 0 =
      (counts.lookup key).getD 0 - slot.weight key := by
  unfold dropSlot Slot.weight
  by_cases htracked : slot.tracked = true
  · simp only [htracked, if_true, true_and]
    unfold releaseCount
    split
    · rename_i hnone
      split
      · rename_i hkey
        rw [← hkey, hnone]
        rfl
      · rfl
    · rename_i count hcount
      split
      · rename_i hlast
        rw [Table.lookup_erase_eq]
        by_cases hkey : key = slot.key
        · rw [if_pos hkey, if_pos hkey.symm, hkey, hcount]
          simp only [Option.getD_none, Option.getD_some]
          omega
        · rw [if_neg hkey, if_neg (Ne.symm hkey)]
          rfl
      · rw [Table.lookup_insert_eq]
        by_cases hkey : key = slot.key
        · rw [if_pos hkey, if_pos hkey.symm, hkey, hcount]
          rfl
        · rw [if_neg hkey, if_neg (Ne.symm hkey)]
          rfl
  · simp [htracked]

/-- A granted slot is counted under the source's key, which was below an enabled cap. -/
theorem tryAcquire_some {counts counts' : Table IpKey ℕ} {cap : ℕ} {ip : IpAddr} {slot : Slot}
    (h : tryAcquire counts cap ip = some (slot, counts')) :
    slot = ⟨decide (cap ≠ 0), ipKey ip⟩ ∧
      (cap ≠ 0 → (counts.lookup (ipKey ip)).getD 0 < cap) ∧
      ∀ key, (counts'.lookup key).getD 0 = (counts.lookup key).getD 0 + slot.weight key := by
  dsimp only [tryAcquire] at h
  split at h
  · rename_i hcap
    obtain ⟨rfl, rfl⟩ := Prod.mk.injEq _ _ _ _ ▸ Option.some.inj h
    exact ⟨by simp [hcap], fun hne => absurd hcap hne, fun key => by simp [Slot.weight]⟩
  · rename_i hcap
    obtain ⟨granted, hgranted, heq⟩ := Option.map_eq_some_iff.mp h
    obtain ⟨rfl, rfl⟩ := Prod.mk.injEq _ _ _ _ ▸ heq
    dsimp only [acquireCount] at hgranted
    split at hgranted
    · cases hgranted
    · rename_i hroom
      obtain rfl := Option.some.inj hgranted
      refine ⟨by simp [hcap], fun _ => by omega, fun key => ?_⟩
      rw [Table.lookup_insert_eq]
      by_cases hkey : key = ipKey ip
      · subst hkey
        simp [Slot.weight]
      · simp [Slot.weight, hkey, Ne.symm hkey]

/-- The first entry of smallest rank in enumeration order. -/
def minByKey {V : Type*} (rank : V → ℕ) : List (IpKey × V) → Option (IpKey × V)
  | [] => none
  | entry :: rest =>
    match minByKey rank rest with
    | none => some entry
    | some best => if rank best.2 < rank entry.2 then some best else some entry

/-- Make room for the key: a full map that does not track it loses an entry of smallest rank. -/
def evictMin {V : Type*} (rank : V → ℕ) (table : Table IpKey V) (key : IpKey) : Table IpKey V :=
  if (table.lookup key).isNone ∧ table.size ≥ maxTrackedIps then
    match minByKey rank table.toPairs with
    | some victim => table.erase victim.1
    | none => table
  else table

/-- Only an empty enumeration has no entry of smallest rank. -/
theorem eq_nil_of_minByKey_none {V : Type*} {rank : V → ℕ} {entries : List (IpKey × V)}
    (h : minByKey rank entries = none) : entries = [] := by
  cases entries with
  | nil => rfl
  | cons first rest =>
    unfold minByKey at h
    split at h
    · cases h
    · split at h <;> cases h

/-- The chosen entry is one of those listed, and none has a smaller rank. -/
theorem minByKey_some {V : Type*} {rank : V → ℕ} {entries : List (IpKey × V)} {best : IpKey × V}
    (h : minByKey rank entries = some best) :
    best ∈ entries ∧ ∀ entry ∈ entries, rank best.2 ≤ rank entry.2 := by
  induction entries generalizing best with
  | nil => cases h
  | cons first rest ih =>
    unfold minByKey at h
    split at h
    · rename_i hnone
      obtain rfl := Option.some.inj h
      simp [eq_nil_of_minByKey_none hnone]
    · rename_i found hfound
      obtain ⟨hmem, hmin⟩ := ih hfound
      split at h
      · rename_i hlt
        obtain rfl := Option.some.inj h
        exact ⟨List.mem_cons_of_mem _ hmem, List.forall_mem_cons.mpr ⟨Nat.le_of_lt hlt, hmin⟩⟩
      · rename_i hge
        obtain rfl := Option.some.inj h
        refine ⟨List.mem_cons_self, List.forall_mem_cons.mpr ⟨Nat.le_refl _, fun entry hentry => ?_⟩⟩
        exact Nat.le_trans (Nat.not_lt.mp hge) (hmin entry hentry)

/-- Eviction makes room for the key within the bound on tracked keys. -/
theorem evictMin_makesRoom {V : Type*} (rank : V → ℕ) (table : Table IpKey V) (key : IpKey) :
    Table.MakesRoom maxTrackedIps rank table key (evictMin rank table key) := by
  unfold evictMin
  split
  · rename_i hfull
    obtain ⟨habsent, hfull⟩ := hfull
    split
    · rename_i victim hvictim
      obtain ⟨hmem, hmin⟩ := minByKey_some hvictim
      refine .evicted victim.1 victim.2 (Option.isNone_iff_eq_none.mp habsent) hfull
        ((table.mem_toPairs_iff _ _).mp hmem) fun other entry hother => ?_
      exact hmin (other, entry) ((table.mem_toPairs_iff _ _).mpr hother)
    · rename_i hnone
      have hempty : table.size = 0 := by
        have hpairs := congrArg List.length (eq_nil_of_minByKey_none hnone)
        simpa [Table.toPairs, Table.size] using hpairs
      have hpos : 0 < maxTrackedIps := by decide
      omega
  · rename_i hroom
    refine .kept ?_
    by_cases habsent : table.lookup key = none
    · exact .inr (Nat.lt_of_not_le fun hfull => hroom ⟨by simp [habsent], hfull⟩)
    · exact .inl habsent

/-- Evict the least recently seen rate bucket. -/
def evictLruIfFull (buckets : Table IpKey TokenBucket) (key : IpKey) : Table IpKey TokenBucket :=
  evictMin TokenBucket.lastSeenMs buckets key

/-- The tokens a source finds in some window; a source that is not tracked finds a full bucket. -/
def offerFor (buckets : Table IpKey TokenBucket) (capacity : ℕ) (key : IpKey) (window : ℕ) : ℕ :=
  (buckets.lookup key).elim capacity fun bucket => bucket.offer capacity window

/-- A bucket that is found or created offers what its source finds. -/
theorem offer_getD (buckets : Table IpKey TokenBucket) (capacity nowMs : ℕ) (key : IpKey)
    (window : ℕ) :
    ((buckets.lookup key).getD (TokenBucket.new capacity nowMs)).offer capacity window =
      offerFor buckets capacity key window := by
  unfold offerFor
  cases buckets.lookup key with
  | none => exact offer_new capacity nowMs window
  | some bucket => rfl

/-- A source whose bucket is stored finds what the bucket offers. -/
@[simp] theorem offerFor_insert (buckets : Table IpKey TokenBucket) (capacity : ℕ) (key : IpKey)
    (bucket : TokenBucket) (window : ℕ) :
    offerFor (buckets.insert key bucket) capacity key window = bucket.offer capacity window := by
  simp [offerFor]

/-- Evict the least recently seen strike record. -/
def evictLruStrikes (strikes : Table IpKey StrikeRecord) (key : IpKey) : Table IpKey StrikeRecord :=
  evictMin StrikeRecord.lastSeenMs strikes key

/-- Evict the ban that lapses first. -/
def evictSoonestBan (bans : Table IpKey ℕ) (key : IpKey) : Table IpKey ℕ := evictMin id bans key

namespace AbuseState

/-- Reserve a connection slot for the source. -/
def tryAcquireConn (config : RelayServerConfig) (state : AbuseState) (ip : IpAddr) :
    Option (Slot × AbuseState) :=
  (tryAcquire state.connsPerIp config.maxConnectionsPerIp ip).map fun (slot, counts) =>
    (slot, { state with connsPerIp := counts })

/-- Release a connection slot. -/
def dropConn (state : AbuseState) (slot : Slot) : AbuseState :=
  { state with connsPerIp := dropSlot state.connsPerIp slot }

/-- Reserve a registration slot for the source. -/
def tryAcquireRegistration (config : RelayServerConfig) (state : AbuseState) (ip : IpAddr) :
    Option (Slot × AbuseState) :=
  (tryAcquire state.regsPerIp config.maxRegistrationsPerIp ip).map fun (slot, counts) =>
    (slot, { state with regsPerIp := counts })

/-- Release a registration slot. -/
def dropReg (state : AbuseState) (slot : Slot) : AbuseState :=
  { state with regsPerIp := dropSlot state.regsPerIp slot }

/-- Spend one registration token of the source's current window. -/
def allowRegistration (config : RelayServerConfig) (state : AbuseState) (ip : IpAddr) (nowMs : ℕ) :
    Bool × AbuseState :=
  let capacity := config.registrationsPerIpPerSec
  if capacity = 0 then (true, state)
  else
    let key := ipKey ip
    let buckets := evictLruIfFull state.regBuckets key
    let bucket := (buckets.lookup key).getD (TokenBucket.new capacity nowMs)
    let (allowed, bucket) := bucket.trySpend capacity nowMs
    (allowed, { state with regBuckets := buckets.insert key bucket })

/-- Whether the source is banned; a lapsed ban is forgotten. -/
def isBanned (config : RelayServerConfig) (state : AbuseState) (ip : IpAddr) (nowMs : ℕ) :
    Bool × AbuseState :=
  if config.banThreshold = 0 then (false, state)
  else
    let key := ipKey ip
    match state.bans.lookup key with
    | some bannedUntil =>
      if nowMs < bannedUntil then (true, state) else (false, { state with bans := state.bans.erase key })
    | none => (false, state)

/-- Count a strike against the source, banning it when the threshold is reached within one
window. -/
def recordStrike (config : RelayServerConfig) (state : AbuseState) (ip : IpAddr) (nowMs : ℕ) :
    AbuseState :=
  if config.banThreshold = 0 then state
  else
    let key := ipKey ip
    let strikes := evictLruStrikes state.strikes key
    let found := (strikes.lookup key).getD { count := 0, windowStartMs := nowMs, lastSeenMs := nowMs }
    let struck := found.strike config.banStrikeWindow.asMillis nowMs
    if struck.count ≥ config.banThreshold then
      let bannedUntil := min (nowMs + config.banDuration.asMillis) u64Max
      { state with
        strikes := strikes.erase key
        bans := (evictSoonestBan state.bans key).insert key bannedUntil }
    else { state with strikes := strikes.insert key struck }

section

variable (config : RelayServerConfig) (state : AbuseState) (ip : IpAddr) (nowMs : ℕ)

/-- Looking up a ban leaves the registration counts alone. -/
@[simp] theorem isBanned_regsPerIp :
    (state.isBanned config ip nowMs).2.regsPerIp = state.regsPerIp := by
  dsimp only [isBanned]
  split
  · rfl
  · split
    · split <;> rfl
    · rfl

/-- A strike leaves the registration counts alone. -/
@[simp] theorem recordStrike_regsPerIp :
    (state.recordStrike config ip nowMs).regsPerIp = state.regsPerIp := by
  dsimp only [recordStrike]
  split
  · rfl
  · split <;> rfl

/-- Spending a registration token leaves the registration counts alone. -/
@[simp] theorem allowRegistration_regsPerIp :
    (state.allowRegistration config ip nowMs).2.regsPerIp = state.regsPerIp := by
  dsimp only [allowRegistration]
  split <;> rfl

/-- Looking up a ban leaves the connection counts alone. -/
@[simp] theorem isBanned_connsPerIp :
    (state.isBanned config ip nowMs).2.connsPerIp = state.connsPerIp := by
  dsimp only [isBanned]
  split
  · rfl
  · split
    · split <;> rfl
    · rfl

/-- A strike leaves the connection counts alone. -/
@[simp] theorem recordStrike_connsPerIp :
    (state.recordStrike config ip nowMs).connsPerIp = state.connsPerIp := by
  dsimp only [recordStrike]
  split
  · rfl
  · split <;> rfl

/-- Spending a registration token leaves the connection counts alone. -/
@[simp] theorem allowRegistration_connsPerIp :
    (state.allowRegistration config ip nowMs).2.connsPerIp = state.connsPerIp := by
  dsimp only [allowRegistration]
  split <;> rfl

/-- Reserving a connection slot leaves the registration counts alone. -/
theorem tryAcquireConn_regsPerIp {config : RelayServerConfig} {state state' : AbuseState}
    {ip : IpAddr} {slot : Slot} (h : state.tryAcquireConn config ip = some (slot, state')) :
    state'.regsPerIp = state.regsPerIp := by
  obtain ⟨_, _, heq⟩ := Option.map_eq_some_iff.mp h
  rw [← (Prod.mk.inj heq).2]

end

end AbuseState

/-- The verdict on one inbound frame. -/
inductive Admit
  | ok
  | disconnect
  deriving DecidableEq

/-- The budgets of one connection. -/
structure PerConnLimiter where
  msgs : TokenBucket
  bytes : ByteBucket
  relayedTotal : ℕ
  deriving DecidableEq

/-- Fresh budgets for a connection opened now. -/
def PerConnLimiter.new (config : RelayServerConfig) (nowMs : ℕ) : PerConnLimiter :=
  { msgs := TokenBucket.new config.messagesPerConnPerSec nowMs
    bytes := ByteBucket.new config.bytesPerConnPerSec nowMs
    relayedTotal := 0 }

/-- Charge one frame against the message rate, the byte rate and the total, in this order; the
first exceeded budget disconnects. -/
def PerConnLimiter.admit (config : RelayServerConfig) (limiter : PerConnLimiter)
    (frameLen nowMs : ℕ) : Admit × PerConnLimiter :=
  let msgs := limiter.msgs.trySpend config.messagesPerConnPerSec nowMs
  if config.messagesPerConnPerSec > 0 ∧ msgs.1 = false then
    (.disconnect, { limiter with msgs := msgs.2 })
  else
    let limiter := if config.messagesPerConnPerSec > 0 then { limiter with msgs := msgs.2 } else limiter
    let bytes := limiter.bytes.trySpend config.bytesPerConnPerSec frameLen nowMs
    if config.bytesPerConnPerSec > 0 ∧ bytes.1 = false then
      (.disconnect, { limiter with bytes := bytes.2 })
    else
      let limiter := if config.bytesPerConnPerSec > 0 then { limiter with bytes := bytes.2 } else limiter
      let total := min (limiter.relayedTotal + frameLen) u64Max
      let limiter := { limiter with relayedTotal := total }
      if config.maxRelayedBytesPerConn > 0 ∧ total > config.maxRelayedBytesPerConn then
        (.disconnect, limiter)
      else (.ok, limiter)

end DigRelay
