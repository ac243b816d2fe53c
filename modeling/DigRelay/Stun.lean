import DigRelay.Limits

/-!
# The STUN response limiter

Binding requests arrive over UDP, so their source addresses can be forged. A response is sent only
if the budget of the source and the budget shared by all sources both allow it, each counted per
one-second window. The limiter looks at both budgets before it spends from either. Sources are
tracked in a bounded map that evicts the least recently seen one.
-/

namespace DigRelay

open Common

/-- The response budgets: one bucket per source and one for all of them. -/
structure StunRateLimiter where
  perIpCapacity : ℕ
  globalCapacity : ℕ
  perIp : Table IpAddr TokenBucket
  global : TokenBucket

namespace StunRateLimiter

/-- No source has been seen, and the global bucket is full. -/
def new (perIpCapacity globalCapacity nowMs : ℕ) : StunRateLimiter where
  perIpCapacity
  globalCapacity
  perIp := ∅
  global := TokenBucket.new (max globalCapacity 1) nowMs

/-- Find or create the bucket of a source, evicting the least recently seen one when the map is full
and does not track the source. -/
def bucketFor (limiter : StunRateLimiter) (key : IpAddr) (nowMs : ℕ) : TokenBucket × StunRateLimiter :=
  let perIp := evictMin TokenBucket.lastSeenMs limiter.perIp key
  let bucket := (perIp.lookup key).getD (TokenBucket.new (max limiter.perIpCapacity 1) nowMs)
  (bucket, { limiter with perIp := perIp.insert key bucket })

/-- Write the bucket of a source back. -/
def setBucket (limiter : StunRateLimiter) (key : IpAddr) (bucket : TokenBucket) : StunRateLimiter :=
  { limiter with perIp := limiter.perIp.insert key bucket }

/-- Whether a response to the source may be sent now. A source without a token is only marked as
seen; a token is spent in each enabled budget once both have one. -/
def allow (limiter : StunRateLimiter) (src : IpAddr) (nowMs : ℕ) : Bool × StunRateLimiter :=
  let key := src.toCanonical
  let (bucket, found) := limiter.bucketFor key nowMs
  -- A disabled budget does not touch the map.
  let peeked := if limiter.perIpCapacity > 0 then found else limiter
  if limiter.perIpCapacity > 0 ∧ bucket.available limiter.perIpCapacity nowMs = 0 then
    (false, peeked.setBucket key { bucket with lastSeenMs := nowMs })
  else if limiter.globalCapacity > 0 ∧
      limiter.global.available limiter.globalCapacity nowMs = 0 then
    (false, peeked)
  else
    let (bucket, found) := peeked.bucketFor key nowMs
    let committed :=
      if limiter.perIpCapacity > 0 then
        found.setBucket key (bucket.trySpend limiter.perIpCapacity nowMs).2
      else peeked
    (true,
      if limiter.globalCapacity > 0 then
        { committed with global := (limiter.global.trySpend limiter.globalCapacity nowMs).2 }
      else committed)

section

variable (limiter : StunRateLimiter) (key src : IpAddr) (nowMs : ℕ)

/-- The source's own budget has a token, or there is no such budget. -/
def sourceOpen : Bool :=
  limiter.perIpCapacity = 0 ∨
    0 < offerFor limiter.perIp limiter.perIpCapacity key (nowMs / 1000)

/-- The shared budget has a token, or there is no such budget. -/
def globalOpen : Bool :=
  limiter.globalCapacity = 0 ∨ 0 < limiter.global.offer limiter.globalCapacity (nowMs / 1000)

/-- The bucket a source is tracked by after a call. -/
def touchedBucket : TokenBucket :=
  let bucket := (limiter.perIp.lookup key).getD (TokenBucket.new limiter.perIpCapacity nowMs)
  if limiter.sourceOpen key nowMs = false then { bucket with lastSeenMs := nowMs }
  else if limiter.globalOpen nowMs = false then bucket
  else (bucket.trySpend limiter.perIpCapacity nowMs).2

/-- Looking a stored source up again finds its bucket and evicts nothing. -/
theorem bucketFor_setBucket (bucket : TokenBucket) :
    (limiter.setBucket key bucket).bucketFor key nowMs =
      (bucket, limiter.setBucket key bucket) := by
  have hkept : evictMin TokenBucket.lastSeenMs (limiter.perIp.insert key bucket) key =
      limiter.perIp.insert key bucket := by
    simp [evictMin]
  simp [bucketFor, setBucket, hkept]

/-- The map of sources after a call. -/
def touchedSources : Table IpAddr TokenBucket :=
  if limiter.perIpCapacity > 0 then
    (evictMin TokenBucket.lastSeenMs limiter.perIp key).insert key (limiter.touchedBucket key nowMs)
  else limiter.perIp

/-- The shared bucket after a call. -/
def touchedGlobal : TokenBucket :=
  if limiter.globalCapacity > 0 ∧ limiter.sourceOpen key nowMs ∧ limiter.globalOpen nowMs then
    (limiter.global.trySpend limiter.globalCapacity nowMs).2
  else limiter.global

/-- The bucket found for a source is its own, or a full one. -/
theorem bucketFor_eq (hpos : 0 < limiter.perIpCapacity) :
    limiter.bucketFor key nowMs =
      let bucket := (limiter.perIp.lookup key).getD (TokenBucket.new limiter.perIpCapacity nowMs)
      (bucket, { limiter with
        perIp := (evictMin TokenBucket.lastSeenMs limiter.perIp key).insert key bucket }) := by
  have hcapacity : max limiter.perIpCapacity 1 = limiter.perIpCapacity := max_eq_left hpos
  dsimp only [bucketFor]
  rw [hcapacity, (evictMin_makesRoom _ limiter.perIp key).lookup_key]

/-- The shared budget is shut when it is enabled and has no token left. -/
theorem globalOpen_eq_false_iff :
    limiter.globalOpen nowMs = false ↔
      limiter.globalCapacity > 0 ∧ limiter.global.available limiter.globalCapacity nowMs = 0 := by
  simp [globalOpen, available_eq_offer, Nat.pos_iff_ne_zero]

/-- The source's budget is shut when it is enabled and the bucket found has no token left. -/
theorem sourceOpen_eq_false_iff :
    limiter.sourceOpen key nowMs = false ↔
      limiter.perIpCapacity > 0 ∧ (limiter.bucketFor key nowMs).1.available
        limiter.perIpCapacity nowMs = 0 := by
  rcases Nat.eq_zero_or_pos limiter.perIpCapacity with hzero | hpos
  · simp [sourceOpen, hzero]
  · rw [bucketFor_eq _ _ _ hpos, available_eq_offer]
    simp [sourceOpen, offer_getD, hpos, hpos.ne']

/-- A call answers whether both budgets have a token, and spends one from each if so. -/
theorem allow_eq :
    limiter.allow src nowMs =
      (limiter.sourceOpen src.toCanonical nowMs && limiter.globalOpen nowMs,
        { limiter with
          perIp := limiter.touchedSources src.toCanonical nowMs
          global := limiter.touchedGlobal src.toCanonical nowMs }) := by
  dsimp only [allow]
  simp only [← sourceOpen_eq_false_iff, ← globalOpen_eq_false_iff]
  dsimp only [touchedSources, touchedGlobal, touchedBucket]
  rcases Nat.eq_zero_or_pos limiter.perIpCapacity with hzero | hpos
  · have hsource : limiter.sourceOpen src.toCanonical nowMs = true := by simp [sourceOpen, hzero]
    have hoff : ¬ limiter.perIpCapacity > 0 := by omega
    cases hglobal : limiter.globalOpen nowMs with
    | false => simp [hsource, if_neg hoff]
    | true =>
      simp only [hsource, if_neg hoff, Bool.true_eq_false, if_false, Bool.and_self, and_true]
      split <;> rfl
  · rw [bucketFor_eq _ _ _ hpos]
    cases hsource : limiter.sourceOpen src.toCanonical nowMs with
    | false => simp [setBucket, if_pos hpos]
    | true =>
      cases hglobal : limiter.globalOpen nowMs with
      | false => simp [if_pos hpos]
      | true =>
        have hagain := bucketFor_setBucket
          { limiter with perIp := evictMin TokenBucket.lastSeenMs limiter.perIp src.toCanonical }
          src.toCanonical nowMs ((limiter.perIp.lookup src.toCanonical).getD
            (TokenBucket.new limiter.perIpCapacity nowMs))
        dsimp only [setBucket] at hagain
        simp only [if_pos hpos, hagain, setBucket, AList.insert_insert, Bool.true_eq_false, if_false,
          Bool.and_self, and_true]
        split <;> rfl

/-- A refused source keeps the tokens it had. -/
theorem offer_touchedBucket_of_refused
    (h : (limiter.sourceOpen key nowMs && limiter.globalOpen nowMs) = false) (window : ℕ) :
    (limiter.touchedBucket key nowMs).offer limiter.perIpCapacity window =
      offerFor limiter.perIp limiter.perIpCapacity key window := by
  rw [← offer_getD _ _ nowMs]
  dsimp only [touchedBucket]
  split
  · rfl
  · rename_i hsource
    rw [if_pos]
    simpa [hsource] using h

/-- An answered source has one token less in the present window. -/
theorem offer_touchedBucket_of_answered
    (h : (limiter.sourceOpen key nowMs && limiter.globalOpen nowMs) = true) (window : ℕ) :
    (limiter.touchedBucket key nowMs).offer limiter.perIpCapacity window =
      if window = nowMs / 1000 then
        offerFor limiter.perIp limiter.perIpCapacity key (nowMs / 1000) - 1
      else limiter.perIpCapacity := by
  rw [Bool.and_eq_true] at h
  dsimp only [touchedBucket]
  rw [if_neg (by simp [h.1]), if_neg (by simp [h.2]), offer_trySpend, offer_getD]

/-- A refused request leaves the shared bucket alone. -/
theorem touchedGlobal_of_refused
    (h : (limiter.sourceOpen key nowMs && limiter.globalOpen nowMs) = false) :
    limiter.touchedGlobal key nowMs = limiter.global := by
  rw [touchedGlobal, if_neg]
  rintro ⟨-, hopen⟩
  rw [← Bool.and_eq_true, h] at hopen
  cases hopen

/-- A source is seen now, unless it was tracked before and is refused by the shared budget. -/
theorem touchedBucket_lastSeenMs :
    (limiter.touchedBucket key nowMs).lastSeenMs = nowMs ∨
      (limiter.sourceOpen key nowMs && limiter.globalOpen nowMs) = false ∧
        limiter.perIp.lookup key = some (limiter.touchedBucket key nowMs) := by
  dsimp only [touchedBucket]
  split
  · exact .inl rfl
  · split
    · rename_i hglobal
      cases hlookup : limiter.perIp.lookup key with
      | none => exact .inl rfl
      | some bucket => exact .inr ⟨by simp [hglobal], rfl⟩
    · exact .inl (trySpend_lastSeenMs _ _ _)

end

end StunRateLimiter

end DigRelay
