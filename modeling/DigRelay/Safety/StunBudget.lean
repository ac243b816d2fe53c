import DigRelay.Common.Window
import DigRelay.Limiters

/-!
# The STUN budgets count the responses that were sent

The limiter keeps a bucket per source and one for all sources. Over a history of requests at
nondecreasing times, the shared bucket always holds its capacity less the responses of the present
second. The bucket of a source does so as long as it is not forgotten while it is empty: a forged
flood of more sources than the map tracks can evict it within the second, unless the shared budget
is used up by then.
-/

namespace DigRelay

open Common

variable {config : RelayServerConfig} {history : List (LimiterCall × Bool)} {s s' : Limiters}
  {perIpCapacity globalCapacity startMs : ℕ} {call : LimiterCall}

/-- A call to another limit leaves the STUN limiter alone. -/
theorem call_stun_of_ne (h : call.limiter ≠ .stun) : (s.call config call).2.stun = s.stun := by
  obtain ⟨limiter, ip, nowMs⟩ := call
  cases limiter with
  | registration => rfl
  | strike => rfl
  | ban => rfl
  | stun => exact absurd rfl h

/-- A request is answered by the STUN limiter. -/
theorem call_stun (h : call.limiter = .stun) :
    (s.call config call).1 = (s.stun.sourceOpen call.key call.nowMs && s.stun.globalOpen call.nowMs) ∧
      (s.call config call).2.stun =
        { s.stun with
          perIp := s.stun.touchedSources call.key call.nowMs
          global := s.stun.touchedGlobal call.key call.nowMs } := by
  obtain ⟨limiter, ip, nowMs⟩ := call
  obtain rfl : limiter = .stun := h
  have hallow := s.stun.allow_eq ip nowMs
  exact ⟨congrArg Prod.fst hallow, congrArg Prod.snd hallow⟩

/-- The limiter has its configured capacities. -/
structure StunRateLimiter.Has (limiter : StunRateLimiter) (perIpCapacity globalCapacity : ℕ) :
    Prop where
  perIp : limiter.perIpCapacity = perIpCapacity
  global : limiter.globalCapacity = globalCapacity

/-- No call changes a capacity. -/
theorem has_of_serve
    (h : Limiters.Serve config (.new perIpCapacity globalCapacity startMs) history s) :
    s.stun.Has perIpCapacity globalCapacity := by
  apply h.always fun _ s => s.stun.Has perIpCapacity globalCapacity
  · exact ⟨rfl, rfl⟩
  · intro earlier s call hhas
    by_cases hlimiter : call.limiter = .stun
    · rw [(call_stun hlimiter).2]
      exact ⟨hhas.perIp, hhas.global⟩
    · rwa [call_stun_of_ne hlimiter]
  · rintro earlier s s' ⟨_, _, _, _, _, _, _, _, rfl⟩ hhas
    exact ⟨hhas.perIp, hhas.global⟩

/-- The shared bucket holds what the history of responses leaves of its capacity. -/
structure GlobalTracked (globalCapacity : ℕ) (history : List (LimiterCall × Bool))
    (limiter : StunRateLimiter) : Prop where
  tracks : ∀ window, PastOf .stun history window →
    Tracks globalCapacity window (fun _ => False) (grantedBy .stun history)
      (limiter.global.offer globalCapacity)
  bounded : ∀ window, grantedBy .stun history window ≤ globalCapacity

/-- A call that is not granted is counted nowhere. -/
theorem grantedBy_append_false {limiter : Limiter} :
    grantedBy limiter (history ++ [(call, false)]) = grantedBy limiter history := by
  funext window
  simp [grantedBy_append]

/-- A call that is not counted and leaves the shared bucket alone leaves it tracked. -/
theorem GlobalTracked.append {limiter limiter' : StunRateLimiter} {granted : Bool}
    (h : GlobalTracked globalCapacity history limiter)
    (hcount : grantedBy .stun (history ++ [(call, granted)]) = grantedBy .stun history)
    (hkept : limiter'.global = limiter.global) :
    GlobalTracked globalCapacity (history ++ [(call, granted)]) limiter' := by
  constructor
  · intro window hpast
    rw [hcount, hkept]
    exact h.tracks window (pastOf_append.mp hpast).1
  · rw [hcount]
    exact h.bounded

/-- An answered request takes one token from the shared bucket. -/
theorem globalTracked_answered (hpos : 0 < globalCapacity)
    (hhas : s.stun.Has perIpCapacity globalCapacity) (hlimiter : call.limiter = .stun)
    (hpast : PastOf .stun history (call.nowMs / 1000))
    (hanswered : (s.stun.sourceOpen call.key call.nowMs && s.stun.globalOpen call.nowMs) = true)
    (h : GlobalTracked globalCapacity history s.stun) :
    GlobalTracked globalCapacity (history ++ [(call, true)]) (s.call config call).2.stun := by
  rw [Bool.and_eq_true] at hanswered
  have htracks := h.tracks _ hpast
  have hopen : 0 < s.stun.global.offer globalCapacity (call.nowMs / 1000) := by
    have hglobal := hanswered.2
    rw [StunRateLimiter.globalOpen, hhas.global, decide_eq_true_eq] at hglobal
    exact hglobal.resolve_left hpos.ne'
  have hspent : (s.call config call).2.stun.global =
      (s.stun.global.trySpend globalCapacity call.nowMs).2 := by
    rw [(call_stun hlimiter).2]
    dsimp only
    rw [StunRateLimiter.touchedGlobal, hhas.global, if_pos ⟨hpos, hanswered⟩]
  have hcount (window : ℕ) : grantedBy .stun (history ++ [(call, true)]) window =
      grantedBy .stun history window + if window = call.nowMs / 1000 then 1 else 0 :=
    grantedBy_append_of_eq hlimiter
  constructor
  · intro window hwindow
    rw [hspent]
    apply Tracks.advance _ ((pastOf_append.mp hwindow).2 hlimiter)
    exact htracks.take hopen id hcount fun window => offer_trySpend _ _ _ _
  · exact htracks.take_le hopen id h.bounded hcount

/-- The shared bucket still holds what the history leaves after one more call. -/
theorem globalTracked_call (hpos : 0 < globalCapacity)
    (hhas : s.stun.Has perIpCapacity globalCapacity)
    (hchronological : Chronological [.stun] (history.map Prod.fst ++ [call]))
    (h : GlobalTracked globalCapacity history s.stun) :
    GlobalTracked globalCapacity (history ++ [(call, (s.call config call).1)])
      (s.call config call).2.stun := by
  by_cases hlimiter : call.limiter = .stun
  · obtain ⟨hanswer, hafter⟩ := @call_stun config s call hlimiter
    rw [hanswer]
    cases hgranted : s.stun.sourceOpen call.key call.nowMs && s.stun.globalOpen call.nowMs with
    | false =>
      apply h.append grantedBy_append_false
      rw [hafter]
      exact s.stun.touchedGlobal_of_refused call.key call.nowMs hgranted
    | true =>
      exact globalTracked_answered hpos hhas hlimiter (hchronological.pastOf hlimiter) hgranted h
  · apply h.append (funext fun window => grantedBy_append_of_ne hlimiter)
    rw [call_stun_of_ne hlimiter]

/-- After chronological requests the shared bucket holds what the history leaves. -/
theorem globalTracked_of_serve (hpos : 0 < globalCapacity)
    (h : Limiters.Serve config (.new perIpCapacity globalCapacity startMs) history s)
    (hchronological : Chronological [.stun] (history.map Prod.fst)) :
    GlobalTracked globalCapacity history s.stun := by
  apply h.invariant_calls (Chronological [.stun])
    (fun history s => GlobalTracked globalCapacity history s.stun) hchronological
  · exact fun calls call hlonger => hlonger.before
  · refine ⟨fun window _ => ?_, fun window => Nat.zero_le _⟩
    have hfull : (TokenBucket.new (max globalCapacity 1) startMs).offer globalCapacity =
        fun _ => globalCapacity := by
      rw [max_eq_left hpos]
      exact funext fun window => offer_new globalCapacity startMs window
    exact hfull ▸ Tracks.start
  · intro earlier s call hserved hchronological htracked
    exact globalTracked_call hpos (has_of_serve hserved) hchronological htracked
  · rintro earlier s s' ⟨_, _, _, _, _, _, _, _, rfl⟩ htracked
    exact ⟨htracked.tracks, htracked.bounded⟩

/-- The shared budget of a window is enabled and used up. -/
def Exhausted (globalCapacity : ℕ) (history : List (LimiterCall × Bool)) (window : ℕ) : Prop :=
  0 < globalCapacity ∧ globalCapacity ≤ grantedBy .stun history window

/-- The bucket of a source, if it has one, holds what the history of responses leaves of its
capacity, except in a window whose shared budget is used up. It was last seen no earlier than the
responses to the source, in a window with such a response or with a used up budget. -/
structure SourceTracked (perIpCapacity globalCapacity : ℕ) (history : List (LimiterCall × Bool))
    (key : IpKey) (found : Option TokenBucket) : Prop where
  tracks : ∀ window, PastOf .stun history window →
    Tracks perIpCapacity window (Exhausted globalCapacity history) (grantedTo .stun history key)
      fun window => found.elim perIpCapacity fun bucket => bucket.offer perIpCapacity window
  latest : ∀ bucket, found = some bucket → ∀ window, 0 < grantedTo .stun history key window →
    window ≤ bucket.lastSeenMs / 1000
  justified : ∀ bucket, found = some bucket →
    0 < grantedTo .stun history key (bucket.lastSeenMs / 1000) ∨
      Exhausted globalCapacity history (bucket.lastSeenMs / 1000)
  bounded : ∀ window, grantedTo .stun history key window ≤ perIpCapacity

/-- Every source is tracked. -/
def SourcesTracked (perIpCapacity globalCapacity : ℕ) (history : List (LimiterCall × Bool))
    (limiter : StunRateLimiter) : Prop :=
  ∀ key, SourceTracked perIpCapacity globalCapacity history key (limiter.perIp.lookup key)

/-- The sources that were granted a response in a window. -/
def grantedKeys (history : List (LimiterCall × Bool)) (window : ℕ) : Finset IpKey :=
  ((history.filter fun (call, granted) =>
    granted ∧ call.limiter = .stun ∧ call.nowMs / 1000 = window).map fun event => event.1.key).toFinset

/-- A source was granted a response in a window exactly when some response was counted for it. -/
theorem mem_grantedKeys {key : IpKey} {window : ℕ} :
    key ∈ grantedKeys history window ↔ 0 < grantedTo .stun history key window := by
  simp only [grantedKeys, grantedTo, List.mem_toFinset, List.mem_map, List.mem_filter,
    List.countP_pos_iff, decide_eq_true_eq]
  constructor
  · rintro ⟨event, ⟨hmem, hgranted, hlimiter, hwindow⟩, hkey⟩
    exact ⟨event, hmem, hgranted, hlimiter, hkey, hwindow⟩
  · rintro ⟨event, hmem, hgranted, hlimiter, hkey, hwindow⟩
    exact ⟨event, ⟨hmem, hgranted, hlimiter, hwindow⟩, hkey⟩

/-- There are no more such sources than responses. -/
theorem card_grantedKeys_le {window : ℕ} :
    (grantedKeys history window).card ≤ grantedBy .stun history window := by
  refine (List.toFinset_card_le _).trans ?_
  rw [List.length_map, grantedBy, List.countP_eq_length_filter]

/-- Nothing was granted after the last call. -/
theorem grantedBy_eq_zero {limiter : Limiter} {now window : ℕ} (hpast : PastOf limiter history now)
    (hlater : now < window) : grantedBy limiter history window = 0 := by
  refine List.countP_eq_zero.mpr fun event hevent hcounted => ?_
  simp only [decide_eq_true_eq] at hcounted
  have hle := hpast event hevent hcounted.2.1
  omega

/-- The sources that ask in a window. -/
def keysIn (calls : List LimiterCall) (window : ℕ) : Finset IpKey :=
  keysOf [.stun] (calls.filter fun call => call.nowMs / 1000 = window)

/-- No source can be forgotten in a window in which it has a response to its account and another one
can still be sent: the shared budget is used up before the map is full of sources seen in the
window, or there are not enough of them. -/
def Sheltered (globalCapacity : ℕ) (calls : List LimiterCall) : Prop :=
  (0 < globalCapacity ∧ globalCapacity ≤ maxTrackedIps) ∨
    ∀ window, (keysIn calls window).card ≤ maxTrackedIps

/-- A source that is granted a response asks. -/
theorem mem_keysIn_of_granted {key : IpKey} {window : ℕ}
    (h : 0 < grantedTo .stun history key window) : key ∈ keysIn (history.map Prod.fst) window := by
  obtain ⟨event, hmem, hcounted⟩ := List.countP_pos_iff.mp h
  simp only [decide_eq_true_eq] at hcounted
  simp only [keysIn, keysOf, callsTo, List.mem_toFinset, List.mem_map, List.mem_filter]
  refine ⟨event.1, ⟨⟨⟨event, hmem, rfl⟩, ?_⟩, ?_⟩, hcounted.2.2.1⟩
  · simpa using hcounted.2.2.2
  · simp [hcounted.2.1]

/-- A further request adds its source. -/
theorem mem_keysIn_append {calls : List LimiterCall} {key : IpKey} {window : ℕ} :
    key ∈ keysIn (calls ++ [call]) window ↔ key ∈ keysIn calls window ∨
      call.nowMs / 1000 = window ∧ call.limiter = .stun ∧ call.key = key := by
  unfold keysIn
  rw [List.filter_append]
  by_cases hwindow : call.nowMs / 1000 = window
  · simp [hwindow, mem_keysOf_append]
  · simp [hwindow]

/-- The source evicted by a request has no response to its account in the window of the request, or
the shared budget is used up. -/
theorem victim_unspent {victim : IpKey} {value : TokenBucket}
    (h : SourcesTracked perIpCapacity globalCapacity history s.stun)
    (hlimiter : call.limiter = .stun)
    (hpast : PastOf .stun history (call.nowMs / 1000))
    (hsheltered : Sheltered globalCapacity (history.map Prod.fst ++ [call]))
    (habsent : s.stun.perIp.lookup call.key = none) (hfull : maxTrackedIps ≤ s.stun.perIp.size)
    (hvictim : s.stun.perIp.lookup victim = some value)
    (hmin : ∀ other entry, s.stun.perIp.lookup other = some entry →
      value.lastSeenMs ≤ entry.lastSeenMs) :
    Exhausted globalCapacity history (call.nowMs / 1000) ∨
      grantedTo .stun history victim (call.nowMs / 1000) = 0 := by
  by_contra hnot
  obtain ⟨hopen, hspent⟩ := not_or.mp hnot
  have hseen : ∀ other, s.stun.perIp.lookup other ≠ none →
      other ∈ grantedKeys history (call.nowMs / 1000) := by
    intro other hother
    obtain ⟨entry, hentry⟩ := Option.ne_none_iff_exists'.mp hother
    have hlate : call.nowMs / 1000 ≤ entry.lastSeenMs / 1000 :=
      ((h victim).latest value hvictim _ (Nat.pos_of_ne_zero hspent)).trans
        (Nat.div_le_div_right (hmin other entry hentry))
    rw [mem_grantedKeys]
    rcases hlate.eq_or_lt with hsame | hlater
    · rw [hsame]
      exact ((h other).justified entry hentry).resolve_right (hsame ▸ hopen)
    · exfalso
      rcases (h other).justified entry hentry with hgranted | ⟨hpos, hused⟩
      · rw [((h other).tracks _ hpast).untaken _ hlater] at hgranted
        omega
      · rw [grantedBy_eq_zero hpast hlater] at hused
        omega
  rcases hsheltered with ⟨hpos, hle⟩ | hfew
  · have hsize := Table.size_le_card hseen
    have hcard : (grantedKeys history (call.nowMs / 1000)).card ≤ _ := card_grantedKeys_le
    exact hopen ⟨hpos, by omega⟩
  · have hlt : s.stun.perIp.size < (keysIn (history.map Prod.fst ++ [call])
        (call.nowMs / 1000)).card := by
      refine Table.size_lt_card (fun other hother => ?_) habsent
        (mem_keysIn_append.mpr (.inr ⟨rfl, hlimiter, rfl⟩))
      exact mem_keysIn_append.mpr
        (.inl (mem_keysIn_of_granted (mem_grantedKeys.mp (hseen other hother))))
    have hbound := hfew (call.nowMs / 1000)
    omega

/-- A used up budget stays used up. -/
theorem Exhausted.append {window : ℕ} {granted : Bool} (h : Exhausted globalCapacity history window) :
    Exhausted globalCapacity (history ++ [(call, granted)]) window := by
  refine ⟨h.1, h.2.trans ?_⟩
  rw [grantedBy_append]
  omega

section

variable {key : IpKey} {found : Option TokenBucket} {granted : Bool}

/-- A call that is not counted for a source leaves it tracked. -/
theorem SourceTracked.append (h : SourceTracked perIpCapacity globalCapacity history key found)
    (hcount : grantedTo .stun (history ++ [(call, granted)]) key = grantedTo .stun history key) :
    SourceTracked perIpCapacity globalCapacity (history ++ [(call, granted)]) key found := by
  refine ⟨fun window hpast => ?_, ?_, fun bucket hbucket => ?_, ?_⟩
  · rw [hcount]
    exact (h.tracks window (pastOf_append.mp hpast).1).waive fun _ => Exhausted.append
  · rw [hcount]
    exact h.latest
  · rw [hcount]
    exact (h.justified bucket hbucket).imp_right Exhausted.append
  · rw [hcount]
    exact h.bounded

/-- A source that is forgotten by a request of another stays tracked if it has no response to its
account in the present window, or the shared budget is used up. -/
theorem SourceTracked.forget (h : SourceTracked perIpCapacity globalCapacity history key found)
    (hlimiter : call.limiter = .stun) (hpast : PastOf .stun history (call.nowMs / 1000))
    (hcount : grantedTo .stun (history ++ [(call, granted)]) key = grantedTo .stun history key)
    (hunspent : Exhausted globalCapacity history (call.nowMs / 1000) ∨
      grantedTo .stun history key (call.nowMs / 1000) = 0) :
    SourceTracked perIpCapacity globalCapacity (history ++ [(call, granted)]) key none := by
  refine ⟨fun window hwindow => ?_, nofun, nofun, hcount ▸ h.bounded⟩
  have htracks := (h.tracks _ hpast).refill hunspent
  rw [hcount]
  exact (htracks.advance ((pastOf_append.mp hwindow).2 hlimiter)).waive fun _ => Exhausted.append

end

/-- A source that is granted a response has a token, and so has the shared budget. -/
theorem open_of_granted
    (hhas : s.stun.Has perIpCapacity globalCapacity) (hpos : 0 < perIpCapacity)
    (hglobal : 0 < globalCapacity → GlobalTracked globalCapacity history s.stun)
    (hpast : PastOf .stun history (call.nowMs / 1000))
    (hgranted : (s.stun.sourceOpen call.key call.nowMs && s.stun.globalOpen call.nowMs) = true) :
    0 < offerFor s.stun.perIp perIpCapacity call.key (call.nowMs / 1000) ∧
      ¬ Exhausted globalCapacity history (call.nowMs / 1000) := by
  rw [Bool.and_eq_true, StunRateLimiter.sourceOpen, StunRateLimiter.globalOpen,
    hhas.perIp, hhas.global, decide_eq_true_eq, decide_eq_true_eq] at hgranted
  refine ⟨hgranted.1.resolve_left hpos.ne', fun hexhausted => ?_⟩
  have hoffer := hgranted.2.resolve_left hexhausted.1.ne'
  have hbalance := ((hglobal hexhausted.1).tracks _ hpast).balance.resolve_left id
  have hused := hexhausted.2
  omega

/-- A source that is refused has used up its own budget, or the shared budget is used up. -/
theorem spent_of_refused (h : SourcesTracked perIpCapacity globalCapacity history s.stun)
    (hhas : s.stun.Has perIpCapacity globalCapacity) (hpos : 0 < perIpCapacity)
    (hglobal : 0 < globalCapacity → GlobalTracked globalCapacity history s.stun)
    (hpast : PastOf .stun history (call.nowMs / 1000))
    (hrefused : (s.stun.sourceOpen call.key call.nowMs && s.stun.globalOpen call.nowMs) = false) :
    0 < grantedTo .stun history call.key (call.nowMs / 1000) ∨
      Exhausted globalCapacity history (call.nowMs / 1000) := by
  rw [Bool.and_eq_false_iff] at hrefused
  rcases hrefused with hsource | hshared
  · rw [StunRateLimiter.sourceOpen, hhas.perIp, decide_eq_false_iff_not] at hsource
    rcases ((h call.key).tracks _ hpast).balance with hexhausted | hbalance
    · exact .inr hexhausted
    · change offerFor s.stun.perIp perIpCapacity call.key (call.nowMs / 1000) + _ = _ at hbalance
      left
      omega
  · rw [StunRateLimiter.globalOpen, hhas.global, decide_eq_false_iff_not] at hshared
    right
    have henabled : 0 < globalCapacity := by omega
    have hbalance := ((hglobal henabled).tracks _ hpast).balance.resolve_left id
    exact ⟨henabled, by omega⟩

/-- A source that is refused stays tracked by the bucket it has now. -/
theorem sourceTracked_refused (h : SourcesTracked perIpCapacity globalCapacity history s.stun)
    (hhas : s.stun.Has perIpCapacity globalCapacity) (hpos : 0 < perIpCapacity)
    (hglobal : 0 < globalCapacity → GlobalTracked globalCapacity history s.stun)
    (hpast : PastOf .stun history (call.nowMs / 1000))
    (hrefused : (s.stun.sourceOpen call.key call.nowMs && s.stun.globalOpen call.nowMs) = false) :
    SourceTracked perIpCapacity globalCapacity history call.key
      (some (s.stun.touchedBucket call.key call.nowMs)) := by
  have hoffer := s.stun.offer_touchedBucket_of_refused call.key call.nowMs hrefused
  rw [hhas.perIp] at hoffer
  have hseen := s.stun.touchedBucket_lastSeenMs call.key call.nowMs
  constructor
  case tracks =>
    intro window hwindow
    have hsame : (fun window => (some (s.stun.touchedBucket call.key call.nowMs)).elim perIpCapacity
        fun bucket => bucket.offer perIpCapacity window) =
        offerFor s.stun.perIp perIpCapacity call.key := funext hoffer
    rw [hsame]
    exact (h call.key).tracks window hwindow
  case latest =>
    intro bucket hbucket window hcounted
    obtain rfl := Option.some.inj hbucket
    rcases hseen with hnow | ⟨-, hkept⟩
    · rw [hnow]
      by_contra hlater
      rw [((h call.key).tracks _ hpast).untaken window (by omega)] at hcounted
      omega
    · exact (h call.key).latest _ hkept window hcounted
  case justified =>
    intro bucket hbucket
    obtain rfl := Option.some.inj hbucket
    rcases hseen with hnow | ⟨-, hkept⟩
    · rw [hnow]
      exact spent_of_refused h hhas hpos hglobal hpast hrefused
    · exact (h call.key).justified _ hkept
  case bounded => exact (h call.key).bounded

/-- A source that is answered stays tracked, with one token less. -/
theorem sourceTracked_answered (h : SourcesTracked perIpCapacity globalCapacity history s.stun)
    (hhas : s.stun.Has perIpCapacity globalCapacity) (hpos : 0 < perIpCapacity)
    (hglobal : 0 < globalCapacity → GlobalTracked globalCapacity history s.stun)
    (hlimiter : call.limiter = .stun) (hpast : PastOf .stun history (call.nowMs / 1000))
    (hanswered : (s.stun.sourceOpen call.key call.nowMs && s.stun.globalOpen call.nowMs) = true) :
    SourceTracked perIpCapacity globalCapacity (history ++ [(call, true)]) call.key
      (some (s.stun.touchedBucket call.key call.nowMs)) := by
  obtain ⟨htoken, hopen⟩ := open_of_granted hhas hpos hglobal hpast hanswered
  have hcount (window : ℕ) : grantedTo .stun (history ++ [(call, true)]) call.key window =
      grantedTo .stun history call.key window + if window = call.nowMs / 1000 then 1 else 0 :=
    grantedTo_append_of_eq hlimiter rfl
  have hoffer := s.stun.offer_touchedBucket_of_answered call.key call.nowMs hanswered
  rw [hhas.perIp] at hoffer
  have hnow : (s.stun.touchedBucket call.key call.nowMs).lastSeenMs = call.nowMs :=
    (s.stun.touchedBucket_lastSeenMs call.key call.nowMs).resolve_right
      fun hrefused => by simp [hanswered] at hrefused
  have htracks := (h call.key).tracks _ hpast
  have hafter : Tracks perIpCapacity (call.nowMs / 1000)
      (Exhausted globalCapacity (history ++ [(call, true)])) _ _ :=
    htracks.take htoken Exhausted.append hcount hoffer
  constructor
  case tracks => exact fun window hwindow => hafter.advance ((pastOf_append.mp hwindow).2 hlimiter)
  case latest =>
    intro bucket hbucket window hcounted
    obtain rfl := Option.some.inj hbucket
    rw [hnow]
    by_contra hlater
    rw [hafter.untaken window (by omega)] at hcounted
    omega
  case justified =>
    intro bucket hbucket
    obtain rfl := Option.some.inj hbucket
    left
    rw [hnow, hcount, if_pos rfl]
    omega
  case bounded => exact htracks.take_le htoken hopen (h call.key).bounded hcount

/-- The source of a request stays tracked. -/
theorem sourceTracked_own (h : SourcesTracked perIpCapacity globalCapacity history s.stun)
    (hhas : s.stun.Has perIpCapacity globalCapacity) (hpos : 0 < perIpCapacity)
    (hglobal : 0 < globalCapacity → GlobalTracked globalCapacity history s.stun)
    (hlimiter : call.limiter = .stun) (hpast : PastOf .stun history (call.nowMs / 1000)) :
    SourceTracked perIpCapacity globalCapacity (history ++ [(call, (s.call config call).1)]) call.key
      ((s.call config call).2.stun.perIp.lookup call.key) := by
  obtain ⟨hanswer, hafter⟩ := @call_stun config s call hlimiter
  have hfound : (s.call config call).2.stun.perIp.lookup call.key =
      some (s.stun.touchedBucket call.key call.nowMs) := by
    rw [hafter, StunRateLimiter.touchedSources, if_pos (hhas.perIp ▸ hpos)]
    exact AList.lookup_insert _
  rw [hfound, hanswer]
  cases hgranted : s.stun.sourceOpen call.key call.nowMs && s.stun.globalOpen call.nowMs with
  | false =>
    apply (sourceTracked_refused h hhas hpos hglobal hpast hgranted).append
    funext window
    simp [grantedTo_append]
  | true => exact sourceTracked_answered h hhas hpos hglobal hlimiter hpast hgranted

/-- One more call leaves every source tracked, as long as none is forgotten too early. -/
theorem sourcesTracked_call (hhas : s.stun.Has perIpCapacity globalCapacity)
    (hpos : 0 < perIpCapacity)
    (hglobal : 0 < globalCapacity → GlobalTracked globalCapacity history s.stun)
    (hchronological : Chronological [.stun] (history.map Prod.fst ++ [call]))
    (hsheltered : Sheltered globalCapacity (history.map Prod.fst ++ [call]))
    (h : SourcesTracked perIpCapacity globalCapacity history s.stun) :
    SourcesTracked perIpCapacity globalCapacity (history ++ [(call, (s.call config call).1)])
      (s.call config call).2.stun := by
  intro key
  by_cases hlimiter : call.limiter = .stun
  · have hpast := hchronological.pastOf hlimiter
    by_cases hkey : key = call.key
    · rw [hkey]
      exact sourceTracked_own h hhas hpos hglobal hlimiter hpast
    · have hcount : grantedTo .stun (history ++ [(call, (s.call config call).1)]) key =
          grantedTo .stun history key :=
        funext fun window => grantedTo_append_of_ne (.inr (Ne.symm hkey))
      obtain ⟨lost, hlost, hothers⟩ := (call_keepsBounds config s call).1.perIp
      rw [hothers key hkey]
      split
      · rename_i hvictim
        obtain ⟨-, habsent, hfull, value, hvalue, hmin⟩ := hlost key hvictim
        exact (h key).forget hlimiter hpast hcount
          (victim_unspent h hlimiter hpast hsheltered habsent hfull hvalue hmin)
      · exact (h key).append hcount
  · rw [call_stun_of_ne hlimiter]
    exact (h key).append (funext fun window => grantedTo_append_of_ne (.inl hlimiter))

/-- What comes before sheltered calls is sheltered. -/
theorem Sheltered.before {calls : List LimiterCall} (h : Sheltered globalCapacity (calls ++ [call])) :
    Sheltered globalCapacity calls := by
  refine h.imp_right fun hfew window => le_trans (Finset.card_le_card fun key hkey => ?_) (hfew window)
  exact mem_keysIn_append.mpr (.inl hkey)

/-- After chronological and sheltered requests every source is tracked. -/
theorem sourcesTracked_of_serve (hpos : 0 < perIpCapacity)
    (h : Limiters.Serve config (.new perIpCapacity globalCapacity startMs) history s)
    (hchronological : Chronological [.stun] (history.map Prod.fst))
    (hsheltered : Sheltered globalCapacity (history.map Prod.fst)) :
    SourcesTracked perIpCapacity globalCapacity history s.stun := by
  apply h.invariant_calls
    (fun calls => Chronological [.stun] calls ∧ Sheltered globalCapacity calls)
    (fun history s => SourcesTracked perIpCapacity globalCapacity history s.stun)
    ⟨hchronological, hsheltered⟩
  · exact fun calls call hlonger => ⟨hlonger.1.before, hlonger.2.before⟩
  · exact fun key => ⟨fun _ _ => Tracks.start, nofun, nofun, fun _ => Nat.zero_le _⟩
  · intro earlier s call hserved hguard htracked
    exact sourcesTracked_call (has_of_serve hserved) hpos
      (fun henabled => globalTracked_of_serve henabled hserved hguard.1.before) hguard.1 hguard.2
      htracked
  · rintro earlier s s' ⟨_, _, _, perIp, _, _, _, hsources, rfl⟩ htracked
    exact fun key => hsources.lookup_eq key ▸ htracked key

/-- With no more sources than the map tracks, there are no more in any window. -/
theorem sheltered_of_few {calls : List LimiterCall} (h : (keysOf [.stun] calls).card ≤ maxTrackedIps) :
    Sheltered globalCapacity calls := by
  refine .inr fun window => le_trans (Finset.card_le_card fun key hkey => ?_) h
  simp only [keysIn, keysOf, callsTo, List.mem_toFinset, List.mem_map, List.mem_filter] at hkey ⊢
  obtain ⟨call, ⟨⟨hmem, -⟩, hto⟩, hkey⟩ := hkey
  exact ⟨call, ⟨hmem, hto⟩, hkey⟩

/-- After chronological and sheltered requests, the next one is answered exactly when its source and
all sources together were sent fewer responses in the same second than the enabled budgets allow. -/
theorem allow_iff {src : IpAddr} {nowMs : ℕ}
    (h : Limiters.Serve config (.new perIpCapacity globalCapacity startMs) history s)
    (hchronological : Chronological [.stun] (history.map Prod.fst ++ [⟨.stun, src, nowMs⟩]))
    (hsheltered : Sheltered globalCapacity (history.map Prod.fst)) :
    (s.stun.allow src nowMs).1 = true ↔
      (perIpCapacity = 0 ∨
          grantedTo .stun history src.toCanonical (nowMs / 1000) < perIpCapacity) ∧
        (globalCapacity = 0 ∨ grantedBy .stun history (nowMs / 1000) < globalCapacity) := by
  have hpast : PastOf .stun history (nowMs / 1000) := hchronological.pastOf rfl
  have hhas := has_of_serve h
  rw [s.stun.allow_eq, Bool.and_eq_true, StunRateLimiter.sourceOpen, StunRateLimiter.globalOpen,
    hhas.perIp, hhas.global, decide_eq_true_eq, decide_eq_true_eq]
  have hglobal : globalCapacity = 0 ∨ 0 < s.stun.global.offer globalCapacity (nowMs / 1000) ↔
      globalCapacity = 0 ∨ grantedBy .stun history (nowMs / 1000) < globalCapacity := by
    refine or_congr_right' fun henabled => ?_
    have htracked := globalTracked_of_serve (Nat.pos_of_ne_zero henabled) h hchronological.before
    have hbalance := (htracked.tracks _ hpast).balance.resolve_left id
    omega
  rw [hglobal]
  refine and_congr_left fun hopen => or_congr_right' fun henabled => ?_
  have htracked := sourcesTracked_of_serve (Nat.pos_of_ne_zero henabled) h hchronological.before
    hsheltered src.toCanonical
  rcases (htracked.tracks _ hpast).balance with ⟨hpos, hused⟩ | hbalance
  · omega
  · change offerFor s.stun.perIp perIpCapacity src.toCanonical (nowMs / 1000) + _ = _ at hbalance
    omega

/-- A refused request takes nothing from any budget, as long as there is room for every source. -/
theorem allow_refused_keeps {src : IpAddr} {nowMs : ℕ} (hknown : s.KnownTo (history.map Prod.fst))
    (hfew : (keysOf [.stun] (history.map Prod.fst ++ [⟨.stun, src, nowMs⟩])).card ≤ maxTrackedIps)
    (hrefused : (s.stun.allow src nowMs).1 = false) :
    (s.stun.allow src nowMs).2.global = s.stun.global ∧
      ∀ key window, offerFor (s.stun.allow src nowMs).2.perIp s.stun.perIpCapacity key window =
        offerFor s.stun.perIp s.stun.perIpCapacity key window := by
  have hothers {key : IpKey} (hkey : key ≠ src.toCanonical) :
      (s.stun.allow src nowMs).2.perIp.lookup key = s.stun.perIp.lookup key :=
    lookup_of_few hknown.perIp (call_keepsBounds {} s ⟨.stun, src, nowMs⟩).1.perIp
      (List.mem_singleton_self _) hfew hkey
  refine ⟨?_, fun key window => ?_⟩
  · rw [s.stun.allow_eq] at hrefused ⊢
    exact s.stun.touchedGlobal_of_refused src.toCanonical nowMs hrefused
  · by_cases hkey : key = src.toCanonical
    · rw [s.stun.allow_eq] at hrefused ⊢
      dsimp only [StunRateLimiter.touchedSources] at hrefused ⊢
      split
      · rw [hkey, offerFor_insert, s.stun.offer_touchedBucket_of_refused _ _ hrefused]
      · rfl
    · rw [offerFor, offerFor, hothers hkey]

/-- With no more sources than the map tracks, a request is answered exactly when its source and all
sources together were sent fewer responses in the same second than the enabled budgets allow, and a
refused request takes nothing from any budget. With any number of sources, no second has more
responses than the shared budget allows. -/
theorem served_stun_exact {src : IpAddr} {nowMs : ℕ}
    (h : Limiters.Serve config (.new perIpCapacity globalCapacity startMs) history s)
    (hchronological : Chronological [.stun] (history.map Prod.fst ++ [⟨.stun, src, nowMs⟩])) :
    ((keysOf [.stun] (history.map Prod.fst ++ [⟨.stun, src, nowMs⟩])).card ≤ maxTrackedIps →
      ((s.stun.allow src nowMs).1 = true ↔
        (perIpCapacity = 0 ∨
            grantedTo .stun history src.toCanonical (nowMs / 1000) < perIpCapacity) ∧
          (globalCapacity = 0 ∨ grantedBy .stun history (nowMs / 1000) < globalCapacity)) ∧
      ((s.stun.allow src nowMs).1 = false →
        (s.stun.allow src nowMs).2.global = s.stun.global ∧
          ∀ key window, offerFor (s.stun.allow src nowMs).2.perIp perIpCapacity key window =
            offerFor s.stun.perIp perIpCapacity key window)) ∧
      (0 < globalCapacity → ∀ window, grantedBy .stun history window ≤ globalCapacity) := by
  refine ⟨fun hfew => ⟨?_, fun hrefused => ?_⟩, fun henabled => ?_⟩
  · exact allow_iff h hchronological (sheltered_of_few hfew).before
  · have hkept := allow_refused_keeps (knownTo_of_serve h) hfew hrefused
    rwa [(has_of_serve h).perIp] at hkept
  · exact (globalTracked_of_serve henabled h hchronological.before).bounded

/-- The third request of a source in one second, with a budget of two, and with a shared budget of
three. -/
theorem served_stun_exact_twice :
    let call : LimiterCall := ⟨.stun, .v4 1, 0⟩
    let served := serveAll (Limiters.call {}) (.new 2 3 0) [call, call]
    ((served.2.stun.allow (.v4 1) 0).1 = true ↔
        (2 = 0 ∨ grantedTo .stun served.1 (.v4 1) 0 < 2) ∧ (3 = 0 ∨ grantedBy .stun served.1 0 < 3)) ∧
      ∀ window, grantedBy .stun served.1 window ≤ 3 := by
  intro call served
  have hserved : Limiters.Serve {} (.new 2 3 0) served.1 served.2 :=
    Serves.start.serveAll [call, call]
  have hchronological : Chronological [.stun] [call, call, call] := by decide
  obtain ⟨hexact, hbound⟩ := served_stun_exact hserved hchronological
  exact ⟨(hexact (by decide)).1, hbound (by decide)⟩

/-- As long as the shared budget is enabled and no larger than the map of sources, or no second has
requests from more sources than the map tracks, no source is sent more responses in a second than
its budget allows. -/
theorem served_stun_source_bound (hpos : 0 < perIpCapacity)
    (h : Limiters.Serve config (.new perIpCapacity globalCapacity startMs) history s)
    (hchronological : Chronological [.stun] (history.map Prod.fst))
    (hsheltered : Sheltered globalCapacity (history.map Prod.fst)) (key : IpKey) (window : ℕ) :
    grantedTo .stun history key window ≤ perIpCapacity :=
  (sourcesTracked_of_serve hpos h hchronological hsheltered key).bounded window

/-- Two responses to a source in one second, with the default budgets. -/
theorem served_stun_source_bound_twice :
    let call : LimiterCall := ⟨.stun, .v4 1, 0⟩
    let served := serveAll (Limiters.call {}) (.new 5 1000 0) [call, call]
    grantedTo .stun served.1 (.v4 1) 0 ≤ 5 := by
  intro call served
  have hserved : Limiters.Serve {} (.new 5 1000 0) served.1 served.2 :=
    Serves.start.serveAll [call, call]
  exact served_stun_source_bound (by decide) hserved (by decide) (.inl (by decide)) _ _

/-- The source that a response is reflected to twice. -/
def reflected : IpAddr := .v4 0

/-- A source was sent a response, and then other sources asked one millisecond later and fill the
map up. -/
structure Flooded (count : ℕ) (history : List (LimiterCall × Bool)) (s : Limiters) : Prop where
  served : Limiters.Serve {} (.new 1 0 0) history s
  chronological : Chronological [.stun] (history.map Prod.fst)
  early : ∀ event ∈ history, event.1.nowMs ≤ 1
  granted : 0 < grantedTo .stun history reflected 0
  size : s.stun.perIp.size = count + 1
  first : ∃ bucket, s.stun.perIp.lookup reflected = some bucket ∧ bucket.lastSeenMs = 0
  others : ∀ key bucket, s.stun.perIp.lookup key = some bucket → key ≠ reflected → bucket.lastSeenMs = 1
  fresh : ∀ i, count < i → i < 2 ^ 32 → s.stun.perIp.lookup (.v4 (BitVec.ofNat 32 i)) = none

/-- A further request comes one millisecond after the first. -/
theorem late_append (call : LimiterCall) (answer : Bool)
    (hchronological : Chronological [.stun] (history.map Prod.fst))
    (hearly : ∀ event ∈ history, event.1.nowMs ≤ 1) (hnow : call.nowMs = 1) :
    Chronological [.stun] ((history ++ [(call, answer)]).map Prod.fst) ∧
      ∀ event ∈ history ++ [(call, answer)], event.1.nowMs ≤ 1 := by
  constructor
  · rw [List.map_append]
    refine chronological_append.mpr ⟨hchronological, fun _ earlier hearlier _ => ?_⟩
    obtain ⟨event, hevent, rfl⟩ := List.mem_map.mp hearlier
    exact (hearly event hevent).trans hnow.ge
  · intro event hevent
    rcases List.mem_append.mp hevent with hold | hnew
    · exact hearly event hold
    · rw [List.mem_singleton.mp hnew]
      exact hnow.le

/-- Different numbers stand for different addresses. -/
theorem v4_ofNat_ne {i j : ℕ} (hi : i < 2 ^ 32) (hj : j < 2 ^ 32) (hne : i ≠ j) :
    IpAddr.v4 (BitVec.ofNat 32 i) ≠ .v4 (BitVec.ofNat 32 j) := by
  intro heq
  have hbits := congrArg BitVec.toNat (IpAddr.v4.inj heq)
  rw [BitVec.toNat_ofNat, BitVec.toNat_ofNat, Nat.mod_eq_of_lt hi, Nat.mod_eq_of_lt hj] at hbits
  exact hne hbits

/-- The flood begins with a response to the source. -/
theorem exists_flooded_zero : ∃ history s, Flooded 0 history s := by
  have hserved : Limiters.Serve {} (.new 1 0 0) _ _ := Serves.start.serveAll [⟨.stun, reflected, 0⟩]
  let bucket : TokenBucket := ⟨0, 0, 0⟩
  have hlookup (key : IpKey) := Table.lookup_insert_eq ∅ reflected key bucket
  refine ⟨_, _, hserved, by decide, by decide, by decide, by decide, ⟨bucket, by decide, rfl⟩,
    fun key found hfound hkey => ?_, fun i hpos hi => ?_⟩
  · have hnone := (hlookup key).symm.trans hfound
    rw [if_neg hkey] at hnone
    cases hnone
  · exact (hlookup _).trans (if_neg (v4_ofNat_ne hi (by decide) hpos.ne'))

section

variable {count : ℕ}

/-- The next forged source. -/
def forged (count : ℕ) : LimiterCall := ⟨.stun, .v4 (BitVec.ofNat 32 (count + 1)), 1⟩

/-- A forged source that is not yet tracked is answered and seen now. -/
theorem Flooded.touched (h : Flooded count history s) (hcount : count + 1 < 2 ^ 32) :
    (s.call {} (forged count)).2.stun.perIp =
        (evictMin TokenBucket.lastSeenMs s.stun.perIp (forged count).key).insert (forged count).key
          (s.stun.touchedBucket (forged count).key 1) ∧
      s.stun.perIp.lookup (forged count).key = none ∧
      (s.stun.touchedBucket (forged count).key 1).lastSeenMs = 1 := by
  have hfresh : s.stun.perIp.lookup (forged count).key = none :=
    h.fresh (count + 1) (Nat.lt_succ_self count) hcount
  refine ⟨?_, hfresh, ?_⟩
  · rw [(call_stun rfl).2]
    exact if_pos (by rw [(has_of_serve h.served).perIp]; decide)
  · refine (s.stun.touchedBucket_lastSeenMs _ 1).resolve_right ?_
    rintro ⟨-, hsome⟩
    rw [hfresh] at hsome
    cases hsome

/-- While the map has room, a further forged source is added to it. -/
theorem Flooded.succ (h : Flooded count history s) (hroom : count + 1 < maxTrackedIps) :
    ∃ history' s', Flooded (count + 1) history' s' := by
  have hsmall : maxTrackedIps < 2 ^ 32 := by decide
  obtain ⟨hperIp, hfresh, hseen⟩ := h.touched (hroom.trans hsmall)
  have hkept : evictMin TokenBucket.lastSeenMs s.stun.perIp (forged count).key = s.stun.perIp :=
    if_neg fun hfull => absurd hfull.2 (by rw [h.size]; omega)
  rw [hkept] at hperIp
  have hlookup (key : IpKey) := Table.lookup_insert_eq s.stun.perIp (forged count).key key
    (s.stun.touchedBucket (forged count).key 1)
  rw [← hperIp] at hlookup
  have hnew {i : ℕ} (hi : i < 2 ^ 32) (hne : i ≠ count + 1) :
      IpAddr.v4 (BitVec.ofNat 32 i) ≠ (forged count).key := v4_ofNat_ne hi (hroom.trans hsmall) hne
  obtain ⟨hchronological, hearly⟩ := late_append (forged count) _ h.chronological h.early rfl
  refine ⟨_, _, h.served.call (forged count), hchronological, hearly, ?_, ?_, ?_, ?_, ?_⟩
  · rw [grantedTo_append]
    exact Nat.add_pos_left h.granted _
  · rw [hperIp, Table.size_insert_of_none hfresh, h.size]
  · obtain ⟨bucket, hbucket, hzero⟩ := h.first
    have hfirst : reflected ≠ (forged count).key :=
      hnew (Nat.two_pow_pos 32) (Nat.succ_ne_zero count).symm
    exact ⟨bucket, (hlookup _).trans ((if_neg hfirst).trans hbucket), hzero⟩
  · intro key bucket hbucket hkey
    rw [hlookup] at hbucket
    split at hbucket
    · rw [← Option.some.inj hbucket]
      exact hseen
    · exact h.others key bucket hbucket hkey
  · intro i hi hbound
    rw [hlookup, if_neg (hnew hbound hi.ne')]
    exact h.fresh i (by omega) hbound

/-- The map can be filled up by forged sources. -/
theorem exists_flooded (hcount : count < maxTrackedIps) : ∃ history s, Flooded count history s := by
  induction count with
  | zero => exact exists_flooded_zero
  | succ count ih =>
    obtain ⟨history, s, h⟩ := ih (by omega)
    exact h.succ hcount

/-- One forged source more than the map has room for evicts the first source. -/
theorem Flooded.evicts (h : Flooded count history s) (hfull : maxTrackedIps ≤ count + 1)
    (hcount : count + 1 < 2 ^ 32) :
    (s.call {} (forged count)).2.stun.perIp.lookup reflected = none := by
  obtain ⟨hperIp, hfresh, -⟩ := h.touched hcount
  have hfirst : reflected ≠ (forged count).key :=
    v4_ofNat_ne (Nat.two_pow_pos 32) hcount (Nat.succ_ne_zero count).symm
  obtain ⟨bucket, hbucket, hzero⟩ := h.first
  rw [hperIp, Table.lookup_insert_eq, if_neg hfirst]
  have hroom := evictMin_makesRoom TokenBucket.lastSeenMs s.stun.perIp (forged count).key
  generalize evictMin TokenBucket.lastSeenMs s.stun.perIp (forged count).key = room at hroom
  cases hroom with
  | kept hkept =>
    have hlt := hkept.resolve_left (not_not.mpr hfresh)
    rw [h.size] at hlt
    omega
  | evicted victim value habsent hsize hvictim hmin =>
    have holdest := hmin _ bucket hbucket
    have hsame : victim = reflected := by
      by_contra hother
      have hlater := h.others victim value hvictim hother
      omega
    rw [hsame, Table.lookup_erase_eq, if_pos rfl]

end

/-- Without a shared budget, a source is sent two responses in one second although its budget is
one: between the two, as many other sources ask as the map tracks. -/
theorem exists_served_stun_source_exceeds :
    ∃ history s, Limiters.Serve {} (.new 1 0 0) history s ∧
      Chronological [.stun] (history.map Prod.fst) ∧
      1 < grantedTo .stun history reflected 0 := by
  obtain ⟨history, s, h⟩ := exists_flooded (show 65535 < maxTrackedIps by decide)
  have hevicted := h.evicts (by decide) (by decide)
  have hserved := h.served.call (forged 65535)
  have hagain : ((s.call {} (forged 65535)).2.call {} ⟨.stun, reflected, 1⟩).1 = true := by
    have hhas := has_of_serve hserved
    have hkey : (⟨.stun, reflected, 1⟩ : LimiterCall).key = reflected := rfl
    rw [(call_stun rfl).1, StunRateLimiter.sourceOpen, StunRateLimiter.globalOpen, hhas.perIp,
      hhas.global, hkey, offerFor, hevicted]
    rfl
  obtain ⟨hchronological, hearly⟩ := late_append (forged 65535) _ h.chronological h.early rfl
  refine ⟨_, _, hserved.call ⟨.stun, reflected, 1⟩, (late_append _ _ hchronological hearly rfl).1, ?_⟩
  have hgranted := h.granted
  rw [hagain, grantedTo_append, if_pos (by decide), grantedTo_append]
  omega

end DigRelay
