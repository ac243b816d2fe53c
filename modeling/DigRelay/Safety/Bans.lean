import DigRelay.Limiters
import Mathlib.Data.List.TakeDrop

/-!
# Strikes and bans

A source that earns enough strikes within one strike window is banned for a while. The relay keeps a
count per key that starts anew when its window has passed, and an expiry per banned key that a later
lookup may remove. Over a history of strikes and lookups at nondecreasing times from no more keys
than the maps track, a lookup finds a ban exactly when a strike brought one on that has not lapsed,
and no ban comes without the strikes for it. The window is not a rolling one: strikes close enough
to each other are passed over when the window lapses between them.
-/

namespace DigRelay

open Common

variable {config : RelayServerConfig} {history : List (LimiterCall × Bool)} {s s' : Limiters}
  {perIpCapacity globalCapacity startMs : ℕ} {call : LimiterCall} {key : IpKey}

/-- The limits that strikes and bans belong to. -/
abbrev banLimits : List Limiter := [.strike, .ban]

/-- More limits have more keys. -/
theorem keysOf_strike_subset (calls : List LimiterCall) :
    keysOf [.strike] calls ⊆ keysOf banLimits calls := by
  intro key hkey
  simp only [keysOf, callsTo, List.mem_toFinset, List.mem_map, List.mem_filter] at hkey ⊢
  obtain ⟨call, ⟨hmem, hto⟩, hkey⟩ := hkey
  exact ⟨call, ⟨hmem, by simp_all⟩, hkey⟩

/-- A call to another limit leaves strikes and bans alone. -/
theorem call_bans_of_other (h : call.limiter ∉ banLimits) :
    (s.call config call).2.abuse.strikes = s.abuse.strikes ∧
      (s.call config call).2.abuse.bans = s.abuse.bans := by
  obtain ⟨limiter, ip, nowMs⟩ := call
  cases limiter with
  | registration => exact (allowRegistration_keepsBound config ip nowMs s.abuse).2
  | strike => simp at h
  | ban => simp at h
  | stun => exact ⟨rfl, rfl⟩

/-- While there is room for every key, a call leaves strikes and bans of other keys alone. -/
theorem call_bans_of_ne (hknown : s.KnownTo (history.map Prod.fst))
    (horderly : Orderly banLimits (history.map Prod.fst ++ [call]))
    (hother : call.limiter ∈ banLimits → key ≠ call.key) :
    (s.call config call).2.abuse.strikes.lookup key = s.abuse.strikes.lookup key ∧
      (s.call config call).2.abuse.bans.lookup key = s.abuse.bans.lookup key := by
  have hchanges := (call_keepsBounds config s call).1
  by_cases hlimiter : call.limiter ∈ banLimits
  · refine ⟨lookup_of_few (fun key hkey => ?_) hchanges.strikes hlimiter horderly.few
        (hother hlimiter),
      lookup_of_few (fun key hkey => ?_) hchanges.bans hlimiter horderly.few (hother hlimiter)⟩
    · exact keysOf_strike_subset _ (hknown.strikes key hkey)
    · exact keysOf_strike_subset _ (hknown.bans key hkey)
  · obtain ⟨hstrikes, hbans⟩ := @call_bans_of_other config s call hlimiter
    rw [hstrikes, hbans]
    exact ⟨rfl, rfl⟩

/-- A strike that bans clears the strikes of its key and records the ban; any other is counted. -/
theorem call_strike (hthreshold : 0 < config.banThreshold) (hlimiter : call.limiter = .strike) :
    (s.call config call).1 = s.abuse.strikeBans config call.ip call.nowMs ∧
      (s.call config call).2.abuse.strikes.lookup call.key =
        (if s.abuse.strikeBans config call.ip call.nowMs then none
        else some (s.abuse.struck config call.ip call.nowMs)) ∧
      (s.call config call).2.abuse.bans.lookup call.key =
        if s.abuse.strikeBans config call.ip call.nowMs then
          some (min (call.nowMs + config.banDuration.asMillis) u64Max)
        else s.abuse.bans.lookup call.key := by
  obtain ⟨limiter, ip, nowMs⟩ := call
  obtain rfl : limiter = .strike := hlimiter
  have hafter : (s.call config ⟨.strike, ip, nowMs⟩).2.abuse = _ :=
    AbuseState.recordStrike_eq config s.abuse ip nowMs hthreshold.ne'
  rw [hafter]
  refine ⟨rfl, ?_, ?_⟩
  · split
    · exact AList.lookup_erase _ _
    · exact AList.lookup_insert _
  · split
    · exact AList.lookup_insert _
    · rfl

/-- A lookup keeps a ban that is in force and forgets any other. -/
theorem call_ban (hthreshold : 0 < config.banThreshold) (hlimiter : call.limiter = .ban) :
    (s.call config call).1 = ((s.abuse.bans.lookup call.key).any fun bannedUntil =>
        decide (call.nowMs < bannedUntil)) ∧
      (s.call config call).2.abuse.strikes = s.abuse.strikes ∧
      (s.call config call).2.abuse.bans.lookup call.key =
        (s.abuse.bans.lookup call.key).filter fun bannedUntil =>
          decide (call.nowMs < bannedUntil) := by
  obtain ⟨limiter, ip, nowMs⟩ := call
  obtain rfl : limiter = .ban := hlimiter
  have hcall : s.call config ⟨.ban, ip, nowMs⟩ =
      ((s.abuse.isBanned config ip nowMs).1, { s with abuse := (s.abuse.isBanned config ip nowMs).2 }) :=
    rfl
  have hkey : (⟨.ban, ip, nowMs⟩ : LimiterCall).key = ipKey ip := rfl
  rw [hcall, hkey]
  dsimp only [AbuseState.isBanned]
  rw [if_neg hthreshold.ne']
  cases hbans : s.abuse.bans.lookup (ipKey ip) with
  | none => simp [hbans]
  | some bannedUntil => by_cases hforce : nowMs < bannedUntil <;> simp [hbans, hforce, Option.filter]

/-- The event is a strike that banned the key. -/
def Triggers (key : IpKey) (event : LimiterCall × Bool) : Prop :=
  event.1.limiter = .strike ∧ event.1.key = key ∧ event.2 = true

/-- The expiry kept for a key is that of its last ban, and where none is kept every ban has been seen
to lapse. -/
structure BanTracked (config : RelayServerConfig) (history : List (LimiterCall × Bool)) (key : IpKey)
    (found : Option ℕ) : Prop where
  recorded : ∀ bannedUntil, found = some bannedUntil → ∃ event ∈ history, Triggers key event ∧
    bannedUntil = event.1.nowMs + config.banDuration.asMillis ∧
    ∀ other ∈ history, Triggers key other → other.1.nowMs ≤ event.1.nowMs
  lapsed : found = none → ∀ event ∈ history, Triggers key event →
    ∃ later ∈ history, later.1.limiter ∈ banLimits ∧
      event.1.nowMs + config.banDuration.asMillis ≤ later.1.nowMs

/-- A further event that bans no key leaves what is kept for it in order. -/
theorem BanTracked.append {found : Option ℕ} {event : LimiterCall × Bool}
    (h : BanTracked config history key found) (hevent : ¬ Triggers key event) :
    BanTracked config (history ++ [event]) key found := by
  have hold {other : LimiterCall × Bool} (hother : other ∈ history ++ [event])
      (htrigger : Triggers key other) : other ∈ history := by
    refine (List.mem_append.mp hother).resolve_right fun hnew => hevent ?_
    rwa [← List.mem_singleton.mp hnew]
  refine ⟨fun bannedUntil hfound => ?_, fun hnone other hother htrigger => ?_⟩
  · obtain ⟨ban, hmem, hban, huntil, hlast⟩ := h.recorded bannedUntil hfound
    exact ⟨ban, List.mem_append_left _ hmem, hban, huntil,
      fun other hother htrigger => hlast other (hold hother htrigger) htrigger⟩
  · obtain ⟨later, hmem, hlater⟩ := h.lapsed hnone other (hold hother htrigger) htrigger
    exact ⟨later, List.mem_append_left _ hmem, hlater⟩

/-- Every event of the limits came no later than a call. -/
theorem earlier_of_orderly (horderly : Orderly banLimits (history.map Prod.fst ++ [call]))
    (hlimiter : call.limiter ∈ banLimits) {event : LimiterCall × Bool} (hevent : event ∈ history)
    (hto : event.1.limiter ∈ banLimits) : event.1.nowMs ≤ call.nowMs :=
  (chronological_append.mp horderly.chronological).2 hlimiter event.1 (List.mem_map_of_mem hevent) hto

/-- A strike that bans its key records the last ban. -/
theorem banTracked_banned
    (horderly : Orderly banLimits (history.map Prod.fst ++ [call])) (hstrike : call.limiter = .strike) :
    BanTracked config (history ++ [(call, true)]) call.key
      (some (call.nowMs + config.banDuration.asMillis)) := by
  refine ⟨fun bannedUntil hfound => ?_, nofun⟩
  refine ⟨(call, true), List.mem_append_right _ List.mem_cons_self, ⟨hstrike, rfl, rfl⟩,
    (Option.some.inj hfound).symm, fun other hother htrigger => ?_⟩
  rcases List.mem_append.mp hother with hold | hnew
  · exact earlier_of_orderly horderly (by simp [hstrike]) hold (by simp [htrigger.1])
  · rw [List.mem_singleton.mp hnew]

/-- A lookup that bans no key forgets an expiry only when every ban of the key has lapsed. -/
theorem BanTracked.filter {found : Option ℕ} {granted : Bool}
    (h : BanTracked config history key found) (hlimiter : call.limiter ∈ banLimits)
    (hevent : ¬ Triggers key (call, granted)) :
    BanTracked config (history ++ [(call, granted)]) key
      (found.filter fun bannedUntil => decide (call.nowMs < bannedUntil)) := by
  cases hfound : found with
  | none => exact (hfound ▸ h).append hevent
  | some bannedUntil =>
    by_cases hforce : call.nowMs < bannedUntil
    · rw [Option.filter_some, if_pos (decide_eq_true hforce), ← hfound]
      exact h.append hevent
    · obtain ⟨ban, -, -, huntil, hlast⟩ := h.recorded bannedUntil hfound
      rw [Option.filter_some, if_neg (by simpa using hforce)]
      refine ⟨nofun, fun _ event hmem htrigger => ?_⟩
      have hold := (List.mem_append.mp hmem).resolve_right fun hnew =>
        hevent (List.mem_singleton.mp hnew ▸ htrigger)
      have hle := hlast event hold htrigger
      refine ⟨_, List.mem_append_right _ List.mem_cons_self, hlimiter, ?_⟩
      dsimp only
      omega

/-- What is kept for a key stays in order after one more call. -/
theorem banTracked_call (hthreshold : 0 < config.banThreshold)
    (hknown : s.KnownTo (history.map Prod.fst))
    (horderly : Orderly banLimits (history.map Prod.fst ++ [call]))
    (hfits : call.limiter = .strike → call.nowMs + config.banDuration.asMillis ≤ u64Max)
    (h : BanTracked config history key (s.abuse.bans.lookup key)) :
    BanTracked config (history ++ [(call, (s.call config call).1)]) key
      ((s.call config call).2.abuse.bans.lookup key) := by
  by_cases hown : call.limiter ∈ banLimits ∧ key = call.key
  · obtain ⟨hlimiter, rfl⟩ := hown
    rcases List.mem_pair.mp hlimiter with hstrike | hban
    · obtain ⟨hanswer, -, hbans⟩ := @call_strike config s call hthreshold hstrike
      rw [hanswer, hbans]
      cases hbanned : s.abuse.strikeBans config call.ip call.nowMs with
      | false =>
        simp only [Bool.false_eq_true, if_false]
        exact h.append fun htrigger => by cases htrigger.2.2
      | true =>
        rw [if_pos rfl, min_eq_left (hfits hstrike)]
        exact banTracked_banned horderly hstrike
    · rw [(@call_ban config s call hthreshold hban).2.2]
      apply h.filter hlimiter
      intro htrigger
      rw [htrigger.1] at hban
      cases hban
  · rw [(call_bans_of_ne hknown horderly fun hlimiter hkey => hown ⟨hlimiter, hkey⟩).2]
    refine h.append fun htrigger => hown ⟨?_, htrigger.2.1.symm⟩
    have hstrike : call.limiter = .strike := htrigger.1
    simp [hstrike]

/-- The strikes against a key, with whether they banned it. -/
def strikesOf (key : IpKey) (history : List (LimiterCall × Bool)) : List (LimiterCall × Bool) :=
  history.filter fun event => event.1.limiter = .strike ∧ event.1.key = key

/-- A further strike against the key comes last. -/
theorem strikesOf_append {answer : Bool} :
    strikesOf key (history ++ [(call, answer)]) =
      strikesOf key history ++ if call.limiter = .strike ∧ call.key = key then [(call, answer)] else [] := by
  unfold strikesOf
  rw [List.filter_append]
  by_cases h : call.limiter = .strike ∧ call.key = key <;> simp [h]

/-- The strikes counted in a record are the last ones against its key. They came after the window
began, and none of them banned. -/
def StrikeTracked (history : List (LimiterCall × Bool)) (key : IpKey) (found : Option StrikeRecord) :
    Prop :=
  ∀ record, found = some record → ∃ before block, strikesOf key history = before ++ block ∧
    block ≠ [] ∧ record.count ≤ block.length ∧
    ∀ event ∈ block, event.2 = false ∧ record.windowStartMs ≤ event.1.nowMs

section

variable (config : RelayServerConfig) (record : StrikeRecord) (windowMs nowMs : ℕ)

/-- A strike after the window begins a new one. -/
theorem strike_of_lapsed (h : windowMs < nowMs - record.windowStartMs) :
    record.strike windowMs nowMs = ⟨1, nowMs, nowMs⟩ := by
  simp [StrikeRecord.strike, h, u32Max]

/-- A strike within the window is counted in it. -/
theorem strike_of_open (h : nowMs - record.windowStartMs ≤ windowMs) :
    record.strike windowMs nowMs =
      ⟨min (record.count + 1) u32Max, record.windowStartMs, nowMs⟩ := by
  simp [StrikeRecord.strike, Nat.not_lt.mpr h]

end

/-- A record counts one more strike together with the last ones before it, all within the window. -/
def CountsLast (windowMs nowMs : ℕ) (strikes : List (LimiterCall × Bool)) (record : StrikeRecord) :
    Prop :=
  ∃ before block, strikes = before ++ block ∧ record.count ≤ block.length + 1 ∧
    nowMs - record.windowStartMs ≤ windowMs ∧ (block = [] → record.windowStartMs = nowMs) ∧
    ∀ event ∈ block, event.2 = false ∧ record.windowStartMs ≤ event.1.nowMs

/-- A strike that begins a window counts alone. -/
theorem countsLast_fresh (windowMs nowMs : ℕ) (strikes : List (LimiterCall × Bool)) :
    CountsLast windowMs nowMs strikes ⟨1, nowMs, nowMs⟩ :=
  ⟨strikes, [], (List.append_nil _).symm, le_rfl, by simp, fun _ => rfl, by simp⟩

/-- One more strike is counted together with the last ones against its key. -/
theorem struck_countsLast {ip : IpAddr} {nowMs : ℕ}
    (h : StrikeTracked history (ipKey ip) (s.abuse.strikes.lookup (ipKey ip))) :
    CountsLast config.banStrikeWindow.asMillis nowMs (strikesOf (ipKey ip) history)
      (s.abuse.struck config ip nowMs) := by
  unfold AbuseState.struck
  cases hfound : s.abuse.strikes.lookup (ipKey ip) with
  | none =>
    rw [Option.getD_none, strike_of_open _ _ _ (by simp)]
    exact countsLast_fresh _ _ _
  | some record =>
    rw [Option.getD_some]
    by_cases hlapsed : config.banStrikeWindow.asMillis < nowMs - record.windowStartMs
    · rw [strike_of_lapsed _ _ _ hlapsed]
      exact countsLast_fresh _ _ _
    · rw [strike_of_open _ _ _ (Nat.not_lt.mp hlapsed)]
      obtain ⟨before, block, hsplit, hnonempty, hcount, hblock⟩ := h record hfound
      refine ⟨before, block, hsplit, ?_, Nat.not_lt.mp hlapsed, fun hnil => absurd hnil hnonempty,
        hblock⟩
      dsimp only
      omega

/-- While there is room for every key, only a strike against a key touches its strikes. -/
theorem call_strikes_lookup (hthreshold : 0 < config.banThreshold)
    (hknown : s.KnownTo (history.map Prod.fst))
    (horderly : Orderly banLimits (history.map Prod.fst ++ [call]))
    (hother : ¬ (call.limiter = .strike ∧ call.key = key)) :
    (s.call config call).2.abuse.strikes.lookup key = s.abuse.strikes.lookup key := by
  by_cases hban : call.limiter = .ban
  · rw [(call_ban hthreshold hban).2.1]
  · refine (call_bans_of_ne hknown horderly fun hlimiter hkey => hother ⟨?_, hkey.symm⟩).1
    exact (List.mem_pair.mp hlimiter).resolve_right hban

/-- A strike that does not ban is counted after the last ones before it. -/
theorem strikeTracked_counted {record : StrikeRecord} {windowMs : ℕ}
    (horderly : Orderly banLimits (history.map Prod.fst ++ [call])) (hstrike : call.limiter = .strike)
    (h : CountsLast windowMs call.nowMs (strikesOf call.key history) record) :
    StrikeTracked (history ++ [(call, false)]) call.key (some record) := by
  intro counted hcounted
  obtain rfl := Option.some.inj hcounted
  obtain ⟨before, block, hsplit, hcount, -, hfirst, hblock⟩ := h
  have hbegun : record.windowStartMs ≤ call.nowMs := by
    cases block with
    | nil => exact (hfirst rfl).le
    | cons event rest =>
      have hmem : event ∈ strikesOf call.key history := by simp [hsplit]
      obtain ⟨hevent, hcounted⟩ := List.mem_filter.mp hmem
      simp only [decide_eq_true_eq] at hcounted
      exact (hblock event List.mem_cons_self).2.trans
        (earlier_of_orderly horderly (by simp [hstrike]) hevent (by simp [hcounted.1]))
  refine ⟨before, block ++ [(call, false)], ?_, by simp, by simpa using hcount,
    fun event hevent => ?_⟩
  · rw [strikesOf_append, if_pos ⟨hstrike, rfl⟩, hsplit, List.append_assoc]
  · rcases List.mem_append.mp hevent with hold | hnew
    · exact hblock event hold
    · rw [List.mem_singleton.mp hnew]
      exact ⟨rfl, hbegun⟩

/-- The counted strikes are still the last ones after one more call. -/
theorem strikeTracked_call (hthreshold : 0 < config.banThreshold)
    (hknown : s.KnownTo (history.map Prod.fst))
    (horderly : Orderly banLimits (history.map Prod.fst ++ [call]))
    (h : StrikeTracked history key (s.abuse.strikes.lookup key)) :
    StrikeTracked (history ++ [(call, (s.call config call).1)]) key
      ((s.call config call).2.abuse.strikes.lookup key) := by
  by_cases hown : call.limiter = .strike ∧ call.key = key
  · obtain ⟨hstrike, rfl⟩ := hown
    obtain ⟨hanswer, hstrikes, -⟩ := @call_strike config s call hthreshold hstrike
    rw [hanswer, hstrikes]
    cases hbanned : s.abuse.strikeBans config call.ip call.nowMs with
    | true => exact fun record hrecord => by cases hrecord
    | false =>
      have hkey : call.key = ipKey call.ip := LimiterCall.key_of_ne (by simp [hstrike])
      have hlast : CountsLast config.banStrikeWindow.asMillis call.nowMs (strikesOf call.key history)
          (s.abuse.struck config call.ip call.nowMs) := by
        rw [hkey] at h ⊢
        exact struck_countsLast h
      exact strikeTracked_counted horderly hstrike hlast
  · have hsame : strikesOf key (history ++ [(call, (s.call config call).1)]) = strikesOf key history := by
      rw [strikesOf_append, if_neg hown, List.append_nil]
    rw [call_strikes_lookup hthreshold hknown horderly hown]
    unfold StrikeTracked
    rw [hsame]
    exact h

/-- After orderly calls the counted strikes are the last ones against their keys. -/
theorem strikeTracked_of_serve (hthreshold : 0 < config.banThreshold)
    (h : Limiters.Serve config (.new perIpCapacity globalCapacity startMs) history s)
    (horderly : Orderly banLimits (history.map Prod.fst)) (key : IpKey) :
    StrikeTracked history key (s.abuse.strikes.lookup key) := by
  apply h.invariant_calls (Orderly banLimits)
    (fun history s => StrikeTracked history key (s.abuse.strikes.lookup key)) horderly
  · exact fun calls call hlonger => hlonger.before
  · exact nofun
  · intro earlier s call hserved horderly htracked
    exact strikeTracked_call hthreshold (knownTo_of_serve hserved) horderly htracked
  · rintro earlier s s' ⟨_, _, _, _, _, hstrikes, _, _, rfl⟩ htracked
    exact hstrikes.lookup_eq key ▸ htracked

/-- No ban of a strike among the calls lasts beyond the range of the clock. -/
def FitsClock (config : RelayServerConfig) (calls : List LimiterCall) : Prop :=
  ∀ call ∈ calls, call.limiter = .strike → call.nowMs + config.banDuration.asMillis ≤ u64Max

instance (config : RelayServerConfig) (calls : List LimiterCall) :
    Decidable (FitsClock config calls) :=
  inferInstanceAs (Decidable (∀ call ∈ calls, _ → _))

/-- After orderly calls the expiry kept for a key is that of its last ban. -/
theorem banTracked_of_serve (hthreshold : 0 < config.banThreshold)
    (h : Limiters.Serve config (.new perIpCapacity globalCapacity startMs) history s)
    (horderly : Orderly banLimits (history.map Prod.fst)) (hfits : FitsClock config (history.map Prod.fst))
    (key : IpKey) : BanTracked config history key (s.abuse.bans.lookup key) := by
  apply h.invariant_calls (fun calls => Orderly banLimits calls ∧ FitsClock config calls)
    (fun history s => BanTracked config history key (s.abuse.bans.lookup key)) ⟨horderly, hfits⟩
  · exact fun calls last hlonger =>
      ⟨hlonger.1.before, fun call hcall => hlonger.2 call (List.mem_append_left _ hcall)⟩
  · exact ⟨nofun, nofun⟩
  · intro earlier s call hserved hguard htracked
    exact banTracked_call hthreshold (knownTo_of_serve hserved) hguard.1
      (hguard.2 call (List.mem_append_right _ List.mem_cons_self)) htracked
  · rintro earlier s s' ⟨_, _, _, _, _, _, hbans, _, rfl⟩ htracked
    exact hbans.lookup_eq key ▸ htracked

/-- A lookup finds a ban exactly when a strike against the key brought one on that has not lapsed. -/
theorem isBanned_iff {ip : IpAddr} {nowMs : ℕ} (hthreshold : 0 < config.banThreshold)
    (h : BanTracked config history (ipKey ip) (s.abuse.bans.lookup (ipKey ip)))
    (hlater : ∀ event ∈ history, event.1.limiter ∈ banLimits → event.1.nowMs ≤ nowMs) :
    (s.abuse.isBanned config ip nowMs).1 = true ↔
      ∃ event ∈ history, Triggers (ipKey ip) event ∧ event.1.nowMs ≤ nowMs ∧
        nowMs < event.1.nowMs + config.banDuration.asMillis := by
  have hanswer : (s.abuse.isBanned config ip nowMs).1 =
      ((s.abuse.bans.lookup (ipKey ip)).any fun bannedUntil => decide (nowMs < bannedUntil)) :=
    (@call_ban config s ⟨.ban, ip, nowMs⟩ hthreshold rfl).1
  rw [hanswer]
  cases hfound : s.abuse.bans.lookup (ipKey ip) with
  | none =>
    simp only [Option.any_none, Bool.false_eq_true, false_iff]
    rintro ⟨event, hevent, htrigger, -, hforce⟩
    obtain ⟨later, hmem, hto, hlapsed⟩ := h.lapsed hfound event hevent htrigger
    have hnow := hlater later hmem hto
    omega
  | some bannedUntil =>
    obtain ⟨ban, hban, htrigger, huntil, hlast⟩ := h.recorded bannedUntil hfound
    simp only [Option.any_some, decide_eq_true_eq]
    constructor
    · intro hforce
      exact ⟨ban, hban, htrigger, hlater ban hban (by simp [htrigger.1]), by omega⟩
    · rintro ⟨event, hevent, hevents, -, hforce⟩
      have hle := hlast event hevent hevents
      omega

/-- A strike that bans is the last of as many strikes as the threshold asks for, within one window,
none of which banned before. -/
theorem exists_cluster_of_strikeBans {ip : IpAddr} {nowMs : ℕ}
    (h : StrikeTracked history (ipKey ip) (s.abuse.strikes.lookup (ipKey ip)))
    (hlater : ∀ event ∈ history, event.1.limiter ∈ banLimits → event.1.nowMs ≤ nowMs)
    (hbans : s.abuse.strikeBans config ip nowMs = true) :
    ∃ before cluster,
      strikesOf (ipKey ip) (history ++ [(⟨.strike, ip, nowMs⟩, true)]) = before ++ cluster ∧
        cluster.length = config.banThreshold ∧
        (∀ event ∈ cluster, event.1.nowMs ≤ nowMs ∧
          nowMs ≤ event.1.nowMs + config.banStrikeWindow.asMillis) ∧
        ∀ event ∈ cluster.dropLast, event.2 = false := by
  obtain ⟨before, block, hsplit, hcount, hspan, -, hblock⟩ :
      CountsLast config.banStrikeWindow.asMillis nowMs _ (s.abuse.struck config ip nowMs) :=
    struck_countsLast h
  rw [AbuseState.strikeBans, decide_eq_true_eq] at hbans
  let last : LimiterCall × Bool := (⟨.strike, ip, nowMs⟩, true)
  let extra := block.length + 1 - config.banThreshold
  refine ⟨before ++ (block ++ [last]).take extra, (block ++ [last]).drop extra, ?_, ?_,
    fun event hevent => ?_, fun event hevent => ?_⟩
  · rw [strikesOf_append, if_pos ⟨rfl, rfl⟩, hsplit, List.append_assoc, List.append_assoc,
      List.take_append_drop]
  · rw [List.length_drop, List.length_append, List.length_singleton]
    omega
  · rcases List.mem_append.mp (List.mem_of_mem_drop hevent) with hold | hnew
    · have hmem : event ∈ strikesOf (ipKey ip) history := by simp [hsplit, hold]
      obtain ⟨hhistory, hstrike⟩ := List.mem_filter.mp hmem
      simp only [decide_eq_true_eq] at hstrike
      have hbegun := (hblock event hold).2
      exact ⟨hlater event hhistory (by simp [hstrike.1]), by omega⟩
    · rw [List.mem_singleton.mp hnew]
      exact ⟨le_rfl, Nat.le_add_right _ _⟩
  · have hmem : event ∈ block := by
      rw [List.dropLast_drop_eq_drop_dropLast, List.dropLast_concat] at hevent
      exact List.mem_of_mem_drop hevent
    exact (hblock event hmem).1

/-- A further strike never brings the expiry of a ban forward. -/
theorem recordStrike_extends {ip : IpAddr} {nowMs bannedUntil : ℕ} (hthreshold : 0 < config.banThreshold)
    (h : BanTracked config history (ipKey ip) (s.abuse.bans.lookup (ipKey ip)))
    (hfits : FitsClock config (history.map Prod.fst))
    (hlater : ∀ event ∈ history, event.1.limiter ∈ banLimits → event.1.nowMs ≤ nowMs)
    (hfound : s.abuse.bans.lookup (ipKey ip) = some bannedUntil) :
    ∃ later, (s.abuse.recordStrike config ip nowMs).bans.lookup (ipKey ip) = some later ∧
      bannedUntil ≤ later := by
  have hbans : (s.abuse.recordStrike config ip nowMs).bans.lookup (ipKey ip) = _ :=
    (@call_strike config s ⟨.strike, ip, nowMs⟩ hthreshold rfl).2.2
  rw [hbans]
  split
  · obtain ⟨ban, hban, htrigger, huntil, -⟩ := h.recorded bannedUntil hfound
    have hnow := hlater ban hban (by simp [htrigger.1])
    have hclock := hfits ban.1 (List.mem_map_of_mem hban) htrigger.1
    refine ⟨_, rfl, le_min ?_ ?_⟩
    · dsimp only
      omega
    · omega
  · exact ⟨bannedUntil, hfound, le_rfl⟩

/-- After strikes and lookups at nondecreasing times from no more keys than the maps track: a lookup
finds a ban exactly when an earlier strike against the key brought one on that has not lapsed; a
strike that bans is the last of as many strikes as the threshold asks for, within one strike window
and none of them counted for an earlier ban; no call touches another key; and no strike shortens a
ban. -/
theorem served_bans (hthreshold : 0 < config.banThreshold)
    (h : Limiters.Serve config (.new perIpCapacity globalCapacity startMs) history s)
    (horderly : Orderly banLimits (history.map Prod.fst))
    (hfits : FitsClock config (history.map Prod.fst)) {ip : IpAddr} {nowMs : ℕ}
    (hlater : ∀ event ∈ history, event.1.limiter ∈ banLimits → event.1.nowMs ≤ nowMs) :
    ((s.abuse.isBanned config ip nowMs).1 = true ↔
        ∃ event ∈ history, Triggers (ipKey ip) event ∧ event.1.nowMs ≤ nowMs ∧
          nowMs < event.1.nowMs + config.banDuration.asMillis) ∧
      (s.abuse.strikeBans config ip nowMs = true →
        ∃ before cluster,
          strikesOf (ipKey ip) (history ++ [(⟨.strike, ip, nowMs⟩, true)]) = before ++ cluster ∧
            cluster.length = config.banThreshold ∧
            (∀ event ∈ cluster, event.1.nowMs ≤ nowMs ∧
              nowMs ≤ event.1.nowMs + config.banStrikeWindow.asMillis) ∧
            ∀ event ∈ cluster.dropLast, event.2 = false) ∧
      (∀ call, Orderly banLimits (history.map Prod.fst ++ [call]) → ∀ key, key ≠ call.key →
        (s.call config call).2.abuse.strikes.lookup key = s.abuse.strikes.lookup key ∧
          (s.call config call).2.abuse.bans.lookup key = s.abuse.bans.lookup key) ∧
      ∀ bannedUntil, s.abuse.bans.lookup (ipKey ip) = some bannedUntil →
        ∃ later, (s.abuse.recordStrike config ip nowMs).bans.lookup (ipKey ip) = some later ∧
          bannedUntil ≤ later := by
  have hbans := banTracked_of_serve hthreshold h horderly hfits (ipKey ip)
  refine ⟨isBanned_iff hthreshold hbans hlater, fun hbanned => ?_, fun call hcall key hkey => ?_,
    fun bannedUntil hfound => recordStrike_extends hthreshold hbans hfits hlater hfound⟩
  · exact exists_cluster_of_strikeBans (strikeTracked_of_serve hthreshold h horderly _) hlater hbanned
  · exact call_bans_of_ne (knownTo_of_serve h) hcall fun _ => hkey

/-- Two strikes ban a source at a threshold of two, and a lookup one second later finds the ban. -/
theorem served_bans_twice :
    let config : RelayServerConfig := { banThreshold := 2 }
    let strikes : List LimiterCall := [⟨.strike, .v4 1, 0⟩, ⟨.strike, .v4 1, 10⟩]
    let served := serveAll (Limiters.call config) (.new 5 1000 0) strikes
    (served.2.abuse.isBanned config (.v4 1) 1010).1 = true ↔
      ∃ event ∈ served.1, Triggers (.v4 1) event ∧ event.1.nowMs ≤ 1010 ∧
        1010 < event.1.nowMs + config.banDuration.asMillis := by
  intro config strikes served
  have hserved : Limiters.Serve config (.new 5 1000 0) served.1 served.2 :=
    Serves.start.serveAll strikes
  exact (served_bans (by decide) hserved (by decide) (by decide) (by decide)).1

/-! ### The strike window does not roll -/

/-- A record has counted the strikes of a cluster since the window that was open at its first strike
began, or this window has lapsed in between and some of them were left out. -/
def CountsCluster (config : RelayServerConfig) (first : LimiterCall) (startMs : ℕ)
    (strikes : List (LimiterCall × Bool)) (record : StrikeRecord) : Prop :=
  record.windowStartMs = startMs ∧ min strikes.length u32Max ≤ record.count ∨
    first.nowMs ≤ record.windowStartMs ∧ record.count < strikes.length ∧
      ∀ nowMs, (∀ event ∈ strikes, event.1.nowMs ≤ nowMs) →
        config.banStrikeWindow.asMillis < nowMs - startMs

/-- One more strike of the cluster is counted, or begins a new window. -/
theorem CountsCluster.strike {first : LimiterCall} {startMs : ℕ}
    {strikes : List (LimiterCall × Bool)} {record : StrikeRecord} {event : LimiterCall × Bool}
    (h : CountsCluster config first startMs strikes record) (hbegun : strikes ≠ [])
    (hlater : first.nowMs ≤ event.1.nowMs)
    (hspan : event.1.nowMs - first.nowMs ≤ config.banStrikeWindow.asMillis) :
    CountsCluster config first startMs (strikes ++ [event])
      (record.strike config.banStrikeWindow.asMillis event.1.nowMs) := by
  have hlast {nowMs : ℕ} (hnow : ∀ e ∈ strikes ++ [event], e.1.nowMs ≤ nowMs) :
      event.1.nowMs ≤ nowMs := hnow event (by simp)
  by_cases hlapsed : config.banStrikeWindow.asMillis < event.1.nowMs - record.windowStartMs
  · rw [strike_of_lapsed _ _ _ hlapsed]
    right
    rcases h with ⟨hstart, -⟩ | ⟨hstart, -, -⟩
    · have hpos : 0 < strikes.length := List.length_pos_of_ne_nil hbegun
      refine ⟨hlater, ?_, fun nowMs hnow => ?_⟩
      · rw [List.length_append, List.length_singleton]
        exact Nat.lt_add_of_pos_left hpos
      · have hle := hlast hnow
        omega
    · omega
  · rw [strike_of_open _ _ _ (Nat.not_lt.mp hlapsed)]
    rcases h with ⟨hstart, hcount⟩ | ⟨hstart, hcount, hpassed⟩
    · refine .inl ⟨hstart, ?_⟩
      rw [List.length_append, List.length_singleton]
      exact le_min (by omega) (min_le_right _ _)
    · refine .inr ⟨hstart, ?_, fun nowMs hnow => ?_⟩
      · rw [List.length_append, List.length_singleton]
        exact (min_le_left _ _).trans_lt (by omega)
      · exact hpassed nowMs fun e he => hnow e (List.mem_append_left _ he)

/-- The window in which a strike is counted is open at its time. -/
theorem strike_open (record : StrikeRecord) (windowMs nowMs : ℕ) :
    nowMs - (record.strike windowMs nowMs).windowStartMs ≤ windowMs := by
  by_cases hlapsed : windowMs < nowMs - record.windowStartMs
  · rw [strike_of_lapsed _ _ _ hlapsed]
    simp
  · rw [strike_of_open _ _ _ (Nat.not_lt.mp hlapsed)]
    exact Nat.not_lt.mp hlapsed

/-- Each strike is counted. -/
theorem strike_count_pos (record : StrikeRecord) (windowMs nowMs : ℕ) :
    0 < (record.strike windowMs nowMs).count := by
  by_cases hlapsed : windowMs < nowMs - record.windowStartMs
  · rw [strike_of_lapsed _ _ _ hlapsed]
    exact Nat.one_pos
  · rw [strike_of_open _ _ _ (Nat.not_lt.mp hlapsed)]
    exact lt_min (Nat.succ_pos _) (by decide)

/-- The strike window that is open when the first of some strikes arrives is open when the last one
arrives. -/
def WindowOutlasts (config : RelayServerConfig) (state : AbuseState) (first last : LimiterCall) : Prop :=
  ∀ record, state.strikes.lookup first.key = some record →
    first.nowMs - record.windowStartMs ≤ config.banStrikeWindow.asMillis →
      last.nowMs - record.windowStartMs ≤ config.banStrikeWindow.asMillis

/-- The window outlasts the strikes exactly when the last one is within the window in which the first
is counted. -/
theorem windowOutlasts_iff {first last : LimiterCall} (hstrike : first.limiter = .strike)
    (hspan : last.nowMs - first.nowMs ≤ config.banStrikeWindow.asMillis) :
    WindowOutlasts config s.abuse first last ↔
      last.nowMs - (s.abuse.struck config first.ip first.nowMs).windowStartMs ≤
        config.banStrikeWindow.asMillis := by
  unfold WindowOutlasts AbuseState.struck
  rw [LimiterCall.key_of_ne (by simp [hstrike])]
  cases hfound : s.abuse.strikes.lookup (ipKey first.ip) with
  | none =>
    rw [Option.getD_none, strike_of_open _ _ _ (by simp)]
    simpa using hspan
  | some record =>
    rw [Option.getD_some]
    by_cases hlapsed : config.banStrikeWindow.asMillis < first.nowMs - record.windowStartMs
    · rw [strike_of_lapsed _ _ _ hlapsed]
      refine iff_of_true (fun other hother hopen => ?_) hspan
      obtain rfl := Option.some.inj hother
      omega
    · rw [strike_of_open _ _ _ (Nat.not_lt.mp hlapsed)]
      refine ⟨fun h => h record rfl (Nat.not_lt.mp hlapsed), fun h other hother _ => ?_⟩
      obtain rfl := Option.some.inj hother
      exact h

/-- As many consecutive strikes against a key as the threshold asks for, within a span of one strike
window. Those before the last one are among other calls and did not ban. -/
structure Cluster (config : RelayServerConfig) (more : List (LimiterCall × Bool))
    (first last : LimiterCall) : Prop where
  begins : (more.map Prod.fst ++ [last]).head? = some first
  first_strike : first.limiter = .strike
  last_strike : last.limiter = .strike
  same_key : last.key = first.key
  length : (strikesOf first.key more).length + 1 = config.banThreshold
  unbanned : ∀ event ∈ strikesOf first.key more, event.2 = false
  span : last.nowMs - first.nowMs ≤ config.banStrikeWindow.asMillis

section

variable {more : List (LimiterCall × Bool)} {first last : LimiterCall}

/-- The strikes of a cluster come between its first and its last one. -/
theorem Cluster.times (h : Cluster config more first last)
    (horderly : Orderly banLimits (more.map Prod.fst ++ [last])) {strike : LimiterCall}
    (hmem : strike ∈ more.map Prod.fst ++ [last]) (hstrike : strike.limiter = .strike) :
    first.nowMs ≤ strike.nowMs ∧ strike.nowMs - first.nowMs ≤ config.banStrikeWindow.asMillis := by
  have hto : strike.limiter ∈ banLimits := by simp [hstrike]
  have hspan := h.span
  have hlast : strike.nowMs ≤ last.nowMs := by
    rcases List.mem_append.mp hmem with hold | hnew
    · exact (chronological_append.mp horderly.chronological).2 (by simp [h.last_strike]) strike hold hto
    · rw [List.mem_singleton.mp hnew]
  refine ⟨?_, by omega⟩
  obtain ⟨rest, hrest⟩ := List.head?_eq_some_iff.mp h.begins
  rw [hrest] at hmem horderly
  have hordered := horderly.chronological
  unfold Chronological callsTo at hordered
  rw [List.filter_cons_of_pos (by simp [h.first_strike])] at hordered
  rcases List.mem_cons.mp hmem with rfl | hlater
  · exact le_rfl
  · exact List.rel_of_pairwise_cons hordered (List.mem_filter.mpr ⟨hlater, by simpa using hto⟩)

/-- After part of a cluster, its key has a record that counts its strikes so far. -/
def ClusterTracked (config : RelayServerConfig) (s : Limiters) (first : LimiterCall)
    (strikes : List (LimiterCall × Bool)) (found : Option StrikeRecord) : Prop :=
  strikes = [] ∧ found = s.abuse.strikes.lookup first.key ∨
    strikes ≠ [] ∧ ∃ record, found = some record ∧ CountsCluster config first
      (s.abuse.struck config first.ip first.nowMs).windowStartMs strikes record

/-- The next strike of a cluster is counted with those before it. -/
theorem ClusterTracked.struck {strikes : List (LimiterCall × Bool)} {state : Limiters} {strike : LimiterCall}
    {answer : Bool}
    (h : ClusterTracked config s first strikes (state.abuse.strikes.lookup first.key))
    (hfirst : strikes = [] → strike = first) (hstrike : strike.limiter = .strike)
    (hkey : strike.key = first.key) (hlater : first.nowMs ≤ strike.nowMs)
    (hspan : strike.nowMs - first.nowMs ≤ config.banStrikeWindow.asMillis) :
    CountsCluster config first (s.abuse.struck config first.ip first.nowMs).windowStartMs
      (strikes ++ [(strike, answer)]) (state.abuse.struck config strike.ip strike.nowMs) := by
  have hip : ipKey strike.ip = first.key := by
    rw [← hkey, LimiterCall.key_of_ne (by simp [hstrike])]
  rcases h with ⟨hnil, hfound⟩ | ⟨hbegun, record, hfound, hcounts⟩
  · obtain rfl := hfirst hnil
    have hsame : state.abuse.struck config strike.ip strike.nowMs =
        s.abuse.struck config strike.ip strike.nowMs := by
      rw [AbuseState.struck, AbuseState.struck, hip, hfound]
    rw [hsame, hnil]
    left
    refine ⟨rfl, (min_le_left _ _).trans ?_⟩
    exact strike_count_pos _ _ _
  · have hstruck : state.abuse.struck config strike.ip strike.nowMs =
        record.strike config.banStrikeWindow.asMillis strike.nowMs := by
      rw [AbuseState.struck, hip, hfound, Option.getD_some]
    rw [hstruck]
    exact hcounts.strike hbegun hlater hspan

/-- A cluster begins with its first strike. -/
theorem Cluster.eq_first (h : Cluster config more first last) {earlier : List (LimiterCall × Bool)}
    {call : LimiterCall} (hpre : earlier.map Prod.fst ++ [call] <+: more.map Prod.fst ++ [last])
    (hnone : strikesOf first.key earlier = []) : call = first := by
  obtain ⟨later, hlater⟩ := hpre
  have hbegins := h.begins
  rw [← hlater] at hbegins
  cases earlier with
  | nil => simpa using hbegins
  | cons event rest =>
    have hevent : event.1 = first := by simpa using hbegins
    have hcounted : event ∈ strikesOf first.key (event :: rest) := by
      simp [strikesOf, hevent, h.first_strike]
    rw [hnone] at hcounted
    cases hcounted

/-- Along a cluster its key has a record that counts its strikes so far. -/
theorem clusterTracked_of_serve (hthreshold : 0 < config.banThreshold)
    (h : Limiters.Serve config (.new perIpCapacity globalCapacity startMs) history s)
    (hmore : Limiters.Serve config s more s') (hcluster : Cluster config more first last)
    (horderly : Orderly banLimits (history.map Prod.fst ++ (more.map Prod.fst ++ [last]))) :
    ClusterTracked config s first (strikesOf first.key more) (s'.abuse.strikes.lookup first.key) := by
  apply hmore.invariant (fun earlier => earlier <+: more)
    (fun earlier state => ClusterTracked config s first (strikesOf first.key earlier)
      (state.abuse.strikes.lookup first.key)) (List.prefix_refl more)
  · exact fun earlier event hpre => (List.prefix_append earlier [event]).trans hpre
  · exact .inl ⟨rfl, rfl⟩
  · intro earlier state call hserved hpre htracked
    have hcalls : earlier.map Prod.fst ++ [call] <+: more.map Prod.fst ++ [last] := by
      have hmap := hpre.map Prod.fst
      rw [List.map_append] at hmap
      exact hmap.trans (List.prefix_append _ _)
    have hordered : Orderly banLimits ((history ++ earlier).map Prod.fst ++ [call]) := by
      rw [List.map_append, List.append_assoc]
      exact horderly.sublist (hcalls.sublist.append_left _)
    have hknown := knownTo_of_serve (h.append hserved)
    by_cases hown : call.limiter = .strike ∧ call.key = first.key
    · obtain ⟨hstrike, hkey⟩ := hown
      obtain ⟨hanswer, hfound, -⟩ := @call_strike config state call hthreshold hstrike
      have hevent : (call, (state.call config call).1) ∈ strikesOf first.key more :=
        List.mem_filter.mpr ⟨hpre.subset (by simp), by simp [hstrike, hkey]⟩
      have hfalse := hanswer.symm.trans (hcluster.unbanned _ hevent)
      obtain ⟨hlater, hspan⟩ := hcluster.times (horderly.sublist (List.sublist_append_right _ _))
        (hcalls.subset (by simp)) hstrike
      rw [hkey, hfalse, if_neg Bool.false_ne_true] at hfound
      rw [strikesOf_append, if_pos ⟨hstrike, hkey⟩, hfound]
      exact .inr ⟨by simp, _, rfl,
        htracked.struck (hcluster.eq_first hcalls) hstrike hkey hlater hspan⟩
    · rw [strikesOf_append, if_neg hown, List.append_nil,
        call_strikes_lookup hthreshold hknown hordered hown]
      exact htracked
  · rintro earlier state state' ⟨_, _, _, _, _, hstrikes, _, _, rfl⟩ htracked
    exact hstrikes.lookup_eq first.key ▸ htracked

/-- A strike that bans is found by every lookup until the ban lapses. -/
theorem isBanned_of_strikeBans {state : Limiters} {ip : IpAddr} {nowMs t : ℕ}
    (hthreshold : 0 < config.banThreshold) (hbans : state.abuse.strikeBans config ip nowMs = true)
    (ht : t < min (nowMs + config.banDuration.asMillis) u64Max) :
    ((state.abuse.recordStrike config ip nowMs).isBanned config ip t).1 = true := by
  have hrecorded : (state.abuse.recordStrike config ip nowMs).bans.lookup (ipKey ip) = _ :=
    (@call_strike config state ⟨.strike, ip, nowMs⟩ hthreshold rfl).2.2
  have hanswer : ((state.abuse.recordStrike config ip nowMs).isBanned config ip t).1 = _ :=
    (@call_ban config (state.call config ⟨.strike, ip, nowMs⟩).2 ⟨.ban, ip, t⟩ hthreshold rfl).1
  rw [hanswer]
  change ((state.abuse.recordStrike config ip nowMs).bans.lookup (ipKey ip)).any _ = true
  rw [hrecorded, if_pos hbans]
  exact decide_eq_true ht

/-- As many consecutive strikes as the threshold asks for, within a span of one strike window, ban
their key exactly when the strike window that is open at the first of them is open at the last. -/
theorem served_cluster_bans_iff (hthreshold : 0 < config.banThreshold)
    (hcounter : config.banThreshold ≤ u32Max)
    (h : Limiters.Serve config (.new perIpCapacity globalCapacity startMs) history s)
    (hmore : Limiters.Serve config s more s') (hcluster : Cluster config more first last)
    (horderly : Orderly banLimits (history.map Prod.fst ++ (more.map Prod.fst ++ [last]))) :
    (s'.abuse.strikeBans config last.ip last.nowMs = true ↔ WindowOutlasts config s.abuse first last) ∧
      (WindowOutlasts config s.abuse first last → ∀ t, last.nowMs ≤ t →
        t < min (last.nowMs + config.banDuration.asMillis) u64Max →
        ((s'.abuse.recordStrike config last.ip last.nowMs).isBanned config last.ip t).1 = true) := by
  have htracked := clusterTracked_of_serve hthreshold h hmore hcluster horderly
  have hbans : s'.abuse.strikeBans config last.ip last.nowMs = true ↔
      WindowOutlasts config s.abuse first last := by
    have hcalls := horderly.sublist (List.sublist_append_right _ _)
    obtain ⟨hlater, hspan⟩ := hcluster.times hcalls (by simp) hcluster.last_strike
    have hcounts : CountsCluster config first _ (strikesOf first.key more ++ [(last, true)]) _ :=
      htracked.struck (hcluster.eq_first (List.prefix_refl _)) hcluster.last_strike
        hcluster.same_key hlater hspan
    have hlength : (strikesOf first.key more ++ [(last, true)]).length = config.banThreshold := by
      rw [List.length_append, List.length_singleton]
      exact hcluster.length
    rw [windowOutlasts_iff hcluster.first_strike hcluster.span, AbuseState.strikeBans, decide_eq_true_eq]
    rcases hcounts with ⟨hstart, hcount⟩ | ⟨-, hcount, hpassed⟩
    · rw [hlength, min_eq_left hcounter] at hcount
      refine iff_of_true ⟨hthreshold.ne', hcount⟩ ?_
      rw [← hstart]
      exact strike_open _ _ _
    · rw [hlength] at hcount
      refine iff_of_false (fun hbanned => ?_) (Nat.not_le.mpr (hpassed last.nowMs fun event hevent => ?_))
      · exact Nat.not_le.mpr hcount hbanned.2
      · rcases List.mem_append.mp hevent with hold | hnew
        · obtain ⟨hmem, hstrike⟩ := List.mem_filter.mp hold
          simp only [decide_eq_true_eq] at hstrike
          exact (chronological_append.mp hcalls.chronological).2 (by simp [hcluster.last_strike])
            event.1 (List.mem_map_of_mem hmem) (by simp [hstrike.1])
        · rw [List.mem_singleton.mp hnew]
  exact ⟨hbans, fun houtlasts t _ ht => isBanned_of_strikeBans hthreshold (hbans.mpr houtlasts) ht⟩

end

/-- Two strikes within a window that begins with the first of them ban at a threshold of two. -/
theorem served_cluster_bans_iff_twice :
    let config : RelayServerConfig := { banThreshold := 2 }
    let served := serveAll (Limiters.call config) (.new 5 1000 0) [⟨.strike, .v4 1, 0⟩]
    ((served.2.abuse.recordStrike config (.v4 1) 10).isBanned config (.v4 1) 10).1 = true := by
  intro config served
  let first : LimiterCall := ⟨.strike, .v4 1, 0⟩
  let last : LimiterCall := ⟨.strike, .v4 1, 10⟩
  have hmore : Limiters.Serve config (.new 5 1000 0) served.1 served.2 := Serves.start.serveAll [first]
  have hcluster : Cluster config served.1 first last :=
    ⟨rfl, rfl, rfl, rfl, by decide, by decide, by decide⟩
  have hserved : Limiters.Serve config (.new 5 1000 0) [] (.new 5 1000 0) := .start
  have houtlasts : WindowOutlasts config (Limiters.new 5 1000 0).abuse first last :=
    fun record hrecord => by cases hrecord
  exact (served_cluster_bans_iff (by decide) (by decide) hserved hmore hcluster (by decide)).2
    houtlasts 10 le_rfl (by decide)

/-- With the default configuration, twenty consecutive strikes within two milliseconds do not ban
their key: one strike a minute earlier began the window that lapses between them. -/
theorem exists_served_cluster_not_banned :
    ∃ history s more s' first last,
      Limiters.Serve {} (.new 5 1000 0) history s ∧ Limiters.Serve {} s more s' ∧
        Cluster {} more first last ∧
        Orderly banLimits (history.map Prod.fst ++ (more.map Prod.fst ++ [last])) ∧
        ((s'.abuse.recordStrike {} last.ip last.nowMs).isBanned {} last.ip last.nowMs).1 = false := by
  let strike (nowMs : ℕ) : LimiterCall := ⟨.strike, .v4 1, nowMs⟩
  let served := serveAll (Limiters.call {}) (.new 5 1000 0) [strike 0]
  let rest := List.replicate 18 (strike 59999) ++ [strike 60001]
  let more := serveAll (Limiters.call {}) served.2 rest
  have hserved : Limiters.Serve {} (.new 5 1000 0) served.1 served.2 := Serves.start.serveAll [strike 0]
  have hmore : Limiters.Serve {} served.2 more.1 more.2 := Serves.start.serveAll rest
  exact ⟨_, _, _, _, strike 59999, strike 60001, hserved, hmore,
    ⟨by decide, rfl, rfl, rfl, by decide, by decide, by decide⟩, by decide, by decide⟩

end DigRelay
