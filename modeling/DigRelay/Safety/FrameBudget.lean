import DigRelay.Common.Service
import DigRelay.Common.Window
import DigRelay.Limits

/-!
# A connection is closed at its first frame over budget

The limiter of a connection spends a message token, then bytes of the present second, then bytes of
the connection's total, and stops at the first of them that does not suffice. For frames that arrive
at nondecreasing times this is the same as counting: as long as every frame was admitted, the next
one is refused exactly when the frames or the bytes of its second, or the bytes of the connection,
exceed an enabled limit.
-/

namespace DigRelay

open Common

/-- A frame by its size and time of arrival. -/
structure SizedFrame where
  bytes : ℕ
  nowMs : ℕ
  deriving DecidableEq

/-- Charge a frame to the budgets of a connection. -/
def PerConnLimiter.charge (config : RelayServerConfig) (limiter : PerConnLimiter)
    (frame : SizedFrame) : Admit × PerConnLimiter :=
  limiter.admit config frame.bytes frame.nowMs

/-- The frames that arrive in a window. -/
def framesIn (frames : List SizedFrame) (window : ℕ) : ℕ :=
  frames.countP fun frame => frame.nowMs / 1000 = window

/-- The bytes that arrive in a window. -/
def bytesIn (frames : List SizedFrame) (window : ℕ) : ℕ :=
  ((frames.filter fun frame => frame.nowMs / 1000 = window).map SizedFrame.bytes).sum

/-- The bytes that arrive in all. -/
def bytesOf (frames : List SizedFrame) : ℕ := (frames.map SizedFrame.bytes).sum

/-- Counting a frame after some others, an enabled limit is exceeded. -/
def Exceeds (config : RelayServerConfig) (earlier : List SizedFrame) (frame : SizedFrame) : Prop :=
  0 < config.messagesPerConnPerSec ∧
      config.messagesPerConnPerSec < framesIn (earlier ++ [frame]) (frame.nowMs / 1000) ∨
    0 < config.bytesPerConnPerSec ∧
      config.bytesPerConnPerSec < bytesIn (earlier ++ [frame]) (frame.nowMs / 1000) ∨
    0 < config.maxRelayedBytesPerConn ∧
      config.maxRelayedBytesPerConn < bytesOf (earlier ++ [frame])

section

variable (frames : List SizedFrame) (frame : SizedFrame) (window : ℕ)

/-- A further frame counts in its own window. -/
theorem framesIn_append :
    framesIn (frames ++ [frame]) window =
      framesIn frames window + if window = frame.nowMs / 1000 then 1 else 0 := by
  unfold framesIn
  rw [List.countP_append, List.countP_singleton]
  simp [eq_comm]

/-- The bytes of a further frame count in its own window. -/
theorem bytesIn_append :
    bytesIn (frames ++ [frame]) window =
      bytesIn frames window + if window = frame.nowMs / 1000 then frame.bytes else 0 := by
  unfold bytesIn
  rw [List.filter_append, List.map_append, List.sum_append]
  by_cases h : frame.nowMs / 1000 = window
  · simp [h]
  · simp [h, Ne.symm h]

/-- The bytes of a further frame count. -/
theorem bytesOf_append : bytesOf (frames ++ [frame]) = bytesOf frames + frame.bytes := by
  simp [bytesOf]

end

/-- The bytes a spend in some window finds. -/
def ByteBucket.offer (bucket : ByteBucket) (capacity window : ℕ) : ℕ :=
  if window = bucket.window then bucket.remaining else capacity

/-- A spend of bytes succeeds when its window offers them, and takes them from this window alone. -/
theorem byteBucket_trySpend_spec (bucket : ByteBucket) (capacity cost nowMs : ℕ) :
    (bucket.trySpend capacity cost nowMs).1 = decide (cost ≤ bucket.offer capacity (nowMs / 1000)) ∧
      (cost ≤ bucket.offer capacity (nowMs / 1000) → ∀ window,
        (bucket.trySpend capacity cost nowMs).2.offer capacity window =
          if window = nowMs / 1000 then bucket.offer capacity (nowMs / 1000) - cost else capacity) := by
  have hoffer : bucket.offer capacity (nowMs / 1000) =
      if nowMs / 1000 ≠ bucket.window then capacity else bucket.remaining := (ite_not _ _ _).symm
  have hspend : bucket.trySpend capacity cost nowMs =
      if bucket.offer capacity (nowMs / 1000) ≥ cost then
        (true, ⟨bucket.offer capacity (nowMs / 1000) - cost, nowMs / 1000⟩)
      else (false, ⟨bucket.offer capacity (nowMs / 1000), nowMs / 1000⟩) := by
    rw [hoffer]
    rfl
  rw [hspend]
  split
  · rename_i hfits
    exact ⟨(decide_eq_true hfits).symm, fun _ window => rfl⟩
  · rename_i hshort
    exact ⟨(decide_eq_false hshort).symm, fun hfits => absurd hfits hshort⟩

/-- A full byte budget offers its capacity in every window. -/
theorem byteBucket_offer_new (capacity nowMs window : ℕ) :
    (ByteBucket.new capacity nowMs).offer capacity window = capacity := by
  unfold ByteBucket.offer
  split <;> rfl

/-- Each enabled budget of a connection still has what a frame costs. -/
structure Affords (config : RelayServerConfig) (limiter : PerConnLimiter) (frame : SizedFrame) :
    Prop where
  msgs : 0 < config.messagesPerConnPerSec →
    0 < limiter.msgs.offer config.messagesPerConnPerSec (frame.nowMs / 1000)
  bytes : 0 < config.bytesPerConnPerSec →
    frame.bytes ≤ limiter.bytes.offer config.bytesPerConnPerSec (frame.nowMs / 1000)
  total : 0 < config.maxRelayedBytesPerConn →
    min (limiter.relayedTotal + frame.bytes) u64Max ≤ config.maxRelayedBytesPerConn

/-- The budgets after a frame they afford. -/
def PerConnLimiter.charged (config : RelayServerConfig) (limiter : PerConnLimiter)
    (frame : SizedFrame) : PerConnLimiter where
  msgs :=
    if 0 < config.messagesPerConnPerSec then
      (limiter.msgs.trySpend config.messagesPerConnPerSec frame.nowMs).2
    else limiter.msgs
  bytes :=
    if 0 < config.bytesPerConnPerSec then
      (limiter.bytes.trySpend config.bytesPerConnPerSec frame.bytes frame.nowMs).2
    else limiter.bytes
  relayedTotal := min (limiter.relayedTotal + frame.bytes) u64Max

/-- A frame is admitted when it is afforded, and then charged to every enabled budget. -/
theorem charge_spec (config : RelayServerConfig) (limiter : PerConnLimiter) (frame : SizedFrame) :
    ((limiter.charge config frame).1 = .ok ↔ Affords config limiter frame) ∧
      ((limiter.charge config frame).1 = .ok →
        (limiter.charge config frame).2 = limiter.charged config frame) := by
  have haffords : Affords config limiter frame ↔
      ¬(config.messagesPerConnPerSec > 0 ∧
          (limiter.msgs.trySpend config.messagesPerConnPerSec frame.nowMs).1 = false) ∧
        ¬(config.bytesPerConnPerSec > 0 ∧
          (limiter.bytes.trySpend config.bytesPerConnPerSec frame.bytes frame.nowMs).1 = false) ∧
        ¬(config.maxRelayedBytesPerConn > 0 ∧
          min (limiter.relayedTotal + frame.bytes) u64Max > config.maxRelayedBytesPerConn) := by
    rw [(trySpend_spec _ _ _).1, available_eq_offer, (byteBucket_trySpend_spec _ _ _ _).1]
    simp only [not_and, decide_eq_false_iff_not, Decidable.not_not]
    exact ⟨fun h => ⟨h.msgs, h.bytes, fun hmax => (h.total hmax).not_gt⟩,
      fun ⟨hmsgs, hbytes, htotal⟩ => ⟨hmsgs, hbytes, fun hmax => not_lt.mp (htotal hmax)⟩⟩
  rw [haffords]
  unfold PerConnLimiter.charge PerConnLimiter.admit PerConnLimiter.charged
  dsimp only
  by_cases hmsgs : config.messagesPerConnPerSec > 0 <;>
    by_cases hbytes : config.bytesPerConnPerSec > 0 <;>
    simp only [hmsgs, hbytes, if_true, if_false, true_and, false_and, not_false_eq_true]
  all_goals split_ifs <;> simp_all

/-- While all frames were admitted, the enabled budgets hold what the frames have left of them. -/
structure Accounts (config : RelayServerConfig) (earlier : List SizedFrame) (now : ℕ)
    (limiter : PerConnLimiter) : Prop where
  msgs : 0 < config.messagesPerConnPerSec →
    Tracks config.messagesPerConnPerSec now (fun _ => False) (framesIn earlier)
      (limiter.msgs.offer config.messagesPerConnPerSec)
  bytes : 0 < config.bytesPerConnPerSec →
    Tracks config.bytesPerConnPerSec now (fun _ => False) (bytesIn earlier)
      (limiter.bytes.offer config.bytesPerConnPerSec)
  total : limiter.relayedTotal = min (bytesOf earlier) u64Max

variable {config : RelayServerConfig} {limiter : PerConnLimiter} {earlier frames : List SizedFrame}
  {frame : SizedFrame} {now : ℕ}

/-- A new connection has its full budgets. -/
theorem accounts_new (config : RelayServerConfig) (startMs now : ℕ) :
    Accounts config [] now (PerConnLimiter.new config startMs) := by
  refine ⟨fun _ => ?_, fun _ => ?_, rfl⟩
  · have hfull : (PerConnLimiter.new config startMs).msgs.offer config.messagesPerConnPerSec =
        fun _ => config.messagesPerConnPerSec := funext fun window => offer_new _ _ _
    rw [hfull]
    exact .start
  · have hfull : (PerConnLimiter.new config startMs).bytes.offer config.bytesPerConnPerSec =
        fun _ => config.bytesPerConnPerSec := funext fun window => byteBucket_offer_new _ _ _
    rw [hfull]
    exact .start

/-- Time passes on a connection. -/
theorem Accounts.advance {later : ℕ} (h : Accounts config earlier now limiter) (hlater : now ≤ later) :
    Accounts config earlier later limiter :=
  ⟨fun hm => (h.msgs hm).advance hlater, fun hb => (h.bytes hb).advance hlater, h.total⟩

/-- The budgets afford a frame exactly when it does not exceed a limit. -/
theorem Accounts.affords_iff (h : Accounts config earlier (frame.nowMs / 1000) limiter)
    (hmax : config.maxRelayedBytesPerConn < u64Max) :
    Affords config limiter frame ↔ ¬Exceeds config earlier frame := by
  have hmsgs (hm : 0 < config.messagesPerConnPerSec) :
      0 < limiter.msgs.offer config.messagesPerConnPerSec (frame.nowMs / 1000) ↔
        ¬config.messagesPerConnPerSec < framesIn (earlier ++ [frame]) (frame.nowMs / 1000) := by
    have hbalance := (h.msgs hm).balance.resolve_left id
    rw [framesIn_append, if_pos rfl]
    omega
  have hbytes (hb : 0 < config.bytesPerConnPerSec) :
      frame.bytes ≤ limiter.bytes.offer config.bytesPerConnPerSec (frame.nowMs / 1000) ↔
        ¬config.bytesPerConnPerSec < bytesIn (earlier ++ [frame]) (frame.nowMs / 1000) := by
    have hbalance := (h.bytes hb).balance.resolve_left id
    rw [bytesIn_append, if_pos rfl]
    omega
  have htotal : min (limiter.relayedTotal + frame.bytes) u64Max ≤ config.maxRelayedBytesPerConn ↔
      ¬config.maxRelayedBytesPerConn < bytesOf (earlier ++ [frame]) := by
    rw [bytesOf_append, h.total]
    generalize u64Max = top at hmax
    omega
  constructor
  · rintro haffords (⟨hm, hover⟩ | ⟨hb, hover⟩ | ⟨ht, hover⟩)
    · exact (hmsgs hm).mp (haffords.msgs hm) hover
    · exact (hbytes hb).mp (haffords.bytes hb) hover
    · exact htotal.mp (haffords.total ht) hover
  · intro hwithin
    exact ⟨fun hm => (hmsgs hm).mpr fun hover => hwithin (.inl ⟨hm, hover⟩),
      fun hb => (hbytes hb).mpr fun hover => hwithin (.inr (.inl ⟨hb, hover⟩)),
      fun ht => htotal.mpr fun hover => hwithin (.inr (.inr ⟨ht, hover⟩))⟩

/-- Charging a frame that is afforded keeps the accounts. -/
theorem Accounts.charged (h : Accounts config earlier (frame.nowMs / 1000) limiter)
    (haffords : Affords config limiter frame) :
    Accounts config (earlier ++ [frame]) (frame.nowMs / 1000) (limiter.charged config frame) := by
  refine ⟨fun hm => ?_, fun hb => ?_, ?_⟩
  · refine (h.msgs hm).take (haffords.msgs hm) id (framesIn_append _ _) fun window => ?_
    rw [PerConnLimiter.charged, if_pos hm]
    exact offer_trySpend _ _ _ _
  · refine (h.bytes hb).take (haffords.bytes hb) id (bytesIn_append _ _) fun window => ?_
    rw [PerConnLimiter.charged, if_pos hb]
    exact (byteBucket_trySpend_spec _ _ _ _).2 (haffords.bytes hb) window
  · dsimp only [PerConnLimiter.charged]
    rw [bytesOf_append, h.total]
    generalize u64Max = top
    omega

/-- The answers to frames charged one after the other. -/
def PerConnLimiter.answers (config : RelayServerConfig) (limiter : PerConnLimiter)
    (frames : List SizedFrame) : List Admit :=
  (serveAll (PerConnLimiter.charge config) limiter frames).1.map Prod.snd

/-- The n-th answer is the first that disconnects. -/
def FirstDisconnect (answers : List Admit) (n : ℕ) : Prop :=
  answers[n]? = some .disconnect ∧ ∀ m < n, answers[m]? = some .ok

/-- After some earlier frames, the n-th frame is the first that exceeds a limit. -/
def FirstExceeds (config : RelayServerConfig) (earlier frames : List SizedFrame) (n : ℕ) : Prop :=
  (∃ frame, frames[n]? = some frame ∧ Exceeds config (earlier ++ frames.take n) frame) ∧
    ∀ m < n, ∀ frame, frames[m]? = some frame → ¬Exceeds config (earlier ++ frames.take m) frame

/-- The first frame over a limit is the head, or the head is within the limits and it comes later. -/
theorem firstExceeds_cons (n : ℕ) :
    FirstExceeds config earlier (frame :: frames) n ↔
      n = 0 ∧ Exceeds config earlier frame ∨
        ∃ m, n = m + 1 ∧ ¬Exceeds config earlier frame ∧
          FirstExceeds config (earlier ++ [frame]) frames m := by
  cases n with
  | zero => simp [FirstExceeds]
  | succ m =>
    simp only [FirstExceeds, Nat.forall_lt_succ_left]
    simp [and_left_comm]

/-- The first answer that disconnects is the head, or the head admits and it comes later. -/
theorem firstDisconnect_cons (answer : Admit) (answers : List Admit) (n : ℕ) :
    FirstDisconnect (answer :: answers) n ↔
      n = 0 ∧ answer = .disconnect ∨ ∃ m, n = m + 1 ∧ answer = .ok ∧ FirstDisconnect answers m := by
  cases n with
  | zero => simp [FirstDisconnect]
  | succ m =>
    simp only [FirstDisconnect, Nat.forall_lt_succ_left]
    simp [and_left_comm]

/-- From accounts that agree with the earlier frames on, the answers disconnect for the first time
at the first frame that exceeds a limit. -/
theorem Accounts.firstDisconnect_iff (h : Accounts config earlier now limiter)
    (hmax : config.maxRelayedBytesPerConn < u64Max)
    (hordered : frames.Pairwise fun before after => before.nowMs ≤ after.nowMs)
    (hlater : ∀ frame ∈ frames, now ≤ frame.nowMs / 1000) (n : ℕ) :
    FirstDisconnect (limiter.answers config frames) n ↔ FirstExceeds config earlier frames n := by
  induction frames generalizing earlier now limiter n with
  | nil => simp [PerConnLimiter.answers, serveAll, FirstDisconnect, FirstExceeds]
  | cons frame frames ih =>
    obtain ⟨hfirst, hrest⟩ := List.pairwise_cons.mp hordered
    have hnow : Accounts config earlier (frame.nowMs / 1000) limiter :=
      h.advance (hlater frame List.mem_cons_self)
    obtain ⟨hanswer, hstate⟩ := charge_spec config limiter frame
    have hanswers : limiter.answers config (frame :: frames) =
        (limiter.charge config frame).1 :: (limiter.charge config frame).2.answers config frames := rfl
    rw [hanswers, firstDisconnect_cons, firstExceeds_cons]
    rw [hnow.affords_iff hmax] at hanswer
    cases hcharge : (limiter.charge config frame).1 with
    | disconnect =>
      have hover : Exceeds config earlier frame := not_not.mp fun hwithin => by
        rw [hanswer.mpr hwithin] at hcharge
        cases hcharge
      simp [hover]
    | ok =>
      have hwithin : ¬Exceeds config earlier frame := hanswer.mp hcharge
      have hafter := hnow.charged ((hnow.affords_iff hmax).mpr hwithin)
      have hsame := ih hafter hrest fun later hmem =>
        Nat.div_le_div_right (hfirst later hmem)
      rw [hstate hcharge]
      simp [hwithin, hsame]

/-- On every connection the limiter disconnects for the first time exactly at the first frame with
which the frames of its second, the bytes of its second or the bytes of the connection exceed an
enabled limit, and it admits all frames before. -/
theorem first_disconnect_iff_first_exceeds (config : RelayServerConfig)
    (hmax : config.maxRelayedBytesPerConn < u64Max) (startMs : ℕ) (frames : List SizedFrame)
    (hordered : frames.Pairwise fun before after => before.nowMs ≤ after.nowMs) (n : ℕ) :
    FirstDisconnect ((PerConnLimiter.new config startMs).answers config frames) n ↔
      FirstExceeds config [] frames n :=
  (accounts_new config startMs 0).firstDisconnect_iff hmax hordered (fun _ _ => Nat.zero_le _) n

/-- Under a byte rate of six, a frame of three bytes is admitted and one of four bytes that follows in
the same second disconnects. -/
theorem first_disconnect_iff_first_exceeds_twice :
    let config : RelayServerConfig := { bytesPerConnPerSec := 6 }
    FirstDisconnect ((PerConnLimiter.new config 0).answers config [⟨3, 0⟩, ⟨4, 999⟩]) 1 ∧
      FirstExceeds config [] [⟨3, 0⟩, ⟨4, 999⟩] 1 := by
  intro config
  have hsame := first_disconnect_iff_first_exceeds config (by decide) 0 [⟨3, 0⟩, ⟨4, 999⟩] (by decide) 1
  have hdisconnect :
      FirstDisconnect ((PerConnLimiter.new config 0).answers config [⟨3, 0⟩, ⟨4, 999⟩]) 1 :=
    ⟨by decide, by decide⟩
  exact ⟨hdisconnect, hsame.mp hdisconnect⟩

end DigRelay
