import Mathlib.Algebra.Order.Group.Nat
import Mathlib.Tactic.Common

/-!
# Budgets that refill at each new window

Time is cut into windows of equal length. A budget offers its capacity in each window and lowers
the offer by what is taken. The rules below relate what a budget offers to what was taken from it,
window by window, for takers that never go back to an earlier window. In a window that is waived
the relation need not hold, which is how a budget whose memory was lost is described.
-/

namespace Common

/-- From the present window on, a budget offers its capacity less what was taken. -/
structure Tracks (capacity now : ℕ) (waived : ℕ → Prop) (taken offer : ℕ → ℕ) : Prop where
  balance : waived now ∨ offer now + taken now = capacity
  refilled : ∀ window, now < window → offer window = capacity
  untaken : ∀ window, now < window → taken window = 0

variable {capacity now later cost : ℕ} {waived waived' : ℕ → Prop} {taken taken' offer offer' : ℕ → ℕ}

/-- A budget nobody has taken from offers its capacity. -/
theorem Tracks.start : Tracks capacity now waived (fun _ => 0) fun _ => capacity :=
  ⟨.inr rfl, fun _ _ => rfl, fun _ _ => rfl⟩

/-- Time passes. -/
theorem Tracks.advance (h : Tracks capacity now waived taken offer) (hlater : now ≤ later) :
    Tracks capacity later waived taken offer := by
  refine ⟨?_, fun window hwindow => h.refilled window (by omega),
    fun window hwindow => h.untaken window (by omega)⟩
  rcases hlater.eq_or_lt with rfl | hlt
  · exact h.balance
  · rw [h.refilled later hlt, h.untaken later hlt]
    exact .inr rfl

/-- What is taken in the present window lowers the offer of this window alone. -/
theorem Tracks.take (h : Tracks capacity now waived taken offer) (hcost : cost ≤ offer now)
    (hwaived : waived now → waived' now)
    (htaken : ∀ window, taken' window = taken window + if window = now then cost else 0)
    (hoffer : ∀ window, offer' window = if window = now then offer now - cost else capacity) :
    Tracks capacity now waived' taken' offer' := by
  refine ⟨?_, fun window hwindow => ?_, fun window hwindow => ?_⟩
  · refine h.balance.imp hwaived fun hbalance => ?_
    rw [htaken, hoffer, if_pos rfl, if_pos rfl]
    omega
  · rw [hoffer, if_neg (by omega)]
  · rw [htaken, if_neg (by omega), h.untaken window hwindow]

/-- Taking no more than is offered never takes more than the capacity, unless the window is
waived. -/
theorem Tracks.take_le (h : Tracks capacity now waived taken offer) (hcost : cost ≤ offer now)
    (hkept : ¬ waived now) (hbounded : ∀ window, taken window ≤ capacity)
    (htaken : ∀ window, taken' window = taken window + if window = now then cost else 0)
    (window : ℕ) : taken' window ≤ capacity := by
  rw [htaken]
  split
  · rename_i hnow
    have hbalance := h.balance.resolve_left hkept
    rw [hnow]
    omega
  · exact hbounded window

/-- More windows are waived. -/
theorem Tracks.waive (h : Tracks capacity now waived taken offer)
    (hwaived : ∀ window, waived window → waived' window) :
    Tracks capacity now waived' taken offer :=
  ⟨h.balance.imp_left (hwaived now), h.refilled, h.untaken⟩

/-- A budget that is filled up again in a window that is waived or from which nothing was taken. -/
theorem Tracks.refill (h : Tracks capacity now waived taken offer)
    (hnow : waived now ∨ taken now = 0) :
    Tracks capacity now waived taken fun _ => capacity := by
  refine ⟨hnow.imp_right fun hnone => ?_, fun _ _ => rfl, h.untaken⟩
  rw [hnone, Nat.add_zero]

end Common
