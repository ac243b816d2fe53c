import Mathlib.Data.Multiset.AddSub
import Mathlib.Data.Multiset.MapFold
import Mathlib.Data.Multiset.UnionInter

/-!
# A table and its copy, updated in two steps

A table says where a key is placed and who owns it. A copy elsewhere keeps, for each place, the
keys known there and, for each key, the owner to reach it by. A change of the table is made first
and leaves behind an update of the copy that some task will make later. Other tasks may act in
between. The two agree on every key without a pending update as long as a key has at most one
pending update at a time and every update speaks of the place the key is really at.
-/

namespace Common

/-- An update of the copy that is still to come. -/
inductive Pending (K N T : Type*)
  | enter (key : K) (place : N) (owner : T)
  | leave (key : K) (place : N)

/-- The key an update is about. -/
def Pending.key {K N T : Type*} : Pending K N T → K
  | .enter key _ _ => key
  | .leave key _ => key

/-- The departures of several keys, each from its place. -/
def leaves {K N T : Type*} (gone : List (K × N)) : Multiset (Pending K N T) :=
  (gone.map fun row => Pending.leave row.1 row.2 : List (Pending K N T))

/-- The table, the two sides of its copy, and the pending updates. -/
@[ext]
structure Mirror (K N T : Type*) where
  table : K → Option (N × T)
  known : N → K → Prop
  sender : K → Option T
  pending : Multiset (Pending K N T)

namespace Mirror

variable {K N T : Type*} {m m' : Mirror K N T} {key : K}

/-- No update of the key is pending. -/
def Free (m : Mirror K N T) (key : K) : Prop := ∀ update ∈ m.pending, update.key ≠ key

/-- At most one update of each key is pending, the copy agrees with the table on every key without
one, and a key with one is known nowhere but at the place the update is about. -/
structure Coherent (m : Mirror K N T) : Prop where
  unique : (m.pending.map Pending.key).Nodup
  known : ∀ key, m.Free key → ∀ place, m.known place key ↔ ∃ owner, m.table key = some (place, owner)
  sender : ∀ key, m.Free key → m.sender key = (m.table key).map Prod.snd
  entering : ∀ key place owner, .enter key place owner ∈ m.pending →
    m.table key = some (place, owner) ∧ ∀ other, m.known other key → other = place
  leaving : ∀ key place, .leave key place ∈ m.pending →
    m.table key = none ∧ ∀ other, m.known other key → other = place

variable [DecidableEq K]

/-- The moves that keep table and copy together: changes of the table at keys without pending
update, the pending updates themselves, and an update of a key that is already as it should be. -/
inductive Move (m m' : Mirror K N T) : Prop
  | enter (key : K) (place : N) (owner : T) (hfree : m.Free key)
      (hplace : ∀ old, m.table key = some old → old.1 = place)
      (htable : ∀ k, m'.table k = if k = key then some (place, owner) else m.table k)
      (hknown : m'.known = m.known) (hsender : m'.sender = m.sender)
      (hpending : m'.pending = .enter key place owner ::ₘ m.pending)
  | leave (gone : List (K × N)) (hnodup : (gone.map Prod.fst).Nodup)
      (hfree : ∀ row ∈ gone, m.Free row.1)
      (hrow : ∀ row ∈ gone, ∃ owner, m.table row.1 = some (row.2, owner))
      (htable : ∀ k, m'.table k = if k ∈ gone.map Prod.fst then none else m.table k)
      (hknown : m'.known = m.known) (hsender : m'.sender = m.sender)
      (hpending : m'.pending = leaves gone + m.pending)
  | entered {key : K} {place : N} {owner : T} (htable : m'.table = m.table)
      (hknown : ∀ p k, m'.known p k ↔ p = place ∧ k = key ∨ m.known p k)
      (hsender : ∀ k, m'.sender k = if k = key then some owner else m.sender k)
      (hpending : m.pending = .enter key place owner ::ₘ m'.pending)
  | left {key : K} {place : N} (htable : m'.table = m.table)
      (hknown : ∀ p k, m'.known p k ↔ m.known p k ∧ ¬ (p = place ∧ k = key))
      (hsender : ∀ k, m'.sender k = if k = key then none else m.sender k)
      (hpending : m.pending = .leave key place ::ₘ m'.pending)
  | refreshed {key : K} {place : N} {owner : T} (hfree : m.Free key)
      (hrow : m.table key = some (place, owner)) (htable : m'.table = m.table)
      (hknown : ∀ p k, m'.known p k ↔ p = place ∧ k = key ∨ m.known p k)
      (hsender : ∀ k, m'.sender k = if k = key then some owner else m.sender k)
      (hpending : m'.pending = m.pending)

omit [DecidableEq K] in
/-- When one update is made, its key has none left and every other key what it had. -/
theorem Coherent.free_rest (h : m.Coherent) {update : Pending K N T}
    {rest : Multiset (Pending K N T)} (hpending : m.pending = update ::ₘ rest) :
    (∀ other ∈ rest, other.key ≠ update.key) ∧
      ∀ key, key ≠ update.key → (∀ other ∈ rest, other.key ≠ key) → m.Free key := by
  constructor
  · intro other hother hkey
    have hunique := h.unique
    rw [hpending, Multiset.map_cons, Multiset.nodup_cons] at hunique
    exact hunique.1 (hkey ▸ Multiset.mem_map_of_mem _ hother)
  · intro key hne hrest other hother
    rw [hpending, Multiset.mem_cons] at hother
    rcases hother with rfl | hother
    · exact hne.symm
    · exact hrest other hother

/-- Entering a free key keeps the two together. -/
theorem Coherent.enter (h : m.Coherent) {place : N} {owner : T} (hfree : m.Free key)
    (hplace : ∀ old, m.table key = some old → old.1 = place)
    (htable : ∀ k, m'.table k = if k = key then some (place, owner) else m.table k)
    (hknown : m'.known = m.known) (hsender : m'.sender = m.sender)
    (hpending : m'.pending = .enter key place owner ::ₘ m.pending) : m'.Coherent := by
  have hothers {other : K} (hother : m'.Free other) : other ≠ key ∧ m.Free other := by
    constructor
    · exact (hother (.enter key place owner) (by rw [hpending]; exact Multiset.mem_cons_self _ _)).symm
    · intro update hupdate
      exact hother update (by rw [hpending]; exact Multiset.mem_cons_of_mem hupdate)
  refine ⟨?_, fun other hother p => ?_, fun other hother => ?_, fun other p o hmem => ?_,
    fun other p hmem => ?_⟩
  · rw [hpending, Multiset.map_cons, Multiset.nodup_cons]
    refine ⟨fun hmem => ?_, h.unique⟩
    obtain ⟨update, hupdate, hkey⟩ := Multiset.mem_map.mp hmem
    exact hfree update hupdate hkey
  · rw [htable, if_neg (hothers hother).1, hknown]
    exact h.known other (hothers hother).2 p
  · rw [htable, if_neg (hothers hother).1, hsender]
    exact h.sender other (hothers hother).2
  · rw [hknown]
    rcases Multiset.mem_cons.mp (hpending ▸ hmem) with heq | hold
    · obtain ⟨rfl, rfl, rfl⟩ := Pending.enter.injEq .. ▸ heq
      refine ⟨by rw [htable, if_pos rfl], fun q hbefore => ?_⟩
      obtain ⟨old, hold⟩ := (h.known other hfree q).mp hbefore
      exact hplace _ hold
    · have hne : other ≠ key := hfree _ hold
      rw [htable, if_neg hne]
      exact h.entering other p o hold
  · rw [hknown]
    rcases Multiset.mem_cons.mp (hpending ▸ hmem) with heq | hold
    · cases heq
    · have hne : other ≠ key := hfree _ hold
      rw [htable, if_neg hne]
      exact h.leaving other p hold

/-- Removing free keys from the table keeps the two together. -/
theorem Coherent.leave (h : m.Coherent) {gone : List (K × N)} (hnodup : (gone.map Prod.fst).Nodup)
    (hfree : ∀ row ∈ gone, m.Free row.1)
    (hrow : ∀ row ∈ gone, ∃ owner, m.table row.1 = some (row.2, owner))
    (htable : ∀ k, m'.table k = if k ∈ gone.map Prod.fst then none else m.table k)
    (hknown : m'.known = m.known) (hsender : m'.sender = m.sender)
    (hpending : m'.pending = leaves gone + m.pending) : m'.Coherent := by
  have hbusy : ∀ update ∈ m.pending, update.key ∉ gone.map Prod.fst := by
    intro update hupdate hmem
    obtain ⟨row, hgone, hkey⟩ := List.mem_map.mp hmem
    exact hfree row hgone update hupdate hkey.symm
  have hstays {other : K} (hother : m'.Free other) : other ∉ gone.map Prod.fst ∧ m.Free other := by
    unfold Free at hother
    rw [hpending] at hother
    refine ⟨fun hmem => ?_, fun update hupdate =>
      hother update (Multiset.mem_add.mpr (.inr hupdate))⟩
    obtain ⟨row, hgone, hkey⟩ := List.mem_map.mp hmem
    exact hother (.leave row.1 row.2)
      (Multiset.mem_add.mpr (.inl (Multiset.mem_coe.mpr (List.mem_map_of_mem hgone)))) hkey
  refine ⟨?_, fun other hother p => ?_, fun other hother => ?_, fun other p o hmem => ?_,
    fun other p hmem => ?_⟩
  · rw [hpending, Multiset.map_add, Multiset.nodup_add, leaves, Multiset.map_coe, List.map_map]
    refine ⟨Multiset.coe_nodup.mpr hnodup, h.unique, Multiset.disjoint_left.mpr ?_⟩
    intro key hgone hpending
    obtain ⟨update, hupdate, rfl⟩ := Multiset.mem_map.mp hpending
    exact hbusy update hupdate (Multiset.mem_coe.mp hgone)
  · rw [htable, if_neg (hstays hother).1, hknown]
    exact h.known other (hstays hother).2 p
  · rw [htable, if_neg (hstays hother).1, hsender]
    exact h.sender other (hstays hother).2
  · rw [hknown]
    rcases Multiset.mem_add.mp (hpending ▸ hmem) with hnew | hold
    · obtain ⟨row, -, heq⟩ := List.mem_map.mp (Multiset.mem_coe.mp hnew)
      cases heq
    · have hkept : other ∉ gone.map Prod.fst := hbusy _ hold
      rw [htable, if_neg hkept]
      exact h.entering other p o hold
  · rw [hknown]
    rcases Multiset.mem_add.mp (hpending ▸ hmem) with hnew | hold
    · obtain ⟨row, hgone, heq⟩ := List.mem_map.mp (Multiset.mem_coe.mp hnew)
      obtain ⟨rfl, rfl⟩ := Pending.leave.injEq .. ▸ heq
      refine ⟨by rw [htable, if_pos (List.mem_map_of_mem hgone)], fun q hbefore => ?_⟩
      obtain ⟨owner, howner⟩ := hrow row hgone
      obtain ⟨old, hold⟩ := (h.known row.1 (hfree row hgone) q).mp hbefore
      exact (Prod.mk.injEq .. ▸ Option.some.inj (hold.symm.trans howner)).1
    · have hkept : other ∉ gone.map Prod.fst := hbusy _ hold
      rw [htable, if_neg hkept]
      exact h.leaving other p hold

omit [DecidableEq K] in
/-- Making a pending update that brings its key in line and touches no other keeps the two
together. -/
theorem Coherent.update (h : m.Coherent) {update : Pending K N T}
    (hpending : m.pending = update ::ₘ m'.pending) (htable : m'.table = m.table)
    (hknown : ∀ p k, k ≠ update.key → (m'.known p k ↔ m.known p k))
    (hsender : ∀ k, k ≠ update.key → m'.sender k = m.sender k)
    (hself : ∀ p, m'.known p update.key ↔ ∃ owner, m.table update.key = some (p, owner))
    (hsenderSelf : m'.sender update.key = (m.table update.key).map Prod.snd) : m'.Coherent := by
  obtain ⟨hdone, hothers⟩ := h.free_rest hpending
  have hlater {other : Pending K N T} (hmem : other ∈ m'.pending) : other ∈ m.pending :=
    hpending ▸ Multiset.mem_cons_of_mem hmem
  refine ⟨?_, fun key hfree p => ?_, fun key hfree => ?_, fun key p o hmem => ?_,
    fun key p hmem => ?_⟩
  · have hunique := h.unique
    rw [hpending, Multiset.map_cons, Multiset.nodup_cons] at hunique
    exact hunique.2
  · rw [htable]
    by_cases hkey : key = update.key
    · rw [hkey]
      exact hself p
    · exact (hknown p key hkey).trans (h.known key (hothers key hkey hfree) p)
  · rw [htable]
    by_cases hkey : key = update.key
    · rw [hkey]
      exact hsenderSelf
    · exact (hsender key hkey).trans (h.sender key (hothers key hkey hfree))
  · have hne : key ≠ update.key := hdone _ hmem
    simp only [htable, hknown _ _ hne]
    exact h.entering key p o (hlater hmem)
  · have hne : key ≠ update.key := hdone _ hmem
    simp only [htable, hknown _ _ hne]
    exact h.leaving key p (hlater hmem)

/-- Every move keeps the two together. -/
theorem Move.coherent (h : m.Coherent) (hmove : Move m m') : m'.Coherent := by
  cases hmove with
  | enter key place owner hfree hplace htable hknown hsender hpending =>
    exact h.enter hfree hplace htable hknown hsender hpending
  | leave gone hnodup hfree hrow htable hknown hsender hpending =>
    exact h.leave hnodup hfree hrow htable hknown hsender hpending
  | @entered key place owner htable hknown hsender hpending =>
    obtain ⟨hrow, honly⟩ := h.entering key place owner (hpending ▸ Multiset.mem_cons_self _ _)
    refine h.update hpending htable (fun p k hne => ?_) (fun k hne => ?_) (fun p => ?_) ?_
    · exact (hknown p k).trans (or_iff_right fun hsame => hne hsame.2)
    · exact (hsender k).trans (if_neg hne)
    · simp only [Pending.key, hknown, hrow, Option.some.injEq, Prod.mk.injEq, and_true]
      constructor
      · rintro (rfl | hbefore)
        · exact ⟨owner, rfl, rfl⟩
        · exact ⟨owner, (honly p hbefore).symm, rfl⟩
      · rintro ⟨_, rfl, -⟩
        exact .inl rfl
    · simp [Pending.key, hsender, hrow]
  | @left key place htable hknown hsender hpending =>
    obtain ⟨hrow, honly⟩ := h.leaving key place (hpending ▸ Multiset.mem_cons_self _ _)
    refine h.update hpending htable (fun p k hne => ?_) (fun k hne => ?_) (fun p => ?_) ?_
    · exact (hknown p k).trans (and_iff_left fun hsame => hne hsame.2)
    · exact (hsender k).trans (if_neg hne)
    · simp only [Pending.key, hknown, hrow, reduceCtorEq, exists_false, and_true, iff_false]
      rintro ⟨hbefore, hne⟩
      exact hne (honly p hbefore)
    · simp [Pending.key, hsender, hrow]
  | @refreshed key place owner hfree hrow htable hknown hsender hpending =>
    -- The key is known at its place and reached by its owner already, so nothing changes.
    have hsame : m' = m := by
      refine Mirror.ext htable (funext fun p => funext fun k => propext ?_) (funext fun k => ?_)
        hpending
      · refine (hknown p k).trans (or_iff_right_of_imp ?_)
        rintro ⟨rfl, rfl⟩
        exact (h.known _ hfree _).mpr ⟨owner, hrow⟩
      · rw [hsender]
        split
        · rename_i hk
          rw [hk, h.sender key hfree, hrow]
          rfl
        · rfl
    rw [hsame]
    exact h

end Mirror

end Common
