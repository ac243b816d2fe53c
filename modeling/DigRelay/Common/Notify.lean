import Mathlib.Data.Set.Basic

/-!
# Telling observers what changes in a table

A table says at which place each key is and which observer holds it. When a key comes to a place or
leaves it, everyone at the place is to be told, but the notes are only delivered later, in any order
and mixed with further changes. What an observer was told last about a key may then be outdated, or
never have been true of its own place.

It agrees with the table when nothing is left to deliver, provided that no key changes while notes
about it are on their way, that a key is not moved from one place to another in one go, that each
observer holds one key, and that an observer takes a key only when no notes are on their way to it.
-/

namespace Common

variable {K P O : Type*}

/-- What an observer is to be told: that a key is here, or that it is not. -/
structure Note (K O : Type*) where
  observer : O
  key : K
  here : Bool
  deriving DecidableEq

/-- Where each key is and who holds it, and the notes on their way. -/
structure Board (K P O : Type*) where
  table : K → Option (P × O)
  notes : Set (Note K O)

namespace Board

variable {b b' : Board K P O} {told : Option (Note K O)} {reader key : K} {place : P}
  {last : Option Bool}

/-- The key is at the place. -/
def At (b : Board K P O) (key : K) (place : P) : Prop := ∃ owner, b.table key = some (place, owner)

/-- One change of the table or delivery of a note, with the note that is delivered. -/
inductive Move (b b' : Board K P O) : Option (Note K O) → Prop
  | enter (key : K) (place : P) (owner : O) (hkey : ∀ note ∈ b.notes, note.key ≠ key)
      (howner : ∀ note ∈ b.notes, note.observer ≠ owner)
      (hold : ∀ p o, b.table key = some (p, o) → p = place ∧ ∀ note ∈ b.notes, note.observer ≠ o)
      (hsole : ∀ other p, b.table other = some (p, owner) → other = key)
      (hself : b'.table key = some (place, owner))
      (hothers : ∀ other, other ≠ key → b'.table other = b.table other)
      (hkept : b.notes ⊆ b'.notes)
      (htold : ∀ other o, other ≠ key → b.table other = some (place, o) → ⟨o, key, true⟩ ∈ b'.notes)
      (hnew : ∀ note ∈ b'.notes, note ∈ b.notes ∨ note.key = key ∧ note.here = true ∧
        ∃ other, other ≠ key ∧ b.table other = some (place, note.observer)) : Move b b' none
  | leave (gone : Set K) (hkey : ∀ note ∈ b.notes, note.key ∉ gone)
      (hgone : ∀ key ∈ gone, b'.table key = none)
      (hothers : ∀ key ∉ gone, b'.table key = b.table key) (hkept : b.notes ⊆ b'.notes)
      (htold : ∀ key ∈ gone, ∀ place, b.At key place → ∀ other ∉ gone, ∀ o,
        b.table other = some (place, o) → ⟨o, key, false⟩ ∈ b'.notes)
      (hnew : ∀ note ∈ b'.notes, note ∈ b.notes ∨ note.key ∈ gone ∧ note.here = false) :
      Move b b' none
  | tell (note : Note K O) (hmem : note ∈ b.notes) (htable : b'.table = b.table)
      (hleft : ∀ other ∈ b.notes, other = note ∨ other ∈ b'.notes) (hnew : b'.notes ⊆ b.notes) :
      Move b b' (some note)
  | stay (htable : b'.table = b.table) (hnotes : b'.notes = b.notes) : Move b b' none

/-- Each observer holds one key, and every note on its way is true: a key that is said to be here is
at the place of whatever its observer holds, and a key that is said to have left is nowhere. -/
structure Sound (b : Board K P O) : Prop where
  sole : ∀ key other p q o, b.table key = some (p, o) → b.table other = some (q, o) → key = other
  came : ∀ note ∈ b.notes, note.here = true → ∃ place, b.At note.key place ∧
    ∀ other p, b.table other = some (p, note.observer) → p = place
  left : ∀ note ∈ b.notes, note.here = false → b.table note.key = none

/-- Entering a key keeps the board sound. -/
theorem Sound.enter {owner : O} (h : b.Sound) (hkey : ∀ note ∈ b.notes, note.key ≠ key)
    (howner : ∀ note ∈ b.notes, note.observer ≠ owner)
    (hsole : ∀ other p, b.table other = some (p, owner) → other = key)
    (hself : b'.table key = some (place, owner))
    (hothers : ∀ other, other ≠ key → b'.table other = b.table other)
    (hnew : ∀ note ∈ b'.notes, note ∈ b.notes ∨ note.key = key ∧ note.here = true ∧
      ∃ other, other ≠ key ∧ b.table other = some (place, note.observer)) : b'.Sound where
  sole first second p q o hfirst hsecond := by
    by_cases hf : first = key <;> by_cases hs : second = key
    · rw [hf, hs]
    · rw [hf, hself] at hfirst
      obtain ⟨-, rfl⟩ := Prod.mk.injEq .. ▸ Option.some.inj hfirst
      rw [hothers second hs] at hsecond
      exact absurd (hsole second q hsecond) hs
    · rw [hs, hself] at hsecond
      obtain ⟨-, rfl⟩ := Prod.mk.injEq .. ▸ Option.some.inj hsecond
      rw [hothers first hf] at hfirst
      exact absurd (hsole first p hfirst) hf
    · rw [hothers first hf] at hfirst
      rw [hothers second hs] at hsecond
      exact h.sole first second p q o hfirst hsecond
  came note hnote hhere := by
    rcases hnew note hnote with hold | ⟨rfl, -, other, hother, hplace⟩
    · obtain ⟨at', ⟨o, ho⟩, hall⟩ := h.came note hold hhere
      refine ⟨at', ⟨o, by rw [hothers _ (hkey note hold), ho]⟩, fun k p hk => ?_⟩
      by_cases hself' : k = key
      · rw [hself', hself] at hk
        obtain ⟨-, hsame⟩ := Prod.mk.injEq .. ▸ Option.some.inj hk
        exact absurd hsame.symm (howner note hold)
      · rw [hothers k hself'] at hk
        exact hall k p hk
    · refine ⟨place, ⟨owner, hself⟩, fun k p hk => ?_⟩
      by_cases hself' : k = note.key
      · rw [hself', hself] at hk
        exact (Prod.mk.injEq .. ▸ Option.some.inj hk).1.symm
      · rw [hothers k hself'] at hk
        rw [h.sole k other _ _ _ hk hplace, hplace] at hk
        exact (Prod.mk.injEq .. ▸ Option.some.inj hk).1.symm
  left note hnote hgone := by
    rcases hnew note hnote with hold | ⟨-, hhere, -⟩
    · rw [hothers _ (hkey note hold)]
      exact h.left note hold hgone
    · cases hgone.symm.trans hhere

/-- Keys that leave keep the board sound. -/
theorem Sound.leave {gone : Set K} (h : b.Sound) (hkey : ∀ note ∈ b.notes, note.key ∉ gone)
    (hgone : ∀ key ∈ gone, b'.table key = none) (hothers : ∀ key ∉ gone, b'.table key = b.table key)
    (hnew : ∀ note ∈ b'.notes, note ∈ b.notes ∨ note.key ∈ gone ∧ note.here = false) :
    b'.Sound := by
  have hbefore (key : K) (entry : P × O) (hentry : b'.table key = some entry) :
      b.table key = some entry := by
    by_cases hmem : key ∈ gone
    · cases (hgone key hmem).symm.trans hentry
    · rw [← hothers key hmem, hentry]
  refine ⟨fun first second p q o hfirst hsecond => ?_, fun note hnote hhere => ?_,
    fun note hnote hnone => ?_⟩
  · exact h.sole first second p q o (hbefore _ _ hfirst) (hbefore _ _ hsecond)
  · rcases hnew note hnote with hold | ⟨-, hleft⟩
    · obtain ⟨place, ⟨o, ho⟩, hall⟩ := h.came note hold hhere
      refine ⟨place, ⟨o, by rw [hothers _ (hkey note hold), ho]⟩, fun other p hother => ?_⟩
      exact hall other p (hbefore _ _ hother)
    · cases hleft.symm.trans hhere
  · rcases hnew note hnote with hold | ⟨hmem, -⟩
    · rw [hothers _ (hkey note hold)]
      exact h.left note hold hnone
    · exact hgone _ hmem

/-- Fewer notes keep the board sound. -/
theorem Sound.of_subset (h : b.Sound) (htable : b'.table = b.table) (hnotes : b'.notes ⊆ b.notes) :
    b'.Sound := by
  refine ⟨fun first second => ?_, fun note hnote hhere => ?_, fun note hnote hnone => ?_⟩
  · rw [htable]
    exact h.sole first second
  · simp only [At, htable]
    exact h.came note (hnotes hnote) hhere
  · rw [htable]
    exact h.left note (hnotes hnote) hnone

/-- Every move keeps the board sound. -/
theorem Move.sound (h : Move b b' told) (hsound : b.Sound) : b'.Sound := by
  cases h with
  | enter key place owner hkey howner hold hsole hself hothers hkept htold hnew =>
    exact hsound.enter hkey howner hsole hself hothers hnew
  | leave gone hkey hgone hothers hkept htold hnew => exact hsound.leave hkey hgone hothers hnew
  | tell note hmem htable hleft hnew => exact hsound.of_subset htable hnew
  | stay htable hnotes => exact hsound.of_subset htable hnotes.subset

/-- What was told last about a key to the observer that holds another agrees with the table, or a
note about the key is on its way there. -/
def Informed (b : Board K P O) (reader key : K) (place : P) (last : Option Bool) : Prop :=
  ∀ here, last = some here → (here = true ↔ b.At key place) ∨
    ∃ note ∈ b.notes, note.key = key ∧ ∃ p, b.table reader = some (p, note.observer)

/-- Nobody was told anything at first. -/
theorem informed_none (b : Board K P O) (reader key : K) (place : P) : b.Informed reader key place none :=
  nofun

/-- With no notes on their way, what was told last agrees with the table. -/
theorem Informed.agrees {here : Bool} (h : b.Informed reader key place (some here))
    (hquiet : b.notes = ∅) : here = true ↔ b.At key place := by
  refine (h here rfl).resolve_right ?_
  rintro ⟨note, hnote, -⟩
  rw [hquiet] at hnote
  exact hnote

/-- A note on its way tells whoever receives it whether the key is at their place. -/
theorem Sound.here_iff_at {note : Note K O} (h : b.Sound) (hmem : note ∈ b.notes)
    (hreader : b.table reader = some (place, note.observer)) :
    note.here = true ↔ b.At note.key place := by
  cases hhere : note.here with
  | true =>
    obtain ⟨there, hthere, hall⟩ := h.came note hmem hhere
    obtain rfl := hall reader place hreader
    exact iff_of_true rfl hthere
  | false =>
    refine iff_of_false Bool.false_ne_true fun ⟨_, hat⟩ => ?_
    cases (h.left note hmem hhere).symm.trans hat

variable [DecidableEq K] [DecidableEq O]

/-- What a delivered note tells the observer that holds one key about another. -/
def heard (b : Board K P O) (reader key : K) (told : Option (Note K O)) : Option Bool :=
  told.bind fun note =>
    if note.key = key ∧ (b.table reader).map Prod.snd = some note.observer then some note.here else none

/-- A change of a key is told to whoever holds another key at its place, before and after. -/
theorem Move.informed (h : Move b b' told) (hsound : b.Sound) (hne : reader ≠ key)
    (hbefore : b.At reader place) (hafter : b'.At reader place)
    (hinformed : b.Informed reader key place last) :
    b'.Informed reader key place ((b.heard reader key told).or last) := by
  obtain ⟨o, ho⟩ := hbefore
  cases h with
  | enter entered place' owner hkey howner hold hsole hself hothers hkept htold hnew =>
    intro here hlast
    by_cases hentered : key = entered
    · subst hentered
      have hagrees := (hinformed here hlast).resolve_right fun ⟨note, hnote, heq, _⟩ => hkey note hnote heq
      by_cases hplace : place' = place
      · subst hplace
        exact .inr ⟨_, htold reader o hne ho, rfl, place', by rw [hothers reader hne, ho]⟩
      · refine .inl (hagrees.trans ⟨fun ⟨o', ho'⟩ => ?_, fun ⟨o', ho'⟩ => ?_⟩)
        · exact absurd (hold place o' ho').1.symm hplace
        · rw [hself] at ho'
          exact absurd (Prod.mk.injEq .. ▸ Option.some.inj ho').1 hplace
    · rw [At, hothers key hentered]
      refine (hinformed here hlast).imp_right fun ⟨note, hnote, heq, p, hp⟩ => ?_
      refine ⟨note, hkept hnote, heq, p, ?_⟩
      by_cases hreader : reader = entered
      · exact absurd rfl ((hold p note.observer (hreader ▸ hp)).2 note hnote)
      · rw [hothers reader hreader, hp]
  | leave gone hkey hgone hothers hkept htold hnew =>
    obtain ⟨o', ho'⟩ := hafter
    have hreader : reader ∉ gone := fun hmem => by cases (hgone reader hmem).symm.trans ho'
    intro here hlast
    by_cases hmem : key ∈ gone
    · have hagrees := (hinformed here hlast).resolve_right
        fun ⟨note, hnote, heq, _⟩ => hkey note hnote (heq ▸ hmem)
      by_cases hat : b.At key place
      · exact .inr ⟨_, htold key hmem place hat reader hreader o ho, rfl, place,
          by rw [hothers reader hreader, ho]⟩
      · refine .inl (hagrees.trans ⟨fun hat' => absurd hat' hat, fun ⟨_, hnone⟩ => ?_⟩)
        cases (hgone key hmem).symm.trans hnone
    · rw [At, hothers key hmem, hothers reader hreader]
      exact (hinformed here hlast).imp_right fun ⟨note, hnote, hrest⟩ => ⟨note, hkept hnote, hrest⟩
  | tell note hmem htable hleft hnew =>
    intro here hlast
    rw [At, htable]
    by_cases hhears : note.key = key ∧ (b.table reader).map Prod.snd = some note.observer
    · obtain rfl : note.here = here := by simpa [heard, hhears] using hlast
      obtain ⟨rfl, hobserver⟩ := hhears
      obtain rfl : o = note.observer := by simpa [ho] using hobserver
      exact .inl (hsound.here_iff_at hmem ho)
    · rw [heard, Option.bind_some, if_neg hhears, Option.none_or] at hlast
      refine (hinformed here hlast).imp_right fun ⟨other, hother, heq, p, hp⟩ => ?_
      rcases hleft other hother with rfl | hkept
      · exact absurd ⟨heq, by rw [hp]; rfl⟩ hhears
      · exact ⟨other, hkept, heq, p, hp⟩
  | stay htable hnotes =>
    intro here hlast
    rw [At, htable, hnotes]
    exact hinformed here hlast

end Board

end Common
