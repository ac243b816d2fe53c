import DigRelay.Common.Ranking
import DigRelay.DhtView
import Mathlib.Data.Finset.Card
import Mathlib.Data.String.Basic
import Mathlib.Order.Bounds.Basic

/-!
# What the DHT view says about the answers

Folding the records of all answers leaves one entry for each content key, with the largest number of
providers reported for it and the number of its records. The published keys are the best of these
entries, and neither the order of the answers nor the order inside an answer matters. An entry counts
records where its field speaks of reporting nodes: the two agree exactly for the keys that no answer
names twice.
-/

namespace DigRelay

open Common

/-- The records about a key. -/
def reportsOf (records : List DhtRecordEntry) (key : String) : List DhtRecordEntry :=
  records.filter fun record => record.contentKey = key

/-- What records say about a key: the largest number of providers, and how many they are. -/
def summary (records : List DhtRecordEntry) (key : String) : DhtViewEntry :=
  { contentKey := key
    providers := ((reportsOf records key).map DhtRecordEntry.providers).foldl max 0
    reportedBy := (reportsOf records key).length }

/-- Count one more record in an entry. -/
def DhtViewEntry.absorb (slot : DhtViewEntry) (record : DhtRecordEntry) : DhtViewEntry :=
  { slot with
    providers := max slot.providers record.providers
    reportedBy := slot.reportedBy + 1 }

/-- The entry of a key that no record has named yet. -/
def DhtViewEntry.fresh (key : String) : DhtViewEntry := ⟨key, 0, 0⟩

variable {records : List DhtRecordEntry} {record : DhtRecordEntry} {union : List DhtViewEntry}
  {entry : DhtViewEntry}

/-- One more record about a key is counted in its summary. -/
theorem summary_append_self :
    summary (records ++ [record]) record.contentKey =
      (summary records record.contentKey).absorb record := by
  simp [summary, reportsOf, DhtViewEntry.absorb]

/-- One more record leaves the summaries of other keys alone. -/
theorem summary_append_of_ne {key : String} (h : key ≠ record.contentKey) :
    summary (records ++ [record]) key = summary records key := by
  simp [summary, reportsOf, Ne.symm h]

/-- Sorted by key, no key twice. -/
abbrev KeySorted (union : List DhtViewEntry) : Prop :=
  union.Pairwise fun a b => a.contentKey < b.contentKey

/-- The entry a record is counted in. -/
def slotFor (union : List DhtViewEntry) (key : String) : DhtViewEntry :=
  (union.find? fun slot => slot.contentKey = key).getD (.fresh key)

/-- The entry of a key that is first in the list. -/
theorem slotFor_cons_self {slot : DhtViewEntry} : slotFor (slot :: union) slot.contentKey = slot := by
  simp [slotFor]

/-- The entry of a key other than that of the first. -/
theorem slotFor_cons_of_ne {slot : DhtViewEntry} {key : String} (h : key ≠ slot.contentKey) :
    slotFor (slot :: union) key = slotFor union key := by
  simp [slotFor, Ne.symm h]

/-- The entry of a key that is not there. -/
theorem slotFor_of_absent {key : String} (h : ∀ slot ∈ union, slot.contentKey ≠ key) :
    slotFor union key = .fresh key := by
  have hnone : (union.find? fun slot => slot.contentKey = key) = none := by
    simpa [List.find?_eq_none] using h
  rw [slotFor, hnone, Option.getD_none]

/-- The entry of a key has this key. -/
theorem slotFor_contentKey (union : List DhtViewEntry) (key : String) :
    (slotFor union key).contentKey = key := by
  unfold slotFor
  cases hfound : union.find? fun slot => slot.contentKey = key with
  | none => rfl
  | some slot => simpa using List.find?_some hfound

section FoldRecord

variable {slot : DhtViewEntry}

/-- A record about the first key is counted in the first entry. -/
theorem foldRecord_cons_same (h : record.contentKey = slot.contentKey) :
    foldRecord record (slot :: union) = slot.absorb record :: union := by
  rw [foldRecord, if_pos h]
  rfl

/-- A record about an earlier key opens an entry in front. -/
theorem foldRecord_cons_before (h : record.contentKey < slot.contentKey) :
    foldRecord record (slot :: union) =
      (DhtViewEntry.fresh record.contentKey).absorb record :: slot :: union := by
  rw [foldRecord, if_neg h.ne, if_pos h]
  simp [DhtViewEntry.fresh, DhtViewEntry.absorb]

/-- A record about a later key leaves the first entry. -/
theorem foldRecord_cons_after (h : slot.contentKey < record.contentKey) :
    foldRecord record (slot :: union) = slot :: foldRecord record union := by
  rw [foldRecord, if_neg h.ne', if_neg h.not_gt]

end FoldRecord

/-- Folding a record in replaces the entry of its key and leaves the others. -/
theorem mem_foldRecord (h : KeySorted union) :
    entry ∈ foldRecord record union ↔
      entry ∈ union ∧ entry.contentKey ≠ record.contentKey ∨
        entry = (slotFor union record.contentKey).absorb record := by
  induction union with
  | nil => simp [foldRecord, slotFor, DhtViewEntry.fresh, DhtViewEntry.absorb]
  | cons slot rest ih =>
    obtain ⟨hfirst, hrest⟩ := List.pairwise_cons.mp h
    rcases lt_trichotomy record.contentKey slot.contentKey with hbefore | hsame | hafter
    · have habsent : ∀ other ∈ slot :: rest, other.contentKey ≠ record.contentKey := by
        intro other hother
        rcases List.mem_cons.mp hother with rfl | hmem
        · exact hbefore.ne'
        · exact (hbefore.trans (hfirst other hmem)).ne'
      rw [foldRecord_cons_before hbefore, slotFor_of_absent habsent, List.mem_cons, or_comm]
      exact or_congr_left (and_iff_left_of_imp (habsent entry)).symm
    · have hothers : entry ∈ rest → entry.contentKey ≠ slot.contentKey :=
        fun hmem => (hfirst entry hmem).ne'
      rw [foldRecord_cons_same hsame, hsame, slotFor_cons_self, List.mem_cons, List.mem_cons]
      constructor
      · rintro (rfl | hmem)
        · exact .inr rfl
        · exact .inl ⟨.inr hmem, hothers hmem⟩
      · rintro (⟨rfl | hmem, hne⟩ | rfl)
        · exact absurd rfl hne
        · exact .inr hmem
        · exact .inl rfl
    · rw [foldRecord_cons_after hafter, slotFor_cons_of_ne hafter.ne', List.mem_cons, List.mem_cons,
        ih hrest, ← or_assoc]
      apply or_congr_left
      constructor
      · rintro (rfl | ⟨hmem, hne⟩)
        · exact ⟨.inl rfl, hafter.ne⟩
        · exact ⟨.inr hmem, hne⟩
      · rintro ⟨rfl | hmem, hne⟩
        · exact .inl rfl
        · exact .inr ⟨hmem, hne⟩

/-- Folding a record in keeps the entries sorted by key. -/
theorem keySorted_foldRecord (h : KeySorted union) : KeySorted (foldRecord record union) := by
  induction union with
  | nil => exact List.pairwise_singleton _ _
  | cons slot rest ih =>
    obtain ⟨hfirst, hrest⟩ := List.pairwise_cons.mp h
    rcases lt_trichotomy record.contentKey slot.contentKey with hbefore | hsame | hafter
    · rw [foldRecord_cons_before hbefore]
      apply List.pairwise_cons.mpr ⟨fun other hother => ?_, h⟩
      rcases List.mem_cons.mp hother with rfl | hmem
      · exact hbefore
      · exact hbefore.trans (hfirst other hmem)
    · rw [foldRecord_cons_same hsame]
      exact List.pairwise_cons.mpr ⟨hfirst, hrest⟩
    · rw [foldRecord_cons_after hafter]
      apply List.pairwise_cons.mpr ⟨fun other hother => ?_, ih hrest⟩
      rcases (mem_foldRecord hrest).mp hother with ⟨hmem, -⟩ | rfl
      · exact hfirst other hmem
      · exact hafter.trans_eq (slotFor_contentKey rest record.contentKey).symm

/-- The entries are sorted by key and are the summaries of the keys that were named. -/
structure Aggregates (records : List DhtRecordEntry) (union : List DhtViewEntry) : Prop where
  sorted : KeySorted union
  mem_iff : ∀ entry, entry ∈ union ↔
    entry.contentKey ∈ records.map DhtRecordEntry.contentKey ∧
      entry = summary records entry.contentKey

/-- A record is counted in the summary of its key, which is fresh when no record names it. -/
theorem Aggregates.slotFor_eq (h : Aggregates records union) (key : String) :
    slotFor union key = summary records key := by
  by_cases hnamed : key ∈ records.map DhtRecordEntry.contentKey
  · have hmem : summary records key ∈ union := (h.mem_iff _).mpr ⟨hnamed, rfl⟩
    have hsome : (union.find? fun slot => slot.contentKey = key).isSome = true := by
      rw [List.find?_isSome]
      exact ⟨_, hmem, decide_eq_true rfl⟩
    obtain ⟨slot, hslot⟩ := Option.isSome_iff_exists.mp hsome
    have hkey : slot.contentKey = key := by simpa using List.find?_some hslot
    rw [slotFor, hslot, Option.getD_some, ((h.mem_iff slot).mp (List.mem_of_find?_eq_some hslot)).2, hkey]
  · have habsent : ∀ slot ∈ union, slot.contentKey ≠ key := by
      rintro slot hslot rfl
      exact hnamed ((h.mem_iff slot).mp hslot).1
    have hnone : reportsOf records key = [] := by
      rw [reportsOf, List.filter_eq_nil_iff]
      intro record hrecord heq
      exact hnamed (List.mem_map.mpr ⟨record, hrecord, of_decide_eq_true heq⟩)
    rw [slotFor_of_absent habsent, summary, hnone]
    rfl

/-- Folding a record in counts it. -/
theorem Aggregates.foldRecord (h : Aggregates records union) :
    Aggregates (records ++ [record]) (foldRecord record union) := by
  refine ⟨keySorted_foldRecord h.sorted, fun entry => ?_⟩
  rw [mem_foldRecord h.sorted, h.slotFor_eq, ← summary_append_self, List.map_append, List.mem_append,
    List.map_singleton, List.mem_singleton, h.mem_iff]
  by_cases hkey : entry.contentKey = record.contentKey
  · simp only [hkey, ne_eq, not_true_eq_false, and_false, false_or, or_true, true_and]
  · have hother : entry ≠ summary (records ++ [record]) record.contentKey :=
      fun heq => hkey (congrArg DhtViewEntry.contentKey heq)
    simp only [hkey, hother, summary_append_of_ne hkey, ne_eq, not_false_eq_true, and_true, or_false]

/-- The union of the answers has the summary of every key that was named. -/
theorem aggregates_dhtUnion (answers : List PeerAnswer) :
    Aggregates (answers.flatMap PeerAnswer.records) (dhtUnion answers) := by
  unfold dhtUnion
  induction answers.flatMap PeerAnswer.records using List.reverseRecOn with
  | nil => exact ⟨List.Pairwise.nil, by simp⟩
  | append_singleton records record ih =>
    rw [List.foldl_append]
    exact ih.foldRecord

/-- Reported more often, or as often by more providers, or by as many and with the smaller key. -/
def DhtViewEntry.Outranks (a b : DhtViewEntry) : Prop :=
  b.reportedBy < a.reportedBy ∨
    b.reportedBy = a.reportedBy ∧
      (b.providers < a.providers ∨ b.providers = a.providers ∧ a.contentKey < b.contentKey)

/-- The order of published keys is strict and total. -/
instance : IsStrictTotalOrder DhtViewEntry DhtViewEntry.Outranks where
  irrefl a h := by
    rcases h with h | ⟨-, h | ⟨-, h⟩⟩
    · exact lt_irrefl _ h
    · exact lt_irrefl _ h
    · exact lt_irrefl _ h
  trans a b c hab hbc := by
    unfold DhtViewEntry.Outranks at *
    grind
  trichotomous a b hab hba := by
    obtain ⟨aKey, aProviders, aReportedBy⟩ := a
    obtain ⟨bKey, bProviders, bReportedBy⟩ := b
    simp only [DhtViewEntry.Outranks, not_or, not_and, not_lt] at hab hba
    have hreported : aReportedBy = bReportedBy := le_antisymm hab.1 hba.1
    have hproviders : aProviders = bProviders :=
      le_antisymm (hab.2 hreported.symm).1 (hba.2 hreported).1
    have hkey : aKey = bKey := le_antisymm ((hba.2 hreported).2 hproviders)
      ((hab.2 hreported.symm).2 hproviders.symm)
    rw [hreported, hproviders, hkey]

/-- The order the keys are sorted by is the strict order or equality. -/
theorem precedes_iff (a b : DhtViewEntry) : a.precedes b ↔ a.Outranks b ∨ a = b := by
  obtain ⟨aKey, aProviders, aReportedBy⟩ := a
  obtain ⟨bKey, bProviders, bReportedBy⟩ := b
  simp only [DhtViewEntry.precedes, DhtViewEntry.Outranks, DhtViewEntry.mk.injEq, le_iff_lt_or_eq]
  tauto

instance : Std.Total DhtViewEntry.precedes where
  total a b := by
    rw [precedes_iff, precedes_iff]
    rcases trichotomous_of DhtViewEntry.Outranks a b with h | h | h
    · exact .inl (.inl h)
    · exact .inl (.inr h)
    · exact .inr (.inl h)

instance : IsTrans DhtViewEntry DhtViewEntry.precedes where
  trans a b c hab hbc := by
    rw [precedes_iff] at hab hbc ⊢
    rcases hab with hab | rfl
    · rcases hbc with hbc | rfl
      · exact .inl (IsTrans.trans _ _ _ hab hbc)
      · exact .inl hab
    · exact hbc

variable {answers answers' : List PeerAnswer} {generatedAt : ℕ}

/-- The records of all answers. -/
abbrev allRecords (answers : List PeerAnswer) : List DhtRecordEntry := answers.flatMap PeerAnswer.records

/-- The summaries of all keys in the order of publication. -/
def ranked (answers : List PeerAnswer) : List DhtViewEntry :=
  (dhtUnion answers).insertionSort DhtViewEntry.precedes

/-- Sorted by key, no two entries have the same. -/
theorem KeySorted.nodup_keys (h : KeySorted union) : (union.map DhtViewEntry.contentKey).Nodup :=
  List.pairwise_map.mpr (h.imp fun hlt => hlt.ne)

/-- The keys of the summaries are distinct. -/
theorem nodup_keys_ranked (answers : List PeerAnswer) :
    ((ranked answers).map DhtViewEntry.contentKey).Nodup :=
  ((List.perm_insertionSort _ _).map _).nodup_iff.mpr (aggregates_dhtUnion answers).sorted.nodup_keys

/-- The summaries are sorted strictly. -/
theorem ranked_outranks (answers : List PeerAnswer) :
    (ranked answers).Pairwise DhtViewEntry.Outranks :=
  pairwise_lt_insertionSort (fun a b hle hne => ((precedes_iff a b).mp hle).resolve_right hne)
    (aggregates_dhtUnion answers).sorted.nodup_keys.of_map

/-- The summaries are those of the keys that were named. -/
theorem mem_ranked : entry ∈ ranked answers ↔
    entry.contentKey ∈ (allRecords answers).map DhtRecordEntry.contentKey ∧
      entry = summary (allRecords answers) entry.contentKey := by
  rw [ranked, List.mem_insertionSort]
  exact (aggregates_dhtUnion answers).mem_iff entry

/-- There are as many summaries as distinct keys. -/
theorem length_ranked (answers : List PeerAnswer) :
    (ranked answers).length =
      ((allRecords answers).map DhtRecordEntry.contentKey).toFinset.card := by
  rw [← List.length_map DhtViewEntry.contentKey,
    ← List.toFinset_card_of_nodup (nodup_keys_ranked answers)]
  congr 1
  ext key
  rw [List.mem_toFinset, List.mem_toFinset, List.mem_map]
  constructor
  · rintro ⟨entry, hentry, rfl⟩
    exact (mem_ranked.mp hentry).1
  · intro hkey
    exact ⟨summary (allRecords answers) key, mem_ranked.mpr ⟨hkey, rfl⟩, rfl⟩

/-- The published keys are the first of the summaries. -/
theorem keys_buildDhtView :
    (buildDhtView answers generatedAt).keys = (ranked answers).take maxPublishedKeys := rfl

/-- All keys are counted before the list is cut. -/
theorem totalKeys_buildDhtView :
    (buildDhtView answers generatedAt).totalKeys = (ranked answers).length :=
  (List.length_insertionSort _ _).symm

/-- A key that was named has the largest number of providers reported for it. -/
theorem isGreatest_providers {key : String} (h : key ∈ records.map DhtRecordEntry.contentKey) :
    IsGreatest { n | ⟨key, n⟩ ∈ records } (summary records key).providers := by
  have hmem (n : ℕ) : n ∈ (reportsOf records key).map DhtRecordEntry.providers ↔ ⟨key, n⟩ ∈ records := by
    simp only [reportsOf, List.mem_map, List.mem_filter, decide_eq_true_eq]
    constructor
    · rintro ⟨record, ⟨hrecord, rfl⟩, rfl⟩
      exact hrecord
    · intro hrecord
      exact ⟨⟨key, n⟩, ⟨hrecord, rfl⟩, rfl⟩
  obtain ⟨record, hrecord, rfl⟩ := List.mem_map.mp h
  have hsome : (reportsOf records record.contentKey).map DhtRecordEntry.providers ≠ [] :=
    List.ne_nil_of_mem ((hmem record.providers).mpr hrecord)
  simp only [← hmem]
  exact isGreatest_foldl_max hsome

/-- The order of the records does not matter to a summary. -/
theorem summary_perm {records' : List DhtRecordEntry} (h : records.Perm records') (key : String) :
    summary records key = summary records' key := by
  have hreports : (reportsOf records key).Perm (reportsOf records' key) := h.filter _
  rw [summary, summary, (hreports.map _).foldl_eq 0, hreports.length_eq]

/-- The order of the records does not matter to the ranking. -/
theorem ranked_perm (h : (allRecords answers).Perm (allRecords answers')) :
    ranked answers = ranked answers' := by
  apply (ranked_outranks answers).eq_of_mem_iff (ranked_outranks answers')
  intro entry
  rw [mem_ranked, mem_ranked, summary_perm h, (h.map _).mem_iff]

/-- The answers in another order, each with its records in another order. -/
def Reordered (answers answers' : List PeerAnswer) : Prop :=
  ∃ shuffled, List.Forall₂
      (fun a b => a.records.Perm b.records ∧ a.truncated = b.truncated) answers shuffled ∧
    shuffled.Perm answers'

/-- A reordering keeps all records and what was cut. -/
theorem Reordered.kept (h : Reordered answers answers') :
    (allRecords answers).Perm (allRecords answers') ∧
      (answers.map PeerAnswer.truncated).Perm (answers'.map PeerAnswer.truncated) := by
  obtain ⟨shuffled, hrecords, hperm⟩ := h
  have hinside : (allRecords answers).Perm (allRecords shuffled) ∧
      answers.map PeerAnswer.truncated = shuffled.map PeerAnswer.truncated := by
    clear hperm
    induction hrecords with
    | nil => exact ⟨.refl _, rfl⟩
    | cons hfirst _ ih =>
      rw [allRecords, allRecords, List.flatMap_cons, List.flatMap_cons, List.map_cons, List.map_cons,
        hfirst.2, ih.2]
      exact ⟨hfirst.1.append ih.1, rfl⟩
  exact ⟨hinside.1.trans (hperm.flatMap_right _), hinside.2 ▸ hperm.map _⟩

/-- The order of the answers and of their records does not matter to the view. -/
theorem buildDhtView_reordered (h : Reordered answers answers') :
    buildDhtView answers' generatedAt = buildDhtView answers generatedAt := by
  obtain ⟨hrecords, htruncated⟩ := h.kept
  have hranked := ranked_perm hrecords
  have hlength : (dhtUnion answers').length = (dhtUnion answers).length := by
    rw [← List.length_insertionSort DhtViewEntry.precedes, ← List.length_insertionSort
      DhtViewEntry.precedes (dhtUnion answers)]
    exact congrArg List.length hranked.symm
  have hpeers : answers'.length = answers.length := by
    simpa using htruncated.symm.length_eq
  have hany : answers'.any PeerAnswer.truncated = answers.any PeerAnswer.truncated := by
    have hsame := htruncated.symm.any_eq (f := id)
    rwa [List.any_map, List.any_map] at hsame
  unfold buildDhtView
  dsimp only
  rw [hlength, hpeers, hany]
  congr 2
  exact hranked.symm

/-- The view of any answers counts the distinct keys, gives each published key the largest number of
providers reported for it, publishes the best of all keys in a strict total order, each once, says
whether something was left out, and does not depend on the order of the answers and their records. -/
theorem buildDhtView_exact (answers : List PeerAnswer) (generatedAt : ℕ) :
    let records := answers.flatMap PeerAnswer.records
    let view := buildDhtView answers generatedAt
    view.totalKeys = (records.map DhtRecordEntry.contentKey).toFinset.card ∧
      (∀ entry ∈ view.keys, IsGreatest { n | ⟨entry.contentKey, n⟩ ∈ records } entry.providers) ∧
      (view.keys.map DhtViewEntry.contentKey).Nodup ∧
      IsStrictTotalOrder DhtViewEntry DhtViewEntry.Outranks ∧
      (∃ all : List DhtViewEntry, all.Pairwise DhtViewEntry.Outranks ∧
        (∀ entry, entry ∈ all ↔
          ∃ key ∈ records.map DhtRecordEntry.contentKey, entry = summary records key) ∧
        view.keys = all.take (min maxPublishedKeys view.totalKeys)) ∧
      (view.truncated = true ↔
        (∃ answer ∈ answers, answer.truncated = true) ∨ maxPublishedKeys < view.totalKeys) ∧
      ∀ answers', Reordered answers answers' → buildDhtView answers' generatedAt = view := by
  intro records view
  refine ⟨?_, fun entry hentry => ?_, ?_, inferInstance,
    ⟨ranked answers, ranked_outranks answers, fun entry => ?_, ?_⟩, ?_,
    fun answers' => buildDhtView_reordered⟩
  · rw [totalKeys_buildDhtView, length_ranked]
  · obtain ⟨hkey, hsummary⟩ := mem_ranked.mp (List.mem_of_mem_take hentry)
    have hgreatest := isGreatest_providers hkey
    rwa [← hsummary] at hgreatest
  · exact (nodup_keys_ranked answers).sublist ((List.take_sublist _ _).map _)
  · rw [mem_ranked]
    constructor
    · rintro ⟨hkey, hentry⟩
      exact ⟨_, hkey, hentry⟩
    · rintro ⟨key, hkey, rfl⟩
      exact ⟨hkey, rfl⟩
  · rw [totalKeys_buildDhtView, ← List.take_take, List.take_length]
    exact keys_buildDhtView
  · simp [view, buildDhtView, List.any_eq_true]

/-- An answer that names two keys, and the same answer with its records the other way round. -/
theorem buildDhtView_exact_swapped :
    buildDhtView [⟨[⟨"b", 1⟩], true⟩, ⟨[⟨"b", 2⟩, ⟨"a", 2⟩], false⟩] 5 =
      buildDhtView [⟨[⟨"a", 2⟩, ⟨"b", 2⟩], false⟩, ⟨[⟨"b", 1⟩], true⟩] 5 := by
  have hexact := buildDhtView_exact [⟨[⟨"a", 2⟩, ⟨"b", 2⟩], false⟩, ⟨[⟨"b", 1⟩], true⟩] 5
  obtain ⟨-, -, -, -, -, -, hreordered⟩ := hexact
  refine hreordered _ ⟨[⟨[⟨"b", 2⟩, ⟨"a", 2⟩], false⟩, ⟨[⟨"b", 1⟩], true⟩], ?_, .swap _ _ _⟩
  exact .cons ⟨.swap _ _ _, rfl⟩ (.cons ⟨.refl _, rfl⟩ .nil)

/-! ### Records and reporting nodes -/

/-- How many answers name a key. -/
def reporters (answers : List PeerAnswer) (key : String) : ℕ :=
  answers.countP fun answer => key ∈ answer.records.map DhtRecordEntry.contentKey

/-- A key has as many reports as its name occurs. -/
theorem length_reportsOf (records : List DhtRecordEntry) (key : String) :
    (reportsOf records key).length = (records.map DhtRecordEntry.contentKey).count key := by
  rw [reportsOf, ← List.countP_eq_length_filter, List.count, List.countP_map]
  rfl

/-- The names of the keys in an answer, as often as it reports them. -/
def PeerAnswer.keys (answer : PeerAnswer) : List String := answer.records.map DhtRecordEntry.contentKey

/-- The reports of one more answer are added to the others. -/
theorem length_reportsOf_cons (answer : PeerAnswer) (rest : List PeerAnswer) (key : String) :
    (reportsOf (allRecords (answer :: rest)) key).length =
      answer.keys.count key + (reportsOf (allRecords rest) key).length := by
  rw [length_reportsOf, length_reportsOf, allRecords, List.flatMap_cons, List.map_append,
    List.count_append]
  rfl

/-- One more answer counts once if it names the key at all. -/
theorem reporters_cons (answer : PeerAnswer) (rest : List PeerAnswer) (key : String) :
    reporters (answer :: rest) key = reporters rest key + if 0 < answer.keys.count key then 1 else 0 := by
  simp only [reporters, List.countP_cons, decide_eq_true_eq, List.count_pos_iff, PeerAnswer.keys]

/-- A key has at least as many reports as answers name it, and exactly as many when no answer names it
twice. -/
theorem reporters_le_length_reportsOf (answers : List PeerAnswer) (key : String) :
    reporters answers key ≤ (reportsOf (allRecords answers) key).length ∧
      ((reportsOf (allRecords answers) key).length = reporters answers key ↔
        ∀ answer ∈ answers, answer.keys.count key ≤ 1) := by
  induction answers with
  | nil => exact ⟨Nat.le_refl 0, iff_of_true rfl fun _ hnone => nomatch hnone⟩
  | cons answer rest ih =>
    obtain ⟨hle, hiff⟩ := ih
    rw [length_reportsOf_cons, reporters_cons, List.forall_mem_cons, ← hiff]
    split
    · omega
    · omega

/-- The number of reporting nodes that a published key should have, and the order that follows: a key of
one answer alone is published only after every key of two or more. -/
structure CountsReporters (answers : List PeerAnswer) (view : DhtView) : Prop where
  counted : ∀ entry ∈ view.keys,
    entry.reportedBy = reporters answers entry.contentKey ∧ entry.reportedBy ≤ view.reportingPeers
  ordered : ∀ lone shared, reporters answers lone = 1 → 2 ≤ reporters answers shared →
    ∀ (i : ℕ) (entry : DhtViewEntry), view.keys[i]? = some entry → entry.contentKey = lone →
      ∃ j < i, ∃ other : DhtViewEntry, view.keys[j]? = some other ∧ other.contentKey = shared

/-- A key has an entry that counts its reporting nodes exactly when no answer names it twice. -/
theorem reportedBy_eq_iff (h : entry ∈ ranked answers) :
    entry.reportedBy = reporters answers entry.contentKey ↔
      ∀ answer ∈ answers, answer.keys.count entry.contentKey ≤ 1 := by
  rw [← (reporters_le_length_reportsOf answers entry.contentKey).2]
  have hsummary : entry.reportedBy = (reportsOf (allRecords answers) entry.contentKey).length :=
    congrArg DhtViewEntry.reportedBy (mem_ranked.mp h).2
  rw [← hsummary]

/-- Published keys that count their reporting nodes come in the order of these numbers. -/
theorem countsReporters_of_counted (generatedAt : ℕ)
    (h : ∀ entry ∈ (buildDhtView answers generatedAt).keys,
      entry.reportedBy = reporters answers entry.contentKey) :
    CountsReporters answers (buildDhtView answers generatedAt) where
  counted entry hentry := by
    refine ⟨h entry hentry, ?_⟩
    rw [h entry hentry]
    exact List.countP_le_length
  ordered := by
    rintro _ shared hlone hshared i entry hentry rfl
    have hreports := (reporters_le_length_reportsOf answers shared).1
    have hnamed : shared ∈ (allRecords answers).map DhtRecordEntry.contentKey := by
      rw [← List.count_pos_iff, ← length_reportsOf]
      omega
    have houtranks : (summary (allRecords answers) shared).Outranks entry := by
      left
      rw [h entry (List.mem_of_getElem? hentry), hlone]
      exact Nat.lt_of_lt_of_le hshared hreports
    obtain ⟨j, hj, hother⟩ := exists_earlier_of_lt (ranked_outranks answers)
      (mem_ranked.mpr ⟨hnamed, rfl⟩) houtranks hentry
    exact ⟨j, hj, _, hother, rfl⟩

/-- For every list of answers, the view counts the reporting nodes of the published keys, with the order
that follows, exactly when no answer names a published key twice. Before the best keys are cut out, the
entries count the reporting nodes exactly when no answer names any key twice. -/
theorem countsReporters_iff (answers : List PeerAnswer) (generatedAt : ℕ) :
    (CountsReporters answers (buildDhtView answers generatedAt) ↔
      ∀ answer ∈ answers, ∀ entry ∈ (buildDhtView answers generatedAt).keys,
        (answer.records.map DhtRecordEntry.contentKey).count entry.contentKey ≤ 1) ∧
    ((∀ entry ∈ dhtUnion answers, entry.reportedBy = reporters answers entry.contentKey) ↔
      ∀ answer ∈ answers, (answer.records.map DhtRecordEntry.contentKey).Nodup) := by
  constructor
  · constructor
    · intro hcounts answer hanswer entry hentry
      have hranked : entry ∈ ranked answers := List.mem_of_mem_take hentry
      exact (reportedBy_eq_iff hranked).mp (hcounts.counted entry hentry).1 answer hanswer
    · intro honce
      refine countsReporters_of_counted generatedAt fun entry hentry => ?_
      have hranked : entry ∈ ranked answers := List.mem_of_mem_take hentry
      exact (reportedBy_eq_iff hranked).mpr fun answer hanswer => honce answer hanswer entry hentry
  · have hranked {entry : DhtViewEntry} : entry ∈ dhtUnion answers ↔ entry ∈ ranked answers :=
      (List.mem_insertionSort _).symm
    constructor
    · intro hcounted answer hanswer
      refine List.nodup_iff_count_le_one.mpr fun key => ?_
      by_cases hkey : key ∈ answer.keys
      · have hnamed : key ∈ (allRecords answers).map DhtRecordEntry.contentKey := by
          rw [allRecords, List.map_flatMap, List.mem_flatMap]
          exact ⟨answer, hanswer, hkey⟩
        have hmem : summary (allRecords answers) key ∈ ranked answers := mem_ranked.mpr ⟨hnamed, rfl⟩
        exact (reportedBy_eq_iff hmem).mp (hcounted _ (hranked.mpr hmem)) answer hanswer
      · exact (List.count_eq_zero_of_not_mem hkey).trans_le (Nat.zero_le 1)
    · intro hdistinct entry hentry
      exact (reportedBy_eq_iff (hranked.mp hentry)).mpr fun answer hanswer =>
        List.nodup_iff_count_le_one.mp (hdistinct answer hanswer) _

/-- One answer that repeats its only key is counted as four reporting nodes of three, and its key
comes before the key of the two other answers. -/
theorem exists_buildDhtView_not_reporters :
    let answers : List PeerAnswer := [⟨List.replicate 4 ⟨"a", 1⟩, false⟩, ⟨[⟨"b", 1⟩], false⟩,
      ⟨[⟨"b", 1⟩], false⟩]
    let view := buildDhtView answers 0
    reporters answers "a" = 1 ∧ reporters answers "b" = 2 ∧ view.reportingPeers = 3 ∧
      view.keys = [⟨"a", 1, 4⟩, ⟨"b", 1, 2⟩] := by
  decide

end DigRelay
