import DigRelay.Wire
import Mathlib.Data.List.Sort

/-!
# The aggregated DHT view

Answers of registered peers are folded into one entry per content key, ranked by how many
records reported the key, then by the largest provider count, then by the key itself.
-/

namespace DigRelay

/-- The version stamped on every published view. -/
def dhtSchemaVersion : ℕ := 1

/-- The bound on published keys. -/
def maxPublishedKeys : ℕ := 2000

/-- One published content key. -/
structure DhtViewEntry where
  contentKey : String
  providers : ℕ
  reportedBy : ℕ
  deriving DecidableEq

/-- The published view. -/
structure DhtView where
  schemaVersion : ℕ
  generatedAt : ℕ
  reportingPeers : ℕ
  totalKeys : ℕ
  truncated : Bool
  keys : List DhtViewEntry
  deriving DecidableEq

/-- One stored answer of the current window. -/
structure PeerAnswer where
  records : List DhtRecordEntry
  truncated : Bool
  deriving DecidableEq

/-- Fold one record into the union, which is kept sorted by key. -/
def foldRecord (record : DhtRecordEntry) : List DhtViewEntry → List DhtViewEntry
  | [] => [{ contentKey := record.contentKey, providers := record.providers, reportedBy := 1 }]
  | slot :: rest =>
    if record.contentKey = slot.contentKey then
      { slot with
        providers := max slot.providers record.providers
        reportedBy := slot.reportedBy + 1 } :: rest
    else if record.contentKey < slot.contentKey then
      { contentKey := record.contentKey, providers := record.providers, reportedBy := 1 } ::
        slot :: rest
    else slot :: foldRecord record rest

/-- The union over all records of all answers. -/
def dhtUnion (answers : List PeerAnswer) : List DhtViewEntry :=
  (answers.flatMap PeerAnswer.records).foldl (fun union record => foldRecord record union) []

/-- The order of published keys. -/
def DhtViewEntry.precedes (a b : DhtViewEntry) : Prop :=
  b.reportedBy < a.reportedBy ∨
    b.reportedBy = a.reportedBy ∧
      (b.providers < a.providers ∨ b.providers = a.providers ∧ a.contentKey ≤ b.contentKey)

instance : DecidableRel DhtViewEntry.precedes := fun _ _ =>
  inferInstanceAs (Decidable (_ ∨ _ ∧ (_ ∨ _ ∧ _)))

/-- Build the published view from the stored answers. -/
def buildDhtView (answers : List PeerAnswer) (generatedAt : ℕ) : DhtView :=
  let union := dhtUnion answers
  { schemaVersion := dhtSchemaVersion
    generatedAt
    reportingPeers := answers.length
    totalKeys := union.length
    truncated := answers.any PeerAnswer.truncated || decide (union.length > maxPublishedKeys)
    keys := (union.insertionSort DhtViewEntry.precedes).take maxPublishedKeys }

end DigRelay
