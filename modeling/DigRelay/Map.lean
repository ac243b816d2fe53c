import DigRelay.Common.Tally
import DigRelay.Wire
import Mathlib.Data.Prod.Lex

/-!
# The peer map

Registered peers are counted per coarse grid cell. Where an address lies and which cell a place
falls into are left open: the first comes from a database, and the second is arithmetic on
floating-point degrees of which only the resulting pair of integers is used.
-/

namespace DigRelay

open Common

/-- Places, the database that locates addresses, and the cell of a place, as latitude and
longitude in the fixed-point form the cells are sorted by. -/
structure Geo where
  Place : Type
  locate : IpAddr → Option Place
  cell : Place → ℤ × ℤ

/-- The version stamped on every map. -/
def mapSchemaVersion : ℕ := 1

/-- The size of a grid cell in degrees. -/
def mapCellDeg : ℕ := 5

/-- One grid cell and the peers in it. -/
structure MapCell where
  lat : ℤ
  lon : ℤ
  count : ℕ
  deriving DecidableEq

/-- The published map. -/
structure MapSnapshot where
  schemaVersion : ℕ
  generatedAt : ℕ
  cellDeg : ℕ
  totalPeers : ℕ
  locatedPeers : ℕ
  unknownPeers : ℕ
  cells : List MapCell
  deriving DecidableEq

variable (geo : Geo)

/-- The place of the first address that can be located. -/
def firstLocated (addresses : List SocketAddr) : Option geo.Place :=
  addresses.findSome? fun addr => geo.locate addr.ip

/-- Count the located peers per cell and the others together. -/
def buildMapSnapshot (peers : List RelayPeerInfo) (generatedAt : ℕ) : MapSnapshot :=
  let places := peers.filterMap fun peer => firstLocated geo peer.addresses
  let cells := tally (places.map fun place => toLex (geo.cell place))
  { schemaVersion := mapSchemaVersion
    generatedAt
    cellDeg := mapCellDeg
    totalPeers := peers.length
    locatedPeers := (cells.map Prod.snd).sum
    unknownPeers := peers.countP fun peer => (firstLocated geo peer.addresses).isNone
    cells := cells.map fun entry => ⟨(ofLex entry.1).1, (ofLex entry.1).2, entry.2⟩ }

end DigRelay
