import DigRelay.HttpServe
import DigRelay.Map
import DigRelay.Server.State
import Mathlib.Data.String.Basic

/-!
# The dashboard

A request that asks for no upgrade is answered with a page. Most pages need a snapshot of the
registered peers, which is built for every path outside the STUN host; its rows show a short
prefix of each id unless the request asks for whole ids. Cutting a prefix off a text at a byte
offset can fail, and then no response is written: a response is therefore an option here.

The bytes of the embedded pages and images are left out, and so is the rendering of a snapshot
as JSON; a body says what is rendered, and how is a parameter of what is written.
-/

namespace DigRelay

open Common

/-- The version of the statistics. -/
def statsSchemaVersion : ℕ := 1

/-- The version of the STUN facts. -/
def stunInfoSchemaVersion : ℕ := 1

/-- The bytes of an id that a shortened row shows. -/
def peerIdPrefixLen : ℕ := 12

/-- The version of the relay. -/
def relayVersion : String := "0.20.4"

/-- One reading of the relay's counters. -/
structure Counters where
  connectedPeers : UInt64
  openConnections : UInt64
  stunRequests : UInt64
  holePunchRequests : UInt64
  holePunchSuccesses : UInt64
  holePunchFailures : UInt64
  bytesRelayed : UInt64
  deriving DecidableEq

/-- What is shown of one peer. -/
structure PeerRow where
  peerId : String
  networkId : String
  via : String
  addressFamily : String
  protocolVersion : UInt32
  connectedAt : ℕ
  connectedSecs : ℕ
  deriving DecidableEq

/-- How many peers one network has. -/
structure NetworkRow where
  networkId : String
  peers : ℕ
  deriving DecidableEq

/-- The statistics of the relay. -/
structure StatsSnapshot where
  schemaVersion : ℕ
  status : String
  version : String
  uptimeSecs : ℕ
  activeReservations : ℕ
  counters : Counters
  networks : List NetworkRow
  peers : List PeerRow
  deriving DecidableEq

/-- Whether the request target asks for whole ids. -/
def wantsFull (target : String) : Bool :=
  ["full=1", "full=true", "full=yes"].any fun needle => containsText needle.toList target.toList

/-- Shorten an id to a prefix and an ellipsis, unless it is short already. The prefix is cut at
a byte offset. -/
def truncatePeerId (peerId : String) : Option String :=
  if utf8Len peerId.toList ≤ peerIdPrefixLen then some peerId
  else (sliceTo peerIdPrefixLen peerId.toList).map fun cut => String.ofList (cut ++ ['…'])

/-- The family of an address that can be dialled. -/
def addressFamily (addr : Option SocketAddr) : String :=
  match addr.map fun addr => addr.ip.toCanonical with
  | some ip => if ip.isIpv4 then "v4" else "v6"
  | none => "none"

/-- The row of one peer. -/
def peerRow (nowSecs : ℕ) (full : Bool) (info : RelayPeerInfo) : Option PeerRow :=
  let dialable := info.addresses.head?
  (if full then some info.peerId else truncatePeerId info.peerId).map fun peerId =>
    { peerId
      networkId := info.networkId
      via := if dialable.isSome then "direct" else "relay"
      addressFamily := addressFamily dialable
      protocolVersion := info.protocolVersion
      connectedAt := info.connectedAt
      connectedSecs := nowSecs - info.connectedAt }

/-- Build the statistics: the peers per network, sorted by network, and a row per peer, sorted
by the id shown. -/
def buildSnapshot (peers : List RelayPeerInfo) (counters : Counters) (uptimeSecs nowSecs : ℕ)
    (full : Bool) : Option StatsSnapshot :=
  (peers.mapM (peerRow nowSecs full)).map fun rows =>
    { schemaVersion := statsSchemaVersion
      status := "ok"
      version := relayVersion
      uptimeSecs
      activeReservations := peers.length
      counters
      networks := (tally (peers.map RelayPeerInfo.networkId)).map fun entry => ⟨entry.1, entry.2⟩
      peers := rows.insertionSort fun a b => a.peerId ≤ b.peerId }

/-- Read the relay's counters. -/
def countersOf {crates : Crates} (relay : Relay crates) : Counters :=
  { connectedPeers := relay.connected
    openConnections := relay.openConnections
    stunRequests := relay.stunRequests
    holePunchRequests := relay.holePunchRequests
    holePunchSuccesses := relay.holePunchSuccesses
    holePunchFailures := relay.holePunchFailures
    bytesRelayed := relay.bytesRelayed }

/-- An embedded file. -/
inductive Asset
  | dashboardHtml
  | mapHtml
  | dhtHtml
  | mascotPng
  | globeGlJs
  | earthJpg
  deriving DecidableEq

/-- The facts about the STUN responder. -/
structure StunInfo where
  schemaVersion : ℕ
  host : String
  port : UInt16
  transport : String
  families : List String
  scope : String
  deriving DecidableEq

/-- What the STUN responder is for. -/
def stunScope : String :=
  "RFC 5389 STUN Binding responder for the DIG Network — not a general-purpose public STUN " ++
    "service, not a proxy, and not a destination for anything but a Binding request."

/-- What a response renders. -/
inductive Body
  | asset (asset : Asset)
  | stats (snapshot : StatsSnapshot)
  | health (connectedPeers : UInt64) (uptimeSecs : ℕ) (version : String)
  | map (snapshot : MapSnapshot)
  | dht (view : DhtView)
  | stunUsage (host relayDomain : String)
  | stunInfo (info : StunInfo)
  | text (text : String)
  deriving DecidableEq

/-- A response ready to be written. -/
structure DashboardResponse where
  status : ℕ
  reason : String
  contentType : String
  cacheControl : Option String
  body : Body
  deriving DecidableEq

/-- A page that is not to be cached. -/
def okHtml (body : Body) : DashboardResponse := ⟨200, "OK", "text/html; charset=utf-8", none, body⟩

/-- A JSON document. -/
def okJson (body : Body) : DashboardResponse :=
  ⟨200, "OK", "application/json", some "no-store", body⟩

/-- An embedded file that never changes. -/
def okImmutable (contentType : String) (asset : Asset) : DashboardResponse :=
  ⟨200, "OK", contentType, some "public, max-age=31536000, immutable", .asset asset⟩

/-- The answer to an unknown path. -/
def notFound : DashboardResponse :=
  ⟨404, "Not Found", "text/plain; charset=utf-8", none, .text "not found\n"⟩

/-- The response to a path, given the snapshots. -/
def route (path : String) (snapshot : StatsSnapshot) (mapSnapshot : MapSnapshot)
    (dhtView : DhtView) : DashboardResponse :=
  if path = "/" then okHtml (.asset .dashboardHtml)
  else if path = "/stats.json" then okJson (.stats snapshot)
  else if path = "/health" then
    okJson (.health snapshot.counters.connectedPeers snapshot.uptimeSecs relayVersion)
  else if path = "/mascot.png" then okImmutable "image/png" .mascotPng
  else if path = "/map" then okHtml (.asset .mapHtml)
  else if path = "/map.json" then okJson (.map mapSnapshot)
  else if path = "/dht.json" then okJson (.dht dhtView)
  else if path = "/dht" then okHtml (.asset .dhtHtml)
  else if path = "/map/globe.gl.min.js" then
    okImmutable "application/javascript; charset=utf-8" .globeGlJs
  else if path = "/map/earth.jpg" then okImmutable "image/jpeg" .earthJpg
  else notFound

/-- Whether the request names the STUN host. -/
def isStunHost : Option String → Bool
  | none => false
  | some host =>
    "stun.".toList.isPrefixOf ((host.toList.takeWhile (· ≠ ':')).map asciiLower)

/-- The domain of the relay that a STUN host belongs to. -/
def relayDomain (host : String) : String :=
  if "stun.".toList.isPrefixOf host.toList then String.ofList (host.toList.drop 5) else host

/-- The response to a path on the STUN host. -/
def routeStun (path host : String) (stunPort : UInt16) : DashboardResponse :=
  if path = "/" then okHtml (.stunUsage host (relayDomain host))
  else if path = "/stun.json" then
    okJson (.stunInfo
      { schemaVersion := stunInfoSchemaVersion
        host
        port := stunPort
        transport := "udp"
        families := ["A", "AAAA"]
        scope := stunScope })
  else if path = "/mascot.png" then okImmutable "image/png" .mascotPng
  else notFound

/-- What a request reads of the shared state, each part at its own moment: the registry for the
statistics, the counters, the registry for the map, and the DHT view. -/
structure LiveReads where
  registry : Registry
  counters : Counters
  mapRegistry : Registry
  dhtView : DhtView

/-- The statistics at the time of the request. -/
def liveSnapshot (reads : LiveReads) (uptimeSecs nowSecs : ℕ) (full : Bool) :
    Option StatsSnapshot :=
  buildSnapshot (reads.registry.peers none) reads.counters uptimeSecs nowSecs full

/-- The map at the time of the request. -/
def liveMapSnapshot (geo : Geo) (reads : LiveReads) (nowSecs : ℕ) : MapSnapshot :=
  buildMapSnapshot geo (reads.mapRegistry.peers none) nowSecs

/-- The headers a response is written with. -/
def DashboardResponse.headers (response : DashboardResponse) : List (String × String) :=
  ("Content-Type", response.contentType) ::
    (response.cacheControl.map fun cacheControl => ("Cache-Control", cacheControl)).toList

/-- What is written for a response, given how bodies are rendered. -/
def writeDashboardResponse (render : Body → List UInt8) (response : DashboardResponse) : List UInt8 :=
  writeResponse response.status response.reason response.headers (render response.body)

/-- Answer one request. -/
def serveHttp (config : RelayServerConfig) (geo : Geo) (reads : LiveReads)
    (uptimeSecs nowSecs : ℕ) (head : RequestHead) : Option DashboardResponse :=
  match head.host.filter fun host => isStunHost (some host) with
  | some host => some (routeStun head.path host config.stunPort)
  | none =>
    (liveSnapshot reads uptimeSecs nowSecs (wantsFull head.target)).map fun snapshot =>
      let mapSnapshot :=
        if head.path = "/map" ∨ head.path = "/map.json" then liveMapSnapshot geo reads nowSecs
        else buildMapSnapshot geo [] 0
      route head.path snapshot mapSnapshot reads.dhtView

/-- The secure address of what a request asks for. -/
def httpsLocation (head : RequestHead) : String :=
  "https://" ++ head.host.getD "relay.dig.net" ++ head.target

/-- What the plain listener does with a request. -/
inductive RedirectAction
  | serve (response : DashboardResponse)
  | redirect (location : String)
  deriving DecidableEq

/-- Serve the STUN host and send every other request to the secure listener. -/
def decideRedirect (head : RequestHead) (stunPort : UInt16) : RedirectAction :=
  match head.host.filter fun host => isStunHost (some host) with
  | some host => .serve (routeStun head.path host stunPort)
  | none => .redirect (httpsLocation head)

/-- What the plain listener writes to send a request elsewhere. -/
def redirectResponse (location : String) : List UInt8 :=
  writeResponse 301 "Moved Permanently" [("Location", location)] []

end DigRelay
