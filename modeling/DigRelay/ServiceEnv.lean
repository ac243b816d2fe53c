import DigRelay.AddrText
import DigRelay.Config
import DigRelay.ProxyProtocol

/-!
# The configuration of an installed service

An installed service is started with an environment and nothing else, so what the relay was configured
with when it was installed has to be written there and read back. Numbers are written in decimal,
durations as whole seconds, addresses as the standard library writes them. A variable that is not set, or
that cannot be parsed, leaves the default; only a list of trusted proxies that cannot be parsed stops the
service.
-/

namespace DigRelay

open Common

/-- An address to listen at. Only an IPv6 one can carry a scope and a flow label. -/
structure ListenAddr extends SocketAddr where
  flowInfo : UInt32 := 0
  plain : ip.isIpv4 = true → scopeId = 0 ∧ flowInfo = 0
  deriving DecidableEq

/-- Every address of the host, at a port. -/
def ListenAddr.unspecified (port : UInt16) : ListenAddr where
  ip := .v6 0
  port
  plain h := by cases h

/-- The whole configuration of a relay. -/
structure ServiceConfig where
  listen : ListenAddr := .unspecified 9450
  healthListen : ListenAddr := .unspecified 9451
  dashboardListen : ListenAddr := .unspecified 8080
  stunListen : ListenAddr := .unspecified 3478
  maxConnections : UInt64 := 4096
  idleTimeout : Duration := Duration.fromSecs 120
  stunPerIpResponsesPerSec : UInt32 := 5
  stunGlobalResponsesPerSec : UInt32 := 1000
  outboundQueueCapacity : UInt64 := 1024
  maxMessageBytes : UInt64 := 262144
  registerTimeout : Duration := Duration.fromSecs 10
  healthCheckInterval : Duration := Duration.fromSecs 30
  livenessDeadline : Duration := Duration.fromSecs 90
  tlsCertPath : Option String := none
  tlsKeyPath : Option String := none
  maxConnectionsPerIp : UInt32 := 64
  registrationsPerIpPerSec : UInt32 := 10
  maxRegistrationsPerIp : UInt32 := 128
  messagesPerConnPerSec : UInt32 := 256
  bytesPerConnPerSec : UInt32 := 1048576
  maxRelayedBytesPerConn : UInt64 := 1073741824
  banThreshold : UInt32 := 20
  banDuration : Duration := Duration.fromSecs 300
  banStrikeWindow : Duration := Duration.fromSecs 60
  trustedProxies : TrustedProxies := {}

/-- What the server reads of the configuration. -/
def ServiceConfig.server (config : ServiceConfig) : RelayServerConfig where
  stunPort := config.stunListen.port
  maxConnections := config.maxConnections
  idleTimeout := config.idleTimeout
  outboundQueueCapacity := config.outboundQueueCapacity.toNat
  maxMessageBytes := config.maxMessageBytes.toNat
  registerTimeout := config.registerTimeout
  healthCheckInterval := config.healthCheckInterval
  livenessDeadline := config.livenessDeadline
  tlsCertPath := config.tlsCertPath
  tlsKeyPath := config.tlsKeyPath
  maxConnectionsPerIp := config.maxConnectionsPerIp.toNat
  registrationsPerIpPerSec := config.registrationsPerIpPerSec.toNat
  maxRegistrationsPerIp := config.maxRegistrationsPerIp.toNat
  messagesPerConnPerSec := config.messagesPerConnPerSec.toNat
  bytesPerConnPerSec := config.bytesPerConnPerSec.toNat
  maxRelayedBytesPerConn := config.maxRelayedBytesPerConn.toNat
  banThreshold := config.banThreshold.toNat
  banDuration := config.banDuration
  banStrikeWindow := config.banStrikeWindow

/-- The server reads its defaults off the default configuration. -/
theorem server_default : ({} : ServiceConfig).server = {} := rfl

/-- Names with their values. -/
abbrev Environment := List (String × String)

/-- The value of a variable. -/
def Environment.var (env : Environment) (name : String) : Option String := env.lookup name

/-- The paths of the certificate and its key, if both are set. -/
def tlsEnvironmentPairs (config : ServiceConfig) : Environment :=
  match config.tlsCertPath, config.tlsKeyPath with
  | some cert, some key => [("DIG_RELAY_TLS_CERT_PATH", cert), ("DIG_RELAY_TLS_KEY_PATH", key)]
  | _, _ => []

/-- The environment that is written into the definition of the service. -/
def installEnvironment (config : ServiceConfig) : Environment :=
  [("DIG_RELAY_LISTEN", String.ofList (socketAddrText config.listen.toSocketAddr)),
    ("DIG_RELAY_HEALTH_LISTEN", String.ofList (socketAddrText config.healthListen.toSocketAddr)),
    ("DIG_RELAY_DASHBOARD_LISTEN", String.ofList (socketAddrText config.dashboardListen.toSocketAddr)),
    ("DIG_RELAY_STUN_LISTEN", String.ofList (socketAddrText config.stunListen.toSocketAddr)),
    ("DIG_RELAY_MAX_CONNECTIONS", config.maxConnections.toNat.repr),
    ("DIG_RELAY_MAX_CONNECTIONS_PER_IP", config.maxConnectionsPerIp.toNat.repr),
    ("DIG_RELAY_REGISTRATIONS_PER_IP_PER_SEC", config.registrationsPerIpPerSec.toNat.repr),
    ("DIG_RELAY_MAX_REGISTRATIONS_PER_IP", config.maxRegistrationsPerIp.toNat.repr),
    ("DIG_RELAY_MESSAGES_PER_CONN_PER_SEC", config.messagesPerConnPerSec.toNat.repr),
    ("DIG_RELAY_BYTES_PER_CONN_PER_SEC", config.bytesPerConnPerSec.toNat.repr),
    ("DIG_RELAY_MAX_RELAYED_BYTES_PER_CONN", config.maxRelayedBytesPerConn.toNat.repr),
    ("DIG_RELAY_BAN_THRESHOLD", config.banThreshold.toNat.repr),
    ("DIG_RELAY_BAN_DURATION_SECS", config.banDuration.asSecs.repr),
    ("DIG_RELAY_BAN_STRIKE_WINDOW_SECS", config.banStrikeWindow.asSecs.repr)] ++
  tlsEnvironmentPairs config

/-- Parse a number of 32 bits. -/
def parseU32 (text : List Char) : Option UInt32 := (parseUnsigned (2 ^ 32) text).map UInt32.ofNat

/-- Parse a number of 64 bits. -/
def parseU64 (text : List Char) : Option UInt64 := (parseUnsigned (2 ^ 64) text).map UInt64.ofNat

/-- Parse a number of seconds. -/
def parseSecs (text : List Char) : Option Duration := (parseUnsigned (2 ^ 64) text).map Duration.fromSecs

/-- Parse an address to listen at. A text carries no flow label. -/
def parseListenAddr (text : List Char) : Option ListenAddr :=
  (parseSocketAddr text).pmap
    (fun addr h => { addr with plain := fun hv4 => ⟨h hv4, rfl⟩ })
    fun _ h => scopeId_of_parseSocketAddr h

/-- The parsed value of a variable, or the default if it is not set or cannot be parsed. -/
def Environment.get {A : Type*} (env : Environment) (name : String) (parse : List Char → Option A)
    (default : A) : A :=
  ((env.var name).bind fun value => parse value.toList).getD default

/-- The configuration a service reads from its environment. -/
def configFromEnv (env : Environment) : Except String ServiceConfig :=
  let default : ServiceConfig := {}
  let config : ServiceConfig :=
    { listen := env.get "DIG_RELAY_LISTEN" parseListenAddr default.listen
      healthListen := env.get "DIG_RELAY_HEALTH_LISTEN" parseListenAddr default.healthListen
      dashboardListen := env.get "DIG_RELAY_DASHBOARD_LISTEN" parseListenAddr default.dashboardListen
      stunListen := env.get "DIG_RELAY_STUN_LISTEN" parseListenAddr default.stunListen
      maxConnections := env.get "DIG_RELAY_MAX_CONNECTIONS" parseU64 default.maxConnections
      stunPerIpResponsesPerSec :=
        env.get "DIG_RELAY_STUN_PER_IP_RPS" parseU32 default.stunPerIpResponsesPerSec
      stunGlobalResponsesPerSec :=
        env.get "DIG_RELAY_STUN_GLOBAL_RPS" parseU32 default.stunGlobalResponsesPerSec
      outboundQueueCapacity :=
        env.get "DIG_RELAY_OUTBOUND_QUEUE_CAPACITY" parseU64 default.outboundQueueCapacity
      maxMessageBytes := env.get "DIG_RELAY_MAX_MESSAGE_BYTES" parseU64 default.maxMessageBytes
      registerTimeout := env.get "DIG_RELAY_REGISTER_TIMEOUT_SECS" parseSecs default.registerTimeout
      healthCheckInterval :=
        env.get "DIG_RELAY_HEALTH_CHECK_INTERVAL_SECS" parseSecs default.healthCheckInterval
      livenessDeadline := env.get "DIG_RELAY_LIVENESS_DEADLINE_SECS" parseSecs default.livenessDeadline
      maxConnectionsPerIp := env.get "DIG_RELAY_MAX_CONNECTIONS_PER_IP" parseU32 default.maxConnectionsPerIp
      registrationsPerIpPerSec :=
        env.get "DIG_RELAY_REGISTRATIONS_PER_IP_PER_SEC" parseU32 default.registrationsPerIpPerSec
      maxRegistrationsPerIp :=
        env.get "DIG_RELAY_MAX_REGISTRATIONS_PER_IP" parseU32 default.maxRegistrationsPerIp
      messagesPerConnPerSec :=
        env.get "DIG_RELAY_MESSAGES_PER_CONN_PER_SEC" parseU32 default.messagesPerConnPerSec
      bytesPerConnPerSec := env.get "DIG_RELAY_BYTES_PER_CONN_PER_SEC" parseU32 default.bytesPerConnPerSec
      maxRelayedBytesPerConn :=
        env.get "DIG_RELAY_MAX_RELAYED_BYTES_PER_CONN" parseU64 default.maxRelayedBytesPerConn
      banThreshold := env.get "DIG_RELAY_BAN_THRESHOLD" parseU32 default.banThreshold
      banDuration := env.get "DIG_RELAY_BAN_DURATION_SECS" parseSecs default.banDuration
      banStrikeWindow := env.get "DIG_RELAY_BAN_STRIKE_WINDOW_SECS" parseSecs default.banStrikeWindow
      tlsCertPath := env.var "DIG_RELAY_TLS_CERT_PATH"
      tlsKeyPath := env.var "DIG_RELAY_TLS_KEY_PATH" }
  match env.var "DIG_RELAY_TRUSTED_PROXY_CIDRS" with
  | none => .ok config
  | some list =>
    match TrustedProxies.parse list.toList with
    | .ok proxies => .ok { config with trustedProxies := proxies }
    | .error e =>
      -- the service does not start
      .error ("DIG_RELAY_TRUSTED_PROXY_CIDRS is invalid: " ++ e.text (String.ofList ∘ ipText))

end DigRelay
