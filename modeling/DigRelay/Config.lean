import DigRelay.Net

/-!
# The relay configuration

The limits the server reads, and the checks a configuration passes before the relay starts.
Durations are counted in nanoseconds. Machine words of the host are 64 bits wide.
-/

namespace DigRelay

/-- A duration in nanoseconds. -/
abbrev Duration := ℕ

/-- Whole seconds of a duration. -/
def Duration.asSecs (d : Duration) : ℕ := d / 1000000000

/-- Whole milliseconds of a duration, cut to 64 bits. -/
def Duration.asMillis (d : Duration) : ℕ := d / 1000000 % 2 ^ 64

/-- A duration of whole seconds. -/
def Duration.fromSecs (secs : ℕ) : Duration := secs * 1000000000

/-- The configured limits of a relay. A zero per-source or per-connection limit disables that
limit alone. -/
structure RelayServerConfig where
  stunPort : UInt16 := 3478
  maxConnections : UInt64 := 4096
  idleTimeout : Duration := Duration.fromSecs 120
  outboundQueueCapacity : ℕ := 1024
  maxMessageBytes : ℕ := 262144
  registerTimeout : Duration := Duration.fromSecs 10
  healthCheckInterval : Duration := Duration.fromSecs 30
  livenessDeadline : Duration := Duration.fromSecs 90
  tlsCertPath : Option String := none
  tlsKeyPath : Option String := none
  maxConnectionsPerIp : ℕ := 64
  registrationsPerIpPerSec : ℕ := 10
  maxRegistrationsPerIp : ℕ := 128
  messagesPerConnPerSec : ℕ := 256
  bytesPerConnPerSec : ℕ := 1048576
  maxRelayedBytesPerConn : ℕ := 1073741824
  banThreshold : ℕ := 20
  banDuration : Duration := Duration.fromSecs 300
  banStrikeWindow : Duration := Duration.fromSecs 60
  deriving DecidableEq

/-- The first misconfiguration found, in the order the relay looks for them. -/
def RelayServerConfig.validate (config : RelayServerConfig) : Except String Unit := do
  if config.maxConnections = 0 then throw "max_connections must be >= 1"
  if config.idleTimeout = 0 then throw "idle_timeout must be > 0"
  if config.outboundQueueCapacity = 0 then throw "outbound_queue_capacity must be >= 1"
  if config.maxMessageBytes = 0 then throw "max_message_bytes must be >= 1"
  if config.registerTimeout = 0 then throw "register_timeout must be > 0"
  if config.healthCheckInterval = 0 then throw "health_check_interval must be > 0"
  if config.livenessDeadline = 0 then throw "liveness_deadline must be > 0"
  if config.livenessDeadline < config.healthCheckInterval then
    throw "liveness_deadline must be >= health_check_interval"
  if config.livenessDeadline ≥ config.idleTimeout then
    throw "liveness_deadline must be < idle_timeout (idle timeout is the longer backstop)"
  if config.tlsCertPath.isSome ≠ config.tlsKeyPath.isSome then
    throw "tls_cert_path and tls_key_path must be set together"
  if config.maxConnectionsPerIp ≠ 0 ∧ config.maxConnectionsPerIp > config.maxConnections.toNat then
    throw "max_connections_per_ip must be <= max_connections"
  if config.banThreshold ≠ 0 then
    if config.banDuration = 0 then throw "ban_duration must be > 0 when ban_threshold > 0"
    if config.banStrikeWindow = 0 then throw "ban_strike_window must be > 0 when ban_threshold > 0"

/-- The default configuration is valid. -/
theorem validate_default : ({} : RelayServerConfig).validate = .ok () := rfl

end DigRelay
