import DigRelay.ServiceEnv

/-!
# What an installed service keeps of its configuration

Everything that is written into the environment of a service is read back as it was, for all addresses,
numbers and paths. Nine fields are not written, though, and a flow label is not part of the text of an
address, so these come back as their defaults.
-/

namespace DigRelay

open Common

/-- The address without its flow label. -/
def ListenAddr.withoutFlowInfo (addr : ListenAddr) : ListenAddr where
  toSocketAddr := addr.toSocketAddr
  plain h := ⟨(addr.plain h).1, rfl⟩

/-- The configuration with everything the environment does not carry set to its default. -/
def ServiceConfig.persisted (config : ServiceConfig) : ServiceConfig :=
  let default : ServiceConfig := {}
  { config with
    listen := config.listen.withoutFlowInfo
    healthListen := config.healthListen.withoutFlowInfo
    dashboardListen := config.dashboardListen.withoutFlowInfo
    stunListen := config.stunListen.withoutFlowInfo
    idleTimeout := default.idleTimeout
    stunPerIpResponsesPerSec := default.stunPerIpResponsesPerSec
    stunGlobalResponsesPerSec := default.stunGlobalResponsesPerSec
    outboundQueueCapacity := default.outboundQueueCapacity
    maxMessageBytes := default.maxMessageBytes
    registerTimeout := default.registerTimeout
    healthCheckInterval := default.healthCheckInterval
    livenessDeadline := default.livenessDeadline
    trustedProxies := default.trustedProxies }

/-- The configuration has the defaults wherever the environment carries nothing. -/
structure ServiceConfig.NothingLost (config : ServiceConfig) : Prop where
  listen : config.listen.flowInfo = 0
  healthListen : config.healthListen.flowInfo = 0
  dashboardListen : config.dashboardListen.flowInfo = 0
  stunListen : config.stunListen.flowInfo = 0
  idleTimeout : config.idleTimeout = Duration.fromSecs 120
  stunPerIpResponsesPerSec : config.stunPerIpResponsesPerSec = 5
  stunGlobalResponsesPerSec : config.stunGlobalResponsesPerSec = 1000
  outboundQueueCapacity : config.outboundQueueCapacity = 1024
  maxMessageBytes : config.maxMessageBytes = 262144
  registerTimeout : config.registerTimeout = Duration.fromSecs 10
  healthCheckInterval : config.healthCheckInterval = Duration.fromSecs 30
  livenessDeadline : config.livenessDeadline = Duration.fromSecs 90
  trustedProxies : config.trustedProxies = {}

/-- The duration is a number of seconds that fits its 64 bits. -/
def Duration.IsWhole (d : Duration) : Prop := ∃ secs : UInt64, d = Duration.fromSecs secs.toNat

/-- All durations of the configuration are whole seconds. -/
structure ServiceConfig.WholeSeconds (config : ServiceConfig) : Prop where
  idleTimeout : config.idleTimeout.IsWhole
  registerTimeout : config.registerTimeout.IsWhole
  healthCheckInterval : config.healthCheckInterval.IsWhole
  livenessDeadline : config.livenessDeadline.IsWhole
  banDuration : config.banDuration.IsWhole
  banStrikeWindow : config.banStrikeWindow.IsWhole

/-- An address is read back without its flow label. -/
theorem parseListenAddr_socketAddrText (addr : ListenAddr) :
    parseListenAddr (socketAddrText addr.toSocketAddr) = some addr.withoutFlowInfo := by
  have hread : parseSocketAddr (socketAddrText addr.toSocketAddr) = some addr.toSocketAddr :=
    parseSocketAddr_socketAddrText fun h => (addr.plain h).1
  rw [parseListenAddr, Option.pmap_some' hread]
  rfl

/-- A number of 32 bits is read back. -/
theorem parseU32_repr (n : UInt32) : parseU32 n.toNat.repr.toList = some n := by
  rw [parseU32, Nat.toList_repr, parseUnsigned_toDigits n.toNat_lt, Option.map_some, UInt32.ofNat_toNat]

/-- A number of 64 bits is read back. -/
theorem parseU64_repr (n : UInt64) : parseU64 n.toNat.repr.toList = some n := by
  rw [parseU64, Nat.toList_repr, parseUnsigned_toDigits n.toNat_lt, Option.map_some, UInt64.ofNat_toNat]

/-- A whole number of seconds is read back. -/
theorem parseSecs_repr {d : Duration} (h : d.IsWhole) : parseSecs d.asSecs.repr.toList = some d := by
  obtain ⟨secs, rfl⟩ := h
  have hsecs : (Duration.fromSecs secs.toNat).asSecs = secs.toNat :=
    Nat.mul_div_cancel _ (by decide)
  rw [parseSecs, hsecs, Nat.toList_repr, parseUnsigned_toDigits secs.toNat_lt, Option.map_some]

/-- If all checks pass, the first one and those after it do. -/
theorem not_of_check {c : Prop} [Decidable c] {message : String} {rest : Unit → Except String Unit}
    (h : (if c then throw message >>= rest else rest ()) = .ok ()) : ¬c ∧ rest () = .ok () := by
  by_cases hc : c
  · rw [if_pos hc] at h
    cases h
  · rw [if_neg hc] at h
    exact ⟨hc, h⟩

/-- In a valid configuration the certificate and its key are both set or both not. -/
theorem tls_of_validate {config : RelayServerConfig} (h : config.validate = .ok ()) :
    config.tlsCertPath.isSome = config.tlsKeyPath.isSome := by
  unfold RelayServerConfig.validate at h
  -- nine checks come before the one of the paths
  iterate 9 replace h := (not_of_check h).2
  exact not_not.mp (not_of_check h).1

/-- A variable that is set to something that can be parsed has that value. -/
theorem Environment.get_of_parse {A : Type*} {env : Environment} {name value : String}
    {parse : List Char → Option A} {default parsed : A} (hvar : env.var name = some value)
    (hparse : parse value.toList = some parsed) : env.get name parse default = parsed := by
  rw [Environment.get, hvar, Option.bind_some, hparse, Option.getD_some]

/-- The paths are read back, if both are set or both not. -/
theorem var_tls {config : ServiceConfig} (h : config.tlsCertPath.isSome = config.tlsKeyPath.isSome) :
    (installEnvironment config).var "DIG_RELAY_TLS_CERT_PATH" = config.tlsCertPath ∧
      (installEnvironment config).var "DIG_RELAY_TLS_KEY_PATH" = config.tlsKeyPath := by
  cases hcert : config.tlsCertPath with
  | none =>
    rw [hcert, Option.isSome_none, eq_comm, Option.isSome_eq_false_iff, Option.isNone_iff_eq_none] at h
    rw [installEnvironment, tlsEnvironmentPairs, hcert, h]
    exact ⟨rfl, rfl⟩
  | some cert =>
    rw [hcert, Option.isSome_some, eq_comm, Option.isSome_iff_exists] at h
    obtain ⟨key, hkey⟩ := h
    rw [installEnvironment, tlsEnvironmentPairs, hcert, hkey]
    exact ⟨rfl, rfl⟩

/-- The variables that an installed service may find set. -/
def installedVariables : List String :=
  ["DIG_RELAY_LISTEN", "DIG_RELAY_HEALTH_LISTEN", "DIG_RELAY_DASHBOARD_LISTEN", "DIG_RELAY_STUN_LISTEN",
    "DIG_RELAY_MAX_CONNECTIONS", "DIG_RELAY_MAX_CONNECTIONS_PER_IP",
    "DIG_RELAY_REGISTRATIONS_PER_IP_PER_SEC", "DIG_RELAY_MAX_REGISTRATIONS_PER_IP",
    "DIG_RELAY_MESSAGES_PER_CONN_PER_SEC", "DIG_RELAY_BYTES_PER_CONN_PER_SEC",
    "DIG_RELAY_MAX_RELAYED_BYTES_PER_CONN", "DIG_RELAY_BAN_THRESHOLD", "DIG_RELAY_BAN_DURATION_SECS",
    "DIG_RELAY_BAN_STRIKE_WINDOW_SECS"] ++ ["DIG_RELAY_TLS_CERT_PATH", "DIG_RELAY_TLS_KEY_PATH"]

/-- Nothing else is written. -/
theorem var_of_not_mem (config : ServiceConfig) {name : String} (h : name ∉ installedVariables) :
    (installEnvironment config).var name = none := by
  have hsubset : (installEnvironment config).map Prod.fst ⊆ installedVariables := by
    rw [installEnvironment, List.map_append]
    apply List.append_subset.mpr
    constructor
    · exact List.subset_append_left _ _
    · apply List.Subset.trans _ (List.subset_append_right _ _)
      unfold tlsEnvironmentPairs
      split
      · exact List.Subset.refl _
      · exact List.nil_subset _
  rw [Environment.var, List.lookup_eq_none_iff]
  intro entry hentry
  have hmem : entry.1 ∈ installedVariables := hsubset (List.mem_map_of_mem hentry)
  rw [bne_iff_ne]
  rintro rfl
  exact h hmem

section Values

variable {env : Environment} {name : String}

/-- A variable set to an address has it, without its flow label. -/
theorem get_addr {addr default : ListenAddr}
    (h : env.var name = some (String.ofList (socketAddrText addr.toSocketAddr))) :
    env.get name parseListenAddr default = addr.withoutFlowInfo := by
  apply Environment.get_of_parse h
  rw [String.toList_ofList, parseListenAddr_socketAddrText]

/-- A variable set to a number of 32 bits has it. -/
theorem get_u32 {n default : UInt32} (h : env.var name = some n.toNat.repr) :
    env.get name parseU32 default = n :=
  Environment.get_of_parse h (parseU32_repr n)

/-- A variable set to a number of 64 bits has it. -/
theorem get_u64 {n default : UInt64} (h : env.var name = some n.toNat.repr) :
    env.get name parseU64 default = n :=
  Environment.get_of_parse h (parseU64_repr n)

/-- A variable set to the seconds of a duration has the duration. -/
theorem get_secs {d default : Duration} (hd : d.IsWhole) (h : env.var name = some d.asSecs.repr) :
    env.get name parseSecs default = d :=
  Environment.get_of_parse h (parseSecs_repr hd)

/-- A variable that is not written has its default. -/
theorem get_unwritten {A : Type*} {config : ServiceConfig} {parse : List Char → Option A} {default : A}
    (h : name ∉ installedVariables) : (installEnvironment config).get name parse default = default := by
  rw [Environment.get, var_of_not_mem config h, Option.bind_none, Option.getD_none]

end Values

/-- What the environment carries is read back, and everything else is the default. -/
theorem configFromEnv_eq_persisted {config : ServiceConfig} (hvalid : config.server.validate = .ok ())
    (hsecs : config.WholeSeconds) :
    configFromEnv (installEnvironment config) = .ok config.persisted := by
  obtain ⟨hcert, hkey⟩ := var_tls (tls_of_validate hvalid)
  rw [configFromEnv]
  dsimp only
  rw [var_of_not_mem config (by decide)]
  apply congrArg Except.ok
  rw [ServiceConfig.persisted, ServiceConfig.mk.injEq]
  exact ⟨get_addr rfl, get_addr rfl, get_addr rfl, get_addr rfl, get_u64 rfl, rfl,
    get_unwritten (by decide), get_unwritten (by decide), get_unwritten (by decide),
    get_unwritten (by decide), get_unwritten (by decide), get_unwritten (by decide),
    get_unwritten (by decide), hcert, hkey, get_u32 rfl, get_u32 rfl, get_u32 rfl, get_u32 rfl,
    get_u32 rfl, get_u64 rfl, get_u32 rfl, get_secs hsecs.banDuration rfl,
    get_secs hsecs.banStrikeWindow rfl, rfl⟩

/-- Nothing is lost of an address without a flow label. -/
theorem withoutFlowInfo_eq_iff (addr : ListenAddr) : addr.withoutFlowInfo = addr ↔ addr.flowInfo = 0 := by
  constructor
  · intro h
    rw [← h]
    rfl
  · intro h
    rw [ListenAddr.withoutFlowInfo, ListenAddr.mk.injEq]
    exact ⟨rfl, h.symm⟩

/-- What is read back is the configuration exactly when nothing of it is lost. -/
theorem persisted_eq_iff (config : ServiceConfig) : config.persisted = config ↔ config.NothingLost := by
  constructor
  · intro h
    have hfield {A : Type} (field : ServiceConfig → A) : field config = field config.persisted := by rw [h]
    have haddr (field : ServiceConfig → ListenAddr)
        (hlost : field config.persisted = (field config).withoutFlowInfo) : (field config).flowInfo = 0 := by
      rw [← withoutFlowInfo_eq_iff, ← hlost, ← hfield field]
    exact
      { listen := haddr ServiceConfig.listen rfl
        healthListen := haddr ServiceConfig.healthListen rfl
        dashboardListen := haddr ServiceConfig.dashboardListen rfl
        stunListen := haddr ServiceConfig.stunListen rfl
        idleTimeout := hfield ServiceConfig.idleTimeout
        stunPerIpResponsesPerSec := hfield ServiceConfig.stunPerIpResponsesPerSec
        stunGlobalResponsesPerSec := hfield ServiceConfig.stunGlobalResponsesPerSec
        outboundQueueCapacity := hfield ServiceConfig.outboundQueueCapacity
        maxMessageBytes := hfield ServiceConfig.maxMessageBytes
        registerTimeout := hfield ServiceConfig.registerTimeout
        healthCheckInterval := hfield ServiceConfig.healthCheckInterval
        livenessDeadline := hfield ServiceConfig.livenessDeadline
        trustedProxies := hfield ServiceConfig.trustedProxies }
  · intro h
    have haddr (addr : ListenAddr) (hflow : addr.flowInfo = 0) : addr.withoutFlowInfo = addr :=
      (withoutFlowInfo_eq_iff addr).mpr hflow
    simp only [ServiceConfig.persisted, haddr _ h.listen, haddr _ h.healthListen,
      haddr _ h.dashboardListen, haddr _ h.stunListen]
    rw [← h.idleTimeout, ← h.stunPerIpResponsesPerSec, ← h.stunGlobalResponsesPerSec,
      ← h.outboundQueueCapacity, ← h.maxMessageBytes, ← h.registerTimeout, ← h.healthCheckInterval,
      ← h.livenessDeadline, ← h.trustedProxies]

/-- For every valid configuration of whole seconds, the service reads back the configuration with the
fields that are not written set to their defaults; so it reads back the same configuration exactly when
these fields have their defaults and no address has a flow label. -/
theorem configFromEnv_installEnvironment {config : ServiceConfig} (hvalid : config.server.validate = .ok ())
    (hsecs : config.WholeSeconds) :
    configFromEnv (installEnvironment config) = .ok config.persisted ∧
      (configFromEnv (installEnvironment config) = .ok config ↔ config.NothingLost) := by
  have hread := configFromEnv_eq_persisted hvalid hsecs
  refine ⟨hread, ?_⟩
  rw [hread, Except.ok.injEq, persisted_eq_iff]

/-- A relay with a certificate that listens at one IPv4 address and, for its health, at a scoped one. -/
def certifiedConfig : ServiceConfig :=
  { listen := { ip := .v4 0xc0000207, port := 443, plain := fun _ => ⟨rfl, rfl⟩ }
    healthListen :=
      { ip := .v6 0xfe800000000000000000000000000001, port := 9451, scopeId := 4, plain := fun h => by cases h }
    maxConnections := 20000
    tlsCertPath := some "/etc/relay/cert.pem"
    tlsKeyPath := some "/etc/relay/key.pem"
    banDuration := Duration.fromSecs 3600 }

/-- That configuration is read back as it was. -/
theorem configFromEnv_certifiedConfig :
    configFromEnv (installEnvironment certifiedConfig) = .ok certifiedConfig := by
  apply (configFromEnv_installEnvironment rfl _).2.mpr
  · constructor <;> rfl
  · exact ⟨⟨120, rfl⟩, ⟨10, rfl⟩, ⟨30, rfl⟩, ⟨90, rfl⟩, ⟨3600, rfl⟩, ⟨60, rfl⟩⟩

/-- A relay that is installed with half a minute to register and an idle timeout of five minutes runs with
ten seconds and two minutes. -/
theorem configFromEnv_timeouts_lost :
    let config : ServiceConfig :=
      { idleTimeout := Duration.fromSecs 300, registerTimeout := Duration.fromSecs 30 }
    config.server.validate = .ok () ∧ config.WholeSeconds ∧
      (configFromEnv (installEnvironment config)).map (fun read => (read.idleTimeout, read.registerTimeout)) =
        .ok (Duration.fromSecs 120, Duration.fromSecs 10) ∧
      configFromEnv (installEnvironment config) ≠ .ok config := by
  intro config
  have hvalid : config.server.validate = .ok () := rfl
  have hsecs : config.WholeSeconds :=
    ⟨⟨300, rfl⟩, ⟨30, rfl⟩, ⟨30, rfl⟩, ⟨90, rfl⟩, ⟨300, rfl⟩, ⟨60, rfl⟩⟩
  have hread := configFromEnv_eq_persisted hvalid hsecs
  refine ⟨hvalid, hsecs, by rw [hread]; rfl, ?_⟩
  rw [hread]
  intro hsame
  have htimeout := congrArg ServiceConfig.registerTimeout (Except.ok.inj hsame)
  exact absurd htimeout (by decide)

end DigRelay
