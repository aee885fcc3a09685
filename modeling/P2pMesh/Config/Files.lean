import P2pMesh.Config.Client
import P2pMesh.Config.Ini

/-! # The configurations of the server and the client

`LoadServerConfig`, `LoadClientConfig`, the validation of the server's configuration and the
texts of its addresses, of `internal/config`. A configuration whose values can stand in a file
is read back from the file that has them (`P2pMesh.Ini.loadServerConfig_file`,
`P2pMesh.Ini.loadClientConfig_file`), and the addresses of an accepted configuration are taken
apart again (`P2pMesh.Ini.ServerConfig.parseHostPort_addresses`).
-/

namespace P2pMesh.Ini

open Foundation

/-- `config.ServerConfig`. -/
structure ServerConfig where
  host : Bytes
  port : Int
  meshPeers : List Bytes
  apiEnabled : Bool
  apiHost : Bytes
  apiPort : Int
  apiCertFile : Bytes
  apiKeyFile : Bytes
  apiClientCAFile : Bytes
  jwtSecret : Bytes
  tokenTTLHours : Int
  adminUser : Bytes
  adminPassword : Bytes
  databaseType : Bytes
  databaseDSN : Bytes
  maxOpenConns : Int
  maxIdleConns : Int
  networkCIDR : Bytes
  rootKeyFile : Bytes
  trustOnFirstUse : Bool
  nodeTimeout : Bytes
  logLevel : Bytes
  logFile : Bytes
deriving DecidableEq

/-- `DefaultServerConfig`. -/
def defaultServerConfig : ServerConfig where
  host := ascii "0.0.0.0"
  port := 29683
  meshPeers := []
  apiEnabled := true
  apiHost := ascii "127.0.0.1"
  apiPort := 29684
  apiCertFile := []
  apiKeyFile := []
  apiClientCAFile := []
  jwtSecret := []
  tokenTTLHours := 24
  adminUser := ascii "admin"
  adminPassword := []
  databaseType := ascii "sqlite"
  databaseDSN := ascii "data/gop2pmesh.db"
  maxOpenConns := 50
  maxIdleConns := 10
  networkCIDR := ascii "fd00:9bd8::/64"
  rootKeyFile := ascii "root.key"
  trustOnFirstUse := false
  nodeTimeout := ascii "90s"
  logLevel := ascii "info"
  logFile := []

/-- The assignments of `LoadServerConfig`. -/
def serverConfigOf (m : Table) : ServerConfig :=
  let cfg := defaultServerConfig
  { host := getString m (ascii "server") (ascii "host") cfg.host
    port := getInt m (ascii "server") (ascii "port") cfg.port
    meshPeers := getStringSlice m (ascii "server") (ascii "mesh_peers") cfg.meshPeers
    apiEnabled := getBool m (ascii "api") (ascii "enabled") cfg.apiEnabled
    apiHost := getString m (ascii "api") (ascii "host") cfg.apiHost
    apiPort := getInt m (ascii "api") (ascii "port") cfg.apiPort
    apiCertFile := getString m (ascii "api") (ascii "cert_file") cfg.apiCertFile
    apiKeyFile := getString m (ascii "api") (ascii "key_file") cfg.apiKeyFile
    apiClientCAFile := getString m (ascii "api") (ascii "client_ca_file") cfg.apiClientCAFile
    jwtSecret := getString m (ascii "api") (ascii "jwt_secret") cfg.jwtSecret
    tokenTTLHours := getInt m (ascii "api") (ascii "token_ttl_hours") cfg.tokenTTLHours
    adminUser := getString m (ascii "api") (ascii "admin_user") cfg.adminUser
    adminPassword := getString m (ascii "api") (ascii "admin_password") cfg.adminPassword
    databaseType := getString m (ascii "database") (ascii "type") cfg.databaseType
    databaseDSN := getString m (ascii "database") (ascii "dsn") cfg.databaseDSN
    maxOpenConns := getInt m (ascii "database") (ascii "max_open_conns") cfg.maxOpenConns
    maxIdleConns := getInt m (ascii "database") (ascii "max_idle_conns") cfg.maxIdleConns
    networkCIDR := getString m (ascii "network") (ascii "cidr") cfg.networkCIDR
    rootKeyFile := getString m (ascii "security") (ascii "root_key_file") cfg.rootKeyFile
    trustOnFirstUse := getBool m (ascii "security") (ascii "trust_on_first_use")
      cfg.trustOnFirstUse
    nodeTimeout := getString m (ascii "security") (ascii "node_timeout") cfg.nodeTimeout
    logLevel := getString m (ascii "log") (ascii "level") cfg.logLevel
    logFile := getString m (ascii "log") (ascii "file") cfg.logFile }

/-- `LoadServerConfig`. -/
def loadServerConfig (file : Except Bytes Bytes) : Except LoadError ServerConfig :=
  (loadINI file).map serverConfigOf

/-- The fields of a configuration by their sections and keys. -/
def ServerConfig.settings (c : ServerConfig) : Settings :=
  let cfg := defaultServerConfig
  [(ascii "server", [
      (ascii "host", .text c.host cfg.host),
      (ascii "port", .int c.port),
      (ascii "mesh_peers", .slice c.meshPeers cfg.meshPeers)]),
    (ascii "api", [
      (ascii "enabled", .bool c.apiEnabled),
      (ascii "host", .text c.apiHost cfg.apiHost),
      (ascii "port", .int c.apiPort),
      (ascii "cert_file", .text c.apiCertFile cfg.apiCertFile),
      (ascii "key_file", .text c.apiKeyFile cfg.apiKeyFile),
      (ascii "client_ca_file", .text c.apiClientCAFile cfg.apiClientCAFile),
      (ascii "jwt_secret", .text c.jwtSecret cfg.jwtSecret),
      (ascii "token_ttl_hours", .int c.tokenTTLHours),
      (ascii "admin_user", .text c.adminUser cfg.adminUser),
      (ascii "admin_password", .text c.adminPassword cfg.adminPassword)]),
    (ascii "database", [
      (ascii "type", .text c.databaseType cfg.databaseType),
      (ascii "dsn", .text c.databaseDSN cfg.databaseDSN),
      (ascii "max_open_conns", .int c.maxOpenConns),
      (ascii "max_idle_conns", .int c.maxIdleConns)]),
    (ascii "network", [(ascii "cidr", .text c.networkCIDR cfg.networkCIDR)]),
    (ascii "security", [
      (ascii "root_key_file", .text c.rootKeyFile cfg.rootKeyFile),
      (ascii "trust_on_first_use", .bool c.trustOnFirstUse),
      (ascii "node_timeout", .text c.nodeTimeout cfg.nodeTimeout)]),
    (ascii "log", [
      (ascii "level", .text c.logLevel cfg.logLevel),
      (ascii "file", .text c.logFile cfg.logFile)])]

/-- The sections and keys of the server's file can be written and are distinct. -/
theorem wellNamed_serverConfig (c : ServerConfig) : WellNamed c.settings.names := by
  have same : c.settings.names = defaultServerConfig.settings.names := rfl
  rw [same]
  decide +kernel

/-- A configuration of the server is read back from a file with its values. -/
theorem loadServerConfig_file (c : ServerConfig)
    (valid : ∀ s ∈ c.settings, ∀ e ∈ s.2, e.2.Valid) :
    loadServerConfig (.ok (writeINI c.settings.doc)) = .ok c := by
  obtain ⟨table, loaded, held⟩ := Settings.load (wellNamed_serverConfig c) valid
  have same : serverConfigOf table = c := by
    cases c
    simp only [serverConfigOf, ServerConfig.mk.injEq]
    exact ⟨held.getString 0 0 rfl rfl, held.getInt 0 1 rfl rfl, held.getStringSlice 0 2 rfl rfl,
      held.getBool 1 0 rfl rfl, held.getString 1 1 rfl rfl, held.getInt 1 2 rfl rfl,
      held.getString 1 3 rfl rfl, held.getString 1 4 rfl rfl, held.getString 1 5 rfl rfl,
      held.getString 1 6 rfl rfl, held.getInt 1 7 rfl rfl, held.getString 1 8 rfl rfl,
      held.getString 1 9 rfl rfl, held.getString 2 0 rfl rfl, held.getString 2 1 rfl rfl,
      held.getInt 2 2 rfl rfl, held.getInt 2 3 rfl rfl, held.getString 3 0 rfl rfl,
      held.getString 4 0 rfl rfl, held.getBool 4 1 rfl rfl, held.getString 4 2 rfl rfl,
      held.getString 5 0 rfl rfl, held.getString 5 1 rfl rfl⟩
  rw [loadServerConfig, loaded, Except.map, same]

/-- A server that differs from the defaults in a field of each kind: it has two peers, listens
on IPv6, keeps its nodes in a file with a space and an equals sign in its name, and does not
bound its connections. -/
def sampleServerConfig : ServerConfig :=
  { defaultServerConfig with
    host := ascii "fd00::1"
    port := 4000
    meshPeers := [ascii "10.0.0.2:29683", ascii "[fd00::2]:29683"]
    apiEnabled := false
    apiHost := ascii "[::1]"
    databaseDSN := ascii "file:mesh data.db?cache=shared"
    maxOpenConns := -1
    trustOnFirstUse := true
    logLevel := ascii "debug"
    logFile := ascii "/var/log/mesh.log" }

/-- The sample and the defaults can stand in a file. -/
theorem sampleServerConfig_read :
    loadServerConfig (.ok (writeINI sampleServerConfig.settings.doc)) = .ok sampleServerConfig ∧
      loadServerConfig (.ok (writeINI defaultServerConfig.settings.doc)) =
        .ok defaultServerConfig :=
  ⟨loadServerConfig_file sampleServerConfig (by decide +kernel),
    loadServerConfig_file defaultServerConfig (by decide +kernel)⟩

/-- What a configuration of the server is refused for. -/
inductive ServerConfigError where
  | port (n : Int)
  | apiPort (n : Int)
  | databaseType (text : Bytes)
  | logLevel (text : Bytes)
deriving DecidableEq

/-- The texts of the errors, given the quoting of `%q`. -/
def ServerConfigError.text (quote : Bytes → String) : ServerConfigError → String
  | .port n => "invalid server port " ++ toString n
  | .apiPort n => "invalid api port " ++ toString n
  | .databaseType text => "unsupported database type " ++ quote text
  | .logLevel text => "invalid log level " ++ quote text

/-- `ServerConfig.Validate`. -/
def ServerConfig.validate (c : ServerConfig) : Option ServerConfigError :=
  if c.port < 1 ∨ c.port > 65535 then some (.port c.port)
  else if c.apiPort < 1 ∨ c.apiPort > 65535 then some (.apiPort c.apiPort)
  else if c.databaseType = ascii "sqlite" ∨ c.databaseType = ascii "mysql" ∨
      c.databaseType = ascii "postgresql" ∨ c.databaseType = ascii "mongodb" then
    if c.logLevel = ascii "debug" ∨ c.logLevel = ascii "info" ∨ c.logLevel = ascii "warn" ∨
        c.logLevel = ascii "error" then none
    else some (.logLevel c.logLevel)
  else some (.databaseType c.databaseType)

/-- The two ports of an accepted configuration are port numbers. -/
theorem ServerConfig.ports_of_validate {c : ServerConfig} (accepted : c.validate = none) :
    (1 ≤ c.port ∧ c.port ≤ 65535) ∧ 1 ≤ c.apiPort ∧ c.apiPort ≤ 65535 := by
  rw [ServerConfig.validate] at accepted
  split at accepted
  · cases accepted
  · split at accepted
    · cases accepted
    · omega

/-- The assignments of `LoadClientConfig`. -/
def clientConfigOf (m : Table) : ClientConfig :=
  let cfg := defaultClientConfig
  { bootstrap := getStringSlice m (ascii "client") (ascii "bootstrap") cfg.bootstrap
    listenPort := getInt m (ascii "client") (ascii "listen_port") cfg.listenPort
    nodeID := getString m (ascii "client") (ascii "node_id") cfg.nodeID
    autoJoin := getString m (ascii "room") (ascii "auto_join") cfg.autoJoin
    roomKey := getString m (ascii "room") (ascii "room_key") cfg.roomKey
    stunServers := getStringSlice m (ascii "stun") (ascii "servers") cfg.stunServers
    stunTimeout := getInt m (ascii "stun") (ascii "timeout_ms") cfg.stunTimeout
    predictSamples := getInt m (ascii "stun") (ascii "predict_samples") cfg.predictSamples
    stunIPv6 := getBool m (ascii "stun") (ascii "ipv6") cfg.stunIPv6
    predictWindow := getInt m (ascii "holepunch") (ascii "predict_window") cfg.predictWindow
    predictParallel := getInt m (ascii "holepunch") (ascii "predict_parallel")
      cfg.predictParallel
    turnEnabled := getBool m (ascii "holepunch") (ascii "turn") cfg.turnEnabled
    turnAddr := getString m (ascii "holepunch") (ascii "turn_addr") cfg.turnAddr
    tunnelMTU := Int64.ofInt (getInt m (ascii "tunnel") (ascii "mtu") cfg.tunnelMTU.toInt)
    kcpWindow := getInt m (ascii "tunnel") (ascii "kcp_window") cfg.kcpWindow
    allowUnreliableFallback := getBool m (ascii "tunnel") (ascii "allow_unreliable_fallback")
      cfg.allowUnreliableFallback
    networkCIDR := getString m (ascii "network") (ascii "cidr") cfg.networkCIDR
    portControlPolicy := getString m (ascii "portcontrol") (ascii "default_policy")
      cfg.portControlPolicy
    portControlDB := getString m (ascii "portcontrol") (ascii "db_file") cfg.portControlDB
    keyFile := getString m (ascii "identity") (ascii "key_file") cfg.keyFile
    logLevel := getString m (ascii "log") (ascii "level") cfg.logLevel
    logFile := getString m (ascii "log") (ascii "file") cfg.logFile }

/-- `LoadClientConfig`. -/
def loadClientConfig (file : Except Bytes Bytes) : Except LoadError ClientConfig :=
  (loadINI file).map clientConfigOf

/-- The fields of a configuration by their sections and keys. -/
def clientSettings (c : ClientConfig) : Settings :=
  let cfg := defaultClientConfig
  [(ascii "client", [
      (ascii "bootstrap", .slice c.bootstrap cfg.bootstrap),
      (ascii "listen_port", .int c.listenPort),
      (ascii "node_id", .text c.nodeID cfg.nodeID)]),
    (ascii "room", [
      (ascii "auto_join", .text c.autoJoin cfg.autoJoin),
      (ascii "room_key", .text c.roomKey cfg.roomKey)]),
    (ascii "stun", [
      (ascii "servers", .slice c.stunServers cfg.stunServers),
      (ascii "timeout_ms", .int c.stunTimeout),
      (ascii "predict_samples", .int c.predictSamples),
      (ascii "ipv6", .bool c.stunIPv6)]),
    (ascii "holepunch", [
      (ascii "predict_window", .int c.predictWindow),
      (ascii "predict_parallel", .int c.predictParallel),
      (ascii "turn", .bool c.turnEnabled),
      (ascii "turn_addr", .text c.turnAddr cfg.turnAddr)]),
    (ascii "tunnel", [
      (ascii "mtu", .int c.tunnelMTU.toInt),
      (ascii "kcp_window", .int c.kcpWindow),
      (ascii "allow_unreliable_fallback", .bool c.allowUnreliableFallback)]),
    (ascii "network", [(ascii "cidr", .text c.networkCIDR cfg.networkCIDR)]),
    (ascii "portcontrol", [
      (ascii "default_policy", .text c.portControlPolicy cfg.portControlPolicy),
      (ascii "db_file", .text c.portControlDB cfg.portControlDB)]),
    (ascii "identity", [(ascii "key_file", .text c.keyFile cfg.keyFile)]),
    (ascii "log", [
      (ascii "level", .text c.logLevel cfg.logLevel),
      (ascii "file", .text c.logFile cfg.logFile)])]

/-- The sections and keys of the client's file can be written and are distinct. -/
theorem wellNamed_clientConfig (c : ClientConfig) : WellNamed (clientSettings c).names := by
  have same : (clientSettings c).names = (clientSettings defaultClientConfig).names := rfl
  rw [same]
  decide +kernel

/-- A configuration of a client is read back from a file with its values. -/
theorem loadClientConfig_file (c : ClientConfig)
    (valid : ∀ s ∈ clientSettings c, ∀ e ∈ s.2, e.2.Valid) :
    loadClientConfig (.ok (writeINI (clientSettings c).doc)) = .ok c := by
  obtain ⟨table, loaded, held⟩ := Settings.load (wellNamed_clientConfig c) valid
  have mtu : Int64.ofInt (getInt table (ascii "tunnel") (ascii "mtu")
      defaultClientConfig.tunnelMTU.toInt) = c.tunnelMTU := by
    rw [held.getInt 4 0 rfl rfl, Int64.ofInt_toInt]
  have same : clientConfigOf table = c := by
    cases c
    simp only [clientConfigOf, ClientConfig.mk.injEq]
    exact ⟨held.getStringSlice 0 0 rfl rfl, held.getInt 0 1 rfl rfl, held.getString 0 2 rfl rfl,
      held.getString 1 0 rfl rfl, held.getString 1 1 rfl rfl, held.getStringSlice 2 0 rfl rfl,
      held.getInt 2 1 rfl rfl, held.getInt 2 2 rfl rfl, held.getBool 2 3 rfl rfl,
      held.getInt 3 0 rfl rfl, held.getInt 3 1 rfl rfl, held.getBool 3 2 rfl rfl,
      held.getString 3 3 rfl rfl, mtu, held.getInt 4 1 rfl rfl,
      held.getBool 4 2 rfl rfl, held.getString 5 0 rfl rfl, held.getString 6 0 rfl rfl,
      held.getString 6 1 rfl rfl, held.getString 7 0 rfl rfl, held.getString 8 0 rfl rfl,
      held.getString 8 1 rfl rfl⟩
  rw [loadClientConfig, loaded, Except.map, same]

/-- A client that differs from the defaults in a field of each kind. -/
def sampleClientConfig : ClientConfig :=
  { defaultClientConfig with
    bootstrap := [ascii "mesh.example:29683", ascii "[fd00::1]:29683"]
    listenPort := 5000
    nodeID := ascii "node-1"
    autoJoin := ascii "games = all"
    stunServers := [ascii "10.0.0.9:3478"]
    predictSamples := -3
    stunIPv6 := false
    turnEnabled := true
    turnAddr := ascii "turn.example:3478"
    tunnelMTU := 9000
    portControlPolicy := ascii "allow"
    logFile := ascii "client log.txt" }

/-- The sample and the defaults can stand in a file. -/
theorem sampleClientConfig_read :
    loadClientConfig (.ok (writeINI (clientSettings sampleClientConfig).doc)) =
        .ok sampleClientConfig ∧
      loadClientConfig (.ok (writeINI (clientSettings defaultClientConfig).doc)) =
        .ok defaultClientConfig :=
  ⟨loadClientConfig_file sampleClientConfig (by decide +kernel),
    loadClientConfig_file defaultClientConfig (by decide +kernel)⟩

section Addresses

/-- `strings.LastIndex` of a single character. -/
def lastIndex (s : Bytes) (byte : UInt8) : Option Nat :=
  if byte ∈ s then some (s.length - 1 - s.reverse.idxOf byte) else none

/-- What an address is refused for. -/
inductive HostPortError where
  | invalidIPv6 (addr : Bytes)
  | missingPort (addr : Bytes)
  | invalidPort (addr port : Bytes)
deriving DecidableEq

/-- The texts of the errors, given the quoting of `%q` and what `strconv.Atoi` says. -/
def HostPortError.text (quote atoiError : Bytes → String) : HostPortError → String
  | .invalidIPv6 addr => "invalid IPv6 address: " ++ quote addr
  | .missingPort addr => "missing port: " ++ quote addr
  | .invalidPort addr port => "invalid port in " ++ quote addr ++ ": " ++ atoiError port

/-- A host and a port as `%s:%d` prints them. -/
def hostPort (host : Bytes) (port : Int) : Bytes :=
  host ++ 0x3A :: itoa port

/-- `ServerConfig.HostPort`. -/
def ServerConfig.hostPort (c : ServerConfig) : Bytes :=
  Ini.hostPort c.host c.port

/-- `ServerConfig.APIHostPort`. -/
def ServerConfig.apiHostPort (c : ServerConfig) : Bytes :=
  Ini.hostPort c.apiHost c.apiPort

/-- The port, at the end of both branches of `ParseHostPort`. -/
def parsePort (addr host port : Bytes) : Except HostPortError (Bytes × Int) :=
  match atoi port with
  | none => .error (.invalidPort addr port)
  | some n => .ok (host, n)

/-- `ParseHostPort`. -/
def parseHostPort (addr : Bytes) : Except HostPortError (Bytes × Int) :=
  if addr.head? = some 0x5B then
    match lastIndex addr 0x5D with
    | none => .error (.invalidIPv6 addr)
    | some last =>
        let host := (addr.take last).drop 1
        let rest := addr.drop (last + 1)
        if rest.head? = some 0x3A then parsePort addr host (rest.drop 1)
        else .error (.missingPort addr)
  else
    match lastIndex addr 0x3A with
    | none => .error (.missingPort addr)
    | some idx => parsePort addr (addr.take idx) (addr.drop (idx + 1))

/-- The last occurrence of a byte is the one that no other follows. -/
theorem lastIndex_append {before after : Bytes} {byte : UInt8} (absent : byte ∉ after) :
    lastIndex (before ++ byte :: after) byte = some before.length := by
  have member : byte ∈ before ++ byte :: after := List.mem_append_right _ List.mem_cons_self
  have turned : (before ++ byte :: after).reverse = after.reverse ++ byte :: before.reverse := by
    simp
  have missing : byte ∉ after.reverse := fun inside => absent (List.mem_reverse.mp inside)
  rw [lastIndex, if_pos member, turned, List.idxOf_append_of_notMem missing,
    List.idxOf_cons_self, List.length_reverse, List.length_append, List.length_cons]
  congr 1
  omega

/-- A number is written with digits and a sign only. -/
theorem not_mem_itoa {byte : UInt8} (other : isDigit byte = false) (sign : byte ≠ 0x2D)
    (port : Int) : byte ∉ itoa port := by
  intro member
  rcases mem_itoa member with digit | minus
  · rw [digit] at other
    cases other
  · exact sign minus

theorem drop_hostPort (host : Bytes) (port : Int) :
    (hostPort host port).drop host.length = 0x3A :: itoa port :=
  List.drop_left

variable {port : Int}

/-- A port that was written in decimal is read back. -/
theorem parsePort_itoa (low : -2 ^ 63 ≤ port) (high : port < 2 ^ 63) (addr host : Bytes) :
    parsePort addr host (itoa port) = .ok (host, port) := by
  rw [parsePort, atoi_itoa low high]

/-- The last colon is that of the port, so that the host may have others. -/
theorem parseHostPort_plain (low : -2 ^ 63 ≤ port) (high : port < 2 ^ 63) {host : Bytes}
    (plain : host.head? ≠ some 0x5B) : parseHostPort (hostPort host port) = .ok (host, port) := by
  have head : (hostPort host port).head? ≠ some 0x5B := by
    cases host with
    | nil => exact fun same => absurd (Option.some.inj same) (by decide)
    | cons first rest => exact plain
  have position : lastIndex (hostPort host port) 0x3A = some host.length :=
    lastIndex_append (not_mem_itoa (by decide) (by decide) port)
  have before : (hostPort host port).take host.length = host := List.take_left
  have after : (hostPort host port).drop (host.length + 1) = itoa port := by
    rw [← List.drop_drop, drop_hostPort]
    rfl
  rw [parseHostPort, if_neg head, position]
  simp only [before, after, parsePort_itoa low high]

/-- The brackets of a host do not come back. -/
theorem parseHostPort_bracketed (low : -2 ^ 63 ≤ port) (high : port < 2 ^ 63) (host : Bytes) :
    parseHostPort (hostPort (0x5B :: host ++ [0x5D]) port) = .ok (host, port) := by
  have absent : (0x5D : UInt8) ∉ 0x3A :: itoa port := by
    rw [List.mem_cons, not_or]
    exact ⟨by decide, not_mem_itoa (by decide) (by decide) port⟩
  have split : hostPort (0x5B :: host ++ [0x5D]) port =
      0x5B :: host ++ 0x5D :: 0x3A :: itoa port := by
    rw [hostPort, List.append_assoc, List.singleton_append]
  have position : lastIndex (0x5B :: host ++ 0x5D :: 0x3A :: itoa port) 0x5D =
      some (0x5B :: host).length := lastIndex_append absent
  have head : (0x5B :: host ++ 0x5D :: 0x3A :: itoa port).head? = some 0x5B := rfl
  rw [split, parseHostPort, if_pos head, position]
  have before : (0x5B :: host ++ 0x5D :: 0x3A :: itoa port).take (0x5B :: host).length =
      0x5B :: host := List.take_left
  have after : (0x5B :: host ++ 0x5D :: 0x3A :: itoa port).drop ((0x5B :: host).length + 1) =
      0x3A :: itoa port := by
    rw [← List.drop_drop, List.drop_left]
    rfl
  simp only [before, after, List.head?_cons, List.drop_one, List.tail_cons, ↓reduceIte,
    parsePort_itoa low high]

/-- The host that a configured host names: itself, or what its brackets hold. -/
def Names (configured host : Bytes) : Prop :=
  configured = host ∧ host.head? ≠ some 0x5B ∨ configured = 0x5B :: host ++ [0x5D]

/-- The address that is made of a host and a port is taken apart into the host it names and the
port. -/
theorem parseHostPort_hostPort (low : 1 ≤ port) (high : port ≤ 65535) {configured host : Bytes}
    (names : Names configured host) :
    parseHostPort (hostPort configured port) = .ok (host, port) := by
  rcases names with ⟨rfl, plain⟩ | rfl
  · exact parseHostPort_plain (by omega) (by omega) plain
  · exact parseHostPort_bracketed (by omega) (by omega) host

/-- The addresses of an accepted configuration of the server are taken apart into what they
were made of, where its hosts do not open a bracket that they leave open. -/
theorem ServerConfig.parseHostPort_addresses {c : ServerConfig} (accepted : c.validate = none) :
    (∀ host, Names c.host host → parseHostPort c.hostPort = .ok (host, c.port)) ∧
      ∀ host, Names c.apiHost host → parseHostPort c.apiHostPort = .ok (host, c.apiPort) := by
  obtain ⟨⟨low, high⟩, apiLow, apiHigh⟩ := ServerConfig.ports_of_validate accepted
  exact ⟨fun host names => parseHostPort_hostPort low high names,
    fun host names => parseHostPort_hostPort apiLow apiHigh names⟩

/-- An IPv6 address as it is and one in brackets. -/
theorem sampleServerConfig_addresses :
    sampleServerConfig.validate = none ∧
      sampleServerConfig.hostPort = ascii "fd00::1:4000" ∧
      parseHostPort sampleServerConfig.hostPort = .ok (ascii "fd00::1", 4000) ∧
        sampleServerConfig.apiHostPort = ascii "[::1]:29684" ∧
        parseHostPort sampleServerConfig.apiHostPort = .ok (ascii "::1", 29684) := by
  have accepted : sampleServerConfig.validate = none := by decide
  have parsed := ServerConfig.parseHostPort_addresses accepted
  exact ⟨accepted, by decide, parsed.1 _ (.inl ⟨rfl, by decide⟩), by decide,
    parsed.2 _ (.inr rfl)⟩

/-- An accepted configuration may have a host whose address is refused. -/
theorem parseHostPort_openBracket {host : Bytes} (absent : 0x5D ∉ host) (port : Int) :
    parseHostPort (hostPort (0x5B :: host) port) =
      .error (.invalidIPv6 (hostPort (0x5B :: host) port)) := by
  have missing : (0x5D : UInt8) ∉ hostPort (0x5B :: host) port := by
    simp [hostPort, absent, not_mem_itoa (show isDigit 0x5D = false by decide) (by decide) port]
  have head : (hostPort (0x5B :: host) port).head? = some 0x5B := rfl
  rw [parseHostPort, if_pos head, lastIndex, if_neg missing]

end Addresses

end P2pMesh.Ini
