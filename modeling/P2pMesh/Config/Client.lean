import P2pMesh.Foundation.BigEndian

/-! # The configuration of a client

`ClientConfig` of `internal/config/client_config.go` with its defaults and its check, and
`Config.Validate` of `pkg/client/client.go` with the fields that it checks. Both checks bound the
MTU of the tunnels from below only (`P2pMesh.configuredMTU_iff`).
-/

namespace P2pMesh

open Foundation

/-- What a configuration of a client is refused for. -/
inductive ConfigError where
  | noBootstrap
  | mtuTooSmall (mtu : Int64)
  | policy (text : Bytes)
  | logLevel (text : Bytes)
deriving DecidableEq

/-- The texts of the errors, given the quoting of `%q`. -/
def ConfigError.text (quote : Bytes → String) : ConfigError → String
  | .noBootstrap => "no bootstrap servers configured"
  | .mtuTooSmall mtu => "tunnel MTU " ++ toString mtu ++ " too small"
  | .policy text => "invalid port control policy " ++ quote text
  | .logLevel text => "invalid log level " ++ quote text

/-- The checks that both configurations start with. -/
def validateTunnels (bootstrap : List Bytes) (tunnelMTU : Int64) (portControlPolicy : Bytes) :
    Option ConfigError :=
  if bootstrap.length = 0 then some .noBootstrap
  else if tunnelMTU < 576 then some (.mtuTooSmall tunnelMTU)
  else if portControlPolicy = ascii "deny" ∨ portControlPolicy = ascii "allow" then none
  else some (.policy portControlPolicy)

/-- `config.ClientConfig`. The MTU is the machine integer that the tunnels compute with. -/
structure ClientConfig where
  bootstrap : List Bytes
  listenPort : Int
  nodeID : Bytes
  autoJoin : Bytes
  roomKey : Bytes
  stunServers : List Bytes
  stunTimeout : Int
  predictSamples : Int
  stunIPv6 : Bool
  predictWindow : Int
  predictParallel : Int
  turnEnabled : Bool
  turnAddr : Bytes
  tunnelMTU : Int64
  kcpWindow : Int
  allowUnreliableFallback : Bool
  networkCIDR : Bytes
  portControlPolicy : Bytes
  portControlDB : Bytes
  keyFile : Bytes
  logLevel : Bytes
  logFile : Bytes
deriving DecidableEq

/-- `DefaultClientConfig`. -/
def defaultClientConfig : ClientConfig where
  bootstrap := []
  listenPort := 0
  nodeID := []
  autoJoin := []
  roomKey := []
  stunServers := [ascii "stun.l.google.com:19302", ascii "stun1.l.google.com:19302",
    ascii "stun2.l.google.com:19302", ascii "stun.cloudflare.com:3478"]
  stunTimeout := 3000
  predictSamples := 8
  stunIPv6 := true
  predictWindow := 64
  predictParallel := 256
  turnEnabled := false
  turnAddr := []
  tunnelMTU := 1280
  kcpWindow := 256
  allowUnreliableFallback := false
  networkCIDR := ascii "fd00:9bd8::/64"
  portControlPolicy := ascii "deny"
  portControlDB := ascii "portcontrol.db"
  keyFile := ascii "identity.key"
  logLevel := ascii "info"
  logFile := []

/-- `ClientConfig.Validate`. -/
def ClientConfig.validate (c : ClientConfig) : Option ConfigError :=
  match validateTunnels c.bootstrap c.tunnelMTU c.portControlPolicy with
  | some err => some err
  | none =>
      if c.logLevel = ascii "debug" ∨ c.logLevel = ascii "info" ∨ c.logLevel = ascii "warn" ∨
          c.logLevel = ascii "error" then none
      else some (.logLevel c.logLevel)

namespace Client

/-- The fields of `client.Config` that `Validate` checks; it does not look at the log level. -/
structure Config where
  bootstrap : List Bytes
  tunnelMTU : Int64
  portControlPolicy : Bytes
deriving DecidableEq

/-- `DefaultConfig`. -/
def defaultConfig : Config :=
  ⟨[], 1280, ascii "deny"⟩

/-- `Config.Validate`. -/
def Config.validate (c : Config) : Option ConfigError :=
  validateTunnels c.bootstrap c.tunnelMTU c.portControlPolicy

end Client

/-- The MTU of a configuration that passes its check. -/
inductive ConfiguredMTU (mtu : Int64) : Prop where
  | file (c : ClientConfig) : c.validate = none → c.tunnelMTU = mtu → ConfiguredMTU mtu
  | runtime (c : Client.Config) : c.validate = none → c.tunnelMTU = mtu → ConfiguredMTU mtu

/-- The defaults only lack a bootstrap server: they pass their checks with one. -/
theorem validate_defaults {bootstrap : List Bytes} (some : bootstrap ≠ []) :
    defaultClientConfig.validate = Option.some .noBootstrap ∧
      { defaultClientConfig with bootstrap := bootstrap }.validate = none ∧
        { Client.defaultConfig with bootstrap := bootstrap }.validate = none := by
  have listed : bootstrap.length ≠ 0 := List.length_eq_zero_iff.not.mpr some
  have large : ¬ (1280 : Int64) < 576 := by decide
  refine ⟨rfl, ?_⟩
  simp [ClientConfig.validate, Client.Config.validate, validateTunnels, defaultClientConfig,
    Client.defaultConfig, listed, large]

/-- An accepted configuration has an MTU of at least 576. -/
theorem mtu_of_validateTunnels {bootstrap : List Bytes} {mtu : Int64} {policy : Bytes}
    (valid : validateTunnels bootstrap mtu policy = none) : 576 ≤ mtu.toInt := by
  unfold validateTunnels at valid
  split at valid
  · cases valid
  split at valid
  · cases valid
  next large => exact not_lt.mp fun small => large (Int64.lt_iff_toInt_lt.mpr small)

/-- Every MTU from 576 on is accepted, however large. -/
theorem configuredMTU_iff (mtu : Int64) : ConfiguredMTU mtu ↔ 576 ≤ mtu.toInt := by
  constructor
  · intro configured
    cases configured with
    | file c valid same =>
        subst same
        unfold ClientConfig.validate at valid
        split at valid
        · cases valid
        next checked => exact mtu_of_validateTunnels checked
    | runtime c valid same =>
        subst same
        exact mtu_of_validateTunnels valid
  · intro large
    have notSmall : ¬ mtu < 576 := fun small =>
      absurd large (not_le.mpr (Int64.lt_iff_toInt_lt.mp small))
    refine .runtime ⟨[ascii "master:9000"], mtu, ascii "deny"⟩ ?_ rfl
    simp [Client.Config.validate, validateTunnels, notSmall]

end P2pMesh
