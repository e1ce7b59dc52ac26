import Interlink.Common.Config
import Interlink.Foundation.Decimal

/-!
# The layers of the configuration

`load` starts from the built-in defaults, merges a JSON file over them and the environment
over both.  Reading JSON is serde's: an object gives some of the fields, with values of
their types, where a `null` leaves an optional field unset and is an error for the others.
The derived deserializer rejects an object that lacks a field which is neither optional
nor has a default.
-/

namespace Interlink

open Interlink.Foundation

/-- The runtime configuration with the fields that only `main` reads. -/
structure LoadedConfig extends Config where
  metricsPort : UInt16
  logLevel : Str
  caBundlePath : Option Str
  certPath : Option Str
  keyPath : Option Str
  deriving DecidableEq, Repr

structure FileFields where
  trustDomain : Option Str
  identity : Option Str
  proxyInboundPort : Option UInt16
  proxyOutboundPort : Option UInt16
  metricsPort : Option UInt16
  logLevel : Option Str
  maxConnections : Option Nat
  caBundlePath : Option Str
  certPath : Option Str
  keyPath : Option Str
  defaultUpstream : Option Str
  mux : Option Bool
  deriving DecidableEq, Repr

/--
What serde does with a text: the fields it gives or an error, and the text of the error
for a missing field.
-/
structure Serde where
  fields : Str → Except Str FileFields
  missing : (field : Str) → (text : Str) → Str

abbrev Environment := Str → Option Str

/-- The contents of the file at a path, or the error of reading it; `none` if it does not exist. -/
abbrev ConfigFiles := Str → Option (Except Str Str)

/-! ## The file -/

namespace FileFields

def Complete (fields : FileFields) : Prop :=
  fields.trustDomain.isSome ∧ fields.proxyInboundPort.isSome ∧ fields.proxyOutboundPort.isSome ∧
    fields.metricsPort.isSome ∧ fields.logLevel.isSome ∧ fields.maxConnections.isSome

instance (fields : FileFields) : Decidable fields.Complete :=
  inferInstanceAs (Decidable (_ ∧ _))

def required {α : Type} (missing : Str → Str) (name : Str) : Option α → Except Str α
  | some value => .ok value
  | none => .error (missing name)

/-- The derived deserializer, with `default_mux_true` for `mux`. -/
def deserialize (missing : Str → Str) (fields : FileFields) : Except Str LoadedConfig := do
  let trustDomain ← required missing "trust_domain".toList fields.trustDomain
  let proxyInboundPort ← required missing "proxy_inbound_port".toList fields.proxyInboundPort
  let proxyOutboundPort ← required missing "proxy_outbound_port".toList fields.proxyOutboundPort
  let metricsPort ← required missing "metrics_port".toList fields.metricsPort
  let logLevel ← required missing "log_level".toList fields.logLevel
  let maxConnections ← required missing "max_connections".toList fields.maxConnections
  return {
    trustDomain, proxyInboundPort, proxyOutboundPort, metricsPort, logLevel, maxConnections
    identity := fields.identity
    caBundlePath := fields.caBundlePath
    certPath := fields.certPath
    keyPath := fields.keyPath
    defaultUpstream := fields.defaultUpstream
    mux := fields.mux.getD true }

end FileFields

def Serde.fromStr (serde : Serde) (text : Str) : Except Str LoadedConfig := do
  let fields ← serde.fields text
  fields.deserialize (serde.missing · text)

namespace LoadedConfig

def default : LoadedConfig where
  toConfig := Config.default
  metricsPort := 4190
  logLevel := "info".toList
  caBundlePath := none
  certPath := none
  keyPath := none

def merge (self file : LoadedConfig) : LoadedConfig where
  trustDomain := file.trustDomain
  identity := if file.identity.isSome then file.identity else self.identity
  proxyInboundPort := file.proxyInboundPort
  proxyOutboundPort := file.proxyOutboundPort
  metricsPort := file.metricsPort
  logLevel := file.logLevel
  maxConnections := file.maxConnections
  caBundlePath := if file.caBundlePath.isSome then file.caBundlePath else self.caBundlePath
  certPath := if file.certPath.isSome then file.certPath else self.certPath
  keyPath := if file.keyPath.isSome then file.keyPath else self.keyPath
  defaultUpstream :=
    if file.defaultUpstream.isSome then file.defaultUpstream else self.defaultUpstream
  mux := file.mux

def withFile (serde : Serde) (contents : Except Str Str) (self : LoadedConfig) :
    Except InterlinkError LoadedConfig := do
  let text ← contents.mapError fun e => .config ("failed to read config file: ".toList ++ e)
  let file ← (serde.fromStr text).mapError fun e =>
    .config ("invalid config file: ".toList ++ e)
  return self.merge file

/-! ## The environment -/

def parsePort (s : Str) : Except InterlinkError UInt16 :=
  match Decimal.parseUnsigned (2 ^ 16) s with
  | .ok port => .ok port.toUInt16
  | .error e => .error (.config ("invalid port '".toList ++ s ++ "': ".toList ++ e))

/-- `parse::<usize>` on a 64-bit target. -/
def parseMaxConnections (s : Str) : Except InterlinkError Nat :=
  (Decimal.parseUnsigned (2 ^ 64) s).mapError fun e =>
    .config ("INTERLINK_MAX_CONNECTIONS: ".toList ++ e)

def muxValue (s : Str) : Bool :=
  s ≠ "false".toList && s ≠ "0".toList

/-- One `if let Ok(v) = std::env::var(..)` of `with_env`. -/
def fromEnv {α : Type} (given : Option Str) (parse : Str → Except InterlinkError α)
    (current : α) : Except InterlinkError α :=
  match given with
  | some v => parse v
  | none => .ok current

def withEnv (env : Environment) (self : LoadedConfig) : Except InterlinkError LoadedConfig := do
  let trustDomain ← fromEnv (env "INTERLINK_TRUST_DOMAIN".toList) .ok self.trustDomain
  let identity ← fromEnv (env "INTERLINK_IDENTITY".toList) (.ok ∘ some) self.identity
  let proxyInboundPort ←
    fromEnv (env "INTERLINK_PROXY_INBOUND_PORT".toList) parsePort self.proxyInboundPort
  let proxyOutboundPort ←
    fromEnv (env "INTERLINK_PROXY_OUTBOUND_PORT".toList) parsePort self.proxyOutboundPort
  let metricsPort ← fromEnv (env "INTERLINK_METRICS_PORT".toList) parsePort self.metricsPort
  let logLevel ← fromEnv (env "INTERLINK_LOG_LEVEL".toList) .ok self.logLevel
  let maxConnections ←
    fromEnv (env "INTERLINK_MAX_CONNECTIONS".toList) parseMaxConnections self.maxConnections
  let caBundlePath ← fromEnv (env "INTERLINK_CA_BUNDLE_PATH".toList) (.ok ∘ some) self.caBundlePath
  let certPath ← fromEnv (env "INTERLINK_CERT_PATH".toList) (.ok ∘ some) self.certPath
  let keyPath ← fromEnv (env "INTERLINK_KEY_PATH".toList) (.ok ∘ some) self.keyPath
  let defaultUpstream ←
    fromEnv (env "INTERLINK_DEFAULT_UPSTREAM".toList) (.ok ∘ some) self.defaultUpstream
  let mux ← fromEnv (env "INTERLINK_MUX".toList) (.ok ∘ muxValue) self.mux
  return {
    trustDomain, identity, proxyInboundPort, proxyOutboundPort, metricsPort, logLevel,
    maxConnections, caBundlePath, certPath, keyPath, defaultUpstream, mux }

/-! ## All layers -/

def configFile (env : Environment) : Str :=
  ((env "INTERLINK_CONFIG_FILE".toList).filter fun s => s ≠ []).getD
    "/etc/interlink/config.json".toList

/-- `load` up to `validate`. -/
def layers (serde : Serde) (env : Environment) (files : ConfigFiles) :
    Except InterlinkError LoadedConfig := do
  let config ← match files (configFile env) with
    | some contents => default.withFile serde contents
    | none => .ok default
  config.withEnv env

def load (serde : Serde) (env : Environment) (files : ConfigFiles) :
    Except InterlinkError LoadedConfig := do
  let config ← layers serde env files
  config.toConfig.validate
  return config

/-! ## Precedence -/

def portValue (s : Str) : Option UInt16 :=
  (Decimal.parseUnsigned (2 ^ 16) s).toOption.map Nat.toUInt16

end LoadedConfig

structure Environment.WellFormed (env : Environment) : Prop where
  proxyInboundPort : ∀ v, env "INTERLINK_PROXY_INBOUND_PORT".toList = some v →
    ∃ port, Decimal.parseUnsigned (2 ^ 16) v = .ok port
  proxyOutboundPort : ∀ v, env "INTERLINK_PROXY_OUTBOUND_PORT".toList = some v →
    ∃ port, Decimal.parseUnsigned (2 ^ 16) v = .ok port
  metricsPort : ∀ v, env "INTERLINK_METRICS_PORT".toList = some v →
    ∃ port, Decimal.parseUnsigned (2 ^ 16) v = .ok port
  maxConnections : ∀ v, env "INTERLINK_MAX_CONNECTIONS".toList = some v →
    ∃ count, Decimal.parseUnsigned (2 ^ 64) v = .ok count

namespace LoadedConfig

/--
Every field is the environment's if that sets it, else the file's if that gives it, else
the default.
-/
structure Layered (env : Environment) (file : Option FileFields) (config : LoadedConfig) :
    Prop where
  trustDomain : config.trustDomain = ((env "INTERLINK_TRUST_DOMAIN".toList).or
    (file.bind (·.trustDomain))).getD default.trustDomain
  identity : config.identity = ((env "INTERLINK_IDENTITY".toList).or
    (file.bind (·.identity))).or default.identity
  proxyInboundPort : config.proxyInboundPort =
    (((env "INTERLINK_PROXY_INBOUND_PORT".toList).bind portValue).or
      (file.bind (·.proxyInboundPort))).getD default.proxyInboundPort
  proxyOutboundPort : config.proxyOutboundPort =
    (((env "INTERLINK_PROXY_OUTBOUND_PORT".toList).bind portValue).or
      (file.bind (·.proxyOutboundPort))).getD default.proxyOutboundPort
  metricsPort : config.metricsPort =
    (((env "INTERLINK_METRICS_PORT".toList).bind portValue).or
      (file.bind (·.metricsPort))).getD default.metricsPort
  logLevel : config.logLevel = ((env "INTERLINK_LOG_LEVEL".toList).or
    (file.bind (·.logLevel))).getD default.logLevel
  maxConnections : config.maxConnections =
    (((env "INTERLINK_MAX_CONNECTIONS".toList).bind fun v =>
      (Decimal.parseUnsigned (2 ^ 64) v).toOption).or
        (file.bind (·.maxConnections))).getD default.maxConnections
  caBundlePath : config.caBundlePath = ((env "INTERLINK_CA_BUNDLE_PATH".toList).or
    (file.bind (·.caBundlePath))).or default.caBundlePath
  certPath : config.certPath = ((env "INTERLINK_CERT_PATH".toList).or
    (file.bind (·.certPath))).or default.certPath
  keyPath : config.keyPath = ((env "INTERLINK_KEY_PATH".toList).or
    (file.bind (·.keyPath))).or default.keyPath
  defaultUpstream : config.defaultUpstream = ((env "INTERLINK_DEFAULT_UPSTREAM".toList).or
    (file.bind (·.defaultUpstream))).or default.defaultUpstream
  mux : config.mux = (((env "INTERLINK_MUX".toList).map muxValue).or
    (file.bind (·.mux))).getD default.mux

variable {env : Environment} {file : Option FileFields} {fields : FileFields} {serde : Serde}
  {files : ConfigFiles} {self config : LoadedConfig} {given : Option Str}

theorem layered_default : Layered (fun _ => none) none default :=
  ⟨rfl, rfl, rfl, rfl, rfl, rfl, rfl, rfl, rfl, rfl, rfl, rfl⟩

theorem required_eq_ok {α : Type} {missing : Str → Str} {name : Str} {field : Option α}
    {value : α} : FileFields.required missing name field = .ok value ↔ field = some value := by
  cases field <;> simp [FileFields.required]

theorem deserialize_isOk_iff {missing : Str → Str} :
    (∃ config, fields.deserialize missing = .ok config) ↔ fields.Complete := by
  simp only [FileFields.deserialize, bind_eq_ok, required_eq_ok, FileFields.Complete,
    Option.isSome_iff_exists]
  constructor
  · rintro ⟨config, domain, hdomain, inbound, hinbound, outbound, houtbound, metrics, hmetrics,
      level, hlevel, connections, hconnections, -⟩
    exact ⟨⟨domain, hdomain⟩, ⟨inbound, hinbound⟩, ⟨outbound, houtbound⟩, ⟨metrics, hmetrics⟩,
      ⟨level, hlevel⟩, ⟨connections, hconnections⟩⟩
  · rintro ⟨⟨domain, hdomain⟩, ⟨inbound, hinbound⟩, ⟨outbound, houtbound⟩, ⟨metrics, hmetrics⟩,
      ⟨level, hlevel⟩, ⟨connections, hconnections⟩⟩
    exact ⟨_, domain, hdomain, inbound, hinbound, outbound, houtbound, metrics, hmetrics, level,
      hlevel, connections, hconnections, rfl⟩

theorem layered_merge {missing : Str → Str} (h : fields.deserialize missing = .ok config) :
    Layered (fun _ => none) (some fields) (default.merge config) := by
  have hmerged : ∀ given builtIn : Option Str,
      (if given.isSome then given else builtIn) = (Option.or none given).or builtIn := by
    intro given builtIn
    cases given <;> rfl
  simp only [FileFields.deserialize, bind_eq_ok, required_eq_ok] at h
  obtain ⟨domain, hdomain, inbound, hinbound, outbound, houtbound, metrics, hmetrics, level,
    hlevel, connections, hconnections, hconfig⟩ := h
  cases hconfig
  constructor
  case trustDomain => simp [merge, hdomain]
  case proxyInboundPort => simp [merge, hinbound]
  case proxyOutboundPort => simp [merge, houtbound]
  case metricsPort => simp [merge, hmetrics]
  case logLevel => simp [merge, hlevel]
  case maxConnections => simp [merge, hconnections]
  case mux => rfl
  all_goals exact hmerged _ _

/-! ## The environment over the other layers -/

theorem fromEnv_text (current : Str) : fromEnv given .ok current = .ok (given.getD current) := by
  cases given <;> rfl

theorem fromEnv_some (current : Option Str) :
    fromEnv given (.ok ∘ some) current = .ok (given.or current) := by
  cases given <;> rfl

theorem fromEnv_mux (current : Bool) :
    fromEnv given (.ok ∘ muxValue) current = .ok ((given.map muxValue).getD current) := by
  cases given <;> rfl

theorem fromEnv_parsePort
    (h : ∀ v, given = some v → ∃ port, Decimal.parseUnsigned (2 ^ 16) v = .ok port)
    (current : UInt16) :
    fromEnv given parsePort current = .ok ((given.bind portValue).getD current) := by
  cases given with
  | none => rfl
  | some v =>
      obtain ⟨port, hport⟩ := h v rfl
      simp only [fromEnv, parsePort, portValue, hport, Option.bind_some]
      rfl

theorem fromEnv_parseMaxConnections
    (h : ∀ v, given = some v → ∃ count, Decimal.parseUnsigned (2 ^ 64) v = .ok count)
    (current : Nat) :
    fromEnv given parseMaxConnections current = .ok ((given.bind fun v =>
      (Decimal.parseUnsigned (2 ^ 64) v).toOption).getD current) := by
  cases given with
  | none => rfl
  | some v =>
      obtain ⟨count, hcount⟩ := h v rfl
      simp only [fromEnv, parseMaxConnections, hcount, Option.bind_some]
      rfl

theorem layered_withEnv (hwell : env.WellFormed) (h : Layered (fun _ => none) file self) :
    ∃ config, self.withEnv env = .ok config ∧ Layered env file config := by
  have hgetD : ∀ {α : Type} (given fromFile : Option α) (builtIn : α),
      given.getD ((Option.or none fromFile).getD builtIn) = (given.or fromFile).getD builtIn := by
    intro α given fromFile builtIn
    cases given <;> rfl
  have hor : ∀ given fromFile builtIn : Option Str,
      given.or ((Option.or none fromFile).or builtIn) = (given.or fromFile).or builtIn := by
    intro given fromFile builtIn
    cases given <;> rfl
  simp only [withEnv, fromEnv_text, fromEnv_some, fromEnv_mux,
    fromEnv_parsePort hwell.proxyInboundPort, fromEnv_parsePort hwell.proxyOutboundPort,
    fromEnv_parsePort hwell.metricsPort, fromEnv_parseMaxConnections hwell.maxConnections]
  refine ⟨_, rfl, ?_⟩
  constructor
  case trustDomain => exact h.trustDomain ▸ hgetD _ _ _
  case identity => exact h.identity ▸ hor _ _ _
  case proxyInboundPort => exact h.proxyInboundPort ▸ hgetD _ _ _
  case proxyOutboundPort => exact h.proxyOutboundPort ▸ hgetD _ _ _
  case metricsPort => exact h.metricsPort ▸ hgetD _ _ _
  case logLevel => exact h.logLevel ▸ hgetD _ _ _
  case maxConnections => exact h.maxConnections ▸ hgetD _ _ _
  case caBundlePath => exact h.caBundlePath ▸ hor _ _ _
  case certPath => exact h.certPath ▸ hor _ _ _
  case keyPath => exact h.keyPath ▸ hor _ _ _
  case defaultUpstream => exact h.defaultUpstream ▸ hor _ _ _
  case mux => exact h.mux ▸ hgetD _ _ _

def Gives (serde : Serde) (files : ConfigFiles) (path : Str) : Option FileFields → Prop
  | none => files path = none
  | some fields => ∃ text, files path = some (.ok text) ∧ serde.fields text = .ok fields

theorem withFile_eq_ok {text : Str} (hfields : serde.fields text = .ok fields) :
    self.withFile serde (.ok text) = .ok config ↔
      ∃ file, fields.deserialize (serde.missing · text) = .ok file ∧ self.merge file = config := by
  have htext : serde.fromStr text = fields.deserialize (serde.missing · text) := by
    rw [Serde.fromStr, hfields]
    rfl
  simp only [withFile, bind_eq_ok, mapError_eq_ok, Except.ok.injEq, exists_eq_left', htext,
    pure, Except.pure]

/--
The layers are merged field by field just when there is no file or the file gives all the
fields without a default of their own.
-/
theorem layers_merged_iff (hwell : env.WellFormed)
    (hfile : Gives serde files (configFile env) file) :
    (∃ config, layers serde env files = .ok config ∧ Layered env file config) ↔
      ∀ fields, file = some fields → fields.Complete := by
  cases file with
  | none =>
      have hnone : files (configFile env) = none := hfile
      have hlayers : layers serde env files = default.withEnv env := by
        simp only [layers, hnone]
        rfl
      rw [hlayers]
      exact iff_of_true (layered_withEnv hwell layered_default) (by simp)
  | some fields =>
      obtain ⟨text, htext, hfields⟩ := hfile
      have hlayers : layers serde env files =
          default.withFile serde (.ok text) >>= withEnv env := by
        simp only [layers, htext]
      simp only [hlayers, bind_eq_ok, withFile_eq_ok hfields]
      constructor
      · rintro ⟨config, ⟨merged, ⟨file, hdeserialize, -⟩, -⟩, -⟩ _ ⟨⟩
        exact deserialize_isOk_iff.mp ⟨file, hdeserialize⟩
      · intro hcomplete
        obtain ⟨file, hdeserialize⟩ := deserialize_isOk_iff.mpr (hcomplete fields rfl)
        obtain ⟨config, hconfig, hlayered⟩ := layered_withEnv hwell (layered_merge hdeserialize)
        exact ⟨config, ⟨_, ⟨file, hdeserialize, rfl⟩, hconfig⟩, hlayered⟩

section Example

private def requiredOnly : FileFields where
  trustDomain := some "mesh.local".toList
  identity := none
  proxyInboundPort := some 15006
  proxyOutboundPort := some 15001
  metricsPort := some 9090
  logLevel := some "warn".toList
  maxConnections := some 512
  caBundlePath := none
  certPath := none
  keyPath := none
  defaultUpstream := none
  mux := none

private def muxOnly : FileFields :=
  ⟨none, none, none, none, none, none, none, none, none, none, none, some false⟩

private def requiredText : Str :=
  "\x7b\"trust_domain\": \"mesh.local\", \"proxy_inbound_port\": 15006, ".toList ++
    "\"proxy_outbound_port\": 15001, \"metrics_port\": 9090, ".toList ++
    "\"log_level\": \"warn\", \"max_connections\": 512\x7d".toList

private def muxText : Str := "\x7b\"mux\": false\x7d".toList

/--
What serde makes of one text.  A missing field is reported at the end of the object, which
is on one line here.
-/
private def reading (text : Str) (given : FileFields) : Serde where
  fields found :=
    if found = text then .ok given else .error "expected value at line 1 column 1".toList
  missing field text :=
    "missing field `".toList ++ field ++ "` at line 1 column ".toList ++
      Nat.toDigits 10 text.length

private def holding (text : Str) : ConfigFiles := fun path =>
  if path = "/etc/interlink/config.json".toList then some (.ok text) else none

private def movedPort : Environment := fun name =>
  if name = "INTERLINK_PROXY_INBOUND_PORT".toList then some "4143".toList else none

theorem requiredOnly_layered :
    ∃ config, layers (reading requiredText requiredOnly) movedPort (holding requiredText) =
        .ok config ∧
      Layered movedPort (some requiredOnly) config := by
  have hport : Decimal.parseUnsigned (2 ^ 16) "4143".toList = .ok 4143 := by rfl
  have hwell : movedPort.WellFormed := by
    constructor
    case proxyInboundPort =>
      rintro v ⟨⟩
      exact ⟨4143, hport⟩
    all_goals
      intro v hv
      cases hv
  have hgives (text : Str) (given : FileFields) : Gives (reading text given) (holding text)
      (configFile movedPort) (some given) :=
    ⟨text, rfl, if_pos rfl⟩
  refine (layers_merged_iff hwell (hgives _ _)).mpr ?_
  rintro _ ⟨⟩
  decide

theorem muxOnly_rejected :
    layers (reading muxText muxOnly) (fun _ => none) (holding muxText) =
      .error (.config
        "invalid config file: missing field `trust_domain` at line 1 column 14".toList) := by
  rfl

end Example

end LoadedConfig

end Interlink
