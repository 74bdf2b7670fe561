import Homescope.PyText
import Homescope.Regex
import Mathlib.Data.List.Sort

/-! The configuration of a host (`deploy/lib/config.py`), from the parsed
`deploy.toml` on. `decimal` are the digits that Unicode has beside those of
ASCII. -/

namespace Homescope

namespace Deploy

inductive Toml
  | string (s : Text)
  | integer (n : Int)
  | boolean (b : Bool)
  | array (items : List Toml)
  | table (entries : List (String × Toml))
  | other (typeName : String)

/-- A table, which has each key once. -/
abbrev Table := List (String × Toml)

namespace Toml

def typeName : Toml → String
  | string _ => "str"
  | integer _ => "int"
  | boolean _ => "bool"
  | array _ => "list"
  | table _ => "dict"
  | other typeName => typeName

def asStr : Toml → Option Text
  | string s => some s
  | _ => none

/-- A boolean is no number. -/
def asInt : Toml → Option Int
  | integer n => some n
  | _ => none

def asBool : Toml → Option Bool
  | boolean b => some b
  | _ => none

end Toml

inductive Component
  | broker
  | api
  | gateway
  deriving DecidableEq, Repr

namespace Component

def all : List Component := [broker, api, gateway]

def name : Component → String
  | broker => "broker"
  | api => "api"
  | gateway => "gateway"

def ofName (name : String) : Option Component := all.find? fun c => c.name = name

def ofToml : Toml → Option Component
  | .string s => ofName (String.ofList s)
  | _ => none

end Component

inductive ConfigError
  | unknownTable (table : String)
  | unknownKeys (table : String) (keys : List String)
  | unknownKey (key : String)
  | componentsList
  | unknownComponent (c : Toml)
  | componentTwice
  | brokerShape
  | tableWithoutComponent (table : String) (owner : Component)
  | wrongType (field kind got : String)
  | siteRequired
  | siteCharacters (site : Text)
  | siteWithoutGateway
  | notAbsolute (field : String) (value : Text)
  | mqttWithBroker
  | mqttHostRequired
  | mqttPortRange (port : Int)
  | apiUserWithoutApi
  | gatewayUserWithoutGateway
  | imageWithoutComponent (name : String)
  | notPublish (field : String) (value : Text)
  | notImage (field : String) (value : Text)

def siteRe : RegularExpression Char :=
  Regex.oneOrMore (Regex.bracket (Regex.charRange 'a' 'z' ++ Regex.charRange '0' '9' ++ ['-']))

def defaultDataDir : Text := "/var/lib/homescope/data".toList
def defaultImageApi : Text := "ghcr.io/eldigh/homescope-api:latest".toList
def defaultImageGateway : Text := "ghcr.io/eldigh/homescope-gateway:latest".toList

/-- The component that a table belongs to, and its keys. -/
def tables : List (String × Option Component × List String) :=
  [("mqtt", none, ["host", "port", "api_user", "gateway_user"]),
    ("api", some .api, ["publish", "db_publish"]),
    ("grafana", some .api, ["enabled", "publish", "root_url", "allow_embedding"]),
    ("backup", some .api, ["dir"]),
    ("images", none, ["api", "gateway"])]

def topLevel : List String := ["components", "site", "data_dir"]

structure Config where
  components : List Component
  site : Text
  dataDir : Text
  brokerLocal : Bool
  mqttHost : Text
  mqttPort : Int
  mqttApiUser : Text
  mqttGatewayUser : Text
  apiPublish : Text
  dbPublish : Text
  grafanaEnabled : Bool
  grafanaPublish : Text
  grafanaRootUrl : Text
  grafanaAllowEmbedding : Bool
  backupDir : Text
  imageApi : Text
  imageGateway : Text

def Config.has (c : Config) (component : Component) : Bool := c.components.contains component

/-- `if bad: raise e`. -/
def raiseIf (bad : Prop) [Decidable bad] (e : ConfigError) : Except ConfigError Unit :=
  if bad then .error e else .ok ()

/-! ### The values -/

def get {α : Type} (as : Toml → Option α) (kind : String) (table : Table) (key : String)
    (default : α) (place : String) : Except ConfigError α :=
  match table.lookup key with
  | none => .ok default
  | some value =>
    match as value with
    | some a => .ok a
    | none => .error (.wrongType (place ++ key) kind value.typeName)

def getStr := @get Text Toml.asStr "str"
def getInt := @get Int Toml.asInt "int"
def getBool := @get Bool Toml.asBool "bool"

/-- `PORT` or `IPv4:PORT`. -/
def publish (decimal : Char → Option Nat) (value : Text) (field : String) :
    Except ConfigError Text :=
  let (host, port) := Py.rpartition ':' value
  if host ≠ [] ∧ Py.ipv4Address host = false then .error (.notPublish field value)
  else
    match Py.int decimal port with
    | none => .error (.notPublish field value)
    | some n => if 1 ≤ n ∧ n ≤ 65535 then .ok value else .error (.notPublish field value)

def absolute (value : Text) (field : String) : Except ConfigError Text :=
  if value.head? ≠ some '/' ∨ '\n' ∈ value then .error (.notAbsolute field value)
  else
    let stripped := Py.rstrip '/' value
    .ok (if stripped = [] then ['/'] else stripped)

def image (value : Text) (field : String) : Except ConfigError Text :=
  if value = [] ∨ value.any Py.isSpace then .error (.notImage field value) else .ok value

/-! ### The file -/

def checkKey : String × Toml → Except ConfigError Unit
  | (key, .table entries) =>
    match tables.lookup key with
    | none => .error (.unknownTable key)
    | some (_, allowed) =>
      let unknown := (entries.map Prod.fst).filter fun k => k ∉ allowed
      raiseIf (unknown ≠ []) (.unknownKeys key (unknown.mergeSort fun a b => a ≤ b))
  | (key, _) => raiseIf (key ∉ topLevel) (.unknownKey key)

def checkKeys (raw : Table) : Except ConfigError Unit := raw.forM checkKey

def readComponents (raw : Table) : Except ConfigError (List Component) :=
  match raw.lookup "components" with
  | some (.array items) => do
    raiseIf (items.isEmpty = true) .componentsList
    let components ← items.mapM fun c => match Component.ofToml c with
      | some component => .ok component
      | none => .error (.unknownComponent c)
    raiseIf (¬components.Nodup) .componentTwice
    return components
  | _ => .error .componentsList

def checkOwner (raw : Table) (has : Component → Bool) :
    String × Option Component × List String → Except ConfigError Unit
  | (table, some owner, _) =>
    raiseIf ((raw.lookup table).isSome ∧ has owner = false) (.tableWithoutComponent table owner)
  | (_, none, _) => .ok ()

def checkOwners (raw : Table) (has : Component → Bool) : Except ConfigError Unit :=
  tables.forM (checkOwner raw has)

def readSite (raw : Table) (has : Component → Bool) : Except ConfigError Text := do
  let site ← getStr raw "site" [] ""
  if has .gateway then do
    raiseIf (site = []) .siteRequired
    raiseIf (Regex.matchesLine '\n' siteRe site = false) (.siteCharacters site)
    return site
  else do
    raiseIf (site ≠ []) .siteWithoutGateway
    return site

/-- `raw.get(key, {})`. -/
def subtable (raw : Table) (key : String) : Table :=
  match raw.lookup key with
  | some (.table entries) => entries
  | _ => []

structure Mqtt where
  host : Text
  port : Int
  apiUser : Text
  gatewayUser : Text

def readMqtt (mqtt : Table) (has : Component → Bool) (site : Text) : Except ConfigError Mqtt :=
  if has .broker then do
    raiseIf (mqtt.isEmpty = false) .mqttWithBroker
    return ⟨"homescope-mqtt".toList, 1883, "homescope-api".toList, "homescope-".toList ++ site⟩
  else do
    let host ← getStr mqtt "host" [] "mqtt."
    raiseIf (host = []) .mqttHostRequired
    let port ← getInt mqtt "port" 1883 "mqtt."
    raiseIf (¬(1 ≤ port ∧ port ≤ 65535)) (.mqttPortRange port)
    let apiUser ← getStr mqtt "api_user" "homescope-api".toList "mqtt."
    let gatewayUser ← getStr mqtt "gateway_user" ("homescope-".toList ++ site) "mqtt."
    raiseIf ((mqtt.lookup "api_user").isSome ∧ has .api = false) .apiUserWithoutApi
    raiseIf ((mqtt.lookup "gateway_user").isSome ∧ has .gateway = false) .gatewayUserWithoutGateway
    return ⟨host, port, apiUser, gatewayUser⟩

def checkImage (has : Component → Bool) : String × Toml → Except ConfigError Unit
  | (name, _) =>
    raiseIf ((Component.ofName name).any has = false) (.imageWithoutComponent name)

def load (decimal : Char → Option Nat) (raw : Table) : Except ConfigError Config := do
  checkKeys raw
  let components ← readComponents raw
  let has := components.contains
  raiseIf (has .broker ∧ ¬(has .api ∧ has .gateway)) .brokerShape
  checkOwners raw has
  let site ← readSite raw has
  let dataDir ← getStr raw "data_dir" defaultDataDir ""
  let dataDir ← absolute dataDir "data_dir"
  let mqtt ← readMqtt (subtable raw "mqtt") has site
  let api := subtable raw "api"
  let grafana := subtable raw "grafana"
  let backup := subtable raw "backup"
  let images := subtable raw "images"
  images.forM (checkImage has)
  let apiPublish ← getStr api "publish" "127.0.0.1:4001".toList "api."
  let apiPublish ← publish decimal apiPublish "api.publish"
  let dbPublish ← getStr api "db_publish" "127.0.0.1:5432".toList "api."
  let dbPublish ← publish decimal dbPublish "api.db_publish"
  let grafanaEnabled ← getBool grafana "enabled" true "grafana."
  let grafanaPublish ← getStr grafana "publish" "4000".toList "grafana."
  let grafanaPublish ← publish decimal grafanaPublish "grafana.publish"
  let grafanaRootUrl ← getStr grafana "root_url" [] "grafana."
  let grafanaAllowEmbedding ← getBool grafana "allow_embedding" false "grafana."
  let backupDir ← getStr backup "dir" (dataDir ++ "/backups".toList) "backup."
  let backupDir ← absolute backupDir "backup.dir"
  let imageApi ← getStr images "api" defaultImageApi "images."
  let imageApi ← image imageApi "images.api"
  let imageGateway ← getStr images "gateway" defaultImageGateway "images."
  let imageGateway ← image imageGateway "images.gateway"
  return {
    components := Component.all.filter has, site, dataDir, brokerLocal := has .broker
    mqttHost := mqtt.host, mqttPort := mqtt.port, mqttApiUser := mqtt.apiUser
    mqttGatewayUser := mqtt.gatewayUser, apiPublish, dbPublish, grafanaEnabled, grafanaPublish
    grafanaRootUrl, grafanaAllowEmbedding, backupDir, imageApi, imageGateway }

/-! ### The strings of the file -/

inductive Field
  | site
  | dataDir
  | mqttHost
  | mqttApiUser
  | mqttGatewayUser
  | apiPublish
  | dbPublish
  | grafanaPublish
  | grafanaRootUrl
  | backupDir
  | imageApi
  | imageGateway
  deriving DecidableEq, Repr

def Config.text (c : Config) : Field → Text
  | .site => c.site
  | .dataDir => c.dataDir
  | .mqttHost => c.mqttHost
  | .mqttApiUser => c.mqttApiUser
  | .mqttGatewayUser => c.mqttGatewayUser
  | .apiPublish => c.apiPublish
  | .dbPublish => c.dbPublish
  | .grafanaPublish => c.grafanaPublish
  | .grafanaRootUrl => c.grafanaRootUrl
  | .backupDir => c.backupDir
  | .imageApi => c.imageApi
  | .imageGateway => c.imageGateway

/-- The value of a key where it is a string. -/
def given (table : Table) (key : String) : Option Text := (table.lookup key).bind Toml.asStr

namespace Field

def find (raw : Table) : Field → Option Text
  | site => given raw "site"
  | dataDir => given raw "data_dir"
  | mqttHost => given (subtable raw "mqtt") "host"
  | mqttApiUser => given (subtable raw "mqtt") "api_user"
  | mqttGatewayUser => given (subtable raw "mqtt") "gateway_user"
  | apiPublish => given (subtable raw "api") "publish"
  | dbPublish => given (subtable raw "api") "db_publish"
  | grafanaPublish => given (subtable raw "grafana") "publish"
  | grafanaRootUrl => given (subtable raw "grafana") "root_url"
  | backupDir => given (subtable raw "backup") "dir"
  | imageApi => given (subtable raw "images") "api"
  | imageGateway => given (subtable raw "images") "gateway"

/-- Where the file has no value. A host without a broker has to name one. -/
def default (c : Config) : Field → Text
  | site => []
  | dataDir => defaultDataDir
  | mqttHost => "homescope-mqtt".toList
  | mqttApiUser => "homescope-api".toList
  | mqttGatewayUser => "homescope-".toList ++ c.site
  | apiPublish => "127.0.0.1:4001".toList
  | dbPublish => "127.0.0.1:5432".toList
  | grafanaPublish => "4000".toList
  | grafanaRootUrl => []
  | backupDir => c.dataDir ++ "/backups".toList
  | imageApi => defaultImageApi
  | imageGateway => defaultImageGateway

def check (decimal : Char → Option Nat) : Field → Text → Except ConfigError Text
  | dataDir, v => absolute v "data_dir"
  | apiPublish, v => publish decimal v "api.publish"
  | dbPublish, v => publish decimal v "api.db_publish"
  | grafanaPublish, v => publish decimal v "grafana.publish"
  | backupDir, v => absolute v "backup.dir"
  | imageApi, v => image v "images.api"
  | imageGateway, v => image v "images.gateway"
  | _, v => .ok v

end Field

theorem bind_eq_ok {ε α β : Type} {x : Except ε α} {f : α → Except ε β} {b : β} :
    x >>= f = .ok b ↔ ∃ a, x = .ok a ∧ f a = .ok b := by
  cases x <;> simp [bind, Except.bind]

theorem raiseIf_eq_ok {bad : Prop} [Decidable bad] {e : ConfigError} {u : Unit} :
    raiseIf bad e = .ok u ↔ ¬bad := by
  rw [raiseIf]
  split <;> simp_all

theorem getStr_eq_ok {table : Table} {key place : String} {default v : Text}
    (h : getStr table key default place = .ok v) : v = (given table key).getD default := by
  rw [getStr, get] at h
  rw [given]
  cases hfind : table.lookup key with
  | none =>
    rw [hfind] at h
    cases h
    rfl
  | some value =>
    simp only [hfind] at h
    cases hvalue : value.asStr with
    | none => simp [hvalue] at h
    | some w =>
      simp only [hvalue, Except.ok.injEq] at h
      simp [hvalue, h]

theorem contains_filter (has : Component → Bool) :
    (Component.all.filter has).contains = has := by
  funext x
  have hmem : x ∈ Component.all := by cases x <;> simp [Component.all]
  rw [List.contains_eq_mem]
  simp [hmem]

/-- What a loaded configuration has from the file. -/
structure Loaded (decimal : Char → Option Nat) (raw : Table) (c : Config) : Prop where
  components_eq : c.components = Component.all.filter c.has
  brokerLocal_eq : c.brokerLocal = c.has .broker
  site : readSite raw c.has = .ok c.site
  mqtt : readMqtt (subtable raw "mqtt") c.has c.site =
    .ok ⟨c.mqttHost, c.mqttPort, c.mqttApiUser, c.mqttGatewayUser⟩
  dataDir : absolute ((given raw "data_dir").getD defaultDataDir) "data_dir" = .ok c.dataDir
  apiPublish : publish decimal ((given (subtable raw "api") "publish").getD
    "127.0.0.1:4001".toList) "api.publish" = .ok c.apiPublish
  dbPublish : publish decimal ((given (subtable raw "api") "db_publish").getD
    "127.0.0.1:5432".toList) "api.db_publish" = .ok c.dbPublish
  grafanaPublish : publish decimal ((given (subtable raw "grafana") "publish").getD
    "4000".toList) "grafana.publish" = .ok c.grafanaPublish
  grafanaRootUrl : c.grafanaRootUrl = (given (subtable raw "grafana") "root_url").getD []
  backupDir : absolute ((given (subtable raw "backup") "dir").getD
    (c.dataDir ++ "/backups".toList)) "backup.dir" = .ok c.backupDir
  imageApi : image ((given (subtable raw "images") "api").getD defaultImageApi) "images.api" =
    .ok c.imageApi
  imageGateway : image ((given (subtable raw "images") "gateway").getD defaultImageGateway)
    "images.gateway" = .ok c.imageGateway

theorem load_loaded {decimal : Char → Option Nat} {raw : Table} {c : Config}
    (h : load decimal raw = .ok c) : Loaded decimal raw c := by
  rw [load] at h
  obtain ⟨_, -, h⟩ := bind_eq_ok.mp h
  obtain ⟨components, -, h⟩ := bind_eq_ok.mp h
  obtain ⟨_, -, h⟩ := bind_eq_ok.mp h
  obtain ⟨_, -, h⟩ := bind_eq_ok.mp h
  obtain ⟨site, hsite, h⟩ := bind_eq_ok.mp h
  obtain ⟨_, hdir, h⟩ := bind_eq_ok.mp h
  obtain ⟨dataDir, hdataDir, h⟩ := bind_eq_ok.mp h
  obtain ⟨mqtt, hmqtt, h⟩ := bind_eq_ok.mp h
  obtain ⟨_, -, h⟩ := bind_eq_ok.mp h
  obtain ⟨_, hapi, h⟩ := bind_eq_ok.mp h
  obtain ⟨apiPublish, hapiPublish, h⟩ := bind_eq_ok.mp h
  obtain ⟨_, hdb, h⟩ := bind_eq_ok.mp h
  obtain ⟨dbPublish, hdbPublish, h⟩ := bind_eq_ok.mp h
  obtain ⟨enabled, -, h⟩ := bind_eq_ok.mp h
  obtain ⟨_, hgrafana, h⟩ := bind_eq_ok.mp h
  obtain ⟨grafanaPublish, hgrafanaPublish, h⟩ := bind_eq_ok.mp h
  obtain ⟨rootUrl, hrootUrl, h⟩ := bind_eq_ok.mp h
  obtain ⟨allowEmbedding, -, h⟩ := bind_eq_ok.mp h
  obtain ⟨_, hdirBackup, h⟩ := bind_eq_ok.mp h
  obtain ⟨backupDir, hbackupDir, h⟩ := bind_eq_ok.mp h
  obtain ⟨_, hapiImage, h⟩ := bind_eq_ok.mp h
  obtain ⟨imageApi, himageApi, h⟩ := bind_eq_ok.mp h
  obtain ⟨_, hgatewayImage, h⟩ := bind_eq_ok.mp h
  obtain ⟨imageGateway, himageGateway, h⟩ := bind_eq_ok.mp h
  cases h
  rw [getStr_eq_ok hdir] at hdataDir
  rw [getStr_eq_ok hapi] at hapiPublish
  rw [getStr_eq_ok hdb] at hdbPublish
  rw [getStr_eq_ok hgrafana] at hgrafanaPublish
  rw [getStr_eq_ok hdirBackup] at hbackupDir
  rw [getStr_eq_ok hapiImage] at himageApi
  rw [getStr_eq_ok hgatewayImage] at himageGateway
  have hhas : ∀ c : Config, c.components = Component.all.filter components.contains →
      c.has = components.contains := by
    intro c hc
    funext x
    rw [Config.has, hc, contains_filter]
  exact {
    components_eq := by rw [hhas _ rfl]
    brokerLocal_eq := by rw [hhas _ rfl]
    site := by rw [hhas _ rfl]; exact hsite
    mqtt := by rw [hhas _ rfl]; exact hmqtt
    dataDir := hdataDir
    apiPublish := hapiPublish
    dbPublish := hdbPublish
    grafanaPublish := hgrafanaPublish
    grafanaRootUrl := getStr_eq_ok hrootUrl
    backupDir := hbackupDir
    imageApi := himageApi
    imageGateway := himageGateway }

theorem readSite_eq_ok {raw : Table} {has : Component → Bool} {site : Text} :
    readSite raw has = .ok site ↔ getStr raw "site" [] "" = .ok site ∧
      if has .gateway then site ≠ [] ∧ Regex.matchesLine '\n' siteRe site = true else site = [] := by
  rw [readSite, bind_eq_ok]
  constructor
  · rintro ⟨s, hget, h⟩
    cases hgateway : has .gateway with
    | true =>
      rw [hgateway, if_pos rfl] at h
      obtain ⟨_, hne, h⟩ := bind_eq_ok.mp h
      obtain ⟨_, hmatch, h⟩ := bind_eq_ok.mp h
      cases h
      exact ⟨hget, raiseIf_eq_ok.mp hne, Bool.eq_true_of_not_eq_false (raiseIf_eq_ok.mp hmatch)⟩
    | false =>
      rw [hgateway, if_neg Bool.false_ne_true] at h
      obtain ⟨_, hempty, h⟩ := bind_eq_ok.mp h
      cases h
      exact ⟨hget, not_not.mp (raiseIf_eq_ok.mp hempty)⟩
  · rintro ⟨hget, h⟩
    refine ⟨site, hget, ?_⟩
    cases hgateway : has .gateway with
    | true =>
      rw [hgateway, if_pos rfl] at h
      rw [if_pos rfl, raiseIf, if_neg h.1, raiseIf, if_neg (by simp [h.2])]
      rfl
    | false =>
      rw [hgateway, if_neg Bool.false_ne_true] at h
      rw [if_neg Bool.false_ne_true, raiseIf, if_neg (by simp [h])]
      rfl

/-- The strings of a broker: its own, or those of `[mqtt]`. -/
theorem readMqtt_eq_ok {mqtt : Table} {has : Component → Bool} {site : Text} {m : Mqtt}
    (h : readMqtt mqtt has site = .ok m) :
    m.host = (given mqtt "host").getD "homescope-mqtt".toList ∧ (1 ≤ m.port ∧ m.port ≤ 65535) ∧
      m.apiUser = (given mqtt "api_user").getD "homescope-api".toList ∧
        m.gatewayUser = (given mqtt "gateway_user").getD ("homescope-".toList ++ site) := by
  rw [readMqtt] at h
  split at h
  · obtain ⟨_, hempty, h⟩ := bind_eq_ok.mp h
    cases h
    have hnil : mqtt = [] := List.isEmpty_iff.mp (Bool.eq_true_of_not_eq_false (raiseIf_eq_ok.mp hempty))
    subst hnil
    simp [given]
  · obtain ⟨host, hhost, h⟩ := bind_eq_ok.mp h
    obtain ⟨_, hne, h⟩ := bind_eq_ok.mp h
    obtain ⟨port, -, h⟩ := bind_eq_ok.mp h
    obtain ⟨_, hport, h⟩ := bind_eq_ok.mp h
    obtain ⟨apiUser, hapi, h⟩ := bind_eq_ok.mp h
    obtain ⟨gatewayUser, hgateway, h⟩ := bind_eq_ok.mp h
    obtain ⟨_, -, h⟩ := bind_eq_ok.mp h
    obtain ⟨_, -, h⟩ := bind_eq_ok.mp h
    cases h
    refine ⟨?_, not_not.mp (raiseIf_eq_ok.mp hport), getStr_eq_ok hapi, getStr_eq_ok hgateway⟩
    have hhost := getStr_eq_ok hhost
    have hne := raiseIf_eq_ok.mp hne
    cases hgiven : given mqtt "host" with
    | none => exact absurd (by rw [hhost, hgiven]; rfl) hne
    | some v =>
      rw [hhost, hgiven]
      rfl

namespace Loaded

variable {decimal : Char → Option Nat} {raw : Table} {c : Config}

/-- Every string is the one that the file gives, or its default, after the check of its field. -/
theorem text (h : Loaded decimal raw c) (f : Field) :
    f.check decimal ((f.find raw).getD (f.default c)) = .ok (c.text f) := by
  obtain ⟨hhost, -, hapi, hgateway⟩ := readMqtt_eq_ok h.mqtt
  cases f with
  | site => exact congrArg Except.ok (getStr_eq_ok (readSite_eq_ok.mp h.site).1).symm
  | dataDir => exact h.dataDir
  | mqttHost => exact congrArg Except.ok hhost.symm
  | mqttApiUser => exact congrArg Except.ok hapi.symm
  | mqttGatewayUser => exact congrArg Except.ok hgateway.symm
  | apiPublish => exact h.apiPublish
  | dbPublish => exact h.dbPublish
  | grafanaPublish => exact h.grafanaPublish
  | grafanaRootUrl => exact congrArg Except.ok h.grafanaRootUrl.symm
  | backupDir => exact h.backupDir
  | imageApi => exact h.imageApi
  | imageGateway => exact h.imageGateway

theorem site_matches (h : Loaded decimal raw c) (hgateway : c.has .gateway = true) :
    Regex.matchesLine '\n' siteRe c.site = true := by
  have hsite := (readSite_eq_ok.mp h.site).2
  rw [if_pos hgateway] at hsite
  exact hsite.2

end Loaded

/-! ### The smallest file of a gateway -/

def gatewayToml (site host : Text) : Table :=
  [("components", .array [.string "gateway".toList]), ("site", .string site),
    ("mqtt", .table [("host", .string host)])]

def gatewayConfig (site host : Text) : Config where
  components := [.gateway]
  site := site
  dataDir := defaultDataDir
  brokerLocal := false
  mqttHost := host
  mqttPort := 1883
  mqttApiUser := "homescope-api".toList
  mqttGatewayUser := "homescope-".toList ++ site
  apiPublish := "127.0.0.1:4001".toList
  dbPublish := "127.0.0.1:5432".toList
  grafanaEnabled := true
  grafanaPublish := "4000".toList
  grafanaRootUrl := []
  grafanaAllowEmbedding := false
  backupDir := defaultDataDir ++ "/backups".toList
  imageApi := defaultImageApi
  imageGateway := defaultImageGateway

theorem load_gatewayToml {decimal : Char → Option Nat} {site host : Text} (hsite : site ≠ [])
    (hmatch : Regex.matchesLine '\n' siteRe site = true) (hhost : host ≠ []) :
    load decimal (gatewayToml site host) = .ok (gatewayConfig site host) := by
  have hread : readSite (gatewayToml site host) [Component.gateway].contains = .ok site :=
    readSite_eq_ok.mpr ⟨rfl, hsite, hmatch⟩
  have hmqtt : readMqtt [("host", .string host)] [Component.gateway].contains site =
      .ok ⟨host, 1883, "homescope-api".toList, "homescope-".toList ++ site⟩ := by
    refine bind_eq_ok.mpr ⟨host, rfl, bind_eq_ok.mpr ⟨(), raiseIf_eq_ok.mpr hhost, ?_⟩⟩
    rfl
  refine bind_eq_ok.mpr ⟨(), rfl, bind_eq_ok.mpr ⟨[.gateway], rfl, ?_⟩⟩
  refine bind_eq_ok.mpr ⟨(), rfl, bind_eq_ok.mpr ⟨(), rfl, ?_⟩⟩
  refine bind_eq_ok.mpr ⟨site, hread, ?_⟩
  refine bind_eq_ok.mpr ⟨_, rfl, bind_eq_ok.mpr ⟨_, rfl, ?_⟩⟩
  refine bind_eq_ok.mpr ⟨_, hmqtt, ?_⟩
  rfl

end Deploy

end Homescope
