import Homescope.DeployConfig
import Homescope.ShellWords

/-! The files that the deploy generates from its configuration: the
assignments that `config.py` prints, the variables that bash has of them, and
what the scripts write (`deploy/components`, `deploy/lib/user-phase.sh`,
`deploy/deploy.sh`). -/

namespace Homescope

namespace Deploy

/-! ### The variables -/

/-- A variable `CFG_*`. -/
inductive Var
  | components
  | text (f : Field)
  | brokerLocal
  | mqttPort
  | grafanaEnabled
  | grafanaAllowEmbedding
  | has (c : Component)
  deriving DecidableEq, Repr

namespace Var

/-- In the order in which they are printed. -/
def all : List Var :=
  [components, text .site, text .dataDir, brokerLocal, text .mqttHost, mqttPort,
    text .mqttApiUser, text .mqttGatewayUser, text .apiPublish, text .dbPublish, grafanaEnabled,
    text .grafanaPublish, text .grafanaRootUrl, grafanaAllowEmbedding, text .backupDir,
    text .imageApi, text .imageGateway, has .broker, has .api, has .gateway]

def name : Var → Text
  | components => "CFG_COMPONENTS".toList
  | text .site => "CFG_SITE".toList
  | text .dataDir => "CFG_DATA_DIR".toList
  | text .mqttHost => "CFG_MQTT_HOST".toList
  | text .mqttApiUser => "CFG_MQTT_API_USER".toList
  | text .mqttGatewayUser => "CFG_MQTT_GATEWAY_USER".toList
  | text .apiPublish => "CFG_API_PUBLISH".toList
  | text .dbPublish => "CFG_DB_PUBLISH".toList
  | text .grafanaPublish => "CFG_GRAFANA_PUBLISH".toList
  | text .grafanaRootUrl => "CFG_GRAFANA_ROOT_URL".toList
  | text .backupDir => "CFG_BACKUP_DIR".toList
  | text .imageApi => "CFG_IMAGE_API".toList
  | text .imageGateway => "CFG_IMAGE_GATEWAY".toList
  | brokerLocal => "CFG_BROKER_LOCAL".toList
  | mqttPort => "CFG_MQTT_PORT".toList
  | grafanaEnabled => "CFG_GRAFANA_ENABLED".toList
  | grafanaAllowEmbedding => "CFG_GRAFANA_ALLOW_EMBEDDING".toList
  | has .broker => "CFG_HAS_BROKER".toList
  | has .api => "CFG_HAS_API".toList
  | has .gateway => "CFG_HAS_GATEWAY".toList

end Var

def boolText (b : Bool) : Text := if b then "true".toList else "false".toList

namespace Config

def value (c : Config) : Var → Text
  | .components => List.intercalate [' '] (c.components.map fun component => component.name.toList)
  | .text f => c.text f
  | .brokerLocal => boolText c.brokerLocal
  | .mqttPort => Py.str c.mqttPort
  | .grafanaEnabled => boolText c.grafanaEnabled
  | .grafanaAllowEmbedding => boolText c.grafanaAllowEmbedding
  | .has component => boolText (c.has component)

/-- What `config.py` prints. No quotes come around `true` and `false`. -/
def shell (c : Config) : Text := Shell.script (Var.all.map fun v => (v.name, c.value v))

end Config

/-- `load_config`. -/
def loadConfig (c : Config) : Option (List (Text × Text)) :=
  let assignments := Shell.capture (c.shell ++ ['\n'])
  Shell.assignments assignments.length assignments

/-- `$CFG_*`, of which the last assignment holds. -/
def expand (env : List (Text × Text)) (v : Var) : Text := (env.reverse.lookup v.name).getD []

/-! ### The files -/

inductive File
  | mqttApiEnv
  | grafanaHostEnv
  | gatewayEnv
  | dbDropin
  | apiDropin
  | grafanaDropin
  | gatewayDropin
  | mqttDropin
  | mqttAcl
  | dataConf
  deriving DecidableEq, Repr

variable (value : Var → Text)

def generatedFrom : Text := "# Generated by deploy.sh from deploy.toml; changes are overwritten.".toList

def imageLines (image : Text) : List Text :=
  ["Image=".toList ++ image,
    if "localhost/".toList.isPrefixOf image then "AutoUpdate=local".toList
    else "AutoUpdate=registry".toList]

def brokerDependency : List Text :=
  if value .brokerLocal = "true".toList then
    ["[Unit]".toList, "After=homescope-mqtt.service".toList, "Wants=homescope-mqtt.service".toList]
  else []

namespace File

def container : Text := "[Container]".toList

/-- The lines that the script prints for a file; those of a drop-in come after
`[Container]`. -/
def body : File → List Text
  | mqttApiEnv => [generatedFrom,
      "MQTT_HOST=".toList ++ value (.text .mqttHost),
      "MQTT_PORT=".toList ++ value .mqttPort,
      "MQTT_USERNAME=".toList ++ value (.text .mqttApiUser)]
  | grafanaHostEnv => generatedFrom ::
      ((if value (.text .grafanaRootUrl) = [] then []
        else ["GF_SERVER_ROOT_URL=".toList ++ value (.text .grafanaRootUrl)]) ++
      ["GF_SECURITY_ALLOW_EMBEDDING=".toList ++ value .grafanaAllowEmbedding])
  | gatewayEnv => [generatedFrom,
      "SITE=".toList ++ value (.text .site),
      "MQTT_HOST=".toList ++ value (.text .mqttHost),
      "MQTT_PORT=".toList ++ value .mqttPort,
      "MQTT_USERNAME=".toList ++ value (.text .mqttGatewayUser)]
  | dbDropin => [
      "Volume=".toList ++ (value (.text .dataDir) ++ "/timescaledb:/var/lib/postgresql".toList),
      "PublishPort=".toList ++ (value (.text .dbPublish) ++ ":5432".toList)]
  | apiDropin => imageLines (value (.text .imageApi)) ++
      ("PublishPort=".toList ++ (value (.text .apiPublish) ++ ":3000".toList)) ::
        brokerDependency value
  | grafanaDropin => [
      "Volume=".toList ++ (value (.text .dataDir) ++ "/grafana:/var/lib/grafana".toList),
      "PublishPort=".toList ++ (value (.text .grafanaPublish) ++ ":3000".toList)]
  | gatewayDropin => imageLines (value (.text .imageGateway)) ++ brokerDependency value
  | mqttDropin => ["Volume=".toList ++ (value (.text .dataDir) ++ "/mosquitto:/mosquitto/data".toList)]
  | mqttAcl => [
      "# Generated by homescope's deploy.sh from deploy.toml; changes are overwritten.".toList,
      "user ".toList ++ value (.text .mqttApiUser),
      "topic read homescope/+/sensors/+/envelope".toList,
      [],
      "user ".toList ++ value (.text .mqttGatewayUser),
      "topic write homescope/".toList ++ (value (.text .site) ++ "/#".toList)]
  | dataConf => [
      ("# Written by homescope's deploy.sh: the homescope user's services keep their data " ++
        "under data_dir.").toList,
      "[Unit]".toList,
      "RequiresMountsFor=".toList ++ value (.text .dataDir)]

def isDropin : File → Bool
  | dbDropin | apiDropin | grafanaDropin | gatewayDropin | mqttDropin => true
  | _ => false

/-- A file that is put in a variable first. -/
def isCaptured : File → Bool
  | mqttAcl | dataConf => true
  | _ => false

end File

def hostConfigMarker : Text := "homescope.host-config=1".toList

/-- The program of `awk`: the label comes after the first `[Container]`. -/
def mark : List Text → Option (List Text)
  | [] => none
  | l :: ls =>
    if l = File.container then some (l :: ("Label=".toList ++ hostConfigMarker) :: ls)
    else (mark ls).map (l :: ·)

def dropinHeader : Text :=
  "# Generated by deploy.sh from /etc/homescope/deploy.toml; changes are overwritten.".toList

def writeDropin (text : Text) : Option Text :=
  (mark (Shell.lines text)).map fun ls => Shell.unlines (dropinHeader :: ls)

namespace File

/-- What the scripts write with the variables at these values. -/
def contents (f : File) : Option Text :=
  if f.isDropin then writeDropin (Shell.unlines (container :: f.body value))
  else if f.isCaptured then
    some (Shell.unlines [Shell.capture (Shell.unlines (f.body value))])
  else some (Shell.unlines (f.body value))

/-- The lines that say what the values are. -/
def promised (f : File) : List Text :=
  if f.isDropin then
    dropinHeader :: container :: ("Label=".toList ++ hostConfigMarker) :: f.body value
  else f.body value

end File

/-- What `*_root` and `*_user` of a component write. -/
def componentFiles : Component → List File
  | .broker => [.mqttAcl, .mqttDropin]
  | .api => [.mqttApiEnv, .dbDropin, .apiDropin] ++
      if value .grafanaEnabled = "true".toList then [.grafanaHostEnv, .grafanaDropin] else []
  | .gateway => [.gatewayEnv, .gatewayDropin]

/-- `for component in $CFG_COMPONENTS`. -/
def writtenFiles : Option (List File) := do
  let components ← (Shell.words (value .components)).mapM fun name =>
    Component.ofName (String.ofList name)
  return .dataConf :: components.flatMap (componentFiles value)

/-! ### The lines of the files -/

variable {value}

theorem isLine_generatedFrom : Shell.IsLine generatedFrom := by decide

theorem isLine_imageLines {image : Text} (h : Shell.IsLine image) :
    ∀ l ∈ imageLines image, Shell.IsLine l := by
  rw [imageLines]
  refine List.forall_mem_cons.mpr ⟨Shell.IsLine.append (by decide) h, ?_⟩
  refine List.forall_mem_singleton.mpr ?_
  split <;> decide

theorem isLine_brokerDependency : ∀ l ∈ brokerDependency value, Shell.IsLine l := by
  rw [brokerDependency]
  split <;> decide

namespace File

/-- Values of one line make one line each. -/
theorem isLine_body (h : ∀ v, Shell.IsLine (value v)) (f : File) :
    ∀ l ∈ f.body value, Shell.IsLine l := by
  have hafter : ∀ s v, Shell.IsLine s → Shell.IsLine (s ++ value v) := fun s v hs => hs.append (h v)
  have hwithin : ∀ s v t, Shell.IsLine s → Shell.IsLine t → Shell.IsLine (s ++ (value v ++ t)) :=
    fun s v t hs ht => hs.append ((h v).append ht)
  cases f with
  | mqttApiEnv =>
    simp only [body, List.forall_mem_cons]
    exact ⟨isLine_generatedFrom, hafter _ _ (by decide), hafter _ _ (by decide), hafter _ _ (by decide), by simp⟩
  | grafanaHostEnv =>
    simp only [body, List.forall_mem_cons, List.forall_mem_append]
    refine ⟨isLine_generatedFrom, ?_, hafter _ _ (by decide), by simp⟩
    split
    · simp
    · exact List.forall_mem_singleton.mpr (hafter _ _ (by decide))
  | gatewayEnv =>
    simp only [body, List.forall_mem_cons]
    exact ⟨isLine_generatedFrom, hafter _ _ (by decide), hafter _ _ (by decide), hafter _ _ (by decide),
      hafter _ _ (by decide), by simp⟩
  | dbDropin =>
    simp only [body, List.forall_mem_cons]
    exact ⟨hwithin _ _ _ (by decide) (by decide), hwithin _ _ _ (by decide) (by decide), by simp⟩
  | apiDropin =>
    simp only [body, List.forall_mem_cons, List.forall_mem_append]
    exact ⟨isLine_imageLines (h _), hwithin _ _ _ (by decide) (by decide),
      isLine_brokerDependency⟩
  | grafanaDropin =>
    simp only [body, List.forall_mem_cons]
    exact ⟨hwithin _ _ _ (by decide) (by decide), hwithin _ _ _ (by decide) (by decide), by simp⟩
  | gatewayDropin =>
    simp only [body, List.forall_mem_append]
    exact ⟨isLine_imageLines (h _), isLine_brokerDependency⟩
  | mqttDropin => exact List.forall_mem_singleton.mpr (hwithin _ _ _ (by decide) (by decide))
  | mqttAcl =>
    simp only [body, List.forall_mem_cons]
    exact ⟨by decide, hafter _ _ (by decide), by decide, by decide, hafter _ _ (by decide),
      hwithin _ _ _ (by decide) (by decide), by simp⟩
  | dataConf =>
    simp only [body, List.forall_mem_cons]
    exact ⟨by decide, by decide, hafter _ _ (by decide), by simp⟩

/-- Values of one line come out in the lines that they are for, and in no others. -/
theorem lines_contents (h : ∀ v, Shell.IsLine (value v)) (f : File) :
    ∃ text, f.contents value = some text ∧ Shell.lines text = f.promised value := by
  have hbody := f.isLine_body h
  rw [contents, promised]
  cases hdropin : f.isDropin with
  | true =>
    have hlabel : ∀ l ∈ dropinHeader :: container :: ("Label=".toList ++ hostConfigMarker) ::
        f.body value, Shell.IsLine l := by
      simp only [List.forall_mem_cons]
      exact ⟨by decide, by decide, by decide, hbody⟩
    have hread : Shell.lines (Shell.unlines (container :: f.body value)) = container :: f.body value :=
      Shell.lines_unlines (List.forall_mem_cons.mpr ⟨by decide, hbody⟩)
    rw [if_pos rfl, writeDropin, hread, mark, if_pos rfl]
    exact ⟨_, rfl, Shell.lines_unlines hlabel⟩
  | false =>
    rw [if_neg Bool.false_ne_true]
    cases hcaptured : f.isCaptured with
    | false => exact ⟨_, rfl, Shell.lines_unlines hbody⟩
    | true =>
      have hsame : Shell.unlines [Shell.capture (Shell.unlines (f.body value))] =
          Shell.unlines (f.body value) := by
        obtain ⟨ls, l, hsplit, hl⟩ : ∃ ls l, f.body value = ls ++ [l] ∧ l ≠ [] := by
          cases f with
          | mqttAcl => exact ⟨[_, _, _, _, _], _, rfl, by simp⟩
          | dataConf => exact ⟨[_, _], _, rfl, by simp⟩
          | _ => cases hcaptured
        rw [hsplit] at hbody ⊢
        exact Shell.unlines_capture hbody hl
      exact ⟨_, if_pos rfl, by rw [hsame]; exact Shell.lines_unlines hbody⟩

end File

end Deploy

end Homescope
