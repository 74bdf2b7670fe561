import Homescope.DeployFiles

/-! What the deploy generates from a configuration that its loader accepts: each
value in its line as it is, where the file holds no newline that no check is
made for, no NUL, and no port but in plain digits. -/

namespace Homescope

namespace Deploy

variable {decimal : Char → Option Nat} {raw : Table} {c : Config} {v t : Text}

/-! ### Published ports -/

/-- The digits of ASCII that write a port. -/
structure PlainPort (s : Text) : Prop where
  ne_nil : s ≠ []
  digits : ∀ c ∈ s, isAsciiDigit c = true
  pos : 1 ≤ Py.value (s.map IpAddr.digit)
  le_max : Py.value (s.map IpAddr.digit) ≤ 65535

/-- `PORT` or `IPv4:PORT`. -/
def PublishForm (s : Text) : Prop :=
  PlainPort s ∨ ∃ host port, s = host ++ ':' :: port ∧ Py.ipv4Address host = true ∧ PlainPort port

/-- Digits of ASCII and nothing else come after the last colon, and something
comes before it. -/
structure PlainPublish (s : Text) : Prop where
  digits : ∀ c ∈ (Py.rpartition ':' s).2, isAsciiDigit c = true
  host : ':' ∈ s → (Py.rpartition ':' s).1 ≠ []

theorem publish_eq_ok {field : String} (h : publish decimal v field = .ok t) :
    t = v ∧ ((Py.rpartition ':' v).1 ≠ [] → Py.ipv4Address (Py.rpartition ':' v).1 = true) ∧
      ∃ n, Py.int decimal (Py.rpartition ':' v).2 = some n ∧ 1 ≤ n ∧ n ≤ 65535 := by
  simp only [publish] at h
  split at h
  · cases h
  · rename_i hhost
    split at h
    · cases h
    · rename_i n hn
      split at h
      · rename_i hrange
        cases h
        refine ⟨rfl, fun hne => Bool.eq_true_of_not_eq_false fun hv4 => hhost ⟨hne, hv4⟩, n, hn, hrange⟩
      · cases h

theorem plainPort_of_int {s : Text} {n : Int} (hdigits : ∀ c ∈ s, isAsciiDigit c = true)
    (hn : Py.int decimal s = some n) (hpos : 1 ≤ n) (hmax : n ≤ 65535) : PlainPort s := by
  obtain ⟨hne, rfl⟩ := Py.int_ascii hdigits hn
  exact ⟨hne, hdigits, by omega, by omega⟩

theorem colon_not_mem (h : ∀ c ∈ v, isAsciiDigit c = true) : ':' ∉ v :=
  fun hmem => absurd (h _ hmem) (by decide)

/-- What a value that passes the check lacks to have the form. -/
theorem publishForm_iff {field : String} (h : publish decimal v field = .ok t) :
    PublishForm v ↔ PlainPublish v := by
  obtain ⟨-, hv4, n, hn, hpos, hmax⟩ := publish_eq_ok h
  constructor
  · rintro (hport | ⟨host, port, rfl, hhost, hport⟩)
    · have hcolon := colon_not_mem hport.digits
      refine ⟨?_, fun hmem => absurd hmem hcolon⟩
      rw [Py.rpartition_of_not_mem hcolon]
      exact hport.digits
    · have hsplit : Py.rpartition ':' (host ++ ':' :: port) = (host, port) :=
        Py.rpartition_append (colon_not_mem hport.digits)
      refine ⟨?_, fun _ => ?_⟩
      · rw [hsplit]
        exact hport.digits
      · rw [hsplit]
        rintro rfl
        exact absurd hhost (by decide)
  · intro hplain
    have hport := plainPort_of_int hplain.digits hn hpos hmax
    by_cases hcolon : ':' ∈ v
    · exact .inr ⟨_, _, (Py.rpartition_of_mem hcolon).1, hv4 (hplain.host hcolon), hport⟩
    · rw [Py.rpartition_of_not_mem hcolon] at hport
      exact .inl hport

theorem PlainPort.isLine (h : PlainPort v) : Shell.IsLine v :=
  ⟨fun hmem => absurd (h.digits _ hmem) (by decide), fun hmem => absurd (h.digits _ hmem) (by decide)⟩

theorem PublishForm.isLine (h : PublishForm v) : Shell.IsLine v := by
  obtain hport | ⟨host, port, rfl, hhost, hport⟩ := h
  · exact hport.isLine
  · have hchars := Py.ipv4Address_chars hhost
    have hline : Shell.IsLine host :=
      ⟨fun hmem => absurd (hchars _ hmem) (by decide), fun hmem => absurd (hchars _ hmem) (by decide)⟩
    exact hline.append (Shell.IsLine.append (s := [':']) (by decide) hport.isLine)

/-! ### The checks of the other fields -/

theorem mem_rstrip {ch : Char} (hch : ch ≠ '/') : ch ∈ Py.rstrip '/' v ↔ ch ∈ v := by
  have hsplit := List.takeWhile_append_dropWhile (p := (· == '/')) (l := v.reverse)
  have hv : ch ∈ v ↔ ch ∈ v.reverse.takeWhile (· == '/') ∨ ch ∈ v.reverse.dropWhile (· == '/') := by
    rw [← List.mem_append, hsplit, List.mem_reverse]
  rw [Py.rstrip, trimEndMatches, List.mem_reverse, hv]
  refine ⟨.inr, fun h => h.resolve_left fun hmem => hch ?_⟩
  simpa using List.mem_takeWhile_imp hmem

/-- Only slashes are taken off a path. -/
theorem mem_absolute {field : String} (h : absolute v field = .ok t) {ch : Char} (hch : ch ≠ '/') :
    ch ∈ t ↔ ch ∈ v := by
  rw [absolute] at h
  split at h
  · cases h
  · cases h
    split
    · rename_i hnil
      rw [← mem_rstrip (v := v) hch, hnil]
      simp [hch]
    · exact mem_rstrip hch

theorem newline_not_mem_absolute {field : String} (h : absolute v field = .ok t) : '\n' ∉ t := by
  rw [mem_absolute h (by decide)]
  rw [absolute] at h
  split at h
  · cases h
  · rename_i hv
    exact fun hmem => hv (.inr hmem)

theorem image_eq_ok {field : String} (h : image v field = .ok t) : t = v ∧ '\n' ∉ v := by
  rw [image] at h
  split at h
  · cases h
  · rename_i hv
    cases h
    exact ⟨rfl, fun hmem => hv (.inr (List.any_eq_true.mpr ⟨_, hmem, rfl⟩))⟩

namespace Field

def isPublish : Field → Bool
  | apiPublish | dbPublish | grafanaPublish => true
  | _ => false

/-- The loader takes a newline in the field, at the end of a site and anywhere
in the others. -/
def takesNewline : Field → Bool
  | site | mqttHost | mqttApiUser | mqttGatewayUser | grafanaRootUrl => true
  | _ => false

/-- What no check asks of the value of a field. -/
structure Clean (f : Field) (v : Text) : Prop where
  nul : '\x00' ∉ v
  newline : f.takesNewline = true → '\n' ∉ v
  publish : f.isPublish = true → PlainPublish v

/-- A port is published, a string is taken as it is, or a path or an image is
of one line. -/
theorem check_cases {f : Field} (h : f.check decimal v = .ok t) :
    (f.isPublish = true ∧ ∃ field, publish decimal v field = .ok t) ∨
      (f.isPublish = false ∧ f.takesNewline = true ∧ t = v) ∨
        (f.isPublish = false ∧ f.takesNewline = false ∧ '\n' ∉ t ∧ ('\x00' ∈ t ↔ '\x00' ∈ v)) := by
  have himage : ∀ field, image v field = .ok t → '\n' ∉ t ∧ ('\x00' ∈ t ↔ '\x00' ∈ v) := by
    intro field himage
    obtain ⟨rfl, hline⟩ := image_eq_ok himage
    exact ⟨hline, Iff.rfl⟩
  cases f with
  | apiPublish => exact .inl ⟨rfl, _, h⟩
  | dbPublish => exact .inl ⟨rfl, _, h⟩
  | grafanaPublish => exact .inl ⟨rfl, _, h⟩
  | dataDir => exact .inr (.inr ⟨rfl, rfl, newline_not_mem_absolute h, mem_absolute h (by decide)⟩)
  | backupDir => exact .inr (.inr ⟨rfl, rfl, newline_not_mem_absolute h, mem_absolute h (by decide)⟩)
  | imageApi => exact .inr (.inr ⟨rfl, rfl, himage _ h⟩)
  | imageGateway => exact .inr (.inr ⟨rfl, rfl, himage _ h⟩)
  | _ => exact .inr (.inl ⟨rfl, rfl, (Except.ok.inj h).symm⟩)

/-- A value comes out as a line, in the form of its field, if and only if it is clean. -/
theorem clean_iff {f : Field} (h : f.check decimal v = .ok t) :
    f.Clean v ↔ Shell.IsLine t ∧ (f.isPublish = true → PublishForm t) := by
  obtain ⟨hf, field, hcheck⟩ | ⟨hf, hnewline, rfl⟩ | ⟨hf, hnewline, hline, hnul⟩ := check_cases h
  · obtain ⟨rfl, -⟩ := publish_eq_ok hcheck
    have hform := publishForm_iff hcheck
    constructor
    · intro hclean
      have hpublish := hform.mpr (hclean.publish hf)
      exact ⟨hpublish.isLine, fun _ => hpublish⟩
    · rintro ⟨hline, hpublish⟩
      exact ⟨hline.2, fun _ => hline.1, fun _ => hform.mp (hpublish hf)⟩
  · constructor
    · intro hclean
      exact ⟨⟨hclean.newline hnewline, hclean.nul⟩, by simp [hf]⟩
    · rintro ⟨hline, -⟩
      exact ⟨hline.2, fun _ => hline.1, by simp [hf]⟩
  · constructor
    · intro hclean
      exact ⟨⟨hline, hnul.not.mpr hclean.nul⟩, by simp [hf]⟩
    · rintro ⟨hout, -⟩
      exact ⟨hnul.not.mp hout.2, by simp [hnewline], by simp [hf]⟩

end Field

/-- The values of the file are clean. -/
def CleanFile (raw : Table) : Prop := ∀ (f : Field) (v : Text), f.find raw = some v → f.Clean v

theorem Field.Clean.of_isLine {f : Field} (h : Shell.IsLine v)
    (hpublish : f.isPublish = true → PlainPublish v) : f.Clean v :=
  ⟨h.2, fun _ => h.1, hpublish⟩

theorem isLine_defaultDataDir : Shell.IsLine defaultDataDir := by decide

theorem isLine_defaultImageApi : Shell.IsLine defaultImageApi := by decide

theorem isLine_defaultImageGateway : Shell.IsLine defaultImageGateway := by decide

theorem plainPublish_default :
    PlainPublish "127.0.0.1:4001".toList ∧ PlainPublish "127.0.0.1:5432".toList ∧
      PlainPublish "4000".toList :=
  ⟨⟨List.all_eq_true.mp (by decide), fun _ => by decide⟩,
    ⟨List.all_eq_true.mp (by decide), fun _ => by decide⟩,
    ⟨List.all_eq_true.mp (by decide), fun hmem => absurd hmem (by decide)⟩⟩

/-- The defaults are clean where the values are from which they are made. -/
theorem default_clean (hsite : Shell.IsLine c.site) (hdir : Shell.IsLine c.dataDir) (f : Field) :
    f.Clean (f.default c) := by
  have hnil : Shell.IsLine [] := by decide
  have hbroker : Shell.IsLine "homescope-mqtt".toList := by decide
  have huser : Shell.IsLine "homescope-api".toList := by decide
  obtain ⟨hapi, hdb, hgrafana⟩ := plainPublish_default
  cases f with
  | site => exact .of_isLine hnil (by rintro ⟨⟩)
  | dataDir => exact .of_isLine isLine_defaultDataDir (by rintro ⟨⟩)
  | mqttHost => exact .of_isLine hbroker (by rintro ⟨⟩)
  | mqttApiUser => exact .of_isLine huser (by rintro ⟨⟩)
  | mqttGatewayUser => exact .of_isLine (Shell.IsLine.append (by decide) hsite) (by rintro ⟨⟩)
  | apiPublish => exact .of_isLine (by decide : Shell.IsLine "127.0.0.1:4001".toList) fun _ => hapi
  | dbPublish => exact .of_isLine (by decide : Shell.IsLine "127.0.0.1:5432".toList) fun _ => hdb
  | grafanaPublish => exact .of_isLine (by decide : Shell.IsLine "4000".toList) fun _ => hgrafana
  | grafanaRootUrl => exact .of_isLine hnil (by rintro ⟨⟩)
  | backupDir => exact .of_isLine (hdir.append (by decide)) (by rintro ⟨⟩)
  | imageApi => exact .of_isLine isLine_defaultImageApi (by rintro ⟨⟩)
  | imageGateway => exact .of_isLine isLine_defaultImageGateway (by rintro ⟨⟩)

/-- What comes out of a file, field by field. -/
theorem Loaded.cleanFile_iff (h : Loaded decimal raw c) : CleanFile raw ↔
    ∀ f, Shell.IsLine (c.text f) ∧ (f.isPublish = true → PublishForm (c.text f)) := by
  constructor
  · intro hclean
    have hgiven : ∀ f : Field, f.Clean (f.default c) →
        Shell.IsLine (c.text f) ∧ (f.isPublish = true → PublishForm (c.text f)) := by
      intro f hdefault
      refine (Field.clean_iff (h.text f)).mp ?_
      cases hfind : f.find raw with
      | none => exact hdefault
      | some v => exact hclean f v hfind
    have hsite := hgiven .site (.of_isLine (by decide : Shell.IsLine []) (by rintro ⟨⟩))
    have hdir := hgiven .dataDir (.of_isLine isLine_defaultDataDir (by rintro ⟨⟩))
    exact fun f => hgiven f (default_clean hsite.1 hdir.1 f)
  · intro hout f v hfind
    have hcheck := h.text f
    rw [hfind] at hcheck
    exact (Field.clean_iff hcheck).mpr (hout f)

/-! ### The variables of bash -/

theorem name_chars (v : Var) : '=' ∉ v.name ∧ '\x00' ∉ v.name := by
  cases v with
  | text f => cases f <;> decide
  | has component => cases component <;> decide
  | _ => decide

/-- Bash has the values, less their NULs. -/
theorem loadConfig_eq (c : Config) :
    loadConfig c = some (Var.all.map fun v => (v.name, Shell.dropNul (c.value v))) := by
  have hnames : ∀ p ∈ Var.all.map fun v => (v.name, c.value v), '=' ∉ p.1 ∧ '\x00' ∉ p.1 := by
    intro p hp
    obtain ⟨v, -, rfl⟩ := List.mem_map.mp hp
    exact name_chars v
  have hne : (Var.all.map fun v => (v.name, c.value v)) ≠ [] := by simp [Var.all]
  simp only [loadConfig, Config.shell, Shell.capture_script hne,
    Shell.assignments_script hnames (Shell.length_le_script _), List.map_map]
  rfl

theorem expand_map (g : Var → Text) (v : Var) :
    expand (Var.all.map fun v => (v.name, g v)) v = g v := by
  cases v with
  | text f => cases f <;> rfl
  | has component => cases component <;> rfl
  | _ => rfl

theorem isLine_str (n : Int) : Shell.IsLine (Py.str n) := by
  have hdigits : Shell.IsLine (Nat.toDigits 10 n.natAbs) := by
    constructor <;> intro hmem <;>
      exact absurd (Nat.isDigit_of_mem_toDigits (by decide) (by decide) hmem) (by decide)
  rw [Py.str]
  split
  · exact Shell.IsLine.append (s := ['-']) (by decide) hdigits
  · exact hdigits

theorem isLine_boolText (b : Bool) : Shell.IsLine (boolText b) := by
  cases b <;> decide

theorem isLine_value (hcomponents : c.components = Component.all.filter c.has)
    (h : ∀ f, Shell.IsLine (c.text f)) (v : Var) : Shell.IsLine (c.value v) := by
  cases v with
  | components =>
    simp only [Config.value, hcomponents, Component.all, List.filter_cons, List.filter_nil]
    cases c.has .broker <;> cases c.has .api <;> cases c.has .gateway <;> decide
  | text f => exact h f
  | brokerLocal => exact isLine_boolText _
  | mqttPort => exact isLine_str _
  | grafanaEnabled => exact isLine_boolText _
  | grafanaAllowEmbedding => exact isLine_boolText _
  | has component => exact isLine_boolText _

/-- The loop of the scripts goes through the components. -/
theorem writtenFiles_eq (hcomponents : c.components = Component.all.filter c.has) :
    writtenFiles c.value = some (.dataConf :: c.components.flatMap (componentFiles c.value)) := by
  have hwords : (Shell.words (c.value .components)).mapM
      (fun name => Component.ofName (String.ofList name)) = some c.components := by
    simp only [Config.value, hcomponents, Component.all, List.filter_cons, List.filter_nil]
    cases c.has .broker <;> cases c.has .api <;> cases c.has .gateway <;> rfl
  rw [writtenFiles, hwords]
  rfl

/-! ### What is generated -/

/-- Every string is one line, every port is in its form, and the scripts write
the files of the components with every value in its line. -/
structure Generates (c : Config) : Prop where
  one_line : ∀ f, '\n' ∉ c.text f
  publish : ∀ f : Field, f.isPublish = true → PublishForm (c.text f)
  assigns : ∃ env, loadConfig c = some env ∧ (∀ v, expand env v = c.value v) ∧
    ∃ files, writtenFiles (expand env) = some files ∧
      files = .dataConf :: c.components.flatMap (componentFiles c.value) ∧
      ∀ f ∈ files, ∃ text, f.contents (expand env) = some text ∧ Shell.lines text = f.promised c.value

theorem generates_of_isLine (hcomponents : c.components = Component.all.filter c.has)
    (h : ∀ f, Shell.IsLine (c.text f) ∧ (f.isPublish = true → PublishForm (c.text f))) :
    Generates c := by
  have hvalue := isLine_value hcomponents fun f => (h f).1
  have hsame : (fun v => Shell.dropNul (c.value v)) = c.value :=
    funext fun v => Shell.dropNul_eq_self_iff.mpr (hvalue v).2
  have hload := loadConfig_eq c
  have hexpand : expand (Var.all.map fun v => (v.name, Shell.dropNul (c.value v))) = c.value := by
    funext v
    rw [expand_map]
    exact congrFun hsame v
  refine ⟨fun f => (h f).1.1, fun f => (h f).2, _, hload, congrFun hexpand, ?_⟩
  rw [hexpand]
  exact ⟨_, writtenFiles_eq hcomponents, rfl, fun f _ => f.lines_contents hvalue⟩

/-- What bash has of a value is the value, so no NUL is in it. -/
theorem Generates.isLine (h : Generates c) (f : Field) : Shell.IsLine (c.text f) := by
  obtain ⟨env, hload, hexpand, -⟩ := h.assigns
  rw [loadConfig_eq, Option.some.injEq] at hload
  subst hload
  have hnul := hexpand (.text f)
  rw [expand_map] at hnul
  exact ⟨h.one_line f, Shell.dropNul_eq_self_iff.mp hnul⟩

/-- An accepted configuration generates what it says if and only if its file is clean. -/
theorem generates_iff (h : load decimal raw = .ok c) : Generates c ↔ CleanFile raw := by
  have hloaded := load_loaded h
  rw [hloaded.cleanFile_iff]
  exact ⟨fun hgenerates f => ⟨hgenerates.isLine f, hgenerates.publish f⟩,
    generates_of_isLine hloaded.components_eq⟩

theorem cleanFile_gatewayToml {site host : Text} (hsite : Shell.IsLine site)
    (hhost : Shell.IsLine host) : CleanFile (gatewayToml site host) := by
  intro f v hfind
  cases f with
  | site =>
    cases hfind
    exact .of_isLine hsite (by rintro ⟨⟩)
  | mqttHost =>
    cases hfind
    exact .of_isLine hhost (by rintro ⟨⟩)
  | _ => cases hfind

theorem generates_odin : Generates (gatewayConfig "odin".toList "broker".toList) := by
  have hload : load (fun _ => none) (gatewayToml "odin".toList "broker".toList) = .ok _ :=
    load_gatewayToml (by decide) (by decide) (by decide)
  exact (generates_iff hload).mpr (cleanFile_gatewayToml (by decide) (by decide))

/-- The host of the broker that brings a port with it. -/
def hostWithPort : Text := "b\nMQTT_PORT=1".toList

theorem not_generates :
    load (fun _ => none) (gatewayToml "odin".toList hostWithPort) =
        .ok (gatewayConfig "odin".toList hostWithPort) ∧
      (File.gatewayEnv.contents (gatewayConfig "odin".toList hostWithPort).value).map Shell.lines =
        some [generatedFrom, "SITE=odin".toList, "MQTT_HOST=b".toList, "MQTT_PORT=1".toList,
          "MQTT_PORT=1883".toList, "MQTT_USERNAME=homescope-odin".toList] ∧
      ¬Generates (gatewayConfig "odin".toList hostWithPort) := by
  refine ⟨load_gatewayToml (by decide) (by decide) (by decide), rfl, fun h => ?_⟩
  exact absurd (h.one_line .mqttHost) (by decide)

end Deploy

end Homescope
