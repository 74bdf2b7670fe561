import Homescope.DeviceAddrCodec

/-! The topic of an envelope (`common/src/envelope_topic.rs`) with the name of
the site in it (`common/src/site.rs`). -/

namespace Homescope

namespace Site

/-- `[a-z0-9-]`. -/
def allowed (c : Char) : Bool := ('a' ≤ c && c ≤ 'z') || ('0' ≤ c && c ≤ '9') || c == '-'

end Site

structure Site where
  name : String
  name_ne : name ≠ ""
  allowed_name : ∀ c ∈ name.toList, Site.allowed c = true
  deriving DecidableEq

inductive SiteParseError
  | empty
  | invalidCharacter
  deriving DecidableEq, Repr

namespace Site

def fromStr (s : String) : Except SiteParseError Site :=
  if hne : s = "" then .error .empty
  else if hall : s.toList.all allowed = true then .ok ⟨s, hne, List.all_eq_true.mp hall⟩
  else .error .invalidCharacter

theorem fromStr_name (site : Site) : fromStr site.name = .ok site := by
  rw [fromStr, dif_neg site.name_ne, dif_pos (List.all_eq_true.mpr site.allowed_name)]

theorem fromStr_eq_ok {s : String} {site : Site} : fromStr s = .ok site ↔ site.name = s := by
  constructor
  · intro h
    rw [fromStr] at h
    split at h
    · cases h
    · split at h
      · cases h
        rfl
      · cases h
  · rintro rfl
    exact fromStr_name site

/-- One level of a topic. -/
theorem slash_not_mem (site : Site) : '/' ∉ site.name.toList := by
  intro h
  have hallowed := site.allowed_name '/' h
  revert hallowed
  decide

end Site

structure EnvelopeTopic where
  site : Site
  deviceAddr : DeviceAddr

inductive EnvelopeTopicParseError
  | shape
  | site (e : SiteParseError)
  | deviceAddr (e : DeviceAddrParseError)
  deriving DecidableEq, Repr

namespace EnvelopeTopic

/-- `str::split('/')`. -/
def levels (s : String) : List String := (s.toList.splitOn '/').map String.ofList

def subscription : String := "homescope/+/sensors/+/envelope"

def toText (topic : EnvelopeTopic) : String :=
  "homescope/" ++ topic.site.name ++ "/sensors/" ++ topic.deviceAddr.encodeHex ++ "/envelope"

def fromStr (s : String) : Except EnvelopeTopicParseError EnvelopeTopic :=
  match levels s with
  | ["homescope", site, "sensors", addr, "envelope"] =>
    match Site.fromStr site with
    | .error e => .error (.site e)
    | .ok site =>
      match DeviceAddr.fromStr addr with
      | .error e => .error (.deviceAddr e)
      | .ok deviceAddr => .ok { site, deviceAddr }
  | _ => .error .shape

/-- A filter whose only wildcard is `+`, level by level. -/
def matchesLevels : List String → List String → Bool
  | [], [] => true
  | f :: filter, t :: topic => (f == "+" || f == t) && matchesLevels filter topic
  | _, _ => false

def matchesFilter (filter topic : String) : Bool := matchesLevels (levels filter) (levels topic)

/-! ### Levels -/

theorem levels_append {s : String} (h : '/' ∉ s.toList) (t : String) :
    levels (s ++ "/" ++ t) = s :: levels t := by
  have hslash : (s ++ "/" ++ t).toList = s.toList ++ '/' :: t.toList := by simp
  rw [levels, hslash, List.splitOn_append_cons_self_of_not_mem h, List.map_cons, String.ofList_toList,
    ← levels]

theorem levels_eq_singleton {s : String} (h : '/' ∉ s.toList) : levels s = [s] := by
  rw [levels, List.splitOn_eq_singleton h, List.map_singleton, String.ofList_toList]

theorem toList_of_levels {s : String} {ls : List String} (h : levels s = ls) :
    s.toList = ['/'].intercalate (ls.map String.toList) := by
  rw [← h, levels, List.map_map]
  have hid : String.toList ∘ String.ofList = id := funext fun s => String.toList_ofList
  rw [hid, List.map_id, List.intercalate_splitOn]

/-- A text of the fixed shape. -/
def shaped (site addr : String) : String :=
  "homescope" ++ "/" ++ (site ++ "/" ++ ("sensors" ++ "/" ++ (addr ++ "/" ++ "envelope")))

theorem levels_shaped {site addr : String} (hsite : '/' ∉ site.toList) (haddr : '/' ∉ addr.toList) :
    levels (shaped site addr) = ["homescope", site, "sensors", addr, "envelope"] := by
  rw [shaped, levels_append (by decide), levels_append hsite, levels_append (by decide),
    levels_append haddr, levels_eq_singleton (by decide)]

theorem eq_shaped {s site addr : String}
    (h : levels s = ["homescope", site, "sensors", addr, "envelope"]) : s = shaped site addr := by
  apply String.toList_injective
  rw [toList_of_levels h]
  simp [shaped, List.intercalate]

theorem toText_eq (topic : EnvelopeTopic) :
    topic.toText = shaped topic.site.name topic.deviceAddr.encodeHex := by
  apply String.toList_injective
  simp [toText, shaped]

theorem levels_subscription : levels subscription = ["homescope", "+", "sensors", "+", "envelope"] := by
  have hplus : '/' ∉ "+".toList := by decide
  have hlevels : levels (shaped "+" "+") = ["homescope", "+", "sensors", "+", "envelope"] :=
    levels_shaped hplus hplus
  exact hlevels

theorem matches_subscription {s site addr : String}
    (h : levels s = ["homescope", site, "sensors", addr, "envelope"]) :
    matchesFilter subscription s = true := by
  simp [matchesFilter, levels_subscription, h, matchesLevels]

/-! ### The language of the topics -/

theorem slash_not_mem_of_isHex {n : Nat} {s : List Char} (h : DeviceAddr.IsHex n s) : '/' ∉ s := by
  intro hmem
  have hhex := h.2 '/' hmem
  revert hhex
  decide

theorem fromStr_eq_ok {s : String} {topic : EnvelopeTopic} : fromStr s = .ok topic ↔
    ∃ addr, levels s = ["homescope", topic.site.name, "sensors", addr, "envelope"] ∧
      DeviceAddr.fromStr addr = .ok topic.deviceAddr := by
  rw [fromStr]
  constructor
  · intro h
    split at h
    · rename_i site addr hlevels
      cases hsite : Site.fromStr site with
      | error e =>
        rw [hsite] at h
        cases h
      | ok site' =>
        cases haddr : DeviceAddr.fromStr addr with
        | error e =>
          rw [hsite, haddr] at h
          cases h
        | ok deviceAddr =>
          rw [hsite, haddr] at h
          cases h
          exact ⟨addr, by rw [hlevels, Site.fromStr_eq_ok.mp hsite], haddr⟩
    · cases h
  · rintro ⟨addr, hlevels, haddr⟩
    simp only [hlevels, Site.fromStr_name, haddr]

theorem levels_toText (topic : EnvelopeTopic) : levels topic.toText =
    ["homescope", topic.site.name, "sensors", topic.deviceAddr.encodeHex, "envelope"] := by
  have hhex := (DeviceAddr.fromStr_eq_ok.mp (DeviceAddr.fromStr_encodeHex topic.deviceAddr)).1
  rw [toText_eq, levels_shaped topic.site.slash_not_mem (slash_not_mem_of_isHex hhex)]

theorem fromStr_toText (topic : EnvelopeTopic) : fromStr topic.toText = .ok topic :=
  fromStr_eq_ok.mpr ⟨_, levels_toText topic, DeviceAddr.fromStr_encodeHex topic.deviceAddr⟩

/-- The printed topics, the parsed strings and the subscription agree. -/
theorem topic_language :
    (∀ topic : EnvelopeTopic, fromStr topic.toText = .ok topic ∧
      matchesFilter subscription topic.toText = true) ∧
    (∀ s, (∃ topic, fromStr s = .ok topic) ↔ ∃ site addr,
      levels s = ["homescope", site, "sensors", addr, "envelope"] ∧
        (site ≠ "" ∧ ∀ c ∈ site.toList, Site.allowed c = true) ∧
        DeviceAddr.IsHex 12 addr.toList) ∧
    ∀ s topic, fromStr s = .ok topic → matchesFilter subscription s = true ∧
      ∃ addr : String, s = "homescope/" ++ topic.site.name ++ "/sensors/" ++ addr ++ "/envelope" ∧
        topic.toText = "homescope/" ++ topic.site.name ++ "/sensors/" ++
          String.ofList (addr.toList.map Char.toUpper) ++ "/envelope" := by
  refine ⟨fun topic => ?_, fun s => ⟨?_, ?_⟩, fun s topic h => ?_⟩
  · have haddr := DeviceAddr.fromStr_encodeHex topic.deviceAddr
    have hhex := (DeviceAddr.fromStr_eq_ok.mp haddr).1
    have hlevels := levels_shaped topic.site.slash_not_mem (slash_not_mem_of_isHex hhex)
    rw [← toText_eq] at hlevels
    exact ⟨fromStr_eq_ok.mpr ⟨_, hlevels, haddr⟩, matches_subscription hlevels⟩
  · rintro ⟨topic, h⟩
    obtain ⟨addr, hlevels, haddr⟩ := fromStr_eq_ok.mp h
    exact ⟨topic.site.name, addr, hlevels, ⟨topic.site.name_ne, topic.site.allowed_name⟩,
      (DeviceAddr.fromStr_eq_ok.mp haddr).1⟩
  · rintro ⟨site, addr, hlevels, ⟨hne, hallowed⟩, hhex⟩
    have haddr : DeviceAddr.fromStr addr = .ok ⟨_, toLeBytes_length _ _⟩ :=
      DeviceAddr.fromStr_eq_ok.mpr ⟨hhex, rfl⟩
    exact ⟨⟨⟨site, hne, hallowed⟩, _⟩, fromStr_eq_ok.mpr ⟨addr, hlevels, haddr⟩⟩
  · obtain ⟨addr, hlevels, haddr⟩ := fromStr_eq_ok.mp h
    have hupper : topic.deviceAddr.encodeHex = String.ofList (addr.toList.map Char.toUpper) := by
      apply String.toList_injective
      rw [String.toList_ofList, DeviceAddr.encodeHex_of_fromStr haddr]
    refine ⟨matches_subscription hlevels, addr, ?_, ?_⟩
    · rw [eq_shaped hlevels]
      apply String.toList_injective
      simp [shaped]
    · rw [toText, hupper]

end EnvelopeTopic

end Homescope
