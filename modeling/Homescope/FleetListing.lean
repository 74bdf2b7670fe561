import Homescope.CommandRuns
import Homescope.DelimitedText
import Homescope.DeviceAddrCodec
import Homescope.DeviceRoutes
import Homescope.FirmwareStore
import Homescope.StableSort
import Mathlib.Data.Prod.Lex

/-! What the tool prints of the fleet (`provision/src/output.rs`), and the row
that `provision` and `rotate` leave on standard output. -/

namespace Homescope.Output

open Commands DelimitedText

/-- The two ways in which `chrono` writes a time here: to the second after RFC
3339, and `%Y-%m-%d %H:%M UTC`. -/
structure TimeText where
  toRfc3339 : Timestamp → Text
  timestamp : Timestamp → Text

/-- An RFC 3339 time is digits and punctuation. -/
def TimeText.OneField (times : TimeText) : Prop := ∀ t, Clean '\t' '\n' (times.toRfc3339 t)

def age (seen now : Timestamp) : Text :=
  let secs := (now - seen).tdiv 1000000000
  if secs < 60 then "just now".toList
  else if secs < 3600 then (toString (secs / 60) ++ "m ago").toList
  else if secs < 86400 then (toString (secs / 3600) ++ "h ago").toList
  else (toString (secs / 86400) ++ "d ago").toList

def seenAt (times : TimeText) (seen now : Timestamp) : Text :=
  times.timestamp seen ++ " (".toList ++ age seen now ++ ")".toList

def keyStatusLabel : DeviceKeyStatus → Text
  | .ok => "ok".toList
  | .missing => "missing".toList
  | .invalid => "invalid".toList
  | .kekUnavailable => "kek unavailable".toList
  | .unopenable => "unopenable".toList
  | .unknown => "unknown".toList

def wireStatus : DeviceKeyStatus → Text
  | .ok => "OK".toList
  | .missing => "MISSING".toList
  | .invalid => "INVALID".toList
  | .kekUnavailable => "KEK_UNAVAILABLE".toList
  | .unopenable => "UNOPENABLE".toList
  | .unknown => "UNKNOWN".toList

def oneLine (name : Text) : Text := name.map fun c => if Firmware.isControl c then ' ' else c

/-- The comparison that the rows are sorted by. -/
def byNameThenAddr (a b : DeviceSummary) : Ordering :=
  (compare a.name b.name).then (compare a.deviceAddr.asI64.toInt b.deviceAddr.asI64.toInt)

/-- `sort_by`, which is stable. -/
def sorted (devices : List DeviceSummary) : List DeviceSummary :=
  devices.insertionSort fun a b => byNameThenAddr a b ≠ .gt

def trimEnd (s : Text) : Text := (s.reverse.dropWhile isWhitespace).reverse

/-- `{cell:<width$}`. -/
def pad (width : Nat) (cell : Text) : Text := cell ++ List.replicate (width - cell.length) ' '

def header : List Text := ["ADDRESS".toList, "NAME".toList, "KEY".toList, "LAST SEEN".toList]

def table (times : TimeText) (rows : List DeviceSummary) (now : Timestamp) : Text :=
  let cells := rows.map fun device =>
    [device.deviceAddr.encodeHex.toList, oneLine device.name.toList, keyStatusLabel device.keyStatus,
      device.lastSeen.elim "never".toList (seenAt times · now)]
  let widths := cells.foldl (fun widths row => List.zipWith (fun w cell => max w cell.length) widths row)
    (header.map List.length)
  (header :: cells).flatMap fun row =>
    trimEnd ("  ".toList.intercalate (List.zipWith pad widths row)) ++ ['\n']

def tabSeparated (times : TimeText) (rows : List DeviceSummary) : Text :=
  rows.flatMap fun device =>
    device.deviceAddr.encodeHex.toList ++ '\t' :: (oneLine device.name.toList ++ '\t' ::
      (wireStatus device.keyStatus ++ '\t' :: (device.lastSeen.elim [] times.toRfc3339 ++ ['\n'])))

def fleetListing (times : TimeText) (devices : List DeviceSummary) (now : Timestamp)
    (forTerminal : Bool) : Text :=
  if forTerminal then table times (sorted devices) now else tabSeparated times (sorted devices)

/-- What `provision` and `rotate` print when the board is done. -/
def deviceRow (response : DeviceKeyResponse) : Text :=
  response.deviceAddr.encodeHex.toList ++ '\t' :: (response.name.toList ++ ['\n'])

/-! ### The listing -/

/-- What the rows are ordered by. -/
def key (device : DeviceSummary) : String ×ₗ Int := toLex (device.name, device.deviceAddr.asI64.toInt)

theorem byNameThenAddr_iff (a b : DeviceSummary) : byNameThenAddr a b ≠ .gt ↔ key a ≤ key b := by
  rw [key, key, Prod.Lex.toLex_le_toLex, byNameThenAddr]
  rcases lt_trichotomy a.name b.name with h | h | h
  · simp [compare_lt_iff_lt.mpr h, h]
  · simp [h, compare_gt_iff_gt]
  · simp [compare_gt_iff_gt.mpr h, h.not_gt, h.ne']

/-- The fields of a row. -/
def fields (times : TimeText) (device : DeviceSummary) : List Text :=
  [device.deviceAddr.encodeHex.toList, oneLine device.name.toList, wireStatus device.keyStatus,
    device.lastSeen.elim [] times.toRfc3339]

theorem tabSeparated_eq (times : TimeText) (rows : List DeviceSummary) :
    tabSeparated times rows = text '\t' '\n' (rows.map (fields times)) := by
  rw [tabSeparated, text, List.flatMap_map]
  refine congrArg (rows.flatMap ·) (funext fun device => ?_)
  simp [fields, line, List.intercalate]

theorem clean_encodeHex (addr : DeviceAddr) : Clean '\t' '\n' addr.encodeHex.toList := by
  have hdigit : ∀ c ∈ addr.encodeHex.toList, isAsciiHexdigit c = true := by
    intro c hc
    rw [DeviceAddr.encodeHex, String.toList_ofList] at hc
    obtain ⟨byte, -, hbyte⟩ := List.mem_flatMap.mp hc
    exact ((DeviceAddr.hexPair_spec byte).1 c hbyte).1
  exact ⟨fun h => absurd (hdigit _ h) (by decide), fun h => absurd (hdigit _ h) (by decide)⟩

theorem clean_oneLine (name : Text) : Clean '\t' '\n' (oneLine name) := by
  have hne : ∀ c d : Char, Firmware.isControl c = true →
      (if Firmware.isControl d then ' ' else d) = c → c = ' ' := by
    intro c d hc he
    split_ifs at he with hd
    · exact he.symm
    · exact absurd (he ▸ hc) hd
  constructor <;>
  · intro hmem
    obtain ⟨d, -, hd⟩ := List.mem_map.mp hmem
    exact absurd (hne _ d (by decide) hd) (by decide)

theorem clean_wireStatus (status : DeviceKeyStatus) : Clean '\t' '\n' (wireStatus status) := by
  cases status <;> exact ⟨by decide, by decide⟩

theorem clean_fields {times : TimeText} (h : times.OneField) (device : DeviceSummary) :
    ∀ cell ∈ fields times device, Clean '\t' '\n' cell := by
  have hseen : Clean '\t' '\n' (device.lastSeen.elim [] times.toRfc3339) := by
    cases device.lastSeen with
    | none => exact ⟨List.not_mem_nil, List.not_mem_nil⟩
    | some seen => exact h seen
  simp only [fields, List.forall_mem_cons]
  exact ⟨clean_encodeHex _, clean_oneLine _, clean_wireStatus _, hseen, List.forall_mem_nil _⟩

theorem key_eq_iff {a b : DeviceSummary} :
    key a = key b ↔ a.name = b.name ∧ a.deviceAddr = b.deviceAddr := by
  have haddr : a.deviceAddr.asI64.toInt = b.deviceAddr.asI64.toInt ↔ a.deviceAddr = b.deviceAddr :=
    BitVec.toInt_inj.trans DeviceAddr.asI64_injective.eq_iff
  rw [key, key, toLex_inj, Prod.mk.injEq, haddr]

theorem wireStatus_injective : Function.Injective wireStatus := by
  intro a b h
  cases a <;> cases b <;> first | rfl | exact absurd h (by decide)

section Listing

variable {times : TimeText} {devices : List DeviceSummary} {now : Timestamp}
  {response : DeviceKeyResponse}

/-- One complete line of four fields for each device, by name and then address,
and the same text for every order of the devices. -/
structure Listed (times : TimeText) (devices : List DeviceSummary) (now : Timestamp) : Prop where
  complete : Complete '\n' (fleetListing times devices now false)
  rows : ∃ order : List DeviceSummary, order.Perm devices ∧ order.Pairwise (key · ≤ key ·) ∧
    rows '\t' '\n' (fleetListing times devices now false) = order.map (fields times)
  unordered : ∀ devices', devices'.Perm devices →
    fleetListing times devices' now false = fleetListing times devices now false

/-- One complete line of two fields. -/
structure Labelled (response : DeviceKeyResponse) : Prop where
  complete : Complete '\n' (deviceRow response)
  row : (rows '\t' '\n' (deviceRow response)).map List.length = [2]

/-- Two entries for one device say the same. The registry has one only. -/
def TiesAgree (times : TimeText) (devices : List DeviceSummary) : Prop :=
  ∀ a ∈ devices, ∀ b ∈ devices, a.name = b.name → a.deviceAddr = b.deviceAddr →
    a.keyStatus = b.keyStatus ∧
      a.lastSeen.elim [] times.toRfc3339 = b.lastSeen.elim [] times.toRfc3339

theorem rows_listing (h : times.OneField) (devices : List DeviceSummary) (now : Timestamp) :
    rows '\t' '\n' (fleetListing times devices now false) = (sorted devices).map (fields times) := by
  rw [fleetListing, if_neg (by decide), tabSeparated_eq]
  refine rows_text (by decide) ?_
  intro cells hcells
  obtain ⟨device, -, rfl⟩ := List.mem_map.mp hcells
  exact ⟨List.cons_ne_nil _ _, clean_fields h device⟩

theorem unordered_iff (h : times.OneField) :
    (∀ devices' : List DeviceSummary, devices'.Perm devices →
      fleetListing times devices' now false = fleetListing times devices now false) ↔
      TiesAgree times devices := by
  have htext : ∀ devices' : List DeviceSummary,
      fleetListing times devices' now false = fleetListing times devices now false ↔
        (sorted devices').map (fields times) = (sorted devices).map (fields times) := by
    intro devices'
    constructor
    · intro he
      rw [← rows_listing h devices' now, he, rows_listing h]
    · intro he
      simp only [fleetListing, Bool.false_eq_true, if_false, tabSeparated_eq, he]
  have hfields : ∀ a b : DeviceSummary, a.name = b.name → a.deviceAddr = b.deviceAddr →
      (fields times a = fields times b ↔ a.keyStatus = b.keyStatus ∧
        a.lastSeen.elim [] times.toRfc3339 = b.lastSeen.elim [] times.toRfc3339) := by
    intro a b hname haddr
    simp [fields, hname, haddr, wireStatus_injective.eq_iff]
  simp only [htext]
  refine (StableSort.map_insertionSort_eq_iff byNameThenAddr_iff (fields times) devices).trans ?_
  constructor
  · intro hties a ha b hb hname haddr
    exact (hfields a b hname haddr).mp (hties a ha b hb (key_eq_iff.mpr ⟨hname, haddr⟩))
  · intro hties a ha b hb hkey
    obtain ⟨hname, haddr⟩ := key_eq_iff.mp hkey
    exact (hfields a b hname haddr).mpr (hties a ha b hb hname haddr)

theorem listed_iff (h : times.OneField) : Listed times devices now ↔ TiesAgree times devices := by
  constructor
  · intro hlisted
    exact (unordered_iff h).mp hlisted.unordered
  · intro hties
    refine ⟨?_, ⟨sorted devices, List.perm_insertionSort _ _, ?_, rows_listing h devices now⟩,
      (unordered_iff h).mpr hties⟩
    · rw [fleetListing, if_neg (by decide), tabSeparated_eq]
      exact complete_text _
    · exact StableSort.pairwise_key byNameThenAddr_iff devices

/-- A list with one entry for an address prints the same in every order. -/
theorem tiesAgree_of_nodup (h : (devices.map DeviceSummary.deviceAddr).Nodup) :
    TiesAgree times devices := by
  intro a ha b hb _ haddr
  obtain rfl := List.inj_on_of_nodup_map h ha hb haddr
  exact ⟨rfl, rfl⟩

/-- The name goes out as it is, so it must be one field by itself. -/
theorem labelled_iff : Labelled response ↔ Clean '\t' '\n' response.name.toList := by
  have haddr := clean_encodeHex response.deviceAddr
  have hrow : deviceRow response =
      (response.deviceAddr.encodeHex.toList ++ '\t' :: response.name.toList) ++ ['\n'] := by
    simp [deviceRow]
  have hcount : (response.deviceAddr.encodeHex.toList ++ '\t' :: response.name.toList).count '\t' =
      response.name.toList.count '\t' + 1 := by
    simp [List.count_append, List.count_eq_zero.mpr haddr.1]
  have hiff : (rows '\t' '\n' (deviceRow response)).map List.length = [2] ↔
      Clean '\t' '\n' response.name.toList := by
    rw [hrow, rows_line_iff (n := 1), hcount, Nat.add_eq_right, List.count_eq_zero]
    simp [Clean, haddr.2]
  constructor
  · intro h
    exact hiff.mp h.row
  · intro h
    refine ⟨.inr ?_, hiff.mpr h⟩
    rw [hrow]
    exact List.getLast?_concat

theorem machineReadable_iff (h : times.OneField) :
    Listed times devices now ∧ Labelled response ↔
      TiesAgree times devices ∧ Clean '\t' '\n' response.name.toList :=
  and_congr (listed_iff h) labelled_iff

end Listing

/-- The times of the one reading that the samples hold. -/
def sampleTimes : TimeText :=
  ⟨fun _ => "2025-07-20T08:23:40Z".toList, fun _ => "2025-07-20 08:23 UTC".toList⟩

theorem sampleTimes_oneField : sampleTimes.OneField := by
  have hclean : Clean '\t' '\n' "2025-07-20T08:23:40Z".toList := ⟨by decide, by decide⟩
  exact fun _ => hclean

def sampleAddr (lastByte : Byte) : DeviceAddr := ⟨[lastByte, 0x02, 0x03, 0x04, 0x05, 0xC6], rfl⟩

def sampleDevices : List DeviceSummary :=
  [⟨sampleAddr 1, "kitchen", .ok, 1753000000000000000, some 1752999820000000000⟩,
    ⟨sampleAddr 2, "gar\tage", .kekUnavailable, 1753000000000000000, none⟩]

def labelled (name : String) : DeviceKeyResponse :=
  ⟨sampleAddr 1, name, 1753000000000000000,
    "0F00000000000000000000000000000000000000000000000000000000000000"⟩

theorem machineReadable_iff_sample : Listed sampleTimes sampleDevices 1753000000000000000 ∧
    Labelled (labelled "kitchen") ↔
      TiesAgree sampleTimes sampleDevices ∧ Clean '\t' '\n' (labelled "kitchen").name.toList :=
  machineReadable_iff sampleTimes_oneField

example : fleetListing sampleTimes sampleDevices 1753000000000000000 false =
    ("C60504030202\tgar age\tKEK_UNAVAILABLE\t\n" ++
      "C60504030201\tkitchen\tOK\t2025-07-20T08:23:40Z\n").toList := by
  decide +kernel

/-- A name with a line end passes for the row of another device. -/
theorem deviceRow_forged :
    rows '\t' '\n' (deviceRow (labelled "kitchen\nC60504030202\tgarage")) =
        [["C60504030201".toList, "kitchen".toList], ["C60504030202".toList, "garage".toList]] ∧
      ¬ Labelled (labelled "kitchen\nC60504030202\tgarage") := by
  have hrows : rows '\t' '\n' (deviceRow (labelled "kitchen\nC60504030202\tgarage")) =
      [["C60504030201".toList, "kitchen".toList], ["C60504030202".toList, "garage".toList]] := by
    decide +kernel
  refine ⟨hrows, fun h => ?_⟩
  have hrow := h.row
  rw [hrows] at hrow
  exact absurd hrow (by decide)

/-- The API looks at no name: what it is sent it stores and answers. -/
theorem provisionDevice_any_name (config : ApiConfig) (payload : ProvisionDevicePayload)
    (now : Timestamp) {dek : DeviceKey} {nonce : XNonce} {sealedKey : SealedDeviceKey}
    (hseal : SealedDeviceKey.sealWithNonce config.kekAead config.ring dek payload.deviceAddr nonce =
      some sealedKey) :
    ∃ tr response, Runs (DeviceRoutes.provisionDevice config payload) tr
        (some (.ok (201, response))) ∧
      response.deviceAddr = payload.deviceAddr ∧ response.name = payload.name := by
  rw [DeviceRoutes.provisionDevice_eq]
  let row : DeviceRecord := ⟨payload.deviceAddr, payload.name, some sealedKey.bytes, now⟩
  let device : Device := ⟨payload.deviceAddr, payload.name, now, ⟨dek, payload.deviceAddr⟩⟩
  refine ⟨[⟨.generateKey, .ok dek⟩, ⟨.generateNonce, nonce⟩,
    ⟨.insertRow payload.name payload.deviceAddr sealedKey, .ok row⟩,
    ⟨.cacheInsert payload.deviceAddr device, ()⟩], .ofDevice device dek, ?_, rfl, rfl⟩
  refine Runs.cmd (Runs.cmd ?_)
  simp only [hseal]
  exact Runs.cmd (Runs.cmd (Runs.ret _))

end Homescope.Output
