import Homescope.CacheRuns
import Mathlib.Data.Int.Order.Basic

/-! The activity queries (`api/src/devices/store.rs`): when a device was last
heard from, and under which key. -/

namespace Homescope

open Commands

structure DeviceActivity where
  record : DeviceRecord
  lastSeen : Option DateTime
  deriving DecidableEq

namespace Store

/-- The times of the readings that the lateral join orders. -/
def timesSince (s : ApiStore) (addr : DeviceAddr) (keyValidFrom : DateTime) : List DateTime :=
  (s.readings.filter fun r => r.deviceAddr = addr ∧ keyValidFrom < r.reading.receivedAt).map
    fun r => r.reading.receivedAt

def activityByAddr (s : ApiStore) (addr : DeviceAddr) : Option DeviceActivity :=
  (s.devices addr).map fun row =>
    { record := ⟨addr, row.name, row.key, row.keyValidFrom⟩
      lastSeen := (timesSince s addr row.keyValidFrom).max? }

end Store

section LastSeen

variable (config : ApiConfig)

/-- What was last seen of a device was opened with the key in its row. -/
def LastSeenCurrent (s : ApiStore) : Prop :=
  ∀ addr activity t, Store.activityByAddr s addr = some activity → activity.lastSeen = some t →
    ∀ r ∈ s.readings, r.deviceAddr = addr → r.reading.receivedAt = t →
      openKeyColumn config.kekAead activity.record.key addr config.ring = .ok r.openedWith

/-- A reading is stored while its key is still the row's, or where it does not
become the newest of its device; a row is written after every stored reading of
its device. -/
def ApiProcess.Timely (s : ApiProcess) : ApiEvent → Prop
  | .ran _ c a =>
    (∀ r, c.stores a = some r →
      (∃ row, s.store.devices r.deviceAddr = some row ∧
        (openKeyColumn config.kekAead row.key r.deviceAddr config.ring = .ok r.openedWith ∨
          r.reading.receivedAt ≤ row.keyValidFrom)) ∨
      ∃ q ∈ s.store.readings, q.deviceAddr = r.deviceAddr ∧
        (r.reading.receivedAt < q.reading.receivedAt ∨
          (q.reading.seq = r.reading.seq ∧ q.reading.receivedAt = r.reading.receivedAt))) ∧
    ∀ addr row, c.writes a = some (addr, row) →
      ∀ q ∈ s.store.readings, q.deviceAddr = addr → q.reading.receivedAt ≤ row.keyValidFrom
  | _ => True

variable {config}

/-- The newest reading of a device since its key was set was opened with that key. -/
def NewestCurrent (config : ApiConfig) (s : ApiStore) : Prop :=
  ∀ r ∈ s.readings, ∀ row, s.devices r.deviceAddr = some row →
    row.keyValidFrom < r.reading.receivedAt →
      (∀ q ∈ s.readings, q.deviceAddr = r.deviceAddr →
        q.reading.receivedAt ≤ r.reading.receivedAt) →
        openKeyColumn config.kekAead row.key r.deviceAddr config.ring = .ok r.openedWith

theorem Store.mem_timesSince {s : ApiStore} {addr : DeviceAddr} {keyValidFrom t : DateTime} :
    t ∈ Store.timesSince s addr keyValidFrom ↔ keyValidFrom < t ∧
      ∃ r ∈ s.readings, r.deviceAddr = addr ∧ r.reading.receivedAt = t := by
  simp only [Store.timesSince, List.mem_map, List.mem_filter, decide_eq_true_eq]
  constructor
  · rintro ⟨r, ⟨hr, haddr, hlt⟩, rfl⟩
    exact ⟨hlt, r, hr, haddr, rfl⟩
  · rintro ⟨hlt, r, hr, haddr, rfl⟩
    exact ⟨r, ⟨hr, haddr, hlt⟩, rfl⟩

theorem lastSeenCurrent_iff {s : ApiStore} : LastSeenCurrent config s ↔ NewestCurrent config s := by
  constructor
  · intro h r hr row hrow hlt hnewest
    refine h r.deviceAddr _ r.reading.receivedAt (by rw [Store.activityByAddr, hrow]; rfl) ?_ r hr
      rfl rfl
    refine List.max?_eq_some_iff.mpr ⟨Store.mem_timesSince.mpr ⟨hlt, r, hr, rfl, rfl⟩, ?_⟩
    intro t ht
    obtain ⟨-, q, hq, haddr, rfl⟩ := Store.mem_timesSince.mp ht
    exact hnewest q hq haddr
  · rintro h addr activity t hactivity hlast r hr rfl rfl
    obtain ⟨row, hrow, rfl⟩ := Option.map_eq_some_iff.mp hactivity
    obtain ⟨hmem, hmax⟩ := List.max?_eq_some_iff.mp hlast
    have hlt := (Store.mem_timesSince.mp hmem).1
    refine h r hr row hrow hlt fun q hq haddr => ?_
    by_cases hq' : row.keyValidFrom < q.reading.receivedAt
    · exact hmax _ (Store.mem_timesSince.mpr ⟨hq', q, hq, haddr, rfl⟩)
    · exact (not_lt.mp hq').trans hlt.le

namespace NewestCurrent

variable {s : ApiProcess} {i : Nat} {c : ApiCmd} {a : c.Answer} {t : ApiStore}

/-- A reading that is stored in time. -/
theorem stored (h : NewestCurrent config s.store) (hc : apiStep s.store c a t)
    (hP : s.Timely config (.ran i c a)) {r : StoredReading} (hr : c.stores a = some r)
    (hdev : t.devices = s.store.devices) : NewestCurrent config t := by
  have hreadings := apiStep_readings hc
  simp only [hr] at hreadings
  intro q hq row hrow hlt hnewest
  rw [hdev] at hrow
  rw [hreadings] at hq hnewest
  have hold : ∀ p ∈ s.store.readings, p.deviceAddr = q.deviceAddr →
      p.reading.receivedAt ≤ q.reading.receivedAt :=
    fun p hp => hnewest p (KeyedRows.mem_insertNew.mpr (.inl hp))
  rcases KeyedRows.mem_insertNew.mp hq with hq | ⟨rfl, hfresh⟩
  · exact h q hq row hrow hlt hold
  · rcases hP.1 q hr with ⟨row', hrow', hkey | hle⟩ | ⟨p, hp, haddr, hgt | ⟨hseq, hat⟩⟩
    · cases hrow.symm.trans hrow'
      exact hkey
    · cases hrow.symm.trans hrow'
      exact absurd hlt (not_lt.mpr hle)
    · exact absurd hgt (not_lt.mpr (hold p hp haddr))
    · exact absurd (Prod.ext haddr (Prod.ext hseq hat)) (hfresh p hp)

/-- A row that is written after all readings of its device. -/
theorem wrote (h : NewestCurrent config s.store) (hc : apiStep s.store c a t)
    (hP : s.Timely config (.ran i c a)) {addr : DeviceAddr} {row : DeviceRow}
    (hw : c.writes a = some (addr, row)) (hreadings : t.readings = s.store.readings) :
    NewestCurrent config t := by
  have hdev := apiStep_devices hc
  simp only [hw] at hdev
  intro q hq row' hrow hlt hnewest
  rw [hreadings] at hq hnewest
  rw [hdev] at hrow
  by_cases ha : q.deviceAddr = addr
  · rw [ha, Function.update_self] at hrow
    cases hrow
    exact absurd hlt (not_lt.mpr (hP.2 addr row hw q hq ha))
  · rw [Function.update_of_ne ha] at hrow
    exact h q hq row' hrow hlt hnewest

theorem ran (h : NewestCurrent config s.store) (hc : apiStep s.store c a t)
    (hP : s.Timely config (.ran i c a)) : NewestCurrent config t := by
  have hdev := apiStep_devices hc
  have hreadings := apiStep_readings hc
  cases hr : c.stores a with
  | some r =>
    refine h.stored hc hP hr ?_
    rwa [ApiCmd.writes_of_stores hr] at hdev
  | none =>
    simp only [hr] at hreadings
    cases hw : c.writes a with
    | some w => exact h.wrote hc hP hw hreadings
    | none =>
      simp only [hw] at hdev
      intro q hq row hrow hlt hnewest
      rw [hreadings] at hq hnewest
      rw [hdev] at hrow
      exact h q hq row hrow hlt hnewest

theorem step {s t : ApiProcess} (hst : config.StepIf (ApiProcess.Timely config) s t)
    (h : NewestCurrent config s.store) : NewestCurrent config t.store := by
  obtain ⟨e, hstep, hP⟩ := hst
  cases hstep with
  | start hi request => exact h
  | ran hi hc => exact h.ran hc hP
  | restart => exact h

end NewestCurrent

/-- In every run whose readings are stored in time, what the activity query
reports as last seen was seen under the key on file. -/
theorem last_seen_current {devices : DeviceAddr → Option DeviceRow} {readings : List StoredReading}
    {t : ApiProcess}
    (h : Relation.ReflTransGen (config.StepIf (ApiProcess.Timely config))
      (config.loaded devices readings) t)
    (hs : LastSeenCurrent config (config.loaded devices readings).store) :
    LastSeenCurrent config t.store :=
  lastSeenCurrent_iff.mpr <|
    invariant_run (I := fun s => NewestCurrent config s.store) h
      (fun _ _ hst => NewestCurrent.step hst) (lastSeenCurrent_iff.mp hs)

end LastSeen

/-! ### A reading that arrives while the key is being rotated -/

section Sample

open ReadingPath (sensorCipher sensorKey sampleAead sensedPacket)

def sensedReading : SensorReading :=
  ⟨sensorAddr, 5, ⟨0xCE⟩, 1753000000000000000, some ⟨2950⟩, some ⟨2105⟩, some ⟨4875⟩⟩

def sensorEnvelope : ObservationEnvelope := ⟨sensorAddr, ⟨0xCE⟩, 1753000000000000000, sensedPacket⟩

def sensorDevice : Device := ⟨sensorAddr, "kitchen", 0, sensorCipher⟩

theorem sensorEnvelope_opens : SensorReading.openEnvelope sampleConfig.packetAead sensorEnvelope
    sensorDevice.cipher = .ok sensedReading := by
  decide +kernel

theorem sensorDevice_loaded : sampleConfig.load sampleDevices sensorAddr = some sensorDevice := by
  decide +kernel

/-- The row has its new key, the cache still has the old one. -/
def halfRotated : ApiProcess :=
  (sampleConfig.loaded sampleDevices []).rotating 1 sensorAddr sensorRow mintedKey firstSealed
    1752999999000000000

def storedUnderOldKey : StoredReading := ⟨sensorAddr, sensedReading, sensorKey⟩

def firstActivity : DeviceActivity where
  record := ⟨sensorAddr, "kitchen", some firstSealed.bytes, 1752999999000000000⟩
  lastSeen := some 1753000000000000000

theorem halfRotated_activity :
    Store.activityByAddr (halfRotated.store.insertReading storedUnderOldKey) sensorAddr =
      some firstActivity := by
  decide +kernel

theorem last_seen_under_old_key : ∃ t,
    Relation.ReflTransGen (sampleConfig.StepIf fun _ _ => True) (sampleConfig.loaded sampleDevices [])
      t ∧
    Store.activityByAddr t.store sensorAddr = some firstActivity ∧
    t.store.readings = [⟨sensorAddr, sensedReading, sensorKey⟩] ∧
    openKeyColumn sampleConfig.kekAead firstActivity.record.key sensorAddr sampleConfig.ring =
      .ok mintedKey ∧
    ¬ LastSeenCurrent sampleConfig t.store := by
  have hrotate : Relation.ReflTransGen (sampleConfig.StepIf fun _ _ => True)
      (sampleConfig.loaded sampleDevices []) halfRotated :=
    rotateKey_run rfl sampleDevices_sensor firstSealed_eq fun _ _ _ _ => trivial
  have hstore : Relation.ReflTransGen (sampleConfig.StepIf fun _ _ => True) halfRotated
      { halfRotated.set 0 (.ret ()) with
        store := halfRotated.store.insertReading storedUnderOldKey } :=
    envelope_run (e := sensorEnvelope) rfl sensorDevice_loaded sensorEnvelope_opens
      (by decide +kernel) fun _ _ _ _ => trivial
  have hcolumn := openKeyColumn_seal sampleConfig_lawful firstSealed_eq
  refine ⟨_, hrotate.trans hstore, halfRotated_activity, rfl, hcolumn, fun h => ?_⟩
  have hkey := h sensorAddr firstActivity _ halfRotated_activity rfl storedUnderOldKey
    List.mem_cons_self rfl rfl
  cases hkey.symm.trans hcolumn

/-- An envelope that is stored under the key on file. -/
theorem last_seen_current_ingested : ∃ t,
    Relation.ReflTransGen (sampleConfig.StepIf (ApiProcess.Timely sampleConfig))
      (sampleConfig.loaded sampleDevices []) t ∧
    (∃ activity, Store.activityByAddr t.store sensorAddr = some activity ∧
      activity.lastSeen = some 1753000000000000000) ∧
    LastSeenCurrent sampleConfig t.store := by
  let start := sampleConfig.loaded sampleDevices []
  have hstore : Relation.ReflTransGen (sampleConfig.StepIf (ApiProcess.Timely sampleConfig)) start
      { start.set 0 (.ret ()) with store := start.store.insertReading storedUnderOldKey } := by
    refine envelope_run (e := sensorEnvelope) rfl sensorDevice_loaded sensorEnvelope_opens
      (by decide +kernel) fun s' hs ev hev => ?_
    simp only [List.mem_cons, List.not_mem_nil, or_false] at hev
    rcases hev with rfl | rfl | rfl
    · trivial
    · exact ⟨fun _ hr => (nomatch hr), fun _ _ hw => (nomatch hw)⟩
    · refine ⟨fun r hr => .inl ⟨sensorRow, ?_, .inl ?_⟩, fun _ _ hw => (nomatch hw)⟩
      · cases hr
        rw [hs]
        exact sampleDevices_sensor
      · cases hr
        decide +kernel
  refine ⟨_, hstore, ⟨_, by rw [Store.activityByAddr]; rfl, by decide +kernel⟩, ?_⟩
  exact last_seen_current hstore (lastSeenCurrent_iff.mpr fun r hr => nomatch hr)

end Sample

end Homescope
