import Homescope.SqlTables

/-! The migration `20261005100951_remove_devices_id.sql`: the address of a
device takes over from its `id` as the key of `devices` and in `readings`. -/

namespace Homescope.RemoveDevicesId

open Sql Sql.Database

/-! ### The tables that the earlier migrations leave -/

def devicesTable (rows : List Row) : Table where
  columns := ["id", "device_addr", "name", "key", "key_valid_from"]
  notNull := ["id", "device_addr", "name", "key_valid_from"]
  constraints := [("devices_pkey", .primaryKey ["id"]),
    ("devices_device_addr_key", .unique ["device_addr"]),
    ("device_addr_is_48_bits", .between "device_addr" 0 281474976710655)]
  indexes := []
  rows

def readingsTable (rows : List Row) : Table where
  columns := ["time", "device_id", "seq", "temp_degc", "rh_percent", "battery_mv", "rssi"]
  notNull := ["time", "device_id", "seq", "rssi"]
  constraints := [("readings_new_device_id_fkey", .foreignKey ["device_id"] "devices" ["id"]),
    ("readings_device_id_seq_time_key", .unique ["device_id", "seq", "time"])]
  indexes := [("readings_time_idx", ["time"]), ("readings_device_id_time_idx", ["device_id", "time"])]
  rows

def before (devices readings : List Row) : Database :=
  [("devices", devicesTable devices), ("readings", readingsTable readings)]

/-! ### The migration -/

/-- Backfill the new reference. -/
def backfill : List Statement :=
  [.addColumn "readings" "device_addr",
    .updateFrom "readings" "device_addr" "devices" "device_addr" "id" "device_id",
    .setNotNull "readings" "device_addr"]

/-- Drop everything built on `device_id`. -/
def dropReferences : List Statement :=
  [.dropConstraint "readings" "readings_new_device_id_fkey",
    .dropConstraint "readings" "readings_device_id_seq_time_key",
    .dropIndex "readings_device_id_time_idx",
    .dropColumn "readings" "device_id"]

/-- `device_addr` takes over the primary key. -/
def rekeyDevices : List Statement :=
  [.dropConstraint "devices" "devices_pkey",
    .dropConstraint "devices" "devices_device_addr_key",
    .addConstraint "devices" "devices_pkey" (.primaryKey ["device_addr"]),
    .dropColumn "devices" "id"]

/-- The same three objects, rebuilt on `device_addr`. -/
def rebuild : List Statement :=
  [.addConstraint "readings" "readings_device_addr_fkey"
      (.foreignKey ["device_addr"] "devices" ["device_addr"]),
    .addConstraint "readings" "readings_device_addr_seq_time_key"
      (.unique ["device_addr", "seq", "time"]),
    .createIndex "readings_device_addr_time_idx" "readings" ["device_addr", "time"]]

def migration : List Statement := backfill ++ dropReferences ++ rekeyDevices ++ rebuild

/-! ### The tables in between -/

def widenedTable (rows : List Row) : Table :=
  { readingsTable rows with columns := (readingsTable rows).columns ++ ["device_addr"] }

def backfilledTable (rows : List Row) : Table :=
  { widenedTable rows with notNull := (readingsTable rows).notNull ++ ["device_addr"] }

def strippedTable (rows : List Row) : Table where
  columns := ["time", "seq", "temp_degc", "rh_percent", "battery_mv", "rssi", "device_addr"]
  notNull := ["time", "seq", "rssi", "device_addr"]
  constraints := []
  indexes := [("readings_time_idx", ["time"])]
  rows

def unkeyedTable (rows : List Row) : Table :=
  { devicesTable rows with
    constraints := [("device_addr_is_48_bits", .between "device_addr" 0 281474976710655)] }

def rekeyedTable (rows : List Row) : Table where
  columns := ["device_addr", "name", "key", "key_valid_from"]
  notNull := ["device_addr", "name", "key_valid_from", "device_addr"]
  constraints := [("device_addr_is_48_bits", .between "device_addr" 0 281474976710655),
    ("devices_pkey", .primaryKey ["device_addr"])]
  indexes := []
  rows

def linkedTable (rows : List Row) : Table :=
  { strippedTable rows with constraints := [("readings_device_addr_fkey",
      .foreignKey ["device_addr"] "devices" ["device_addr"])] }

def rebuiltTable (rows : List Row) : Table where
  columns := ["time", "seq", "temp_degc", "rh_percent", "battery_mv", "rssi", "device_addr"]
  notNull := ["time", "seq", "rssi", "device_addr"]
  constraints := [("readings_device_addr_fkey", .foreignKey ["device_addr"] "devices" ["device_addr"]),
    ("readings_device_addr_seq_time_key", .unique ["device_addr", "seq", "time"])]
  indexes := [("readings_time_idx", ["time"]), ("readings_device_addr_time_idx", ["device_addr", "time"])]
  rows

def widened (devices readings : List Row) : Database :=
  [("devices", devicesTable devices), ("readings", widenedTable readings)]

/-! ### What the old constraints give -/

variable {devices readings : List Row}

/-- What the constraints say of the rows. -/
structure Keyed (devices readings : List Row) : Prop where
  device_notNull : ∀ d ∈ devices, d.Complete ["id", "device_addr", "name", "key_valid_from"]
  id_unique : UniqueOn devices ["id"]
  addr_unique : UniqueOn devices ["device_addr"]
  addr_range : ∀ d ∈ devices, Constraint.InRange 0 281474976710655 (d "device_addr")
  reading_notNull : ∀ r ∈ readings, r.Complete ["time", "device_id", "seq", "rssi"]
  device : ∀ r ∈ readings, ∃ d ∈ devices, d "id" = r "device_id"
  reading_unique : UniqueOn readings ["device_id", "seq", "time"]

theorem keyed_of_valid (h : (before devices readings).Valid) : Keyed devices readings := by
  have hdevices := h _ (List.mem_cons_self ..)
  have hreadings := h ("readings", readingsTable readings) (by simp [before])
  have hkey := hdevices.constraints ("devices_pkey", .primaryKey ["id"]) (by simp [devicesTable])
  have haddr := hdevices.constraints ("devices_device_addr_key", .unique ["device_addr"])
    (by simp [devicesTable])
  have hrange := hdevices.constraints
    ("device_addr_is_48_bits", .between "device_addr" 0 281474976710655) (by simp [devicesTable])
  have hforeign := hreadings.constraints
    ("readings_new_device_id_fkey", .foreignKey ["device_id"] "devices" ["id"]) (by simp [readingsTable])
  have hseq := hreadings.constraints
    ("readings_device_id_seq_time_key", .unique ["device_id", "seq", "time"]) (by simp [readingsTable])
  refine ⟨hdevices.notNull, hkey.2, haddr, hrange, hreadings.notNull, fun r hr => ?_, hseq⟩
  have hcomplete : r.Complete ["device_id"] := by
    have hid := hreadings.notNull r hr "device_id" (by simp [readingsTable])
    simpa [Row.Complete] using hid
  obtain ⟨d, hd, hmatch⟩ := hforeign r hr hcomplete
  exact ⟨d, hd, by simpa [Row.key] using hmatch⟩

namespace Keyed

theorem id_ne_none (h : Keyed devices readings) {d : Row} (hd : d ∈ devices) : d "id" ≠ none :=
  h.device_notNull d hd "id" (by simp)

theorem addr_ne_none (h : Keyed devices readings) {d : Row} (hd : d ∈ devices) :
    d "device_addr" ≠ none :=
  h.device_notNull d hd "device_addr" (by simp)

theorem devicesTable_valid (h : Keyed devices readings) (db : Database) :
    (devicesTable devices).Valid db := by
  refine ⟨h.device_notNull, ?_⟩
  simp only [devicesTable, List.mem_cons, List.not_mem_nil, or_false]
  rintro _ (rfl | rfl | rfl)
  · exact ⟨fun d hd => by simpa [Row.Complete] using h.id_ne_none hd, h.id_unique⟩
  · exact h.addr_unique
  · exact h.addr_range

end Keyed

/-! ### The rows after the migration -/

/-- The address of the device of a reading. -/
def addrOf (devices : List Row) (r : Row) : Option Value :=
  match devices.filter fun d => d "id" ≠ none ∧ d "id" = r "device_id" with
  | d :: _ => d "device_addr"
  | [] => none

def readdressed (devices : List Row) (r : Row) : Row := r.set "device_addr" (addrOf devices r)

/-- A reading as the migration leaves it. -/
def moved (devices : List Row) (r : Row) : Row := (readdressed devices r).set "device_id" none

def after (devices readings : List Row) : Database :=
  [("devices", rekeyedTable (devices.map (·.set "id" none))),
    ("readings", rebuiltTable (readings.map (moved devices)))]

theorem Keyed.device_filter (h : Keyed devices readings) {r : Row} (hr : r ∈ readings) :
    ∃ d ∈ devices, d "id" = r "device_id" ∧ addrOf devices r = d "device_addr" ∧
      (devices.filter fun d => d "id" ≠ none ∧ d "id" = r "device_id") = [d] := by
  obtain ⟨d, hd, hid⟩ := h.device r hr
  have hfilter := h.id_unique.filter_eq hd (h.id_ne_none hd)
  rw [hid] at hfilter
  exact ⟨d, hd, hid, by rw [addrOf, hfilter], hfilter⟩

theorem Keyed.addrOf_ne_none (h : Keyed devices readings) {r : Row} (hr : r ∈ readings) :
    addrOf devices r ≠ none := by
  obtain ⟨d, hd, -, haddr, -⟩ := h.device_filter hr
  rw [haddr]
  exact h.addr_ne_none hd

/-- Readings with one address are of one device. -/
theorem Keyed.addrOf_inj (h : Keyed devices readings) {r r' : Row} (hr : r ∈ readings)
    (hr' : r' ∈ readings) (haddr : addrOf devices r = addrOf devices r') :
    r "device_id" = r' "device_id" := by
  obtain ⟨d, hd, hid, hd_addr, -⟩ := h.device_filter hr
  obtain ⟨d', hd', hid', hd_addr', -⟩ := h.device_filter hr'
  rw [hd_addr, hd_addr'] at haddr
  rw [← hid, ← hid', h.addr_unique.eq_of_mem hd hd' (h.addr_ne_none hd) haddr]

/-! ### The runs -/

/-- The update finds the one device of each reading. -/
theorem updateRow_readings (h : Keyed devices readings) :
    (readings.map (·.set "device_addr" none)).mapM
        (updateRow devices "device_addr" "device_addr" "id" "device_id") =
      .ok (readings.map (readdressed devices)) := by
  rw [List.mapM_map]
  refine Commands.mapM_eq_pure fun r hr => ?_
  obtain ⟨d, -, -, haddr, hfilter⟩ := h.device_filter hr
  have hid : r.set "device_addr" none "device_id" = r "device_id" := Row.set_other r none (by decide)
  simp only [Function.comp, updateRow, hid, hfilter, readdressed, haddr]
  exact congrArg Except.ok (Function.update_idem ..)

theorem readdressed_other (devices : List Row) (r : Row) {column : String}
    (hcolumn : column ≠ "device_addr") : readdressed devices r column = r column :=
  Row.set_other r _ hcolumn

/-- The update breaks no constraint. -/
theorem updated_valid (h : Keyed devices readings) :
    (widened devices (readings.map (readdressed devices))).Valid := by
  have hkeep (columns : List String) (hnot : "device_addr" ∉ columns) :
      ∀ r ∈ readings, ∀ column ∈ columns, readdressed devices r column = r column :=
    fun r _ column hcolumn => readdressed_other devices r (ne_of_mem_of_not_mem hcolumn hnot)
  have hreadings : (widenedTable (readings.map (readdressed devices))).Valid
      (widened devices (readings.map (readdressed devices))) := by
    constructor
    · refine List.forall_mem_map.mpr fun r hr => ?_
      exact (Row.complete_congr (hkeep _ (by simp [widenedTable, readingsTable]) r hr)).mpr
        (h.reading_notNull r hr)
    · simp only [widenedTable, readingsTable, List.mem_cons, List.not_mem_nil, or_false]
      rintro _ (rfl | rfl)
      · refine List.forall_mem_map.mpr fun r hr _ => ?_
        obtain ⟨d, hd, hid⟩ := h.device r hr
        refine ⟨d, hd, ?_⟩
        rw [Row.key_congr (hkeep ["device_id"] (by decide) r hr)]
        simpa [Row.key] using hid
      · exact h.reading_unique.map (hkeep _ (by decide))
  intro p hp
  simp only [widened, List.mem_cons, List.not_mem_nil, or_false] at hp
  rcases hp with rfl | rfl
  · exact h.devicesTable_valid _
  · exact hreadings

theorem backfill_run (h : Keyed devices readings) : run backfill (before devices readings) =
    .ok [("devices", devicesTable devices),
      ("readings", backfilledTable (readings.map (readdressed devices)))] := by
  have hadd : (before devices readings).exec (.addColumn "readings" "device_addr") =
      .ok (widened devices (readings.map (·.set "device_addr" none))) := rfl
  have hupdate : (widened devices (readings.map (·.set "device_addr" none))).exec
      (.updateFrom "readings" "device_addr" "devices" "device_addr" "id" "device_id") =
        .ok (widened devices (readings.map (readdressed devices))) := by
    refine exec_updateFrom rfl ?_ rfl (updated_valid h)
    exact updateRow_readings h
  have hnotNull : (widened devices (readings.map (readdressed devices))).exec
      (.setNotNull "readings" "device_addr") = .ok
        [("devices", devicesTable devices),
          ("readings", backfilledTable (readings.map (readdressed devices)))] := by
    refine exec_setNotNull rfl (by simp [widenedTable]) (List.forall_mem_map.mpr fun r hr => ?_) rfl
    rw [readdressed, Row.set_same]
    exact h.addrOf_ne_none hr
  rw [backfill, run_cons hadd, run_cons hupdate, run_cons hnotNull, run]

theorem dropReferences_run (devices readings : List Row) :
    run dropReferences [("devices", devicesTable devices), ("readings", backfilledTable readings)] =
      .ok [("devices", devicesTable devices),
        ("readings", strippedTable (readings.map (·.set "device_id" none)))] := by
  rfl

/-- The devices without their old key. -/
def unkeyed (devices stripped : List Row) : Database :=
  [("devices", unkeyedTable devices), ("readings", strippedTable stripped)]

/-- The devices under their new key, next to the readings as far as they are. -/
def rekeyed (devices : List Row) (readingsTable : Table) : Database :=
  [("devices", rekeyedTable (devices.map (·.set "id" none))), ("readings", readingsTable)]

theorem rekeyDevices_run (h : Keyed devices readings) (stripped : List Row) :
    run rekeyDevices [("devices", devicesTable devices), ("readings", strippedTable stripped)] =
      .ok (rekeyed devices (strippedTable stripped)) := by
  have hholds : (Constraint.primaryKey ["device_addr"]).Holds (unkeyed devices stripped) devices :=
    ⟨fun d hd => by simpa [Row.Complete] using h.addr_ne_none hd, h.addr_unique⟩
  have hadd : (unkeyed devices stripped).exec
      (.addConstraint "devices" "devices_pkey" (.primaryKey ["device_addr"])) = .ok _ :=
    exec_addConstraint rfl (by rintro _ _ _ ⟨⟩) (of_decide_eq_true rfl) rfl (of_decide_eq_true rfl)
      hholds rfl
  exact (run_cons hadd : run (_ :: [.dropColumn "devices" "id"]) (unkeyed devices stripped) = _)

theorem moved_addr (devices : List Row) (r : Row) : moved devices r "device_addr" = addrOf devices r := by
  rw [moved, Row.set_other _ _ (by decide), readdressed, Row.set_same]

theorem moved_other (devices : List Row) (r : Row) {column : String} (haddr : column ≠ "device_addr")
    (hid : column ≠ "device_id") : moved devices r column = r column := by
  rw [moved, Row.set_other _ _ hid, readdressed_other _ _ haddr]

theorem foreignKey_holds (h : Keyed devices readings) : ∀ r ∈ readings.map (moved devices),
    ∃ d ∈ devices.map (·.set "id" none), d.key ["device_addr"] = r.key ["device_addr"] := by
  refine List.forall_mem_map.mpr fun r hr => ?_
  obtain ⟨d, hd, -, haddr, -⟩ := h.device_filter hr
  refine ⟨d.set "id" none, List.mem_map_of_mem hd, ?_⟩
  have hset : d.set "id" none "device_addr" = d "device_addr" := Row.set_other _ _ (by decide)
  simp [Row.key, hset, moved_addr, haddr]

theorem seq_unique (h : Keyed devices readings) :
    UniqueOn (readings.map (moved devices)) ["device_addr", "seq", "time"] := by
  refine List.pairwise_map.mpr (h.reading_unique.imp_of_mem fun {r r'} hr hr' hne _ hkey => ?_)
  have hcomplete : r.Complete ["device_id", "seq", "time"] := by
    have hsub : ["device_id", "seq", "time"] ⊆ ["time", "device_id", "seq", "rssi"] := by decide
    exact fun column hcolumn => h.reading_notNull r hr column (hsub hcolumn)
  simp only [Row.key, List.map_cons, List.map_nil, List.cons.injEq, moved_addr, and_true,
    moved_other _ _ (show "seq" ≠ "device_addr" by decide) (by decide),
    moved_other _ _ (show "time" ≠ "device_addr" by decide) (by decide)] at hkey
  obtain ⟨haddr, hseq, htime⟩ := hkey
  refine hne hcomplete ?_
  simp [Row.key, h.addrOf_inj hr hr' haddr, hseq, htime]

theorem rebuild_run (h : Keyed devices readings) :
    run rebuild (rekeyed devices (strippedTable (readings.map (moved devices)))) =
      .ok (after devices readings) := by
  have hholds : (Constraint.foreignKey ["device_addr"] "devices" ["device_addr"]).Holds
      (rekeyed devices (strippedTable (readings.map (moved devices)))) (readings.map (moved devices)) :=
    fun r hr _ => foreignKey_holds h r hr
  have hforeign : (rekeyed devices (strippedTable (readings.map (moved devices)))).exec
      (.addConstraint "readings" "readings_device_addr_fkey"
        (.foreignKey ["device_addr"] "devices" ["device_addr"])) =
          .ok (rekeyed devices (linkedTable (readings.map (moved devices)))) :=
    exec_addConstraint rfl (by rintro _ _ _ ⟨⟩; rfl) (of_decide_eq_true rfl) rfl (of_decide_eq_true rfl)
      hholds rfl
  have hunique : (rekeyed devices (linkedTable (readings.map (moved devices)))).exec
      (.addConstraint "readings" "readings_device_addr_seq_time_key"
        (.unique ["device_addr", "seq", "time"])) = .ok _ :=
    exec_addConstraint rfl (by rintro _ _ _ ⟨⟩) (of_decide_eq_true rfl) rfl (of_decide_eq_true rfl)
      (seq_unique h) rfl
  rw [rebuild, run_cons hforeign, run_cons hunique]
  rfl

/-! ### The join -/

/-- The columns of a reading that do not depend on its device. -/
def measured (r : Row) : List (Option Value) :=
  r.key ["time", "seq", "temp_degc", "rh_percent", "battery_mv", "rssi"]

/-- The readings with the address of their device, joined on `d.on = r.equals`. -/
def located (db : Database) (on equals : String) : List (Option Value × List (Option Value)) :=
  (db.rows "readings").flatMap fun r =>
    ((db.rows "devices").filter fun d => d on ≠ none ∧ d on = r equals).map fun d =>
      (d "device_addr", measured r)

theorem located_eq {db : Database} {on equals : String} {rows : List Row} {f : Row → Row}
    {g : Row → Option Value × List (Option Value)} (hrows : db.rows "readings" = rows.map f)
    (h : ∀ r ∈ rows, ∃ d, ((db.rows "devices").filter fun d => d on ≠ none ∧ d on = f r equals) = [d] ∧
      (d "device_addr", measured (f r)) = g r) : located db on equals = rows.map g := by
  rw [located, hrows, List.flatMap_map, List.map_eq_flatMap]
  refine congrArg List.flatten (List.map_congr_left fun r hr => ?_)
  obtain ⟨d, hfilter, hg⟩ := h r hr
  rw [hfilter, List.map_singleton, hg]

namespace Keyed

theorem located_before (h : Keyed devices readings) :
    located (before devices readings) "id" "device_id" =
      readings.map fun r => (addrOf devices r, measured r) := by
  refine located_eq (List.map_id readings).symm fun r hr => ?_
  obtain ⟨d, -, -, haddr, hfilter⟩ := h.device_filter hr
  exact ⟨d, hfilter, by rw [haddr]; rfl⟩

theorem newAddr_unique (h : Keyed devices readings) :
    UniqueOn (devices.map (·.set "id" none)) ["device_addr"] :=
  h.addr_unique.map fun d _ column hcolumn => by
    obtain rfl := List.mem_singleton.mp hcolumn
    exact Row.set_other d none (by decide)

theorem located_after (h : Keyed devices readings) :
    located (after devices readings) "device_addr" "device_addr" =
      readings.map fun r => (addrOf devices r, measured r) := by
  refine located_eq rfl fun r hr => ?_
  obtain ⟨d, hd, -, haddr, -⟩ := h.device_filter hr
  have hset : d.set "id" none "device_addr" = d "device_addr" := Row.set_other d none (by decide)
  have hfilter := h.newAddr_unique.filter_eq (List.mem_map_of_mem hd) (hset.trans_ne (h.addr_ne_none hd))
  refine ⟨d.set "id" none, ?_, ?_⟩
  · rw [moved_addr, haddr, ← hset]
    exact hfilter
  · have hmeasured : measured (moved devices r) = measured r :=
      Row.key_congr fun column hcolumn => moved_other devices r
        (ne_of_mem_of_not_mem hcolumn (by decide)) (ne_of_mem_of_not_mem hcolumn (by decide))
    rw [hset, haddr, hmeasured]

theorem after_valid (h : Keyed devices readings) : (after devices readings).Valid := by
  have hdevices : (rekeyedTable (devices.map (·.set "id" none))).Valid (after devices readings) := by
    have hkeep {columns : List String} (hid : "id" ∉ columns) : ∀ d ∈ devices, ∀ column ∈ columns,
        d.set "id" none column = d column :=
      fun d _ column hcolumn => Row.set_other d none (ne_of_mem_of_not_mem hcolumn hid)
    constructor
    · refine List.forall_mem_map.mpr fun d hd =>
        (Row.complete_congr (hkeep (by simp [rekeyedTable]) d hd)).mpr ?_
      have hsub : ["device_addr", "name", "key_valid_from", "device_addr"] ⊆
          ["id", "device_addr", "name", "key_valid_from"] := by decide
      exact fun column hcolumn => h.device_notNull d hd column (hsub hcolumn)
    · simp only [rekeyedTable, List.mem_cons, List.not_mem_nil, or_false]
      rintro _ (rfl | rfl)
      · refine List.forall_mem_map.mpr fun d hd => ?_
        rw [Row.set_other d none (by decide)]
        exact h.addr_range d hd
      · refine ⟨List.forall_mem_map.mpr fun d hd => ?_, h.newAddr_unique⟩
        refine (Row.complete_congr (hkeep (by decide) d hd)).mpr ?_
        simpa [Row.Complete] using h.addr_ne_none hd
  have hreadings : (rebuiltTable (readings.map (moved devices))).Valid (after devices readings) := by
    constructor
    · refine List.forall_mem_map.mpr fun r hr column hcolumn => ?_
      by_cases haddr : column = "device_addr"
      · rw [haddr, moved_addr]
        exact h.addrOf_ne_none hr
      · have hold : column ∈ ["time", "device_id", "seq", "rssi"] ∧ column ≠ "device_id" := by
          simp only [rebuiltTable, List.mem_cons, List.not_mem_nil, or_false] at hcolumn
          rcases hcolumn with rfl | rfl | rfl | rfl
          · decide
          · decide
          · decide
          · exact absurd rfl haddr
        rw [moved_other devices r haddr hold.2]
        exact h.reading_notNull r hr column hold.1
    · simp only [rebuiltTable, List.mem_cons, List.not_mem_nil, or_false]
      rintro _ (rfl | rfl)
      · exact fun r hr _ => foreignKey_holds h r hr
      · exact seq_unique h
  intro p hp
  simp only [after, List.mem_cons, List.not_mem_nil, or_false] at hp
  rcases hp with rfl | rfl
  · exact hdevices
  · exact hreadings

theorem migration_run (h : Keyed devices readings) :
    run migration (before devices readings) = .ok (after devices readings) := by
  have hmoved : (readings.map (readdressed devices)).map (·.set "device_id" none) =
      readings.map (moved devices) := List.map_map
  have hdrop := dropReferences_run devices (readings.map (readdressed devices))
  rw [hmoved] at hdrop
  rw [migration, run_append, run_append, run_append, backfill_run h]
  simp only [Except.bind, hdrop, rekeyDevices_run h, rebuild_run h]

end Keyed

/-- The migration succeeds on every database that the earlier migrations allow,
keeps every constraint, and each reading keeps its device and its values. -/
theorem migration_preserves (devices readings : List Row) (h : (before devices readings).Valid) :
    ∃ db, run migration (before devices readings) = .ok db ∧ db.Valid ∧
      (located db "device_addr" "device_addr").Perm
        (located (before devices readings) "id" "device_id") := by
  have hkeyed := keyed_of_valid h
  refine ⟨_, hkeyed.migration_run, hkeyed.after_valid, ?_⟩
  rw [hkeyed.located_after, hkeyed.located_before]

def sampleDevice : Row := fun column => List.lookup column
  [("id", .integer 7), ("device_addr", .integer 1108152157446), ("name", .text "kitchen"),
    ("key_valid_from", .timestamp 0)]

/-- A reading without a battery voltage. -/
def sampleReading : Row := fun column => List.lookup column
  [("time", .timestamp 60), ("device_id", .integer 7), ("seq", .integer 3),
    ("temp_degc", .double 0x4035000000000000), ("rh_percent", .double 0x4044000000000000),
    ("rssi", .integer (-70))]

theorem migration_preserves_sample : ∃ db,
    run migration (before [sampleDevice] [sampleReading]) = .ok db ∧ db.Valid ∧
      (located db "device_addr" "device_addr").Perm
        (located (before [sampleDevice] [sampleReading]) "id" "device_id") :=
  migration_preserves [sampleDevice] [sampleReading] (by decide +kernel)

end Homescope.RemoveDevicesId
