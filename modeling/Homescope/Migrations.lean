import Homescope.RemoveDevicesId
import Homescope.SqlMigrations
import Mathlib.Data.Multiset.MapFold
import Mathlib.Tactic.IntervalCases
import Mathlib.Tactic.Tauto

/-! The migrations of the API's database (`api/migrations`), from the first
table of readings to devices that are known by their address. -/

namespace Homescope.Migrations

open Sql Sql.Database RemoveDevicesId

/-! ### The migrations -/

def measurementColumns : List String := ["time", "seq", "temp_degc", "rh_percent", "battery_mv", "rssi"]

def readingColumns : List String :=
  ["time", "device_id", "seq", "temp_degc", "rh_percent", "battery_mv", "rssi"]

/-- A table of readings in which nothing may be `NULL`. -/
def fullTable (constraints : List (String × Constraint)) (indexes : List (String × List String))
    (rows : List Row) : Table where
  columns := readingColumns
  notNull := readingColumns
  constraints
  indexes
  rows

def createReadings : List Ddl :=
  [.createTable "readings" (fullTable [] [] []),
    .createHypertable "readings" "time" "readings_time_idx",
    .alter (.createIndex "readings_device_id_time_idx" "readings" ["device_id", "time"])]

/-- `UPPER(TO_HEX(n))` of a `BIGINT`. -/
def upperHex (n : Int) : String :=
  String.ofList ((Nat.toDigits 16 (n % 2 ^ 64).toNat).map Char.toUpper)

/-- `LPAD(s, len, '0')` -/
def lpad (len : Nat) (s : String) : String :=
  String.ofList ((List.replicate (len - s.length) '0' ++ s.toList).take len)

/-- `'Node-' || LPAD(UPPER(TO_HEX(device_id)), 16, '0')` -/
def nodeName : Option Value → Option Value
  | some (.integer n) => some (.text ("Node-" ++ lpad 16 (upperHex n)))
  | _ => none

def deviceRow (hardwareId : Option Value) : Row :=
  (Row.set (fun _ => none) "hardware_id" hardwareId).set "name" (nodeName hardwareId)

/-- `SELECT DISTINCT device_id, … FROM readings` -/
def distinctDevices (db : Database) : List Row :=
  ((db.rows "readings").map (· "device_id")).dedup.map deviceRow

/-- A reading of a device, which it refers to by the device's `id`. -/
def relatedRow (r d : Row) : Row := fun column =>
  if column = "device_id" then d "id" else if column ∈ measurementColumns then r column else none

/-- `readings r INNER JOIN devices d ON d.hardware_id = device_id` -/
def relatedReadings (db : Database) : List Row :=
  (db.rows "readings").flatMap fun r =>
    ((db.rows "devices").filter fun d => d "hardware_id" ≠ none ∧ d "hardware_id" = r "device_id").map
      (relatedRow r)

def hardwareTable (rows : List Row) : Table where
  columns := ["id", "hardware_id", "name"]
  notNull := ["id", "hardware_id", "name"]
  constraints := [("devices_pkey", .primaryKey ["id"]), ("devices_hardware_id_key", .unique ["hardware_id"])]
  indexes := []
  rows

def deviceReference : String × Constraint :=
  ("readings_new_device_id_fkey", .foreignKey ["device_id"] "devices" ["id"])

def createDevices : List Ddl :=
  [.createTable "devices" (hardwareTable []),
    .insert "devices" (some "id") distinctDevices,
    .createTable "readings_new" (fullTable [deviceReference] [] []),
    .createHypertable "readings_new" "time" "readings_new_time_idx",
    .insert "readings_new" none relatedReadings,
    .dropTable "readings",
    .renameTable "readings_new" "readings",
    .alter (.createIndex "readings_device_id_time_idx" "readings" ["device_id", "time"]),
    .renameIndex "readings_new_time_idx" "readings_time_idx"]

def addressRange : String × Constraint := ("device_addr_is_48_bits", .between "device_addr" 0 281474976710655)

def hardwareIdToDeviceAddr : List Ddl :=
  [.renameColumn "devices" "hardware_id" "device_addr",
    .alter (.addConstraint "devices" addressRange.1 addressRange.2),
    .renameIndex "devices_hardware_id_key" "devices_device_addr_key"]

def seqKey : String × Constraint := ("readings_device_id_seq_time_key", .unique ["device_id", "seq", "time"])

def addSeqUniquenessConstraint : List Ddl := [.alter (.addConstraint "readings" seqKey.1 seqKey.2)]

def makeMeasurementsNullable : List Ddl :=
  [.dropNotNull "readings" "battery_mv",
    .dropNotNull "readings" "temp_degc",
    .dropNotNull "readings" "rh_percent"]

/-- `now` is the time of the transaction. -/
def addDevicesKey (now : Int) : List Ddl :=
  [.alter (.addColumn "devices" "key"), .addDefault "devices" "key_updated_at" (.timestamp now)]

def renameKeyValidFrom : List Ddl := [.renameColumn "devices" "key_updated_at" "key_valid_from"]

def removeDevicesId : List Ddl := migration.map .alter

/-- The pattern that a site's name is checked against has no part here: no
migration inserts a site. -/
def sitesTable (rows : List Row) : Table where
  columns := ["id", "name", "display_name", "elevation_m"]
  notNull := ["id", "name"]
  constraints := [("sites_pkey", .primaryKey ["id"]), ("sites_name_key", .unique ["name"])]
  indexes := []
  rows

def roomsTable (rows : List Row) : Table where
  columns := ["id", "site_id", "name"]
  notNull := ["id", "site_id", "name"]
  constraints := [("rooms_pkey", .primaryKey ["id"]),
    ("rooms_site_id_fkey", .foreignKey ["site_id"] "sites" ["id"]),
    ("rooms_site_id_name_key", .unique ["site_id", "name"])]
  indexes := []
  rows

def placementsTable (rows : List Row) : Table where
  columns := ["device_addr", "room_id", "placed_at"]
  notNull := ["device_addr", "placed_at"]
  constraints := [("device_placements_pkey", .primaryKey ["device_addr", "placed_at"]),
    ("device_placements_device_addr_fkey", .foreignKey ["device_addr"] "devices" ["device_addr"]),
    ("device_placements_room_id_fkey", .foreignKey ["room_id"] "rooms" ["id"])]
  indexes := []
  rows

def sitesRoomsPlacements : List Ddl :=
  [.createTable "sites" (sitesTable []),
    .createTable "rooms" (roomsTable []),
    .createTable "device_placements" (placementsTable [])]

/-- By the time of their transaction. -/
def migrations (now : Int) : List (List Ddl) :=
  [createReadings, createDevices, hardwareIdToDeviceAddr, addSeqUniquenessConstraint,
    makeMeasurementsNullable, addDevicesKey now, renameKeyValidFrom, removeDevicesId, sitesRoomsPlacements]

/-! ### The database of each version -/

def firstTable (rows : List Row) : Table :=
  fullTable [] [("readings_time_idx", ["time"]), ("readings_device_id_time_idx", ["device_id", "time"])] rows

def referencingTable (rows : List Row) : Table :=
  fullTable [deviceReference]
    [("readings_time_idx", ["time"]), ("readings_device_id_time_idx", ["device_id", "time"])] rows

def uniqueTable (rows : List Row) : Table :=
  { referencingTable rows with constraints := [deviceReference, seqKey] }

def addressedTable (rows : List Row) : Table where
  columns := ["id", "device_addr", "name"]
  notNull := ["id", "device_addr", "name"]
  constraints := [("devices_pkey", .primaryKey ["id"]), ("devices_device_addr_key", .unique ["device_addr"]),
    addressRange]
  indexes := []
  rows

def keyTable (rows : List Row) : Table :=
  { addressedTable rows with
    columns := ["id", "device_addr", "name", "key", "key_updated_at"]
    notNull := ["id", "device_addr", "name", "key_updated_at"] }

def places : Database :=
  [("sites", sitesTable []), ("rooms", roomsTable []), ("device_placements", placementsTable [])]

/-- What the first `version` migrations make, with these rows. -/
def schema (version : Nat) (devices readings : List Row) : Database :=
  match version with
  | 0 => []
  | 1 => [("readings", firstTable readings)]
  | 2 => [("devices", hardwareTable devices), ("readings", referencingTable readings)]
  | 3 => [("devices", addressedTable devices), ("readings", referencingTable readings)]
  | 4 => [("devices", addressedTable devices), ("readings", uniqueTable readings)]
  | 5 => [("devices", addressedTable devices), ("readings", readingsTable readings)]
  | 6 => [("devices", keyTable devices), ("readings", readingsTable readings)]
  | 7 => before devices readings
  | 8 => [("devices", rekeyedTable devices), ("readings", rebuiltTable readings)]
  | _ => [("devices", rekeyedTable devices), ("readings", rebuiltTable readings)] ++ places

/-! ### What the database knows -/

variable {version : Nat} {devices readings : List Row}

structure DeviceFacts where
  addr : Option Value
  name : Option Value
  key : Option Value
  validFrom : Option Value
  deriving DecidableEq

structure ReadingFacts where
  addr : Option Value
  measured : List (Option Value)
  deriving DecidableEq

def addrColumn (version : Nat) : String := if version < 3 then "hardware_id" else "device_addr"

def validColumn (version : Nat) : String := if version < 7 then "key_updated_at" else "key_valid_from"

/-- A device from before the keys has none, and gets its time when they come. -/
def deviceFacts (now : Int) (version : Nat) (d : Row) : DeviceFacts where
  addr := d (addrColumn version)
  name := d "name"
  key := if version < 6 then none else d "key"
  validFrom := if version < 6 then some (.timestamp now) else d (validColumn version)

/-- The readings with the address of their device, joined on `d.on = r.equals`. -/
def joined (addr on equals : String) (db : Database) : List ReadingFacts :=
  (db.rows "readings").flatMap fun r =>
    ((db.rows "devices").filter fun d => d on ≠ none ∧ d on = r equals).map fun d => ⟨d addr, measured r⟩

/-- A reading by its device, its time and its seq. -/
def ReadingFacts.key (r : ReadingFacts) : Option Value × List (Option Value) := (r.addr, r.measured.take 2)

/-- Before there are devices, those that have been read count. -/
def devicesOf (now : Int) (version : Nat) (db : Database) : List DeviceFacts :=
  if version < 2 then (distinctDevices db).map (deviceFacts now version)
  else (db.rows "devices").map (deviceFacts now version)

def readingsOf (version : Nat) (db : Database) : List ReadingFacts :=
  if version < 2 then (db.rows "readings").map fun r => ⟨r "device_id", measured r⟩
  else if version < 8 then joined (addrColumn version) "id" "device_id" db
  else joined "device_addr" "device_addr" "device_addr" db

theorem devicesOf_rows (h2 : 2 ≤ version) (now : Int) (db : Database) :
    devicesOf now version db = (db.rows "devices").map (deviceFacts now version) := if_neg (by omega)

theorem readingsOf_joined (h2 : 2 ≤ version) (h7 : version ≤ 7) (db : Database) :
    readingsOf version db = joined (addrColumn version) "id" "device_id" db := by
  rw [readingsOf, if_neg (by omega), if_pos (by omega)]

structure Known where
  devices : Multiset DeviceFacts
  readings : Multiset ReadingFacts

def known (now : Int) (version : Nat) (db : Database) : Known :=
  ⟨devicesOf now version db, readingsOf version db⟩

/-! ### What the constraints say of the rows -/

/-- The rows of a database that has devices with an `id`. -/
@[mk_iff]
structure Linked (version : Nat) (devices readings : List Row) : Prop where
  id_notNull : ∀ d ∈ devices, d "id" ≠ none
  addr_notNull : ∀ d ∈ devices, d (addrColumn version) ≠ none
  name_notNull : ∀ d ∈ devices, d "name" ≠ none
  valid_notNull : 6 ≤ version → ∀ d ∈ devices, d (validColumn version) ≠ none
  id_unique : UniqueOn devices ["id"]
  addr_unique : UniqueOn devices [addrColumn version]
  addr_range : 3 ≤ version →
    ∀ d ∈ devices, Constraint.InRange 0 281474976710655 (d (addrColumn version))
  reading_notNull : ∀ r ∈ readings, r.Complete ["time", "device_id", "seq", "rssi"]
  measured_notNull : version ≤ 4 → ∀ r ∈ readings, r.Complete ["temp_degc", "rh_percent", "battery_mv"]
  device : ∀ r ∈ readings, ∃ d ∈ devices, d "id" = r "device_id"
  reading_unique : 4 ≤ version → UniqueOn readings ["device_id", "seq", "time"]

theorem valid_iff (h2 : 2 ≤ version) (h7 : version ≤ 7) :
    (schema version devices readings).Valid ↔ Linked version devices readings := by
  interval_cases version
  all_goals
    simp only [linked_iff, schema, before, Database.Valid, List.forall_mem_cons, Table.valid_iff,
      hardwareTable, addressedTable, keyTable, devicesTable, referencingTable, uniqueTable,
      readingsTable, fullTable, Constraint.Holds, deviceReference, seqKey, addressRange,
      readingColumns, List.not_mem_nil, false_imp_iff, imp_true_iff, and_true, addrColumn,
      validColumn, Database.rows, List.lookup_cons, Row.Complete, Row.key, beq_self_eq_true, forall_and,
      List.map_cons, List.map_nil, List.cons.injEq, Nat.reduceLeDiff, Nat.reduceLT, if_true,
      if_false, forall_const]
    tauto

/-- Devices that keep their `id` and their name, and their address under the
name that its column has next. -/
theorem Linked.next {f : Row → Row} {next : Nat} (h : Linked version devices readings)
    (hnext : version ≤ next) (hid : ∀ d ∈ devices, f d "id" = d "id")
    (hname : ∀ d ∈ devices, f d "name" = d "name")
    (haddr : ∀ d ∈ devices, f d (addrColumn next) = d (addrColumn version))
    (hvalid : 6 ≤ next → ∀ d ∈ devices, f d (validColumn next) ≠ none)
    (hrange : 3 ≤ next → ∀ d ∈ devices, Constraint.InRange 0 281474976710655 (d (addrColumn version)))
    (hunique : 4 ≤ next → UniqueOn readings ["device_id", "seq", "time"]) :
    Linked next (devices.map f) readings := by
  have hsame {column column' : String} (hf : ∀ d ∈ devices, f d column' = d column)
      (hu : UniqueOn devices [column]) : UniqueOn (devices.map f) [column'] := by
    rw [uniqueOn_single, List.pairwise_map]
    refine (uniqueOn_single.mp hu).imp_of_mem fun ha hb hab => ?_
    rw [hf _ ha, hf _ hb]
    exact hab
  constructor
  · exact List.forall_mem_map.mpr fun d hd => by rw [hid d hd]; exact h.id_notNull d hd
  · exact List.forall_mem_map.mpr fun d hd => by rw [haddr d hd]; exact h.addr_notNull d hd
  · exact List.forall_mem_map.mpr fun d hd => by rw [hname d hd]; exact h.name_notNull d hd
  · exact fun h6 => List.forall_mem_map.mpr (hvalid h6)
  · exact hsame hid h.id_unique
  · exact hsame haddr h.addr_unique
  · exact fun h3 => List.forall_mem_map.mpr fun d hd => by rw [haddr d hd]; exact hrange h3 d hd
  · exact h.reading_notNull
  · exact fun h4 => h.measured_notNull (hnext.trans h4)
  · intro r hr
    obtain ⟨d, hd, hmatch⟩ := h.device r hr
    exact ⟨f d, List.mem_map_of_mem hd, (hid d hd).trans hmatch⟩
  · exact hunique

theorem rows_schema (h2 : 2 ≤ version) (h9 : version ≤ 9) (devices readings : List Row) :
    (schema version devices readings).rows "devices" = devices ∧
      (schema version devices readings).rows "readings" = readings := by
  interval_cases version <;> exact ⟨rfl, rfl⟩

/-- A reading is unique by its `id` if and only if it is by its address. -/
theorem Linked.reading_unique_iff (h : Linked version devices readings) (h2 : 2 ≤ version)
    (h7 : version ≤ 7) : UniqueOn readings ["device_id", "seq", "time"] ↔
      ((readingsOf version (schema version devices readings)).map ReadingFacts.key).Nodup := by
  obtain ⟨hdevices, hreadings⟩ := rows_schema h2 (by omega) devices readings
  obtain ⟨owner, howner, hjoin⟩ := join_unique h.id_unique h.id_notNull h.device
    fun r d => (⟨d (addrColumn version), measured r⟩ : ReadingFacts)
  rw [readingsOf_joined h2 h7, joined, hdevices, hreadings, hjoin, List.map_map, List.Nodup,
    List.pairwise_map, UniqueOn]
  refine List.Pairwise.iff_of_mem fun {r r'} hr hr' => ?_
  have hcomplete : r.Complete ["device_id", "seq", "time"] := fun column hcolumn =>
    h.reading_notNull r hr column (by simp only [List.mem_cons] at hcolumn ⊢; tauto)
  have howners : owner r (addrColumn version) = owner r' (addrColumn version) ↔
      r "device_id" = r' "device_id" := by
    obtain ⟨hmem, hid⟩ := howner r hr
    obtain ⟨hmem', hid'⟩ := howner r' hr'
    rw [← hid, ← hid']
    constructor
    · exact fun haddr => congrArg (· "id")
        (h.addr_unique.eq_of_mem hmem hmem' (h.addr_notNull _ hmem) haddr)
    · exact fun heq => congrArg (· (addrColumn version))
        (h.id_unique.eq_of_mem hmem hmem' (h.id_notNull _ hmem) heq)
  simp only [hcomplete, forall_const, Function.comp, ReadingFacts.key, measured, Row.key, List.map_cons,
    List.map_nil, List.take_succ_cons, List.take_zero, ne_eq, List.cons.injEq, and_true, Prod.mk.injEq,
    howners]
  tauto

theorem known_next {f : Row → Row} {now : Int} {next : Nat} (h2 : 2 ≤ version) (h7 : version ≤ 7)
    (hnext : 2 ≤ next) (hnext7 : next ≤ 7) (hid : ∀ d ∈ devices, f d "id" = d "id")
    (haddr : ∀ d ∈ devices, f d (addrColumn next) = d (addrColumn version))
    (hfacts : ∀ d ∈ devices, deviceFacts now next (f d) = deviceFacts now version d) :
    known now next (schema next (devices.map f) readings) =
      known now version (schema version devices readings) := by
  obtain ⟨hdevices, hreadings⟩ := rows_schema h2 (by omega) devices readings
  obtain ⟨hdevices', hreadings'⟩ := rows_schema hnext (by omega) (devices.map f) readings
  have hjoin (r : Row) : ((devices.map f).filter fun d => d "id" ≠ none ∧ d "id" = r "device_id").map
      (fun d => (⟨d (addrColumn next), measured r⟩ : ReadingFacts)) =
        (devices.filter fun d => d "id" ≠ none ∧ d "id" = r "device_id").map
          fun d => ⟨d (addrColumn version), measured r⟩ := by
    rw [List.filter_map, List.map_map]
    have hfilter : devices.filter ((fun d => decide (d "id" ≠ none ∧ d "id" = r "device_id")) ∘ f) =
        devices.filter fun d => d "id" ≠ none ∧ d "id" = r "device_id" :=
      List.filter_congr fun d hd => by simp only [Function.comp, hid d hd]
    rw [hfilter]
    refine List.map_congr_left fun d hd => ?_
    simp only [Function.comp, haddr d (List.mem_of_mem_filter hd)]
  have hreadingsOf : readingsOf next (schema next (devices.map f) readings) =
      readingsOf version (schema version devices readings) := by
    rw [readingsOf_joined h2 h7, readingsOf_joined hnext hnext7, joined, joined, hdevices, hreadings,
      hdevices', hreadings']
    simp only [hjoin]
  have hdevicesOf : devicesOf now next (schema next (devices.map f) readings) =
      devicesOf now version (schema version devices readings) := by
    rw [devicesOf_rows h2, devicesOf_rows hnext, hdevices, hdevices', List.map_map]
    exact List.map_congr_left hfacts
  rw [known, known, hreadingsOf, hdevicesOf]

/-! ### One migration -/

variable {planner : Planner} {now : Int} {db' : Database}

/-- Between the rename and the check. -/
def renamed (devices readings : List Row) : Database :=
  [("devices", { addressedTable devices with constraints :=
      [("devices_pkey", .primaryKey ["id"]), ("devices_hardware_id_key", .unique ["device_addr"])] }),
    ("readings", referencingTable readings)]

/-- The renamed column holds the addresses, so the check is one of what were
hardware ids. -/
theorem hardwareIdToDeviceAddr_eq_ok : transact planner hardwareIdToDeviceAddr
    (schema 2 devices readings) = .ok db' ↔
      (∀ d ∈ devices, Constraint.InRange 0 281474976710655 (d "hardware_id")) ∧
        db' = schema 3 (devices.map (·.rename "hardware_id" "device_addr")) readings := by
  have hrename : execDdl planner (schema 2 devices readings)
      (.renameColumn "devices" "hardware_id" "device_addr") =
        .ok (renamed (devices.map (·.rename "hardware_id" "device_addr")) readings) := rfl
  rw [hardwareIdToDeviceAddr, transact_cons hrename]
  refine (transact_addConstraint rfl rfl (of_decide_eq_true rfl) rfl (of_decide_eq_true rfl) rfl).trans ?_
  refine and_congr ?_ ⟨fun h => (Except.ok.inj h).symm, fun h => congrArg Except.ok h.symm⟩
  simp [addressedTable, addressRange, Constraint.Holds]

theorem addSeqUniquenessConstraint_eq_ok : transact planner addSeqUniquenessConstraint
    (schema 3 devices readings) = .ok db' ↔
      UniqueOn readings ["device_id", "seq", "time"] ∧ db' = schema 4 devices readings := by
  refine (transact_addConstraint rfl rfl (of_decide_eq_true rfl) rfl (of_decide_eq_true rfl) rfl).trans ?_
  exact and_congr Iff.rfl ⟨fun h => (Except.ok.inj h).symm, fun h => congrArg Except.ok h.symm⟩

theorem makeMeasurementsNullable_run : transact planner makeMeasurementsNullable
    (schema 4 devices readings) = .ok (schema 5 devices readings) := rfl

/-- A device when the keys come. -/
def keyless (now : Int) (d : Row) : Row :=
  (d.set "key" none).set "key_updated_at" (some (.timestamp now))

theorem addDevicesKey_run : transact planner (addDevicesKey now) (schema 5 devices readings) =
    .ok (schema 6 (devices.map (keyless now)) readings) := by
  have hmap : devices.map (keyless now) =
      (devices.map (·.set "key" none)).map (·.set "key_updated_at" (some (.timestamp now))) := by
    rw [List.map_map]
    rfl
  rw [hmap]
  rfl

theorem renameKeyValidFrom_run : transact planner renameKeyValidFrom (schema 6 devices readings) =
    .ok (schema 7 (devices.map (·.rename "key_updated_at" "key_valid_from")) readings) := rfl

/-! ### The devices of the readings -/

/-- The readings of the first version, whose `device_id` is a `BIGINT`. -/
structure First (readings : List Row) : Prop where
  notNull : ∀ r ∈ readings, r.Complete readingColumns
  device_id : ∀ r ∈ readings, ∃ n : Int, r "device_id" = some (.integer n)

def createdDevices (planner : Planner) (readings : List Row) : List Row :=
  number "id" (planner.order (distinctDevices (schema 1 [] readings)))

def createdReadings (planner : Planner) (devices readings : List Row) : List Row :=
  planner.order (relatedReadings [("readings", firstTable readings), ("devices", hardwareTable devices)])

theorem mem_createdDevices {d : Row} (h : d ∈ createdDevices planner readings) :
    ∃ r ∈ readings, d "hardware_id" = r "device_id" ∧ d "name" = nodeName (r "device_id") := by
  obtain ⟨row, hrow, value, rfl⟩ := mem_number h
  obtain ⟨hardwareId, hmem, rfl⟩ := List.mem_map.mp ((planner.perm _).mem_iff.mp hrow)
  obtain ⟨r, hr, rfl⟩ := List.mem_map.mp (List.mem_dedup.mp hmem)
  exact ⟨r, hr, rfl, rfl⟩

theorem createdDevices_map {α : Type} {f : Row → α} (h : ∀ row value, f (row.set "id" value) = f row) :
    ((createdDevices planner readings).map f).Perm ((distinctDevices (schema 1 [] readings)).map f) := by
  rw [createdDevices, number_map h]
  exact (planner.perm _).map f

theorem createdDevices_ids :
    ((createdDevices planner readings).map (· "hardware_id")).Perm (readings.map (· "device_id")).dedup := by
  have hmap : (distinctDevices (schema 1 [] readings)).map (· "hardware_id") =
      (readings.map (· "device_id")).dedup := by
    rw [distinctDevices, List.map_map]
    exact List.map_id _
  exact hmap ▸ createdDevices_map fun _ _ => rfl

theorem createdDevices_unique : UniqueOn (createdDevices planner readings) ["hardware_id"] :=
  uniqueOn_of_nodup ((createdDevices_ids.nodup_iff).mpr (List.nodup_dedup _))

/-- The one device of a reading. -/
theorem First.device (h : First readings) {r : Row} (hr : r ∈ readings) :
    ∃ d ∈ createdDevices planner readings, d "hardware_id" = r "device_id" ∧
      ((createdDevices planner readings).filter fun d =>
        d "hardware_id" ≠ none ∧ d "hardware_id" = r "device_id") = [d] := by
  have hmem : r "device_id" ∈ (createdDevices planner readings).map (· "hardware_id") :=
    createdDevices_ids.mem_iff.mpr (List.mem_dedup.mpr (List.mem_map_of_mem hr))
  obtain ⟨d, hd, hid⟩ := List.mem_map.mp hmem
  have hnull : d "hardware_id" ≠ none := by
    obtain ⟨n, hn⟩ := h.device_id r hr
    simp [hid, hn]
  have hfilter := createdDevices_unique.filter_eq hd hnull
  rw [hid] at hfilter
  exact ⟨d, hd, hid, hfilter⟩

theorem mem_createdReadings {r' : Row} (h : r' ∈ createdReadings planner devices readings) :
    ∃ r ∈ readings, ∃ d ∈ devices, r' = relatedRow r d := by
  obtain ⟨r, hr, hmem⟩ := List.mem_flatMap.mp ((planner.perm _).mem_iff.mp h)
  obtain ⟨d, hd, rfl⟩ := List.mem_map.mp hmem
  exact ⟨r, hr, d, List.mem_of_mem_filter hd, rfl⟩

theorem First.linked (h : First readings) : Linked 2 (createdDevices planner readings)
    (createdReadings planner (createdDevices planner readings) readings) := by
  have hid : ∀ d ∈ createdDevices planner readings, d "id" ≠ none := number_identity_ne_none
  have hreading {columns : List String} (hsub : columns ⊆ readingColumns) :
      ∀ r' ∈ createdReadings planner (createdDevices planner readings) readings, r'.Complete columns := by
    intro r' hr' column hcolumn
    obtain ⟨r, hr, d, hd, rfl⟩ := mem_createdReadings hr'
    by_cases hdevice : column = "device_id"
    · rw [relatedRow, if_pos hdevice]
      exact hid d hd
    · have hmeasured : column ∈ measurementColumns := by
        have hmem := hsub hcolumn
        simp only [readingColumns, measurementColumns, List.mem_cons] at hmem ⊢
        tauto
      rw [relatedRow, if_neg hdevice, if_pos hmeasured]
      exact h.notNull r hr column (hsub hcolumn)
  constructor
  · exact hid
  · intro d hd
    obtain ⟨r, hr, haddr, -⟩ := mem_createdDevices hd
    obtain ⟨n, hn⟩ := h.device_id r hr
    change d "hardware_id" ≠ none
    simp [haddr, hn]
  · intro d hd
    obtain ⟨r, hr, -, hname⟩ := mem_createdDevices hd
    obtain ⟨n, hn⟩ := h.device_id r hr
    simp [hname, hn, nodeName]
  · exact fun h6 => absurd h6 (by omega)
  · exact number_unique
  · exact createdDevices_unique
  · exact fun h3 => absurd h3 (by omega)
  · exact hreading (by decide)
  · exact fun _ => hreading (by decide)
  · intro r' hr'
    obtain ⟨r, -, d, hd, rfl⟩ := mem_createdReadings hr'
    exact ⟨d, hd, rfl⟩
  · exact fun h4 => absurd h4 (by omega)

theorem schema_one_valid_iff :
    (schema 1 devices readings).Valid ↔ ∀ r ∈ readings, r.Complete readingColumns := by
  simp [schema, Database.Valid, Table.valid_iff, firstTable, fullTable]

/-- With the devices inserted, and then with the new readings too. -/
theorem First.inserting_valid (h : First readings) :
    Database.Valid [("readings", firstTable readings),
      ("devices", hardwareTable (createdDevices planner readings))] ∧
    Database.Valid [("readings", firstTable readings),
      ("devices", hardwareTable (createdDevices planner readings)),
      ("readings_new", fullTable [deviceReference] [("readings_new_time_idx", ["time"])]
        (createdReadings planner (createdDevices planner readings) readings))] := by
  have hafter : (schema 2 (createdDevices planner readings)
      (createdReadings planner (createdDevices planner readings) readings)).Valid :=
    (valid_iff (by omega) (by omega)).mpr h.linked
  have hfirst : (schema 1 [] readings).Valid := schema_one_valid_iff.mpr h.notNull
  simp only [schema, Database.Valid, List.forall_mem_cons, Table.valid_iff, hardwareTable, firstTable,
    referencingTable, fullTable, deviceReference, Constraint.Holds, Database.rows, List.lookup_cons,
    List.not_mem_nil, false_imp_iff, imp_true_iff, and_true] at hafter hfirst ⊢
  tauto

theorem First.createDevices_eq_ok (h : First readings) : transact planner createDevices
    (schema 1 devices readings) = .ok db' ↔
      (readings.map (· "device_id")).dedup.length ≤ identityMax ∧
        db' = schema 2 (createdDevices planner readings)
          (createdReadings planner (createdDevices planner readings) readings) := by
  obtain ⟨hdevices, hreadings⟩ := h.inserting_valid
  have hcreate : execDdl planner (schema 1 devices readings) (.createTable "devices" (hardwareTable [])) =
      .ok [("readings", firstTable readings), ("devices", hardwareTable [])] := rfl
  have hnew : execDdl planner [("readings", firstTable readings),
      ("devices", hardwareTable (createdDevices planner readings))]
        (.createTable "readings_new" (fullTable [deviceReference] [] [])) =
      .ok [("readings", firstTable readings), ("devices", hardwareTable (createdDevices planner readings)),
        ("readings_new", fullTable [deviceReference] [] [])] := rfl
  have hindex : execDdl planner [("readings", firstTable readings),
      ("devices", hardwareTable (createdDevices planner readings)),
      ("readings_new", fullTable [deviceReference] [] [])]
        (.createHypertable "readings_new" "time" "readings_new_time_idx") =
      .ok [("readings", firstTable readings), ("devices", hardwareTable (createdDevices planner readings)),
        ("readings_new", fullTable [deviceReference] [("readings_new_time_idx", ["time"])] [])] := rfl
  have hlength : (distinctDevices [("readings", firstTable readings), ("devices", hardwareTable [])]).length =
      (readings.map (· "device_id")).dedup.length := List.length_map _
  rw [createDevices, transact_cons hcreate]
  refine (transact_insert rfl).trans (and_congr ?_ ?_)
  · rw [hlength]
    exact ⟨fun hmax => hmax rfl, fun hmax _ => hmax⟩
  · refine (and_iff_right hdevices).trans ?_
    change transact planner _ [("readings", firstTable readings),
      ("devices", hardwareTable (createdDevices planner readings))] = .ok db' ↔ _
    rw [transact_cons hnew, transact_cons hindex]
    refine (transact_insert rfl).trans ?_
    refine (and_iff_right (by simp)).trans ?_
    refine (and_iff_right hreadings).trans ?_
    exact ⟨fun h => (Except.ok.inj h).symm, fun h => congrArg Except.ok h.symm⟩

/-- Each new reading joins with the device that it was related to. -/
theorem First.joined_eq (h : First readings) :
    (joined "hardware_id" "id" "device_id" (schema 2 (createdDevices planner readings)
      (createdReadings planner (createdDevices planner readings) readings))).Perm
        (readings.map fun r => ⟨r "device_id", measured r⟩) := by
  have hlinked : Linked 2 (createdDevices planner readings) _ := h.linked
  have hjoin (r : Row) {d : Row} (hd : d ∈ createdDevices planner readings) :
      (createdDevices planner readings).filter (fun d' =>
        d' "id" ≠ none ∧ d' "id" = relatedRow r d "device_id") = [d] :=
    hlinked.id_unique.filter_eq hd (hlinked.id_notNull d hd)
  have hone {r : Row} (hr : r ∈ readings) :
      (((createdDevices planner readings).filter fun d =>
        d "hardware_id" ≠ none ∧ d "hardware_id" = r "device_id").map (relatedRow r)).flatMap (fun r' =>
          ((createdDevices planner readings).filter fun d => d "id" ≠ none ∧ d "id" = r' "device_id").map
            fun d => (⟨d "hardware_id", measured r'⟩ : ReadingFacts)) = [⟨r "device_id", measured r⟩] := by
    obtain ⟨d, hd, hid, hfilter⟩ := h.device hr
    rw [hfilter, List.map_singleton, List.flatMap_singleton, hjoin r hd, List.map_singleton, hid]
    rfl
  refine ((planner.perm _).flatMap_right _).trans (List.Perm.of_eq ?_)
  rw [relatedReadings, List.flatMap_assoc, List.map_eq_flatMap]
  exact List.flatMap_congr fun r hr => hone hr

theorem First.known_next (h : First readings) (now : Int) : known now 2 (schema 2
    (createdDevices planner readings) (createdReadings planner (createdDevices planner readings) readings)) =
      known now 1 (schema 1 devices readings) := by
  have hdevices : ((createdDevices planner readings).map (deviceFacts now 2)).Perm
      ((distinctDevices (schema 1 [] readings)).map (deviceFacts now 1)) := createdDevices_map fun _ _ => rfl
  exact congrArg₂ Known.mk (Multiset.coe_eq_coe.mpr hdevices) (Multiset.coe_eq_coe.mpr h.joined_eq)

/-! ### Without the `id` -/

theorem joined_eq_located (on equals : String) (db : Database) :
    joined "device_addr" on equals db = (located db on equals).map fun p => ⟨p.1, p.2⟩ := by
  simp only [joined, located, List.map_flatMap, List.map_map]
  rfl

theorem removeDevicesId_run (h : Keyed devices readings) : transact planner removeDevicesId
    (schema 7 devices readings) = .ok (after devices readings) := by
  rw [removeDevicesId, transact_alter]
  exact h.migration_run

theorem keyed_known (h : Keyed devices readings) (now : Int) :
    known now 8 (after devices readings) = known now 7 (schema 7 devices readings) := by
  have hdevices : (devices.map (·.set "id" none)).map (deviceFacts now 8) = devices.map (deviceFacts now 7) := by
    rw [List.map_map]
    rfl
  have hreadings : joined "device_addr" "device_addr" "device_addr" (after devices readings) =
      joined "device_addr" "id" "device_id" (before devices readings) := by
    rw [joined_eq_located, joined_eq_located, h.located_before, h.located_after]
  exact congrArg₂ Known.mk (congrArg _ hdevices) (congrArg _ hreadings)

/-- The rows of a database whose readings refer to addresses. -/
@[mk_iff]
structure Addressed (devices readings : List Row) : Prop where
  addr_notNull : ∀ d ∈ devices, d "device_addr" ≠ none
  name_notNull : ∀ d ∈ devices, d "name" ≠ none
  valid_notNull : ∀ d ∈ devices, d "key_valid_from" ≠ none
  addr_unique : UniqueOn devices ["device_addr"]
  addr_range : ∀ d ∈ devices, Constraint.InRange 0 281474976710655 (d "device_addr")
  reading_notNull : ∀ r ∈ readings, r.Complete ["time", "seq", "rssi", "device_addr"]
  device : ∀ r ∈ readings, ∃ d ∈ devices, d "device_addr" = r "device_addr"
  reading_unique : UniqueOn readings ["device_addr", "seq", "time"]

theorem addressed_iff_valid (h8 : 8 ≤ version) (h9 : version ≤ 9) :
    (schema version devices readings).Valid ↔ Addressed devices readings := by
  interval_cases version
  all_goals
    simp only [addressed_iff, schema, places, Database.Valid, List.forall_mem_cons, List.cons_append,
      List.nil_append, Table.valid_iff, rekeyedTable, rebuiltTable, sitesTable, roomsTable,
      placementsTable, Constraint.Holds, UniqueOn, List.Pairwise.nil, List.not_mem_nil, false_imp_iff,
      imp_true_iff, and_true, Database.rows, List.lookup_cons, Row.Complete, Row.key, beq_self_eq_true,
      forall_and, List.map_cons, List.map_nil, List.cons.injEq]
    tauto

theorem Addressed.reading_nodup (h : Addressed devices readings) :
    ((readingsOf 9 (schema 9 devices readings)).map ReadingFacts.key).Nodup := by
  obtain ⟨owner, howner, hjoin⟩ := join_unique h.addr_unique h.addr_notNull h.device
    fun r d => (⟨d "device_addr", measured r⟩ : ReadingFacts)
  have hreadings : readingsOf 9 (schema 9 devices readings) = _ := hjoin
  rw [hreadings, List.map_map, List.Nodup, List.pairwise_map]
  refine List.Pairwise.imp_of_mem (fun {r r'} hr hr' hne heq => ?_) h.reading_unique
  simp only [Function.comp, ReadingFacts.key, measured, Row.key, List.map_cons, List.map_nil,
    List.take_succ_cons, List.take_zero, List.cons.injEq, and_true, Prod.mk.injEq, (howner r hr).2,
    (howner r' hr').2] at heq
  have hcomplete : r.Complete ["device_addr", "seq", "time"] := fun column hcolumn =>
    h.reading_notNull r hr column (by simp only [List.mem_cons] at hcolumn ⊢; tauto)
  refine hne hcomplete ?_
  simp [Row.key, heq]

theorem places_known (now : Int) : known now 9 (schema 9 devices readings) =
    known now 8 (schema 8 devices readings) := rfl

/-! ### The upgrade -/

/-- A database that the first `version` migrations made, with any rows. -/
structure OfVersion (version : Nat) (db : Database) : Prop where
  le : version ≤ 9
  schema : ∃ devices readings, db = schema version devices readings
  valid : db.Valid
  /-- The ids were numbers from the start. -/
  bigint : version = 1 → ∀ r ∈ db.rows "readings", ∃ n : Int, r "device_id" = some (.integer n)

/-- What the upgrade needs of what a database knows. -/
structure Fits (version : Nat) (k : Known) : Prop where
  count : version ≤ 1 → k.devices.card ≤ identityMax
  addr_range : ∀ d ∈ k.devices, Constraint.InRange 0 281474976710655 d.addr
  reading_unique : (k.readings.map ReadingFacts.key).Nodup

/-- The next migration either leaves the one database of the next version that
knows the same, or is refused. -/
structure Step (planner : Planner) (now : Int) (version : Nat) (db : Database) (accepted : Prop)
    (next : Database) : Prop where
  run : ∃ statements, (migrations now)[version]? = some statements ∧
    ∀ db', transact planner statements db = .ok db' ↔ accepted ∧ db' = next
  ofVersion : accepted → OfVersion (version + 1) next
  keeps : known now (version + 1) next = known now version db
  fits : Fits version (known now version db) ↔ accepted ∧ Fits (version + 1) (known now version db)

theorem fits_succ {k : Known} (h1 : version ≠ 1) : Fits version k ↔ Fits (version + 1) k :=
  ⟨fun h => ⟨fun hle => h.count (by omega), h.addr_range, h.reading_unique⟩,
    fun h => ⟨fun hle => h.count (by omega), h.addr_range, h.reading_unique⟩⟩

theorem fits_succ_true {k : Known} (h1 : version ≠ 1) : Fits version k ↔ True ∧ Fits (version + 1) k := by
  rw [true_and]
  exact fits_succ h1

theorem ok_eq_iff {db next : Database} :
    (Except.ok next : Except Error Database) = .ok db ↔ True ∧ db = next := by
  rw [Except.ok.injEq, true_and]
  exact eq_comm

theorem mem_known_devices (h2 : 2 ≤ version) (h9 : version ≤ 9) (now : Int) {P : DeviceFacts → Prop} :
    (∀ d ∈ (known now version (schema version devices readings)).devices, P d) ↔
      ∀ d ∈ devices, P (deviceFacts now version d) := by
  have hdevices : (known now version (schema version devices readings)).devices =
      (devices.map (deviceFacts now version) : List DeviceFacts) := by
    rw [known, devicesOf_rows h2, (rows_schema h2 h9 devices readings).1]
  simp [hdevices]

theorem createReadings_step : Step planner now 0 (schema 0 devices readings) True (schema 1 [] []) where
  run := ⟨createReadings, rfl, fun _ => ok_eq_iff⟩
  ofVersion _ := ⟨by omega, ⟨[], [], rfl⟩, schema_one_valid_iff.mpr (by simp),
    fun _ => by simp [schema, firstTable, fullTable, Database.rows]⟩
  keeps := rfl
  fits := fits_succ_true (by omega)

theorem First.step (h : First readings) : ∃ next, Step planner now 1 (schema 1 devices readings)
    ((readings.map (· "device_id")).dedup.length ≤ identityMax) next := by
  have hcard : (known now 1 (schema 1 devices readings)).devices.card =
      (readings.map (· "device_id")).dedup.length := by
    simp [known, devicesOf, distinctDevices, schema, firstTable, fullTable, Database.rows]
  refine ⟨_, ⟨createDevices, rfl, fun _ => h.createDevices_eq_ok⟩, fun _ => ⟨by omega, ⟨_, _, rfl⟩,
    (valid_iff (by omega) (by omega)).mpr h.linked, fun h => absurd h (by omega)⟩, h.known_next now, ?_⟩
  rw [← hcard]
  exact ⟨fun h => ⟨h.count le_rfl, fun h2 => absurd h2 (by omega), h.addr_range, h.reading_unique⟩,
    fun h => ⟨fun _ => h.1, h.2.addr_range, h.2.reading_unique⟩⟩

/-- A step that changes nothing but the devices' rows. -/
theorem Linked.step {f : Row → Row} {accepted : Prop} {statements : List Ddl}
    (h2 : 2 ≤ version) (h6 : version ≤ 6)
    (hget : (migrations now)[version]? = some statements)
    (hrun : ∀ db', transact planner statements (schema version devices readings) = .ok db' ↔
      accepted ∧ db' = schema (version + 1) (devices.map f) readings)
    (hnext : accepted → Linked (version + 1) (devices.map f) readings)
    (hid : ∀ d ∈ devices, f d "id" = d "id")
    (haddr : ∀ d ∈ devices, f d (addrColumn (version + 1)) = d (addrColumn version))
    (hfacts : ∀ d ∈ devices, deviceFacts now (version + 1) (f d) = deviceFacts now version d)
    (haccepted : Fits version (known now version (schema version devices readings)) → accepted) :
    Step planner now version (schema version devices readings) accepted
      (schema (version + 1) (devices.map f) readings) where
  run := ⟨statements, hget, hrun⟩
  ofVersion ha := ⟨by omega, ⟨_, _, rfl⟩, (valid_iff (by omega) (by omega)).mpr (hnext ha),
    fun h1 => absurd h1 (by omega)⟩
  keeps := known_next h2 (by omega) (by omega) (by omega) hid haddr hfacts
  fits := by
    have hsucc := fits_succ (k := known now version (schema version devices readings))
      (show version ≠ 1 by omega)
    exact ⟨fun h => ⟨haccepted h, hsucc.mp h⟩, fun h => hsucc.mpr h.2⟩

theorem Linked.step_two (h : Linked 2 devices readings) : ∃ accepted next,
    Step planner now 2 (schema 2 devices readings) accepted next := by
  have haddr : ∀ d ∈ devices, d.rename "hardware_id" "device_addr" "device_addr" = d "hardware_id" :=
    fun d _ => Row.rename_new d (by decide)
  have hother {column : String} (h1 : column ≠ "hardware_id") (h2 : column ≠ "device_addr") :
      ∀ d ∈ devices, d.rename "hardware_id" "device_addr" column = d column :=
    fun d _ => Row.rename_other d h1 h2
  have hname := hother (show "name" ≠ "hardware_id" by decide) (by decide)
  refine ⟨_, _, Linked.step le_rfl (by omega) rfl (fun _ => hardwareIdToDeviceAddr_eq_ok) (fun hrange => ?_)
    (hother (by decide) (by decide)) haddr (fun d hd => ?_) fun hfits => ?_⟩
  · exact h.next (by omega) (hother (by decide) (by decide)) hname haddr (fun h6 => absurd h6 (by omega))
      (fun _ => hrange) fun h4 => absurd h4 (by omega)
  · exact congrArg₂ (DeviceFacts.mk · · none (some (.timestamp now))) (haddr d hd) (hname d hd)
  · exact (mem_known_devices le_rfl (by omega) now).mp hfits.addr_range

theorem Linked.step_three (h : Linked 3 devices readings) : ∃ accepted next,
    Step planner now 3 (schema 3 devices readings) accepted next := by
  have hmap : devices.map id = devices := List.map_id devices
  refine ⟨UniqueOn readings ["device_id", "seq", "time"], _, Linked.step (f := id) (by omega) (by omega) rfl
    (fun _ => ?_) (fun hunique => ?_) (fun _ _ => rfl) (fun _ _ => rfl) (fun _ _ => rfl) fun hfits => ?_⟩
  · rw [hmap]
    exact addSeqUniquenessConstraint_eq_ok
  · exact h.next (by omega) (fun _ _ => rfl) (fun _ _ => rfl) (fun _ _ => rfl)
      (fun h6 => absurd h6 (by omega)) (fun _ => h.addr_range le_rfl) fun _ => hunique
  · exact (h.reading_unique_iff (by omega) (by omega)).mpr hfits.reading_unique

theorem Linked.step_four (h : Linked 4 devices readings) : ∃ accepted next,
    Step planner now 4 (schema 4 devices readings) accepted next := by
  have hmap : devices.map id = devices := List.map_id devices
  refine ⟨True, _, Linked.step (f := id) (by omega) (by omega) rfl (fun _ => ?_) (fun _ => ?_)
    (fun _ _ => rfl) (fun _ _ => rfl) (fun _ _ => rfl) fun _ => trivial⟩
  · rw [hmap, makeMeasurementsNullable_run, ok_eq_iff]
  · exact h.next (by omega) (fun _ _ => rfl) (fun _ _ => rfl) (fun _ _ => rfl)
      (fun h6 => absurd h6 (by omega)) (fun _ => h.addr_range (by omega)) fun _ => h.reading_unique le_rfl

theorem Linked.step_five (h : Linked 5 devices readings) : ∃ accepted next,
    Step planner now 5 (schema 5 devices readings) accepted next := by
  refine ⟨True, _, Linked.step (f := keyless now) (by omega) (by omega) rfl
    (fun _ => by rw [addDevicesKey_run, ok_eq_iff]) (fun _ => ?_) (fun _ _ => rfl) (fun _ _ => rfl)
    (fun _ _ => rfl) fun _ => trivial⟩
  exact h.next (by omega) (fun _ _ => rfl) (fun _ _ => rfl) (fun _ _ => rfl)
    (fun _ _ _ => Option.some_ne_none _) (fun _ => h.addr_range (by omega)) fun _ => h.reading_unique (by omega)

theorem Linked.step_six (h : Linked 6 devices readings) : ∃ accepted next,
    Step planner now 6 (schema 6 devices readings) accepted next := by
  have hvalid (d : Row) : d.rename "key_updated_at" "key_valid_from" "key_valid_from" = d "key_updated_at" :=
    Row.rename_new d (by decide)
  refine ⟨True, _, Linked.step (f := (·.rename "key_updated_at" "key_valid_from")) (by omega)
    (by omega) rfl (fun _ => by rw [renameKeyValidFrom_run, ok_eq_iff]) (fun _ => ?_) (fun _ _ => rfl)
    (fun _ _ => rfl) (fun _ _ => rfl) fun _ => trivial⟩
  refine h.next (by omega) (fun _ _ => rfl) (fun _ _ => rfl) (fun _ _ => rfl) (fun _ d hd => ?_)
    (fun _ => h.addr_range (by omega)) fun _ => h.reading_unique (by omega)
  exact (hvalid d).trans_ne (h.valid_notNull le_rfl d hd)

theorem Keyed.step (h : Keyed devices readings) : Step planner now 7 (schema 7 devices readings) True
    (after devices readings) where
  run := ⟨removeDevicesId, rfl, fun _ => by rw [removeDevicesId_run h, ok_eq_iff]⟩
  ofVersion _ := ⟨by omega, ⟨_, _, rfl⟩, h.after_valid, fun h => absurd h (by omega)⟩
  keeps := keyed_known h now
  fits := fits_succ_true (by omega)

theorem Addressed.step (h : Addressed devices readings) : Step planner now 8 (schema 8 devices readings) True
    (schema 9 devices readings) where
  run := ⟨sitesRoomsPlacements, rfl, fun _ => ok_eq_iff⟩
  ofVersion _ := ⟨le_rfl, ⟨_, _, rfl⟩, (addressed_iff_valid (by omega) le_rfl).mpr h,
    fun h => absurd h (by omega)⟩
  keeps := places_known now
  fits := fits_succ_true (by omega)

/-- Every version has its step. -/
theorem OfVersion.step {db : Database} (h : OfVersion version db) (hlt : version < 9) (planner : Planner)
    (now : Int) : ∃ accepted next, Step planner now version db accepted next := by
  obtain ⟨-, ⟨devices, readings, rfl⟩, hvalid, hbigint⟩ := h
  have hlinked (h2 : 2 ≤ version) (h7 : version ≤ 7) : Linked version devices readings :=
    (valid_iff h2 h7).mp hvalid
  interval_cases version
  · exact ⟨_, _, createReadings_step⟩
  · have hfirst : First readings := ⟨schema_one_valid_iff.mp hvalid, hbigint rfl⟩
    exact ⟨_, hfirst.step⟩
  · exact (hlinked (by omega) (by omega)).step_two
  · exact (hlinked (by omega) (by omega)).step_three
  · exact (hlinked (by omega) (by omega)).step_four
  · exact (hlinked (by omega) (by omega)).step_five
  · exact (hlinked (by omega) (by omega)).step_six
  · exact ⟨_, _, Keyed.step (keyed_of_valid hvalid)⟩
  · exact ⟨_, _, ((addressed_iff_valid le_rfl (by omega)).mp hvalid).step⟩

/-- A database of the last version fits already. -/
theorem OfVersion.fits {db : Database} (h : OfVersion 9 db) (now : Int) : Fits 9 (known now 9 db) := by
  obtain ⟨-, ⟨devices, readings, rfl⟩, hvalid, -⟩ := h
  have haddressed := (addressed_iff_valid (by omega) le_rfl).mp hvalid
  exact ⟨fun h1 => absurd h1 (by omega), (mem_known_devices (by omega) le_rfl now).mpr haddressed.addr_range,
    haddressed.reading_nodup⟩

/-- The migrator commits the next pending migration, or rolls it back and stops. -/
def Migrates (planners : Nat → Planner) (now : Int) (s t : Nat × Database) : Prop :=
  t.1 = s.1 + 1 ∧ ∃ statements, (migrations now)[s.1]? = some statements ∧
    transact (planners s.1) statements s.2 = .ok t.2

variable {planners : Nat → Planner} {w : Nat} {db : Database}

theorem Step.migrates_iff {accepted : Prop} {next : Database} {t : Nat × Database}
    (h : Step (planners version) now version db accepted next) :
    Migrates planners now (version, db) t ↔ accepted ∧ t = (version + 1, next) := by
  obtain ⟨statements, hget, hrun⟩ := h.run
  constructor
  · rintro ⟨hversion, statements', hget', hok⟩
    obtain rfl := Option.some.inj (hget.symm.trans hget')
    obtain ⟨haccepted, hnext⟩ := (hrun t.2).mp hok
    exact ⟨haccepted, Prod.ext hversion hnext⟩
  · rintro ⟨haccepted, rfl⟩
    exact ⟨rfl, statements, hget, (hrun next).mpr ⟨haccepted, rfl⟩⟩

/-- Wherever the migrator gets to, the database knows what it knew. -/
theorem migrated_keeps {s t : Nat × Database} (h : Relation.ReflTransGen (Migrates planners now) s t)
    (hs : OfVersion s.1 s.2) : OfVersion t.1 t.2 ∧ known now t.1 t.2 = known now s.1 s.2 := by
  induction h with
  | refl => exact ⟨hs, rfl⟩
  | @tail u t _ hstep ih =>
    obtain ⟨hu, hknown⟩ := ih
    have hlt : u.1 < 9 := by
      obtain ⟨-, statements, hget, -⟩ := hstep
      exact (List.getElem?_eq_some_iff.mp hget).1
    obtain ⟨accepted, next, hnext⟩ := hu.step hlt (planners u.1) now
    obtain ⟨haccepted, rfl⟩ := hnext.migrates_iff.mp hstep
    exact ⟨hnext.ofVersion haccepted, hnext.keeps.trans hknown⟩

theorem migrated_iff (hle : version ≤ 9) (h : OfVersion version db) :
    (∃ db', Relation.ReflTransGen (Migrates planners now) (version, db) (9, db')) ↔
      Fits version (known now version db) := by
  induction hle using Nat.decreasingInduction generalizing db with
  | self => exact ⟨fun _ => h.fits now, fun _ => ⟨db, .refl⟩⟩
  | of_succ version hlt ih =>
    obtain ⟨accepted, next, hstep⟩ := h.step hlt (planners version) now
    rw [hstep.fits]
    constructor
    · rintro ⟨db', hrun⟩
      rcases Relation.ReflTransGen.cases_head hrun with heq | ⟨u, hu, hrest⟩
      · cases heq
        omega
      · obtain ⟨haccepted, rfl⟩ := hstep.migrates_iff.mp hu
        have hfits := (ih (hstep.ofVersion haccepted)).mp ⟨db', hrest⟩
        exact ⟨haccepted, hstep.keeps ▸ hfits⟩
    · rintro ⟨haccepted, hfits⟩
      obtain ⟨db', hrest⟩ := (ih (hstep.ofVersion haccepted)).mpr (hstep.keeps ▸ hfits)
      exact ⟨db', .head (hstep.migrates_iff.mpr ⟨haccepted, rfl⟩) hrest⟩

/-- Wherever an upgrade stops, the database has lost no device and no reading,
and it comes to its end if and only if what the database knew fits. -/
theorem upgrade_keeps (h : OfVersion version db) :
    (∀ t, Relation.ReflTransGen (Migrates planners now) (version, db) t →
      OfVersion t.1 t.2 ∧ known now t.1 t.2 = known now version db) ∧
    ((∃ db', Relation.ReflTransGen (Migrates planners now) (version, db) (9, db')) ↔
      Fits version (known now version db)) :=
  ⟨fun _ hrun => migrated_keeps hrun h, migrated_iff h.le h⟩

def keepOrder : Planner := ⟨id, fun _ => .refl _⟩

/-- A reading from before there were devices. -/
def firstReading (time deviceId seq : Int) : Row := fun column => List.lookup column
  [("time", .timestamp time), ("device_id", .integer deviceId), ("seq", .integer seq),
    ("temp_degc", .double 0x4035000000000000), ("rh_percent", .double 0x4044000000000000),
    ("battery_mv", .integer 2900), ("rssi", .integer (-70))]

def firstReadings : List Row :=
  [firstReading 60 1108152157446 3, firstReading 120 1108152157446 4, firstReading 120 7 3]

theorem upgrade_keeps_first : ∃ db', Relation.ReflTransGen (Migrates (fun _ => keepOrder) 0)
    (1, schema 1 [] firstReadings) (9, db') ∧
      known 0 9 db' = known 0 1 (schema 1 [] firstReadings) := by
  have hversion : OfVersion 1 (schema 1 [] firstReadings) := by
    refine ⟨by omega, ⟨[], firstReadings, rfl⟩, by decide +kernel, fun _ => ?_⟩
    simp [schema, firstTable, fullTable, Database.rows, firstReadings, firstReading, List.lookup_cons]
  have hfits : Fits 1 (known 0 1 (schema 1 [] firstReadings)) :=
    ⟨fun _ => by decide +kernel, by decide +kernel, by decide +kernel⟩
  obtain ⟨db', hrun⟩ := (upgrade_keeps hversion).2.mpr hfits
  exact ⟨db', hrun, ((upgrade_keeps hversion).1 _ hrun).2⟩

end Homescope.Migrations
