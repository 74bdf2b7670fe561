import Homescope.SqlTables
import Mathlib.Data.List.Dedup

/-! Migrations of an SQL database: the statements that make, rename and fill
tables, and the migrator that runs what is pending, each in a transaction. -/

namespace Homescope.Sql

/-- The rows of a query come in the order that the planner picks. -/
structure Planner where
  order : List Row → List Row
  perm (rows : List Row) : (order rows).Perm rows

/-- What a migration states besides the `ALTER`s. The columns that a created
table has as `notNull` are all of them, those of its primary key too. -/
inductive Ddl
  | alter (s : Statement)
  | createTable (name : String) (t : Table)
  | dropTable (name : String)
  | renameTable (name new : String)
  | renameColumn (table column new : String)
  | renameIndex (name new : String)
  | dropNotNull (table column : String)
  /-- `ADD column … NOT NULL DEFAULT value` -/
  | addDefault (table column : String) (value : Value)
  /-- `INSERT INTO table SELECT …`, where the table is new and may number its rows -/
  | insert (table : String) (identity : Option String) (query : Database → List Row)

/-- `create_hypertable` brings an index on the time dimension. -/
def Ddl.createHypertable (table column index : String) : Ddl := .alter (.createIndex index table [column])

def Row.rename (row : Row) (column new : String) : Row := (row.set new (row column)).set column none

@[simp] theorem Row.rename_new (row : Row) {column new : String} (h : new ≠ column) :
    row.rename column new new = row column := by
  rw [rename, set_other _ _ h, set_same]

theorem Row.rename_other (row : Row) {column new other : String} (hcolumn : other ≠ column)
    (hnew : other ≠ new) : row.rename column new other = row other := by
  rw [rename, set_other _ _ hcolumn, set_other _ _ hnew]

/-- Where an `INTEGER` identity column ends. -/
def identityMax : Nat := 2147483647

/-- The rows as a fresh identity column numbers them. -/
def number (identity : String) (rows : List Row) : List Row :=
  rows.zipIdx.map fun p => p.1.set identity (some (.integer (p.2 + 1)))

def numberBy (identity : Option String) (rows : List Row) : List Row :=
  identity.elim rows fun column => number column rows

namespace Constraint

def mapColumns (f : String → String) : Constraint → Constraint
  | primaryKey columns => primaryKey (columns.map f)
  | unique columns => unique (columns.map f)
  | foreignKey columns table referenced => foreignKey (columns.map f) table referenced
  | between column low high => between (f column) low high

def mapReferenced (table : String) (f : String → String) : Constraint → Constraint
  | foreignKey columns table' referenced =>
    foreignKey columns table' (if table' = table then referenced.map f else referenced)
  | c => c

def retarget (name new : String) : Constraint → Constraint
  | foreignKey columns table referenced => foreignKey columns (if table = name then new else table) referenced
  | c => c

def target? : Constraint → Option (String × List String)
  | foreignKey _ table referenced => some (table, referenced)
  | _ => none

end Constraint

namespace Table

def mapConstraints (t : Table) (f : Constraint → Constraint) : Table :=
  { t with constraints := t.constraints.map fun c => (c.1, f c.2) }

def renameColumn (t : Table) (column new : String) : Table :=
  let f name := if name = column then new else name
  { columns := t.columns.map f
    notNull := t.notNull.map f
    constraints := t.constraints.map fun c => (c.1, c.2.mapColumns f)
    indexes := t.indexes.map fun i => (i.1, i.2.map f)
    rows := t.rows.map (·.rename column new) }

/-- An index that a key stands on is renamed with the key. -/
def renameIndex (t : Table) (name new : String) : Table :=
  let f n := if n = name then new else n
  { t with
    indexes := t.indexes.map fun i => (f i.1, i.2)
    constraints := t.constraints.map fun c => if c.2.key?.isSome then (f c.1, c.2) else c }

end Table

namespace Database

/-- Tables, indexes and keys share one name space. -/
def names (db : Database) : List String := db.map Prod.fst ++ db.relations

/-- The constraints are checked when the statement ends. -/
def insert (db : Database) (table : String) (identity : Option String) (rows : List Row) :
    Except Error Database :=
  if identity.isSome ∧ identityMax < rows.length then .error (.violation table)
  else do
    let updated ← db.alter table fun t => .ok { t with rows := t.rows ++ numberBy identity rows }
    if updated.Valid then return updated else .error (.violation table)

def createTable (db : Database) (name : String) (t : Table) : Except Error Database :=
  let created : Database := [(name, { t with rows := [] })]
  if created.names.any (· ∈ db.names) then .error (.duplicate name)
  else if t.constraints.any fun c => !c.2.columns.all (· ∈ t.columns) then .error (.noObject name)
  else if t.constraints.any fun c => c.2.target?.any fun k => !db.hasKey k.1 k.2 then .error (.noKey [])
  else .ok (db ++ created)

def execDdl (planner : Planner) (db : Database) : Ddl → Except Error Database
  | .alter s => db.exec s
  | .createTable name t => db.createTable name t
  | .dropTable name =>
    if (db.lookup name).isNone then .error (.noTable name)
    else if Database.referred (db.filter (·.1 != name)) name fun _ => true then .error (.dependent name)
    else .ok (db.filter (·.1 != name))
  | .renameTable name new =>
    if (db.lookup name).isNone then .error (.noTable name)
    else if new ∈ db.names then .error (.duplicate new)
    else .ok (db.map fun p => (if p.1 = name then new else p.1, p.2.mapConstraints (.retarget name new)))
  | .renameColumn table column new => do
    let renamed ← db.alter table fun t =>
      if column ∉ t.columns then .error (.noColumn column)
      else if new ∈ t.columns then .error (.duplicate new)
      else .ok (t.renameColumn column new)
    let f name := if name = column then new else name
    return renamed.map fun p => (p.1, p.2.mapConstraints (.mapReferenced table f))
  | .renameIndex name new =>
    if name ∉ db.relations then .error (.noObject name)
    else if new ∈ db.names then .error (.duplicate new)
    else .ok (db.map fun p => (p.1, p.2.renameIndex name new))
  | .dropNotNull table column => db.alter table fun t =>
    if column ∉ t.columns then .error (.noColumn column)
    else if t.constraints.any fun c => c.2.isPrimaryKey && c.2.columns.contains column then
      .error (.dependent column)
    else .ok { t with notNull := t.notNull.filter (· != column) }
  | .addDefault table column value => db.alter table fun t =>
    if column ∈ t.columns then .error (.duplicate column)
    else .ok { t with
      columns := t.columns ++ [column]
      notNull := t.notNull ++ [column]
      rows := t.rows.map (·.set column (some value)) }
  | .insert table identity query => db.insert table identity (planner.order (query db))

/-- A migration, in one transaction. -/
def transact (planner : Planner) : List Ddl → Database → Except Error Database
  | [], db => .ok db
  | s :: statements, db => do transact planner statements (← db.execDdl planner s)

section

variable {planner : Planner} {db db' : Database} {table name : String} {t : Table}

theorem transact_cons {s : Ddl} {statements : List Ddl} (h : db.execDdl planner s = .ok db') :
    transact planner (s :: statements) db = transact planner statements db' := by
  rw [transact, h]
  rfl

theorem transact_error {s : Ddl} {statements : List Ddl} {e : Error}
    (h : db.execDdl planner s = .error e) : transact planner (s :: statements) db = .error e := by
  rw [transact, h]
  rfl

theorem transact_alter (statements : List Statement) (db : Database) :
    transact planner (statements.map .alter) db = run statements db := by
  induction statements generalizing db with
  | nil => rfl
  | cons s statements ih =>
    rw [List.map_cons, transact, run, execDdl]
    cases db.exec s with
    | error e => rfl
    | ok db => exact ih db

/-- A constraint is added if and only if the rows satisfy it. -/
theorem transact_addConstraint {c : Constraint} {statements : List Ddl} {next : Database}
    (ht : db.lookup table = some t) (hkey : c.target? = none)
    (hname : name ∉ db.relations ++ t.constraints.map Prod.fst)
    (hprimary : (c.isPrimaryKey && t.constraints.any (·.2.isPrimaryKey)) = false)
    (hcolumns : c.columns ⊆ t.columns)
    (hnext : db.replace table { t with
      constraints := t.constraints ++ [(name, c)]
      notNull := if c.isPrimaryKey then t.notNull ++ c.columns else t.notNull } = next) :
    transact planner (.alter (.addConstraint table name c) :: statements) db = .ok db' ↔
      c.Holds db t.rows ∧ transact planner statements next = .ok db' := by
  have hforeign (columns : List String) (target : String) (referenced : List String) :
      c ≠ .foreignKey columns target referenced := by
    rintro rfl
    cases hkey
  by_cases hholds : c.Holds db t.rows
  · have hexec : db.execDdl planner (.alter (.addConstraint table name c)) = .ok next :=
      exec_addConstraint ht (fun columns target referenced h => absurd h (hforeign columns target referenced))
        hname hprimary hcolumns hholds hnext
    rw [transact_cons hexec, and_iff_right hholds]
  · have hadd : db.addConstraint name c t = .error (.violation name) := by
      rw [addConstraint, if_neg hname, hprimary, if_neg Bool.false_ne_true, if_neg (not_not.mpr hcolumns),
        if_pos hholds]
    have halter : db.alter table (db.addConstraint name c) = .error (.violation name) := by
      rw [alter, ht]
      simp only [hadd]
      rfl
    have hexec : db.execDdl planner (.alter (.addConstraint table name c)) = .error (.violation name) := by
      cases c with
      | foreignKey columns target referenced => exact absurd rfl (hforeign columns target referenced)
      | _ => exact halter
    rw [transact_error hexec]
    constructor
    · intro h
      cases h
    · exact fun h => absurd h.1 hholds

/-- What an accepted insert leaves. -/
theorem insert_eq_ok {identity : Option String} {rows : List Row} (ht : db.lookup table = some t) :
    db.insert table identity rows = .ok db' ↔ (identity.isSome → rows.length ≤ identityMax) ∧
      db'.Valid ∧ db' = db.replace table { t with rows := t.rows ++ numberBy identity rows } := by
  have halter (f : Table → Table) : (db.alter table fun t => .ok (f t)) = .ok (db.replace table (f t)) :=
    alter_ok ht rfl rfl
  rw [Database.insert.eq_def, halter]
  by_cases hmax : identity.isSome ∧ identityMax < rows.length
  · rw [if_pos hmax]
    have hnot : ¬(identity.isSome → rows.length ≤ identityMax) := fun h => by
      have hle := h hmax.1
      omega
    simp [hnot]
  · have hle : identity.isSome → rows.length ≤ identityMax := fun h => by
      by_contra hlt
      exact hmax ⟨h, by omega⟩
    rw [if_neg hmax, and_iff_right hle]
    generalize db.replace table { t with rows := t.rows ++ numberBy identity rows } = updated
    change (if updated.Valid then Except.ok updated else Except.error (Error.violation table)) = .ok db' ↔ _
    by_cases hvalid : updated.Valid
    · rw [if_pos hvalid, Except.ok.injEq]
      constructor
      · rintro rfl
        exact ⟨hvalid, rfl⟩
      · exact fun h => h.2.symm
    · rw [if_neg hvalid]
      constructor
      · intro h
        cases h
      · rintro ⟨h, rfl⟩
        exact absurd h hvalid

theorem transact_insert {identity : Option String} {query : Database → List Row} {statements : List Ddl}
    (ht : db.lookup table = some t) :
    transact planner (.insert table identity query :: statements) db = .ok db' ↔
      (identity.isSome → (query db).length ≤ identityMax) ∧
        (db.replace table { t with rows := t.rows ++ numberBy identity (planner.order (query db)) }).Valid ∧
        transact planner statements
          (db.replace table { t with rows := t.rows ++ numberBy identity (planner.order (query db)) }) =
            .ok db' := by
  have hlength : (planner.order (query db)).length = (query db).length := (planner.perm _).length_eq
  have hiff (next : Database) : db.execDdl planner (.insert table identity query) = .ok next ↔
      _ := insert_eq_ok ht
  rw [hlength] at hiff
  constructor
  · intro h
    cases hexec : db.execDdl planner (.insert table identity query) with
    | error e =>
      rw [transact_error hexec] at h
      cases h
    | ok next =>
      rw [transact_cons hexec] at h
      obtain ⟨hmax, hvalid, rfl⟩ := (hiff next).mp hexec
      exact ⟨hmax, hvalid, h⟩
  · rintro ⟨hmax, hvalid, h⟩
    rw [transact_cons ((hiff _).mpr ⟨hmax, hvalid, rfl⟩)]
    exact h

end

end Database

theorem Table.valid_iff {db : Database} {t : Table} : t.Valid db ↔
    (∀ row ∈ t.rows, row.Complete t.notNull) ∧ ∀ c ∈ t.constraints, c.2.Holds db t.rows :=
  ⟨fun h => ⟨h.1, h.2⟩, fun h => ⟨h.1, h.2⟩⟩

/-- A join on a unique column that every row refers to finds one row for each. -/
theorem join_unique {α : Type*} {on equals : String} {rows targets : List Row}
    (hunique : UniqueOn targets [on]) (hnull : ∀ d ∈ targets, d on ≠ none)
    (htarget : ∀ r ∈ rows, ∃ d ∈ targets, d on = r equals) (f : Row → Row → α) :
    ∃ owner : Row → Row, (∀ r ∈ rows, owner r ∈ targets ∧ owner r on = r equals) ∧
      rows.flatMap (fun r => (targets.filter fun d => d on ≠ none ∧ d on = r equals).map (f r)) =
        rows.map fun r => f r (owner r) := by
  choose owner howner using fun r : {r // r ∈ rows} => htarget r.1 r.2
  have hown (r : Row) : ∃ d, ∀ hr : r ∈ rows, d = owner ⟨r, hr⟩ := by
    by_cases hr : r ∈ rows
    · exact ⟨owner ⟨r, hr⟩, fun _ => rfl⟩
    · exact ⟨r, fun h => absurd h hr⟩
  choose own hown using hown
  have hfound {r : Row} (hr : r ∈ rows) : own r ∈ targets ∧ own r on = r equals := by
    rw [hown r hr]
    exact howner ⟨r, hr⟩
  refine ⟨own, fun r hr => hfound hr, ?_⟩
  rw [List.map_eq_flatMap]
  refine List.flatMap_congr fun r hr => ?_
  have hfilter := hunique.filter_eq (hfound hr).1 (hnull _ (hfound hr).1)
  rw [(hfound hr).2] at hfilter
  rw [hfilter, List.map_singleton]

/-! ### Numbered rows -/

section

variable {rows : List Row} {identity column : String}

/-- Numbering changes nothing but the numbers. -/
theorem number_map {α : Type*} {f : Row → α} (h : ∀ row value, f (row.set identity value) = f row) :
    (number identity rows).map f = rows.map f := by
  have hzip : rows.map f = rows.zipIdx.map (f ∘ Prod.fst) := by
    rw [← List.map_map, List.zipIdx_map_fst]
  rw [number, List.map_map, hzip]
  exact List.map_congr_left fun p _ => h p.1 _

theorem mem_number {row : Row} (h : row ∈ number identity rows) :
    ∃ row' ∈ rows, ∃ value, row = row'.set identity value := by
  obtain ⟨p, hp, rfl⟩ := List.mem_map.mp h
  exact ⟨p.1, List.fst_mem_of_mem_zipIdx hp, _, rfl⟩

theorem number_identity_ne_none : ∀ row ∈ number identity rows, row identity ≠ none := by
  refine List.forall_mem_map.mpr fun p _ => ?_
  rw [Row.set_same]
  exact Option.some_ne_none _

/-- A column whose values are all different. -/
theorem uniqueOn_of_nodup (h : (rows.map (· column)).Nodup) : UniqueOn rows [column] := by
  have hne : rows.Pairwise fun a b => a column ≠ b column := List.pairwise_map.mp h
  rw [uniqueOn_single]
  exact hne.imp fun {a b} hab (_ : a column ≠ none) => hab

theorem number_unique : UniqueOn (number identity rows) [identity] := by
  rw [uniqueOn_single, number, List.pairwise_map]
  refine (List.pairwise_iff_getElem.mpr fun i j hi hj hlt => ?_)
  simp [List.getElem_zipIdx, Row.set_same]
  omega

end

end Homescope.Sql
