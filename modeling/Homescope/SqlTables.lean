import Homescope.Commands
import Mathlib.Data.List.Pairwise
import Mathlib.Logic.Function.Basic

/-! Tables of an SQL database with their constraints, and the statements that
alter them. A statement that PostgreSQL refuses is an error here. -/

namespace Homescope.Sql

inductive Value
  | integer (n : Int)
  | double (bits : BitVec 64)
  | text (s : String)
  | bytes (b : List (BitVec 8))
  | timestamp (micros : Int)
  deriving DecidableEq

/-- `none` is `NULL`, and stands for every column that the table does not have. -/
abbrev Row := String → Option Value

namespace Row

def set (row : Row) (column : String) (value : Option Value) : Row := Function.update row column value

def key (row : Row) (columns : List String) : List (Option Value) := columns.map row

/-- None of the columns is `NULL`. -/
def Complete (row : Row) (columns : List String) : Prop := ∀ column ∈ columns, row column ≠ none

instance (row : Row) (columns : List String) : Decidable (row.Complete columns) :=
  inferInstanceAs (Decidable (∀ column ∈ columns, row column ≠ none))

@[simp] theorem set_same (row : Row) (column : String) (value : Option Value) :
    row.set column value column = value := Function.update_self ..

theorem set_other (row : Row) {column column' : String} (value : Option Value)
    (h : column' ≠ column) : row.set column value column' = row column' :=
  Function.update_of_ne h ..

end Row

inductive Constraint
  | primaryKey (columns : List String)
  | unique (columns : List String)
  | foreignKey (columns : List String) (table : String) (referenced : List String)
  | between (column : String) (low high : Int)
  deriving DecidableEq

structure Table where
  columns : List String
  notNull : List String
  constraints : List (String × Constraint)
  indexes : List (String × List String)
  rows : List Row

abbrev Database := List (String × Table)

namespace Database

def rows (db : Database) (table : String) : List Row :=
  match db.lookup table with
  | some t => t.rows
  | none => []

def replace (db : Database) (table : String) (t : Table) : Database :=
  db.map fun p => if p.1 = table then (p.1, t) else p

end Database

/-! ### Constraints -/

/-- Rows with a `NULL` among the columns are never duplicates. -/
def UniqueOn (rows : List Row) (columns : List String) : Prop :=
  rows.Pairwise fun a b => a.Complete columns → a.key columns ≠ b.key columns

instance (rows : List Row) (columns : List String) : Decidable (UniqueOn rows columns) :=
  inferInstanceAs (Decidable (List.Pairwise ..))

namespace Constraint

def columns : Constraint → List String
  | primaryKey columns => columns
  | unique columns => columns
  | foreignKey columns _ _ => columns
  | between column _ _ => [column]

/-- The columns that a foreign key may refer to. -/
def key? : Constraint → Option (List String)
  | primaryKey columns => some columns
  | unique columns => some columns
  | _ => none

def isPrimaryKey : Constraint → Bool
  | primaryKey _ => true
  | _ => false

def refersTo (table : String) (p : List String → Bool) : Constraint → Bool
  | foreignKey _ table' referenced => table' == table && p referenced
  | _ => false

def InRange (low high : Int) : Option Value → Prop
  | some (.integer n) => low ≤ n ∧ n ≤ high
  | _ => True

instance (low high : Int) (value : Option Value) : Decidable (InRange low high value) := by
  unfold InRange
  split <;> infer_instance

def Holds (db : Database) (rows : List Row) : Constraint → Prop
  | primaryKey columns => (∀ row ∈ rows, row.Complete columns) ∧ UniqueOn rows columns
  | unique columns => UniqueOn rows columns
  | foreignKey columns table referenced => ∀ row ∈ rows, row.Complete columns →
      ∃ target ∈ db.rows table, target.key referenced = row.key columns
  | between column low high => ∀ row ∈ rows, InRange low high (row column)

instance (db : Database) (rows : List Row) (c : Constraint) : Decidable (c.Holds db rows) := by
  cases c <;> unfold Holds <;> infer_instance

end Constraint

structure Table.Valid (db : Database) (t : Table) : Prop where
  notNull : ∀ row ∈ t.rows, row.Complete t.notNull
  constraints : ∀ c ∈ t.constraints, c.2.Holds db t.rows

instance (db : Database) (t : Table) : Decidable (t.Valid db) :=
  decidable_of_iff ((∀ row ∈ t.rows, row.Complete t.notNull) ∧ ∀ c ∈ t.constraints, c.2.Holds db t.rows)
    ⟨fun h => ⟨h.1, h.2⟩, fun h => ⟨h.1, h.2⟩⟩

def Database.Valid (db : Database) : Prop := ∀ p ∈ db, p.2.Valid db

instance (db : Database) : Decidable db.Valid :=
  inferInstanceAs (Decidable (∀ p ∈ db, p.2.Valid db))

/-! ### Statements -/

inductive Error
  | noTable (table : String)
  | noColumn (column : String)
  | noObject (name : String)
  | duplicate (name : String)
  | dependent (name : String)
  | notNullViolation (column : String)
  | violation (constraint : String)
  | noKey (columns : List String)
  | ambiguous
  deriving DecidableEq

inductive Statement
  | addColumn (table column : String)
  | dropColumn (table column : String)
  | setNotNull (table column : String)
  | addConstraint (table name : String) (c : Constraint)
  | dropConstraint (table name : String)
  | createIndex (name table : String) (columns : List String)
  | dropIndex (name : String)
  /-- `UPDATE table SET column = source.value FROM source WHERE source.on = table.equals` -/
  | updateFrom (table column source value on equals : String)

namespace Database

/-- Indexes and keys share their names. -/
def relations (db : Database) : List String :=
  db.flatMap fun p => p.2.indexes.map Prod.fst ++
    (p.2.constraints.filter fun c => c.2.key?.isSome).map Prod.fst

def alter (db : Database) (table : String) (f : Table → Except Error Table) : Except Error Database :=
  match db.lookup table with
  | none => .error (.noTable table)
  | some t => (f t).map (db.replace table)

/-- Some foreign key refers to columns of the table that satisfy `p`. -/
def referred (db : Database) (table : String) (p : List String → Bool) : Bool :=
  db.any fun q => q.2.constraints.any fun c => c.2.refersTo table p

def hasKey (db : Database) (table : String) (columns : List String) : Bool :=
  match db.lookup table with
  | none => false
  | some t => t.constraints.any fun c => c.2.key? == some columns

def addConstraint (db : Database) (name : String) (c : Constraint) (t : Table) : Except Error Table :=
  if name ∈ db.relations ++ t.constraints.map Prod.fst then .error (.duplicate name)
  else if c.isPrimaryKey && t.constraints.any (·.2.isPrimaryKey) then .error (.duplicate name)
  else if ¬c.columns ⊆ t.columns then .error (.noObject name)
  else if ¬c.Holds db t.rows then .error (.violation name)
  else .ok { t with
    constraints := t.constraints ++ [(name, c)]
    notNull := if c.isPrimaryKey then t.notNull ++ c.columns else t.notNull }

def dropConstraint (db : Database) (table name : String) (t : Table) : Except Error Table :=
  match t.constraints.lookup name with
  | none => .error (.noObject name)
  | some c =>
    if c.key?.any fun columns => db.referred table (· == columns) then .error (.dependent name)
    else .ok { t with constraints := t.constraints.filter (·.1 != name) }

def dropColumn (db : Database) (table column : String) (t : Table) : Except Error Table :=
  if column ∉ t.columns then .error (.noColumn column)
  else if db.referred table (·.contains column) then .error (.dependent column)
  else .ok {
    columns := t.columns.filter (· != column)
    notNull := t.notNull.filter (· != column)
    constraints := t.constraints.filter fun c => !c.2.columns.contains column
    indexes := t.indexes.filter fun i => !i.2.contains column
    rows := t.rows.map (·.set column none) }

/-- The row of the source that an updated row takes its value from. PostgreSQL
takes any of several. -/
def updateRow (source : List Row) (column value on equals : String) (row : Row) : Except Error Row :=
  match source.filter fun d => d on ≠ none ∧ d on = row equals with
  | [] => .ok row
  | [d] => .ok (row.set column (d value))
  | _ => .error .ambiguous

def exec (db : Database) : Statement → Except Error Database
  | .addColumn table column => db.alter table fun t =>
    if column ∈ t.columns then .error (.duplicate column)
    else .ok { t with columns := t.columns ++ [column], rows := t.rows.map (·.set column none) }
  | .dropColumn table column => db.alter table (db.dropColumn table column)
  | .setNotNull table column => db.alter table fun t =>
    if column ∉ t.columns then .error (.noColumn column)
    else if ∃ row ∈ t.rows, row column = none then .error (.notNullViolation column)
    else .ok { t with notNull := t.notNull ++ [column] }
  | .addConstraint table name c =>
    match c with
    | .foreignKey _ target referenced =>
      if db.hasKey target referenced then db.alter table (db.addConstraint name c)
      else .error (.noKey referenced)
    | _ => db.alter table (db.addConstraint name c)
  | .dropConstraint table name => db.alter table (db.dropConstraint table name)
  | .createIndex name table columns =>
    if name ∈ db.relations then .error (.duplicate name)
    else db.alter table fun t =>
      if columns ⊆ t.columns then .ok { t with indexes := t.indexes ++ [(name, columns)] }
      else .error (.noObject name)
  | .dropIndex name =>
    if db.any fun p => p.2.indexes.any (·.1 == name) then
      .ok (db.map fun p => (p.1, { p.2 with indexes := p.2.indexes.filter (·.1 != name) }))
    else .error (.noObject name)
  | .updateFrom table column source value on equals => do
    let updated ← db.alter table fun t => do
      return { t with rows := ← t.rows.mapM (updateRow (db.rows source) column value on equals) }
    if updated.Valid then return updated else .error (.violation table)

/-- The statements of a migration, in one transaction. -/
def run : List Statement → Database → Except Error Database
  | [], db => .ok db
  | s :: statements, db => do run statements (← db.exec s)

section

variable {db db' : Database} {table column name : String} {t : Table}

theorem alter_ok {f : Table → Except Error Table} {t' : Table} (ht : db.lookup table = some t)
    (hf : f t = .ok t') (hdb : db.replace table t' = db') : db.alter table f = .ok db' := by
  rw [alter, ht]
  simp only [hf]
  exact congrArg Except.ok hdb

/-- A constraint that the rows satisfy is added. -/
theorem addConstraint_ok {c : Constraint} (hname : name ∉ db.relations ++ t.constraints.map Prod.fst)
    (hprimary : (c.isPrimaryKey && t.constraints.any (·.2.isPrimaryKey)) = false)
    (hcolumns : c.columns ⊆ t.columns) (hholds : c.Holds db t.rows) :
    db.addConstraint name c t = .ok { t with
      constraints := t.constraints ++ [(name, c)]
      notNull := if c.isPrimaryKey then t.notNull ++ c.columns else t.notNull } := by
  rw [addConstraint, if_neg hname, hprimary, if_neg Bool.false_ne_true, if_neg (not_not.mpr hcolumns),
    if_neg (not_not.mpr hholds)]

theorem exec_addConstraint {c : Constraint} (ht : db.lookup table = some t)
    (hkey : ∀ columns target referenced, c = .foreignKey columns target referenced →
      db.hasKey target referenced = true)
    (hname : name ∉ db.relations ++ t.constraints.map Prod.fst)
    (hprimary : (c.isPrimaryKey && t.constraints.any (·.2.isPrimaryKey)) = false)
    (hcolumns : c.columns ⊆ t.columns) (hholds : c.Holds db t.rows)
    (hdb : db.replace table { t with
      constraints := t.constraints ++ [(name, c)]
      notNull := if c.isPrimaryKey then t.notNull ++ c.columns else t.notNull } = db') :
    db.exec (.addConstraint table name c) = .ok db' := by
  have halter : db.alter table (db.addConstraint name c) = .ok db' :=
    alter_ok ht (addConstraint_ok hname hprimary hcolumns hholds) hdb
  cases c with
  | foreignKey columns target referenced => exact (if_pos (hkey _ _ _ rfl)).trans halter
  | _ => exact halter

theorem exec_setNotNull (ht : db.lookup table = some t) (hcolumn : column ∈ t.columns)
    (hrows : ∀ row ∈ t.rows, row column ≠ none)
    (hdb : db.replace table { t with notNull := t.notNull ++ [column] } = db') :
    db.exec (.setNotNull table column) = .ok db' := by
  refine alter_ok ht ?_ hdb
  rw [if_neg (not_not.mpr hcolumn), if_neg]
  rintro ⟨row, hrow, hnull⟩
  exact hrows row hrow hnull

theorem exec_updateFrom {source value on equals : String} {rows : List Row}
    (ht : db.lookup table = some t)
    (hrows : t.rows.mapM (updateRow (db.rows source) column value on equals) = .ok rows)
    (hdb : db.replace table { t with rows } = db') (hvalid : db'.Valid) :
    db.exec (.updateFrom table column source value on equals) = .ok db' := by
  have halter : (db.alter table fun t => do
      return { t with rows := ← t.rows.mapM (updateRow (db.rows source) column value on equals) }) =
        .ok db' := by
    refine alter_ok ht ?_ hdb
    rw [hrows]
    rfl
  rw [exec, halter]
  exact if_pos hvalid

end

theorem run_append (first second : List Statement) (db : Database) :
    run (first ++ second) db = (run first db).bind (run second) := by
  induction first generalizing db with
  | nil => rfl
  | cons s first ih =>
    rw [List.cons_append, run, run]
    cases db.exec s with
    | error e => rfl
    | ok db => exact ih db

theorem run_cons {s : Statement} {statements : List Statement} {db db' : Database}
    (h : db.exec s = .ok db') : run (s :: statements) db = run statements db' := by
  rw [run, h]
  rfl

end Database

/-! ### Rows that keep their keys -/

section

variable {rows : List Row} {columns : List String} {f : Row → Row}

theorem Row.key_congr {row row' : Row} (h : ∀ column ∈ columns, row column = row' column) :
    row.key columns = row'.key columns := List.map_congr_left h

theorem Row.complete_congr {row row' : Row} (h : ∀ column ∈ columns, row column = row' column) :
    row.Complete columns ↔ row'.Complete columns :=
  forall₂_congr fun column hcolumn => by rw [h column hcolumn]

theorem UniqueOn.map (h : UniqueOn rows columns)
    (hf : ∀ row ∈ rows, ∀ column ∈ columns, f row column = row column) :
    UniqueOn (rows.map f) columns := by
  refine List.pairwise_map.mpr (h.imp_of_mem fun ha hb hab hcomplete => ?_)
  rw [Row.key_congr (hf _ ha), Row.key_congr (hf _ hb)]
  exact hab ((Row.complete_congr (hf _ ha)).mp hcomplete)

/-- A unique column tells rows with values in it apart. -/
theorem uniqueOn_single {column : String} : UniqueOn rows [column] ↔
    rows.Pairwise fun a b => a column ≠ none → a column ≠ b column := by
  simp [UniqueOn, Row.Complete, Row.key]

theorem UniqueOn.eq_of_mem {column : String} (h : UniqueOn rows [column]) {a b : Row} (ha : a ∈ rows)
    (hb : b ∈ rows) (hnull : a column ≠ none) (hab : a column = b column) : a = b := by
  by_contra hne
  have hsymm : Std.Symm fun a b : Row => a column ≠ none → a column ≠ b column :=
    ⟨fun a b hab hb heq => hab (heq ▸ hb) heq.symm⟩
  exact (uniqueOn_single.mp h).forall ha hb hne hnull hab

theorem UniqueOn.filter_eq {column : String} (h : UniqueOn rows [column]) {d : Row} (hd : d ∈ rows)
    (hnull : d column ≠ none) : (rows.filter fun d' => d' column ≠ none ∧ d' column = d column) = [d] := by
  rw [uniqueOn_single] at h
  induction rows with
  | nil => cases hd
  | cons a rows ih =>
    obtain ⟨ha, hrows⟩ := List.pairwise_cons.mp h
    rcases List.mem_cons.mp hd with rfl | hd
    · have hrest : (rows.filter fun d' => d' column ≠ none ∧ d' column = d column) = [] :=
        List.filter_eq_nil_iff.mpr fun b hb => by simpa using fun _ => (ha b hb hnull).symm
      rw [List.filter_cons_of_pos (by simpa using hnull), hrest]
    · have hother : ¬(a column ≠ none ∧ a column = d column) := fun h => ha d hd h.1 h.2
      rw [List.filter_cons_of_neg (by simpa using hother), ih hrows hd]

end

end Homescope.Sql
