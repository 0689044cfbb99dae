import Mathlib.Data.List.Nodup
import Mathlib.Logic.Function.Basic
import Mathlib.Tactic.Common

/-!
# Schemas and what changes them

A relational database is its schema and the rows of each table. A statement changes the schema (`alter`)
and the rows (`rowsAfter`), and fails where the result would break a constraint (`exec`); a row may have
values that are `NULL`, which no constraint but `NOT NULL` looks at. A transaction that fails leaves the
database as it was.

* `exec_schema`, `execAll_schema`: what a statement makes of the schema does not depend on the rows;
* `execAll_rows`: tables that no statement touches keep their rows;
* `Runs`: statements that succeed, with a rule for each of them.
-/

namespace Sql

/-! ## Schemas -/

inductive Action where
  | cascade
  | setNull
  deriving DecidableEq, Repr

structure Reference where
  table : String
  column : String
  onDelete : Action
  deriving DecidableEq, Repr

structure Column where
  name : String
  type : String
  primaryKey : Bool := false
  notNull : Bool := false
  unique : Bool := false
  references : Option Reference := none
  default : Option String := none
  deriving DecidableEq, Repr

/-- A table with the sets of columns that are `UNIQUE` together. -/
structure Table where
  name : String
  columns : List Column
  unique : List (List String) := []
  deriving DecidableEq, Repr

/-- A unique index, of the rows where a column is `NULL`. -/
structure Index where
  name : String
  table : String
  columns : List String
  whereNull : String
  deriving DecidableEq, Repr

structure Schema where
  tables : List Table
  indexes : List Index
  deriving DecidableEq, Repr

def Table.keys (t : Table) : List (List String) :=
  (t.columns.filter (fun c => c.primaryKey || c.unique)).map (fun c => [c.name]) ++ t.unique

def Schema.has (s : Schema) (name : String) : Bool := s.tables.any (fun t => t.name = name)

def Schema.add (s : Schema) (t : Table) : Schema := { s with tables := s.tables ++ [t] }

def Schema.drop (s : Schema) (name : String) : Schema :=
  ⟨s.tables.filter (fun t => t.name ≠ name), s.indexes.filter (fun i => i.table ≠ name)⟩

def Schema.find (s : Schema) (name : String) : Option Table := s.tables.find? (fun t => t.name = name)

/-- No reference leads to a table of this name. -/
def Schema.Unreferenced (s : Schema) (name : String) : Prop :=
  ∀ t ∈ s.tables, ∀ c ∈ t.columns, ∀ ref ∈ c.references, ref.table ≠ name

/-- Nothing in the schema has to do with the name. -/
def Schema.Free (s : Schema) (name : String) : Prop :=
  (∀ t ∈ s.tables, t.name ≠ name) ∧ (∀ i ∈ s.indexes, i.table ≠ name) ∧ s.Unreferenced name

/-- The one table of its name, with no index on it. -/
def Schema.Plain (s : Schema) (t : Table) : Prop :=
  s.has t.name = true ∧ (∀ i ∈ s.indexes, i.table ≠ t.name) ∧ ∀ t' ∈ s.tables, t'.name = t.name → t' = t

instance (s : Schema) (name : String) : Decidable (s.Unreferenced name) :=
  inferInstanceAs (Decidable (∀ t ∈ s.tables, ∀ c ∈ t.columns, ∀ ref ∈ c.references, ref.table ≠ name))

instance (s : Schema) (name : String) : Decidable (s.Free name) :=
  inferInstanceAs (Decidable (_ ∧ _ ∧ _))

instance (s : Schema) (t : Table) : Decidable (s.Plain t) :=
  inferInstanceAs (Decidable (_ ∧ _ ∧ _))

/-! ## Databases -/

/-- The value in each column; `none` is `NULL`. -/
abbrev Row (V : Type) := String → Option V

variable {V : Type}

structure Database (V : Type) where
  schema : Schema
  rows : String → List (Row V)

/-- `INSERT INTO .. (columns) SELECT expressions`: the row that is made of another one. -/
def project (columns : List (String × (Row V → Option V))) (r : Row V) : Row V :=
  fun c => (columns.lookup c).bind (fun e => e r)

/-- `INSERT INTO .. (columns) VALUES`. -/
def values (columns : List (String × V)) : Row V := fun c => columns.lookup c

def Database.empty : Database V := ⟨⟨[], []⟩, fun _ => []⟩

/-- The values in the columns of a key, unless one is `NULL`. -/
def keyOf (columns : List String) (r : Row V) : Option (List V) := columns.mapM r

/-- No two rows agree on the key. -/
def Unique (rows : List (Row V)) (columns : List String) : Prop := (rows.filterMap (keyOf columns)).Nodup

/-- The constraints of a table with the rows `own`. -/
structure Table.Holds (t : Table) (own : List (Row V)) (rows : String → List (Row V)) : Prop where
  notNull : ∀ c ∈ t.columns, c.notNull = true → ∀ r ∈ own, (r c.name).isSome = true
  unique : ∀ key ∈ t.keys, Unique own key
  references : ∀ c ∈ t.columns, ∀ ref ∈ c.references, ∀ r ∈ own, ∀ v ∈ r c.name,
    ∃ p ∈ rows ref.table, p ref.column = some v

/-- The keys of the rows, told by what the rows are made of. -/
theorem unique_map_iff {α κ : Type} {f : α → Row V} {g : α → Option κ} {e : κ → List V}
    (he : Function.Injective e) {columns : List String} (h : ∀ a, keyOf columns (f a) = (g a).map e)
    (l : List α) : Unique (l.map f) columns ↔ (l.filterMap g).Nodup := by
  have hkeys : (l.map f).filterMap (keyOf columns) = (l.filterMap g).map e := by
    rw [List.filterMap_map, List.map_filterMap]
    exact congrArg (fun p => List.filterMap p l) (funext h)
  rw [Unique, hkeys, List.nodup_map_iff he]

theorem keyOf_singleton (column : String) (r : Row V) : keyOf [column] r = (r column).map (fun v => [v]) := by
  rw [keyOf, List.mapM_cons]
  cases r column <;> rfl

/-- Keys that are carried over. -/
theorem Unique.map {f : Row V → Row V} {key key' : List String} {own : List (Row V)}
    (hu : Unique own key') (h : ∀ r, keyOf key (f r) = keyOf key' r) : Unique (own.map f) key := by
  rw [Unique, List.filterMap_map, show keyOf key ∘ f = keyOf key' from funext h]
  exact hu

def Index.Holds (i : Index) (own : List (Row V)) : Prop :=
  Unique (own.filter (fun r => (r i.whereNull).isNone)) i.columns

structure Database.Consistent (db : Database V) : Prop where
  tables : ∀ t ∈ db.schema.tables, t.Holds (db.rows t.name) db.rows
  indexes : ∀ i ∈ db.schema.indexes, i.Holds (db.rows i.table)

/-- The values in the columns of a table. -/
def Table.contents (t : Table) (own : List (Row V)) : List (List (Option V)) :=
  own.map (fun r => t.columns.map (fun c => r c.name))

/-- All tables but the named ones are the same, and so are the indexes. -/
structure Database.SameBut (names : List String) (db db' : Database V) : Prop where
  tables : db'.schema.tables.filter (fun t => t.name ∉ names) = db.schema.tables.filter (fun t => t.name ∉ names)
  indexes : db'.schema.indexes = db.schema.indexes
  rows : ∀ name, name ∉ names → db'.rows name = db.rows name

section Decide
variable [DecidableEq V]

instance (rows : List (Row V)) (columns : List String) : Decidable (Unique rows columns) :=
  inferInstanceAs (Decidable (List.Nodup _))

instance (t : Table) (own : List (Row V)) (rows : String → List (Row V)) : Decidable (t.Holds own rows) :=
  decidable_of_iff
    ((∀ c ∈ t.columns, c.notNull = true → ∀ r ∈ own, (r c.name).isSome = true) ∧
      (∀ key ∈ t.keys, Unique own key) ∧
      ∀ c ∈ t.columns, ∀ ref ∈ c.references, ∀ r ∈ own, ∀ v ∈ r c.name,
        ∃ p ∈ rows ref.table, p ref.column = some v)
    ⟨fun h => ⟨h.1, h.2.1, h.2.2⟩, fun h => ⟨h.1, h.2, h.3⟩⟩

instance (i : Index) (own : List (Row V)) : Decidable (i.Holds own) :=
  inferInstanceAs (Decidable (Unique _ _))

instance (db : Database V) : Decidable db.Consistent :=
  decidable_of_iff ((∀ t ∈ db.schema.tables, t.Holds (db.rows t.name) db.rows) ∧
      ∀ i ∈ db.schema.indexes, i.Holds (db.rows i.table))
    ⟨fun h => ⟨h.1, h.2⟩, fun h => ⟨h.1, h.2⟩⟩

end Decide

/-! ## Statements -/

inductive Error where
  | noSuchTable (name : String)
  | tableExists (name : String)
  | constraint
  deriving DecidableEq, Repr

/-- The statements; creating and dropping an index, and creating a table, are `IF (NOT) EXISTS`. -/
inductive Statement (V : Type) where
  | createTable (table : Table)
  | createIndex (index : Index)
  | dropTable (ifExists : Bool) (name : String)
  | dropIndex (name : String)
  | renameTable (name newName : String)
  | renameColumn (table name newName : String)
  /-- A column without a default. -/
  | addColumn (table : String) (column : Column)
  | insert (table : String) (row : Row V)
  | insertOrIgnore (table : String) (row : Row V)
  | insertSelect (table source : String) (row : Row V → Row V)

def Reference.renameTable (name newName : String) (ref : Reference) : Reference :=
  { ref with table := if ref.table = name then newName else ref.table }

def Column.renameTable (name newName : String) (c : Column) : Column :=
  { c with references := c.references.map (Reference.renameTable name newName) }

def Table.renameTable (name newName : String) (t : Table) : Table :=
  { t with
    name := if t.name = name then newName else t.name
    columns := t.columns.map (Column.renameTable name newName) }

def Index.renameTable (name newName : String) (i : Index) : Index :=
  { i with table := if i.table = name then newName else i.table }

def Schema.rename (s : Schema) (name newName : String) : Schema :=
  ⟨s.tables.map (Table.renameTable name newName), s.indexes.map (Index.renameTable name newName)⟩

/-- References follow the column of the table that is renamed. -/
def Reference.renameColumn (table name newName : String) (ref : Reference) : Reference :=
  { ref with column := if ref.table = table ∧ ref.column = name then newName else ref.column }

def Column.renameColumn (table name newName : String) (c : Column) : Column :=
  { c with references := c.references.map (Reference.renameColumn table name newName) }

def Table.renameColumn (name newName : String) (t : Table) : Table :=
  { t with
    columns := t.columns.map (fun c => { c with name := if c.name = name then newName else c.name })
    unique := t.unique.map (fun key => key.map (fun c => if c = name then newName else c)) }

def Index.renameColumn (name newName : String) (i : Index) : Index :=
  { i with
    columns := i.columns.map (fun c => if c = name then newName else c)
    whereNull := if i.whereNull = name then newName else i.whereNull }

/-- The schema after a change to the table, if it exists. -/
def Schema.onTable (s : Schema) (name : String) (s' : Schema) : Except Error Schema :=
  if s.has name then .ok s' else .error (.noSuchTable name)

/-- What a statement makes of the schema. -/
def alter (s : Schema) : Statement V → Except Error Schema
  | .createTable table => .ok (if s.has table.name then s else s.add table)
  | .createIndex index =>
      s.onTable index.table (if s.indexes.any (fun i => i.name = index.name) then s
        else { s with indexes := s.indexes ++ [index] })
  | .dropTable ifExists name =>
      if s.has name then .ok (s.drop name)
      else if ifExists then .ok s else .error (.noSuchTable name)
  | .dropIndex name => .ok { s with indexes := s.indexes.filter (fun i => i.name ≠ name) }
  | .renameTable name newName =>
      if s.has newName then .error (.tableExists newName)
      else s.onTable name (s.rename name newName)
  | .renameColumn table name newName =>
      s.onTable table
        ⟨s.tables.map (fun t =>
            let t := { t with columns := t.columns.map (Column.renameColumn table name newName) }
            if t.name = table then t.renameColumn name newName else t),
          s.indexes.map (fun i => if i.table = table then i.renameColumn name newName else i)⟩
  | .addColumn table column =>
      s.onTable table { s with tables := s.tables.map (fun t =>
        if t.name = table then { t with columns := t.columns ++ [column] } else t) }
  | .insert table _ | .insertOrIgnore table _ => s.onTable table s
  | .insertSelect table source _ => if s.has source then s.onTable table s else .error (.noSuchTable source)

def alterAll (s : Schema) : List (Statement V) → Except Error Schema
  | [] => .ok s
  | st :: sts =>
      match alter s st with
      | .error e => .error e
      | .ok s => alterAll s sts

/-- What a statement makes of the rows. -/
def rowsAfter (s : Schema) (rows : String → List (Row V)) : Statement V → String → List (Row V)
  | .createTable table => if s.has table.name then rows else Function.update rows table.name []
  | .createIndex _ | .dropIndex _ => rows
  | .addColumn table column =>
      Function.update rows table ((rows table).map (fun r => Function.update r column.name none))
  | .dropTable _ name => Function.update rows name []
  | .renameTable name newName => Function.update (Function.update rows newName (rows name)) name []
  | .renameColumn table name newName =>
      Function.update rows table ((rows table).map (fun r =>
        Function.update (Function.update r newName (r name)) name none))
  | .insert table row | .insertOrIgnore table row => Function.update rows table (rows table ++ [row])
  | .insertSelect table source row =>
      Function.update rows table (rows table ++ (rows source).map row)

/-- The tables whose rows a statement may change. -/
def touches : Statement V → List String
  | .createTable table => [table.name]
  | .createIndex _ | .dropIndex _ => []
  | .dropTable _ name => [name]
  | .renameTable name newName => [name, newName]
  | .renameColumn table _ _ | .addColumn table _ | .insert table _ | .insertOrIgnore table _
  | .insertSelect table _ _ => [table]

theorem rowsAfter_of_notMem {st : Statement V} {name : String} (h : name ∉ touches st) (s : Schema)
    (rows : String → List (Row V)) : rowsAfter s rows st name = rows name := by
  cases st with
  | createTable table =>
      show (if s.has table.name then rows else Function.update rows table.name []) name = rows name
      split_ifs
      · rfl
      · exact Function.update_of_ne (List.ne_of_not_mem_cons h) _ _
  | createIndex index | dropIndex name => rfl
  | renameTable old new =>
      show Function.update (Function.update rows new (rows old)) old [] name = rows name
      rw [Function.update_of_ne (List.ne_of_not_mem_cons h),
        Function.update_of_ne (List.ne_of_not_mem_cons (List.not_mem_of_not_mem_cons h))]
  | _ => exact Function.update_of_ne (List.ne_of_not_mem_cons h) _ _

/-- A transaction with a result of its own is rolled back if it fails. -/
def transaction (db : Database V) (result : Except Error (Database V)) :
    Database V × Except Error Unit :=
  match result with
  | .ok db' => (db', .ok ())
  | .error e => (db, .error e)

def ignores : Statement V → Bool
  | .insertOrIgnore _ _ => true
  | _ => false

section Exec
variable [DecidableEq V]

/-- A table that is dropped must not be referenced by rows that stay. -/
def exec (db : Database V) (st : Statement V) : Except Error (Database V) :=
  match alter db.schema st with
  | .error e => .error e
  | .ok s =>
      let db' : Database V := ⟨s, rowsAfter db.schema db.rows st⟩
      if db'.Consistent then .ok db'
      else if ignores st then .ok { db with schema := s }
      else .error .constraint

/-- The statements up to the first that fails, and its error. -/
def script (db : Database V) : List (Statement V) → Database V × Except Error Unit
  | [] => (db, .ok ())
  | st :: sts =>
      match exec db st with
      | .error e => (db, .error e)
      | .ok db => script db sts

def execAll (db : Database V) : List (Statement V) → Except Error (Database V)
  | [] => .ok db
  | st :: sts =>
      match exec db st with
      | .error e => .error e
      | .ok db => execAll db sts

/-! ## What is known of a statement that succeeds -/

theorem exec_ok {db db' : Database V} {st : Statement V} (h : exec db st = .ok db') :
    alter db.schema st = .ok db'.schema ∧
      (db'.rows = rowsAfter db.schema db.rows st ∨ (ignores st = true ∧ db'.rows = db.rows)) := by
  unfold exec at h
  split at h
  · cases h
  · rename_i s hs
    dsimp only at h
    split_ifs at h with hc hi
    · rw [← Except.ok.inj h]
      exact ⟨hs, .inl rfl⟩
    · rw [← Except.ok.inj h]
      exact ⟨hs, .inr ⟨hi, rfl⟩⟩

theorem exec_eq_ok {db : Database V} {st : Statement V} {s : Schema} (hs : alter db.schema st = .ok s)
    (hc : Database.Consistent ⟨s, rowsAfter db.schema db.rows st⟩) :
    exec db st = .ok ⟨s, rowsAfter db.schema db.rows st⟩ := by
  unfold exec
  rw [hs]
  exact if_pos hc

theorem execAll_schema {db db' : Database V} {sts : List (Statement V)}
    (h : execAll db sts = .ok db') : alterAll db.schema sts = .ok db'.schema := by
  induction sts generalizing db with
  | nil => rw [← Except.ok.inj h, alterAll]
  | cons st sts ih =>
      rw [execAll] at h
      split at h
      · cases h
      · rename_i db₁ h₁
        rw [alterAll, (exec_ok h₁).1]
        exact ih h

/-- Tables that no statement touches keep their rows. -/
theorem execAll_rows {db db' : Database V} {sts : List (Statement V)} (h : execAll db sts = .ok db')
    {name : String} (hname : ∀ st ∈ sts, name ∉ touches st) : db'.rows name = db.rows name := by
  induction sts generalizing db with
  | nil => rw [← Except.ok.inj h]
  | cons st sts ih =>
      rw [execAll] at h
      split at h
      · cases h
      · rename_i db₁ h₁
        rw [ih h (fun st' hst' => hname st' (List.mem_cons_of_mem st hst'))]
        rcases (exec_ok h₁).2 with hrows | ⟨-, hrows⟩
        · rw [hrows, rowsAfter_of_notMem (hname st List.mem_cons_self)]
        · rw [hrows]

theorem execAll_append {db : Database V} {sts sts' : List (Statement V)} :
    execAll db (sts ++ sts') = (execAll db sts).bind (fun db => execAll db sts') := by
  induction sts generalizing db with
  | nil => rfl
  | cons st sts ih =>
      rw [List.cons_append, execAll, execAll]
      split
      · rfl
      · exact ih

end Exec

/-! ## Constraints that stay met -/

theorem Table.Holds.mono {t : Table} {own : List (Row V)} {rows rows' : String → List (Row V)}
    (h : t.Holds own rows)
    (hrows : ∀ c ∈ t.columns, ∀ ref ∈ c.references, rows ref.table ⊆ rows' ref.table) :
    t.Holds own rows' where
  notNull := h.notNull
  unique := h.unique
  references c hc ref href r hr v hv := by
    obtain ⟨p, hp, hpv⟩ := h.references c hc ref href r hr v hv
    exact ⟨p, hrows c hc ref href hp, hpv⟩

theorem Table.Holds.isSome {t : Table} {own : List (Row V)} {rows : String → List (Row V)}
    (h : t.Holds own rows) {name : String} (hname : ∃ c ∈ t.columns, c.name = name ∧ c.notNull = true) :
    ∀ r ∈ own, (r name).isSome = true := by
  obtain ⟨c, hc, rfl, hnotNull⟩ := hname
  exact h.notNull c hc hnotNull

theorem Table.Holds.exists_parent {t : Table} {own : List (Row V)} {rows : String → List (Row V)}
    (h : t.Holds own rows) {name table column : String} (hname : ∃ c ∈ t.columns, c.name = name ∧
      ∃ ref ∈ c.references, ref.table = table ∧ ref.column = column) :
    ∀ r ∈ own, ∀ v ∈ r name, ∃ p ∈ rows table, p column = some v := by
  obtain ⟨c, hc, rfl, ref, href, rfl, rfl⟩ := hname
  exact h.references c hc ref href

theorem Table.holds_nil (t : Table) (rows : String → List (Row V)) : t.Holds [] rows :=
  ⟨fun _ _ _ => List.forall_mem_nil _, fun _ _ => List.nodup_nil, fun _ _ _ _ => List.forall_mem_nil _⟩

/-- A table with one key and no references. -/
theorem Table.holds_of_key {t : Table} {names key : List String} {own : List (Row V)}
    {rows : String → List (Row V)} (ht : (∀ c ∈ t.columns, c.notNull = true → c.name ∈ names) ∧
      t.keys = [key] ∧ ∀ c ∈ t.columns, c.references = none)
    (hnotNull : ∀ r ∈ own, ∀ name ∈ names, (r name).isSome = true) (hunique : Unique own key) :
    t.Holds own rows where
  notNull c hc hn r hr := hnotNull r hr c.name (ht.1 c hc hn)
  unique := by
    rw [ht.2.1, List.forall_mem_singleton]
    exact hunique
  references := by
    intro c hc ref href
    rw [ht.2.2 c hc] at href
    cases href

theorem Table.Holds.withName {t : Table} {own : List (Row V)} {rows : String → List (Row V)}
    (h : t.Holds own rows) (name : String) : { t with name := name }.Holds own rows :=
  ⟨h.notNull, h.unique, h.references⟩

theorem Column.renameTable_of_ne {name newName : String} {c : Column}
    (h : ∀ ref ∈ c.references, ref.table ≠ name) : c.renameTable name newName = c := by
  unfold Column.renameTable
  cases href : c.references with
  | none => rw [Option.map_none, ← href]
  | some ref =>
      have hsame : ref.renameTable name newName = ref := by
        rw [Reference.renameTable, if_neg (h ref href)]
      rw [Option.map_some, hsame, ← href]

namespace Database.Consistent

variable {s : Schema} {rows : String → List (Row V)}

/-- The rows under a name that nothing in the schema has to do with. -/
theorem update_free (h : Consistent ⟨s, rows⟩) {name : String} (hfree : s.Free name)
    (own : List (Row V)) : Consistent ⟨s, Function.update rows name own⟩ where
  tables t ht := by
    show t.Holds (Function.update rows name own t.name) (Function.update rows name own)
    rw [Function.update_of_ne (hfree.1 t ht)]
    refine (h.tables t ht).mono (fun c hc ref href => ?_)
    rw [Function.update_of_ne (hfree.2.2 t ht c hc ref href)]
    exact List.Subset.refl _
  indexes i hi := by
    show i.Holds (Function.update rows name own i.table)
    rw [Function.update_of_ne (hfree.2.1 i hi)]
    exact h.indexes i hi

/-- A table whose rows meet its constraints. -/
theorem append (h : Consistent ⟨s, rows⟩) {t : Table} (ht : t.Holds (rows t.name) rows) :
    Consistent ⟨s.add t, rows⟩ where
  tables := by
    intro t' ht'
    rcases List.mem_append.mp ht' with ht' | ht'
    · exact h.tables t' ht'
    · rw [List.mem_singleton.mp ht']
      exact ht
  indexes := h.indexes

/-- Rows are added that meet the constraints of their table. -/
theorem grow (h : Consistent ⟨s, rows⟩) {t : Table} {more : List (Row V)} (ht : s.Plain t)
    (hmore : t.Holds (rows t.name ++ more) (Function.update rows t.name (rows t.name ++ more))) :
    Consistent ⟨s, Function.update rows t.name (rows t.name ++ more)⟩ where
  tables t' ht' := by
    show t'.Holds (Function.update rows t.name (rows t.name ++ more) t'.name) _
    by_cases hname : t'.name = t.name
    · rw [ht.2.2 t' ht' hname, Function.update_self]
      exact hmore
    · rw [Function.update_of_ne hname]
      refine (h.tables t' ht').mono (fun c hc ref href => ?_)
      show rows ref.table ⊆ Function.update rows t.name (rows t.name ++ more) ref.table
      by_cases href' : ref.table = t.name
      · rw [href', Function.update_self]
        exact List.subset_append_left _ _
      · rw [Function.update_of_ne href']
        exact List.Subset.refl _
  indexes i hi := by
    show i.Holds (Function.update rows t.name (rows t.name ++ more) i.table)
    rw [Function.update_of_ne (ht.2.1 i hi)]
    exact h.indexes i hi

theorem drop (h : Consistent ⟨s, rows⟩) (name : String) : Consistent ⟨s.drop name, rows⟩ :=
  ⟨fun t ht => h.tables t (List.mem_of_mem_filter ht), fun i hi => h.indexes i (List.mem_of_mem_filter hi)⟩

theorem rename (h : Consistent ⟨s, rows⟩) {name newName : String} (hfree : s.Free newName)
    (hname : s.Unreferenced name) (hindex : ∀ i ∈ s.indexes, i.table ≠ name) (hne : newName ≠ name) :
    Consistent ⟨s.rename name newName,
      Function.update (Function.update rows newName (rows name)) name []⟩ where
  tables := by
    intro t' ht'
    obtain ⟨t, ht, rfl⟩ := List.mem_map.mp ht'
    have hcolumns : t.columns.map (Column.renameTable name newName) = t.columns :=
      (List.map_congr_left (fun c hc => Column.renameTable_of_ne (hname t ht c hc))).trans (List.map_id _)
    have hrows : ∀ k, k ≠ name → k ≠ newName →
        Function.update (Function.update rows newName (rows name)) name [] k = rows k := by
      intro k hk hk'
      rw [Function.update_of_ne hk, Function.update_of_ne hk']
    have hold : t.Holds (rows t.name) (Function.update (Function.update rows newName (rows name)) name []) := by
      refine (h.tables t ht).mono (fun c hc ref href => ?_)
      rw [hrows ref.table (hname t ht c hc ref href) (hfree.2.2 t ht c hc ref href)]
      exact List.Subset.refl _
    show Table.Holds (t.renameTable name newName) (Function.update (Function.update rows newName (rows name))
      name [] (if t.name = name then newName else t.name)) _
    unfold Table.renameTable
    rw [hcolumns]
    split_ifs with hn
    · rw [Function.update_of_ne hne, Function.update_self]
      rw [hn] at hold
      exact hold.withName _
    · rw [hrows t.name hn (hfree.1 t ht)]
      exact hold.withName _
  indexes := by
    intro i' hi'
    obtain ⟨i, hi, rfl⟩ := List.mem_map.mp hi'
    show Index.Holds (i.renameTable name newName)
      (Function.update (Function.update rows newName (rows name)) name [] (if i.table = name then newName else i.table))
    rw [if_neg (hindex i hi), Function.update_of_ne (hindex i hi), Function.update_of_ne (hfree.2.1 i hi)]
    exact h.indexes i hi

end Database.Consistent

/-! ## Statements that succeed -/

section Runs
variable [DecidableEq V] {s : Schema} {rows : String → List (Row V)}

/-- The statements succeed, and leave a database that meets its constraints. -/
def Runs (db : Database V) (sts : List (Statement V)) (db' : Database V) : Prop :=
  execAll db sts = .ok db' ∧ db'.Consistent

theorem Runs.append {db db' db'' : Database V} {sts sts' : List (Statement V)} (h : Runs db sts db')
    (h' : Runs db' sts' db'') : Runs db (sts ++ sts') db'' := by
  refine ⟨?_, h'.2⟩
  rw [execAll_append, h.1]
  exact h'.1

theorem Runs.cons {db db' db'' : Database V} {st : Statement V} {sts : List (Statement V)}
    (h : Runs db [st] db') (h' : Runs db' sts db'') : Runs db (st :: sts) db'' := h.append h'

theorem Runs.of_alter {st : Statement V} {s' : Schema} {rows' : String → List (Row V)}
    (hs : alter s st = .ok s') (hrows : rowsAfter s rows st = rows')
    (hc : Database.Consistent ⟨s', rows'⟩) : Runs ⟨s, rows⟩ [st] ⟨s', rows'⟩ := by
  subst hrows
  refine ⟨?_, hc⟩
  rw [execAll, exec_eq_ok hs hc]
  rfl

theorem Schema.Free.has {name : String} (h : s.Free name) : s.has name = false := by
  rw [Schema.has, List.any_eq_false]
  intro t ht
  simpa using h.1 t ht

theorem runs_createTable (h : Database.Consistent ⟨s, rows⟩) {t : Table} (hfree : s.Free t.name) :
    Runs ⟨s, rows⟩ [.createTable t] ⟨s.add t, Function.update rows t.name []⟩ := by
  apply Runs.of_alter
  · rw [alter, hfree.has, if_neg Bool.false_ne_true]
  · rw [rowsAfter, hfree.has, if_neg Bool.false_ne_true]
  · apply (h.update_free hfree []).append
    rw [Function.update_self]
    exact t.holds_nil _

/-- A table without rows is filled from another one. -/
theorem runs_insertSelect (h : Database.Consistent ⟨s, rows⟩) {t : Table} {source : String}
    (row : Row V → Row V) (ht : s.Plain t) (hsource : s.has source = true) (hempty : rows t.name = [])
    (hmore : t.Holds ((rows source).map row) (Function.update rows t.name ((rows source).map row))) :
    Runs ⟨s, rows⟩ [.insertSelect t.name source row]
      ⟨s, Function.update rows t.name ((rows source).map row)⟩ := by
  have happend : rows t.name ++ (rows source).map row = (rows source).map row := by
    rw [hempty, List.nil_append]
  rw [← happend] at hmore ⊢
  refine Runs.of_alter ?_ rfl (h.grow ht hmore)
  rw [alter, if_pos hsource, Schema.onTable, if_pos ht.1]

theorem runs_insert (h : Database.Consistent ⟨s, rows⟩) {t : Table} {row : Row V} (ht : s.Plain t)
    (hmore : t.Holds (rows t.name ++ [row]) (Function.update rows t.name (rows t.name ++ [row]))) :
    Runs ⟨s, rows⟩ [.insert t.name row] ⟨s, Function.update rows t.name (rows t.name ++ [row])⟩ := by
  refine Runs.of_alter ?_ rfl (h.grow ht hmore)
  rw [alter, Schema.onTable, if_pos ht.1]

theorem runs_dropTable (h : Database.Consistent ⟨s, rows⟩) (ifExists : Bool) {name : String}
    (hname : s.has name = true) (hfree : (s.drop name).Free name) :
    Runs ⟨s, rows⟩ [.dropTable ifExists name] ⟨s.drop name, Function.update rows name []⟩ := by
  refine Runs.of_alter ?_ rfl ((h.drop name).update_free hfree [])
  rw [alter, if_pos hname]

theorem runs_renameTable (h : Database.Consistent ⟨s, rows⟩) {name newName : String}
    (hname : s.has name = true) (hfree : s.Free newName) (hunreferenced : s.Unreferenced name)
    (hindex : ∀ i ∈ s.indexes, i.table ≠ name) :
    Runs ⟨s, rows⟩ [.renameTable name newName] ⟨s.rename name newName,
      Function.update (Function.update rows newName (rows name)) name []⟩ := by
  have hne : newName ≠ name := by
    rintro rfl
    exact absurd (hfree.has.symm.trans hname) (by decide)
  refine Runs.of_alter ?_ rfl (h.rename hfree hunreferenced hindex hne)
  rw [alter, hfree.has, if_neg Bool.false_ne_true, Schema.onTable, if_pos hname]

end Runs

end Sql
