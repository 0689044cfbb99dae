import OpcuaLight.Db.Migrations
import OpcuaLight.Db.Uniqueness

/-!
# The schema after the constructor

A new database is made by `schema.sql`, which stops at version 4: its `mappings` are as they were before
migration 5 (`opened_mappings`, `opened_version`) until the file is opened again. In between a mapping
without a node passes the checks of the repository and is refused by the database (`insert_succeeds_iff`).
-/

namespace OpcuaLight.Db.Migrations

open Sql (Schema Table Row Database)
open Connector (Mapping)

/-- `mappings` as a new database has it, and after migration 5. -/
def mappingsTable (migrated : Bool) : Table :=
  if migrated then { mappingsNew with name := "mappings" } else mappings

/-- A file that the constructor may find: none, or one with a recorded version before the current one and
a schema of this version, whatever its rows are. -/
def Start (db : Database Value) : Prop :=
  db = Database.empty ∨ ∃ version : Nat, 1 ≤ version ∧ version < 5 ∧ schemaVersion db = version ∧
    db.schema ∈ starts version

/-! ## Recorded versions -/

def versions (db : Database Value) : List Int :=
  (db.rows "schema_migrations").filterMap (fun r =>
    match r "version" with
    | some (.integer n) => some n
    | _ => none)

theorem schemaVersion_eq (db : Database Value) : schemaVersion db = (versions db).max?.getD 0 := rfl

theorem migration_touches (s : Schema) (version : Int) :
    ∀ st ∈ migration s version, "schema_migrations" ∉ Sql.touches st := by
  unfold migration
  split
  · decide
  · decide
  · rw [List.forall_mem_append]
    refine ⟨by decide, ?_⟩
    split_ifs <;> decide
  · decide
  · exact List.forall_mem_nil _

theorem step_cases {clock : String} {db db' : Database Value} {version : Int}
    (h : step clock db version = .ok db') : ∃ db₁, Sql.execAll db (migration db.schema version) = .ok db₁ ∧
      db'.schema = db₁.schema ∧
      db'.rows = Function.update db₁.rows "schema_migrations"
        (db₁.rows "schema_migrations" ++ [versionRow clock version]) := by
  unfold step at h
  rw [Sql.execAll_append] at h
  cases h₁ : Sql.execAll db (migration db.schema version) with
  | error e =>
      rw [h₁] at h
      cases h
  | ok db₁ =>
      rw [h₁] at h
      have hinsert : Sql.execAll db₁ [.insert "schema_migrations" (versionRow clock version)] = .ok db' := h
      rw [Sql.execAll] at hinsert
      split at hinsert
      · cases hinsert
      · rename_i db₂ h₂
        rw [← Except.ok.inj hinsert]
        obtain ⟨hschema, hrows | ⟨hignore, -⟩⟩ := Sql.exec_ok h₂
        · refine ⟨db₁, rfl, ?_, hrows⟩
          have hsame : (if db₁.schema.has "schema_migrations" then Except.ok db₁.schema
              else Except.error (Sql.Error.noSuchTable "schema_migrations")) = Except.ok db₂.schema := hschema
          split_ifs at hsame
          exact (Except.ok.inj hsame).symm
        · cases hignore

/-- A migration is recorded after those before. -/
theorem step_versions {clock : String} {db db' : Database Value} {version : Int}
    (h : step clock db version = .ok db') : versions db' = versions db ++ [version] := by
  obtain ⟨db₁, h₁, -, hrows⟩ := step_cases h
  unfold versions
  rw [hrows, Function.update_self, List.filterMap_append,
    Sql.execAll_rows h₁ (migration_touches db.schema version)]
  rfl

theorem steps_versions {clock : String} {db db' : Database Value} {todo : List Int}
    (h : steps clock db todo = .ok db') : versions db' = versions db ++ todo := by
  induction todo generalizing db with
  | nil => rw [← Except.ok.inj h, List.append_nil]
  | cons version todo ih =>
      rw [steps] at h
      split at h
      · cases h
      · rename_i db₁ h₁
        rw [ih h, step_versions h₁, List.append_assoc]
        rfl

theorem le_schemaVersion {db : Database Value} {n : Int} (h : n ∈ versions db) : n ≤ schemaVersion db := by
  rw [schemaVersion_eq]
  cases hmax : (versions db).max? with
  | none =>
      rw [List.max?_eq_none_iff] at hmax
      rw [hmax] at h
      cases h
  | some m => exact (List.max?_eq_some_iff.mp hmax).2 n h

theorem mem_pending {fromVersion n : Int} :
    n ∈ pending fromVersion ↔ fromVersion < n ∧ n ≤ currentSchemaVersion := by
  unfold pending currentSchemaVersion
  rw [List.mem_map]
  constructor
  · rintro ⟨i, hi, rfl⟩
    rw [List.mem_range] at hi
    omega
  · rintro ⟨h1, h2⟩
    exact ⟨(n - fromVersion - 1).toNat, List.mem_range.mpr (by omega), by omega⟩

/-- After all pending migrations the current version is recorded. -/
theorem steps_schemaVersion {clock : String} {db db' : Database Value}
    (hold : schemaVersion db < currentSchemaVersion)
    (h : steps clock db (pending (schemaVersion db)) = .ok db') :
    schemaVersion db' = currentSchemaVersion := by
  have hmax : (versions db').max? = some currentSchemaVersion := by
    rw [steps_versions h, List.max?_eq_some_iff]
    refine ⟨List.mem_append_right _ (mem_pending.mpr ⟨hold, le_rfl⟩), fun n hn => ?_⟩
    rcases List.mem_append.mp hn with hn | hn
    · exact (le_schemaVersion hn).trans hold.le
    · exact (mem_pending.mp hn).2
  rw [schemaVersion_eq, hmax]
  rfl

/-! ## The schema of each start -/

def schemaSteps (s : Schema) : List Int → Option Schema
  | [] => some s
  | version :: todo => (upgrade s version).bind (fun s => schemaSteps s todo)

theorem steps_schema {clock : String} {db db' : Database Value} {todo : List Int}
    (h : steps clock db todo = .ok db') : schemaSteps db.schema todo = some db'.schema := by
  induction todo generalizing db with
  | nil => rw [← Except.ok.inj h, schemaSteps]
  | cons version todo ih =>
      rw [steps] at h
      split at h
      · cases h
      · rename_i db₁ h₁
        obtain ⟨db₂, h₂, hschema, -⟩ := step_cases h₁
        rw [schemaSteps, upgrade, Sql.execAll_schema h₂, ← hschema]
        exact ih h

/-- Every way through the releases and their migrations leads to one `mappings`. -/
theorem starts_mappings : ∀ version < 5, ∀ s ∈ starts version, s.has "schema_migrations" = true ∧
    (schemaSteps s (pending version)).all (fun s => s.find "mappings" = some (mappingsTable true)) = true := by
  decide +kernel

/-- What `schema.sql` makes. -/
theorem openDatabase_empty (clock : String) : ∃ db, openDatabase clock Database.empty = (db, .ok ()) ∧
    db.schema.find "mappings" = some (mappingsTable false) ∧ schemaVersion db = 4 := ⟨_, rfl, rfl, rfl⟩

theorem openDatabase_existing {clock : String} {file : Database Value}
    (hhas : file.schema.has "schema_migrations" = true) (hold : schemaVersion file < currentSchemaVersion) :
    openDatabase clock file = Sql.transaction file (steps clock file (pending (schemaVersion file))) := by
  rw [openDatabase, if_pos hhas, if_pos hold, applyMigrations]

/-- The constructor brings every existing file to the current version, and leaves a new one at 4. -/
theorem opened (clock : String) {file db : Database Value} (hstart : Start file)
    (h : openDatabase clock file = (db, .ok ())) :
    db.schema.find "mappings" = some (mappingsTable (file.schema.has "schema_migrations")) ∧
      (schemaVersion db = currentSchemaVersion ↔ file.schema.has "schema_migrations" = true) := by
  rcases hstart with rfl | ⟨version, hpos, hlt, hversion, hschema⟩
  · obtain ⟨db', hopen, hmappings, hversion⟩ := openDatabase_empty clock
    obtain rfl : db' = db := (Prod.mk.inj (hopen.symm.trans h)).1
    refine ⟨hmappings, ?_⟩
    rw [hversion]
    decide
  · obtain ⟨hhas, hall⟩ := starts_mappings version hlt file.schema hschema
    have hold : schemaVersion file < currentSchemaVersion := by
      rw [hversion]
      unfold currentSchemaVersion
      omega
    rw [openDatabase_existing hhas hold] at h
    have hsteps : steps clock file (pending (schemaVersion file)) = .ok db := by
      unfold Sql.transaction at h
      split at h
      · rename_i db' hdb
        rw [hdb, (Prod.mk.inj h).1]
      · cases (Prod.mk.inj h).2
    have hschema' := steps_schema hsteps
    rw [hversion] at hschema'
    rw [hschema', Option.all_some, decide_eq_true_eq] at hall
    rw [hhas]
    exact ⟨hall, iff_of_true (steps_schemaVersion hold hsteps) rfl⟩

/-! ## Mappings in the two tables -/

/-- The row of a mapping. -/
def mappingRow (m : Mapping) : Row Value :=
  Sql.project [("id", fun _ => some (.text m.id)), ("connection_id", fun _ => some (.text m.connectionId)),
    ("node_id", fun _ => m.nodeId.map .text), ("device_address", fun _ => some (.text m.deviceAddress)),
    ("description", fun _ => m.description.map .text), ("created_at", fun _ => some (.text m.createdAt))]
    (Sql.values [])

theorem rowToMapping_mappingRow (m : Mapping) : rowToMapping (mappingRow m) = some m := by
  obtain ⟨id, connectionId, nodeId, deviceAddress, description, createdAt⟩ := m
  cases nodeId <;> cases description <;> rfl

theorem text_injective : Function.Injective (fun s : String => [Value.text s]) :=
  fun _ _ h => Value.text.inj (List.cons.inj h).1

theorem unique_id (ms : List Mapping) :
    Sql.Unique (ms.map mappingRow) ["id"] ↔ (ms.map (fun m => m.id)).Nodup := by
  rw [Sql.unique_map_iff (g := fun m => some m.id) text_injective (fun _ => rfl), List.filterMap_eq_map']

theorem unique_address (ms : List Mapping) :
    Sql.Unique (ms.map mappingRow) ["connection_id", "device_address"] ↔
      (ms.map (fun m => (m.connectionId, m.deviceAddress))).Nodup := by
  have he : Function.Injective (fun k : String × String => [Value.text k.1, Value.text k.2]) := by
    intro k k' h
    have htail := (List.cons.inj (List.cons.inj h).2).1
    exact Prod.ext (Value.text.inj (List.cons.inj h).1) (Value.text.inj htail)
  rw [Sql.unique_map_iff (g := fun m => some (m.connectionId, m.deviceAddress)) he (fun _ => rfl),
    List.filterMap_eq_map']

theorem unique_node (ms : List Mapping) :
    Sql.Unique (ms.map mappingRow) ["node_id"] ↔ (ms.filterMap (fun m => m.nodeId)).Nodup := by
  apply Sql.unique_map_iff text_injective
  rintro ⟨id, connectionId, nodeId, deviceAddress, description, createdAt⟩
  cases nodeId <;> rfl

theorem keys_mappingsTable (migrated : Bool) : (mappingsTable migrated).keys =
    ["id"] :: ["connection_id", "device_address"] :: if migrated then [] else [["node_id"]] := by
  cases migrated <;> rfl

theorem notNull_mappingsTable (migrated : Bool) : ∀ c ∈ (mappingsTable migrated).columns,
    c.notNull = true → c.name ∈ ["connection_id", "device_address", "created_at"] ∨
      (c.name = "node_id" ∧ migrated = false) := by
  cases migrated <;> decide

theorem references_mappingsTable (migrated : Bool) : ∀ c ∈ (mappingsTable migrated).columns,
    ∀ ref ∈ c.references, (c.name = "connection_id" ∧ ref.table = "connections" ∧ ref.column = "id") ∨
      (c.name = "node_id" ∧ ref.table = "nodes" ∧ ref.column = "id") := by
  cases migrated <;> decide

/-- The constraints of `mappings` before and after migration 5. -/
structure MappingRows (migrated : Bool) (own : List (Row Value)) (rows : String → List (Row Value)) :
    Prop where
  notNull : ∀ r ∈ own, ∀ c ∈ ["connection_id", "device_address", "created_at"], (r c).isSome = true
  mapped : migrated = true ∨ ∀ r ∈ own, (r "node_id").isSome = true
  ids : Sql.Unique own ["id"]
  addresses : Sql.Unique own ["connection_id", "device_address"]
  nodesDiffer : migrated = true ∨ Sql.Unique own ["node_id"]
  connections : ∀ r ∈ own, ∀ v ∈ r "connection_id", ∃ p ∈ rows "connections", p "id" = some v
  nodes : ∀ r ∈ own, ∀ v ∈ r "node_id", ∃ p ∈ rows "nodes", p "id" = some v

theorem holds_mappingsTable_iff (migrated : Bool) (own : List (Row Value))
    (rows : String → List (Row Value)) :
    (mappingsTable migrated).Holds own rows ↔ MappingRows migrated own rows := by
  constructor
  · intro h
    have hunique := h.unique
    rw [keys_mappingsTable, List.forall_mem_cons, List.forall_mem_cons] at hunique
    refine ⟨?_, ?_, hunique.1, hunique.2.1, ?_, ?_, ?_⟩
    · intro r hr
      simp only [List.forall_mem_cons]
      refine ⟨h.isSome ?_ r hr, h.isSome ?_ r hr, h.isSome ?_ r hr, List.forall_mem_nil _⟩ <;>
        cases migrated <;> decide
    · cases migrated with
      | true => exact .inl rfl
      | false => exact .inr (h.isSome (by decide))
    · cases migrated with
      | true => exact .inl rfl
      | false => exact .inr (hunique.2.2 _ List.mem_cons_self)
    · exact h.exists_parent (by cases migrated <;> decide)
    · exact h.exists_parent (by cases migrated <;> decide)
  · intro h
    refine ⟨?_, ?_, ?_⟩
    · intro c hc hnotNull r hr
      rcases notNull_mappingsTable migrated c hc hnotNull with hname | ⟨hname, hold⟩
      · exact h.notNull r hr c.name hname
      · rw [hname]
        exact h.mapped.resolve_left (by rw [hold]; decide) r hr
    · rw [keys_mappingsTable, List.forall_mem_cons, List.forall_mem_cons]
      refine ⟨h.ids, h.addresses, ?_⟩
      cases migrated with
      | true => exact List.forall_mem_nil _
      | false =>
          rw [if_neg Bool.false_ne_true, List.forall_mem_singleton]
          exact h.nodesDiffer.resolve_left Bool.false_ne_true
    · intro c hc ref href r hr v hv
      rcases references_mappingsTable migrated c hc ref href with ⟨hname, htable, hcolumn⟩ |
        ⟨hname, htable, hcolumn⟩
      · rw [htable, hcolumn]
        exact h.connections r hr v (hname ▸ hv)
      · rw [htable, hcolumn]
        exact h.nodes r hr v (hname ▸ hv)

theorem map_eq_of_isSome {α β : Type} {f : α → Option β} {l : List α}
    (h : ∀ a ∈ l, (f a).isSome = true) : l.map f = (l.filterMap f).map some := by
  induction l with
  | nil => rfl
  | cons a l ih =>
      obtain ⟨b, hb⟩ := Option.isSome_iff_exists.mp (h a List.mem_cons_self)
      rw [List.map_cons, List.filterMap_cons_some hb, List.map_cons, hb,
        ih (fun a' ha' => h a' (List.mem_cons_of_mem a ha'))]

theorem isSome_node_id (m : Mapping) : (mappingRow m "node_id").isSome = m.nodeId.isSome :=
  Option.isSome_map

/-- In a database with the connections and nodes of the state, `mappings` demands what the state does. -/
theorem holds_mappings_iff (t : Tables) {rows : String → List (Row Value)}
    (hconnections : ∀ id, (∃ p ∈ rows "connections", p "id" = some (.text id)) ↔ t.hasConnection id = true)
    (hnodes : ∀ id, (∃ p ∈ rows "nodes", p "id" = some (.text id)) ↔ t.hasNode id = true) :
    (mappingsTable t.migrated).Holds (t.mappings.map mappingRow) rows ↔
      (t.mappings.map (fun r => r.id)).Nodup ∧
      (t.mappings.map (fun r => (r.connectionId, r.deviceAddress))).Nodup ∧
      (t.migrated = true ∨ ∀ r ∈ t.mappings, r.nodeId.isSome = true) ∧
      (t.migrated = true ∨ (t.mappings.map (fun r => r.nodeId)).Nodup) ∧
      ∀ r ∈ t.mappings, t.hasConnection r.connectionId = true ∧ r.nodeId.all t.hasNode = true := by
  have hall {P : Row Value → Prop} : (∀ r ∈ t.mappings.map mappingRow, P r) ↔
      ∀ m ∈ t.mappings, P (mappingRow m) := List.forall_mem_map
  have hdiffer : (∀ r ∈ t.mappings, r.nodeId.isSome = true) →
      ((t.mappings.map (fun r => r.nodeId)).Nodup ↔ (t.mappings.filterMap (fun m => m.nodeId)).Nodup) := by
    intro hsome
    rw [map_eq_of_isSome hsome, List.nodup_map_iff (Option.some_injective _)]
  have hmapped (m : Mapping) : (∀ v ∈ mappingRow m "node_id", ∃ p ∈ rows "nodes", p "id" = some v) ↔
      m.nodeId.all t.hasNode = true := by
    show (∀ v ∈ m.nodeId.map Value.text, _) ↔ _
    cases m.nodeId with
    | none => exact iff_of_true nofun rfl
    | some n => simp [hnodes n]
  rw [holds_mappingsTable_iff]
  constructor
  · intro h
    have hsome : t.migrated = true ∨ ∀ r ∈ t.mappings, r.nodeId.isSome = true :=
      h.mapped.imp_right (fun hm r hr => (isSome_node_id r).symm.trans (hall.mp hm r hr))
    refine ⟨(unique_id _).mp h.ids, (unique_address _).mp h.addresses, hsome, ?_, fun m hm => ⟨?_, ?_⟩⟩
    · rcases hsome with hmigrated | hsome
      · exact .inl hmigrated
      · exact h.nodesDiffer.imp_right (fun hu => (hdiffer hsome).mpr ((unique_node _).mp hu))
    · exact (hconnections _).mp (hall.mp h.connections m hm _ rfl)
    · exact (hmapped m).mp (hall.mp h.nodes m hm)
  · rintro ⟨hids, haddresses, hsome, hnode, hkeys⟩
    refine ⟨hall.mpr ?_, ?_, (unique_id _).mpr hids, (unique_address _).mpr haddresses, ?_,
      hall.mpr ?_, hall.mpr ?_⟩
    · intro m _
      simp only [List.forall_mem_cons]
      exact ⟨rfl, rfl, rfl, List.forall_mem_nil _⟩
    · exact hsome.imp_right (fun hs => hall.mpr (fun m hm => (isSome_node_id m).trans (hs m hm)))
    · rcases hsome with hmigrated | hsome
      · exact .inl hmigrated
      · exact hnode.imp_right (fun hu => (unique_node _).mpr ((hdiffer hsome).mp hu))
    · intro m hm v hv
      rw [← Option.some.inj hv]
      exact (hconnections _).mpr (hkeys m hm).1
    · intro m hm
      exact (hmapped m).mpr (hkeys m hm).2

/-! ## Creating a mapping -/

/-- The checks of `createMapping` before the insertion. -/
structure Accepts (t : Tables) (request : ConnectorRepository.CreateMappingRequest) : Prop where
  connection : (ConnectorRepository.findConnectionById t request.connectionId).isSome = true
  node : ConnectorRepository.checkNode t request.nodeId = none
  address : ConnectorRepository.findMappingByConnectionAndAddress t request.connectionId
    request.deviceAddress = none

theorem apply_migrated {t : Tables} (hv : t.Valid) {op : Operation} (hop : op ≠ .reopen) :
    (apply t op).migrated = t.migrated := by
  rcases apply_cases t op with hsame | hdid
  · rw [hsame]
  · cases op with
    | reopen => exact absurd rfl hop
    | deleteNamespace id => rw [cascaded_of_ok hv hdid, cascaded]
    | updateNamespace =>
        obtain ⟨_, -, hdid⟩ := hdid
        rw [checked_ok hdid]
    | createObjectNode | createMapping => rw [checked_ok hdid.2]
    | deleteObjectNode =>
        obtain ⟨x, t₁, -, h₁, he | ⟨t₂, h₂, he | h₃⟩⟩ := hdid
        · rw [he, checked_ok h₁]
        · rw [he, checked_ok h₂, checked_ok h₁]
        · rw [checked_ok h₃, checked_ok h₂, checked_ok h₁]
          rfl
    | createNode =>
        obtain ⟨_, _, _, -, -, hdid⟩ := hdid
        rw [checked_ok hdid]
    | createConnection =>
        obtain ⟨_, -, -, -, hdid⟩ := hdid
        rw [checked_ok hdid]
    | deleteNode =>
        rw [checked_ok hdid]
        rfl
    | _ => rw [checked_ok hdid]

/-- The migration is done once the file has been opened again. -/
theorem run_migrated {t : Tables} (hv : t.Valid) (ops : List Operation) :
    (Machine.run apply t ops).migrated = true ↔ t.migrated = true ∨ .reopen ∈ ops := by
  induction ops using List.reverseRecOn with
  | nil => simp
  | append_singleton ops op ih =>
      have hvalid : (Machine.run apply t ops).Valid :=
        Machine.run_invariant' (I := Tables.Valid) (fun _ op h => valid_apply h op) ops hv
      rw [Machine.run_snoc, List.mem_append, List.mem_singleton]
      by_cases hop : op = .reopen
      · exact iff_of_true (by rw [hop]; rfl) (.inr (.inr hop.symm))
      · rw [apply_migrated hvalid hop, ih]
        exact or_congr_right (or_iff_left (Ne.symm hop)).symm

theorem checkNode_some {t : Tables} {nodeId : String}
    (h : ConnectorRepository.checkNode t (some nodeId) = none) :
    nodeId = "" ∨ (t.hasNode nodeId = true ∧ ∀ m ∈ t.mappings, m.nodeId ≠ some nodeId) := by
  unfold ConnectorRepository.checkNode at h
  simp only at h
  split_ifs at h with hempty hnode hmapped
  · exact .inl hempty
  · rw [Option.not_isSome_iff_eq_none] at hmapped
    exact .inr ⟨by simpa using hnode, findMappingByNodeId_none.mp hmapped⟩

/-- A request that passes the checks comes down to the insertion. -/
theorem createMapping_of_accepts {t : Tables} {request : ConnectorRepository.CreateMappingRequest}
    (h : Accepts t request) (id now : String) :
    (∃ r, ConnectorRepository.createMapping t id now request = .ok r) ↔
      Tables.Valid { t with mappings := t.mappings ++
        [⟨id, request.connectionId, request.nodeId, request.deviceAddress, request.description, now⟩] } := by
  unfold ConnectorRepository.createMapping
  rw [if_neg (by rw [Option.isNone_iff_eq_none, ← Option.not_isSome_iff_eq_none, not_not]; exact h.connection),
    h.node]
  simp only [h.address, Option.isSome_none, Bool.false_eq_true, if_false]
  constructor
  · rintro ⟨⟨t', row⟩, hr⟩
    obtain ⟨hins, -⟩ := ConnectorRepository.map_execute_ok (fun _ => rfl) hr
    exact (Tables.checked_eq_ok.mp hins).1
  · intro hvalid
    have hins := execute_eq_ok.mpr (Tables.checked_eq_ok.mpr ⟨hvalid, rfl⟩)
    exact ⟨_, by rw [Tables.insertMapping, hins]; rfl⟩

/-- What the constraints demand of a mapping with a new id and an address of its own. -/
theorem valid_insertMapping_iff {t : Tables} (hv : t.Valid) {row : Mapping}
    (hid : ∀ m ∈ t.mappings, m.id ≠ row.id)
    (haddress : ∀ m ∈ t.mappings,
      (m.connectionId, m.deviceAddress) ≠ (row.connectionId, row.deviceAddress)) :
    Tables.Valid { t with mappings := t.mappings ++ [row] } ↔
      (t.migrated = true ∨ (row.nodeId.isSome = true ∧ ∀ m ∈ t.mappings, m.nodeId ≠ row.nodeId)) ∧
      t.hasConnection row.connectionId = true ∧ row.nodeId.all t.hasNode = true := by
  have happend {β : Type} (f : Mapping → β) : ((t.mappings ++ [row]).map f).Nodup ↔
      (t.mappings.map f).Nodup ∧ ∀ m ∈ t.mappings, f m ≠ f row := by
    rw [List.map_append, List.nodup_append]
    simp
  constructor
  · intro h
    refine ⟨?_, h.mappingKeys row (List.mem_append_right _ List.mem_cons_self)⟩
    rcases h.mappedNodes with hm | hsome
    · exact .inl hm
    · refine h.mappedNodesDiffer.imp_right (fun hdiffer => ⟨?_, ((happend _).mp hdiffer).2⟩)
      exact hsome row (List.mem_append_right _ List.mem_cons_self)
  · rintro ⟨hnode, hkeys⟩
    exact { hv with
      mappingIds := (happend _).mpr ⟨hv.mappingIds, hid⟩
      mappingAddresses := (happend _).mpr ⟨hv.mappingAddresses, haddress⟩
      mappedNodes := by
        rcases hnode with hm | ⟨hsome, -⟩
        · exact .inl hm
        · refine hv.mappedNodes.imp_right (fun hall => ?_)
          exact List.forall_mem_append.mpr ⟨hall, List.forall_mem_singleton.mpr hsome⟩
      mappedNodesDiffer := by
        rcases hnode with hm | ⟨-, hdiffer⟩
        · exact .inl hm
        · exact hv.mappedNodesDiffer.imp_right (fun hall => (happend _).mpr ⟨hall, hdiffer⟩)
      mappingKeys := List.forall_mem_append.mpr ⟨hv.mappingKeys, List.forall_mem_singleton.mpr hkeys⟩ }

/-- After any run, a request that passes the checks is carried out if the database has been migrated or
the request has a node, and the node id is not the empty text. -/
theorem insert_succeeds_iff {t : Tables} {ops : List Operation} (ht : Uniquely t)
    (hops : ∀ op ∈ ops, op.unnamed = false) {id now : String}
    {request : ConnectorRepository.CreateMappingRequest}
    (hid : ∀ m ∈ (Machine.run apply t ops).mappings, m.id ≠ id)
    (haccepts : Accepts (Machine.run apply t ops) request) :
    (∃ r, ConnectorRepository.createMapping (Machine.run apply t ops) id now request = .ok r) ↔
      (t.migrated = true ∨ .reopen ∈ ops ∨ request.nodeId.isSome = true) ∧ request.nodeId ≠ some "" := by
  have hU : Uniquely (Machine.run apply t ops) := ht.run hops
  have haddress : ∀ m ∈ (Machine.run apply t ops).mappings,
      (m.connectionId, m.deviceAddress) ≠ (request.connectionId, request.deviceAddress) := by
    intro m hm heq
    have hnone := List.find?_eq_none.mp haccepts.address m hm
    exact absurd (decide_eq_true (Prod.mk.inj heq)) hnone
  have hconnection : (Machine.run apply t ops).hasConnection request.connectionId = true := by
    have hsome := haccepts.connection
    rwa [ConnectorRepository.findConnectionById, List.find?_isSome, ← List.any_eq_true] at hsome
  rw [createMapping_of_accepts haccepts, valid_insertMapping_iff hU.valid hid haddress,
    and_iff_right hconnection, run_migrated ht.valid]
  cases hnode : request.nodeId with
  | none => simp
  | some nodeId =>
      have hchecked := haccepts.node
      rw [hnode] at hchecked
      rcases checkNode_some hchecked with rfl | ⟨hhas, hfree⟩
      · refine iff_of_false (fun h => ?_) (fun h => h.2 rfl)
        exact absurd (hU.named.symm.trans h.2) (by decide)
      · have hne : nodeId ≠ "" := by
          rintro rfl
          exact absurd (hU.named.symm.trans hhas) (by decide)
        refine iff_of_true ⟨.inr ⟨rfl, hfree⟩, hhas⟩ ⟨.inr (.inr rfl), ?_⟩
        exact fun h => hne (Option.some.inj h)

/-- The constructor leads to one schema, and accepted mappings are inserted, just for files that exist
and for requests that also fit the first schema; an empty node id is never inserted. -/
theorem schema_agrees_iff (clock : String) :
    (∀ file db : Database Value, Start file → openDatabase clock file = (db, .ok ()) →
      ((schemaVersion db = currentSchemaVersion ∧
        db.schema.find "mappings" = some (mappingsTable true)) ↔
          file.schema.has "schema_migrations" = true)) ∧
    ∀ (t : Tables) (ops : List Operation) (id now : String)
      (request : ConnectorRepository.CreateMappingRequest), Uniquely t →
      (∀ op ∈ ops, op.unnamed = false) → (∀ m ∈ (Machine.run apply t ops).mappings, m.id ≠ id) →
      Accepts (Machine.run apply t ops) request →
        ((∃ r, ConnectorRepository.createMapping (Machine.run apply t ops) id now request = .ok r) ↔
          (t.migrated = true ∨ .reopen ∈ ops ∨ request.nodeId.isSome = true) ∧
            request.nodeId ≠ some "") := by
  refine ⟨fun file db hstart hopen => ?_, fun t ops id now request ht hops hid haccepts => ?_⟩
  · obtain ⟨hmappings, hversion⟩ := opened clock hstart hopen
    rw [hmappings, hversion]
    refine and_iff_left_of_imp (fun hhas => ?_)
    rw [hhas]
  · exact insert_succeeds_iff ht hops hid haccepts

/-- The database of a first run, found again. -/
def secondRun : Database Value := (openDatabase "now" Database.empty).1

theorem secondRun_agrees : schemaVersion (openDatabase "now" secondRun).1 = 5 ∧
    ∃ r, ConnectorRepository.createMapping (oneNode "v") "m" "now" ⟨"c1", none, "DB1.DBD0", none⟩ = .ok r := by
  obtain ⟨hfile, hinsert⟩ := schema_agrees_iff "now"
  have hstart : Start secondRun := .inr ⟨4, by decide, by decide, rfl, by decide +kernel⟩
  have hunique : Uniquely (oneNode "v") := ⟨by decide, by decide, by decide⟩
  exact ⟨((hfile secondRun _ hstart rfl).mpr rfl).1,
    (hinsert (oneNode "v") [] "m" "now" ⟨"c1", none, "DB1.DBD0", none⟩ hunique nofun nofun
      ⟨rfl, rfl, rfl⟩).mpr ⟨.inl rfl, nofun⟩⟩

/-- A first run with a connection. -/
def firstConnection : List Operation :=
  [.createConnection "c1" "now" ⟨"s7", "press", .obj [("host", .str "10.0.0.1")], none, none, none⟩]

/-- A new database is behind, and refuses an address that has no node yet. -/
theorem firstRun_disagrees :
    (∃ db, openDatabase "now" Database.empty = (db, .ok ()) ∧ schemaVersion db ≠ currentSchemaVersion ∧
      db.schema.find "mappings" ≠ some (mappingsTable true)) ∧
    Accepts (reach firstConnection) ⟨"c1", none, "DB1.DBD0", none⟩ ∧
    ConnectorRepository.createMapping (reach firstConnection) "m" "now" ⟨"c1", none, "DB1.DBD0", none⟩ =
      .error (.thrown (.notNull "mappings.node_id")) := by
  obtain ⟨db, hopen, hmappings, hversion⟩ := openDatabase_empty "now"
  refine ⟨⟨db, hopen, by rw [hversion]; decide, by rw [hmappings]; decide⟩, ⟨rfl, rfl, rfl⟩, rfl⟩

end OpcuaLight.Db.Migrations
