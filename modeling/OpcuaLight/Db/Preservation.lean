import OpcuaLight.Db.SchemaVersions

/-!
# What the migrations keep

Migration 4 makes of each S7 connection and mapping a connection and a mapping, and migration 5 copies the
mappings (`step_four`, `step_five`). Both succeed on every database that meets its constraints, so the
constructor brings a file of version 3 or 4 up with nothing lost (`migrate_kept`), and whatever fails, the
file stays as it was (`failed_unchanged`).
-/

namespace OpcuaLight.Db.Migrations

open Sql (Schema Table Row Database Runs)
open Connector (ConnectionConfig Mapping)

variable {s : Schema} {rows : String → List (Row Value)}

/-! ## Rows -/

/-- The rows of `mappings` that are made of rows with the address in a column of its own. -/
theorem MappingRows.migrate {migrated : Bool} {address : String} {own : List (Row Value)}
    (hnotNull : ∀ r ∈ own, ∀ c ∈ ["connection_id", address, "created_at"], (r c).isSome = true)
    (hmapped : migrated = true ∨ ∀ r ∈ own, (r "node_id").isSome = true)
    (hids : Sql.Unique own ["id"]) (haddresses : Sql.Unique own ["connection_id", address])
    (hnodes : migrated = true ∨ Sql.Unique own ["node_id"])
    (hconnection : ∀ r ∈ own, ∀ v ∈ r "connection_id", ∃ p ∈ rows "connections", p "id" = some v)
    (hnode : ∀ r ∈ own, ∀ v ∈ r "node_id", ∃ p ∈ rows "nodes", p "id" = some v) :
    MappingRows migrated (own.map (migrateMapping address)) rows where
  notNull := by
    intro r' hr'
    obtain ⟨r, hr, rfl⟩ := List.mem_map.mp hr'
    have h := hnotNull r hr
    simp only [List.forall_mem_cons] at h ⊢
    exact ⟨h.1, h.2.1, h.2.2.1, List.forall_mem_nil _⟩
  mapped := hmapped.imp_right (fun h => List.forall_mem_map.mpr h)
  ids := hids.map (fun _ => rfl)
  addresses := haddresses.map (fun _ => rfl)
  nodesDiffer := hnodes.imp_right (fun h => h.map (fun _ => rfl))
  connections := by
    intro r' hr'
    obtain ⟨r, hr, rfl⟩ := List.mem_map.mp hr'
    exact hconnection r hr
  nodes := by
    intro r' hr'
    obtain ⟨r, hr, rfl⟩ := List.mem_map.mp hr'
    exact hnode r hr

theorem schemaMigrations_shape :
    (∀ c ∈ schemaMigrations.columns, c.notNull = true → c.name ∈ ["applied_at"]) ∧
      schemaMigrations.keys = [["version"]] ∧ ∀ c ∈ schemaMigrations.columns, c.references = none := by
  decide

/-- A version that has not been recorded. -/
theorem holds_version (clock : String) {own : List (Row Value)} {rows rows' : String → List (Row Value)}
    {v : Int} (h : schemaMigrations.Holds own rows)
    (hnew : ∀ r ∈ own, r "version" ≠ some (.integer v)) :
    schemaMigrations.Holds (own ++ [versionRow clock v]) rows' := by
  refine Table.holds_of_key schemaMigrations_shape ?_ ?_
  · refine List.forall_mem_append.mpr ⟨fun r hr => ?_, List.forall_mem_singleton.mpr ?_⟩
    · exact List.forall_mem_singleton.mpr (h.isSome (by decide) r hr)
    · exact List.forall_mem_singleton.mpr rfl
  · have hone : [versionRow clock v].filterMap (Sql.keyOf ["version"]) = [[Value.integer v]] := rfl
    rw [Sql.Unique, List.filterMap_append, hone, List.nodup_append]
    refine ⟨h.unique ["version"] (by decide), List.nodup_singleton _, ?_⟩
    rintro k hk k' hk' rfl
    obtain ⟨r, hr, hkr⟩ := List.mem_filterMap.mp hk
    rw [List.mem_singleton.mp hk', Sql.keyOf_singleton, Option.map_eq_some_iff] at hkr
    obtain ⟨w, hw, hwv⟩ := hkr
    exact hnew r hr (by rw [hw, (List.cons.inj hwv).1])

/-- A migration whose statements succeed is recorded. -/
theorem step_of_runs (clock : String) {s₁ : Schema} {rows₁ : String → List (Row Value)} {v : Int}
    (hruns : Runs ⟨s, rows⟩ (migration s v) ⟨s₁, rows₁⟩) (htable : schemaMigrations ∈ s₁.tables)
    (hplain : s₁.Plain schemaMigrations) (hnew : v ∉ versions ⟨s, rows⟩) :
    ∃ db', step clock ⟨s, rows⟩ v = .ok db' ∧ db'.Consistent ∧
      ∀ name, name ≠ "schema_migrations" → db'.rows name = rows₁ name := by
  have hsame : rows₁ "schema_migrations" = rows "schema_migrations" :=
    Sql.execAll_rows hruns.1 (migration_touches s v)
  have hholds (rows₂ : String → List (Row Value)) :
      schemaMigrations.Holds (rows₁ "schema_migrations" ++ [versionRow clock v]) rows₂ := by
    refine holds_version clock (hruns.2.tables _ htable) (fun r hr hversion => hnew ?_)
    have hold : r ∈ rows "schema_migrations" := by
      rw [← hsame]
      exact hr
    refine List.mem_filterMap.mpr ⟨r, hold, ?_⟩
    rw [hversion]
  have hrecord := Sql.runs_insert hruns.2 hplain (hholds _)
  obtain ⟨hexec, hconsistent⟩ := hruns.append hrecord
  exact ⟨_, hexec, hconsistent, fun name hname => Function.update_of_ne hname _ _⟩

/-! ## Migration 4 -/

theorem connections_shape : (∀ c ∈ connections.columns, c.notNull = true → c.name ∈ ["type", "name",
      "params", "polling_interval_ms", "reconnect_interval_ms", "enabled", "created_at"]) ∧
    connections.keys = [["id"]] ∧ ∀ c ∈ connections.columns, c.references = none := by
  decide

/-- The connections of S7 connections. -/
theorem holds_migrateConnection {own : List (Row Value)} {rows rows' : String → List (Row Value)}
    (h : s7Connections.Holds own rows) : connections.Holds (own.map migrateConnection) rows' := by
  have hunique : Sql.Unique own ["id"] := h.unique ["id"] (by decide)
  refine Table.holds_of_key connections_shape (List.forall_mem_map.mpr (fun r hr => ?_))
    (hunique.map (fun _ => rfl))
  simp only [List.forall_mem_cons]
  exact ⟨rfl, h.isSome (by decide) r hr, rfl, h.isSome (by decide) r hr, h.isSome (by decide) r hr,
    h.isSome (by decide) r hr, h.isSome (by decide) r hr, List.forall_mem_nil _⟩

/-- What every table of S7 mappings demands. -/
def DemandsS7 (t : Table) : Prop :=
  t.name = "s7_mappings" ∧
    (∀ name ∈ ["connection_id", "plc_address", "created_at", "node_id"],
      ∃ c ∈ t.columns, c.name = name ∧ c.notNull = true) ∧
    (∀ key ∈ [["id"], ["connection_id", "plc_address"], ["node_id"]], key ∈ t.keys) ∧
    ∀ p ∈ [("connection_id", "s7_connections"), ("node_id", "nodes")],
      ∃ c ∈ t.columns, c.name = p.1 ∧ ∃ ref ∈ c.references, ref.table = p.2 ∧ ref.column = "id"

instance (t : Table) : Decidable (DemandsS7 t) := inferInstanceAs (Decidable (_ ∧ _ ∧ _ ∧ _))

/-- The mappings of S7 mappings, whose connections are there with the same ids. -/
theorem mappingRows_s7 {t : Table} {own : List (Row Value)} {rows rows' : String → List (Row Value)}
    (ht : DemandsS7 t) (h : t.Holds own rows)
    (hconnections : rows' "connections" = (rows "s7_connections").map migrateConnection)
    (hnodes : rows' "nodes" = rows "nodes") :
    MappingRows false (own.map (migrateMapping "plc_address")) rows' := by
  obtain ⟨-, hnotNull, hkeys, hreferences⟩ := ht
  refine MappingRows.migrate ?_ (.inr ?_) (h.unique _ (hkeys _ (by decide)))
    (h.unique _ (hkeys _ (by decide))) (.inr (h.unique _ (hkeys _ (by decide)))) ?_ ?_
  · intro r hr c hc
    exact h.isSome (hnotNull c (List.mem_of_mem_dropLast (l := [_, _, _, "node_id"]) hc)) r hr
  · exact h.isSome (hnotNull "node_id" (by decide))
  · intro r hr v hv
    obtain ⟨p, hp, hpv⟩ := h.exists_parent (hreferences ("connection_id", "s7_connections") (by decide)) r hr v hv
    rw [hconnections]
    exact ⟨migrateConnection p, List.mem_map_of_mem hp, hpv⟩
  · rw [hnodes]
    exact h.exists_parent (hreferences ("node_id", "nodes") (by decide))

/-- What the statements of migration 4 find in the schema. -/
def Fourth (s : Schema) : Prop :=
  let s₁ := s.add connections
  let s₂ := s₁.add mappings
  let s₃ := s₂.drop "s7_mappings"
  let s₄ := s₃.drop "s7_connections"
  (s7Connections ∈ s.tables ∧ (∃ t ∈ s.tables, DemandsS7 t) ∧ s.has "s7_connections" = true) ∧
    (s.Free "connections" ∧ s₁.Free "mappings") ∧ (s₂.Plain connections ∧ s₂.has "s7_connections" = true) ∧
    (s₂.Plain mappings ∧ s₂.has "s7_mappings" = true) ∧
    (s₃.Free "s7_mappings" ∧ s₃.has "s7_connections" = true ∧ s₄.Free "s7_connections") ∧
    schemaMigrations ∈ s₄.tables ∧ s₄.Plain schemaMigrations

theorem fourth_starts : ∀ s ∈ starts 3, Fourth s := by
  unfold Fourth
  decide +kernel

/-- The new tables are created and filled. -/
theorem runs_migrated (hs : Fourth s) (h : Database.Consistent ⟨s, rows⟩) :
    ∃ rows', Runs ⟨s, rows⟩ [.createTable connections, .createTable mappings,
        .insertSelect "connections" "s7_connections" migrateConnection,
        .insertSelect "mappings" "s7_mappings" (migrateMapping "plc_address")]
        ⟨(s.add connections).add mappings, rows'⟩ ∧
      rows' "connections" = (rows "s7_connections").map migrateConnection ∧
      rows' "mappings" = (rows "s7_mappings").map (migrateMapping "plc_address") ∧
      ∀ name, name ≠ "connections" → name ≠ "mappings" → rows' name = rows name := by
  obtain ⟨⟨hs7, ⟨t, ht, hdemands⟩, -⟩, ⟨hfree, hfree'⟩, ⟨hplain, hsource⟩, ⟨hplain', hsource'⟩, -, -⟩ := hs
  have hold : t.Holds (rows "s7_mappings") rows := by
    have hholds : t.Holds (rows t.name) rows := h.tables t ht
    rwa [hdemands.1] at hholds
  have hcreate := Sql.runs_createTable h (t := connections) hfree
  have hcreate' := Sql.runs_createTable hcreate.2 (t := mappings) hfree'
  have hsame : ∀ name, name ≠ "connections" → name ≠ "mappings" →
      Function.update (Function.update rows connections.name []) mappings.name [] name = rows name := by
    intro name h1 h2
    exact (Function.update_of_ne h2 _ _).trans (Function.update_of_ne h1 _ _)
  have hcopy := Sql.runs_insertSelect hcreate'.2 migrateConnection hplain hsource rfl
    (holds_migrateConnection (h.tables s7Connections hs7))
  have hcopy' := Sql.runs_insertSelect hcopy.2 (migrateMapping "plc_address") hplain' hsource' rfl
    ((holds_mappingsTable_iff false _ _).mpr (mappingRows_s7 hdemands hold rfl rfl))
  refine ⟨_, hcreate.cons (hcreate'.cons (hcopy.cons hcopy')), rfl, rfl, fun name h1 h2 => ?_⟩
  exact (Function.update_of_ne h2 _ _).trans ((Function.update_of_ne h1 _ _).trans (hsame name h1 h2))

/-- The old tables are dropped, the mappings first. -/
theorem runs_dropped (hs : Fourth s)
    (h : Database.Consistent ⟨(s.add connections).add mappings, rows⟩) :
    ∃ rows', Runs ⟨(s.add connections).add mappings, rows⟩
        [.dropTable true "s7_mappings", .dropTable true "s7_connections"]
        ⟨(((s.add connections).add mappings).drop "s7_mappings").drop "s7_connections", rows'⟩ ∧
      ∀ name, name ≠ "s7_mappings" → name ≠ "s7_connections" → rows' name = rows name := by
  obtain ⟨-, -, -, ⟨-, hhas⟩, ⟨hfree, hhas', hfree'⟩, -⟩ := hs
  have hdrop := Sql.runs_dropTable h true hhas hfree
  have hdrop' := Sql.runs_dropTable hdrop.2 true hhas' hfree'
  refine ⟨_, hdrop.cons hdrop', fun name h1 h2 => ?_⟩
  exact (Function.update_of_ne h2 _ _).trans (Function.update_of_ne h1 _ _)

/-- Migration 4 makes connections and mappings of the S7 ones and leaves the other tables alone. -/
theorem step_four (clock : String) (hs : Fourth s) (h : Database.Consistent ⟨s, rows⟩)
    (hnew : 4 ∉ versions ⟨s, rows⟩) : ∃ db', step clock ⟨s, rows⟩ 4 = .ok db' ∧ db'.Consistent ∧
      db'.rows "connections" = (rows "s7_connections").map migrateConnection ∧
      db'.rows "mappings" = (rows "s7_mappings").map (migrateMapping "plc_address") ∧
      ∀ name, name ∉ ["connections", "mappings", "s7_mappings", "s7_connections", "schema_migrations"] →
        db'.rows name = rows name := by
  have ⟨⟨_, _, hmigrates⟩, _, _, _, _, htable, hplain⟩ := hs
  obtain ⟨rows₁, hmigrated, hconnections, hmappings, hsame⟩ := runs_migrated hs h
  obtain ⟨rows₂, hdropped, hsame'⟩ := runs_dropped hs hmigrated.2
  have hruns : Runs ⟨s, rows⟩ (migration s 4)
      ⟨(((s.add connections).add mappings).drop "s7_mappings").drop "s7_connections", rows₂⟩ := by
    rw [migration, if_pos hmigrates]
    exact hmigrated.append hdropped
  obtain ⟨db', hstep, hconsistent, hrows⟩ := step_of_runs clock hruns htable hplain hnew
  refine ⟨db', hstep, hconsistent, ?_, ?_, fun name hname => ?_⟩
  · rw [hrows "connections" (by decide), hsame' "connections" (by decide) (by decide), hconnections]
  · rw [hrows "mappings" (by decide), hsame' "mappings" (by decide) (by decide), hmappings]
  · simp only [List.mem_cons, List.not_mem_nil, or_false, not_or] at hname
    obtain ⟨h1, h2, h3, h4, h5⟩ := hname
    rw [hrows name h5, hsame' name h3 h4, hsame name h1 h2]

/-! ## Migration 5 -/

/-- What the statements of migration 5 find in the schema. -/
def Fifth (s : Schema) : Prop :=
  let s₁ := s.add mappingsNew
  let s₂ := s₁.drop "mappings"
  let s₃ := s₂.rename "mappings_new" "mappings"
  mappings ∈ s.tables ∧ s.Free "mappings_new" ∧ (s₁.has "mappings" = true ∧ s₁.Plain mappingsNew) ∧
    (s₂.Free "mappings" ∧ s₂.Unreferenced "mappings_new" ∧ s₂.Plain mappingsNew) ∧
    schemaMigrations ∈ s₃.tables ∧ s₃.Plain schemaMigrations

theorem fifth_starts : ∀ s ∈ starts 4, Fifth s := by
  unfold Fifth
  decide +kernel

/-- The copies meet the constraints of the new table. -/
theorem holds_mappingsNew {own : List (Row Value)} {rows rows' : String → List (Row Value)}
    (h : MappingRows false own rows) (hconnections : rows' "connections" = rows "connections")
    (hnodes : rows' "nodes" = rows "nodes") :
    mappingsNew.Holds (own.map (migrateMapping "device_address")) rows' := by
  refine ((holds_mappingsTable_iff true _ _).mpr ?_).withName "mappings_new"
  refine MappingRows.migrate h.notNull (.inl rfl) h.ids h.addresses (.inl rfl) ?_ ?_
  · rw [hconnections]
    exact h.connections
  · rw [hnodes]
    exact h.nodes

/-- The mappings move to the new table. -/
theorem runs_renewed (hs : Fifth s) (h : Database.Consistent ⟨s, rows⟩) :
    ∃ rows', Runs ⟨s, rows⟩ (migration s 5)
        ⟨((s.add mappingsNew).drop "mappings").rename "mappings_new" "mappings", rows'⟩ ∧
      rows' "mappings" = (rows "mappings").map (migrateMapping "device_address") ∧
      ∀ name, name ≠ "mappings" → name ≠ "mappings_new" → rows' name = rows name := by
  obtain ⟨hmappings, hfree, ⟨hhas, hplain⟩, ⟨hfree', hun, hplain'⟩, -⟩ := hs
  have hcreate := Sql.runs_createTable h (t := mappingsNew) hfree
  have hold : MappingRows false (rows "mappings") rows :=
    (holds_mappingsTable_iff false _ _).mp (h.tables mappings hmappings)
  have hcopy := Sql.runs_insertSelect hcreate.2 (migrateMapping "device_address") hplain hhas rfl
    (holds_mappingsNew hold rfl rfl)
  have hdrop := Sql.runs_dropTable hcopy.2 false hhas hfree'
  have hrename := Sql.runs_renameTable hdrop.2 hplain'.1 hfree' hun hplain'.2.1
  refine ⟨_, hcreate.cons (hcopy.cons (hdrop.cons hrename)), rfl, fun name h1 h2 => ?_⟩
  refine (Function.update_of_ne h2 _ _).trans ((Function.update_of_ne h1 _ _).trans ?_)
  refine (Function.update_of_ne h1 _ _).trans ((Function.update_of_ne h2 _ _).trans ?_)
  exact Function.update_of_ne h2 _ _

/-- Migration 5 copies the mappings and leaves the other tables alone. -/
theorem step_five (clock : String) (hs : Fifth s) (h : Database.Consistent ⟨s, rows⟩)
    (hnew : 5 ∉ versions ⟨s, rows⟩) : ∃ db', step clock ⟨s, rows⟩ 5 = .ok db' ∧ db'.Consistent ∧
      db'.rows "mappings" = (rows "mappings").map (migrateMapping "device_address") ∧
      ∀ name, name ∉ ["mappings", "mappings_new", "schema_migrations"] → db'.rows name = rows name := by
  have ⟨_, _, _, _, htable, hplain⟩ := hs
  obtain ⟨rows₁, hruns, hmappings, hsame⟩ := runs_renewed hs h
  obtain ⟨db', hstep, hconsistent, hrows⟩ := step_of_runs clock hruns htable hplain hnew
  refine ⟨db', hstep, hconsistent, ?_, fun name hname => ?_⟩
  · rw [hrows "mappings" (by decide), hmappings]
  · simp only [List.mem_cons, List.not_mem_nil, or_false, not_or] at hname
    rw [hrows name hname.2.2, hsame name hname.1 hname.2.1]

/-! ## What the repository reads of the copies -/

/-- The connection that a row of `s7_connections` stands for. -/
def s7Connection (r : Row Value) : Option ConnectionConfig :=
  match r "id", r "name", r "polling_interval_ms", r "reconnect_interval_ms", r "enabled", r "created_at" with
  | some (.text id), some (.text name), some (.integer polling), some (.integer reconnect),
    some (.integer enabled), some (.text createdAt) =>
      let params : Json := .obj [("host", Value.toJson (r "host")), ("rack", Value.toJson (r "rack")),
        ("slot", Value.toJson (r "slot"))]
      some ⟨id, "s7", name, params, polling, reconnect, enabled == 1, createdAt⟩
  | _, _, _, _, _, _ => none

/-- The mapping that a row of `s7_mappings` stands for. -/
def s7Mapping (r : Row Value) : Option Mapping :=
  match r "id", r "connection_id", nullableText (r "node_id"), r "plc_address",
    nullableText (r "description"), r "created_at" with
  | some (.text id), some (.text connectionId), some nodeId, some (.text plcAddress),
    some description, some (.text createdAt) =>
      some ⟨id, connectionId, nodeId, plcAddress, description, createdAt⟩
  | _, _, _, _, _, _ => none

theorem rowToConnection_migrateConnection (r : Row Value) :
    rowToConnection (migrateConnection r) = s7Connection r := by
  have htypes : migrateConnection r "type" = some (.text "s7") := rfl
  have hobject : migrateConnection r "params" =
      jsonObject [("host", "host"), ("rack", "rack"), ("slot", "slot")] r := rfl
  have hcopied : ∀ column ∈ ["id", "name", "polling_interval_ms", "reconnect_interval_ms", "enabled",
      "created_at"], migrateConnection r column = r column := by
    simp only [List.forall_mem_cons]
    exact ⟨rfl, rfl, rfl, rfl, rfl, rfl, by simp⟩
  rw [rowToConnection, htypes, hobject, hcopied "id" (by simp), hcopied "name" (by simp),
    hcopied "polling_interval_ms" (by simp), hcopied "reconnect_interval_ms" (by simp),
    hcopied "enabled" (by simp), hcopied "created_at" (by simp)]
  split
  · rename_i hid htype hname hparams hpolling hreconnect henabled hcreated
    simp only [s7Connection, hid, hname, hpolling, hreconnect, henabled, hcreated]
    cases htype
    cases hparams
    rfl
  · rename_i hnone
    unfold s7Connection
    split
    · exact (hnone _ _ _ _ _ _ _ _ ‹_› rfl ‹_› rfl ‹_› ‹_› ‹_› ‹_›).elim
    · rfl

theorem rowToMapping_migrateMapping (r : Row Value) :
    rowToMapping (migrateMapping "plc_address" r) = s7Mapping r := rfl

theorem rowToMapping_copied (r : Row Value) :
    rowToMapping (migrateMapping "device_address" r) = rowToMapping r := rfl

theorem contents_copied (own : List (Row Value)) :
    mappings.contents (own.map (migrateMapping "device_address")) = mappings.contents own := by
  rw [Table.contents, Table.contents, List.map_map]
  rfl

/-! ## Opening files of versions 3 and 4 -/

theorem starts_step {clock : String} {file db : Database Value} (version : Nat)
    (h : step clock file (version + 1) = .ok db) (hs : file.schema ∈ starts version) :
    db.schema ∈ starts (version + 1) := by
  obtain ⟨db₁, h₁, hschema, -⟩ := step_cases h
  refine List.mem_cons_of_mem _ (List.mem_filterMap.mpr ⟨file.schema, hs, ?_⟩)
  rw [upgrade, Sql.execAll_schema h₁, hschema]
  rfl

theorem steps_cons {clock : String} {db db' : Database Value} {v : Int}
    (h : step clock db v = .ok db') (todo : List Int) :
    steps clock db (v :: todo) = steps clock db' todo := by
  rw [steps, h]

theorem opened_of_steps {clock : String} {file db : Database Value} {v : Int}
    (hversion : schemaVersion file = v) (hold : v < currentSchemaVersion)
    (hhas : file.schema.has "schema_migrations" = true)
    (hsteps : steps clock file (pending v) = .ok db) : openDatabase clock file = (db, .ok ()) := by
  rw [openDatabase_existing hhas (by rwa [hversion]), hversion, hsteps, Sql.transaction]

/-- The tables that migrations 4 and 5 make, drop or add to. -/
def changed : List String :=
  ["s7_connections", "s7_mappings", "connections", "mappings", "mappings_new", "schema_migrations"]

theorem schemaSteps_kept :
    (∀ s ∈ starts 3, ∀ s' ∈ schemaSteps s [4, 5], s'.indexes = s.indexes ∧
      s'.tables.filter (fun t => t.name ∉ changed) = s.tables.filter (fun t => t.name ∉ changed)) ∧
    ∀ s ∈ starts 4, ∀ s' ∈ schemaSteps s [5], s'.indexes = s.indexes ∧
      s'.tables.filter (fun t => t.name ∉ ["mappings", "mappings_new", "schema_migrations"]) =
        s.tables.filter (fun t => t.name ∉ ["mappings", "mappings_new", "schema_migrations"]) := by
  decide +kernel

theorem open_three (clock : String) {file : Database Value} (h : file.Consistent)
    (hversion : schemaVersion file = 3) (hs : file.schema ∈ starts 3) :
    ∃ db, openDatabase clock file = (db, .ok ()) ∧
      (db.rows "connections").map rowToConnection = (file.rows "s7_connections").map s7Connection ∧
      (db.rows "mappings").map rowToMapping = (file.rows "s7_mappings").map s7Mapping ∧
      Database.SameBut changed file db := by
  have hhas : file.schema.has "schema_migrations" = true := (starts_mappings 3 (by decide) _ hs).1
  have hnotIn {n : Int} (hn : 3 < n) : n ∉ versions file := by
    intro hmem
    have hle := le_schemaVersion hmem
    omega
  obtain ⟨db₁, h₁, hconsistent, hconnections, hmappings, hother⟩ :=
    step_four clock (fourth_starts _ hs) h (hnotIn (by decide))
  have hversions : (5 : Int) ∉ versions db₁ := by
    rw [step_versions h₁, List.mem_append]
    rintro (hmem | hmem)
    · exact hnotIn (by decide) hmem
    · exact absurd (List.mem_singleton.mp hmem) (by decide)
  obtain ⟨db₂, h₂, -, hcopied, hother'⟩ := step_five clock
    (fifth_starts _ (starts_step 3 h₁ hs)) hconsistent hversions
  have hsteps : steps clock file [4, 5] = .ok db₂ := by rw [steps_cons h₁, steps_cons h₂, steps]
  have hschema := schemaSteps_kept.1 file.schema hs db₂.schema (steps_schema hsteps)
  refine ⟨db₂, opened_of_steps hversion (by decide) hhas hsteps, ?_, ?_, hschema.2, hschema.1, ?_⟩
  · have hsame : db₂.rows "connections" = db₁.rows "connections" := hother' "connections" (by decide)
    rw [hsame, hconnections, List.map_map]
    exact List.map_congr_left (fun r _ => rowToConnection_migrateConnection r)
  · have hrows : db₂.rows "mappings" = (db₁.rows "mappings").map (migrateMapping "device_address") := hcopied
    rw [hrows, hmappings, List.map_map, List.map_map]
    refine List.map_congr_left (fun r _ => ?_)
    exact (rowToMapping_copied _).trans (rowToMapping_migrateMapping r)
  · intro name hname
    simp only [changed, List.mem_cons, List.not_mem_nil, or_false, not_or] at hname
    have hsame : db₂.rows name = db₁.rows name := hother' name (by simp [hname])
    rw [hsame, hother name (by simp [hname])]

theorem open_four (clock : String) {file : Database Value} (h : file.Consistent)
    (hversion : schemaVersion file = 4) (hs : file.schema ∈ starts 4) :
    ∃ db, openDatabase clock file = (db, .ok ()) ∧
      mappings.contents (db.rows "mappings") = mappings.contents (file.rows "mappings") ∧
      Database.SameBut ["mappings", "mappings_new", "schema_migrations"] file db := by
  have hhas : file.schema.has "schema_migrations" = true := (starts_mappings 4 (by decide) _ hs).1
  have hnew : (5 : Int) ∉ versions file := by
    intro hmem
    have hle := le_schemaVersion hmem
    omega
  obtain ⟨db, hstep, -, hcopied, hother⟩ := step_five clock (fifth_starts _ hs) h hnew
  have hsteps : steps clock file [5] = .ok db := by rw [steps_cons hstep, steps]
  have hschema := schemaSteps_kept.2 file.schema hs db.schema (steps_schema hsteps)
  refine ⟨db, opened_of_steps hversion (by decide) hhas hsteps, ?_, hschema.2, hschema.1, hother⟩
  rw [hcopied]
  exact contents_copied _

theorem failed_unchanged {clock : String} {file db : Database Value} {e : Sql.Error}
    (hhas : file.schema.has "schema_migrations" = true)
    (h : openDatabase clock file = (db, .error e)) : db = file := by
  by_cases hold : schemaVersion file < currentSchemaVersion
  · rw [openDatabase_existing hhas hold] at h
    unfold Sql.transaction at h
    split at h
    · cases (Prod.mk.inj h).2
    · exact (Prod.mk.inj h).1.symm
  · rw [openDatabase, if_pos hhas, if_neg hold] at h
    exact (Prod.mk.inj h).1.symm

/-- The constructor reads a file of version 3 into the new tables and one of version 4 row for row, and a
file that it cannot bring up stays as it was. -/
theorem migrate_kept (clock : String) (file : Database Value) :
    (file.Consistent → schemaVersion file = 3 → file.schema ∈ starts 3 →
      ∃ db, openDatabase clock file = (db, .ok ()) ∧
        (db.rows "connections").map rowToConnection = (file.rows "s7_connections").map s7Connection ∧
        (db.rows "mappings").map rowToMapping = (file.rows "s7_mappings").map s7Mapping ∧
        Database.SameBut changed file db) ∧
    (file.Consistent → schemaVersion file = 4 → file.schema ∈ starts 4 →
      ∃ db, openDatabase clock file = (db, .ok ()) ∧
        mappings.contents (db.rows "mappings") = mappings.contents (file.rows "mappings") ∧
        Database.SameBut ["mappings", "mappings_new", "schema_migrations"] file db) ∧
    ∀ (db : Database Value) (e : Sql.Error), file.schema.has "schema_migrations" = true →
      openDatabase clock file = (db, .error e) → db = file :=
  ⟨open_three clock, open_four clock, fun _ _ => failed_unchanged⟩

/-- A file of version 3 with a variable of a PLC. -/
def pressFile : Database Value :=
  ⟨release 3, fun
    | "schema_migrations" => [1, 2, 3].map (versionRow "then")
    | "namespaces" => [Sql.values [("id", .text "ns"), ("name", .text "hall"), ("uri", .text "urn:hall"),
        ("created_at", .text "then"), ("updated_at", .text "then")]]
    | "nodes" => [Sql.values [("id", .text "n1"), ("namespace_id", .text "ns"), ("name", .text "speed"),
        ("data_type", .text "Double"), ("created_at", .text "then"), ("updated_at", .text "then")]]
    | "s7_connections" => [Sql.values [("id", .text "c1"), ("name", .text "press"), ("host", .text "10.0.0.1"),
        ("rack", .integer 0), ("slot", .integer 1), ("polling_interval_ms", .integer 1000),
        ("reconnect_interval_ms", .integer 5000), ("enabled", .integer 1), ("created_at", .text "then")]]
    | "s7_mappings" => [Sql.values [("id", .text "m1"), ("connection_id", .text "c1"), ("node_id", .text "n1"),
        ("plc_address", .text "DB1,REAL0"), ("created_at", .text "then")]]
    | _ => []⟩

/-- The same plant in a file of version 4. -/
def pressFileFour : Database Value :=
  ⟨release 4, fun
    | "schema_migrations" => [1, 2, 3, 4].map (versionRow "then")
    | "connections" => (pressFile.rows "s7_connections").map migrateConnection
    | "mappings" => (pressFile.rows "s7_mappings").map (migrateMapping "plc_address")
    | name => pressFile.rows name⟩

/-- A file without the table of S7 mappings, which migration 4 cannot bring up. -/
def brokenFile : Database Value :=
  ⟨⟨[schemaMigrations, s7Connections], []⟩, fun
    | "schema_migrations" => [versionRow "then" 3]
    | _ => []⟩

theorem migrate_kept_press :
    (∃ db, openDatabase "now" pressFile = (db, .ok ()) ∧
      (db.rows "connections").map rowToConnection = [some ⟨"c1", "s7", "press",
        .obj [("host", .str "10.0.0.1"), ("rack", .num 0), ("slot", .num 1)], 1000, 5000, true, "then"⟩] ∧
      (db.rows "mappings").map rowToMapping = [some ⟨"m1", "c1", some "n1", "DB1,REAL0", none, "then"⟩]) ∧
    (∃ db, openDatabase "now" pressFileFour = (db, .ok ()) ∧
      mappings.contents (db.rows "mappings") = [[some (.text "m1"), some (.text "c1"), some (.text "n1"),
        some (.text "DB1,REAL0"), none, some (.text "then")]]) ∧
    (openDatabase "now" brokenFile).1 = brokenFile := by
  obtain ⟨db₃, hopen₃, hconnections, hmappings, -⟩ :=
    (migrate_kept "now" pressFile).1 (by decide +kernel) rfl (by decide +kernel)
  obtain ⟨db₄, hopen₄, hsame, -⟩ :=
    (migrate_kept "now" pressFileFour).2.1 (by decide +kernel) rfl (by decide +kernel)
  have hfailed : openDatabase "now" brokenFile = (brokenFile, .error (.noSuchTable "s7_mappings")) := rfl
  exact ⟨⟨db₃, hopen₃, hconnections, hmappings⟩, ⟨db₄, hopen₄, hsame⟩,
    (migrate_kept "now" brokenFile).2.2 _ _ rfl hfailed⟩

end OpcuaLight.Db.Migrations
