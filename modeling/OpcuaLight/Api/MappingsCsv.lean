import OpcuaLight.Api.CsvText
import OpcuaLight.Db.Proper
import OpcuaLight.Db.Uniqueness
import OpcuaLight.Lib.Batch

/-!
# Export and import of mappings

`GET /connectors/mappings/export/csv` writes the connection and the node of a mapping by name, and
`POST /connectors/mappings/import/csv` looks the names up. After all mappings are deleted, the import of the
exported text restores them exactly if each of them has a node, and the names lead back to its connection
and its node (`mappings_restored_iff`), as long as no field has a line break.
-/

namespace OpcuaLight.Api

open Connector (ConnectionConfig Mapping)
open Db
open Db.ConnectorRepository (CreateMappingRequest findAllConnections findAllMappings)

/-! ## The export -/

/-- `connMap.get(id)`. -/
def exportedConnection (t : Tables) (m : Mapping) : Option ConnectionConfig :=
  (findAllConnections t).reverse.find? (fun c => c.id = m.connectionId)

/-- `nodeMap.get(id)`, unless the id is falsy. -/
def exportedNode (t : Tables) (m : Mapping) : Option NodeRow :=
  (m.nodeId.filter (· ≠ "")).bind (fun id => t.nodes.reverse.find? (fun n => n.id = id))

/-- `nsMap.get(id)`. -/
def namespaceName (t : Tables) (id : String) : Option String :=
  (t.namespaces.reverse.find? (fun r => r.id = id)).map (fun r => r.name)

/-- The fields of the row that stands for a mapping. -/
def mappingFields (t : Tables) (m : Mapping) : List String :=
  let conn := exportedConnection t m
  let node := exportedNode t m
  [(conn.map (fun c => c.name)).getD "", (conn.map (fun c => c.type)).getD "", m.deviceAddress,
    (node.map (fun n => n.name)).getD "", (node.bind (fun n => namespaceName t n.namespaceId)).getD "",
    m.description.getD ""]

def mappingsHeader : String := "connectionName,type,deviceAddress,nodeName,namespace,description"

def exportMappings (t : Tables) : String :=
  csvText mappingsHeader ((findAllMappings t).map (mappingFields t))

/-! ## What is restored -/

/-- A mapping without its id and its time: connection, node or none, address and description. -/
def mappingContent (m : Mapping) : CreateMappingRequest :=
  ⟨m.connectionId, m.nodeId, m.deviceAddress, m.description⟩

/-- What is left after the exported text is imported when all mappings are deleted. -/
def mappingsImported (t : Tables) (ids : Nat → String) (now : String) : Outcome :=
  importMappings { t with mappings := [] } ids now (exportMappings t)

/-- The import reports success for every row, and the mappings are the exported ones. -/
def MappingsRestored (t : Tables) (ids : Nat → String) (now : String) : Prop :=
  (mappingsImported t ids now).response.status = 201 ∧
    ∀ c, c ∈ (mappingsImported t ids now).tables.mappings.map mappingContent ↔
      c ∈ t.mappings.map mappingContent

/-- The namespace column leads to the node: the name of its namespace is found, or no other node has the
name of the node and the column names no namespace. -/
def NamespaceTold (t : Tables) (n : NodeRow) (name : String) : Prop :=
  (Js.trim name = name ∧ name ≠ "") ∨
    ((Js.trim name = "" ∨ ∀ r ∈ t.namespaces, r.name ≠ Js.trim name) ∧
      ∀ r ∈ t.nodes, r.name = n.name → r = n)

/-- The row of a mapping leads back to it. -/
structure MappingExportable (t : Tables) (m : Mapping) : Prop where
  /-- Its connection is the last one of its name, and the name has no white space around it. -/
  connection : ∃ c before after, findAllConnections t = before ++ c :: after ∧ c.id = m.connectionId ∧
    Js.trim c.name = c.name ∧ ∀ d ∈ after, d.name ≠ c.name
  address : Js.trim m.deviceAddress = m.deviceAddress ∧ m.deviceAddress ≠ ""
  /-- It has a node, with a name that is not blank and has no white space around it. -/
  node : ∃ n ∈ t.nodes, m.nodeId = some n.id ∧ Js.trim n.name = n.name ∧ n.name ≠ "" ∧
    ∃ r ∈ t.namespaces, r.id = n.namespaceId ∧ NamespaceTold t n r.name
  description : ∀ d ∈ m.description, Js.trim d = d ∧ d ≠ ""

/-! ## A row of the import -/

/-- What a row asks the repository for. -/
structure Reads (t : Tables) (fields : List String) (request : CreateMappingRequest) : Prop where
  connection : connectionNamed t (Js.trim (fields.getD 0 "")) = some request.connectionId
  address : Js.trim (fields.getD 2 "") = request.deviceAddress
  addressed : request.deviceAddress ≠ ""
  named : Js.trim (fields.getD 3 "") ≠ ""
  node : ∃ n, nodesNamed t (fields.getD 3 "") (fields.getD 4 "") = [n] ∧ request.nodeId = some n.id
  description : request.description =
    if Js.trim (fields.getD 5 "") = "" then none else some (Js.trim (fields.getD 5 ""))

/-- One row of the batch: the tables after its creation, if it succeeds. -/
def createAttempt {ρ : Type} (ids : Nat → String) (now : String) (t : Tables) (i : Nat) :
    Attempt ρ → Option Tables
  | .refused _ => none
  | .create request _ => ((ConnectorRepository.createMapping t (ids i) now request).toOption).map Prod.fst

/-- The results of a row say whether it succeeded. -/
def Attempt.Honest {ρ : Type} (success : ρ → Bool) : Attempt ρ → Prop
  | .refused result => success result = false
  | .create _ result => (∀ m, success (result (.ok m)) = true) ∧ ∀ e, success (result (.error e)) = false

variable {t : Tables} {ids : Nat → String} {now : String}

theorem conclude_status {ρ : Type} {success : ρ → Bool} {c : Creations ρ} :
    (c.conclude success).response.status = 201 ↔ ∃ results, c.results = .ok results ∧
      results.all success = true := by
  unfold Creations.conclude
  cases c.results with
  | error e => exact iff_of_false (fun h => absurd (show (500 : Nat) = 201 from h) (by decide)) nofun
  | ok results =>
      simp only [Except.ok.injEq, exists_eq_left']
      split_ifs with hall
      · exact iff_of_true rfl hall
      · exact iff_of_false (by decide) hall

theorem all_map_cons {ρ : Type} {success : ρ → Bool} {r : ρ} {results : Except SqlError (List ρ)} :
    (∃ rs, results.map (fun results => r :: results) = .ok rs ∧ rs.all success = true) ↔
      success r = true ∧ ∃ rs, results = .ok rs ∧ rs.all success = true := by
  cases results with
  | error e => exact iff_of_false (fun ⟨_, h, _⟩ => by cases h) fun ⟨_, _, h, _⟩ => by cases h
  | ok rs => simp [Except.map]

/-- The request succeeds exactly if the batch does, and leaves the tables of the batch. -/
theorem conclude_created {ρ : Type} {success : ρ → Bool} {attempts : List (Attempt ρ)}
    (h : ∀ a ∈ attempts, a.Honest success) {i : Nat} {t' : Tables} :
    (((createEach now ids t i attempts).conclude success).response.status = 201 ∧
        ((createEach now ids t i attempts).conclude success).tables = t') ↔
      Batch.all (createAttempt ids now) t i attempts = some t' := by
  rw [conclude_status, (conclude_tables success _).1]
  induction attempts generalizing t i with
  | nil => simp [createEach, Batch.all]
  | cons a attempts ih =>
      have hrest := fun {t i} => ih (fun b hb => h b (List.mem_cons_of_mem a hb)) (t := t) (i := i)
      have ha := h a List.mem_cons_self
      cases a with
      | refused result =>
          have hfail : success result = false := ha
          refine iff_of_false (fun hall => ?_) (fun hstep => by cases hstep)
          obtain ⟨hall, -⟩ := hall
          rw [createEach, all_map_cons, hfail] at hall
          cases hall.1
      | create request result =>
          rw [Batch.all_cons, createAttempt, createEach]
          cases hcreate : ConnectorRepository.createMapping t (ids i) now request with
          | ok p =>
              obtain ⟨t₁, row⟩ := p
              simp only [all_map_cons, ha.1 row, true_and, Except.toOption, Option.map_some,
                Option.some.injEq, exists_eq_left', hrest]
          | error e =>
              refine iff_of_false (fun hall => ?_) fun hstep => ?_
              rotate_left
              · obtain ⟨_, hfail, -⟩ := hstep
                cases hfail
              cases e with
              | domain e =>
                  obtain ⟨hall, -⟩ := hall
                  rw [all_map_cons, ha.2 e.message] at hall
                  cases hall.1
              | thrown e =>
                  obtain ⟨⟨_, hall, -⟩, -⟩ := hall
                  cases hall

theorem csvAttempt_honest (t : Tables) (row address : Nat) (fields : List String) :
    (csvAttempt t row address fields).Honest ImportResult.success := by
  unfold csvAttempt
  simp only
  split
  · rfl
  split
  · rfl
  split
  · rfl
  split
  · rfl
  split
  · rfl
  · exact ⟨fun _ => rfl, fun _ => rfl⟩
  · rfl

/-- The mappings do not matter to a row. -/
theorem csvAttempt_mappings (t : Tables) (mappings : List Mapping) (row address : Nat)
    (fields : List String) :
    csvAttempt { t with mappings := mappings } row address fields = csvAttempt t row address fields := by
  have hconn : connectionNamed { t with mappings := mappings } = connectionNamed t := rfl
  have hnodes : nodesNamed { t with mappings := mappings } = nodesNamed t := rfl
  simp only [csvAttempt, hconn, hnodes]

/-- A row becomes a creation exactly if its names are found. -/
theorem csvAttempt_create_iff {row : Nat} {fields : List String} (hlen : 4 ≤ fields.length)
    {request : CreateMappingRequest} :
    (∃ result, csvAttempt t row 2 fields = .create request result) ↔ Reads t fields request := by
  unfold csvAttempt
  simp only [Nat.reduceAdd, if_neg (Nat.not_lt.mpr hlen)]
  constructor
  · rintro ⟨result, h⟩
    split at h
    · cases h
    · rename_i connectionId hconn
      split at h
      · cases h
      rename_i haddress
      split at h
      · cases h
      rename_i hname
      split at h
      · cases h
      · rename_i n hnodes
        obtain ⟨hrequest, -⟩ := Attempt.create.inj h
        rw [← hrequest]
        exact
          { connection := hconn
            address := by dsimp only
            addressed := haddress
            named := hname
            node := ⟨n, hnodes, by dsimp only⟩
            description := by dsimp only }
      · cases h
  · intro h
    obtain ⟨n, hnodes, hnode⟩ := h.node
    have haddress : Js.trim (fields.getD 2 "") ≠ "" := by
      rw [h.address]
      exact h.addressed
    have hrequest : request = ⟨request.connectionId, some n.id, Js.trim (fields.getD 2 ""),
        if Js.trim (fields.getD 5 "") = "" then none else some (Js.trim (fields.getD 5 ""))⟩ := by
      rw [h.address, ← h.description, ← hnode]
    rw [hrequest]
    simp only [h.connection, if_neg haddress, if_neg h.named, hnodes, Attempt.create.injEq, true_and]
    exact ⟨_, rfl⟩

/-! ## The import of the exported text -/

theorem length_mappingFields (t : Tables) (m : Mapping) : (mappingFields t m).length = 6 := rfl

/-- The attempts that the import makes of the exported rows. -/
def restoring (t : Tables) : List (Attempt ImportResult) :=
  (findAllMappings t).zipIdx.map (fun p => csvAttempt t (p.2 + 2) 2 (mappingFields t p.1))

theorem mappingsHeader_row : mappingsHeader =
    csvRow ["connectionName", "type", "deviceAddress", "nodeName", "namespace", "description"] := by
  rw [← String.toList_inj, csvRow_toList]
  decide

theorem normalizeHeader_connectionName : normalizeHeader "connectionName" = "connectionname" := by decide

theorem normalizeHeader_type : normalizeHeader "type" = "type" := by decide

theorem csvHeader_mappingsHeader : csvHeader (parseCsvLine mappingsHeader) = some true := by
  rw [mappingsHeader_row, parseCsvLine_csvRow (by decide)]
  show (if normalizeHeader "connectionName" ≠ "connectionname" then none
    else if normalizeHeader "type" = "type" then some true
    else if normalizeHeader "type" = "deviceaddress" then some false else none) = some true
  rw [if_neg (not_not.mpr normalizeHeader_connectionName), if_pos normalizeHeader_type]

theorem findAllMappings_perm (t : Tables) : (findAllMappings t).Perm t.mappings :=
  (orderBy_perm _ _).trans (orderBy_perm _ _)

/-- The header is a line of its own. -/
theorem mappingsHeader_line : '\n' ∉ mappingsHeader.toList ∧
    mappingsHeader.toList.getLast? ≠ some '\r' ∧ Js.trim mappingsHeader ≠ "" := by decide

theorem exportMappings_ne_empty (t : Tables) : exportMappings t ≠ "" := by
  intro h
  have hlist := congrArg String.toList h
  rw [exportMappings, csvText, String.toList_intercalate] at hlist
  cases hrows : (findAllMappings t).map (mappingFields t) with
  | nil =>
      rw [hrows] at hlist
      exact absurd hlist (by decide)
  | cons fields rows =>
      rw [hrows, List.map_cons, List.map_cons, List.map_cons, List.intercalate_cons_cons] at hlist
      exact absurd (List.append_eq_nil_iff.mp (List.append_eq_nil_iff.mp hlist).1).1 (by decide)

/-- The lines of the exported text. -/
theorem csvLines_exportMappings (hlines : ∀ m ∈ t.mappings, ∀ f ∈ mappingFields t m, '\n' ∉ f.toList) :
    csvLines (exportMappings t) =
      mappingsHeader :: (findAllMappings t).map (fun m => csvRow (mappingFields t m)) := by
  rw [exportMappings, csvLines_csvText mappingsHeader_line, List.map_map]
  · rfl
  · intro fields hfields
    obtain ⟨m, hm, rfl⟩ := List.mem_map.mp hfields
    exact ⟨by rw [length_mappingFields]; decide, hlines m ((findAllMappings_perm t).mem_iff.mp hm)⟩

theorem csvAttempts_exportMappings
    (hlines : ∀ m ∈ t.mappings, ∀ f ∈ mappingFields t m, '\n' ∉ f.toList) :
    csvAttempts { t with mappings := [] } (exportMappings t) =
      if t.mappings = [] then .error "CSV must contain a header row and at least one data row"
      else .ok (restoring t) := by
  have hcsv := csvLines_exportMappings hlines
  unfold csvLines at hcsv
  unfold csvAttempts
  rw [hcsv, restoring]
  cases hall : findAllMappings t with
  | nil =>
      have hnil : t.mappings = [] := by
        have hperm := findAllMappings_perm t
        rw [hall] at hperm
        exact hperm.symm.eq_nil
      rw [if_pos hnil]
      rfl
  | cons m rows =>
      have hne : t.mappings ≠ [] := by
        intro hnil
        have hperm := findAllMappings_perm t
        rw [hall, hnil] at hperm
        exact absurd hperm.eq_nil (List.cons_ne_nil _ _)
      have hfields : ∀ m, parseCsvLine (csvRow (mappingFields t m)) = mappingFields t m := fun m =>
        parseCsvLine_csvRow (List.cons_ne_nil _ _)
      rw [if_neg hne, List.map_cons]
      simp only [csvHeader_mappingsHeader, if_true]
      rw [← List.map_cons (f := fun m => csvRow (mappingFields t m)), List.zipIdx_map, List.map_map]
      refine congrArg Except.ok (List.map_congr_left fun p _ => ?_)
      simp only [Function.comp_apply, Prod.map, id_eq, hfields, csvAttempt_mappings]

/-- The import makes one attempt for each mapping; without mappings the text is refused. -/
theorem mappingsImported_eq (hlines : ∀ m ∈ t.mappings, ∀ f ∈ mappingFields t m, '\n' ∉ f.toList) :
    mappingsImported t ids now = if t.mappings = [] then
        refuse { t with mappings := [] }
          (invalidBody "CSV must contain a header row and at least one data row" [])
      else (createEach now ids { t with mappings := [] } 0 (restoring t)).conclude
        ImportResult.success := by
  rw [mappingsImported, importMappings, if_neg (exportMappings_ne_empty t),
    csvAttempts_exportMappings hlines]
  split_ifs <;> rfl

/-- One row of the import of the exported text. -/
def restoreMapping (t : Tables) (ids : Nat → String) (now : String) (s : Tables) (i : Nat) (m : Mapping) :
    Option Tables := createAttempt ids now s i (csvAttempt t (i + 2) 2 (mappingFields t m))

/-- **The batch of the import.** All mappings are restored exactly if there are some, the batch of their
rows succeeds, and it leaves their contents. -/
theorem mappingsRestored_iff (hlines : ∀ m ∈ t.mappings, ∀ f ∈ mappingFields t m, '\n' ∉ f.toList) :
    MappingsRestored t ids now ↔ t.mappings ≠ [] ∧ ∃ t',
      Batch.all (restoreMapping t ids now) { t with mappings := [] } 0 (findAllMappings t) = some t' ∧
        ∀ c, c ∈ t'.mappings.map mappingContent ↔ c ∈ t.mappings.map mappingContent := by
  have hhonest : ∀ a ∈ restoring t, a.Honest ImportResult.success := by
    intro a ha
    obtain ⟨p, -, rfl⟩ := List.mem_map.mp ha
    exact csvAttempt_honest _ _ _ _
  have hbatch : Batch.all (createAttempt ids now) { t with mappings := [] } 0 (restoring t) =
      Batch.all (restoreMapping t ids now) { t with mappings := [] } 0 (findAllMappings t) := by
    rw [restoring, Batch.all_zipIdx]
    rfl
  rw [MappingsRestored, mappingsImported_eq hlines]
  split_ifs with hnil
  · exact iff_of_false (fun h => absurd (show (400 : Nat) = 201 from h.1) (by decide)) fun h => h.1 hnil
  · rw [and_iff_right hnil]
    constructor
    · rintro ⟨hstatus, hcontents⟩
      have hall := (conclude_created hhonest).mp ⟨hstatus, rfl⟩
      rw [hbatch] at hall
      exact ⟨_, hall, hcontents⟩
    · rintro ⟨t', hall, hcontents⟩
      rw [← hbatch] at hall
      obtain ⟨hstatus, htables⟩ := (conclude_created hhonest).mpr hall
      rw [htables]
      exact ⟨hstatus, hcontents⟩

/-- A row that succeeds adds a mapping with what the row says. -/
theorem restoreMapping_ok {s s' : Tables} {i : Nat} {m : Mapping}
    (h : restoreMapping t ids now s i m = some s') : ∃ row : Mapping,
      s' = { s with mappings := s.mappings ++ [row] } ∧ Reads t (mappingFields t m) (mappingContent row) := by
  rw [restoreMapping] at h
  cases hattempt : csvAttempt t (i + 2) 2 (mappingFields t m) with
  | refused result =>
      rw [hattempt] at h
      cases h
  | create request result =>
      rw [hattempt, createAttempt] at h
      have hreads := (csvAttempt_create_iff (by rw [length_mappingFields]; decide)).mp ⟨result, hattempt⟩
      cases hcreate : ConnectorRepository.createMapping s (ids i) now request with
      | error e =>
          rw [hcreate] at h
          cases h
      | ok p =>
          obtain ⟨s₁, row⟩ := p
          rw [hcreate] at h
          obtain ⟨hins, -, hrow⟩ := ConnectorRepository.createMapping_ok hcreate
          refine ⟨row, ?_, ?_⟩
          · rw [← Option.some.inj h, checked_ok hins]
          · rw [hrow]
            exact hreads

/-- The mappings that a batch leaves are those that its rows say, in their order. -/
theorem restored_rows {t' : Tables}
    (h : Batch.all (restoreMapping t ids now) { t with mappings := [] } 0 (findAllMappings t) = some t') :
    List.Forall₂ (fun m row => Reads t (mappingFields t m) (mappingContent row)) (findAllMappings t)
      t'.mappings := by
  refine @Batch.all_invariant _ _ _ (fun pre (s : Tables) =>
    List.Forall₂ (fun m row => Reads t (mappingFields t m) (mappingContent row)) pre s.mappings)
    _ _ [] _ (fun pre m s s' hpre hstep => ?_) List.Forall₂.nil h
  obtain ⟨row, rfl, hreads⟩ := restoreMapping_ok hstep
  exact List.rel_append hpre (List.Forall₂.cons hreads List.Forall₂.nil)

end OpcuaLight.Api
