import OpcuaLight.Api.MappingsRestored
import OpcuaLight.Db.Hierarchy

/-!
# Export and import of nodes

`GET /nodes/export/csv` writes the namespace of a node by name and its object node as a path, and
`POST /nodes/import/csv` looks both up. The import of an exported text is a batch, with one row for each
node (`nodesRestored_iff`), as long as no field has a line break.
-/

namespace OpcuaLight.Api

open Db
open Db.NodeRepository (CreateNodeRequest supported)

/-! ## The export -/

/-- `ORDER BY name`. -/
def findAllNodes (t : Tables) : List NodeRow := orderBy (fun r => r.name) t.nodes

/-- `JSON.stringify` of a value that is neither missing nor `null`. -/
def initialValueText : Option Json → String
  | none | some .null => ""
  | some v => v.stringify

/-- The fields of the row that stands for a node. -/
def nodeFields (t : Tables) (n : NodeRow) : List String :=
  [n.name, (namespaceName t n.namespaceId).getD "", getObjectNodePath t n.objectNodeId, n.dataType.name,
    initialValueText n.initialValue, n.description.getD ""]

def nodesHeader : String := "name,namespace,objectNodePath,dataType,initialValue,description"

def exportNodes (t : Tables) : String := csvText nodesHeader ((findAllNodes t).map (nodeFields t))

/-! ## The import -/

/-- The loop of `findObjectNodeByPath` over the parts, from a parent on. -/
def followPath (rows : List ObjectNodeRow) : Option String → List String → Option String
  | parentId, [] => parentId
  | parentId, part :: parts =>
      match rows.find? (fun r => r.name = part ∧ r.parentObjectNodeId = parentId) with
      | none => none
      | some found => followPath rows (some found.id) parts

def findObjectNodeByPath (t : Tables) (namespaceId pathStr : String) : Option String :=
  if pathStr = "" then none
  else
    let parts := ((Js.split pathStr '/').map Js.trim).filter (· ≠ "")
    if parts = [] then none
    else followPath (t.objectNodes.filter (fun r => r.namespaceId = namespaceId)) none parts

/-- `JSON.parse` of the trimmed text, or that text itself; a blank text is no value. -/
def importedValue (s : String) : Option Json :=
  if Js.trim s = "" then none else some ((Json.parse (Js.trim s)).getD (.str (Js.trim s)))

structure NodeImportResult where
  row : Nat
  success : Bool
  name : Option String
  error : Option String
  deriving DecidableEq, Inhabited

/-- One round of the import's loop: what the row is refused with, or the node it asks for. -/
def nodeAttempt (t : Tables) (row : Nat) (fields : List String) : Except NodeImportResult CreateNodeRequest :=
  let field := fun i => fields.getD i ""
  let failed := fun name error => .error (NodeImportResult.mk row false name (some error))
  if fields.length < 4 then failed none "Insufficient columns"
  else if Js.trim (field 0) = "" then failed none "Name is required"
  else
    match namespaceNamed t (Js.trim (field 1)) with
    | none => failed (some (field 0)) s!"Namespace \"{field 1}\" not found"
    | some namespaceId =>
        let objectNodeId := (findObjectNodeByPath t namespaceId (Js.trim (field 2))).filter (· ≠ "")
        if (supported (Js.trim (field 3))).isNone then failed (some (field 0)) s!"Invalid dataType \"{field 3}\""
        else if Js.trim (field 2) ≠ "" ∧ objectNodeId = none then
          failed (some (field 0)) s!"Object node path \"{field 2}\" not found in namespace \"{field 1}\""
        else
          .ok ⟨some (Js.trim (field 0)), some namespaceId, objectNodeId, some (Js.trim (field 3)),
            importedValue (field 4), if Js.trim (field 5) = "" then none else some (Js.trim (field 5))⟩

/-- Whether the header is accepted. -/
def nodesHeaderValid (header : List String) : Bool :=
  match header.map normalizeHeader with
  | name :: namespace' :: _ :: dataType :: _ =>
      name = "name" && namespace' = "namespace" && dataType = "datatype"
  | _ => false

/-- The rows of the text below its header, or the message it is refused with. -/
def nodeAttempts (t : Tables) (csv : String) :
    Except String (List (Except NodeImportResult CreateNodeRequest)) :=
  match csvLines csv with
  | header :: row :: rows =>
      if nodesHeaderValid (parseCsvLine header) then
        .ok ((row :: rows).zipIdx.map fun line => nodeAttempt t (line.2 + 2) (parseCsvLine line.1))
      else .error ("CSV header must have columns: " ++
        "name,namespace,objectNodePath,dataType,initialValue,description")
  | _ => .error "CSV must contain a header row and at least one data row"

/-- The creations that the rows ask for, with the ids that they draw. -/
def creationsOf (ids : Nat → String) (i : Nat) :
    List (Except NodeImportResult CreateNodeRequest) → List (String × CreateNodeRequest)
  | [] => []
  | .error _ :: attempts => creationsOf ids (i + 1) attempts
  | .ok request :: attempts => (ids i, request) :: creationsOf ids (i + 1) attempts

def importNodesCsv (t : Tables) (ids : Nat → String) (csv : String) : Tables × Response :=
  if csv = "" then
    (t, invalidBody "Request body must include a \"csv\" field with the CSV content as a string" [])
  else
    match nodeAttempts t csv with
    | .error message => (t, invalidBody message [])
    | .ok attempts => importNodes t (creationsOf ids 0 attempts) (attempts.any fun a => !a.toBool)

/-! ## What is restored -/

/-- A node without its id. -/
def nodeContent (n : NodeRow) : CreateNodeRequest :=
  ⟨some n.name, some n.namespaceId, n.objectNodeId, some n.dataType.name, n.initialValue, n.description⟩

/-- The other database has the same namespaces and object nodes, and no nodes. -/
structure SamePlaces (t u : Tables) : Prop where
  valid : u.Valid
  namespaces : u.namespaces = t.namespaces
  objectNodes : u.objectNodes = t.objectNodes
  nodes : u.nodes = []

/-- The import of the exported text reports success for every row, and the nodes are the exported ones. -/
def NodesRestored (t u : Tables) (ids : Nat → String) : Prop :=
  (importNodesCsv u ids (exportNodes t)).2.status = 201 ∧
    ∀ c, c ∈ (importNodesCsv u ids (exportNodes t)).1.nodes.map nodeContent ↔ c ∈ t.nodes.map nodeContent

/-- The row is that of the object node, or of one above it. -/
inductive OnPath (t : Tables) : String → ObjectNodeRow → Prop where
  | here {id : String} {r : ObjectNodeRow} (hr : r ∈ t.objectNodes) (hid : r.id = id) : OnPath t id r
  | above {id parent : String} {r s : ObjectNodeRow} (hr : r ∈ t.objectNodes) (hid : r.id = id)
      (hparent : r.parentObjectNodeId = some parent) (hs : OnPath t parent s) : OnPath t id s

/-- A part of a path leads to the object node of its name. -/
structure PartTold (namespaceId : String) (r : ObjectNodeRow) : Prop where
  namespaceId : r.namespaceId = namespaceId
  trimmed : Js.trim r.name = r.name
  named : r.name ≠ ""
  noSlash : '/' ∉ r.name.toList

/-- The row of a node leads back to it. -/
structure NodeExportable (t : Tables) (n : NodeRow) : Prop where
  name : Js.trim n.name = n.name
  namespaceName : ∀ r ∈ t.namespaces, r.id = n.namespaceId → Js.trim r.name = r.name
  path : ∀ id ∈ n.objectNodeId, ∀ r, OnPath t id r → PartTold n.namespaceId r
  value : n.initialValue ≠ some .null
  description : ∀ d ∈ n.description, Js.trim d = d ∧ d ≠ ""

/-! ## A row of the import -/

/-- What a row asks the repository for. -/
structure Asks (t : Tables) (fields : List String) (request : CreateNodeRequest) : Prop where
  named : Js.trim (fields.getD 0 "") ≠ ""
  name : request.name = some (Js.trim (fields.getD 0 ""))
  place : ∃ id, namespaceNamed t (Js.trim (fields.getD 1 "")) = some id ∧ request.namespaceId = some id ∧
    request.objectNodeId = (findObjectNodeByPath t id (Js.trim (fields.getD 2 ""))).filter (· ≠ "") ∧
    (Js.trim (fields.getD 2 "") ≠ "" → request.objectNodeId ≠ none)
  supported : (supported (Js.trim (fields.getD 3 ""))).isSome = true
  dataType : request.dataType = some (Js.trim (fields.getD 3 ""))
  initialValue : request.initialValue = importedValue (fields.getD 4 "")
  description : request.description =
    if Js.trim (fields.getD 5 "") = "" then none else some (Js.trim (fields.getD 5 ""))

variable {t u : Tables} {ids : Nat → String}

theorem nodeAttempt_ok_iff {row : Nat} {fields : List String} (hlen : 4 ≤ fields.length)
    {request : CreateNodeRequest} : nodeAttempt t row fields = .ok request ↔ Asks t fields request := by
  unfold nodeAttempt
  simp only [if_neg (Nat.not_lt.mpr hlen)]
  constructor
  · intro h
    split at h
    · cases h
    rename_i hname
    split at h
    · cases h
    rename_i id hns
    split at h
    · cases h
    rename_i htype
    split at h
    · cases h
    rename_i hpath
    rw [← Except.ok.inj h]
    exact
      { named := hname
        name := by dsimp only
        place := ⟨id, hns, by dsimp only, by dsimp only, fun hne hnone => hpath ⟨hne, hnone⟩⟩
        supported := Option.isSome_iff_ne_none.mpr fun hnone => htype (Option.isNone_iff_eq_none.mpr hnone)
        dataType := by dsimp only
        initialValue := by dsimp only
        description := by dsimp only }
  · intro h
    obtain ⟨id, hns, hid, hobject, hpath⟩ := h.place
    have htype : ¬ (NodeRepository.supported (Js.trim (fields.getD 3 ""))).isNone = true :=
      fun hnone => Option.isSome_iff_ne_none.mp h.supported (Option.isNone_iff_eq_none.mp hnone)
    rw [hobject] at hpath
    rw [if_neg h.named, hns]
    simp only
    rw [if_neg htype, if_neg fun hbad => hpath hbad.1 hbad.2, ← h.name, ← hid, ← hobject, ← h.dataType,
      ← h.initialValue, ← h.description]

/-- Only the namespaces and the object nodes matter to a row. -/
theorem nodeAttempt_same (h : SamePlaces t u) (row : Nat) (fields : List String) :
    nodeAttempt u row fields = nodeAttempt t row fields := by
  have hns : namespaceNamed u = namespaceNamed t := by
    funext name
    rw [namespaceNamed, namespaceNamed, h.namespaces]
  have hpath : findObjectNodeByPath u = findObjectNodeByPath t := by
    funext id path
    rw [findObjectNodeByPath, findObjectNodeByPath, h.objectNodes]
  simp only [nodeAttempt, hns, hpath]

/-! ## The import as a batch -/

/-- One row of the batch: the tables after its creation, if it succeeds. -/
def createNodeAttempt (ids : Nat → String) (t : Tables) (i : Nat) :
    Except NodeImportResult CreateNodeRequest → Option Tables
  | .error _ => none
  | .ok request => (NodeRepository.create t (ids i) request).toOption

/-- A creation that fails is never made up for. -/
theorem importRows_error {id : String} {request : CreateNodeRequest} {rows : List (String × CreateNodeRequest)}
    {e : Failure} (h : NodeRepository.create t id request = .error e) :
    (importRows t ((id, request) :: rows)).2 ≠ .ok true := by
  rw [importRows, h]
  cases e with
  | thrown e => nofun
  | domain e => rcases importRows t rows with ⟨u, e | created⟩ <;> nofun

theorem importRows_creationsOf {attempts : List (Except NodeImportResult CreateNodeRequest)} {i : Nat}
    {s s' : Tables} : (importRows s (creationsOf ids i attempts) = (s', .ok true) ∧
      (attempts.any fun a => !a.toBool) = false) ↔ Batch.all (createNodeAttempt ids) s i attempts = some s' := by
  induction attempts generalizing s i with
  | nil => simp [creationsOf, importRows, Batch.all]
  | cons a attempts ih =>
      cases a with
      | error result =>
          refine iff_of_false (fun h => ?_) fun h => by cases h
          rw [List.any_cons, Bool.or_eq_false_iff] at h
          have hbad : true = false := h.2.1
          cases hbad
      | ok request =>
          rw [Batch.all_cons, creationsOf, createNodeAttempt, List.any_cons]
          cases hcreate : NodeRepository.create s (ids i) request with
          | ok s₁ =>
              rw [importRows, hcreate]
              simp only [Except.toOption, Option.some.injEq, exists_eq_left', ← ih]
              exact Iff.rfl
          | error e =>
              refine iff_of_false (fun h => importRows_error hcreate (congrArg Prod.snd h.1)) fun h => ?_
              obtain ⟨_, hnone, -⟩ := h
              cases hnone

theorem importNodes_created {rows : List (String × CreateNodeRequest)} {refused : Bool} {s s' : Tables} :
    ((importNodes s rows refused).2.status = 201 ∧ (importNodes s rows refused).1 = s') ↔
      importRows s rows = (s', .ok true) ∧ refused = false := by
  unfold importNodes
  rcases importRows s rows with ⟨s₁, e | created⟩
  · refine iff_of_false (fun h => ?_) fun h => ?_
    · exact absurd (show (500 : Nat) = 201 from h.1) (by decide)
    · cases (Prod.mk.inj h.1).2
  · simp only [Prod.mk.injEq, Except.ok.injEq]
    cases created with
    | false => exact iff_of_false (fun h => absurd (show (207 : Nat) = 201 from h.1) (by decide)) fun h => by simp at h
    | true =>
        cases refused with
        | false => simp
        | true => exact iff_of_false (fun h => absurd (show (207 : Nat) = 201 from h.1) (by decide)) fun h => by simp at h

/-! ## The import of the exported text -/

theorem length_nodeFields (t : Tables) (n : NodeRow) : (nodeFields t n).length = 6 := rfl

theorem nodesHeader_row : nodesHeader =
    csvRow ["name", "namespace", "objectNodePath", "dataType", "initialValue", "description"] := by
  rw [← String.toList_inj, csvRow_toList]
  decide

theorem nodesHeaderValid_nodesHeader : nodesHeaderValid (parseCsvLine nodesHeader) = true := by
  rw [nodesHeader_row, parseCsvLine_csvRow (by decide)]
  decide

theorem nodesHeader_line : '\n' ∉ nodesHeader.toList ∧
    nodesHeader.toList.getLast? ≠ some '\r' ∧ Js.trim nodesHeader ≠ "" := by decide

theorem findAllNodes_perm (t : Tables) : (findAllNodes t).Perm t.nodes := orderBy_perm _ _

theorem csvLines_exportNodes (hlines : ∀ n ∈ t.nodes, ∀ f ∈ nodeFields t n, '\n' ∉ f.toList) :
    csvLines (exportNodes t) = nodesHeader :: (findAllNodes t).map (fun n => csvRow (nodeFields t n)) := by
  rw [exportNodes, csvLines_csvText nodesHeader_line, List.map_map]
  · rfl
  · intro fields hfields
    obtain ⟨n, hn, rfl⟩ := List.mem_map.mp hfields
    exact ⟨by rw [length_nodeFields]; decide, hlines n ((findAllNodes_perm t).mem_iff.mp hn)⟩

theorem exportNodes_ne_empty (hlines : ∀ n ∈ t.nodes, ∀ f ∈ nodeFields t n, '\n' ∉ f.toList) :
    exportNodes t ≠ "" := by
  intro h
  have hall := csvLines_exportNodes hlines
  rw [h] at hall
  have hnone : csvLines "" = [] := by decide
  exact List.cons_ne_nil _ _ (hall.symm.trans hnone)

theorem findAllNodes_eq_nil : findAllNodes t = [] ↔ t.nodes = [] := by
  rw [← List.length_eq_zero_iff, (findAllNodes_perm t).length_eq, List.length_eq_zero_iff]

/-- One row of the import of the exported text. -/
def restoreNode (t : Tables) (ids : Nat → String) (s : Tables) (i : Nat) (n : NodeRow) : Option Tables :=
  createNodeAttempt ids s i (nodeAttempt t (i + 2) (nodeFields t n))

/-- **The batch of the import.** All nodes are restored exactly if there are some, the batch of their rows
succeeds, and it leaves their contents. -/
theorem nodesRestored_iff (hu : SamePlaces t u)
    (hlines : ∀ n ∈ t.nodes, ∀ f ∈ nodeFields t n, '\n' ∉ f.toList) :
    NodesRestored t u ids ↔ t.nodes ≠ [] ∧ ∃ u', Batch.all (restoreNode t ids) u 0 (findAllNodes t) = some u' ∧
      ∀ c, c ∈ u'.nodes.map nodeContent ↔ c ∈ t.nodes.map nodeContent := by
  have hattempts : nodeAttempts u (exportNodes t) = if t.nodes = [] then
      .error "CSV must contain a header row and at least one data row"
      else .ok ((findAllNodes t).zipIdx.map fun p => nodeAttempt t (p.2 + 2) (nodeFields t p.1)) := by
    rw [nodeAttempts, csvLines_exportNodes hlines]
    cases hall : findAllNodes t with
    | nil =>
        rw [if_pos (findAllNodes_eq_nil.mp hall)]
        rfl
    | cons n rows =>
        have hne : t.nodes ≠ [] := fun hnil => List.cons_ne_nil n rows (hall ▸ findAllNodes_eq_nil.mpr hnil)
        have hfields : ∀ n, parseCsvLine (csvRow (nodeFields t n)) = nodeFields t n := fun n =>
          parseCsvLine_csvRow (List.cons_ne_nil _ _)
        rw [if_neg hne, List.map_cons]
        simp only [nodesHeaderValid_nodesHeader, if_true]
        rw [← List.map_cons (f := fun n => csvRow (nodeFields t n)), List.zipIdx_map, List.map_map]
        refine congrArg Except.ok (List.map_congr_left fun p _ => ?_)
        simp only [Function.comp_apply, Prod.map, id_eq, hfields, nodeAttempt_same hu]
  have hbatch : ∀ s, Batch.all (createNodeAttempt ids) s 0
      ((findAllNodes t).zipIdx.map fun p => nodeAttempt t (p.2 + 2) (nodeFields t p.1)) =
        Batch.all (restoreNode t ids) s 0 (findAllNodes t) := fun s => by
    rw [Batch.all_zipIdx]
    rfl
  rw [NodesRestored, importNodesCsv, if_neg (exportNodes_ne_empty hlines), hattempts]
  split_ifs with hnil
  · exact iff_of_false (fun h => absurd (show (400 : Nat) = 201 from h.1) (by decide)) fun h => h.1 hnil
  · rw [and_iff_right hnil]
    simp only [← hbatch, ← importRows_creationsOf, ← importNodes_created]
    constructor
    · rintro ⟨hstatus, hcontents⟩
      exact ⟨_, ⟨hstatus, rfl⟩, hcontents⟩
    · rintro ⟨u', ⟨hstatus, rfl⟩, hcontents⟩
      exact ⟨hstatus, hcontents⟩

/-- The data type of a request is one of the supported names. -/
theorem dataType_of_supported {name : Option String} {d : OpcUaDataType} (h : name.bind supported = some d) :
    name = some d.name := by
  obtain ⟨s, rfl, hs⟩ := Option.bind_eq_some_iff.mp h
  have hname : d.name = s := by simpa using List.find?_some hs
  rw [hname]

/-- A row that succeeds adds a node with what the row asks for. -/
theorem restoreNode_ok {s s' : Tables} {i : Nat} {n : NodeRow} (h : restoreNode t ids s i n = some s') :
    ∃ row : NodeRow, s' = { s with nodes := s.nodes ++ [row] } ∧ Asks t (nodeFields t n) (nodeContent row) := by
  rw [restoreNode] at h
  cases hattempt : nodeAttempt t (i + 2) (nodeFields t n) with
  | error result =>
      rw [hattempt] at h
      cases h
  | ok request =>
      have hasks := (nodeAttempt_ok_iff (by rw [length_nodeFields]; decide)).mp hattempt
      rw [hattempt, createNodeAttempt] at h
      cases hcreate : NodeRepository.create s (ids i) request with
      | error e =>
          rw [hcreate] at h
          cases h
      | ok s₁ =>
          rw [hcreate] at h
          obtain ⟨-, name, namespaceId, dataType, hname, hns, htype, hins⟩ :=
            NodeRepository.create_checked hcreate
          refine ⟨_, (Option.some.inj h).symm.trans (checked_ok hins), ?_⟩
          have hcontent : nodeContent ⟨ids i, namespaceId, request.objectNodeId, name, dataType,
              request.initialValue, request.description⟩ = request := by
            rw [nodeContent, ← hname, ← hns, ← dataType_of_supported htype]
          rw [hcontent]
          exact hasks

/-- The nodes that a batch leaves are those that its rows ask for, in their order. -/
theorem restoredNodes_rows {u' : Tables} (hu : SamePlaces t u)
    (h : Batch.all (restoreNode t ids) u 0 (findAllNodes t) = some u') :
    List.Forall₂ (fun n row => Asks t (nodeFields t n) (nodeContent row)) (findAllNodes t) u'.nodes := by
  refine @Batch.all_invariant _ _ _ (fun pre (s : Tables) =>
    List.Forall₂ (fun n row => Asks t (nodeFields t n) (nodeContent row)) pre s.nodes)
    _ _ [] _ (fun pre n s s' hpre hstep => ?_) (by rw [hu.nodes]; exact List.Forall₂.nil) h
  obtain ⟨row, rfl, hasks⟩ := restoreNode_ok hstep
  exact List.rel_append hpre (List.Forall₂.cons hasks List.Forall₂.nil)

end OpcuaLight.Api
