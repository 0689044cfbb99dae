import OpcuaLight.Api.Acceptance

/-!
# The connectors mirror the database

From the state that `main` loads, in every run of requests and of events in the connectors, each
connector tracks exactly the connections of its type, as they are stored, and for each of them exactly
its mappings (`connectors_mirror`): as long as every request stores what the connectors accept, no update
of a mapping of theirs changes its node or its address, and no node that they deliver to is deleted, since
no handler tells the connectors about these.
-/

namespace OpcuaLight.Api

open Connector (Protocol World Held ConnectionConfig Mapping WF acceptsAddress)
open Db
open Db.ConnectorRepository (findConnectionById findMappingById UpdateConnectionRequest
  CreateMappingRequest assignConnection assignMapping)

variable {cs : Connectors} {t t' : Tables} {id now : String}

/-! ## The system -/

/-- The database, and the connectors in memory. -/
structure System where
  tables : Tables
  connectors : Connectors

/-- A request, or an event in a connector that no request calls for: a start or a stop of all, an answer
of the protocol library, a timer. -/
inductive Input where
  | addressSpace (request : Request)
  | connectors (request : ConnectorRequest)
  | connector (p : Protocol) (e : { e : Connector.Event // e.isCall = false })

def System.step (s : System) : Input → System
  | .addressSpace request => { s with tables := (handle s.tables request).1 }
  | .connectors request =>
      let outcome := handleConnector s.tables request
      ⟨outcome.tables, outcome.notices.foldl Connectors.notify s.connectors⟩
  | .connector p e =>
      { s with connectors := Function.update s.connectors p (Connector.step p (s.connectors p) e) }

/-! ## The condition -/

/-- A connector is registered for the connection. -/
def tracked (t : Tables) (connectionId : String) : Bool :=
  (findConnectionById t connectionId).any (fun c => (getConnector c.type).isSome)

/-- The connectors accept what the request stores, and see what it changes. -/
def ConnectorRequest.mirrored (t : Tables) : ConnectorRequest → Bool
  | .putMapping id body => (findMappingById t id).all (fun m =>
      !tracked t m.connectionId || (assignMapping body m).target = m.target)
  | r => r.acceptable t

/-- No mapping of a registered type goes with the operation. -/
def spares (t : Tables) (op : Operation) : Bool :=
  t.mappings.all (fun m => !(tracked t m.connectionId && op.takes t m))

def Request.mirrored (t : Tables) : Request → Bool
  | .deleteNode id => spares t (.deleteNode id)
  | .deleteNamespace id => spares t (.deleteNamespace id)
  | _ => true

def Input.mirrored (s : System) : Input → Bool
  | .addressSpace request => request.mirrored s.tables
  | .connectors request => request.mirrored s.tables
  | .connector _ _ => true

theorem tracked_of_stored {p : Protocol} (h : stored t p id ≠ none) : tracked t id = true := by
  obtain ⟨k, hk⟩ := Option.ne_none_iff_exists'.mp h
  obtain ⟨c, hc, hp, -⟩ := stored_eq_some.mp hk
  unfold tracked
  rw [hc, Option.any_some, hp, getConnector_type]
  rfl

/-! ## What a step keeps -/

/-- The tables meet their constraints, what they hold can be loaded, and the connectors mirror it. -/
structure Synced (cs : Connectors) (t : Tables) : Prop where
  valid : t.Valid
  loadable : Loadable t
  mirrors : Mirrors cs t

/-- The outcome of a request, with the connectors after its calls. -/
def Outcome.Synced (o : Outcome) (cs : Connectors) : Prop :=
  Api.Synced (o.notices.foldl Connectors.notify cs) o.tables

theorem synced_postConnection (h : Synced cs t) (body : ConnectionBody) :
    (postConnection t id now body).Synced cs := by
  have hl := loadable_postConnection h.valid h.loadable id now body
  refine ⟨hl.1, hl.2, ?_⟩
  rcases postConnection_cases t id now body with ⟨response, he⟩ | ⟨t', row, response, hins, hhost, he⟩
  · rw [he]
    exact h.mirrors
  · rw [he]
    obtain ⟨hnew, hfree⟩ := free_of_inserted h.valid hins
    rw [checked_ok hins]
    exact h.mirrors.insertConnection hnew hfree hhost

theorem synced_putConnection (h : Synced cs t) {body : UpdateConnectionRequest}
    (hok : keepsParams t id body = true) : (putConnection t id body).Synced cs := by
  have hl := loadable_putConnection h.valid h.loadable hok
  refine ⟨hl.1, hl.2, ?_⟩
  rcases putConnection_cases t id body with ⟨response, he⟩ | ⟨t', c, response, hc, hupd, hfield, hvalid, he⟩
  · rw [he]
    exact h.mirrors
  · rw [he]
    rw [checked_ok hupd]
    refine h.mirrors.updateConnection hc (fun _ => ⟨rfl, rfl⟩) fun p hp => ?_
    show hasHost (body.params.getD c.params) = true
    cases hparams : body.params with
    | none => exact h.loadable.hosts c (List.mem_of_find?_eq_some hc) p hp
    | some v => exact hvalid v hparams (keepsParams_iff.mp hok hfield c hc p hp v hparams) p hp

theorem synced_deleteConnection (h : Synced cs t) (id : String) : (deleteConnection t id).Synced cs := by
  have hl := loadable_deleteConnection h.valid h.loadable id
  refine ⟨hl.1, hl.2, ?_⟩
  rcases deleteConnection_cases t id with ⟨response, he⟩ | ⟨t', c, response, hc, hdel, he⟩
  · rw [he]
    exact h.mirrors
  · rw [he]
    rw [checked_ok hdel]
    exact h.mirrors.deleteConnection h.valid hc

theorem synced_created (h : Synced cs t) {request : CreateMappingRequest} {row : Mapping}
    {c : ConnectionConfig} (hcreated : Created t request t' row c)
    (hok : acceptable t request.connectionId request.deviceAddress = true) :
    Synced (cs.notify ⟨c.type, .addMapping row⟩) t' := by
  have hl := loadable_created h.valid h.loadable hcreated hok
  refine ⟨hl.1, hl.2, ?_⟩
  have hn := hl.1.mappingIds
  rw [checked_ok hcreated.inserted] at hn ⊢
  refine h.mirrors.insertMapping hcreated.connection ?_ fun p hp => ?_
  · rw [List.map_append, List.nodup_append] at hn
    exact (Rows.find?_eq_none (fun m : Mapping => m.id)).mpr fun m hm =>
      hn.2.2 m.id (List.mem_map_of_mem hm) row.id (List.mem_map_of_mem List.mem_cons_self)
  · rw [hcreated.deviceAddress]
    refine acceptable_iff.mp hok c ?_ p hp
    rw [← hcreated.connectionId]
    exact hcreated.connection

theorem synced_postMapping (h : Synced cs t) {body : MappingBody}
    (hok : (ConnectorRequest.postMapping id now body).acceptable t = true) :
    (postMapping t id now body).Synced cs := by
  rcases postMapping_cases t id now body with ⟨response, he⟩ | ⟨request, t', row, c, response, hreq, hcreated, he⟩
  · rw [he]
    exact h
  · rw [he]
    refine synced_created h hcreated ?_
    have hall := List.all_eq_true.mp hok request
    rw [ConnectorRequest.creations, hreq] at hall
    exact hall List.mem_cons_self

/-- The connectors see nothing of an update that leaves the target of the mapping. -/
theorem synced_putMapping (h : Synced cs t) {body : ConnectorRepository.UpdateMappingRequest}
    (hok : (ConnectorRequest.putMapping id body).mirrored t = true) : (putMapping t id body).Synced cs := by
  rcases putMapping_cases t id body with ⟨response, he⟩ | ⟨t', m, response, hm, hupd, he⟩
  · rw [he]
    exact h
  · rw [he]
    have hkept : tracked t m.connectionId = true → (assignMapping body m).target = m.target := by
      rw [ConnectorRequest.mirrored, hm, Option.all_some, Bool.or_eq_true, Bool.not_eq_true',
        decide_eq_true_eq] at hok
      intro htracked
      rw [htracked] at hok
      exact hok.resolve_left nofun
    refine ⟨valid_checked hupd, ?_, ?_⟩
    · rw [checked_ok hupd]
      refine h.loadable.updateMapping h.valid (fun _ => rfl) fun m' hm' hid => ?_
      have hfound := (Rows.find?_eq_some (fun m : Mapping => m.id) h.valid.mappingIds).mpr ⟨hm', hid⟩
      obtain rfl := Option.some.inj (hm.symm.trans hfound)
      by_cases htracked : tracked t m.connectionId = true
      · exact Or.inl (congrArg Prod.snd (hkept htracked))
      · refine Or.inr (acceptable_iff.mpr fun c hc p hp => absurd ?_ htracked)
        unfold tracked
        rw [hc, Option.any_some, hp, getConnector_type]
        rfl
    · rw [checked_ok hupd]
      refine h.mirrors.of_stored fun p id =>
        stored_updateMapping (f := assignMapping body) (fun _ => ⟨rfl, rfl⟩) (fun m' hm' hs => ?_) p id
      obtain rfl := Option.some.inj (hm.symm.trans hm')
      obtain ⟨p, hs⟩ := hs
      exact hkept (tracked_of_stored hs)

theorem synced_deleteMapping (h : Synced cs t) (id : String) : (deleteMapping t id).Synced cs := by
  have hl := loadable_deleteMapping h.valid h.loadable id
  refine ⟨hl.1, hl.2, ?_⟩
  rcases deleteMapping_cases h.valid id with ⟨response, he⟩ | ⟨t', m, c, response, hm, hc, hdel, he⟩
  · rw [he]
    exact h.mirrors
  · rw [he]
    rw [checked_ok hdel]
    exact h.mirrors.deleteMapping h.valid hm hc

theorem synced_createEach {ρ : Type} (h : Synced cs t) {ids : Nat → String} {rows : List (Attempt ρ)}
    (hok : (rows.filterMap Attempt.request).all (fun request =>
      acceptable t request.connectionId request.deviceAddress) = true) :
    Synced ((createEach now ids t 0 rows).notices.foldl Connectors.notify cs)
      (createEach now ids t 0 rows).tables := by
  refine (createEach_induction (I := fun t' notices => t'.connections = t.connections ∧
    Synced (notices.foldl Connectors.notify cs) t')
    (fun t₁ notices request t₂ row c hI hmem hcreated => ?_) 0 [] ⟨rfl, h⟩).2
  obtain ⟨hsame, h₁⟩ := hI
  refine ⟨by rw [checked_ok hcreated.inserted]; exact hsame, ?_⟩
  rw [List.foldl_append]
  refine synced_created h₁ hcreated ?_
  unfold acceptable findConnectionById
  rw [hsame]
  exact List.all_eq_true.mp hok request hmem

theorem synced_conclude {ρ : Type} {success : ρ → Bool} {c : Creations ρ}
    (h : Synced (c.notices.foldl Connectors.notify cs) c.tables) : (c.conclude success).Synced cs := by
  obtain ⟨ht, hn⟩ := conclude_tables success c
  unfold Outcome.Synced
  rw [ht, hn]
  exact h

theorem synced_handleConnector (h : Synced cs t) {r : ConnectorRequest} (hok : r.mirrored t = true) :
    (handleConnector t r).Synced cs := by
  cases r with
  | postConnection id now body => exact synced_postConnection h body
  | putConnection id body => exact synced_putConnection h hok
  | deleteConnection id => exact synced_deleteConnection h id
  | postMapping id now body => exact synced_postMapping h hok
  | putMapping id body => exact synced_putMapping h hok
  | deleteMapping id => exact synced_deleteMapping h id
  | postMappingsBulk ids now items =>
      show (postMappingsBulk t ids now items).Synced cs
      unfold postMappingsBulk
      split
      · exact h
      · exact synced_conclude (synced_createEach h hok)
  | importMappings ids now csv =>
      show (importMappings t ids now csv).Synced cs
      unfold importMappings
      split_ifs
      · exact h
      · split
        · exact h
        · rename_i attempts hattempts
          refine synced_conclude (synced_createEach h ?_)
          have hall : ((ConnectorRequest.importMappings ids now csv).creations t).all (fun request =>
            acceptable t request.connectionId request.deviceAddress) = true := hok
          rw [ConnectorRequest.creations, hattempts] at hall
          exact hall

/-- An operation on the address space that takes no mapping of a registered type. -/
theorem synced_apply (h : Synced cs t) {op : Operation} (hop : op.onAddressSpace = true)
    (hspares : spares t op = true) : Synced cs (apply t op) := by
  refine ⟨valid_apply h.valid op, loadable_apply h.valid h.loadable hop, h.mirrors.of_stored fun p id => ?_⟩
  obtain ⟨hc, hm⟩ := apply_mappings h.valid hop
  rcases hm with hm | hm
  · exact stored_of_rows hc hm p id
  · refine (stored_of_rows (t := { t with mappings := t.mappings.filter (fun m => !op.takes t m) })
      hc hm p id).trans (stored_filterMappings h.valid (fun m hmem htakes p => ?_) p id)
    by_contra hs
    have hspared := List.all_eq_true.mp hspares m hmem
    rw [tracked_of_stored hs, show op.takes t m = true by simpa using htakes] at hspared
    cases hspared

theorem spares_of_not_deletes {op : Operation} (h : op.deletesNodes = false) (t : Tables) :
    spares t op = true := by
  refine List.all_eq_true.mpr fun m _ => ?_
  rw [takes_of_not_deletes h, Bool.and_false]
  rfl

theorem synced_handle (h : Synced cs t) {r : Request} (hok : r.mirrored t = true) :
    Synced cs (handle t r).1 := by
  cases hd : r.deletesNodes with
  | false =>
      obtain ⟨ops, hops⟩ := handle_ops t r
      have hguard : Machine.Guarded apply
          (fun _ op => op.onAddressSpace = true ∧ op.deletesNodes = false) t ops :=
        Machine.guarded_of_forall t fun op hop => ⟨hops.onAddressSpace op hop, by
          refine Bool.eq_false_of_not_eq_true fun hdel => ?_
          rw [hops.deletesNodes op hop hdel] at hd
          cases hd⟩
      rw [hops.run]
      exact Machine.run_invariant (I := fun t => Synced cs t)
        (fun t op hop h => synced_apply h hop.1 (spares_of_not_deletes hop.2 t)) hguard h
  | true =>
      cases r with
      | deleteNode id =>
          have he : (handle t (.deleteNode id)).1 = apply t (.deleteNode id) := respond_tables _ _ _ _ _
          rw [he]
          exact synced_apply h rfl hok
      | deleteNamespace id =>
          have he : (handle t (.deleteNamespace id)).1 = apply t (.deleteNamespace id) :=
            respond_tables _ _ _ _ _
          rw [he]
          exact synced_apply h rfl hok
      | _ => cases hd

theorem synced_step {s : System} (h : Synced s.connectors s.tables) {i : Input}
    (hok : i.mirrored s = true) : Synced (s.step i).connectors (s.step i).tables := by
  cases i with
  | addressSpace r => exact synced_handle h hok
  | connectors r => exact synced_handleConnector h hok
  | connector p e =>
      refine ⟨h.valid, h.loadable, fun q => ?_, fun q id => ?_⟩
      · show WF q (Function.update s.connectors p (Connector.step p (s.connectors p) e) q)
        by_cases hq : q = p
        · rw [hq, Function.update_self]
          exact (h.mirrors.wf p).step e
        · rw [Function.update_of_ne hq]
          exact h.mirrors.wf q
      · show (Function.update s.connectors p (Connector.step p (s.connectors p) e) q).held id =
          stored s.tables q id
        rw [← h.mirrors.held q id]
        by_cases hq : q = p
        · rw [hq, Function.update_self, Connector.held_step (h.mirrors.wf p) e.2]
        · rw [Function.update_of_ne hq]

/-- From the state that `main` loads, in every run whose requests meet the condition, each connector
tracks exactly what the database has for it. -/
theorem connectors_mirror (ops : List Operation) {cs₀ : Connectors} (hload : load (reach ops) = .ok cs₀)
    (is : List Input)
    (hok : Machine.Guarded System.step (fun s i => i.mirrored s = true) ⟨reach ops, cs₀⟩ is)
    (p : Protocol) (id : String) :
    ((Machine.run System.step ⟨reach ops, cs₀⟩ is).connectors p).held id =
      stored (Machine.run System.step ⟨reach ops, cs₀⟩ is).tables p id := by
  have hv := reach_valid ops
  have hstart : Synced cs₀ (reach ops) := ⟨hv, loadable_of_load hv hload, load_mirrors hv hload⟩
  exact (Machine.run_invariant (I := fun s : System => Synced s.connectors s.tables)
    (fun s i hok h => synced_step h hok) hok hstart).mirrors.held p id

/-- A connection and a mapping, made while the connector runs. -/
def mappedInputs : List Input :=
  [.connector .modbusTcp ⟨.start, rfl⟩,
   .connectors (.postConnection "c1" "2024-01-01" modbusBody),
   .connectors (.postMapping "m1" "2024-01-01" ⟨some "c1", none, some "HR:100", none⟩)]

/-- The mapping is moved to another register. -/
def movedInputs : List Input :=
  mappedInputs ++ [.connectors (.putMapping "m1" ⟨some "HR:200", none, none⟩)]

def emptySystem : System := ⟨reach [.reopen], fun _ => World.initial⟩

theorem movedInputs_not_mirrored : load (reach [.reopen]) = .ok (fun _ => World.initial) ∧
    ((Machine.run System.step emptySystem movedInputs).connectors .modbusTcp).held "c1" ≠
      stored (Machine.run System.step emptySystem movedInputs).tables .modbusTcp "c1" := by
  refine ⟨rfl, fun h => ?_⟩
  have htarget := congrArg (fun o => o.bind (fun k => k.targets "m1")) h
  revert htarget
  decide +kernel

theorem connectors_mirror_mapped :
    ((Machine.run System.step emptySystem mappedInputs).connectors .modbusTcp).held "c1" =
      stored (Machine.run System.step emptySystem mappedInputs).tables .modbusTcp "c1" :=
  connectors_mirror [.reopen] rfl mappedInputs (by decide +kernel) .modbusTcp "c1"

end OpcuaLight.Api
