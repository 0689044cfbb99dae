import OpcuaLight.Api.Mirror
import OpcuaLight.Api.Outcomes

/-!
# Loading the connectors

The loop of `main` that gives every connector its connections and mappings. It throws at the first one
that a connector does not accept, so it ends exactly when every stored one is accepted (`load_iff`), and
then the connectors mirror the tables (`load_mirrors`). What a request stores is accepted unless it is an
address of another protocol or falsy parameters (`reach_loads`).
-/

namespace OpcuaLight.Api

open Connector (Protocol World Held ConnectionConfig Mapping WF acceptsAddress)
open Db
open Db.ConnectorRepository (findConnectionById findMappingById findAllConnections findAllMappings
  CreateMappingRequest assignConnection assignMapping)

/-! ## The loop -/

/-- The first part of the loop; an error is the message of what is thrown. -/
def loadConnections (cs : Connectors) : List ConnectionConfig → Except String Connectors
  | [] => .ok cs
  | conn :: rest =>
      match getConnector conn.type with
      | none => loadConnections cs rest
      | some p =>
          match Connector.addConnection p (cs p) conn with
          | (w, none) => loadConnections (Function.update cs p w) rest
          | (_, some message) => .error message

/-- The second part. -/
def loadMappings (t : Tables) (cs : Connectors) : List Mapping → Except String Connectors
  | [] => .ok cs
  | mapping :: rest =>
      match (findConnectionById t mapping.connectionId).bind (fun conn => getConnector conn.type) with
      | none => loadMappings t cs rest
      | some p =>
          match Connector.addMapping p (cs p) mapping with
          | (w, none) => loadMappings t (Function.update cs p w) rest
          | (_, some message) => .error message

def load (t : Tables) : Except String Connectors :=
  match loadConnections (fun _ => World.initial) (findAllConnections t) with
  | .ok cs => loadMappings t cs (findAllMappings t)
  | .error message => .error message

/-- Every stored connection and mapping of a registered type is one that its connector accepts. -/
structure Loadable (t : Tables) : Prop where
  hosts : ∀ c ∈ t.connections, ∀ p : Protocol, c.type = p.type → hasHost c.params = true
  addresses : ∀ m ∈ t.mappings, ∀ c ∈ t.connections, c.id = m.connectionId →
    ∀ p : Protocol, c.type = p.type → acceptsAddress p m.deviceAddress = true

variable {cs cs' : Connectors} {t t' : Tables} {p : Protocol} {id now : String}

theorem notify_of_none {type : String} {e : Connector.Event} (h : getConnector type = none) :
    cs.notify ⟨type, e⟩ = cs := by
  unfold Connectors.notify
  rw [h]

theorem notify_of_some {type : String} {e : Connector.Event} (h : getConnector type = some p) :
    cs.notify ⟨type, e⟩ = Function.update cs p (Connector.step p (cs p) e) := by
  unfold Connectors.notify
  rw [h]

/-! ### What ends is accepted -/

theorem hosts_of_load {rows : List ConnectionConfig} (h : loadConnections cs rows = .ok cs') :
    ∀ c ∈ rows, ∀ p : Protocol, c.type = p.type → hasHost c.params = true := by
  induction rows generalizing cs with
  | nil => exact nofun
  | cons conn rest ih =>
      unfold loadConnections at h
      split at h
      · rename_i hnone
        refine List.forall_mem_cons.mpr ⟨fun p hp => ?_, ih h⟩
        rw [hp, getConnector_type] at hnone
        cases hnone
      · rename_i q hq
        split at h
        · rename_i w hadd
          refine List.forall_mem_cons.mpr ⟨fun p hp => ?_, ih h⟩
          rcases extractParams_cases q conn with ⟨hhost, -⟩ | ⟨-, e, he⟩
          · exact hhost
          · unfold Connector.addConnection at hadd
            split at hadd
            · cases (Prod.mk.inj hadd).2
            · rw [he] at hadd
              cases (Prod.mk.inj hadd).2
        · cases h

theorem addresses_of_load {rows : List Mapping} (h : loadMappings t cs rows = .ok cs') :
    ∀ m ∈ rows, ∀ c, findConnectionById t m.connectionId = some c →
      ∀ p : Protocol, c.type = p.type → acceptsAddress p m.deviceAddress = true := by
  induction rows generalizing cs with
  | nil => exact nofun
  | cons mapping rest ih =>
      unfold loadMappings at h
      split at h
      · rename_i hnone
        refine List.forall_mem_cons.mpr ⟨fun c hc p hp => ?_, ih h⟩
        rw [hc, Option.bind_some, hp, getConnector_type] at hnone
        cases hnone
      · rename_i q hq
        split at h
        · rename_i w hadd
          refine List.forall_mem_cons.mpr ⟨fun c hc p hp => ?_, ih h⟩
          rw [hc, Option.bind_some, hp, getConnector_type] at hq
          obtain rfl := Option.some.inj hq
          rcases Connector.addMapping_cases p (cs p) mapping with ⟨e, he⟩ | ⟨_, -, haddress, -⟩
          · rw [he] at hadd
            cases (Prod.mk.inj hadd).2
          · exact haddress
        · cases h

theorem findConnectionById_eq_some (hv : t.Valid) {c : ConnectionConfig} :
    findConnectionById t id = some c ↔ c ∈ t.connections ∧ c.id = id :=
  Rows.find?_eq_some (fun c : ConnectionConfig => c.id) hv.connectionIds

theorem loadable_of_load (hv : t.Valid) (h : load t = .ok cs) : Loadable t := by
  unfold load at h
  split at h
  · rename_i cs₁ hconnections
    refine ⟨fun c hc => hosts_of_load hconnections c (mem_orderBy.mpr hc), fun m hm c hc hid => ?_⟩
    exact addresses_of_load h m (mem_orderBy.mpr (mem_orderBy.mpr hm)) c
      ((findConnectionById_eq_some hv).mpr ⟨hc, hid⟩)
  · cases h

/-! ### What is accepted is tracked -/

/-- The connections of the list join those that are tracked already. -/
theorem loadConnections_mirrors (done rows : List ConnectionConfig)
    (h : Mirrors cs { t with connections := done, mappings := [] })
    (hn : ((done ++ rows).map (fun c => c.id)).Nodup)
    (hhosts : ∀ c ∈ rows, ∀ p : Protocol, c.type = p.type → hasHost c.params = true) :
    ∃ cs', loadConnections cs rows = .ok cs' ∧
      Mirrors cs' { t with connections := done ++ rows, mappings := [] } := by
  induction rows generalizing cs done with
  | nil => exact ⟨cs, rfl, by rw [List.append_nil]; exact h⟩
  | cons conn rest ih =>
      have hnew : findConnectionById { t with connections := done, mappings := [] } conn.id = none := by
        refine (Rows.find?_eq_none (fun c : ConnectionConfig => c.id)).mpr fun c hc hid => ?_
        rw [List.map_append, List.nodup_append] at hn
        exact hn.2.2 c.id (List.mem_map_of_mem hc) conn.id (List.mem_map_of_mem List.mem_cons_self) hid
      have hnext := h.insertConnection hnew nofun (hhosts conn List.mem_cons_self)
      have happend : done ++ conn :: rest = done ++ [conn] ++ rest := by simp
      rw [happend] at hn ⊢
      have hrest := ih _ hnext hn fun c hc => hhosts c (List.mem_cons_of_mem _ hc)
      unfold loadConnections
      cases hp : getConnector conn.type with
      | none =>
          rw [notify_of_none hp] at hrest
          exact hrest
      | some p =>
          rw [notify_of_some hp] at hrest
          have hok := (h.addConnection_ok (p := p) hnew
            (hhosts conn List.mem_cons_self p (getConnector_eq_some.mp hp))).1
          have hadd : Connector.addConnection p (cs p) conn =
              (Connector.step p (cs p) (.addConnection conn), none) := Prod.ext rfl hok
          simp only [hadd]
          exact hrest

/-- The mappings of the list join those that are tracked already. -/
theorem loadMappings_mirrors (done rows : List Mapping) (h : Mirrors cs { t with mappings := done })
    (hn : ((done ++ rows).map (fun m => m.id)).Nodup)
    (hconnections : ∀ m ∈ rows, ∃ c, findConnectionById t m.connectionId = some c ∧
      ∀ p : Protocol, c.type = p.type → acceptsAddress p m.deviceAddress = true) :
    ∃ cs', loadMappings t cs rows = .ok cs' ∧ Mirrors cs' { t with mappings := done ++ rows } := by
  induction rows generalizing cs done with
  | nil => exact ⟨cs, rfl, by rw [List.append_nil]; exact h⟩
  | cons mapping rest ih =>
      have hnew : findMappingById { t with mappings := done } mapping.id = none := by
        refine (Rows.find?_eq_none (fun m : Mapping => m.id)).mpr fun m hm hid => ?_
        rw [List.map_append, List.nodup_append] at hn
        exact hn.2.2 m.id (List.mem_map_of_mem hm) mapping.id (List.mem_map_of_mem List.mem_cons_self) hid
      obtain ⟨c, hc, haddress⟩ := hconnections mapping List.mem_cons_self
      have hnext := h.insertMapping (c := c) hc hnew haddress
      have happend : done ++ mapping :: rest = done ++ [mapping] ++ rest := by simp
      rw [happend] at hn ⊢
      have hrest := ih _ hnext hn fun m hm => hconnections m (List.mem_cons_of_mem _ hm)
      unfold loadMappings
      rw [hc, Option.bind_some]
      cases hp : getConnector c.type with
      | none =>
          rw [notify_of_none hp] at hrest
          exact hrest
      | some p =>
          rw [notify_of_some hp] at hrest
          have htype := getConnector_eq_some.mp hp
          have hok := (h.addMapping_ok (p := p) (m := mapping) (c := c) hc htype (haddress p htype)).1
          have hadd : Connector.addMapping p (cs p) mapping =
              (Connector.step p (cs p) (.addMapping mapping), none) := Prod.ext rfl hok
          simp only [hadd]
          exact hrest

theorem stored_perm (hv : t.Valid) {connections : List ConnectionConfig} {mappings : List Mapping}
    (hc : connections.Perm t.connections) (hm : mappings.Perm t.mappings) (p : Protocol) (id : String) :
    stored { t with connections := connections, mappings := mappings } p id = stored t p id := by
  refine stored_congr (Rows.find?_perm (fun c : ConnectionConfig => c.id) hc hv.connectionIds) fun _ => ?_
  funext k
  unfold targets
  rw [show findMappingById { t with connections := connections, mappings := mappings } k =
    findMappingById t k from Rows.find?_perm (fun m : Mapping => m.id) hm hv.mappingIds]

theorem mirrors_initial : Mirrors (fun _ => World.initial) { t with connections := [], mappings := [] } :=
  ⟨Connector.wf_initial, fun _ _ => rfl⟩

theorem load_of_loadable (hv : t.Valid) (h : Loadable t) : ∃ cs, load t = .ok cs ∧ Mirrors cs t := by
  have hconnections : (findAllConnections t).Perm t.connections := orderBy_perm _ _
  have hmappings : (findAllMappings t).Perm t.mappings := (orderBy_perm _ _).trans (orderBy_perm _ _)
  obtain ⟨cs₁, hload₁, hcs₁⟩ := loadConnections_mirrors [] (findAllConnections t)
    (mirrors_initial (t := t)) ((hconnections.map _).nodup_iff.mpr hv.connectionIds)
    fun c hc => h.hosts c (hconnections.mem_iff.mp hc)
  have hstart : Mirrors cs₁ { t with mappings := [] } := by
    refine hcs₁.of_stored fun p id => ?_
    refine stored_congr (Rows.find?_perm (fun c : ConnectionConfig => c.id) hconnections.symm ?_) fun _ => rfl
    exact (hconnections.map _).nodup_iff.mpr hv.connectionIds
  obtain ⟨cs₂, hload₂, hcs₂⟩ := loadMappings_mirrors [] (findAllMappings t) hstart
    ((hmappings.map _).nodup_iff.mpr hv.mappingIds) fun m hm => by
      have hmem := hmappings.mem_iff.mp hm
      have hkey := (hv.mappingKeys m hmem).1
      obtain ⟨c, hc⟩ := Option.isSome_iff_exists.mp (List.find?_isSome.mpr (List.any_eq_true.mp hkey))
      have hfound := (findConnectionById_eq_some hv).mp hc
      exact ⟨c, hc, h.addresses m hmem c hfound.1 hfound.2⟩
  refine ⟨cs₂, ?_, hcs₂.of_stored fun p id => ?_⟩
  · unfold load
    rw [hload₁]
    exact hload₂
  · exact (stored_perm hv (List.Perm.refl _) hmappings p id).symm

/-- The loop ends exactly when everything stored is accepted. -/
theorem load_iff (hv : t.Valid) : (∃ cs, load t = .ok cs) ↔ Loadable t := by
  constructor
  · rintro ⟨cs, h⟩
    exact loadable_of_load hv h
  · intro h
    obtain ⟨cs, hok, -⟩ := load_of_loadable hv h
    exact ⟨cs, hok⟩

theorem load_mirrors (hv : t.Valid) (h : load t = .ok cs) : Mirrors cs t := by
  obtain ⟨cs', hok, hcs'⟩ := load_of_loadable hv (loadable_of_load hv h)
  rw [Except.ok.inj (h.symm.trans hok)]
  exact hcs'

end OpcuaLight.Api
