import OpcuaLight.Db.Reachable

/-!
# The deletion of a namespace

The cascade removes the object nodes of a namespace one by one, and what hung below a removed one hangs
from nothing until its own turn comes. `deleteNamespace_iff`: the deletion succeeds, and leaves exactly
what it should (`cascaded`), unless two rows of one name get to the root level at a time (`Clash`).
-/

namespace OpcuaLight.Db

/-- The object nodes that go with the namespace, in the order of their rowids. -/
def doomed (t : Tables) (id : String) : List ObjectNodeRow :=
  t.objectNodes.filter (fun r => r.namespaceId = id)

/-- A link that is set to null when the row it leads to is gone. -/
def unlink (gone : List String) (link : Option String) : Option String :=
  link.filter (fun p => p ∉ gone)

/-- The tables without the namespace and all that is in it. -/
def cascaded (t : Tables) (id : String) : Tables where
  migrated := t.migrated
  namespaces := t.namespaces.filter (fun r => r.id ≠ id)
  objectNodes := (t.objectNodes.filter (fun r => r.namespaceId ≠ id)).map (fun r =>
    { r with parentObjectNodeId := unlink ((doomed t id).map (fun q => q.id)) r.parentObjectNodeId })
  nodes := (t.nodes.filter (fun r => r.namespaceId ≠ id)).map (fun r =>
    { r with objectNodeId := unlink ((doomed t id).map (fun q => q.id)) r.objectNodeId })
  connections := t.connections
  mappings := t.mappings.filter (fun m =>
    ¬∃ r ∈ t.nodes, r.namespaceId = id ∧ m.nodeId = some r.id)

/-- Two rows of one name are at the root level of their namespace when the rows `gone` are. -/
def Clash (t : Tables) (gone : List String) : Prop :=
  ∃ r ∈ t.objectNodes, ∃ s ∈ t.objectNodes, r ≠ s ∧ r.id ∉ gone ∧ s.id ∉ gone ∧
    r.namespaceId = s.namespaceId ∧ r.name = s.name ∧
    unlink gone r.parentObjectNodeId = none ∧ unlink gone s.parentObjectNodeId = none

/-! ## The rows that are left -/

/-- The tables in which the object nodes `gone` have been dropped. -/
def Tables.without (t : Tables) (gone : List String) : Tables :=
  { t with
    objectNodes := (t.objectNodes.filter (fun r => r.id ∉ gone)).map (fun r =>
      { r with parentObjectNodeId := unlink gone r.parentObjectNodeId })
    nodes := t.nodes.map (fun r => { r with objectNodeId := unlink gone r.objectNodeId }) }

theorem unlink_nil (link : Option String) : unlink [] link = link := by
  cases link <;> simp [unlink]

theorem unlink_concat (gone : List String) (id : String) (link : Option String) :
    (if unlink gone link = some id then none else unlink gone link) = unlink (gone ++ [id]) link := by
  cases link with
  | none => rfl
  | some p =>
      by_cases hp : p ∈ gone <;> by_cases hid : p = id <;> simp [unlink, Option.filter, hp, hid]

theorem unlink_eq_some {gone : List String} {link : Option String} {p : String} :
    unlink gone link = some p ↔ link = some p ∧ p ∉ gone := by
  simp [unlink, Option.filter_eq_some_iff]

theorem without_nil (t : Tables) : t.without [] = t := by
  unfold Tables.without
  simp [unlink_nil]

theorem without_drop (t : Tables) (gone : List String) (id : String) :
    (t.without gone).dropObjectNode id = t.without (gone ++ [id]) := by
  unfold Tables.dropObjectNode Tables.without
  congr 1
  · simp only [List.filter_map, List.map_map, List.filter_filter]
    congr 1
    · funext r
      simp only [Function.comp, ← unlink_concat gone id r.parentObjectNodeId]
      split_ifs <;> rfl
    · apply List.filter_congr
      intro r _
      simp [and_comm]
  · simp only [List.map_map]
    apply List.map_congr_left
    intro r _
    simp only [Function.comp, ← unlink_concat gone id r.objectNodeId]
    split_ifs <;> rfl

/-- The names are unique in every place unless two of them clash at a root level. -/
theorem places_nodup_iff {t : Tables} (hids : (t.objectNodes.map (fun r => r.id)).Nodup)
    (hplaces : (t.objectNodes.map Tables.place).Nodup) (gone : List String) :
    ((t.without gone).objectNodes.map Tables.place).Nodup ↔ ¬Clash t gone := by
  have hrows : (t.objectNodes.filter (fun r => r.id ∉ gone)).Nodup :=
    List.Nodup.filter _ (List.Nodup.of_map _ hids)
  unfold Tables.without
  rw [List.map_map, List.nodup_map_iff_inj_on hrows]
  constructor
  · rintro h ⟨r, hr, s, hs, hne, hrg, hsg, hns, hname, hrl, hsl⟩
    apply hne
    refine h r (List.mem_filter.mpr ⟨hr, by simpa using hrg⟩) s
      (List.mem_filter.mpr ⟨hs, by simpa using hsg⟩) ?_
    simp [Tables.place, hns, hname, hrl, hsl]
  · intro h r hr s hs he
    obtain ⟨hr, hrg⟩ := List.mem_filter.mp hr
    obtain ⟨hs, hsg⟩ := List.mem_filter.mp hs
    simp only [Function.comp, Tables.place, Prod.mk.injEq] at he
    obtain ⟨hns, hlink, hname⟩ := he
    by_contra hne
    cases hrl : unlink gone r.parentObjectNodeId with
    | none =>
        exact h ⟨r, hr, s, hs, hne, by simpa using hrg, by simpa using hsg, hns, hname, hrl,
          hlink.symm.trans hrl⟩
    | some p =>
        -- below a row that is still there they have been in one place before
        have hrp := (unlink_eq_some.mp hrl).1
        have hsp := (unlink_eq_some.mp (hlink.symm.trans hrl)).1
        refine hne (List.inj_on_of_nodup_map hplaces hr hs ?_)
        simp [Tables.place, hns, hname, hrp, hsp]

/-- The cascade goes through when no two names clash after any of its steps. -/
theorem cascade_ok_iff {t : Tables} (t' : Tables) (hids : (t.objectNodes.map (fun r => r.id)).Nodup)
    (hplaces : (t.objectNodes.map Tables.place).Nodup) :
    ∀ (rows : List ObjectNodeRow) (gone : List String),
    (t.without gone).cascadeObjectNodes rows = .ok t' ↔
      t' = t.without (gone ++ rows.map (fun r => r.id)) ∧
        ∀ n < rows.length, ¬Clash t (gone ++ (rows.take (n + 1)).map (fun r => r.id))
  | [], gone => by
      simp only [Tables.cascadeObjectNodes, Except.ok.injEq, List.map_nil, List.append_nil,
        List.length_nil, Nat.not_lt_zero, false_imp_iff, implies_true, and_true]
      exact eq_comm
  | r :: rows, gone => by
      have hrest := cascade_ok_iff t' hids hplaces rows (gone ++ [r.id])
      have happ : ∀ l : List String, gone ++ [r.id] ++ l = gone ++ r.id :: l := by simp
      unfold Tables.cascadeObjectNodes Tables.cascadeObjectNode
      simp only [without_drop, happ] at hrest ⊢
      by_cases hc : Clash t (gone ++ [r.id])
      · rw [if_neg (fun h => (places_nodup_iff hids hplaces _).mp h hc)]
        exact ⟨nofun, fun h => absurd hc (h.2 0 (Nat.succ_pos _))⟩
      · rw [if_pos ((places_nodup_iff hids hplaces _).mpr hc)]
        simp only
        rw [hrest]
        refine and_congr_right fun _ => ⟨fun h n hn => ?_, fun h n hn => h (n + 1) (Nat.succ_lt_succ hn)⟩
        cases n with
        | zero => exact hc
        | succ n => exact h n (Nat.lt_of_succ_lt_succ hn)

/-! ## What the cascade leaves -/

theorem mem_doomed_ids {t : Tables} (hids : (t.objectNodes.map (fun r => r.id)).Nodup) {id : String}
    {r : ObjectNodeRow} (hr : r ∈ t.objectNodes) :
    r.id ∈ (doomed t id).map (fun q => q.id) ↔ r.namespaceId = id := by
  constructor
  · intro h
    obtain ⟨q, hq, hqr⟩ := List.mem_map.mp h
    obtain ⟨hq, hns⟩ := List.mem_filter.mp hq
    rw [← List.inj_on_of_nodup_map hids hq hr hqr]
    simpa using hns
  · exact fun h => List.mem_map_of_mem (List.mem_filter.mpr ⟨hr, by simpa using h⟩)

theorem without_dropNodes {t : Tables} (hids : (t.objectNodes.map (fun r => r.id)).Nodup) (id : String) :
    (Tables.without { t with namespaces := t.namespaces.filter (fun r => r.id ≠ id) }
      ((doomed t id).map (fun r => r.id))).dropNodes (fun r => r.namespaceId = id) = cascaded t id := by
  unfold Tables.without Tables.dropNodes cascaded
  simp only [Tables.mk.injEq, true_and]
  refine ⟨?_, ?_, ?_⟩
  · congr 1
    apply List.filter_congr
    intro r hr
    simp [mem_doomed_ids hids hr]
  · rw [List.filter_map]
    congr 1
    apply List.filter_congr
    intro r _
    simp
  · apply List.filter_congr
    intro m _
    rw [Bool.eq_iff_iff]
    simp [List.any_map, Function.comp_def]

theorem clash_nil {t : Tables} (hv : t.Valid) : ¬Clash t [] := by
  rw [← places_nodup_iff hv.objectNodeIds hv.places, without_nil]
  exact hv.places

theorem hasNamespace_cascaded {t : Tables} {id ns : String} (h : t.hasNamespace ns = true) (hne : ns ≠ id) :
    (cascaded t id).hasNamespace ns = true := by
  obtain ⟨r, hr, rfl⟩ : ∃ r ∈ t.namespaces, r.id = ns := by simpa [Tables.hasNamespace] using h
  exact List.any_eq_true.mpr ⟨r, List.mem_filter.mpr ⟨hr, by simpa using hne⟩, by simp⟩

theorem hasObjectNode_cascaded {t : Tables} (hids : (t.objectNodes.map (fun r => r.id)).Nodup)
    {id : String} {link : Option String} (h : link.all t.hasObjectNode = true) :
    (unlink ((doomed t id).map (fun q => q.id)) link).all (cascaded t id).hasObjectNode = true := by
  cases hl : unlink ((doomed t id).map (fun q => q.id)) link with
  | none => rfl
  | some p =>
      obtain ⟨rfl, hp⟩ := unlink_eq_some.mp hl
      obtain ⟨q, hq, rfl⟩ : ∃ q ∈ t.objectNodes, q.id = p := by simpa [Tables.hasObjectNode] using h
      rw [mem_doomed_ids hids hq] at hp
      have hkept : q ∈ t.objectNodes.filter (fun r => r.namespaceId ≠ id) :=
        List.mem_filter.mpr ⟨hq, by simpa using hp⟩
      exact List.any_eq_true.mpr ⟨_, List.mem_map_of_mem hkept, by simp⟩

/-- The tables without the namespace meet the constraints, as far as the names do. -/
theorem valid_cascaded {t : Tables} (hv : t.Valid) {id : String}
    (hc : ¬Clash t ((doomed t id).map (fun r => r.id))) : (cascaded t id).Valid := by
  have hplaces := (places_nodup_iff hv.objectNodeIds hv.places _).mpr hc
  have hrows := congrArg Tables.objectNodes (without_dropNodes hv.objectNodeIds id)
  have hplaces : ((cascaded t id).objectNodes.map Tables.place).Nodup := by
    rw [← hrows]
    exact hplaces
  have hsub : (cascaded t id).mappings.Sublist t.mappings := List.filter_sublist
  constructor
  · exact hv.namespaceIds.sublist (List.filter_sublist.map _)
  · exact hv.namespaceNames.sublist (List.filter_sublist.map _)
  · exact hv.namespaceUris.sublist (List.filter_sublist.map _)
  · have he : (cascaded t id).objectNodes.map (fun r => r.id) =
        (t.objectNodes.filter (fun r => r.namespaceId ≠ id)).map (fun r => r.id) := by
      simp [cascaded, Function.comp_def]
    rw [he]
    exact hv.objectNodeIds.sublist (List.filter_sublist.map _)
  · exact hplaces
  · have he : (cascaded t id).nodes.map (fun r => r.id) =
        (t.nodes.filter (fun r => r.namespaceId ≠ id)).map (fun r => r.id) := by
      simp [cascaded, Function.comp_def]
    rw [he]
    exact hv.nodeIds.sublist (List.filter_sublist.map _)
  · have he : (cascaded t id).nodes.map (fun r => (r.namespaceId, r.name)) =
        (t.nodes.filter (fun r => r.namespaceId ≠ id)).map (fun r => (r.namespaceId, r.name)) := by
      simp [cascaded, Function.comp_def]
    rw [he]
    exact hv.nodeNames.sublist (List.filter_sublist.map _)
  · exact hv.connectionIds
  · exact hv.mappingIds.sublist (hsub.map _)
  · exact hv.mappingAddresses.sublist (hsub.map _)
  · exact hv.mappedNodes.imp_right fun h m hm => h m (hsub.subset hm)
  · exact hv.mappedNodesDiffer.imp_right fun h => h.sublist (hsub.map _)
  · intro r hr
    obtain ⟨s, hs, rfl⟩ := List.mem_map.mp hr
    obtain ⟨hs, hns⟩ := List.mem_filter.mp hs
    have hkeys := hv.objectNodeKeys s hs
    exact ⟨hasNamespace_cascaded hkeys.1 (by simpa using hns),
      hasObjectNode_cascaded hv.objectNodeIds hkeys.2⟩
  · intro r hr
    obtain ⟨s, hs, rfl⟩ := List.mem_map.mp hr
    obtain ⟨hs, hns⟩ := List.mem_filter.mp hs
    have hkeys := hv.nodeKeys s hs
    exact ⟨hasNamespace_cascaded hkeys.1 (by simpa using hns),
      hasObjectNode_cascaded hv.objectNodeIds hkeys.2⟩
  · intro m hm
    obtain ⟨hm, hkept⟩ := List.mem_filter.mp hm
    obtain ⟨hconn, hnode⟩ := hv.mappingKeys m hm
    refine ⟨hconn, ?_⟩
    cases hid : m.nodeId with
    | none => rfl
    | some n =>
        rw [hid] at hnode
        obtain ⟨r, hr, rfl⟩ : ∃ r ∈ t.nodes, r.id = n := by simpa [Tables.hasNode] using hnode
        have hns : r.namespaceId ≠ id := fun hns =>
          (of_decide_eq_true hkept) ⟨r, hr, hns, hid⟩
        have hr' : r ∈ t.nodes.filter (fun r => r.namespaceId ≠ id) :=
          List.mem_filter.mpr ⟨hr, by simpa using hns⟩
        exact List.any_eq_true.mpr ⟨_, List.mem_map_of_mem hr', by simp⟩

/-- The deletion of a namespace succeeds, and takes exactly what is in it, when at no time of the
cascade two object nodes of one name are at the root level of their namespace. -/
theorem deleteNamespace_iff (ops : List Operation) {id : String}
    (hex : (NamespaceRepository.findById (reach ops) id).isSome = true) :
    NamespaceRepository.delete (reach ops) id = .ok (cascaded (reach ops) id) ↔
      ∀ n, ¬Clash (reach ops) (((doomed (reach ops) id).take n).map (fun r => r.id)) := by
  have hv := reach_valid ops
  generalize reach ops = t at hex hv
  have hcascade := fun t' => cascade_ok_iff (t := { t with
    namespaces := t.namespaces.filter (fun r => r.id ≠ id) }) t' hv.objectNodeIds hv.places
    (doomed t id) []
  rw [without_nil] at hcascade
  unfold NamespaceRepository.delete
  rw [if_pos hex, execute_eq_ok]
  unfold Tables.deleteNamespace
  simp only
  constructor
  · intro h n
    split at h
    · cases h
    · rename_i t₁ h₁
      have hclash := ((hcascade t₁).mp h₁).2
      have htake : (doomed t id).take n = (doomed t id).take (min n (doomed t id).length) :=
        List.take_eq_take_min
      rw [htake]
      cases hm : min n (doomed t id).length with
      | zero => exact clash_nil hv
      | succ m => exact hclash m (by omega)
  · intro h
    have h₁ := (hcascade _).mpr ⟨rfl, fun n _ => h (n + 1)⟩
    unfold doomed at h₁
    rw [h₁]
    simp only
    rw [List.nil_append]
    have hlast := h (doomed t id).length
    rw [List.take_length] at hlast
    have he := without_dropNodes hv.objectNodeIds id
    unfold doomed at he
    rw [he]
    exact Tables.checked_eq_ok.mpr ⟨valid_cascaded hv hlast, rfl⟩

/-- A folder "B" at the root, and one below the folder "A". -/
def repeatedOps : List Operation :=
  [.createNamespace "n1" ⟨"Plant", none, "urn:plant"⟩, .createObjectNode "a" ⟨"n1", none, "A"⟩,
   .createObjectNode "b" ⟨"n1", some "a", "B"⟩, .createObjectNode "c" ⟨"n1", none, "B"⟩]

theorem repeatedOps_not_deleted :
    (NamespaceRepository.findById (reach repeatedOps) "n1").isSome = true ∧
    NamespaceRepository.delete (reach repeatedOps) "n1" =
      .error (.thrown (.unique "object_nodes.namespace_id, object_nodes.name")) := by decide

/-- A folder of another namespace hangs below one that goes. -/
def sharedOps : List Operation :=
  [.createNamespace "n1" ⟨"Plant", none, "urn:plant"⟩, .createNamespace "n2" ⟨"Line", none, "urn:line"⟩,
   .createObjectNode "a" ⟨"n1", none, "A"⟩, .createObjectNode "b" ⟨"n2", some "a", "B"⟩]

theorem deleteNamespace_shared : NamespaceRepository.delete (reach sharedOps) "n1" =
    .ok (cascaded (reach sharedOps) "n1") := by
  refine (deleteNamespace_iff sharedOps (by decide)).mpr ?_
  rintro n ⟨r, hr, s, hs, hne, -, -, -, hname, -⟩
  have hnames : ((reach sharedOps).objectNodes.map (fun r => r.name)).Nodup := by decide
  exact hne (List.inj_on_of_nodup_map hnames hr hs hname)

end OpcuaLight.Db
