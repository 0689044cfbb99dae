import OpcuaLight.Api.NodesCsv

/-!
# Nodes are restored

The path that the export writes leads back to the object node exactly if each of its parts does (`PartTold`),
and the import restores the nodes exactly if each of them is `NodeExportable` (`nodes_restored_iff`).
-/

namespace OpcuaLight.Api

open Db
open Db.NodeRepository (CreateNodeRequest supported)

variable {t u : Tables} {ids : Nat → String} {namespaceId : String}

/-! ## Paths -/

theorem onPath_eq (hv : t.Valid) {r s : ObjectNodeRow} (hr : r ∈ t.objectNodes) (h : OnPath t r.id s) :
    s = r ∨ ∃ parent, r.parentObjectNodeId = some parent ∧ OnPath t parent s := by
  have hsame : ∀ q ∈ t.objectNodes, q.id = r.id → q = r := fun q hq => List.inj_on_of_nodup_map hv.objectNodeIds hq hr
  cases h with
  | here hs hid => exact Or.inl (hsame s hs hid)
  | above hq hid hparent hs =>
      rw [hsame _ hq hid] at hparent
      exact Or.inr ⟨_, hparent, hs⟩

/-- A path that leads to an object node is told, if it is told from where it starts and so are its parts. -/
theorem partTold_of_followPath (hv : t.Valid) {parts : List String}
    (hparts : ∀ part ∈ parts, Js.trim part = part ∧ part ≠ "" ∧ '/' ∉ part.toList) {start : Option String}
    (hstart : ∀ id ∈ start, ∀ r, OnPath t id r → PartTold namespaceId r) {id : String}
    (h : followPath (t.objectNodes.filter (fun r => r.namespaceId = namespaceId)) start parts = some id) :
    ∀ r, OnPath t id r → PartTold namespaceId r := by
  induction parts generalizing start with
  | nil => exact hstart id h
  | cons part parts ih =>
      rw [followPath] at h
      split at h
      · cases h
      · rename_i found hfound
        refine ih (fun p hp => hparts p (List.mem_cons_of_mem part hp)) ?_ h
        intro id hid r hr
        rw [Option.mem_some_iff] at hid
        subst hid
        obtain ⟨hmem, hns⟩ := List.mem_filter.mp (List.mem_of_find?_eq_some hfound)
        have hkey : found.name = part ∧ found.parentObjectNodeId = start := by
          simpa using List.find?_some hfound
        obtain ⟨htrim, hne, hslash⟩ := hparts part List.mem_cons_self
        rcases onPath_eq hv hmem hr with rfl | ⟨parent, hparent, habove⟩
        · exact ⟨of_decide_eq_true hns, by rw [hkey.1]; exact htrim, by rw [hkey.1]; exact hne,
            by rw [hkey.1]; exact hslash⟩
        · exact hstart parent (by rw [← hkey.2]; exact hparent) r habove

/-- The parts that the import makes of a path. -/
theorem parts_told {pathStr part : String} (h : part ∈ ((Js.split pathStr '/').map Js.trim).filter (· ≠ "")) :
    Js.trim part = part ∧ part ≠ "" ∧ '/' ∉ part.toList := by
  obtain ⟨hmem, hne⟩ := List.mem_filter.mp h
  obtain ⟨raw, hraw, rfl⟩ := List.mem_map.mp hmem
  obtain ⟨piece, hpiece, rfl⟩ := List.mem_map.mp hraw
  refine ⟨Js.trim_trim _, of_decide_eq_true hne, fun hslash => ?_⟩
  have hin := Js.mem_of_mem_trim hslash
  rw [String.toList_ofList] at hin
  exact Pieces.notMem_of_mem_splitOn hpiece hin

theorem partTold_of_found (hv : t.Valid) {pathStr id : String}
    (h : findObjectNodeByPath t namespaceId pathStr = some id) :
    ∀ r, OnPath t id r → PartTold namespaceId r := by
  unfold findObjectNodeByPath at h
  simp only at h
  split_ifs at h
  exact partTold_of_followPath hv (fun part => parts_told) (fun id hid => by cases hid) h

theorem followPath_append {rows : List ObjectNodeRow} {start : Option String} {xs ys : List String} {id : String}
    (h : followPath rows start xs = some id) : followPath rows start (xs ++ ys) = followPath rows (some id) ys := by
  induction xs generalizing start with
  | nil =>
      rw [← h]
      rfl
  | cons x xs ih =>
      rw [followPath] at h
      rw [List.cons_append, followPath]
      split at h
      · cases h
      · exact ih h

/-- The parts of the path of an object node lead to it, if each of them is told. -/
theorem followPath_pathParts (hv : t.Valid) (hp : t.Proper) :
    ∀ {n : Nat} {id : String}, ReachesRoot t.objectNodes n id → (∀ r, OnPath t id r → PartTold namespaceId r) →
      followPath (t.objectNodes.filter (fun r => r.namespaceId = namespaceId)) none
          (Config.pathParts t.objectNodes n id) = some id ∧
        Config.pathParts t.objectNodes n id ≠ [] ∧
        ∀ part ∈ Config.pathParts t.objectNodes n id, Js.trim part = part ∧ part ≠ "" ∧ '/' ∉ part.toList
  | n + 1, id, ⟨r, hr, hid, hup⟩, htold => by
      have hr' := htold r (.here hr hid)
      have hmem : r ∈ t.objectNodes.filter (fun r => r.namespaceId = namespaceId) :=
        List.mem_filter.mpr ⟨hr, decide_eq_true hr'.namespaceId⟩
      have hfind : t.objectNodes.find? (fun r => r.id = id) = some r :=
        (Rows.find?_eq_some (fun r : ObjectNodeRow => r.id) hv.objectNodeIds).mpr ⟨hr, hid⟩
      have hne : id ≠ "" := hid ▸ hp.objectNodes r hr
      -- its name and its parent are found in the namespace
      have hstep : followPath (t.objectNodes.filter (fun r => r.namespaceId = namespaceId)) r.parentObjectNodeId
          [r.name] = some id := by
        have hfound : (t.objectNodes.filter (fun r => r.namespaceId = namespaceId)).find?
            (fun s => s.name = r.name ∧ s.parentObjectNodeId = r.parentObjectNodeId) = some r := by
          have hunique : ∀ s ∈ t.objectNodes.filter (fun r => r.namespaceId = namespaceId),
              s.name = r.name ∧ s.parentObjectNodeId = r.parentObjectNodeId → s = r := by
            rintro s hs ⟨hname, hparent⟩
            obtain ⟨hs, hns⟩ := List.mem_filter.mp hs
            refine List.inj_on_of_nodup_map hv.places hs hr ?_
            rw [Tables.place, Tables.place, hname, hparent, of_decide_eq_true hns, hr'.namespaceId]
          cases hresult : (t.objectNodes.filter (fun r => r.namespaceId = namespaceId)).find?
              (fun s => s.name = r.name ∧ s.parentObjectNodeId = r.parentObjectNodeId) with
          | none => exact absurd (decide_eq_true ⟨rfl, rfl⟩) (List.find?_eq_none.mp hresult r hmem)
          | some s =>
              have hs := hunique s (List.mem_of_find?_eq_some hresult) (by simpa using List.find?_some hresult)
              rw [hs]
        rw [followPath, hfound]
        simp only [followPath, hid]
      have hpart : Js.trim r.name = r.name ∧ r.name ≠ "" ∧ '/' ∉ r.name.toList :=
        ⟨hr'.trimmed, hr'.named, hr'.noSlash⟩
      rw [Config.pathParts, if_neg hne, hfind]
      cases hparent : r.parentObjectNodeId with
      | none =>
          rw [hparent] at hstep
          simp only [hparent]
          refine ⟨hstep, List.cons_ne_nil _ _, fun part hmem => ?_⟩
          rw [List.mem_singleton.mp hmem]
          exact hpart
      | some parent =>
          rw [hparent] at hstep
          simp only [hparent]
          obtain ⟨hfollow, -, hparts⟩ := followPath_pathParts hv hp (hup parent hparent)
            fun s hs => htold s (.above hr hid hparent hs)
          refine ⟨(followPath_append hfollow).trans hstep, List.append_ne_nil_of_right_ne_nil _ (List.cons_ne_nil _ _),
            fun part hmem => ?_⟩
          rcases List.mem_append.mp hmem with hmem | hmem
          · exact hparts part hmem
          · rw [List.mem_singleton.mp hmem]
            exact hpart

/-! ## The text of a path -/

theorem join_toList (parts : List String) :
    (Config.join parts "/").toList = ['/'].intercalate (parts.map String.toList) := by
  rw [Config.join, String.toList_intercalate]
  rfl

theorem split_join {parts : List String} (hne : parts ≠ []) (h : ∀ part ∈ parts, '/' ∉ part.toList) :
    Js.split (Config.join parts "/") '/' = parts := by
  rw [Js.split, join_toList, List.splitOn_intercalate]
  · rw [List.map_map]
    conv_rhs => rw [← List.map_id parts]
    exact List.map_congr_left fun part _ => String.ofList_toList
  · intro piece hpiece
    obtain ⟨part, hpart, rfl⟩ := List.mem_map.mp hpiece
    exact h part hpart
  · simpa using hne

/-- A part has characters at its ends, and they are no white space. -/
theorem part_ends {part : String} (htrim : Js.trim part = part) (hne : part ≠ "") :
    (∃ c ∈ part.toList.head?, Js.isSpace c = false) ∧ ∃ c ∈ part.toList.getLast?, Js.isSpace c = false := by
  have hends := Js.trim_ends part
  rw [htrim] at hends
  have hlist : part.toList ≠ [] := fun hnil => hne (String.toList_inj.mp hnil)
  have hfirst := List.head?_eq_some_head hlist
  have hlast := List.getLast?_eq_some_getLast hlist
  exact ⟨⟨_, hfirst, hends.head _ hfirst⟩, _, hlast, hends.last _ hlast⟩

theorem trim_join {parts : List String} (hne : parts ≠ []) (h : ∀ part ∈ parts, Js.trim part = part ∧ part ≠ "") :
    Js.trim (Config.join parts "/") = Config.join parts "/" ∧ Config.join parts "/" ≠ "" := by
  obtain ⟨first, rest, hfirst⟩ := List.exists_cons_of_ne_nil hne
  obtain ⟨c, hc, hcspace⟩ := (part_ends (h first (by rw [hfirst]; exact List.mem_cons_self)).1
    (h first (by rw [hfirst]; exact List.mem_cons_self)).2).1
  have hhead : c ∈ (Config.join parts "/").toList.head? := by
    rw [join_toList, hfirst, List.map_cons]
    exact Pieces.head?_intercalate hc
  have hlastmem := List.getLast_mem hne
  obtain ⟨d, hd, hdspace⟩ := (part_ends (h _ hlastmem).1 (h _ hlastmem).2).2
  have hlast : d ∈ (Config.join parts "/").toList.getLast? := by
    rw [join_toList, ← List.dropLast_append_getLast hne, List.map_append, List.map_singleton]
    exact Pieces.getLast?_intercalate_concat hd
  refine ⟨Js.trim_eq_self ⟨fun x hx => ?_, fun x hx => ?_⟩, fun hempty => ?_⟩
  · rw [← Option.some.inj (hhead.symm.trans hx)]
    exact hcspace
  · rw [← Option.some.inj (hlast.symm.trans hx)]
    exact hdspace
  · rw [hempty] at hhead
    cases hhead

/-- The path of an object node leads to it, if each of its parts is told. -/
theorem findObjectNodeByPath_path (hv : t.Valid) (hp : t.Proper) {id : String} {n : Nat}
    (hroot : ReachesRoot t.objectNodes n id) (htold : ∀ r, OnPath t id r → PartTold namespaceId r) :
    Js.trim (getObjectNodePath t (some id)) = getObjectNodePath t (some id) ∧
      getObjectNodePath t (some id) ≠ "" ∧
        findObjectNodeByPath t namespaceId (getObjectNodePath t (some id)) = some id := by
  obtain ⟨hfollow, hne, hparts⟩ := followPath_pathParts hv hp hroot.length htold
  obtain ⟨htrim, hjoin⟩ := trim_join hne fun part hpart => ⟨(hparts part hpart).1, (hparts part hpart).2.1⟩
  have hpath : getObjectNodePath t (some id) ≠ "" := hjoin
  have hcut : ((Js.split (getObjectNodePath t (some id)) '/').map Js.trim).filter (· ≠ "") =
      Config.pathParts t.objectNodes t.objectNodes.length id := by
    rw [getObjectNodePath, split_join hne fun part hpart => (hparts part hpart).2.2]
    have hmap : (Config.pathParts t.objectNodes t.objectNodes.length id).map Js.trim =
        Config.pathParts t.objectNodes t.objectNodes.length id := by
      conv_rhs => rw [← List.map_id (Config.pathParts t.objectNodes t.objectNodes.length id)]
      exact List.map_congr_left fun part hpart => (hparts part hpart).1
    rw [hmap, List.filter_eq_self]
    exact fun part hpart => decide_eq_true (hparts part hpart).2.1
  refine ⟨htrim, hpath, ?_⟩
  rw [findObjectNodeByPath, if_neg hpath, hcut]
  simp only
  rw [if_neg hne, hfollow]

/-! ## Initial values -/

theorem importedValue_text {v : Option Json} (hcanonical : ∀ w ∈ v, w.Canonical) (hnull : v ≠ some .null) :
    importedValue (initialValueText v) = v := by
  cases v with
  | none => rfl
  | some w =>
      have hw := hcanonical w rfl
      have htext : initialValueText (some w) = w.stringify := by
        cases w with
        | null => exact absurd rfl hnull
        | _ => rfl
      have htrim : Js.trim w.stringify = w.stringify := by
        refine Js.trim_eq_self ?_
        rw [Json.stringify, String.toList_ofList]
        exact Json.text_trimmed hw
      have hne : w.stringify ≠ "" := by
        intro hempty
        have hpos := Json.text_length_pos hw
        have hlist := congrArg String.toList hempty
        rw [Json.stringify, String.toList_ofList] at hlist
        rw [hlist] at hpos
        exact absurd hpos (by decide)
      rw [htext, importedValue, htrim, if_neg hne, Json.parse_stringify hw]
      rfl

theorem importedValue_ne_null {v : Option Json} (hcanonical : ∀ w ∈ v, w.Canonical) :
    importedValue (initialValueText v) ≠ some .null := by
  by_cases hnull : v = some .null
  · rw [hnull]
    exact fun h => by cases h
  · rw [importedValue_text hcanonical hnull]
    exact hnull

/-! ## What is asked for is exportable -/

theorem nodeExportable_of_asks (hv : t.Valid) (hp : t.Proper) {n n' : NodeRow}
    (hcanonical : ∀ v ∈ n'.initialValue, v.Canonical) (h : Asks t (nodeFields t n') (nodeContent n)) :
    NodeExportable t n where
  name := by
    have hname : n.name = _ := Option.some.inj h.name
    rw [hname, Js.trim_trim]
  namespaceName := by
    intro r hr hid
    obtain ⟨id, hns, hnsId, -⟩ := h.place
    obtain ⟨q, hq, hqname, hqid⟩ := (namespaceNamed_eq_some hv hp).mp hns
    have hsame : q = r :=
      List.inj_on_of_nodup_map hv.namespaceIds hq hr (hqid.trans ((Option.some.inj hnsId).symm.trans hid.symm))
    rw [← hsame, hqname, Js.trim_trim]
  path := by
    intro id hid
    obtain ⟨nsId, -, hnsId, hobject, -⟩ := h.place
    rw [Option.some.inj hnsId]
    exact partTold_of_found hv (Option.filter_eq_some_iff.mp (hobject.symm.trans hid)).1
  value := by
    have hvalue : n.initialValue = _ := h.initialValue
    rw [hvalue]
    exact importedValue_ne_null hcanonical
  description := by
    intro d hd
    have hdescription : n.description = _ := h.description
    rw [hdescription, Option.mem_def] at hd
    split_ifs at hd with hblank
    rw [← Option.some.inj hd]
    exact ⟨Js.trim_trim _, hblank⟩

/-- What is restored is exportable. -/
theorem nodesExportable_of_restored (hv : t.Valid) (hp : t.Proper) (hu : SamePlaces t u)
    (hlines : ∀ n ∈ t.nodes, ∀ f ∈ nodeFields t n, '\n' ∉ f.toList) (h : NodesRestored t u ids) :
    t.nodes ≠ [] ∧ ∀ n ∈ t.nodes, NodeExportable t n := by
  obtain ⟨hne, u', hall, hcontents⟩ := (nodesRestored_iff hu hlines).mp h
  refine ⟨hne, fun n hn => ?_⟩
  -- the content of the node is that of a row that some node asks for
  obtain ⟨row, hrow, hcontent⟩ :=
    List.mem_map.mp ((hcontents (nodeContent n)).mpr (List.mem_map.mpr ⟨n, hn, rfl⟩))
  obtain ⟨n', hn', hask⟩ := exists_of_mem_left (restoredNodes_rows hu hall).flip hrow
  have hask : Asks t (nodeFields t n') (nodeContent row) := hask
  rw [hcontent] at hask
  exact nodeExportable_of_asks hv hp (hp.nodes n' ((findAllNodes_perm t).mem_iff.mp hn')).2 hask

/-! ## What is exportable is restored -/

theorem supported_name (d : OpcUaDataType) : Js.trim d.name = d.name ∧ supported d.name = some d := by
  cases d <;> decide

/-- The row of an exportable node asks for its content. -/
theorem NodeExportable.asks (hv : t.Valid) (hp : t.Proper) (hbounded : t.Bounded) {n : NodeRow} (hn : n ∈ t.nodes)
    (hnamed : Js.trim n.name ≠ "") (h : NodeExportable t n) : Asks t (nodeFields t n) (nodeContent n) := by
  obtain ⟨r, hr, hid⟩ := namespace_of_node hv hn
  have hnsField : (nodeFields t n).getD 1 "" = r.name := by
    simp [nodeFields, (namespaceName_eq_some hv).mpr ⟨r, hr, hid, rfl⟩]
  have hpath : n.objectNodeId =
      (findObjectNodeByPath t n.namespaceId (Js.trim (getObjectNodePath t n.objectNodeId))).filter (· ≠ "") ∧
      (Js.trim (getObjectNodePath t n.objectNodeId) ≠ "" → n.objectNodeId ≠ none) := by
    cases hobject : n.objectNodeId with
    | none => exact ⟨rfl, fun hne => absurd rfl hne⟩
    | some id =>
        have hkey := (hv.nodeKeys n hn).2
        rw [hobject] at hkey
        obtain ⟨o, ho, hoid⟩ := List.any_eq_true.mp hkey
        have hoid : o.id = id := of_decide_eq_true hoid
        have hne : id ≠ "" := hoid ▸ hp.objectNodes o ho
        obtain ⟨htrim, -, hfound⟩ := findObjectNodeByPath_path hv hp (hoid ▸ hbounded o ho) (h.path id hobject)
        have hkept : (some id).filter (· ≠ "") = some id := Option.filter_eq_some_iff.mpr ⟨rfl, decide_eq_true hne⟩
        rw [htrim, hfound]
        exact ⟨hkept.symm, fun _ => Option.some_ne_none id⟩
  obtain ⟨htype, hsupported⟩ := supported_name n.dataType
  exact
    { named := hnamed
      name := congrArg some h.name.symm
      place := ⟨n.namespaceId,
        (namespaceNamed_eq_some hv hp).mpr ⟨r, hr, by rw [hnsField, h.namespaceName r hr hid], hid⟩, rfl, hpath⟩
      supported := by
        rw [show (nodeFields t n).getD 3 "" = n.dataType.name from rfl, htype, hsupported]
        rfl
      dataType := congrArg some htype.symm
      initialValue := (importedValue_text (hp.nodes n hn).2 h.value).symm
      description := by
        rw [show (nodeFields t n).getD 5 "" = n.description.getD "" from rfl]
        cases hd : n.description with
        | none => exact hd.trans (if_pos (by decide)).symm
        | some d =>
            obtain ⟨htrimmed, hne⟩ := h.description d hd
            rw [Option.getD_some, htrimmed, if_neg hne]
            exact hd }

/-- The row that stands for a node after the import. -/
def restoredNode (ids : Nat → String) (p : NodeRow × Nat) : NodeRow := { p.1 with id := ids p.2 }

/-- The tables when some nodes have been restored. -/
def restoredNodes (u : Tables) (ids : Nat → String) (pre : List NodeRow) : Tables :=
  { u with nodes := pre.zipIdx.map (restoredNode ids) }

theorem valid_restoredNodes (hv : t.Valid) (hu : SamePlaces t u) (hids : Function.Injective ids)
    {pre : List NodeRow} (hpre : pre <+: findAllNodes t) : (restoredNodes u ids pre).Valid := by
  have hmem : ∀ n ∈ pre, n ∈ t.nodes := fun n hn => (findAllNodes_perm t).mem_iff.mp (hpre.subset hn)
  exact { hu.valid with
    nodeIds := Batch.nodup_numbered hids (fun _ _ => rfl) pre
    nodeNames := by
      change ((pre.zipIdx.map (restoredNode ids)).map (fun n => (n.namespaceId, n.name))).Nodup
      rw [Batch.map_numbered (fun n => (n.namespaceId, n.name)) (fun _ _ => rfl)]
      exact (((findAllNodes_perm t).map _).nodup_iff.mpr hv.nodeNames).sublist (hpre.sublist.map _)
    nodeKeys := by
      intro row hrow
      obtain ⟨p, hp, rfl⟩ := List.mem_map.mp hrow
      have hkeys := hv.nodeKeys p.1 (hmem p.1 (List.fst_mem_of_mem_zipIdx hp))
      have hnamespaces : u.hasNamespace = t.hasNamespace := by
        funext id
        rw [Tables.hasNamespace, Tables.hasNamespace, hu.namespaces]
      have hobjectNodes : u.hasObjectNode = t.hasObjectNode := by
        funext id
        rw [Tables.hasObjectNode, Tables.hasObjectNode, hu.objectNodes]
      rw [← hnamespaces, ← hobjectNodes] at hkeys
      exact hkeys
    mappingKeys := by
      intro m hm
      obtain ⟨hconnection, hnode⟩ := hu.valid.mappingKeys m hm
      refine ⟨hconnection, ?_⟩
      -- no mapping has a node, since there was none
      cases hid : m.nodeId with
      | none => rfl
      | some id =>
          rw [hid, Option.all_some, Tables.hasNode, hu.nodes] at hnode
          cases hnode }

theorem restoredNodes_snoc (pre : List NodeRow) (n : NodeRow) : (restoredNodes u ids (pre ++ [n])).nodes =
    (restoredNodes u ids pre).nodes ++ [restoredNode ids (n, pre.length)] := by
  rw [restoredNodes, restoredNodes, Batch.numbered_concat]

theorem restored_name_ne (hv : t.Valid) {n : NodeRow} {pre post : List NodeRow}
    (hall : findAllNodes t = pre ++ n :: post) : ∀ row ∈ (restoredNodes u ids pre).nodes,
    (row.namespaceId, row.name) ≠ (n.namespaceId, n.name) := by
  have hnodup := ((findAllNodes_perm t).map (fun n => (n.namespaceId, n.name))).nodup_iff.mpr hv.nodeNames
  rw [hall] at hnodup
  exact Batch.fresh_numbered (fun n : NodeRow => (n.namespaceId, n.name)) (fun _ _ => rfl) hnodup

/-- The row of an exportable node succeeds after those before it. -/
theorem restoreNode_succeeds (hv : t.Valid) (hnamed : t.NodesNamed) (hu : SamePlaces t u)
    (hids : Function.Injective ids) {n : NodeRow} (hasks : Asks t (nodeFields t n) (nodeContent n))
    {pre post : List NodeRow} (hall : findAllNodes t = pre ++ n :: post) :
    restoreNode t ids (restoredNodes u ids pre) pre.length n = some (restoredNodes u ids (pre ++ [n])) := by
  have hn : n ∈ t.nodes := (findAllNodes_perm t).mem_iff.mp (hall ▸ List.mem_append_right _ List.mem_cons_self)
  have hvalid : (restoredNodes u ids (pre ++ [n])).Valid :=
    valid_restoredNodes hv hu hids ⟨post, by rw [hall]; simp⟩
  have hsnoc : { restoredNodes u ids pre with
      nodes := (restoredNodes u ids pre).nodes ++ [restoredNode ids (n, pre.length)] } =
      restoredNodes u ids (pre ++ [n]) := by
    rw [← restoredNodes_snoc]
    rfl
  have hattempt : nodeAttempt t (pre.length + 2) (nodeFields t n) = .ok (nodeContent n) :=
    (nodeAttempt_ok_iff (by rw [length_nodeFields]; decide)).mpr hasks
  have hfree : NodeRepository.findByNameInNamespace (restoredNodes u ids pre) n.name n.namespaceId = none := by
    rw [NodeRepository.findByNameInNamespace, List.find?_eq_none]
    intro row hrow
    rw [Bool.and_eq_true, decide_eq_true_eq, decide_eq_true_eq]
    rintro ⟨hname, hns⟩
    exact restored_name_ne hv hall row hrow (Prod.ext hns hname)
  have hvalidated : NodeRepository.validateCreate (nodeContent n) = [] := by
    obtain ⟨hname, hns⟩ := hnamed n hn
    have htype : Js.truthyString (some n.dataType.name) = true ∧
        (NodeRepository.supported n.dataType.name).isSome = true := by
      cases n.dataType <;> decide
    simp [NodeRepository.validateCreate, nodeContent, NodeRepository.blank, hname, hns, htype]
  have hinsert : (restoredNodes u ids pre).insertNode (restoredNode ids (n, pre.length)) =
      .ok (restoredNodes u ids (pre ++ [n])) := by
    rw [Tables.insertNode, hsnoc]
    exact Tables.checked_eq_ok.mpr ⟨hvalid, rfl⟩
  have hcreate : NodeRepository.create (restoredNodes u ids pre) (ids pre.length) (nodeContent n) =
      .ok (restoredNodes u ids (pre ++ [n])) := by
    have hsupported : (nodeContent n).dataType.bind NodeRepository.supported = some n.dataType :=
      (supported_name n.dataType).2
    unfold NodeRepository.create
    rw [hvalidated, hsupported]
    simp only [nodeContent]
    rw [hfree, if_neg (by decide)]
    change execute (Tables.insertNode _ (restoredNode ids (n, pre.length))) = _
    rw [hinsert]
    rfl
  rw [restoreNode, hattempt, createNodeAttempt, hcreate]
  rfl

/-- What is exportable is restored. -/
theorem nodesRestored_of_exportable (hv : t.Valid) (hp : t.Proper) (hbounded : t.Bounded) (hnamed : t.NodesNamed)
    (hu : SamePlaces t u) (hids : Function.Injective ids)
    (hlines : ∀ n ∈ t.nodes, ∀ f ∈ nodeFields t n, '\n' ∉ f.toList) (hne : t.nodes ≠ [])
    (hexport : ∀ n ∈ t.nodes, NodeExportable t n) : NodesRestored t u ids := by
  refine (nodesRestored_iff hu hlines).mpr ⟨hne, ?_⟩
  have hall : Batch.all (restoreNode t ids) (restoredNodes u ids []) 0 (findAllNodes t) =
      some (restoredNodes u ids (findAllNodes t)) := by
    refine Batch.all_states fun pre n post hwhole => ?_
    have hn : n ∈ t.nodes := (findAllNodes_perm t).mem_iff.mp (hwhole ▸ List.mem_append_right _ List.mem_cons_self)
    have hasks := (hexport n hn).asks hv hp hbounded hn (hnamed n hn).1
    exact restoreNode_succeeds hv hnamed hu hids hasks hwhole
  have hstart : restoredNodes u ids [] = u := by
    have hnodes := hu.nodes
    cases u
    cases hnodes
    rfl
  rw [hstart] at hall
  refine ⟨_, hall, fun c => ?_⟩
  change c ∈ ((findAllNodes t).zipIdx.map (restoredNode ids)).map nodeContent ↔ _
  rw [Batch.map_numbered nodeContent (fun _ _ => rfl)]
  exact ((findAllNodes_perm t).map nodeContent).mem_iff

/-- **Nodes come back from their export.** Where no field has a line break, the import of the exported text into
a database with the same namespaces and object nodes restores the nodes exactly if there are some and each of
them is exportable. -/
theorem nodes_restored_iff {ops : List Operation} (hops : ∀ op ∈ ops, op.Proper) {u : Tables}
    (hu : SamePlaces (Db.reach ops) u) {ids : Nat → String} (hids : Function.Injective ids)
    (hlines : ∀ n ∈ (Db.reach ops).nodes, ∀ f ∈ nodeFields (Db.reach ops) n, '\n' ∉ f.toList) :
    NodesRestored (Db.reach ops) u ids ↔ (Db.reach ops).nodes ≠ [] ∧
      ∀ n ∈ (Db.reach ops).nodes, NodeExportable (Db.reach ops) n := by
  obtain ⟨hv, hp⟩ := reach_proper hops
  constructor
  · exact nodesExportable_of_restored hv hp hu hlines
  · rintro ⟨hne, hexport⟩
    exact nodesRestored_of_exportable hv hp (reach_bounded ops) (reach_nodesNamed ops) hu hids hlines hne hexport

/-- A namespace with an object node. -/
def placeOps : List Operation :=
  [.createNamespace "ns" ⟨"Plant", none, "urn:plant"⟩, .createObjectNode "o" ⟨"ns", none, "Line"⟩]

/-- A node of the object node. -/
def placedOps (name : String) : List Operation :=
  placeOps ++ [Operation.createNode "n" ⟨some name, some "ns", some "o", some "Boolean", some (.bool true), none⟩]

theorem placedOps_proper (name : String) : ∀ op ∈ placedOps name, op.Proper := by
  simp [placedOps, placeOps, Operation.Proper, Json.Canonical]

theorem placedOps_nodes {name : String} (h : name = "Level" ∨ name = "Level ") :
    (Db.reach (placedOps name)).nodes = [⟨"n", "ns", some "o", name, .boolean, some (.bool true), none⟩] := by
  rcases h with rfl | rfl <;> decide +kernel

theorem placedOps_samePlaces {name : String} (h : name = "Level" ∨ name = "Level ") :
    SamePlaces (Db.reach (placedOps name)) (Db.reach placeOps) where
  valid := by decide +kernel
  namespaces := by rcases h with rfl | rfl <;> decide +kernel
  objectNodes := by rcases h with rfl | rfl <;> decide +kernel
  nodes := by decide +kernel

theorem nodes_restored_one : NodesRestored (Db.reach (placedOps "Level")) (Db.reach placeOps) unaryId := by
  refine (nodes_restored_iff (placedOps_proper _) (placedOps_samePlaces (Or.inl rfl)) unaryId_injective
    (by decide +kernel)).mpr ?_
  have hnodes := placedOps_nodes (Or.inl rfl)
  have hobjects : (Db.reach (placedOps "Level")).objectNodes = [⟨"o", "ns", none, "Line"⟩] := by decide +kernel
  refine ⟨by rw [hnodes]; exact List.cons_ne_nil _ _, fun n hn => ?_⟩
  rw [hnodes] at hn
  rw [List.mem_singleton.mp hn]
  have hline : PartTold "ns" ⟨"o", "ns", none, "Line"⟩ :=
    { namespaceId := rfl, trimmed := by decide, named := by decide, noSlash := by decide }
  exact
    { name := by decide
      namespaceName := by decide +kernel
      path := by
        intro id hid r hr
        cases hr with
        | here hmem hrid =>
            rw [hobjects] at hmem
            rw [List.mem_singleton.mp hmem]
            exact hline
        | above hmem hrid hparent hs =>
            rw [hobjects] at hmem
            rw [List.mem_singleton.mp hmem] at hparent
            cases hparent
      value := by decide
      description := fun d hd => by cases hd }

/-- A node whose name ends in a blank is not restored. -/
theorem blankEnded_not_restored : (∀ op ∈ placedOps "Level ", op.Proper) ∧
    SamePlaces (Db.reach (placedOps "Level ")) (Db.reach placeOps) ∧
    ¬ NodesRestored (Db.reach (placedOps "Level ")) (Db.reach placeOps) unaryId := by
  have hplaces := placedOps_samePlaces (Or.inr rfl)
  refine ⟨placedOps_proper _, hplaces, fun h => ?_⟩
  obtain ⟨hv, hp⟩ := reach_proper (placedOps_proper "Level ")
  have hexport := (nodesExportable_of_restored hv hp hplaces (by decide +kernel) h).2
  rw [placedOps_nodes (Or.inr rfl)] at hexport
  exact absurd (hexport _ List.mem_cons_self).name (by decide)

end OpcuaLight.Api
