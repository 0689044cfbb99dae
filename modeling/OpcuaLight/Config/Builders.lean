import OpcuaLight.Config.Tree
import OpcuaLight.Db.Proper
import OpcuaLight.Lib.RoseTree

/-!
# The two tree builders

`ObjectNodeRepository.buildTree` and `ConfigGenerator.toObjectNodeConfigs` with their two passes over the rows,
and the walk upwards that gives each entry its path. The forests have every row of the namespace once
and agree with each other and with the paths (`builders_exact`).
-/

namespace OpcuaLight

open Db

/-! ## `object-node-repository.ts` -/

namespace Db.ObjectNodeRepository

/-- The tree of an object node: the fields of its row, and its children. -/
abbrev ObjectNode := RoseTree ObjectNodeRow

def buildTree (rows : List ObjectNodeRow) : List ObjectNode :=
  RoseTree.build (fun r => r.id) (fun r => r.parentObjectNodeId) id rows

def findTreeByNamespace (t : Tables) (namespaceId : String) : List ObjectNode :=
  buildTree (orderBy (fun r => r.name) (t.objectNodes.filter (fun r => r.namespaceId = namespaceId)))

end Db.ObjectNodeRepository

/-! ## `config-generator/index.ts` -/

namespace Config

mutual

/-- The object of the configuration with this name, path and children. -/
def toConfig : RoseTree (String × String) → ObjectNodeConfig
  | .node e ts => .mk e.1 e.2 (toConfigs ts)

def toConfigs : List (RoseTree (String × String)) → List ObjectNodeConfig
  | [] => []
  | t :: ts => toConfig t :: toConfigs ts

end

namespace ConfigGenerator

/-- `toObjectNodeConfigs` as it is, with its two passes. -/
def toObjectNodeConfigs (rows : List ObjectNodeRow) (namespaceName : String) : List ObjectNodeConfig :=
  toConfigs (RoseTree.build (fun r => r.id) (fun r => r.parentObjectNodeId)
    (configEntry rows namespaceName) rows)

end ConfigGenerator

mutual

/-- The path of the entry goes on from the path above it with its name, and so for all entries below it. -/
def ObjectNodeConfig.PathsBelow (above : String) : ObjectNodeConfig → Prop
  | .mk name path children => path = above ++ "." ++ name ∧ pathsBelowAll path children

def pathsBelowAll (above : String) : List ObjectNodeConfig → Prop
  | [] => True
  | c :: cs => c.PathsBelow above ∧ pathsBelowAll above cs

end

theorem toConfigs_eq (ts : List (RoseTree (String × String))) : toConfigs ts = ts.map toConfig := by
  induction ts with
  | nil => rw [toConfigs, List.map_nil]
  | cons t ts ih => rw [toConfigs, ih, List.map_cons]

theorem pathsBelowAll_iff {above : String} {cs : List ObjectNodeConfig} :
    pathsBelowAll above cs ↔ ∀ c ∈ cs, c.PathsBelow above := by
  induction cs with
  | nil => exact iff_of_true trivial nofun
  | cons c cs ih => rw [pathsBelowAll, ih, List.forall_mem_cons]

variable {rows : List ObjectNodeRow}

/-! ## The forests -/

theorem toConfig_grow (namespaceName : String) (n : Nat) (r : ObjectNodeRow) :
    toConfig (RoseTree.grow (configEntry rows namespaceName) (fun r => childRows rows r.id) n r) =
      toObjectNodeConfig rows namespaceName n r := by
  induction n generalizing r with
  | zero => rw [RoseTree.grow, toConfig, toConfigs, toObjectNodeConfig]; rfl
  | succ n ih =>
      rw [RoseTree.grow, toConfig, toConfigs_eq, List.map_map, toObjectNodeConfig]
      exact congrArg _ (List.map_congr_left fun c _ => ih c)

/-- The two passes give the tree of the configuration. -/
theorem toObjectNodeConfigs_eq (hn : (rows.map (fun r => r.id)).Nodup) (namespaceName : String) :
    ConfigGenerator.toObjectNodeConfigs rows namespaceName = toObjectNodeConfigs rows namespaceName := by
  rw [ConfigGenerator.toObjectNodeConfigs, RoseTree.build_eq hn, toConfigs_eq, List.map_map,
    toObjectNodeConfigs]
  exact List.map_congr_left fun r _ => toConfig_grow namespaceName rows.length r

/-- The forest of the configuration is that of the repository, entry by entry. -/
theorem toObjectNodeConfigs_buildTree (hn : (rows.map (fun r => r.id)).Nodup) (namespaceName : String) :
    ConfigGenerator.toObjectNodeConfigs rows namespaceName =
      toConfigs (RoseTree.mapAll (configEntry rows namespaceName) (ObjectNodeRepository.buildTree rows)) := by
  rw [ConfigGenerator.toObjectNodeConfigs, ObjectNodeRepository.buildTree, RoseTree.build_eq hn,
    RoseTree.build_eq hn, RoseTree.mapAll_eq, List.map_map]
  congr 1
  exact List.map_congr_left fun r _ => (RoseTree.map_grow _ _ rows.length r).symm

/-- Both forests have the rows in the same order. -/
theorem entries_buildTree (hn : (rows.map (fun r => r.id)).Nodup) (namespaceName : String) :
    entriesAll (toObjectNodeConfigs rows namespaceName) =
      (RoseTree.entriesAll (ObjectNodeRepository.buildTree rows)).map (configEntry rows namespaceName) := by
  rw [entries_toObjectNodeConfigs, ObjectNodeRepository.buildTree, RoseTree.build_eq hn, RoseTree.entriesAll_eq,
    List.flatMap_map]
  exact congrArg _ (List.flatMap_congr fun r _ => (RoseTree.entries_grow _ _ r).symm)

theorem buildTree_exact (hn : (rows.map (fun r => r.id)).Nodup)
    (hup : ∀ r ∈ rows, ReachesRoot (detach rows) rows.length r.id) :
    RoseTree.Exact (fun r => r.id) (fun r => r.parentObjectNodeId) rows
      (ObjectNodeRepository.buildTree rows) :=
  RoseTree.exact_build hn (lineage hn hup) (rank_le hup)

/-! ## The paths -/

/-- The path of a row whose parent is not among the rows. -/
theorem path_root (hn : (rows.map (fun r => r.id)).Nodup) (hids : ∀ r ∈ rows, r.id ≠ "")
    {r : ObjectNodeRow} (hr : r ∈ rows) (hroot : parentRow rows r = none) (namespaceName : String) :
    computeObjectNodePath r.id rows namespaceName = namespaceName ++ "." ++ r.name := by
  have hfind : rows.find? (fun q => q.id = r.id) = some r :=
    (Rows.find?_eq_some (fun r : ObjectNodeRow => r.id) hn).mpr ⟨hr, rfl⟩
  have hparts : pathParts rows rows.length r.id = [] ++ [r.name] := by
    obtain ⟨n, hlen⟩ := Nat.exists_eq_succ_of_ne_zero (List.length_pos_of_mem hr).ne'
    rw [hlen, pathParts, if_neg (hids r hr), hfind]
    cases hp : r.parentObjectNodeId with
    | none => simp only [hp, List.nil_append]
    | some p => simp only [hp, pathParts_missing (parentRow_eq_none.mp hroot p hp)]
  rw [computeObjectNodePath, hparts, join_concat, join, String.intercalate_singleton]

/-- The path of a row goes on from that of its parent. -/
theorem path_child (hn : (rows.map (fun r => r.id)).Nodup) (hids : ∀ r ∈ rows, r.id ≠ "")
    (hup : ∀ r ∈ rows, ReachesRoot (detach rows) rows.length r.id) {r q : ObjectNodeRow} (hr : r ∈ rows)
    (hq : parentRow rows r = some q) (namespaceName : String) :
    computeObjectNodePath r.id rows namespaceName =
      computeObjectNodePath q.id rows namespaceName ++ "." ++ r.name := by
  obtain ⟨hqrows, hpar⟩ := (parentRow_eq_some hn).mp hq
  have hfind : rows.find? (fun q => q.id = r.id) = some r :=
    (Rows.find?_eq_some (fun r : ObjectNodeRow => r.id) hn).mpr ⟨hr, rfl⟩
  have hparts : pathParts rows rows.length r.id = pathParts rows rows.length q.id ++ [r.name] := by
    have hway := hup r hr
    obtain ⟨n, hlen⟩ := Nat.exists_eq_succ_of_ne_zero (List.length_pos_of_mem hr).ne'
    rw [hlen] at hway ⊢
    have hshort : ReachesRoot (detach rows) n q.id := (reachesRoot_detach hn hr n).mp hway q hq
    rw [hshort.pathParts hn (n + 1) (Nat.le_succ n), pathParts, if_neg (hids r hr), hfind]
    simp only [hpar]
  rw [computeObjectNodePath, hparts, join_concat, computeObjectNodePath]

theorem pathsBelow_toObjectNodeConfig (hn : (rows.map (fun r => r.id)).Nodup)
    (hids : ∀ r ∈ rows, r.id ≠ "") (hup : ∀ r ∈ rows, ReachesRoot (detach rows) rows.length r.id)
    (namespaceName above : String) (n : Nat) {r : ObjectNodeRow} (hr : r ∈ rows)
    (hpath : computeObjectNodePath r.id rows namespaceName = above ++ "." ++ r.name) :
    (toObjectNodeConfig rows namespaceName n r).PathsBelow above := by
  induction n generalizing r above with
  | zero =>
      rw [toObjectNodeConfig, ObjectNodeConfig.PathsBelow, pathsBelowAll]
      exact ⟨hpath, trivial⟩
  | succ n ih =>
      rw [toObjectNodeConfig, ObjectNodeConfig.PathsBelow, pathsBelowAll_iff]
      refine ⟨hpath, fun c hc => ?_⟩
      obtain ⟨s, hs, rfl⟩ := List.mem_map.mp hc
      obtain ⟨hsrows, hpar⟩ : s ∈ rows ∧ s.parentObjectNodeId = some r.id := by
        simpa [childRows] using hs
      exact ih _ hsrows (path_child hn hids hup hsrows ((parentRow_eq_some hn).mpr ⟨hr, hpar⟩) _)

/-- Every path of the forest goes on from the path of the parent's entry, or from the namespace name. -/
theorem pathsBelow_toObjectNodeConfigs (hn : (rows.map (fun r => r.id)).Nodup)
    (hids : ∀ r ∈ rows, r.id ≠ "") (hup : ∀ r ∈ rows, ReachesRoot (detach rows) rows.length r.id)
    (namespaceName : String) : pathsBelowAll namespaceName (toObjectNodeConfigs rows namespaceName) := by
  rw [pathsBelowAll_iff]
  intro c hc
  obtain ⟨r, hr, rfl⟩ := List.mem_map.mp hc
  obtain ⟨hrows, hroot⟩ := (lineage hn hup).mem_roots.mp hr
  exact pathsBelow_toObjectNodeConfig hn hids hup namespaceName namespaceName rows.length hrows
    (path_root hn hids hrows hroot namespaceName)

/-- The path of the parent of a variable is the namespace name or the path of an entry. -/
theorem parentPath_mem (hn : (rows.map (fun r => r.id)).Nodup)
    (hup : ∀ r ∈ rows, ReachesRoot (detach rows) rows.length r.id) (namespaceName : String) (node : NodeRow) :
    parentPath rows namespaceName node = namespaceName ∨
      parentPath rows namespaceName node ∈ pathsAll (toObjectNodeConfigs rows namespaceName) := by
  unfold parentPath
  split
  · exact Or.inl rfl
  · rename_i id hid
    split_ifs with hempty
    · exact Or.inl rfl
    · by_cases hin : ∃ q ∈ rows, q.id = id
      · obtain ⟨q, hq, rfl⟩ := hin
        refine Or.inr (((paths_toObjectNodeConfigs hn hup namespaceName).mem_iff).mpr ?_)
        exact List.mem_map_of_mem hq
      -- the object node is in another namespace
      · have hmissing : ∀ q ∈ rows, q.id ≠ id := fun q hq he => hin ⟨q, hq, he⟩
        left
        rw [computeObjectNodePath, pathParts_missing hmissing, join, String.intercalate_singleton]

/-! ## Every state -/

theorem objectNodeIds_apply {t : Tables} (hv : t.Valid) (h : ∀ r ∈ t.objectNodes, r.id ≠ "")
    {op : Operation} (hop : ∀ id input, op = .createObjectNode id input → id ≠ "") :
    ∀ r ∈ (apply t op).objectNodes, r.id ≠ "" := by
  by_cases hon : op.onObjectNodes = true
  · rcases apply_cases t op with he | hdid
    · rw [he]
      exact h
    · cases op with
      | deleteNamespace id =>
          rw [cascaded_of_ok hv hdid]
          exact forall_mem_map (fun r hr => h r (List.mem_of_mem_filter hr)) fun _ hr => hr
      | createObjectNode id input =>
          rw [checked_ok hdid.2]
          exact forall_mem_concat h (hop id input rfl)
      | deleteObjectNode id =>
          obtain ⟨x, t₁, -, h₁, hrest⟩ := hdid
          have hids₁ : ∀ r ∈ t₁.objectNodes, r.id ≠ "" := by
            rw [checked_ok h₁]
            exact h
          rcases hrest with he | ⟨t₂, h₂, hrest⟩
          · rw [he]
            exact hids₁
          · have hids₂ : ∀ r ∈ t₂.objectNodes, r.id ≠ "" := by
              rw [checked_ok h₂]
              exact forall_mem_map hids₁ fun r hr => by split_ifs <;> exact hr
            rcases hrest with he | h₃
            · rw [he]
              exact hids₂
            · rw [checked_ok h₃]
              exact forall_mem_map (fun r hr => hids₂ r (List.mem_of_mem_filter hr))
                fun r hr => by split_ifs <;> exact hr
      | _ => cases hon
  · rw [apply_objectNodes t (Bool.eq_false_iff.mpr hon)]
    exact h

/-- No object node has the empty id, if none is drawn. -/
theorem reach_objectNodeIds {ops : List Operation}
    (hids : ∀ id input, Operation.createObjectNode id input ∈ ops → id ≠ "") :
    ∀ r ∈ (reach ops).objectNodes, r.id ≠ "" :=
  (Machine.run_invariant (I := fun t : Tables => t.Valid ∧ ∀ r ∈ t.objectNodes, r.id ≠ "")
    (fun _ op hop h => ⟨valid_apply h.1 op, objectNodeIds_apply h.1 h.2 hop⟩)
    (Machine.guarded_of_forall _ fun _ hop id input he => hids id input (he ▸ hop))
    ⟨valid_empty false, nofun⟩).2

/-- **Both tree builders are exact.** In every state, for the rows of a namespace in any order: the forest
of the repository has each row once, under its parent if that is in the namespace and at the root otherwise,
with siblings in the order of the rows; the forest of the configuration is the same with the names and the
paths of the rows, has these in the same order and each once; each path goes on from that of the parent's
entry, or from the name of the namespace; and the parent path of each variable is the name of the namespace
or the path of an entry. -/
theorem builders_exact (ops : List Operation)
    (hids : ∀ id input, Operation.createObjectNode id input ∈ ops → id ≠ "")
    (namespaceId namespaceName : String) (rows : List ObjectNodeRow)
    (hrows : rows.Perm ((reach ops).objectNodes.filter (fun r => r.namespaceId = namespaceId))) :
    RoseTree.Exact (fun r => r.id) (fun r => r.parentObjectNodeId) rows
        (ObjectNodeRepository.buildTree rows) ∧
      ConfigGenerator.toObjectNodeConfigs rows namespaceName =
        toConfigs (RoseTree.mapAll (configEntry rows namespaceName) (ObjectNodeRepository.buildTree rows)) ∧
      entriesAll (ConfigGenerator.toObjectNodeConfigs rows namespaceName) =
        (RoseTree.entriesAll (ObjectNodeRepository.buildTree rows)).map (configEntry rows namespaceName) ∧
      (entriesAll (ConfigGenerator.toObjectNodeConfigs rows namespaceName)).Perm
        (rows.map (configEntry rows namespaceName)) ∧
      pathsBelowAll namespaceName (ConfigGenerator.toObjectNodeConfigs rows namespaceName) ∧
      ∀ nsIndex entries, buildNodes (reach ops) namespaceId namespaceName nsIndex rows = some entries →
        ∀ entry ∈ entries, entry.parentPath = namespaceName ∨
          entry.parentPath ∈ pathsAll (ConfigGenerator.toObjectNodeConfigs rows namespaceName) := by
  have hsub : rows ⊆ (reach ops).objectNodes := fun r hr =>
    List.mem_of_mem_filter (hrows.mem_iff.mp hr)
  have hn : (rows.map (fun r => r.id)).Nodup := (hrows.map _).nodup_iff.mpr
    ((reach_valid ops).objectNodeIds.sublist (List.filter_sublist.map _))
  have hup := way_of_subset ops hsub
  have hne : ∀ r ∈ rows, r.id ≠ "" := fun r hr => reach_objectNodeIds hids r (hsub hr)
  refine ⟨buildTree_exact hn hup, toObjectNodeConfigs_buildTree hn namespaceName, ?_, ?_, ?_, ?_⟩
  · rw [toObjectNodeConfigs_eq hn]
    exact entries_buildTree hn namespaceName
  · rw [toObjectNodeConfigs_eq hn]
    exact entries_perm hn hup namespaceName
  · rw [toObjectNodeConfigs_eq hn]
    exact pathsBelow_toObjectNodeConfigs hn hne hup namespaceName
  · intro nsIndex entries hentries entry hentry
    obtain ⟨mappings, -, rfl⟩ := Option.map_eq_some_iff.mp hentries
    obtain ⟨node, -, rfl⟩ := List.mem_map.mp hentry
    rw [toObjectNodeConfigs_eq hn]
    exact parentPath_mem hn hup namespaceName node

/-- A child that comes before its parent, and one whose parent is in another namespace. -/
def cellsOps : List Operation :=
  [.createNamespace "n1" ⟨"Plant", none, "urn:plant"⟩, .createNamespace "n2" ⟨"Line", none, "urn:line"⟩,
   .createObjectNode "o1" ⟨"n1", none, "Hall"⟩, .createObjectNode "o2" ⟨"n1", some "o1", "Cell"⟩,
   .createObjectNode "o3" ⟨"n2", none, "Belt"⟩, .createObjectNode "o4" ⟨"n1", some "o3", "Drive"⟩]

def cellsRows : List ObjectNodeRow :=
  [⟨"o2", "n1", some "o1", "Cell"⟩, ⟨"o4", "n1", some "o3", "Drive"⟩, ⟨"o1", "n1", none, "Hall"⟩]

theorem builders_exact_cells :
    (∀ id input, Operation.createObjectNode id input ∈ cellsOps → id ≠ "") ∧
    cellsRows.Perm ((reach cellsOps).objectNodes.filter (fun r => r.namespaceId = "n1")) ∧
    pathsBelowAll "Plant" (ConfigGenerator.toObjectNodeConfigs cellsRows "Plant") := by
  have hids : ∀ id input, Operation.createObjectNode id input ∈ cellsOps → id ≠ "" := by
    intro id input hmem
    simp only [cellsOps, List.mem_cons, Operation.createObjectNode.injEq, reduceCtorEq, false_or,
      List.not_mem_nil, or_false] at hmem
    rcases hmem with ⟨rfl, -⟩ | ⟨rfl, -⟩ | ⟨rfl, -⟩ | ⟨rfl, -⟩ <;> decide
  have hrows : cellsRows.Perm ((reach cellsOps).objectNodes.filter (fun r => r.namespaceId = "n1")) := by
    decide
  exact ⟨hids, hrows, (builders_exact cellsOps hids "n1" "Plant" cellsRows hrows).2.2.2.2.1⟩

end Config

end OpcuaLight
