import Mathlib.Order.Lattice.Nat
import OpcuaLight.Db.Hierarchy
import OpcuaLight.Lib.Lineage

/-!
# The tree of a configuration

The object nodes of a namespace as `toObjectNodeConfigs` nests them: a row that has its parent in
another namespace is a root. Every row is in the tree once (`entries_perm`).
-/

namespace OpcuaLight.Config

open Db

mutual

/-- The paths of an object node entry and of all entries below it. -/
def ObjectNodeConfig.paths : ObjectNodeConfig → List String
  | .mk _ path children => path :: pathsAll children

def pathsAll : List ObjectNodeConfig → List String
  | [] => []
  | c :: cs => c.paths ++ pathsAll cs

end

mutual

/-- The names and paths of an entry and of all entries below it. -/
def ObjectNodeConfig.entries : ObjectNodeConfig → List (String × String)
  | .mk name path children => (name, path) :: entriesAll children

def entriesAll : List ObjectNodeConfig → List (String × String)
  | [] => []
  | c :: cs => c.entries ++ entriesAll cs

end

/-- The name and the path of the entry of a row. -/
def configEntry (rows : List ObjectNodeRow) (namespaceName : String) (r : ObjectNodeRow) : String × String :=
  (r.name, computeObjectNodePath r.id rows namespaceName)

/-- The row of the parent, if it is among the rows. -/
def parentRow (rows : List ObjectNodeRow) (r : ObjectNodeRow) : Option ObjectNodeRow :=
  r.parentObjectNodeId.bind (fun p => rows.find? (fun q => q.id = p))

/-- How far the row is from its root. -/
noncomputable def rank (rows : List ObjectNodeRow) (r : ObjectNodeRow) : Nat :=
  sInf {n | ReachesRoot (detach rows) (n + 1) r.id}

theorem parentRow_eq_some {rows : List ObjectNodeRow} (hn : (rows.map (fun r => r.id)).Nodup)
    {r q : ObjectNodeRow} : parentRow rows r = some q ↔ q ∈ rows ∧ r.parentObjectNodeId = some q.id := by
  unfold parentRow
  rw [Option.bind_eq_some_iff]
  constructor
  · rintro ⟨p, hp, hq⟩
    have hid : q.id = p := by simpa using List.find?_some hq
    exact ⟨List.mem_of_find?_eq_some hq, hid ▸ hp⟩
  · rintro ⟨hq, hp⟩
    exact ⟨q.id, hp, (Rows.find?_eq_some (fun r : ObjectNodeRow => r.id) hn).mpr ⟨hq, rfl⟩⟩

theorem parentRow_eq_none {rows : List ObjectNodeRow} {r : ObjectNodeRow} :
    parentRow rows r = none ↔ ∀ p, r.parentObjectNodeId = some p → ∀ q ∈ rows, q.id ≠ p := by
  unfold parentRow
  rw [Option.bind_eq_none_iff]
  refine forall₂_congr fun p _ => ?_
  simp [List.find?_eq_none]

theorem parentRow_detach {rows : List ObjectNodeRow} (hn : (rows.map (fun r => r.id)).Nodup)
    (r : ObjectNodeRow) :
    (if r.parentObjectNodeId.all (fun p => rows.any (fun q => q.id = p)) then r
      else { r with parentObjectNodeId := none }).parentObjectNodeId =
    (parentRow rows r).map (fun q => q.id) := by
  cases hp : parentRow rows r with
  | some q =>
      obtain ⟨hq, hpar⟩ := (parentRow_eq_some hn).mp hp
      have hthere : r.parentObjectNodeId.all (fun p => rows.any (fun q => q.id = p)) = true := by
        rw [hpar]
        simpa using ⟨q, hq, rfl⟩
      rw [if_pos hthere, hpar]
      rfl
  | none =>
      have hmiss := parentRow_eq_none.mp hp
      cases hpar : r.parentObjectNodeId with
      | none => simp [hpar]
      | some p =>
          have hnot : ¬(rows.any (fun q => q.id = p) = true) := by simpa using hmiss p hpar
          rw [if_neg (by simpa using hnot)]
          rfl

/-- The way up from a row goes on from its parent. -/
theorem reachesRoot_detach {rows : List ObjectNodeRow} (hn : (rows.map (fun r => r.id)).Nodup)
    {r : ObjectNodeRow} (hr : r ∈ rows) (n : Nat) : ReachesRoot (detach rows) (n + 1) r.id ↔
      ∀ q, parentRow rows r = some q → ReachesRoot (detach rows) n q.id := by
  have hlink := parentRow_detach hn r
  have hrow := List.mem_map_of_mem (f := fun r => if r.parentObjectNodeId.all (fun p =>
    rows.any (fun q => q.id = p)) then r else { r with parentObjectNodeId := none }) hr
  constructor
  · rintro ⟨s', hs', hid, hup⟩ q hq
    obtain ⟨s, hs, rfl⟩ := List.mem_map.mp hs'
    have hsid : s.id = r.id := by
      rw [← hid]
      split_ifs <;> rfl
    obtain rfl : s = r := List.inj_on_of_nodup_map hn hs hr hsid
    refine hup q.id ?_
    rw [hlink, hq]
    rfl
  · intro h
    refine ⟨_, hrow, by split_ifs <;> rfl, fun p hp => ?_⟩
    rw [hlink] at hp
    obtain ⟨q, hq, rfl⟩ := Option.map_eq_some_iff.mp hp
    exact h q hq

theorem rank_mem {rows : List ObjectNodeRow} {r : ObjectNodeRow} {n : Nat}
    (h : ReachesRoot (detach rows) n r.id) : ReachesRoot (detach rows) (rank rows r + 1) r.id := by
  cases n with
  | zero => exact absurd h id
  | succ n => exact Nat.sInf_mem (s := {n | ReachesRoot (detach rows) (n + 1) r.id}) ⟨n, h⟩

/-- The rows of a namespace are a tree as the generator reads them. -/
theorem lineage {rows : List ObjectNodeRow} (hn : (rows.map (fun r => r.id)).Nodup)
    (hup : ∀ r ∈ rows, ReachesRoot (detach rows) rows.length r.id) :
    Lineage rows (rootRows rows) (fun r => childRows rows r.id) (parentRow rows) (rank rows) where
  rows_nodup := List.Nodup.of_map _ hn
  roots_nodup := (List.Nodup.of_map _ hn).filter _
  children_nodup r := (List.Nodup.of_map _ hn).filter _
  mem_roots {r} := by
    unfold rootRows
    rw [List.mem_filter, parentRow_eq_none]
    refine and_congr_right fun _ => ?_
    cases r.parentObjectNodeId <;> simp
  mem_children {r s} hr := by
    unfold childRows
    rw [List.mem_filter, parentRow_eq_some hn]
    simp [hr]
  parent_mem {r s} _ hp := ((parentRow_eq_some hn).mp hp).1
  rank_root {r} hr hp := by
    have hzero : ReachesRoot (detach rows) (0 + 1) r.id :=
      (reachesRoot_detach hn hr 0).mpr fun q hq => absurd (hp.symm.trans hq) nofun
    exact Nat.sInf_eq_zero.mpr (Or.inl hzero)
  rank_child {r s} hs hp := by
    have hr := ((parentRow_eq_some hn).mp hp).1
    have hstep : ∀ n, ReachesRoot (detach rows) (n + 1) s.id ↔ ReachesRoot (detach rows) n r.id := by
      intro n
      rw [reachesRoot_detach hn hs]
      refine ⟨fun h => h r hp, fun h q hq => ?_⟩
      rw [← Option.some.inj (hp.symm.trans hq)]
      exact h
    have hr' : ReachesRoot (detach rows) (rank rows r + 1) r.id := rank_mem (hup r hr)
    have hs' : ReachesRoot (detach rows) (rank rows s + 1) s.id := rank_mem (hup s hs)
    apply Nat.le_antisymm
    · exact Nat.sInf_le ((hstep _).mpr hr')
    · cases hk : rank rows s with
      | zero =>
          rw [hk] at hs'
          exact absurd ((hstep 0).mp hs') id
      | succ k =>
          rw [hk] at hs'
          exact Nat.succ_le_succ (Nat.sInf_le ((hstep _).mp hs'))

theorem entriesAll_eq (cs : List ObjectNodeConfig) : entriesAll cs = cs.flatMap ObjectNodeConfig.entries := by
  induction cs with
  | nil => rw [entriesAll, List.flatMap_nil]
  | cons c cs ih => rw [entriesAll, ih, List.flatMap_cons]

mutual

theorem ObjectNodeConfig.paths_eq : ∀ c : ObjectNodeConfig, c.paths = c.entries.map Prod.snd
  | .mk _ _ children => by
      rw [ObjectNodeConfig.paths, ObjectNodeConfig.entries, pathsAll_eq children]
      rfl

theorem pathsAll_eq : ∀ cs : List ObjectNodeConfig, pathsAll cs = (entriesAll cs).map Prod.snd
  | [] => rfl
  | c :: cs => by rw [pathsAll, entriesAll, List.map_append, c.paths_eq, pathsAll_eq cs]

end

/-- The entry of a row stands before those of the rows below it. -/
theorem entries_toObjectNodeConfig (rows : List ObjectNodeRow) (namespaceName : String) (fuel : Nat)
    (r : ObjectNodeRow) : (toObjectNodeConfig rows namespaceName fuel r).entries =
      (descendants (fun r => childRows rows r.id) fuel r).map (configEntry rows namespaceName) := by
  induction fuel generalizing r with
  | zero =>
      rw [toObjectNodeConfig, ObjectNodeConfig.entries, entriesAll]
      rfl
  | succ fuel ih =>
      rw [toObjectNodeConfig, ObjectNodeConfig.entries, entriesAll_eq, descendants, List.map_cons,
        List.map_flatMap, List.flatMap_map]
      exact congrArg _ (List.flatMap_congr fun c _ => ih c)

theorem entries_toObjectNodeConfigs (rows : List ObjectNodeRow) (namespaceName : String) :
    entriesAll (toObjectNodeConfigs rows namespaceName) =
      ((rootRows rows).flatMap (descendants (fun r => childRows rows r.id) rows.length)).map
        (configEntry rows namespaceName) := by
  rw [entriesAll_eq, toObjectNodeConfigs, List.flatMap_map, List.map_flatMap]
  exact List.flatMap_congr fun r _ => entries_toObjectNodeConfig rows namespaceName rows.length r

theorem rank_le {rows : List ObjectNodeRow}
    (hup : ∀ r ∈ rows, ReachesRoot (detach rows) rows.length r.id) : ∀ r ∈ rows, rank rows r ≤ rows.length := by
  intro r hr
  cases hl : rows.length with
  | zero => exact absurd (List.length_pos_of_mem hr) (by omega)
  | succ n =>
      have hway := hup r hr
      rw [hl] at hway
      exact (Nat.sInf_le hway).trans (Nat.le_succ n)

/-- The entries in the tree of a namespace are those of its rows, each once. -/
theorem entries_perm {rows : List ObjectNodeRow} (hn : (rows.map (fun r => r.id)).Nodup)
    (hup : ∀ r ∈ rows, ReachesRoot (detach rows) rows.length r.id) (namespaceName : String) :
    (entriesAll (toObjectNodeConfigs rows namespaceName)).Perm (rows.map (configEntry rows namespaceName)) := by
  rw [entries_toObjectNodeConfigs]
  exact ((lineage hn hup).descendants_perm (rank_le hup)).map _

theorem paths_toObjectNodeConfigs {rows : List ObjectNodeRow} (hn : (rows.map (fun r => r.id)).Nodup)
    (hup : ∀ r ∈ rows, ReachesRoot (detach rows) rows.length r.id) (namespaceName : String) :
    (pathsAll (toObjectNodeConfigs rows namespaceName)).Perm
      (rows.map (fun r => computeObjectNodePath r.id rows namespaceName)) := by
  have hentries := (entries_perm hn hup namespaceName).map Prod.snd
  rw [List.map_map] at hentries
  rw [pathsAll_eq]
  exact hentries

/-- In every state the way up from some of the rows ends within them. -/
theorem way_of_subset (ops : List Operation) {rows : List ObjectNodeRow}
    (hrows : rows ⊆ (reach ops).objectNodes) :
    ∀ r ∈ rows, ReachesRoot (detach rows) rows.length r.id := by
  intro r hr
  have hin := (reach_bounded ops r (hrows hr)).detach (reach_valid ops).objectNodeIds hrows ⟨r, hr, rfl⟩
  have hlen : (detach rows).length = rows.length := List.length_map _
  rw [← hlen]
  exact hin.length

/-- In every state the rows of a namespace lead to its roots. -/
theorem buildObjectNodeTree_way (ops : List Operation) (namespaceId : String) :
    ∀ r ∈ buildObjectNodeTree (reach ops) namespaceId,
      ReachesRoot (detach (buildObjectNodeTree (reach ops) namespaceId))
        (buildObjectNodeTree (reach ops) namespaceId).length r.id :=
  way_of_subset ops (namespaceRows_subset _ _)

theorem join_concat (name : String) (names : List String) (last : String) :
    join (name :: (names ++ [last])) "." = join (name :: names) "." ++ "." ++ last := by
  have h := String.intercalate_append_of_ne_nil (s := ".") (List.cons_ne_nil name names)
    (List.cons_ne_nil last [])
  rw [String.intercalate_singleton] at h
  exact h

end OpcuaLight.Config
