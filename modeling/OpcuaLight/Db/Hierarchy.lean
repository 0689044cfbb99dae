import OpcuaLight.Api.AddressSpace
import OpcuaLight.Config.Generator
import OpcuaLight.Db.Reachable
import OpcuaLight.Lib.Rows

/-!
# The hierarchy of the object nodes

`ReachesRoot rows n id`: following the parents from the row `id` ends at a row without one, within `n`
rows. Every statement on `object_nodes` keeps this, and creation checks it, so that it holds with five
(`reach_bounded`) and the three loops that follow the parents end (`hierarchy_bounded`).
-/

namespace OpcuaLight.Db

/-- A row without a parent is found within `n` rows, starting with the row `id`. -/
def ReachesRoot (rows : List ObjectNodeRow) : Nat → String → Prop
  | 0, _ => False
  | n + 1, id => ∃ r ∈ rows, r.id = id ∧ ∀ p, r.parentObjectNodeId = some p → ReachesRoot rows n p

theorem ReachesRoot.succ {rows : List ObjectNodeRow} : ∀ {n : Nat} {id : String},
    ReachesRoot rows n id → ReachesRoot rows (n + 1) id
  | _ + 1, _, ⟨r, hr, hid, hp⟩ => ⟨r, hr, hid, fun p h => (hp p h).succ⟩

theorem ReachesRoot.mono {rows : List ObjectNodeRow} {n m : Nat} {id : String}
    (h : ReachesRoot rows n id) (hnm : n ≤ m) : ReachesRoot rows m id := by
  induction hnm with
  | refl => exact h
  | step _ ih => exact ih.succ

theorem ReachesRoot.subset {rows rows' : List ObjectNodeRow} (hsub : rows ⊆ rows') :
    ∀ {n : Nat} {id : String}, ReachesRoot rows n id → ReachesRoot rows' n id
  | _ + 1, _, ⟨r, hr, hid, hp⟩ => ⟨r, hsub hr, hid, fun p h => (hp p h).subset hsub⟩

/-- The way up avoids the row `k`, or goes on from it. -/
theorem ReachesRoot.cut {rows : List ObjectNodeRow} (k : String) : ∀ {n : Nat} {id : String},
    ReachesRoot rows n id →
      ReachesRoot (rows.filter (fun r => r.id ≠ k)) n id ∨ ∃ m ≤ n, ReachesRoot rows m k
  | n + 1, id, ⟨r, hr, hid, hp⟩ => by
      by_cases hk : r.id = k
      · exact Or.inr ⟨n + 1, Nat.le_refl _, r, hr, hk, hp⟩
      · have hmem : r ∈ rows.filter (fun r => r.id ≠ k) := List.mem_filter.mpr ⟨hr, by simpa using hk⟩
        cases hpar : r.parentObjectNodeId with
        | none => exact Or.inl ⟨r, hmem, hid, fun p h => absurd (hpar.symm.trans h) nofun⟩
        | some p =>
            rcases (hp p hpar).cut k with hleft | ⟨m, hm, hright⟩
            · refine Or.inl ⟨r, hmem, hid, fun p' h => ?_⟩
              rw [← Option.some.inj (hpar.symm.trans h)]
              exact hleft
            · exact Or.inr ⟨m, Nat.le_succ_of_le hm, hright⟩

/-- There are as many rows as the way up needs. -/
theorem ReachesRoot.length {n : Nat} : ∀ {rows : List ObjectNodeRow} {id : String},
    ReachesRoot rows n id → ReachesRoot rows rows.length id := by
  induction n using Nat.strongRecOn with
  | ind n ih =>
      intro rows id h
      match n, h with
      | n + 1, ⟨r, hr, hid, hp⟩ =>
          obtain ⟨l, hl⟩ := Nat.exists_eq_succ_of_ne_zero (List.length_pos_of_mem hr).ne'
          cases hpar : r.parentObjectNodeId with
          | none =>
              rw [hl]
              exact ⟨r, hr, hid, fun p h => absurd (hpar.symm.trans h) nofun⟩
          | some p =>
              rcases (hp p hpar).cut id with hleft | ⟨m, hm, hright⟩
              · have hless : (rows.filter (fun r => r.id ≠ id)).length < rows.length :=
                  List.length_filter_lt_length_iff_exists.mpr ⟨r, hr, by simpa using hid⟩
                have hrest := ((ih n (Nat.lt_succ_self n) hleft).subset
                  (List.filter_subset_self _)).mono (Nat.le_of_lt_succ (hl ▸ hless))
                rw [hl]
                refine ⟨r, hr, hid, fun p' h => ?_⟩
                rw [← Option.some.inj (hpar.symm.trans h)]
                exact hrest
              · exact ih m (Nat.lt_succ_of_le hm) hright

/-! ## The statements on object nodes -/

theorem ReachesRoot.reparent {rows : List ObjectNodeRow} (hn : (rows.map (fun r => r.id)).Nodup)
    {x : ObjectNodeRow} (hx : x ∈ rows) {n : Nat} : ∀ {id : String}, ReachesRoot rows n id →
      ReachesRoot (rows.map (fun r => if r.parentObjectNodeId = some x.id then
        { r with parentObjectNodeId := x.parentObjectNodeId } else r)) n id := by
  induction n using Nat.strongRecOn with
  | ind n ih =>
      intro id h
      match n, h with
      | n + 1, ⟨r, hr, hid, hp⟩ =>
          refine ⟨_, List.mem_map_of_mem hr, ?_⟩
          split_ifs with hpar
          · refine ⟨hid, fun p hxp => ?_⟩
            -- the way up from `r` goes through `x`, and on to the parent of `x`
            match n, hp x.id hpar with
            | m + 1, ⟨y, hy, hyx, hyp⟩ =>
                rw [List.inj_on_of_nodup_map hn hy hx hyx] at hyp
                exact (ih m (Nat.lt_succ_of_lt (Nat.lt_succ_self m)) (hyp p hxp)).succ
          · exact ⟨hid, fun p h => ih n (Nat.lt_succ_self n) (hp p h)⟩

theorem ReachesRoot.drop {rows : List ObjectNodeRow} {x : String} : ∀ {n : Nat} {id : String},
    id ≠ x → ReachesRoot rows n id →
      ReachesRoot ((rows.filter (fun r => r.id ≠ x)).map (fun r =>
        if r.parentObjectNodeId = some x then { r with parentObjectNodeId := none } else r)) n id
  | n + 1, id, hne, ⟨r, hr, hid, hp⟩ => by
      have hmem : r ∈ rows.filter (fun r => r.id ≠ x) :=
        List.mem_filter.mpr ⟨hr, by simpa using fun h => hne (hid.symm.trans h)⟩
      refine ⟨_, List.mem_map_of_mem hmem, ?_⟩
      split_ifs with hpar
      · exact ⟨hid, nofun⟩
      · exact ⟨hid, fun p h => (hp p h).drop fun he => hpar (he ▸ h)⟩

/-- The loop of `computeDepth` counts the rows of the way up. -/
theorem ReachesRoot.depthFrom {t : Tables} (hn : (t.objectNodes.map (fun r => r.id)).Nodup) :
    ∀ {n : Nat} {id : String}, ReachesRoot t.objectNodes n id → ∀ fuel, n ≤ fuel →
      ReachesRoot t.objectNodes (ObjectNodeRepository.depthFrom t fuel id) id ∧
        ObjectNodeRepository.depthFrom t fuel id = ObjectNodeRepository.depthFrom t n id
  | n + 1, id, ⟨r, hr, hid, hp⟩, fuel + 1, hle => by
      have hfind : ObjectNodeRepository.findById t id = some r := by
        rw [← hid]
        exact (Rows.find?_eq_some (fun r : ObjectNodeRow => r.id) hn).mpr ⟨hr, rfl⟩
      unfold ObjectNodeRepository.depthFrom
      rw [hfind, Option.bind_some]
      cases hpar : r.parentObjectNodeId with
      | none => exact ⟨⟨r, hr, hid, fun p h => absurd (hpar.symm.trans h) nofun⟩, rfl⟩
      | some p =>
          obtain ⟨hrest, heq⟩ := (hp p hpar).depthFrom hn fuel (Nat.le_of_succ_le_succ hle)
          refine ⟨⟨r, hr, hid, fun p' h => ?_⟩, congrArg (· + 1) heq⟩
          rw [← Option.some.inj (hpar.symm.trans h)]
          exact hrest

/-- Every object node is at most five levels deep. -/
def Tables.Bounded (t : Tables) : Prop :=
  ∀ r ∈ t.objectNodes, ReachesRoot t.objectNodes ObjectNodeRepository.maxDepth r.id

theorem bounded_insert {t t' : Tables} (hv : t.Valid) (h : t.Bounded) {id : String}
    {input : ObjectNodeRepository.CreateObjectNodeInput}
    (hparent : ObjectNodeRepository.checkParent t input.parentObjectNodeId = .ok ())
    (hins : t.insertObjectNode ⟨id, input.namespaceId, input.parentObjectNodeId, input.name⟩ = .ok t') :
    t'.Bounded := by
  rw [checked_ok hins]
  intro r hr
  rcases List.mem_append.mp hr with hr | hr
  · exact (h r hr).subset (List.subset_append_left _ _)
  · refine ⟨r, List.mem_append_right _ hr, rfl, fun p hp => ?_⟩
    rw [List.mem_singleton.mp hr] at hp
    have hp : input.parentObjectNodeId = some p := hp
    rw [hp] at hparent
    obtain ⟨hex, hdepth⟩ := ObjectNodeRepository.checkParent_ok hparent
    obtain ⟨q, hq, rfl⟩ : ∃ q ∈ t.objectNodes, q.id = p := by simpa [Tables.hasObjectNode] using hex
    have hcount := ((h q hq).length.depthFrom hv.objectNodeIds _ (Nat.le_refl _)).1
    exact (hcount.mono (Nat.le_of_lt_succ hdepth)).subset (List.subset_append_left _ _)

theorem bounded_reparent {t t' : Tables} (hv : t.Valid) (h : t.Bounded) {x : ObjectNodeRow}
    (hx : x ∈ t.objectNodes) (hr : t.reparentObjectNodes x.id x.parentObjectNodeId = .ok t') :
    t'.Bounded := by
  obtain ⟨-, rfl⟩ := Tables.checked_eq_ok.mp hr
  intro r hr
  obtain ⟨s, hs, rfl⟩ := List.mem_map.mp hr
  have hid : (if s.parentObjectNodeId = some x.id then
      { s with parentObjectNodeId := x.parentObjectNodeId } else s).id = s.id := by
    split_ifs <;> rfl
  rw [hid]
  exact (h s hs).reparent hv.objectNodeIds hx

theorem bounded_drop {t : Tables} (h : t.Bounded) (id : String) : (t.dropObjectNode id).Bounded := by
  intro r hr
  obtain ⟨s, hs, rfl⟩ := List.mem_map.mp hr
  obtain ⟨hs, hne⟩ := List.mem_filter.mp hs
  have hid : (if s.parentObjectNodeId = some id then
      { s with parentObjectNodeId := none } else s).id = s.id := by
    split_ifs <;> rfl
  rw [hid]
  exact (h s hs).drop (by simpa using hne)

theorem bounded_cascade {rows : List ObjectNodeRow} : ∀ {t t' : Tables}, t.Bounded →
    t.cascadeObjectNodes rows = .ok t' → t'.Bounded := by
  induction rows with
  | nil =>
      intro t t' h hc
      rw [← Except.ok.inj hc]
      exact h
  | cons r rows ih =>
      intro t t' h hc
      unfold Tables.cascadeObjectNodes Tables.cascadeObjectNode at hc
      simp only at hc
      split at hc
      · cases hc
      · rename_i t₁ h₁
        split_ifs at h₁
        rw [← Except.ok.inj h₁] at hc
        exact ih (bounded_drop h r.id) hc

theorem bounded_deleteNamespace {t t' : Tables} (h : t.Bounded) {id : String}
    (hd : t.deleteNamespace id = .ok t') : t'.Bounded := by
  unfold Tables.deleteNamespace at hd
  simp only at hd
  split at hd
  · cases hd
  · rename_i t₁ h₁
    obtain ⟨-, rfl⟩ := Tables.checked_eq_ok.mp hd
    have hbefore : Tables.Bounded { t with namespaces := t.namespaces.filter (fun r => r.id ≠ id) } := h
    have hafter : t₁.Bounded := bounded_cascade hbefore h₁
    exact hafter

theorem bounded_deleteObjectNode {t t' : Tables} (h : t.Bounded) {id : String}
    (hdid : (Operation.deleteObjectNode id).Did t t') : t'.Bounded := by
  obtain ⟨x, t₁, hx, h₁, hrest⟩ := hdid
  obtain ⟨hv₁, rfl⟩ := Tables.checked_eq_ok.mp h₁
  have hxmem := List.mem_of_find?_eq_some hx
  obtain rfl : x.id = id := by simpa using List.find?_some hx
  rcases hrest with he | ⟨t₂, h₂, he | he⟩
  · rw [he]
    exact h
  · rw [he]
    exact bounded_reparent hv₁ h hxmem h₂
  · rw [checked_ok he]
    exact bounded_drop (bounded_reparent hv₁ h hxmem h₂) x.id

theorem bounded_apply {t : Tables} (hv : t.Valid) (h : t.Bounded) (op : Operation) :
    (apply t op).Bounded := by
  by_cases hop : op.onObjectNodes = true
  · rcases apply_cases t op with he | hdid
    · rw [he]
      exact h
    · cases op with
      | deleteNamespace id => exact bounded_deleteNamespace h hdid
      | createObjectNode id input => exact bounded_insert hv h hdid.1 hdid.2
      | deleteObjectNode id => exact bounded_deleteObjectNode h hdid
      | _ => cases hop
  · unfold Tables.Bounded
    rw [apply_objectNodes t (Bool.eq_false_iff.mpr hop)]
    exact h

theorem reach_bounded (ops : List Operation) : (reach ops).Bounded :=
  (reach_invariant (I := Tables.Bounded) (fun _ h => absurd h List.not_mem_nil)
    (fun _ op hv h => bounded_apply hv h op) ops).2

/-! ## The loops that follow the parents -/

/-- The rows as the path of an object node sees them: a parent that is not among them is none. -/
def detach (rows : List ObjectNodeRow) : List ObjectNodeRow :=
  rows.map (fun r => if r.parentObjectNodeId.all (fun p => rows.any (fun q => q.id = p)) then r
    else { r with parentObjectNodeId := none })

/-- The way up in some of the rows. -/
theorem ReachesRoot.detach {all rows : List ObjectNodeRow} (hn : (all.map (fun r => r.id)).Nodup)
    (hsub : rows ⊆ all) : ∀ {n : Nat} {id : String}, (∃ q ∈ rows, q.id = id) → ReachesRoot all n id →
      ReachesRoot (detach rows) n id
  | n + 1, id, ⟨q, hq, hqid⟩, ⟨r, hr, hid, hp⟩ => by
      rw [← List.inj_on_of_nodup_map hn (hsub hq) hr (hqid.trans hid.symm)] at hp
      refine ⟨_, List.mem_map_of_mem hq, ?_⟩
      split_ifs with hpar
      · refine ⟨hqid, fun p h => (hp p h).detach hn hsub ?_⟩
        rw [h] at hpar
        simpa using hpar
      · exact ⟨hqid, nofun⟩

theorem pathParts_missing {rows : List ObjectNodeRow} {id : String} (h : ∀ q ∈ rows, q.id ≠ id) :
    ∀ fuel, Config.pathParts rows fuel id = []
  | 0 => rfl
  | fuel + 1 => by
      have hnone : rows.find? (fun r => r.id = id) = none :=
        List.find?_eq_none.mpr fun q hq => by simpa using h q hq
      unfold Config.pathParts
      rw [hnone]
      split_ifs <;> rfl

/-- The loop along the path ends within `n` rounds. -/
theorem ReachesRoot.pathParts {rows : List ObjectNodeRow} (hn : (rows.map (fun r => r.id)).Nodup) :
    ∀ {n : Nat} {id : String}, ReachesRoot (Db.detach rows) n id → ∀ fuel, n ≤ fuel →
      Config.pathParts rows fuel id = Config.pathParts rows n id
  | n + 1, id, ⟨r, hr, hid, hp⟩, fuel + 1, hle => by
      obtain ⟨s, hs, rfl⟩ := List.mem_map.mp hr
      have hsid : s.id = id := by
        rw [← hid]
        split_ifs <;> rfl
      have hfind : rows.find? (fun q => q.id = id) = some s := by
        rw [← hsid]
        exact (Rows.find?_eq_some (fun r : ObjectNodeRow => r.id) hn).mpr ⟨hs, rfl⟩
      unfold Config.pathParts
      rw [hfind]
      cases hpar : s.parentObjectNodeId with
      | none => simp only [hpar]
      | some p =>
          have hrest : Config.pathParts rows fuel p = Config.pathParts rows n p := by
            by_cases hin : rows.any (fun q => q.id = p) = true
            · refine (hp p ?_).pathParts hn fuel (Nat.le_of_succ_le_succ hle)
              rw [if_pos (by rw [hpar]; simpa using hin)]
              exact hpar
            · have hmiss : ∀ q ∈ rows, q.id ≠ p := by simpa using hin
              rw [pathParts_missing hmiss, pathParts_missing hmiss]
          simp only [hpar, hrest]

/-- A path in some of the rows takes no more rounds than there are rows, and no more than the way up. -/
theorem pathParts_ends {all rows : List ObjectNodeRow} (hn : (all.map (fun r => r.id)).Nodup)
    (hrows : (rows.map (fun r => r.id)).Nodup) (hsub : rows ⊆ all) {n : Nat} {id : String}
    (h : ReachesRoot all n id) {fuel : Nat} (hle : n ≤ fuel) :
    Config.pathParts rows fuel id = Config.pathParts rows rows.length id := by
  by_cases hin : ∃ q ∈ rows, q.id = id
  · have hway := h.detach hn hsub hin
    have hlen : (detach rows).length = rows.length := List.length_map _
    have hshort := hway.length
    rw [hlen] at hshort
    rcases Nat.le_total fuel rows.length with hf | hf
    · rw [hway.pathParts hrows fuel hle, hway.pathParts hrows rows.length (Nat.le_trans hle hf)]
    · exact hshort.pathParts hrows fuel hf
  · have hmiss : ∀ q ∈ rows, q.id ≠ id := fun q hq he => hin ⟨q, hq, he⟩
    rw [pathParts_missing hmiss, pathParts_missing hmiss]

theorem namespaceRows_nodup {t : Tables} (hv : t.Valid) (namespaceId : String) :
    ((Config.buildObjectNodeTree t namespaceId).map (fun r => r.id)).Nodup :=
  (((orderBy_perm _ _).map _).nodup_iff).mpr (hv.objectNodeIds.sublist (List.filter_sublist.map _))

theorem namespaceRows_subset (t : Tables) (namespaceId : String) :
    Config.buildObjectNodeTree t namespaceId ⊆ t.objectNodes := fun _ hr =>
  List.mem_of_mem_filter (mem_orderBy.mp hr)

/-- In every state a row without a parent is found within five rows, and the loops of `computeDepth`,
of the paths of the configuration and of those of the export end within five rounds. -/
theorem hierarchy_bounded (ops : List Operation) {r : ObjectNodeRow}
    (hr : r ∈ (reach ops).objectNodes) :
    ReachesRoot (reach ops).objectNodes 5 r.id ∧
    ∀ fuel, 5 ≤ fuel →
      ObjectNodeRepository.computeDepth (reach ops) r.id =
          ObjectNodeRepository.depthFrom (reach ops) fuel r.id ∧
      (∀ ns : NamespaceRow,
        let rows := Config.buildObjectNodeTree (reach ops) ns.id
        Config.computeObjectNodePath r.id rows ns.name =
          Config.join (ns.name :: Config.pathParts rows fuel r.id) ".") ∧
      Api.getObjectNodePath (reach ops) (some r.id) =
        Config.join (Config.pathParts (reach ops).objectNodes fuel r.id) "/" := by
  have hv := reach_valid ops
  have hway : ReachesRoot (reach ops).objectNodes 5 r.id := reach_bounded ops r hr
  refine ⟨hway, fun fuel hle => ⟨?_, fun ns => ?_, ?_⟩⟩
  · have hshort := hway.length
    unfold ObjectNodeRepository.computeDepth
    rcases Nat.le_total fuel (reach ops).objectNodes.length with hf | hf
    · rw [(hway.depthFrom hv.objectNodeIds fuel hle).2,
        (hway.depthFrom hv.objectNodeIds _ (Nat.le_trans hle hf)).2]
    · exact (hshort.depthFrom hv.objectNodeIds fuel hf).2.symm
  · have hends := pathParts_ends hv.objectNodeIds (namespaceRows_nodup hv ns.id)
      (namespaceRows_subset (reach ops) ns.id) hway hle
    unfold Config.computeObjectNodePath
    simp only
    rw [hends]
  · have hends := pathParts_ends hv.objectNodeIds hv.objectNodeIds (List.Subset.refl _) hway hle
    unfold Api.getObjectNodePath
    rw [hends]

/-- A child whose parent is in another namespace. -/
def nestedOps : List Operation :=
  [.createNamespace "n1" ⟨"Plant", none, "urn:plant"⟩, .createNamespace "n2" ⟨"Line", none, "urn:line"⟩,
   .createObjectNode "o1" ⟨"n1", none, "Hall"⟩, .createObjectNode "o2" ⟨"n2", some "o1", "Cell"⟩]

theorem hierarchy_bounded_nested : ⟨"o2", "n2", some "o1", "Cell"⟩ ∈ (reach nestedOps).objectNodes ∧
    ReachesRoot (reach nestedOps).objectNodes 5 "o2" := by
  have hr : (⟨"o2", "n2", some "o1", "Cell"⟩ : ObjectNodeRow) ∈ (reach nestedOps).objectNodes := by decide
  exact ⟨hr, (hierarchy_bounded nestedOps hr).1⟩

end OpcuaLight.Db
