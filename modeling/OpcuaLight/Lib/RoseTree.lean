import Mathlib.Data.List.Induction
import OpcuaLight.Lib.JsMap
import OpcuaLight.Lib.Lineage

/-!
# Forests built in two passes

Rows with keys that name their parents become a forest of objects: a first pass makes an object of each row
and notes it under the row's key, a second one gives each object to the object of its parent, or to the
roots if there is none. The order of the rows does not matter: the second pass leaves each object with the
rows below it (`build_eq`), so that rows that are a tree are in the forest once each (`exact_build`).
-/

inductive RoseTree (α : Type*) where
  | node (entry : α) (children : List (RoseTree α))

namespace RoseTree

variable {α β ρ κ : Type*}

def entry : RoseTree α → α
  | node a _ => a

def children : RoseTree α → List (RoseTree α)
  | node _ ts => ts

mutual

/-- The entries of a tree, each before those below it. -/
def entries : RoseTree α → List α
  | node a ts => a :: entriesAll ts

def entriesAll : List (RoseTree α) → List α
  | [] => []
  | t :: ts => t.entries ++ entriesAll ts

end

mutual

/-- The tree with its entries mapped. -/
def map (f : α → β) : RoseTree α → RoseTree β
  | node a ts => node (f a) (mapAll f ts)

def mapAll (f : α → β) : List (RoseTree α) → List (RoseTree β)
  | [] => []
  | t :: ts => t.map f :: mapAll f ts

end

/-- A tree is a tree in itself, and so are the trees in its children. -/
inductive Within : RoseTree α → RoseTree α → Prop
  | self (t : RoseTree α) : Within t t
  | child {s c t : RoseTree α} : c ∈ t.children → Within s c → Within s t

/-- The tree of what the function puts below an entry, at most `n` levels deep. -/
def grow (entry : ρ → α) (below : ρ → List ρ) : Nat → ρ → RoseTree α
  | 0, r => node (entry r) []
  | n + 1, r => node (entry r) ((below r).map (grow entry below n))

theorem entriesAll_eq (ts : List (RoseTree α)) : entriesAll ts = ts.flatMap entries := by
  induction ts with
  | nil => rw [entriesAll, List.flatMap_nil]
  | cons t ts ih => rw [entriesAll, ih, List.flatMap_cons]

theorem mapAll_eq (f : α → β) (ts : List (RoseTree α)) : mapAll f ts = ts.map (map f) := by
  induction ts with
  | nil => rw [mapAll, List.map_nil]
  | cons t ts ih => rw [mapAll, ih, List.map_cons]

@[simp] theorem entry_grow (f : ρ → α) (below : ρ → List ρ) (n : Nat) (r : ρ) :
    (grow f below n r).entry = f r := by
  cases n <;> rfl

theorem entries_grow (below : ρ → List ρ) (n : Nat) (r : ρ) :
    (grow id below n r).entries = descendants below n r := by
  induction n generalizing r with
  | zero => rw [grow, entries, entriesAll, descendants]; rfl
  | succ n ih =>
      rw [grow, entries, entriesAll_eq, descendants, List.flatMap_map]
      congr 1
      exact List.flatMap_congr fun c _ => ih c

theorem map_grow (f : ρ → α) (below : ρ → List ρ) (n : Nat) (r : ρ) :
    (grow id below n r).map f = grow f below n r := by
  induction n generalizing r with
  | zero => rw [grow, map, mapAll]; rfl
  | succ n ih =>
      rw [grow, map, mapAll_eq, grow, List.map_map]
      congr 1
      exact List.map_congr_left fun c _ => ih c

/-! ## The two passes -/

/-- An object with the places of the objects below it. -/
structure Linked (α : Type*) where
  entry : α
  children : List Nat

/-- The objects that have been made, where the map has them, and the roots. -/
structure Links (κ α : Type*) where
  objects : List (Linked α)
  nodeMap : JsMap κ Nat
  roots : List Nat

/-- The objects as a forest, at most `n` levels deep. -/
def read (objects : List (Linked α)) : Nat → List Nat → List (RoseTree α)
  | 0, places => places.filterMap (fun i => objects[i]?.map (fun o => node o.entry []))
  | n + 1, places => places.filterMap (fun i => objects[i]?.map (fun o =>
      node o.entry (read objects n o.children)))

section Build
variable [DecidableEq κ] (key : ρ → κ) (parent : ρ → Option κ) (entry : ρ → α)

/-- A round of the first pass. -/
def create (s : Links κ α) (row : ρ) : Links κ α :=
  { s with
    objects := s.objects ++ [⟨entry row, []⟩]
    nodeMap := s.nodeMap.set (key row) s.objects.length }

/-- A round of the second pass. -/
def link (s : Links κ α) (row : ρ) : Links κ α :=
  match s.nodeMap.get? (key row) with
  | none => s
  | some i =>
      match (parent row).bind s.nodeMap.get? with
      | none => { s with roots := s.roots ++ [i] }
      | some p => { s with
          objects := s.objects.modify p (fun o => { o with children := o.children ++ [i] }) }

def build (rows : List ρ) : List (RoseTree α) :=
  let s := rows.foldl (link key parent) (rows.foldl (create key entry) ⟨[], ∅, []⟩)
  read s.objects s.objects.length s.roots

/-- The rows that name the row as their parent. -/
def childrenOf (rows : List ρ) (r : ρ) : List ρ := rows.filter (fun s => parent s = some (key r))

/-- The parent of the row, if it has one, is not among the rows. -/
def isRoot (rows : List ρ) (r : ρ) : Bool := (parent r).all (fun p => !rows.any (fun q => key q = p))

def rootsOf (rows : List ρ) : List ρ := rows.filter (isRoot key parent rows)

/-! ## What the passes do -/

/-- The places of rows, in the same order. -/
def Places (rows : List ρ) (places : List Nat) (rs : List ρ) : Prop :=
  List.Forall₂ (fun i r => rows[i]? = some r) places rs

/-- After the first pass over some rows. -/
structure Created (rows : List ρ) (s : Links κ α) : Prop where
  objects : s.objects = rows.map (fun r => ⟨entry r, []⟩)
  nodeMap : ∀ k (i : Nat), s.nodeMap.get? k = some i ↔ ∃ r, rows[i]? = some r ∧ key r = k
  roots : s.roots = []

variable {key parent entry} {rows : List ρ}

theorem created_foldl (hn : (rows.map key).Nodup) :
    Created key entry rows (rows.foldl (create key entry) ⟨[], ∅, []⟩) := by
  induction rows using List.reverseRecOn with
  | nil => exact ⟨rfl, fun k i => by simp, rfl⟩
  | append_singleton rows row ih =>
      rw [List.map_append, List.nodup_append] at hn
      obtain ⟨hrows, -, hdisjoint⟩ := hn
      have hnew : ∀ i r, rows[i]? = some r → key r ≠ key row := fun i r hr =>
        hdisjoint _ (List.mem_map_of_mem (List.mem_of_getElem? hr)) _ List.mem_cons_self
      obtain ⟨hobjects, hmap, hroots⟩ := ih hrows
      rw [List.foldl_append, List.foldl_cons, List.foldl_nil]
      generalize rows.foldl (create key entry) ⟨[], ∅, []⟩ = s at hobjects hmap hroots
      have hlen : s.objects.length = rows.length := by rw [hobjects, List.length_map]
      refine ⟨?_, fun k i => ?_, hroots⟩
      · rw [create, hobjects, List.map_append, List.map_singleton]
      · show (s.nodeMap.set (key row) s.objects.length).get? k = some i ↔ _
        rw [JsMap.get?_set, hlen]
        split_ifs with hk
        · -- the key of the new row
          rw [hk, Option.some.injEq]
          constructor
          · rintro rfl
            exact ⟨row, by simp, rfl⟩
          · rintro ⟨r, hr, hkey⟩
            rcases Nat.lt_trichotomy i rows.length with hi | hi | hi
            · rw [List.getElem?_append_left hi] at hr
              exact absurd hkey (hnew i r hr)
            · exact hi.symm
            · rw [List.getElem?_eq_none (by simp; omega)] at hr
              cases hr
        · rw [hmap]
          refine exists_congr fun r => and_congr_left fun hkey => ?_
          rcases Nat.lt_or_ge i rows.length with hi | hi
          · rw [List.getElem?_append_left hi]
          · rw [List.getElem?_eq_none hi, List.getElem?_append_right hi]
            refine iff_of_false nofun fun hr => hk ?_
            have hmem := List.mem_of_getElem? hr
            rw [← hkey, List.mem_singleton.mp hmem]

/-- After the second pass over `passed`, of all rows. -/
structure LinkedTo (key : ρ → κ) (parent : ρ → Option κ) (entry : ρ → α) (rows passed : List ρ)
    (s : Links κ α) : Prop where
  nodeMap : ∀ k (i : Nat), s.nodeMap.get? k = some i ↔ ∃ r, rows[i]? = some r ∧ key r = k
  length : s.objects.length = rows.length
  objects : ∀ (i : Nat) r, rows[i]? = some r → ∃ places, s.objects[i]? = some (Linked.mk (entry r) places) ∧
    Places rows places (passed.filter (fun s => parent s = some (key r)))
  roots : Places rows s.roots (passed.filter (isRoot key parent rows))

omit [DecidableEq κ] in
theorem Places.concat {places : List Nat} {rs : List ρ} (h : Places rows places rs) {i : Nat} {r : ρ}
    (hi : rows[i]? = some r) : Places rows (places ++ [i]) (rs ++ [r]) :=
  List.rel_append h (List.Forall₂.cons hi List.Forall₂.nil)

theorem LinkedTo.link {passed : List ρ} {s : Links κ α}
    (h : LinkedTo key parent entry rows passed s) {row : ρ} (hrow : row ∈ rows) :
    LinkedTo key parent entry rows (passed ++ [row]) (RoseTree.link key parent s row) := by
  obtain ⟨i, hi⟩ := List.mem_iff_getElem?.mp hrow
  have hnode : s.nodeMap.get? (key row) = some i := (h.nodeMap _ i).mpr ⟨row, hi, rfl⟩
  unfold RoseTree.link
  rw [hnode]
  cases hp : (parent row).bind s.nodeMap.get? with
  | none =>
      -- no row has the key of the parent, so that the row is a root and nobody's child
      have hmissing : ∀ p, parent row = some p → ∀ q ∈ rows, key q ≠ p := by
        intro p hpar q hq hkey
        obtain ⟨j, hj⟩ := List.mem_iff_getElem?.mp hq
        rw [hpar, Option.bind_some, (h.nodeMap p j).mpr ⟨q, hj, hkey⟩] at hp
        cases hp
      refine ⟨h.nodeMap, h.length, fun j r hr => ?_, ?_⟩
      · obtain ⟨places, hobject, hplaces⟩ := h.objects j r hr
        refine ⟨places, hobject, ?_⟩
        have hnot : ¬ parent row = some (key r) := fun hpar =>
          hmissing _ hpar r (List.mem_of_getElem? hr) rfl
        rwa [List.filter_append, List.filter_cons_of_neg (by simpa using hnot), List.filter_nil,
          List.append_nil]
      · have hroot : isRoot key parent rows row = true := by
          unfold isRoot
          cases hpar : parent row with
          | none => rfl
          | some p => simpa using hmissing p hpar
        rw [List.filter_append, List.filter_cons_of_pos hroot, List.filter_nil]
        exact h.roots.concat hi
  | some j =>
      obtain ⟨p, hpar, hj⟩ := Option.bind_eq_some_iff.mp hp
      obtain ⟨q, hq, hqp⟩ := (h.nodeMap p j).mp hj
      refine ⟨h.nodeMap, by simpa using h.length, fun l r hr => ?_, ?_⟩
      · obtain ⟨places, hobject, hplaces⟩ := h.objects l r hr
        rw [List.filter_append]
        by_cases hl : l = j
        · rw [hl] at hr hobject ⊢
          obtain rfl : q = r := Option.some.inj (hq.symm.trans hr)
          refine ⟨places ++ [i], by simp [hobject], ?_⟩
          rw [List.filter_cons_of_pos (by simp [hpar, hqp]), List.filter_nil]
          exact hplaces.concat hi
        · have hne : ¬ parent row = some (key r) := fun heq => hl <| by
            have hkey : key r = key q := hqp ▸ (Option.some.inj (hpar.symm.trans heq)).symm
            have hget := (h.nodeMap (key q) l).mpr ⟨r, hr, hkey⟩
            rw [(h.nodeMap (key q) j).mpr ⟨q, hq, rfl⟩] at hget
            exact (Option.some.inj hget).symm
          refine ⟨places, by simp [hobject, Ne.symm hl], ?_⟩
          rwa [List.filter_cons_of_neg (by simpa using hne), List.filter_nil, List.append_nil]
      · have hthere : ¬ isRoot key parent rows row = true := by
          rw [isRoot, hpar]
          simpa using ⟨q, List.mem_of_getElem? hq, hqp⟩
        rw [List.filter_append, List.filter_cons_of_neg hthere, List.filter_nil, List.append_nil]
        exact h.roots

theorem linkedTo_foldl {s : Links κ α} (hs : Created key entry rows s)
    {passed : List ρ} (hpassed : passed ⊆ rows) :
    LinkedTo key parent entry rows passed (passed.foldl (RoseTree.link key parent) s) := by
  induction passed using List.reverseRecOn with
  | nil =>
      refine ⟨hs.nodeMap, by rw [List.foldl_nil, hs.objects, List.length_map], fun i r hr => ⟨[], ?_, ?_⟩, ?_⟩
      · rw [List.foldl_nil, hs.objects, List.getElem?_map, hr, Option.map_some]
      · exact List.Forall₂.nil
      · rw [List.foldl_nil, hs.roots]
        exact List.Forall₂.nil
  | append_singleton passed row ih =>
      rw [List.foldl_append, List.foldl_cons, List.foldl_nil]
      rw [List.append_subset] at hpassed
      exact (ih hpassed.1).link (hpassed.2 List.mem_cons_self)

theorem read_eq {objects : List (Linked α)}
    (h : ∀ (i : Nat) r, rows[i]? = some r → ∃ places, objects[i]? = some ⟨entry r, places⟩ ∧
      Places rows places (childrenOf key parent rows r)) (n : Nat) {places : List Nat} {rs : List ρ}
    (hrs : Places rows places rs) :
    read objects n places = rs.map (grow entry (childrenOf key parent rows) n) := by
  induction n generalizing places rs with
  | zero =>
      rw [read]
      induction hrs with
      | nil => rfl
      | @cons i r places rs hi _ ih =>
          obtain ⟨below, hobject, -⟩ := h i r hi
          rw [List.filterMap_cons, hobject, Option.map_some, List.map_cons, ← ih]
          rfl
  | succ n ihn =>
      rw [read]
      induction hrs with
      | nil => rfl
      | @cons i r places rs hi _ ih =>
          obtain ⟨below, hobject, hbelow⟩ := h i r hi
          rw [List.filterMap_cons, hobject, Option.map_some, List.map_cons, ← ih, grow, ← ihn hbelow]

/-- **The forest of the two passes** has the rows without a parent among the rows as its roots, and below
each row those that name it, both in the order of the rows. -/
theorem build_eq (hn : (rows.map key).Nodup) : build key parent entry rows =
    (rootsOf key parent rows).map (grow entry (childrenOf key parent rows) rows.length) := by
  have hlinked : LinkedTo key parent entry rows rows _ :=
    linkedTo_foldl (created_foldl hn) (List.Subset.refl rows)
  unfold build
  simp only
  rw [hlinked.length]
  exact read_eq hlinked.objects rows.length hlinked.roots

/-! ## Rows that are a tree -/

/-- The forest has every row once, the rows without a parent as its roots, and below each row the rows that
name it. -/
structure Exact (key : ρ → κ) (parent : ρ → Option κ) (rows : List ρ) (forest : List (RoseTree ρ)) :
    Prop where
  entries : (entriesAll forest).Perm rows
  roots : forest.map RoseTree.entry = rootsOf key parent rows
  children : ∀ t ∈ forest, ∀ s, Within s t →
    s.children.map RoseTree.entry = childrenOf key parent rows s.entry

omit [DecidableEq κ] in
theorem children_of_within {roots : List ρ} {below : ρ → List ρ} {above : ρ → Option ρ} {rank : ρ → Nat}
    (L : Lineage rows roots below above rank) {n : Nat} {r : ρ} (hr : r ∈ rows)
    (hrank : ∀ q ∈ rows, rank q ≤ rank r + n) {s : RoseTree ρ} (hs : Within s (grow id below n r)) :
    s.children.map RoseTree.entry = below s.entry := by
  have hchild : ∀ c ∈ below r, c ∈ rows ∧ rank c = rank r + 1 := fun c hc =>
    have hc := (L.mem_children hr).mp hc
    ⟨hc.1, L.rank_child hc.1 hc.2⟩
  induction n generalizing r with
  | zero =>
      -- a child would be one level deeper than any row
      have hnone : below r = [] := List.eq_nil_iff_forall_not_mem.mpr fun c hc => by
        have hdeep := hrank c (hchild c hc).1
        rw [(hchild c hc).2] at hdeep
        omega
      cases hs with
      | self => exact hnone.symm
      | child hc _ => cases hc
  | succ n ih =>
      cases hs with
      | self =>
          show ((below r).map (grow id below n)).map RoseTree.entry = below r
          rw [List.map_map]
          exact List.map_id'' (fun c => entry_grow id below n c) _
      | child hc hs =>
          obtain ⟨c, hcr, rfl⟩ := List.mem_map.mp hc
          obtain ⟨hcrows, hcrank⟩ := hchild c hcr
          refine ih hcrows (fun q hq => ?_) hs fun d hd => ?_
          · have hdeep := hrank q hq
            omega
          · have hd := (L.mem_children hcrows).mp hd
            exact ⟨hd.1, L.rank_child hd.1 hd.2⟩

/-- **Rows that are a tree are in the forest once each**, below the rows that they name. -/
theorem exact_build (hn : (rows.map key).Nodup) {above : ρ → Option ρ} {rank : ρ → Nat}
    (L : Lineage rows (rootsOf key parent rows) (childrenOf key parent rows) above rank)
    (hrank : ∀ r ∈ rows, rank r ≤ rows.length) : Exact key parent rows (build key parent id rows) := by
  rw [build_eq hn]
  refine ⟨?_, ?_, fun t ht s hs => ?_⟩
  · rw [entriesAll_eq, List.flatMap_map]
    have hperm := L.descendants_perm hrank
    rwa [List.flatMap_congr fun r _ => (entries_grow _ rows.length r).symm] at hperm
  · rw [List.map_map]
    exact List.map_id'' (fun r => entry_grow id _ rows.length r) _
  · obtain ⟨r, hr, rfl⟩ := List.mem_map.mp ht
    obtain ⟨hrrows, hroot⟩ := L.mem_roots.mp hr
    refine children_of_within L hrrows (fun q hq => ?_) hs
    exact Nat.le_add_left_of_le (hrank q hq)

end Build

end RoseTree
