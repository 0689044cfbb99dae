import Mathlib.Data.List.Induction
import Mathlib.Data.List.Nodup
import Mathlib.Tactic.Common

/-!
# Forests in order of insertion

A forest of keyed items is a list in which every item comes after its parent (`WF`), so that following
parents ends. An item is added unless its key is taken or its parent missing; an item is deleted with
everything below it, which is what adding the others again leaves.

* `deleteAll_eq_keep`, `mem_keep_iff`: what is left after deletions is what is not at or under a deleted
  key (`Under`);
* `mem_addAll_iff`: additions to a forest whose own items are all among those that the same additions
  put into the empty forest give what they give there;
* `map_addAll`: adding commutes with a renaming of keys that is injective on the keys it meets.
-/

/-- An item of a forest: its key, the key of its parent (`none` for a root) and what it carries. -/
structure Item (κ δ : Type*) where
  key : κ
  parent : Option κ
  data : δ
  deriving DecidableEq

namespace Forest

variable {κ δ : Type*}

def keys (l : List (Item κ δ)) : List κ := l.map Item.key

theorem mem_keys {l : List (Item κ δ)} {k : κ} : k ∈ keys l ↔ ∃ x ∈ l, x.key = k := List.mem_map

theorem key_mem_keys {l : List (Item κ δ)} {x : Item κ δ} (h : x ∈ l) : x.key ∈ keys l :=
  List.mem_map_of_mem h

@[simp] theorem keys_append (l l' : List (Item κ δ)) : keys (l ++ l') = keys l ++ keys l' :=
  List.map_append

theorem keys_subset {l l' : List (Item κ δ)} (h : l ⊆ l') : keys l ⊆ keys l' := List.map_subset _ h

/-- Every item has a new key, and its parent is there before it. -/
inductive WF : List (Item κ δ) → Prop
  | nil : WF []
  | snoc {l : List (Item κ δ)} {x : Item κ δ} : WF l → x.key ∉ keys l →
      (∀ p, x.parent = some p → p ∈ keys l) → WF (l ++ [x])

theorem WF.nodup {l : List (Item κ δ)} (h : WF l) : (keys l).Nodup := by
  induction h with
  | nil => exact List.nodup_nil
  | snoc _ hk _ ih =>
      rw [keys_append]
      refine List.nodup_append'.mpr ⟨ih, List.nodup_singleton _, fun k hk1 hk2 => hk ?_⟩
      rw [← List.mem_singleton.mp hk2]
      exact hk1

/-- Items of one key are one. -/
theorem WF.eq_of_key {l : List (Item κ δ)} (h : WF l) {x y : Item κ δ} (hx : x ∈ l) (hy : y ∈ l)
    (hkey : x.key = y.key) : x = y :=
  List.inj_on_of_nodup_map h.nodup hx hy hkey

theorem WF.parent_mem {l : List (Item κ δ)} (h : WF l) {x : Item κ δ} (hx : x ∈ l) {p : κ}
    (hp : x.parent = some p) : p ∈ keys l := by
  induction h with
  | nil => cases hx
  | snoc _ _ hpar ih =>
      rw [keys_append]
      apply List.mem_append_left
      rcases List.mem_append.mp hx with hx | hx
      · exact ih hx
      · rw [List.mem_singleton.mp hx] at hp
        exact hpar p hp

/-! ## Adding and deleting -/

section Ops
variable [DecidableEq κ]

/-- The parent of `x`, if it has one, is in the forest. -/
def hasParent (l : List (Item κ δ)) (x : Item κ δ) : Bool :=
  match x.parent with
  | none => true
  | some p => decide (p ∈ keys l)

def add (l : List (Item κ δ)) (x : Item κ δ) : List (Item κ δ) :=
  if x.key ∉ keys l ∧ hasParent l x = true then l ++ [x] else l

def addAll (xs : List (Item κ δ)) (l : List (Item κ δ)) : List (Item κ δ) := xs.foldl add l

/-- The items whose key and whose parents' keys are not in `D`, added again. -/
def keep (D : κ → Prop) [DecidablePred D] (l : List (Item κ δ)) : List (Item κ δ) :=
  l.foldl (fun l x => if D x.key then l else add l x) []

/-- The item with the key, and everything below it, goes. -/
def delete (l : List (Item κ δ)) (k : κ) : List (Item κ δ) := keep (· = k) l

def deleteAll (ks : List κ) (l : List (Item κ δ)) : List (Item κ δ) := ks.foldl delete l

theorem hasParent_iff {l : List (Item κ δ)} {x : Item κ δ} :
    hasParent l x = true ↔ ∀ p, x.parent = some p → p ∈ keys l := by
  unfold hasParent
  split
  · rename_i hn
    simp [hn]
  · rename_i p hp
    rw [decide_eq_true_eq]
    constructor
    · intro h q hq
      rw [← Option.some.inj (hp.symm.trans hq)]
      exact h
    · exact fun h => h p hp

theorem add_of_new {l : List (Item κ δ)} {x : Item κ δ} (hk : x.key ∉ keys l)
    (hp : ∀ p, x.parent = some p → p ∈ keys l) : add l x = l ++ [x] :=
  if_pos ⟨hk, hasParent_iff.mpr hp⟩

theorem add_of_key {l : List (Item κ δ)} {x : Item κ δ} (hk : x.key ∈ keys l) : add l x = l :=
  if_neg fun h => h.1 hk

theorem add_of_orphan {l : List (Item κ δ)} {x : Item κ δ} {p : κ} (hp : x.parent = some p)
    (hn : p ∉ keys l) : add l x = l :=
  if_neg fun h => hn (hasParent_iff.mp h.2 p hp)

theorem add_cases (l : List (Item κ δ)) (x : Item κ δ) :
    add l x = l ∨ (add l x = l ++ [x] ∧ x.key ∉ keys l ∧ ∀ p, x.parent = some p → p ∈ keys l) := by
  unfold add
  split_ifs with h
  · exact Or.inr ⟨rfl, h.1, hasParent_iff.mp h.2⟩
  · exact Or.inl rfl

theorem WF.add {l : List (Item κ δ)} (h : WF l) (x : Item κ δ) : WF (add l x) := by
  rcases add_cases l x with he | ⟨he, hk, hp⟩ <;> rw [he]
  · exact h
  · exact .snoc h hk hp

theorem WF.addAll {l : List (Item κ δ)} (h : WF l) (xs : List (Item κ δ)) : WF (addAll xs l) := by
  induction xs generalizing l with
  | nil => exact h
  | cons x xs ih => exact ih (h.add x)

theorem subset_add (l : List (Item κ δ)) (x : Item κ δ) : l ⊆ add l x := by
  rcases add_cases l x with he | ⟨he, -⟩ <;> rw [he]
  · exact List.Subset.refl l
  · exact List.subset_append_left l [x]

theorem subset_addAll (xs : List (Item κ δ)) (l : List (Item κ δ)) : l ⊆ addAll xs l := by
  induction xs generalizing l with
  | nil => exact List.Subset.refl l
  | cons x xs ih => exact List.Subset.trans (subset_add l x) (ih _)

/-- Nothing but the additions comes in. -/
theorem mem_of_mem_addAll {xs l : List (Item κ δ)} {x : Item κ δ} (h : x ∈ addAll xs l) :
    x ∈ l ∨ x ∈ xs := by
  induction xs generalizing l with
  | nil => exact Or.inl h
  | cons y xs ih =>
      rcases ih h with hx | hx
      · rcases add_cases l y with he | ⟨he, -⟩ <;> rw [he] at hx
        · exact Or.inl hx
        · rcases List.mem_append.mp hx with hx | hx
          · exact Or.inl hx
          · exact Or.inr (List.mem_singleton.mp hx ▸ List.mem_cons_self)
      · exact Or.inr (List.mem_cons_of_mem y hx)

theorem addAll_append (xs ys : List (Item κ δ)) (l : List (Item κ δ)) :
    addAll (xs ++ ys) l = addAll ys (addAll xs l) := List.foldl_append

/-! ## Deleting -/

section Keep
variable {D E : κ → Prop} [DecidablePred D] [DecidablePred E]

theorem keep_snoc (l : List (Item κ δ)) (x : Item κ δ) :
    keep D (l ++ [x]) = if D x.key then keep D l else add (keep D l) x := by
  unfold keep
  rw [List.foldl_append]
  rfl

theorem keep_subset (l : List (Item κ δ)) : keep D l ⊆ l := by
  induction l using List.reverseRecOn with
  | nil => exact List.Subset.refl _
  | append_singleton l x ih =>
      have hl : keep D l ⊆ l ++ [x] := fun y hy => List.mem_append_left _ (ih hy)
      rw [keep_snoc]
      split_ifs
      · exact hl
      · rcases add_cases (keep D l) x with he | ⟨he, -⟩ <;> rw [he]
        · exact hl
        · exact List.append_subset.mpr ⟨hl, List.subset_append_right _ _⟩

theorem wf_keep (l : List (Item κ δ)) : WF (keep D l) := by
  induction l using List.reverseRecOn with
  | nil => exact .nil
  | append_singleton l x ih =>
      rw [keep_snoc]
      split_ifs
      · exact ih
      · exact ih.add x

theorem mem_keys_of_mem_keys_keep {l : List (Item κ δ)} {k : κ} (h : k ∈ keys (keep D l)) :
    k ∈ keys l := by
  obtain ⟨x, hx, rfl⟩ := mem_keys.mp h
  exact key_mem_keys (keep_subset l hx)

/-- Deleting in two rounds is deleting at once. -/
theorem keep_keep {l : List (Item κ δ)} (h : WF l) :
    keep E (keep D l) = keep (fun k => D k ∨ E k) l := by
  induction h with
  | nil => rfl
  | @snoc l x _ hk hp ih =>
      have hnew : x.key ∉ keys (keep D l) := fun hmem => hk (mem_keys_of_mem_keys_keep hmem)
      rw [keep_snoc, keep_snoc, ← ih]
      by_cases hD : D x.key
      · rw [if_pos hD, if_pos (Or.inl hD)]
      · rw [if_neg hD]
        rcases add_cases (keep D l) x with he | ⟨he, -, -⟩
        · -- its parent has gone, and does not come back
          rw [he]
          split_ifs with hE
          · rfl
          · have horphan : ¬ ∀ p, x.parent = some p → p ∈ keys (keep D l) := fun hall => by
              have hne := he.symm.trans (add_of_new hnew hall)
              simp at hne
            push Not at horphan
            obtain ⟨p, hxp, hn⟩ := horphan
            exact (add_of_orphan hxp fun hmem => hn (mem_keys_of_mem_keys_keep hmem)).symm
        · rw [he, keep_snoc]
          by_cases hE : E x.key
          · rw [if_pos hE, if_pos (Or.inr hE)]
          · rw [if_neg hE, if_neg (not_or.mpr ⟨hD, hE⟩)]

theorem keep_congr {l : List (Item κ δ)} (h : ∀ k, D k ↔ E k) : keep D l = keep E l := by
  unfold keep
  congr 1
  funext l x
  simp only [h]

theorem keep_false {l : List (Item κ δ)} (h : WF l) : keep (fun _ => False) l = l := by
  induction h with
  | nil => rfl
  | snoc _ hk hp ih => rw [keep_snoc, if_neg (fun h => h), ih, add_of_new hk hp]

end Keep

/-- All deletions together keep what is neither deleted nor below what is. -/
theorem deleteAll_eq_keep {l : List (Item κ δ)} (h : WF l) (ks : List κ) :
    deleteAll ks l = keep (· ∈ ks) l := by
  induction ks generalizing l with
  | nil =>
      rw [keep_congr (E := fun _ => False) (by simp), keep_false h]
      rfl
  | cons k ks ih =>
      show deleteAll ks (delete l k) = _
      rw [delete, ih (wf_keep l), keep_keep h]
      exact keep_congr fun _ => List.mem_cons.symm

theorem WF.deleteAll {l : List (Item κ δ)} (h : WF l) (ks : List κ) : WF (deleteAll ks l) := by
  rw [deleteAll_eq_keep h]
  exact wf_keep l

end Ops

/-- The item, or an item above it, has a key in `D`. -/
inductive Under (l : List (Item κ δ)) (D : κ → Prop) : Item κ δ → Prop
  | here {x : Item κ δ} : x ∈ l → D x.key → Under l D x
  | child {x y : Item κ δ} : x ∈ l → Under l D y → x.parent = some y.key → Under l D x

theorem Under.mem {l : List (Item κ δ)} {D : κ → Prop} {x : Item κ δ} (h : Under l D x) : x ∈ l := by
  cases h with
  | here hx _ => exact hx
  | child hx _ _ => exact hx

theorem Under.mono {l l' : List (Item κ δ)} {D : κ → Prop} {x : Item κ δ} (h : Under l D x)
    (hl : l ⊆ l') : Under l' D x := by
  induction h with
  | here hx hD => exact .here (hl hx) hD
  | child hx _ hp ih => exact .child (hl hx) ih hp

/-- What comes later is above nothing that is there. -/
theorem Under.of_snoc {l : List (Item κ δ)} {z : Item κ δ} (h : WF l) (hz : z.key ∉ keys l)
    {D : κ → Prop} {x : Item κ δ} (hu : Under (l ++ [z]) D x) (hx : x ∈ l) : Under l D x := by
  induction hu with
  | here _ hD => exact .here hx hD
  | child _ hy hp ih =>
      refine .child hx (ih ?_) hp
      rcases List.mem_append.mp hy.mem with hmem | hmem
      · exact hmem
      · rw [List.mem_singleton.mp hmem] at hp
        exact absurd (h.parent_mem hx hp) hz

theorem mem_keep_iff [DecidableEq κ] {D : κ → Prop} [DecidablePred D] {l : List (Item κ δ)} (h : WF l)
    {x : Item κ δ} : x ∈ keep D l ↔ x ∈ l ∧ ¬ Under l D x := by
  induction h generalizing x with
  | nil => exact ⟨fun h => absurd h List.not_mem_nil, fun h => absurd h.1 List.not_mem_nil⟩
  | @snoc l z hl hk hp ih =>
      have hnew : z.key ∉ keys (keep D l) := fun hmem => hk (mem_keys_of_mem_keys_keep hmem)
      have hold : ∀ y ∈ l, (Under (l ++ [z]) D y ↔ Under l D y) := fun y hy =>
        ⟨fun hu => hu.of_snoc hl hk hy, fun hu => hu.mono (List.subset_append_left l [z])⟩
      -- the last item is kept if its key is not in `D` and its parent is kept
      have hlast : Under (l ++ [z]) D z ↔ D z.key ∨ ∃ p, z.parent = some p ∧ p ∉ keys (keep D l) := by
        constructor
        · intro hu
          cases hu with
          | here _ hD => exact Or.inl hD
          | @child _ y _ hy hpar =>
              refine Or.inr ⟨y.key, hpar, fun hmem => ?_⟩
              obtain ⟨y', hy', hkey⟩ := mem_keys.mp hmem
              obtain ⟨hyl, hny⟩ := ih.mp hy'
              obtain ⟨y'', hyl'', hkey''⟩ := mem_keys.mp (hp _ hpar)
              have hyl2 : y ∈ l := by
                rcases List.mem_append.mp hy.mem with hmem | hmem
                · exact hmem
                · rw [List.mem_singleton.mp hmem] at hpar
                  exact absurd (hp _ hpar) hk
              rw [hl.eq_of_key hyl hyl2 hkey] at hny
              exact hny ((hold y hyl2).mp hy)
        · rintro (hD | ⟨p, hpar, hn⟩)
          · exact .here (List.mem_append_right _ (List.mem_singleton.mpr rfl)) hD
          · obtain ⟨y, hy, hkey⟩ := mem_keys.mp (hp p hpar)
            refine .child (List.mem_append_right _ (List.mem_singleton.mpr rfl)) (y := y) ?_
              (by rw [hpar, hkey])
            rw [hold y hy]
            by_contra hu
            exact hn (by rw [← hkey]; exact key_mem_keys (ih.mpr ⟨hy, hu⟩))
      have hkept : ∀ y ∈ l, (y ∈ keep D l ↔ y ∈ l ++ [z] ∧ ¬ Under (l ++ [z]) D y) := fun y hy => by
        rw [ih, hold y hy]
        exact and_congr_left fun _ => ⟨fun h => List.mem_append_left _ h, fun _ => hy⟩
      have hzl : z ∉ l := fun hmem => hk (key_mem_keys hmem)
      rw [keep_snoc]
      by_cases hu : Under (l ++ [z]) D z
      · have hsame : (if D z.key then keep D l else add (keep D l) z) = keep D l := by
          split_ifs with hD
          · rfl
          · obtain ⟨p, hpar, hn⟩ := (hlast.mp hu).resolve_left hD
            exact add_of_orphan hpar hn
        rw [hsame]
        by_cases hxl : x ∈ l
        · exact hkept x hxl
        · refine ⟨fun hmem => absurd (keep_subset l hmem) hxl, fun ⟨hmem, hnu⟩ => ?_⟩
          rw [List.mem_singleton.mp ((List.mem_append.mp hmem).resolve_left hxl)] at hnu
          exact absurd hu hnu
      · rw [hlast, not_or] at hu
        obtain ⟨hD, hpar⟩ := hu
        push Not at hpar
        rw [if_neg hD, add_of_new hnew hpar, List.mem_append]
        by_cases hxl : x ∈ l
        · rw [hkept x hxl, List.mem_singleton]
          refine or_iff_left fun hxz => hzl (hxz ▸ hxl)
        · have hxk : x ∉ keep D l := fun hmem => hxl (keep_subset l hmem)
          rw [or_iff_right hxk, List.mem_append, or_iff_right hxl, List.mem_singleton]
          refine ⟨fun hxz => ⟨hxz, ?_⟩, fun h => h.1⟩
          rw [hxz, hlast, not_or]
          exact ⟨hD, fun ⟨p, hp', hn⟩ => hn (hpar p hp')⟩

/-! ## The same additions to two forests -/

section Additions
variable [DecidableEq κ]

/-- Every addition finds the parent of its item, when the list is added to `l`. -/
def Closed : List (Item κ δ) → List (Item κ δ) → Prop
  | [], _ => True
  | x :: xs, l => (∀ p, x.parent = some p → p ∈ keys l) ∧ Closed xs (add l x)

theorem closed_append {xs ys l : List (Item κ δ)} :
    Closed (xs ++ ys) l ↔ Closed xs l ∧ Closed ys (addAll xs l) := by
  induction xs generalizing l with
  | nil => exact (iff_of_eq (true_and _)).symm
  | cons x xs ih =>
      show _ ∧ Closed (xs ++ ys) (add l x) ↔ (_ ∧ Closed xs (add l x)) ∧ _
      rw [ih, and_assoc]
      rfl

/-- The key of an item is there after its addition, if its parent was. -/
theorem key_mem_add {l : List (Item κ δ)} {x : Item κ δ} (hp : ∀ p, x.parent = some p → p ∈ keys l) :
    x.key ∈ keys (add l x) := by
  by_cases hk : x.key ∈ keys l
  · rw [add_of_key hk]
    exact hk
  · rw [add_of_new hk hp, keys_append]
    exact List.mem_append_right _ (List.mem_singleton.mpr rfl)

theorem key_mem_addAll {xs l : List (Item κ δ)} (h : Closed xs l) {x : Item κ δ} (hx : x ∈ xs) :
    x.key ∈ keys (addAll xs l) := by
  induction xs generalizing l with
  | nil => exact absurd hx List.not_mem_nil
  | cons y xs ih =>
      rcases List.mem_cons.mp hx with rfl | hx
      · exact keys_subset (subset_addAll xs _) (key_mem_add h.1)
      · exact ih h.2 hx

/-- Additions to a forest `a` that has the items of `b`, and otherwise only such (`s`) as the
additions to `b` end up with, end up with the same items. -/
theorem mem_addAll_iff {xs a b s : List (Item κ δ)} (hb : WF b) (hclosed : Closed xs b)
    (ha : ∀ x, x ∈ a ↔ x ∈ s ∨ x ∈ b) (hs : s ⊆ addAll xs b) (x : Item κ δ) :
    x ∈ addAll xs a ↔ x ∈ addAll xs b := by
  induction xs generalizing a b with
  | nil =>
      show x ∈ a ↔ x ∈ b
      rw [ha]
      exact or_iff_right_of_imp fun hx => hs hx
  | cons y xs ih =>
      obtain ⟨hpar, hrest⟩ := hclosed
      refine ih (hb.add y) hrest (fun z => ?_) hs
      have hkeys : keys b ⊆ keys a := keys_subset fun z hz => (ha z).mpr (Or.inr hz)
      by_cases hkb : y.key ∈ keys b
      · rw [add_of_key hkb, add_of_key (hkeys hkb)]
        exact ha z
      · have hnew := add_of_new hkb hpar
        by_cases hka : y.key ∈ keys a
        · -- `a` has the key from `s`, so it has the very item that `b` gets now
          rw [add_of_key hka, hnew]
          obtain ⟨t, hta, hkey⟩ := mem_keys.mp hka
          have hts : t ∈ s := ((ha t).mp hta).resolve_right fun htb => hkb (hkey ▸ key_mem_keys htb)
          have hyend : y ∈ addAll xs (add b y) := by
            refine subset_addAll xs _ ?_
            rw [hnew]
            exact List.mem_append_right _ (List.mem_singleton.mpr rfl)
          have hty : t = y := ((hb.add y).addAll xs).eq_of_key (hs hts) hyend hkey
          rw [hty] at hts
          rw [ha, List.mem_append, List.mem_singleton]
          constructor
          · rintro (hz | hz)
            · exact Or.inl hz
            · exact Or.inr (Or.inl hz)
          · rintro (hz | hz | hz)
            · exact Or.inl hz
            · exact Or.inr hz
            · rw [hz]
              exact Or.inl hts
        · rw [add_of_new hka (fun p hp => hkeys (hpar p hp)), hnew, List.mem_append, List.mem_append,
            ha, or_assoc]

end Additions

/-! ## Renaming keys -/

section Map
variable {κ' : Type*} [DecidableEq κ] [DecidableEq κ']

/-- The item with its keys renamed. -/
def mapKey (f : κ → κ') (x : Item κ δ) : Item κ' δ := ⟨f x.key, x.parent.map f, x.data⟩

omit [DecidableEq κ] [DecidableEq κ'] in
theorem mem_keys_map {f : κ → κ'} {P : κ → Prop} (hf : ∀ k k', P k → P k' → f k = f k' → k = k')
    {l : List (Item κ δ)} (hl : ∀ x ∈ l, P x.key) {k : κ} (hk : P k) :
    f k ∈ keys (l.map (mapKey f)) ↔ k ∈ keys l := by
  rw [mem_keys, mem_keys]
  constructor
  · rintro ⟨y, hy, he⟩
    obtain ⟨x, hx, rfl⟩ := List.mem_map.mp hy
    exact ⟨x, hx, hf _ _ (hl x hx) hk he⟩
  · rintro ⟨x, hx, rfl⟩
    exact ⟨_, List.mem_map_of_mem hx, rfl⟩

/-- Keys that are met are those of `P`, where the renaming is injective. -/
theorem map_add {f : κ → κ'} {P : κ → Prop} (hf : ∀ k k', P k → P k' → f k = f k' → k = k')
    {l : List (Item κ δ)} (hl : ∀ x ∈ l, P x.key) {x : Item κ δ} (hx : P x.key)
    (hp : ∀ p, x.parent = some p → P p) :
    (add l x).map (mapKey f) = add (l.map (mapKey f)) (mapKey f x) := by
  have hkey : (mapKey f x).key ∈ keys (l.map (mapKey f)) ↔ x.key ∈ keys l := mem_keys_map hf hl hx
  have hpar : (∀ q, (mapKey f x).parent = some q → q ∈ keys (l.map (mapKey f))) ↔
      ∀ p, x.parent = some p → p ∈ keys l := by
    constructor
    · intro h p hxp
      exact (mem_keys_map hf hl (hp p hxp)).mp (h (f p) (by rw [mapKey, hxp]; rfl))
    · intro h q hq
      obtain ⟨p, hxp, rfl⟩ := Option.map_eq_some_iff.mp hq
      exact (mem_keys_map hf hl (hp p hxp)).mpr (h p hxp)
  by_cases hk : x.key ∈ keys l
  · rw [add_of_key hk, add_of_key (hkey.mpr hk)]
  · by_cases hpl : ∀ p, x.parent = some p → p ∈ keys l
    · rw [add_of_new hk hpl, add_of_new (mt hkey.mp hk) (hpar.mpr hpl), List.map_append]
      rfl
    · have hno : ¬ ∀ q, (mapKey f x).parent = some q → q ∈ keys (l.map (mapKey f)) := mt hpar.mp hpl
      push Not at hpl hno
      obtain ⟨p, hxp, hn⟩ := hpl
      obtain ⟨q, hxq, hn'⟩ := hno
      rw [add_of_orphan hxp hn, add_of_orphan hxq hn']

theorem map_addAll {f : κ → κ'} {P : κ → Prop} (hf : ∀ k k', P k → P k' → f k = f k' → k = k')
    {l xs : List (Item κ δ)} (hl : ∀ x ∈ l, P x.key)
    (hxs : ∀ x ∈ xs, P x.key ∧ ∀ p, x.parent = some p → P p) :
    (addAll xs l).map (mapKey f) = addAll (xs.map (mapKey f)) (l.map (mapKey f)) := by
  induction xs generalizing l with
  | nil => rfl
  | cons x xs ih =>
      obtain ⟨hx, hp⟩ := hxs x List.mem_cons_self
      have hadd : ∀ y ∈ add l x, P y.key := fun y hy => by
        rcases add_cases l x with he | ⟨he, -⟩ <;> rw [he] at hy
        · exact hl y hy
        · rcases List.mem_append.mp hy with hy | hy
          · exact hl y hy
          · rw [List.mem_singleton.mp hy]
            exact hx
      show (addAll xs (add l x)).map (mapKey f) = _
      rw [ih hadd fun y hy => hxs y (List.mem_cons_of_mem _ hy), map_add hf hl hx hp]
      rfl

end Map

end Forest
