import Mathlib.Data.List.DropRight
import OpcuaLight.Lib.Pieces

/-!
# Paths

Where a POSIX path leads from a working directory, with a place as the names from the root down to it and without
symbolic links, and the functions of Node's `path` module that take a path apart and put it together.

* `resolve_concat` : a name below a path;
* `resolve_normalize` : a normalized path leads to the same place;
* `resolve_join` : a joined path leads to the name below the place of the first;
* `resolve_dirname` : `dirname` leads to the place that a name stands in.
-/

namespace Paths

def slash : UInt8 := 47

def dot : UInt8 := 46

/-! ## Places -/

/-- A segment of a path: nothing, the directory above, or a name. -/
inductive Step (ν : Type*) where
  | stay
  | up
  | down (name : ν)

section Walk
variable {ν : Type*} {place : List ν} {steps : List (Step ν)}

/-- From one place to the next; the root is above itself. -/
def move (place : List ν) : Step ν → List ν
  | .stay => place
  | .up => place.dropLast
  | .down name => place ++ [name]

def walk (place : List ν) (steps : List (Step ν)) : List ν := steps.foldl move place

theorem walk_append (place : List ν) (steps steps' : List (Step ν)) :
    walk place (steps ++ steps') = walk (walk place steps) steps' := List.foldl_append

theorem walk_concat (place : List ν) (steps : List (Step ν)) (s : Step ν) :
    walk place (steps ++ [s]) = move (walk place steps) s := walk_append place steps [s]

/-- One segment of `normalizeString`, on the segments that are kept so far. -/
def push (aboveRoot : Bool) (stack : List (Step ν)) : Step ν → List (Step ν)
  | .stay => stack
  | .down name => stack ++ [.down name]
  | .up =>
      match stack.getLast? with
      | some (.down _) => stack.dropLast
      | _ => if aboveRoot then stack ++ [.up] else stack

def normal (aboveRoot : Bool) (steps : List (Step ν)) : List (Step ν) := steps.foldl (push aboveRoot) []

/-- The kept segments lead below the root by names alone. -/
def OnlyDown (stack : List (Step ν)) : Prop := ∀ s ∈ stack, ∃ name, s = .down name

theorem onlyDown_push {stack : List (Step ν)} (h : OnlyDown stack) (s : Step ν) : OnlyDown (push false stack s) := by
  cases s with
  | stay => exact h
  | down name =>
      intro x hx
      rcases List.mem_append.mp hx with hx | hx
      · exact h x hx
      · exact ⟨name, List.mem_singleton.mp hx⟩
  | up =>
      rw [push]
      split
      · exact fun x hx => h x (List.dropLast_subset _ hx)
      · exact h

/-- **One segment.** It is walked either way. -/
theorem walk_push {aboveRoot : Bool} {stack : List (Step ν)}
    (h : aboveRoot = true ∨ place = [] ∧ OnlyDown stack) (s : Step ν) :
    walk place (push aboveRoot stack s) = move (walk place stack) s := by
  cases s with
  | stay => rfl
  | down name => exact walk_concat place stack (.down name)
  | up =>
      rw [push]
      split
      · -- a name and the way up from it cancel
        rename_i name hlast
        obtain ⟨front, rfl⟩ := List.getLast?_eq_some_iff.mp hlast
        rw [List.dropLast_concat, walk_concat, move, move, List.dropLast_concat]
      · rename_i hno
        rcases h with rfl | ⟨rfl, hdown⟩
        · exact walk_concat place stack .up
        · have hnil : stack = [] := by
            rcases List.eq_nil_or_concat stack with hnil | ⟨front, last, hconcat⟩
            · exact hnil
            · rw [List.concat_eq_append] at hconcat
              obtain ⟨name, rfl⟩ := hdown last (by rw [hconcat]; exact List.mem_concat_self)
              exact absurd (by rw [hconcat]; exact List.getLast?_concat) (hno name)
          rw [hnil]
          cases aboveRoot <;> rfl

theorem walk_normal {aboveRoot : Bool} (h : aboveRoot = true ∨ place = []) (steps : List (Step ν)) :
    walk place (normal aboveRoot steps) = walk place steps := by
  have hrun : ∀ stack, (aboveRoot = true ∨ place = [] ∧ OnlyDown stack) →
      walk place (steps.foldl (push aboveRoot) stack) = walk (walk place stack) steps := by
    induction steps with
    | nil => exact fun stack _ => rfl
    | cons s steps ih =>
        intro stack hstack
        have hnext : aboveRoot = true ∨ place = [] ∧ OnlyDown (push aboveRoot stack s) := by
          cases aboveRoot with
          | true => exact Or.inl rfl
          | false => exact Or.inr ((hstack.resolve_left (by decide)).imp_right fun hdown => onlyDown_push hdown s)
        rw [List.foldl_cons, ih _ hnext, walk_push hstack]
        rfl
  exact hrun [] (h.imp_right fun hplace => ⟨hplace, fun s hs => absurd hs List.not_mem_nil⟩)

/-- What is kept has been given, or is the way up. -/
theorem mem_normal {aboveRoot : Bool} {s : Step ν} (h : s ∈ normal aboveRoot steps) :
    s = .up ∨ s ∈ steps ∧ ∃ name, s = .down name := by
  have hrun : ∀ stack, s ∈ steps.foldl (push aboveRoot) stack →
      s ∈ stack ∨ s = .up ∨ s ∈ steps ∧ ∃ name, s = .down name := by
    clear h
    induction steps with
    | nil => exact fun stack h => Or.inl h
    | cons x steps ih =>
        intro stack h
        rcases ih _ h with hin | hup | ⟨hin, hdown⟩
        · cases x with
          | stay => exact Or.inl hin
          | down name =>
              rcases List.mem_append.mp hin with hin | hin
              · exact Or.inl hin
              · rw [List.mem_singleton.mp hin]
                exact Or.inr (Or.inr ⟨List.mem_cons_self, name, rfl⟩)
          | up =>
              rw [push] at hin
              split at hin
              · exact Or.inl (List.dropLast_subset _ hin)
              · split_ifs at hin
                · rcases List.mem_append.mp hin with hin | hin
                  · exact Or.inl hin
                  · exact Or.inr (Or.inl (List.mem_singleton.mp hin))
                · exact Or.inl hin
        · exact Or.inr (Or.inl hup)
        · exact Or.inr (Or.inr ⟨List.mem_cons_of_mem x hin, hdown⟩)
  exact (hrun [] h).resolve_left List.not_mem_nil

end Walk

/-! ## Texts -/

abbrev Text := List UInt8

def step (segment : Text) : Step Text :=
  if segment = [] ∨ segment = [dot] then .stay else if segment = [dot, dot] then .up else .down segment

def steps (path : Text) : List (Step Text) := (path.splitOn slash).map step

def IsAbsolute (path : Text) : Prop := path.head? = some slash

instance (path : Text) : Decidable (IsAbsolute path) := inferInstanceAs (Decidable (_ = _))

/-- The place that a path starts at. -/
def start (cwd : List Text) (path : Text) : List Text := if IsAbsolute path then [] else cwd

/-- The place that a path leads to. -/
def resolve (cwd : List Text) (path : Text) : List Text := walk (start cwd path) (steps path)

/-- The text of a segment. -/
def segment : Step Text → Text
  | .stay => []
  | .up => [dot, dot]
  | .down name => name

def normalize (path : Text) : Text :=
  if path = [] then [dot]
  else
    let trailing := path.getLast? = some slash
    let kept := [slash].intercalate ((normal (!decide (IsAbsolute path)) (steps path)).map segment)
    if kept = [] then if IsAbsolute path then [slash] else if trailing then [dot, slash] else [dot]
    else
      let kept := if trailing then kept ++ [slash] else kept
      if IsAbsolute path then slash :: kept else kept

/-- `path.join` of two arguments. -/
def join (a b : Text) : Text :=
  let args := [a, b].filter (· ≠ [])
  if args = [] then [dot] else normalize ([slash].intercalate args)

/-- The loop of `path.dirname` from an index down: where the directory ends. -/
def dirnameEnd (path : Text) : ℕ → Bool → Option ℕ
  | 0, _ => none
  | i + 1, matchedSlash =>
      if path[i + 1]? = some slash then if matchedSlash then dirnameEnd path i true else some (i + 1)
      else dirnameEnd path i false

def dirname (path : Text) : Text :=
  if path = [] then [dot]
  else match dirnameEnd path (path.length - 1) true with
    | none => if IsAbsolute path then [slash] else [dot]
    | some stop => if IsAbsolute path ∧ stop = 1 then [slash, slash] else path.take stop

variable {cwd : List Text} {path a b name : Text}

@[simp] theorem steps_nil : steps [] = [.stay] := rfl

/-- A slash between two texts. -/
theorem steps_append_slash (a b : Text) : steps (a ++ slash :: b) = steps a ++ steps b := by
  rw [steps, List.splitOn_append_cons_self, List.map_append]
  rfl

theorem steps_of_notMem (h : slash ∉ name) : steps name = [step name] := by
  rw [steps, List.splitOn_eq_singleton h]
  rfl

theorem isAbsolute_append (hne : a ≠ []) : IsAbsolute (a ++ b) ↔ IsAbsolute a := by
  unfold IsAbsolute
  rw [List.head?_append_of_ne_nil _ hne]

/-- A name below a path. -/
theorem resolve_concat (hne : a ≠ []) (hname : slash ∉ name) :
    resolve cwd (a ++ slash :: name) = move (resolve cwd a) (step name) := by
  have hstart : start cwd (a ++ slash :: name) = start cwd a := by
    simp only [start, isAbsolute_append hne]
  rw [resolve, hstart, steps_append_slash, steps_of_notMem hname, walk_concat]
  rfl

/-! ## Normalization -/

theorem step_segment_of_mem {s : Step Text} {aboveRoot : Bool} (h : s ∈ normal aboveRoot (steps path)) :
    step (segment s) = s ∧ slash ∉ segment s ∧ segment s ≠ [] := by
  rcases mem_normal h with rfl | ⟨hmem, name, rfl⟩
  · exact ⟨rfl, by decide, by decide⟩
  · obtain ⟨piece, hpiece, hstep⟩ := List.mem_map.mp hmem
    have hslash := Pieces.notMem_of_mem_splitOn hpiece
    unfold step at hstep
    split_ifs at hstep with hstay hup
    have hname : piece = name := Step.down.inj hstep
    rw [hname] at hstay hup hslash
    refine ⟨?_, hslash, fun hnil => hstay (Or.inl hnil)⟩
    rw [segment, step, if_neg hstay, if_neg hup]

theorem steps_kept {stack : List (Step Text)} (hne : stack ≠ [])
    (h : ∀ s ∈ stack, step (segment s) = s ∧ slash ∉ segment s ∧ segment s ≠ []) :
    steps ([slash].intercalate (stack.map segment)) = stack := by
  rw [steps, List.splitOn_intercalate, List.map_map]
  · conv_rhs => rw [← List.map_id stack]
    exact List.map_congr_left fun s hs => (h s hs).1
  · intro piece hpiece
    obtain ⟨s, hs, rfl⟩ := List.mem_map.mp hpiece
    exact (h s hs).2.1
  · simpa using hne

/-- The text of kept segments starts with no slash. -/
theorem kept_head {stack : List (Step Text)} (hne : stack ≠ [])
    (h : ∀ s ∈ stack, step (segment s) = s ∧ slash ∉ segment s ∧ segment s ≠ []) :
    ∃ c ∈ ([slash].intercalate (stack.map segment)).head?, c ≠ slash := by
  obtain ⟨s, rest, rfl⟩ := List.exists_cons_of_ne_nil hne
  obtain ⟨-, hslash, hsegment⟩ := h s List.mem_cons_self
  obtain ⟨c, cs, hc⟩ := List.exists_cons_of_ne_nil hsegment
  have hhead : c ∈ (segment s).head? := by
    rw [hc]
    rfl
  refine ⟨c, Pieces.head?_intercalate hhead, ?_⟩
  rintro rfl
  rw [hc] at hslash
  exact hslash List.mem_cons_self

theorem resolve_of_isAbsolute (h : IsAbsolute path) : resolve cwd path = walk [] (steps path) := by
  rw [resolve, start, if_pos h]

theorem resolve_of_not_isAbsolute (h : ¬ IsAbsolute path) : resolve cwd path = walk cwd (steps path) := by
  rw [resolve, start, if_neg h]

/-- **A normalized path leads to the same place.** -/
theorem resolve_normalize (hne : path ≠ []) : resolve cwd (normalize path) = resolve cwd path := by
  have hmem : ∀ s ∈ normal (!decide (IsAbsolute path)) (steps path),
      step (segment s) = s ∧ slash ∉ segment s ∧ segment s ≠ [] := fun s hs => step_segment_of_mem hs
  have hwalk : walk (start cwd path) (normal (!decide (IsAbsolute path)) (steps path)) = resolve cwd path := by
    refine walk_normal ?_ (steps path)
    by_cases habs : IsAbsolute path
    · exact Or.inr (if_pos habs)
    · exact Or.inl (by rw [decide_eq_false habs]; rfl)
  unfold normalize
  rw [if_neg hne]
  simp only
  generalize normal (!decide (IsAbsolute path)) (steps path) = stack at hmem hwalk
  by_cases hstack : stack = []
  · subst hstack
    have hkept : [slash].intercalate (([] : List (Step Text)).map segment) = [] := rfl
    rw [← hwalk, hkept, if_pos rfl, start]
    split_ifs with habs htrailing
    · rfl
    · rfl
    · rfl
  · obtain ⟨c, hc, hslash⟩ := kept_head hstack hmem
    have hsteps := steps_kept hstack hmem
    generalize [slash].intercalate (stack.map segment) = kept at hc hsteps
    have hkept : kept ≠ [] := by
      rintro rfl
      cases hc
    have hrelative : ¬ IsAbsolute kept := by
      intro habs
      exact hslash (Option.some.inj (hc.symm.trans habs))
    have htrailed : ∀ place, walk place (steps (if path.getLast? = some slash then kept ++ [slash] else kept)) =
        walk place stack := by
      intro place
      split_ifs
      · rw [steps_append_slash, hsteps, walk_append]
        rfl
      · rw [hsteps]
    have hhead : ¬ IsAbsolute (if path.getLast? = some slash then kept ++ [slash] else kept) := by
      split_ifs
      · rw [isAbsolute_append hkept]
        exact hrelative
      · exact hrelative
    rw [if_neg hkept]
    by_cases habs : IsAbsolute path
    · rw [if_pos habs, resolve_of_isAbsolute (show IsAbsolute (slash :: _) from rfl), ← hwalk, start, if_pos habs, ← htrailed []]
      exact (congrArg (walk []) (steps_append_slash [] _)).trans rfl
    · rw [if_neg habs, resolve_of_not_isAbsolute hhead, ← hwalk, start, if_neg habs, htrailed]

/-- A joined path. -/
theorem resolve_join (ha : a ≠ []) (hname : name ≠ []) (hslash : slash ∉ name) :
    resolve cwd (join a name) = move (resolve cwd a) (step name) := by
  have hargs : [a, name].filter (· ≠ []) = [a, name] := by simp [ha, hname]
  have htext : [slash].intercalate [a, name] = a ++ slash :: name := by simp [List.intercalate]
  rw [join, hargs, if_neg (List.cons_ne_nil _ _), htext, resolve_normalize (List.append_ne_nil_of_left_ne_nil ha _),
    resolve_concat ha hslash]

/-! ## Directories -/

section Dirname
variable {base q : Text} {k : ℕ}

/-- Where no slash is in front of the slashes at the end, the loop finds none. -/
theorem dirnameEnd_flat (hbase : slash ∉ base) : ∀ {n : ℕ} {matched : Bool},
    n < (base ++ List.replicate k slash).length → (base.length ≤ n → matched = true) →
      dirnameEnd (base ++ List.replicate k slash) n matched = none
  | 0, _, _, _ => rfl
  | n + 1, matched, hn, hmatched => by
      rw [dirnameEnd]
      by_cases hin : n + 1 < base.length
      · have hne : (base ++ List.replicate k slash)[n + 1]? ≠ some slash := by
          rw [List.getElem?_append_left hin]
          exact fun h => hbase (List.mem_of_getElem? h)
        rw [if_neg hne]
        exact dirnameEnd_flat hbase (by omega) fun h => absurd h (by omega)
      · have hslash : (base ++ List.replicate k slash)[n + 1]? = some slash := by
          rw [List.length_append, List.length_replicate] at hn
          rw [List.getElem?_append_right (by omega), List.getElem?_replicate, if_pos (by omega)]
        rw [if_pos hslash, hmatched (by omega), if_pos rfl]
        exact dirnameEnd_flat hbase (by omega) fun _ => rfl

/-- Behind a name the loop stops at the slash in front of it, unless that is the first character. -/
theorem dirnameEnd_below (hbase : slash ∉ base) (hpos : 0 < base.length) : ∀ {n : ℕ} {matched : Bool}, q.length ≤ n →
    n < (q ++ slash :: (base ++ List.replicate k slash)).length →
      (q.length + 1 + base.length ≤ n → matched = true) → (n = q.length → matched = false) →
        dirnameEnd (q ++ slash :: (base ++ List.replicate k slash)) n matched =
          if q = [] then none else some q.length
  | 0, _, hle, _, _, _ => by
      have hq : q = [] := List.length_eq_zero_iff.mp (by omega)
      rw [if_pos hq]
      rfl
  | n + 1, matched, hle, hn, hmatched, hstop => by
      rw [dirnameEnd]
      rcases Nat.eq_or_lt_of_le hle with hq | hq
      · -- the slash in front of the name
        have hslash : (q ++ slash :: (base ++ List.replicate k slash))[n + 1]? = some slash := by
          rw [List.getElem?_append_right (by omega), ← hq, Nat.sub_self]
          rfl
        have hne : q ≠ [] := by
          rintro rfl
          cases hq
        rw [if_pos hslash, hstop hq.symm, if_neg (by decide), if_neg hne, hq]
      · have hget : (q ++ slash :: (base ++ List.replicate k slash))[n + 1]? =
            (base ++ List.replicate k slash)[n - q.length]? := by
          rw [List.getElem?_append_right (by omega), show n + 1 - q.length = n - q.length + 1 by omega,
            List.getElem?_cons_succ]
        rw [hget]
        by_cases hin : n - q.length < base.length
        · have hne : (base ++ List.replicate k slash)[n - q.length]? ≠ some slash := by
            rw [List.getElem?_append_left hin]
            exact fun h => hbase (List.mem_of_getElem? h)
          rw [if_neg hne]
          exact dirnameEnd_below hbase hpos (by omega) (by omega) (fun h => absurd h (by omega)) fun _ => rfl
        · have hslash : (base ++ List.replicate k slash)[n - q.length]? = some slash := by
            rw [List.length_append, List.length_cons, List.length_append, List.length_replicate] at hn
            rw [List.getElem?_append_right (by omega), List.getElem?_replicate, if_pos (by omega)]
          rw [if_pos hslash, hmatched (by omega), if_pos rfl]
          exact dirnameEnd_below hbase hpos (by omega) (by omega) (fun _ => rfl) fun h => absurd h (by omega)

/-- `dirname` of a name with slashes behind it. -/
theorem dirname_flat (hbase : slash ∉ base) : dirname (base ++ List.replicate k slash) =
    if base = [] ∧ k ≠ 0 then [slash] else [dot] := by
  by_cases hempty : base ++ List.replicate k slash = []
  · obtain ⟨hnil, hk⟩ := List.append_eq_nil_iff.mp hempty
    have hzero : k = 0 := by simpa using hk
    rw [dirname, if_pos hempty, if_neg fun h => h.2 hzero]
  · have hpos := List.length_pos_of_ne_nil hempty
    have hend : dirnameEnd (base ++ List.replicate k slash) ((base ++ List.replicate k slash).length - 1) true = none :=
      dirnameEnd_flat hbase (by omega) fun _ => rfl
    rw [dirname, if_neg hempty, hend]
    simp only
    by_cases hnil : base = []
    · subst hnil
      have hpos : k ≠ 0 := by simpa using hempty
      have habs : IsAbsolute ([] ++ List.replicate k slash) := by
        obtain ⟨k, rfl⟩ := Nat.exists_eq_succ_of_ne_zero hpos
        rfl
      rw [if_pos habs, if_pos ⟨rfl, hpos⟩]
    · have habs : ¬ IsAbsolute (base ++ List.replicate k slash) := by
        rw [isAbsolute_append hnil]
        exact fun h => hbase (List.mem_of_mem_head? h)
      rw [if_neg habs, if_neg fun h => hnil h.1]

/-- `dirname` of a name below a path, with slashes behind it. -/
theorem dirname_below (hbase : slash ∉ base) (hne : base ≠ []) (q : Text) (k : ℕ) :
    dirname (q ++ slash :: (base ++ List.replicate k slash)) =
      if q = [] then [slash] else if q = [slash] then [slash, slash] else q := by
  have hpos := List.length_pos_of_ne_nil hne
  have hlen : (q ++ slash :: (base ++ List.replicate k slash)).length = q.length + 1 + base.length + k := by
    rw [List.length_append, List.length_cons, List.length_append, List.length_replicate]
    omega
  have hend : dirnameEnd (q ++ slash :: (base ++ List.replicate k slash)) (q.length + 1 + base.length + k - 1) true =
      if q = [] then none else some q.length :=
    dirnameEnd_below hbase hpos (by omega) (by omega) (fun _ => rfl) fun h => absurd h (by omega)
  rw [dirname, if_neg (List.append_ne_nil_of_right_ne_nil _ (List.cons_ne_nil _ _)), hlen, hend]
  by_cases hq : q = []
  · subst hq
    rfl
  · rw [if_neg hq, if_neg hq]
    simp only
    by_cases hroot : q = [slash]
    · subst hroot
      rfl
    · have hstop : ¬ (IsAbsolute (q ++ slash :: (base ++ List.replicate k slash)) ∧ q.length = 1) := by
        rw [isAbsolute_append hq]
        rintro ⟨habs, hone⟩
        obtain ⟨c, rfl⟩ := List.length_eq_one_iff.mp hone
        exact hroot (congrArg (fun c => [c]) (Option.some.inj habs))
      rw [if_neg hroot, if_neg hstop, List.take_left]

end Dirname

/-! ## The parts of a path -/

/-- What is behind the last slash. -/
def fileName (path : Text) : Text := path.rtakeWhile (· ≠ slash)

/-- The text up to and including the last slash. -/
def directory (path : Text) : Text := path.rdropWhile (· ≠ slash)

/-- The text without the slashes at its end. -/
def unslashed (path : Text) : Text := path.rdropWhile (· = slash)

section Parts
variable {d base : Text}

/-- What is left when no more than the end behind an element is dropped. -/
theorem rdropWhile_append_cons {p : UInt8 → Bool} {c : UInt8} (front tail : Text) (hc : p c = false)
    (htail : ∀ x ∈ tail, p x = true) : (front ++ c :: tail).rdropWhile p = front ++ [c] := by
  induction tail using List.reverseRecOn with
  | nil => exact List.rdropWhile_concat_neg p front c (by rw [hc]; decide)
  | append_singleton tail x ih =>
      have hx : p x = true := htail x (List.mem_append_right _ (List.mem_singleton.mpr rfl))
      have hassoc : front ++ c :: (tail ++ [x]) = front ++ c :: tail ++ [x] := by simp
      rw [hassoc, List.rdropWhile_concat_pos p _ x hx]
      exact ih fun y hy => htail y (List.mem_append_left _ hy)

/-- The last place of an element. -/
theorem exists_last {c : UInt8} {text : Text} (h : c ∈ text) : ∃ front tail, text = front ++ c :: tail ∧ c ∉ tail := by
  obtain ⟨tail, front, hrev, hno⟩ := List.eq_append_cons_of_mem (List.mem_reverse.mpr h)
  refine ⟨front.reverse, tail.reverse, ?_, fun hin => hno (List.mem_reverse.mp hin)⟩
  have hback := congrArg List.reverse hrev
  rw [List.reverse_reverse, List.reverse_append, List.reverse_cons, List.append_assoc] at hback
  exact hback

theorem directory_append_fileName (path : Text) : directory path ++ fileName path = path :=
  List.rdropWhile_append_rtakeWhile

theorem notMem_fileName (path : Text) : slash ∉ fileName path := fun h => by
  simpa using List.mem_rtakeWhile_imp h

/-- A directory is empty, or ends in a slash. -/
theorem directory_ends (path : Text) : directory path = [] ∨ ∃ q, directory path = q ++ [slash] := by
  by_cases hnil : directory path = []
  · exact Or.inl hnil
  · have hlast : (directory path).getLast hnil = slash := by
      have hstop := List.rdropWhile_last_not (fun c => decide (c ≠ slash)) path hnil
      rw [decide_eq_true_eq, not_not] at hstop
      exact hstop
    exact Or.inr ⟨(directory path).dropLast, by rw [← hlast, List.dropLast_append_getLast]⟩

theorem unslashed_append_slashes (path : Text) : ∃ k, path = unslashed path ++ List.replicate k slash := by
  refine ⟨(path.rtakeWhile (· = slash)).length, ?_⟩
  have hall : path.rtakeWhile (· = slash) = List.replicate (path.rtakeWhile (· = slash)).length slash :=
    List.eq_replicate_of_mem fun c hc => by simpa using List.mem_rtakeWhile_imp hc
  rw [← hall]
  exact List.rdropWhile_append_rtakeWhile.symm

theorem fileName_unslashed (h : unslashed path ≠ []) : fileName (unslashed path) ≠ [] := by
  intro hnil
  have hlast : (unslashed path).getLast h ≠ slash := by
    have hstop := List.rdropWhile_last_not (fun c => decide (c = slash)) path h
    rw [decide_eq_true_eq] at hstop
    exact hstop
  rw [fileName, List.rtakeWhile_eq_nil_iff] at hnil
  exact hnil h (decide_eq_true hlast)

theorem resolve_nil (cwd : List Text) : resolve cwd [] = cwd := rfl

/-- A directory leads to where the path in front of its last slash does. -/
theorem resolve_ended (cwd : List Text) (q : Text) :
    resolve cwd (q ++ [slash]) = walk (start cwd (q ++ [slash])) (steps q) := by
  rw [resolve, steps_append_slash, steps_nil, walk_concat]
  rfl

/-- A name in a directory. -/
theorem resolve_inside (cwd : List Text) (hd : d = [] ∨ ∃ q, d = q ++ [slash]) (hname : slash ∉ name) :
    resolve cwd (d ++ name) = move (resolve cwd d) (step name) := by
  rcases hd with rfl | ⟨q, rfl⟩
  · have hrelative : ¬ IsAbsolute name := fun h => hname (List.mem_of_mem_head? h)
    rw [List.nil_append, resolve_nil, resolve_of_not_isAbsolute hrelative, steps_of_notMem hname]
    rfl
  · have hstart : start cwd (q ++ [slash] ++ name) = start cwd (q ++ [slash]) := by
      simp only [start, isAbsolute_append (List.append_ne_nil_of_right_ne_nil q (List.cons_ne_nil slash []))]
    rw [resolve_ended, resolve, hstart, List.append_assoc, List.singleton_append, steps_append_slash,
      steps_of_notMem hname, walk_concat]

/-- Slashes at the end lead nowhere else. -/
theorem walk_slashes (place : List Text) (a : Text) (k : ℕ) :
    walk place (steps (a ++ List.replicate k slash)) = walk place (steps a) := by
  induction k with
  | zero => rw [List.replicate_zero, List.append_nil]
  | succ k ih =>
      rw [List.replicate_succ', ← List.append_assoc, steps_append_slash, steps_nil, walk_concat, ih]
      rfl

/-- **The directory of a name**, with slashes behind it, is the one that it stands in. -/
theorem resolve_dirname (cwd : List Text) (hd : d = [] ∨ ∃ q, d = q ++ [slash]) (hbase : slash ∉ base)
    (hne : base ≠ []) (k : ℕ) : dirname (d ++ base ++ List.replicate k slash) ≠ [] ∧
      resolve cwd (dirname (d ++ base ++ List.replicate k slash)) = resolve cwd d := by
  rcases hd with rfl | ⟨q, rfl⟩
  · rw [List.nil_append, dirname_flat hbase, if_neg fun h => hne h.1]
    exact ⟨List.cons_ne_nil _ _, rfl⟩
  · have htext : q ++ [slash] ++ base ++ List.replicate k slash = q ++ slash :: (base ++ List.replicate k slash) := by
      simp
    rw [htext, dirname_below hbase hne, resolve_ended]
    split_ifs with hq hroot
    · subst hq
      exact ⟨List.cons_ne_nil _ _, rfl⟩
    · subst hroot
      exact ⟨List.cons_ne_nil _ _, rfl⟩
    · refine ⟨hq, ?_⟩
      simp only [resolve, start, isAbsolute_append hq]

theorem dirname_slashes (cwd : List Text) (k : ℕ) : dirname (List.replicate k slash) ≠ [] ∧
    resolve cwd (dirname (List.replicate k slash)) = resolve cwd (List.replicate k slash) := by
  have hflat := dirname_flat (k := k) (List.not_mem_nil (a := slash))
  rw [List.nil_append] at hflat
  rw [hflat]
  cases k with
  | zero => exact ⟨List.cons_ne_nil _ _, rfl⟩
  | succ k =>
      rw [if_pos ⟨rfl, Nat.succ_ne_zero k⟩]
      refine ⟨List.cons_ne_nil _ _, ?_⟩
      have habs : IsAbsolute (List.replicate (k + 1) slash) := rfl
      rw [resolve_of_isAbsolute habs]
      exact (walk_slashes [] [] (k + 1)).symm

/-- A segment leads nowhere exactly if it is a dot, or the way up from the root. -/
theorem move_eq_self {place : List Text} (hne : base ≠ []) :
    move place (step base) = place ↔ base = [dot] ∨ base = [dot, dot] ∧ place = [] := by
  unfold step
  split_ifs with hstay hup
  · exact iff_of_true rfl (Or.inl (hstay.resolve_left hne))
  · subst hup
    constructor
    · intro h
      have hlen := congrArg List.length h
      rw [move, List.length_dropLast] at hlen
      exact Or.inr ⟨rfl, List.length_eq_zero_iff.mp (by omega)⟩
    · intro h
      rw [(h.resolve_left (by decide)).2]
      rfl
  · refine iff_of_false (fun h => ?_) fun h => ?_
    · exact List.cons_ne_nil _ _ (List.append_right_eq_self.mp h)
    · rcases h with h | h
      · exact hstay (Or.inr h)
      · exact hup h.1

end Parts

end Paths
