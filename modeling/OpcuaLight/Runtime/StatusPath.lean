import Mathlib.Data.Nat.PSub
import OpcuaLight.Lib.Paths
import OpcuaLight.Runtime.PemToDer
import OpcuaLight.Runtime.Stdin

/-!
# The path of the status file

`main` derives `status_path` from its argument with the functions of C strings, and the process manager looks for
the file with `dirname` and `join`. Both see a path as the bytes of its text, on a POSIX system.
-/

namespace OpcuaLight.Runtime

open Paths

def backslash : UInt8 := 92

/-- `sizeof(ctx.status_path)`. -/
def pathSize : ℕ := 4096

def statusName : Text := ascii "status.json"

/-! ## `main.c` -/

namespace CharArray

variable {size : ℕ}

/-- `strncpy` to the array: at most `n` bytes, and NULs up to `n`. -/
def strncpy (a : CharArray size) (s : List UInt8) (n : ℕ) : Option (CharArray size) :=
  a.write 0 (s.take n ++ List.replicate (n - s.length) 0)

/-- `strcpy` to an offset. -/
def strcpy (a : CharArray size) (offset : ℕ) (s : List UInt8) : Option (CharArray size) := a.write offset (s ++ [0])

/-- `strrchr`: where the last of the characters stands that are equal to `c`. -/
def strrchr (a : CharArray size) (c : UInt8) : Option ℕ := ((a.string 0).rdropWhile (· ≠ c)).length.ppred

end CharArray

/-- `strncpy` with one byte less than the size, and the NUL in the last byte. -/
def copyPath (a : CharArray pathSize) (s : List UInt8) : Option (CharArray pathSize) :=
  (a.strncpy s (pathSize - 1)).bind fun a => a.write (pathSize - 1) [0]

/-- The context is zeroed. -/
def zeroed : CharArray pathSize := ⟨List.replicate pathSize 0, List.length_replicate⟩

/-- The last separator of either kind. -/
def lastSep (a : CharArray pathSize) : Option ℕ :=
  match a.strrchr slash, a.strrchr backslash with
  | lastSep, none => lastSep
  | none, some lastSepWin => some lastSepWin
  | some lastSep, some lastSepWin => if lastSep < lastSepWin then some lastSepWin else some lastSep

/-- `status_path` when it has been derived from the argument; there is no result if a write leaves it. -/
def deriveStatusPath (argv1 : Text) : Option (CharArray pathSize) := do
  let configPath ← copyPath zeroed argv1
  let statusPath ← copyPath zeroed (configPath.string 0)
  match lastSep statusPath with
  | some i => statusPath.strcpy (i + 1) statusName
  | none => statusPath.strcpy 0 statusName

/-! ## `process-manager/index.ts` -/

/-- `join(dirname(this.configFilePath), 'status.json')`. -/
def managerStatusPath (configFilePath : Text) : Text := join (dirname configFilePath) statusName

/-! ## The text that is derived -/

/-- The text up to and including its last separator. -/
def upToSeparator (s : Text) : Text := s.rdropWhile (fun c => c ≠ slash && c ≠ backslash)

variable {s argv1 : Text} {cwd : List Text}

theorem copyPath_spec (hs : 0 ∉ s) : ∃ a rest, copyPath zeroed s = some a ∧
    a.bytes = s.take (pathSize - 1) ++ 0 :: rest ∧ a.string 0 = s.take (pathSize - 1) := by
  have hlen : (s.take (pathSize - 1) ++ List.replicate (pathSize - 1 - s.length) 0).length = pathSize - 1 := by
    rw [List.length_append, List.length_take, List.length_replicate]
    omega
  obtain ⟨a₁, hcopy, ha₁⟩ := zeroed.write_eq 0 (s.take (pathSize - 1) ++ List.replicate (pathSize - 1 - s.length) 0)
    (by rw [hlen]; decide)
  obtain ⟨a, hend, ha⟩ := a₁.write_eq (pathSize - 1) [0] (by decide)
  have hdrop : a₁.bytes.drop (pathSize - 1 + [(0 : UInt8)].length) = [] :=
    List.drop_eq_nil_of_le (by rw [a₁.length_bytes]; decide)
  have hbytes : a.bytes = s.take (pathSize - 1) ++ 0 :: List.replicate (pathSize - 1 - s.length) 0 := by
    rw [ha, hdrop, ha₁, List.take_zero, List.nil_append, List.take_left' hlen, List.append_nil, List.append_assoc,
      ← List.replicate_succ', List.replicate_succ]
  refine ⟨a, _, by rw [copyPath, CharArray.strncpy, hcopy, Option.bind_some, hend], hbytes, ?_⟩
  exact @CharArray.string_eq _ a [] _ _ hbytes fun hin => hs (List.mem_of_mem_take hin)

theorem length_upToSeparator (s : Text) : (upToSeparator s).length =
    max (s.rdropWhile (· ≠ slash)).length (s.rdropWhile (· ≠ backslash)).length := by
  induction s using List.reverseRecOn with
  | nil => rfl
  | append_singleton s c ih =>
      have hkeep : ∀ p : UInt8 → Bool, p c = false → (s ++ [c]).rdropWhile p = s ++ [c] := fun p hp =>
        List.rdropWhile_concat_neg p s c (by rw [hp]; decide)
      have hdrop : ∀ p : UInt8 → Bool, p c = true → (s ++ [c]).rdropWhile p = s.rdropWhile p := fun p hp =>
        List.rdropWhile_concat_pos p s c hp
      have hle : ∀ p : UInt8 → Bool, (s.rdropWhile p).length ≤ (s ++ [c]).length := fun p => by
        rw [List.length_append]
        exact Nat.le_add_right_of_le (List.rdropWhile_prefix p s).length_le
      unfold upToSeparator at ih ⊢
      by_cases hslash : c = slash
      · subst hslash
        rw [hkeep _ (by decide), hkeep _ (by decide), hdrop _ (by decide), Nat.max_eq_left (hle _)]
      · by_cases hback : c = backslash
        · subst hback
          rw [hkeep _ (by decide), hdrop _ (by decide), hkeep _ (by decide), Nat.max_eq_right (hle _)]
        · have hneither : (decide (c ≠ slash) && decide (c ≠ backslash)) = true := by
            rw [decide_eq_true hslash, decide_eq_true hback]
            rfl
          rw [hdrop _ hneither, hdrop _ (decide_eq_true hslash), hdrop _ (decide_eq_true hback)]
          exact ih

/-- The branches find the last separator of either kind. -/
theorem lastSep_eq (a : CharArray pathSize) : lastSep a = (upToSeparator (a.string 0)).length.ppred := by
  rw [length_upToSeparator]
  unfold lastSep CharArray.strrchr
  generalize ((a.string 0).rdropWhile (· ≠ slash)).length = m
  generalize ((a.string 0).rdropWhile (· ≠ backslash)).length = n
  cases m with
  | zero => cases n <;> simp
  | succ m =>
      cases n with
      | zero => simp
      | succ n =>
          simp only [Nat.ppred_succ, Nat.succ_max_succ]
          split_ifs with hlt
          · rw [Nat.max_eq_right (Nat.le_of_lt hlt)]
          · rw [Nat.max_eq_left (Nat.not_lt.mp hlt)]

/-- **The derivation.** It stays inside the array exactly if the name fits behind the last separator, and then its
text is the path up to there with the name. -/
theorem deriveStatusPath_spec (hs : 0 ∉ argv1) :
    ((deriveStatusPath argv1).isSome = true ↔ (upToSeparator (argv1.take (pathSize - 1))).length + 12 ≤ pathSize) ∧
      ∀ a ∈ deriveStatusPath argv1, a.string 0 = upToSeparator (argv1.take (pathSize - 1)) ++ statusName := by
  obtain ⟨configPath, -, hconfig, -, htext⟩ := copyPath_spec hs
  have hs' : 0 ∉ argv1.take (pathSize - 1) := fun hin => hs (List.mem_of_mem_take hin)
  obtain ⟨a, rest, hcopy, hbytes, hstring⟩ := copyPath_spec hs'
  rw [List.take_take, Nat.min_self] at hbytes hstring
  have hfront : upToSeparator (argv1.take (pathSize - 1)) <+: argv1.take (pathSize - 1) := List.rdropWhile_prefix _ _
  have hrun : deriveStatusPath argv1 = a.strcpy (upToSeparator (argv1.take (pathSize - 1))).length statusName := by
    unfold deriveStatusPath
    rw [hconfig]
    simp only [Option.bind_eq_bind, Option.bind_some]
    rw [htext, hcopy, Option.bind_some, lastSep_eq, hstring]
    cases (upToSeparator (argv1.take (pathSize - 1))).length <;> rfl
  have hlen : (statusName ++ [0]).length = 12 := by decide
  rw [hrun, CharArray.strcpy]
  by_cases hfits : (upToSeparator (argv1.take (pathSize - 1))).length + 12 ≤ pathSize
  · obtain ⟨a', hwrite, ha'⟩ := a.write_eq (upToSeparator (argv1.take (pathSize - 1))).length (statusName ++ [0])
      (by rw [hlen]; exact hfits)
    have hkept : a.bytes.take (upToSeparator (argv1.take (pathSize - 1))).length =
        upToSeparator (argv1.take (pathSize - 1)) := by
      obtain ⟨tail, htail⟩ := hfront.trans (List.prefix_append _ (0 :: rest))
      rw [hbytes, ← htail]
      exact List.take_left
    refine ⟨iff_of_true (by rw [hwrite]; rfl) hfits, fun b hb => ?_⟩
    rw [hwrite, Option.mem_some_iff] at hb
    subst hb
    rw [hkept, ← List.append_assoc, List.append_assoc _ [0]] at ha'
    refine @CharArray.string_eq _ a' [] _ _ ha' fun hin => ?_
    rcases List.mem_append.mp hin with hin | hin
    · exact hs' (hfront.subset hin)
    · exact absurd hin (by decide)
  · have hnone : a.write (upToSeparator (argv1.take (pathSize - 1))).length (statusName ++ [0]) = none := by
      rw [CharArray.write, dif_neg (by rw [hlen]; exact hfits)]
    rw [hnone]
    exact ⟨iff_of_false (by decide) hfits, fun b hb => by cases hb⟩

/-! ## The file that the manager reads -/

/-- Behind the last slash there is no backslash, and slashes at the end follow no segment but a dot, or the way up
from the root. -/
structure NamesFile (cwd : List Text) (path : Text) : Prop where
  noBackslash : backslash ∉ fileName path
  ended : fileName path = [] → fileName (unslashed path) = [] ∨ fileName (unslashed path) = [dot] ∨
    fileName (unslashed path) = [dot, dot] ∧ resolve cwd (directory (unslashed path)) = []

theorem upToSeparator_of_noBackslash (h : backslash ∉ fileName s) : upToSeparator s = directory s := by
  have hall : ∀ c ∈ fileName s, (decide (c ≠ slash) && decide (c ≠ backslash)) = true := by
    intro c hc
    have hslash : c ≠ slash := fun heq => notMem_fileName s (heq ▸ hc)
    have hback : c ≠ backslash := fun heq => h (heq ▸ hc)
    rw [decide_eq_true hslash, decide_eq_true hback]
    rfl
  have hsplit := directory_append_fileName s
  obtain hnil | ⟨q, hq⟩ := directory_ends s
  · rw [hnil, List.nil_append] at hsplit
    rw [hnil, upToSeparator, List.rdropWhile_eq_nil_iff, ← hsplit]
    exact hall
  · rw [hq, List.append_assoc] at hsplit
    rw [hq, upToSeparator, ← hsplit]
    exact rdropWhile_append_cons q _ (by decide) hall

/-- Where a backslash is the last separator, the name is part of a longer one. -/
theorem upToSeparator_of_backslash (h : backslash ∈ fileName s) :
    ∃ front, slash ∉ front ∧ upToSeparator s = directory s ++ (front ++ [backslash]) := by
  obtain ⟨front, tail, hfile, htail⟩ := exists_last h
  have hslash := notMem_fileName s
  rw [hfile, List.mem_append, List.mem_cons, not_or, not_or] at hslash
  refine ⟨front, hslash.1, ?_⟩
  have hsplit := directory_append_fileName s
  rw [hfile, ← List.append_assoc] at hsplit
  have hdrop : (directory s ++ front ++ backslash :: tail).rdropWhile
      (fun c => decide (c ≠ slash) && decide (c ≠ backslash)) = directory s ++ front ++ [backslash] := by
    refine rdropWhile_append_cons _ _ (by decide) fun c hc => ?_
    have hne : c ≠ slash := fun heq => hslash.2.2 (heq ▸ hc)
    have hback : c ≠ backslash := fun heq => htail (heq ▸ hc)
    rw [decide_eq_true hne, decide_eq_true hback]
    rfl
  rw [hsplit, List.append_assoc] at hdrop
  exact hdrop

/-- Where the directory of a path without a backslash behind its last slash leads. -/
theorem resolve_dirname_iff (cwd : List Text) (s : Text) : dirname s ≠ [] ∧
    (resolve cwd (directory s) = resolve cwd (dirname s) ↔ (fileName s = [] →
      fileName (unslashed s) = [] ∨ fileName (unslashed s) = [dot] ∨
        fileName (unslashed s) = [dot, dot] ∧ resolve cwd (directory (unslashed s)) = [])) := by
  have hsplit := directory_append_fileName s
  by_cases hfile : fileName s = []
  · obtain ⟨k, hk⟩ := unslashed_append_slashes s
    rw [hfile, List.append_nil] at hsplit
    rw [hsplit]
    by_cases hbody : unslashed s = []
    · have hall : s = List.replicate k slash := by rw [hk, hbody, List.nil_append]
      obtain ⟨hne, hsame⟩ := dirname_slashes cwd k
      rw [← hall] at hne hsame
      exact ⟨hne, iff_of_true hsame.symm fun _ => Or.inl (by rw [hbody]; rfl)⟩
    · have hname := fileName_unslashed hbody
      have hparts := directory_append_fileName (unslashed s)
      obtain ⟨hne, hsame⟩ := resolve_dirname cwd (directory_ends (unslashed s)) (notMem_fileName _) hname k
      rw [hparts, ← hk] at hne hsame
      have hwhole : resolve cwd s = move (resolve cwd (directory (unslashed s))) (step (fileName (unslashed s))) := by
        rw [← resolve_inside cwd (directory_ends _) (notMem_fileName _), hparts, resolve, resolve]
        conv_lhs => rw [hk]
        rw [walk_slashes]
        simp only [start, isAbsolute_append hbody]
      refine ⟨hne, ?_⟩
      rw [hsame, hwhole, move_eq_self hname]
      exact ⟨fun h _ => Or.inr h, fun h => (h hfile).resolve_left hname⟩
  · obtain ⟨hne, hsame⟩ := resolve_dirname cwd (directory_ends s) (notMem_fileName s) hfile 0
    rw [List.replicate_zero, List.append_nil, hsplit] at hne hsame
    exact ⟨hne, iff_of_true hsame.symm fun h => absurd h hfile⟩

/-- **The file of the runtime is the one that the manager reads**, exactly for these paths. -/
theorem sameFile_iff : resolve cwd (upToSeparator s ++ statusName) = resolve cwd (managerStatusPath s) ↔
    NamesFile cwd s := by
  obtain ⟨hne, hiff⟩ := resolve_dirname_iff cwd s
  have hmanager : resolve cwd (managerStatusPath s) = resolve cwd (dirname s) ++ [statusName] :=
    resolve_join hne (by decide) (by decide)
  rw [hmanager]
  by_cases hback : backslash ∈ fileName s
  · obtain ⟨front, hslash, htext⟩ := upToSeparator_of_backslash hback
    have hin : backslash ∈ front ++ [backslash] ++ statusName := by simp
    have hnone : slash ∉ front ++ [backslash] ++ statusName := by
      rw [List.mem_append, List.mem_append, not_or, not_or]
      exact ⟨⟨hslash, by decide⟩, by decide⟩
    have hstep : step (front ++ [backslash] ++ statusName) = .down (front ++ [backslash] ++ statusName) := by
      rw [step, if_neg, if_neg]
      · intro h
        rw [h] at hin
        exact absurd hin (by decide)
      · rintro (h | h)
        · rw [h] at hin
          exact absurd hin List.not_mem_nil
        · rw [h] at hin
          exact absurd hin (by decide)
    rw [htext, List.append_assoc, resolve_inside cwd (directory_ends s) hnone, hstep, move]
    refine iff_of_false (fun h => ?_) fun h => h.noBackslash hback
    have hname : front ++ [backslash] ++ statusName = statusName :=
      (List.cons.inj (List.append_inj' h rfl).2).1
    rw [hname] at hin
    exact absurd hin (by decide)
  · rw [upToSeparator_of_noBackslash hback, resolve_inside cwd (directory_ends s) (by decide)]
    have hstep : step statusName = .down statusName := rfl
    rw [hstep, move, List.append_left_inj, hiff]
    exact ⟨fun h => ⟨hback, h⟩, fun h => h.ended⟩

/-! ## The derivation and the manager -/

/-- What is asked of the derivation: it stays inside the array, and for a path that is not truncated its text names the
file in the directory of the path that the manager reads. -/
structure Derived (cwd : List Text) (argv1 : Text) : Prop where
  inBounds : (deriveStatusPath argv1).isSome = true
  text : argv1.length < pathSize → ∀ a ∈ deriveStatusPath argv1, a.string 0 = upToSeparator argv1 ++ statusName
  sameFile : argv1.length < pathSize → ∀ a ∈ deriveStatusPath argv1,
    resolve cwd (a.string 0) = resolve cwd (managerStatusPath argv1)

/-- **The derivation is right exactly** if the last separator leaves room for the name, and a path that is not
truncated names its file in the sense of both sides. -/
theorem derived_iff (cwd : List Text) (hs : 0 ∉ argv1) : Derived cwd argv1 ↔
    (upToSeparator (argv1.take (pathSize - 1))).length ≤ pathSize - 12 ∧
      (argv1.length < pathSize → NamesFile cwd argv1) := by
  obtain ⟨hbounds, htext⟩ := deriveStatusPath_spec hs
  have hfits : (upToSeparator (argv1.take (pathSize - 1))).length + 12 ≤ pathSize ↔
      (upToSeparator (argv1.take (pathSize - 1))).length ≤ pathSize - 12 :=
    (Nat.le_sub_iff_add_le (by decide)).symm
  have hwhole : argv1.length < pathSize → argv1.take (pathSize - 1) = argv1 := fun h =>
    List.take_of_length_le (Nat.le_sub_one_of_lt h)
  constructor
  · rintro ⟨hsome, -, hsame⟩
    refine ⟨hfits.mp (hbounds.mp hsome), fun hshort => ?_⟩
    obtain ⟨a, ha⟩ := Option.isSome_iff_exists.mp hsome
    have hfile := hsame hshort a ha
    rw [htext a ha, hwhole hshort] at hfile
    exact sameFile_iff.mp hfile
  · rintro ⟨hlen, hnames⟩
    refine ⟨hbounds.mpr (hfits.mpr hlen), fun hshort a ha => ?_, fun hshort a ha => ?_⟩
    · rw [htext a ha, hwhole hshort]
    · rw [htext a ha, hwhole hshort]
      exact sameFile_iff.mpr (hnames hshort)

theorem derived_runtime : Derived [] (ascii "runtime/config.json") :=
  (derived_iff [] (by decide)).mpr ⟨by decide, fun _ => ⟨by decide, fun h => absurd h (by decide)⟩⟩

/-- Slashes with a name behind them, which are not truncated but leave no room for the other name. -/
theorem slashes_outOfBounds {n : ℕ} (hlow : pathSize - 12 < n) (hhigh : n < pathSize - 1) :
    0 ∉ List.replicate n slash ++ ascii "x" ∧ ¬ Derived [] (List.replicate n slash ++ ascii "x") := by
  have hno : 0 ∉ List.replicate n slash ++ ascii "x" := by
    rw [List.mem_append, List.mem_replicate, not_or]
    exact ⟨fun h => absurd h.2 (by decide), by decide⟩
  refine ⟨hno, fun h => ?_⟩
  have hlen : (List.replicate n slash ++ ascii "x").length = n + 1 := by
    rw [List.length_append, List.length_replicate]
    rfl
  have htake : (List.replicate n slash ++ ascii "x").take (pathSize - 1) = List.replicate n slash ++ ascii "x" :=
    List.take_of_length_le (by rw [hlen]; exact hhigh)
  have hfront : upToSeparator (List.replicate n slash ++ ascii "x") = List.replicate (n - 1) slash ++ [slash] := by
    obtain ⟨n, rfl⟩ := Nat.exists_eq_succ_of_ne_zero (Nat.ne_zero_of_lt hlow)
    rw [List.replicate_succ', List.append_assoc]
    refine rdropWhile_append_cons _ _ (by decide) fun c hc => ?_
    rw [show c = 120 from List.mem_singleton.mp hc]
    decide
  have hbounds := (deriveStatusPath_spec hno).1.mp h.inBounds
  rw [htake, hfront, List.length_append, List.length_replicate, List.length_singleton] at hbounds
  omega

theorem longDirectory_outOfBounds : 0 ∉ List.replicate 4085 slash ++ ascii "x" ∧
    ¬ Derived [] (List.replicate 4085 slash ++ ascii "x") :=
  slashes_outOfBounds (by decide) (by decide)

end OpcuaLight.Runtime
