import OpcuaLight.Cert.Validation
import OpcuaLight.Lib.Pieces

/-!
# IP addresses

The textual forms of addresses as a grammar, and what `validateIpAddress` makes of them: it recognises dotted
decimals and IPv6 addresses of groups, and refuses the mixed notation that its documentation names
(`mixed_refused`).
-/

namespace OpcuaLight.Cert

/-! ## The grammar -/

/-- A number up to 255 in decimal without leading zeros. -/
def IsOctet (cs : List Char) : Prop := ∃ n ≤ 255, cs = Nat.toDigits 10 n

/-- Four octets separated by dots. -/
def IsDottedDecimal (cs : List Char) : Prop :=
  ∃ octets : List (List Char), octets.length = 4 ∧ (∀ o ∈ octets, IsOctet o) ∧ cs = ['.'].intercalate octets

/-- One to four hexadecimal digits. -/
def IsGroup (cs : List Char) : Prop := 1 ≤ cs.length ∧ cs.length ≤ 4 ∧ ∀ c ∈ cs, isHexDigit c = true

/-- Groups separated by colons. -/
def colons (groups : List (List Char)) : List Char := [':'].intercalate groups

/-- An IPv6 address of groups only: all eight of them, or fewer with `::` for those left out. -/
inductive IsIpv6 : List Char → Prop
  | full {groups : List (List Char)} : groups.length = 8 → (∀ g ∈ groups, IsGroup g) →
      IsIpv6 (colons groups)
  | compressed {left right : List (List Char)} : left.length + right.length ≤ 7 →
      (∀ g ∈ left, IsGroup g) → (∀ g ∈ right, IsGroup g) → IsIpv6 (colons left ++ "::".toList ++ colons right)

/-- An IPv6 address whose last two groups are written as a dotted decimal. -/
inductive IsMixedIpv6 : List Char → Prop
  | full {groups : List (List Char)} {quad : List Char} : groups.length = 6 → (∀ g ∈ groups, IsGroup g) →
      IsDottedDecimal quad → IsMixedIpv6 (colons groups ++ ':' :: quad)
  | compressed {left right : List (List Char)} {quad : List Char} : left.length + right.length ≤ 5 →
      (∀ g ∈ left, IsGroup g) → (∀ g ∈ right, IsGroup g) → IsDottedDecimal quad →
      IsMixedIpv6 (colons left ++ "::".toList ++ colons (right ++ [quad]))

/-- An address in one of the textual forms. -/
def IsIpAddress (cs : List Char) : Prop := IsDottedDecimal cs ∨ IsIpv6 cs ∨ IsMixedIpv6 cs

/-! ## Dotted decimals -/

theorem isOctet_toDigits : ∀ n < 256, isOctet (Nat.toDigits 10 n) = true := by decide +kernel

theorem isOctet_iff (cs : List Char) : isOctet cs = true ↔ IsOctet cs := by
  constructor
  · intro h
    simp only [isOctet, Bool.and_eq_true, decide_eq_true_eq] at h
    exact ⟨Js.digitsValue cs, h.1.2, h.2.symm⟩
  · rintro ⟨n, hn, rfl⟩
    exact isOctet_toDigits n (by omega)

theorem dot_notMem_octet {cs : List Char} (h : IsOctet cs) : '.' ∉ cs := by
  obtain ⟨n, -, rfl⟩ := h
  intro hmem
  have hdigit := Nat.isDigit_of_mem_toDigits (by decide) (by decide) hmem
  exact absurd hdigit (by decide)

theorem isValidIpv4_iff (cs : List Char) : isValidIpv4 cs = true ↔ IsDottedDecimal cs := by
  simp only [isValidIpv4, Bool.and_eq_true, decide_eq_true_eq, List.all_eq_true, isOctet_iff]
  constructor
  · rintro ⟨hlen, hoctets⟩
    exact ⟨cs.splitOn '.', hlen, hoctets, (List.intercalate_splitOn '.').symm⟩
  · rintro ⟨octets, hlen, hoctets, rfl⟩
    have hne : octets ≠ [] := List.ne_nil_of_length_pos (by omega)
    rw [List.splitOn_intercalate '.' (fun o ho => dot_notMem_octet (hoctets o ho)) hne]
    exact ⟨hlen, hoctets⟩

/-! ## Groups -/

theorem isGroup_iff (cs : List Char) : isGroup cs = true ↔ IsGroup cs := by
  simp only [isGroup, Bool.and_eq_true, decide_eq_true_eq, List.all_eq_true, IsGroup, and_assoc]

theorem notMem_group {cs : List Char} (h : IsGroup cs) {c : Char} (hc : isHexDigit c = false) : c ∉ cs :=
  fun hmem => by rw [h.2.2 c hmem] at hc; cases hc

theorem notMem_colons {groups : List (List Char)} (h : ∀ g ∈ groups, IsGroup g) {c : Char}
    (hc : isHexDigit c = false) (hne : c ≠ ':') : c ∉ colons groups := fun hmem => by
  rcases Pieces.mem_intercalate hmem with heq | ⟨g, hg, hcg⟩
  · exact hne heq
  · exact notMem_group (h g hg) hc hcg

theorem groupsOf_colons {groups : List (List Char)} (h : ∀ g ∈ groups, IsGroup g) :
    groupsOf (colons groups) = groups := by
  cases groups with
  | nil => rfl
  | cons g groups =>
      have hne : colons (g :: groups) ≠ [] := by
        have hpos := (h g List.mem_cons_self).1
        intro hnil
        have hlen := congrArg List.length hnil
        cases groups with
        | nil => rw [colons, List.intercalate_singleton, List.length_nil] at hlen; omega
        | cons next groups => simp [colons, List.intercalate_cons_cons] at hlen
      rw [groupsOf, if_neg hne]
      exact List.splitOn_intercalate ':' (fun g hg => notMem_group (h g hg) (by decide))
        (List.cons_ne_nil _ _)

theorem colons_groupsOf (cs : List Char) : colons (groupsOf cs) = cs := by
  unfold groupsOf
  split_ifs with h
  · exact h.symm
  · exact List.intercalate_splitOn ':'

/-! ## Double colons -/

theorem splitDoubleColon_ne_nil (cs : List Char) : splitDoubleColon cs ≠ [] := by
  fun_induction splitDoubleColon cs <;> simp_all

theorem length_splitDoubleColon (cs : List Char) :
    (splitDoubleColon cs).length = doubleColonCount cs + 1 := by
  fun_induction splitDoubleColon cs <;> simp_all [doubleColonCount]

theorem intercalate_modifyHead (sep : List Char) (c : Char) {parts : List (List Char)} (h : parts ≠ []) :
    sep.intercalate (parts.modifyHead (c :: ·)) = c :: sep.intercalate parts := by
  obtain ⟨part, parts, rfl⟩ := List.exists_cons_of_ne_nil h
  cases parts with
  | nil => rfl
  | cons next parts => simp [List.intercalate_cons_cons]

theorem intercalate_splitDoubleColon (cs : List Char) :
    [':', ':'].intercalate (splitDoubleColon cs) = cs := by
  fun_induction splitDoubleColon cs with
  | case1 cs ih =>
      obtain ⟨part, parts, hparts⟩ := List.exists_cons_of_ne_nil (splitDoubleColon_ne_nil cs)
      rw [hparts] at ih ⊢
      rw [List.intercalate_cons_cons, ih]
      rfl
  | case2 c cs _ ih => rw [intercalate_modifyHead _ _ (splitDoubleColon_ne_nil cs), ih]
  | case3 => rfl

theorem splitDoubleColon_cons {c : Char} {cs : List Char} (h : c = ':' → cs.head? ≠ some ':') :
    splitDoubleColon (c :: cs) = (splitDoubleColon cs).modifyHead (c :: ·) := by
  rw [splitDoubleColon]
  rintro rest rfl rfl
  exact h rfl rfl

/-- No double colon starts in a text without colons. -/
theorem splitDoubleColon_append {cs : List Char} (h : ':' ∉ cs) (rest : List Char) :
    splitDoubleColon (cs ++ rest) = (splitDoubleColon rest).modifyHead (cs ++ ·) := by
  induction cs with
  | nil => exact (congrFun List.modifyHead_id _).symm
  | cons c cs ih =>
      rw [List.mem_cons, not_or] at h
      rw [List.cons_append, splitDoubleColon_cons (fun hc => absurd hc.symm h.1), ih h.2,
        List.modifyHead_modifyHead]
      rfl

/-- Nor does one start in groups that are separated by colons. -/
theorem splitDoubleColon_colons {groups : List (List Char)} (h : ∀ g ∈ groups, IsGroup g)
    (rest : List Char) :
    splitDoubleColon (colons groups ++ rest) = (splitDoubleColon rest).modifyHead (colons groups ++ ·) := by
  induction groups with
  | nil => exact (congrFun List.modifyHead_id _).symm
  | cons g groups ih =>
      have hg := notMem_group (h g List.mem_cons_self) (c := ':') (by decide)
      cases groups with
      | nil =>
          rw [colons, List.intercalate_singleton]
          exact splitDoubleColon_append hg rest
      | cons next groups =>
          obtain ⟨d, next', rfl⟩ := List.exists_cons_of_length_pos
            (h next (List.mem_cons_of_mem _ List.mem_cons_self)).1
          have hd : d ≠ ':' := fun heq => notMem_group (h _ (List.mem_cons_of_mem _ List.mem_cons_self))
            (c := ':') (by decide) (heq ▸ List.mem_cons_self)
          have hnext : (colons ((d :: next') :: groups)).head? = some d := by
            cases groups with
            | nil => rfl
            | cons => simp [colons, List.intercalate_cons_cons]
          have hhead : (colons ((d :: next') :: groups) ++ rest).head? ≠ some ':' := by
            rw [List.head?_append, hnext]
            exact fun heq => hd (Option.some.inj heq)
          have hsplit : colons (g :: (d :: next') :: groups) ++ rest =
              g ++ ':' :: (colons ((d :: next') :: groups) ++ rest) := by
            simp [colons, List.intercalate_cons_cons]
          rw [hsplit, splitDoubleColon_append hg, splitDoubleColon_cons (fun _ => hhead),
            ih (fun g' hg' => h g' (List.mem_cons_of_mem _ hg')), List.modifyHead_modifyHead,
            List.modifyHead_modifyHead]
          congr 1
          funext cs
          simp [colons, List.intercalate_cons_cons]

/-! ## The recogniser -/

theorem isIpv6_of_valid {cs : List Char} (h : isValidIpv6 cs = true) : IsIpv6 cs := by
  unfold isValidIpv6 at h
  split_ifs at h with hempty hzone hmany hone
  · -- one double colon
    have hlen := length_splitDoubleColon cs
    have hjoin := intercalate_splitDoubleColon cs
    rw [hone] at hlen
    obtain ⟨left, right, hparts⟩ := List.length_eq_two.mp hlen
    rw [hparts] at h hjoin
    simp only [Bool.and_eq_true, decide_eq_true_eq, List.all_append, List.all_eq_true, isGroup_iff] at h
    have hform := IsIpv6.compressed h.1 h.2.1 h.2.2
    rw [colons_groupsOf, colons_groupsOf] at hform
    rw [List.intercalate_cons_cons, List.intercalate_singleton] at hjoin
    rwa [← hjoin]
  · simp only [Bool.and_eq_true, decide_eq_true_eq, List.all_eq_true, isGroup_iff] at h
    have hform := IsIpv6.full h.1 h.2
    rwa [colons, List.intercalate_splitOn] at hform

/-- An address has hexadecimal digits and colons only. -/
theorem notMem_ipv6 {cs : List Char} (h : IsIpv6 cs) {c : Char} (hc : isHexDigit c = false) (hne : c ≠ ':') :
    c ∉ cs := by
  cases h with
  | full _ hgroups => exact notMem_colons hgroups hc hne
  | compressed _ hleft hright =>
      intro hmem
      rcases List.mem_append.mp hmem with hmem | hmem
      · rcases List.mem_append.mp hmem with hmem | hmem
        · exact notMem_colons hleft hc hne hmem
        · exact hne (by simpa using hmem)
      · exact notMem_colons hright hc hne hmem

theorem valid_of_isIpv6 {cs : List Char} (h : IsIpv6 cs) : isValidIpv6 cs = true := by
  cases h with
  | @full groups hlen hgroups =>
      have hcount : doubleColonCount (colons groups) = 0 := by
        have hsplit := congrArg List.length (splitDoubleColon_colons hgroups [])
        rw [List.append_nil, length_splitDoubleColon, List.length_modifyHead] at hsplit
        exact Nat.succ.inj hsplit
      have hne : groups ≠ [] := List.ne_nil_of_length_pos (by omega)
      have hparts : (colons groups).splitOn ':' = groups :=
        List.splitOn_intercalate ':' (fun g hg => notMem_group (hgroups g hg) (by decide)) hne
      have hlength : (colons groups).length ≠ 0 := fun h0 => by
        have hback := groupsOf_colons hgroups
        rw [List.eq_nil_of_length_eq_zero h0] at hback
        exact hne hback.symm
      unfold isValidIpv6
      rw [if_neg hlength, if_neg (notMem_colons hgroups (by decide) (by decide)), if_neg (by omega),
        if_neg (by omega), hparts]
      simp only [Bool.and_eq_true, decide_eq_true_eq, List.all_eq_true, isGroup_iff]
      exact ⟨hlen, hgroups⟩
  | @compressed left right hlen hleft hright =>
      have hsplit : splitDoubleColon (colons left ++ "::".toList ++ colons right) =
          [colons left, colons right] := by
        have hrest : splitDoubleColon (colons right) = [colons right] := by
          have hcolons := splitDoubleColon_colons hright []
          rw [List.append_nil] at hcolons
          rw [hcolons]
          simp [splitDoubleColon]
        rw [List.append_assoc, splitDoubleColon_colons hleft]
        show (splitDoubleColon (':' :: ':' :: colons right)).modifyHead _ = _
        rw [splitDoubleColon, hrest]
        simp
      have hcount : doubleColonCount (colons left ++ "::".toList ++ colons right) = 1 := by
        have hlength := length_splitDoubleColon (colons left ++ "::".toList ++ colons right)
        rw [hsplit] at hlength
        exact (Nat.succ.inj hlength).symm
      have hzone : '%' ∉ colons left ++ "::".toList ++ colons right :=
        notMem_ipv6 (.compressed hlen hleft hright) (by decide) (by decide)
      unfold isValidIpv6
      rw [if_neg (by simp), if_neg hzone, if_neg (by omega), if_pos hcount, hsplit]
      simp only [groupsOf_colons hleft, groupsOf_colons hright, Bool.and_eq_true, decide_eq_true_eq,
        List.all_append, List.all_eq_true, isGroup_iff]
      exact ⟨hlen, hleft, hright⟩

theorem isValidIpv6_iff (cs : List Char) : isValidIpv6 cs = true ↔ IsIpv6 cs :=
  ⟨isIpv6_of_valid, valid_of_isIpv6⟩

theorem validateIpAddress_iff_or (s : String) : validateIpAddress s = true ↔
    IsDottedDecimal (Js.trim s).toList ∨ IsIpv6 (Js.trim s).toList := by
  unfold validateIpAddress
  simp only
  split_ifs with hempty
  · refine iff_of_false nofun fun h => ?_
    rw [List.eq_nil_of_length_eq_zero hempty] at h
    rcases h with h | h
    · exact absurd ((isValidIpv4_iff []).mpr h) (by decide)
    · exact absurd ((isValidIpv6_iff []).mpr h) (by decide)
  · rw [Bool.or_eq_true, isValidIpv4_iff, isValidIpv6_iff]

/-! ## The mixed notation -/

theorem colon_notMem_dotted {cs : List Char} (h : IsDottedDecimal cs) : ':' ∉ cs := by
  obtain ⟨octets, -, hoctets, rfl⟩ := h
  intro hmem
  rcases Pieces.mem_intercalate hmem with heq | ⟨o, ho, hc⟩
  · cases heq
  · obtain ⟨n, -, rfl⟩ := hoctets o ho
    exact absurd (Nat.isDigit_of_mem_toDigits (by decide) (by decide) hc) (by decide)

theorem dot_mem_dotted {cs : List Char} (h : IsDottedDecimal cs) : '.' ∈ cs := by
  obtain ⟨octets, hlen, -, rfl⟩ := h
  match octets, hlen with
  | a :: b :: octets, _ =>
      rw [List.intercalate_cons_cons, List.append_assoc]
      exact List.mem_append_right _ List.mem_cons_self

theorem mem_mixed {cs : List Char} (h : IsMixedIpv6 cs) : ':' ∈ cs ∧ '.' ∈ cs := by
  cases h with
  | full _ _ hquad =>
      exact ⟨List.mem_append_right _ List.mem_cons_self,
        List.mem_append_right _ (List.mem_cons_of_mem _ (dot_mem_dotted hquad))⟩
  | @compressed left right quad _ _ _ hquad =>
      exact ⟨List.mem_append_left _ (List.mem_append_right _ List.mem_cons_self),
        List.mem_append_right _ (Pieces.mem_of_mem_piece (List.mem_append_right _ List.mem_cons_self)
          (dot_mem_dotted hquad))⟩

/-- A mixed address is refused. -/
theorem mixed_refused {cs : List Char} (h : IsMixedIpv6 cs) : ¬ (IsDottedDecimal cs ∨ IsIpv6 cs) := by
  rintro (hdotted | hipv6)
  · exact colon_notMem_dotted hdotted (mem_mixed h).1
  · exact notMem_ipv6 hipv6 (by decide) (by decide) (mem_mixed h).2

/-- **The recogniser of addresses.** It accepts a text exactly if that is an address once trimmed, unless the
text is in mixed notation. -/
theorem validateIpAddress_exact_iff (s : String) :
    (validateIpAddress s = true ↔ IsIpAddress (Js.trim s).toList) ↔ ¬ IsMixedIpv6 (Js.trim s).toList := by
  rw [validateIpAddress_iff_or, IsIpAddress, ← or_assoc]
  constructor
  · intro h hmixed
    exact mixed_refused hmixed (h.mpr (Or.inr hmixed))
  · intro hmixed
    exact (or_iff_left hmixed).symm

theorem mappedAddress_refused : ¬ (validateIpAddress "::ffff:192.168.1.1" = true ↔
    IsIpAddress (Js.trim "::ffff:192.168.1.1").toList) := by
  have htrim : (Js.trim "::ffff:192.168.1.1").toList = "::ffff:192.168.1.1".toList := by decide
  have hquad : IsDottedDecimal "192.168.1.1".toList := (isValidIpv4_iff _).mp (by decide)
  have hmixed : IsMixedIpv6 "::ffff:192.168.1.1".toList :=
    @IsMixedIpv6.compressed [] ["ffff".toList] _ (by decide) nofun
      (fun g hg => (isGroup_iff g).mp (by rw [List.mem_singleton.mp hg]; decide)) hquad
  intro h
  have hno : ¬ validateIpAddress "::ffff:192.168.1.1" = true := by decide
  exact hno (h.mpr (htrim ▸ Or.inr (Or.inr hmixed)))

end OpcuaLight.Cert
