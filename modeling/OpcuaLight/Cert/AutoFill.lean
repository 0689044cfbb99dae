import Mathlib.Data.List.Nodup
import OpcuaLight.Cert.IpAddress

/-!
# Hosts for the subject alternative names

`getAutoFillHosts` of the security routes: the addresses of the interfaces and the hosts of `CERT_EXTRA_HOSTS`, as
IP or DNS names. It tells addresses from names by a test for IPv4 only, so that an IPv6 address becomes a
DNS name, which the validation of the request refuses (`autoFilled_iff`).
-/

namespace OpcuaLight.Cert

/-! ## `routes/security.ts` -/

structure NetworkAddress where
  family : String
  internal : Bool
  address : String

/-- `networkInterfaces()`. -/
abbrev NetworkInterfaces := List (String × Option (List NetworkAddress))

/-- `Set.prototype.add`. -/
def addTo (set : List String) (x : String) : List String := if x ∈ set then set else set ++ [x]

def getLocalIpAddresses (interfaces : NetworkInterfaces) : List String :=
  interfaces.foldl (fun ips i => (i.2.getD []).foldl (fun ips addr =>
    if addr.family = "IPv4" && !addr.internal then addTo ips addr.address else ips) ips) ["127.0.0.1"]

def looksLikeIpv4 (value : List Char) : Bool :=
  let parts := value.splitOn '.'
  parts.length = 4 && parts.all (fun p => isDigits3 p && Js.digitsValue p ≤ 255)

/-- `split` at runs of characters. -/
def splitRuns (sep : Char → Bool) : List Char → List (List Char)
  | [] => [[]]
  | c :: cs =>
      if sep c then
        if cs.head?.any sep then splitRuns sep cs else [] :: splitRuns sep cs
      else (splitRuns sep cs).modifyHead (c :: ·)

/-- `[,\s]`. -/
def isSeparator (c : Char) : Bool := c = ',' || Js.isSpace c

/-- The tokens of `CERT_EXTRA_HOSTS`, if it is set. -/
def hostTokens (extra : Option String) : List String :=
  match extra with
  | none => []
  | some extra =>
      if (Js.trim extra).toList.length > 0 then
        ((splitRuns isSeparator extra.toList).map (fun t => Js.trim (String.ofList t))).filter
          (fun t => t.toList.length > 0)
      else []

structure Hosts where
  ipAddresses : List String
  dnsNames : List String

def getAutoFillHosts (interfaces : NetworkInterfaces) (extra : Option String) : Hosts :=
  (hostTokens extra).foldl (fun hosts token =>
    if looksLikeIpv4 token.toList then { hosts with ipAddresses := addTo hosts.ipAddresses token }
    else { hosts with dnsNames := addTo hosts.dnsNames token })
    ⟨getLocalIpAddresses interfaces, ["localhost"]⟩

/-- The names and addresses as a request has them. -/
def Hosts.request (hosts : Hosts) : GenerateCertificateRequest where
  commonName := none
  organization := none
  country := none
  dnsNames := some (.arr (hosts.dnsNames.map .str))
  ipAddresses := some (.arr (hosts.ipAddresses.map .str))

/-- What `POST /generate` passes to `generateCertificate` for an empty body: its own names, of which there are
none, and the hosts' as a set, and the hosts' addresses. -/
def emptyBodyOptions (hosts : Hosts) : GenerateCertificateRequest :=
  Hosts.request { hosts with dnsNames := hosts.dnsNames.foldl addTo [] }

/-! ## Host names -/

/-- A label: letters, digits and hyphens, with no hyphen at its ends. -/
def IsLabel (cs : List Char) : Prop :=
  1 ≤ cs.length ∧ cs.length ≤ 63 ∧ (∀ c ∈ cs, c.isAlphanum || c = '-') ∧
    cs.head? ≠ some '-' ∧ cs.getLast? ≠ some '-'

theorem isLabel_iff (cs : List Char) : IsLabel cs ↔ 1 ≤ cs.length ∧ cs.length ≤ 63 ∧
    cs.all (fun c => c.isAlphanum || c = '-') = true ∧ cs.head? ≠ some '-' ∧ cs.getLast? ≠ some '-' := by
  rw [List.all_eq_true]
  rfl

instance (cs : List Char) : Decidable (IsLabel cs) := decidable_of_iff' _ (isLabel_iff cs)

/-- Labels separated by dots, at most 253 characters, the last label not of digits only: that is how host names
differ from dotted decimals. -/
def IsHostName (cs : List Char) : Prop :=
  cs.length ≤ 253 ∧ ∃ labels last, (∀ l ∈ labels, IsLabel l) ∧ IsLabel last ∧
    ¬ last.all Char.isDigit ∧ cs = ['.'].intercalate (labels ++ [last])

/-- The hosts are accepted, as they are and as they are passed on for an empty body, and each token is listed
as what it is. -/
structure AutoFilled (interfaces : NetworkInterfaces) (extra : Option String) : Prop where
  accepted : validateGenerateRequest (getAutoFillHosts interfaces extra).request = .ok []
  emptyBody : validateGenerateRequest (emptyBodyOptions (getAutoFillHosts interfaces extra)) = .ok []
  addresses : ∀ t ∈ hostTokens extra, IsIpAddress t.toList → t ∈ (getAutoFillHosts interfaces extra).ipAddresses
  names : ∀ t ∈ hostTokens extra, IsHostName t.toList → t ∈ (getAutoFillHosts interfaces extra).dnsNames

/-! ## Tokens -/

theorem splitRuns_notMem (sep : Char → Bool) (cs : List Char) :
    ∀ piece ∈ splitRuns sep cs, ∀ c ∈ piece, sep c = false := by
  induction cs with
  | nil =>
      intro piece hpiece c hc
      rw [List.mem_singleton.mp hpiece] at hc
      cases hc
  | cons d cs ih =>
      intro piece hpiece
      rw [splitRuns] at hpiece
      split_ifs at hpiece with hd hrun
      · exact ih piece hpiece
      · rcases List.mem_cons.mp hpiece with rfl | hpiece
        · exact nofun
        · exact ih piece hpiece
      · cases hsplit : splitRuns sep cs with
        | nil =>
            rw [hsplit] at hpiece
            cases hpiece
        | cons first pieces =>
            rw [hsplit] at hpiece ih
            rcases List.mem_cons.mp hpiece with rfl | hpiece
            · intro c hc
              rcases List.mem_cons.mp hc with rfl | hc
              · exact Bool.eq_false_iff.mpr hd
              · exact ih first List.mem_cons_self c hc
            · exact ih piece (List.mem_cons_of_mem _ hpiece)

/-- A token is not empty and has no white space. -/
theorem hostTokens_spec {extra : Option String} {t : String} (h : t ∈ hostTokens extra) :
    t.toList ≠ [] ∧ ∀ c ∈ t.toList, Js.isSpace c = false := by
  cases extra with
  | none => cases h
  | some extra =>
      simp only [hostTokens] at h
      split_ifs at h with hblank
      · obtain ⟨hmem, hlen⟩ := List.mem_filter.mp h
        obtain ⟨piece, hpiece, rfl⟩ := List.mem_map.mp hmem
        have hspace : ∀ c ∈ (String.ofList piece).toList, Js.isSpace c = false := by
          intro c hc
          rw [String.toList_ofList] at hc
          have hsep := splitRuns_notMem isSeparator extra.toList piece hpiece c hc
          exact (Bool.or_eq_false_iff.mp hsep).2
        rw [Js.trim_of_no_space hspace] at hlen ⊢
        exact ⟨List.ne_nil_of_length_pos (of_decide_eq_true hlen), hspace⟩
      · cases h

/-! ## The sets -/

@[simp] theorem mem_addTo {set : List String} {x y : String} : y ∈ addTo set x ↔ y ∈ set ∨ y = x := by
  unfold addTo
  split_ifs with h
  · exact ⟨Or.inl, fun hy => hy.elim id fun he => he ▸ h⟩
  · rw [List.mem_append, List.mem_singleton]

theorem nodup_addTo {set : List String} {x : String} (h : set.Nodup) : (addTo set x).Nodup := by
  unfold addTo
  split_ifs with hx
  · exact h
  · rw [List.nodup_append]
    exact ⟨h, List.nodup_singleton x, fun a ha b hb he => hx (by rwa [← List.mem_singleton.mp hb, ← he])⟩

/-- A list without repetitions is its own set. -/
theorem foldl_addTo {set : List String} (xs : List String) (h : (set ++ xs).Nodup) :
    xs.foldl addTo set = set ++ xs := by
  induction xs generalizing set with
  | nil => exact (List.append_nil set).symm
  | cons x xs ih =>
      have hx : x ∉ set := fun hmem => (List.nodup_append.mp h).2.2 x hmem x List.mem_cons_self rfl
      have hassoc : set ++ x :: xs = set ++ [x] ++ xs := by simp
      rw [List.foldl_cons, addTo, if_neg hx, ih (hassoc ▸ h), hassoc]

/-- What a loop makes true in its rounds. -/
theorem foldl_iff {α σ : Type} {P : σ → Prop} {Q : α → Prop} {f : σ → α → σ}
    (hf : ∀ s a, P (f s a) ↔ P s ∨ Q a) (l : List α) (s : σ) : P (l.foldl f s) ↔ P s ∨ ∃ a ∈ l, Q a := by
  induction l generalizing s with
  | nil => simp
  | cons a l ih => rw [List.foldl_cons, ih, hf, or_assoc, List.exists_mem_cons_iff]

theorem mem_getLocalIpAddresses {interfaces : NetworkInterfaces} {ip : String} :
    ip ∈ getLocalIpAddresses interfaces ↔ ip = "127.0.0.1" ∨
      ∃ i ∈ interfaces, ∃ addr ∈ i.2.getD [], (addr.family = "IPv4" ∧ addr.internal = false) ∧
        ip = addr.address := by
  rw [getLocalIpAddresses, foldl_iff (P := fun ips => ip ∈ ips), List.mem_singleton]
  intro ips i
  refine foldl_iff (P := fun ips => ip ∈ ips) (fun ips addr => ?_) (i.2.getD []) ips
  by_cases hcond : addr.family = "IPv4" ∧ addr.internal = false
  · simp [hcond]
  · simp only [Bool.and_eq_true, decide_eq_true_eq, Bool.not_eq_true', hcond, if_false, false_and,
      or_false]

theorem mem_ipAddresses {interfaces : NetworkInterfaces} {extra : Option String} {ip : String} :
    ip ∈ (getAutoFillHosts interfaces extra).ipAddresses ↔ ip ∈ getLocalIpAddresses interfaces ∨
      ∃ t ∈ hostTokens extra, looksLikeIpv4 t.toList = true ∧ ip = t := by
  refine foldl_iff (P := fun hosts : Hosts => ip ∈ hosts.ipAddresses) (fun hosts t => ?_) _ _
  split_ifs with h <;> simp [h]

theorem mem_dnsNames {interfaces : NetworkInterfaces} {extra : Option String} {dns : String} :
    dns ∈ (getAutoFillHosts interfaces extra).dnsNames ↔ dns = "localhost" ∨
      ∃ t ∈ hostTokens extra, looksLikeIpv4 t.toList = false ∧ dns = t := by
  rw [← List.mem_singleton]
  refine foldl_iff (P := fun hosts : Hosts => dns ∈ hosts.dnsNames) (fun hosts t => ?_) _ _
  split_ifs with h <;> simp [h]

theorem dnsNames_nodup (interfaces : NetworkInterfaces) (extra : Option String) :
    (getAutoFillHosts interfaces extra).dnsNames.Nodup := by
  refine List.foldlRecOn (motive := fun hosts : Hosts => hosts.dnsNames.Nodup) _ _
    (List.nodup_singleton _) fun hosts hhosts t _ => ?_
  split_ifs
  · exact hhosts
  · exact nodup_addTo hhosts

theorem emptyBodyOptions_eq (interfaces : NetworkInterfaces) (extra : Option String) :
    emptyBodyOptions (getAutoFillHosts interfaces extra) = (getAutoFillHosts interfaces extra).request := by
  have hset : (getAutoFillHosts interfaces extra).dnsNames.foldl addTo [] =
      [] ++ (getAutoFillHosts interfaces extra).dnsNames :=
    foldl_addTo _ (dnsNames_nodup interfaces extra)
  rw [emptyBodyOptions, hset]
  rfl

/-! ## The validation of the hosts -/

theorem validateList_strings {field : String} {message : Nat → String} {valid : String → Bool}
    {names : List String} : validateList field message valid (some (.arr (names.map .str))) = [] ↔
      ∀ name ∈ names, valid (Js.trim name) = true := by
  rw [validateList, List.flatMap_eq_nil_iff]
  constructor
  · intro h name hname
    obtain ⟨i, hi⟩ := List.mem_iff_getElem?.mp hname
    have hitem := h (.str name, i) (List.mk_mem_zipIdx_iff_getElem?.mpr (by rw [List.getElem?_map, hi]; rfl))
    simp only at hitem
    split_ifs at hitem with hvalid
    exact hvalid
  · intro h item hitem
    have hmem := List.mem_of_getElem? (List.mk_mem_zipIdx_iff_getElem?.mp hitem)
    obtain ⟨name, hname, hstr⟩ := List.mem_map.mp hmem
    simp only [← hstr, h name hname, if_true]

theorem accepted_iff (hosts : Hosts) : validateGenerateRequest hosts.request = .ok [] ↔
    (∀ dns ∈ hosts.dnsNames, validateDnsName (Js.trim dns) = true) ∧
      ∀ ip ∈ hosts.ipAddresses, validateIpAddress (Js.trim ip) = true := by
  have hresult : validateGenerateRequest hosts.request = .ok
      (validateList "dnsNames" dnsMessage validateDnsName (some (.arr (hosts.dnsNames.map .str))) ++
        validateList "ipAddresses" ipMessage validateIpAddress (some (.arr (hosts.ipAddresses.map .str)))) :=
    rfl
  rw [hresult, Except.ok.injEq, List.append_eq_nil_iff, validateList_strings, validateList_strings]

/-! ## The tests for addresses and names -/

theorem looksLikeIpv4_of_dotted {cs : List Char} (h : IsDottedDecimal cs) : looksLikeIpv4 cs = true := by
  have hvalid := (isValidIpv4_iff cs).mpr h
  simp only [isValidIpv4, Bool.and_eq_true, List.all_eq_true] at hvalid
  simp only [looksLikeIpv4, Bool.and_eq_true, List.all_eq_true]
  refine ⟨hvalid.1, fun p hp => ?_⟩
  have hoctet := hvalid.2 p hp
  simp only [isOctet, Bool.and_eq_true] at hoctet
  exact hoctet.1

/-- What looks like an IPv4 address has digits only between its dots. -/
theorem digits_of_looksLikeIpv4 {cs : List Char} (h : looksLikeIpv4 cs = true) :
    ∀ part ∈ cs.splitOn '.', part.all Char.isDigit = true := by
  simp only [looksLikeIpv4, Bool.and_eq_true, List.all_eq_true (l := cs.splitOn '.')] at h
  intro part hpart
  have hdigits := (h.2 part hpart).1
  simp only [isDigits3, Bool.and_eq_true] at hdigits
  exact hdigits.2

theorem colon_notMem_of_looksLikeIpv4 {cs : List Char} (h : looksLikeIpv4 cs = true) : ':' ∉ cs := by
  intro hmem
  rw [show cs = ['.'].intercalate (cs.splitOn '.') from (List.intercalate_splitOn '.').symm] at hmem
  rcases Pieces.mem_intercalate hmem with heq | ⟨part, hpart, hc⟩
  · cases heq
  · exact absurd (List.all_eq_true.mp (digits_of_looksLikeIpv4 h part hpart) ':' hc) (by decide)

theorem dot_notMem_label {cs : List Char} (h : IsLabel cs) : '.' ∉ cs := fun hmem =>
  absurd (h.2.2.1 '.' hmem) (by decide)

/-- A host name does not look like an IPv4 address, for its last label. -/
theorem not_looksLikeIpv4_of_host {cs : List Char} (h : IsHostName cs) : looksLikeIpv4 cs = false := by
  obtain ⟨-, labels, last, hlabels, hlast, hdigits, rfl⟩ := h
  rw [Bool.eq_false_iff]
  intro hlooks
  have hparts : (['.'].intercalate (labels ++ [last])).splitOn '.' = labels ++ [last] := by
    refine List.splitOn_intercalate '.' (fun l hl => ?_) (by simp)
    rcases List.mem_append.mp hl with hl | hl
    · exact dot_notMem_label (hlabels l hl)
    · rw [List.mem_singleton.mp hl]
      exact dot_notMem_label hlast
  refine hdigits (digits_of_looksLikeIpv4 hlooks last ?_)
  rw [hparts]
  exact List.mem_append_right _ List.mem_cons_self

theorem hostText_of_host {cs : List Char} (h : IsHostName cs) : isHostText cs = true := by
  obtain ⟨-, labels, last, hlabels, hlast, -, rfl⟩ := h
  rw [isHostText, List.all_eq_true]
  intro c hc
  have hlabel : ∀ l ∈ labels ++ [last], IsLabel l := fun l hl =>
    (List.mem_append.mp hl).elim (hlabels l) fun hl => List.mem_singleton.mp hl ▸ hlast
  rcases Pieces.mem_intercalate hc with rfl | ⟨l, hl, hcl⟩
  · decide
  · have hchar := (hlabel l hl).2.2.1 c hcl
    simp only [Bool.or_eq_true, decide_eq_true_eq] at hchar ⊢
    exact hchar.elim (fun h => Or.inl (Or.inl h)) Or.inr

theorem toNat_lt_of_isAlphanum {c : Char} (h : c.isAlphanum = true) : c.toNat < 0x10000 := by
  have hcodes : (decide (c.val ≥ 'A'.val ∧ c.val ≤ 'Z'.val) || (decide (c.val ≥ 'a'.val) && decide (c.val ≤ 'z'.val)) ||
      (decide (c.val ≥ '0'.val) && decide (c.val ≤ '9'.val))) = true := h
  simp only [Bool.or_eq_true, Bool.and_eq_true, decide_eq_true_eq, UInt32.le_iff_toNat_le] at hcodes
  have hval : c.toNat = c.val.toNat := rfl
  rcases hcodes with ((⟨-, hle⟩ | ⟨-, hle⟩) | ⟨-, hle⟩) <;> exact lt_of_le_of_lt (hval ▸ hle) (by decide)

/-- The characters of host names are single code units. -/
theorem codeUnits_of_hostText {s : String} (h : isHostText s.toList = true) : codeUnits s = s.toList.length := by
  have hunit : ∀ c ∈ s.toList, (if c.toNat < 0x10000 then 1 else 2) = 1 := by
    intro c hc
    refine if_pos ?_
    have hchar := List.all_eq_true.mp h c hc
    simp only [Bool.or_eq_true, decide_eq_true_eq] at hchar
    rcases hchar with (hchar | rfl) | rfl
    · exact toNat_lt_of_isAlphanum hchar
    · decide
    · decide
  rw [codeUnits, List.map_congr_left hunit]
  simp

theorem validateDnsName_of_host {t : String} (hne : t.toList ≠ []) (hspace : ∀ c ∈ t.toList, Js.isSpace c = false)
    (h : IsHostName t.toList) : validateDnsName (Js.trim t) = true := by
  have htext := hostText_of_host h
  rw [validateDnsName, Js.trim_trim, Js.trim_of_no_space hspace, codeUnits_of_hostText htext]
  have hpos := List.length_pos_of_ne_nil hne
  simp only [htext, Bool.and_true, Bool.and_eq_true, decide_eq_true_eq]
  exact ⟨by omega, h.1⟩

theorem validateDnsName_of_colon {t : String} (h : ':' ∈ (Js.trim t).toList) :
    validateDnsName (Js.trim t) = false := by
  rw [validateDnsName, Js.trim_trim]
  have htext : isHostText (Js.trim t).toList = false := by
    rw [Bool.eq_false_iff]
    exact fun hall => absurd (List.all_eq_true.mp hall ':' h) (by decide)
  rw [htext, Bool.and_false]

theorem validateIpAddress_of_dotted {t : String} (h : IsDottedDecimal t.toList) :
    validateIpAddress (Js.trim t) = true := by
  have hspace : ∀ c ∈ t.toList, Js.isSpace c = false := by
    obtain ⟨octets, -, hoctets, ht⟩ := h
    intro c hc
    rw [ht] at hc
    rcases Pieces.mem_intercalate hc with rfl | ⟨o, ho, hco⟩
    · decide
    · obtain ⟨n, -, rfl⟩ := hoctets o ho
      exact Js.digit_notSpace (Nat.isDigit_of_mem_toDigits (by decide) (by decide) hco)
  rw [validateIpAddress_iff_or, Js.trim_trim, Js.trim_of_no_space hspace]
  exact Or.inl h

theorem colon_mem_ipv6 {cs : List Char} (h : IsIpv6 cs) : ':' ∈ cs := by
  cases h with
  | @full groups hlen _ =>
      match groups, hlen with
      | a :: b :: groups, _ =>
          rw [colons, List.intercalate_cons_cons, List.append_assoc]
          exact List.mem_append_right _ List.mem_cons_self
  | compressed =>
      exact List.mem_append_left _ (List.mem_append_right _ List.mem_cons_self)

/-- **Hosts that are filled in.** Where every token of `CERT_EXTRA_HOSTS` is an address or a host name, the
hosts pass the validation, listed as what they are, if and only if none of them is an IPv6 address. -/
theorem autoFilled_iff (interfaces : NetworkInterfaces) (extra : Option String)
    (hlocal : ∀ i ∈ interfaces, ∀ addr ∈ i.2.getD [], addr.family = "IPv4" → addr.internal = false →
      IsDottedDecimal addr.address.toList)
    (htokens : ∀ t ∈ hostTokens extra, IsIpAddress t.toList ∨ IsHostName t.toList) :
    AutoFilled interfaces extra ↔
      ∀ t ∈ hostTokens extra, ¬ (IsIpv6 t.toList ∨ IsMixedIpv6 t.toList) := by
  constructor
  · rintro h t ht hipv6
    have hcolon : ':' ∈ t.toList := hipv6.elim colon_mem_ipv6 fun h => (mem_mixed h).1
    have hlooks : looksLikeIpv4 t.toList = false :=
      Bool.eq_false_iff.mpr fun hlooks => colon_notMem_of_looksLikeIpv4 hlooks hcolon
    have hvalid := ((accepted_iff _).mp h.accepted).1 t (mem_dnsNames.mpr (Or.inr ⟨t, ht, hlooks, rfl⟩))
    have htrim := Js.trim_of_no_space (hostTokens_spec ht).2
    rw [validateDnsName_of_colon (by rwa [htrim])] at hvalid
    cases hvalid
  · intro h
    have hdotted : ∀ t ∈ hostTokens extra, IsIpAddress t.toList → IsDottedDecimal t.toList :=
      fun t ht hip => hip.resolve_right (h t ht)
    have haccepted : validateGenerateRequest (getAutoFillHosts interfaces extra).request = .ok [] := by
      rw [accepted_iff]
      constructor
      · intro dns hdns
        rcases mem_dnsNames.mp hdns with rfl | ⟨t, ht, hlooks, rfl⟩
        · decide
        · rcases htokens dns ht with hip | hhost
          · rw [looksLikeIpv4_of_dotted (hdotted dns ht hip)] at hlooks
            cases hlooks
          · exact validateDnsName_of_host (hostTokens_spec ht).1 (hostTokens_spec ht).2 hhost
      · intro ip hip
        rcases mem_ipAddresses.mp hip with hip | ⟨t, ht, hlooks, rfl⟩
        · rcases mem_getLocalIpAddresses.mp hip with rfl | ⟨i, hi, addr, haddr, hkind, rfl⟩
          · decide
          · exact validateIpAddress_of_dotted (hlocal i hi addr haddr hkind.1 hkind.2)
        · rcases htokens ip ht with hip | hhost
          · exact validateIpAddress_of_dotted (hdotted ip ht hip)
          · rw [not_looksLikeIpv4_of_host hhost] at hlooks
            cases hlooks
    exact
      { accepted := haccepted
        emptyBody := by rw [emptyBodyOptions_eq]; exact haccepted
        addresses := fun t ht hip => mem_ipAddresses.mpr
          (Or.inr ⟨t, ht, looksLikeIpv4_of_dotted (hdotted t ht hip), rfl⟩)
        names := fun t ht hhost => mem_dnsNames.mpr
          (Or.inr ⟨t, ht, not_looksLikeIpv4_of_host hhost, rfl⟩) }

/-- An interface and two hosts that are no IPv6 addresses. -/
def plantInterfaces : NetworkInterfaces :=
  [("lo", some [⟨"IPv4", true, "127.0.0.1"⟩]), ("eth0", some [⟨"IPv4", false, "172.17.0.2"⟩])]

theorem hostTokens_plant : hostTokens (some "192.168.1.50,plc-1.local") = ["192.168.1.50", "plc-1.local"] := by
  decide

theorem isHostName_plc : IsHostName "plc-1.local".toList :=
  ⟨by decide, ["plc-1".toList], "local".toList, fun l hl => by rw [List.mem_singleton.mp hl]; decide,
    by decide, by decide, by decide⟩

theorem autoFilled_plant :
    (∀ i ∈ plantInterfaces, ∀ addr ∈ i.2.getD [], addr.family = "IPv4" → addr.internal = false →
      IsDottedDecimal addr.address.toList) ∧
    (∀ t ∈ hostTokens (some "192.168.1.50,plc-1.local"), IsIpAddress t.toList ∨ IsHostName t.toList) ∧
    AutoFilled plantInterfaces (some "192.168.1.50,plc-1.local") := by
  have hip : IsDottedDecimal "192.168.1.50".toList := (isValidIpv4_iff _).mp (by decide)
  have hlocal : ∀ i ∈ plantInterfaces, ∀ addr ∈ i.2.getD [], addr.family = "IPv4" → addr.internal = false →
      IsDottedDecimal addr.address.toList := by
    intro i hi addr haddr _ _
    rw [← isValidIpv4_iff]
    revert i addr
    decide
  have htokens : ∀ t ∈ hostTokens (some "192.168.1.50,plc-1.local"),
      IsIpAddress t.toList ∨ IsHostName t.toList := by
    rw [hostTokens_plant]
    simp only [List.forall_mem_cons]
    exact ⟨Or.inl (Or.inl hip), Or.inr isHostName_plc, nofun⟩
  refine ⟨hlocal, htokens, (autoFilled_iff _ _ hlocal htokens).mpr ?_⟩
  rw [hostTokens_plant]
  intro t ht h
  have hcolon : ':' ∈ t.toList := h.elim colon_mem_ipv6 fun h => (mem_mixed h).1
  have hno : ∀ t ∈ ["192.168.1.50", "plc-1.local"], ':' ∉ t.toList := by decide
  exact hno t ht hcolon

/-- A link-local address as a hint. -/
theorem ipv6Hint_not_autoFilled :
    (∀ t ∈ hostTokens (some "fe80::1"), IsIpAddress t.toList ∨ IsHostName t.toList) ∧
    ¬ AutoFilled [] (some "fe80::1") := by
  have htokens : hostTokens (some "fe80::1") = ["fe80::1"] := by decide
  have hip : IsIpv6 "fe80::1".toList := isIpv6_of_valid (by decide)
  refine ⟨fun t ht => ?_, fun h => ?_⟩
  · rw [htokens] at ht
    rw [List.mem_singleton.mp ht]
    exact Or.inl (Or.inr (Or.inl hip))
  · have hmem : "fe80::1" ∈ (getAutoFillHosts [] (some "fe80::1")).dnsNames := by decide
    exact absurd (((accepted_iff _).mp h.accepted).1 _ hmem) (by decide)

end OpcuaLight.Cert
