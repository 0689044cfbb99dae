import OpcuaLight.Plugins.Loader

/-!
# What one plugin can do to the others

The loader catches what an import, a construction and `getMetadata` throw, but not what `getType`
does, nor what it does itself with the values that a plugin has returned. Where none of that throws
(`Settles`), every subdirectory is loaded or skipped, and the first that offers a type is the one
that is loaded (`Apart`); where it does, the subdirectory and all after it are lost.

* `Scanned` : what the accumulators are after the subdirectories that have been scanned.
-/

namespace OpcuaLight.Plugins

variable {V : Type} {sub : Source × Plugin V} {subs pre : List (Source × Plugin V)} {s : Scan V}

/-- The type that a plugin offers once it has been inspected. -/
def Plugin.offers (p : Plugin V) : Option V :=
  match p.inspect with
  | .ok (.offer type _ _) => some type.value
  | _ => none

/-! ## The result for each subdirectory -/

inductive Verdict (V : Type) where
  | loaded (info : PluginInfo V)
  | skipped (entry : SkippedPlugin)

@[simp] def Verdict.loaded? : Verdict V → Option (PluginInfo V)
  | .loaded info => some info
  | .skipped _ => none

@[simp] def Verdict.skipped? : Verdict V → Option SkippedPlugin
  | .loaded _ => none
  | .skipped entry => some entry

/-- The entry is for the subdirectory: it names it, or has the connector that it offers. -/
def VerdictOf (sub : Source × Plugin V) : Verdict V → Prop
  | .loaded info => info.source = sub.1 ∧ sub.2.inspect = .ok (.offer info.type info.metadata info.connector)
  | .skipped entry => entry.directory = sub.2.name

/-- Every subdirectory has one entry, and `loaded` and `skipped` have these and no others; the types
loaded are distinct, and of the plugins that offer a type the first is loaded. -/
def Apart (subs : List (Source × Plugin V)) (res : LoadResult V) : Prop :=
  ∃ vs : List (Verdict V), List.Forall₂ VerdictOf subs vs ∧
    res.loaded = vs.filterMap Verdict.loaded? ∧ res.skipped = vs.filterMap Verdict.skipped? ∧
    (res.loaded.map (·.type.value)).Nodup ∧
    ∀ pre sub post, subs = pre ++ sub :: post → ∀ type, sub.2.offers = some type →
      ((∃ info, vs[pre.length]? = some (.loaded info)) ↔ ∀ q ∈ pre, q.2.offers ≠ some type)

/-! ## What throws -/

/-- After `pre`, nothing that the loader does with the plugin throws: its inspection, the conversion
of the type that it offers to a text, and the reading of the display name if the type is new. -/
def Settles (pre : List (Source × Plugin V)) (sub : Source × Plugin V) : Prop :=
  ∃ inspection, sub.2.inspect = .ok inspection ∧ ∀ type metadata connector,
    inspection = .offer type metadata connector → (∃ text, type.text = .ok text) ∧
      ((∃ q ∈ pre, q.2.offers = some type.value) ∨ ∃ name, metadata.displayName = .ok name)

/-- The plugin is loaded, and then only the conversion of its type to a text throws. -/
def LoadsUnnamed (pre : List (Source × Plugin V)) (sub : Source × Plugin V) : Prop :=
  ∃ type metadata connector, sub.2.inspect = .ok (.offer type metadata connector) ∧
    (∃ message, type.text = .error (.message message)) ∧
    (∃ name, metadata.displayName = .ok name) ∧ ∀ q ∈ pre, q.2.offers ≠ some type.value

variable [DecidableEq V]

/-- The accumulators after the subdirectories `subs`. -/
structure Scanned (subs : List (Source × Plugin V)) (s : Scan V) : Prop where
  apart : Apart subs s.result
  types : ∀ type, (s.registeredTypes.get? type).isSome ↔ ∃ q ∈ subs, q.2.offers = some type
  loaded : ∀ info ∈ s.loaded, ∃ q ∈ subs, q.2.offers = some info.type.value

theorem scanned_empty : Scanned ([] : List (Source × Plugin V)) .empty where
  apart := ⟨[], List.Forall₂.nil, rfl, rfl, List.nodup_nil, fun pre sub post h => by
    cases pre <;> cases h⟩
  types := fun type => by simp [Scan.empty, JsMap.get?_empty]
  loaded := fun info h => by cases h

omit [DecidableEq V] in
theorem split_snoc {pre' post : List (Source × Plugin V)} {sub' : Source × Plugin V}
    (h : pre ++ [sub] = pre' ++ sub' :: post) :
    post = [] ∧ pre = pre' ∧ sub = sub' ∨ ∃ post', pre = pre' ++ sub' :: post' := by
  rcases List.eq_nil_or_concat post with rfl | ⟨post', last, rfl⟩
  · obtain ⟨rfl, hsub⟩ := List.append_inj' h rfl
    exact Or.inl ⟨rfl, rfl, List.singleton_inj.mp hsub⟩
  · rw [List.concat_eq_append, ← List.cons_append, ← List.append_assoc] at h
    exact Or.inr ⟨post', (List.append_inj' h rfl).1⟩

omit [DecidableEq V] in
/-- One more subdirectory, with its entry. -/
theorem Apart.append {res : LoadResult V} (h : Apart pre res) {v : Verdict V} (hv : VerdictOf sub v)
    (hnodup : ((res.loaded ++ v.loaded?.toList).map (·.type.value)).Nodup)
    (hfirst : ∀ type, sub.2.offers = some type →
      ((∃ info, v = .loaded info) ↔ ∀ q ∈ pre, q.2.offers ≠ some type)) :
    Apart (pre ++ [sub]) ⟨res.loaded ++ v.loaded?.toList, res.skipped ++ v.skipped?.toList⟩ := by
  obtain ⟨vs, hvs, hloaded, hskipped, -, hpre⟩ := h
  have hlength := hvs.length_eq
  refine ⟨vs ++ [v], List.rel_append hvs (List.Forall₂.cons hv List.Forall₂.nil), ?_, ?_, hnodup,
    fun pre' sub' post hsplit type htype => ?_⟩
  · rw [List.filterMap_append, hloaded]
    cases v <;> rfl
  · rw [List.filterMap_append, hskipped]
    cases v <;> rfl
  · rcases split_snoc hsplit with ⟨-, rfl, rfl⟩ | ⟨post', rfl⟩
    · rw [hlength, List.getElem?_concat_length]
      simp only [Option.some.injEq]
      exact hfirst type htype
    · have hlt : pre'.length < vs.length := by
        rw [← hlength]
        simp
      rw [List.getElem?_append_left hlt]
      exact hpre pre' sub' post' rfl type htype

omit [DecidableEq V] in
theorem Apart.skip {res : LoadResult V} (h : Apart pre res) (reason : String)
    (hoffer : ∀ type, sub.2.offers = some type → ∃ q ∈ pre, q.2.offers = some type) :
    Apart (pre ++ [sub]) ⟨res.loaded, res.skipped ++ [⟨sub.2.name, reason⟩]⟩ := by
  have hv : VerdictOf sub (.skipped ⟨sub.2.name, reason⟩) := rfl
  have hnodup : (res.loaded.map (·.type.value)).Nodup := by
    obtain ⟨-, -, -, -, hnodup, -⟩ := h
    exact hnodup
  have happend := h.append hv (by simpa using hnodup) fun type htype => by
    obtain ⟨q, hq, hoffers⟩ := hoffer type htype
    constructor
    · rintro ⟨info, hinfo⟩
      cases hinfo
    · intro hnew
      exact absurd hoffers (hnew q hq)
  simpa using happend

omit [DecidableEq V] in
theorem Apart.load {res : LoadResult V} (h : Apart pre res) {info : PluginInfo V}
    (hv : VerdictOf sub (.loaded info)) (hnew : ∀ q ∈ pre, q.2.offers ≠ some info.type.value)
    (hother : ∀ other ∈ res.loaded, other.type.value ≠ info.type.value) :
    Apart (pre ++ [sub]) ⟨res.loaded ++ [info], res.skipped⟩ := by
  have hnodup : ((res.loaded ++ [info]).map (·.type.value)).Nodup := by
    obtain ⟨-, -, -, -, hnodup, -⟩ := h
    rw [List.map_append, List.nodup_append]
    refine ⟨hnodup, List.nodup_singleton _, fun type htype type' htype' => ?_⟩
    obtain ⟨other, hmem, rfl⟩ := List.mem_map.mp htype
    rw [List.mem_singleton.mp htype']
    exact hother other hmem
  have hoffers : sub.2.offers = some info.type.value := by rw [Plugin.offers, hv.2]
  have happend := h.append hv hnodup fun type htype => by
    rw [hoffers, Option.some.injEq] at htype
    rw [← htype]
    exact iff_of_true ⟨info, rfl⟩ hnew
  simpa using happend

/-! ## One plugin -/

theorem Scanned.skip (h : Scanned pre s) (reason : String)
    (hoffer : ∀ type, sub.2.offers = some type → ∃ q ∈ pre, q.2.offers = some type) :
    Scanned (pre ++ [sub]) (s.skip sub.2.name reason) where
  apart := h.apart.skip reason hoffer
  types := fun type => by
    refine (h.types type).trans ⟨?_, ?_⟩
    · rintro ⟨q, hq, hoffers⟩
      exact ⟨q, List.mem_append_left _ hq, hoffers⟩
    · rintro ⟨q, hq, hoffers⟩
      rcases List.mem_append.mp hq with hq | hq
      · exact ⟨q, hq, hoffers⟩
      · rw [List.mem_singleton.mp hq] at hoffers
        exact hoffer type hoffers
  loaded := fun info hinfo => by
    obtain ⟨q, hq, hoffers⟩ := h.loaded info hinfo
    exact ⟨q, List.mem_append_left _ hq, hoffers⟩

theorem Scanned.load (h : Scanned pre s) {info : PluginInfo V}
    (hv : VerdictOf sub (.loaded info)) (hnone : s.registeredTypes.get? info.type.value = none) :
    Scanned (pre ++ [sub]) (Scan.load { s with
      registeredTypes := s.registeredTypes.set info.type.value sub.2.name } info) where
  apart := by
    have hnew : ∀ q ∈ pre, q.2.offers ≠ some info.type.value := fun q hq hoffers => by
      have hsome := (h.types _).mpr ⟨q, hq, hoffers⟩
      rw [hnone] at hsome
      cases hsome
    refine h.apart.load hv hnew fun other hother heq => ?_
    obtain ⟨q, hq, hoffers⟩ := h.loaded other hother
    rw [heq] at hoffers
    exact hnew q hq hoffers
  types := fun type => by
    have hoffers : sub.2.offers = some info.type.value := by rw [Plugin.offers, hv.2]
    change ((s.registeredTypes.set info.type.value sub.2.name).get? type).isSome ↔ _
    simp only [List.mem_append, List.mem_singleton, or_and_right, exists_or, exists_eq_left, hoffers]
    rw [JsMap.get?_set, ← h.types]
    split_ifs with heq
    · rw [heq]
      exact iff_of_true rfl (Or.inr rfl)
    · refine (or_iff_left fun hsome => heq ?_).symm
      exact (Option.some.inj hsome).symm
  loaded := fun other hother => by
    rcases List.mem_append.mp hother with hother | hother
    · obtain ⟨q, hq, hoffers⟩ := h.loaded other hother
      exact ⟨q, List.mem_append_left _ hq, hoffers⟩
    · refine ⟨sub, List.mem_append_right _ (List.mem_singleton_self sub), ?_⟩
      rw [Plugin.offers, hv.2, List.mem_singleton.mp hother]

omit [DecidableEq V] in
theorem settles_offer_iff {type : TypeValue V} {metadata : Metadata V} {connector : Instance V}
    (hi : sub.2.inspect = .ok (.offer type metadata connector)) :
    Settles pre sub ↔ (∃ text, type.text = .ok text) ∧
      ((∃ q ∈ pre, q.2.offers = some type.value) ∨ ∃ name, metadata.displayName = .ok name) := by
  constructor
  · rintro ⟨inspection, hinspect, hsettles⟩
    rw [hi] at hinspect
    exact hsettles type metadata connector (Except.ok.inj hinspect).symm
  · intro h
    refine ⟨_, hi, fun type' metadata' connector' heq => ?_⟩
    obtain ⟨rfl, rfl, -⟩ := Inspection.offer.inj heq
    exact h

omit [DecidableEq V] in
theorem loadsUnnamed_offer_iff {type : TypeValue V} {metadata : Metadata V} {connector : Instance V}
    (hi : sub.2.inspect = .ok (.offer type metadata connector)) :
    LoadsUnnamed pre sub ↔ (∃ message, type.text = .error (.message message)) ∧
      (∃ name, metadata.displayName = .ok name) ∧ ∀ q ∈ pre, q.2.offers ≠ some type.value := by
  constructor
  · rintro ⟨type', metadata', connector', hinspect, h⟩
    rw [hi] at hinspect
    obtain ⟨rfl, rfl, -⟩ := Inspection.offer.inj (Except.ok.inj hinspect)
    exact h
  · exact fun h => ⟨type, metadata, connector, hi, h⟩

/-- What the body of the loop does: it returns, and the plugin settles, or it throws before the
plugin has an entry, or after it is loaded. -/
def Ends (pre : List (Source × Plugin V)) (s : Scan V) (sub : Source × Plugin V) : Prop :=
  (Settles pre sub ∧ (scanPlugin s sub).2 = none ∧ Scanned (pre ++ [sub]) (scanPlugin s sub).1) ∨
  (¬ Settles pre sub ∧ ¬ LoadsUnnamed pre sub ∧ (scanPlugin s sub).2.isSome ∧
    (scanPlugin s sub).1.result = s.result) ∨
  (¬ Settles pre sub ∧ ∃ t, (scanPlugin s sub).2 = some t ∧
    ((∃ message, t = .message message) ↔ LoadsUnnamed pre sub) ∧
    Apart (pre ++ [sub]) (scanPlugin s sub).1.result)

theorem ends_error (s : Scan V) {t : Thrown} (hi : sub.2.inspect = .error t) : Ends pre s sub := by
  have hscan : scanPlugin s sub = (s, some t) := by rw [scanPlugin, hi]
  rw [Ends, hscan]
  refine Or.inr (Or.inl ⟨?_, ?_, rfl, rfl⟩)
  · rintro ⟨inspection, hinspect, -⟩
    rw [hi] at hinspect
    cases hinspect
  · rintro ⟨type, metadata, connector, hinspect, -⟩
    rw [hi] at hinspect
    cases hinspect

theorem Scanned.ends_skip (h : Scanned pre s) {reason : String} (hi : sub.2.inspect = .ok (.skip reason)) :
    Ends pre s sub := by
  have hscan : scanPlugin s sub = (s.skip sub.2.name reason, none) := by rw [scanPlugin, hi]
  rw [Ends, hscan]
  refine Or.inl ⟨⟨_, hi, fun _ _ _ heq => by cases heq⟩, rfl, h.skip reason fun type htype => ?_⟩
  rw [Plugin.offers, hi] at htype
  cases htype

section Offer
variable {type : TypeValue V} {metadata : Metadata V} {connector : Instance V}

/-- A type that was offered before is skipped, if it has a text. -/
theorem Scanned.ends_registered (h : Scanned pre s) (hi : sub.2.inspect = .ok (.offer type metadata connector))
    {existingDir : String} (hdir : s.registeredTypes.get? type.value = some existingDir) : Ends pre s sub := by
  have hearlier : ∃ q ∈ pre, q.2.offers = some type.value := (h.types _).mp (by rw [hdir]; rfl)
  rw [Ends, settles_offer_iff hi, loadsUnnamed_offer_iff hi]
  cases htext : type.text with
  | error t =>
      have hscan : scanPlugin s sub = (s, some t) := by rw [scanPlugin, hi]; simp [hdir, htext]
      rw [hscan]
      refine Or.inr (Or.inl ⟨?_, ?_, rfl, rfl⟩)
      · rintro ⟨⟨text, htext'⟩, -⟩
        cases htext'
      · rintro ⟨-, -, hnew⟩
        obtain ⟨q, hq, hq'⟩ := hearlier
        exact hnew q hq hq'
  | ok text =>
      have hscan : scanPlugin s sub = (s.skip sub.2.name (alreadyRegistered text existingDir), none) := by
        rw [scanPlugin, hi]
        simp [hdir, htext]
      rw [hscan]
      refine Or.inl ⟨⟨⟨text, rfl⟩, Or.inl hearlier⟩, rfl, h.skip _ fun type' htype => ?_⟩
      rw [Plugin.offers, hi] at htype
      rw [← htype]
      exact hearlier

/-- A new type is registered before its name is read, and loaded before its text is. -/
theorem Scanned.ends_new (h : Scanned pre s) (hi : sub.2.inspect = .ok (.offer type metadata connector))
    (hdir : s.registeredTypes.get? type.value = none) : Ends pre s sub := by
  have hnew : ∀ q ∈ pre, q.2.offers ≠ some type.value := fun q hq hq' => by
    have hsome := (h.types _).mpr ⟨q, hq, hq'⟩
    rw [hdir] at hsome
    cases hsome
  rw [Ends, settles_offer_iff hi, loadsUnnamed_offer_iff hi]
  cases hname : metadata.displayName with
  | error t =>
      have hscan : scanPlugin s sub = ({ s with
          registeredTypes := s.registeredTypes.set type.value sub.2.name }, some t) := by
        rw [scanPlugin, hi]
        simp [hdir, hname]
      rw [hscan]
      refine Or.inr (Or.inl ⟨?_, ?_, rfl, rfl⟩)
      · rintro ⟨-, ⟨q, hq, hq'⟩ | ⟨name, hname'⟩⟩
        · exact hnew q hq hq'
        · cases hname'
      · rintro ⟨-, ⟨name, hname'⟩, -⟩
        cases hname'
  | ok displayName =>
      have hv : VerdictOf sub (.loaded ⟨type, displayName, sub.1, connector, metadata⟩) := ⟨rfl, hi⟩
      have hload := h.load hv hdir
      cases htext : type.text with
      | error t =>
          have hscan : scanPlugin s sub = (Scan.load { s with
              registeredTypes := s.registeredTypes.set type.value sub.2.name }
              ⟨type, displayName, sub.1, connector, metadata⟩, some t) := by
            rw [scanPlugin, hi]
            simp [hdir, hname, htext]
          rw [hscan]
          refine Or.inr (Or.inr ⟨?_, t, rfl, ?_, hload.apart⟩)
          · rintro ⟨⟨text, htext'⟩, -⟩
            cases htext'
          · constructor
            · rintro ⟨message, rfl⟩
              exact ⟨⟨message, rfl⟩, ⟨displayName, rfl⟩, hnew⟩
            · rintro ⟨⟨message, hmessage⟩, -⟩
              exact ⟨message, Except.error.inj hmessage⟩
      | ok text =>
          have hscan : scanPlugin s sub = (Scan.load { s with
              registeredTypes := s.registeredTypes.set type.value sub.2.name }
              ⟨type, displayName, sub.1, connector, metadata⟩, none) := by
            rw [scanPlugin, hi]
            simp [hdir, hname, htext]
          rw [hscan]
          exact Or.inl ⟨⟨⟨text, rfl⟩, Or.inr ⟨displayName, rfl⟩⟩, rfl, hload⟩

end Offer

theorem scanPlugin_cases (h : Scanned pre s) (sub : Source × Plugin V) : Ends pre s sub := by
  cases hi : sub.2.inspect with
  | error t => exact ends_error s hi
  | ok inspection =>
      cases inspection with
      | skip reason => exact h.ends_skip hi
      | offer type metadata connector =>
          cases hdir : s.registeredTypes.get? type.value with
          | some existingDir => exact h.ends_registered hi hdir
          | none => exact h.ends_new hi hdir

/-! ## Both directories -/

/-- The scan of subdirectories from the beginning. -/
abbrev scan (subs : List (Source × Plugin V)) : Scan V × Option Thrown :=
  Loop.loop scanPlugin .empty subs

/-- Where the scan of some subdirectories returns, its result is what is claimed of it. -/
theorem scanned_scan (h : (scan subs).2 = none) : Scanned subs (scan subs).1 := by
  refine Loop.loop_invariant (I := Scanned) (fun pre sub s hs hnone => ?_) scanned_empty h
  rcases scanPlugin_cases hs sub with ⟨-, -, hscanned⟩ | ⟨-, -, hsome, -⟩ | ⟨-, t, hsome, -⟩
  · exact hscanned
  all_goals
    rw [hnone] at hsome
    cases hsome

theorem scan_returns_of_append {post : List (Source × Plugin V)} (h : (scan (pre ++ post)).2 = none) :
    (scan pre).2 = none := by
  cases ht : (scan pre).2 with
  | none => rfl
  | some t =>
      rw [scan, Loop.loop_append_of_throws pre post ht, ht] at h
      cases h

/-- The scan of the subdirectories returns exactly if all of them settle. -/
theorem scan_returns_iff : (scan subs).2 = none ↔
    ∀ pre sub post, subs = pre ++ sub :: post → Settles pre sub := by
  constructor
  · rintro h pre sub post rfl
    have hpre := scan_returns_of_append h
    have hbody := Loop.loop_returns_iff.mp h pre sub post rfl hpre
    rcases scanPlugin_cases (scanned_scan hpre) sub with ⟨hsettles, -⟩ | ⟨-, -, hsome, -⟩ | ⟨-, t, hsome, -⟩
    · exact hsettles
    all_goals
      rw [hbody] at hsome
      cases hsome
  · intro h
    refine Loop.loop_returns_iff.mpr fun pre sub post hsplit hpre => ?_
    rcases scanPlugin_cases (scanned_scan hpre) sub with ⟨-, hnone, -⟩ | ⟨hnot, -⟩ | ⟨hnot, -⟩
    · exact hnone
    · exact absurd (h pre sub post hsplit) hnot
    · exact absurd (h pre sub post hsplit) hnot

omit [DecidableEq V] in
/-- Every subdirectory has one entry. -/
theorem Apart.length {res : LoadResult V} (h : Apart subs res) :
    res.loaded.length + res.skipped.length = subs.length := by
  obtain ⟨vs, hvs, hloaded, hskipped, -⟩ := h
  rw [hvs.length_eq, hloaded, hskipped]
  clear hvs hloaded hskipped
  induction vs with
  | nil => rfl
  | cons v vs ih =>
      cases v with
      | loaded info =>
          simp only [List.filterMap_cons, Verdict.loaded?, Verdict.skipped?, List.length_cons]
          omega
      | skipped entry =>
          simp only [List.filterMap_cons, Verdict.loaded?, Verdict.skipped?, List.length_cons]
          omega

/-- A scan that throws a message has the result that is claimed exactly if what throws is the last
subdirectory, after it is loaded. -/
theorem apart_thrown_iff {t : Thrown} (h : (scan subs).2 = some t) :
    (∃ message, t = .message message) ∧ Apart subs (scan subs).1.result ↔
      ∃ pre sub, subs = pre ++ [sub] ∧ LoadsUnnamed pre sub ∧ (scan pre).2 = none := by
  obtain ⟨pre, sub, post, rfl, hpre, hloop, hthrown⟩ := Loop.loop_thrown h
  -- there is one place where a scan can stop
  have hplace : ∀ pre' sub', pre ++ sub :: post = pre' ++ [sub'] → (scan pre').2 = none →
      post = [] ∧ pre' = pre ∧ sub' = sub := by
    intro pre' sub' hsplit hpre'
    rcases split_snoc hsplit.symm with hlast | ⟨post', rfl⟩
    · exact hlast
    · rw [scan, Loop.loop_append pre _ hpre, Loop.loop_cons_of_throws hthrown, hthrown] at hpre'
      cases hpre'
  rw [scan, hloop]
  rcases scanPlugin_cases (scanned_scan hpre) sub with ⟨-, hnone, -⟩ | ⟨-, hnot, -, hresult⟩ |
    ⟨-, t', ht', hmessage, hapart⟩
  · rw [hnone] at hthrown
    cases hthrown
  · -- the subdirectory is missing
    constructor
    · rintro ⟨-, hapart⟩
      rw [hresult] at hapart
      have hlength := hapart.length.symm.trans (scanned_scan hpre).apart.length
      simp at hlength
    · rintro ⟨pre', sub', hsplit, hloads, hpre'⟩
      obtain ⟨-, rfl, rfl⟩ := hplace pre' sub' hsplit hpre'
      exact absurd hloads hnot
  · obtain rfl : t = t' := Option.some.inj (hthrown.symm.trans ht')
    constructor
    · rintro ⟨hm, hall⟩
      have hlength := hall.length.symm.trans hapart.length
      obtain rfl : post = [] := by simpa using hlength
      exact ⟨pre, sub, rfl, hmessage.mp hm, hpre⟩
    · rintro ⟨pre', sub', hsplit, hloads, hpre'⟩
      obtain ⟨rfl, rfl, rfl⟩ := hplace pre' sub' hsplit hpre'
      exact ⟨hmessage.mpr hloads, hapart⟩

/-- What `loadPlugins` does with the scan of all subdirectories: it passes on what the built-in ones
throw, and what is thrown for one of the others if it has no message. -/
theorem loadPlugins_eq (builtInDir : Directory V) (externalDir : Option (ExternalDir V)) :
    loadPlugins builtInDir externalDir =
      match (scan (Directory.subdirectories builtInDir .builtIn)).2,
        (scan (subdirectories builtInDir externalDir)).2 with
      | some t, _ => .error t
      | none, some (.unreadable t) => .error t
      | none, _ => .ok (scan (subdirectories builtInDir externalDir)).1.result := by
  obtain ⟨s, thrown, hb⟩ : ∃ s thrown,
      scan (Directory.subdirectories builtInDir .builtIn) = (s, thrown) := ⟨_, _, rfl⟩
  have hscan : scanDirectory builtInDir .builtIn .empty = (s, thrown) := hb
  unfold loadPlugins
  rw [hscan, hb]
  cases thrown with
  | some t => rfl
  | none =>
      have happend : scan (subdirectories builtInDir externalDir) =
          Loop.loop scanPlugin s (ExternalDir.subdirectories externalDir) := by
        have hreturns : (scan (Directory.subdirectories builtInDir .builtIn)).2 = none := by rw [hb]
        rw [subdirectories, scan, Loop.loop_append _ _ hreturns]
        rw [scan] at hb
        rw [hb]
      rw [happend]
      cases externalDir with
      | none => rfl
      | some external =>
          cases external with
          | inaccessible | notDirectory => rfl
          | directory dir =>
              obtain ⟨s', thrown', hd⟩ : ∃ s' thrown',
                  scanDirectory dir .external s = (s', thrown') := ⟨_, _, rfl⟩
              have hloop : Loop.loop scanPlugin s (ExternalDir.subdirectories (some (.directory dir))) =
                  (s', thrown') := hd
              dsimp only
              rw [hd, hloop]
              rcases thrown' with - | ⟨message⟩ | ⟨t⟩ <;> rfl

omit [DecidableEq V] in
theorem source_of_mem {dir : Directory V} {source : Source} (h : sub ∈ dir.subdirectories source) :
    sub.1 = source := by
  obtain ⟨e, -, rfl⟩ := List.mem_map.mp h
  rfl

omit [DecidableEq V] in
theorem source_of_mem_external {externalDir : Option (ExternalDir V)}
    (h : sub ∈ ExternalDir.subdirectories externalDir) : sub.1 = .external := by
  unfold ExternalDir.subdirectories at h
  split at h
  · exact source_of_mem h
  · cases h

/-- A scan that throws has a subdirectory that does not settle. -/
theorem not_settles_of_thrown {t : Thrown} (h : (scan subs).2 = some t) :
    ∃ pre sub post, subs = pre ++ sub :: post ∧ ¬ Settles pre sub := by
  by_contra hnone
  push Not at hnone
  rw [scan_returns_iff.mpr hnone] at h
  cases h

/-- **Plugins.** Loading resolves, every subdirectory is loaded or skipped, and the first that offers a
type is loaded for it, exactly if every plugin settles after those before it, or the last one is
external and is loaded with a type that only its log line cannot be written of. -/
theorem loadPlugins_apart_iff (builtInDir : Directory V) (externalDir : Option (ExternalDir V)) :
    (∃ res, loadPlugins builtInDir externalDir = .ok res ∧
      Apart (subdirectories builtInDir externalDir) res) ↔
    ∀ pre sub post, subdirectories builtInDir externalDir = pre ++ sub :: post →
      Settles pre sub ∨ sub.1 = .external ∧ post = [] ∧ LoadsUnnamed pre sub := by
  rw [loadPlugins_eq]
  cases hall : (scan (subdirectories builtInDir externalDir)).2 with
  | none =>
      have hbuiltIn : (scan (Directory.subdirectories builtInDir .builtIn)).2 = none :=
        scan_returns_of_append hall
      rw [hbuiltIn]
      exact iff_of_true ⟨_, rfl, (scanned_scan hall).apart⟩ fun pre sub post hsplit =>
        Or.inl (scan_returns_iff.mp hall pre sub post hsplit)
  | some t =>
      cases hbuiltIn : (scan (Directory.subdirectories builtInDir .builtIn)).2 with
      | some t' =>
          refine iff_of_false (fun ⟨_, h, _⟩ => by cases h) fun h => ?_
          obtain ⟨pre, sub, post, hsplit, hnot⟩ := not_settles_of_thrown hbuiltIn
          have hmem : sub ∈ Directory.subdirectories builtInDir .builtIn := by
            rw [hsplit]
            exact List.mem_append_right _ List.mem_cons_self
          rcases h pre sub (post ++ ExternalDir.subdirectories externalDir)
            (by rw [subdirectories, hsplit, List.append_assoc, List.cons_append]) with
            hsettles | ⟨hexternal, -⟩
          · exact hnot hsettles
          · rw [source_of_mem hmem] at hexternal
            cases hexternal
      | none =>
          have hresult : (∃ res, (match none, some t with
              | some t, _ => .error t
              | none, some (.unreadable t) => .error t
              | none, _ => .ok (scan (subdirectories builtInDir externalDir)).1.result :
                Outcome (LoadResult V)) = .ok res ∧ Apart (subdirectories builtInDir externalDir) res) ↔
              (∃ message, t = .message message) ∧ Apart (subdirectories builtInDir externalDir)
                (scan (subdirectories builtInDir externalDir)).1.result := by
            cases t with
            | message text => simp
            | unreadable t => simp
          rw [hresult, apart_thrown_iff hall]
          constructor
          · rintro ⟨pre, sub, hsubs, hloads, hpre⟩ pre' sub' post hsplit
            rcases split_snoc (hsubs.symm.trans hsplit) with ⟨hpost, rfl, rfl⟩ | ⟨post', rfl⟩
            · refine Or.inr ⟨?_, hpost, hloads⟩
              rcases List.eq_nil_or_concat (ExternalDir.subdirectories externalDir) with
                hnil | ⟨before, last, hlast⟩
              · rw [subdirectories, hnil, List.append_nil, hbuiltIn] at hall
                cases hall
              · rw [subdirectories, hlast, List.concat_eq_append, ← List.append_assoc] at hsubs
                have hsub := List.singleton_inj.mp (List.append_inj' hsubs rfl).2
                have hexternal : sub ∈ ExternalDir.subdirectories externalDir := by
                  rw [hlast, ← hsub]
                  simp
                exact source_of_mem_external hexternal
            · exact Or.inl (scan_returns_iff.mp hpre pre' sub' post' rfl)
          · intro h
            obtain ⟨pre, sub, post, hsplit, hnot⟩ := not_settles_of_thrown hall
            obtain ⟨-, rfl, hloads⟩ := (h pre sub post hsplit).resolve_left hnot
            refine ⟨pre, sub, hsplit, hloads, scan_returns_iff.mpr fun a b c hpre => ?_⟩
            rw [hpre, List.append_assoc, List.cons_append] at hsplit
            exact (h a b _ hsplit).resolve_right fun hlast => by simp at hlast

/-- A module with one class, whose `getType` does this. -/
def moduleOf (getType : Outcome (TypeValue String)) : Module String where
  default := none
  named := [("Plc", .function fun _ => .ok ⟨.method getType, .method (.ok ⟨.ok "PLC"⟩)⟩)]

/-- A built-in directory with a plugin whose `getType` throws, and one that is as it should be. -/
def throwingType : Directory String :=
  some [⟨true, "a", some (.ok ⟨.ok (moduleOf (.error (.message "no type")))⟩), none⟩,
    ⟨true, "b", some (.ok ⟨.ok (moduleOf (.ok ⟨"plc", .ok "plc"⟩))⟩), none⟩]

/-- Then loading is rejected. -/
theorem throwingType_not_apart :
    ¬ ∃ res, loadPlugins throwingType none = .ok res ∧ Apart (subdirectories throwingType none) res := by
  rintro ⟨res, hres, -⟩
  have hrejected : loadPlugins throwingType none = .error (.message "no type") := rfl
  rw [hrejected] at hres
  cases hres

end OpcuaLight.Plugins
