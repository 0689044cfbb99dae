import OpcuaLight.Cache.Store

/-!
# The fallback to the cache

What a method serves from the cache is what it returned from the live database last, with no change of the
database since (`fallback_faithful`): as long as the entry that is served is the method's own, or one of
the other methods on `security_config` with the same columns, and a write that throws has changed nothing.
-/

namespace OpcuaLight.Cache

open Config (Database SecurityConfigRow somePath)

/-- The methods on `security_config`. -/
def Call.onSecurity : Call → Bool
  | .get | .getHttpsConfig | .getCertificatePath => true
  | _ => false

/-- The data of the call `source` is as good for `call` as its own: both read `security_config`, and
`source` reads all of its columns. -/
def Call.Serves (source call : Call) : Prop :=
  call.onSecurity = true ∧ (source = .get ∨ source = .getHttpsConfig)

/-- The call comes to the cache. -/
def Store.FallsBack (s : Store) (throws : Bool) : Prop := s.accessible = false ∨ throws = true

/-- The claimed behaviour of a step: an answer from the cache is the call's own last live one, and the
database has not changed since. -/
def Store.Faithful (s : Store) : Event → Prop
  | .read call throws => s.FallsBack throws → ∀ answer, (s.readWithCache call throws).2 = some answer →
      ∃ certificates, s.answered call = some (answer, certificates)
  | _ => True

/-- The entry that is served holds the data of the call itself, or of one that serves it and the call has
been answered since the last change; in both cases `get` finds the certificate as it was. -/
def Store.Sound (s : Store) : Event → Prop
  | .read call throws => s.FallsBack throws → ∀ entry, s.cache.get? call.key = some entry →
      (entry.source = some call ∨
        ∃ source, entry.source = some source ∧ source.Serves call ∧ (s.answered call).isSome = true) ∧
      (call = .get → ∀ a ∈ s.answered call, ∀ row ∈ s.db.security, ∀ path ∈ somePath row.certificatePath,
        s.certificates path = a.2 path)
  | .write writeFn | .updateSecurity writeFn =>
      s.accessible = true → (writeFn s.db).2 = false → (writeFn s.db).1 = s.db
  | _ => True

/-- Most writes that throw have changed nothing. -/
theorem onTables_kept {operation : Db.Tables → Except Db.Failure Db.Tables} {db : Database}
    (h : (onTables operation db).2 = false) : (onTables operation db).1 = db := by
  unfold onTables at h ⊢
  split
  · rename_i tables he
    rw [he] at h
    cases h
  · rfl

/-- An object node whose deletion fails once its variable node has been moved out of it. -/
example : (deleteObjectNode "a" ⟨{ Db.Tables.empty true with
      namespaces := [⟨"n", "Plant", none, "urn:plant"⟩]
      objectNodes := [⟨"a", "n", none, "A"⟩, ⟨"b", "n", some "a", "B"⟩, ⟨"b'", "n", none, "B"⟩]
      nodes := [⟨"v", "n", some "a", "level", .double, none, none⟩] }, none⟩) =
    (⟨{ Db.Tables.empty true with
      namespaces := [⟨"n", "Plant", none, "urn:plant"⟩]
      objectNodes := [⟨"a", "n", none, "A"⟩, ⟨"b", "n", some "a", "B"⟩, ⟨"b'", "n", none, "B"⟩]
      nodes := [⟨"v", "n", none, "level", .double, none, none⟩] }, none⟩, false) := by decide

/-! ## The invariant -/

/-- An entry with a source holds what the source's query yields now, and so did the last live call of
every method that has been answered since the last change. -/
structure Store.Current (s : Store) : Prop where
  data : ∀ key entry source, s.cache.get? key = some entry → entry.source = some source →
    entry.data = source.query s.db ∧ (s.answered source).isSome = true
  answered : ∀ call a, s.answered call = some a → a.1 = call.answer a.2 (call.query s.db)

theorem Store.Current.read {s : Store} (h : s.Current) (call : Call) (throws : Bool) :
    (s.readWithCache call throws).1.Current := by
  unfold Store.readWithCache
  split_ifs
  · refine ⟨fun key entry source hentry hsource => ?_, fun call' a ha => ?_⟩
    · have hget : (s.cache.set call.key ⟨call.query s.db, some call⟩).get? key = some entry := hentry
      show entry.data = source.query s.db ∧ (Function.update s.answered call _ source).isSome = true
      rw [JsMap.get?_set] at hget
      split_ifs at hget with hkey
      · rw [← Option.some.inj hget] at hsource ⊢
        rw [← Option.some.inj hsource, Function.update_self]
        exact ⟨rfl, rfl⟩
      · obtain ⟨hdata, hans⟩ := h.data key entry source hget hsource
        refine ⟨hdata, ?_⟩
        by_cases hc : source = call
        · rw [hc, Function.update_self]
          rfl
        · rw [Function.update_of_ne hc]
          exact hans
    · have hget : Function.update s.answered call
        (some (call.answer s.certificates (call.query s.db), s.certificates)) call' = some a := ha
      by_cases hc : call' = call
      · rw [hc, Function.update_self] at hget
        rw [← Option.some.inj hget, hc]
        rfl
      · rw [Function.update_of_ne hc] at hget
        exact h.answered call' a hget
  · exact h

/-- A store without entries of a source, after a change. -/
theorem current_of_change {s : Store} (h : s.Current) (db : Database) {cache : JsMap String Entry}
    (hcache : ∀ key entry, cache.get? key = some entry → entry.source = none) :
    Store.Current { s.change db with cache := cache } := by
  refine ⟨fun key entry source hentry hsource => ?_, fun call a ha => ?_⟩
  · rw [hcache key entry hentry] at hsource
    cases hsource
  · have hget : (if db = s.db then s.answered else fun _ => none) call = some a := ha
    split_ifs at hget with hdb
    · show a.1 = call.answer a.2 (call.query db)
      rw [hdb]
      exact h.answered call a hget

theorem change_same (s : Store) : s.change s.db = s := by
  unfold Store.change
  rw [if_pos rfl]

theorem Store.Current.write {s : Store} (h : s.Current) {writeFn : Database → Database × Bool}
    (hok : s.accessible = true → (writeFn s.db).2 = false → (writeFn s.db).1 = s.db) :
    (s.write writeFn).1.Current ∧
      ((s.write writeFn).2 = true → (s.write writeFn).1.cache = ∅) := by
  unfold Store.write
  split_ifs with hacc
  · split
    · rename_i db _
      exact ⟨current_of_change h db nofun, fun _ => rfl⟩
    · rename_i db he
      have hdb : db = s.db := by
        have hkept := hok hacc
        rw [he] at hkept
        exact hkept rfl
      rw [hdb, change_same]
      exact ⟨h, nofun⟩
  · exact ⟨h, nofun⟩

theorem Store.Current.updateSecurity {s : Store} (h : s.Current)
    {writeFn : Database → Database × Bool}
    (hok : s.accessible = true → (writeFn s.db).2 = false → (writeFn s.db).1 = s.db) :
    (s.updateSecurity writeFn).Current := by
  obtain ⟨hw, hempty⟩ := h.write hok
  unfold Store.updateSecurity
  split
  · rename_i s' he
    rw [he] at hw hempty
    refine ⟨fun key entry source hentry hsource => ?_, hw.answered⟩
    have hget : (s'.cache.set "security_config" ⟨[], none⟩).get? key = some entry := hentry
    rw [hempty rfl, JsMap.get?_set] at hget
    split_ifs at hget
    · rw [← Option.some.inj hget] at hsource
      cases hsource
    · cases hget
  · rename_i s' he
    rw [he] at hw
    exact hw

theorem current_step {s : Store} (h : s.Current) {e : Event} (hok : s.Sound e) : (step s e).Current := by
  cases e with
  | read call throws => exact h.read call throws
  | write writeFn => exact (h.write hok).1
  | updateSecurity writeFn => exact h.updateSecurity hok
  | lose => exact ⟨h.data, h.answered⟩
  | regain => exact ⟨h.data, h.answered⟩
  | certificates certificates => exact ⟨h.data, h.answered⟩

theorem current_opened (db : Database) (certificates : String → Option CertificateExpiryInfo) :
    (Store.opened db certificates).Current :=
  ⟨nofun, fun _ _ ha => absurd ha.symm (Option.some_ne_none _)⟩

/-! ## Answers from the cache -/

theorem answer_of_serves {source call : Call} (h : source.Serves call)
    (certificates : String → Option CertificateExpiryInfo) (db : Database) :
    call.answer certificates (source.query db) = call.answer certificates (call.query db) := by
  obtain ⟨hcall, hsource⟩ := h
  have hquery : source.query db = db.security.toList.map .security := by
    rcases hsource with rfl | rfl <;> rfl
  rw [hquery]
  cases call with
  | get | getHttpsConfig => rfl
  | getCertificatePath =>
      show Call.answer _ _ _ = Call.answer _ (db.security.toList.map _) _
      cases db.security <;> rfl
  | _ => exact absurd hcall Bool.false_ne_true

/-- Only `get` looks at the certificate files, at the one that is stored. -/
theorem answer_certificates {call : Call} {c c' : String → Option CertificateExpiryInfo} (db : Database)
    (h : call = .get → ∀ row ∈ db.security, ∀ path ∈ somePath row.certificatePath, c path = c' path) :
    call.answer c (call.query db) = call.answer c' (call.query db) := by
  cases call with
  | get =>
      show Call.answer c (db.security.toList.map _) _ = Call.answer c' (db.security.toList.map _) _
      cases hrow : db.security with
      | none => rfl
      | some row =>
          have hpath : (somePath row.certificatePath).bind c = (somePath row.certificatePath).bind c' :=
            Option.bind_congr fun path hp => h rfl row hrow path hp
          show Answer.security (securityConfig c row) = Answer.security (securityConfig c' row)
          unfold securityConfig
          rw [hpath]
  | _ => rfl

theorem faithful_of_sound {s : Store} (h : s.Current) {e : Event} (hok : s.Sound e) : s.Faithful e := by
  cases e with
  | read call throws =>
      intro hback answer hanswer
      have hnot : (s.accessible && !throws) = false := by
        rcases hback with hb | hb <;> rw [hb]
        · rfl
        · exact Bool.and_false _
      unfold Store.readWithCache at hanswer
      rw [hnot] at hanswer
      obtain ⟨entry, hentry, rfl⟩ := Option.map_eq_some_iff.mp hanswer
      obtain ⟨hsource, hcert⟩ := hok hback entry hentry
      -- the data are as good as those of the call itself
      have hdata : call.answer s.certificates entry.data = call.answer s.certificates (call.query s.db) ∧
          (s.answered call).isSome = true := by
        rcases hsource with hown | ⟨source, hs, hserves, hans⟩
        · obtain ⟨hdata, hans⟩ := h.data _ entry call hentry hown
          exact ⟨by rw [hdata], hans⟩
        · rw [(h.data _ entry source hentry hs).1]
          exact ⟨answer_of_serves hserves _ _, hans⟩
      obtain ⟨⟨a, certificates⟩, ha⟩ := Option.isSome_iff_exists.mp hdata.2
      refine ⟨certificates, ?_⟩
      rw [hdata.1, answer_certificates s.db fun hget => hcert hget _ ha, ha]
      exact congrArg (fun a => some (a, certificates)) (h.answered call _ ha)
  | _ => trivial

/-- In every run that meets the condition, whatever a method serves from the cache is what it returned
from the live database last, and the database has not changed since. -/
theorem fallback_faithful (db : Database) (certificates : String → Option CertificateExpiryInfo)
    (es : List Event) (hok : Machine.Guarded step Store.Sound (Store.opened db certificates) es) :
    Machine.Guarded step Store.Faithful (Store.opened db certificates) es :=
  hok.of_invariant (I := Store.Current) (fun _ _ hok h => current_step h hok)
    (fun _ _ h hok => faithful_of_sound h hok) (current_opened db certificates)

/-- A database with a stored certificate. -/
def certified : Database := ⟨Db.Tables.empty true, some ⟨"Sign", some "cert.pem", some "key.pem"⟩⟩

/-- The certificate path is read, the database is lost, and then the configuration is asked for. -/
def narrowRows : List Event := [.read .getCertificatePath false, .lose, .read .get false]

theorem narrowRows_not_faithful :
    ¬Machine.Guarded step Store.Faithful (Store.opened certified fun _ => none) narrowRows := by
  rintro ⟨-, -, h, -⟩
  obtain ⟨_, hans⟩ := h (Or.inl rfl) .typeError rfl
  cases hans

/-- The nodes are read, the policy is changed, and after the loss of the database only what has been read
since the change is served. -/
def readsAgain : List Event :=
  [.read (.findAllNodes none) false, .updateSecurity (updatePolicy "None"), .read .get false, .lose,
   .read .get false, .read (.findAllNodes none) false]

theorem fallback_faithful_readsAgain :
    Machine.Guarded step Store.Faithful (Store.opened certified fun _ => none) readsAgain := by
  refine fallback_faithful certified _ readsAgain ?_
  refine ⟨fun h => ?_, fun _ => nofun, fun h => ?_, trivial, fun _ entry hentry => ?_, fun _ => nofun, trivial⟩
  · exact absurd h (by unfold Store.FallsBack; decide)
  · exact absurd h (by unfold Store.FallsBack; decide)
  · cases hentry
    refine ⟨Or.inl rfl, fun _ a ha row hrow path hpath => ?_⟩
    cases ha
    rfl

end OpcuaLight.Cache
