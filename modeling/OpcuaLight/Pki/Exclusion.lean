import Mathlib.Data.Finset.Disjoint
import OpcuaLight.Pki.Revocation

/-!
# One store for each certificate

From disjoint stores, no certificate comes into both as long as no verification creates its file while the
reject store has it, and only so long (`oneStore_iff`). A verification does that only if the certificate is
rejected after the verification has looked into the reject store (`creates_cleared`).
-/

namespace OpcuaLight.Pki

variable {sha1 : List UInt8 → Vector UInt8 20}

/-- No certificate is in both stores. -/
def Exclusive (stores : Stores) : Prop := Disjoint (files stores.trusted) (files stores.rejected)

instance (stores : Stores) : Decidable (Exclusive stores) :=
  inferInstanceAs (Decidable (Disjoint (files stores.trusted) (files stores.rejected)))

/-- The step is a verification that creates a file which the reject store has. -/
def CreatesRejected (sha1 : List UInt8 → Vector UInt8 20) (s : State) : Event → Prop
  | .verify i opened => ∃ v, s.verifications[i]? = some v ∧ v.creates s.stores opened = true ∧
      v.thumbprint sha1 ∈ files s.stores.rejected
  | _ => False

/-! ## One step -/

section Operations
variable {stores : Stores} {t : Thumbprint} {ok : Bool}

theorem exclusive_deleteCertificate (h : Exclusive stores) :
    Exclusive (stores.deleteCertificate t ok).1 := by
  by_cases hok : (stores.deleteCertificate t ok).2 = .ok ()
  · obtain ⟨htrusted, hrejected⟩ := deleteCertificate_ok hok
    rw [Exclusive, htrusted, hrejected]
    apply h.mono (Finset.erase_subset _ _)
    split_ifs
    · exact le_rfl
    · exact Finset.erase_subset _ _
  · rwa [deleteCertificate_fails hok]

theorem exclusive_rejectCertificate (h : Exclusive stores) :
    Exclusive (stores.rejectCertificate t ok).1 := by
  by_cases hok : (stores.rejectCertificate t ok).2 = .ok ()
  · obtain ⟨-, htrusted, hrejected⟩ := rejectCertificate_ok hok
    rw [Exclusive, htrusted, hrejected, Finset.disjoint_insert_right]
    exact ⟨Finset.notMem_erase _ _, h.mono_left (Finset.erase_subset _ _)⟩
  · rwa [rejectCertificate_fails hok]

theorem exclusive_trustCertificate (h : Exclusive stores) :
    Exclusive (stores.trustCertificate t ok).1 := by
  by_cases hok : (stores.trustCertificate t ok).2 = .ok ()
  · obtain ⟨-, -, htrusted, hrejected⟩ := trustCertificate_ok hok
    rw [Exclusive, htrusted, hrejected, Finset.disjoint_insert_left]
    exact ⟨Finset.notMem_erase _ _, h.mono_right (Finset.erase_subset _ _)⟩
  · rwa [trustCertificate_fails hok]

theorem exclusive_initializeStores (made : Bool × Bool) (h : Exclusive stores) :
    Exclusive (stores.initializeStores made).1 := by
  obtain ⟨htrusted, hrejected⟩ := initializeStores_files stores made
  rwa [Exclusive, htrusted, hrejected]

end Operations

/-- The files of the trust store after a call of a verification. -/
theorem write_trusted (stores : Stores) (v : Verification) (opened : Bool) :
    files (v.write sha1 stores opened).trusted =
      if v.creates stores opened then insert (v.thumbprint sha1) (files stores.trusted)
      else files stores.trusted := by
  unfold Verification.write
  split_ifs with h
  · rw [files_create, if_pos (Bool.and_eq_true_iff.mp h).2]
  · rfl

/-- A call of a verification keeps the stores disjoint unless it creates a file that is rejected. -/
theorem exclusive_write {stores : Stores} (h : Exclusive stores) (v : Verification) (opened : Bool) :
    Exclusive (v.write sha1 stores opened) ↔
      ¬(v.creates stores opened = true ∧ v.thumbprint sha1 ∈ files stores.rejected) := by
  rw [Exclusive, write_trusted, write_rejected]
  split_ifs with hcreates
  · rw [Finset.disjoint_insert_left]
    exact ⟨fun hd hboth => hd.1 hboth.2, fun hn => ⟨fun hmem => hn ⟨hcreates, hmem⟩, h⟩⟩
  · exact ⟨fun _ hboth => hcreates hboth.1, fun _ => h⟩

theorem exclusive_step {s : State} (e : Event) (h : Exclusive s.stores) :
    Exclusive (s.step sha1 e).stores ↔ ¬CreatesRejected sha1 s e := by
  cases e with
  | begin certificate => exact iff_of_true h id
  | verify i opened =>
      rw [State.step, State.verify, CreatesRejected]
      split
      · next hnone =>
          refine iff_of_true h ?_
          rintro ⟨v, hv, -⟩
          rw [hnone] at hv
          cases hv
      · next v hv =>
          rw [exclusive_write h]
          apply not_congr
          constructor
          · exact fun hboth => ⟨v, hv, hboth⟩
          · rintro ⟨w, hw, hboth⟩
            rw [hv] at hw
            cases hw
            exact hboth
  | initializeStores made => exact iff_of_true (exclusive_initializeStores made h) id
  | delete t unlinked => exact iff_of_true (exclusive_deleteCertificate h) id
  | reject t renamed => exact iff_of_true (exclusive_rejectCertificate h) id
  | trust t renamed => exact iff_of_true (exclusive_trustCertificate h) id

/-! ## Runs -/

/-- A verification of the certificate has begun and not returned. -/
def InFlight (sha1 : List UInt8 → Vector UInt8 20) (t : Thumbprint) (s : State) : Prop :=
  ∃ v ∈ s.verifications, v.thumbprint sha1 = t ∧ ∀ status, v.phase ≠ .returned status

/-- In the run no certificate comes into both stores, a deleted one is in neither, and no CONFLICT is
answered. -/
structure OneStore (sha1 : List UInt8 → Vector UInt8 20) (s : State) (es : List Event) : Prop where
  exclusive : ∀ fs, fs <+: es → Exclusive (s.run sha1 fs).stores
  deleted : ∀ fs t unlinked, fs ++ [.delete t unlinked] <+: es →
    ((s.run sha1 fs).stores.deleteCertificate t unlinked).2 = .ok () → ¬InFlight sha1 t (s.run sha1 fs) →
    t ∉ files (s.run sha1 (fs ++ [.delete t unlinked])).stores.trusted ∧
      t ∉ files (s.run sha1 (fs ++ [.delete t unlinked])).stores.rejected
  trusted : ∀ fs t renamed, fs ++ [.trust t renamed] <+: es →
    ∀ message, ((s.run sha1 fs).stores.trustCertificate t renamed).2 ≠ .error (.conflict message)

/-- A deleted certificate was in one of two disjoint stores. -/
theorem deleteCertificate_neither {stores : Stores} {t : Thumbprint} {unlinked : Bool}
    (h : Exclusive stores) (hok : (stores.deleteCertificate t unlinked).2 = .ok ()) :
    t ∉ files (stores.deleteCertificate t unlinked).1.trusted ∧
      t ∉ files (stores.deleteCertificate t unlinked).1.rejected := by
  obtain ⟨htrusted, hrejected⟩ := deleteCertificate_ok hok
  rw [htrusted, hrejected]
  refine ⟨Finset.notMem_erase _ _, ?_⟩
  split_ifs with hmem
  · exact Finset.disjoint_left.mp h hmem
  · exact Finset.notMem_erase _ _

theorem trustCertificate_no_conflict {stores : Stores} (h : Exclusive stores) (t : Thumbprint)
    (renamed : Bool) (message : String) :
    (stores.trustCertificate t renamed).2 ≠ .error (.conflict message) := by
  unfold Stores.trustCertificate
  split_ifs with hrejected htrusted
  · exact absurd hrejected (Finset.disjoint_left.mp h htrusted)
  all_goals nofun

/-- **One store.** From disjoint stores, a run keeps each certificate in one store, with what deletion and
trust rest on, exactly when no verification of it creates a file that the reject store has. -/
theorem oneStore_iff (sha1 : List UInt8 → Vector UInt8 20) (s : State) (es : List Event)
    (h : Exclusive s.stores) :
    OneStore sha1 s es ↔
      Machine.Guarded (State.step sha1) (fun s e => ¬CreatesRejected sha1 s e) s es := by
  have halways : (∀ fs, fs <+: es → Exclusive (s.run sha1 fs).stores) ↔
      Machine.Guarded (State.step sha1) (fun s e => ¬CreatesRejected sha1 s e) s es :=
    Machine.always_iff_guarded (I := fun s : State => Exclusive s.stores) (J := fun _ => True)
      (fun _ _ _ _ => trivial) (fun _ e _ _ hs => exclusive_step e hs) (Machine.guarded_true s es) trivial h
  constructor
  · exact fun hone => halways.mp hone.exclusive
  · intro hguard
    have hexclusive := halways.mpr hguard
    refine ⟨hexclusive, fun fs t unlinked hfs hok _ => ?_, fun fs t renamed hfs => ?_⟩
    · have hfs' : fs <+: es := (List.prefix_append fs _).trans hfs
      rw [State.run, Machine.run_snoc]
      exact deleteCertificate_neither (hexclusive fs hfs') hok
    · have hfs' : fs <+: es := (List.prefix_append fs _).trans hfs
      exact trustCertificate_no_conflict (hexclusive fs hfs') t renamed

/-- The empty certificate stays in one store while it is rejected, verified and trusted again. -/
theorem oneStore_empty :
    Exclusive oneTrusted.stores ∧
      OneStore (fun _ => emptyHash) oneTrusted
        [.reject emptyThumbprint true, .begin [], .verify 0 true, .trust emptyThumbprint true] := by
  have h : Exclusive oneTrusted.stores := by decide
  refine ⟨h, (oneStore_iff _ oneTrusted _ h).mpr ⟨nofun, nofun, ?_, nofun, trivial⟩⟩
  rintro ⟨v, hv, hcreates, -⟩
  cases hv
  cases hcreates

/-- The certificate is rejected between the two looks of a verification, which then creates its file
again. -/
theorem rejected_meanwhile_both :
    ¬∀ (s : State) (es : List Event), Exclusive s.stores → OneStore (fun _ => emptyHash) s es := by
  intro h
  have hone := h oneTrusted
    [.begin [], .verify 0 true, .verify 0 true, .verify 0 true, .reject emptyThumbprint true,
      .verify 0 true, .verify 0 true] (by decide)
  have hboth := hone.exclusive _ (List.prefix_refl _)
  revert hboth
  decide

/-! ## When a verification creates a rejected file -/

/-- The verification has found no file in the reject store and may yet create one in the trust store. -/
def Phase.looked : Phase → Bool
  | .trustStore | .opening => true
  | _ => false

/-- The certificate is rejected while a verification is between its look into the reject store and the
creation of the file. -/
def RejectsLooked (sha1 : List UInt8 → Vector UInt8 20) (s : State) : Event → Prop
  | .reject t renamed => (s.stores.rejectCertificate t renamed).2 = .ok () ∧
      ∃ v ∈ s.verifications, v.thumbprint sha1 = t ∧ v.phase.looked = true
  | _ => False

/-- What the verifications that have looked rest on. -/
def Cleared (sha1 : List UInt8 → Vector UInt8 20) (s : State) : Prop :=
  ∀ v ∈ s.verifications, v.phase.looked = true → v.thumbprint sha1 ∉ files s.stores.rejected

theorem next_looked {stores : Stores} {v : Verification} {opened : Bool}
    (h : (v.next sha1 stores opened).looked = true) :
    v.phase.looked = true ∨ v.thumbprint sha1 ∉ files stores.rejected := by
  unfold Verification.next at h
  cases hp : v.phase with
  | trustStore => exact Or.inl rfl
  | opening => exact Or.inl rfl
  | rejectStore =>
      simp only [hp] at h
      split_ifs at h with hmem
      · cases h
      · exact Or.inr hmem
  | trustedDirectory =>
      simp only [hp] at h
      split_ifs at h <;> cases h
  | rejectedDirectory =>
      simp only [hp] at h
      split_ifs at h <;> cases h
  | writing => simp only [hp] at h; cases h
  | returned status => simp only [hp] at h; cases h

/-- Only a rejection adds to the reject store. -/
theorem rejected_of_step {t : Thumbprint} {s : State} {e : Event}
    (h : t ∈ files (s.step sha1 e).stores.rejected) :
    t ∈ files s.stores.rejected ∨
      ∃ renamed, e = .reject t renamed ∧ (s.stores.rejectCertificate t renamed).2 = .ok () := by
  cases e with
  | begin certificate => exact Or.inl h
  | verify i opened =>
      rw [State.step, State.verify] at h
      split at h
      · exact Or.inl h
      · rw [write_rejected] at h
        exact Or.inl h
  | initializeStores made =>
      rw [State.step, (initializeStores_files s.stores made).2] at h
      exact Or.inl h
  | delete t' unlinked =>
      rw [State.step] at h
      by_cases hok : (s.stores.deleteCertificate t' unlinked).2 = .ok ()
      · rw [(deleteCertificate_ok hok).2] at h
        split_ifs at h
        · exact Or.inl h
        · exact Or.inl (Finset.mem_of_mem_erase h)
      · rw [deleteCertificate_fails hok] at h
        exact Or.inl h
  | reject t' renamed =>
      rw [State.step] at h
      by_cases hok : (s.stores.rejectCertificate t' renamed).2 = .ok ()
      · rw [(rejectCertificate_ok hok).2.2] at h
        rcases Finset.mem_insert.mp h with rfl | h
        · exact Or.inr ⟨renamed, rfl, hok⟩
        · exact Or.inl h
      · rw [rejectCertificate_fails hok] at h
        exact Or.inl h
  | trust t' renamed =>
      rw [State.step] at h
      by_cases hok : (s.stores.trustCertificate t' renamed).2 = .ok ()
      · rw [(trustCertificate_ok hok).2.2.2] at h
        exact Or.inl (Finset.mem_of_mem_erase h)
      · rw [trustCertificate_fails hok] at h
        exact Or.inl h

theorem Cleared.step {s : State} {e : Event} (he : ¬RejectsLooked sha1 s e) (h : Cleared sha1 s) :
    Cleared sha1 (s.step sha1 e) := by
  intro w hw hlooked hmem
  -- the verification before the step, which has looked or looks now
  have hv : ∃ v ∈ s.verifications, v.thumbprint sha1 = w.thumbprint sha1 ∧
      w.thumbprint sha1 ∉ files s.stores.rejected ∧
        (v.phase.looked = true ∨ ∃ i opened, e = .verify i opened) := by
    obtain ⟨i, hi⟩ := List.mem_iff_getElem?.mp hw
    rcases of_getElem?_step hi with hsame | hbegun | ⟨v, opened, hv, he', rfl⟩
    · have hvmem := List.mem_of_getElem? hsame
      exact ⟨w, hvmem, rfl, h w hvmem hlooked, Or.inl hlooked⟩
    · rw [hbegun] at hlooked
      cases hlooked
    · have hvmem := List.mem_of_getElem? hv
      refine ⟨v, hvmem, rfl, ?_, Or.inr ⟨i, opened, he'⟩⟩
      rcases next_looked hlooked with hl | hn
      · exact h v hvmem hl
      · exact hn
  obtain ⟨v, hvmem, ht, hnot, hwhen⟩ := hv
  rcases rejected_of_step hmem with hbefore | ⟨renamed, rfl, hok⟩
  · exact hnot hbefore
  · rcases hwhen with hl | ⟨i, opened, he'⟩
    · exact he ⟨hok, v, hvmem, ht, hl⟩
    · cases he'

/-- If no certificate is rejected while a verification of it is between its look into the reject store and
the creation of its file, no verification creates a file that the reject store has. -/
theorem creates_cleared {s : State} {es : List Event} (hs : Cleared sha1 s)
    (h : Machine.Guarded (State.step sha1) (fun s e => ¬RejectsLooked sha1 s e) s es) :
    Machine.Guarded (State.step sha1) (fun s e => ¬CreatesRejected sha1 s e) s es := by
  refine Machine.Guarded.of_invariant (I := Cleared sha1) (fun _ _ => Cleared.step) ?_ hs h
  intro s e hcleared _ hcreates
  cases e with
  | verify i opened =>
      obtain ⟨v, hv, hcreates, hmem⟩ := hcreates
      have hphase : v.phase = .opening := by
        simp only [Verification.creates, Bool.and_eq_true, decide_eq_true_eq] at hcreates
        exact hcreates.1.1
      exact hcleared v (List.mem_of_getElem? hv) (by rw [hphase]; rfl) hmem
  | begin certificate => exact hcreates
  | initializeStores made => exact hcreates
  | delete t unlinked => exact hcreates
  | reject t renamed => exact hcreates
  | trust t renamed => exact hcreates

end OpcuaLight.Pki
