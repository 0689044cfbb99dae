import OpcuaLight.Pki.Verifier

/-!
# Revocation

What one operation, and one step of either process, does to the stores and to the verifications. From it: once a
certificate is rejected, every verification begun afterwards that looks into the reject store before the
certificate is trusted again or deleted finds it there (`rejected_untrusted`), whatever earlier
verifications write meanwhile. A verification that has begun but not looked yet may still see the
certificate leave the store.
-/

namespace OpcuaLight.Pki

variable {sha1 : List UInt8 → Vector UInt8 20}

/-! ## The operations of the manager -/

section Manager
variable {stores : Stores} {t : Thumbprint} {ok : Bool}

@[simp] theorem files_mkdirSync (directory : Option Directory) :
    files (mkdirSync directory) = files directory := by
  cases directory <;> rfl

/-- `initialize` adds and removes no file. -/
theorem initializeStores_files (stores : Stores) (made : Bool × Bool) :
    files (stores.initializeStores made).1.trusted = files stores.trusted ∧
      files (stores.initializeStores made).1.rejected = files stores.rejected := by
  unfold Stores.initializeStores
  split_ifs <;> simp

theorem rejectCertificate_fails (h : (stores.rejectCertificate t ok).2 ≠ .ok ()) :
    (stores.rejectCertificate t ok).1 = stores := by
  unfold Stores.rejectCertificate at h ⊢
  split_ifs at h ⊢ with hmem hok
  · exact absurd rfl h
  · rfl
  · rfl

/-- A rejected certificate was trusted and has moved. -/
theorem rejectCertificate_ok (h : (stores.rejectCertificate t ok).2 = .ok ()) :
    t ∈ files stores.trusted ∧
      files (stores.rejectCertificate t ok).1.trusted = (files stores.trusted).erase t ∧
      files (stores.rejectCertificate t ok).1.rejected = insert t (files stores.rejected) := by
  unfold Stores.rejectCertificate at h ⊢
  split_ifs at h ⊢ with hmem hok
  refine ⟨hmem, files_remove _ _, ?_⟩
  rw [files_create, if_pos hok.2]

theorem trustCertificate_fails (h : (stores.trustCertificate t ok).2 ≠ .ok ()) :
    (stores.trustCertificate t ok).1 = stores := by
  unfold Stores.trustCertificate at h ⊢
  split_ifs at h ⊢ with hmem htrusted hok
  · rfl
  · exact absurd rfl h
  · rfl
  · rfl

theorem trustCertificate_ok (h : (stores.trustCertificate t ok).2 = .ok ()) :
    t ∈ files stores.rejected ∧ t ∉ files stores.trusted ∧
      files (stores.trustCertificate t ok).1.trusted = insert t (files stores.trusted) ∧
      files (stores.trustCertificate t ok).1.rejected = (files stores.rejected).erase t := by
  unfold Stores.trustCertificate at h ⊢
  split_ifs at h ⊢ with hmem htrusted hok
  refine ⟨hmem, htrusted, ?_, files_remove _ _⟩
  rw [files_create, if_pos hok.2]

theorem deleteCertificate_fails (h : (stores.deleteCertificate t ok).2 ≠ .ok ()) :
    (stores.deleteCertificate t ok).1 = stores := by
  unfold Stores.deleteCertificate at h ⊢
  split_ifs at h ⊢ <;> first | rfl | exact absurd rfl h

/-- A file that is in both stores is deleted from the trust store only. -/
theorem deleteCertificate_ok (h : (stores.deleteCertificate t ok).2 = .ok ()) :
    files (stores.deleteCertificate t ok).1.trusted = (files stores.trusted).erase t ∧
      files (stores.deleteCertificate t ok).1.rejected =
        if t ∈ files stores.trusted then files stores.rejected else (files stores.rejected).erase t := by
  unfold Stores.deleteCertificate at h ⊢
  split_ifs at h ⊢ with htrusted hunlink hrejected hunlink
  · exact ⟨files_remove _ _, rfl⟩
  · exact ⟨(Finset.erase_eq_of_notMem htrusted).symm, files_remove _ _⟩

end Manager

/-! ## The verifications -/

section Verifications
variable {s : State} {e : Event} {v w : Verification} {i : Nat}

/-- A verification after a step is one before it, as it was or a call further, or has just begun. -/
theorem of_getElem?_step (h : (s.step sha1 e).verifications[i]? = some w) :
    s.verifications[i]? = some w ∨ w.phase = .trustedDirectory ∨
      ∃ v opened, s.verifications[i]? = some v ∧ e = .verify i opened ∧
        w = { v with phase := v.next sha1 s.stores opened } := by
  cases e with
  | begin certificate =>
      rw [State.step, List.getElem?_append] at h
      split_ifs at h with hi
      · exact Or.inl h
      · apply Or.inr
        apply Or.inl
        rw [List.mem_singleton.mp (List.mem_of_getElem? h)]
  | verify j opened =>
      rw [State.step, State.verify] at h
      split at h
      · exact Or.inl h
      · next v hv =>
          rw [List.getElem?_set] at h
          split_ifs at h with hij hlt
          · subst hij
            exact Or.inr (Or.inr ⟨v, opened, hv, rfl, (Option.some.inj h).symm⟩)
          · exact Or.inl h
  | initializeStores made => exact Or.inl h
  | delete t unlinked => exact Or.inl h
  | reject t renamed => exact Or.inl h
  | trust t renamed => exact Or.inl h

/-- A verification that has returned stays so. -/
theorem getElem?_step_returned {status : VerifyStatus} {certificate : List UInt8} (e : Event)
    (h : s.verifications[i]? = some ⟨certificate, .returned status⟩) :
    (s.step sha1 e).verifications[i]? = some ⟨certificate, .returned status⟩ := by
  have hlt : i < s.verifications.length := (List.getElem?_eq_some_iff.mp h).1
  cases e with
  | begin c => exact (List.getElem?_append_left hlt).trans h
  | verify j opened =>
      rw [State.step, State.verify]
      split
      · exact h
      · next v hv =>
          rw [List.getElem?_set]
          by_cases hij : j = i
          · subst hij
            rw [h] at hv
            cases hv
            rw [if_pos rfl, if_pos hlt]
            rfl
          · rw [if_neg hij]
            exact h
  | initializeStores made => exact h
  | delete t unlinked => exact h
  | reject t renamed => exact h
  | trust t renamed => exact h

theorem getElem?_run_returned {status : VerifyStatus} {certificate : List UInt8} (es : List Event)
    (h : s.verifications[i]? = some ⟨certificate, .returned status⟩) :
    (s.run sha1 es).verifications[i]? = some ⟨certificate, .returned status⟩ :=
  Machine.run_invariant' (I := fun s : State => s.verifications[i]? = some ⟨certificate, .returned status⟩)
    (fun _ e => getElem?_step_returned e) es h

/-- The verification has looked into the reject store, or returned before that. -/
def Phase.checked : Phase → Bool
  | .trustedDirectory | .rejectedDirectory | .rejectStore => false
  | .trustStore | .opening | .writing | .returned _ => true

/-- A verification whose certificate is in the reject store gets past the check only by failing. -/
theorem next_checked {stores : Stores} {opened : Bool} (hmem : v.thumbprint sha1 ∈ files stores.rejected)
    (hphase : v.phase.checked = true → v.phase = .returned .badCertificateUntrusted)
    (h : (v.next sha1 stores opened).checked = true) :
    v.next sha1 stores opened = .returned .badCertificateUntrusted := by
  unfold Verification.next at h ⊢
  cases hp : v.phase with
  | trustedDirectory =>
      simp only [hp] at h ⊢
      split_ifs at h ⊢
      · cases h
      · rfl
  | rejectedDirectory =>
      simp only [hp] at h ⊢
      split_ifs at h ⊢
      · cases h
      · rfl
  | rejectStore => simp only [hmem, if_true]
  | trustStore => exact absurd (hp.symm.trans (hphase (by rw [hp]; rfl))) nofun
  | opening => exact absurd (hp.symm.trans (hphase (by rw [hp]; rfl))) nofun
  | writing => exact absurd (hp.symm.trans (hphase (by rw [hp]; rfl))) nofun
  | returned status => exact hp.symm.trans (hphase (by rw [hp]; rfl))

theorem write_rejected (stores : Stores) (v : Verification) (opened : Bool) :
    (v.write sha1 stores opened).rejected = stores.rejected := by
  unfold Verification.write
  split_ifs <;> rfl

end Verifications

/-! ## After a rejection -/

/-- The certificate is trusted again, or deleted. -/
def Restores (t : Thumbprint) (s : State) : Event → Prop
  | .trust t' renamed => t' = t ∧ (s.stores.trustCertificate t' renamed).2 = .ok ()
  | .delete t' unlinked => t' = t ∧ (s.stores.deleteCertificate t' unlinked).2 = .ok ()
  | _ => False

/-- Until then its file stays in the reject store. -/
theorem rejected_step {t : Thumbprint} {s : State} {e : Event} (he : ¬Restores t s e)
    (h : t ∈ files s.stores.rejected) : t ∈ files (s.step sha1 e).stores.rejected := by
  cases e with
  | begin certificate => exact h
  | verify i opened =>
      rw [State.step, State.verify]
      split
      · exact h
      · rwa [write_rejected]
  | initializeStores made =>
      rw [State.step, (initializeStores_files s.stores made).2]
      exact h
  | delete t' unlinked =>
      rw [State.step]
      by_cases hok : (s.stores.deleteCertificate t' unlinked).2 = .ok ()
      · have hne : t ≠ t' := fun heq => he ⟨heq.symm, hok⟩
        rw [(deleteCertificate_ok hok).2]
        split_ifs
        · exact h
        · exact Finset.mem_erase.mpr ⟨hne, h⟩
      · rwa [deleteCertificate_fails hok]
  | reject t' renamed =>
      rw [State.step]
      by_cases hok : (s.stores.rejectCertificate t' renamed).2 = .ok ()
      · rw [(rejectCertificate_ok hok).2.2]
        exact Finset.mem_insert_of_mem h
      · rwa [rejectCertificate_fails hok]
  | trust t' renamed =>
      rw [State.step]
      by_cases hok : (s.stores.trustCertificate t' renamed).2 = .ok ()
      · have hne : t ≠ t' := fun heq => he ⟨heq.symm, hok⟩
        rw [(trustCertificate_ok hok).2.2.2]
        exact Finset.mem_erase.mpr ⟨hne, h⟩
      · rwa [trustCertificate_fails hok]

/-- What holds from the rejection on; `n` verifications had begun before it. -/
structure Revoked (sha1 : List UInt8 → Vector UInt8 20) (t : Thumbprint) (n : Nat) (s : State) : Prop where
  rejected : t ∈ files s.stores.rejected
  later : ∀ i v, n ≤ i → s.verifications[i]? = some v → v.thumbprint sha1 = t →
    v.phase.checked = true → v.phase = .returned .badCertificateUntrusted

theorem Revoked.step {t : Thumbprint} {n : Nat} {s : State} {e : Event} (he : ¬Restores t s e)
    (h : Revoked sha1 t n s) : Revoked sha1 t n (s.step sha1 e) := by
  refine ⟨rejected_step he h.rejected, fun i w hi hw ht hchecked => ?_⟩
  rcases of_getElem?_step hw with hsame | hbegun | ⟨v, opened, hv, -, rfl⟩
  · exact h.later i w hi hsame ht hchecked
  · rw [hbegun] at hchecked
    cases hchecked
  · have ht' : v.thumbprint sha1 = t := ht
    apply next_checked _ (h.later i v hi hv ht') hchecked
    rw [ht']
    exact h.rejected

/-- The state after `rejectCertificate` of a certificate that it has moved. -/
theorem revoked_reject {t : Thumbprint} {s : State} {renamed : Bool}
    (h : (s.stores.rejectCertificate t renamed).2 = .ok ()) :
    Revoked sha1 t s.verifications.length (s.step sha1 (.reject t renamed)) where
  rejected := by
    rw [State.step, (rejectCertificate_ok h).2.2]
    exact Finset.mem_insert_self _ _
  later := fun i v hi hv => by
    rw [State.step, List.getElem?_eq_none hi] at hv
    cases hv

/-- **After a rejection.** A verification that begins when `rejectCertificate` has returned, and has looked
into the reject store (or returned) before the certificate is trusted again or deleted, returns
BADCERTIFICATEUNTRUSTED, whatever else happens before and after. -/
theorem rejected_untrusted (sha1 : List UInt8 → Vector UInt8 20) (s : State) (t : Thumbprint) (renamed : Bool)
    (hreject : (s.stores.rejectCertificate t renamed).2 = .ok ()) (es es' : List Event)
    (hes : Machine.Guarded (State.step sha1) (fun s e => ¬Restores t s e)
      (s.step sha1 (.reject t renamed)) es)
    (i : Nat) (v : Verification) (hbegun : s.verifications.length ≤ i)
    (hv : ((s.step sha1 (.reject t renamed)).run sha1 es).verifications[i]? = some v)
    (ht : v.thumbprint sha1 = t) (hchecked : v.phase.checked = true) :
    ((s.step sha1 (.reject t renamed)).run sha1 (es ++ es')).verifications[i]? =
      some ⟨v.certificate, .returned .badCertificateUntrusted⟩ := by
  have hrevoked : Revoked sha1 t s.verifications.length
      ((s.step sha1 (.reject t renamed)).run sha1 es) :=
    Machine.run_invariant (fun _ _ => Revoked.step) hes (revoked_reject hreject)
  have hphase := hrevoked.later i v hbegun hv ht hchecked
  rw [State.run, Machine.run_append]
  apply getElem?_run_returned
  rw [← hphase]
  exact hv

/-- The SHA-1 hash of no bytes. -/
def emptyHash : Vector UInt8 20 :=
  #v[0xda, 0x39, 0xa3, 0xee, 0x5e, 0x6b, 0x4b, 0x0d, 0x32, 0x55,
    0xbf, 0xef, 0x95, 0x60, 0x18, 0x90, 0xaf, 0xd8, 0x07, 0x09]

/-- The thumbprint of the empty certificate. -/
def emptyThumbprint : Thumbprint := computeThumbprint emptyHash

/-- The empty certificate is trusted, and no verification has begun. -/
def oneTrusted : State := ⟨⟨some ⟨true, {emptyThumbprint}⟩, some ⟨true, ∅⟩⟩, []⟩

/-- The certificate is rejected, and its next verification gets BADCERTIFICATEUNTRUSTED although the
certificate is trusted again meanwhile. -/
theorem rejected_untrusted_empty :
    (oneTrusted.stores.rejectCertificate emptyThumbprint true).2 = .ok () ∧
      ((oneTrusted.step (fun _ => emptyHash) (.reject emptyThumbprint true)).run (fun _ => emptyHash)
        ([.begin [], .verify 0 true, .verify 0 true, .verify 0 true] ++
          [.trust emptyThumbprint true, .verify 0 true])).verifications[0]? =
        some ⟨[], .returned .badCertificateUntrusted⟩ := by
  have hreject : (oneTrusted.stores.rejectCertificate emptyThumbprint true).2 = .ok () := by decide
  have hes : Machine.Guarded (State.step (fun _ => emptyHash)) (fun s e => ¬Restores emptyThumbprint s e)
      (oneTrusted.step (fun _ => emptyHash) (.reject emptyThumbprint true))
      [.begin [], .verify 0 true, .verify 0 true, .verify 0 true] :=
    ⟨nofun, nofun, nofun, nofun, trivial⟩
  refine ⟨hreject, ?_⟩
  apply rejected_untrusted (fun _ => emptyHash) oneTrusted emptyThumbprint true hreject _ _ hes 0
    ⟨[], .returned .badCertificateUntrusted⟩
  · decide
  · decide
  · rfl
  · rfl

/-- Every verification that begins after a rejection, and before the certificate is trusted again or
deleted, returns BADCERTIFICATEUNTRUSTED if it returns. -/
def RevokedAtOnce (sha1 : List UInt8 → Vector UInt8 20) : Prop :=
  ∀ (s : State) (t : Thumbprint) (renamed : Bool), (s.stores.rejectCertificate t renamed).2 = .ok () →
    ∀ es es' : List Event,
    Machine.Guarded (State.step sha1) (fun s e => ¬Restores t s e)
      (s.step sha1 (.reject t renamed)) es →
    ∀ (i : Nat) (v : Verification) (status : VerifyStatus), s.verifications.length ≤ i →
    ((s.step sha1 (.reject t renamed)).run sha1 es).verifications[i]? = some v → v.thumbprint sha1 = t →
    ((s.step sha1 (.reject t renamed)).run sha1 (es ++ es')).verifications[i]? =
      some ⟨v.certificate, .returned status⟩ →
    status = .badCertificateUntrusted

/-- A verification that has begun sees the certificate trusted again before it looks into the reject
store. -/
theorem begun_not_revoked : ¬RevokedAtOnce (fun _ => emptyHash) := by
  intro h
  have hgood := h oneTrusted emptyThumbprint true (by decide) [.begin []]
    [.trust emptyThumbprint true, .verify 0 true, .verify 0 true, .verify 0 true, .verify 0 true]
    ⟨nofun, trivial⟩ 0 ⟨[], .trustedDirectory⟩ .good le_rfl (by decide) rfl (by decide)
  cases hgood

end OpcuaLight.Pki
