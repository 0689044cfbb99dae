import OpcuaLight.Lib.Compaction

/-!
# Endpoints

The end of `security_configure`, which removes the endpoints that a security mode rules out from the server's
configuration. A copy of a description shares the memory of its members with the original, and
`UA_EndpointDescription_clear` frees it: `content` stands for that memory.
-/

namespace OpcuaLight.Runtime

open Compaction (compact dropped)

inductive MessageSecurityMode where
  | invalid
  | none
  | sign
  | signAndEncrypt
  deriving DecidableEq, Repr, Inhabited

structure EndpointDescription (κ : Type) where
  securityMode : MessageSecurityMode
  content : κ
  deriving DecidableEq

/-- The endpoints of the configuration, and the descriptions that were cleared with where they stood. -/
structure Endpoints (κ : Type) where
  endpoints : List (EndpointDescription κ)
  endpointsSize : ℕ
  cleared : List (ℕ × EndpointDescription κ)

variable {κ : Type}

/-- A loop over the endpoints; `empty` is the memory of a description whose bytes are zero. -/
def removeEndpoints (empty : κ) (keep : EndpointDescription κ → Bool) (endpoints : List (EndpointDescription κ)) :
    Option (Endpoints κ) :=
  (compact keep ⟨.invalid, empty⟩ endpoints).map fun s => ⟨s.entries, s.count, s.cleared⟩

/-- What `security_configure` does in the end; there is no result if it leaves the array. -/
def filterEndpoints (empty : κ) (mode : String) (endpoints : List (EndpointDescription κ)) : Option (Endpoints κ) :=
  if mode = "SignAndEncrypt" then removeEndpoints empty (fun e => e.securityMode ≠ .none) endpoints
  else if mode = "Sign" then removeEndpoints empty (fun e => e.securityMode ≠ .signAndEncrypt) endpoints
  else some ⟨endpoints, endpoints.length, []⟩

/-- Exactly the endpoints that are kept are left, in their order; each of the others was cleared once, where it
stood, and no other; and memory that is freed belongs to none that is left, if no two endpoints shared any. -/
structure Filtered (keep : EndpointDescription κ → Bool) (endpoints : List (EndpointDescription κ))
    (result : Endpoints κ) : Prop where
  left : result.endpoints.take result.endpointsSize = endpoints.filter keep
  size : result.endpointsSize = (endpoints.filter keep).length
  cleared : ∀ i e, (i, e) ∈ result.cleared ↔ endpoints[i]? = some e ∧ keep e = false
  once : (result.cleared.map Prod.fst).Nodup
  apart : (endpoints.map (fun e => e.content)).Nodup →
    ((result.endpoints.take result.endpointsSize ++ result.cleared.map Prod.snd).map (fun e => e.content)).Nodup

theorem removeEndpoints_filtered (empty : κ) (keep : EndpointDescription κ → Bool)
    (endpoints : List (EndpointDescription κ)) :
    ∃ result, removeEndpoints empty keep endpoints = some result ∧ Filtered keep endpoints result := by
  obtain ⟨s, hrun, hcount, hkept, hcleared⟩ := Compaction.compact_spec keep ⟨.invalid, empty⟩ endpoints
  refine ⟨⟨s.entries, s.count, s.cleared⟩, by rw [removeEndpoints, hrun]; rfl, ?_⟩
  exact
    { left := hkept
      size := hcount
      cleared := fun i e => by
        rw [hcleared]
        exact Compaction.mem_dropped
      once := by
        rw [hcleared]
        exact Compaction.nodup_dropped keep endpoints
      apart := fun hcontents => by
        simp only [hkept, hcleared, Compaction.map_snd_dropped]
        exact ((List.filter_append_perm keep endpoints).map _).nodup_iff.mpr hcontents }

/-- **The filter of the endpoints is exact.** In mode SignAndEncrypt the endpoints without security are removed, and
in mode Sign those that encrypt, for every list of endpoints. -/
theorem filterEndpoints_exact (empty : κ) (endpoints : List (EndpointDescription κ)) :
    (∃ result, filterEndpoints empty "SignAndEncrypt" endpoints = some result ∧
      Filtered (fun e => e.securityMode ≠ .none) endpoints result) ∧
    ∃ result, filterEndpoints empty "Sign" endpoints = some result ∧
      Filtered (fun e => e.securityMode ≠ .signAndEncrypt) endpoints result :=
  ⟨removeEndpoints_filtered empty _ endpoints, removeEndpoints_filtered empty _ endpoints⟩

example : filterEndpoints 0 "SignAndEncrypt" [⟨.none, 1⟩, ⟨.sign, 2⟩, ⟨.none, 3⟩, ⟨.signAndEncrypt, 4⟩] =
    some ⟨[⟨.sign, 2⟩, ⟨.signAndEncrypt, 4⟩, ⟨.invalid, 0⟩, ⟨.signAndEncrypt, 4⟩], 2,
      [(0, ⟨.none, 1⟩), (2, ⟨.none, 3⟩)]⟩ := rfl

end OpcuaLight.Runtime
