import Disguise.Authentication.EnclaveEntry
import Disguise.Authentication.UeRuns

/-!
# Which tokens the UE accepts

`generate_authentication_response_5g` is meant to return `AUTH_OK` only for a token that verifies
under the key, as it does on the standard path (`genAuthResMilenage_authOk_iff`). With the virtual
SIM it returns `AUTH_OK` whatever the token is: the response in the mailbox carries no verdict, and
the verdict of the local computation is dropped. `accepts_only_verified_iff` is the exact condition
for whole runs, and `unverified_tokens_accepted` a run that breaks it in both branches.
-/

set_option autoImplicit false
set_option relaxedAutoImplicit false

namespace Disguise.Authentication.Ue

open Mailbox Memory Milenage Process

/-- The token of a call verifies under the key and the OPc of the UE. -/
def TokenVerifies (aes : Block → Block → Block) (record : CallRecord) : Prop :=
  Verifies (aes record.before.k) record.before.opc record.call.rand record.call.autnEnb

/-- A call that returns `AUTH_OK` was given a token that verifies. -/
def AcceptsOnlyVerified (aes : Block → Block → Block) (record : CallRecord) : Prop :=
  record.response.authResult = .authOk → TokenVerifies aes record

/-- A call that took a response from the mailbox took the one that belongs to its challenge. -/
def TakesOwnResponse (aes : Block → Block → Block) (record : CallRecord) : Prop :=
  record.before.fpgaInitialized = false → record.before.sharedData = .mapped →
    (⟨record.response.outputs.res, record.response.outputs.akXorSqn, record.response.ck,
      record.response.ik⟩ : Response) =
      respond (aes record.before.k) record.before.opc record.call.rand record.call.autnEnb

/-- A run accepts only tokens that verify exactly if every token it was given verifies, apart from
those of first calls without a mailbox.

Assumes: the algorithm is Milenage. -/
theorem accepts_only_verified_iff (srsran : Srsran) (aes : Block → Block → Block)
    (surroundings : Surroundings Content) (events : List UeEvent) (usim : Usim) (moment : ℕ)
    (memory : SharedData) (halgo : usim.authAlgo = .milenage) :
    (∀ record ∈ records srsran surroundings events usim moment memory,
        AcceptsOnlyVerified aes record) ↔
      ∀ record ∈ records srsran surroundings events usim moment memory,
        TokenVerifies aes record ∨
          (record.before.fpgaInitialized = false ∧ record.before.sharedData ≠ .mapped) := by
  refine forall₂_congr fun record hmem ↦ ?_
  rw [AcceptsOnlyVerified,
    records_authOk_iff srsran surroundings events usim moment memory halgo record hmem]
  constructor
  · intro haccepts
    by_cases hunmapped : record.before.fpgaInitialized = false ∧
        record.before.sharedData ≠ .mapped
    · exact Or.inr hunmapped
    · exact Or.inl (haccepts hunmapped)
  · rintro (hverifies | hunmapped) haccepted
    · exact hverifies
    · exact absurd hunmapped haccepted

/-- Two calls with a token of zeros, in a UE with the key and the AES of the enclave. The mailbox
holds the response that belongs to the first call. -/
def zeroRecords : List CallRecord :=
  records (enclaveSrsran Aes.encrypt) (alone fun _ ↦ true) [.call zeroCall, .call zeroCall]
    (freshUsim Enclave.builtInKey) 0
    (answeredMailbox (respond (Aes.encrypt Enclave.builtInKey) zeroBlock zeroBlock zeroBlock))

theorem accepts_only_verified_zeroRecords :
    (∀ record ∈ zeroRecords, AcceptsOnlyVerified Aes.encrypt record) ↔
      ∀ record ∈ zeroRecords, TokenVerifies Aes.encrypt record ∨
        (record.before.fpgaInitialized = false ∧ record.before.sharedData ≠ .mapped) :=
  accepts_only_verified_iff _ _ _ _ _ _ _ rfl

/-- Neither call was given a token that verifies, the mailbox answered the first one with its own
response, and both return `AUTH_OK`. -/
theorem unverified_tokens_accepted :
    (∀ record ∈ zeroRecords, TakesOwnResponse Aes.encrypt record) ∧
      zeroRecords.length = 2 ∧
      ∀ record ∈ zeroRecords, ¬ AcceptsOnlyVerified Aes.encrypt record := by
  refine ⟨?_, rfl, ?_⟩
  · intro record hmem
    rcases List.mem_cons.mp hmem with rfl | hlater
    · exact fun _ _ ↦ rfl
    · rcases List.mem_singleton.mp hlater with rfl
      exact fun hfirst ↦ Bool.noConfusion hfirst
  · intro record hmem haccepts
    have hok := (records_authOk_iff _ _ _ _ _ _ rfl record hmem).mpr
    rcases List.mem_cons.mp hmem with rfl | hlater
    · exact Enclave.not_verifies_zero (haccepts (hok fun hfirst ↦ hfirst.2 rfl))
    · rcases List.mem_singleton.mp hlater with rfl
      exact Enclave.not_verifies_zero (haccepts (hok fun hfirst ↦ hfirst.2 rfl))

end Disguise.Authentication.Ue
