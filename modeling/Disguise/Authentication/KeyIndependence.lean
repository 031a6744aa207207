import Disguise.Authentication.Aes
import Disguise.Authentication.UeRuns

/-!
# The key of the UE

With the virtual SIM the subscriber key is meant to be used inside the enclave only: two runs of UEs
that differ in their own copy of the key, among the same surroundings, are meant to give the same
responses. `responses_independent_of_key` says that they do as long as every call is the first of
its process. A later call computes its response with the key of the UE, and
`second_response_depends` is a run of two calls that shows it.
-/

set_option autoImplicit false
set_option relaxedAutoImplicit false

namespace Disguise.Authentication.Ue

open Mailbox Memory Milenage Process

/-- The same UE with another key. -/
def Usim.withKey (usim : Usim) (k : Block) : Usim := { usim with k }

section FirstCalls

variable (srsran : Srsran) (surroundings : Surroundings Content) (usim : Usim) (call : Call5g)
  (moment : ℕ) (memory : SharedData) (k : Block)

/-- A first call does not use the key: with another key it does the same, gives the same response,
and leaves the same state up to the key.

Assumes: the algorithm is Milenage and the call is the first of its process. -/
theorem firstCall_withKey (halgo : usim.authAlgo = .milenage)
    (hfirst : usim.fpgaInitialized = false) :
    callRun srsran surroundings call moment memory (usim.withKey k) =
      let finished := callRun srsran surroundings call moment memory usim
      { finished with result := (finished.result.1, finished.result.2.withKey k) } := by
  by_cases hmapped : usim.sharedData = .mapped
  · rw [call_mailbox _ _ (usim.withKey k) _ _ _ halgo hfirst hmapped,
      call_mailbox _ _ usim _ _ _ halgo hfirst hmapped]
    rfl
  · rw [call_unmapped _ _ (usim.withKey k) _ _ _ halgo hfirst hmapped,
      call_unmapped _ _ usim _ _ _ halgo hfirst hmapped]
    rfl

end FirstCalls

/-- Two runs that differ in the key of the UE give the same responses.

Assumes: the algorithm is Milenage, and every call of one of the runs is the first of its
process. -/
theorem responses_independent_of_key (srsran : Srsran) (surroundings : Surroundings Content)
    (k : Block) (events : List UeEvent) (usim : Usim) (moment : ℕ) (memory : SharedData)
    (halgo : usim.authAlgo = .milenage)
    (hfirst : ∀ record ∈ records srsran surroundings events usim moment memory,
      record.before.fpgaInitialized = false) :
    (records srsran surroundings events (usim.withKey k) moment memory).map CallRecord.response =
      (records srsran surroundings events usim moment memory).map CallRecord.response := by
  induction events generalizing usim moment memory with
  | nil => rfl
  | cons event events ih =>
    cases event with
    | restart sharedData ck ik =>
      exact ih (usim.restarted sharedData ck ik) moment memory halgo hfirst
    | call call =>
      have hcall := firstCall_withKey srsran surroundings usim call moment memory k halgo
        (hfirst _ List.mem_cons_self)
      have hrest := ih (callRun srsran surroundings call moment memory usim).result.2
        (callRun srsran surroundings call moment memory usim).moment
        (callRun srsran surroundings call moment memory usim).memory
        (call_authAlgo srsran surroundings usim call moment memory halgo)
        fun record hmem ↦ hfirst record (List.mem_cons_of_mem _ hmem)
      simp only [records, hcall, List.map_cons, hrest]

/-- A run of a UE with a given key and the AES of the enclave, among surroundings that leave the
mailbox alone. -/
def keyedRecords (events : List UeEvent) (k : Block) : List CallRecord :=
  records (enclaveSrsran Aes.encrypt) (alone fun _ ↦ true) events (freshUsim k) 0 zeroMailbox

/-- Two calls in two processes. -/
theorem responses_independent_of_key_restarted :
    (keyedRecords [.call zeroCall, .restart .mapped zeroBlock zeroBlock, .call zeroCall]
        zeroBlock).map CallRecord.response =
      (keyedRecords [.call zeroCall, .restart .mapped zeroBlock zeroBlock, .call zeroCall]
        Enclave.builtInKey).map CallRecord.response := by
  refine responses_independent_of_key _ _ zeroBlock _ (freshUsim Enclave.builtInKey) _ _ rfl ?_
  intro record hmem
  rcases List.mem_cons.mp hmem with rfl | hlater
  · rfl
  · rcases List.mem_singleton.mp hlater with rfl
    rfl

/-- Two calls in one process: the second response depends on the key. -/
theorem second_response_depends :
    (keyedRecords [.call zeroCall, .call zeroCall] zeroBlock).map CallRecord.response ≠
      (keyedRecords [.call zeroCall, .call zeroCall] Enclave.builtInKey).map
        CallRecord.response := by
  intro hequal
  have hres := congrArg (List.map fun response ↦ response.outputs.res) hequal
  revert hres
  decide +kernel

end Disguise.Authentication.Ue
