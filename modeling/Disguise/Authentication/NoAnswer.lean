import Disguise.Authentication.Aes
import Disguise.Authentication.UeRuns

/-!
# Calls that get no answer

A call of the UE that does not see the flag of the mailbox set is meant to fail: it reports
`AUTH_FAILED`, keeps the flag of the process and the keys, and derives nothing (`FailsCleanly`). The
wait loop has two exits, the flag and the timeout, and the code behind it does not ask which one was
taken: it copies whatever the mailbox holds and reports success (`unanswered_call_takes`). So a call
without an answer fails cleanly exactly if it does not come to the loop because the mailbox is not
mapped (`cleanWithoutAnswer_iff`).
-/

set_option autoImplicit false
set_option relaxedAutoImplicit false

namespace Disguise.Authentication.Ue

open Mailbox Memory Milenage Process Process.Program

section Calls

variable (srsran : Srsran) (surroundings : Surroundings Content) (usim : Usim) (call : Call5g)
  (moment : ℕ) (memory : SharedData)

/-- No poll of the call reads the flag as set. -/
def GetsNoAnswer : Prop :=
  .loaded .authResponseReady true ∉ (callRun srsran surroundings call moment memory usim).trace

/-- The call fails, leaves the flag of the process, CK and IK as they were, and writes neither RES*
nor the key. -/
structure FailsCleanly : Prop where
  authFailed :
    (callRun srsran surroundings call moment memory usim).result.1.authResult = .authFailed
  fpgaInitialized : (callRun srsran surroundings call moment memory usim).result.2.fpgaInitialized =
    usim.fpgaInitialized
  ck : (callRun srsran surroundings call moment memory usim).result.2.ck = usim.ck
  ik : (callRun srsran surroundings call moment memory usim).result.2.ik = usim.ik
  resStar : (callRun srsran surroundings call moment memory usim).result.1.resStar = call.resStar
  kAmf : (callRun srsran surroundings call moment memory usim).result.1.kAmf = call.kAmf

/-- A call with a mapped mailbox reports success with what it copies, whether or not there was an
answer. -/
theorem unanswered_call_takes (halgo : usim.authAlgo = .milenage)
    (hfirst : usim.fpgaInitialized = false) (hmapped : usim.sharedData = .mapped) :
    let finished := callRun srsran surroundings call moment memory usim
    let copied := (exchangeRun surroundings usim call moment memory).result
    finished.result.1.authResult = .authOk ∧ finished.result.2.fpgaInitialized = true ∧
      finished.result.2.ck = copied.ck ∧ finished.result.2.ik = copied.ik := by
  dsimp only
  rw [call_mailbox srsran surroundings usim call moment memory halgo hfirst hmapped]
  obtain ⟨hverdict, hafter⟩ := deriveKeys_verdict srsran call
    (takenFrom usim (exchangeRun surroundings usim call moment memory).result)
  refine ⟨hverdict, ?_, ?_, ?_⟩
  · exact congrArg Usim.fpgaInitialized hafter
  · exact congrArg Usim.ck hafter
  · exact congrArg Usim.ik hafter

/-- A call without a mailbox fails cleanly. -/
theorem failsCleanly_of_unmapped (halgo : usim.authAlgo = .milenage)
    (hfirst : usim.fpgaInitialized = false) (hunmapped : usim.sharedData ≠ .mapped) :
    FailsCleanly srsran surroundings usim call moment memory := by
  have hrun := call_unmapped srsran surroundings usim call moment memory halgo hfirst hunmapped
  refine ⟨?_, ?_, ?_, ?_, ?_, ?_⟩ <;> rw [hrun] <;> rfl

/-- If the call gets no answer, it fails cleanly. -/
def CleanWithoutAnswer : Prop :=
  GetsNoAnswer srsran surroundings usim call moment memory →
    FailsCleanly srsran surroundings usim call moment memory

/-- The call fails cleanly without an answer exactly if a call without an answer is a first call of
its process with a mailbox that is not mapped, for every schedule of the other processes.

Assumes: the algorithm is Milenage, so that the call is one of the virtual SIM. -/
theorem cleanWithoutAnswer_iff (halgo : usim.authAlgo = .milenage) :
    CleanWithoutAnswer srsran surroundings usim call moment memory ↔
      (GetsNoAnswer srsran surroundings usim call moment memory →
        usim.fpgaInitialized = false ∧ usim.sharedData ≠ .mapped) := by
  refine imp_congr_right fun _ ↦ ?_
  constructor
  · intro hfails
    by_contra hused
    have hok := (call_authOk_iff srsran surroundings usim call moment memory halgo).mpr hused
    rw [hfails.authFailed] at hok
    cases hok
  · rintro ⟨hfirst, hunmapped⟩
    exact failsCleanly_of_unmapped srsran surroundings usim call moment memory halgo hfirst
      hunmapped

end Calls

/-- A call with zeros over a mailbox that stays at rest. -/
theorem cleanWithoutAnswer_iff_resting :
    CleanWithoutAnswer (enclaveSrsran Aes.encrypt) (alone fun _ ↦ true)
        (freshUsim Enclave.builtInKey) zeroCall 0 restingMailbox ↔
      (GetsNoAnswer (enclaveSrsran Aes.encrypt) (alone fun _ ↦ true)
          (freshUsim Enclave.builtInKey) zeroCall 0 restingMailbox →
        (freshUsim Enclave.builtInKey).fpgaInitialized = false ∧
          (freshUsim Enclave.builtInKey).sharedData ≠ .mapped) :=
  cleanWithoutAnswer_iff _ _ _ _ _ _ rfl

/-- Nobody answers this call, and it reports success with the zeros it finds in the mailbox. -/
theorem silent_mailbox_accepted :
    ¬ CleanWithoutAnswer (enclaveSrsran Aes.encrypt) (alone fun _ ↦ true)
      (freshUsim Enclave.builtInKey) zeroCall 0 restingMailbox := by
  intro hclean
  have hnone : GetsNoAnswer (enclaveSrsran Aes.encrypt) (alone fun _ ↦ true)
      (freshUsim Enclave.builtInKey) zeroCall 0 restingMailbox := by
    have hflag : restingMailbox .authResponseReady = false := rfl
    rw [GetsNoAnswer, call_mailbox _ _ _ _ _ _ rfl rfl rfl]
    simp [exchangeRun, exchange, waitForResponse, timeoutSeconds, run, alone, Run.after, hflag]
  have htakes := unanswered_call_takes (enclaveSrsran Aes.encrypt) (alone fun _ ↦ true)
    (freshUsim Enclave.builtInKey) zeroCall 0 restingMailbox rfl rfl rfl
  have hfailed := (hclean hnone).authFailed
  rw [htakes.1] at hfailed
  cases hfailed

end Disguise.Authentication.Ue
