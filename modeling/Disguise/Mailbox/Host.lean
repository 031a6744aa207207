import Disguise.Authentication.EnclaveEntry
import Disguise.Mailbox.SharedData

/-!
# The host of the virtual SIM

`host-fpga.cpp` as a program over the mailbox. `main` resets the flags and starts the enclave, which
first asks for a challenge: `send_challenge_to_vSIM` polls for a command, and hands the 48 bytes of
the request to the enclave. The enclave answers with `send_challenge_response`, which copies the
46 bytes into the mailbox and raises the flag. Then the process ends: a host answers one request.

The endless loop of `send_challenge_to_vSIM` is a sequence of phases, each of which is the program
of one round (`Phase.program`). What the enclave answers is `replies` of its model.

Not modelled: the output, the set-up of the enclave, the signal handler, which removes the object,
and the sleeps.
-/

set_option autoImplicit false
set_option relaxedAutoImplicit false

namespace Disguise.Mailbox

open Authentication Memory Milenage Process Process.Program

/-- What a host process does next. -/
inductive Phase where
  /-- `main`, from the initialization of the flags on. -/
  | starting
  /-- A round of the loop of `send_challenge_to_vSIM`. -/
  | polling
  /-- The enclave has been handed a challenge. -/
  | answering (challenge : List UInt8)
  /-- The process has ended. -/
  | exited

/-- The part of `main` that initializes the shared data. -/
def resetFlags : MailboxProgram Phase := do
  storeCell .commandReady false
  storeCell .responseReady false
  storeCell .authResponseReady false
  return .polling

/-- The case `CMD_AUTHENTICATE` of `send_challenge_to_vSIM`. The choice is whether `malloc`
succeeds. -/
def pickUp : MailboxProgram Phase := do
  storeCell .authResponseReady false
  let randBytes : Octets 16 ← loadCell Member.randBytes
  let opcBytes : Octets 16 ← loadCell Member.opcBytes
  let autenbBytes : Octets 16 ← loadCell Member.autenbBytes
  if ← decision then
    storeCell .commandReady false
    return .answering (randBytes.toList ++ opcBytes.toList ++ autenbBytes.toList)
  else
    return .polling

/-- A round of the loop of `send_challenge_to_vSIM`. -/
def sendChallengeToVsim : MailboxProgram Phase := do
  if ← loadCell .commandReady then
    let commandType : CommandType ← loadCell Member.commandType
    match commandType with
    | .cmdAuthenticate => pickUp
    | .cmdNone | .cmdSwitch | .cmdExit => return .polling
  else
    return .polling

/-- The four parts of the data, as `send_challenge_response` reads them. -/
def responseParts (data : List UInt8) : Option Response := do
  let res ← arrayAt? data 0 8
  let akXorSqn ← arrayAt? data 8 6
  let ck ← arrayAt? data (8 + 6) 16
  let ik ← arrayAt? data (8 + 6 + 16) 16
  return { res, akXorSqn, ck, ik }

/-- `send_challenge_response`, for data that has 46 bytes. -/
def sendChallengeResponse (response : Response) : MailboxProgram Phase := do
  storeCell .res response.res
  storeCell .akXorSqn response.akXorSqn
  storeCell .ck response.ck
  storeCell .ik response.ik
  storeCell .authResponseReady true
  return .exited

section Programs

variable (aes : Block → Block → Block) (k : Block)

/-- What the host does with the data the enclave sends for a challenge. An enclave that sends
nothing, or data that is read beyond its end, ends the process. -/
def answer (world : Enclave.World) (challenge : List UInt8) : MailboxProgram Phase :=
  match (Enclave.replies aes k world challenge).head?.bind responseParts with
  | some response => sendChallengeResponse response
  | none => return .exited

/-- The program of a phase. -/
def Phase.program (world : Enclave.World) : Phase → MailboxProgram Phase
  | .starting => resetFlags
  | .polling => sendChallengeToVsim
  | .answering challenge => answer aes k world challenge
  | .exited => return .exited

/-- The data of the enclave is read back as the response it computed. -/
theorem responseParts_responseBytes (response : Response) :
    responseParts (Enclave.responseBytes response) = some response := by
  obtain ⟨hres, hakXorSqn, hck, hik⟩ := Enclave.response_parts response
  simp only [responseParts, hres, hakXorSqn, hck, hik]
  rfl

/-- The host puts into the mailbox what the standard prescribes for the request it picked up. -/
theorem answer_eq (world : Enclave.World) (rand opc autn : Block) :
    answer aes k world (rand.toList ++ opc.toList ++ autn.toList) =
      sendChallengeResponse (respond (aes k) opc rand autn) := by
  have hreplies := Enclave.replies_challengeBytes aes k world rand opc autn
  rw [Enclave.challengeBytes] at hreplies
  rw [answer, hreplies, List.head?_cons, Option.bind_some, responseParts_responseBytes]

end Programs

end Disguise.Mailbox
