import Disguise.Authentication.UeRuns
import Disguise.Mailbox.Host

/-!
# A request through the mailbox

The whole way of a request that nobody disturbs: the UE writes RAND, OPc and AUTN into the mailbox,
the host packs them into 48 bytes, the enclave unpacks them, computes the response and packs it into
46 bytes, the host unpacks these into the mailbox, and the UE copies them. The host takes its turn
between two accesses of the UE, at any poll of the wait loop (`servedAt`).

`vsim_computes_standard` says that the UE is left with the values that the standard path computes
from the same inputs, whether the token is valid or not.
-/

set_option autoImplicit false
set_option relaxedAutoImplicit false

namespace Disguise.Mailbox

open Authentication Authentication.Ue Memory Milenage Process Process.Program

/-! ### The turn of the host -/

section Host

variable (aes : Block → Block → Block) (k : Block) (world : Enclave.World)

/-- The memory after a host that polls once and answers what it picked up. -/
def hostTurn (memory : SharedData) : SharedData :=
  let polled := run (alone fun _ ↦ true) (Phase.polling.program aes k world) 0 memory
  (run (alone fun _ ↦ true) (polled.result.program aes k world) 0 polled.memory).memory

/-- A request is in the mailbox and announced. -/
structure Posted (memory : SharedData) (rand opc autn : Block) : Prop where
  commandReady : memory .commandReady = true
  commandType : memory .commandType = .cmdAuthenticate
  randBytes : memory .randBytes = rand
  opcBytes : memory .opcBytes = opc
  autenbBytes : memory .autenbBytes = autn

/-- The memory after a UE has written a request. -/
def requested (memory : SharedData) (rand opc autn : Block) : SharedData :=
  let memory : SharedData := Function.update memory .randBytes rand
  let memory : SharedData := Function.update memory .opcBytes opc
  let memory : SharedData := Function.update memory .autenbBytes autn
  let memory : SharedData := Function.update memory .commandType .cmdAuthenticate
  Function.update memory .commandReady true

theorem posted_requested (memory : SharedData) (rand opc autn : Block) :
    Posted (requested memory rand opc autn) rand opc autn :=
  ⟨rfl, rfl, rfl, rfl, rfl⟩

/-- The response for a request is in the mailbox. -/
structure Holds (memory : SharedData) (response : Response) : Prop where
  res : memory .res = response.res
  akXorSqn : memory .akXorSqn = response.akXorSqn
  ck : memory .ck = response.ck
  ik : memory .ik = response.ik

/-- A round of the loop picks up a request that is announced. -/
theorem poll_posted {memory : SharedData} {rand opc autn : Block}
    (hposted : Posted memory rand opc autn) :
    (run (alone fun _ ↦ true) sendChallengeToVsim 0 memory).result =
      .answering (rand.toList ++ opc.toList ++ autn.toList) := by
  obtain ⟨hready, htype, rfl, rfl, rfl⟩ := hposted
  simp only [sendChallengeToVsim, bind_loadCell, run, alone, hready, if_true, Run.after]
  rw [htype]
  rfl

/-- The turn of the host ends with the answer to the request. -/
theorem hostTurn_eq {memory : SharedData} {rand opc autn : Block}
    (hposted : Posted memory rand opc autn) :
    hostTurn aes k world memory =
      (run (alone fun _ ↦ true) (sendChallengeResponse (respond (aes k) opc rand autn)) 0
        (run (alone fun _ ↦ true) sendChallengeToVsim 0 memory).memory).memory := by
  rw [← answer_eq aes k world]
  show (run _ (Phase.program aes k world (run _ sendChallengeToVsim 0 memory).result) 0 _).memory =
    _
  rw [poll_posted hposted]
  rfl

/-- The turn of the host leaves the response of the standard and the raised flag. -/
theorem hostTurn_posted {memory : SharedData} {rand opc autn : Block}
    (hposted : Posted memory rand opc autn) :
    Holds (hostTurn aes k world memory) (respond (aes k) opc rand autn) ∧
      hostTurn aes k world memory .authResponseReady = true := by
  rw [hostTurn_eq aes k world hposted]
  exact ⟨⟨rfl, rfl, rfl, rfl⟩, rfl⟩

end Host

/-! ### The call of the UE -/

section Ue

variable (aes : Block → Block → Block) (k : Block) (world : Enclave.World) {poll : ℕ}

/-- The surroundings of a UE whose only other process is a host that takes its turn at a poll of the
wait loop. The first five accesses of a call write the request. -/
def servedAt (poll : ℕ) : Surroundings Content where
  intervene := fun moment memory ↦
    if moment = 5 + poll then hostTurn aes k world memory else memory
  chooses := fun _ ↦ true

theorem servedAt_other {moment : ℕ} (hother : moment ≠ 5 + poll) (memory : SharedData) :
    (servedAt aes k world poll).intervene moment memory = memory :=
  if_neg hother

/-- The wait loop ends at the poll at which the host takes its turn. The induction is on the polls
before it. -/
theorem waitForResponse_served {memory : SharedData} {rand opc autn : Block}
    (hposted : Posted memory rand opc autn) (hflag : memory .authResponseReady = false)
    (hpoll : poll ≤ timeoutSeconds) :
    ∀ earlier round : ℕ, round + earlier = poll →
      let waited := run (servedAt aes k world poll) (waitForResponse (timeoutSeconds - round))
        (5 + round) memory
      waited.moment = 5 + poll + 1 ∧ waited.memory = hostTurn aes k world memory := by
  intro earlier
  induction earlier with
  | zero =>
    intro round hround
    obtain rfl : round = poll := hround
    have hraised := (hostTurn_posted aes k world hposted).2
    cases timeoutSeconds - round with
    | zero =>
      simp only [waitForResponse, bind_loadCell, run, servedAt, if_true, Run.after]
      exact ⟨rfl, rfl⟩
    | succ remaining =>
      simp only [waitForResponse, bind_loadCell, run, servedAt, hraised, if_true, Run.after]
      exact ⟨rfl, rfl⟩
  | succ earlier ih =>
    intro round hround
    have hrest := ih (round + 1) (by omega)
    obtain ⟨remaining, hremaining⟩ : ∃ remaining, timeoutSeconds - round = remaining + 1 :=
      ⟨timeoutSeconds - (round + 1), by omega⟩
    have hnext : timeoutSeconds - (round + 1) = remaining := by omega
    have hearly : ¬ 5 + round = 5 + poll := by omega
    rw [hnext] at hrest
    rw [hremaining]
    simp only [waitForResponse, bind_loadCell, run, servedAt, hearly, hflag, if_false,
      Bool.false_eq_true, Run.after]
    exact hrest

/-- The UE copies the response to its own request. -/
theorem exchange_served {memory : SharedData} (hflag : memory .authResponseReady = false)
    (hpoll : poll ≤ timeoutSeconds) (rand opc autn : Block) :
    (run (servedAt aes k world poll) (exchange rand opc autn) 0 memory).result =
      respond (aes k) opc rand autn := by
  have hposted := posted_requested memory rand opc autn
  obtain ⟨hmoment, hmemory⟩ :=
    waitForResponse_served aes k world hposted hflag hpoll poll 0 (Nat.zero_add poll)
  obtain ⟨hholds, -⟩ := hostTurn_posted aes k world hposted
  rw [← hmemory] at hholds
  simp (disch := omega) only [exchange, bind_storeCell, bind_loadCell, run, servedAt_other,
    Run.after]
  change (run _ (waitForResponse timeoutSeconds >>= _) 5 (requested memory rand opc autn)).result =
    _
  rw [run_bind]
  simp only [Nat.sub_zero, Nat.add_zero] at hmoment hmemory hholds
  simp (disch := omega) only [run, hmoment, servedAt_other, Run.after, hholds.res, hholds.akXorSqn,
    hholds.ck, hholds.ik]
  rfl

end Ue

/-! ### The two paths -/

/-- What an authentication function leaves in the UE: `res` and `ak_xor_sqn` behind its pointers,
and the members `ck` and `ik`. -/
def leaves (computed : AuthResult × Outputs × Usim) : Response where
  res := computed.2.1.res
  akXorSqn := computed.2.1.akXorSqn
  ck := computed.2.2.ck
  ik := computed.2.2.ik

/-- The standard path leaves the response of the standard, whatever the token is.

Assumes: the Milenage functions of srsRAN compute those of the standard. -/
theorem leaves_genAuthResMilenage {srsran : Srsran} {aes : Block → Block → Block}
    (hmilenage : ComputesMilenage srsran aes) (usim : Usim) (rand autnEnb : Block) :
    leaves (genAuthResMilenage srsran usim rand autnEnb) =
      respond (aes usim.k) usim.opc rand autnEnb := by
  simp only [leaves, genAuthResMilenage, checkToken, hmilenage.f2345_eq, xorOctets_cancel, respond,
    f2345]

/-- The path through the mailbox leaves what the standard path leaves, for every key, OPc, RAND and
AUTN, and whatever the mailbox held before. In particular the masked sequence number is the one in
the token.

Assumes: the Milenage functions of srsRAN compute those of the standard over the cipher of the
enclave, the UE and the enclave have the same key, the call is the first of its process, the mailbox
is mapped and holds no answer yet, and the host takes its turn before the timeout. -/
theorem vsim_computes_standard {srsran : Srsran} {aes : Block → Block → Block}
    (hmilenage : ComputesMilenage srsran aes) (usim : Usim) (outputs : Outputs)
    (rand autnEnb : Block) (world : Enclave.World) (memory : SharedData) (poll : ℕ)
    (hfirst : usim.fpgaInitialized = false) (hmapped : usim.sharedData = .mapped)
    (hflag : memory .authResponseReady = false) (hpoll : poll ≤ timeoutSeconds) :
    let vsim := run (servedAt aes usim.k world poll)
      (genAuthResMilenageVsim srsran usim outputs rand autnEnb) 0 memory
    leaves vsim.result = leaves (genAuthResMilenage srsran usim rand autnEnb) ∧
      vsim.result.2.1.akXorSqn = slice autnEnb 0 6 := by
  have hexchange := exchange_served aes usim.k world hflag hpoll rand usim.opc autnEnb
  rw [leaves_genAuthResMilenage hmilenage, genAuthResMilenageVsim, if_pos hfirst,
    if_neg (not_not.mpr hmapped), run_bind]
  refine ⟨?_, ?_⟩
  · exact hexchange
  · exact congrArg Response.akXorSqn hexchange

/-- A request of zeros, with the AES and the key of the enclave, answered at the third poll. -/
theorem vsim_computes_standard_zero :
    let usim := freshUsim Enclave.builtInKey
    let vsim := run (servedAt Aes.encrypt usim.k ⟨0, 0, List.Vector.replicate 92 0⟩ 2)
      (genAuthResMilenageVsim (enclaveSrsran Aes.encrypt) usim zeroCall.locals zeroBlock
        zeroBlock) 0 restingMailbox
    leaves vsim.result =
        leaves (genAuthResMilenage (enclaveSrsran Aes.encrypt) usim zeroBlock zeroBlock) ∧
      vsim.result.2.1.akXorSqn = slice zeroBlock 0 6 :=
  vsim_computes_standard (enclaveSrsran_computes Aes.encrypt) (freshUsim Enclave.builtInKey)
    zeroCall.locals zeroBlock zeroBlock ⟨0, 0, List.Vector.replicate 92 0⟩ restingMailbox 2 rfl rfl
    rfl (by decide)

end Disguise.Mailbox
