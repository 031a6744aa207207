import Disguise.Enclaves.MessageBounds

/-!
# What the enclave takes for an acknowledgement

The last step of `establish_secure_channel` unboxes 72 bytes of the block the second message was
copied to and compares the first 8 bytes of the block with `Ack`. `channel_unbox` cannot report a
failure: when the box does not open it leaves the block as it was, and when the padding is invalid
it leaves the unpadded plaintext. The comparison then runs on these bytes (`ackHead_eq_iff`).

The second message is an acknowledgement if it opens itself, with its own last 24 bytes as nonce
(`AckAuthentic`). It is what the enclave opens only if it has 72 bytes; a shorter one is completed
by what is left of the first message, of a longer one the end is ignored. `NotMistaken` is the
condition on a second message of either kind.

A second message that is longer than the block of the first is copied past its end and the enclave
goes on. The model stops there, so nothing it says of a returning run covers this one.
`FinishesOnlyAcknowledged` therefore demands that the run stays in bounds, and
`finishes_only_acknowledged_iff` gives the exact condition for both together: the messages fit, and
the second one is not mistaken.
-/

set_option autoImplicit false
set_option relaxedAutoImplicit false

namespace Disguise.Provisioning.Enclave

open Memory Process Process.Proc Enclaves

/-! ### Genuine acknowledgements -/

/-- Opens a message of any length, whose nonce is at its end. -/
def openMessage (sodium : Sodium) (rx message : Bytes) : Option Bytes :=
  if secretboxNonceBytes ≤ message.length then
    sodium.secretboxOpenEasy (window message 0 (message.length - secretboxNonceBytes))
      (window message (message.length - secretboxNonceBytes) secretboxNonceBytes) rx
  else none

/-- A message authenticates and decrypts under a key, unpads, and its plaintext starts with
`Ack`. -/
def AckAuthentic (sodium : Sodium) (rx message : Bytes) : Prop :=
  ∃ plaintext unpadded, openMessage sodium rx message = some plaintext ∧
    sodium.unpad plaintext = some unpadded ∧ plaintext.take 8 = ack

/-- The enclave finishes only on a genuine acknowledgement: no access of the run falls outside its
block, and when `establish_secure_channel` returns, the second message is authentic under the
session key `rx`. -/
def FinishesOnlyAcknowledged (sodium : Sodium) (world : EnclaveWorld)
    (environment : Environment Bytes) : Prop :=
  StaysInBounds environment 0 0 (establishSecureChannel sodium world) ∧
    ∀ result, Completes environment (establishSecureChannel sodium world) 0 0 result →
      AckAuthentic sodium result.keys.rx (environment.delivers 1)

/-! ### What the enclave compares -/

/-- The frame `channel_unbox` works on: the first 72 bytes of the block. -/
def ackFrame (response ackMessage : Bytes) : Bytes := window (ackBlock response ackMessage) 0 72

/-- The first 8 bytes `channel_unbox` leaves of a frame, those of the plaintext if it opens and
those of the frame if it does not, are the bytes of `Ack`. -/
def ShowsAck (sodium : Sodium) (rx frame : Bytes) : Prop :=
  match openMessage sodium rx frame with
  | none => frame.take 8 = ack
  | some plaintext => plaintext.take 8 = ack

/-- A frame that does not open does not start with the bytes of `Ack`, and neither does the
plaintext of one that opens and does not unpad. -/
def FailureNotMistaken (sodium : Sodium) (rx frame : Bytes) : Prop :=
  match openMessage sodium rx frame with
  | none => frame.take 8 ≠ ack
  | some plaintext => sodium.unpad plaintext = none → plaintext.take 8 ≠ ack

/-- The second message is not mistaken for an acknowledgement. One of 72 bytes is the frame itself.
With any other length the frame is made of both messages, or of a part of the second: it does not
show `Ack`, or the second message happens to be authentic as well. -/
def NotMistaken (sodium : Sodium) (rx response ackMessage : Bytes) : Prop :=
  if ackMessage.length = 72 then FailureNotMistaken sodium rx ackMessage
  else ¬ ShowsAck sodium rx (ackFrame response ackMessage) ∨ AckAuthentic sodium rx ackMessage

/-- If the enclave accepts the first message and boxes its report, then it does not mistake the
second one. -/
def AckNotMistaken (sodium : Sodium) (world : EnclaveWorld) (environment : Environment Bytes) :
    Prop :=
  ∀ server message, ResponseAccepted sodium world (environment.delivers 0) server message →
    ∀ boxed, sodium.secretboxEasy (world.report ++ padding 96) world.boxNonce
        (sessionKeys sodium server (window message 153 32)).tx = some boxed →
      NotMistaken sodium (sessionKeys sodium server (window message 153 32)).rx
        (environment.delivers 0) (environment.delivers 1)

/-- A message of 72 bytes is opened like the frame of `channel_unbox`. -/
theorem openMessage_frame (sodium : Sodium) (rx : Bytes) {frame : Bytes}
    (hlength : frame.length = 72) : openMessage sodium rx frame =
      sodium.secretboxOpenEasy (window frame 0 48) (window frame 48 24) rx := by
  unfold openMessage
  rw [hlength]
  rfl

/-- A second message of 72 bytes is the frame `channel_unbox` works on. -/
theorem ackFrame_of_length (response : Bytes) {ackMessage : Bytes}
    (hlength : ackMessage.length = 72) : ackFrame response ackMessage = ackMessage := by
  rw [ackFrame, ackBlock, window_overwrite_zero (by omega), window_all hlength]

/-- The bytes compared with `Ack` are the head of the plaintext, or of the frame when it does not
open. -/
theorem ackHead_eq_iff (sodium : Sodium) (rx : Bytes) {block : Bytes} (hblock : 72 ≤ block.length) :
    window (unboxResult sodium rx block 72).1 0 8 = ack ↔
      ShowsAck sodium rx (window block 0 72) := by
  have hboxed : window (window block 0 72) 0 48 = window block 0 48 := window_window (by omega)
  have hnonce : window (window block 0 72) 48 24 = window block 48 24 := window_window (by omega)
  rw [ShowsAck, openMessage_frame sodium rx (length_window (by omega)), hboxed, hnonce,
    unboxResult]
  simp only [secretboxNonceBytes, Nat.reduceSub]
  cases hopen : sodium.secretboxOpenEasy (window block 0 48) (window block 48 24) rx with
  | none =>
    have htake : window (window block 0 72) 0 8 = window block 0 8 := window_window (by omega)
    rw [← window_zero (window block 0 72) 8, htake]
  | some plaintext =>
    have hlength := sodium.secretboxOpenEasy_length hopen
    rw [length_window (by omega)] at hlength
    simp only [secretboxMacBytes] at hlength
    rw [window_overwrite_zero (by omega), window_zero]

/-! ### The exact condition -/

/-- A message that shows `Ack` when it is opened as a frame is authentic exactly if no failure is
mistaken. -/
theorem authentic_of_showsAck_iff (sodium : Sodium) (rx message : Bytes) :
    (ShowsAck sodium rx message → AckAuthentic sodium rx message) ↔
      FailureNotMistaken sodium rx message := by
  unfold ShowsAck AckAuthentic FailureNotMistaken
  cases hopen : openMessage sodium rx message with
  | none =>
    constructor
    · intro hauthentic hhead
      obtain ⟨_, _, hsome, -⟩ := hauthentic hhead
      exact Option.some_ne_none _ hsome.symm
    · intro hmistaken hhead
      exact absurd hhead hmistaken
  | some plaintext =>
    constructor
    · intro hauthentic hnone hhead
      obtain ⟨_, unpadded, hsome, hunpad, -⟩ := hauthentic hhead
      rw [← Option.some.inj hsome, hnone] at hunpad
      exact Option.some_ne_none unpadded hunpad.symm
    · intro hunpads hhead
      obtain ⟨unpadded, hunpad⟩ := Option.ne_none_iff_exists'.mp fun hnone ↦ hunpads hnone hhead
      exact ⟨plaintext, unpadded, rfl, hunpad, hhead⟩

/-- What passes the comparison is authentic exactly if the second message is not mistaken.

Assumes: the second message fits into the block of the first, which holds a frame. -/
theorem accepts_authentic_iff (sodium : Sodium) (rx : Bytes) {response ackMessage : Bytes}
    (hresponse : 72 ≤ response.length) (hfits : ackMessage.length ≤ response.length) :
    (window (unboxResult sodium rx (ackBlock response ackMessage) 72).1 0 8 = ack →
        AckAuthentic sodium rx ackMessage) ↔
      NotMistaken sodium rx response ackMessage := by
  have hblock : (ackBlock response ackMessage).length = response.length :=
    length_overwrite (by omega)
  rw [ackHead_eq_iff sodium rx (by omega)]
  show (ShowsAck sodium rx (ackFrame response ackMessage) → _) ↔ _
  unfold NotMistaken
  by_cases hlength : ackMessage.length = 72
  · rw [if_pos hlength, ackFrame_of_length response hlength, authentic_of_showsAck_iff]
  · rw [if_neg hlength, imp_iff_not_or]

/-- The run of the enclave stays in bounds and takes nothing but a genuine acknowledgement for one
exactly if the messages fit and the second one is not mistaken. -/
theorem finishes_only_acknowledged_iff (sodium : Sodium) (world : EnclaveWorld)
    (environment : Environment Bytes) :
    FinishesOnlyAcknowledged sodium world environment ↔
      MessagesFit sodium world environment ∧ AckNotMistaken sodium world environment := by
  unfold FinishesOnlyAcknowledged
  rw [staysInBounds_establishSecureChannel]
  refine and_congr_right fun hfit ↦ ?_
  constructor
  · intro hfinishes server message haccepted boxed hboxed
    have hlength := haccepted.response_length
    have hfits := hfit.second server message haccepted boxed hboxed
    apply (accepts_authentic_iff sodium _ (by omega) hfits).mp
    intro hhead
    exact hfinishes _ ((completes_establishSecureChannel environment sodium world _).mpr
      ⟨server, message, haccepted, ⟨⟨boxed, hboxed⟩, hfits, hhead⟩, rfl⟩)
  · intro hcondition result hcompletes
    obtain ⟨server, message, haccepted, hack, hresult⟩ :=
      (completes_establishSecureChannel environment sodium world result).mp hcompletes
    have hlength := haccepted.response_length
    obtain ⟨boxed, hboxed⟩ := hack.reportBoxed
    rw [← hresult]
    exact (accepts_authentic_iff sodium _ (by omega) hack.fits).mpr
      (hcondition server message haccepted boxed hboxed) hack.head_eq

/-- A host that seals a response of its own, which needs only the public key of the device, and then
answers the report with the bytes of `Ack` and zeros. -/
def forgingHost : Environment Bytes where
  accepts _ := true
  delivers
    | 0 => resize 0 32 [] ++ resize 0 16 devPublicKey ++
        (taggedWorld.nonce ++ providerHash ++ List.replicate 32 3)
    | _ => ack ++ List.replicate 64 0

/-- The run with this host stays in bounds, and the enclave finishes, although the host does not
know the session key: its second message does not open, stays in the block, and starts with the
bytes of `Ack`. -/
theorem forged_ack_accepted :
    StaysInBounds forgingHost 0 0 (establishSecureChannel tagged taggedWorld) ∧
      ¬ FinishesOnlyAcknowledged tagged taggedWorld forgingHost := by
  have hkey : (List.replicate 32 3 : Bytes).length = kxPublicKeyBytes := List.length_replicate
  have haccepted := sealed_response_accepted hkey
  constructor
  · rw [staysInBounds_establishSecureChannel]
    exact ⟨fun _ _ ↦ haccepted.response_length, fun _ _ _ _ _ ↦ by decide +kernel⟩
  · rintro ⟨-, hfinishes⟩
    have hcompletes := (completes_establishSecureChannel forgingHost tagged taggedWorld _).mpr
      ⟨_, _, haccepted, ⟨⟨_, rfl⟩, by decide +kernel, by decide +kernel⟩, rfl⟩
    obtain ⟨plaintext, unpadded, hopen, -⟩ := hfinishes _ hcompletes
    have hrefused : openMessage tagged (sessionKeys tagged
        taggedClient (window (taggedWorld.nonce ++ providerHash ++
          List.replicate 32 3) 153 32)).rx (forgingHost.delivers 1) = none := by decide +kernel
    exact Option.some_ne_none plaintext (hopen.symm.trans hrefused)

end Disguise.Provisioning.Enclave
