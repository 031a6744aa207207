import Disguise.Provisioning.HandlerSpec
import Disguise.Provisioning.TaggedSodium

/-!
# Frames of the secure channel

A frame is a boxed message, padded to a multiple of 32, with its nonce behind it. `channel_box` in
the enclave and the end of `handleConnection` in the provider build frames in the same way
(`boxedByEnclave_iff`, `boxedByProvider_iff`), and a buffer of the size their callers allocate is
filled exactly (`channelBox_fills_buffer`).

The decoders take a frame of any length apart, but each unpads a number of bytes of its own: the
provider 128 and the enclave 32, whatever the padded length was. So the provider gives back the
payloads of 96 to 127 bytes and the enclave those of up to 31 bytes, and no others
(`decodes_iff`).
-/

set_option autoImplicit false
set_option relaxedAutoImplicit false

namespace Disguise.Provisioning

open Memory Process Process.Proc

/-! ### The capacity of the buffer -/

/-- `BLOCK_UP(len)` for a `size_t`. -/
def sizeBlockUp (len : ℕ) : ℕ := (len + sizeSub msgBlocksize (len % msgBlocksize)) % 2 ^ 64

/-- `channel_box` of `len` bytes fills its buffer: the padding succeeds and has the length that
`BLOCK_UP` counts, and the whole buffer is overwritten, by the box and by a nonce that starts where
the box ends. -/
structure FillsBuffer (sodium : Sodium) (nonce msg : Bytes) (len : ℕ) (buffer key : Bytes) :
    Prop where
  size_eq : sizeBlockUp len = blockUp len
  lt_size : len < blockUp len
  dvd_size : msgBlocksize ∣ blockUp len
  size_le : blockUp len ≤ len + msgBlocksize
  padded : ∃ padded, sodium.pad (window msg 0 len) (blockUp len) = some padded ∧
    padded.length = blockUp len
  exits : Enclave.channelBox sodium nonce msg len buffer key =
    (Enclave.orExit (sodium.secretboxEasy (window msg 0 len ++ padding len) nonce key)
      "[C] Unable to encrypt message, exiting\n" >>= fun boxed ↦ done (boxed ++ nonce))
  box_length : ∀ boxed, sodium.secretboxEasy (window msg 0 len ++ padding len) nonce key =
    some boxed → boxed.length = secretboxMacBytes + blockUp len
  buffer_length : buffer.length = secretboxMacBytes + blockUp len + nonce.length

theorem sizeBlockUp_eq {len : ℕ} (hsize : blockUp len < 2 ^ 64) :
    sizeBlockUp len = blockUp len := by
  have hrest : len % msgBlocksize ≤ msgBlocksize := Nat.le_of_lt (Nat.mod_lt _ (by decide))
  rw [sizeBlockUp, sizeSub_eq hrest (by decide)]
  exact Nat.mod_eq_of_lt hsize

/-- `channel_box` fills a buffer of the size of the frame, for a message of any length.

Assumes: the message has `len` bytes, the nonce its 24, and the size of the frame is a `size_t`. -/
theorem channelBox_fills_buffer (sodium : Sodium) {nonce msg buffer : Bytes} {len : ℕ} (key : Bytes)
    (hnonce : nonce.length = secretboxNonceBytes) (hmsg : len ≤ msg.length)
    (hbuffer : buffer.length = frameSize len) (hsize : frameSize len < 2 ^ 64) :
    FillsBuffer sodium nonce msg len buffer key := by
  have hlength : (window msg 0 len).length = len := length_window (by omega)
  have hpadded := length_append_padding (window msg 0 len)
  have hpad := pad_blockUp sodium (window msg 0 len)
  rw [hlength] at hpadded hpad
  simp only [frameSize, secretboxMacBytes, secretboxNonceBytes] at hsize
  obtain ⟨hlt, hle⟩ := blockUp_bounds len
  refine ⟨sizeBlockUp_eq (by omega), hlt, dvd_blockUp len, hle, ⟨_, hpad, hpadded⟩, ?_, ?_, ?_⟩
  · exact Enclave.channelBox_eq sodium key hnonce hmsg hbuffer
  · intro boxed hboxed
    rw [sodium.secretboxEasy_length hboxed, hpadded, Nat.add_comm]
  · rw [hbuffer, hnonce, frameSize]

/-- A message of three whole blocks, the one the enclave boxes. -/
theorem channelBox_fills_buffer_report :
    FillsBuffer tagged (List.replicate 24 1) (List.replicate 96 7) 96 (List.replicate 168 0)
      (List.replicate 32 2) :=
  channelBox_fills_buffer tagged (List.replicate 32 2) List.length_replicate
    (Nat.le_of_eq List.length_replicate.symm) List.length_replicate (by decide)

/-! ### Encoded payloads -/

section Encoders

variable (sodium : Sodium) (payload nonce key : Bytes)

/-- A frame `channel_box` builds for a payload. -/
def BoxedByEnclave (frame : Bytes) : Prop :=
  ∃ buffer : Bytes, buffer.length = frameSize payload.length ∧
    Enclave.channelBox sodium nonce payload payload.length buffer key = done frame

/-- A frame the provider builds for a payload. -/
def BoxedByProvider (frame : Bytes) : Prop :=
  ∃ (server : Provider.TrustedServer) (buffer : Bytes), server.sessionTx = key ∧
    Provider.padAndBox sodium server payload nonce buffer = done frame

variable {sodium payload nonce key} {frame : Bytes}

theorem boxedByEnclave_iff (hnonce : nonce.length = secretboxNonceBytes) :
    BoxedByEnclave sodium payload nonce key frame ↔
      ∃ boxed, sodium.secretboxEasy (payload ++ padding payload.length) nonce key = some boxed ∧
        frame = boxed ++ nonce := by
  have hchannel : ∀ buffer : Bytes, buffer.length = frameSize payload.length →
      Enclave.channelBox sodium nonce payload payload.length buffer key =
        (Enclave.orExit (sodium.secretboxEasy (payload ++ padding payload.length) nonce key)
          "[C] Unable to encrypt message, exiting\n" >>= fun boxed ↦ done (boxed ++ nonce)) := by
    intro buffer hbuffer
    rw [Enclave.channelBox_eq sodium key hnonce (Nat.le_refl _) hbuffer, window_all rfl]
  cases hboxed : sodium.secretboxEasy (payload ++ padding payload.length) nonce key with
  | none =>
    refine iff_of_false ?_ ?_
    · rintro ⟨buffer, hbuffer, hframe⟩
      rw [hchannel buffer hbuffer, hboxed] at hframe
      cases hframe
    · rintro ⟨boxed, hsome, -⟩
      cases hsome
  | some boxed =>
    constructor
    · rintro ⟨buffer, hbuffer, hframe⟩
      rw [hchannel buffer hbuffer, hboxed] at hframe
      cases hframe
      exact ⟨boxed, rfl, rfl⟩
    · rintro ⟨_, hsome, rfl⟩
      refine ⟨List.replicate (frameSize payload.length) 0, List.length_replicate, ?_⟩
      rw [hchannel _ List.length_replicate, hboxed, ← Option.some.inj hsome]
      rfl

theorem boxedByProvider_iff (hnonce : nonce.length = secretboxNonceBytes) :
    BoxedByProvider sodium payload nonce key frame ↔
      ∃ boxed, sodium.secretboxEasy (payload ++ padding payload.length) nonce key = some boxed ∧
        frame = boxed ++ nonce := by
  cases hboxed : sodium.secretboxEasy (payload ++ padding payload.length) nonce key with
  | none =>
    refine iff_of_false ?_ ?_
    · rintro ⟨server, buffer, rfl, hframe⟩
      rw [Provider.padAndBox_eq sodium server buffer hnonce, hboxed] at hframe
      cases hframe
    · rintro ⟨boxed, hsome, -⟩
      cases hsome
  | some boxed =>
    constructor
    · rintro ⟨server, buffer, rfl, hframe⟩
      rw [Provider.padAndBox_eq sodium server buffer hnonce, hboxed] at hframe
      cases hframe
      exact ⟨boxed, rfl, rfl⟩
    · rintro ⟨_, hsome, rfl⟩
      refine ⟨⟨⟨List.replicate 32 0, [], rfl⟩, key, key, Provider.ack, rfl⟩, [], rfl, ?_⟩
      rw [Provider.padAndBox_eq sodium _ [] hnonce, hboxed, ← Option.some.inj hsome]
      rfl

end Encoders

/-! ### Decoded payloads -/

/-- What the documentation says about boxes and padding: opening undoes boxing, unpadding undoes
padding on the padded length, and takes at most a block away. -/
structure Sodium.BoxesAndPads (sodium : Sodium) : Prop where
  open_box : ∀ message nonce key, nonce.length = secretboxNonceBytes →
    key.length = kxSessionKeyBytes → ∃ boxed, sodium.secretboxEasy message nonce key = some boxed ∧
      sodium.secretboxOpenEasy boxed nonce key = some message
  unpad_pad : ∀ message, sodium.unpad (message ++ padding message.length) = some message.length
  unpad_block : ∀ padded unpadded, sodium.unpad padded = some unpadded →
    padded.length ≤ unpadded + msgBlocksize

section Decoders

variable (sodium : Sodium) (payload nonce key : Bytes)

/-- The provider decodes what the enclave boxes: the second message of a handler that has the key is
taken for the payload and its length, whatever was in the buffer before. -/
def ProviderDecodes : Prop :=
  ∀ frame, BoxedByEnclave sodium payload nonce key frame →
    ∀ (server : Provider.TrustedServer) (buffer : Bytes) (environment : Environment Bytes)
      (sends waits : ℕ), server.sessionRx = key → buffer.length = Provider.bufferSize →
        environment.delivers waits = frame → ∃ after,
          Completes environment (Provider.receiveAttestation sodium server buffer) sends waits
            (after, payload.length) ∧ window after 0 payload.length = payload

/-- The enclave decodes what the provider or an enclave boxes: `channel_unbox` of the frame leaves
the payload at the start of the block and writes its length, whatever follows the frame in the
block. -/
def EnclaveDecodes : Prop :=
  ∀ frame, BoxedByProvider sodium payload nonce key frame ∨
      BoxedByEnclave sodium payload nonce key frame →
    ∀ (rest : Bytes) (environment : Environment Bytes) (sends waits : ℕ), ∃ block,
      Completes environment (Enclave.channelUnbox sodium key (frame ++ rest) frame.length) sends
        waits (block, some payload.length) ∧ window block 0 payload.length = payload

variable {sodium payload nonce key} {boxed : Bytes}

/-- The frame is taken apart where it was put together. -/
theorem frame_parts (boxed : Bytes) (hnonce : nonce.length = secretboxNonceBytes) (rest : Bytes) :
    window (boxed ++ nonce ++ rest) 0 ((boxed ++ nonce).length - secretboxNonceBytes) = boxed ∧
      window (boxed ++ nonce ++ rest) ((boxed ++ nonce).length - secretboxNonceBytes)
        secretboxNonceBytes = nonce := by
  have hlength : (boxed ++ nonce).length - secretboxNonceBytes = boxed.length := by
    rw [List.length_append, hnonce, Nat.add_sub_cancel]
  rw [hlength, List.append_assoc]
  refine ⟨?_, ?_⟩
  · rw [window_append_left (by omega), window_all rfl]
  · rw [window_append_right (Nat.le_refl _), Nat.sub_self, window_append_left (by omega),
      window_all hnonce]

/-- A frame of a payload has the size of the payload's frame. -/
theorem length_frame (hnonce : nonce.length = secretboxNonceBytes)
    (hboxed : sodium.secretboxEasy (payload ++ padding payload.length) nonce key = some boxed) :
    (boxed ++ nonce).length = frameSize payload.length := by
  rw [List.length_append, sodium.secretboxEasy_length hboxed, length_append_padding, hnonce,
    frameSize, Nat.add_comm (blockUp payload.length)]

/-- The start of a padded payload unpads to the length of the payload exactly if it is all of it. -/
theorem unpad_take_iff (hsodium : sodium.BoxesAndPads) (payload : Bytes) {ptlen : ℕ}
    (hblock : msgBlocksize ∣ ptlen) (padded : Bytes) (hlength : padded.length = ptlen)
    (hpadded : blockUp payload.length = ptlen → padded = payload ++ padding payload.length) :
    sodium.unpad padded = some payload.length ↔ blockUp payload.length = ptlen := by
  obtain ⟨hlt, hle⟩ := blockUp_bounds payload.length
  have hdvd := dvd_blockUp payload.length
  constructor
  · intro hunpadded
    have hmost := hsodium.unpad_block _ _ hunpadded
    have hleast := sodium.unpad_lt hunpadded
    simp only [msgBlocksize] at hmost hle hdvd hblock
    omega
  · intro heq
    rw [hpadded heq]
    exact hsodium.unpad_pad payload

/-- The provider finds the length of the payload in a frame exactly if the padded payload has the
128 bytes it unpads. The payload itself is always there. -/
theorem receiveAttestation_decodes_iff (hsodium : sodium.BoxesAndPads)
    (hnonce : nonce.length = secretboxNonceBytes) (hfits : frameSize payload.length ≤ 1024)
    (hboxed : sodium.secretboxEasy (payload ++ padding payload.length) nonce key = some boxed)
    (hopen : sodium.secretboxOpenEasy boxed nonce key = some (payload ++ padding payload.length))
    {server : Provider.TrustedServer} {buffer : Bytes} {environment : Environment Bytes}
    {sends waits : ℕ} (hrx : server.sessionRx = key) (hbuffer : buffer.length = 1024)
    (hdelivers : environment.delivers waits = boxed ++ nonce) :
    (∃ after, Completes environment (Provider.receiveAttestation sodium server buffer) sends waits
        (after, payload.length) ∧ window after 0 payload.length = payload) ↔
      blockUp payload.length = 128 := by
  have hframe := length_frame hnonce hboxed
  have hpadded := length_append_padding payload
  obtain ⟨hhead, htail⟩ := frame_parts boxed hnonce []
  rw [List.append_nil] at hhead htail
  have hreceived : Provider.received (environment.delivers waits) = boxed ++ nonce := by
    rw [hdelivers, Provider.received_eq (by omega)]
  have hopened : Provider.openReport sodium server.sessionRx (environment.delivers waits) =
      some (payload ++ padding payload.length) := by
    rw [Provider.openReport, hreceived, hhead, htail, hrx, hopen]
  have hsize : 24 + (payload ++ padding payload.length).length ≤ (boxed ++ nonce).length := by
    rw [hframe, hpadded, frameSize]
    simp only [secretboxMacBytes, secretboxNonceBytes]
    omega
  have hattested : (overwrite buffer 0 (boxed ++ nonce)).length = 1024 := by
    rw [length_overwrite (by omega), hbuffer]
  have hafter : (Provider.attestedBuffer buffer (boxed ++ nonce)
      (payload ++ padding payload.length)).length = 1024 := by
    rw [Provider.attestedBuffer, length_overwrite (by omega), hattested]
  have hunpad := unpad_take_iff hsodium payload (by decide : msgBlocksize ∣ 128)
    (window (Provider.attestedBuffer buffer (boxed ++ nonce) (payload ++ padding payload.length))
      0 128) (length_window (by omega)) fun hblock ↦ by
    rw [Provider.attestedBuffer, window_overwrite_zero (by omega), window_all (by omega)]
  rw [← hunpad]
  constructor
  · rintro ⟨after, hcompletes, -⟩
    obtain ⟨plaintext, unpaddedLen, haccepted, hresult⟩ :=
      (Provider.completes_receiveAttestation environment sodium server sends waits hbuffer _).mp
        hcompletes
    obtain rfl := Option.some.inj (haccepted.opened.symm.trans hopened)
    have hunpadded := haccepted.unpadded
    rw [hreceived] at hunpadded
    rw [hunpadded, (Prod.mk.inj hresult).2]
  · intro hunpadded
    refine ⟨_, (Provider.completes_receiveAttestation environment sodium server sends waits hbuffer
      _).mpr ⟨_, payload.length, ⟨?_, hopened, ?_⟩, rfl⟩, ?_⟩
    · rw [hreceived]
      omega
    · rw [hreceived]
      exact hunpadded
    · rw [Provider.attestedBuffer, window_overwrite_zero (by rw [List.length_append]; omega),
        window_append_left (by omega), window_all rfl]

/-- The enclave finds the length of the payload in a frame exactly if the padded payload has the 32
bytes it unpads. The payload itself is always there. -/
theorem channelUnbox_decodes_iff (hsodium : sodium.BoxesAndPads)
    (hnonce : nonce.length = secretboxNonceBytes) (hfits : frameSize payload.length ≤ 1024)
    (hboxed : sodium.secretboxEasy (payload ++ padding payload.length) nonce key = some boxed)
    (hopen : sodium.secretboxOpenEasy boxed nonce key = some (payload ++ padding payload.length))
    (rest : Bytes) (environment : Environment Bytes) (sends waits : ℕ) :
    (∃ block, Completes environment
        (Enclave.channelUnbox sodium key (boxed ++ nonce ++ rest) (boxed ++ nonce).length) sends
        waits (block, some payload.length) ∧ window block 0 payload.length = payload) ↔
      blockUp payload.length = 32 := by
  have hframe := length_frame hnonce hboxed
  have hpadded := length_append_padding payload
  have hleast := (blockUp_bounds payload.length).1
  have hdvd := dvd_blockUp payload.length
  simp only [frameSize, msgBlocksize, secretboxMacBytes, secretboxNonceBytes] at hframe hfits hdvd
  obtain ⟨hhead, htail⟩ := frame_parts boxed hnonce rest
  have hlong : 72 ≤ (boxed ++ nonce).length := by omega
  have hblock : (boxed ++ nonce).length ≤ (boxed ++ nonce ++ rest).length := by
    simp only [List.length_append]
    omega
  have hresult : Enclave.unboxResult sodium key (boxed ++ nonce ++ rest) (boxed ++ nonce).length =
      (overwrite (boxed ++ nonce ++ rest) 0 (payload ++ padding payload.length),
        sodium.unpad (window (payload ++ padding payload.length) 0 32)) := by
    rw [Enclave.unboxResult, hhead, htail, hopen]
    dsimp only
    rw [window_overwrite_zero (by omega)]
  have hunpad := unpad_take_iff hsodium payload (by decide : msgBlocksize ∣ 32)
    (window (payload ++ padding payload.length) 0 32) (length_window (by omega)) fun hone ↦
      window_all (by omega)
  have hcompletes : ∀ block, Completes environment (Enclave.channelUnbox sodium key
      (boxed ++ nonce ++ rest) (boxed ++ nonce).length) sends waits (block, some payload.length) ↔
      Enclave.unboxResult sodium key (boxed ++ nonce ++ rest) (boxed ++ nonce).length =
        (block, some payload.length) := by
    intro block
    have hdone := Enclave.completes_channelUnbox environment sends waits
      (block, some payload.length) sodium key (boxed ++ nonce ++ rest) hlong hblock (by omega) done
    rwa [completes_done, bind_done_right] at hdone
  rw [← hunpad]
  constructor
  · rintro ⟨block, hblock, -⟩
    rw [hcompletes, hresult] at hblock
    exact (Prod.mk.inj hblock).2
  · intro hunpadded
    refine ⟨_, (hcompletes _).mpr (hresult.trans (by rw [hunpadded])), ?_⟩
    rw [window_overwrite_zero (by rw [List.length_append]; omega), window_append_left (by omega),
      window_all rfl]

theorem providerDecodes_iff (hsodium : sodium.BoxesAndPads)
    (hnonce : nonce.length = secretboxNonceBytes) (hkey : key.length = kxSessionKeyBytes)
    (hfits : frameSize payload.length ≤ 1024) :
    ProviderDecodes sodium payload nonce key ↔ blockUp payload.length = 128 := by
  obtain ⟨boxed, hboxed, hopen⟩ :=
    hsodium.open_box (payload ++ padding payload.length) nonce key hnonce hkey
  constructor
  · intro hdecodes
    have hframe := (boxedByEnclave_iff hnonce).mpr ⟨boxed, hboxed, rfl⟩
    exact (receiveAttestation_decodes_iff hsodium hnonce hfits hboxed hopen rfl
      List.length_replicate rfl).mp (hdecodes _ hframe
        ⟨⟨List.replicate 32 0, [], rfl⟩, key, key, Provider.ack, rfl⟩ (List.replicate 1024 0)
        ⟨fun _ ↦ true, fun _ ↦ boxed ++ nonce⟩ 0 0 rfl List.length_replicate rfl)
  · intro hblock frame hframe server buffer environment sends waits hrx hbuffer hdelivers
    obtain ⟨found, hfound, rfl⟩ := (boxedByEnclave_iff hnonce).mp hframe
    obtain rfl := Option.some.inj (hboxed.symm.trans hfound)
    exact (receiveAttestation_decodes_iff hsodium hnonce hfits hboxed hopen hrx hbuffer
      hdelivers).mpr hblock

theorem enclaveDecodes_iff (hsodium : sodium.BoxesAndPads)
    (hnonce : nonce.length = secretboxNonceBytes) (hkey : key.length = kxSessionKeyBytes)
    (hfits : frameSize payload.length ≤ 1024) :
    EnclaveDecodes sodium payload nonce key ↔ blockUp payload.length = 32 := by
  obtain ⟨boxed, hboxed, hopen⟩ :=
    hsodium.open_box (payload ++ padding payload.length) nonce key hnonce hkey
  constructor
  · intro hdecodes
    have hframe := (boxedByProvider_iff hnonce).mpr ⟨boxed, hboxed, rfl⟩
    exact (channelUnbox_decodes_iff hsodium hnonce hfits hboxed hopen [] _ 0 0).mp
      (hdecodes _ (Or.inl hframe) [] ⟨fun _ ↦ true, fun _ ↦ []⟩ 0 0)
  · intro hblock frame hframe rest environment sends waits
    rw [boxedByProvider_iff hnonce, boxedByEnclave_iff hnonce, or_self] at hframe
    obtain ⟨found, hfound, rfl⟩ := hframe
    obtain rfl := Option.some.inj (hboxed.symm.trans hfound)
    exact (channelUnbox_decodes_iff hsodium hnonce hfits hboxed hopen rest environment sends
      waits).mpr hblock

/-- The provider gives back exactly the payloads whose padded length is 128, and the enclave those
whose padded length is 32, for every key, nonce, and payload whose frame fits the receive buffer.

Assumes: boxes and padding behave as documented, the nonce and the key have their sizes, and the
frame fits. -/
theorem decodes_iff (hsodium : sodium.BoxesAndPads) (hnonce : nonce.length = secretboxNonceBytes)
    (hkey : key.length = kxSessionKeyBytes)
    (hfits : frameSize payload.length ≤ Provider.bufferSize) :
    (ProviderDecodes sodium payload nonce key ↔ 96 ≤ payload.length ∧ payload.length < 128) ∧
      (EnclaveDecodes sodium payload nonce key ↔ payload.length < 32) := by
  rw [providerDecodes_iff hsodium hnonce hkey hfits, enclaveDecodes_iff hsodium hnonce hkey hfits]
  rw [blockUp]
  simp only [msgBlocksize]
  omega

end Decoders

/-! ### Payloads of other lengths -/

theorem tagged_boxesAndPads : tagged.BoxesAndPads where
  open_box message nonce key _ _ := ⟨boxTag nonce key ++ message, rfl,
    openTagged_append [] (boxTag nonce key) message⟩
  unpad_pad := unpadLength_padding
  unpad_block padded unpadded hunpad := by
    have hunpad : unpadLength padded = some unpadded := hunpad
    unfold unpadLength at hunpad
    dsimp only at hunpad
    split_ifs at hunpad with hvalid
    rw [← Option.some.inj hunpad]
    omega

/-- A payload of 96 bytes: the provider gives it back, and the enclave does not. -/
theorem decodes_iff_report :
    (ProviderDecodes tagged (List.replicate 96 7) (List.replicate 24 1) (List.replicate 32 2) ↔
        96 ≤ (List.replicate 96 (7 : UInt8)).length ∧
          (List.replicate 96 (7 : UInt8)).length < 128) ∧
      (EnclaveDecodes tagged (List.replicate 96 7) (List.replicate 24 1) (List.replicate 32 2) ↔
        (List.replicate 96 (7 : UInt8)).length < 32) :=
  decodes_iff tagged_boxesAndPads List.length_replicate List.length_replicate (by decide)

/-- A payload of 40 bytes is decoded in neither direction: it pads to 64 bytes. -/
theorem forty_bytes_not_decoded :
    ¬ ProviderDecodes tagged (List.replicate 40 7) (List.replicate 24 1) (List.replicate 32 2) ∧
      ¬ EnclaveDecodes tagged (List.replicate 40 7) (List.replicate 24 1)
        (List.replicate 32 2) := by
  rw [providerDecodes_iff tagged_boxesAndPads List.length_replicate List.length_replicate
      (by decide),
    enclaveDecodes_iff tagged_boxesAndPads List.length_replicate List.length_replicate (by decide)]
  decide

end Disguise.Provisioning
