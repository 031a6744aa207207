import Disguise.Provisioning.Enclave
import Disguise.Provisioning.Provider

/-!
# An instance of the libsodium interface

`tagged` is an executable instance of `Sodium` with the layout of the real functions and trivial
cryptography: a secret box is a 16-byte tag that depends on the key and the nonce, followed by the
message; a sealed box is a 32-byte seed, a 16-byte tag of the public key, and the message; the
session keys are the two public keys. The key exchange fails on the zero key, as the real one does
on a point of low order. Padding and unpadding are those of `sodium_pad` and `sodium_unpad`.

`tagged_roundTrips` shows that the assumptions collected in `Sodium.RoundTrips` can be met together.
Concrete runs of the two programs are evaluated with this instance, with `taggedWorld` for what the
enclave draws, and with `taggedServer` and `taggedDraws` for the provider. The hosts that attack the
enclave seal the first message themselves; `sealed_response_accepted` says that it is accepted.
-/

set_option autoImplicit false
set_option relaxedAutoImplicit false

namespace Disguise.Provisioning

open Memory

/-- The tag of a secret box. -/
def boxTag (nonce key : Bytes) : Bytes :=
  resize 0 secretboxMacBytes (List.zipWith (fun left right ↦ left ^^^ right) key nonce)

/-- The session keys of either role: the public key of the peer for receiving, the own one for
sending. -/
def taggedSessionKeys (ownPublic peerPublic : Bytes) : Option (Bytes × Bytes) :=
  if ownPublic.length = kxPublicKeyBytes ∧ peerPublic.length = kxPublicKeyBytes ∧
      peerPublic ≠ List.replicate kxPublicKeyBytes 0 then
    some (peerPublic, ownPublic)
  else none

/-- Splits a tag off some data and compares it. -/
def openTagged (data : Bytes) (skipped : ℕ) (tag : Bytes) : Option Bytes :=
  if skipped + tag.length ≤ data.length ∧ window data skipped tag.length = tag then
    some (data.drop (skipped + tag.length))
  else none

/-- `sodium_unpad` for blocks of 32: at most 31 zeros at the end, and the byte `0x80` before
them. -/
def unpadLength (padded : Bytes) : Option ℕ :=
  let zeros := (padded.reverse.takeWhile fun byte ↦ byte = 0).length
  if msgBlocksize ≤ padded.length ∧ zeros < msgBlocksize ∧ padded.reverse[zeros]? = some 0x80 then
    some (padded.length - 1 - zeros)
  else none

/-- `sodium_pad` for blocks of 32. -/
def padBytes (unpadded : Bytes) (maxLength : ℕ) : Option Bytes :=
  if unpadded.length + (msgBlocksize - 1 - unpadded.length % msgBlocksize) < maxLength then
    some (unpadded ++ padding unpadded.length)
  else none

/-- Opened data has lost its tag and what was before it. -/
theorem openTagged_length {data tag message : Bytes} {skipped : ℕ}
    (hopen : openTagged data skipped tag = some message) :
    data.length = message.length + (skipped + tag.length) := by
  unfold openTagged at hopen
  split_ifs at hopen with htag
  rw [← Option.some.inj hopen, List.length_drop]
  omega

/-- Data behind the right tag is found. -/
theorem openTagged_append (head tag message : Bytes) :
    openTagged (head ++ tag ++ message) head.length tag = some message := by
  have hlength : head.length + tag.length = (head ++ tag).length := List.length_append.symm
  have htag : window (head ++ tag ++ message) head.length tag.length = tag := by
    rw [window_append_left (by omega), window_append_right (Nat.le_refl _), Nat.sub_self,
      window_all rfl]
  rw [openTagged, if_pos ⟨by rw [List.length_append]; omega, htag⟩, hlength, List.drop_left]

/-- Unpadding undoes padding. -/
theorem unpadLength_padding (unpadded : Bytes) :
    unpadLength (unpadded ++ padding unpadded.length) = some unpadded.length := by
  have hmod : unpadded.length % 32 < 32 := Nat.mod_lt _ (by decide)
  have hreverse : (unpadded ++ padding unpadded.length).reverse =
      List.replicate (31 - unpadded.length % 32) 0 ++ (0x80 :: unpadded.reverse) := by
    rw [padding, List.reverse_append, List.reverse_cons, List.reverse_replicate, List.append_assoc]
    rfl
  have hzeros : ((List.replicate (31 - unpadded.length % 32) (0 : UInt8) ++
      (0x80 :: unpadded.reverse)).takeWhile fun byte ↦ byte = 0).length =
        31 - unpadded.length % 32 := by
    rw [List.takeWhile_append_of_pos (by simp)]
    simp
  have hlength : (unpadded ++ padding unpadded.length).length =
      unpadded.length + 1 + (31 - unpadded.length % 32) := by
    rw [List.length_append, padding, List.length_cons, List.length_replicate]
    simp only [msgBlocksize]
    omega
  unfold unpadLength
  rw [hreverse, hlength, hzeros]
  simp only [msgBlocksize]
  rw [if_pos]
  · congr 1
    omega
  · refine ⟨by omega, by omega, ?_⟩
    rw [List.getElem?_append_right (by simp)]
    simp

/-- The instance. -/
def tagged : Sodium where
  kxClientSessionKeys clientPublic _ serverPublic := taggedSessionKeys clientPublic serverPublic
  kxServerSessionKeys serverPublic _ clientPublic := taggedSessionKeys serverPublic clientPublic
  boxSeal seed message publicKey := some (resize 0 32 seed ++ resize 0 16 publicKey ++ message)
  boxSealOpen sealed publicKey _ := openTagged sealed 32 (resize 0 16 publicKey)
  secretboxEasy message nonce key := some (boxTag nonce key ++ message)
  secretboxOpenEasy boxed nonce key := openTagged boxed 0 (boxTag nonce key)
  pad := padBytes
  unpad := unpadLength
  kxClientSessionKeys_length := by
    intro clientPublic clientSecret serverPublic keys hkeys
    unfold taggedSessionKeys at hkeys
    split_ifs at hkeys with hlengths
    rw [← Option.some.inj hkeys]
    exact ⟨hlengths.2.1, hlengths.1⟩
  kxServerSessionKeys_length := by
    intro serverPublic serverSecret clientPublic keys hkeys
    unfold taggedSessionKeys at hkeys
    split_ifs at hkeys with hlengths
    rw [← Option.some.inj hkeys]
    exact ⟨hlengths.2.1, hlengths.1⟩
  boxSeal_length := by
    intro seed message publicKey sealed hsealed
    rw [← Option.some.inj hsealed, List.length_append, List.length_append, length_resize,
      length_resize, Nat.add_comm]
  boxSealOpen_length := by
    intro sealed publicKey secretKey message hopen
    have hlength := openTagged_length hopen
    rwa [length_resize] at hlength
  secretboxEasy_length := by
    intro message nonce key boxed hboxed
    rw [← Option.some.inj hboxed, List.length_append, boxTag, length_resize, Nat.add_comm]
  secretboxOpenEasy_length := by
    intro boxed nonce key message hopen
    have hlength := openTagged_length hopen
    rwa [boxTag, length_resize, Nat.zero_add] at hlength
  pad_eq := fun _ _ ↦ rfl
  unpad_lt := by
    intro padded unpadded hunpad
    unfold unpadLength at hunpad
    dsimp only at hunpad
    split_ifs at hunpad with hvalid
    rw [← Option.some.inj hunpad]
    have hblock := hvalid.1
    simp only [msgBlocksize] at hblock
    omega

/-- The key pairs the instance derives session keys from: 32 bytes, and not the zero key. -/
def TaggedKeypair (publicKey _secretKey : Bytes) : Prop :=
  publicKey.length = kxPublicKeyBytes ∧ publicKey ≠ List.replicate kxPublicKeyBytes 0

instance (publicKey secretKey : Bytes) : Decidable (TaggedKeypair publicKey secretKey) :=
  inferInstanceAs (Decidable (_ ∧ _))

/-- The instance does what the documentation says about pairs of calls, for every device key. -/
theorem tagged_roundTrips (devicePublic deviceSecret : Bytes) :
    tagged.RoundTrips devicePublic deviceSecret TaggedKeypair where
  boxSealOpen_boxSeal seed message := by
    refine ⟨resize 0 32 seed ++ resize 0 16 devicePublic ++ message, rfl, ?_⟩
    have hopen := openTagged_append (resize 0 32 seed) (resize 0 16 devicePublic) message
    rwa [length_resize] at hopen
  secretboxOpenEasy_secretboxEasy message nonce key _ _ :=
    ⟨boxTag nonce key ++ message, rfl,
      openTagged_append [] (boxTag nonce key) message⟩
  unpad_pad := by
    intro unpadded maxLength padded hpad
    change padBytes unpadded maxLength = some padded at hpad
    unfold padBytes at hpad
    split_ifs at hpad with hroom
    rw [← Option.some.inj hpad]
    exact unpadLength_padding unpadded
  kxSessionKeys := by
    intro clientPublic clientSecret serverPublic serverSecret hclient hserver
    refine ⟨serverPublic, clientPublic, ?_, ?_⟩
    · exact if_pos ⟨hclient.1, hserver.1, hserver.2⟩
    · exact if_pos ⟨hserver.1, hclient.1, hclient.2⟩

/-- The key pair of an enclave. -/
def taggedClient : KeyPair := ⟨List.replicate 32 5, List.replicate 32 6, rfl⟩

/-- The draws of an enclave: constant keys and nonces, and a report of a constant measurement, the
length of the data and the data. -/
def taggedWorld : Enclave.EnclaveWorld where
  sodiumReady := true
  kxKeypair := some taggedClient
  signReady := true
  nonce := List.replicate 24 7
  sealSeed := List.replicate 32 8
  boxNonce := List.replicate 24 9
  attest data := resize 0 2048 (List.replicate 64 0xab ++ [24, 0, 0, 0, 0, 0, 0, 0] ++ data)
  fresh size := List.replicate size 0
  nonce_length := rfl
  boxNonce_length := rfl
  attest_length _ := length_resize _ _ _
  fresh_length _ := List.length_replicate

/-- A response that anyone seals, with the nonce of the run, the expected quote and any public key,
is accepted: only the public key of the device is needed for it. -/
theorem sealed_response_accepted {publicKey : Bytes} (hkey : publicKey.length = kxPublicKeyBytes) :
    Enclave.ResponseAccepted tagged taggedWorld
      (resize 0 32 [] ++ resize 0 16 Enclave.devPublicKey ++
        (taggedWorld.nonce ++ Enclave.providerHash ++ publicKey))
      taggedClient (taggedWorld.nonce ++ Enclave.providerHash ++ publicKey) := by
  obtain ⟨hnonce, hquote, -⟩ :=
    Enclave.response_fields taggedWorld.nonce_length Enclave.length_providerHash hkey
  have hlength : (resize 0 32 [] ++ resize 0 16 Enclave.devPublicKey ++
      (taggedWorld.nonce ++ Enclave.providerHash ++ publicKey)).length = 233 := by
    simp only [List.length_append, length_resize, taggedWorld.nonce_length,
      Enclave.length_providerHash, hkey, aeadPublicNonceBytes, kxPublicKeyBytes, Nat.reduceAdd]
  refine ⟨rfl, rfl, rfl, ⟨_, rfl⟩, Nat.le_of_eq hlength.symm, ?_, hnonce.symm, hquote⟩
  rw [window_all hlength]
  have hopen := openTagged_append (resize 0 32 []) (resize 0 16 Enclave.devPublicKey)
    (taggedWorld.nonce ++ Enclave.providerHash ++ publicKey)
  rwa [length_resize] at hopen

/-- A provider that has not derived a session key yet. -/
def taggedServer : Provider.TrustedServer where
  server := ⟨List.replicate 32 3, List.replicate 32 4, rfl⟩
  sessionRx := List.replicate 32 0
  sessionTx := List.replicate 32 0
  ack := Provider.ack
  ack_length := Provider.length_ack

/-- The draws of one connection. -/
def taggedDraws : Provider.HandlerDraws := ⟨[], List.replicate 24 1, rfl⟩

/-- A request for the provider: the nonce and the public key of `taggedWorld`, sealed. -/
def taggedRequest : Bytes :=
  resize 0 32 taggedWorld.sealSeed ++ resize 0 16 Provider.devPublicKey ++
    (taggedWorld.nonce ++ taggedClient.publicKey)

/-- A boxed report for the session of `taggedRequest` with `taggedServer`. -/
def taggedReport (report : Bytes) : Bytes :=
  boxTag taggedWorld.boxNonce taggedClient.publicKey ++ (report ++ padding report.length) ++
    taggedWorld.boxNonce

/-- A provider that starts without failures. -/
def taggedStart : Provider.StartWorld where
  kxKeypair := some taggedServer.server
  signReady := true
  socketCreated := true
  optionSet := true
  bound := true
  listening := true
  sessionRx := List.replicate 32 0
  sessionTx := List.replicate 32 0

/-- A connection that delivers a request and a report, with a constant nonce for the
acknowledgement. -/
def taggedConnection (ackNonceByte : UInt8) (request report : Bytes) : Provider.Connection where
  draws := ⟨[ackNonceByte], List.replicate 24 ackNonceByte, rfl⟩
  environment :=
    { accepts := fun _ ↦ true
      delivers := fun
        | 0 => request
        | _ => report }

end Disguise.Provisioning
