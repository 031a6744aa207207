import Disguise.Provisioning.HandlerSpec
import Disguise.Provisioning.TaggedSodium

/-!
# The honest provisioning run

The enclave and the provider run against each other over a network that delivers every message
whole. The two programs were written separately and share no definitions: the layouts of the four
messages, the constants (two copies of the device key, of `Ack`, and of the hash, once as a literal
that loses its last character and once as hexadecimal text) and the roles in the key exchange have
to fit together.

`establishSecureChannel_performs` and `provider_performs` list what each side exchanges, given that
the boxes open. `honest_run_completes` composes them: the exchanges are dual, so the network reaches
the end of both programs, and since it is deterministic it reaches the same end from every
configuration on the way.
-/

set_option autoImplicit false
set_option relaxedAutoImplicit false

namespace Disguise.Provisioning

open Memory Process Process.Proc

/-! ### Shared constants -/

/-- Both programs have the same device key pair. -/
theorem devPublicKey_eq : Provider.devPublicKey = Enclave.devPublicKey := rfl

theorem devSecretKey_eq : Provider.devSecretKey = Enclave.devSecretKey := rfl

/-- Both programs have the same acknowledgement. -/
theorem ack_eq : Provider.ack = Enclave.ack := rfl

/-- The hexadecimal text of the provider is the hash the enclave expects, without the character that
does not fit into the array there. -/
theorem hashBytes_eq : Provider.hashBytes = Enclave.providerHash := by decide +kernel

/-! ### Message layouts -/

/-- The fields of a request are read back where the provider looks for them. -/
theorem request_fields {nonce publicKey : Bytes} (hnonce : nonce.length = 24)
    (hkey : publicKey.length = 32) :
    window (nonce ++ publicKey) 0 24 = nonce ∧ window (nonce ++ publicKey) 24 32 = publicKey := by
  constructor
  · rw [window_append_left (by omega), window_all hnonce]
  · rw [window_append_right (by omega), hnonce, Nat.sub_self, window_all hkey]

/-- The ciphertext and the nonce of a frame are read back where both decoders look for them. -/
theorem frame_fields {boxed nonce : Bytes} {length : ℕ} (hboxed : boxed.length = length)
    (hnonce : nonce.length = 24) :
    window (boxed ++ nonce) 0 length = boxed ∧ window (boxed ++ nonce) length 24 = nonce := by
  constructor
  · rw [window_append_left (by omega), window_all hboxed]
  · rw [window_append_right (by omega), hboxed, Nat.sub_self, window_all hnonce]

/-! ### The enclave -/

/-- The first half of the enclave's exchange: its request, and a response that unseals to the nonce
of the run, the expected hash and a public key. -/
theorem acceptResponse_performs {sodium : Sodium} {world : Enclave.EnclaveWorld} {client : KeyPair}
    {request response serverPk : Bytes} (hready : world.sodiumReady = true)
    (hkeypair : world.kxKeypair = some client) (hsign : world.signReady = true)
    (hrequest : sodium.boxSeal world.sealSeed (world.nonce ++ client.publicKey)
      Enclave.devPublicKey = some request)
    (hserverPk : serverPk.length = kxPublicKeyBytes) (hresponse : response.length = 233)
    (hopened : sodium.boxSealOpen response Enclave.devPublicKey Enclave.devSecretKey =
      some (world.nonce ++ Enclave.providerHash ++ serverPk)) :
    Performs (Enclave.acceptResponse sodium world) [.sends request, .receives response]
      (done (client, response, world.nonce ++ Enclave.providerHash ++ serverPk)) := by
  obtain ⟨hnonceField, hhashField, -⟩ :=
    Enclave.response_fields world.nonce_length Enclave.length_providerHash hserverPk
  unfold Enclave.acceptResponse
  refine performs_observe ?_
  have hinit : Enclave.init world = done client := by
    rw [Enclave.init, hready, hkeypair, hsign]
    rfl
  rw [hinit, done_bind]
  refine performs_observe ?_
  rw [hrequest, Enclave.orExit_some, done_bind]
  refine performs_transmit (performs_receive ?_)
  rw [load_eq (by omega), done_bind, window_all hresponse, hopened, Enclave.orExit_some, done_bind,
    hnonceField, hhashField, Enclave.verify, if_pos rfl, Enclave.verify, if_pos rfl]
  exact performs_observe (performs_observe (Performs.refl _))

/-- The second half: the boxed report, and an acknowledgement that opens and unpads. -/
theorem awaitAck_performs {sodium : Sodium} {world : Enclave.EnclaveWorld}
    {keys : Enclave.SessionKeys} {response boxed ackBoxed ackNonce : Bytes} (message : Bytes)
    (hresponse : response.length = 233)
    (hboxed : sodium.secretboxEasy (world.report ++ padding 96) world.boxNonce keys.tx = some boxed)
    (hackBoxed : ackBoxed.length = 48) (hackNonce : ackNonce.length = secretboxNonceBytes)
    (hackOpened : sodium.secretboxOpenEasy ackBoxed ackNonce keys.rx =
      some (Enclave.ack ++ padding 8))
    (hackUnpadded : sodium.unpad (Enclave.ack ++ padding 8) = some 8) :
    Performs (Enclave.awaitAck sodium world keys response message)
      [.sends (boxed ++ world.boxNonce), .receives (ackBoxed ++ ackNonce)]
      (done { receivedNonce := window message 0 24, receivedHash := window message 24 129,
              clientPk := window message 153 32, keys,
              dataCopy := overwrite (overwrite response 0 (ackBoxed ++ ackNonce)) 0
                (Enclave.ack ++ padding 8), ackLen := some 8 }) := by
  simp only [secretboxNonceBytes] at hackNonce
  obtain ⟨hboxedField, hnonceField⟩ := frame_fields hackBoxed hackNonce
  have hframe : (ackBoxed ++ ackNonce).length = 72 := by
    rw [List.length_append]
    omega
  have hblock : (overwrite response 0 (ackBoxed ++ ackNonce)).length = 233 := by
    rw [length_overwrite (by omega), hresponse]
  have hpadded : (Enclave.ack ++ padding 8).length = 32 := rfl
  have hhead : window (Enclave.ack ++ padding 8) 0 8 = Enclave.ack := rfl
  have hboxedRead : window (overwrite response 0 (ackBoxed ++ ackNonce)) 0
      (72 - secretboxNonceBytes) = ackBoxed :=
    (window_overwrite_zero (by rw [hframe]; decide)).trans hboxedField
  have hnonceRead : window (overwrite response 0 (ackBoxed ++ ackNonce))
      (72 - secretboxNonceBytes) secretboxNonceBytes = ackNonce :=
    (window_overwrite_zero (by rw [hframe]; decide)).trans hnonceField
  have hunbox : Enclave.channelUnbox sodium keys.rx (overwrite response 0 (ackBoxed ++ ackNonce))
      72 = done (overwrite (overwrite response 0 (ackBoxed ++ ackNonce)) 0
        (Enclave.ack ++ padding 8), some 8) :=
    Enclave.channelUnbox_eq sodium (Nat.le_refl 72) (by omega) (by decide)
      (by rw [hboxedRead, hnonceRead, hackOpened])
      (by rw [window_all hpadded, hackUnpadded])
  unfold Enclave.awaitAck
  rw [hboxed, Enclave.orExit_some, done_bind]
  refine performs_transmit (performs_receive ?_)
  rw [store_eq (by omega), done_bind, hunbox, done_bind,
    load_eq (by rw [length_overwrite (by omega)]; omega), done_bind,
    window_overwrite_zero (by omega), hhead, if_neg (not_not_intro rfl)]
  exact Performs.refl _

/-- The whole exchange of the enclave, and what it holds at the end. -/
theorem establishSecureChannel_performs {sodium : Sodium} {world : Enclave.EnclaveWorld}
    {client : KeyPair} {keys : Enclave.SessionKeys}
    {request response serverPk boxed ackBoxed ackNonce : Bytes} (hready : world.sodiumReady = true)
    (hkeypair : world.kxKeypair = some client) (hsign : world.signReady = true)
    (hrequest : sodium.boxSeal world.sealSeed (world.nonce ++ client.publicKey)
      Enclave.devPublicKey = some request)
    (hserverPk : serverPk.length = kxPublicKeyBytes) (hresponse : response.length = 233)
    (hopened : sodium.boxSealOpen response Enclave.devPublicKey Enclave.devSecretKey =
      some (world.nonce ++ Enclave.providerHash ++ serverPk))
    (hkeys : Enclave.sessionKeys sodium client serverPk = keys)
    (hboxed : sodium.secretboxEasy (world.report ++ padding 96) world.boxNonce keys.tx = some boxed)
    (hackBoxed : ackBoxed.length = 48) (hackNonce : ackNonce.length = secretboxNonceBytes)
    (hackOpened : sodium.secretboxOpenEasy ackBoxed ackNonce keys.rx =
      some (Enclave.ack ++ padding 8))
    (hackUnpadded : sodium.unpad (Enclave.ack ++ padding 8) = some 8) :
    Performs (Enclave.establishSecureChannel sodium world)
      [.sends request, .receives response, .sends (boxed ++ world.boxNonce),
        .receives (ackBoxed ++ ackNonce)]
      (done { receivedNonce := world.nonce, receivedHash := Enclave.providerHash,
              clientPk := serverPk, keys,
              dataCopy := overwrite (overwrite response 0 (ackBoxed ++ ackNonce)) 0
                (Enclave.ack ++ padding 8), ackLen := some 8 }) := by
  obtain ⟨hnonceField, hhashField, hkeyField⟩ :=
    Enclave.response_fields world.nonce_length Enclave.length_providerHash hserverPk
  have hfirst := acceptResponse_performs hready hkeypair hsign hrequest hserverPk hresponse hopened
  have hsecond := awaitAck_performs (world.nonce ++ Enclave.providerHash ++ serverPk) hresponse
    hboxed hackBoxed hackNonce hackOpened hackUnpadded
  rw [hnonceField, hhashField, hkeyField] at hsecond
  rw [Enclave.establishSecureChannel_eq]
  refine hfirst.bind ?_
  rw [hkeyField, hkeys]
  exact hsecond

/-! ### The provider -/

/-- What the provider exchanges with a client whose request unseals to a nonce and a public key, and
whose boxed report opens and unpads.

Assumes: the response and the acknowledgement can be boxed, and the messages of the client have the
lengths of the honest ones. -/
theorem provider_performs {sodium : Sodium} {draws : Provider.HandlerDraws}
    {server : Provider.TrustedServer} {nonce clientPk report sessionRx sessionTx : Bytes}
    {request response boxed reportNonce ackBoxed : Bytes} (hnonce : nonce.length = 24)
    (hclientPk : clientPk.length = 32) (hrequest : request.length = 104)
    (hopened : sodium.boxSealOpen request Provider.devPublicKey Provider.devSecretKey =
      some (nonce ++ clientPk))
    (hkeys : sodium.kxServerSessionKeys server.server.publicKey server.server.secretKey clientPk =
      some (sessionRx, sessionTx))
    (hresponse : sodium.boxSeal draws.sealSeed
      (nonce ++ Provider.hashBytes ++ server.server.publicKey) Provider.devPublicKey =
        some response)
    (hreport : report.length = 96) (hboxed : boxed.length = 144)
    (hreportNonce : reportNonce.length = secretboxNonceBytes)
    (hreportOpened : sodium.secretboxOpenEasy boxed reportNonce sessionRx =
      some (report ++ padding 96))
    (hunpadded : sodium.unpad (report ++ padding 96) = some 96)
    (hackBoxed : sodium.secretboxEasy (server.ack ++ padding 8) draws.ackNonce sessionTx =
      some ackBoxed) :
    Performs (Provider.handleConnection sodium draws server)
      [.receives request, .sends response, .receives (boxed ++ reportNonce),
        .sends (ackBoxed ++ draws.ackNonce)]
      (done { server := { server with sessionRx, sessionTx }, nonce, clientPk, report,
              unpaddedLen := 96 }) := by
  simp only [secretboxNonceBytes] at hreportNonce
  obtain ⟨hnonceField, hkeyField⟩ := request_fields hnonce hclientPk
  obtain ⟨hboxedField, hreportNonceField⟩ := frame_fields hboxed hreportNonce
  have hmessage : (nonce ++ clientPk).length = 56 := by
    rw [List.length_append]
    omega
  have hframe : (boxed ++ reportNonce).length = 168 := by
    rw [List.length_append]
    omega
  have hpadded : (report ++ padding 96).length = 128 := by
    rw [List.length_append, hreport]
    rfl
  have hbuffer : (Provider.requestBuffer request (nonce ++ clientPk)).length = 1024 :=
    Provider.length_requestBuffer (by omega) (by omega)
  have hfields : Provider.decryptedRequest request (nonce ++ clientPk) =
      { buffer := Provider.requestBuffer request (nonce ++ clientPk), nonce, clientPk } := by
    have hnonceRead : window (Provider.requestBuffer request (nonce ++ clientPk)) 0
        aeadPublicNonceBytes = nonce := by
      rw [Provider.requestBuffer, window_overwrite_zero (by rw [hmessage]; decide), hnonceField]
    have hkeyRead : window (Provider.requestBuffer request (nonce ++ clientPk))
        aeadPublicNonceBytes kxPublicKeyBytes = clientPk := by
      rw [Provider.requestBuffer, window_overwrite_zero (by rw [hmessage]; decide), hkeyField]
    rw [Provider.decryptedRequest, hnonceRead, hkeyRead]
  unfold Provider.handleConnection
  rw [Provider.receiveRequest_eq]
  simp only [sequence_assoc]
  refine performs_receive ?_
  rw [Provider.received_eq (by omega)]
  refine performs_require (fun hempty ↦ by simp [hempty] at hrequest) ?_
  refine performs_observe (performs_observe (performs_require (by omega) ?_))
  rw [hopened, orFail_some, done_bind]
  refine performs_observe (performs_observe (performs_observe ?_))
  rw [pure_eq, done_bind, hfields, Provider.generateSessionKey, hkeys, orFail_some, done_bind]
  simp only [pure_eq, Provider.sendResponse, Provider.hexToBytes_hash, orFail_some, done_bind,
    hresponse, Provider.sendBytes, sequence_assoc]
  refine performs_transmit (performs_require rfl ?_)
  rw [Provider.receiveAttestation_eq sodium _ hbuffer]
  simp only [sequence_assoc]
  refine performs_receive ?_
  rw [Provider.received_eq (by omega)]
  refine performs_require (fun hempty ↦ by simp [hempty] at hframe) ?_
  refine performs_observe (performs_require (by omega) ?_)
  rw [hframe]
  simp only [secretboxNonceBytes, Nat.reduceSub]
  rw [hboxedField, hreportNonceField, hreportOpened, orFail_some, done_bind]
  refine performs_observe ?_
  rw [Provider.attestedBuffer, window_overwrite_zero (by omega), window_all hpadded, hunpadded,
    orFail_some, done_bind]
  refine performs_observe (performs_observe (performs_observe ?_))
  rw [pure_eq, done_bind, Provider.sendAck_eq, hackBoxed, orFail_some, done_bind,
    Provider.sendBytes, sequence_assoc]
  refine performs_transmit (performs_require rfl ?_)
  rw [window_overwrite_zero (by omega), window_append_left (by omega), window_all hreport]
  exact Performs.refl _

/-! ### The composition -/

/-- Padding to blocks of 32 is undone on the padded message. -/
theorem unpad_padding {sodium : Sodium} {devicePublic deviceSecret : Bytes}
    {KxKeypair : Bytes → Bytes → Prop}
    (hroundTrips : sodium.RoundTrips devicePublic deviceSecret KxKeypair) (message : Bytes) :
    sodium.unpad (message ++ padding message.length) = some message.length := by
  refine hroundTrips.unpad_pad message (blockUp message.length) _ ?_
  rw [sodium.pad_eq, if_pos]
  rw [blockUp]
  simp only [msgBlocksize]
  omega

/-- The report of an enclave has 96 bytes. -/
theorem length_report (world : Enclave.EnclaveWorld) : world.report.length = 96 :=
  length_window (by rw [world.attest_length]; decide)

/-- What both sides hold when an honest run is over. -/
structure HonestOutcome (world : Enclave.EnclaveWorld) (client : KeyPair)
    (server : Provider.TrustedServer) (channel : Enclave.SecureChannel)
    (handled : Provider.Handled) : Prop where
  nonce_recovered : handled.nonce = world.nonce
  publicKey_recovered : handled.clientPk = client.publicKey
  nonce_returned : channel.receivedNonce = world.nonce
  quote_received : channel.receivedHash = Enclave.providerHash
  serverKey_received : channel.clientPk = server.server.publicKey
  tx_eq_sessionRx : channel.keys.tx = handled.server.sessionRx
  rx_eq_sessionTx : channel.keys.rx = handled.server.sessionTx
  report_recovered : handled.report = world.report
  unpaddedLen_eq : handled.unpaddedLen = 96
  ack_received : channel.dataCopy.take 8 = Enclave.ack
  ackLen_eq : channel.ackLen = some 8

/-- An honest provisioning run. For every nonce, key pair, box nonce and report of the enclave and
every key pair and draw of the provider, the two programs exchange messages of 104, 233, 168 and 72
bytes and both return; the provider holds the nonce, the public key and the report of the enclave,
the session keys agree crosswise, and the acknowledgement is accepted. The network gets there from
every configuration it can be in on the way.

Assumes: the calls of libsodium are inverse to each other in pairs, the initialization of the
enclave succeeds, and both key pairs are key pairs of the key exchange. -/
theorem honest_run_completes {sodium : Sodium} {KxKeypair : Bytes → Bytes → Prop}
    (hroundTrips : sodium.RoundTrips Enclave.devPublicKey Enclave.devSecretKey KxKeypair)
    {world : Enclave.EnclaveWorld} {client : KeyPair} (hready : world.sodiumReady = true)
    (hkeypair : world.kxKeypair = some client) (hsign : world.signReady = true)
    {server : Provider.TrustedServer} (hack : server.ack = Provider.ack)
    (hclient : KxKeypair client.publicKey client.secretKey)
    (hserver : KxKeypair server.server.publicKey server.server.secretKey)
    (draws : Provider.HandlerDraws) :
    ∃ request response frame ackFrame channel handled,
      request.length = 104 ∧ response.length = 233 ∧ frame.length = 168 ∧ ackFrame.length = 72 ∧
      Performs (Enclave.establishSecureChannel sodium world)
        [.sends request, .receives response, .sends frame, .receives ackFrame] (done channel) ∧
      HonestOutcome world client server channel handled ∧
      ∀ middle,
        Reaches (Network.start (Enclave.establishSecureChannel sodium world)
          (Provider.handleConnection sodium draws server)) middle →
        Reaches middle (Network.start (done channel) (done handled)) := by
  have hnonce := world.nonce_length
  have hclientPk := client.publicKey_length
  have hserverPk := server.server.publicKey_length
  have hreport := length_report world
  simp only [aeadPublicNonceBytes, kxPublicKeyBytes] at hnonce hclientPk hserverPk
  -- The four messages, and what they open to.
  obtain ⟨request, hrequest, hrequestOpened⟩ := hroundTrips.boxSealOpen_boxSeal world.sealSeed
    (world.nonce ++ client.publicKey)
  obtain ⟨response, hresponse, hresponseOpened⟩ := hroundTrips.boxSealOpen_boxSeal draws.sealSeed
    (world.nonce ++ Enclave.providerHash ++ server.server.publicKey)
  obtain ⟨rx, tx, hclientKeys, hserverKeys⟩ := hroundTrips.kxSessionKeys client.publicKey
    client.secretKey server.server.publicKey server.server.secretKey hclient hserver
  obtain ⟨hrx, htx⟩ := sodium.kxClientSessionKeys_length hclientKeys
  obtain ⟨boxed, hboxed, hboxedOpened⟩ := hroundTrips.secretboxOpenEasy_secretboxEasy
    (world.report ++ padding 96) world.boxNonce tx world.boxNonce_length htx
  obtain ⟨ackBoxed, hackBoxed, hackOpened⟩ := hroundTrips.secretboxOpenEasy_secretboxEasy
    (Enclave.ack ++ padding 8) draws.ackNonce rx draws.ackNonce_length hrx
  have hreportUnpadded := unpad_padding hroundTrips world.report
  have hackUnpadded := unpad_padding hroundTrips Enclave.ack
  rw [hreport] at hreportUnpadded
  have hrequestLength : request.length = 104 := by
    rw [sodium.boxSeal_length hrequest, List.length_append, hnonce, hclientPk]
    rfl
  have hresponseLength : response.length = 233 := by
    rw [sodium.boxSeal_length hresponse, List.length_append, List.length_append, hnonce,
      Enclave.length_providerHash, hserverPk]
    rfl
  have hboxedLength : boxed.length = 144 := by
    rw [sodium.secretboxEasy_length hboxed, List.length_append, hreport]
    rfl
  have hackBoxedLength : ackBoxed.length = 48 := sodium.secretboxEasy_length hackBoxed
  have hkeys : Enclave.sessionKeys sodium client server.server.publicKey = ⟨rx, tx⟩ := by
    rw [Enclave.sessionKeys, Enclave.generateSessionKeys, hclientKeys]
  -- The exchanges of the two sides.
  have henclave := establishSecureChannel_performs hready hkeypair hsign hrequest hserverPk
    hresponseLength hresponseOpened hkeys hboxed hackBoxedLength draws.ackNonce_length hackOpened
    hackUnpadded
  rw [← devPublicKey_eq, ← devSecretKey_eq] at hrequestOpened
  rw [← hashBytes_eq, ← devPublicKey_eq] at hresponse
  rw [← ack_eq, ← hack] at hackBoxed
  have hprovider := provider_performs hnonce hclientPk hrequestLength hrequestOpened hserverKeys
    hresponse hreport hboxedLength world.boxNonce_length hboxedOpened hreportUnpadded hackBoxed
  have hreaches := network_reaches_of_dual henclave hprovider
  refine ⟨request, response, _, _, _, _, hrequestLength, hresponseLength, ?_, ?_, henclave,
    ⟨rfl, rfl, rfl, rfl, rfl, rfl, rfl, rfl, rfl, ?_, rfl⟩, fun middle hmiddle ↦
      reaches_of_final hreaches (fun next ↦ not_networkStep_of_done) hmiddle⟩
  · rw [List.length_append, hboxedLength, world.boxNonce_length]
    rfl
  · rw [List.length_append, hackBoxedLength, draws.ackNonce_length]
    rfl
  · rfl

theorem tagged_run_completes : ∃ channel handled,
    HonestOutcome taggedWorld taggedClient taggedServer channel handled ∧
    Reaches
      (Network.start (Enclave.establishSecureChannel tagged taggedWorld)
        (Provider.handleConnection tagged taggedDraws taggedServer))
      (Network.start (done channel) (done handled)) := by
  have hkeypair : taggedWorld.kxKeypair = some taggedClient := rfl
  have hclient : TaggedKeypair taggedClient.publicKey taggedClient.secretKey := by decide
  have hserver : TaggedKeypair taggedServer.server.publicKey taggedServer.server.secretKey := by
    decide
  obtain ⟨_, _, _, _, channel, handled, -, -, -, -, -, houtcome, hreaches⟩ :=
    honest_run_completes (tagged_roundTrips Enclave.devPublicKey Enclave.devSecretKey) rfl hkeypair
      rfl rfl hclient hserver taggedDraws
  exact ⟨channel, handled, houtcome, hreaches _ Relation.ReflTransGen.refl⟩

end Disguise.Provisioning
