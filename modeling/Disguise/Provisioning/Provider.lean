import Disguise.Memory.Access
import Disguise.Provisioning.Hex

/-!
# The provider

`TrustedServer` of `provider.cpp`. One connection is `handleConnection`, a process that exchanges
byte strings with the client, and the server serves connections one after the other in `start`,
catching what a handler throws.

`handleConnection` is cut into the parts it is written in: the request, the session keys, the
response, the attestation and the acknowledgement. All parts work on one buffer of 1024 bytes, which
holds the first message, its plaintext, the second message over what is left of them, and its
plaintext over that.

The observations of a handler are the verdict it prints on the measurement, and what a reader has to
know to judge its memory accesses: every difference of lengths at the point where it is used as a
length or an offset, and every run of bytes it gives a meaning to, with the length of the plaintext
that was decrypted last. An access outside the buffer stops the handler with `outOfBounds`.

Not modelled: the other lines the handler prints, the signing key pair, which is only printed, the
public address of the server, and `verifyPadding`, which nothing calls.
-/

set_option autoImplicit false
set_option relaxedAutoImplicit false

namespace Disguise.Provisioning.Provider

open Memory Process Process.Proc

/-! ### The server -/

/-- `dev_secret_key`. -/
def devSecretKey : Bytes := [
  0xd1, 0x2c, 0x26, 0x1e, 0x11, 0xed, 0x5d, 0xe4,
  0x10, 0x5e, 0x59, 0xf9, 0x7b, 0x7d, 0xc5, 0x09,
  0xa2, 0xb0, 0x93, 0x22, 0x32, 0xc6, 0x45, 0x07,
  0xea, 0x18, 0xd5, 0xc9, 0xe7, 0xbe, 0x86, 0xfe]

/-- `dev_public_key`. -/
def devPublicKey : Bytes := [
  0xbd, 0xcc, 0xd0, 0x68, 0xf1, 0x47, 0x36, 0x4f,
  0xcd, 0x39, 0x7a, 0x7a, 0x2c, 0x54, 0xb2, 0xc2,
  0x51, 0xc3, 0xf0, 0xa4, 0x53, 0xa4, 0x5a, 0x08,
  0x02, 0xc7, 0x06, 0xd8, 0x98, 0x62, 0x07, 0x6f]

/-- `Ack`. -/
def ack : Bytes := [0x1, 0x0, 0x0, 0x0, 0x0, 0x0, 0x0, 0x0]

theorem length_ack : ack.length = 8 := rfl

/-- The members of a `TrustedServer` a connection reads or writes: the long-term key pair, the two
session keys, and `Ack`, a vector of 8 bytes. -/
structure TrustedServer where
  server : KeyPair
  sessionRx : Bytes
  sessionTx : Bytes
  ack : Bytes
  ack_length : ack.length = 8

/-- What a handler throws. `lengthError` is thrown by the constructor of a vector and
`invalidArgument` by `std::stoi`. -/
inductive Exception where
  | networkError (message : String)
  | cryptoError (message : String)
  | runtimeError (message : String)
  | lengthError
  | invalidArgument
  deriving DecidableEq

/-- How a handler ends before it returns: with an exception, which leaves the members of the server
as they were at that point, or at an access outside its buffer. -/
inductive Stop where
  | threw (exception : Exception) (server : TrustedServer)
  | outOfBounds

instance : Fault Stop := ⟨Stop.outOfBounds⟩

/-- What a run of bytes is taken for. -/
inductive Meaning where
  | nonce
  | clientPk
  | padding
  | report
  deriving DecidableEq

/-- An observation of a handler. -/
inductive Event where
  /-- A difference about to be used as a length or an offset. -/
  | uses (minuend subtrahend : ℕ)
  /-- A run of bytes of the buffer about to be given a meaning, and the length of the plaintext at
  the start of the buffer. -/
  | interprets (meaning : Meaning) (offset length plaintextLength : ℕ)
  /-- The line printed for the measurement. -/
  | verdict (passed : Bool)
  deriving DecidableEq

/-- Provider code. -/
abbrev ProviderProc (α : Type) := Proc Bytes Event Stop α

/-- What the handler of one connection draws: the seed of the sealed response, and the bytes
`randombytes_buf` writes behind the boxed acknowledgement. -/
structure HandlerDraws where
  sealSeed : Bytes
  ackNonce : Bytes
  ackNonce_length : ackNonce.length = secretboxNonceBytes

/-- `buffer.size()` when the handler starts. -/
abbrev bufferSize : ℕ := 1024

/-- The largest length of a `std::vector<unsigned char>`. -/
abbrev vectorMaxSize : ℕ := 2 ^ 63 - 1

/-! ### The socket -/

/-- `recv` into the buffer, and the exception when it returns no bytes: a closed connection or an
error. At most `bufferSize` bytes of the message are taken. -/
def recvBytes (server : TrustedServer) (buffer : Bytes) (message : String) :
    ProviderProc (Bytes × ℕ) := do
  let delivered ← receive
  let bytes := delivered.take bufferSize
  require (bytes ≠ []) (.threw (.networkError message) server)
  let buffer ← store buffer 0 bytes
  return (buffer, bytes.length)

/-- `send` with flags 0, and the exception when it returns an error. A refused send is that error
return; the `SIGPIPE` that a connection closed by the peer raises as well is not modelled. -/
def sendBytes (server : TrustedServer) (bytes : Bytes) (message : String) : ProviderProc Unit := do
  let accepted ← transmit bytes
  require (accepted = true) (.threw (.networkError message) server)

/-! ### The parts of `handleConnection` -/

/-- A decrypted request: the buffer, and the two fields copied out of it. -/
structure Request where
  buffer : Bytes
  nonce : Bytes
  clientPk : Bytes

/-- The first message: received, decrypted in place, and split into a nonce and a public key. -/
def receiveRequest (sodium : Sodium) (server : TrustedServer) : ProviderProc Request := do
  let (buffer, bytesReceived) ←
    recvBytes server (List.replicate bufferSize 0) "Error receiving data"
  let clen := sizeSub bytesReceived secretboxNonceBytes
  -- `decrypted(clen - crypto_secretbox_MACBYTES)`, which is never read
  observe (.uses bytesReceived secretboxNonceBytes)
  observe (.uses clen secretboxMacBytes)
  require (sizeSub clen secretboxMacBytes ≤ vectorMaxSize) (.threw .lengthError server)
  let sealed ← load buffer 0 bytesReceived
  let message ← orFail (sodium.boxSealOpen sealed devPublicKey devSecretKey)
    (.threw (.cryptoError "Decryption failed") server)
  let buffer ← store buffer 0 message
  -- The decrypted message is printed.
  observe (.uses bytesReceived boxSealBytes)
  let _ ← load buffer 0 (sizeSub bytesReceived boxSealBytes)
  observe (.interprets .nonce 0 aeadPublicNonceBytes message.length)
  let nonce ← load buffer 0 aeadPublicNonceBytes
  observe (.interprets .clientPk aeadPublicNonceBytes kxPublicKeyBytes message.length)
  let clientPk ← load buffer aeadPublicNonceBytes kxPublicKeyBytes
  return { buffer, nonce, clientPk }

/-- `generateSessionKey`: the server afterwards. -/
def generateSessionKey (sodium : Sodium) (server : TrustedServer) (clientPk : Bytes) :
    ProviderProc TrustedServer := do
  let (rx, tx) ← orFail
    (sodium.kxServerSessionKeys server.server.publicKey server.server.secretKey clientPk)
    (.threw (.cryptoError "Failed to generate session keys") server)
  return { server with sessionRx := rx, sessionTx := tx }

/-- `hash`. -/
@[irreducible] def hash : Text :=
  "36643833356662666665626665666264636564396337".toList ++
    "32363762636237303131646332363635653339363664".toList ++
    "38323065313039616239633833316633356261303162".toList ++
    "66356435376531353538313437393537396164656539".toList ++
    "31663162336131663736373932653231363261363464".toList ++
    "38333362373137646435626135336337663231".toList

/-- The response: the nonce, the bytes of `hash`, and the public key of the server. The loop that
fills `hash_bytes` is the one of `hexToBytes`. -/
def sendResponse (sodium : Sodium) (draws : HandlerDraws) (server : TrustedServer)
    (nonce : Bytes) : ProviderProc Unit := do
  let hashBytes ← orFail (hexToBytes hash) (.threw .invalidArgument server)
  let response := nonce ++ hashBytes ++ server.server.publicKey
  let encryptedResponse ← orFail (sodium.boxSeal draws.sealSeed response devPublicKey)
    (.threw (.runtimeError "Encryption failed") server)
  sendBytes server encryptedResponse "Error sending response"

/-- `expected_hex`. -/
@[irreducible] def expectedHex : Text :=
  "240e875b996a9dd31461751fe0bed7686d20d9578bb0".toList ++
    "f3e64dfdd8c5c081679d4b25679715a52adcb0b9feb5".toList ++
    "0a21cbd004c46323cceccdc86203aba06a2c089118".toList

/-- `expected_len`. -/
def expectedLen : ℕ := expectedHex.length / 2

/-- The second message: received over what the buffer holds, decrypted in place, unpadded, and
compared with the expected measurement. The comparison decides which line is printed. -/
def receiveAttestation (sodium : Sodium) (server : TrustedServer) (buffer : Bytes) :
    ProviderProc (Bytes × ℕ) := do
  let (buffer, bytesReceived) ← recvBytes server buffer "Error receiving attestation"
  let clen := sizeSub bytesReceived secretboxNonceBytes
  observe (.uses bytesReceived secretboxNonceBytes)
  let nonce ← load buffer clen secretboxNonceBytes
  let boxed ← load buffer 0 clen
  let plaintext ← orFail (sodium.secretboxOpenEasy boxed nonce server.sessionRx)
    (.threw (.cryptoError "Decryption (unbox) failed") server)
  let buffer ← store buffer 0 plaintext
  let ptlen := 128
  observe (.interprets .padding 0 ptlen plaintext.length)
  let padded ← load buffer 0 ptlen
  let unpaddedLen ← orFail (sodium.unpad padded)
    (.threw (.cryptoError "Invalid message padding") server)
  -- The original message is printed.
  let _ ← load buffer 0 unpaddedLen
  observe (.interprets .report 0 unpaddedLen plaintext.length)
  observe (.interprets .report 0 expectedLen plaintext.length)
  let actual ← load buffer 0 expectedLen
  observe (.verdict (bytesToHex actual = expectedHex))
  return (buffer, unpaddedLen)

/-- The acknowledgement: padded and boxed in the resized buffer, and sent. -/
def sendAck (sodium : Sodium) (draws : HandlerDraws) (server : TrustedServer) (buffer : Bytes) :
    ProviderProc Unit := do
  let totalSize := blockUp server.ack.length + secretboxMacBytes + secretboxNonceBytes
  let buffer := resize 0 totalSize buffer
  let buffer ← store buffer 0 server.ack
  let padded ← orFail
    (sodium.pad (window buffer 0 server.ack.length) (blockUp server.ack.length))
    (.threw (.runtimeError "[CPP] Unable to pad message") server)
  let buffer ← store buffer 0 padded
  let nonceptr := secretboxMacBytes + padded.length
  let buffer ← store buffer nonceptr draws.ackNonce
  let boxed ← orFail
    (sodium.secretboxEasy (window buffer 0 padded.length)
      (window buffer nonceptr secretboxNonceBytes) server.sessionTx)
    (.threw (.runtimeError "[CPP] Unable to encrypt message") server)
  let buffer ← store buffer 0 boxed
  let frame ← load buffer 0 72
  sendBytes server frame "Error sending Ack"

/-- The server and the locals of a handler that returns. -/
structure Handled where
  server : TrustedServer
  nonce : Bytes
  clientPk : Bytes
  report : Bytes
  unpaddedLen : ℕ

/-- `handleConnection`. -/
def handleConnection (sodium : Sodium) (draws : HandlerDraws) (server : TrustedServer) :
    ProviderProc Handled := do
  let request ← receiveRequest sodium server
  let server ← generateSessionKey sodium server request.clientPk
  sendResponse sodium draws server request.nonce
  let (buffer, unpaddedLen) ← receiveAttestation sodium server request.buffer
  sendAck sodium draws server buffer
  return { server, nonce := request.nonce, clientPk := request.clientPk,
           report := window buffer 0 unpaddedLen, unpaddedLen }

/-! ### The accept loop -/

/-- An accepted connection: what its handler draws, and the client and its transport. -/
structure Connection where
  draws : HandlerDraws
  environment : Environment Bytes

/-- A finished handler. -/
abbrev Run := Execution Bytes Event Stop Handled

/-- The server after a handler: `start` catches every exception, and there is no server after an
access outside the buffer. -/
def serverAfter (run : Run) : Option TrustedServer :=
  match run.outcome with
  | .ok handled => some handled.server
  | .error (.threw _ server) => some server
  | .error .outOfBounds => none

/-- The loop of `start` over the accepted connections. -/
def serve (sodium : Sodium) (server : TrustedServer) : List Connection → List Run
  | [] => []
  | connection :: rest =>
    let run := execute connection.environment (handleConnection sodium connection.draws server) 0 0
    match serverAfter run with
    | some server => run :: serve sodium server rest
    | none => [run]

/-- What `start` draws and is given before the loop: the two key pairs, the system calls that set up
the socket, and the contents of the session key arrays. -/
structure StartWorld where
  kxKeypair : Option KeyPair
  signReady : Bool
  socketCreated : Bool
  optionSet : Bool
  bound : Bool
  listening : Bool
  sessionRx : Bytes
  sessionTx : Bytes

/-- `generateKeypair`. -/
def generateKeypair (world : StartWorld) : Except Exception TrustedServer :=
  match world.kxKeypair with
  | none => .error (.cryptoError "Failed to generate keypair")
  | some server =>
    if world.signReady then
      .ok { server, sessionRx := world.sessionRx, sessionTx := world.sessionTx, ack,
            ack_length := length_ack }
    else .error (.cryptoError "Failed to generate keypair")

/-- One system call of the socket set-up. -/
def orNetworkError (succeeds : Bool) (message : String) : Except Exception Unit :=
  if succeeds then .ok () else .error (.networkError message)

/-- `start`: the runs of the handlers of the accepted connections. -/
def start (sodium : Sodium) (world : StartWorld) (connections : List Connection) :
    Except Exception (List Run) := do
  let server ← generateKeypair world
  orNetworkError world.socketCreated "Socket creation failed"
  orNetworkError world.optionSet "setsockopt failed"
  orNetworkError world.bound "Binding failed"
  orNetworkError world.listening "Listen failed"
  return serve sodium server connections

end Disguise.Provisioning.Provider
