import Disguise.Provisioning.AttestationGate
import Mathlib.Data.List.Basic

/-!
# Replayed connections

Nothing in the handshake is chosen by the provider and checked on return: the session keys are
derived from the long-term key pair and the public key in the request, and the nonce is the one the
client sent. `acknowledges_iff_replayable` makes this precise. Whether a pair of a request and a
report is acknowledged depends on the pair and on the long-term key pair only, not on what the
handler draws or on what earlier connections left in the session keys.

`serve_run` follows the long-term key pair through the accept loop, and `replayed_pair_acknowledged`
puts the two together over whole runs of `start`.
-/

set_option autoImplicit false
set_option relaxedAutoImplicit false

namespace Disguise.Provisioning.Provider

open Memory Process Process.Proc

/-! ### The long-term state -/

/-- Two servers have the same long-term key pair and the same acknowledgement. -/
def SameIdentity (first second : TrustedServer) : Prop :=
  first.server = second.server ∧ first.ack = second.ack

/-- A handler that throws leaves the identity of the server. -/
def LeavesIdentity (server : TrustedServer) : Stop → Prop
  | .threw _ after => SameIdentity after server
  | .outOfBounds => True

/-- An access outside the buffer says nothing about the server. -/
theorem leavesIdentity_outOfBounds (server : TrustedServer) :
    LeavesIdentity server Fault.outOfBounds :=
  trivial

theorem leavesIdentity_threw (server after : TrustedServer) (exception : Exception) :
    LeavesIdentity server (.threw exception after) ↔ SameIdentity after server :=
  Iff.rfl

section Identity

variable (environment : Environment Bytes) (sodium : Sodium) (draws : HandlerDraws)
  {server original : TrustedServer} (sends waits : ℕ)

theorem receiveRequest_identity (hidentity : SameIdentity server original) :
    Respects (fun _ ↦ True) (LeavesIdentity original) (fun _ ↦ True) environment
      (receiveRequest sodium server) sends waits := by
  simp only [receiveRequest, recvBytes, sequence_assoc, respects_receive, respects_require,
    respects_load, respects_store, respects_observe, respects_orFail, respects_done, pure_eq,
    done_bind, leavesIdentity_outOfBounds, leavesIdentity_threw, hidentity, implies_true, and_true]

theorem generateSessionKey_identity (clientPk : Bytes) (hidentity : SameIdentity server original) :
    Respects (fun _ ↦ True) (LeavesIdentity original) (fun after ↦ SameIdentity after original)
      environment (generateSessionKey sodium server clientPk) sends waits := by
  have hderived : ∀ rx tx, SameIdentity { server with sessionRx := rx, sessionTx := tx } original :=
    fun _ _ ↦ hidentity
  simp only [generateSessionKey, respects_orFail, respects_done, pure_eq, leavesIdentity_threw,
    hidentity, hderived, implies_true, and_self]

theorem sendResponse_identity (nonce : Bytes) (hidentity : SameIdentity server original) :
    Respects (fun _ ↦ True) (LeavesIdentity original) (fun _ ↦ True) environment
      (sendResponse sodium draws server nonce) sends waits := by
  simp only [sendResponse, hexToBytes_hash, orFail_some, done_bind, sendBytes, respects_orFail,
    respects_transmit, respects_require_last, leavesIdentity_threw, hidentity, implies_true,
    and_self]

theorem receiveAttestation_identity (buffer : Bytes) (hidentity : SameIdentity server original) :
    Respects (fun _ ↦ True) (LeavesIdentity original) (fun _ ↦ True) environment
      (receiveAttestation sodium server buffer) sends waits := by
  simp only [receiveAttestation, recvBytes, sequence_assoc, respects_receive, respects_require,
    respects_load, respects_store, respects_observe, respects_orFail, respects_done, pure_eq,
    done_bind, leavesIdentity_outOfBounds, leavesIdentity_threw, hidentity, implies_true, and_true]

theorem sendAck_identity (buffer : Bytes) (hidentity : SameIdentity server original) :
    Respects (fun _ ↦ True) (LeavesIdentity original) (fun _ ↦ True) environment
      (sendAck sodium draws server buffer) sends waits := by
  simp only [sendAck_eq, sendBytes, respects_orFail, respects_transmit, respects_require_last,
    leavesIdentity_threw, hidentity, implies_true, and_self]

/-- However a handler ends, the server keeps its identity. -/
theorem handleConnection_identity (hidentity : SameIdentity server original) :
    Respects (fun _ ↦ True) (LeavesIdentity original)
      (fun handled ↦ SameIdentity handled.server original) environment
      (handleConnection sodium draws server) sends waits := by
  unfold handleConnection
  refine respects_bind _ _ _ _ _ _ (receiveRequest_identity environment sodium _ _ hidentity) ?_
  intro request sends waits _
  refine respects_bind _ _ _ _ _ _
    (generateSessionKey_identity environment sodium _ _ request.clientPk hidentity) ?_
  intro server sends waits hserver
  refine respects_bind _ _ _ _ _ _
    (sendResponse_identity environment sodium draws _ _ request.nonce hserver) ?_
  intro _ sends waits _
  refine respects_bind _ _ _ _ _ _
    (receiveAttestation_identity environment sodium _ _ request.buffer hserver) ?_
  intro attested sends waits _
  refine respects_bind _ _ _ _ _ _
    (sendAck_identity environment sodium draws _ _ attested.1 hserver) ?_
  intro _ sends waits _
  exact (respects_done _ _ _ _ _ _ _).mpr hserver

/-- The server after a handler has the identity of the server before it. -/
theorem serverAfter_identity {connection : Connection} {after : TrustedServer}
    (hafter : serverAfter (execute connection.environment
      (handleConnection sodium connection.draws server) 0 0) = some after) :
    SameIdentity after server := by
  have hsame : SameIdentity server server := ⟨rfl, rfl⟩
  have hrespects := handleConnection_identity connection.environment sodium connection.draws 0 0
    hsame
  unfold serverAfter at hafter
  split at hafter
  next handled houtcome =>
    rw [← Option.some.inj hafter]
    exact hrespects.result handled houtcome
  next exception thrown houtcome =>
    rw [← Option.some.inj hafter]
    exact hrespects.error _ houtcome
  next => exact absurd hafter (Option.some_ne_none _).symm

/-- The accept loop goes on after a handler that leaves a server. -/
theorem serve_cons_of_some {connection : Connection} {rest : List Connection}
    {after : TrustedServer}
    (hafter : serverAfter (execute connection.environment
      (handleConnection sodium connection.draws server) 0 0) = some after) :
    serve sodium server (connection :: rest) =
      execute connection.environment (handleConnection sodium connection.draws server) 0 0 ::
        serve sodium after rest := by
  rw [serve, hafter]

/-- The accept loop ends with a handler that leaves no server. -/
theorem serve_cons_of_none {connection : Connection} {rest : List Connection}
    (hafter : serverAfter (execute connection.environment
      (handleConnection sodium connection.draws server) 0 0) = none) :
    serve sodium server (connection :: rest) =
      [execute connection.environment (handleConnection sodium connection.draws server) 0 0] := by
  rw [serve, hafter]

/-- Every run of the accept loop is the run of a handler on a server with the identity of the first
one. -/
theorem serve_run (connections : List Connection) (index : ℕ) (run : Run)
    (hrun : (serve sodium server connections)[index]? = some run) :
    ∃ connection before, connections[index]? = some connection ∧ SameIdentity before server ∧
      run = execute connection.environment (handleConnection sodium connection.draws before) 0
        0 := by
  induction connections generalizing server index with
  | nil => simp [serve] at hrun
  | cons connection rest ih =>
    cases hafter : serverAfter (execute connection.environment
        (handleConnection sodium connection.draws server) 0 0) with
    | none =>
      rw [serve_cons_of_none sodium hafter] at hrun
      cases index with
      | zero => exact ⟨connection, server, rfl, ⟨rfl, rfl⟩, (Option.some.inj hrun).symm⟩
      | succ index => simp at hrun
    | some after =>
      rw [serve_cons_of_some sodium hafter] at hrun
      cases index with
      | zero => exact ⟨connection, server, rfl, ⟨rfl, rfl⟩, (Option.some.inj hrun).symm⟩
      | succ index =>
        obtain ⟨later, before, hlater, hbefore, hexecute⟩ := ih index hrun
        have hidentity := serverAfter_identity sodium hafter
        exact ⟨later, before, hlater,
          ⟨hbefore.1.trans hidentity.1, hbefore.2.trans hidentity.2⟩, hexecute⟩

end Identity

/-- `start` serves the connections with the server `generateKeypair` built, if it gets there. -/
theorem start_ok {sodium : Sodium} {world : StartWorld} {connections : List Connection}
    {runs : List Run} (hstart : start sodium world connections = .ok runs) :
    ∃ server, generateKeypair world = .ok server ∧ runs = serve sodium server connections := by
  unfold start at hstart
  cases hserver : generateKeypair world with
  | error exception => simp [hserver, bind, Except.bind] at hstart
  | ok server =>
    refine ⟨server, rfl, ?_⟩
    simp only [hserver, bind, Except.bind, orNetworkError] at hstart
    split_ifs at hstart
    exact (Except.ok.inj hstart).symm

/-- Every run of `start` is the run of a handler on a server with the identity of the first one. -/
theorem start_run {sodium : Sodium} {world : StartWorld} {connections : List Connection}
    {runs : List Run} (hstart : start sodium world connections = .ok runs) :
    ∃ server, ∀ (index : ℕ) (run : Run), runs[index]? = some run →
      ∃ (connection : Connection) (before : TrustedServer),
        connections[index]? = some connection ∧ SameIdentity before server ∧
          run = execute connection.environment (handleConnection sodium connection.draws before) 0
            0 := by
  obtain ⟨server, -, hruns⟩ := start_ok hstart
  refine ⟨server, fun index run hrun ↦ serve_run sodium connections index run ?_⟩
  rw [← hruns]
  exact hrun

/-! ### Acceptance of a pair -/

/-- A request and a report take a handler to the acknowledgement, as far as they and the long-term
key pair decide it. -/
def Replayable (sodium : Sodium) (server : KeyPair) (request report : Bytes) : Prop :=
  ∃ message keys plaintext unpaddedLen,
    sodium.boxSealOpen (received request) devPublicKey devSecretKey = some message ∧
      sodium.kxServerSessionKeys server.publicKey server.secretKey
        (decryptedRequest (received request) message).clientPk = some keys ∧
      ReportAccepted sodium keys.1 (requestBuffer (received request) message) report plaintext
        unpaddedLen

/-- Neither the draws of a handler nor the session keys it finds decide whether it acknowledges. -/
theorem acknowledges_iff_replayable {sodium : Sodium} {KxKeypair : Bytes → Bytes → Prop}
    (hroundTrips : sodium.RoundTrips devPublicKey devSecretKey KxKeypair) (draws : HandlerDraws)
    (server : TrustedServer) (request report : Bytes) :
    Acknowledges sodium draws server request report ↔
      Replayable sodium server.server request report := by
  constructor
  · rintro ⟨message, keys, plaintext, unpaddedLen, hrequest, hreport, -⟩
    exact ⟨message, keys, plaintext, unpaddedLen, hrequest.opened, hrequest.keysDerived, hreport⟩
  · rintro ⟨message, keys, plaintext, unpaddedLen, hopened, hkeys, hreport⟩
    obtain ⟨sealed, hsealed, -⟩ := hroundTrips.boxSealOpen_boxSeal draws.sealSeed
      ((decryptedRequest (received request) message).nonce ++ hashBytes ++ server.server.publicKey)
    obtain ⟨boxed, hboxed, -⟩ := hroundTrips.secretboxOpenEasy_secretboxEasy
      (server.ack ++ padding 8) draws.ackNonce keys.2 draws.ackNonce_length
      (sodium.kxServerSessionKeys_length hkeys).2
    exact ⟨message, keys, plaintext, unpaddedLen, ⟨hopened, hkeys, ⟨sealed, hsealed⟩⟩, hreport,
      boxed, hboxed⟩

/-- A handler has sent the acknowledgement. -/
def Acknowledged (run : Run) : Prop := 2 ≤ run.sent.length

instance (run : Run) : Decidable (Acknowledged run) := inferInstanceAs (Decidable (2 ≤ _))

/-- The request and the report a client sends. -/
def Connection.pair (connection : Connection) : Bytes × Bytes :=
  (connection.environment.delivers 0, connection.environment.delivers 1)

/-- The transport takes both messages of the handler. -/
def Connection.Takes (connection : Connection) : Prop :=
  connection.environment.accepts 0 = true ∧ connection.environment.accepts 1 = true

/-- A handler whose messages are taken acknowledges exactly the pairs that the long-term key pair
takes to an acknowledgement. -/
theorem acknowledged_iff_replayable {sodium : Sodium} {KxKeypair : Bytes → Bytes → Prop}
    (hroundTrips : sodium.RoundTrips devPublicKey devSecretKey KxKeypair) {connection : Connection}
    {server : TrustedServer} (htakes : connection.Takes) :
    Acknowledged (execute connection.environment
        (handleConnection sodium connection.draws server) 0 0) ↔
      Replayable sodium server.server connection.pair.1 connection.pair.2 := by
  have htransmits := transmits_handleConnection connection.environment sodium server
    connection.draws
  rw [acknowledges_iff_replayable hroundTrips] at htransmits
  exact htransmits.trans ⟨fun hall ↦ hall.2.2, fun hreplay ↦ ⟨htakes.1, htakes.2, hreplay⟩⟩

/-- In a run of the server no pair of a request and a report is acknowledged in two connections. -/
def NeverAcknowledgedTwice (sodium : Sodium) (world : StartWorld) (connections : List Connection) :
    Prop :=
  ∀ runs, start sodium world connections = .ok runs →
    ∀ (earlier later : ℕ) (first second : Connection) (run run' : Run), earlier < later →
      connections[earlier]? = some first → connections[later]? = some second →
      runs[earlier]? = some run → runs[later]? = some run' → first.pair = second.pair →
        Acknowledged run → ¬ Acknowledged run'

/-- In a run of the server a pair that is acknowledged in one connection is acknowledged in every
other connection that carries it, and a pair that is refused in one is refused in every other, as
long as the transport takes the messages of the handlers. -/
theorem replayed_pair_acknowledged {sodium : Sodium} {KxKeypair : Bytes → Bytes → Prop}
    (hroundTrips : sodium.RoundTrips devPublicKey devSecretKey KxKeypair) {world : StartWorld}
    {connections : List Connection} {runs : List Run}
    (hstart : start sodium world connections = .ok runs) (earlier later : ℕ)
    {first second : Connection} {run run' : Run} (hfirst : connections[earlier]? = some first)
    (hsecond : connections[later]? = some second) (hrun : runs[earlier]? = some run)
    (hrun' : runs[later]? = some run') (hpair : first.pair = second.pair)
    (htakes : first.Takes) (htakes' : second.Takes) : Acknowledged run ↔ Acknowledged run' := by
  obtain ⟨server, hruns⟩ := start_run hstart
  obtain ⟨connection, before, hconnection, hbefore, rfl⟩ := hruns earlier run hrun
  obtain ⟨connection', before', hconnection', hbefore', rfl⟩ := hruns later run' hrun'
  obtain rfl : connection = first := Option.some.inj (hconnection.symm.trans hfirst)
  obtain rfl : connection' = second := Option.some.inj (hconnection'.symm.trans hsecond)
  rw [acknowledged_iff_replayable hroundTrips htakes,
    acknowledged_iff_replayable hroundTrips htakes', hbefore.1, hbefore'.1, hpair]

/-- A connection, and a later one in which an attacker sends the recorded messages again. -/
def recordedAndReplayed : List Connection :=
  [taggedConnection 1 taggedRequest (taggedReport taggedWorld.report),
    taggedConnection 2 taggedRequest (taggedReport taggedWorld.report)]

/-- The handlers of both connections return and have acknowledged. -/
theorem recordedAndReplayed_runs : ∃ run run',
    start tagged taggedStart recordedAndReplayed = .ok [run, run'] ∧ Acknowledged run ∧
      Acknowledged run' := by
  have hlength : (serve tagged taggedServer recordedAndReplayed).length = 2 := by decide +kernel
  obtain ⟨run, run', hruns⟩ := List.length_eq_two.mp hlength
  have hsent : (serve tagged taggedServer recordedAndReplayed).map (fun run ↦ run.sent.length) =
      [2, 2] := by decide +kernel
  rw [hruns] at hsent
  obtain ⟨hfirst, hrest⟩ := List.cons.inj hsent
  obtain ⟨hsecond, -⟩ := List.cons.inj hrest
  refine ⟨run, run', ?_, Nat.le_of_eq hfirst.symm, Nat.le_of_eq hsecond.symm⟩
  rw [← hruns]
  rfl

theorem recorded_pair_acknowledged : ∃ run run',
    start tagged taggedStart recordedAndReplayed = .ok [run, run'] ∧
      (Acknowledged run ↔ Acknowledged run') := by
  obtain ⟨run, run', hstart, -, -⟩ := recordedAndReplayed_runs
  exact ⟨run, run', hstart, replayed_pair_acknowledged
    (tagged_roundTrips devPublicKey devSecretKey) hstart 0 1 rfl rfl rfl rfl rfl ⟨rfl, rfl⟩
    ⟨rfl, rfl⟩⟩

/-- A transcript that is sent again in a later connection is acknowledged again. -/
theorem replayed_transcript_acknowledged :
    ¬ NeverAcknowledgedTwice tagged taggedStart recordedAndReplayed := by
  intro hnever
  obtain ⟨run, run', hstart, hfirst, hsecond⟩ := recordedAndReplayed_runs
  exact hnever _ hstart 0 1 _ _ _ _ Nat.zero_lt_one rfl rfl rfl rfl rfl hfirst hsecond

end Disguise.Provisioning.Provider
