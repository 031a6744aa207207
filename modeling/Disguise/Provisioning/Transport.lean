import Disguise.Process.Stream
import Disguise.Provisioning.HandlerSpec

/-!
# The transport of the messages

How the two sides of the provisioning protocol put a message on the stream socket and take one off
it: `send_buffer`, `send_ra_req`, `recv_buffer` and `wait_for_message` of the host of the enclave
(`host-fpga.cpp`), and the calls of `send` and `recv` in `handleConnection`.

The two senders are written differently. The host calls `send` in a loop until all of a message has
been taken (`SendLoop`). The provider calls it once, and goes on when it has taken any part of the
message (`SendCall`). The receivers are alike: both sides read once, and what the one `read`
returns is the message. So a message can be split in a `read` in either direction and in a `send`
towards the enclave, and `carried_iff` says that these are the only places.

Not modelled: the lines that are printed, `wait_for_resp`, which the enclave does not call, and the
allocation of a buffer that fails.
-/

set_option autoImplicit false
set_option relaxedAutoImplicit false

namespace Disguise.Provisioning.Transport

open Memory Process Process.Direction

/-! ### The host -/

/-- `BUFFER_SIZE`. -/
abbrev hostBufferSize : ℕ := 1024

/-- What a call of `read` comes to. -/
inductive ReadResult where
  | bytes (read : Bytes)
  | closed
  | failed

/-- `recv_buffer`: the buffer, and the value of `len`. There is no buffer when `read` returns no
bytes. `fresh` is the allocated block. -/
def recvBuffer (fresh : Bytes) : ReadResult → Option (Bytes × ℕ)
  | .bytes read => some (overwrite fresh 0 read, read.length)
  | .closed => none
  | .failed => none

/-- `string_copy`. -/
def stringCopy (dest src : Bytes) (n : ℕ) : Bytes :=
  (List.range n).foldl (fun dest i ↦ overwrite dest i (window src i 1)) dest

/-- `wait_for_message`: the bytes of the message. `len` is 0 when `recv_buffer` fails. -/
def waitForMessage (result : ReadResult) : Bytes :=
  match recvBuffer (List.replicate hostBufferSize 0) result with
  | some (m, len) => stringCopy (List.replicate len 0) m len
  | none => []

/-- What a call of `send` returns: the number of bytes it has taken, or a negative value, with
`EINTR` in `errno` or another error. -/
inductive SendResult where
  | count (bytes : ℕ)
  | interrupted
  | failed

/-- The loop of `send_buffer` and `send_ra_req`: the message, `total_sent`, and whether the loop has
been left by a `break`. -/
structure SendLoop where
  data : Bytes
  totalSent : ℕ
  broken : Bool

/-- One turn of the loop. -/
def SendLoop.turn (loop : SendLoop) : SendResult → SendLoop
  | .interrupted => loop
  | .failed => { loop with broken := true }
  | .count sentBytes =>
    if sentBytes = 0 then { loop with broken := true }
    else { loop with totalSent := loop.totalSent + sentBytes }

/-- The bytes the next `send` of the loop is given, while the loop runs. -/
def SendLoop.offers (loop : SendLoop) : Option Bytes :=
  if loop.broken = false ∧ loop.totalSent < loop.data.length then
    some (loop.data.drop loop.totalSent)
  else none

/-- `send_buffer`, at the start of its loop. -/
def sendBuffer (data : Bytes) : SendLoop := ⟨data, 0, false⟩

/-- `send_ra_req`, at the start of its loop. It returns before the loop when the socket cannot be
created, the address cannot be converted, or the connection fails. -/
def sendRaReq (socketCreated addressValid connected : Bool) (data : Bytes) : Option SendLoop :=
  if socketCreated && addressValid && connected then some ⟨data, 0, false⟩ else none

/-- Where `send_ra_req` gets to its loop, the two functions send alike. -/
theorem sendRaReq_eq_some {socketCreated addressValid connected : Bool} {data : Bytes}
    {loop : SendLoop} (hloop : sendRaReq socketCreated addressValid connected data = some loop) :
    loop = sendBuffer data := by
  rw [sendRaReq, Option.ite_none_right_eq_some] at hloop
  exact (Option.some.inj hloop.2).symm

/-- The host as a sender. -/
def hostSender : Sender SendLoop UInt8 where
  start := sendBuffer
  offers := SendLoop.offers
  accepted loop count := loop.turn (.count count)

/-! ### The provider -/

/-- A call of `send` in `handleConnection`: the message, and what the call returned. -/
structure SendCall where
  data : Bytes
  returned : Option SendResult

/-- The bytes the call is given. There is no second call. -/
def SendCall.offers (call : SendCall) : Option Bytes :=
  match call.returned with
  | none => some call.data
  | some _ => none

/-- The provider as a sender. -/
def providerSender : Sender SendCall UInt8 where
  start data := ⟨data, none⟩
  offers := SendCall.offers
  accepted call count := { call with returned := some (.count count) }

/-! ### The two directions -/

/-- The direction from the enclave to the provider. What the provider takes for a message is what
`recv` has put into its buffer. -/
def toProvider : Direction SendLoop UInt8 → Event UInt8 → Option (Direction SendLoop UInt8) :=
  step hostSender Provider.received Provider.bufferSize

/-- The direction from the provider to the enclave. -/
def toEnclave : Direction SendCall UInt8 → Event UInt8 → Option (Direction SendCall UInt8) :=
  step providerSender (fun bytes ↦ waitForMessage (.bytes bytes)) hostBufferSize

/-- A `read` returns as many bytes as the oldest message that has not been taken has. -/
def ReadsWhole {σ : Type} (direction : Direction σ UInt8) : Event UInt8 → Prop
  | .pass _ => True
  | .send _ => True
  | .read count => direction.next?.map List.length = some count

/-- In addition a `send` takes all bytes it is given. -/
def SendsAndReadsWhole (direction : Direction SendCall UInt8) : Event UInt8 → Prop
  | .pass _ => True
  | .send count => (providerSender.rest direction.sending).length = count
  | .read count => direction.next?.map List.length = some count

/-! ### What the code does with a message -/

/-- The bytes copied one by one are the bytes of the source.

Assumes: the copy stays inside both blocks. -/
theorem stringCopy_eq (dest src : Bytes) {n : ℕ} (hdest : n ≤ dest.length)
    (hsrc : n ≤ src.length) : stringCopy dest src n = src.take n ++ dest.drop n := by
  induction n with
  | zero => simp [stringCopy]
  | succ n ih =>
    have hprevious := ih (by omega) (by omega)
    rw [stringCopy] at hprevious ⊢
    have hfront : (src.take n).length = n := by
      rw [List.length_take, Nat.min_eq_left (by omega)]
    have hcell : (window src n 1).length = 1 := length_window (by omega)
    have hwrite := overwrite_append (src.take n) (dest.drop n) (window src n 1)
    rw [hfront, hcell, List.drop_drop] at hwrite
    rw [List.range_succ, List.foldl_append, hprevious, List.foldl_cons, List.foldl_nil, hwrite,
      window, ← List.take_add]

/-- `wait_for_message` takes what `read` returned. -/
theorem waitForMessage_eq {bytes : Bytes} (hlength : bytes.length ≤ hostBufferSize) :
    waitForMessage (.bytes bytes) = bytes := by
  have hbuffer : (overwrite (List.replicate hostBufferSize 0) 0 bytes).length = hostBufferSize := by
    rw [length_overwrite (by rw [List.length_replicate]; omega), List.length_replicate]
  rw [waitForMessage, recvBuffer]
  dsimp only
  rw [stringCopy_eq _ _ (by rw [List.length_replicate]) (by omega), overwrite_zero, List.take_left,
    List.drop_of_length_le (by rw [List.length_replicate]), List.append_nil]

/-- The loop means to send what it has not sent. -/
theorem rest_sendLoop (data : Bytes) (totalSent : ℕ) :
    hostSender.rest (some ⟨data, totalSent, false⟩) = data.drop totalSent := by
  by_cases hrunning : totalSent < data.length
  · simp [Sender.rest, hostSender, SendLoop.offers, hrunning]
  · simp only [Sender.rest, hostSender, SendLoop.offers, hrunning, Option.bind_some, and_false,
      if_false, Option.getD_none]
    exact (List.drop_of_length_le (by omega)).symm

/-- A loop that has been left sends nothing more. -/
theorem rest_of_broken (data : Bytes) (totalSent : ℕ) :
    hostSender.rest (some ⟨data, totalSent, true⟩) = [] := by
  simp [Sender.rest, hostSender, SendLoop.offers]

/-- The loop goes on with what a `send` has not taken.

Assumes: the `send` has taken something, if it was given anything. -/
theorem rest_hostSender_accepted (loop : SendLoop) {count : ℕ}
    (hpositive : hostSender.rest (some loop) ≠ [] → 0 < count) :
    hostSender.rest (some (hostSender.accepted loop count)) =
      (hostSender.rest (some loop)).drop count := by
  obtain ⟨data, totalSent, broken⟩ := loop
  have haccepted : hostSender.accepted ⟨data, totalSent, broken⟩ count =
      if count = 0 then ⟨data, totalSent, true⟩ else ⟨data, totalSent + count, broken⟩ := rfl
  rw [haccepted]
  by_cases hcount : count = 0
  · have hnothing : hostSender.rest (some ⟨data, totalSent, broken⟩) = [] :=
      Classical.not_not.mp fun hsome ↦ absurd hcount (hpositive hsome).ne'
    rw [if_pos hcount, rest_of_broken, hnothing, List.drop_nil]
  · rw [if_neg hcount]
    cases broken with
    | true => rw [rest_of_broken, rest_of_broken, List.drop_nil]
    | false => rw [rest_sendLoop, rest_sendLoop, List.drop_drop]

/-- The host starts with its whole message. -/
theorem rest_hostSender_start (message : Bytes) :
    hostSender.rest (some (hostSender.start message)) = message :=
  (rest_sendLoop message 0).trans List.drop_zero

/-- The provider does not go on after its call. -/
theorem rest_providerSender_accepted (call : SendCall) (count : ℕ) :
    providerSender.rest (some (providerSender.accepted call count)) = [] := rfl

/-! ### Exactly when messages arrive whole -/

/-- Towards the provider a message is split in a `read` only. -/
theorem whole_toProvider_iff {direction after : Direction SendLoop UInt8} {event : Event UInt8}
    (hstep : toProvider direction event = some after) :
    Whole hostSender direction event ↔ ReadsWhole direction event := by
  cases event with
  | pass message => exact Iff.rfl
  | read count => exact Iff.rfl
  | send count =>
    obtain ⟨state, hstate, -, hpositive, -⟩ := step_send hstep
    refine iff_of_true (fun state' hstate' ↦ ?_) trivial
    rw [hstate'] at hpositive ⊢
    exact rest_hostSender_accepted state' hpositive

/-- Towards the enclave a message is split in a `send` or in a `read`. -/
theorem whole_toEnclave_iff {direction after : Direction SendCall UInt8} {event : Event UInt8}
    (hstep : toEnclave direction event = some after) :
    Whole providerSender direction event ↔ SendsAndReadsWhole direction event := by
  cases event with
  | pass message => exact Iff.rfl
  | read count => exact Iff.rfl
  | send count =>
    obtain ⟨state, hstate, hcount, -, -⟩ := step_send hstep
    rw [Whole, SendsAndReadsWhole]
    constructor
    · intro hwhole
      have hnothing := hwhole state hstate
      rw [rest_providerSender_accepted, eq_comm, List.drop_eq_nil_iff] at hnothing
      omega
    · intro hall state' hstate'
      rw [rest_providerSender_accepted, List.drop_of_length_le (by omega)]

theorem carried_toProvider_iff (events : List (Event UInt8)) :
    Throughout toProvider (Carried hostSender) idle events ↔
      EachStep toProvider ReadsWhole idle events := by
  refine throughout_iff_eachStep (fun direction event after hcarried hstep ↦ ?_)
    (carried_idle hostSender) events
  refine Iff.trans ?_ (whole_toProvider_iff hstep)
  exact carried_step_iff rest_hostSender_start
    (fun cells hcells ↦ Provider.received_eq hcells) event hcarried hstep

theorem carried_toEnclave_iff (events : List (Event UInt8)) :
    Throughout toEnclave (Carried providerSender) idle events ↔
      EachStep toEnclave SendsAndReadsWhole idle events := by
  refine throughout_iff_eachStep (fun direction event after hcarried hstep ↦ ?_)
    (carried_idle providerSender) events
  refine Iff.trans ?_ (whole_toEnclave_iff hstep)
  exact carried_step_iff (fun message ↦ rfl) (fun cells hcells ↦ waitForMessage_eq hcells) event
    hcarried hstep

/-- The provider gets every message however the host's sends are split.

Assumes: every `recv` returns as many bytes as the next message has, no empty message was passed,
and nothing is on its way any more. -/
theorem taken_eq_passed_toProvider {events : List (Event UInt8)}
    {last : Direction SendLoop UInt8} (hreads : EachStep toProvider ReadsWhole idle events)
    (hlast : events.foldlM toProvider idle = some last) (hflight : last.inFlight = [])
    (hsent : hostSender.rest last.sending = [])
    (hnonempty : ∀ message ∈ last.passed, message ≠ []) : last.taken = last.passed := by
  have hcarried := ((carried_toProvider_iff events).mpr hreads).last hlast
  exact hcarried.taken_eq hflight hsent hnonempty

/-- Messages arrive whole exactly when the stream splits nothing where the code makes a single call.
In a run towards the provider every message taken is the one passed, and none is lost, exactly when
every `read` returns as many bytes as the next message has. In a run towards the enclave it is
exactly when in addition every `send` takes all it is given. -/
theorem carried_iff (events : List (Event UInt8)) :
    (Throughout toProvider (Carried hostSender) idle events ↔
        EachStep toProvider ReadsWhole idle events) ∧
      (Throughout toEnclave (Carried providerSender) idle events ↔
        EachStep toEnclave SendsAndReadsWhole idle events) :=
  ⟨carried_toProvider_iff events, carried_toEnclave_iff events⟩

/-- A request of which `recv` returns the first 50 bytes. -/
def splitRequest : List (Event UInt8) :=
  [.pass (List.replicate 104 1), .send 104, .read 50]

/-- An acknowledgement of which `send` takes the first 50 bytes. -/
def splitAck : List (Event UInt8) :=
  [.pass (List.replicate 72 1), .send 50, .read 50]

/-- The first 50 bytes of a message are taken for the message, in either direction. -/
theorem prefix_taken :
    ¬ Throughout toProvider (Carried hostSender) idle splitRequest ∧
      ¬ Throughout toEnclave (Carried providerSender) idle splitAck := by
  have hrequest : ((splitRequest.foldlM toProvider idle).any
      fun last ↦ ¬ last.taken <+: last.passed) = true := by decide +kernel
  have hack : ((splitAck.foldlM toEnclave idle).any
      fun last ↦ ¬ last.taken <+: last.passed) = true := by decide +kernel
  constructor
  · intro hrun
    obtain ⟨last, hlast, hsplit⟩ := (Option.any_eq_true _ _).mp hrequest
    exact of_decide_eq_true hsplit (hrun.last hlast).taken_in_order
  · intro hrun
    obtain ⟨last, hlast, hsplit⟩ := (Option.any_eq_true _ _).mp hack
    exact of_decide_eq_true hsplit (hrun.last hlast).taken_in_order

end Disguise.Provisioning.Transport
