import Disguise.Provisioning.Transport

/-!
# The send loops of the host

`send_buffer` and `send_ra_req` of `host-fpga.cpp` call `send` until all of a message has been taken
or a call fails. `Sending` is such a loop together with the bytes the socket has taken from it, and
`Sending.call` is one call of `send`: the socket takes some of the bytes it is given, or none, or
the call is interrupted or fails.

What the socket has taken is at every point the part of the message in front of `total_sent`
(`handsPrefix_call` for one call, `sendLoops_hand_over_in_order` for every sequence of calls). So
nothing is skipped or sent twice, and the loop reports that everything was sent exactly if it was.

The loops are those of `Transport`, where the stream may split what they send and no call fails.
-/

set_option autoImplicit false
set_option relaxedAutoImplicit false

namespace Disguise.Provisioning.Transport

open Process

/-- What is printed after the loop. -/
inductive Report where
  | sentAll (totalSent : ℕ)
  | onlySent (totalSent len : ℕ)
  deriving DecidableEq, Repr

/-- The report of a loop that has ended. -/
def SendLoop.report (loop : SendLoop) : Option Report :=
  if loop.offers.isSome then none
  else if loop.totalSent = loop.data.length then some (.sentAll loop.totalSent)
  else some (.onlySent loop.totalSent loop.data.length)

/-- The number of bytes a call has taken. -/
def SendResult.taken : SendResult → ℕ
  | .count bytes => bytes
  | .interrupted => 0
  | .failed => 0

/-- A loop and the bytes the socket has taken from it. -/
structure Sending where
  loop : SendLoop
  handed : Bytes

/-- A call of `send`, while the loop runs. It takes at most the bytes it is given. -/
def Sending.call (sending : Sending) (result : SendResult) : Option Sending := do
  let offered ← sending.loop.offers
  if result.taken ≤ offered.length then
    some { loop := sending.loop.turn result
           handed := sending.handed ++ offered.take result.taken }
  else
    none

/-- The socket has taken the part of the message in front of `total_sent`, which is not longer than
the message, and it is reported that everything was sent exactly if the socket has taken all of the
message. -/
structure HandsPrefix (data : Bytes) (sending : Sending) : Prop where
  same_data : sending.loop.data = data
  handed_eq : sending.handed = data.take sending.loop.totalSent
  totalSent_le : sending.loop.totalSent ≤ data.length
  reported_iff : sending.loop.report = some (.sentAll data.length) ↔ sending.handed = data

section Calls

variable {data : Bytes} {sending after : Sending} {result : SendResult}

theorem offers_eq_some {loop : SendLoop} {offered : Bytes} (hoffers : loop.offers = some offered) :
    loop.broken = false ∧ loop.totalSent < loop.data.length ∧
      offered = loop.data.drop loop.totalSent := by
  rw [SendLoop.offers, Option.ite_none_right_eq_some] at hoffers
  exact ⟨hoffers.1.1, hoffers.1.2, (Option.some.inj hoffers.2).symm⟩

/-- A turn of the loop counts what the call has taken. -/
theorem turn_counts (loop : SendLoop) (result : SendResult) :
    (loop.turn result).data = loop.data ∧
      (loop.turn result).totalSent = loop.totalSent + result.taken := by
  cases result with
  | count bytes =>
    by_cases hnone : bytes = 0
    · rw [SendLoop.turn, if_pos hnone, hnone]
      exact ⟨rfl, rfl⟩
    · rw [SendLoop.turn, if_neg hnone]
      exact ⟨rfl, rfl⟩
  | interrupted => exact ⟨rfl, rfl⟩
  | failed => exact ⟨rfl, rfl⟩

/-- Everything a call does. -/
theorem call_eq_some (hcall : sending.call result = some after) :
    result.taken ≤ sending.loop.data.length - sending.loop.totalSent ∧
      sending.loop.totalSent < sending.loop.data.length ∧
      after.loop = sending.loop.turn result ∧
      after.handed =
        sending.handed ++ (sending.loop.data.drop sending.loop.totalSent).take result.taken := by
  simp only [Sending.call, Option.bind_eq_bind, Option.bind_eq_some_iff,
    Option.ite_none_right_eq_some, Option.some.injEq] at hcall
  obtain ⟨offered, hoffers, htaken, rfl⟩ := hcall
  obtain ⟨-, hrunning, rfl⟩ := offers_eq_some hoffers
  rw [List.length_drop] at htaken
  exact ⟨htaken, hrunning, rfl, rfl⟩

/-- Everything is reported as sent exactly if it is counted as sent. -/
theorem report_eq_sentAll_iff (loop : SendLoop) :
    loop.report = some (.sentAll loop.data.length) ↔ loop.totalSent = loop.data.length := by
  rw [SendLoop.report]
  cases hoffers : loop.offers with
  | none =>
    by_cases hall : loop.totalSent = loop.data.length
    · simp [hall]
    · simp [hall]
  | some offered =>
    obtain ⟨-, hrunning, -⟩ := offers_eq_some hoffers
    exact iff_of_false (by simp) (by omega)

/-- A loop whose count is right reports that everything was sent exactly if it was. -/
theorem handsPrefix_of_handed_eq (hdata : sending.loop.data = data)
    (hhanded : sending.handed = data.take sending.loop.totalSent)
    (hle : sending.loop.totalSent ≤ data.length) : HandsPrefix data sending := by
  refine ⟨hdata, hhanded, hle, ?_⟩
  subst hdata
  rw [report_eq_sentAll_iff, hhanded, List.take_eq_self_iff]
  omega

/-- At the start of its loop nothing has been taken. -/
theorem handsPrefix_sendBuffer (data : Bytes) : HandsPrefix data ⟨sendBuffer data, []⟩ :=
  handsPrefix_of_handed_eq rfl List.take_zero.symm (Nat.zero_le _)

/-- Every call, whatever its outcome, hands over the bytes behind those handed over before. -/
theorem handsPrefix_call (hhands : HandsPrefix data sending)
    (hcall : sending.call result = some after) : HandsPrefix data after := by
  obtain ⟨rfl, hhanded, hle, -⟩ := hhands
  obtain ⟨htaken, hrunning, hloop, hafter⟩ := call_eq_some hcall
  obtain ⟨hdata, htotal⟩ := turn_counts sending.loop result
  rw [← hloop] at hdata htotal
  refine handsPrefix_of_handed_eq hdata ?_ (by omega)
  rw [hafter, hhanded, htotal, List.take_add]

/-- What the socket has taken, and what the loop still means to send, are the message.

Assumes: no call has failed. -/
theorem handed_append_rest (hhands : HandsPrefix data sending)
    (hrunning : sending.loop.broken = false) :
    sending.handed ++ hostSender.rest (some sending.loop) = data := by
  obtain ⟨⟨message, totalSent, broken⟩, handed⟩ := sending
  obtain ⟨rfl, hhanded, -, -⟩ := hhands
  obtain rfl : broken = false := hrunning
  rw [rest_sendLoop, hhanded, List.take_append_drop]

end Calls

/-- In every run of either loop, whatever its calls of `send` come to, the socket has at every point
taken the part of the message in front of `total_sent`, and the loop reports that everything was
sent exactly if the socket has taken all of the message. -/
theorem sendLoops_hand_over_in_order {data : Bytes} {loop : SendLoop}
    (hloop : loop = sendBuffer data ∨ ∃ socketCreated addressValid connected,
      sendRaReq socketCreated addressValid connected data = some loop)
    (results : List SendResult) :
    Throughout Sending.call (HandsPrefix data) ⟨loop, []⟩ results := by
  have hstart : loop = sendBuffer data := by
    rcases hloop with hbuffer | ⟨socketCreated, addressValid, connected, hrequest⟩
    · exact hbuffer
    · exact sendRaReq_eq_some hrequest
  rw [hstart]
  exact throughout_of_preserved (fun sending result after ↦ handsPrefix_call)
    (handsPrefix_sendBuffer data) results

/-- A request that is taken in two parts, with an interrupted call between them. -/
theorem sendLoops_hand_over_in_order_split :
    Throughout Sending.call (HandsPrefix [1, 2, 3]) ⟨⟨[1, 2, 3], 0, false⟩, []⟩
      [.count 2, .interrupted, .count 1] :=
  sendLoops_hand_over_in_order (Or.inr ⟨true, true, true, rfl⟩) _

end Disguise.Provisioning.Transport
