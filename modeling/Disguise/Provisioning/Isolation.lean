import Disguise.Provisioning.Replay

/-!
# Connections in isolation

The session keys are members of the server and outlive the connection they were derived in. A
handler that is given a server with keys of an earlier connection in it does not use them:
`generateSessionKey` overwrites both, or throws, before anything reads them, so the handler is the
same process from there on, and up to there it differs only in the members an exception leaves
behind (`handleConnection_alike`).

`connection_isolated` says this of the accept loop. Whatever connections a server has served before,
the next one exchanges the same bytes and ends the same way, and no connection changes the long-term
key pair or the acknowledgement.

Scope. A history ends with a handler that leaves its buffer, since there is no server after it.
What a connection is given is the environment of its client and what its handler draws.
-/

set_option autoImplicit false
set_option relaxedAutoImplicit false

namespace Disguise.Provisioning.Provider

open Memory Process Process.Proc

/-! ### Handlers of servers with different session keys -/

/-- Two handlers stop the same way: with the same exception, or outside the buffer. -/
inductive SameStop : Stop → Stop → Prop
  | threw (exception : Exception) {server server' : TrustedServer}
      (hidentity : SameIdentity server server') :
      SameStop (.threw exception server) (.threw exception server')
  | outOfBounds : SameStop .outOfBounds .outOfBounds

/-- Every handler stops the same way as itself. -/
theorem sameStop_refl (stop : Stop) : SameStop stop stop := by
  cases stop with
  | threw exception server => exact .threw exception ⟨rfl, rfl⟩
  | outOfBounds => exact .outOfBounds

section Alike

variable (sodium : Sodium) {server server' : TrustedServer}

/-- The request does not depend on the session keys. -/
theorem receiveRequest_alike (hidentity : SameIdentity server server') :
    Alike SameStop Eq (receiveRequest sodium server) (receiveRequest sodium server') := by
  have hbounds : SameStop Fault.outOfBounds Fault.outOfBounds := .outOfBounds
  have hthrew : ∀ exception, SameStop (.threw exception server) (.threw exception server') :=
    fun exception ↦ .threw exception hidentity
  simp only [receiveRequest, recvBytes, sequence_assoc, alike_receive, alike_require, alike_load,
    alike_store, alike_observe, alike_orFail, alike_done, pure_eq, done_bind, hbounds, hthrew,
    implies_true, and_true]

/-- The derivation of the session keys leaves the same server, whatever keys it found. -/
theorem generateSessionKey_alike (clientPk : Bytes) (hidentity : SameIdentity server server') :
    Alike SameStop Eq (generateSessionKey sodium server clientPk)
      (generateSessionKey sodium server' clientPk) := by
  obtain ⟨hserver, hack⟩ := hidentity
  have hthrew : ∀ exception, SameStop (.threw exception server) (.threw exception server') :=
    fun exception ↦ .threw exception ⟨hserver, hack⟩
  rw [generateSessionKey, generateSessionKey, hserver, alike_orFail]
  refine ⟨fun _ ↦ hthrew _, fun keys _ ↦ ?_⟩
  obtain ⟨rx, tx⟩ := keys
  refine .done ?_
  rw [TrustedServer.mk.injEq]
  exact ⟨rfl, rfl, rfl, hack⟩

/-- Two handlers with the same draws behave alike when their servers have the same identity. One
that returns returns the same. -/
theorem handleConnection_alike (draws : HandlerDraws) (hidentity : SameIdentity server server') :
    Alike SameStop Eq (handleConnection sodium draws server)
      (handleConnection sodium draws server') := by
  refine (receiveRequest_alike sodium hidentity).bind fun request request' hrequest ↦ ?_
  subst hrequest
  have hkeys := generateSessionKey_alike sodium request.clientPk hidentity
  refine hkeys.bind fun after after' hafter ↦ ?_
  -- From here on both handlers are the same process.
  subst hafter
  exact alike_refl sameStop_refl (fun _ ↦ rfl) _

end Alike

/-! ### The accept loop -/

/-- Two handlers send the same bytes, make the same observations, wait as often as each other, and
end the same way. -/
abbrev SameRun (run run' : Run) : Prop := ExecutionAlike SameStop Eq run run'

/-- The run of the handler of a connection. -/
def handlerRun (sodium : Sodium) (connection : Connection) (server : TrustedServer) : Run :=
  execute connection.environment (handleConnection sodium connection.draws server) 0 0

/-- The handlers of a connection have the same run on servers of the same identity. -/
theorem handlerRun_alike (sodium : Sodium) (connection : Connection)
    {server server' : TrustedServer} (hidentity : SameIdentity server server') :
    SameRun (handlerRun sodium connection server) (handlerRun sodium connection server') :=
  (handleConnection_alike sodium connection.draws hidentity).execution connection.environment 0 0

/-- The last run of a history with one more connection is that of its handler, on a server with the
identity of the first. -/
theorem serve_last {sodium : Sodium} {server : TrustedServer} {history : List Connection}
    {connection : Connection} {run : Run}
    (hrun : (serve sodium server (history ++ [connection]))[history.length]? = some run) :
    ∃ before, SameIdentity before server ∧ run = handlerRun sodium connection before := by
  obtain ⟨last, before, hlast, hbefore, rfl⟩ := serve_run sodium _ _ run hrun
  rw [List.getElem?_concat_length] at hlast
  rw [← Option.some.inj hlast]
  exact ⟨before, hbefore, rfl⟩

/-- Connections do not affect each other. The handler of a connection has the same run behind any
two histories that it is reached by, and the same as on a server with any session keys left in it.
No handler of a history changes the long-term key pair or the acknowledgement.

Assumes: both histories get to the connection. -/
theorem connection_isolated (sodium : Sodium) (server : TrustedServer)
    {history history' : List Connection} (connection : Connection) {run run' : Run}
    (hrun : (serve sodium server (history ++ [connection]))[history.length]? = some run)
    (hrun' : (serve sodium server (history' ++ [connection]))[history'.length]? = some run') :
    SameRun run run' ∧
      (∀ sessionRx sessionTx,
        SameRun run (handlerRun sodium connection { server with sessionRx, sessionTx })) ∧
      ∀ earlier ∈ serve sodium server (history ++ [connection]), ∀ after,
        serverAfter earlier = some after → SameIdentity after server := by
  obtain ⟨before, hbefore, rfl⟩ := serve_last hrun
  obtain ⟨before', hbefore', rfl⟩ := serve_last hrun'
  refine ⟨handlerRun_alike sodium connection ?_, fun sessionRx sessionTx ↦
    handlerRun_alike sodium connection hbefore, fun earlier hearlier after hafter ↦ ?_⟩
  · exact ⟨hbefore.1.trans hbefore'.1.symm, hbefore.2.trans hbefore'.2.symm⟩
  · obtain ⟨index, hindex⟩ := List.mem_iff_getElem?.mp hearlier
    obtain ⟨served, found, -, hfound, rfl⟩ := serve_run sodium _ index earlier hindex
    have hidentity := serverAfter_identity sodium hafter
    exact ⟨hidentity.1.trans hfound.1, hidentity.2.trans hfound.2⟩

/-- An aborted connection and an honest one. -/
def abortedAndHonest : List Connection :=
  [taggedConnection 1 [] [],
    taggedConnection 1 taggedRequest (taggedReport taggedWorld.report)]

/-- A later connection of an honest client. -/
def laterConnection : Connection :=
  taggedConnection 2 taggedRequest (taggedReport taggedWorld.report)

theorem connection_isolated_aborted : ∃ run run',
    (serve tagged taggedServer ([] ++ [laterConnection]))[0]? = some run ∧
      (serve tagged taggedServer (abortedAndHonest ++ [laterConnection]))[2]? = some run' ∧
      SameRun run run' := by
  have hfirst : (serve tagged taggedServer ([] ++ [laterConnection]))[0]?.isSome = true := by
    decide +kernel
  have hlater : (serve tagged taggedServer (abortedAndHonest ++ [laterConnection]))[2]?.isSome =
      true := by decide +kernel
  obtain ⟨run, hrun⟩ := Option.isSome_iff_exists.mp hfirst
  obtain ⟨run', hrun'⟩ := Option.isSome_iff_exists.mp hlater
  exact ⟨run, run', hrun, hrun',
    (connection_isolated tagged taggedServer laterConnection hrun hrun').1⟩

end Disguise.Provisioning.Provider
