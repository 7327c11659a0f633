import SsnIpc.Framework.Service
import SsnIpc.Server.Answers

/-!
# What a service responds, and what a caller makes of it

`SsnService::handleRpc` parses the request and calls the handler inside of `try`, but writes out
the result behind it. `SsnClient::callJson` does not look at the status of the reply, only at the
field `error.message` of its body.

**Theorem (`answeredOnce_iff`).** A request gets exactly one response, and no exception leaves
`handleRpc`, if and only if the handler, should it be called and return, returns valid UTF-8.

**Theorem (`truthful_iff`).** A call returns, and true only if the status of the reply is 0, if and
only if `error.message` is a string if it is there, and it is there and not empty if the status is
not 0.

The errors of the framework are told this way (`result_of_failed`), those of the server under it are
not: its replies have no body.
-/

namespace Ssn

open ByteMem

/-! ## The service -/

namespace RpcEnd

variable {codec : JsonCodec} {id : UInt32} {seqno : UInt16}

/-- There is one response, with the client and the sequence number of the request, and no
exception. -/
def AnsweredOnce (id : UInt32) (seqno : UInt16) (e : RpcEnd) : Prop :=
  e.threw = false ∧ ∃ status body, e.responses = [⟨id, status, seqno, body⟩]

theorem answeredOnce_respond {status : UInt32} {reply : Json} :
    (respond codec id seqno status reply).AnsweredOnce id seqno ↔ reply.utf8 = true := by
  rw [respond, ← codec.isSome_dump]
  cases codec.dump reply with
  | none => exact ⟨fun h => h.1.symm, fun h => absurd h Bool.false_ne_true⟩
  | some body => exact ⟨fun _ => rfl, fun _ => ⟨rfl, status, body, rfl⟩⟩

end RpcEnd

/-- **One response to each request.** -/
theorem answeredOnce_iff {κ : Type*} (codec : JsonCodec) (s : Service κ) (id : UInt32) (f : Frame)
    (call : κ → Json → HandlerEnd) :
    (s.handleRpc codec id f call).2.AnsweredOnce id (getSeqno f) ↔
      ∀ result ∈ s.returned codec f call, result.utf8 = true := by
  rw [Service.handleRpc_eq]
  exact RpcEnd.answeredOnce_respond.trans (Service.utf8_refAnswer s f call)

/-- A service with a method `/a`. -/
def serviceA : Service Unit := (Service.create.registerJson [slash, 0x61] (some ())).1

/-- The handler of `/a` returns a string that is not UTF-8: there is no response, and an exception
leaves `handleRpc`. -/
theorem badString_unanswered :
    ¬(serviceA.handleRpc strictCodec 0 requestA returnsBadString).2.AnsweredOnce 0
        (getSeqno requestA) ∧
      (serviceA.handleRpc strictCodec 0 requestA returnsBadString).2 = ⟨[], true⟩ := by
  have hend : (serviceA.handleRpc strictCodec 0 requestA returnsBadString).2 = ⟨[], true⟩ := by rfl
  refine ⟨fun h => ?_, hend⟩
  rw [hend] at h
  cases h.1

/-! ## The caller -/

/-- `error.message` of a reply. -/
def Json.errorMessage (resp : Json) : Option Json :=
  (resp.field (literal "error")).bind (field (literal "message"))

namespace JsonClient

/-- A call whose request is sent and answered, with nothing else under way. -/
def answeredCall (parse : Bytes → Option Json) (s : JsonClient) (f : Frame) (deadline : Bool) :
    JsonClient :=
  Runs.run (step parse) s [.callJson, .rpcCall true, .callback s.sent (some f), .check deadline]

theorem done_answeredCall {parse : Bytes → Option Json} {s : JsonClient}
    (hconn : s.connected = true) (hidle : s.call = .idle) (f : Frame) (deadline : Bool) :
    (s.answeredCall parse f deadline).done =
      s.done ++ [⟨some s.sent, some (some f), resultOf (replyJson parse f)⟩] := by
  simp [answeredCall, Runs.run, step, callJson, rpcCall, callback, handleReply, check, finish,
    hconn, hidle]

end JsonClient

/-- A call returns, and true only if the status of the reply is 0. -/
def CallResult.Truthful (f : Frame) : CallResult → Prop
  | .returned ok _ => ok = true → getStatus f = 0
  | .threw _ => False
  | .refused | .timedOut => True

/-- The body of a reply tells whether the request failed. -/
structure TellsStatus (f : Frame) (resp : Json) : Prop where
  string : ∀ m ∈ resp.errorMessage, ∃ s, m = .string s
  failed : getStatus f ≠ 0 → ∃ s, resp.errorMessage = some (.string s) ∧ s ≠ []

theorem truthful_resultOf {f : Frame} {resp : Json} :
    (resultOf resp).Truthful f ↔ TellsStatus f resp := by
  have hmessage : (resp.field (literal "error")).bind (Json.field (literal "message")) =
      resp.errorMessage := rfl
  rw [resultOf, Json.errorMessageOf, hmessage]
  rcases herr : resp.errorMessage with _ | m
  · -- Without a message the call returns true.
    refine ⟨fun h => ⟨by simp [herr], fun hfail => absurd (h rfl) hfail⟩, fun h _ => ?_⟩
    by_contra hfail
    obtain ⟨s, hs, -⟩ := h.failed hfail
    cases herr.symm.trans hs
  · cases m with
    | string s =>
      refine ⟨fun h => ⟨by simp [herr], fun hfail => ⟨s, herr, ?_⟩⟩, fun h hok => ?_⟩
      · rintro rfl
        exact hfail (h rfl)
      · by_contra hfail
        obtain ⟨s', hs', hne⟩ := h.failed hfail
        obtain rfl := Json.string.inj (Option.some.inj (herr.symm.trans hs'))
        exact hne (of_decide_eq_true hok)
    | _ =>
      refine ⟨False.elim, fun h => ?_⟩
      obtain ⟨s, hs⟩ := h.string _ herr
      cases hs

/-- A call that gets the reply `f` returns, and true only if the status of `f` is 0. -/
def JsonClient.TruthfulCall (parse : Bytes → Option Json) (s : JsonClient) (f : Frame)
    (deadline : Bool) : Prop :=
  ∃ result, (s.answeredCall parse f deadline).done =
    s.done ++ [⟨some s.sent, some (some f), result⟩] ∧ result.Truthful f

theorem JsonClient.truthfulCall_iff {parse : Bytes → Option Json} {s : JsonClient}
    (hconn : s.connected = true) (hidle : s.call = .idle) {f : Frame} {deadline : Bool} :
    s.TruthfulCall parse f deadline ↔ (resultOf (replyJson parse f)).Truthful f := by
  rw [TruthfulCall, done_answeredCall hconn hidle]
  constructor
  · rintro ⟨result, hdone, h⟩
    obtain rfl : resultOf (replyJson parse f) = result :=
      congrArg Finished.result (List.cons.inj (List.append_cancel_left hdone)).1
    exact h
  · exact fun h => ⟨_, rfl, h⟩

/-- **What a call makes of a reply.** -/
theorem truthful_iff (parse : Bytes → Option Json) {s : JsonClient} (hconn : s.connected = true)
    (hidle : s.call = .idle) (f : Frame) (deadline : Bool) :
    s.TruthfulCall parse f deadline ↔ TellsStatus f (replyJson parse f) :=
  (JsonClient.truthfulCall_iff hconn hidle).trans truthful_resultOf

def readyClient : JsonClient := { JsonClient.start with connected := true }

/-- A reply of status 0 without a body. -/
theorem truthful_emptyReply :
    (readyClient.connected = true ∧ readyClient.call = .idle) ∧
      readyClient.TruthfulCall (fun _ => none) (bareFrame MsgType.rpcRequest 0) false :=
  ⟨⟨rfl, rfl⟩, (truthful_iff (fun _ => none) rfl rfl _ false).2
    ⟨fun _ h => (by cases h), fun h => absurd rfl h⟩⟩

/-- The reply of a server without methods to a request for `/a`. -/
def notFoundReply : Frame :=
  ⟨packet MsgType.rpcRequest ecodeNotFound 1 none none, validate_packet sendable_none⟩

/-- The JSON of an error whose message is a number, and its text. -/
def numberMessage : Json :=
  .object [(literal "error", .object [(literal "message", .number "5")])]

def numberText : Bytes := literal "\x7b\"error\":\x7b\"message\":5\x7d\x7d"

theorem validate_numberReply :
    validateAndGetTotalLength
        (packet MsgType.rpcRequest statusOk 1 none (some (Ref.ofBytes numberText))) =
      some (packet MsgType.rpcRequest statusOk 1 none (some (Ref.ofBytes numberText))).length := by
  decide +kernel

def numberReply : Frame :=
  ⟨packet MsgType.rpcRequest statusOk 1 none (some (Ref.ofBytes numberText)), validate_numberReply⟩

/-- The server under the framework says NOT_FOUND in the header only, and the call returns true. A
handler returns an error whose message is a number, and an exception leaves the call. -/
theorem replies_misread :
    (((World.init (.create 0) : World Unit).replyOf true 0 requestA).map Message.packet =
        some notFoundReply.bytes ∧
      ¬ readyClient.TruthfulCall (fun _ => none) notFoundReply false) ∧
      ¬ readyClient.TruthfulCall (fun _ => some numberMessage) numberReply false := by
  refine ⟨⟨by decide +kernel, fun h => ?_⟩, fun h => ?_⟩
  · have hstatus : getStatus notFoundReply = 0 := (JsonClient.truthfulCall_iff rfl rfl).1 h rfl
    exact absurd hstatus (by decide +kernel)
  · have hreply : replyJson (fun _ => some numberMessage) numberReply = numberMessage :=
      if_neg (by decide +kernel)
    have hthrows : resultOf numberMessage = .threw numberMessage := rfl
    rw [JsonClient.truthfulCall_iff rfl rfl, hreply, hthrows] at h
    exact h

/-! ## A service and its caller -/

namespace Service

variable {κ : Type*} {codec : JsonCodec}

/-- A request that fails in the framework is answered with an error of the framework. -/
theorem refAnswer_failed {parse : Bytes → Option Json} {s : Service κ}
    {call : κ → Json → HandlerEnd} {f : Frame} (h : (s.refAnswer parse call f).1 ≠ statusOk) :
    ∃ code message, message ≠ "" ∧ (s.refAnswer parse call f).2 = makeError code message := by
  revert h
  rw [refAnswer]
  cases s.methods.lookup f.url with
  | none => exact fun _ => ⟨_, _, by decide, rfl⟩
  | some handler =>
    dsimp only [answer]
    cases (if f.data = [] then some (.object []) else parse f.data) with
    | none => exact fun _ => ⟨_, _, by decide, rfl⟩
    | some req =>
      dsimp only
      cases s.count.callHandler call handler req with
      | returned result => exact fun h => absurd rfl h
      | threw => exact fun _ => ⟨_, _, by decide, rfl⟩
      | threwOther => exact fun _ => ⟨_, _, by decide, rfl⟩

theorem resultOf_makeError {code : Nat} {message : String} (h : message ≠ "") :
    resultOf (makeError code message) = .returned false (makeError code message) := by
  have hmessage : (makeError code message).errorMessageOf = some (literal message) := rfl
  rw [resultOf, hmessage]
  simp [h]

/-- **The errors of the framework are told.** A call whose request failed in a service returns
false, if the client reads what the service wrote. -/
theorem result_of_failed {s : Service κ} {id : UInt32} {request reply : Frame}
    {call : κ → Json → HandlerEnd} {r : Response}
    (hr : r ∈ (s.handleRpc codec id request call).2.responses) (hfail : r.status ≠ statusOk)
    (hread : ∀ j, codec.dump j = some r.body → replyJson codec.parse reply = j) :
    ∃ resp, resultOf (replyJson codec.parse reply) = .returned false resp := by
  rw [handleRpc_eq, RpcEnd.respond] at hr
  cases hdump : codec.dump (s.refAnswer codec.parse call request).2 with
  | none =>
    rw [hdump] at hr
    cases hr
  | some body =>
    rw [hdump] at hr
    obtain rfl := List.mem_singleton.1 hr
    obtain ⟨code, message, hmessage, herror⟩ := refAnswer_failed hfail
    refine ⟨makeError code message, ?_⟩
    rw [hread _ hdump, herror, resultOf_makeError hmessage]

end Service

end Ssn
