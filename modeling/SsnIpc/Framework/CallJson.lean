import SsnIpc.Frame.RoundTrip
import SsnIpc.Framework.Json
import SsnIpc.Lib.Runs

/-!
# Synchronous calls that share one reply slot

`SsnClient::callJson` of the framework sends a request and waits until the driving thread has put
a reply into the slot `reply_data_` and set `reply_pending_`, or until its time is up. Calls are
made one at a time, but the callback of an earlier request may run at any later time, also while
another call waits, and the slot does not say whose reply it holds.

**Theorem (`ownOutcome_of_alone`).** A call returns the reply to its own request if that was
recorded in time, and times out otherwise, provided that no reply to an earlier request arrives
while it runs, and that no callback without a reply comes in from an earlier request while its own
reply lies in the slot.

The header warns of the first case. The second is the same slot seen from the other side: the
callback of a request that got no reply takes away the reply to the next one
(`late_callbacks_interfere`).
-/

namespace Ssn

open ByteMem

/-! ## Replies -/

/-- `error_message_of`: empty if the reply is not an error, and `none` if the message is not a
string, so that `get<std::string>` throws. -/
def Json.errorMessageOf (resp : Json) : Option Bytes :=
  match (resp.field (literal "error")).bind (field (literal "message")) with
  | none => some []
  | some (.string s) => some s
  | some _ => none

inductive CallResult
  /-- Not connected, or the request could not be sent: false. -/
  | refused
  /-- No reply in time: false. -/
  | timedOut
  /-- The reply, and false if it is an error of the framework. -/
  | returned (ok : Bool) (resp : Json)
  /-- The reply, and an exception. -/
  | threw (resp : Json)

/-- The end of `callJson`, with a reply. -/
def resultOf (resp : Json) : CallResult :=
  match resp.errorMessageOf with
  | none => .threw resp
  | some err => .returned (err = []) resp

section

variable (parse : Bytes → Option Json)

/-- The reply as `handleReply` keeps it: an empty object if there is no data, or if it cannot be
parsed. -/
def replyJson (f : Frame) : Json :=
  if f.data = [] then .object [] else (parse f.data).getD (.object [])

/-! ## The client and its driving thread -/

inductive CallPc
  | idle
  /-- `reply_pending_` is false; the request is to be sent. -/
  | cleared
  /-- In `wait_for`, for request `r`. -/
  | waiting (r : Nat)
  deriving DecidableEq

/-- A call that is over: its request if one was sent, what the callback of that request brought by
then, if it had run, and the result. -/
structure Finished where
  request : Option Nat
  own : Option (Option Frame)
  result : CallResult

/-- `SsnClient` of the framework. Requests are numbered as they are sent; `unanswered` are those
whose callback has not run, and `own` is what the callback of the call under way brought. -/
structure JsonClient where
  connected : Bool
  replyPending : Bool
  replyData : Json
  sent : Nat
  unanswered : List Nat
  call : CallPc
  own : Option (Option Frame)
  done : List Finished

inductive CallEvent
  | connect
  | disconnect
  /-- `callJson` up to the request. -/
  | callJson
  /-- `ssn_node_rpc_call`. -/
  | rpcCall (ok : Bool)
  /-- `wait_for` looks at the flag, for the last time if the deadline has passed. -/
  | check (deadline : Bool)
  /-- The callback of a request runs, with a reply or without. -/
  | callback (r : Nat) (reply : Option Frame)

namespace JsonClient

def start : JsonClient := ⟨false, false, .null, 0, [], .idle, none, []⟩

def finish (s : JsonClient) (request : Option Nat) (result : CallResult) : JsonClient :=
  { s with call := .idle, done := s.done ++ [⟨request, s.own, result⟩] }

/-- `handleReply`. -/
def handleReply (s : JsonClient) : Option Frame → JsonClient
  | none => { s with replyPending := false }
  | some f => { s with replyPending := true, replyData := replyJson parse f }

/-- `callJson` up to the request. -/
def callJson (s : JsonClient) : JsonClient :=
  if s.connected then { s with replyPending := false, call := .cleared, own := none }
  else { s with own := none }.finish none .refused

/-- The request is sent, or the call is over. -/
def rpcCall (s : JsonClient) (ok : Bool) : JsonClient :=
  if ok then
    { s with sent := s.sent + 1, unanswered := s.unanswered ++ [s.sent], call := .waiting s.sent }
  else s.finish none .refused

/-- One look of `wait_for`. -/
def check (s : JsonClient) (r : Nat) (deadline : Bool) : JsonClient :=
  if s.replyPending then s.finish (some r) (resultOf s.replyData)
  else if deadline then s.finish (some r) .timedOut
  else s

/-- A callback runs, once for each request. -/
def callback (s : JsonClient) (r : Nat) (reply : Option Frame) : JsonClient :=
  if r ∈ s.unanswered then
    { s.handleReply parse reply with
      unanswered := s.unanswered.filter (· ≠ r)
      own := if s.call = .waiting r then some reply else s.own }
  else s

/-- One step. Connecting, disconnecting and calling exclude each other. -/
def step (s : JsonClient) : CallEvent → JsonClient
  | .connect => if s.call = .idle then { s with connected := true } else s
  | .disconnect => if s.call = .idle then { s with connected := false } else s
  | .callJson => if s.call = .idle then s.callJson else s
  | .rpcCall ok => if s.call = .cleared then s.rpcCall ok else s
  | .check deadline =>
    match s.call with
    | .waiting r => s.check r deadline
    | _ => s
  | .callback r reply => s.callback parse r reply

/-- What a call comes to if nothing but its own callback matters. -/
def ownResult : Finished → CallResult
  | ⟨none, _, _⟩ => .refused
  | ⟨some _, some (some f), _⟩ => resultOf (replyJson parse f)
  | ⟨some _, _, _⟩ => .timedOut

/-- Every call so far came to what its own callback brought. -/
def OwnOutcome (s : JsonClient) : Prop := ∀ d ∈ s.done, d.result = ownResult parse d

/-- The callback of an earlier request does not run during a call, unless it has no reply and
there is none in the slot. -/
def Alone (s : JsonClient) : CallEvent → Prop
  | .callback r reply => r ∈ s.unanswered →
    s.call = .idle ∨ s.call = .waiting r ∨ (reply.isNone = true ∧ s.replyPending = false)
  | _ => True

instance (s : JsonClient) : ∀ e, Decidable (s.Alone e)
  | .callback r reply => inferInstanceAs (Decidable (r ∈ s.unanswered →
    s.call = .idle ∨ s.call = .waiting r ∨ (reply.isNone = true ∧ s.replyPending = false)))
  | .connect | .disconnect | .callJson | .rpcCall _ | .check _ => inferInstanceAs (Decidable True)

/-! ## The slot holds the reply of the call under way -/

variable {parse}

/-- The slot holds what the callback of the call under way brought. -/
structure Slot (parse : Bytes → Option Json) (own : Option (Option Frame)) (pending : Bool)
    (data : Json) : Prop where
  reply : ∀ f, own = some (some f) → pending = true ∧ data = replyJson parse f
  empty : (∀ f, own ≠ some (some f)) → pending = false

/-- All calls were right, and the slot belongs to the call under way. -/
structure Inv (parse : Bytes → Option Json) (s : JsonClient) : Prop where
  own : s.OwnOutcome parse
  cleared : s.call = .cleared → s.replyPending = false ∧ s.own = none
  slot : ∀ r, s.call = .waiting r → Slot parse s.own s.replyPending s.replyData

variable {s : JsonClient}

theorem OwnOutcome.finish (h : s.OwnOutcome parse) {request : Option Nat} {result : CallResult}
    (hresult : result = ownResult parse ⟨request, s.own, result⟩) :
    (s.finish request result).OwnOutcome parse := by
  intro d hd
  rcases List.mem_append.1 hd with hd | hd
  · exact h d hd
  · obtain rfl := List.mem_singleton.1 hd
    exact hresult

theorem Inv.finish (h : s.Inv parse) {request : Option Nat} {result : CallResult}
    (hresult : result = ownResult parse ⟨request, s.own, result⟩) :
    (s.finish request result).Inv parse :=
  ⟨h.own.finish hresult, nofun, nofun⟩

theorem Inv.callJson (h : s.Inv parse) : s.callJson.Inv parse := by
  unfold JsonClient.callJson
  split_ifs
  · exact ⟨h.own, fun _ => ⟨rfl, rfl⟩, nofun⟩
  · have hown : OwnOutcome parse { s with own := none } := h.own
    exact ⟨hown.finish rfl, nofun, nofun⟩

theorem Inv.rpcCall (h : s.Inv parse) (hpc : s.call = .cleared) (ok : Bool) :
    (s.rpcCall ok).Inv parse := by
  unfold JsonClient.rpcCall
  split_ifs
  · obtain ⟨hpending, hown⟩ := h.cleared hpc
    refine ⟨h.own, nofun, fun r _ => ⟨fun f hf => ?_, fun _ => hpending⟩⟩
    cases hown.symm.trans hf
  · exact h.finish rfl

/-- What `wait_for` finds is the reply to the request of the call, or nothing. -/
theorem Inv.check (h : s.Inv parse) {r : Nat} (hpc : s.call = .waiting r) (deadline : Bool) :
    (s.check r deadline).Inv parse := by
  have hslot := h.slot r hpc
  unfold JsonClient.check
  split_ifs with hpending hdeadline
  · apply h.finish
    rcases hown : s.own with _ | _ | f
    · rw [hslot.empty (by simp [hown])] at hpending
      cases hpending
    · rw [hslot.empty (by simp [hown])] at hpending
      cases hpending
    · rw [(hslot.reply f hown).2]
      rfl
  · apply h.finish
    rcases hown : s.own with _ | _ | f
    · rfl
    · rfl
    · exact absurd (hslot.reply f hown).1 hpending
  · exact h

theorem slot_handleReply (reply : Option Frame) :
    Slot parse (some reply) (s.handleReply parse reply).replyPending
      (s.handleReply parse reply).replyData := by
  cases reply with
  | none => exact ⟨nofun, fun _ => rfl⟩
  | some f =>
    refine ⟨fun f' hf' => ?_, fun hne => absurd rfl (hne f)⟩
    obtain rfl := Option.some.inj (Option.some.inj hf')
    exact ⟨rfl, rfl⟩

@[simp] theorem call_handleReply (reply : Option Frame) :
    (s.handleReply parse reply).call = s.call := by
  cases reply <;> rfl

@[simp] theorem done_handleReply (reply : Option Frame) :
    (s.handleReply parse reply).done = s.done := by
  cases reply <;> rfl

theorem OwnOutcome.of_done {s' : JsonClient} (h : s.OwnOutcome parse) (hd : s'.done = s.done) :
    s'.OwnOutcome parse := by
  rw [OwnOutcome, hd]
  exact h

theorem Inv.callback (h : s.Inv parse) (r : Nat) (reply : Option Frame)
    (hok : s.Alone (.callback r reply)) : (s.callback parse r reply).Inv parse := by
  unfold JsonClient.callback
  split_ifs with hr hown
  · -- It is the callback of the call under way.
    refine ⟨h.own.of_done (done_handleReply reply), fun hc => ?_, fun _ _ => slot_handleReply reply⟩
    rw [call_handleReply, hown] at hc
    cases hc
  · rcases hok hr with hidle | hwait | ⟨hnone, hpending⟩
    · -- Nobody waits, and the next call clears the slot.
      refine ⟨h.own.of_done (done_handleReply reply), fun hc => ?_, fun r' hr' => ?_⟩
      · rw [call_handleReply, hidle] at hc
        cases hc
      · rw [call_handleReply, hidle] at hr'
        cases hr'
    · exact absurd hwait hown
    · -- The slot is empty, and stays so.
      obtain rfl := Option.isNone_iff_eq_none.1 hnone
      refine ⟨h.own, fun hc => ⟨rfl, (h.cleared hc).2⟩,
        fun r' hr' => ⟨fun f hf => ?_, fun _ => rfl⟩⟩
      rw [((h.slot r' hr').reply f hf).1] at hpending
      cases hpending
  · exact h

theorem inv_step (s : JsonClient) (e : CallEvent) (h : s.Inv parse) (hok : s.Alone e) :
    (s.step parse e).Inv parse := by
  cases e with
  | connect =>
    simp only [step]
    split_ifs
    · exact ⟨h.own, h.cleared, h.slot⟩
    · exact h
  | disconnect =>
    simp only [step]
    split_ifs
    · exact ⟨h.own, h.cleared, h.slot⟩
    · exact h
  | callJson =>
    simp only [step]
    split_ifs
    · exact h.callJson
    · exact h
  | rpcCall ok =>
    simp only [step]
    split_ifs with hpc
    · exact h.rpcCall hpc ok
    · exact h
  | check deadline =>
    simp only [step]
    split
    · rename_i r hpc
      exact h.check hpc deadline
    · exact h
  | callback r reply => exact h.callback r reply hok

theorem inv_start : start.Inv parse := ⟨nofun, nofun, nofun⟩

end JsonClient

/-- **A call gets its own reply unless callbacks of earlier requests interfere.** Take any sequence
of calls, and let the callback of each request run once, at any time after the request was sent,
with a reply or without. If while a call is under way no reply to an earlier request arrives, and
no earlier request is called back without a reply while there is a reply in the slot, then every
call that sent its request returns what the reply to it says, if that was recorded before the call
gave up, and times out otherwise. -/
theorem ownOutcome_of_alone (parse : Bytes → Option Json) (es : List CallEvent)
    (hes : Runs.EachStep (JsonClient.step parse) JsonClient.Alone .start es) :
    Runs.Always (JsonClient.step parse) (JsonClient.OwnOutcome parse) .start es :=
  Runs.always_of_invariant JsonClient.inv_step (fun _ h => h.own) JsonClient.inv_start hes

end

def callSent : List CallEvent := [.callJson, .rpcCall true]

def emptyReply : Option Frame := some (bareFrame MsgType.rpcRequest 0)

/-- A call that times out, whose reply arrives before the next call, and a call that is answered. -/
def lateButBefore : List CallEvent :=
  .connect :: callSent ++ [.check true, .callback 0 emptyReply] ++ callSent ++
    [.callback 1 emptyReply, .check false]

theorem lateButBefore_ownOutcome :
    Runs.Always (JsonClient.step fun _ => none) (JsonClient.OwnOutcome fun _ => none) .start
      lateButBefore := by
  apply ownOutcome_of_alone
  simp only [lateButBefore, callSent, List.cons_append, List.nil_append, Runs.eachStep_cons,
    Runs.eachStep_nil, and_true]
  decide

/-- A call that times out, a second one, and what happens while the second waits. -/
def secondCall (es : List CallEvent) : List CallEvent :=
  .connect :: callSent ++ [.check true] ++ callSent ++ es

/-- The reply to the first request arrives while the second call waits, which returns it. And when
the first request is told that there is no reply while the reply to the second lies in the slot,
the second call times out. -/
theorem late_callbacks_interfere :
    ¬ Runs.Always (JsonClient.step fun _ => none) (JsonClient.OwnOutcome fun _ => none) .start
        (secondCall [.callback 0 emptyReply, .check false]) ∧
      ¬ Runs.Always (JsonClient.step fun _ => none) (JsonClient.OwnOutcome fun _ => none) .start
        (secondCall [.callback 1 emptyReply, .callback 0 none, .check true]) := by
  constructor
  · intro h
    have hown := h _ (List.prefix_refl _) ⟨some 1, none, .returned true (.object [])⟩
      (List.mem_of_getElem? (i := 1) rfl)
    cases hown
  · intro h
    have hown := h _ (List.prefix_refl _) ⟨some 1, some emptyReply, .timedOut⟩
      (List.mem_of_getElem? (i := 1) rfl)
    cases hown

end Ssn
