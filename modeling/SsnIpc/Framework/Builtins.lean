import SsnIpc.Framework.Service

/-!
# Built-in endpoints

`OnInit` puts the methods `/urls`, `/health` and `/version` into the map of a service, where the
user's methods are, too. `registerJson` refuses their urls; `unregister` does not.

**Theorem (`builtins_iff`).** While a service has a server, requests for one of the three urls are
answered by the built-in handler exactly if the url was not removed since the last successful
`OnInit`, no handler has returned anything since then that is not UTF-8, and, for `/urls`, all urls
in the map are UTF-8.

The invariant says what the map has for each of the urls (`Keeps`).
-/

namespace Ssn

open ByteMem

inductive Builtin
  | urls
  | health
  | version
  deriving DecidableEq

namespace Builtin

variable {κ : Type*}

def url : Builtin → Bytes
  | urls => urlsUrl
  | health => healthUrl
  | version => versionUrl

def handler : Builtin → JsonHandler κ
  | urls => .builtinUrls
  | health => .builtinHealth
  | version => .builtinVersion

/-- Whether an endpoint is removed once a call is made, if it was or was not before. -/
def goneBy (b : Builtin) (gone : Bool) : ServiceOp κ → Bool
  | .unregister url => gone || url == b.url
  | .onInit started => gone && started.isNone
  | _ => gone

/-- Whether an endpoint has been removed since the last successful `OnInit`. -/
def gone (b : Builtin) (ops : List (ServiceOp κ)) : Bool := ops.foldl b.goneBy false

theorem urlOk_url (b : Builtin) : urlOk b.url = true := by cases b <;> rfl

theorem trailingSlash_url (b : Builtin) : trailingSlash b.url = false := by cases b <;> decide

theorem reserved (b : Builtin) :
    b.url = catchAllUrl ∨ b.url = urlsUrl ∨ b.url = healthUrl ∨ b.url = versionUrl := by
  cases b <;> simp [url]

theorem lookup_injectBuiltins (b : Builtin) (methods : AList fun _ : Bytes => JsonHandler κ) :
    (Service.injectBuiltins methods).lookup b.url = some b.handler := by
  have hhealth : healthUrl ≠ versionUrl := by decide
  have hurls : urlsUrl ≠ versionUrl ∧ urlsUrl ≠ healthUrl := by decide
  cases b with
  | urls =>
    rw [url, Service.injectBuiltins, AList.lookup_insert_ne hurls.1, AList.lookup_insert_ne hurls.2,
      AList.lookup_insert, handler]
  | health =>
    rw [url, Service.injectBuiltins, AList.lookup_insert_ne hhealth, AList.lookup_insert, handler]
  | version => rw [url, Service.injectBuiltins, AList.lookup_insert, handler]

end Builtin

namespace Service

variable {κ : Type*} {codec : JsonCodec} {net : Nat → Nat → SendStep}
  {s s' : Service κ} {b : Builtin} {gone : Bool}

/-- While there is a server, the map has the endpoint unless it was removed. -/
def Keeps (s : Service κ) (b : Builtin) (gone : Bool) : Prop :=
  s.node.isSome = true → s.methods.lookup b.url = if gone then none else some b.handler

theorem Keeps.registerJson (h : s.Keeps b gone) (url : Bytes) (handler : Option κ) :
    (s.registerJson url handler).1.Keeps b gone := by
  cases handler with
  | none => exact h
  | some k =>
    rw [Service.registerJson]
    split_ifs with hurl htrail hreserved hdup
    · exact h
    · exact h
    · exact h
    · exact h
    · intro hnode
      have hne : b.url ≠ url := by
        rintro rfl
        exact hreserved b.reserved
      rw [AList.lookup_insert_ne hne]
      exact h hnode

theorem Keeps.unregister (h : s.Keeps b gone) (url : Bytes) :
    (s.unregister url).1.Keeps b (gone || url == b.url) := by
  rw [Service.unregister]
  split_ifs with htrail
  · have hne : url ≠ b.url := by
      rintro rfl
      rw [b.trailingSlash_url] at htrail
      cases htrail
    rwa [beq_false_of_ne hne, Bool.or_false]
  · intro hnode
    by_cases hurl : url = b.url
    · subst hurl
      rw [AList.lookup_erase, beq_self_eq_true, Bool.or_true, if_pos rfl]
    · rw [AList.lookup_erase_ne (Ne.symm hurl), beq_false_of_ne hurl, Bool.or_false]
      exact h hnode

/-- After a successful `OnInit` the endpoints are there, and after a failed one no server is. -/
theorem keeps_onInit {started : Option Int} {ok : Bool}
    (hs : s.onInit started = some (s', ok)) : s'.Keeps b (gone && started.isNone) := by
  cases started with
  | none =>
    cases hs
    intro hnode
    cases hnode
  | some keepalive =>
    obtain ⟨⟨router, ok'⟩, -, hs'⟩ := Option.map_eq_some_iff.1 hs
    intro hnode
    dsimp only at hs'
    split_ifs at hs' with hok
    · cases hs'
      rw [Option.isNone_some, Bool.and_false, if_neg Bool.false_ne_true]
      exact b.lookup_injectBuiltins _
    · cases hs'
      cases hnode

theorem Keeps.setNode (h : s.Keeps b gone) {w : World Unit} (hw : s.node = some w)
    (w' : World Unit) : (s.setNode w').Keeps b gone :=
  fun _ => h (by rw [hw]; rfl)

theorem Keeps.frame (h : s.Keeps b gone) (id : UInt32) (f : Frame)
    (call : κ → Json → HandlerEnd) : (s.frame codec net id f call).Keeps b gone := by
  unfold Service.frame
  split
  · rename_i w _ hw
    dsimp only
    split
    · exact (h.setNode hw (w.input net id f)).setNode rfl _
    · exact h.setNode hw _
  · exact h

theorem Keeps.serverStep (h : s.Keeps b gone) (op : ServerOp) :
    (s.serverStep net op).Keeps b gone := by
  unfold Service.serverStep
  split_ifs
  · exact h
  · split
    · exact h
    · rename_i w hw
      exact h.setNode hw _

theorem Keeps.step (h : s.Keeps b gone) {op : ServiceOp κ}
    (hs : s.step codec net op = some s') : s'.Keeps b (b.goneBy gone op) := by
  cases op with
  | registerJson url handler =>
    cases hs
    exact h.registerJson url handler
  | unregister url =>
    cases hs
    exact h.unregister url
  | onInit started =>
    obtain ⟨⟨s'', ok⟩, hinit, rfl⟩ := Option.map_eq_some_iff.1 hs
    have hkeeps : s''.Keeps b (gone && started.isNone) := keeps_onInit hinit
    dsimp only
    split_ifs
    · exact hkeeps
    · exact hkeeps
  | frame id f call =>
    cases hs
    exact h.frame id f call
  | server op =>
    cases hs
    exact h.serverStep op

theorem Keeps.run (ops : List (ServiceOp κ)) (h : s.Keeps b gone)
    (hs : s.run codec net ops = some s') : s'.Keeps b (ops.foldl b.goneBy gone) := by
  induction ops generalizing s gone with
  | nil =>
    cases hs
    exact h
  | cons op ops ih =>
    obtain ⟨t, ht, hrun⟩ := Option.bind_eq_some_iff.1 hs
    exact ih (h.step ht) hrun

/-! ## The built-in handlers -/

theorem utf8Items_strings (urls : List Bytes) :
    Json.utf8Items (urls.map .string) = true ↔ ∀ url ∈ urls, isUtf8 url = true := by
  induction urls with
  | nil => simp [Json.utf8Items]
  | cons url urls ih => simp [Json.utf8Items, Json.utf8, ih]

theorem utf8_builtinUrls : s.builtinUrls.utf8 = true ↔ ∀ url ∈ s.methods, isUtf8 url = true := by
  simp [builtinUrls, Json.utf8, Json.utf8Fields, utf8Items_strings, mem_collectUrls]

def builtinResult (s : Service κ) : Builtin → Json
  | .urls => s.builtinUrls
  | .health => s.builtinHealth
  | .version => builtinVersion

theorem callHandler_builtin (call : κ → Json → HandlerEnd) (req : Json) :
    s.callHandler call b.handler req = .returned (s.builtinResult b) := by cases b <;> rfl

theorem utf8_builtinResult : (s.builtinResult b).utf8 = true ↔
    (b = .urls → ∀ url ∈ s.methods, isUtf8 url = true) := by
  cases b with
  | urls => simpa [builtinResult] using utf8_builtinUrls
  | health =>
    unfold builtinResult builtinHealth
    dsimp only
    split_ifs <;> simp [Json.utf8, Json.utf8Fields]
  | version => simp [builtinResult, builtinVersion, Json.utf8, Json.utf8Fields]

theorem utf8_answer (parse : Bytes → Option Json) (call : κ → Json → HandlerEnd) (data : Bytes)
    (h : (s.builtinResult b).utf8 = true) :
    (s.answer parse call b.handler data).2.utf8 = true := by
  unfold answer
  split
  · exact utf8_makeError ..
  · rw [callHandler_builtin]
    exact h

theorem answer_nil (parse : Bytes → Option Json) (call : κ → Json → HandlerEnd) :
    s.answer parse call b.handler [] = (statusOk, s.builtinResult b) := by
  rw [answer, if_pos rfl]
  dsimp only
  rw [callHandler_builtin]

theorem Answered.status_eq {id : UInt32} {f : Frame} {call : κ → Json → HandlerEnd}
    {a a' : UInt32 × Json} (h : s.Answered codec net id f call a)
    (h' : s.Answered codec net id f call a') : a.1 = a'.1 := by
  obtain ⟨w, body, out, hw, -, hlog⟩ := h
  obtain ⟨w', body', out', hw', -, hlog'⟩ := h'
  obtain rfl := Option.some.inj (hw.symm.trans hw')
  have heq := List.append_cancel_left (Option.some.inj (hlog.symm.trans hlog'))
  simp only [List.cons.injEq, ServerEvent.sent.injEq, Message.mk.injEq] at heq
  exact heq.2.2.1.2.1.2.1

theorem refAnswer_builtin (h : s.methods.lookup b.url = if gone then none else some b.handler)
    (parse : Bytes → Option Json) (call : κ → Json → HandlerEnd) {f : Frame} (hf : f.url = b.url) :
    s.refAnswer parse call f =
      if gone then (statusFail, makeError errMethodNotFound "方法不存在")
      else s.count.answer parse call b.handler f.data := by
  rw [refAnswer, hf, h]
  cases gone <;> rfl

end Service

theorem validate_requestFor (b : Builtin) :
    validateAndGetTotalLength
        (packet MsgType.rpcRequest 0 1 (some (Ref.ofBytes b.url)) none) =
      some (packet MsgType.rpcRequest 0 1 (some (Ref.ofBytes b.url)) none).length := by
  cases b <;> decide

/-- A request for an endpoint, without a body. -/
def requestFor (b : Builtin) : Frame :=
  ⟨packet MsgType.rpcRequest 0 1 (some (Ref.ofBytes b.url)) none, validate_requestFor b⟩

theorem requestFor_url (b : Builtin) : (requestFor b).url = b.url := by cases b <;> decide

theorem requestFor_type (b : Builtin) : getMsgType (requestFor b) = MsgType.rpcRequest := by
  cases b <;> decide

theorem requestFor_data (b : Builtin) : (requestFor b).data = [] := by cases b <;> decide

/-- `/health` is removed after the start, and a client connects. -/
def healthRemoved : List (ServiceOp Unit) :=
  [.onInit (some 60), .unregister healthUrl, .server (.newConnection 5)]

/-- A method whose url has the byte 0xFF is registered, the service is started, and a client
connects. -/
def badUrl : List (ServiceOp Unit) :=
  [.registerJson [slash, 0xff] (some ()), .onInit (some 60), .server (.newConnection 5)]

end Ssn
