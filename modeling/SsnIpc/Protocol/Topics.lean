import SsnIpc.Protocol.Poll

/-!
# Names without an end

`ssn_pubsub_handle_message` and `ssn_rpc_handle_request` pass the url of a frame to the user's
callback as a `const char *`, without its length. The pointer leads into the buffer with the frame,
where the data come directly behind the url.

**Theorem (`name_read_iff`).** Read as a C string, the name that a callback is given is the url of
the frame exactly when the byte behind the url in the buffer is 0.

That byte is the first one of the data, or, if there are none, whatever the buffer held there
before.
-/

namespace Ssn

open ByteMem

variable {κ : Type*}

/-! ## Pointers into the buffer -/

/-- The frame `f` lies at address `hdr`. -/
def FrameAt (m : Mem) (hdr : Nat) (f : Frame) : Prop := m.slice hdr f.bytes.length = f.bytes

instance (m : Mem) (hdr : Nat) (f : Frame) : Decidable (FrameAt m hdr f) :=
  inferInstanceAs (Decidable (_ = _))

/-- The address of the url of a frame at `hdr`, as `ssn_get_url` computes it. -/
def urlAddress (hdr : Nat) : Nat := hdr + headerSize

/-- The `const char *` that a callback gets: the pointer of the reference, without its length. -/
def HandlerCall.namePtr (hdr : Nat) : HandlerCall κ → Option Nat
  | .onRequest _ _ method _ => method.ptr.map fun _ => urlAddress hdr
  | .onTopic _ topic _ => topic.ptr.map fun _ => urlAddress hdr
  | .onMessage _ _ => none

/-- The callback was called once, with a name that reads as the url of the frame. -/
def NameRead (m : Mem) (hdr : Nat) (f : Frame) (b b' : ProtocolBase κ) : Prop :=
  ∃ call p, b'.log = b.log ++ [.handled call] ∧ call.namePtr hdr = some p ∧ CStringAt m p f.url

section Buffer

variable {m : Mem} {hdr : Nat} {f : Frame}

theorem bytes_eq (f : Frame) : f.bytes = f.bytes.take headerSize ++ f.url ++ f.data := by
  rw [List.append_assoc, url_append_data, Frame.payload, List.take_append_drop]

theorem length_bytes (f : Frame) :
    f.bytes.length = headerSize + f.url.length + f.data.length := by
  have hlen := congrArg List.length (bytes_eq f)
  rw [List.length_append, List.length_append, List.length_take,
    Nat.min_eq_left f.valid.1] at hlen
  exact hlen

theorem FrameAt.slice_payload (h : FrameAt m hdr f) :
    m.slice (urlAddress hdr) (f.url.length + f.data.length) = f.url ++ f.data := by
  have hdrop := congrArg (List.drop headerSize) h
  rw [Mem.drop_slice _ _ _ _ f.valid.1, length_bytes] at hdrop
  rw [url_append_data, Frame.payload, ← hdrop, urlAddress]
  congr 1
  omega

theorem FrameAt.slice_url (h : FrameAt m hdr f) :
    m.slice (urlAddress hdr) f.url.length = f.url := by
  have htake := congrArg (List.take f.url.length) h.slice_payload
  rwa [Mem.take_slice _ _ _ _ (Nat.le_add_right ..), List.take_left] at htake

/-- A url without NUL is the string at its address if a NUL follows. -/
theorem FrameAt.cStringAt_iff (h : FrameAt m hdr f) (hnul : 0 ∉ f.url) :
    CStringAt m (urlAddress hdr) f.url ↔ m (urlAddress hdr + f.url.length) = 0 :=
  ⟨fun hs => hs.2.2, fun hnext => ⟨h.slice_url, hnul, hnext⟩⟩

theorem urlRef_ptr (hurl : f.url ≠ []) : (urlRef f).ptr.isSome := by
  obtain ⟨u, hu, hcontents, -⟩ := getUrl_frame f
  rw [urlRef, hu, Option.getD_some]
  by_contra hnone
  rw [Option.not_isSome_iff_eq_none] at hnone
  rw [Ref.contents, hnone] at hcontents
  exact hurl hcontents.symm

/-- A handle function with a callback that gets the url as its name. -/
theorem handle_nameRead (h : FrameAt m hdr f) (hurl : f.url ≠ []) (hnul : 0 ∉ f.url)
    {b : ProtocolBase κ} (hb : b.handler.isSome) {msgType : UInt8} (hty : getMsgType f = msgType)
    {call : κ → HandlerCall κ}
    (hcall : ∀ k, (call k).namePtr hdr = (urlRef f).ptr.map fun _ => urlAddress hdr) :
    NameRead m hdr f b (b.handle msgType call f).1 ↔
      m (urlAddress hdr + f.url.length) = 0 := by
  obtain ⟨k, hk⟩ := Option.isSome_iff_exists.1 hb
  have hhandle : b.handle msgType call f = (b.emit (.handled (call k)), 1) := by
    simp [ProtocolBase.handle, hty, hk]
  obtain ⟨bytes, hptr⟩ := Option.isSome_iff_exists.1 (urlRef_ptr hurl)
  have hname : (call k).namePtr hdr = some (urlAddress hdr) := by rw [hcall, hptr]; rfl
  rw [hhandle, ← h.cStringAt_iff hnul]
  constructor
  · rintro ⟨c, p, hlog, hp, hs⟩
    obtain rfl : call k = c := by simpa [ProtocolBase.emit] using hlog
    rw [hname, Option.some.injEq] at hp
    exact hp ▸ hs
  · intro hs
    exact ⟨call k, _, rfl, hname, hs⟩

end Buffer

/-- **The name that a callback reads.** For a valid frame with a url that is not empty and has no
NUL, anywhere in memory: the topic passed by `ssn_pubsub_handle_message`, and the method name passed
by `ssn_rpc_handle_request`, read as a C string, is the url of the frame exactly when the byte
behind the url is 0. -/
theorem name_read_iff (m : Mem) (hdr : Nat) (f : Frame) (b : ProtocolBase κ)
    (hf : FrameAt m hdr f) (hurl : f.url ≠ []) (hnul : 0 ∉ f.url) (hb : b.handler.isSome) :
    (getMsgType f = MsgType.publish →
      (NameRead m hdr f b (b.pubsubHandleMessage f).1 ↔
        m (urlAddress hdr + f.url.length) = 0)) ∧
    (getMsgType f = MsgType.rpcRequest →
      (NameRead m hdr f b (b.rpcHandleRequest f).1 ↔
        m (urlAddress hdr + f.url.length) = 0)) := by
  constructor
  · intro hty
    exact handle_nameRead hf hurl hnul hb hty fun _ => rfl
  · intro hty
    exact handle_nameRead hf hurl hnul hb hty fun _ => rfl

/-! ## Topics with and without data -/

/-- The packet with url `"/a"`. -/
def namedBytes (msgType : UInt8) (data : Bytes) : Bytes :=
  packet msgType 0 0 (some (Ref.ofBytes [0x2F, 0x61])) (some (Ref.ofBytes data))

theorem whole_publishB : validateAndGetTotalLength (namedBytes MsgType.publish [0x62]) =
    some (namedBytes MsgType.publish [0x62]).length := by decide

theorem whole_requestB : validateAndGetTotalLength (namedBytes MsgType.rpcRequest [0x62]) =
    some (namedBytes MsgType.rpcRequest [0x62]).length := by decide

theorem whole_publishEmpty : validateAndGetTotalLength (namedBytes MsgType.publish []) =
    some (namedBytes MsgType.publish []).length := by decide

/-- `"b"` is published under `"/a"`. -/
def publishB : Frame := ⟨namedBytes MsgType.publish [0x62], whole_publishB⟩

/-- The method `"/a"` is called with `"b"`. -/
def requestB : Frame := ⟨namedBytes MsgType.rpcRequest [0x62], whole_requestB⟩

/-- Nothing is published under `"/a"`. -/
def publishEmpty : Frame := ⟨namedBytes MsgType.publish [], whole_publishEmpty⟩

/-- A buffer of zeros with a frame at its front. -/
def bufferWith (f : Frame) : Mem := Mem.zero.write 0 f.bytes

def listening : ProtocolBase Nat := ⟨none, some 0, []⟩

/-- Without data, and in a buffer of zeros, the topic ends where it should. -/
theorem publishEmpty_read : publishEmpty.url = [0x2F, 0x61] ∧
    NameRead (bufferWith publishEmpty) 0 publishEmpty listening
      (listening.pubsubHandleMessage publishEmpty).1 :=
  ⟨by decide, ((name_read_iff (bufferWith publishEmpty) 0 publishEmpty listening
    (by decide) (by decide) (by decide) (by decide)).1 (by decide)).2 (by decide)⟩

/-- The string at the topic's address is `"/ab"`, though the url of the frame is `"/a"`; the same
happens to the name of a method. -/
theorem name_runs_on :
    publishB.url = [0x2F, 0x61] ∧ requestB.url = [0x2F, 0x61] ∧
      CStringAt (bufferWith publishB) (urlAddress 0) [0x2F, 0x61, 0x62] ∧
      CStringAt (bufferWith requestB) (urlAddress 0) [0x2F, 0x61, 0x62] ∧
      ¬ NameRead (bufferWith publishB) 0 publishB listening
        (listening.pubsubHandleMessage publishB).1 ∧
      ¬ NameRead (bufferWith requestB) 0 requestB listening
        (listening.rpcHandleRequest requestB).1 := by
  have hp : FrameAt (bufferWith publishB) 0 publishB := by decide
  have hr : FrameAt (bufferWith requestB) 0 requestB := by decide
  refine ⟨by decide, by decide, by decide, by decide, ?_, ?_⟩
  · rw [ProtocolBase.pubsubHandleMessage,
      handle_nameRead hp (by decide) (by decide) rfl (by decide) fun _ => rfl]
    decide
  · rw [ProtocolBase.rpcHandleRequest,
      handle_nameRead hr (by decide) (by decide) rfl (by decide) fun _ => rfl]
    decide

end Ssn
