import SsnIpc.Client.Handshake

/-!
# Malformed bytes in a handshake

When the stream parser meets an invalid header, the receive loop of `ssn_client_connect` sets its
result to -1 and then looks at `errno`, which no call of this turn has set. If an earlier receive
left `EAGAIN` there, the loop takes the failure for a socket without data and tries again, with a
parser that has forgotten the bytes.

**Theorem (`handshakeOk_iff`).** When `ssn_client_connect` returns true, the bytes received are
those of a handshake, without an invalid header, exactly if no such failure was forgiven.

The loop is followed read by read (`handshake_outcome`). As long as the bytes are accepted, the
parser holds what a reference parser would; behind an invalid header the bytes stay malformed,
whatever follows.
-/

namespace Ssn

open ByteMem

variable {κ : Type*} {w : ClientWorld κ}

/-! ## What is heard -/

namespace HandshakeRecv

/-- The bytes that a try puts into the receive buffer. -/
def heard (r : HandshakeRecv) : Bytes := r.chunk.take maxPacketSize

def heardAll (recvs : List HandshakeRecv) : Bytes := (recvs.map heard).flatten

/-- The tries that receive these results, when `errno` is `EAGAIN` or not at first: a socket without
data sets it. -/
def ofResults : Bool → List RecvResult → List HandshakeRecv
  | _, [] => []
  | eagain, result :: results =>
    ⟨result, eagain⟩ :: ofResults (eagain || result == .again) results

theorem heardAll_append (pre : List HandshakeRecv) (r : HandshakeRecv) :
    heardAll (pre ++ [r]) = heardAll pre ++ r.heard := by
  simp [heardAll]

theorem heard_again {r : HandshakeRecv} (h : r.result = .again) : r.heard = [] := by
  simp [heard, chunk, h]

theorem heard_data {r : HandshakeRecv} {buf : Bytes} (h : r.result = .data buf) :
    r.heard = buf.take maxPacketSize := by
  simp [heard, chunk, h]

end HandshakeRecv

open HandshakeRecv

/-- The bytes of a connection are those of a handshake: no header is invalid, and the server's reply
is among the frames. -/
def HandshakeOk (bytes : Bytes) : Prop :=
  (refParse bytes).2 ≠ none ∧ ∃ f ∈ refFrames bytes, InfoReply f

/-- Behind the tries `pre`, which brought no reply, the try `r` completes an invalid header, and
`errno` is `EAGAIN` from an earlier call. -/
structure Forgives (pre : List HandshakeRecv) (r : HandshakeRecv) : Prop where
  valid : (refParse (heardAll pre)).2 ≠ none
  noReply : ∀ f ∈ refFrames (heardAll pre), ¬ InfoReply f
  invalid : (refParse (heardAll pre ++ r.heard)).2 = none
  stale : r.stale = true

/-- An invalid header is forgiven in one of the tries, `pre` having come before them. -/
def ForgivenAfter (pre recvs : List HandshakeRecv) : Prop :=
  ∃ mid r post, recvs = mid ++ r :: post ∧ Forgives (pre ++ mid) r

/-- An invalid header is forgiven in one of the tries. -/
def Forgiven (recvs : List HandshakeRecv) : Prop := ForgivenAfter [] recvs

section Forgiven

variable {pre recvs : List HandshakeRecv} {r : HandshakeRecv}

theorem ForgivenAfter.here (h : Forgives pre r) : ForgivenAfter pre (r :: recvs) :=
  ⟨[], r, recvs, rfl, by rwa [List.append_nil]⟩

theorem forgivenAfter_cons (h : ¬ Forgives pre r) :
    ForgivenAfter pre (r :: recvs) ↔ ForgivenAfter (pre ++ [r]) recvs := by
  constructor
  · rintro ⟨mid, r', post, heq, hf⟩
    cases mid with
    | nil =>
      obtain ⟨rfl, -⟩ := List.cons.inj heq
      rw [List.append_nil] at hf
      exact absurd hf h
    | cons _ mid =>
      obtain ⟨rfl, rfl⟩ := List.cons.inj heq
      exact ⟨mid, r', post, rfl, by rwa [List.append_assoc]⟩
  · rintro ⟨mid, r', post, rfl, hf⟩
    exact ⟨r :: mid, r', post, rfl, by rwa [List.append_assoc] at hf⟩

theorem mem_refFrames_append {s : Bytes} (h : (refParse s).2 ≠ none) (t : Bytes) {f : Frame}
    (hf : f ∈ refFrames s) : f ∈ refFrames (s ++ t) := by
  obtain ⟨left, hleft⟩ := Option.ne_none_iff_exists'.1 h
  rw [refFrames_append hleft]
  exact List.mem_append_left _ hf

/-- Behind the reply nothing is forgiven any more. -/
theorem not_forgivenAfter_of_reply (h : HandshakeOk (heardAll pre)) :
    ¬ ForgivenAfter pre recvs := by
  rintro ⟨mid, r, post, -, hf⟩
  obtain ⟨f, hmem, hreply⟩ := h.2
  refine hf.noReply f ?_ hreply
  rw [heardAll, List.map_append, List.flatten_append]
  exact mem_refFrames_append h.1 _ hmem

end Forgiven

/-! ## One read -/

namespace ClientWorld

theorem chunks_connInput (arg : ClientWorld κ × Nat) (f : Frame) :
    (connInput arg f).1.conn.chunks = arg.1.conn.chunks := by
  rw [conn_connInput]
  rfl

theorem stream_feedConn (w : ClientWorld κ) (buf : Bytes) :
    (w.feedConn buf).1.1.conn.stream = w.conn.stream ++ buf := by
  have hstep : ∀ (arg : ClientWorld κ × Nat) (f : Frame),
      arg.1.conn.chunks = w.conn.chunks ++ [buf] →
        (clientConnInput arg f).1.1.conn.chunks = w.conn.chunks ++ [buf] :=
    fun arg f h => (chunks_connInput arg f).trans h
  have hkeep := streamFeed_keeps
    (P := fun arg : ClientWorld κ × Nat => arg.1.conn.chunks = w.conn.chunks ++ [buf]) hstep
    w.client.recv buf (w.emit (.received buf), 0) (by rw [conn_emit]; rfl)
  have hconn : (w.feedConn buf).1.1.conn.chunks = w.conn.chunks ++ [buf] := hkeep
  rw [Conn.stream, hconn]
  simp [Conn.stream]

/-- Bytes that complete an invalid header: the call fails, and the parser starts over. -/
theorem feedConn_invalid (buf : Bytes) (hready : w.client.recv.Ready)
    (hr : (refParse (w.client.recv.unread ++ buf)).2 = none) : (w.feedConn buf).2 = false := by
  have hspec := streamFeed_invalid connInput (w.emit (.received buf), 0) hready hr
  have hret : (w.feedConn buf).2 = (streamFeed (fun arg f => (connInput arg f, true))
    w.client.recv buf (w.emit (.received buf), 0)).2.2.ret := rfl
  rw [hret, hspec.1]
  rfl

theorem packetCnt_of_noReply {fs : List Frame} (h : ∀ f ∈ fs, ¬ InfoReply f)
    (arg : ClientWorld κ × Nat) : (fs.foldl connInput arg).2 = arg.2 := by
  induction fs generalizing arg with
  | nil => rfl
  | cons f fs ih =>
    rw [List.forall_mem_cons] at h
    rw [List.foldl_cons, ih h.2]
    have hf : getMsgType f ≠ MsgType.serviceInfo ∨ getStatus f ≠ 0 ∨ f.data = [] := by
      by_contra hall
      simp only [not_or, not_not] at hall
      exact h.1 hall
    simp only [connInput, if_pos hf]

theorem packetCnt_pos_iff (fs : List Frame) (w : ClientWorld κ) :
    0 < (fs.foldl connInput (w, 0)).2 ↔ ∃ f ∈ fs, InfoReply f := by
  constructor
  · intro hpos
    by_contra hnone
    rw [packetCnt_of_noReply fun f hf hreply => hnone ⟨f, hf, hreply⟩] at hpos
    exact Nat.lt_irrefl 0 hpos
  · rintro ⟨f, hf, hreply⟩
    obtain ⟨before, behind, rfl⟩ := List.append_of_mem hf
    rw [List.foldl_append]
    exact packetCnt_pos hreply behind _

/-! ## The loop -/

theorem stream_handshake (w : ClientWorld κ) (retries : Nat) (recvs : List HandshakeRecv) :
    w.conn.stream <+: (w.handshake retries recvs).1.conn.stream := by
  induction retries generalizing w recvs with
  | zero => exact List.prefix_refl _
  | succ retries ih =>
    cases recvs with
    | nil => exact List.prefix_refl _
    | cons r recvs =>
      unfold handshake
      cases r.result with
      | eof => exact List.prefix_refl _
      | error => exact List.prefix_refl _
      | again => exact ih w recvs
      | data buf =>
        by_cases hbuf : buf = []
        · simp only [if_pos hbuf]
          exact List.prefix_refl _
        simp only [if_neg hbuf]
        have hstream := stream_feedConn w (buf.take maxPacketSize)
        generalize w.feedConn (buf.take maxPacketSize) = out at hstream ⊢
        obtain ⟨⟨w', n⟩, ok⟩ := out
        have hpre : w.conn.stream <+: w'.conn.stream := hstream ▸ List.prefix_append ..
        cases ok with
        | true =>
          dsimp only
          split_ifs
          · exact hpre
          · exact hpre.trans (ih w' recvs)
        | false =>
          dsimp only
          split_ifs
          · exact hpre.trans (ih w' recvs)
          · exact hpre

/-- Up to now the bytes are accepted and hold no reply: the parser is where the reference is. -/
structure Waiting (w : ClientWorld κ) (pre : List HandshakeRecv) : Prop where
  ready : w.client.recv.Ready
  stream : w.conn.stream = heardAll pre
  held : (refParse (heardAll pre)).2 = some w.client.recv.unread
  noReply : ∀ f ∈ refFrames (heardAll pre), ¬ InfoReply f

section Waiting

variable {pre : List HandshakeRecv} {r : HandshakeRecv}

/-- The reference parser on what was heard and more. -/
theorem Waiting.refParse_append (h : Waiting w pre) (buf : Bytes) :
    (refParse (heardAll pre ++ buf)).2 = (refParse (w.client.recv.unread ++ buf)).2 := by
  rw [Ssn.refParse_append h.held]

theorem Waiting.again (h : Waiting w pre) (hr : r.result = .again) : Waiting w (pre ++ [r]) := by
  have hsame : heardAll (pre ++ [r]) = heardAll pre := by
    rw [heardAll_append, heard_again hr, List.append_nil]
  exact ⟨h.ready, hsame ▸ h.stream, hsame ▸ h.held, hsame ▸ h.noReply⟩

theorem Waiting.not_forgives_again (h : Waiting w pre) (hr : r.result = .again) :
    ¬ Forgives pre r := by
  intro hf
  have hinvalid := hf.invalid
  rw [heard_again hr, List.append_nil, h.held] at hinvalid
  cases hinvalid

theorem Waiting.accept (h : Waiting w pre) {left : Bytes}
    (hleft : (refParse (w.client.recv.unread ++ r.heard)).2 = some left) :
    ∃ w' n, w.feedConn r.heard = ((w', n), true) ∧ ¬ Forgives pre r ∧
      w'.conn.stream = heardAll (pre ++ [r]) ∧
      (if 0 < n then HandshakeOk (heardAll (pre ++ [r])) else Waiting w' (pre ++ [r])) := by
  obtain ⟨w', n, hfed, hready, hunread, -, hn⟩ := feedConn_accept r.heard h.ready hleft
  have hstream : w'.conn.stream = heardAll (pre ++ [r]) := by
    have hs := stream_feedConn w r.heard
    rwa [hfed, h.stream, ← heardAll_append] at hs
  have hheld : (refParse (heardAll (pre ++ [r]))).2 = some left := by
    rw [heardAll_append, h.refParse_append, hleft]
  have hframes : refFrames (heardAll (pre ++ [r])) =
      refFrames (heardAll pre) ++ refFrames (w.client.recv.unread ++ r.heard) := by
    rw [heardAll_append, refFrames_append h.held]
  refine ⟨w', n, hfed, fun hf => ?_, hstream, ?_⟩
  · have hinvalid := hf.invalid
    rw [← heardAll_append, hheld] at hinvalid
    cases hinvalid
  split_ifs with hpos
  · rw [hn, packetCnt_pos_iff] at hpos
    obtain ⟨f, hf, hreply⟩ := hpos
    refine ⟨by rw [hheld]; exact Option.some_ne_none _, f, ?_, hreply⟩
    rw [hframes]
    exact List.mem_append_right _ hf
  · rw [hn, packetCnt_pos_iff] at hpos
    refine ⟨hready, hstream, by rw [hheld, hunread], fun f hf hreply => ?_⟩
    rw [hframes, List.mem_append] at hf
    rcases hf with hf | hf
    · exact h.noReply f hf hreply
    · exact hpos ⟨f, hf, hreply⟩

theorem Waiting.reject (h : Waiting w pre)
    (hnone : (refParse (w.client.recv.unread ++ r.heard)).2 = none) :
    ∃ w' n, w.feedConn r.heard = ((w', n), false) ∧ w'.conn.stream = heardAll (pre ++ [r]) ∧
      (refParse (heardAll (pre ++ [r]))).2 = none ∧ (r.stale = true → Forgives pre r) := by
  have hret := feedConn_invalid r.heard h.ready hnone
  have hs := stream_feedConn w r.heard
  rw [h.stream, ← heardAll_append] at hs
  have hinvalid : (refParse (heardAll pre ++ r.heard)).2 = none := by
    rw [h.refParse_append, hnone]
  rcases hfed : w.feedConn r.heard with ⟨⟨w', n⟩, ok⟩
  rw [hfed] at hret hs
  obtain rfl : ok = false := hret
  refine ⟨w', n, rfl, hs, by rw [heardAll_append, hinvalid], fun hstale => ?_⟩
  exact ⟨by rw [h.held]; exact Option.some_ne_none _, h.noReply, hinvalid, hstale⟩

/-- **The loop.** If it ends with success, either nothing was forgiven and the bytes are those of a
handshake, or something was and they are malformed. -/
theorem Waiting.handshake_outcome (h : Waiting w pre) (retries : Nat) (recvs : List HandshakeRecv)
    (hok : (w.handshake retries recvs).2 = true) :
    (HandshakeOk (w.handshake retries recvs).1.conn.stream ∧ ¬ ForgivenAfter pre recvs) ∨
      ((refParse (w.handshake retries recvs).1.conn.stream).2 = none ∧
        ForgivenAfter pre recvs) := by
  induction retries generalizing w pre recvs with
  | zero => cases hok
  | succ retries ih =>
    cases recvs with
    | nil => cases hok
    | cons r recvs =>
      rw [handshake] at hok ⊢
      cases hres : r.result with
      | eof =>
        simp only [hres] at hok
        cases hok
      | error =>
        simp only [hres] at hok
        cases hok
      | again =>
        simp only [hres] at hok ⊢
        rw [forgivenAfter_cons (h.not_forgives_again hres)]
        exact ih (h.again hres) recvs hok
      | data buf =>
        simp only [hres] at hok ⊢
        by_cases hbuf : buf = []
        · simp only [if_pos hbuf] at hok
          cases hok
        simp only [if_neg hbuf, ← heard_data hres] at hok ⊢
        cases hparse : (refParse (w.client.recv.unread ++ r.heard)).2 with
        | some left =>
          -- The bytes are in order: the reply is among them, or the loop goes on.
          obtain ⟨w', n, hfed, hnot, hstream, hnext⟩ := h.accept hparse
          rw [forgivenAfter_cons hnot]
          simp only [hfed] at hok ⊢
          split_ifs at hok hnext ⊢ with hpos
          · rw [hstream]
            exact .inl ⟨hnext, not_forgivenAfter_of_reply hnext⟩
          · exact ih hnext recvs hok
        | none =>
          -- A header is invalid: the end, unless `errno` is still that of an earlier try.
          obtain ⟨w', n, hfed, hstream, hinvalid, hforgives⟩ := h.reject hparse
          simp only [hfed] at hok ⊢
          split_ifs at hok ⊢ with hstale
          · refine .inr ⟨?_, .here (hforgives hstale)⟩
            obtain ⟨t, ht⟩ := stream_handshake w' retries recvs
            rw [← ht, hstream, refParse_append_none hinvalid, hinvalid]

end Waiting

theorem waiting_greeting (hready : w.client.recv.Ready) (hempty : w.client.recv.unread = []) :
    Waiting w.greeting [] := by
  obtain ⟨v, hq, hv⟩ := w.greeting_quiet
  have hrecv : w.greeting.client.recv = w.client.recv := by
    rw [hv]
    exact hq.recv
  have hconn : w.greeting.conn = .fresh := by
    rw [hv]
    exact conn_emit _
  have hnil : refNext [] = .wait := by decide
  constructor
  · rw [hrecv]
    exact hready
  · rw [hconn]
    rfl
  · rw [hrecv, hempty]
    exact congrArg Prod.snd (refParse_wait hnil)
  · intro f hf
    rw [show heardAll [] = [] from rfl, refFrames_wait hnil] at hf
    cases hf

end ClientWorld

/-- **When a connection is accepted.** For every sequence of receives during `ssn_client_connect`,
from an empty receive context and with any `errno` at each of them: if the function returns true,
then the bytes received on the new connection contain no invalid header and include the server's
reply exactly if no receive completed an invalid header while `errno` was `EAGAIN`. -/
theorem handshakeOk_iff (w : ClientWorld κ) (timeoutMs : Option Nat) (run : ConnectRun)
    (hready : w.client.recv.Ready) (hempty : w.client.recv.unread = [])
    (hok : (w.connect timeoutMs run).2 = true) :
    HandshakeOk (w.connect timeoutMs run).1.conn.stream ↔ ¬ Forgiven run.recvs := by
  cases hfd : run.fd with
  | none =>
    rw [ClientWorld.connect, ClientWorld.dial, hfd] at hok
    cases hok
  | some fd =>
    rw [ClientWorld.connect_some hfd] at hok ⊢
    split_ifs at hok ⊢ with hsent
    dsimp only at hok ⊢
    split_ifs at hok ⊢ with hshake
    have houtcome := (ClientWorld.waiting_greeting hready hempty).handshake_outcome _ _ hshake
    rcases houtcome with ⟨hgood, hnot⟩ | ⟨hbad, hforgiven⟩
    · exact iff_of_true hgood hnot
    · exact iff_of_false (fun hgood => hgood.1 hbad) (not_not.2 hforgiven)

/-- A new client connects, and receives these results; `errno` is not `EAGAIN` at first. -/
def connectWith (results : List RecvResult) : ClientWorld Nat × Bool :=
  ClientWorld.connect ⟨.create, []⟩ none
    ⟨some 5, fun _ => .accepted headerSize, HandshakeRecv.ofResults false results⟩

/-- A server that answers at once. -/
theorem connectWith_reply : (connectWith [.data infoReply]).2 = true ∧
    HandshakeOk (connectWith [.data infoReply]).1.conn.stream := by
  have hok : (connectWith [.data infoReply]).2 = true := by decide +kernel
  refine ⟨hok, (handshakeOk_iff _ _ _ StreamCtx.ready_reset StreamCtx.unread_reset hok).2 ?_⟩
  rintro ⟨mid, r, post, heq, hf⟩
  have hmem : r ∈ HandshakeRecv.ofResults false [.data infoReply] := by
    rw [show HandshakeRecv.ofResults false [.data infoReply] = mid ++ r :: post from heq]
    exact List.mem_append_right _ List.mem_cons_self
  obtain rfl := List.mem_singleton.1 hmem
  cases hf.stale

/-- No data at first, then 15 bytes that are no header, then the server's reply: the connection is
accepted though its bytes are malformed. -/
theorem connectWith_garbage :
    (connectWith [.again, .data (List.replicate 15 0), .data infoReply]).2 = true ∧
      (refParse (connectWith
        [.again, .data (List.replicate 15 0), .data infoReply]).1.conn.stream).2 = none := by
  decide +kernel

end Ssn
