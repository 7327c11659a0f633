import SsnIpc.Frame.Send
import SsnIpc.Frame.Refinement

/-!
# What is sent is what is received

**Theorem (`send_feed_roundTrip`).** The bytes of a sequence of successful sends, cut in any way
and fed to a fresh stream parser, come out as one frame per send, and the accessors read each
message back.

Encoder and decoder check lengths in different places and by different formulas. They meet in
`validate_packet`: a packet whose message passed the sender's checks passes the receiver's, with
exactly its own length. The rest is `streamFeed_refines` on a string of whole packets.
-/

namespace Ssn

open ByteMem Framing

/-! ## A packet is a frame -/

section Packet

variable {msgType : UInt8} {status : UInt32} {seqno : UInt16} {url data : Option Ref}

def packetHeader (msgType : UInt8) (status : UInt32) (seqno : UInt16) (url data : Option Ref) :
    Header :=
  (newHeader msgType status seqno).withLengths url data

theorem ofBytes_packet : Header.ofBytes (packet msgType status seqno url data) =
    packetHeader msgType status seqno url data := by
  rw [packet, packetOf, List.append_assoc, Header.ofBytes_toBytes_append]
  rfl

theorem urlLen_packet (h : Sendable url data) :
    (packetHeader msgType status seqno url data).urlLen.toNat = optLen url := by
  have := h.url_len
  simp only [packetHeader, Header.withLengths]
  rw [UInt16.toNat_ofNat', Nat.mod_eq_of_lt (by omega)]

theorem dataLen_packet (h : Sendable url data) :
    (packetHeader msgType status seqno url data).dataLen.toNat = optLen data := by
  have := h.total
  simp only [maxPacketSize] at this
  simp only [packetHeader, Header.withLengths]
  rw [UInt32.toNat_ofNat', Nat.mod_eq_of_lt (by omega)]

theorem length_packet (h : Sendable url data) :
    (packet msgType status seqno url data).length = headerSize + optLen url + optLen data := by
  simp only [packet, packetOf, List.length_append, Header.length_toBytes, length_optBytes h.url_ptr,
    length_optBytes h.data_ptr]

/-- What the sender's checks let through, the receiver's check accepts whole. -/
theorem validate_packet (h : Sendable url data) :
    validateAndGetTotalLength (packet msgType status seqno url data) =
      some (packet msgType status seqno url data).length := by
  have htot := h.total
  refine validate_eq_some.2 ⟨?_, ?_, ?_, ?_, ?_⟩
  · rw [length_packet h]
    omega
  · rw [ofBytes_packet]
    rfl
  · rw [ofBytes_packet]
    rfl
  · rw [ofBytes_packet, urlLen_packet h, dataLen_packet h, maxPayloadSize]
    omega
  · rw [ofBytes_packet, urlLen_packet h, dataLen_packet h, length_packet h]

theorem fields_of_packet (h : Sendable url data) {f : Frame}
    (hf : f.bytes = packet msgType status seqno url data) :
    getMsgType f = msgType ∧ getStatus f = status ∧ getSeqno f = seqno ∧
      f.url = optBytes url ∧ f.data = optBytes data := by
  have hh : f.header = packetHeader msgType status seqno url data := by
    rw [Frame.header, hf, ofBytes_packet]
  have hp : f.payload = optBytes url ++ optBytes data := by
    rw [Frame.payload, hf, packet, packetOf, List.append_assoc,
      List.drop_left' (Header.length_toBytes _)]
  have hu : f.header.urlLen.toNat = (optBytes url).length := by
    rw [hh, urlLen_packet h, length_optBytes h.url_ptr]
  refine ⟨by rw [getMsgType, hh]; rfl, by rw [getStatus, hh]; rfl, by rw [getSeqno, hh]; rfl, ?_,
    ?_⟩
  · rw [Frame.url, hp, hu, List.take_left]
  · rw [Frame.data, hp, hu, List.drop_left]

end Packet

theorem sendable_none : Sendable none none := ⟨by decide, nofun, nofun, by decide⟩

theorem validate_bare (msgType : UInt8) (seqno : UInt16) :
    validateAndGetTotalLength (packet msgType 0 seqno none none) =
      some (packet msgType 0 seqno none none).length :=
  validate_packet sendable_none

/-- A frame without url and data. -/
def bareFrame (msgType : UInt8) (seqno : UInt16) : Frame :=
  ⟨packet msgType 0 seqno none none, validate_bare msgType seqno⟩

/-- A whole frame alone is accepted by `packetInput`. -/
theorem packetInput_bytes (f : Frame) : packetInput f.bytes = some f := by
  unfold packetInput
  split
  · rename_i h
    rw [f.whole] at h
    cases h
  · rename_i total h
    obtain rfl : f.bytes.length = total := by rw [f.whole] at h; exact Option.some.inj h
    rw [dif_pos (Nat.le_refl _)]
    exact congrArg some (Frame.ext_bytes (List.take_length ..))

theorem url_append_data (f : Frame) : f.url ++ f.data = f.payload :=
  List.take_append_drop ..

/-! ## Sequences of sends -/

/-- A call of `createHeader` and then `sendMessage`, with what the socket answers. -/
structure SendCall where
  transport : Transport
  sendbuf : Mem
  msgType : UInt8
  status : UInt32
  seqno : UInt16
  url : Option Ref
  data : Option Ref
  net : Nat → SendStep

namespace SendCall

def out (c : SendCall) : SendOut :=
  (sendMessage c.transport (createHeader c.sendbuf c.msgType c.status c.seqno) c.url c.data
    c.net).2

/-- The frame a receiver reads back from the call. -/
def ReadBack (c : SendCall) (f : Frame) : Prop :=
  getMsgType f = c.msgType ∧ getStatus f = c.status ∧ getSeqno f = c.seqno ∧
    (∃ u, getUrl f = some u ∧ u.contents = optBytes c.url) ∧
    (∃ d, getData f = some d ∧ d.contents = optBytes c.data) ∧
    packetInput c.out.accepted = some f

theorem readBack_of_bytes {c : SendCall} (h : c.out.ret = true) {f : Frame}
    (hf : f.bytes = c.out.accepted) : c.ReadBack f := by
  obtain ⟨hs, hacc⟩ := sendMessage_true (headerReady_createHeader ..) h
  obtain ⟨hm, hst, hsq, hu, hd⟩ := fields_of_packet hs (hf.trans hacc)
  obtain ⟨u, hgu, hcu, -⟩ := getUrl_frame f
  obtain ⟨d, hgd, hcd, -⟩ := getData_frame f
  exact ⟨hm, hst, hsq, ⟨u, hgu, hcu.trans hu⟩, ⟨d, hgd, hcd.trans hd⟩, by
    rw [← hf, packetInput_bytes]⟩

theorem next_accepted {c : SendCall} (h : c.out.ret = true) :
    refNext c.out.accepted = .emit c.out.accepted.length := by
  obtain ⟨hs, hacc⟩ := sendMessage_true (headerReady_createHeader ..) h
  rw [out, hacc]
  exact refNext_emit.2 ⟨validate_packet hs, Nat.le_refl _⟩

end SendCall

/-- The wire of successful sends is cut back into what each of them put on it. -/
theorem refParse_sends {calls : List SendCall} (h : ∀ c ∈ calls, c.out.ret = true) :
    refParse (calls.map fun c => c.out.accepted).flatten =
      (calls.map fun c => c.out.accepted, some []) := by
  refine refParse_flatten fun f hf => ?_
  obtain ⟨c, hc, rfl⟩ := List.mem_map.1 hf
  exact SendCall.next_accepted (h c hc)

theorem forall₂_readBack {calls : List SendCall} (h : ∀ c ∈ calls, c.out.ret = true)
    {frames : List Frame} (hb : frames.map Frame.bytes = calls.map fun c => c.out.accepted) :
    List.Forall₂ SendCall.ReadBack calls frames := by
  induction calls generalizing frames with
  | nil =>
    obtain rfl : frames = [] := by simpa using hb
    exact .nil
  | cons c calls ih =>
    cases frames with
    | nil => cases hb
    | cons f frames =>
      obtain ⟨hf, hrest⟩ := List.cons.inj hb
      exact .cons (SendCall.readBack_of_bytes (h c List.mem_cons_self) hf)
        (ih (fun c hc => h c (List.mem_cons_of_mem _ hc)) hrest)

/-- **What is sent is what is received.** A send hands bytes to the transport exactly when the url
length fits 16 bits, no `NULL` comes with a length and the packet fits. The wire of any sequence of
successful sends, cut into any chunks, is received as one frame per send, in order, and each frame
reads back its message (absent and empty url or data being the same) and is accepted alone by
`packetInput`. On every frame the url and the data make up the payload. -/
theorem send_feed_roundTrip :
    (∀ c : SendCall, c.out.offers ≠ [] ↔
      optLen c.url ≤ 65535 ∧ (∀ u ∈ c.url, u.NoDangle) ∧ (∀ d ∈ c.data, d.NoDangle) ∧
        headerSize + optLen c.url + optLen c.data ≤ maxPacketSize) ∧
    (∀ (calls : List SendCall) (recv₀ : StreamCtx) (bufs : List Bytes),
      (∀ c ∈ calls, c.out.ret = true) →
      bufs.flatten = (calls.map fun c => c.out.accepted).flatten →
      List.Forall₂ SendCall.ReadBack calls
        (feedChunks (fun fs f => (record fs f, true)) (streamInit recv₀) bufs []).2.1) ∧
    ∀ f : Frame, ∃ u d, getUrl f = some u ∧ getData f = some d ∧
      u.contents ++ d.contents = f.payload := by
  refine ⟨fun c => ?_, fun calls recv₀ bufs hret hwire => ?_, fun f => ?_⟩
  · rw [SendCall.out, sendMessage_offers _ _ (headerReady_createHeader ..)]
    exact ⟨fun h => ⟨h.url_len, h.url_ptr, h.data_ptr, h.total⟩,
      fun ⟨h1, h2, h3, h4⟩ => ⟨h1, h2, h3, h4⟩⟩
  · have hparse := refParse_sends hret
    rw [← hwire] at hparse
    have hfresh : (streamInit recv₀).Ready := StreamCtx.ready_reset
    have hempty : (streamInit recv₀).unread ++ bufs.flatten = bufs.flatten := by
      rw [streamInit, StreamCtx.unread_reset, List.nil_append]
    obtain ⟨hframes, -, -, -⟩ := feedChunks_accept record (r := []) [] hfresh
      (by rw [hempty, hparse])
    rw [hframes, hempty, foldl_record, List.nil_append]
    exact forall₂_readBack hret (by rw [map_bytes_refFrames, hparse])
  · obtain ⟨u, hu, hcu, -⟩ := getUrl_frame f
    obtain ⟨d, hd, hcd, -⟩ := getData_frame f
    exact ⟨u, d, hu, hd, by rw [hcu, hcd, url_append_data]⟩

end Ssn
