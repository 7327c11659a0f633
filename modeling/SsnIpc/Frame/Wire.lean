import SsnIpc.Frame.Connection
import SsnIpc.Frame.RoundTrip
import SsnIpc.Lib.Lists
import SsnIpc.Lib.Wire

/-!
# Sends on one connection

Each call of `ssn_send_message` on a connection is an attempt to put a frame on a wire
(`sendAttempt`), whatever the socket answers to it: the frame goes out whole and the call succeeds,
or not even a frame's worth of bytes goes out and the call fails. A closed descriptor takes
nothing.

**Theorem (`Conn.Follows.reads_sent`).** If all sends on a connection stop at the first failure,
and the other end has received a part of the bytes in whatever pieces, then the frames it has
dispatched are the messages sent with success, in order, each read back as it was sent, up to some
point; and all of them if it has received all bytes.
-/

namespace Ssn

open ByteMem Framing

/-! ## One send -/

/-- A message and what its send did, as an attempt on the wire. -/
def sendAttempt (s : Message × SendOut) : Attempt UInt8 := ⟨s.1.packet, s.2.accepted, s.2.ret⟩

theorem next_nil : packetFramer.next [] = .wait := rfl

theorem next_bytes (f : Frame) : packetFramer.next f.bytes = .emit f.bytes.length := by
  have h := refNext_frame f []
  rwa [List.append_nil] at h

theorem next_packet {msg : Message} (h : Sendable msg.url msg.data) :
    packetFramer.next msg.packet = .emit msg.packet.length :=
  next_bytes ⟨msg.packet, validate_packet h⟩

section Send

variable {t : Transport} {buffer : Mem} {msg : Message} {net : Nat → SendStep}

/-- **A send is whole, or less than a frame.** The buffer holds the header of the message, if that
can be sent at all. -/
theorem fair_sendMessage
    (hb : Sendable msg.url msg.data → ∃ h, HeaderReady buffer h msg.url msg.data ∧
      packetOf h msg.url msg.data = msg.packet) :
    (sendAttempt (msg, (sendMessage t buffer msg.url msg.data net).2)).Fair packetFramer := by
  by_cases hs : Sendable msg.url msg.data
  · obtain ⟨h, hh, hp⟩ := hb hs
    refine ⟨fun hret => ⟨(sendMessage_true hh hret).2.trans hp, next_packet hs⟩, fun hret => ?_⟩
    obtain ⟨buffer', heq, hslice, -⟩ := sendMessage_of_sendable t net hh hs
    simp only [sendAttempt, heq] at hret ⊢
    obtain ⟨⟨rest, hrest⟩, hall⟩ := sendLoop_accepted_spec t buffer'
      (headerSize + optLen msg.url + optLen msg.data) 0 t.budget net
    rw [Nat.sub_zero, hslice, hp] at hrest hall
    generalize (sendLoop t buffer' (headerSize + optLen msg.url + optLen msg.data) 0 t.budget
      net) = out at hret hrest hall ⊢
    have hne : out.accepted ≠ msg.packet := by
      intro heq
      rw [hall.1 heq] at hret
      cases hret
    have hlen : out.accepted.length < msg.packet.length := by
      have hle : out.accepted <+: msg.packet := ⟨rest, hrest⟩
      exact lt_of_le_of_ne hle.length_le fun h => hne (hle.eq_of_length h)
    exact refNext_part (f := ⟨msg.packet, validate_packet hs⟩) (r := [])
      (by rw [hrest, List.append_nil]) hlen
  · rw [sendMessage_of_not t buffer net hs]
    refine ⟨fun hret => ?_, fun _ => next_nil⟩
    cases hret

theorem sendMessage_closed {url data : Option Ref} (ht : t.sockFd < 0) :
    (sendMessage t buffer url data net).2.ret = false ∧
      (sendMessage t buffer url data net).2.accepted = [] := by
  by_cases hs : Sendable url data
  · obtain ⟨buffer', heq, -⟩ := sendMessage_eq_sendLoop t buffer net hs
    have hpos : ¬ headerSize + optLen url + optLen data ≤ 0 := by
      simp only [headerSize]
      omega
    have hfail (b : Bytes) : transportSend t b (net 0) = .failed := if_pos ht
    rw [heq, sendLoop, dif_neg hpos]
    simp only [hfail, and_self]
  · rw [sendMessage_of_not t buffer net hs]
    exact ⟨rfl, rfl⟩

end Send

/-! ## The sends of a connection -/

/-- The frame reads back the fields of the message. -/
def Message.Reads (msg : Message) (f : Frame) : Prop :=
  getMsgType f = msg.msgType ∧ getStatus f = msg.status ∧ getSeqno f = msg.seqno ∧
    f.url = optBytes msg.url ∧ f.data = optBytes msg.data

/-- The messages that were sent with success. -/
def sentOk (sends : List (Message × SendOut)) : List Message :=
  (sends.filter fun s => s.2.ret).map Prod.fst

def sentBytes (sends : List (Message × SendOut)) : Bytes := sends.flatMap fun s => s.2.accepted

/-- Every send is whole or less than a frame, and nothing goes out behind a failure. -/
structure OneWire (sends : List (Message × SendOut)) : Prop where
  wire : Wire packetFramer (sends.map sendAttempt)
  sendable : ∀ msg ∈ sentOk sends, Sendable msg.url msg.data

variable {sends : List (Message × SendOut)} {c : Conn}

theorem written_attempts : written (sends.map sendAttempt) = sentBytes sends := by
  rw [written, List.flatMap_map]
  rfl

theorem wholes_attempts : wholes (sends.map sendAttempt) = (sentOk sends).map Message.packet := by
  rw [wholes, sentOk, List.filter_map, List.map_map, List.map_map]
  rfl

theorem sentOk_append (msg : Message) (out : SendOut) :
    sentOk (sends ++ [(msg, out)]) = sentOk sends ++ if out.ret then [msg] else [] := by
  cases h : out.ret <;> simp [sentOk, h]

theorem sentOk_of_all (h : ∀ o ∈ sends, o.2.ret = true) : sentOk sends = sends.map Prod.fst := by
  rw [sentOk, List.filter_eq_self.2 h]

theorem mem_of_mem_sentOk {msg : Message} (h : msg ∈ sentOk sends) :
    ∃ o ∈ sends, o.1 = msg := by
  obtain ⟨o, ho, rfl⟩ := List.mem_map.1 h
  exact ⟨o, (List.mem_filter.1 ho).1, rfl⟩

theorem OneWire.nil : OneWire [] := ⟨Wire.nil, by simp [sentOk]⟩

theorem OneWire.append {t : Transport} {buffer : Mem} {msg : Message} {net : Nat → SendStep}
    (h : OneWire sends) (hclosed : (∃ s ∈ sends, s.2.ret = false) → t.sockFd < 0)
    (hb : Sendable msg.url msg.data → ∃ h, HeaderReady buffer h msg.url msg.data ∧
      packetOf h msg.url msg.data = msg.packet) :
    OneWire (sends ++ [(msg, (sendMessage t buffer msg.url msg.data net).2)]) := by
  refine ⟨?_, fun m hm => ?_⟩
  · rw [List.map_append]
    refine h.wire.append (fair_sendMessage hb) fun hex => sendMessage_closed (hclosed ?_)
    obtain ⟨a, ha, hfail⟩ := hex
    obtain ⟨s, hs, rfl⟩ := List.mem_map.1 ha
    exact ⟨s, hs, hfail⟩
  · rw [sentOk_append] at hm
    rcases List.mem_append.1 hm with hm | hm
    · exact h.sendable m hm
    · split_ifs at hm with hret
      · obtain rfl := List.mem_singleton.1 hm
        by_contra hs
        rw [sendMessage_of_not t buffer net hs] at hret
        cases hret
      · cases hm

theorem forall₂_reads {msgs : List Message} {frames : List Frame}
    (hs : ∀ msg ∈ msgs, Sendable msg.url msg.data)
    (hb : frames.map Frame.bytes = msgs.map Message.packet) :
    List.Forall₂ Message.Reads msgs frames := by
  induction msgs generalizing frames with
  | nil =>
    obtain rfl : frames = [] := by simpa using hb
    exact .nil
  | cons msg msgs ih =>
    cases frames with
    | nil => cases hb
    | cons f frames =>
      obtain ⟨hf, hrest⟩ := List.cons.inj hb
      rw [List.forall_mem_cons] at hs
      exact .cons (fields_of_packet hs.1 hf) (ih hs.2 hrest)

/-- **Frames are the messages sent.** -/
theorem Conn.Follows.reads_sent (h : c.Follows) (hw : OneWire sends)
    (hrecv : c.stream <+: sentBytes sends) :
    List.Forall₂ Message.Reads ((sentOk sends).take c.frames.length) c.frames ∧
      (c.stream = sentBytes sends → c.frames.length = (sentOk sends).length) := by
  have hflat : c.chunks.flatten <+: written (sends.map sendAttempt) := by rwa [written_attempts]
  obtain ⟨hpre, hall⟩ := hw.wire.emitted next_nil hflat
  rw [← h.frames, wholes_attempts] at hpre hall
  refine ⟨forall₂_reads (fun msg hmsg => hw.sendable msg (List.mem_of_mem_take hmsg)) ?_, ?_⟩
  · rw [List.map_take, List.prefix_iff_eq_take.1 hpre, List.length_map]
  · intro hstream
    have hlen := congrArg List.length (hall (by rw [written_attempts]; exact hstream))
    rwa [List.length_map, List.length_map] at hlen

end Ssn
