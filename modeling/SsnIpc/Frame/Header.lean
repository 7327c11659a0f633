import SsnIpc.Lib.ByteMem

/-!
# Packets: the header and what is read from it

A packet is a 15 byte header (`ssn_header_t`, packed, words in network byte order), then the url,
then the data. This file has the header as bytes and as a record, the check every receiver makes
on it (`validateAndGetTotalLength`), and the accessors of `src/ssn_frame.h` and
`src/ssn_frame.c`.

A `Frame` is a packet that passed the check and is all there. The accessors are given frames, as
the callbacks of the stream parser and the result of `packetInput` are, so the ranges they return
lie inside the packet.
-/

namespace Ssn

open ByteMem

/-! ## Constants -/

/-- `SSN_HEADER_SIZE`. -/
def headerSize : Nat := 15

/-- `SSN_MAX_PACKET_SIZE`. -/
def maxPacketSize : Nat := 131072

/-- `SSN_MAX_PAYLOAD_SIZE`. -/
def maxPayloadSize : Nat := maxPacketSize - headerSize

/-- `SSN_MAGIC_BYTE`. -/
def magicByte : UInt8 := 0x09

/-- `SSN_PROTOCOL_VERSION`. -/
def protocolVersion : UInt8 := 0x02

/-- The character `/` that urls start with. -/
def slash : UInt8 := 0x2F

/-- A url that starts with `/`. -/
def urlOk (url : Bytes) : Bool := url.head? = some slash

namespace MsgType

/-- `SSN_MSG_TYPE_SERVICE_INFO`. -/
def serviceInfo : UInt8 := 0x00

/-- `SSN_MSG_TYPE_RPC_REQUEST`, the type of a request and of its reply. -/
def rpcRequest : UInt8 := 0x01

/-- `SSN_MSG_TYPE_SUBSCRIBE`. -/
def subscribe : UInt8 := 0x02

/-- `SSN_MSG_TYPE_UNSUBSCRIBE`. -/
def unsubscribe : UInt8 := 0x03

/-- `SSN_MSG_TYPE_PUBLISH`. -/
def publish : UInt8 := 0x04

/-- `SSN_MSG_TYPE_MESSAGE`. -/
def message : UInt8 := 0x05

/-- `SSN_MSG_TYPE_PING_ECHO`. -/
def pingEcho : UInt8 := 0xFF

end MsgType

/-! ## The header -/

/-- `ssn_header_t`, its words in host byte order. -/
structure Header where
  magic : UInt8
  version : UInt8
  msgType : UInt8
  status : UInt32
  urlLen : UInt16
  seqno : UInt16
  dataLen : UInt32
  deriving DecidableEq, Repr

namespace Header

/-- The header as it lies in a buffer. -/
def toBytes (h : Header) : Bytes :=
  [h.magic, h.version, h.msgType] ++ toBe 4 h.status.toNat ++ toBe 2 h.urlLen.toNat ++
    toBe 2 h.seqno.toNat ++ toBe 4 h.dataLen.toNat

/-- The header read from the front of a buffer. -/
def ofBytes (b : Bytes) : Header where
  magic := b.getD 0 0
  version := b.getD 1 0
  msgType := b.getD 2 0
  status := UInt32.ofNat (ofBe ((b.drop 3).take 4))
  urlLen := UInt16.ofNat (ofBe ((b.drop 7).take 2))
  seqno := UInt16.ofNat (ofBe ((b.drop 9).take 2))
  dataLen := UInt32.ofNat (ofBe ((b.drop 11).take 4))

@[simp] theorem length_toBytes (h : Header) : h.toBytes.length = headerSize := by
  simp [toBytes, headerSize]

theorem ofBytes_toBytes_append (h : Header) (b : Bytes) : ofBytes (h.toBytes ++ b) = h := by
  have hs : ofBe (toBe 4 h.status.toNat) = h.status.toNat := ofBe_toBe h.status.toNat_lt
  have hu : ofBe (toBe 2 h.urlLen.toNat) = h.urlLen.toNat := ofBe_toBe h.urlLen.toNat_lt
  have hq : ofBe (toBe 2 h.seqno.toNat) = h.seqno.toNat := ofBe_toBe h.seqno.toNat_lt
  have hd : ofBe (toBe 4 h.dataLen.toNat) = h.dataLen.toNat := ofBe_toBe h.dataLen.toNat_lt
  have fs : ((h.toBytes ++ b).drop 3).take 4 = toBe 4 h.status.toNat := by
    simp only [toBytes, List.append_assoc]
    exact take_drop_append (by simp) (by simp)
  have fu : ((h.toBytes ++ b).drop 7).take 2 = toBe 2 h.urlLen.toNat := by
    simp only [toBytes, List.append_assoc]
    rw [← List.append_assoc]
    exact take_drop_append (by simp) (by simp)
  have fq : ((h.toBytes ++ b).drop 9).take 2 = toBe 2 h.seqno.toNat := by
    simp only [toBytes, List.append_assoc]
    rw [← List.append_assoc, ← List.append_assoc]
    exact take_drop_append (by simp) (by simp)
  have fd : ((h.toBytes ++ b).drop 11).take 4 = toBe 4 h.dataLen.toNat := by
    simp only [toBytes, List.append_assoc]
    rw [← List.append_assoc, ← List.append_assoc, ← List.append_assoc]
    exact take_drop_append (by simp) (by simp)
  unfold ofBytes
  rw [fs, fu, fq, fd, hs, hu, hq, hd]
  simp [toBytes]

theorem ofBytes_append {b : Bytes} (hb : headerSize ≤ b.length) (c : Bytes) :
    ofBytes (b ++ c) = ofBytes b := by
  have h15 : 15 ≤ b.length := hb
  have hword (i w : Nat) (hi : i + w ≤ 15) :
      ((b ++ c).drop i).take w = (b.drop i).take w := by
    rw [List.drop_append_of_le_length (by omega), List.take_append_of_le_length]
    rw [List.length_drop]
    omega
  have hbyte (i : Nat) (hi : i < 15) : (b ++ c).getD i 0 = b.getD i 0 := by
    rw [List.getD_eq_getElem?_getD, List.getD_eq_getElem?_getD,
      List.getElem?_append_left (by omega)]
  simp only [ofBytes, hword 3 4 (by omega), hword 7 2 (by omega), hword 9 2 (by omega),
    hword 11 4 (by omega), hbyte 0 (by omega), hbyte 1 (by omega), hbyte 2 (by omega)]

end Header

/-! ## The receivers' check -/

/-- `validate_and_get_total_length`: check the header at the front of `buf` and compute the
length of its packet. Whether the packet is all there is left to the caller. -/
def validateAndGetTotalLength (buf : Bytes) : Option Nat :=
  if buf.length < headerSize then none
  else
    let h := Header.ofBytes buf
    if h.magic ≠ magicByte ∨ h.version ≠ protocolVersion then none
    else if h.urlLen.toNat + h.dataLen.toNat > maxPayloadSize then none
    else some (headerSize + h.urlLen.toNat + h.dataLen.toNat)

theorem validate_eq_some {buf : Bytes} {n : Nat} :
    validateAndGetTotalLength buf = some n ↔
      headerSize ≤ buf.length ∧ (Header.ofBytes buf).magic = magicByte ∧
        (Header.ofBytes buf).version = protocolVersion ∧
        (Header.ofBytes buf).urlLen.toNat + (Header.ofBytes buf).dataLen.toNat ≤ maxPayloadSize ∧
        n = headerSize + (Header.ofBytes buf).urlLen.toNat +
          (Header.ofBytes buf).dataLen.toNat := by
  unfold validateAndGetTotalLength
  by_cases hlen : buf.length < headerSize
  · simp only [hlen, if_true, reduceCtorEq, false_iff]
    rintro ⟨h, -⟩
    omega
  · simp only [hlen, if_false]
    split_ifs with hm hp
    · simp only [false_iff]
      rintro ⟨-, h1, h2, -⟩
      rcases hm with hm | hm <;> contradiction
    · simp only [false_iff]
      omega
    · simp only [Option.some.injEq, not_or, not_not] at hm ⊢
      constructor
      · rintro rfl
        exact ⟨by omega, hm.1, hm.2, by omega, rfl⟩
      · rintro ⟨-, -, -, -, rfl⟩
        rfl

theorem validate_append {b : Bytes} (hb : headerSize ≤ b.length) (c : Bytes) :
    validateAndGetTotalLength (b ++ c) = validateAndGetTotalLength b := by
  have h1 : ¬ b.length < headerSize := by omega
  have h2 : ¬ (b ++ c).length < headerSize := by rw [List.length_append]; omega
  simp only [validateAndGetTotalLength, h1, h2, if_false, Header.ofBytes_append hb]

theorem validate_take {b : Bytes} {n : Nat} (hb : headerSize ≤ b.length) (hn : headerSize ≤ n) :
    validateAndGetTotalLength (b.take n) = validateAndGetTotalLength b := by
  conv_rhs => rw [← List.take_append_drop n b]
  rw [validate_append]
  rw [List.length_take]
  omega

theorem validate_le {buf : Bytes} {n : Nat} (h : validateAndGetTotalLength buf = some n) :
    headerSize ≤ n ∧ n ≤ maxPacketSize := by
  obtain ⟨-, -, -, hp, rfl⟩ := validate_eq_some.1 h
  simp only [maxPayloadSize, maxPacketSize, headerSize] at hp ⊢
  omega

/-! ## Frames -/

/-- A packet that passed the check and is all there. -/
structure Frame where
  bytes : Bytes
  whole : validateAndGetTotalLength bytes = some bytes.length
  deriving DecidableEq

/-- A pointer with a length, as `ssn_url_ref_t` and `ssn_data_ref_t` hold them: `NULL`, or as
many bytes as the length says. -/
structure Ref where
  ptr : Option Bytes
  len : Nat
  fits : ∀ b ∈ ptr, b.length = len

namespace Ref

/-- A pointer to `b`. -/
def ofBytes (b : Bytes) : Ref := ⟨some b, b.length, by simp⟩

/-- The bytes pointed to. -/
def contents (r : Ref) : Bytes := r.ptr.getD []

/-- A `NULL` pointer does not come with a length. -/
def NoDangle (r : Ref) : Prop := r.ptr = none → r.len = 0

instance (r : Ref) : Decidable r.NoDangle := inferInstanceAs (Decidable (_ → _))

theorem length_contents {r : Ref} (h : r.NoDangle) : r.contents.length = r.len := by
  obtain ⟨ptr, len, fits⟩ := r
  cases ptr with
  | none => simpa [contents] using (h rfl).symm
  | some b => simpa [contents] using fits b rfl

end Ref

namespace Frame

/-- The header of the frame. -/
def header (f : Frame) : Header := Header.ofBytes f.bytes

/-- What follows the header. -/
def payload (f : Frame) : Bytes := f.bytes.drop headerSize

theorem valid (f : Frame) : headerSize ≤ f.bytes.length ∧ f.header.magic = magicByte ∧
    f.header.version = protocolVersion ∧
    f.header.urlLen.toNat + f.header.dataLen.toNat ≤ maxPayloadSize ∧
    f.bytes.length = headerSize + f.header.urlLen.toNat + f.header.dataLen.toNat :=
  validate_eq_some.1 f.whole

theorem length_payload (f : Frame) :
    f.payload.length = f.header.urlLen.toNat + f.header.dataLen.toNat := by
  obtain ⟨-, -, -, -, hlen⟩ := f.valid
  rw [payload, List.length_drop]
  omega

theorem ext_bytes {f g : Frame} (h : f.bytes = g.bytes) : f = g := by
  cases f
  cases g
  simpa using h

end Frame

/-! ## Accessors -/

/-- `ssn_get_msg_type`. -/
def getMsgType (f : Frame) : UInt8 := f.header.msgType

/-- `ssn_get_status`. -/
def getStatus (f : Frame) : UInt32 := f.header.status

/-- `ssn_get_seqno`. -/
def getSeqno (f : Frame) : UInt16 := f.header.seqno

/-- The `len` bytes of the payload from `off` on, as the accessors return them: `NULL` when the
length is 0. -/
def Frame.sub (f : Frame) (off len : Nat) (h : off + len ≤ f.payload.length) : Ref where
  ptr := if 0 < len then some ((f.payload.drop off).take len) else none
  len := len
  fits := by
    intro b hb
    split_ifs at hb
    · obtain rfl := Option.some.inj hb
      rw [List.length_take, List.length_drop]
      omega
    · simp at hb

/-- `ssn_get_url`: the url, unless magic or version is wrong. -/
def getUrl (f : Frame) : Option Ref :=
  if f.header.magic ≠ magicByte ∨ f.header.version ≠ protocolVersion then none
  else some (f.sub 0 f.header.urlLen.toNat (by rw [f.length_payload]; omega))

/-- `ssn_get_data`: the data, unless magic or version is wrong. -/
def getData (f : Frame) : Option Ref :=
  if f.header.magic ≠ magicByte ∨ f.header.version ≠ protocolVersion then none
  else some (f.sub f.header.urlLen.toNat f.header.dataLen.toNat
    (Nat.le_of_eq f.length_payload.symm))

def Frame.url (f : Frame) : Bytes := f.payload.take f.header.urlLen.toNat

def Frame.data (f : Frame) : Bytes := f.payload.drop f.header.urlLen.toNat

theorem Frame.contents_sub (f : Frame) (off len : Nat) (h : off + len ≤ f.payload.length) :
    (f.sub off len h).contents = (f.payload.drop off).take len := by
  unfold sub Ref.contents
  by_cases hl : 0 < len
  · simp [hl]
  · simp [show len = 0 by omega]

/-- The url accessor succeeds on a frame and returns the front of the payload. -/
theorem getUrl_frame (f : Frame) : ∃ r, getUrl f = some r ∧ r.contents = f.url ∧
    r.len = f.header.urlLen.toNat := by
  obtain ⟨-, hm, hv, -, -⟩ := f.valid
  refine ⟨_, by rw [getUrl, if_neg (by simp [hm, hv])], ?_, rfl⟩
  rw [Frame.contents_sub]
  rfl

/-- The data accessor succeeds on a frame and returns the rest of the payload. -/
theorem getData_frame (f : Frame) : ∃ r, getData f = some r ∧ r.contents = f.data ∧
    r.len = f.header.dataLen.toNat := by
  obtain ⟨-, hm, hv, -, -⟩ := f.valid
  refine ⟨_, by rw [getData, if_neg (by simp [hm, hv])], ?_, rfl⟩
  rw [Frame.contents_sub]
  refine List.take_of_length_le ?_
  rw [List.length_drop, f.length_payload]
  omega

/-- `ssn_packet_input`: the packet at the front of a buffer, if it is all there. -/
def packetInput (buf : Bytes) : Option Frame :=
  match h : validateAndGetTotalLength buf with
  | none => none
  | some total =>
    if ht : total ≤ buf.length then
      some ⟨buf.take total, by
        have hle := (validate_le h).1
        rw [validate_take (by omega) hle, h, List.length_take, Nat.min_eq_left ht]⟩
    else none

end Ssn
