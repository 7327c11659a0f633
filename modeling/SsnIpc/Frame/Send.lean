import Mathlib.Algebra.GroupWithZero.Nat
import SsnIpc.Frame.Header
import SsnIpc.Transport

/-!
# Sending a packet

`ssn_create_header` writes a header at the front of a send buffer; `ssn_send_message` checks the
lengths, fills them into the header, copies url and data behind it and sends the whole, in as many
parts as the socket takes.

**Theorem (`sendMessage_offers`).** Bytes are handed to the transport exactly when the url length
fits 16 bits, no `NULL` comes with a length, and the packet fits `SSN_MAX_PACKET_SIZE`.

**Theorem (`sendMessage_true`).** A send that succeeds has put exactly one well formed packet on
the wire, however the socket took it.

**Theorem (`sendMessage_ret_iff`).** A send succeeds exactly when the descriptor is open, the
message can be sent and the socket takes the packet before the waiting budget is spent.

**Theorem (`sendMessage_within_budget`).** Every send ends: the attempts are bounded by the length
of the packet and the waiting budget, and the waits together last no longer than the budget.

All but the first rest on facts about the loop. They are proved with one rule, `sendLoop_rule`,
which says what one attempt can do, or, for the exact condition `sendLoop_ret_iff`, by induction
along the loop.
-/

namespace Ssn

open ByteMem

/-! ## The model -/

/-- `ssn_create_header`. -/
def createHeader (outb : Mem) (msgType : UInt8) (status : UInt32) (seqno : UInt16) : Mem :=
  outb.write 0 (Header.toBytes ⟨magicByte, protocolVersion, msgType, status, 0, seqno, 0⟩)

/-- `ssn_set_url_length`. -/
def setUrlLength (hdr : Mem) (n : UInt16) : Mem := hdr.write 7 (toBe 2 n.toNat)

/-- `ssn_set_data_length`. -/
def setDataLength (hdr : Mem) (n : UInt32) : Mem := hdr.write 11 (toBe 4 n.toNat)

/-- A request to send: the fields of a packet. -/
structure Message where
  msgType : UInt8
  status : UInt32
  seqno : UInt16
  url : Option Ref
  data : Option Ref

/-- What a send does: its result, the ranges handed to the transport, the bytes the transport
took, and the milliseconds allowed to each wait. -/
structure SendOut where
  ret : Bool
  offers : List Bytes
  accepted : Bytes
  waits : List Nat
  deriving DecidableEq, Repr

namespace SendOut

/-- Nothing was handed to the transport. -/
def refused : SendOut := ⟨false, [], [], []⟩

end SendOut

/-- The send loop of `ssn_send_message`: `sent` of the `pos` bytes are out, `deadline` is what is
left of the waiting budget, and `net` is what the socket answers from now on. -/
def sendLoop (t : Transport) (buffer : Mem) (pos sent deadline : Nat) (net : Nat → SendStep) :
    SendOut :=
  if _hs : pos ≤ sent then ⟨true, [], [], []⟩
  else
    let data := buffer.slice sent (pos - sent)
    match transportSend t data (net 0) with
    | .accepted n =>
      if _hn : n = 0 then ⟨false, [data], [], []⟩
      else
        let rest := sendLoop t buffer pos (sent + n) deadline (fun i => net (i + 1))
        { rest with offers := data :: rest.offers, accepted := data.take n ++ rest.accepted }
    | .again poll =>
      if _hd : deadline = 0 ∨ t.getFd < 0 then ⟨false, [data], [], []⟩
      else
        let waitMs := if deadline < 100 then deadline else 100
        match poll with
        | .failed => ⟨false, [data], [], [waitMs]⟩
        | _ =>
          let rest := sendLoop t buffer pos sent (deadline - waitMs) (fun i => net (i + 1))
          { rest with offers := data :: rest.offers, waits := waitMs :: rest.waits }
    | .failed => ⟨false, [data], [], []⟩
termination_by (pos - sent) + deadline
decreasing_by
  · omega
  · rw [not_or] at _hd
    split <;> omega

/-- The total waiting budget of a send, in milliseconds. -/
def Transport.budget (t : Transport) : Nat :=
  if 0 < t.sendTimeoutMs then t.sendTimeoutMs.toNat else 5000

/-- `ssn_send_message`: the header is at the front of `buffer`, `url` and `data` are optional
arguments. Returns the buffer as the call leaves it. -/
def sendMessage (t : Transport) (buffer : Mem) (url data : Option Ref) (net : Nat → SendStep) :
    Mem × SendOut :=
  if url.any (fun u => 0xFFFF < u.len) then (buffer, .refused)
  else if url.any (fun u => u.ptr.isNone ∧ 0 < u.len) then (buffer, .refused)
  else if data.any (fun d => 0xFFFFFFFF < d.len) then (buffer, .refused)
  else if data.any (fun d => d.ptr.isNone ∧ 0 < d.len) then (buffer, .refused)
  else
    let buffer := url.elim buffer fun u => setUrlLength buffer (UInt16.ofNat u.len)
    let buffer := data.elim buffer fun d => setDataLength buffer (UInt32.ofNat d.len)
    let totalLength := headerSize + url.elim 0 Ref.len + data.elim 0 Ref.len
    if totalLength > maxPacketSize ∨ totalLength < headerSize then (buffer, .refused)
    else
      let pos := headerSize
      let buffer := url.elim buffer fun u => buffer.write pos u.contents
      let pos := pos + url.elim 0 Ref.len
      let buffer := data.elim buffer fun d => buffer.write pos d.contents
      let pos := pos + data.elim 0 fun d => if d.ptr.isSome then d.len else 0
      (buffer, sendLoop t buffer pos 0 t.budget net)

/-! ## The send loop -/

theorem sendLoop_offers {t : Transport} {buffer : Mem} {pos sent deadline : Nat}
    {net : Nat → SendStep} (h : sent < pos) :
    (sendLoop t buffer pos sent deadline net).offers ≠ [] := by
  rw [sendLoop, dif_neg (by omega)]
  dsimp only
  repeat' split
  all_goals exact List.cons_ne_nil _ _

section Turn

variable {t : Transport} {buffer : Mem} {pos sent deadline : Nat} {net : Nat → SendStep}

/-- A socket that takes `n` bytes: the loop goes on behind them. -/
theorem sendLoop_accepted {n : Nat} (hs : sent < pos)
    (hsend : transportSend t (buffer.slice sent (pos - sent)) (net 0) = .accepted n)
    (hn : n ≠ 0) :
    (sendLoop t buffer pos sent deadline net).ret =
      (sendLoop t buffer pos (sent + n) deadline fun i => net (i + 1)).ret := by
  rw [sendLoop, dif_neg (by omega)]
  simp only [hsend, dif_neg hn]

/-- A socket that blocks: the loop waits, at most 100 ms, and tries again. -/
theorem sendLoop_again {poll : PollEnd} (hs : sent < pos)
    (hsend : transportSend t (buffer.slice sent (pos - sent)) (net 0) = .again poll)
    (hd : ¬ (deadline = 0 ∨ t.getFd < 0)) (hpoll : poll ≠ .failed) :
    (sendLoop t buffer pos sent deadline net).ret =
      (sendLoop t buffer pos sent (deadline - 100) fun i => net (i + 1)).ret := by
  have hwait : deadline - (if deadline < 100 then deadline else 100) = deadline - 100 := by
    split <;> omega
  rw [sendLoop, dif_neg (by omega)]
  simp only [hsend, dif_neg hd, hwait]

/-- A socket that blocks when the budget is spent, or whose poll fails, ends the loop. -/
theorem sendLoop_giveUp {poll : PollEnd} (hs : sent < pos)
    (hsend : transportSend t (buffer.slice sent (pos - sent)) (net 0) = .again poll)
    (h : (deadline = 0 ∨ t.getFd < 0) ∨ poll = .failed) :
    (sendLoop t buffer pos sent deadline net).ret = false := by
  rw [sendLoop, dif_neg (by omega)]
  simp only [hsend]
  by_cases hd : deadline = 0 ∨ t.getFd < 0
  · rw [dif_pos hd]
  · rw [dif_neg hd, h.resolve_left hd]

theorem sendLoop_stop (hs : sent < pos)
    (h : transportSend t (buffer.slice sent (pos - sent)) (net 0) = .accepted 0 ∨
      transportSend t (buffer.slice sent (pos - sent)) (net 0) = .failed) :
    (sendLoop t buffer pos sent deadline net).ret = false := by
  rw [sendLoop, dif_neg (by omega)]
  rcases h with hsend | hsend
  · simp only [hsend, dif_pos]
  · simp only [hsend]

end Turn

/-- **The rule of the loop.** What holds when nothing is left, when an attempt ends the loop, and
of an attempt with a rest for which it holds, holds of the loop. A wait uses up what it may last,
and at most 100 ms. -/
theorem sendLoop_rule {t : Transport} {buffer : Mem} {pos : Nat} {P : Nat → Nat → SendOut → Prop}
    (done : ∀ sent deadline, pos ≤ sent → P sent deadline ⟨true, [], [], []⟩)
    (stop : ∀ sent deadline waits, sent < pos → (waits = [] ∨ waits = [min deadline 100]) →
      P sent deadline ⟨false, [buffer.slice sent (pos - sent)], [], waits⟩)
    (take : ∀ sent deadline n rest, sent < pos → 0 < n → n ≤ pos - sent →
      P (sent + n) deadline rest →
      P sent deadline { rest with
        offers := buffer.slice sent (pos - sent) :: rest.offers
        accepted := (buffer.slice sent (pos - sent)).take n ++ rest.accepted })
    (wait : ∀ sent deadline rest, sent < pos → 0 < deadline →
      P sent (deadline - min deadline 100) rest →
      P sent deadline { rest with
        offers := buffer.slice sent (pos - sent) :: rest.offers
        waits := min deadline 100 :: rest.waits })
    (sent deadline : Nat) (net : Nat → SendStep) :
    P sent deadline (sendLoop t buffer pos sent deadline net) := by
  by_cases hs : pos ≤ sent
  · rw [sendLoop, dif_pos hs]
    exact done sent deadline hs
  have hs' : sent < pos := Nat.not_le.1 hs
  have hwait : (if deadline < 100 then deadline else 100) = min deadline 100 := by
    split <;> omega
  rw [sendLoop, dif_neg hs]
  cases hsend : transportSend t (buffer.slice sent (pos - sent)) (net 0) with
  | accepted n =>
    have hle : n ≤ pos - sent := by simpa using transportSend_accepted hsend
    by_cases hn : n = 0
    · simp only [hsend, dif_pos hn]
      exact stop sent deadline [] hs' (.inl rfl)
    · simp only [hsend, dif_neg hn]
      exact take sent deadline n _ hs' (by omega) hle
        (sendLoop_rule done stop take wait (sent + n) deadline _)
  | again poll =>
    -- The loop gives up if no time is left, if there is nothing to wait on, or if waiting fails.
    by_cases hd : deadline = 0 ∨ t.getFd < 0
    · simp only [hsend, dif_pos hd]
      exact stop sent deadline [] hs' (.inl rfl)
    have hd' : 0 < deadline := Nat.pos_of_ne_zero fun h => hd (.inl h)
    simp only [hsend, dif_neg hd, hwait]
    cases poll with
    | failed => exact stop sent deadline _ hs' (.inr rfl)
    | ready | timeout | interrupted =>
      exact wait sent deadline _ hs' hd' (sendLoop_rule done stop take wait sent _ _)
  | failed =>
    simp only [hsend]
    exact stop sent deadline [] hs' (.inl rfl)
termination_by (pos - sent) + deadline
decreasing_by all_goals omega

/-- **What a loop has put on the wire comes first of the bytes left,** and it is all of them if
and only if the loop succeeds. -/
theorem sendLoop_accepted_spec (t : Transport) (buffer : Mem) (pos sent deadline : Nat)
    (net : Nat → SendStep) :
    (sendLoop t buffer pos sent deadline net).accepted <+: buffer.slice sent (pos - sent) ∧
      ((sendLoop t buffer pos sent deadline net).accepted = buffer.slice sent (pos - sent) ↔
        (sendLoop t buffer pos sent deadline net).ret = true) := by
  refine sendLoop_rule (P := fun sent _ out => out.accepted <+: buffer.slice sent (pos - sent) ∧
    (out.accepted = buffer.slice sent (pos - sent) ↔ out.ret = true)) ?_ ?_ ?_ ?_ sent deadline net
  · intro sent _ hs
    rw [Nat.sub_eq_zero_of_le hs]
    exact ⟨List.nil_prefix, iff_of_true rfl rfl⟩
  · intro sent _ _ hs _
    refine ⟨List.nil_prefix, iff_of_false (fun h => ?_) Bool.false_ne_true⟩
    have hlen := congrArg List.length h
    simp only [List.length_nil, Mem.length_slice] at hlen
    omega
  · intro sent _ n rest _ _ hle ih
    -- what is left splits into the bytes taken now and those left for the rest
    have hsplit : buffer.slice sent (pos - sent) =
        (buffer.slice sent (pos - sent)).take n ++ buffer.slice (sent + n) (pos - (sent + n)) := by
      rw [Nat.sub_add_eq, ← Mem.drop_slice _ _ _ _ hle, List.take_append_drop]
    refine ⟨?_, ?_⟩
    · conv_rhs => rw [hsplit]
      exact (List.prefix_append_right_inj _).2 ih.1
    · conv_lhs => rhs; rw [hsplit]
      exact (List.append_right_inj _).trans ih.2
  · intro sent _ rest _ _ ih
    exact ih

/-- A loop waits no longer than its budget. -/
theorem sendLoop_sum_waits (t : Transport) (buffer : Mem) (pos sent deadline : Nat)
    (net : Nat → SendStep) : (sendLoop t buffer pos sent deadline net).waits.sum ≤ deadline := by
  refine sendLoop_rule (P := fun _ deadline out => out.waits.sum ≤ deadline) ?_ ?_ ?_ ?_ sent
    deadline net
  · intro _ _ _
    exact Nat.zero_le _
  · rintro _ deadline _ _ (rfl | rfl)
    · exact Nat.zero_le _
    · simp only [List.sum_cons, List.sum_nil]
      omega
  · intro _ _ _ _ _ _ _ ih
    exact ih
  · intro _ deadline rest _ _ ih
    simp only [List.sum_cons]
    omega

/-- **The loop ends.** Every attempt but the last takes a byte or uses up 100 ms of the budget, or
what is left of it. -/
theorem sendLoop_length_offers (t : Transport) (buffer : Mem) (pos sent deadline : Nat)
    (net : Nat → SendStep) :
    (sendLoop t buffer pos sent deadline net).offers.length ≤
      (pos - sent) + (deadline + 99) / 100 + 1 := by
  refine sendLoop_rule (P := fun sent deadline out =>
    out.offers.length ≤ (pos - sent) + (deadline + 99) / 100 + 1) ?_ ?_ ?_ ?_ sent deadline net
  · intro _ _ _
    exact Nat.zero_le _
  · intro _ _ _ _ _
    exact Nat.le_add_left ..
  · intro sent deadline n rest _ hn _ ih
    simp only [List.length_cons]
    omega
  · intro sent deadline rest _ hd ih
    simp only [List.length_cons]
    omega

/-- The socket takes `left` bytes before `deadline` milliseconds of waiting are spent: it takes
some, or it makes the sender wait, at most 100 ms at a time, until nothing is left. -/
inductive Delivers : Nat → Nat → (Nat → SendStep) → Prop
  | done {deadline : Nat} {net : Nat → SendStep} : Delivers 0 deadline net
  | take {left deadline n : Nat} {net : Nat → SendStep} (hnet : net 0 = .accepted n) (hn : 0 < n)
      (rest : Delivers (left + 1 - n) deadline fun i => net (i + 1)) :
      Delivers (left + 1) deadline net
  | wait {left deadline : Nat} {poll : PollEnd} {net : Nat → SendStep} (hnet : net 0 = .again poll)
      (hpoll : poll ≠ .failed) (hd : 0 < deadline)
      (rest : Delivers (left + 1) (deadline - 100) fun i => net (i + 1)) :
      Delivers (left + 1) deadline net

theorem delivers_accepted {left deadline n : Nat} {net : Nat → SendStep}
    (hnet : net 0 = .accepted n) (hleft : 0 < left) :
    Delivers left deadline net ↔
      0 < n ∧ Delivers (left - n) deadline fun i => net (i + 1) := by
  constructor
  · intro h
    cases h with
    | done => omega
    | take hnet' hn rest =>
      obtain rfl := SendStep.accepted.inj (hnet.symm.trans hnet')
      exact ⟨hn, rest⟩
    | wait hnet' => cases hnet.symm.trans hnet'
  · rintro ⟨hn, rest⟩
    obtain ⟨k, rfl⟩ := Nat.exists_eq_succ_of_ne_zero (Nat.ne_of_gt hleft)
    exact .take hnet hn rest

theorem delivers_again {left deadline : Nat} {poll : PollEnd} {net : Nat → SendStep}
    (hnet : net 0 = .again poll) (hleft : 0 < left) :
    Delivers left deadline net ↔
      poll ≠ .failed ∧ 0 < deadline ∧
        Delivers left (deadline - 100) fun i => net (i + 1) := by
  constructor
  · intro h
    cases h with
    | done => omega
    | take hnet' => cases hnet.symm.trans hnet'
    | wait hnet' hpoll hd rest =>
      obtain rfl := SendStep.again.inj (hnet.symm.trans hnet')
      exact ⟨hpoll, hd, rest⟩
  · rintro ⟨hpoll, hd, rest⟩
    obtain ⟨k, rfl⟩ := Nat.exists_eq_succ_of_ne_zero (Nat.ne_of_gt hleft)
    exact .wait hnet hpoll hd rest

theorem not_delivers_failed {left deadline : Nat} {net : Nat → SendStep} (hnet : net 0 = .failed)
    (hleft : 0 < left) : ¬ Delivers left deadline net := by
  intro h
  cases h with
  | done => omega
  | take hnet' => cases hnet.symm.trans hnet'
  | wait hnet' => cases hnet.symm.trans hnet'

/-- **When the loop succeeds.** On an open descriptor: exactly when the socket takes what is
left. -/
theorem sendLoop_ret_iff (t : Transport) (buffer : Mem) (pos sent deadline : Nat)
    (net : Nat → SendStep) (hfd : ¬ t.sockFd < 0) :
    (sendLoop t buffer pos sent deadline net).ret = true ↔ Delivers (pos - sent) deadline net := by
  by_cases hs : pos ≤ sent
  · rw [sendLoop, dif_pos hs, Nat.sub_eq_zero_of_le hs]
    exact iff_of_true rfl .done
  have hs' : sent < pos := Nat.not_le.1 hs
  cases hnet : net 0 with
  | accepted m =>
    have hsend : transportSend t (buffer.slice sent (pos - sent)) (net 0) =
        .accepted (min m (pos - sent)) := by simp [hnet, transportSend, hfd]
    rw [delivers_accepted hnet (by omega)]
    by_cases hm : m = 0
    · subst hm
      rw [Nat.zero_min] at hsend
      rw [sendLoop_stop hs' (.inl hsend)]
      exact iff_of_false Bool.false_ne_true fun h => absurd h.1 (Nat.lt_irrefl 0)
    -- What is left to send is counted the same way on both sides.
    have hleft : pos - (sent + min m (pos - sent)) = pos - sent - m := by omega
    rw [sendLoop_accepted hs' hsend (by omega), sendLoop_ret_iff _ _ _ _ _ _ hfd, hleft]
    exact (and_iff_right (by omega)).symm
  | again poll =>
    have hsend : transportSend t (buffer.slice sent (pos - sent)) (net 0) = .again poll := by
      simp [hnet, transportSend, hfd]
    rw [delivers_again hnet (by omega)]
    by_cases hg : (deadline = 0 ∨ t.getFd < 0) ∨ poll = .failed
    · rw [sendLoop_giveUp hs' hsend hg]
      refine iff_of_false Bool.false_ne_true fun h => ?_
      rcases hg with (hd | hclosed) | hpoll
      · omega
      · exact hfd hclosed
      · exact h.1 hpoll
    rw [not_or] at hg
    rw [sendLoop_again hs' hsend hg.1 hg.2, sendLoop_ret_iff _ _ _ _ _ _ hfd]
    exact ((and_iff_right hg.2).trans (and_iff_right (by omega))).symm
  | failed =>
    have hsend : transportSend t (buffer.slice sent (pos - sent)) (net 0) = .failed := by
      simp [hnet, transportSend]
    rw [sendLoop_stop hs' (.inr hsend)]
    exact iff_of_false Bool.false_ne_true (not_delivers_failed hnet (by omega))
termination_by (pos - sent) + deadline
decreasing_by all_goals omega

theorem sendLoop_closed {t : Transport} {buffer : Mem} {pos sent deadline : Nat}
    {net : Nat → SendStep} (hfd : t.sockFd < 0) (h : sent < pos) :
    (sendLoop t buffer pos sent deadline net).ret = false :=
  sendLoop_stop h (.inr (if_pos hfd))

/-! ## The packet on the wire -/

def optLen (r : Option Ref) : Nat := r.elim 0 Ref.len

/-- The bytes of an optional argument; absent and empty are the same. -/
def optBytes (r : Option Ref) : Bytes := r.elim [] Ref.contents

/-- What a message must meet to be sent. -/
structure Sendable (url data : Option Ref) : Prop where
  url_len : optLen url ≤ 0xFFFF
  url_ptr : ∀ u ∈ url, u.NoDangle
  data_ptr : ∀ d ∈ data, d.NoDangle
  total : headerSize + optLen url + optLen data ≤ maxPacketSize

theorem length_optBytes {r : Option Ref} (h : ∀ x ∈ r, x.NoDangle) :
    (optBytes r).length = optLen r := by
  cases r with
  | none => rfl
  | some x => exact Ref.length_contents (h x rfl)

def Header.withLengths (h : Header) (url data : Option Ref) : Header :=
  { h with urlLen := UInt16.ofNat (optLen url), dataLen := UInt32.ofNat (optLen data) }

/-- The packet sent from a header: lengths filled in, then url, then data. -/
def packetOf (h : Header) (url data : Option Ref) : Bytes :=
  (h.withLengths url data).toBytes ++ optBytes url ++ optBytes data

/-- The header `createHeader` writes. -/
def newHeader (msgType : UInt8) (status : UInt32) (seqno : UInt16) : Header :=
  ⟨magicByte, protocolVersion, msgType, status, 0, seqno, 0⟩

def packet (msgType : UInt8) (status : UInt32) (seqno : UInt16) (url data : Option Ref) : Bytes :=
  packetOf (newHeader msgType status seqno) url data

def Message.packet (msg : Message) : Bytes :=
  Ssn.packet msg.msgType msg.status msg.seqno msg.url msg.data

/-- The buffer starts with a header whose lengths are 0 where no argument will set them. -/
structure HeaderReady (buffer : Mem) (h : Header) (url data : Option Ref) : Prop where
  slice_eq : buffer.slice 0 headerSize = h.toBytes
  urlLen_eq : url = none → h.urlLen = 0
  dataLen_eq : data = none → h.dataLen = 0

theorem headerReady_createHeader (outb : Mem) (msgType : UInt8) (status : UInt32) (seqno : UInt16)
    (url data : Option Ref) :
    HeaderReady (createHeader outb msgType status seqno) (newHeader msgType status seqno) url
      data := by
  refine ⟨?_, fun _ => rfl, fun _ => rfl⟩
  rw [createHeader, ← Header.length_toBytes, Mem.slice_write_self]
  rfl

theorem slice_setUrlLength {hdr : Mem} {h : Header} (n : UInt16)
    (hh : hdr.slice 0 headerSize = h.toBytes) :
    (setUrlLength hdr n).slice 0 headerSize = { h with urlLen := n }.toBytes := by
  have e (m : UInt16) : { h with urlLen := m }.toBytes =
      ([h.magic, h.version, h.msgType] ++ toBe 4 h.status.toNat) ++ toBe 2 m.toNat ++
        (toBe 2 h.seqno.toNat ++ toBe 4 h.dataLen.toNat) := by
    simp [Header.toBytes]
  rw [show h = { h with urlLen := h.urlLen } from rfl, e] at hh
  rw [e]
  exact Mem.slice_write_replace hh (by simp) (by simp)

theorem slice_setDataLength {hdr : Mem} {h : Header} (n : UInt32)
    (hh : hdr.slice 0 headerSize = h.toBytes) :
    (setDataLength hdr n).slice 0 headerSize = { h with dataLen := n }.toBytes := by
  have e (m : UInt32) : { h with dataLen := m }.toBytes =
      ([h.magic, h.version, h.msgType] ++ toBe 4 h.status.toNat ++ toBe 2 h.urlLen.toNat ++
        toBe 2 h.seqno.toNat) ++ toBe 4 m.toNat ++ [] := by
    simp [Header.toBytes]
  rw [show h = { h with dataLen := h.dataLen } from rfl, e] at hh
  rw [e]
  exact Mem.slice_write_replace hh (by simp) (by simp)

theorem any_len (r : Option Ref) (n : Nat) :
    (r.any fun x => n < x.len) = true ↔ n < optLen r := by
  cases r <;> simp [optLen]

theorem any_dangle (r : Option Ref) :
    (r.any fun x => x.ptr.isNone ∧ 0 < x.len) = true ↔ ¬ ∀ x ∈ r, x.NoDangle := by
  cases r with
  | none => simp
  | some x => simp [Ref.NoDangle, Nat.pos_iff_ne_zero]

theorem elim_isSome {r : Option Ref} (h : ∀ x ∈ r, x.NoDangle) :
    (r.elim 0 fun x => if x.ptr.isSome then x.len else 0) = optLen r := by
  cases r with
  | none => rfl
  | some x =>
    cases hp : x.ptr with
    | none => simp [optLen, hp, h x rfl hp]
    | some b => simp [optLen, hp]

theorem slice_lengths {hdr : Mem} {h : Header} {url data : Option Ref}
    (hh : HeaderReady hdr h url data) :
    let hdr := url.elim hdr fun u => setUrlLength hdr (UInt16.ofNat u.len)
    let hdr := data.elim hdr fun d => setDataLength hdr (UInt32.ofNat d.len)
    hdr.slice 0 headerSize = (h.withLengths url data).toBytes := by
  obtain ⟨hs, hu, hd⟩ := hh
  obtain ⟨magic, version, msgType, status, urlLen, seqno, dataLen⟩ := h
  cases url with
  | none =>
    obtain rfl : urlLen = 0 := hu rfl
    cases data with
    | none =>
      obtain rfl : dataLen = 0 := hd rfl
      exact hs
    | some d => exact slice_setDataLength _ hs
  | some u =>
    cases data with
    | none =>
      obtain rfl : dataLen = 0 := hd rfl
      exact slice_setUrlLength _ hs
    | some d => exact slice_setDataLength _ (slice_setUrlLength _ hs)

theorem slice_elim_write (buffer : Mem) (pos : Nat) {r : Option Ref} (h : ∀ x ∈ r, x.NoDangle) :
    (r.elim buffer fun x => buffer.write pos x.contents).slice 0 (pos + optLen r) =
      buffer.slice 0 pos ++ optBytes r := by
  rw [← length_optBytes h]
  cases r with
  | none => simp [optBytes]
  | some x =>
    have := Mem.slice_write_append buffer 0 pos x.contents
    rwa [Nat.zero_add] at this

theorem slice_elim_write_header (buffer : Mem) {pos : Nat} (r : Option Ref)
    (hpos : headerSize ≤ pos) :
    (r.elim buffer fun x => buffer.write pos x.contents).slice 0 headerSize =
      buffer.slice 0 headerSize := by
  cases r with
  | none => rfl
  | some x => exact Mem.slice_write_before _ _ (by omega)

/-- A message that can be sent goes through the loop. Where the header is ready, what goes through
is its packet, and the header stays at the front of the buffer. -/
theorem sendMessage_eq_sendLoop (t : Transport) (buffer : Mem) {url data : Option Ref}
    (net : Nat → SendStep) (hs : Sendable url data) :
    ∃ buffer' : Mem,
      sendMessage t buffer url data net =
        (buffer', sendLoop t buffer' (headerSize + optLen url + optLen data) 0 t.budget net) ∧
      ∀ h, HeaderReady buffer h url data →
        buffer'.slice 0 (headerSize + optLen url + optLen data) = packetOf h url data ∧
        buffer'.slice 0 headerSize = (h.withLengths url data).toBytes := by
  obtain ⟨hul, hup, hdp, htot⟩ := hs
  have hdl : optLen data ≤ 0xFFFFFFFF := by simp only [maxPacketSize] at htot; omega
  unfold sendMessage
  rw [if_neg (by rw [any_len]; omega), if_neg (by rw [any_dangle]; exact not_not.2 hup),
    if_neg (by rw [any_len]; omega), if_neg (by rw [any_dangle]; exact not_not.2 hdp)]
  simp only
  rw [if_neg (by simp only [optLen] at htot; omega)]
  refine ⟨_, by rw [elim_isSome hdp]; rfl, fun h hh => ?_⟩
  have hlens := slice_lengths hh
  simp only at hlens
  constructor
  · rw [show url.elim 0 Ref.len = optLen url from rfl, slice_elim_write _ _ hdp,
      slice_elim_write _ _ hup, hlens]
    rfl
  · rw [slice_elim_write_header _ _ (Nat.le_add_right ..),
      slice_elim_write_header _ _ (Nat.le_refl _), hlens]

/-- **A message that can be sent goes through the loop as its packet.** The header stays at the
front of the buffer. -/
theorem sendMessage_of_sendable (t : Transport) {buffer : Mem} {h : Header}
    {url data : Option Ref} (net : Nat → SendStep) (hh : HeaderReady buffer h url data)
    (hs : Sendable url data) :
    ∃ buffer' : Mem,
      sendMessage t buffer url data net =
        (buffer', sendLoop t buffer' (headerSize + optLen url + optLen data) 0 t.budget net) ∧
      buffer'.slice 0 (headerSize + optLen url + optLen data) = packetOf h url data ∧
      buffer'.slice 0 headerSize = (h.withLengths url data).toBytes := by
  obtain ⟨buffer', heq, hslices⟩ := sendMessage_eq_sendLoop t buffer net hs
  exact ⟨buffer', heq, hslices h hh⟩

theorem packetOf_withLengths (h : Header) (url data : Option Ref) :
    packetOf (h.withLengths url data) url data = packetOf h url data := rfl

/-- The buffer is as ready for the same message after a send as before it. -/
theorem HeaderReady.sendMessage {buffer : Mem} {h : Header} {url data : Option Ref}
    (hh : HeaderReady buffer h url data) (hs : Sendable url data) (t : Transport)
    (net : Nat → SendStep) :
    HeaderReady (Ssn.sendMessage t buffer url data net).1 (h.withLengths url data) url data := by
  obtain ⟨buffer', heq, -, hslice⟩ := sendMessage_of_sendable t net hh hs
  rw [heq]
  exact ⟨hslice, by rintro rfl; rfl, by rintro rfl; rfl⟩

theorem sendMessage_of_not (t : Transport) (buffer : Mem) {url data : Option Ref}
    (net : Nat → SendStep) (h : ¬ Sendable url data) :
    (sendMessage t buffer url data net).2 = .refused := by
  unfold sendMessage
  split_ifs with h1 h2 h3 h4
  · rfl
  · rfl
  · rfl
  · rfl
  · simp only
    split_ifs with h5
    · rfl
    · rw [any_len] at h1 h3
      rw [any_dangle, not_not] at h2 h4
      refine absurd ⟨by omega, h2, h4, ?_⟩ h
      simp only [optLen]
      omega

/-- **What is sent.** Bytes are handed to the transport exactly when the message can be sent. -/
theorem sendMessage_offers (t : Transport) {buffer : Mem} {h : Header} {url data : Option Ref}
    (net : Nat → SendStep) (hh : HeaderReady buffer h url data) :
    (sendMessage t buffer url data net).2.offers ≠ [] ↔ Sendable url data := by
  constructor
  · intro ho
    by_contra hn
    rw [sendMessage_of_not t _ net hn] at ho
    exact ho rfl
  · intro hs
    obtain ⟨buffer', heq, -, -⟩ := sendMessage_of_sendable t net hh hs
    rw [heq]
    exact sendLoop_offers (by simp only [headerSize]; omega)

/-- **A send that succeeds has put exactly its packet on the wire.** -/
theorem sendMessage_true {t : Transport} {buffer : Mem} {h : Header} {url data : Option Ref}
    {net : Nat → SendStep} (hh : HeaderReady buffer h url data)
    (hret : (sendMessage t buffer url data net).2.ret = true) :
    Sendable url data ∧ (sendMessage t buffer url data net).2.accepted = packetOf h url data := by
  have hs : Sendable url data := by
    by_contra hn
    rw [sendMessage_of_not t _ net hn] at hret
    cases hret
  obtain ⟨buffer', heq, hslice, -⟩ := sendMessage_of_sendable t net hh hs
  rw [heq] at hret ⊢
  refine ⟨hs, ?_⟩
  rw [(sendLoop_accepted_spec ..).2.2 hret, Nat.sub_zero, hslice]

/-- A send puts nothing on the wire but the beginning of its packet. -/
theorem sendMessage_accepted_prefix (t : Transport) {buffer : Mem} {h : Header}
    {url data : Option Ref} (net : Nat → SendStep) (hh : HeaderReady buffer h url data) :
    (sendMessage t buffer url data net).2.accepted <+: packetOf h url data := by
  by_cases hs : Sendable url data
  · obtain ⟨buffer', heq, hslice, -⟩ := sendMessage_of_sendable t net hh hs
    rw [heq, ← hslice]
    exact (sendLoop_accepted_spec ..).1
  · rw [sendMessage_of_not t _ net hs]
    exact List.nil_prefix

/-- **When a send succeeds:** the descriptor is open, the message can be sent, and the socket takes
its packet within the waiting budget. -/
theorem sendMessage_ret_iff (t : Transport) {buffer : Mem} {h : Header} {url data : Option Ref}
    (net : Nat → SendStep) (hh : HeaderReady buffer h url data) :
    (sendMessage t buffer url data net).2.ret = true ↔
      ¬ t.sockFd < 0 ∧ Sendable url data ∧
        Delivers (headerSize + optLen url + optLen data) t.budget net := by
  by_cases hs : Sendable url data
  · obtain ⟨buffer', heq, -, -⟩ := sendMessage_of_sendable t net hh hs
    rw [heq]
    by_cases hfd : t.sockFd < 0
    · rw [sendLoop_closed hfd (by simp only [headerSize]; omega)]
      exact iff_of_false Bool.false_ne_true fun h => h.1 hfd
    · rw [sendLoop_ret_iff _ _ _ _ _ _ hfd, Nat.sub_zero]
      exact ⟨fun hd => ⟨hfd, hs, hd⟩, fun h => h.2.2⟩
  · rw [sendMessage_of_not t _ net hs]
    exact iff_of_false Bool.false_ne_true fun h => hs h.2.1

/-- **A send of a message that can be sent ends within its budget,** whatever the socket and its
polls answer: after at most one attempt per byte, per 100 ms of the budget and one more, with waits
that together last no longer than the budget. What the transport has taken is the beginning of the
frame that stands in the buffer, and all of it if and only if the send succeeds. -/
theorem sendMessage_within_budget (t : Transport) (buffer : Mem) (url data : Option Ref)
    (net : Nat → SendStep) (hs : Sendable url data) :
    let sent := sendMessage t buffer url data net
    let frame := sent.1.slice 0 (headerSize + optLen url + optLen data)
    let out := sent.2
    (∀ h, HeaderReady buffer h url data → frame = packetOf h url data) ∧
      out.offers.length ≤ frame.length + (t.budget + 99) / 100 + 1 ∧
      out.waits.sum ≤ t.budget ∧
      out.accepted <+: frame ∧
      (out.accepted = frame ↔ out.ret = true) := by
  obtain ⟨buffer', heq, hslices⟩ := sendMessage_eq_sendLoop t buffer net hs
  rw [heq]
  refine ⟨fun h hh => (hslices h hh).1, ?_, sendLoop_sum_waits .., sendLoop_accepted_spec ..⟩
  have hlen := sendLoop_length_offers t buffer' (headerSize + optLen url + optLen data) 0 t.budget
    net
  simpa only [Nat.sub_zero, Mem.length_slice] using hlen

/-- A PING_ECHO on a socket that is full all the time. -/
def fullSocket : SendOut :=
  (sendMessage ⟨3, 0⟩ (createHeader .zero MsgType.pingEcho 0 7) none none fun _ =>
    .again .timeout).2

/-- A full socket is given up after 5 s at most, and at most 51 attempts besides one for each
byte. -/
theorem fullSocket_within_budget :
    Sendable none none ∧ fullSocket.offers.length ≤ headerSize + 51 ∧
      fullSocket.waits.sum ≤ 5000 ∧
      fullSocket.accepted <+: packet MsgType.pingEcho 0 7 none none ∧
      (fullSocket.accepted = packet MsgType.pingEcho 0 7 none none ↔ fullSocket.ret = true) := by
  have hs : Sendable none none := ⟨by decide, by simp, by simp, by decide⟩
  obtain ⟨hframe, hrest⟩ := sendMessage_within_budget ⟨3, 0⟩
    (createHeader .zero MsgType.pingEcho 0 7) none none (fun _ => .again .timeout) hs
  rw [hframe _ (headerReady_createHeader ..)] at hrest
  exact ⟨hs, hrest⟩

/-! ## A network without trouble -/

def acceptAll : Nat → Nat → SendStep := fun _ _ => .accepted maxPacketSize

theorem delivers_acceptAll {left : Nat} (deadline i : Nat) (hleft : left ≤ maxPacketSize) :
    Delivers left deadline (acceptAll i) := by
  cases left with
  | zero => exact .done
  | succ k =>
    refine .take rfl (by decide) ?_
    rw [Nat.sub_eq_zero_of_le hleft]
    exact .done

/-- A network that takes every packet within the budget. -/
def Reliable (net : Nat → Nat → SendStep) : Prop :=
  ∀ (i left : Nat) (t : Transport), left ≤ maxPacketSize → Delivers left t.budget (net i)

theorem reliable_acceptAll : Reliable acceptAll :=
  fun i _ t hleft => delivers_acceptAll t.budget i hleft

end Ssn
