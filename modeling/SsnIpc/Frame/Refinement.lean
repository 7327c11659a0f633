import SsnIpc.Frame.Stream
import SsnIpc.Frame.Reference

/-!
# The stream parser refines the reference parser

**Theorem (`streamFeed_refines`).** Fed any byte string in any chunks, `streamFeed` hands out
exactly the packets of `refParse`, up to the first invalid header, and the first call that fails
is the one that completes that header.

The link is `StreamCtx.unread`: appending adds to it, compacting leaves it alone, and handing out
a packet drops the packet from it. So one turn of the outer loop parses the unread bytes followed
by the copied ones (`extract_spec`), and `Framer.parse_append` puts the turns together
(`streamFeed_spec`). Between turns the parser waits on its unread bytes (`StreamCtx.Ready`), so
they are fewer than a buffer and compacting always makes room.
-/

namespace Ssn

open ByteMem Framing

/-! ## The unread bytes -/

namespace StreamCtx

variable {recv : StreamCtx}

@[simp] theorem length_unread : recv.unread.length = recv.curLen - recv.head := by
  simp [unread]

@[simp] theorem unread_reset : recv.reset.unread = [] := by
  simp [unread, reset]

theorem wf_reset : recv.reset.Wf := ⟨Nat.le_refl 0, Nat.zero_le _⟩

@[simp] theorem unread_compact : recv.compact.unread = recv.unread := by
  have h := Mem.slice_write_self recv.buffer 0 recv.unread
  rw [length_unread] at h
  simpa only [unread, compact, Nat.sub_zero] using h

theorem unread_makeRoom : recv.makeRoom.unread = recv.unread := by
  unfold makeRoom
  split_ifs <;> simp

theorem wf_makeRoom (h : recv.Wf) : recv.makeRoom.Wf := by
  obtain ⟨hh, hc⟩ := h
  unfold makeRoom
  split_ifs
  · exact ⟨Nat.zero_le _, by simp only [compact]; omega⟩
  · exact ⟨hh, hc⟩

theorem makeRoom_lt (h : recv.Wf) (hlt : recv.unread.length < maxPacketSize) :
    recv.makeRoom.curLen < maxPacketSize := by
  obtain ⟨hh, hc⟩ := h
  rw [length_unread] at hlt
  unfold makeRoom
  split_ifs with hfull
  · exact hlt
  · omega

theorem unread_append (h : recv.Wf) (bs : Bytes) :
    (recv.append bs).unread = recv.unread ++ bs := by
  have hh := h.head_le
  have e1 : recv.curLen + bs.length - recv.head = (recv.curLen - recv.head) + bs.length := by omega
  have e2 : recv.curLen = recv.head + (recv.curLen - recv.head) := by omega
  simp only [unread, append]
  rw [e1]
  conv_lhs => arg 1; arg 2; rw [e2]
  exact Mem.slice_write_append ..

theorem wf_append (h : recv.Wf) {bs : Bytes} (hbs : recv.curLen + bs.length ≤ maxPacketSize) :
    (recv.append bs).Wf :=
  ⟨Nat.le_trans h.head_le (Nat.le_add_right ..), hbs⟩

/-- Handing out `n` bytes drops them from the unread ones. -/
theorem unread_advance {n : Nat} (h : n ≤ recv.curLen - recv.head) :
    { recv with head := recv.head + n }.unread = recv.unread.drop n := by
  simp only [unread]
  rw [Mem.drop_slice _ _ _ _ h, Nat.sub_add_eq]

/-- The parser stands between two turns: positions in order, and waiting on the unread bytes. -/
structure Ready (recv : StreamCtx) : Prop extends recv.Wf where
  waits : refNext recv.unread = .wait

theorem ready_reset : recv.reset.Ready where
  toWf := wf_reset
  waits := by rw [unread_reset]; decide

end StreamCtx

/-! ## One turn of the outer loop -/

/-- How the inner loop ends when the callback went on to the end (`ok`) or not, and the reference
parser left `left`. -/
def turnEnd (ok : Bool) (left : Option Bytes) : Option FeedEnd :=
  match ok, left with
  | false, _ => some .stopped
  | true, none => some .invalid
  | true, some _ => none

def turnLeft (ok : Bool) (left : Option Bytes) : Bytes :=
  match ok, left with
  | true, some r => r
  | _, _ => []

section Spec

variable {σ : Type*} (callback : σ → Frame → σ × Bool)

theorem extract_wait {recv : StreamCtx} {arg : σ} (h : refNext recv.unread = .wait) :
    extract callback recv arg = (recv, arg, none) := by
  rw [refNext_eq, StreamCtx.length_unread] at h
  rw [extract]
  split_ifs at h ⊢ with hl
  · rfl
  · simp only [StreamCtx.unread] at h
    split at h
    · simp at h
    · rename_i n hn
      split_ifs at h with hlt
      split
      · simp_all
      · rename_i m hm
        obtain rfl : n = m := by rw [hn] at hm; exact Option.some.inj hm
        rw [dif_pos hlt]

theorem extract_reject {recv : StreamCtx} {arg : σ} (h : refNext recv.unread = .reject) :
    extract callback recv arg = (recv.reset, arg, some .invalid) := by
  obtain ⟨hl, hn⟩ := refNext_reject.1 h
  rw [StreamCtx.length_unread] at hl
  rw [extract, if_neg (by omega)]
  split
  · rfl
  · rename_i m hm
    rw [StreamCtx.unread] at hn
    rw [hn] at hm
    cases hm

theorem extract_emit {recv : StreamCtx} {arg : σ} {n : Nat} {f : Frame}
    (h : refNext recv.unread = .emit n) (hf : f.bytes = recv.unread.take n) :
    extract callback recv arg =
      match callback arg f with
      | (arg, true) => extract callback { recv with head := recv.head + n } arg
      | (arg, false) => (recv.reset, arg, some .stopped) := by
  obtain ⟨hn, hle⟩ := refNext_emit.1 h
  have hmin := (validate_le hn).1
  rw [StreamCtx.length_unread] at hle
  rw [StreamCtx.unread] at hn
  rw [extract, if_neg (by omega)]
  split
  · simp_all
  · rename_i m hm
    obtain rfl : n = m := by rw [hn] at hm; exact Option.some.inj hm
    rw [dif_neg (by omega)]
    rw [StreamCtx.unread, Mem.take_slice _ _ _ _ hle] at hf
    obtain ⟨b, hb⟩ := f
    obtain rfl : b = _ := hf
    rfl

/-- **The inner loop is the reference parser on the unread bytes.** -/
theorem extract_spec (recv : StreamCtx) (arg : σ) (hwf : recv.Wf) :
    (extract callback recv arg).2 =
        ((deliver callback arg (refFrames recv.unread)).1,
          turnEnd (deliver callback arg (refFrames recv.unread)).2 (refParse recv.unread).2) ∧
      (extract callback recv arg).1.Wf ∧
      (extract callback recv arg).1.unread =
        turnLeft (deliver callback arg (refFrames recv.unread)).2 (refParse recv.unread).2 := by
  induction hn : recv.curLen - recv.head using Nat.strongRecOn generalizing recv arg with
  | _ n ih =>
    subst hn
    -- The verdict on the unread bytes is the branch the loop takes.
    cases hv : refNext recv.unread with
    | wait =>
      rw [extract_wait callback hv, refFrames_wait hv, refParse_wait hv]
      exact ⟨rfl, hwf, rfl⟩
    | reject =>
      rw [extract_reject callback hv, refFrames_reject hv, refParse_reject hv]
      exact ⟨rfl, StreamCtx.wf_reset, StreamCtx.unread_reset⟩
    | emit m =>
      obtain ⟨hval, hle⟩ := refNext_emit.1 hv
      have hmin := (validate_le hval).1
      rw [StreamCtx.length_unread] at hle
      have hh := hwf.head_le
      simp only [headerSize] at hmin
      let f : Frame := ⟨recv.unread.take m, by
        rw [validate_take (by rw [StreamCtx.length_unread]; simp only [headerSize]; omega) hmin,
          hval, List.length_take, StreamCtx.length_unread, Nat.min_eq_left hle]⟩
      have hf : f.bytes = recv.unread.take m := rfl
      rw [extract_emit callback hv hf, refFrames_emit hv hf, refParse_emit hv, deliver]
      rcases callback arg f with ⟨arg', _ | _⟩
      · exact ⟨rfl, StreamCtx.wf_reset, StreamCtx.unread_reset⟩
      · have hnext := ih _ (by simp only; omega) { recv with head := recv.head + m } arg'
          ⟨by simp only; omega, hwf.cur_le⟩ rfl
        rw [StreamCtx.unread_advance hle] at hnext
        exact hnext

/-! ## One call -/

/-- How a call ends when all its turns together end as `turnEnd` says. -/
def feedEnd (ok : Bool) (left : Option Bytes) : FeedEnd := (turnEnd ok left).getD .done

/-- What a call does, in terms of the reference parser on the unread bytes and the input. -/
structure FeedSpec (recv : StreamCtx) (buf : Bytes) (arg : σ) (out : StreamCtx × σ × FeedEnd) :
    Prop where
  arg_eq : out.2.1 = (deliver callback arg (refFrames (recv.unread ++ buf))).1
  end_eq : out.2.2 = feedEnd (deliver callback arg (refFrames (recv.unread ++ buf))).2
    (refParse (recv.unread ++ buf)).2
  ready : out.1.Ready
  unread_eq : out.1.unread = turnLeft (deliver callback arg (refFrames (recv.unread ++ buf))).2
    (refParse (recv.unread ++ buf)).2

theorem ready_of_turnLeft {recv : StreamCtx} {ok : Bool} {s : Bytes} (hwf : recv.Wf)
    (h : recv.unread = turnLeft ok (refParse s).2) : recv.Ready := by
  have hnil : refNext [] = .wait := by decide
  refine ⟨hwf, ?_⟩
  rw [h]
  cases ok with
  | false => exact hnil
  | true =>
    cases hp : (refParse s).2 with
    | none => exact hnil
    | some r => exact refNext_leftover hp

/-- A turn of the outer loop: part of the input joins the unread bytes and the inner loop runs. -/
theorem streamFeed_turn {recv : StreamCtx} {buf : Bytes} (h : recv.Ready) (hb : buf ≠ [])
    (arg : σ) : ∃ k recv₁, 0 < k ∧ recv₁.Wf ∧ recv₁.unread = recv.unread ++ buf.take k ∧
      streamFeed callback recv buf arg =
        match extract callback recv₁ arg with
        | (recv, arg, some e) => (recv, arg, e)
        | (recv, arg, none) => streamFeed callback recv (buf.drop k) arg := by
  have hroom := StreamCtx.makeRoom_lt h.toWf (length_lt_of_wait h.waits)
  have hmr := StreamCtx.wf_makeRoom h.toWf
  refine ⟨maxPacketSize - recv.makeRoom.curLen,
    recv.makeRoom.append (buf.take (maxPacketSize - recv.makeRoom.curLen)), by omega, ?_, ?_, ?_⟩
  · refine StreamCtx.wf_append hmr ?_
    rw [List.length_take]
    omega
  · rw [StreamCtx.unread_append hmr, StreamCtx.unread_makeRoom]
  · rw [streamFeed, dif_neg hb]
    exact dif_neg (by omega)

/-- **A call of `streamFeed` is the reference parser on the unread bytes and the input.** -/
theorem streamFeed_spec (recv : StreamCtx) (buf : Bytes) (arg : σ) (h : recv.Ready) :
    FeedSpec callback recv buf arg (streamFeed callback recv buf arg) := by
  induction hn : buf.length using Nat.strongRecOn generalizing recv buf arg with
  | _ n ih =>
    subst hn
    by_cases hb : buf = []
    · subst hb
      have hs : recv.unread ++ [] = recv.unread := List.append_nil _
      rw [streamFeed, dif_pos rfl]
      refine ⟨?_, ?_, h, ?_⟩
      · rw [hs, refFrames_wait h.waits]
        rfl
      · rw [hs, refFrames_wait h.waits, refParse_wait h.waits]
        rfl
      · rw [hs, refFrames_wait h.waits, refParse_wait h.waits]
        rfl
    · obtain ⟨k, recv₁, hk, hwf, hun, heq⟩ := streamFeed_turn callback h hb arg
      have hspec := extract_spec callback recv₁ arg hwf
      rw [heq]
      generalize extract callback recv₁ arg = x at hspec ⊢
      obtain ⟨recv₂, arg₂, e⟩ := x
      obtain ⟨h2, hwf₂, hleft⟩ := hspec
      obtain ⟨rfl, rfl⟩ := Prod.mk.inj h2
      rw [hun] at hleft ⊢
      have hready := ready_of_turnLeft hwf₂ hleft
      have hsplit : recv.unread ++ buf = (recv.unread ++ buf.take k) ++ buf.drop k := by
        rw [List.append_assoc, List.take_append_drop]
      -- The turn parsed the first part; what follows depends on how that went.
      cases hp : (refParse (recv.unread ++ buf.take k)).2 with
      | none =>
        have hf := refFrames_append_none hp (buf.drop k)
        have hq := refParse_append_none hp (buf.drop k)
        rw [← hsplit] at hf hq
        rw [hp] at hleft
        cases hd : deliver callback arg (refFrames (recv.unread ++ buf.take k)) with
        | mk a ok =>
          rw [hd] at hleft
          cases ok <;> exact ⟨by rw [hf, hd]; rfl, by rw [hf, hq, hd, hp]; rfl, hready,
            by rw [hf, hq, hd, hp]; exact hleft⟩
      | some r =>
        have hf := refFrames_append hp (buf.drop k)
        have hq := refParse_append hp (buf.drop k)
        rw [← hsplit] at hf hq
        rw [hp] at hleft
        cases hd : deliver callback arg (refFrames (recv.unread ++ buf.take k)) with
        | mk a ok =>
          rw [hd] at hleft
          have hdl := deliver_append callback arg (refFrames (recv.unread ++ buf.take k))
            (refFrames (r ++ buf.drop k))
          rw [← hf, hd] at hdl
          cases ok with
          | false => exact ⟨by rw [hdl]; rfl, by rw [hdl]; rfl, hready, by rw [hdl]; exact hleft⟩
          | true =>
            have hlt : (buf.drop k).length < buf.length := by
              have := List.length_pos_iff.2 hb
              rw [List.length_drop]
              omega
            have hrest := ih _ hlt recv₂ (buf.drop k) a hready rfl
            have hr : recv₂.unread = r := hleft
            exact ⟨by rw [hdl]; exact hr ▸ hrest.arg_eq, by rw [hdl, hq]; exact hr ▸ hrest.end_eq,
              hrest.ready, by rw [hdl, hq]; exact hr ▸ hrest.unread_eq⟩

/-! ## Any chunks -/

/-- Feed chunks one after another. The last component says how each call ended. -/
def feedChunks (recv : StreamCtx) : List Bytes → σ → StreamCtx × σ × List FeedEnd
  | [], arg => (recv, arg, [])
  | buf :: bufs, arg =>
    let out := streamFeed callback recv buf arg
    let rest := feedChunks out.1 bufs out.2.1
    (rest.1, rest.2.1, out.2.2 :: rest.2.2)

/-- The buffer never fills up without a complete packet, whatever the callback does. -/
theorem feedChunks_ready {recv : StreamCtx} (h : recv.Ready) (bufs : List Bytes) (arg : σ) :
    (feedChunks callback recv bufs arg).1.Ready ∧
      FeedEnd.full ∉ (feedChunks callback recv bufs arg).2.2 := by
  induction bufs generalizing recv arg with
  | nil => exact ⟨h, List.not_mem_nil⟩
  | cons buf bufs ih =>
    have hspec := streamFeed_spec callback recv buf arg h
    obtain ⟨hr, hf⟩ := ih hspec.ready (streamFeed callback recv buf arg).2.1
    refine ⟨hr, ?_⟩
    rw [feedChunks, List.mem_cons, not_or]
    refine ⟨?_, hf⟩
    rw [hspec.end_eq]
    unfold feedEnd turnEnd
    split <;> simp

theorem streamFeed_always (g : σ → Frame → σ) {recv : StreamCtx} {buf : Bytes} {left : Option Bytes}
    (arg : σ) (h : recv.Ready) (hr : (refParse (recv.unread ++ buf)).2 = left) :
    let out := streamFeed (fun a f => (g a f, true)) recv buf arg
    out.2 = ((refFrames (recv.unread ++ buf)).foldl g arg, feedEnd true left) ∧ out.1.Ready ∧
      out.1.unread = turnLeft true left := by
  have hspec := streamFeed_spec (fun a f => (g a f, true)) recv buf arg h
  have ha := hspec.arg_eq
  have he := hspec.end_eq
  have hu := hspec.unread_eq
  rw [deliver_always] at ha he hu
  rw [hr] at he hu
  exact ⟨Prod.ext ha he, hspec.ready, hu⟩

theorem streamFeed_accept (g : σ → Frame → σ) {recv : StreamCtx} {buf r : Bytes} (arg : σ)
    (h : recv.Ready) (hr : (refParse (recv.unread ++ buf)).2 = some r) :
    let out := streamFeed (fun a f => (g a f, true)) recv buf arg
    out.2 = ((refFrames (recv.unread ++ buf)).foldl g arg, .done) ∧ out.1.Ready ∧
      out.1.unread = r :=
  streamFeed_always g arg h hr

/-- The call that completes an invalid header. -/
theorem streamFeed_invalid (g : σ → Frame → σ) {recv : StreamCtx} {buf : Bytes} (arg : σ)
    (h : recv.Ready) (hr : (refParse (recv.unread ++ buf)).2 = none) :
    let out := streamFeed (fun a f => (g a f, true)) recv buf arg
    out.2 = ((refFrames (recv.unread ++ buf)).foldl g arg, .invalid) ∧ out.1.Ready ∧
      out.1.unread = [] :=
  streamFeed_always g arg h hr

theorem feedChunks_accept (g : σ → Frame → σ) {recv : StreamCtx} {bufs : List Bytes} {r : Bytes}
    (arg : σ) (h : recv.Ready) (hr : (refParse (recv.unread ++ bufs.flatten)).2 = some r) :
    let out := feedChunks (fun a f => (g a f, true)) recv bufs arg
    out.2.1 = (refFrames (recv.unread ++ bufs.flatten)).foldl g arg ∧ (∀ e ∈ out.2.2, e = .done) ∧
      out.1.Ready ∧ out.1.unread = r := by
  induction bufs generalizing recv arg with
  | nil =>
    rw [List.flatten_nil, List.append_nil] at hr ⊢
    rw [refParse_wait h.waits] at hr
    rw [refFrames_wait h.waits]
    exact ⟨rfl, by simp [feedChunks], h, Option.some.inj hr⟩
  | cons buf bufs ih =>
    rw [List.flatten_cons, ← List.append_assoc] at hr ⊢
    cases hp : (refParse (recv.unread ++ buf)).2 with
    | none =>
      rw [refParse_append_none hp, hp] at hr
      cases hr
    | some r' =>
      obtain ⟨h2, hready, hu⟩ := streamFeed_accept g arg h hp
      rw [refParse_append hp, ← hu] at hr
      obtain ⟨ia, ie, ir, iu⟩ := ih (streamFeed (fun a f => (g a f, true)) recv buf arg).2.1
        hready hr
      refine ⟨?_, ?_, ir, iu⟩
      · rw [refFrames_append hp, List.foldl_append, ← hu]
        rw [h2] at ia
        rw [feedChunks, h2]
        exact ia
      · intro e he
        rw [feedChunks, List.mem_cons] at he
        rcases he with rfl | he
        · rw [h2]
        · exact ie e he

/-- Chunks of a rejected stream: the call that completes the invalid header is the first to
fail. -/
theorem feedChunks_reject (g : σ → Frame → σ) {recv : StreamCtx} {bufs : List Bytes} (arg : σ)
    (h : recv.Ready) (hr : (refParse (recv.unread ++ bufs.flatten)).2 = none) :
    let off := (refParse (recv.unread ++ bufs.flatten)).1.flatten.length
    let ends := (feedChunks (fun a f => (g a f, true)) recv bufs arg).2.2
    ∃ i < bufs.length,
      recv.unread.length + (bufs.take i).flatten.length < off + headerSize ∧
      off + headerSize ≤ recv.unread.length + (bufs.take (i + 1)).flatten.length ∧
      (∀ j < i, ends[j]? = some .done) ∧ ends[i]? = some .invalid ∧
      (feedChunks (fun a f => (g a f, true)) recv (bufs.take (i + 1)) arg).2.1 =
        (refFrames (recv.unread ++ bufs.flatten)).foldl g arg := by
  induction bufs generalizing recv arg with
  | nil =>
    rw [List.flatten_nil, List.append_nil, refParse_wait h.waits] at hr
    cases hr
  | cons buf bufs ih =>
    intro off ends
    simp only [off, ends]
    have hlate := length_of_wait h.waits hr
    rw [List.flatten_cons, ← List.append_assoc] at hr hlate ⊢
    cases hp : (refParse (recv.unread ++ buf)).2 with
    | none =>
      -- The invalid header is completed by this chunk.
      obtain ⟨h2, -, -⟩ := streamFeed_invalid g arg h hp
      have hin := length_of_reject hp
      rw [refParse_append_none hp] at hlate ⊢
      rw [refFrames_append_none hp]
      refine ⟨0, Nat.succ_pos _, by simpa using hlate, ?_, by simp, ?_, ?_⟩
      · simpa using hin
      · rw [feedChunks, h2]
        rfl
      · rw [List.take_succ_cons, List.take_zero, feedChunks, h2]
        rfl
    | some r =>
      -- The chunk is accepted; the header is completed by one of the rest.
      obtain ⟨h2, hready, hu⟩ := streamFeed_accept g arg h hp
      have hsum := congrArg List.length
        (Framer.flatten_append_leftover (F := packetFramer) hp)
      rw [List.length_append, List.length_append] at hsum
      rw [refParse_append hp] at hr ⊢
      rw [← hu] at hr
      obtain ⟨i, hi, hlo, hhi, hbefore, hat, hframes⟩ :=
        ih (streamFeed (fun a f => (g a f, true)) recv buf arg).2.1 hready hr
      rw [hu] at hlo hhi hframes
      refine ⟨i + 1, Nat.succ_lt_succ hi, ?_, ?_, ?_, hat, ?_⟩
      · simp only [List.take_succ_cons, List.flatten_cons, List.flatten_append, List.length_append]
        simp only [refParse] at hlo hsum ⊢
        omega
      · rw [List.take_succ_cons]
        simp only [List.flatten_cons, List.flatten_append, List.length_append]
        simp only [refParse] at hhi hsum ⊢
        omega
      · intro j hj
        cases j with
        | zero => rw [feedChunks, h2]; rfl
        | succ j => exact hbefore j (by omega)
      · rw [refFrames_append hp, List.foldl_append, List.take_succ_cons, feedChunks]
        rw [h2] at hframes
        rw [h2]
        exact hframes

/-- **The stream parser refines the reference parser.** From a fresh context and with a callback
that never stops, the chunks of a byte string yield the packets of the reference parser. If it
rejects no header, every call succeeds and the leftover stays unread. If it rejects one, the
first call to fail is the one whose chunk completes that header, and by then exactly the packets
before it have been handed out. The positions stay in order and inside the buffer, and no call
ends with a full buffer, whatever the callback does. -/
theorem streamFeed_refines (g : σ → Frame → σ) (recv₀ : StreamCtx) (bufs : List Bytes) (arg : σ) :
    let feed := fun n => feedChunks (fun a f => (g a f, true)) (streamInit recv₀) (bufs.take n) arg
    let ends := (feed bufs.length).2.2
    let frames := refFrames bufs.flatten
    (∀ r, (refParse bufs.flatten).2 = some r →
      (feed bufs.length).2.1 = frames.foldl g arg ∧ (∀ e ∈ ends, e.ret = true) ∧
        (feed bufs.length).1.unread = r) ∧
    ((refParse bufs.flatten).2 = none → ∃ i < bufs.length,
      (bufs.take i).flatten.length < (refParse bufs.flatten).1.flatten.length + headerSize ∧
      (refParse bufs.flatten).1.flatten.length + headerSize ≤
        (bufs.take (i + 1)).flatten.length ∧
      (∀ j < i, ends[j]?.map FeedEnd.ret = some true) ∧ ends[i]?.map FeedEnd.ret = some false ∧
      (feed (i + 1)).2.1 = frames.foldl g arg) ∧
    ∀ (callback : σ → Frame → σ × Bool) (n : Nat),
      let out := feedChunks callback (streamInit recv₀) (bufs.take n) arg
      out.1.head ≤ out.1.curLen ∧ out.1.curLen ≤ maxPacketSize ∧ FeedEnd.full ∉ out.2.2 := by
  intro feed ends frames
  have hfresh : (streamInit recv₀).Ready := StreamCtx.ready_reset
  have hempty : (streamInit recv₀).unread = [] := StreamCtx.unread_reset
  have hall : feed bufs.length =
      feedChunks (fun a f => (g a f, true)) (streamInit recv₀) bufs arg := by
    simp only [feed, List.take_length]
  refine ⟨fun r hr => ?_, fun hr => ?_, fun callback n => ?_⟩
  · obtain ⟨ha, he, -, hu⟩ := feedChunks_accept g arg hfresh (by rw [hempty]; exact hr)
    rw [hempty] at ha
    simp only [ends, hall]
    exact ⟨ha, fun e hmem => by rw [he e hmem]; rfl, hu⟩
  · have hr' : (refParse ((streamInit recv₀).unread ++ bufs.flatten)).2 = none := by
      rw [hempty]
      exact hr
    obtain ⟨i, hi, hlo, hhi, hbefore, hat, hframes⟩ := feedChunks_reject g arg hfresh hr'
    rw [hempty] at hlo hhi hframes
    simp only [ends, hall]
    refine ⟨i, hi, by simpa using hlo, by simpa using hhi, ?_, by rw [hat]; rfl, hframes⟩
    intro j hj
    rw [hbefore j hj]
    rfl
  · obtain ⟨hready, hfull⟩ := feedChunks_ready callback hfresh (bufs.take n) arg
    exact ⟨hready.head_le, hready.cur_le, hfull⟩

end Spec

end Ssn
