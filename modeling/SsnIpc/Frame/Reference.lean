import SsnIpc.Frame.Stream
import SsnIpc.Lib.Framing

/-!
# The reference parser

What a stream parser is for, with no buffer in sight: with at least a header left, reject a bad
one, wait for an incomplete packet, else emit the packet and go on. The header is read here in
its own terms (`BadHeader`, `urlLenAt`, `dataLenAt`), and `validate_eq` says the code's check
decides the same.

The rule is a `Framer` (`packetFramer`), so the cut it makes does not depend on how the bytes
arrive. `Frame.Refinement` shows that `streamFeed` makes this cut.
-/

namespace Ssn

open ByteMem Framing

/-! ## The reference parser -/

def urlLenAt (s : Bytes) : Nat := ofBe ((s.drop 7).take 2)

def dataLenAt (s : Bytes) : Nat := ofBe ((s.drop 11).take 4)

/-- A header no receiver accepts: wrong magic or version, or a payload over the limit. -/
def BadHeader (s : Bytes) : Prop :=
  s.getD 0 0 ≠ magicByte ∨ s.getD 1 0 ≠ protocolVersion ∨
    urlLenAt s + dataLenAt s > maxPayloadSize

instance (s : Bytes) : Decidable (BadHeader s) := inferInstanceAs (Decidable (_ ∨ _ ∨ _))

/-- What to do with the bytes that are left. -/
def refNext (s : Bytes) : Verdict :=
  if s.length < headerSize then .wait
  else if BadHeader s then .reject
  else if s.length < headerSize + urlLenAt s + dataLenAt s then .wait
  else .emit (headerSize + urlLenAt s + dataLenAt s)

theorem toNat_ofBe16 (s : Bytes) (h : s.length ≤ 2) : (UInt16.ofNat (ofBe s)).toNat = ofBe s := by
  have hlt := ofBe_lt s
  have hpow : 256 ^ s.length ≤ 256 ^ 2 := Nat.pow_le_pow_right (by omega) h
  rw [UInt16.toNat_ofNat', Nat.mod_eq_of_lt]
  omega

theorem toNat_ofBe32 (s : Bytes) (h : s.length ≤ 4) : (UInt32.ofNat (ofBe s)).toNat = ofBe s := by
  have hlt := ofBe_lt s
  have hpow : 256 ^ s.length ≤ 256 ^ 4 := Nat.pow_le_pow_right (by omega) h
  rw [UInt32.toNat_ofNat', Nat.mod_eq_of_lt]
  omega

theorem urlLen_ofBytes (s : Bytes) : (Header.ofBytes s).urlLen.toNat = urlLenAt s :=
  toNat_ofBe16 _ (List.length_take_le ..)

theorem dataLen_ofBytes (s : Bytes) : (Header.ofBytes s).dataLen.toNat = dataLenAt s :=
  toNat_ofBe32 _ (List.length_take_le ..)

theorem validate_eq (s : Bytes) (h : headerSize ≤ s.length) :
    validateAndGetTotalLength s =
      if BadHeader s then none else some (headerSize + urlLenAt s + dataLenAt s) := by
  unfold validateAndGetTotalLength
  rw [if_neg (by omega)]
  simp only [urlLen_ofBytes, dataLen_ofBytes]
  by_cases hm : (Header.ofBytes s).magic ≠ magicByte ∨ (Header.ofBytes s).version ≠ protocolVersion
  · have hbad : BadHeader s := hm.elim Or.inl fun h => Or.inr (Or.inl h)
    rw [if_pos hm, if_pos hbad]
  · rw [if_neg hm]
    simp only [not_or, not_not] at hm
    by_cases hp : urlLenAt s + dataLenAt s > maxPayloadSize
    · have hbad : BadHeader s := Or.inr (Or.inr hp)
      rw [if_pos hp, if_pos hbad]
    · rw [if_neg hp, if_neg]
      rintro (h0 | h1 | h2)
      · exact h0 hm.1
      · exact h1 hm.2
      · exact hp h2

theorem refNext_eq (s : Bytes) : refNext s =
    if s.length < headerSize then .wait
    else match validateAndGetTotalLength s with
      | none => .reject
      | some n => if s.length < n then .wait else .emit n := by
  unfold refNext
  by_cases hl : s.length < headerSize
  · simp [hl]
  · rw [if_neg hl, if_neg hl, validate_eq s (by omega)]
    by_cases hb : BadHeader s <;> simp [hb]

theorem refNext_emit {s : Bytes} {n : Nat} :
    refNext s = .emit n ↔ validateAndGetTotalLength s = some n ∧ n ≤ s.length := by
  rw [refNext_eq]
  constructor
  · intro h
    split_ifs at h with hl
    split at h
    · simp at h
    · rename_i m hm
      split_ifs at h with hlt
      obtain rfl := Verdict.emit.inj h
      exact ⟨hm, by omega⟩
  · rintro ⟨h, hle⟩
    have := (validate_le h).1
    rw [if_neg (by omega), h]
    simp only [if_neg (show ¬ s.length < n by omega)]

theorem refNext_reject {s : Bytes} :
    refNext s = .reject ↔ headerSize ≤ s.length ∧ validateAndGetTotalLength s = none := by
  rw [refNext_eq]
  constructor
  · intro h
    split_ifs at h with hl
    refine ⟨by omega, ?_⟩
    split at h
    · assumption
    · split_ifs at h
  · rintro ⟨hl, h⟩
    rw [if_neg (by omega), h]

theorem refNext_emit_pos {s : Bytes} {n : Nat} (h : refNext s = .emit n) : 0 < n := by
  have := (validate_le (refNext_emit.1 h).1).1
  simp only [headerSize] at this
  omega

/-- A verdict on the front of a stream is final. -/
theorem refNext_stable {s : Bytes} (t : Bytes) (h : refNext s ≠ .wait) :
    refNext (s ++ t) = refNext s := by
  cases hv : refNext s with
  | wait => exact absurd hv h
  | reject =>
    obtain ⟨hl, hn⟩ := refNext_reject.1 hv
    refine refNext_reject.2 ⟨?_, by rw [validate_append hl, hn]⟩
    rw [List.length_append]
    omega
  | emit n =>
    obtain ⟨hs, hle⟩ := refNext_emit.1 hv
    have := (validate_le hs).1
    refine refNext_emit.2 ⟨by rw [validate_append (by omega), hs], ?_⟩
    rw [List.length_append]
    omega

theorem refNext_take {s : Bytes} {n : Nat} (h : refNext s = .emit n) :
    refNext (s.take n) = .emit n := by
  obtain ⟨hs, hle⟩ := refNext_emit.1 h
  have := (validate_le hs).1
  refine refNext_emit.2 ⟨by rw [validate_take (by omega) this, hs], ?_⟩
  rw [List.length_take]
  omega

/-- Packets are cut greedily off a byte stream. -/
def packetFramer : Framer UInt8 where
  next := refNext
  emit_pos := refNext_emit_pos
  emit_le h := (refNext_emit.1 h).2
  stable := refNext_stable
  emit_take := refNext_take

/-- The reference parser: the packets at the front of a byte string, and the bytes left waiting
(`none` at an invalid header). -/
def refParse (s : Bytes) : List Bytes × Option Bytes := packetFramer.parse s

theorem refParse_wait {s : Bytes} (h : refNext s = .wait) : refParse s = ([], some s) :=
  Framer.parse_wait (F := packetFramer) h

theorem refParse_reject {s : Bytes} (h : refNext s = .reject) : refParse s = ([], none) :=
  Framer.parse_reject (F := packetFramer) h

theorem refParse_emit {s : Bytes} {n : Nat} (h : refNext s = .emit n) :
    refParse s = (s.take n :: (refParse (s.drop n)).1, (refParse (s.drop n)).2) :=
  Framer.parse_emit (F := packetFramer) h

theorem refParse_append {s r : Bytes} (h : (refParse s).2 = some r) (t : Bytes) :
    refParse (s ++ t) = ((refParse s).1 ++ (refParse (r ++ t)).1, (refParse (r ++ t)).2) :=
  Framer.parse_append_some (F := packetFramer) h

theorem refParse_append_none {s : Bytes} (h : (refParse s).2 = none) (t : Bytes) :
    refParse (s ++ t) = refParse s :=
  Framer.parse_append_none (F := packetFramer) h

theorem refNext_leftover {s r : Bytes} (h : (refParse s).2 = some r) : refNext r = .wait :=
  Framer.next_of_leftover (F := packetFramer) h

/-- A string of whole packets is cut back into them. -/
theorem refParse_flatten {fs : List Bytes} (h : ∀ f ∈ fs, refNext f = .emit f.length) :
    refParse fs.flatten = (fs, some []) := by
  have hnil : refParse [] = ([], some []) := refParse_wait (by decide)
  have hflat := Framer.parse_flatten (F := packetFramer) (r := []) fs h
  rw [List.append_nil] at hflat
  simp only [refParse] at hnil ⊢
  rw [hflat, hnil, List.append_nil]

theorem whole_of_mem {s f : Bytes} (h : f ∈ (refParse s).1) :
    validateAndGetTotalLength f = some f.length :=
  (refNext_emit.1 (Framer.next_of_mem (F := packetFramer) h)).1

def refFrames (s : Bytes) : List Frame :=
  (refParse s).1.pmap Frame.mk fun _ h => whole_of_mem h

@[simp] theorem map_bytes_refFrames (s : Bytes) :
    (refFrames s).map Frame.bytes = (refParse s).1 := by
  simp [refFrames, List.map_pmap]

theorem refFrames_ext {s : Bytes} {fs : List Frame} (h : (refParse s).1 = fs.map Frame.bytes) :
    refFrames s = fs := by
  have hinj : Function.Injective (List.map Frame.bytes) :=
    List.map_injective_iff.2 fun _ _ => Frame.ext_bytes
  exact hinj (by rw [map_bytes_refFrames, h])

theorem refFrames_wait {s : Bytes} (h : refNext s = .wait) : refFrames s = [] :=
  refFrames_ext (by rw [refParse_wait h]; rfl)

theorem refFrames_reject {s : Bytes} (h : refNext s = .reject) : refFrames s = [] :=
  refFrames_ext (by rw [refParse_reject h]; rfl)

theorem refFrames_emit {s : Bytes} {n : Nat} (h : refNext s = .emit n) {f : Frame}
    (hf : f.bytes = s.take n) : refFrames s = f :: refFrames (s.drop n) := by
  refine refFrames_ext ?_
  rw [List.map_cons, map_bytes_refFrames, hf, refParse_emit h]

theorem refFrames_append {s r : Bytes} (h : (refParse s).2 = some r) (t : Bytes) :
    refFrames (s ++ t) = refFrames s ++ refFrames (r ++ t) := by
  refine refFrames_ext ?_
  rw [List.map_append, map_bytes_refFrames, map_bytes_refFrames, refParse_append h]

theorem refFrames_append_none {s : Bytes} (h : (refParse s).2 = none) (t : Bytes) :
    refFrames (s ++ t) = refFrames s := by
  refine refFrames_ext ?_
  rw [map_bytes_refFrames, refParse_append_none h]

/-! ### Streams of frames -/

theorem refNext_frame (f : Frame) (t : Bytes) : refNext (f.bytes ++ t) = .emit f.bytes.length := by
  have hf : refNext f.bytes = .emit f.bytes.length := refNext_emit.2 ⟨f.whole, Nat.le_refl _⟩
  rw [refNext_stable t (by rw [hf]; simp), hf]

theorem refParse_cons (f : Frame) (t : Bytes) :
    refParse (f.bytes ++ t) = (f.bytes :: (refParse t).1, (refParse t).2) := by
  rw [refParse_emit (refNext_frame f t), List.take_left, List.drop_left]

theorem refFrames_cons (f : Frame) (t : Bytes) : refFrames (f.bytes ++ t) = f :: refFrames t := by
  refine refFrames_ext ?_
  rw [refParse_cons, List.map_cons, map_bytes_refFrames]

theorem refNext_part {f : Frame} {s t r : Bytes} (h : s ++ t = f.bytes ++ r)
    (hlt : s.length < f.bytes.length) : refNext s = .wait := by
  by_contra hne
  have hs := refNext_stable t hne
  rw [h, refNext_frame] at hs
  have := (refNext_emit.1 hs.symm).2
  omega

theorem refParse_frames (frames : List Frame) :
    refParse (frames.map Frame.bytes).flatten = (frames.map Frame.bytes, some []) := by
  refine refParse_flatten fun b hb => ?_
  obtain ⟨f, -, rfl⟩ := List.mem_map.1 hb
  exact refNext_emit.2 ⟨f.whole, Nat.le_refl _⟩

theorem exists_leftover {frames : List Frame} {s t : Bytes}
    (h : s ++ t = (frames.map Frame.bytes).flatten) : ∃ r, (refParse s).2 = some r := by
  cases hr : (refParse s).2 with
  | some r => exact ⟨r, rfl⟩
  | none =>
    have hnone := refParse_append_none hr t
    rw [h, refParse_frames] at hnone
    rw [← hnone] at hr
    cases hr

/-- A parser that waits holds less than a buffer. -/
theorem length_lt_of_wait {s : Bytes} (h : refNext s = .wait) : s.length < maxPacketSize := by
  rw [refNext_eq] at h
  split_ifs at h with hl
  · simp only [headerSize, maxPacketSize] at hl ⊢
    omega
  · split at h
    · simp at h
    · rename_i n hn
      have := (validate_le hn).2
      split_ifs at h
      omega

/-- An invalid header is complete in what was rejected. -/
theorem length_of_reject {s : Bytes} (h : (refParse s).2 = none) :
    (refParse s).1.flatten.length + headerSize ≤ s.length := by
  obtain ⟨r, hs, hr⟩ := Framer.exists_reject (F := packetFramer) h
  have hlen := (refNext_reject.1 hr).1
  have := congrArg List.length hs
  rw [List.length_append] at this
  simp only [refParse]
  omega

/-- A parser that waits has not seen the whole of a header that is rejected later. -/
theorem length_of_wait {s t : Bytes} (hw : refNext s = .wait)
    (h : (refParse (s ++ t)).2 = none) :
    s.length < (refParse (s ++ t)).1.flatten.length + headerSize := by
  by_cases hl : s.length < headerSize
  · omega
  -- The header in `s` is valid, so the packet it starts is the first one cut off.
  obtain ⟨n, hn, hlt⟩ : ∃ n, validateAndGetTotalLength s = some n ∧ s.length < n := by
    rw [refNext_eq, if_neg hl] at hw
    split at hw
    · cases hw
    · rename_i n hn
      split_ifs at hw with hlt
      exact ⟨n, hn, hlt⟩
  have hn' : validateAndGetTotalLength (s ++ t) = some n := by rw [validate_append (by omega), hn]
  by_cases hle : n ≤ (s ++ t).length
  · rw [refParse_emit (refNext_emit.2 ⟨hn', hle⟩), List.flatten_cons, List.length_append,
      List.length_take]
    omega
  · have hw' : refNext (s ++ t) = .wait := by
      rw [refNext_eq, hn', if_neg (by rw [List.length_append]; omega)]
      exact if_pos (by omega)
    rw [refParse_wait hw'] at h
    cases h

/-! ## Handing frames to a callback -/

section Deliver

variable {σ : Type*} (callback : σ → Frame → σ × Bool)

/-- Hand out frames until the callback asks to stop. -/
def deliver (arg : σ) : List Frame → σ × Bool
  | [] => (arg, true)
  | f :: fs =>
    match callback arg f with
    | (arg, true) => deliver arg fs
    | (arg, false) => (arg, false)

theorem deliver_append (arg : σ) (fs gs : List Frame) :
    deliver callback arg (fs ++ gs) =
      match deliver callback arg fs with
      | (arg, true) => deliver callback arg gs
      | (arg, false) => (arg, false) := by
  induction fs generalizing arg with
  | nil => rfl
  | cons f fs ih =>
    rw [List.cons_append, deliver, deliver]
    rcases callback arg f with ⟨arg', _ | _⟩
    · rfl
    · exact ih arg'

theorem deliver_always (g : σ → Frame → σ) (arg : σ) (fs : List Frame) :
    deliver (fun a f => (g a f, true)) arg fs = (fs.foldl g arg, true) := by
  induction fs generalizing arg with
  | nil => rfl
  | cons f fs ih => exact ih (g arg f)

end Deliver

/-- A callback that records the frames it is handed. -/
def record (frames : List Frame) (f : Frame) : List Frame := frames ++ [f]

theorem foldl_record (acc frames : List Frame) : frames.foldl record acc = acc ++ frames := by
  induction frames generalizing acc with
  | nil => simp
  | cons f frames ih => rw [List.foldl_cons, ih, record, List.append_assoc]; rfl

end Ssn
