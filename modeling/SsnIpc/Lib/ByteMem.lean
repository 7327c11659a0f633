import Mathlib.Algebra.Group.Nat.Defs
import Mathlib.Data.List.Basic
import Mathlib.Data.List.Induction
import Mathlib.Logic.Function.Basic
import Mathlib.Tactic.Common

/-!
# Byte memory and network byte order

A packet buffer is a flat memory: bytes are copied into it at an offset and read back as a range.
`Mem` is that memory, `Mem.write` the copy (`memcpy` and `memmove` alike: the source bytes are
taken before anything is written) and `Mem.slice` the range. The lemmas say what a range reads
after a copy, which is all a proof about a packet buffer needs.

`toBe` and `ofBe` are the big-endian encodings of machine words of any width. `CStringAt` is what
a reader takes for a string who is given an address and no length.
-/

namespace ByteMem

abbrev Bytes := List UInt8

/-- A byte memory, total in the address. -/
def Mem := Nat → UInt8

namespace Mem

def zero : Mem := fun _ => 0

/-- The `len` bytes from address `off` on. -/
def slice (m : Mem) (off len : Nat) : Bytes := (List.range len).map fun i => m (off + i)

/-- Copy `bs` to address `off`. -/
def write (m : Mem) (off : Nat) (bs : Bytes) : Mem := fun i =>
  if off ≤ i then (bs[i - off]?).getD (m i) else m i

@[simp] theorem length_slice (m : Mem) (off len : Nat) : (m.slice off len).length = len := by
  simp [slice]

@[simp] theorem slice_zero (m : Mem) (off : Nat) : m.slice off 0 = [] := rfl

theorem getElem?_slice (m : Mem) (off len i : Nat) :
    (m.slice off len)[i]? = if i < len then some (m (off + i)) else none := by
  by_cases h : i < len
  · simp [slice, h]
  · simp [slice, h]

theorem slice_add (m : Mem) (off a b : Nat) :
    m.slice off (a + b) = m.slice off a ++ m.slice (off + a) b := by
  simp [slice, List.range_add, Function.comp_def, Nat.add_assoc]

theorem take_slice (m : Mem) (off len n : Nat) (h : n ≤ len) :
    (m.slice off len).take n = m.slice off n := by
  obtain ⟨k, rfl⟩ := Nat.exists_eq_add_of_le h
  rw [slice_add, List.take_left' (length_slice ..)]

theorem drop_slice (m : Mem) (off len n : Nat) (h : n ≤ len) :
    (m.slice off len).drop n = m.slice (off + n) (len - n) := by
  obtain ⟨k, rfl⟩ := Nat.exists_eq_add_of_le h
  rw [slice_add, List.drop_left' (length_slice ..), Nat.add_sub_cancel_left]

theorem slice_congr {m m' : Mem} {off off' len : Nat}
    (h : ∀ i, i < len → m (off + i) = m' (off' + i)) : m.slice off len = m'.slice off' len :=
  List.map_congr_left fun i hi => h i (List.mem_range.1 hi)

theorem slice_write_before (m : Mem) {off a len : Nat} (bs : Bytes) (h : a + len ≤ off) :
    (m.write off bs).slice a len = m.slice a len :=
  slice_congr fun i hi => by
    unfold write
    rw [if_neg (by omega)]

theorem slice_write_after (m : Mem) {off a len : Nat} (bs : Bytes) (h : off + bs.length ≤ a) :
    (m.write off bs).slice a len = m.slice a len :=
  slice_congr fun i hi => by
    unfold write
    rw [if_pos (by omega), List.getElem?_eq_none (by omega), Option.getD_none]

@[simp] theorem slice_write_self (m : Mem) (off : Nat) (bs : Bytes) :
    (m.write off bs).slice off bs.length = bs := by
  apply List.ext_getElem?
  intro i
  rw [getElem?_slice]
  by_cases h : i < bs.length
  · simp [write, h]
  · simp [h]

/-- A range that ends where the copy starts reads on into the copied bytes. -/
theorem slice_write_append (m : Mem) (off len : Nat) (bs : Bytes) :
    (m.write (off + len) bs).slice off (len + bs.length) = m.slice off len ++ bs := by
  rw [slice_add, slice_write_before m bs (Nat.le_refl _), slice_write_self]

theorem slice_write_replace {m : Mem} {n off : Nat} {pre mid mid' post : Bytes}
    (h : m.slice 0 n = pre ++ mid ++ post) (hoff : pre.length = off)
    (hlen : mid'.length = mid.length) : (m.write off mid').slice 0 n = pre ++ mid' ++ post := by
  subst hoff
  have hn : n = pre.length + mid'.length + post.length := by
    have := congrArg List.length h
    simp only [length_slice, List.length_append] at this
    omega
  have hpre : m.slice 0 pre.length = pre := by
    have := congrArg (List.take pre.length) h
    rwa [take_slice _ _ _ _ (by omega), List.append_assoc, List.take_left] at this
  have hpost : m.slice (pre.length + mid'.length) post.length = post := by
    have hk : (pre ++ mid).length = pre.length + mid'.length := by rw [List.length_append, hlen]
    have := congrArg (List.drop (pre.length + mid'.length)) h
    rwa [drop_slice _ _ _ _ (by omega), List.drop_left' hk, Nat.zero_add,
      show n - (pre.length + mid'.length) = post.length by omega] at this
  have happ := slice_write_append m 0 pre.length mid'
  rw [Nat.zero_add] at happ
  rw [hn, slice_add, happ, hpre, Nat.zero_add, slice_write_after m mid' (Nat.le_refl _), hpost]

end Mem

/-! ## Strings that end with a NUL -/

/-- The string at `p` is `s`: the bytes of `s`, none of them NUL, and then a NUL. -/
def CStringAt (m : Mem) (p : Nat) (s : Bytes) : Prop :=
  m.slice p s.length = s ∧ 0 ∉ s ∧ m (p + s.length) = 0

instance (m : Mem) (p : Nat) (s : Bytes) : Decidable (CStringAt m p s) :=
  inferInstanceAs (Decidable (_ ∧ _ ∧ _))

theorem take_drop_append {pre w post : Bytes} {i n : Nat} (hi : pre.length = i)
    (hn : w.length = n) : ((pre ++ (w ++ post)).drop i).take n = w := by
  rw [List.drop_left' hi, List.take_left' hn]

/-! ## Big-endian words -/

/-- The `w` low bytes of `n`, most significant first. -/
def toBe : Nat → Nat → Bytes
  | 0, _ => []
  | w + 1, n => toBe w (n / 256) ++ [UInt8.ofNat n]

/-- The number a big-endian string of bytes stands for. -/
def ofBe (bs : Bytes) : Nat := bs.foldl (fun a b => a * 256 + b.toNat) 0

@[simp] theorem length_toBe (w n : Nat) : (toBe w n).length = w := by
  induction w generalizing n with
  | zero => rfl
  | succ w ih => simp [toBe, ih]

theorem ofBe_append_singleton (bs : Bytes) (b : UInt8) :
    ofBe (bs ++ [b]) = ofBe bs * 256 + b.toNat := by
  simp [ofBe]

/-- Encoding a number that fits its width and reading it back is the identity. -/
theorem ofBe_toBe {w n : Nat} (h : n < 256 ^ w) : ofBe (toBe w n) = n := by
  induction w generalizing n with
  | zero =>
    have : n = 0 := by simpa using h
    subst this
    rfl
  | succ w ih =>
    have hdiv : n / 256 < 256 ^ w := by
      apply Nat.div_lt_of_lt_mul
      rwa [Nat.mul_comm, ← Nat.pow_succ]
    rw [toBe, ofBe_append_singleton, ih hdiv]
    simp only [UInt8.toNat_ofNat']
    omega

theorem ofBe_lt (bs : Bytes) : ofBe bs < 256 ^ bs.length := by
  induction bs using List.reverseRecOn with
  | nil => simp [ofBe]
  | append_singleton bs b ih =>
    rw [ofBe_append_singleton, List.length_append, List.length_singleton, Nat.pow_succ]
    have := b.toNat_lt
    omega

end ByteMem
