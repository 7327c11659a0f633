import SsnIpc.Client.Sections

/-!
# When a request times out

A request is given its timeout in milliseconds as a 64-bit number. What its slot keeps is the lower
32 bits, and each round of the timer takes 50 off, until nothing is left: 0 is also the mark of a
request that has timed out.

**Theorem (`timely_iff`).** A request is collected as timed out no earlier than the rounds of the
timer that its timeout asks for, and its timeout is used up after exactly that many, if and only
if the timeout fits 32 bits.
-/

namespace Ssn

variable {κ : Type*} {net : Nat → Nat → SendStep} {c c' : SsnClient κ} {i : Nat}

/-! ## Rounds of the timer -/

def PoolSection.isSweep : PoolSection κ → Bool
  | .sweep => true
  | _ => false

def sweeps (es : List (PoolSection κ)) : Nat := es.countP PoolSection.isSweep

namespace SsnClient

/-- What is left of the timeout of slot `i`, in milliseconds. -/
def timeLeft (c : SsnClient κ) (i : Nat) : Nat := (c.pendingPool i).timeoutMs.toNat

theorem toNat_sweepPending (p : Pending κ) :
    (sweepPending p).timeoutMs.toNat = p.timeoutMs.toNat - 50 := by
  have hperiod : pendingPeriod.toNat = 50 := rfl
  simp only [sweepPending]
  split_ifs with h
  · rw [UInt32.toNat_sub_of_le _ _ (UInt32.le_of_lt h), hperiod]
  · rw [UInt32.lt_iff_toNat_lt, hperiod] at h
    rw [UInt32.toNat_zero]
    omega

/-- Sections leave what is in a slot in use alone, but for rounds of the timer. -/
theorem pendingPool_poolSection (hi : c.inUse i = true) {e : PoolSection κ}
    (he : e.isSweep = false) : (c.poolSection e).pendingPool i = c.pendingPool i := by
  cases e with
  | request ftype k timeoutMs =>
    rcases ha : c.allocPendingIndex with _ | ⟨j, c'⟩
    · simp only [poolSection, ha]
    · have hne : i ≠ j := by
        rintro rfl
        rw [(allocPendingIndex_spec ha).1] at hi
        cases hi
      simp only [poolSection, ha, (register_pool ha).1, Function.update_of_ne hne]
  | free index => rw [poolSection, pendingPool_freePendingIndex]
  | collect onlyTimeout => rw [poolSection, (c.collect_spec onlyTimeout).2.1]
  | cancel seqno =>
    simp only [poolSection]
    split_ifs
    · rw [pendingPool_freePendingIndex]
    · rfl
  | sweep => cases he

theorem timeLeft_poolSection (hi : c.inUse i = true) (hlt : i < maxPending) (e : PoolSection κ) :
    (c.poolSection e).timeLeft i = c.timeLeft i - if e.isSweep then 50 else 0 := by
  cases he : e.isSweep with
  | false => simp [timeLeft, pendingPool_poolSection hi he]
  | true =>
    cases e with
    | sweep =>
      rw [poolSection, timeLeft, timerSweep]
      simp only [hlt, hi, and_self, if_true]
      exact toNat_sweepPending _
    | _ => cases he

/-- While a slot stays in use, every round of the timer takes 50 ms off. -/
theorem timeLeft_run (hlt : i < maxPending) {es : List (PoolSection κ)}
    (h : Runs.Always poolSection (fun c => c.inUse i = true) c es) :
    (Runs.run poolSection c es).timeLeft i = c.timeLeft i - 50 * sweeps es := by
  induction es generalizing c with
  | nil => rfl
  | cons e es ih =>
    obtain ⟨hi, hes⟩ := Runs.always_cons.1 h
    rw [Runs.run_cons, ih hes, timeLeft_poolSection hi hlt e, sweeps, sweeps, List.countP_cons]
    split_ifs <;> omega

theorem always_inUse_sweep (hi : c.inUse i = true) (n : Nat) :
    Runs.Always poolSection (fun c => c.inUse i = true) c (List.replicate n .sweep) := by
  induction n generalizing c with
  | zero => exact Runs.always_nil.2 hi
  | succ n ih => exact Runs.always_cons.2 ⟨hi, ih hi⟩

/-- A slot in use is collected as timed out when nothing is left of its timeout. -/
theorem collected_iff (hi : c.inUse i = true) (hlt : i < maxPending) :
    (c.collect true).1.inUse i = false ↔ c.timeLeft i = 0 := by
  rw [(c.collect_spec true).2.2, timeLeft, ← UInt32.toNat_zero, UInt32.toNat_inj]
  simp [reported, hi, hlt]

/-! ## Timeouts that fit -/

/-- The request in slot `i` with the timeout `timeoutMs` times out when it should. Whatever happens
while it is in flight: if a collection would take it, then at least as many rounds of the timer
have passed as the timeout has periods of 50 ms, begun ones included, and after exactly that many
the timeout is used up. -/
def Timely (c : SsnClient κ) (i timeoutMs : Nat) : Prop :=
  ∀ es, Runs.Always poolSection (fun c => c.inUse i = true) c es →
    let c' := Runs.run poolSection c es
    ((c'.collect true).1.inUse i = false → (timeoutMs + 49) / 50 ≤ sweeps es) ∧
      (sweeps es = (timeoutMs + 49) / 50 → (c'.pendingPool i).timeoutMs = 0)

theorem timely_iff_fits {timeoutMs : Nat} (hi : c.inUse i = true) (hlt : i < maxPending)
    (hleft : c.timeLeft i = timeoutMs % 2 ^ 32) : c.Timely i timeoutMs ↔ timeoutMs < 2 ^ 32 := by
  constructor
  · intro h
    by_contra hbig
    -- The rounds that the lower 32 bits ask for are fewer.
    let n := (timeoutMs % 2 ^ 32 + 49) / 50
    have hn : sweeps (List.replicate n (.sweep : PoolSection κ)) = n := by
      simp [sweeps, PoolSection.isSweep, List.countP_replicate]
    have hall := always_inUse_sweep hi n
    have hin := hall _ (List.prefix_refl _)
    have hzero : (Runs.run poolSection c (List.replicate n .sweep)).timeLeft i = 0 := by
      rw [timeLeft_run hlt hall, hn, hleft]
      omega
    have hrounds := (h _ hall).1 ((collected_iff hin hlt).2 hzero)
    rw [hn] at hrounds
    omega
  · intro hfits es hall
    have hrun := timeLeft_run hlt hall
    rw [hleft, Nat.mod_eq_of_lt hfits] at hrun
    refine ⟨fun hcol => ?_, fun hsweeps => ?_⟩
    · rw [collected_iff (hall _ (List.prefix_refl _)) hlt, hrun] at hcol
      omega
    · rw [← UInt32.toNat_inj, UInt32.toNat_zero]
      rw [timeLeft] at hrun
      omega

end SsnClient

/-! ## Requests -/

namespace ClientWorld

variable {w : ClientWorld κ}

/-- A request that got a slot and could be sent has the lower 32 bits of its timeout in it. -/
theorem timeLeft_requestPending {ftype : FType} {msgType : UInt8} {url data : Option Ref} {k : κ}
    {timeoutMs : Nat} (ha : w.client.allocPendingIndex = some (i, c))
    (hi : (w.requestPending net ftype msgType url data k timeoutMs).1.client.inUse i = true) :
    (w.requestPending net ftype msgType url data k timeoutMs).1.client.timeLeft i =
      timeoutMs % 2 ^ 32 := by
  obtain ⟨-, hlt, -⟩ := SsnClient.allocPendingIndex_spec ha
  simp only [requestPending, ha] at hi ⊢
  rcases hsend : (w.setClient (c.register i ftype k timeoutMs)).send net
    ⟨msgType, 0, c.seqno, url, data⟩ with ⟨w', ok⟩
  obtain ⟨-, hpool, -⟩ := send_spec hsend
  simp only [hsend] at hi ⊢
  split_ifs at hi ⊢
  · have hslot : w'.client.pendingPool = _ := (congrArg Prod.fst hpool).trans
      (SsnClient.register_pool ha).1
    rw [SsnClient.timeLeft, hslot, Function.update_self]
    exact UInt32.toNat_ofNat'
  · simp [setClient, SsnClient.inUse_freePendingIndex hlt] at hi

/-- The requests that are given a timeout and a callback: `ssn_client_call`, and that of
`ssn_client_ping`. -/
inductive Timed (net : Nat → Nat → SendStep) (w : ClientWorld κ) (timeoutMs : Nat) :
    ClientWorld κ → Prop
  | call (url : ByteMem.Bytes) (data : Option Ref) (k : κ) :
    Timed net w timeoutMs (w.callEx net url data (some k) timeoutMs).1
  | ping (k : κ) :
    Timed net w timeoutMs (w.requestEx net MsgType.pingEcho none none (some k) timeoutMs).1

theorem Timed.timeLeft {w' : ClientWorld κ} {timeoutMs : Nat} (h : Timed net w timeoutMs w')
    (ha : w.client.allocPendingIndex = some (i, c)) (hi : w'.client.inUse i = true) :
    w'.client.timeLeft i = timeoutMs % 2 ^ 32 := by
  have hfree : w.client.inUse i ≠ true := by
    rw [(SsnClient.allocPendingIndex_spec ha).1]
    exact Bool.false_ne_true
  cases h with
  | call url data k =>
    unfold callEx at hi ⊢
    split_ifs at hi ⊢
    · exact timeLeft_requestPending ha hi
    · exact absurd hi hfree
  | ping k =>
    unfold requestEx at hi ⊢
    split_ifs at hi ⊢
    · exact timeLeft_requestPending ha hi
    · exact absurd hi hfree

end ClientWorld

/-- **Timeouts are kept exactly if they fit 32 bits.** For every client and every request with a
timeout that got a slot and was sent. -/
theorem timely_iff (net : Nat → Nat → SendStep) (w w' : ClientWorld κ) (i timeoutMs : Nat)
    (hreq : w.Timed net timeoutMs w')
    (hslot : w.client.allocPendingIndex.map Prod.fst = some i)
    (hin : w'.client.inUse i = true) :
    w'.client.Timely i timeoutMs ↔ timeoutMs < 2 ^ 32 := by
  obtain ⟨⟨j, c⟩, ha, rfl⟩ := Option.map_eq_some_iff.1 hslot
  exact SsnClient.timely_iff_fits hin (SsnClient.allocPendingIndex_spec ha).2.1
    (hreq.timeLeft ha hin)

/-- The client after its first call, for which `timeoutMs` are given. -/
def afterFirstCall (timeoutMs : Nat) : ClientWorld Nat :=
  (connectedWorld.callEx acceptAll [slash, 0x61] none (some 0) timeoutMs).1

/-- A second is kept. -/
theorem firstCall_timely : (afterFirstCall 1000).client.inUse 0 = true ∧
    ((afterFirstCall 1000).client.Timely 0 1000 ↔ 1000 < 2 ^ 32) := by
  obtain ⟨hslot, hin⟩ : connectedWorld.client.allocPendingIndex.map Prod.fst = some 0 ∧
      (afterFirstCall 1000).client.inUse 0 = true := by decide +kernel
  have hcall : connectedWorld.Timed acceptAll 1000 (afterFirstCall 1000) := by
    rw [afterFirstCall]
    exact .call ..
  exact ⟨hin, timely_iff acceptAll connectedWorld _ 0 1000 hcall hslot hin⟩

/-- Some fifty days are 0 ms: the call has timed out before the first round of the timer. -/
theorem longCall_not_timely : ¬ (afterFirstCall (2 ^ 32)).client.Timely 0 (2 ^ 32) := by
  obtain ⟨hin, hleft⟩ : (afterFirstCall (2 ^ 32)).client.inUse 0 = true ∧
      (afterFirstCall (2 ^ 32)).client.timeLeft 0 = 2 ^ 32 % 2 ^ 32 := by decide +kernel
  rw [SsnClient.timely_iff_fits hin (by decide) hleft]
  exact Nat.lt_irrefl _

end Ssn
