import SsnIpc.Client.Requests
import SsnIpc.Client.Steps

/-!
# What a client does to its pool between requests

Apart from requests and the timer, a client only ever frees slots of its pool: for a reply, for a
request that timed out, for all of them when the connection ends, and for a ping that got no
reply. A property of the pool that survives the freeing of a slot (`PoolInv`) therefore survives
polls, connection attempts and disconnects.
-/

namespace Ssn

variable {κ : Type*} {w : ClientWorld κ}

/-- A property of the pool and its counter that freeing a slot in use keeps. -/
structure PoolInv (P : SsnClient κ → Prop) : Prop where
  of_pool : ∀ {c c' : SsnClient κ}, P c → c'.pool = c.pool → c'.seqno = c.seqno → P c'
  free : ∀ {c : SsnClient κ} {i : Nat}, c.inUse i = true → P c → P (c.freePendingIndex i)

namespace PoolInv

open ByteMem ClientWorld

variable {P : SsnClient κ → Prop} (hP : PoolInv P)
include hP

/-! ## Timeouts -/

theorem collect {c : SsnClient κ} (onlyTimeout : Bool) (h : P c) : P (c.collect onlyTimeout).1 := by
  suffices hfold : ∀ (is : List Nat) (acc : SsnClient κ × List (Pending κ)), P acc.1 →
      P (is.foldl (SsnClient.collectOne onlyTimeout) acc).1 from hfold _ (c, []) h
  intro is acc hacc
  induction is generalizing acc with
  | nil => exact hacc
  | cons i is ih =>
    refine ih _ ?_
    unfold SsnClient.collectOne
    simp only
    split_ifs with hi
    · exact hP.free hi.1 hacc
    · exact hacc

theorem timeoutAll (h : P w.client) : P w.timeoutAll.client := by
  rw [ClientWorld.timeoutAll, (collectAndCallPending_spec false).2]
  exact hP.collect false h

theorem handleEvent (h : P w.client) : P w.handleEvent.client := by
  unfold ClientWorld.handleEvent
  split_ifs
  · rw [(collectAndCallPending_spec true).2]
    exact hP.collect true (hP.of_pool h rfl rfl)
  · exact h

/-! ## Polls -/

theorem input (f : Frame) (h : P w.client) : P (w.input f).client := by
  by_cases hf : IsReply f
  · rw [input_reply hf, handlePendingReply]
    rcases hs : (w.emit (.input f)).client.getPendingSnapshot (getSeqno f) with _ | ⟨i, p⟩
    · exact h
    · have hi : w.client.inUse i = true := SsnClient.inUse_of_getPendingSnapshot hs
      obtain ⟨-, hclient⟩ := dispatch_spec (w := w.emit (.input f)) f p
      simp only [setClient, hclient]
      exact hP.free hi h
  · rw [input_not_reply hf]
    exact h

theorem feedInput (buf : Bytes) (h : P w.client) : P (w.feedInput buf).1.client := by
  have hfed : P (streamFeed clientInput w.client.recv buf (w.emit (.received buf))).2.1.client :=
    streamFeed_keeps (P := fun w' : ClientWorld κ => P w'.client) (fun _ f => hP.input f) _ _ _ h
  exact hP.of_pool hfed rfl rfl

theorem connectionLost (h : P w.client) : P w.connectionLost.client :=
  hP.timeoutAll (hP.of_pool h rfl rfl)

theorem poll (outcome : PollOutcome) (h : P w.client) : P (w.poll outcome).client :=
  poll_keeps (P := fun w' : ClientWorld κ => P w'.client) (fun h => hP.handleEvent h)
    (fun h => hP.connectionLost h) (fun _ h => hP.feedInput _ h)
    (fun h => hP.of_pool h rfl rfl) outcome h

theorem pingCancel (seqno : UInt16) (h : P w.client) : P (w.pingCancel seqno).client := by
  unfold ClientWorld.pingCancel
  simp only
  split_ifs with hi
  · exact hP.free hi.2 h
  · exact h

/-! ## Connections -/

theorem connInput {arg : ClientWorld κ × Nat} (f : Frame) (h : P arg.1.client) :
    P (ClientWorld.connInput arg f).1.client := by
  unfold ClientWorld.connInput
  simp only
  split_ifs
  · exact h
  · exact hP.of_pool h rfl rfl
  · exact h

theorem feedConn (buf : Bytes) (h : P w.client) : P (w.feedConn buf).1.1.client := by
  have hfed : P (streamFeed clientConnInput w.client.recv buf
      (w.emit (.received buf), 0)).2.1.1.client :=
    streamFeed_keeps (P := fun arg : ClientWorld κ × Nat => P arg.1.client)
      (fun _ f => hP.connInput f) _ _ _ h
  exact hP.of_pool hfed rfl rfl

theorem opened (msg : Message) (h : P w.client) :
    P ((w.emit .opened).createHeader msg).client :=
  hP.of_pool h rfl rfl

theorem dial (timeoutMs : Option Nat) (run : ConnectRun) (h : P w.client) :
    P (w.dial timeoutMs run).1.client := by
  unfold ClientWorld.dial
  cases run.fd with
  | none => exact h
  | some fd =>
    have hready := hP.opened ⟨MsgType.serviceInfo, 0, 0, none, none⟩ h
    have hshaken := handshake_keeps (P := fun w' : ClientWorld κ => P w'.client)
      (fun _ h => hP.feedConn _ h) (maxRetries (timeoutMs.getD 3000)) run.recvs hready
    simp only
    split_ifs <;> dsimp only
    · exact hP.of_pool hshaken rfl rfl
    · exact hshaken
    · exact hready

theorem connect (timeoutMs : Option Nat) (run : ConnectRun) (h : P w.client) :
    P (w.connect timeoutMs run).1.client := by
  have hdown : P (w.setClient { w.client with connected := false, transport := none }).client :=
    hP.of_pool h rfl rfl
  rw [ClientWorld.connect]
  exact hP.dial timeoutMs run (hP.timeoutAll hdown)

theorem disconnect (h : P w.client) : P w.disconnect.client := by
  unfold ClientWorld.disconnect
  split_ifs
  · exact hP.timeoutAll (hP.of_pool h rfl rfl)
  · exact h

theorem setSendTimeout (timeoutMs : Int) (outcome : Option Nat) (h : P w.client) :
    P (w.setSendTimeout timeoutMs outcome).client := by
  unfold ClientWorld.setSendTimeout
  simp only
  split <;> exact hP.of_pool h rfl rfl

end PoolInv

end Ssn
