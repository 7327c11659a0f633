import SsnIpc.Frame.Wire
import SsnIpc.Server.SendBuffer

/-!
# What a server writes to a client

The sends of a server on the connection of one client. Whoever the server sends to, the rest of the
connections is left alone (`Mute`), and a send that fails closes the descriptor of its client.

**Theorem (`Writes.step`).** The sends of a server on a connection are those of one wire: each is
whole or less than a frame, and nothing goes out behind one that failed.
-/

namespace Ssn

open ByteMem

variable {β : Type*} {net : Nat → Nat → SendStep} {w w' w'' : World β} {id id' : UInt32}

/-- What an entry of the log adds to the sends on the connection `id`. -/
def ServerEvent.sends (id : UInt32) (acc : List (Message × SendOut)) :
    ServerEvent β → List (Message × SendOut)
  | .accepted id' => if id' = id then [] else acc
  | .sent id' msg out => if id' = id then acc ++ [(msg, out)] else acc
  | _ => acc

namespace World

/-- The messages sent on the connection `id` since it was accepted last, each with what its send
did. -/
def sendsTo (w : World β) (id : UInt32) : List (Message × SendOut) :=
  w.log.foldl (ServerEvent.sends id) []

@[simp] theorem sendsTo_emit (e : ServerEvent β) :
    (w.emit e).sendsTo id = e.sends id (w.sendsTo id) := by
  simp [sendsTo, emit]

/-- The client has no open connection. -/
def Down (w : World β) (id : UInt32) : Prop := ∀ t ∈ w.view Client.transport id, t.sockFd < 0

/-! ## Steps that send nothing to the client -/

/-- Nothing is sent to the client, and its connection is not opened. -/
structure Mute (id : UInt32) (w w' : World β) : Prop where
  sends : w'.sendsTo id = w.sendsTo id
  down : w.Down id → w'.Down id

theorem Mute.refl (id : UInt32) (w : World β) : Mute id w w := ⟨rfl, fun h => h⟩

theorem Mute.trans (h : Mute id w w') (h' : Mute id w' w'') : Mute id w w'' :=
  ⟨h'.sends.trans h.sends, fun hw => h'.down (h.down hw)⟩

theorem mute_emit {e : ServerEvent β} (he : e.sends id (w.sendsTo id) = w.sendsTo id) :
    Mute id w (w.emit e) :=
  ⟨(sendsTo_emit e).trans he, fun h => h⟩

theorem mute_createHeader (msg : Message) : Mute id w (w.createHeader msg) := ⟨rfl, fun h => h⟩

theorem mute_modifyCli {f : Client → Client} (hid : ∀ c, (f c).id = c.id)
    (ht : ∀ c, c.transport.sockFd < 0 → (f c).transport.sockFd < 0) :
    Mute id w (w.modifyCli id' f) := by
  refine ⟨rfl, fun h t hmem => ?_⟩
  rw [view_modifyCli _ hid] at hmem
  by_cases e : id = id'
  · subst e
    rw [Function.update_self] at hmem
    obtain ⟨c, hc, rfl⟩ := Option.map_eq_some_iff.1 hmem
    refine ht c (h _ ?_)
    rw [view, hc]
    rfl
  · rw [Function.update_of_ne e] at hmem
    exact h t hmem

theorem mute_cliDestroy : Mute id w (w.cliDestroy id') := by
  refine ⟨sendsTo_emit _, fun h t hmem => ?_⟩
  rw [view_cliDestroy] at hmem
  exact h t (mem_update_none hmem)

theorem mute_callOncli (connect : Bool) : Mute id w (w.callOncli id' connect) := by
  unfold callOncli
  split_ifs
  · exact mute_emit rfl
  · exact .refl id w

theorem mute_closeClient (cli : Client) : Mute id w (w.closeClient cli) := by
  unfold closeClient
  apply Mute.trans _ mute_cliDestroy
  split_ifs
  · apply Mute.trans _ (mute_callOncli false)
    exact mute_modifyCli (fun _ => rfl) fun _ h => h
  · exact .refl id w

theorem mute_noteConnected : Mute id w (w.noteConnected id') := by
  unfold noteConnected
  split_ifs
  · apply Mute.trans _ (mute_callOncli true)
    exact mute_modifyCli (fun _ => rfl) fun _ h => h
  · exact .refl id w

theorem mute_addClient (hne : id' ≠ id) (ncid : UInt32) (fd : Int) :
    Mute id w (w.addClient id' ncid fd) := by
  refine ⟨(sendsTo_emit _).trans (if_neg hne), fun h t hmem => ?_⟩
  rw [view_addClient, Function.update_of_ne (Ne.symm hne)] at hmem
  exact h t hmem

theorem mute_handleEventInput : Mute id w w.handleEventInput :=
  event_invariant (fun h : Mute id w w => ⟨h.sends, h.down⟩)
    (fun _ _ h => h.trans mute_cliDestroy) (.refl id w)

theorem mute_timerSweep : Mute id w w.timerSweep := by
  refine ⟨rfl, fun h t hmem => ?_⟩
  have hfind : w.timerSweep.server.cliFind id = (w.server.cliFind id).map sweepCli :=
    Buckets.find_map id_sweepCli id
  rw [view, hfind, Option.map_map] at hmem
  obtain ⟨c, hc, rfl⟩ := Option.map_eq_some_iff.1 hmem
  refine h _ ?_
  rw [view, hc, Option.map_some, Function.comp_apply, sweepCli]
  split_ifs <;> rfl

/-! ## Sends -/

/-- All sends to the client went over one wire, whose descriptor is closed if one of them
failed. -/
structure Writes (w : World β) (id : UInt32) : Prop where
  wire : OneWire (w.sendsTo id)
  down : (∃ s ∈ w.sendsTo id, s.2.ret = false) → w.Down id

theorem Writes.of_mute (h : w.Writes id) (hm : Mute id w w') : w'.Writes id := by
  refine ⟨hm.sends ▸ h.wire, fun hex => hm.down (h.down ?_)⟩
  rwa [hm.sends] at hex

theorem sendsTo_cliSendmsg (net : Nat → Nat → SendStep) (id : UInt32) {cli : Client}
    (msg : Message) (hcli : w.server.cliFind id' = some cli) :
    (w.cliSendmsg net id' msg).sendsTo id = w.sendsTo id ++
      if id' = id then
        [(msg, (sendMessage cli.transport w.server.sendbuf msg.url msg.data (net w.log.length)).2)]
      else [] := by
  rw [sendsTo, (cliSendmsg_spec net w id' msg hcli).1, List.foldl_append]
  by_cases e : id' = id <;> simp [e, ServerEvent.sends, sendsTo]

theorem mute_cliSendmsg (net : Nat → Nat → SendStep) (hne : id' ≠ id) (msg : Message) :
    Mute id w (w.cliSendmsg net id' msg) := by
  cases hcli : w.server.cliFind id' with
  | none =>
    rw [cliSendmsg_none net msg hcli]
    exact .refl id w
  | some cli =>
    refine ⟨by rw [sendsTo_cliSendmsg net id msg hcli, if_neg hne, List.append_nil],
      fun h t ht => ?_⟩
    refine h t ?_
    simp only [cliSendmsg, hcli, view_emit] at ht
    rw [view_modifyCli _ (id_afterSend _), Function.update_of_ne (Ne.symm hne)] at ht
    exact ht

theorem mute_startIdle (keepalive : Int) : Mute id w (w.modifyCli id' (startIdle keepalive)) := by
  refine mute_modifyCli (id_startIdle _) fun c hc => ?_
  unfold startIdle
  split_ifs <;> exact hc

theorem mute_touch : Mute id w (w.touch id') := mute_modifyCli (fun _ => rfl) fun _ hc => hc

/-- **A send keeps to the wire,** and closes its descriptor if it fails. -/
theorem Writes.cliSendmsg (h : w.Writes id) {msg : Message} (hb : w.BufferHolds msg) :
    (w.cliSendmsg net id' msg).Writes id := by
  by_cases hid : id' = id
  · subst hid
    cases hcli : w.server.cliFind id' with
    | none => rwa [cliSendmsg_none net msg hcli]
    | some cli =>
      have hclosed (hdown : w.Down id') : cli.transport.sockFd < 0 :=
        hdown _ (by rw [view, hcli]; rfl)
      have hsends := sendsTo_cliSendmsg net id' msg hcli
      rw [if_pos rfl] at hsends
      have hview : (w.cliSendmsg net id' msg).view Client.transport id' =
          some (afterSend (sendMessage cli.transport w.server.sendbuf msg.url msg.data
            (net w.log.length)).2 cli).transport := by
        simp only [World.cliSendmsg, hcli, view_emit]
        rw [view_modifyCli _ (id_afterSend _), Function.update_self]
        exact congrArg (Option.map _) hcli
      -- A send that fails closes the descriptor, and nothing can be sent on a closed one.
      have hfail (hret : (sendMessage cli.transport w.server.sendbuf msg.url msg.data
          (net w.log.length)).2.ret = false) : (w.cliSendmsg net id' msg).Down id' := by
        intro t ht
        rw [hview, afterSend, hret] at ht
        obtain rfl := Option.some.inj ht
        exact (by decide : (-1 : Int) < 0)
      refine ⟨?_, fun hex => ?_⟩
      · rw [hsends]
        exact h.wire.append (fun hex => hclosed (h.down hex)) hb
      · rw [hsends] at hex
        obtain ⟨s, hs, hret⟩ := hex
        rcases List.mem_append.1 hs with hs | hs
        · exact hfail (sendMessage_closed (hclosed (h.down ⟨s, hs, hret⟩))).1
        · obtain rfl := List.mem_singleton.1 hs
          exact hfail hret
  · exact h.of_mute (mute_cliSendmsg net hid msg)

theorem Writes.send (h : w.Writes id) (msg : Message) : (w.send net id' msg).Writes id :=
  (h.of_mute (mute_createHeader msg)).cliSendmsg (bufferHolds_createHeader w msg)

theorem Writes.sendTo (h : w.Writes id) (msg : Message) : (w.sendTo net id' msg).Writes id := by
  unfold World.sendTo
  split_ifs
  · exact h.send msg
  · exact h

theorem Writes.publish (h : w.Writes id) (url : Bytes) (data : Option Ref) :
    (w.publish net url data).Writes id := by
  unfold World.publish
  split_ifs
  · have hstart : (w.createHeader (publishMsg url data)).Writes id ∧
        (w.createHeader (publishMsg url data)).BufferHolds (publishMsg url data) :=
      ⟨h.of_mute (mute_createHeader _), bufferHolds_createHeader w _⟩
    refine (List.foldlRecOn (motive := fun w' : World β =>
      w'.Writes id ∧ w'.BufferHolds (publishMsg url data)) _ _ hstart fun w' hw' c _ => ?_).1
    unfold publishTo
    split_ifs
    · exact ⟨hw'.1.cliSendmsg hw'.2, (intact_cliSendmsg net c.id hw'.2).2⟩
    · exact hw'
  · exact h

theorem Writes.dispatch (h : w.Writes id) (f : Frame) : (w.dispatch net id' f).Writes id := by
  by_cases hf : getMsgType f = MsgType.serviceInfo
  · rw [dispatch_serviceInfo hf]
    apply Writes.of_mute _ mute_noteConnected
    unfold replyServiceInfo
    apply Writes.cliSendmsg
    · exact h.of_mute ((mute_createHeader _).trans (mute_startIdle _))
    · exact bufferHolds_createHeader w _
  · apply dispatch_plain (P := fun w' => w'.Writes id) hf
    · exact h
    · exact h.of_mute (mute_emit rfl)
    · intro _ _ handler
      exact h.of_mute (mute_emit rfl)
    · intro status
      exact h.send _
    · intro subs status
      apply Writes.send
      exact h.of_mute (mute_modifyCli (fun _ => rfl) fun _ hc => hc)

theorem Writes.input (h : w.Writes id) (f : Frame) : (w.input net id' f).Writes id := by
  apply Writes.dispatch
  have hnote : Mute id w (w.emit (.input id' f)) := mute_emit rfl
  exact h.of_mute (hnote.trans mute_touch)

theorem Writes.takeChunk (h : w.Writes id) (buf : Bytes) (frames : List Frame)
    (recv : StreamCtx) : (w.takeChunk net id' buf frames recv).Writes id := by
  have hnote : Mute id w (w.emit (.received id' buf)) := mute_emit rfl
  have hframes : (frames.foldl (World.input net id') (w.emit (.received id' buf))).Writes id :=
    List.foldlRecOn (motive := fun w' : World β => w'.Writes id) _ _ (h.of_mute hnote)
      fun w' hw' f _ => hw'.input f
  exact hframes.of_mute (mute_modifyCli (fun _ => rfl) fun _ hc => hc)

theorem Writes.addClient (h : w.Writes id) (id' ncid : UInt32) (fd : Int) :
    (w.addClient id' ncid fd).Writes id := by
  by_cases e : id' = id
  · have hnil : (w.addClient id' ncid fd).sendsTo id = [] := (sendsTo_emit _).trans (if_pos e)
    refine ⟨hnil ▸ OneWire.nil, fun hex => ?_⟩
    simp [hnil] at hex
  · exact h.of_mute (mute_addClient e ncid fd)

/-- **A step keeps to the wire.** -/
theorem Writes.step (net : Nat → Nat → SendStep) (h : w.Writes id) (ht : w.TableOk)
    (op : ServerOp) : (w.step net op).Writes id := by
  cases op with
  | newConnection fd =>
    rcases w.handleNewConnection_cases fd with e | ⟨id', ncid, -, -, e⟩
    · rwa [World.step, e]
    · rw [World.step, e]
      exact h.addClient id' ncid fd
  | clientInput id' r =>
    rw [World.step]
    rcases handleClientInput_cases net ht id' r with e | ⟨cli, -, -, e | ⟨buf, recv, -, e⟩⟩
    · rwa [e]
    · rw [e]
      exact h.of_mute (mute_closeClient cli)
    · rw [e]
      exact h.takeChunk _ _ _
  | eventInput => exact h.of_mute mute_handleEventInput
  | timerSweep => exact h.of_mute mute_timerSweep
  | peerClose id' =>
    refine h.of_mute (mute_modifyCli (fun _ => rfl) fun _ _ => ?_)
    exact (by decide : (-1 : Int) < 0)
  | publish url data => exact h.publish url data
  | response id' status seqno data => exact h.sendTo _
  | message id' url data =>
    simp only [World.step, message]
    split_ifs
    · exact h.sendTo _
    · exact h

end World

/-- What every step keeps while the table is well formed holds at the end of every run. -/
theorem World.run_keeps {P : World β → Prop} (net : Nat → Nat → SendStep) {s : Server β}
    (hinit : P (World.init s)) (ops : List ServerOp)
    (hstep : ∀ (w : World β) (op : ServerOp), w.TableOk → P w → P (w.step net op)) :
    P (Runs.run (World.step net) (World.init s) ops) := by
  have hboth (w : World β) (op : ServerOp) (hw : w.TableOk ∧ P w) (_ : True) :
      (w.step net op).TableOk ∧ P (w.step net op) :=
    ⟨World.tableOk_step net hw.1 op, hstep w op hw.1 hw.2⟩
  exact (Runs.run_invariant hboth ⟨World.tableOk_init s, hinit⟩ Runs.eachStep_true).2

theorem serverWrites_run (net : Nat → Nat → SendStep) (s : Server β) (ops : List ServerOp)
    (id : UInt32) : (Runs.run (World.step net) (World.init s) ops).Writes id := by
  have hinit : (World.init s).Writes id :=
    ⟨OneWire.nil, fun h => by simp [World.sendsTo, World.init] at h⟩
  exact World.run_keeps (P := fun w => w.Writes id) net hinit ops
    fun _ op ht hw => hw.step net ht op

end Ssn
