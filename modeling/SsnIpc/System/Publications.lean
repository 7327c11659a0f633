import SsnIpc.Server.Subscriptions
import SsnIpc.System.Replies

/-!
# Publications across the network

A publication is due to the clients that have shaken hands and whose subscriptions match its url at
that moment. A newsroom is a network with the list of all publications and, for each client, the
list of those that were due to it.

**Theorem (`publications_delivered`).** The PUBLISH frames that a client has dispatched are the
first of the publications that were due to it, each once, in order and as published; and all of
them if nothing is under way and no send to the client has failed.

The publications due to a client are some of all publications in their order, so two subscribers
never see two publications in different orders.

On the server, every publication makes exactly one send to each client that it is due to
(`pubsTo_publish`), and nothing else sends a PUBLISH (`pubsTo_step`).
-/

namespace Ssn

open ByteMem

variable {κ β : Type*} {net : Nat → Nat → SendStep} {w w' : World β} {id : UInt32}

/-! ## Sends of publications -/

def Message.isPublish (msg : Message) : Bool := msg.msgType = MsgType.publish

def Frame.isPublish (f : Frame) : Bool := getMsgType f = MsgType.publish

namespace World

/-- The publications sent to a client, with success or without. -/
def pubsTo (w : World β) (id : UInt32) : List Message :=
  ((w.sendsTo id).map Prod.fst).filter Message.isPublish

/-- A publication of this url is due to the client. -/
def isDue (w : World β) (id : UInt32) (url : Bytes) : Bool :=
  urlOk url ∧ (w.server.cliFind id).any (receives url)

/-- The publication that a step makes. -/
def publication : ServerOp → Option (Bytes × Option Ref)
  | .publish url data => some (url, data)
  | _ => none

/-- What becomes due to the client in a step. -/
def newlyDue (w : World β) (id : UInt32) (op : ServerOp) : List Message :=
  ((publication op).filter fun p => w.isDue id p.1).toList.map fun p => publishMsg p.1 p.2

theorem foldl_sends_published (id : UInt32) {url : Bytes} {data : Option Ref} {cs : List Client}
    {es : List (ServerEvent β)} (h : List.Forall₂ (Published url data) cs es)
    (acc : List (Message × SendOut)) :
    (es.foldl (ServerEvent.sends id) acc).map Prod.fst = acc.map Prod.fst ++
      (cs.filter fun c => c.id = id).map fun _ => publishMsg url data := by
  induction h generalizing acc with
  | nil => simp
  | cons hpub _ ih =>
    obtain ⟨out, rfl, -⟩ := hpub
    rw [List.foldl_cons, ih]
    rename_i c cs es _
    by_cases hid : c.id = id <;> simp [ServerEvent.sends, hid]

theorem filter_receives (h : w.TableOk) (url : Bytes) :
    (w.server.clients.filter (receives url)).filter (fun c => c.id = id) =
      ((w.server.cliFind id).filter (receives url)).toList := by
  refine Lists.eq_toList_of_nodup ((h.wf.nodup_clients.of_map _).filter _ |>.filter _) fun c => ?_
  rw [List.mem_filter, List.mem_filter, h.wf.mem_clients, Option.filter_eq_some_iff,
    decide_eq_true_iff]
  constructor
  · rintro ⟨⟨hc, hr⟩, rfl⟩
    exact ⟨hc, hr⟩
  · intro ⟨hc, hr⟩
    obtain rfl := Server.cliFind_id hc
    exact ⟨⟨hc, hr⟩, rfl⟩

/-- **A publication is sent once to a client that it is due to.** -/
theorem pubsTo_publish (net : Nat → Nat → SendStep) (h : w.TableOk) (url : Bytes)
    (data : Option Ref) :
    (w.publish net url data).pubsTo id =
      w.pubsTo id ++ if w.isDue id url then [publishMsg url data] else [] := by
  unfold World.publish
  by_cases hurl : urlOk url = true
  · have hfound : ∀ c ∈ w.server.clients, (w.view Client.id c.id).isSome := by
      intro c hc
      rw [view, h.wf.mem_clients.1 hc]
      rfl
    obtain ⟨es, hlog, hall⟩ := published_loop (w := w.createHeader (publishMsg url data)) net hfound
      (bufferReady_createHeader w url data)
    have hsends := foldl_sends_published id hall (w.sendsTo id)
    rw [filter_receives h] at hsends
    rw [if_pos hurl, pubsTo, sendsTo, hlog, List.foldl_append]
    show ((es.foldl (ServerEvent.sends id) (w.sendsTo id)).map Prod.fst).filter _ = _
    rw [hsends, List.filter_append, isDue]
    cases w.server.cliFind id with
    | none => simp [pubsTo]
    | some c =>
      cases hr : receives url c <;>
        simp [Option.filter, hr, hurl, pubsTo, Message.isPublish, publishMsg]
  · rw [if_neg hurl, isDue]
    simp [hurl]

theorem pubsTo_sent {msg : Message} (hmsg : msg.isPublish = false) (h : Sent id msg w w') :
    w'.pubsTo id = w.pubsTo id := by
  obtain ⟨-, out, hs⟩ := h
  rw [pubsTo, hs, List.map_append, List.filter_append]
  simp [hmsg, pubsTo]

theorem isPublish_replyOf {f : Frame} {msg : Message} (h : w.replyOf true id f = some msg) :
    msg.isPublish = false := by
  unfold replyOf at h
  rw [Message.isPublish, decide_eq_false_iff_not]
  intro hpub
  have htag : msg.tag = f.tag := tag_replyOf h
  have htype : getMsgType f = MsgType.publish := (congrArg Prod.fst htag).symm.trans hpub
  rw [htype] at h
  cases h

theorem pubsTo_input (net : Nat → Nat → SendStep) (f : Frame) {cli : Client}
    (hcli : w.server.cliFind id = some cli) : (w.input net id f).pubsTo id = w.pubsTo id := by
  obtain ⟨out, hs, -⟩ := sendsTo_input net f hcli
  rw [pubsTo, hs, List.map_append, List.filter_append]
  cases hr : w.replyOf true id f with
  | none => simp [pubsTo]
  | some msg => simp [isPublish_replyOf hr, pubsTo]

/-- **Only publications are sent as such.** -/
theorem pubsTo_step (net : Nat → Nat → SendStep) (h : w.TableOk) {op : ServerOp}
    (hop : ∀ fd, op = .newConnection fd →
      ∀ p ∈ w.server.cliNewid (2 ^ 32) w.server.ncid, p.1 ≠ id) :
    (w.step net op).pubsTo id = w.pubsTo id ++ w.newlyDue id op := by
  by_cases hpub : ∃ url data, op = .publish url data
  · obtain ⟨url, data, rfl⟩ := hpub
    rw [step, pubsTo_publish net h, newlyDue, publication]
    cases hd : w.isDue id url <;> simp [Option.filter, hd]
  · have hnone : publication op = none := by
      cases op with
      | publish url data => exact absurd ⟨url, data, rfl⟩ hpub
      | _ => rfl
    rw [newlyDue, hnone]
    simp only [Option.filter_none, Option.toList_none, List.map_nil, List.append_nil]
    refine step_keeps (P := fun v : World β => v.pubsTo id = w.pubsTo id) h
      (fun ha hv => ?_) (fun f hcli hv => (pubsTo_input net f hcli).trans hv)
      (fun url data hop' => absurd ⟨url, data, hop'⟩ hpub)
      (fun status seqno data _ hs => pubsTo_sent rfl hs)
      (fun hmsg hs => pubsTo_sent (by rw [Message.isPublish, hmsg]; rfl) hs)
      (fun ncid fd hop' hnew => absurd rfl (hop fd hop' _ hnew)) rfl
    rw [pubsTo, ha.sends]
    exact hv

end World

/-! ## Newsrooms -/

/-- A network, all publications made, and those that were due to each client. -/
structure Newsroom (κ β : Type*) where
  net : Network κ β
  pubs : List Message
  due : UInt32 → List Message

namespace Newsroom

/-- One step of the network, in which the server may publish. -/
def step [DecidableEq κ] (cnet : UInt32 → Nat → Nat → SendStep) (snet : Nat → Nat → SendStep)
    (s : Newsroom κ β) (e : NetworkStep κ) : Newsroom κ β where
  net := s.net.step cnet snet e
  pubs := s.pubs ++
    ((s.net.serverOp e).bind World.publication).toList.map fun p => World.publishMsg p.1 p.2
  due id := s.due id ++ (s.net.serverOp e).elim [] (s.net.server.newlyDue id)

def start (net : Network κ β) : Newsroom κ β := ⟨net, [], fun _ => []⟩

/-- The publications that the client has dispatched. -/
def read (s : Newsroom κ β) (id : UInt32) : List Frame :=
  (s.net.client id).conn.frames.filter Frame.isPublish

/-- What was due to the client is in the order of all publications, and what it has read is the
first of that. -/
structure Delivers (id : UInt32) (s : Newsroom κ β) : Prop where
  order : (s.due id).Sublist s.pubs
  first : List.Forall₂ Message.Reads ((s.due id).take (s.read id).length) (s.read id)
  all : s.net.down id = [] → (∀ o ∈ s.net.server.sendsTo id, o.2.ret = true) →
    (s.read id).length = (s.due id).length

/-- What every step keeps. -/
structure Inv (id : UInt32) (s : Newsroom κ β) : Prop where
  linked : s.net.Linked id
  sent : s.net.server.pubsTo id = s.due id
  order : (s.due id).Sublist s.pubs

variable {s : Newsroom κ β}

theorem forall₂_filter {msgs : List Message} {frames : List Frame}
    (h : List.Forall₂ Message.Reads msgs frames) :
    List.Forall₂ Message.Reads (msgs.filter Message.isPublish) (frames.filter Frame.isPublish) := by
  induction h with
  | nil => exact .nil
  | cons hr _ ih =>
    rename_i msg f msgs frames _
    have hiff : f.isPublish = msg.isPublish := by
      rw [Frame.isPublish, Message.isPublish, hr.1]
    cases hp : msg.isPublish with
    | true =>
      rw [List.filter_cons_of_pos hp, List.filter_cons_of_pos (hiff.trans hp)]
      exact .cons hr ih
    | false =>
      rw [List.filter_cons_of_neg (by simp [hp]), List.filter_cons_of_neg (by simp [hiff, hp])]
      exact ih

theorem Inv.delivers (h : s.Inv id) : s.Delivers id := by
  have hdown := h.linked.delivers.2
  have hreads := forall₂_filter hdown.reads
  -- What was sent with success is the first of what was due.
  have hpre : ((sentOk (s.net.server.sendsTo id)).take
      (s.net.client id).conn.frames.length).filter Message.isPublish <+: s.due id := by
    rw [← h.sent]
    refine List.IsPrefix.filter _ (List.IsPrefix.trans ?_ h.linked.serverWrites.wire.sentOk_first)
    exact List.take_prefix _ _
  have hcount := hreads.length_eq
  refine ⟨h.order, ?_, fun hnil hok => ?_⟩
  · rw [List.prefix_iff_eq_take.1 hpre, hcount] at hreads
    exact hreads
  · rw [hdown.all hnil, List.take_length, sentOk_of_all hok] at hcount
    rw [← h.sent]
    exact hcount.symm

theorem Inv.step [DecidableEq κ] (cnet : UInt32 → Nat → Nat → SendStep)
    (snet : Nat → Nat → SendStep) (s : Newsroom κ β) (e : NetworkStep κ) (h : s.Inv id)
    (hold : s.net.Holds id e) : (s.step cnet snet e).Inv id := by
  refine ⟨h.linked.step cnet snet s.net e hold, ?_, ?_⟩
  · show (s.net.step cnet snet e).server.pubsTo id = s.due id ++ _
    rw [Network.server_step]
    cases hop : s.net.serverOp e with
    | none => rw [Option.elim_none, Option.elim_none, List.append_nil, h.sent]
    | some op =>
      rw [Option.elim_some, Option.elim_some, ← h.sent]
      refine World.pubsTo_step snet h.linked.table fun fd hfd => ?_
      subst hfd
      cases e with
      | serve op' =>
        obtain rfl := Option.some.inj hop
        exact hold
      | deliver id' n =>
        obtain ⟨r, -, hr⟩ := Option.map_eq_some_iff.1 hop
        cases hr
      | _ => cases hop
  · refine List.Sublist.append h.order ?_
    cases s.net.serverOp e with
    | none => exact List.nil_sublist _
    | some op =>
      refine List.Sublist.map _ ?_
      show (Option.filter _ (World.publication op)).toList.Sublist (World.publication op).toList
      cases World.publication op with
      | none => exact List.Sublist.refl _
      | some p =>
        cases hd : s.net.server.isDue id p.1 <;> simp [Option.filter, hd]

end Newsroom

end Ssn
