import Mathlib.Data.Set.Insert
import SsnIpc.Lib.Runs
import SsnIpc.Server.Table

/-!
# Subscriptions and publishing

A client's subscriptions are meant to be a set of urls: SUBSCRIBE adds, UNSUBSCRIBE deletes, and
an UNSUBSCRIBE without a proper url empties the set. `refSubs` is that set, read off the log of a
server. The lists the server keeps are this set without duplicates, whatever is interleaved
(`subsInv_run`).

**Theorem (`publish_exact`).** After any run a publication is sent once to every active client
whose set matches the url, and to nobody else, and `isSubscribed` tells whether there is one.
-/

namespace Ssn

open ByteMem

variable {β : Type*} {net : Nat → Nat → SendStep} {w : World β} {id : UInt32}

/-! ## The reference -/

/-- What a frame does to the set of subscriptions of its client. -/
def refFrame (f : Frame) (subs : Set Bytes) : Set Bytes :=
  if getMsgType f = MsgType.subscribe then
    if urlOk f.url then insert f.url subs else subs
  else if getMsgType f = MsgType.unsubscribe then
    if urlOk f.url then subs \ {f.url} else ∅
  else subs

/-- What an entry of the log does to the set of the client `id`. -/
def refEvent (id : UInt32) (subs : Set Bytes) : ServerEvent β → Set Bytes
  | .accepted id' => if id' = id then ∅ else subs
  | .input id' f => if id' = id then refFrame f subs else subs
  | _ => subs

/-- The set of subscriptions of the client `id`. -/
def refSubs (log : List (ServerEvent β)) (id : UInt32) : Set Bytes :=
  log.foldl (refEvent id) ∅

/-- A set of subscriptions covers a url: through the root, the url itself or a subtree. -/
def Covers (subs : Set Bytes) (url : Bytes) : Prop :=
  ∃ s ∈ subs, s = [slash] ∨ s = url ∨
    s.getLast? = some slash ∧ (url = s.dropLast ∨ s <+: url)

theorem refSubs_append (log log' : List (ServerEvent β)) (id : UInt32) :
    refSubs (log ++ log') id = log'.foldl (refEvent id) (refSubs log id) :=
  List.foldl_append

theorem foldl_refEvent_minor {es : List (ServerEvent β)} (h : ∀ e ∈ es, World.Minor e)
    (subs : Set Bytes) : es.foldl (refEvent id) subs = subs := by
  refine Runs.run_fixed fun e he => ?_
  have hm := h e he
  cases e <;> first | exact hm.elim | rfl

/-! ## Matching -/

/-- The subtree rule of `cliSubMatch`, in terms of paths. -/
theorem subtree_iff {sub url : Bytes} (h : sub.getLast? = some slash) :
    (sub.length - 1 ≤ url.length ∧ url.take (sub.length - 1) = sub.take (sub.length - 1) ∧
      (url.length = sub.length - 1 ∨ url[sub.length - 1]? = some slash)) ↔
    url = sub.dropLast ∨ sub <+: url := by
  obtain ⟨path, rfl⟩ := List.getLast?_eq_some_iff.1 h
  simp only [List.length_append, List.length_singleton, Nat.add_sub_cancel, List.take_left,
    List.dropLast_concat]
  constructor
  · rintro ⟨hle, hpath, hend⟩
    obtain ⟨rest, rfl⟩ : path <+: url := by
      rw [← hpath]
      exact List.take_prefix _ _
    rcases hend with hlen | hget
    · left
      have : rest.length = 0 := by rw [List.length_append] at hlen; omega
      rw [List.length_eq_zero_iff.1 this, List.append_nil]
    · right
      rw [List.getElem?_append_right (Nat.le_refl _), Nat.sub_self] at hget
      cases rest with
      | nil => cases hget
      | cons c rest =>
        obtain rfl : c = slash := by simpa using hget
        exact (List.prefix_append_right_inj path).2 (by simp)
  · rintro (rfl | ⟨rest, rfl⟩)
    · simp
    · simp

/-- `cliSubMatch` on subscriptions that start with a slash. -/
theorem cliSubMatch_iff {subscribed : List Bytes} (h : ∀ s ∈ subscribed, urlOk s) (url : Bytes) :
    Server.cliSubMatch subscribed url = true ↔ Covers {s | s ∈ subscribed} url := by
  unfold Server.cliSubMatch Covers
  rw [List.any_eq_true]
  refine exists_congr fun s => and_congr_right fun hs => ?_
  have hroot : s.length = 1 ↔ s = [slash] := by
    constructor
    · intro hlen
      obtain ⟨c, rfl⟩ := List.length_eq_one_iff.1 hlen
      have := h _ hs
      simpa [urlOk] using this
    · rintro rfl
      rfl
  rw [decide_eq_true_iff, hroot]
  refine or_congr_right (or_congr ?_ (and_congr_right subtree_iff))
  exact ⟨And.right, fun e => ⟨by rw [e], e⟩⟩

/-! ## The lists are the sets -/

namespace World

/-- The list of a client is its set, without duplicates. -/
structure IsSubs (subscribed : List Bytes) (subs : Set Bytes) : Prop where
  nodup : subscribed.Nodup
  mem_iff : ∀ u, u ∈ subscribed ↔ u ∈ subs
  urlOk : ∀ u ∈ subscribed, urlOk u

theorem IsSubs.nil : IsSubs [] ∅ := ⟨List.nodup_nil, by simp, by simp⟩

theorem IsSubs.after {c : Core} {subs : Set Bytes} (h : IsSubs c.subscribed subs) (f : Frame) :
    IsSubs (c.after f).subscribed (refFrame f subs) := by
  unfold Core.after refFrame
  by_cases hinfo : getMsgType f = MsgType.serviceInfo
  · have h1 : getMsgType f ≠ MsgType.subscribe := by rw [hinfo]; decide
    have h2 : getMsgType f ≠ MsgType.unsubscribe := by rw [hinfo]; decide
    rw [if_pos hinfo, if_neg h1, if_neg h2]
    exact h
  rw [if_neg hinfo]
  by_cases hsub : getMsgType f = MsgType.subscribe
  · rw [if_pos hsub, if_pos hsub]
    simp only
    split_ifs with hu
    · refine ⟨h.nodup.insert, fun u => ?_, fun u hmem => ?_⟩
      · rw [List.mem_insert_iff, h.mem_iff, Set.mem_insert_iff]
      · rcases List.mem_insert_iff.1 hmem with rfl | hmem
        · exact hu
        · exact h.urlOk u hmem
    · exact h
  rw [if_neg hsub, if_neg hsub]
  by_cases hunsub : getMsgType f = MsgType.unsubscribe
  · rw [if_pos hunsub, if_pos hunsub]
    simp only
    split_ifs with hu
    · refine ⟨h.nodup.erase _, fun u => ?_, fun u hmem => h.urlOk u (List.mem_of_mem_erase hmem)⟩
      rw [h.nodup.mem_erase_iff, h.mem_iff, Set.mem_sdiff, Set.mem_singleton_iff, and_comm]
    · exact .nil
  · rw [if_neg hunsub, if_neg hunsub]
    exact h

/-- The list of every client is its set. -/
def SubsOk (w : World β) : Prop :=
  ∀ id, ∀ subscribed ∈ w.view Client.subscribed id, IsSubs subscribed (refSubs w.log id)

theorem SubsOk.of_minor {w' : World β} (h : w.SubsOk)
    (hc : ∀ id, ∀ c ∈ w'.view Client.subscribed id, c ∈ w.view Client.subscribed id)
    (hlog : Grows Minor w w') : w'.SubsOk := by
  obtain ⟨es, he, hm⟩ := hlog
  intro id subscribed hmem
  rw [he, refSubs_append, foldl_refEvent_minor hm]
  exact h id subscribed (hc id subscribed hmem)

theorem view_subscribed :
    w.view Client.subscribed id = (w.view Client.core id).map Core.subscribed := by
  rw [view, view, Option.map_map]
  rfl

theorem SubsOk.cliDestroy (h : w.SubsOk) : (w.cliDestroy id).SubsOk := by
  refine h.of_minor (fun id' c hc => ?_) ((Grows.of_eq rfl).emit trivial)
  rw [view_cliDestroy] at hc
  exact mem_update_none hc

theorem SubsOk.addClient (h : w.SubsOk) (ncid : UInt32) (fd : Int) :
    (w.addClient id ncid fd).SubsOk := by
  intro id' subscribed hmem
  rw [view_addClient] at hmem
  rw [show (w.addClient id ncid fd).log = w.log ++ [.accepted id] from rfl, refSubs_append]
  by_cases e : id' = id
  · subst e
    rw [Function.update_self] at hmem
    obtain rfl := Option.some.inj hmem
    simp only [List.foldl_cons, List.foldl_nil, refEvent, if_pos]
    exact .nil
  · rw [Function.update_of_ne e] at hmem
    simp only [List.foldl_cons, List.foldl_nil, refEvent, if_neg (Ne.symm e)]
    exact h id' subscribed hmem

theorem SubsOk.received {buf : Bytes} (h : w.SubsOk) : (w.emit (.received id buf)).SubsOk := by
  intro id' subscribed hmem
  rw [log_emit, refSubs_append]
  exact h id' subscribed hmem

theorem SubsOk.input (h : w.SubsOk) (f : Frame) : (w.input net id f).SubsOk := by
  obtain ⟨es, he, hm⟩ := log_input net w id f
  intro id' subscribed hmem
  rw [he, refSubs_append, List.foldl_cons, foldl_refEvent_minor fun e h => (hm e h).minor]
  rw [view_subscribed, core_input] at hmem
  obtain ⟨c, hc, rfl⟩ := Option.map_eq_some_iff.1 hmem
  by_cases e : id' = id
  · subst e
    rw [Function.update_self] at hc
    obtain ⟨c', hc', rfl⟩ := Option.map_eq_some_iff.1 hc
    rw [refEvent, if_pos rfl]
    refine (h id' c'.subscribed ?_).after f
    rw [view_subscribed, hc']
    rfl
  · rw [Function.update_of_ne e] at hc
    rw [refEvent, if_neg (Ne.symm e)]
    refine h id' c.subscribed ?_
    rw [view_subscribed, hc]
    rfl

/-- **The lists stay the sets.** -/
theorem subsOk_step (h : w.TableOk) (hs : w.SubsOk) (op : ServerOp) :
    (w.step net op).SubsOk := by
  refine step_invariant h hs (fun w' hq => ?_) (fun id ncid fd _ => hs.addClient ncid fd)
    (fun id buf => hs.received) (fun w id f hw => hw.input f) (fun w id recv _ hw => ?_)
    (fun cli _ => ?_) fun _ => ?_
  · refine hs.of_minor (fun id c hc => ?_) (hq.log.mono fun _ h => h.plain.minor)
    rwa [view_subscribed, hq.core, ← view_subscribed] at hc
  · refine hw.of_minor (fun id' c hc => ?_) (.of_eq rfl)
    have e : (w.modifyCli id fun c => { c with recv }).view Client.subscribed =
        w.view Client.subscribed := view_modifyCli_same _ (fun _ => rfl) fun _ => rfl
    rwa [e] at hc
  · refine hs.of_minor (fun id' c hc => ?_) (grows_closeClient cli)
    rw [view_closeClient] at hc
    exact mem_update_none hc
  · exact event_invariant (fun hw => hw) (fun w id hw => hw.cliDestroy) hs

end World

/-- The table and the subscriptions are as they should be. -/
structure World.SubsInv (w : World β) : Prop where
  table : w.TableOk
  subs : w.SubsOk

theorem subsInv_run (net : Nat → Nat → SendStep) (s : Server β) (ops : List ServerOp) :
    (Runs.run (World.step net) (World.init s) ops).SubsInv := by
  refine Runs.run_invariant (fun w op hw _ => ?_) ⟨World.tableOk_init s, ?_⟩ Runs.eachStep_true
  · exact ⟨World.tableOk_step net hw.table op, World.subsOk_step hw.table hw.subs op⟩
  · intro id subscribed h
    cases h

/-! ## Publishing -/

section Publish

variable {url : Bytes} {data : Option Ref}

/-- One send of a publication to a client: it hands bytes to the transport if the packet fits,
and if it succeeds, the wire has got exactly the PUBLISH packet. -/
def Published (url : Bytes) (data : Option Ref) (c : Client) (e : ServerEvent β) : Prop :=
  ∃ out : SendOut, e = .sent c.id (World.publishMsg url data) out ∧
    (out.offers ≠ [] ↔ Sendable (some (Ref.ofBytes url)) data) ∧
    (out.ret = true → out.accepted = packet MsgType.publish 0 0 (some (Ref.ofBytes url)) data)

/-- The send buffer holds the header of the publication. -/
def BufferReady (w : World β) (url : Bytes) (data : Option Ref) : Prop :=
  Sendable (some (Ref.ofBytes url)) data →
    ∃ h, HeaderReady w.server.sendbuf h (some (Ref.ofBytes url)) data ∧
      packetOf h (some (Ref.ofBytes url)) data =
        packet MsgType.publish 0 0 (some (Ref.ofBytes url)) data

theorem bufferReady_createHeader (w : World β) (url : Bytes) (data : Option Ref) :
    BufferReady (w.createHeader (World.publishMsg url data)) url data :=
  fun _ => ⟨_, headerReady_createHeader _ MsgType.publish 0 0 _ _, rfl⟩

theorem published_cliSendmsg (net : Nat → Nat → SendStep) {c c' : Client}
    (hc : w.server.cliFind c.id = some c') (hb : BufferReady w url data) :
    (∃ e, (w.cliSendmsg net c.id (World.publishMsg url data)).log = w.log ++ [e] ∧
      Published url data c e) ∧
    BufferReady (w.cliSendmsg net c.id (World.publishMsg url data)) url data := by
  obtain ⟨hlog, hbuf, -⟩ := World.cliSendmsg_spec net w c.id (World.publishMsg url data) hc
  refine ⟨⟨_, hlog, _, rfl, ?_⟩, fun hs => ?_⟩
  · by_cases hs : Sendable (some (Ref.ofBytes url)) data
    · obtain ⟨h, hh, hp⟩ := hb hs
      exact ⟨sendMessage_offers _ _ hh, fun hret => (sendMessage_true hh hret).2.trans hp⟩
    · have hno := sendMessage_of_not c'.transport w.server.sendbuf (net w.log.length) hs
      exact ⟨by simp [World.publishMsg, hno, SendOut.refused, hs], fun hret => by
        simp [World.publishMsg, hno, SendOut.refused] at hret⟩
  · obtain ⟨h, hh, hp⟩ := hb hs
    rw [hbuf]
    exact ⟨_, hh.sendMessage hs _ _, (packetOf_withLengths ..).trans hp⟩

/-- The clients a publication goes to. -/
def receives (url : Bytes) (c : Client) : Bool := c.active ∧ Server.cliSubMatch c.subscribed url

/-- The loop sends once to each of them. -/
theorem published_loop (net : Nat → Nat → SendStep) {cs : List Client}
    (hcs : ∀ c ∈ cs, (w.view Client.id c.id).isSome) (hb : BufferReady w url data) :
    ∃ sends, (cs.foldl (World.publishTo net url (World.publishMsg url data)) w).log =
        w.log ++ sends ∧
      List.Forall₂ (Published url data) (cs.filter (receives url)) sends := by
  induction cs generalizing w with
  | nil => exact ⟨[], by simp, .nil⟩
  | cons c cs ih =>
    rw [List.forall_mem_cons] at hcs
    rw [List.foldl_cons, World.publishTo]
    by_cases hr : receives url c = true
    · obtain ⟨c', hc'⟩ : ∃ c', w.server.cliFind c.id = some c' := by
        simpa [World.view, Option.isSome_iff_exists] using hcs.1
      obtain ⟨⟨e, he, hpub⟩, hb'⟩ := published_cliSendmsg net hc' hb
      rw [if_pos (by simpa [receives] using hr)]
      obtain ⟨sends, hs, hall⟩ :=
        ih (by rw [World.view_cliSendmsg _ fun _ _ => rfl]; exact hcs.2) hb'
      refine ⟨e :: sends, by rw [hs, he, List.append_assoc]; rfl, ?_⟩
      rw [List.filter_cons_of_pos hr]
      exact .cons hpub hall
    · rw [if_neg (by simpa [receives] using hr), List.filter_cons_of_neg hr]
      exact ih hcs.2 hb

theorem receives_iff (hs : w.SubsOk) {c : Client} (hc : w.server.cliFind c.id = some c) :
    receives url c = true ↔ c.active = true ∧ Covers (refSubs w.log c.id) url := by
  have h : World.IsSubs c.subscribed (refSubs w.log c.id) := hs c.id _ (by rw [World.view, hc]; rfl)
  have hset : {s | s ∈ c.subscribed} = refSubs w.log c.id := Set.ext h.mem_iff
  rw [receives, decide_eq_true_iff, cliSubMatch_iff h.urlOk, hset]

end Publish

/-- **Subscriptions are sets, and publications reach exactly their subscribers.** After any run
of a server every client's list is duplicate-free and is the set its frames describe. A
publication is then sent once to each active client whose set covers the url and to no other, and
`isSubscribed` is true exactly when it is sent to someone. -/
theorem publish_exact (net : Nat → Nat → SendStep) (s : Server β) (ops : List ServerOp) :
    let w := Runs.run (World.step net) (World.init s) ops
    (∀ id c, w.server.cliFind id = some c →
      c.subscribed.Nodup ∧ ∀ u, u ∈ c.subscribed ↔ u ∈ refSubs w.log id) ∧
    ∀ (url : Bytes) (data : Option Ref), url.head? = some slash →
      ∃ (cs : List Client) (sends : List (ServerEvent β)),
        (w.publish net url data).log = w.log ++ sends ∧
        List.Forall₂ (Published url data) cs sends ∧
        (cs.map Client.id).Nodup ∧
        (∀ c, c ∈ cs ↔ w.server.cliFind c.id = some c ∧ c.active = true ∧
          Covers (refSubs w.log c.id) url) ∧
        (w.server.isSubscribed url = true ↔ sends ≠ []) := by
  intro w
  obtain ⟨ht, hs⟩ := subsInv_run net s ops
  refine ⟨fun id c hc => ?_, fun url data hu => ?_⟩
  · have h := hs id c.subscribed (by rw [World.view, hc]; rfl)
    exact ⟨h.nodup, h.mem_iff⟩
  -- Every client that the loop meets is found under its id, so that the sends are logged.
  have hfound : ∀ c ∈ w.server.clients, (w.view Client.id c.id).isSome := fun c hc => by
    rw [World.view, ht.wf.mem_clients.1 hc]
    rfl
  obtain ⟨sends, hlog, hall⟩ := published_loop (w := w.createHeader (World.publishMsg url data))
    net hfound (bufferReady_createHeader w url data)
  refine ⟨w.server.clients.filter (receives url), sends, ?_, hall, ?_, fun c => ?_, ?_⟩
  · rw [World.publish, if_pos (by simpa [urlOk] using hu)]
    exact hlog
  · exact ht.wf.nodup_clients.sublist (List.filter_sublist.map _)
  · rw [List.mem_filter, ht.wf.mem_clients]
    exact and_congr_right (receives_iff hs)
  · have hne : url ≠ [] := by
      rintro rfl
      cases hu
    have hlen := hall.length_eq
    rw [Server.isSubscribed, decide_eq_true_iff, List.any_eq_true, ← List.length_pos_iff, ← hlen,
      List.length_pos_iff, Ne, List.filter_eq_nil_iff]
    simp [receives, hne]

end Ssn
