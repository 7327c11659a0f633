import SsnIpc.Client.Connections
import SsnIpc.Client.PoolSteps
import SsnIpc.Frame.RoundTrip
import SsnIpc.Lib.Ledger
import SsnIpc.Lib.Runs

/-!
# Requests and their replies

A client's requests take sequence numbers from two counters, `seqno` for those with a callback and
`next_non_pending_seqno` for the others, and a reply names its request only by that number. The
server answers both kinds, so the reply to a request without a callback may find the slot of
another request.

An exchange is a run of a client on one connection in which the server answers requests. Requests
are numbered in the order they are made, and the number serves as the callback's identity. A ping
is its request, the polls while it waits, and its end; a poll is the replies it receives and the
timer's event.

**Theorem (`sound_iff_noClash`).** In an exchange of fewer than 65536 requests every callback is
called at most once, with no reply but its own, and no pending request is lost, exactly when no
reply to a request without a callback arrives while its sequence number is pending.

The pool is shown to be a valid `Ledger` of requests (`Book`), which each step changes by the
ledger's own operations.
-/

namespace Ssn

open ByteMem

/-! ## Exchanges -/

/-- A request that was sent: its frame, and whether it came with a callback. -/
structure Request where
  msgType : UInt8
  seqno : UInt16
  callback : Bool
  deriving DecidableEq

/-- A client, the requests made so far (`none` for one that failed), the calls of their callbacks,
and the pings that came to their end. A call is made with a reply or without, and then with the
number of the request that the reply answers. -/
structure Exchange where
  world : ClientWorld Nat
  requests : List (Option Request)
  calls : List (Nat × Option (Option Nat))
  ended : List Nat

inductive ExchangeStep
  | call (url : Bytes) (data : Option Ref) (callback : Bool) (timeoutMs : Nat)
  | subscribe (url : Bytes) (handler : Option Nat) (timeoutMs : Nat)
  | unsubscribe (url : Bytes) (timeoutMs : Nat)
  | ping (timeoutMs : Nat)
  | pingEnd (r : Nat)
  /-- The frame `f` arrives, with which the server answers the request `r`. -/
  | reply (r : Nat) (f : Frame)
  | timerSweep
  /-- A poll handles the timer's event. -/
  | timerEvent

namespace Exchange

/-- The client goes on to `w`; `answers` is the request that a frame received answers. -/
def advance (s : Exchange) (answers : Option Nat) (w : ClientWorld Nat) : Exchange :=
  { s with
    world := w
    calls := s.calls ++
      (s.world.callsSince w).map fun (k, reply) => (k, reply.map fun _ => answers) }

def requested (s : Exchange) (msgType : UInt8) (callback : Bool)
    (out : ClientWorld Nat × Option UInt16) : Exchange :=
  { s.advance none out.1 with
    requests := s.requests ++ [out.2.map fun seqno => ⟨msgType, seqno, callback⟩] }

/-- Request `r`, if it was sent. -/
def sent (requests : List (Option Request)) (r : Nat) : Option Request := requests[r]?.join

def step (net : Nat → Nat → SendStep) (s : Exchange) : ExchangeStep → Exchange
  | .call url data callback timeoutMs =>
    s.requested MsgType.rpcRequest callback
      (s.world.callEx net url data (if callback then some s.requests.length else none) timeoutMs)
  | .subscribe url handler timeoutMs =>
    s.requested MsgType.subscribe false (s.world.subscribe net url handler timeoutMs)
  | .unsubscribe url timeoutMs =>
    s.requested MsgType.unsubscribe false (s.world.unsubscribe net url timeoutMs)
  | .ping timeoutMs =>
    s.requested MsgType.pingEcho true
      (s.world.requestEx net MsgType.pingEcho none none (some s.requests.length) timeoutMs)
  | .pingEnd r =>
    match sent s.requests r with
    | some req => { s.advance none (s.world.pingCancel req.seqno) with ended := s.ended ++ [r] }
    | none => s
  | .reply r f => s.advance (some r) (s.world.input f)
  | .timerSweep => s.advance none (s.world.setClient s.world.client.timerSweep)
  | .timerEvent => s.advance none s.world.handleEvent

/-- An exchange that begins with the client `w`. -/
def start (w : ClientWorld Nat) : Exchange := ⟨w, [], [], []⟩

/-- What is assumed of a step: a reply has the type and sequence number of the request it answers,
only pings end, and there are fewer than 65536 requests. -/
def Honest (s : Exchange) : ExchangeStep → Prop
  | .reply r f => ∃ req ∈ sent s.requests r, getMsgType f = req.msgType ∧ getSeqno f = req.seqno
  | .pingEnd r => ∃ req ∈ sent s.requests r, req.msgType = MsgType.pingEcho
  | .timerSweep => True
  | .timerEvent => True
  | _ => s.requests.length + 1 < 65536

/-- The callback of request `k` is in a slot that is in use. -/
def InFlight (s : Exchange) (k : Nat) : Prop :=
  ∃ i < maxPending, s.world.client.inUse i = true ∧
    (s.world.client.pendingPool i).callback = some k

/-- No callback is called twice or with a reply to another request, and a request with a callback
stays in flight until it is called, or until its own ping ends. -/
structure Sound (s : Exchange) : Prop where
  once : (s.calls.map Prod.fst).Nodup
  own : ∀ k answers, (k, some answers) ∈ s.calls → answers = some k
  kept : ∀ k req, sent s.requests k = some req → req.callback = true →
    s.InFlight k ∨ k ∈ s.calls.map Prod.fst ∨ k ∈ s.ended

/-- A reply to a request without a callback does not find its sequence number in use. -/
def NoClash (s : Exchange) : ExchangeStep → Prop
  | .reply r _ => ∀ req ∈ sent s.requests r, req.callback = false →
      ∀ i < maxPending, s.world.client.inUse i = true →
        (s.world.client.pendingPool i).seqno ≠ req.seqno
  | _ => True

instance (s : Exchange) : ∀ e, Decidable (s.Honest e)
  | .reply r f => inferInstanceAs (Decidable (∃ req ∈ sent s.requests r,
      getMsgType f = req.msgType ∧ getSeqno f = req.seqno))
  | .pingEnd r => inferInstanceAs (Decidable (∃ req ∈ sent s.requests r,
      req.msgType = MsgType.pingEcho))
  | .timerSweep | .timerEvent => inferInstanceAs (Decidable True)
  | .call .. | .subscribe .. | .unsubscribe .. | .ping _ =>
    inferInstanceAs (Decidable (s.requests.length + 1 < 65536))

instance (s : Exchange) : ∀ e, Decidable (s.NoClash e)
  | .reply r _ => inferInstanceAs (Decidable (∀ req ∈ sent s.requests r, req.callback = false →
      ∀ i < maxPending, s.world.client.inUse i = true →
        (s.world.client.pendingPool i).seqno ≠ req.seqno))
  | .pingEnd _ | .timerSweep | .timerEvent | .call .. | .subscribe .. | .unsubscribe .. | .ping _ =>
    inferInstanceAs (Decidable True)

/-! ## The pool as a ledger -/

/-- The ledger that the pool keeps. -/
def ledger (c : SsnClient Nat) (requests : List (Option Request)) (called ended : List Nat) :
    Ledger UInt16 Nat where
  flight s := (c.pending s).bind Pending.callback
  issued := {k | ∃ req, sent requests k = some req ∧ req.callback = true}
  called := called
  dropped := {k | k ∈ ended}

/-- The books are in order: the pool is a valid ledger, every entry is that of a request, and
requests with a callback have sequence numbers of their own. -/
structure Book (c : SsnClient Nat) (requests : List (Option Request)) (called ended : List Nat) :
    Prop where
  wf : c.Wf
  valid : (ledger c requests called ended).Valid
  entry : ∀ {s p}, c.pending s = some p → ∃ k req, p.callback = some k ∧
    sent requests k = some req ∧ req.callback = true ∧ req.seqno = s ∧
    ClientWorld.replyFType req.msgType = some p.ftype
  seqno_lt : ∀ {k req}, sent requests k = some req → req.callback = true →
    req.seqno.toNat < c.seqno.toNat
  seqno_inj : ∀ {k k' req req'}, sent requests k = some req → sent requests k' = some req' →
    req.callback = true → req'.callback = true → req.seqno = req'.seqno → k = k'
  count : c.seqno.toNat ≤ requests.length
  kind : ∀ {k req}, sent requests k = some req →
    (ClientWorld.replyFType req.msgType).isSome = true ∧
    (req.msgType = MsgType.pingEcho → req.callback = true)

variable {c c' : SsnClient Nat} {requests : List (Option Request)} {called ended : List Nat}

theorem sent_concat {req : Option Request} {k : Nat} {req' : Request} :
    sent (requests ++ [req]) k = some req' ↔
      sent requests k = some req' ∨ (k = requests.length ∧ req = some req') := by
  simp only [sent, Option.join_eq_some_iff]
  rcases Nat.lt_trichotomy k requests.length with hlt | rfl | hgt
  · rw [List.getElem?_append_left hlt]
    simp [Nat.ne_of_lt hlt]
  · simp
  · have hnone : requests[k]? = none := List.getElem?_eq_none (by omega)
    have hnone' : (requests ++ [req])[k]? = none := List.getElem?_eq_none (by simp; omega)
    simp [hnone, hnone', Nat.ne_of_gt hgt]

theorem bind_update (m : UInt16 → Option (Pending Nat)) (s : UInt16) (p : Option (Pending Nat)) :
    (fun s' => (Function.update m s p s').bind Pending.callback) =
      Function.update (fun s' => (m s').bind Pending.callback) s (p.bind Pending.callback) := by
  funext s'
  by_cases hs : s' = s
  · subst hs
    simp
  · simp [hs]

theorem lt_of_sent {k : Nat} {req : Request} (h : sent requests k = some req) :
    k < requests.length :=
  (List.getElem?_eq_some_iff.1 (Option.join_eq_some_iff.1 h)).1

theorem replyFType_isSome {t : UInt8} (h : (ClientWorld.replyFType t).isSome = true) :
    t ≠ MsgType.publish ∧ t ≠ MsgType.message := by
  constructor <;> rintro rfl <;> exact absurd h (by decide)

namespace Book

/-- The books do not depend on more of the client than the pool and the counter. -/
theorem of_pending (h : Book c requests called ended) (hwf : c'.Wf)
    (hp : c'.pending = c.pending) (hs : c'.seqno = c.seqno) :
    Book c' requests called ended := by
  refine ⟨hwf, ?_, fun he => h.entry (hp ▸ he), fun hk hc => hs ▸ h.seqno_lt hk hc, h.seqno_inj,
    hs ▸ h.count, h.kind⟩
  have hl : ledger c' requests called ended = ledger c requests called ended := by
    rw [ledger, hp]
    rfl
  exact hl ▸ h.valid

theorem fresh (h : Book c requests called ended) : c.pending c.seqno = none := by
  cases hp : c.pending c.seqno with
  | none => rfl
  | some p =>
    obtain ⟨k, req, -, hk, hc, hs, -⟩ := h.entry hp
    have := h.seqno_lt hk hc
    rw [hs] at this
    omega

theorem seqnoFree (h : Book c requests called ended) : c.SeqnoFree :=
  SsnClient.seqnoFree_of_pending h.wf h.fresh

/-- What is pending under the number of a request with a callback is that request. -/
theorem entry_own (h : Book c requests called ended) {k : Nat} {req : Request} {p : Pending Nat}
    (hk : sent requests k = some req) (hc : req.callback = true)
    (hp : c.pending req.seqno = some p) :
    p.callback = some k ∧ ClientWorld.replyFType req.msgType = some p.ftype := by
  obtain ⟨k', req', hcb, hk', hc', hs, hft⟩ := h.entry hp
  obtain rfl := h.seqno_inj hk' hk hc' hc hs
  obtain rfl : req' = req := Option.some.inj (hk'.symm.trans hk)
  exact ⟨hcb, hft⟩

theorem entry_of_update (h : Book c requests called ended) {s s' : UInt16} {p : Pending Nat}
    (hp : c'.pending = Function.update c.pending s none) (hp' : c'.pending s' = some p) :
    ∃ k req, p.callback = some k ∧ sent requests k = some req ∧ req.callback = true ∧
      req.seqno = s' ∧ ClientWorld.replyFType req.msgType = some p.ftype := by
  rw [hp] at hp'
  exact h.entry (Ledger.update_none_eq_some hp').2

theorem call (h : Book c requests called ended) {s : UInt16} {p : Pending Nat} {k : Nat}
    (hp : c.pending s = some p) (hk : p.callback = some k) (hwf : c'.Wf)
    (hp' : c'.pending = Function.update c.pending s none) (hs : c'.seqno = c.seqno) :
    Book c' requests (called ++ [k]) ended := by
  have hflight : (ledger c requests called ended).flight s = some k := by
    simp [ledger, hp, hk]
  have hl : ledger c' requests (called ++ [k]) ended =
      (ledger c requests called ended).call s k := by
    rw [ledger, hp', bind_update]
    rfl
  exact ⟨hwf, hl ▸ h.valid.call hflight, h.entry_of_update hp',
    fun hk hc => hs ▸ h.seqno_lt hk hc, h.seqno_inj, hs ▸ h.count, h.kind⟩

theorem drop (h : Book c requests called ended) {k : Nat} {req : Request}
    (hk : sent requests k = some req) (hc : req.callback = true) (hwf : c'.Wf)
    (hp' : c'.pending = Function.update c.pending req.seqno none) (hs : c'.seqno = c.seqno) :
    Book c' requests called (ended ++ [k]) := by
  have hl : ledger c' requests called (ended ++ [k]) =
      (ledger c requests called ended).drop req.seqno k := by
    have hset : {k' | k' ∈ ended ++ [k]} = insert k {k' | k' ∈ ended} := by
      ext k'
      simp [or_comm]
    rw [ledger, hp', bind_update, hset]
    rfl
  refine ⟨hwf, hl ▸ h.valid.drop ⟨req, hk, hc⟩ (fun k' hk' => ?_) (fun s hs' => ?_),
    h.entry_of_update hp', fun hk hc => hs ▸ h.seqno_lt hk hc, h.seqno_inj, hs ▸ h.count, h.kind⟩
  · obtain ⟨p, hp, hcb⟩ := Option.bind_eq_some_iff.1 hk'
    exact Option.some.inj (hcb.symm.trans (h.entry_own hk hc hp).1)
  · obtain ⟨p, hp, hcb⟩ := Option.bind_eq_some_iff.1 hs'
    obtain ⟨k', req', hcb', hk', -, hseq, -⟩ := h.entry hp
    obtain rfl := Option.some.inj (hcb'.symm.trans hcb)
    obtain rfl : req' = req := Option.some.inj (hk'.symm.trans hk)
    exact hseq.symm

theorem timerSweep (h : Book c requests called ended) :
    Book c.timerSweep requests called ended := by
  have hl : ledger c.timerSweep requests called ended = ledger c requests called ended := by
    have hflight : (fun s => (c.timerSweep.pending s).bind Pending.callback) =
        fun s => (c.pending s).bind Pending.callback := by
      funext s
      rw [SsnClient.pending_timerSweep h.wf]
      cases c.pending s <;> rfl
    rw [ledger, hflight]
    rfl
  refine ⟨h.wf.timerSweep, hl ▸ h.valid, fun {s p} hp => ?_, h.seqno_lt, h.seqno_inj, h.count,
    h.kind⟩
  rw [SsnClient.pending_timerSweep h.wf] at hp
  obtain ⟨p', hp', rfl⟩ := Option.map_eq_some_iff.1 hp
  obtain ⟨k, req, hentry⟩ := h.entry hp'
  exact ⟨k, req, hentry⟩

theorem seqno_succ (h : Book c requests called ended) (hlen : requests.length + 1 < 65536) :
    (c.seqno + 1).toNat = c.seqno.toNat + 1 := by
  have hcount := h.count
  rw [UInt16.toNat_add, UInt16.toNat_one]
  omega

theorem append (h : Book c requests called ended) {req : Option Request} (hwf : c'.Wf)
    (hp : c'.pending = c.pending) (hs : c'.seqno = c.seqno ∨ c'.seqno = c.seqno + 1)
    (hlen : requests.length + 1 < 65536)
    (hreq : ∀ r, req = some r → r.callback = false ∧
      (ClientWorld.replyFType r.msgType).isSome = true ∧ r.msgType ≠ MsgType.pingEcho) :
    Book c' (requests ++ [req]) called ended := by
  have hsucc := h.seqno_succ hlen
  -- The requests with a callback are the same as before.
  have hold {k : Nat} {r : Request} (hk : sent (requests ++ [req]) k = some r)
      (hc : r.callback = true) : sent requests k = some r := by
    rcases sent_concat.1 hk with hk | ⟨-, hr⟩
    · exact hk
    · rw [(hreq r hr).1] at hc
      cases hc
  have hl : ledger c' (requests ++ [req]) called ended = ledger c requests called ended := by
    have hset : {k | ∃ r, sent (requests ++ [req]) k = some r ∧ r.callback = true} =
        {k | ∃ r, sent requests k = some r ∧ r.callback = true} := by
      ext k
      exact exists_congr fun r =>
        ⟨fun ⟨hk, hc⟩ => ⟨hold hk hc, hc⟩, fun ⟨hk, hc⟩ => ⟨sent_concat.2 (.inl hk), hc⟩⟩
    rw [ledger, hset, hp]
    rfl
  refine ⟨hwf, hl ▸ h.valid, fun he => ?_, fun hk hc => ?_,
    fun hk hk' hc hc' => h.seqno_inj (hold hk hc) (hold hk' hc') hc hc', ?_, fun hk => ?_⟩
  · obtain ⟨k, r, hcb, hk, hrest⟩ := h.entry (hp ▸ he)
    exact ⟨k, r, hcb, sent_concat.2 (.inl hk), hrest⟩
  · have hlt := h.seqno_lt (hold hk hc) hc
    rcases hs with hs | hs <;> rw [hs] <;> omega
  · have hcount := h.count
    rw [List.length_append, List.length_singleton]
    rcases hs with hs | hs <;> rw [hs] <;> omega
  · rcases sent_concat.1 hk with hk | ⟨-, hr⟩
    · exact h.kind hk
    · exact ⟨(hreq _ hr).2.1, fun hping => absurd hping (hreq _ hr).2.2⟩

theorem issue (h : Book c requests called ended) {msgType : UInt8} {p : Pending Nat} (hwf : c'.Wf)
    (hp : c'.pending = Function.update c.pending c.seqno (some p))
    (hs : c'.seqno = c.seqno + 1) (hlen : requests.length + 1 < 65536)
    (hcb : p.callback = some requests.length)
    (hft : ClientWorld.replyFType msgType = some p.ftype) :
    Book c' (requests ++ [some ⟨msgType, c.seqno, true⟩]) called ended := by
  have hsucc := h.seqno_succ hlen
  have hlast : sent (requests ++ [some ⟨msgType, c.seqno, true⟩]) requests.length =
      some ⟨msgType, c.seqno, true⟩ := sent_concat.2 (.inr ⟨rfl, rfl⟩)
  -- In the ledger the new request is issued under the counter's value, which was free.
  have hl : ledger c' (requests ++ [some ⟨msgType, c.seqno, true⟩]) called ended =
      (ledger c requests called ended).issue c.seqno requests.length := by
    have hset : {k | ∃ r, sent (requests ++ [some ⟨msgType, c.seqno, true⟩]) k = some r ∧
        r.callback = true} =
          insert requests.length {k | ∃ r, sent requests k = some r ∧ r.callback = true} := by
      ext k
      constructor
      · rintro ⟨r, hk, hc⟩
        rcases sent_concat.1 hk with hk | ⟨rfl, -⟩
        · exact .inr ⟨r, hk, hc⟩
        · exact .inl rfl
      · rintro (rfl | ⟨r, hk, hc⟩)
        · exact ⟨_, hlast, rfl⟩
        · exact ⟨r, sent_concat.2 (.inl hk), hc⟩
    rw [ledger, hset, hp, bind_update]
    simp only [Option.bind_some, hcb]
    rfl
  have hnew : requests.length ∉ (ledger c requests called ended).issued := by
    rintro ⟨r, hk, -⟩
    exact absurd (lt_of_sent hk) (Nat.lt_irrefl _)
  refine ⟨hwf, hl ▸ h.valid.issue (by simp [ledger, h.fresh]) hnew, fun {s p'} he => ?_,
    fun hk hc => ?_, fun {k k' r r'} hk hk' hc hc' heq => ?_, ?_, fun hk => ?_⟩
  · by_cases hseq : s = c.seqno
    · subst hseq
      rw [hp, Function.update_self] at he
      obtain rfl := Option.some.inj he
      exact ⟨_, _, hcb, hlast, rfl, rfl, hft⟩
    · rw [hp, Function.update_of_ne hseq] at he
      obtain ⟨k, r, hcb', hk, hrest⟩ := h.entry he
      exact ⟨k, r, hcb', sent_concat.2 (.inl hk), hrest⟩
  · rw [hs, hsucc]
    rcases sent_concat.1 hk with hk | ⟨-, hr⟩
    · exact Nat.lt_succ_of_lt (h.seqno_lt hk hc)
    · obtain rfl := Option.some.inj hr
      exact Nat.lt_succ_self _
  · -- An older request has a smaller sequence number.
    rcases sent_concat.1 hk with hk | ⟨rfl, hr⟩ <;> rcases sent_concat.1 hk' with hk' | ⟨rfl, hr'⟩
    · exact h.seqno_inj hk hk' hc hc' heq
    · obtain rfl := Option.some.inj hr'
      exact absurd (h.seqno_lt hk hc) (by rw [heq]; exact Nat.lt_irrefl _)
    · obtain rfl := Option.some.inj hr
      exact absurd (h.seqno_lt hk' hc') (by rw [← heq]; exact Nat.lt_irrefl _)
    · rfl
  · have hcount := h.count
    rw [hs, hsucc, List.length_append, List.length_singleton]
    omega
  · rcases sent_concat.1 hk with hk | ⟨-, hr⟩
    · exact h.kind hk
    · obtain rfl := Option.some.inj hr
      exact ⟨(congrArg Option.isSome hft).trans rfl, fun _ => rfl⟩

/-- **Every request keeps the books in order.** -/
theorem request {w : ClientWorld Nat} (h : Book w.client requests called ended)
    {entry : Option (Pending Nat)} {out : ClientWorld Nat × Option UInt16}
    (hreq : w.Requested entry out) {msgType : UInt8}
    (hkind : (ClientWorld.replyFType msgType).isSome = true)
    (hplain : entry = none → msgType ≠ MsgType.pingEcho)
    (hentry : ∀ p, entry = some p →
      p.callback = some requests.length ∧ ClientWorld.replyFType msgType = some p.ftype)
    (hlen : requests.length + 1 < 65536) :
    Book out.1.client (requests ++ [out.2.map fun seqno => ⟨msgType, seqno, entry.isSome⟩]) called
      ended := by
  obtain ⟨-, hwf, hout⟩ := hreq
  generalize out.2 = ret at hout ⊢
  cases hout with
  | failed hp hs => exact h.append hwf hp hs hlen (by simp)
  | plain seqno he hp hs =>
    subst he
    exact h.append hwf hp (.inl hs) hlen fun r hr => by
      obtain rfl := Option.some.inj hr
      exact ⟨rfl, hkind, hplain rfl⟩
  | registered p he hp hs =>
    subst he
    exact h.issue hwf hp hs hlen (hentry p rfl).1 (hentry p rfl).2

theorem collect (h : Book c requests called ended) (onlyTimeout : Bool) :
    Book (c.collect onlyTimeout).1 requests
        (called ++ (c.collect onlyTimeout).2.filterMap Pending.callback) ended ∧
      ∀ p ∈ (c.collect onlyTimeout).2,
        ClientWorld.failedCall p = p.callback.map (·, none) := by
  suffices hfold : ∀ (is : List Nat) (acc : SsnClient Nat × List (Pending Nat)),
      Book acc.1 requests (called ++ acc.2.filterMap Pending.callback) ended →
      (∀ p ∈ acc.2, ClientWorld.failedCall p = p.callback.map (·, none)) →
      let out := is.foldl (SsnClient.collectOne onlyTimeout) acc
      Book out.1 requests (called ++ out.2.filterMap Pending.callback) ended ∧
        ∀ p ∈ out.2, ClientWorld.failedCall p = p.callback.map (·, none) from
    hfold _ (c, []) (by simpa using h) (by simp)
  intro is acc hacc hitems
  induction is generalizing acc with
  | nil => exact ⟨hacc, hitems⟩
  | cons i is ih =>
    rw [List.foldl_cons]
    by_cases hi : acc.1.inUse i = true ∧
        (!onlyTimeout ∨ (acc.1.pendingPool i).timeoutMs = 0)
    · -- The slot `i` is freed and its request is noted.
      have hone : SsnClient.collectOne onlyTimeout acc i =
        (acc.1.freePendingIndex i, acc.2 ++ [acc.1.pendingPool i]) := if_pos hi
      have hp := SsnClient.pending_of_inUse hacc.wf hi.1
      obtain ⟨k, req, hcb, -, -, -, hft⟩ := hacc.entry hp
      rw [hone]
      refine ih _ ?_ fun p hmem => ?_
      · have hcall := hacc.call hp hcb (hacc.wf.freePendingIndex hi.1)
          (SsnClient.pending_freePendingIndex hacc.wf hi.1) (SsnClient.seqno_freePendingIndex i)
        simpa [hcb] using hcall
      · rcases List.mem_append.1 hmem with hmem | hmem
        · exact hitems p hmem
        · obtain rfl := List.mem_singleton.1 hmem
          exact ClientWorld.failedCall_of_replyFType hft
    · have hone : SsnClient.collectOne onlyTimeout acc i = acc := if_neg hi
      rw [hone]
      exact ih acc hacc hitems

end Book

/-! ## Steps -/

/-- The books are in order, and replies went to their own requests. -/
structure Inv (s : Exchange) : Prop where
  book : Book s.world.client s.requests (s.calls.map Prod.fst) s.ended
  own : ∀ k answers, (k, some answers) ∈ s.calls → answers = some k

variable {s : Exchange}

theorem Inv.sound (h : s.Inv) : s.Sound := by
  refine ⟨h.book.valid.called_nodup, h.own, fun k req hk hc => ?_⟩
  rcases h.book.valid.complete ⟨req, hk, hc⟩ with ⟨seqno, hflight⟩ | hdone
  · obtain ⟨p, hp, hcb⟩ := Option.bind_eq_some_iff.1 hflight
    obtain ⟨i, hi, rfl, -⟩ := (SsnClient.pending_iff h.book.wf).1 hp
    exact .inl ⟨i, (h.book.wf.slot i hi).1, hi, hcb⟩
  · exact .inr hdone

theorem calls_advance {answers : Option Nat} {w : ClientWorld Nat}
    {cs : List (Nat × Option Frame)} (h : s.world.Calls w cs) :
    (s.advance answers w).calls =
      s.calls ++ cs.map fun (k, reply) => (k, reply.map fun _ => answers) := by
  rw [advance, h.callsSince_eq]

/-- A step in which requests fail, for which the books stay in order. -/
theorem Inv.advance (h : s.Inv) {answers : Option Nat} {w : ClientWorld Nat} {ks : List Nat}
    (hcalls : s.world.Calls w (ks.map (·, none)))
    (hbook : Book w.client s.requests (s.calls.map Prod.fst ++ ks) s.ended) :
    (s.advance answers w).Inv := by
  have hnew : (s.advance answers w).calls = s.calls ++ ks.map (·, none) := by
    simp [calls_advance hcalls]
  have hfst : (s.calls ++ ks.map (·, none)).map Prod.fst = s.calls.map Prod.fst ++ ks := by
    simp [Function.comp_def]
  refine ⟨?_, fun k a hmem => ?_⟩
  · rw [hnew, hfst]
    exact hbook
  · rw [hnew] at hmem
    exact h.own k a (by simpa using hmem)

theorem Inv.advance_quiet (h : s.Inv) {answers : Option Nat} {w : ClientWorld Nat}
    (hcalls : s.world.Calls w [])
    (hbook : Book w.client s.requests (s.calls.map Prod.fst) s.ended) :
    (s.advance answers w).Inv :=
  h.advance (show s.world.Calls w (([] : List Nat).map (·, none)) from hcalls)
    (by simpa using hbook)

theorem Inv.requested (h : s.Inv) {entry : Option (Pending Nat)}
    {out : ClientWorld Nat × Option UInt16} (hreq : s.world.Requested entry out)
    {msgType : UInt8} (hkind : (ClientWorld.replyFType msgType).isSome = true)
    (hplain : entry = none → msgType ≠ MsgType.pingEcho)
    (hentry : ∀ p, entry = some p →
      p.callback = some s.requests.length ∧ ClientWorld.replyFType msgType = some p.ftype)
    (hlen : s.requests.length + 1 < 65536) : (s.requested msgType entry.isSome out).Inv := by
  have hsame : (s.advance none out.1).calls = s.calls := by simp [calls_advance hreq.calls]
  refine ⟨?_, fun k a hmem => h.own k a (hsame ▸ hmem)⟩
  rw [show (s.requested msgType entry.isSome out).calls = s.calls from hsame]
  exact h.book.request hreq hkind hplain hentry hlen

theorem Inv.reply_none (h : s.Inv) {r : Nat} {f : Frame} (hf : ClientWorld.IsReply f)
    (hnone : s.world.client.pending (getSeqno f) = none) :
    (s.advance (some r) (s.world.input f)).Inv := by
  rw [ClientWorld.input_of_none hf hnone]
  exact h.advance_quiet (ClientWorld.calls_emit _) h.book

theorem Inv.reply_own (h : s.Inv) {r : Nat} {req : Request} {f : Frame} {p : Pending Nat}
    (hf : ClientWorld.IsReply f) (hr : sent s.requests r = some req) (hc : req.callback = true)
    (htype : getMsgType f = req.msgType) (hseqno : getSeqno f = req.seqno)
    (hp : s.world.client.pending (getSeqno f) = some p) :
    (s.advance (some r) (s.world.input f)).Inv := by
  obtain ⟨hcb, hft⟩ := h.book.entry_own hr hc (hseqno ▸ hp)
  obtain ⟨hcalls, hwf, hpend, hs⟩ := ClientWorld.input_of_some hf h.book.wf hp
  have hcall : ClientWorld.replyCall f p = some (r, some f) := by
    rw [ClientWorld.replyCall, htype, if_pos hft, hcb]
    rfl
  rw [hcall] at hcalls
  have hnew : (s.advance (some r) (s.world.input f)).calls = s.calls ++ [(r, some (some r))] :=
    calls_advance hcalls
  refine ⟨?_, fun k a hmem => ?_⟩
  · rw [hnew, List.map_append]
    exact h.book.call hp hcb hwf hpend hs
  · rw [hnew] at hmem
    rcases List.mem_append.1 hmem with hmem | hmem
    · exact h.own k a hmem
    · obtain ⟨rfl, ha⟩ := Prod.mk.inj (List.mem_singleton.1 hmem)
      exact Option.some.inj ha

theorem Inv.timerEvent (h : s.Inv) : (s.advance none s.world.handleEvent).Inv := by
  unfold ClientWorld.handleEvent
  split_ifs
  · let c : SsnClient Nat := { s.world.client with evtPending := false }
    have hbook : Book c s.requests (s.calls.map Prod.fst) s.ended :=
      h.book.of_pending (h.book.wf.of_pool rfl) rfl rfl
    obtain ⟨hcalls, hclient⟩ :=
      ClientWorld.collectAndCallPending_spec (w := s.world.setClient c) true
    obtain ⟨hbook', hitems⟩ := hbook.collect true
    have hfailed : (c.collect true).2.filterMap ClientWorld.failedCall =
        ((c.collect true).2.filterMap Pending.callback).map (·, none) := by
      rw [List.map_filterMap]
      exact List.filterMap_congr hitems
    refine h.advance (hfailed ▸ hcalls) ?_
    rw [hclient]
    exact hbook'
  · exact h.advance_quiet (.of_log rfl) h.book

theorem Inv.isReply (h : s.Inv) {r : Nat} {req : Request} {f : Frame}
    (hr : sent s.requests r = some req) (htype : getMsgType f = req.msgType) :
    ClientWorld.IsReply f := by
  rw [ClientWorld.IsReply, htype]
  exact replyFType_isSome (h.book.kind hr).1

theorem inv_step (net : Nat → Nat → SendStep) (s : Exchange) (e : ExchangeStep) (h : s.Inv)
    (hhonest : s.Honest e) (hok : s.NoClash e) : (s.step net e).Inv := by
  cases e with
  | call url data callback timeoutMs =>
    cases callback with
    | false =>
      exact h.requested (ClientWorld.callEx_spec url none h.book.wf nofun)
        (by decide) (fun _ => by decide) (by simp [ClientWorld.entryOf]) hhonest
    | true =>
      refine h.requested
        (ClientWorld.callEx_spec url (some s.requests.length) h.book.wf fun _ => h.book.seqnoFree)
        (by decide) (fun _ => by decide) (fun p hp => ?_) hhonest
      obtain rfl := Option.some.inj hp
      exact ⟨rfl, rfl⟩
  | subscribe url handler timeoutMs =>
    exact h.requested (ClientWorld.subscribe_spec url handler h.book.wf)
      (by decide) (fun _ => by decide) (by simp) hhonest
  | unsubscribe url timeoutMs =>
    exact h.requested (ClientWorld.unsubscribe_spec url h.book.wf)
      (by decide) (fun _ => by decide) (by simp) hhonest
  | ping timeoutMs =>
    refine h.requested
      (ClientWorld.requestEx_spec (some s.requests.length) h.book.wf fun _ => h.book.seqnoFree)
      (by decide) (by simp [ClientWorld.entryOf]) (fun p hp => ?_) hhonest
    obtain rfl := Option.some.inj hp
    exact ⟨rfl, rfl⟩
  | pingEnd r =>
    obtain ⟨req, hr, hping⟩ := hhonest
    obtain ⟨hlog, hwf, hpend, hs⟩ := ClientWorld.pingCancel_spec h.book.wf req.seqno
    have hsame : (s.advance none (s.world.pingCancel req.seqno)).calls = s.calls := by
      simp [calls_advance (.of_log hlog)]
    simp only [step, show sent s.requests r = some req from hr]
    refine ⟨?_, fun k a hmem => h.own k a (hsame ▸ hmem)⟩
    simp only [hsame]
    exact h.book.drop hr ((h.book.kind hr).2 hping) hwf hpend hs
  | reply r f =>
    obtain ⟨req, hr, htype, hseqno⟩ := hhonest
    have hf := h.isReply hr htype
    cases hp : s.world.client.pending (getSeqno f) with
    | none => exact h.reply_none hf hp
    | some p =>
      cases hc : req.callback with
      | true => exact h.reply_own hf hr hc htype hseqno hp
      | false =>
        obtain ⟨i, hi, rfl, hseq⟩ := (SsnClient.pending_iff h.book.wf).1 hp
        exact absurd (hseq.trans hseqno) (hok req hr hc i (h.book.wf.slot i hi).1 hi)
  | timerSweep => exact h.advance_quiet (.of_log rfl) h.book.timerSweep
  | timerEvent => exact h.timerEvent

/-- In a sound state after an honest reply, the reply did not go to a request that it does not
answer. -/
theorem not_sound_reply (h : s.Inv) {r : Nat} {req : Request} {f : Frame} {p : Pending Nat}
    (hf : ClientWorld.IsReply f) (hr : sent s.requests r = some req) (hc : req.callback = false)
    (hp : s.world.client.pending (getSeqno f) = some p) :
    ¬ (s.advance (some r) (s.world.input f)).Sound := by
  intro hsound
  obtain ⟨k, req', hcb, hk, hc', -, -⟩ := h.book.entry hp
  obtain ⟨hcalls, hwf, hpend, -⟩ := ClientWorld.input_of_some hf h.book.wf hp
  have hflight : (ledger s.world.client s.requests (s.calls.map Prod.fst) s.ended).flight
      (getSeqno f) = some k := by simp [ledger, hp, hcb]
  by_cases hft : ClientWorld.replyFType (getMsgType f) = some p.ftype
  · -- The callback of `k` is called with the reply to `r`.
    have hnew : (s.advance (some r) (s.world.input f)).calls =
        s.calls ++ [(k, some (some r))] := by
      rw [ClientWorld.replyCall, if_pos hft, hcb] at hcalls
      exact calls_advance hcalls
    obtain rfl := Option.some.inj (hsound.own k (some r) (by simp [hnew]))
    obtain rfl : req = req' := Option.some.inj (hr.symm.trans hk)
    rw [hc] at hc'
    cases hc'
  · -- The request `k` has left the pool, and nobody was called.
    have hsame : (s.advance (some r) (s.world.input f)).calls = s.calls := by
      rw [ClientWorld.replyCall, if_neg hft] at hcalls
      simp [calls_advance hcalls]
    obtain ⟨hcalled, hended⟩ := h.book.valid.flight_open hflight
    rcases hsound.kept k req' hk hc' with ⟨i, -, hi, hcb'⟩ | hmem | hmem
    · have hp' := SsnClient.pending_of_inUse hwf hi
      rw [hpend] at hp'
      obtain ⟨hne, hp'⟩ := Ledger.update_none_eq_some hp'
      refine hne (h.book.valid.flight_inj (k := k) ?_ hflight)
      exact Option.bind_eq_some_iff.2 ⟨_, hp', hcb'⟩
    · exact hcalled (hsame ▸ hmem)
    · exact hended hmem

theorem not_sound_step (net : Nat → Nat → SendStep) (s : Exchange) (e : ExchangeStep) (h : s.Inv)
    (hhonest : s.Honest e) (hbad : ¬ s.NoClash e) : ¬ (s.step net e).Sound := by
  cases e with
  | reply r f =>
    obtain ⟨req', hr', htype, hseqno⟩ := hhonest
    simp only [NoClash, not_forall, not_not] at hbad
    obtain ⟨req, hr, hc, i, -, hi, hs⟩ := hbad
    obtain rfl : req = req' := Option.some.inj (hr.symm.trans hr')
    refine not_sound_reply h (h.isReply hr htype) hr hc (p := s.world.client.pendingPool i) ?_
    rw [hseqno, ← hs]
    exact SsnClient.pending_of_inUse h.book.wf hi
  | _ => exact absurd trivial hbad

end Exchange

/-! ## Polls and pings -/

section Polls

variable {κ : Type*} {w : ClientWorld κ}

theorem ClientWorld.pingWait_polls [DecidableEq κ] (k : κ) (start timeoutMs waited : Nat)
    (polls : Nat → PollOutcome) :
    ∃ n, w.pingWait k start timeoutMs waited polls =
      (List.range n).foldl (fun w i => w.poll (polls i)) w := by
  fun_induction ClientWorld.pingWait w k start timeoutMs waited polls with
  | case1 w waited polls hrun ih =>
    obtain ⟨n, hn⟩ := ih
    refine ⟨n + 1, ?_⟩
    rw [hn, List.range_succ_eq_map, List.foldl_cons, List.foldl_map]
  | case2 => exact ⟨0, rfl⟩

end Polls

/-! ## Runs -/

/-- Nothing has been requested yet. -/
structure SsnClient.Fresh {κ : Type*} (c : SsnClient κ) : Prop where
  inUse : ∀ i, c.inUse i = false
  index : ∀ s, c.seqnoToIndex s = noIndex
  seqno : c.seqno = 0

namespace SsnClient.Fresh

variable {κ : Type*} {c c' : SsnClient κ}

theorem of_pool (h : c.Fresh) (hp : c'.pool = c.pool) (hs : c'.seqno = c.seqno) : c'.Fresh := by
  refine ⟨fun i => ?_, fun s => ?_, hs.trans h.seqno⟩
  · rw [SsnClient.inUse_of_pool hp, h.inUse]
  · rw [show c'.seqnoToIndex = _ from congrArg (fun p => p.2.2) hp]
    exact h.index s

theorem create : (SsnClient.create : SsnClient κ).Fresh :=
  ⟨fun i => by simp [SsnClient.inUse, Bitmap.isSet_eq, SsnClient.create], fun _ => rfl, rfl⟩

theorem poolInv : PoolInv (SsnClient.Fresh (κ := κ)) where
  of_pool h hp hs := h.of_pool hp hs
  free hi h := by
    rw [h.inUse] at hi
    cases hi

theorem wf (h : c.Fresh) : c.Wf := by
  refine ⟨fun i hi => ?_, fun s hs => absurd (h.index s) hs⟩
  rw [h.inUse] at hi
  cases hi

theorem pending (h : c.Fresh) : c.pending = fun _ => none := by
  funext s
  rw [SsnClient.pending, SsnClient.getPendingSnapshot]
  simp [h.index]

end SsnClient.Fresh

theorem Exchange.inv_start {w : ClientWorld Nat} (hw : w.client.Fresh) :
    (Exchange.start w).Inv := by
  have hsent {k : Nat} {req : Request} (h : sent [] k = some req) : False := by
    simp [sent] at h
  have hflight {s : UInt16} {k : Nat} (h : (Exchange.ledger w.client [] [] []).flight s = some k) :
      False := by
    simp [Exchange.ledger, hw.pending] at h
  refine ⟨⟨hw.wf, ?_, fun hp => ?_, fun hk => (hsent hk).elim, fun hk => (hsent hk).elim, ?_,
    fun hk => (hsent hk).elim⟩, fun k a hmem => ?_⟩
  · exact ⟨fun h => (hflight h).elim, fun h => (hflight h).elim, fun h => (hflight h).elim,
      fun h => absurd h (by simp [ledger, start]), fun h => absurd h (by simp [ledger, start]),
      List.nodup_nil, fun h => h.elim fun _ hk => (hsent hk.1).elim⟩
  · rw [show (start w).world = w from rfl, hw.pending] at hp
    cases hp
  · rw [show (start w).world = w from rfl, hw.seqno]
    rfl
  · cases hmem

/-- **Callbacks and replies belong together unless sequence numbers clash.** Take a run of a client
on one connection: calls with and without a callback, subscriptions, pings, rounds of the timer,
and replies that each have the type and sequence number of the request they answer, with fewer
than 65536 requests. In every state each callback has been called at most once, with no reply but
that to its own request, and is still in flight unless it was called or its ping ended, if and
only if no reply to a request without a callback arrived while a slot with its sequence number was
in use. -/
theorem sound_iff_noClash (net : Nat → Nat → SendStep) (w : ClientWorld Nat)
    (hw : w.client.Fresh) (es : List ExchangeStep)
    (hhonest : Runs.EachStep (Exchange.step net) Exchange.Honest (.start w) es) :
    Runs.Always (Exchange.step net) Exchange.Sound (.start w) es ↔
      Runs.EachStep (Exchange.step net) Exchange.NoClash (.start w) es :=
  Runs.always_iff_eachStep (Exchange.inv_step net) (fun _ h => h.sound)
    (Exchange.not_sound_step net) (Exchange.inv_start hw) hhonest

/-- A call and a subscription, each answered before the next step. -/
def answeredInTurn : List ExchangeStep :=
  [.call [slash, 0x61] none true 1000, .reply 0 (bareFrame MsgType.rpcRequest 0),
    .subscribe [slash, 0x61] none 1000, .reply 1 (bareFrame MsgType.subscribe 1)]

theorem answeredInTurn_sound :
    Runs.Always (Exchange.step acceptAll) Exchange.Sound (.start connectedWorld)
      answeredInTurn := by
  refine (sound_iff_noClash acceptAll connectedWorld
    (SsnClient.Fresh.poolInv.connect _ _ .create) _ ?_).2 ?_
  all_goals
    simp only [answeredInTurn, Runs.eachStep_cons, Runs.eachStep_nil, and_true]
    decide +kernel

/-- Two calls with a callback, which get the sequence numbers 0 and 1, and a subscription, which
gets the number 1 too and is answered first. -/
def answeredOutOfTurn : List ExchangeStep :=
  [.call [slash, 0x61] none true 1000, .call [slash, 0x62] none true 1000,
    .subscribe [slash, 0x63] none 1000, .reply 2 (bareFrame MsgType.subscribe 1)]

/-- The second call has lost its slot and was not called. -/
theorem answeredOutOfTurn_not_sound :
    ¬ Runs.Always (Exchange.step acceptAll) Exchange.Sound (.start connectedWorld)
      answeredOutOfTurn := by
  intro h
  let s := Runs.run (Exchange.step acceptAll) (.start connectedWorld) answeredOutOfTurn
  obtain ⟨hsent, hlost, hcalls, hended⟩ :
      Exchange.sent s.requests 1 = some ⟨MsgType.rpcRequest, 1, true⟩ ∧
        (∀ i < maxPending, s.world.client.inUse i = true →
          (s.world.client.pendingPool i).callback ≠ some 1) ∧
        s.calls = [] ∧ s.ended = [] := by decide +kernel
  have hsound : s.Sound := h _ (List.prefix_refl _)
  rcases hsound.kept 1 _ hsent rfl with ⟨i, hlt, hi, hcb⟩ | hmem | hmem
  · exact hlost i hlt hi hcb
  · rw [hcalls] at hmem
    cases hmem
  · rw [hended] at hmem
    cases hmem

end Ssn
