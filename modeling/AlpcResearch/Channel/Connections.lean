import AlpcResearch.Channel.Network

/-!
# What the kernel keeps of the connections

Each connection has a port context of its own, under which its messages are
queued; the notice of its end is the last of them, and is there exactly if the
client has closed it (`Net.Sound`). One lemma for each thing the kernel does
says that it stays so.
-/

namespace AlpcResearch.Channel

open Resource Program Process
open Rpc (Party Posted isSync kindSent)

variable {ι : Type} {pl : Platform} {site : Site ι} {N : Net ι} {m : Packet ι} {c : Connection ι}

/-- A message that is not the first of its connection. -/
def Packet.isOver (m : Packet ι) : Bool := !m.isRequest

structure Net.Sound (pl : Platform) (site : Site ι) (N : Net ι) : Prop where
  arrived : ∀ m msg, (m, msg) ∈ N.received → m.ArrivesAs pl site msg
  kinds : ∀ m ∈ N.packets,
    m.kind = lpcRequest ∨ m.kind = lpcDatagram ∨ m.kind = lpcConnectionRequest ∨
      m.kind = lpcPortClosed
  unique : (N.packets.map Packet.messageId).Nodup
  connecting : ∀ i id, N.connecting i = some id → ∃ m ∈ N.packets, m.sender = i ∧ m.messageId = id
  contexts : (N.connections.map Connection.context).Nodup
  /-- A message that is no connection request came over a connection. -/
  carried : ∀ m ∈ N.packets, m.isOver = true →
    ∃ c ∈ N.connections, c.context = m.context ∧ c.client = m.sender
  /-- Nothing follows a notice over its connection. -/
  last : N.packets.Pairwise fun m m' => m.isNotice = true → m'.isOver = true →
    m'.context ≠ m.context
  notices : ∀ c ∈ N.connections,
    c.closed = true ↔ ∃ m ∈ N.packets, m.isNotice = true ∧ m.context = c.context

theorem Packet.isNotice.isOver (h : m.isNotice = true) : m.isOver = true := by
  have hkind : m.kind = lpcPortClosed := of_decide_eq_true h
  simp only [Packet.isOver, Packet.isRequest, hkind]
  decide

theorem Net.Sound.eq_of_messageId {q : Packet ι} (h : N.Sound pl site) (hm : m ∈ N.packets)
    (hq : q ∈ N.packets) (hid : m.messageId = q.messageId) : m = q :=
  List.inj_on_of_nodup_map h.unique hm hq hid

theorem Net.Sound.eq_of_context {d : Connection ι} (h : N.Sound pl site) (hc : c ∈ N.connections)
    (hd : d ∈ N.connections) (hctx : c.context = d.context) : c = d :=
  List.inj_on_of_nodup_map h.contexts hc hd hctx

/-- Only the messages, the connections and the requests to connect matter. -/
theorem Net.Sound.congr {N' : Net ι} (h : N.Sound pl site) (hreceived : N'.received = N.received)
    (hqueue : N'.queue = N.queue) (hconnecting : N'.connecting = N.connecting)
    (hconnections : N'.connections = N.connections) : N'.Sound pl site := by
  have hpackets : N'.packets = N.packets := by simp only [packets, hreceived, hqueue]
  exact ⟨hreceived ▸ h.arrived, hpackets ▸ h.kinds, hpackets ▸ h.unique,
    hpackets ▸ hconnecting ▸ h.connecting, hconnections ▸ h.contexts,
    hpackets ▸ hconnections ▸ h.carried, hpackets ▸ h.last, hpackets ▸ hconnections ▸ h.notices⟩

-- ---------------------------------------------------------------------------
-- Messages
-- ---------------------------------------------------------------------------

def Net.enqueue (N : Net ι) (m : Packet ι) : Net ι := { N with queue := N.queue ++ [m] }

theorem Net.packets_enqueue (N : Net ι) (m : Packet ι) :
    (N.enqueue m).packets = N.packets ++ [m] := (List.append_assoc ..).symm

theorem Net.mem_enqueue {q : Packet ι} : q ∈ (N.enqueue m).packets ↔ q ∈ N.packets ∨ q = m := by
  rw [packets_enqueue, List.mem_append, List.mem_singleton]

theorem Net.Sound.unique_enqueue (h : N.Sound pl site) (hnew : N.New m.messageId) :
    ((N.enqueue m).packets.map Packet.messageId).Nodup := by
  rw [packets_enqueue, List.map_append, List.map_singleton]
  refine List.nodup_append.mpr ⟨h.unique, List.nodup_singleton _, ?_⟩
  intro id hid id' hid'
  obtain ⟨q, hq, rfl⟩ := List.mem_map.mp hid
  rw [List.mem_singleton.mp hid']
  exact hnew q hq

theorem Net.Sound.connecting_enqueue (h : N.Sound pl site) {i : ι} {id : Nat}
    (hi : N.connecting i = some id) :
    ∃ q ∈ (N.enqueue m).packets, q.sender = i ∧ q.messageId = id := by
  obtain ⟨q, hq, hrest⟩ := h.connecting i id hi
  exact ⟨q, mem_enqueue.mpr (.inl hq), hrest⟩

/-- A connection request. -/
theorem Net.Sound.enqueue_request (h : N.Sound pl site) (hnew : N.New m.messageId)
    (hkind : m.kind = lpcConnectionRequest) : (N.enqueue m).Sound pl site := by
  have hover : m.isOver = false := by simp [Packet.isOver, Packet.isRequest, hkind]
  have hnotice : ¬ m.isNotice = true := by
    simp only [Packet.isNotice, hkind]
    decide
  refine ⟨h.arrived, fun q hq => ?_, h.unique_enqueue hnew, fun i id hi => h.connecting_enqueue hi,
    h.contexts, fun q hq hqo => ?_, ?_, fun c hc => (h.notices c hc).trans ⟨?_, ?_⟩⟩
  · rcases mem_enqueue.mp hq with hq | rfl
    · exact h.kinds q hq
    · exact .inr (.inr (.inl hkind))
  · rcases mem_enqueue.mp hq with hq | rfl
    · exact h.carried q hq hqo
    · exact absurd (hover.symm.trans hqo) Bool.false_ne_true
  · rw [packets_enqueue]
    refine List.pairwise_append.mpr ⟨h.last, List.pairwise_singleton .., ?_⟩
    rintro q - m' hm' - hm'o
    rw [List.mem_singleton.mp hm'] at hm'o
    exact absurd (hover.symm.trans hm'o) Bool.false_ne_true
  · rintro ⟨q, hq, hqn⟩
    exact ⟨q, mem_enqueue.mpr (.inl hq), hqn⟩
  · rintro ⟨q, hq, hqn, hctx⟩
    rcases mem_enqueue.mp hq with hq | rfl
    · exact ⟨q, hq, hqn, hctx⟩
    · exact absurd hqn hnotice

/-- What holds of any message over an open connection. -/
theorem Net.Sound.last_enqueue (h : N.Sound pl site) (hc : c ∈ N.connections)
    (hopen : c.closed = false) (hctx : m.context = c.context) :
    (N.enqueue m).packets.Pairwise fun q q' => q.isNotice = true → q'.isOver = true →
      q'.context ≠ q.context := by
  rw [packets_enqueue]
  refine List.pairwise_append.mpr ⟨h.last, List.pairwise_singleton .., ?_⟩
  intro q hq m' hm' hqn _ he
  rw [List.mem_singleton.mp hm', hctx] at he
  have hclosed := (h.notices c hc).mpr ⟨q, hq, hqn, he.symm⟩
  exact absurd (hopen.symm.trans hclosed) Bool.false_ne_true

theorem Net.Sound.over_enqueue (h : N.Sound pl site) (hc : c ∈ N.connections)
    (hctx : m.context = c.context) (hsender : m.sender = c.client) :
    ∀ q ∈ (N.enqueue m).packets, q.isOver = true →
      ∃ d ∈ N.connections, d.context = q.context ∧ d.client = q.sender := by
  intro q hq hqo
  rcases mem_enqueue.mp hq with hq | rfl
  · exact h.carried q hq hqo
  · exact ⟨c, hc, hctx.symm, hsender.symm⟩

/-- A request or a datagram. -/
theorem Net.Sound.enqueue_message (h : N.Sound pl site) (hnew : N.New m.messageId)
    (hkind : m.kind = lpcRequest ∨ m.kind = lpcDatagram) (hc : c ∈ N.connections)
    (hopen : c.closed = false) (hctx : m.context = c.context) (hsender : m.sender = c.client) :
    (N.enqueue m).Sound pl site := by
  have hnotice : ¬ m.isNotice = true := by
    rcases hkind with hkind | hkind
    · simp only [Packet.isNotice, hkind]
      decide
    · simp only [Packet.isNotice, hkind]
      decide
  refine ⟨h.arrived, fun q hq => ?_, h.unique_enqueue hnew, fun i id hi => h.connecting_enqueue hi,
    h.contexts, h.over_enqueue hc hctx hsender, h.last_enqueue hc hopen hctx,
    fun d hd => (h.notices d hd).trans ⟨?_, ?_⟩⟩
  · rcases mem_enqueue.mp hq with hq | rfl
    · exact h.kinds q hq
    · exact hkind.imp_right .inl
  · rintro ⟨q, hq, hqn⟩
    exact ⟨q, mem_enqueue.mpr (.inl hq), hqn⟩
  · rintro ⟨q, hq, hqn, hq'⟩
    rcases mem_enqueue.mp hq with hq | rfl
    · exact ⟨q, hq, hqn, hq'⟩
    · exact absurd hqn hnotice

-- ---------------------------------------------------------------------------
-- Connections
-- ---------------------------------------------------------------------------

/-- A change that leaves the connections their clients and contexts. -/
def Net.mapped (N : Net ι) (f : Connection ι → Connection ι) : Net ι :=
  { N with connections := N.connections.map f }

theorem Net.mem_mapped {f : Connection ι → Connection ι} :
    c ∈ (N.mapped f).connections ↔ ∃ d ∈ N.connections, f d = c := List.mem_map

theorem Net.mapped_contexts {f : Connection ι → Connection ι}
    (hf : ∀ d, (f d).context = d.context) :
    (N.mapped f).connections.map Connection.context = N.connections.map Connection.context := by
  simp only [mapped, List.map_map]
  exact List.map_congr_left fun d _ => hf d

theorem Net.Sound.over_mapped (h : N.Sound pl site) {f : Connection ι → Connection ι}
    (hcontext : ∀ d, (f d).context = d.context) (hclient : ∀ d, (f d).client = d.client)
    (hm : m ∈ N.packets) (hover : m.isOver = true) :
    ∃ d ∈ (N.mapped f).connections, d.context = m.context ∧ d.client = m.sender := by
  obtain ⟨d, hd, hctx, hsender⟩ := h.carried m hm hover
  exact ⟨f d, List.mem_map_of_mem hd, (hcontext d).trans hctx, (hclient d).trans hsender⟩

/-- A connect that returns changes what is known of the handle, and no more. -/
theorem Net.Sound.mapped (h : N.Sound pl site) {f : Connection ι → Connection ι}
    (hcontext : ∀ d, (f d).context = d.context) (hclient : ∀ d, (f d).client = d.client)
    (hclosed : ∀ d, (f d).closed = d.closed) : (N.mapped f).Sound pl site where
  arrived := h.arrived
  kinds := h.kinds
  unique := h.unique
  connecting := h.connecting
  contexts := (mapped_contexts hcontext).symm ▸ h.contexts
  carried _ hm hover := h.over_mapped hcontext hclient hm hover
  last := h.last
  notices := by
    intro d' hd'
    obtain ⟨d, hd, rfl⟩ := mem_mapped.mp hd'
    rw [hcontext, hclosed]
    exact h.notices d hd

/-- The client closes an open connection: the notice is queued. -/
theorem Net.Sound.closes [DecidableEq ι] (h : N.Sound pl site) (hnew : N.New m.messageId)
    (hkind : m.kind = lpcPortClosed) (hc : c ∈ N.connections) (hopen : c.closed = false)
    (hctx : m.context = c.context) (hsender : m.sender = c.client) :
    ((N.enqueue m).mapped fun d =>
      if d.context = c.context then { d with closed := true } else d).Sound pl site := by
  let f : Connection ι → Connection ι := fun d =>
    if d.context = c.context then { d with closed := true } else d
  have hcontext : ∀ d, (f d).context = d.context := fun d => by simp only [f]; split <;> rfl
  have hclient : ∀ d, (f d).client = d.client := fun d => by simp only [f]; split <;> rfl
  constructor
  case arrived => exact h.arrived
  case kinds =>
    intro q (hq : q ∈ (N.enqueue m).packets)
    rcases mem_enqueue.mp hq with hq | rfl
    · exact h.kinds q hq
    · exact .inr (.inr (.inr hkind))
  case unique => exact h.unique_enqueue hnew
  case connecting => exact fun i id hi => h.connecting_enqueue hi
  case contexts => exact (mapped_contexts (N := N) hcontext).symm ▸ h.contexts
  case carried =>
    intro q hq hqo
    obtain ⟨d, hd, hd', hd''⟩ := h.over_enqueue hc hctx hsender q hq hqo
    exact ⟨f d, List.mem_map_of_mem hd, (hcontext d).trans hd', (hclient d).trans hd''⟩
  case last => exact h.last_enqueue hc hopen hctx
  case notices =>
    intro d' hd'
    obtain ⟨d, hd, rfl⟩ := mem_mapped.mp hd'
    change _ ↔ ∃ q ∈ (N.enqueue m).packets, _
    by_cases hsame : d.context = c.context
    · simp only [hsame, if_true, true_iff]
      exact ⟨m, mem_enqueue.mpr (.inr rfl), decide_eq_true hkind, hctx⟩
    · simp only [hsame, if_false]
      refine (h.notices d hd).trans ⟨?_, ?_⟩
      · rintro ⟨q, hq, hqn⟩
        exact ⟨q, mem_enqueue.mpr (.inl hq), hqn⟩
      · rintro ⟨q, hq, hqn, hqd⟩
        rcases mem_enqueue.mp hq with hq | rfl
        · exact ⟨q, hq, hqn, hqd⟩
        · exact absurd (hqd.symm.trans hctx) hsame

/-- The server accepts with a context that no connection has. -/
theorem Net.Sound.accepts (h : N.Sound pl site) (hnew : c.context ∉ N.connections.map (·.context))
    (hopen : c.closed = false) :
    Net.Sound pl site { N with connections := c :: N.connections } where
  arrived := h.arrived
  kinds := h.kinds
  unique := h.unique
  connecting := h.connecting
  contexts := List.nodup_cons.mpr ⟨hnew, h.contexts⟩
  carried m hm hover := by
    obtain ⟨d, hd, hrest⟩ := h.carried m hm hover
    exact ⟨d, List.mem_cons_of_mem _ hd, hrest⟩
  last := h.last
  notices := by
    intro d hd
    rcases List.mem_cons.mp hd with rfl | hd
    · simp only [hopen, Bool.false_eq_true, false_iff]
      rintro ⟨q, hq, hqn, hctx⟩
      obtain ⟨d', hd', hd'', -⟩ := h.carried q hq (Packet.isNotice.isOver hqn)
      exact hnew (hctx ▸ hd'' ▸ List.mem_map_of_mem hd')
    · exact h.notices d hd

-- ---------------------------------------------------------------------------
-- What the kernel does
-- ---------------------------------------------------------------------------

section Steps

variable [DecidableEq ι]

theorem Net.portOf_some {i : ι} {h : Handle} (hc : N.portOf i h = some c) :
    c ∈ N.connections ∧ c.client = i ∧ c.handle = some h ∧ c.closed = false := by
  have hsome := List.find?_some hc
  simp only [Bool.and_eq_true, decide_eq_true_eq, Bool.not_eq_true'] at hsome
  exact ⟨List.mem_of_find?_eq_some hc, hsome.1.1, hsome.1.2, hsome.2⟩

theorem Net.Sound.request {i : ι} {p : Posted} (h : N.Sound pl site) (hnew : N.New p.messageId) :
    (N.request i p).Sound pl site := by
  let m : Packet ι := ⟨i, lpcConnectionRequest, p.messageId, p.taken, none⟩
  have hm : (N.enqueue m).Sound pl site := h.enqueue_request hnew rfl
  refine ⟨hm.arrived, hm.kinds, hm.unique, fun j id hj => ?_, hm.contexts, hm.carried, hm.last,
    hm.notices⟩
  by_cases hji : j = i
  · subst hji
    simp only [Net.request, Function.update_self, Option.some.injEq] at hj
    exact ⟨m, mem_enqueue.mpr (.inr rfl), rfl, hj⟩
  · simp only [Net.request, Function.update_of_ne hji] at hj
    exact hm.connecting j id hj

theorem kindSent_cases (a : SendWaitReceive) :
    kindSent a = lpcRequest ∨ kindSent a = lpcDatagram := by
  unfold kindSent
  split
  · exact .inl rfl
  · exact .inr rfl

theorem Net.Sound.send {i : ι} {a : SendWaitReceive} {p : Posted} (h : N.Sound pl site)
    (hnew : N.New p.messageId) : (N.send i a p).Sound pl site := by
  unfold Net.send
  split
  · rename_i c hc
    obtain ⟨hmem, hclient, -, hopen⟩ := portOf_some hc
    exact h.enqueue_message (m := ⟨i, kindSent a, p.messageId, p.taken, c.context⟩) hnew
      (kindSent_cases a) hmem hopen rfl hclient.symm
  · exact h

theorem Net.Sound.close {i : ι} {x : Handle} {p : Posted} (h : N.Sound pl site)
    (hnew : N.New p.messageId) : (N.close i x p).Sound pl site := by
  unfold Net.close
  split
  · rename_i c hc
    obtain ⟨hmem, hclient, -, hopen⟩ := portOf_some hc
    exact h.closes (m := ⟨i, lpcPortClosed, p.messageId, p.taken, c.context⟩) hnew rfl hmem hopen
      rfl hclient.symm
  · exact h

theorem Net.Sound.forget {i : ι} (h : N.Sound pl site) :
    Net.Sound pl site { N with connecting := Function.update N.connecting i none } where
  arrived := h.arrived
  kinds := h.kinds
  unique := h.unique
  connecting := by
    intro j id hj
    by_cases hji : j = i
    · subst hji
      simp at hj
    · simp only [Function.update_of_ne hji] at hj
      exact h.connecting j id hj
  contexts := h.contexts
  carried := h.carried
  last := h.last
  notices := h.notices

theorem Net.Sound.answer {i : ι} {a : AcceptConnectPort} (h : N.Sound pl site)
    (hnew : a.acceptConnection = true → a.portContext ∉ N.connections.map Connection.context) :
    (N.answer i a).Sound pl site := by
  unfold Net.answer
  split
  · rename_i ha
    exact (h.accepts (c := ⟨i, a.portContext, none, false⟩) (hnew ha) rfl).forget
  · exact h.forget

omit [DecidableEq ι] in
theorem Net.packets_deliver (N : Net ι) (msg : List UInt8) : (N.deliver msg).packets = N.packets := by
  unfold Net.deliver
  split
  · rename_i m rest hq
    simp [Net.packets, hq]
  · rfl

omit [DecidableEq ι] in
theorem Net.Sound.deliver {msg : List UInt8} {rest : List (Packet ι)} (h : N.Sound pl site)
    (hq : N.queue = m :: rest) (hm : m.ArrivesAs pl site msg) : (N.deliver msg).Sound pl site := by
  have hpackets := N.packets_deliver msg
  have hsame : (N.deliver msg).connecting = N.connecting ∧
      (N.deliver msg).connections = N.connections := by
    simp only [Net.deliver, hq, and_self]
  refine ⟨fun q msg' hmem => ?_, hpackets ▸ h.kinds, hpackets ▸ h.unique,
    hpackets ▸ hsame.1 ▸ h.connecting, hsame.2 ▸ h.contexts, hpackets ▸ hsame.2 ▸ h.carried,
    hpackets ▸ h.last, hpackets ▸ hsame.2 ▸ h.notices⟩
  simp only [Net.deliver, hq] at hmem
  rcases List.mem_cons.mp hmem with he | hmem
  · cases he
    exact hm
  · exact h.arrived q msg' hmem

theorem Net.Sound.connect {i : ι} {r : ConnectReply} (h : N.Sound pl site) :
    (N.connect i r).Sound pl site := by
  unfold Net.connect
  split
  · refine Net.Sound.forget (h.mapped (f := fun c =>
      if c.client = i ∧ c.handle = none then { c with handle := some r.handle } else c) ?_ ?_ ?_)
    · intro d
      split <;> rfl
    · intro d
      split <;> rfl
    · intro d
      split <;> rfl
  · exact h.forget

end Steps

end AlpcResearch.Channel
