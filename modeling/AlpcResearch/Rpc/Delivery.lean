import AlpcResearch.Rpc.Network

/-!
# What the kernel keeps track of

The messages on their way and received, the clients that wait and the replies
that came for them (`Net.Sound`): each message is framed by a client's call and
has a `MessageId` of its own, a client waits for a reply to a message of its
own, and the reply that came is the one the service gives to that message. One
lemma for each thing the kernel does says that it stays so.
-/

namespace AlpcResearch.Rpc

open Resource Program Process

variable {ι S : Type} {svc : Service S} {pl : Platform}
variable {N : Net ι} {m : Packet ι} {msg reply : List UInt8}

-- ---------------------------------------------------------------------------
-- What holds of the kernel
-- ---------------------------------------------------------------------------

structure Packet.Framed (pl : Platform) (m : Packet ι) : Prop where
  framed : ∃ bs, pl.sizeofPortMessage + bs.length ≤ pl.alpcMaxAllowedMessageLength ∧
    m.bytes = frame pl bs
  kind : m.kind = lpcRequest ∨ m.kind = lpcDatagram

theorem Packet.Framed.arrives (hm : m.Framed pl) (h : m.ArrivesAs pl msg) : Arrives pl msg where
  framed := by
    obtain ⟨bs, hfit, hbytes⟩ := hm.framed
    exact ⟨bs, hfit, hbytes ▸ h.delivers⟩
  kind := by
    rw [h.kind]
    exact hm.kind

def posting : RpcEvent ι → Option (Packet ι)
  | ⟨(.client i, .issue (.alpcSendWaitReceivePort a)), some m⟩ =>
    some ⟨i, kindSent a, m.messageId, m.taken⟩
  | _ => none

def packetsSent (log : List (RpcEvent ι)) : List (Packet ι) := (log.filterMap posting).reverse

theorem packetsSent_cons (e : RpcEvent ι) (log : List (RpcEvent ι)) :
    packetsSent (e :: log) = packetsSent log ++ (posting e).toList := by
  simp only [packetsSent, List.filterMap_cons]
  cases posting e <;> simp

def lastSent [DecidableEq ι] (i : ι) (log : List (RpcEvent ι)) : Option (Packet ι) :=
  log.findSome? fun e => (posting e).filter fun m => m.sender = i

def dueFor (pl : Platform) (received : List (Packet ι × List UInt8)) : List Call :=
  received.map fun x => callFor pl x.2

/-- The reply the service gives to the request `m`, handled after everything
received before it. -/
def Net.Replies (pl : Platform) (svc : Service S) (N : Net ι) (m : Packet ι)
    (reply : List UInt8) : Prop :=
  ∃ msg rest, (m, msg) :: rest <:+ N.received ∧ kindOf pl msg = lpcRequest ∧
    reply = svc.reply pl (svc.state pl (dueFor pl rest)) msg

structure Net.Sound (pl : Platform) (svc : Service S) (N : Net ι) : Prop where
  arrived : ∀ m msg, (m, msg) ∈ N.received → m.ArrivesAs pl msg
  framed : ∀ m ∈ N.packets, m.Framed pl
  unique : (N.packets.map Packet.messageId).Nodup
  waiting : ∀ i m, N.waiting i = some m → m ∈ N.packets ∧ m.sender = i
  mail : ∀ i reply, N.mail i = some reply → ∃ m, N.waiting i = some m ∧ N.Replies pl svc m reply

theorem Net.Replies.mono {N' : Net ι} (h : N.Replies pl svc m reply)
    (hsuffix : N.received <:+ N'.received) : N'.Replies pl svc m reply := by
  obtain ⟨msg, rest, hrest, hkind, hreply⟩ := h
  exact ⟨msg, rest, hrest.trans hsuffix, hkind, hreply⟩

theorem eq_of_messageId {l : List (Packet ι)} (h : (l.map Packet.messageId).Nodup)
    (hm : m ∈ l) (hq : q ∈ l) (hid : m.messageId = q.messageId) : m = q :=
  List.inj_on_of_nodup_map h hm hq hid

theorem Net.Sound.process {N : Net ι} (h : N.Sound pl svc) (f : Party ι → Process) :
    Net.Sound pl svc { N with process := f } :=
  ⟨h.arrived, h.framed, h.unique, h.waiting, h.mail⟩

/-- A reply to what was received last goes to its sender. -/
theorem Net.Sound.route (h : N.Sound pl svc) {rest : List (Packet ι × List UInt8)}
    (hreceived : N.received = (m, msg) :: rest) (hkind : kindOf pl msg = lpcRequest)
    (hid : (headerOf pl reply).messageId = m.messageId)
    (hreply : reply = svc.reply pl (svc.state pl (dueFor pl rest)) msg) :
    (N.route pl reply).Sound pl svc where
  arrived := h.arrived
  framed := h.framed
  unique := h.unique
  waiting := h.waiting
  mail := by
    intro i reply' hmail
    simp only [Net.route] at hmail ⊢
    split at hmail
    · rename_i hwait
      cases hmail
      obtain ⟨q, hq, hqid⟩ := Option.map_eq_some_iff.mp hwait
      have hm : m ∈ N.packets := by simp [Net.packets, hreceived]
      have hsame : q = m :=
        eq_of_messageId h.unique (h.waiting i q hq).1 hm (hqid.trans hid)
      subst hsame
      exact ⟨q, hq, msg, rest, hreceived ▸ List.suffix_refl _, hkind, hreply⟩
    · exact h.mail i reply' hmail

theorem Net.Sound.deliver (h : N.Sound pl svc) {rest : List (Packet ι)} (hq : N.queue = m :: rest)
    (hm : m.ArrivesAs pl msg) : (N.deliver msg).Sound pl svc := by
  have hdeliver : N.deliver msg = { N with queue := rest, received := (m, msg) :: N.received } := by
    simp only [Net.deliver, hq]
  have hperm : (N.deliver msg).packets.Perm N.packets := by
    rw [hdeliver]
    simp only [Net.packets, hq, List.map_cons, List.cons_append]
    exact List.perm_middle.symm
  constructor
  case arrived =>
    rw [hdeliver]
    intro m' msg' hmem
    rcases List.mem_cons.mp hmem with he | hmem
    · cases he
      exact hm
    · exact h.arrived m' msg' hmem
  case framed => exact fun m' hm' => h.framed m' (hperm.mem_iff.mp hm')
  case unique => exact (hperm.map _).nodup_iff.mpr h.unique
  case waiting =>
    intro i m' hm'
    rw [hdeliver] at hm'
    obtain ⟨hmem, hsender⟩ := h.waiting i m' hm'
    exact ⟨hperm.mem_iff.mpr hmem, hsender⟩
  case mail =>
    intro i reply hreply
    rw [hdeliver] at hreply ⊢
    obtain ⟨m', hm', hreplies⟩ := h.mail i reply hreply
    exact ⟨m', hm', hreplies.mono (List.suffix_cons _ _)⟩

-- ---------------------------------------------------------------------------
-- What it brings, checked
-- ---------------------------------------------------------------------------

instance (msg written : List UInt8) : Decidable (Delivers pl msg written) :=
  decidable_of_iff (written.length = msg.length ∧ written.take 4 = msg.take 4 ∧
      written.drop pl.sizeofPortMessage = msg.drop pl.sizeofPortMessage)
    ⟨fun ⟨h, h', h''⟩ => ⟨h, h', h''⟩, fun ⟨h, h', h''⟩ => ⟨h, h', h''⟩⟩

instance (m : Packet ι) (written : List UInt8) : Decidable (m.ArrivesAs pl written) :=
  decidable_of_iff (Delivers pl m.bytes written ∧ kindOf pl written = m.kind ∧
      (headerOf pl written).messageId = m.messageId)
    ⟨fun ⟨h, h', h''⟩ => ⟨h, h', h''⟩, fun ⟨h, h', h''⟩ => ⟨h, h', h''⟩⟩

def Net.canBring (N : Net ι) (pl : Platform) : Party ι → (o : Op) → Ret o → Bool
  | .server, .alpcSendWaitReceivePort a, r => !Ledger.isReceive a ||
    N.queue.head?.any fun m => m.ArrivesAs pl r.written
  | .client i, .alpcSendWaitReceivePort a, r => !isSync a ||
    (N.waiting i).any (fun m => r.taken = m.bytes) &&
      (N.mail i).any fun reply => Delivers pl reply r.written
  | _, _, _ => true

theorem brings_of_canBring {N : Net ι} {p : Party ι} {o : Op} {r : Ret o}
    (h : N.canBring pl p o r = true) : N.Brings pl p o r := by
  cases o with
  | alpcSendWaitReceivePort a =>
    cases p with
    | server =>
      intro hreceive _
      simp only [Net.canBring, hreceive, Bool.not_true, Bool.false_or, Option.any_eq_true,
        decide_eq_true_eq] at h
      obtain ⟨m, hm, harrives⟩ := h
      obtain ⟨rest, hqueue⟩ := List.head?_eq_some_iff.mp hm
      exact ⟨m, rest, hqueue, harrives⟩
    | client i =>
      intro hsync _
      simp only [Net.canBring, hsync, Bool.not_true, Bool.false_or, Bool.and_eq_true,
        Option.any_eq_true, decide_eq_true_eq] at h
      obtain ⟨⟨m, hm, htaken⟩, reply, hreply, hdelivers⟩ := h
      exact ⟨m, reply, hm, htaken, hreply, hdelivers⟩
  | _ => cases p <;> trivial

section Transitions

variable [DecidableEq ι]

theorem packets_send (i : ι) (a : SendWaitReceive) (posted : Option Posted) :
    (N.send i a posted).packets = N.packets ++
      (posted.map fun m => ⟨i, kindSent a, m.messageId, m.taken⟩).toList := by
  simp [Net.packets, Net.send]

theorem Net.Sound.send (h : N.Sound pl svc) {i : ι} {a : SendWaitReceive} {posted : Option Posted}
    (hframed : ∀ m, posted = some m → ∃ bs,
      pl.sizeofPortMessage + bs.length ≤ pl.alpcMaxAllowedMessageLength ∧ m.taken = frame pl bs)
    (hfresh : ∀ m, posted = some m → ∀ q ∈ N.packets, q.messageId ≠ m.messageId) :
    (N.send i a posted).Sound pl svc where
  arrived := h.arrived
  framed := by
    rw [packets_send]
    intro m hm
    rcases List.mem_append.mp hm with hm | hm
    · exact h.framed m hm
    · obtain ⟨p, hp, rfl⟩ := Option.map_eq_some_iff.mp (Option.mem_toList.mp hm)
      refine ⟨hframed p hp, ?_⟩
      simp only [kindSent]
      split
      · exact .inl rfl
      · exact .inr rfl
  unique := by
    rw [packets_send, List.map_append]
    cases posted with
    | none => simpa using h.unique
    | some m =>
      refine List.nodup_append.mpr ⟨h.unique, List.nodup_singleton _, ?_⟩
      intro x hx y hy
      obtain ⟨q, hq, rfl⟩ := List.mem_map.mp hx
      rw [List.mem_singleton.mp hy]
      exact hfresh m rfl q hq
  waiting := by
    rw [packets_send]
    intro j m hm
    by_cases hj : j = i
    · subst hj
      simp only [Net.send, Function.update_self] at hm
      split at hm
      · obtain ⟨p, rfl, rfl⟩ := Option.map_eq_some_iff.mp hm
        exact ⟨List.mem_append_right _ (List.mem_singleton_self _), rfl⟩
      · cases hm
    · simp only [Net.send, Function.update_of_ne hj] at hm
      obtain ⟨hmem, hsender⟩ := h.waiting j m hm
      exact ⟨List.mem_append_left _ hmem, hsender⟩
  mail := by
    intro j reply hreply
    by_cases hj : j = i
    · subst hj
      simp [Net.send] at hreply
    · simp only [Net.send, Function.update_of_ne hj] at hreply ⊢
      exact h.mail j reply hreply

theorem Net.Sound.done (h : N.Sound pl svc) (i : ι) : Net.Sound pl svc
    { N with waiting := Function.update N.waiting i none, mail := Function.update N.mail i none }
    where
  arrived := h.arrived
  framed := h.framed
  unique := h.unique
  waiting := by
    intro j m hm
    by_cases hj : j = i
    · subst hj
      simp at hm
    · simp only [Function.update_of_ne hj] at hm
      exact h.waiting j m hm
  mail := by
    intro j reply hreply
    by_cases hj : j = i
    · subst hj
      simp at hreply
    · simp only [Function.update_of_ne hj] at hreply ⊢
      exact h.mail j reply hreply

end Transitions

end AlpcResearch.Rpc
