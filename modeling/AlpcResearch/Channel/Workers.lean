import AlpcResearch.Channel.Sessions

/-!
# What a worker shows the kernel

A worker that answers connection requests out of the buffer it receives in, and
accepts each with a block it has just allocated, keeps to `Orderly`. Only the
handler of connection requests has anything to do with it
(`orderly_of_uses`).
-/

namespace AlpcResearch

open Resource Program Process

variable {pl : Platform} {A : Assumption} {e : Endpoint} {w v : World} {msg : List UInt8}

/-- The `MessageId` in a buffer that shows the message is that of the message. -/
theorem Shows.presented {P : Process} (h : Shows e msg P)
    (hlen : pl.sizeofPortMessage ≤ msg.length) :
    Channel.presentedId pl P e.message = some (headerOf pl msg).messageId := by
  obtain ⟨q, data, hm, hq, hdata⟩ := h
  have hat : P.at? (some ⟨q, 0⟩) = some (.buffer e.capacity data) := at?_live hq
  have hfield := hdata (PortMessage.offMessageId pl) 4 (messageId_in_header.trans hlen)
  simp only [Channel.presentedId, hm, hat, Nat.zero_add, hfield]
  rfl

theorem Shows.gains {P P' : Process} (h : Shows e msg P) (g : Gains P P' q x cid) :
    Shows e msg P' := by
  obtain ⟨b, data, hm, hb, hdata⟩ := h
  have hne : b ≠ q := by
    rintro rfl
    cases g.block_free.symm.trans hb
  exact ⟨b, data, hm, by simpa [g.heap, hne] using hb, hdata⟩

namespace Channel

def Unanswering (o : Op) : Prop := ∀ a, o ≠ .alpcAcceptConnectPort a

theorem contexts_next {o : Op} (ho : Unanswering o) (r : Ret o) :
    (ledger pl ((system pl A).next v o r).log).contexts = (ledger pl v.log).contexts := by
  simp only [next_log, ledger]
  cases o with
  | alpcSendWaitReceivePort a =>
    simp only [Ledger.add]
    split <;> rfl
  | alpcAcceptConnectPort a => exact absurd rfl (ho a)
  | _ => rfl

theorem Orderly.start (P₀ : Process) : Orderly pl ⟨P₀, []⟩ where
  contexts := by simp [ledger, Ledger.empty, Ledger.contexts]
  presented := nofun

theorem Orderly.next {o : Op} {r : Ret o} (h : Orderly pl v) (ho : Unanswering o) :
    Orderly pl ((system pl A).next v o r) where
  contexts := (contexts_next ho r).symm ▸ h.contexts
  presented a r' rest he := by
    cases he
    exact absurd rfl (ho a)

theorem orderly_call {o : Op} {k : Ret o → Proc α} {Q : α → World → Prop} (ho : Unanswering o)
    (h : Orderly pl v) (hk : ∀ r, (system pl A).legal v o r →
      Orderly pl ((system pl A).next v o r) →
      (k r).safe (system pl A) (Orderly pl) Q ((system pl A).next v o r)) :
    (Prog.call o k).safe (system pl A) (Orderly pl) Q v :=
  ⟨h, fun r hr => hk r hr (h.next ho)⟩

theorem orderly_of_uses {p : Proc α} (hp : p.Uses Unanswering) (h : Orderly pl w) :
    p.safe (system pl A) (Orderly pl) (fun _ _ => True) w :=
  safe_of_uses (K := Orderly pl) hp (fun _ _ _ ho _ h => h.next ho) (fun _ h => h)
    (fun _ _ _ => trivial) h

/-- The worker answers the request it has received last. -/
structure Answering (pl : Platform) (e : Endpoint) (w : World) : Prop where
  serving : Serving e w.state
  shows_ : Shows e (ledger pl w.log).message w.state
  length : pl.sizeofPortMessage ≤ (ledger pl w.log).message.length
  contexts : (ledger pl w.log).contexts.Nodup
  /-- A block handed out from now on is no connection's. -/
  fresh : ∀ q, w.state.heap.next ≤ q.serial → some ⟨q, 0⟩ ∉ (ledger pl w.log).contexts

/-- An answer that opens no connection. -/
theorem Answering.refuses {a : AcceptConnectPort} {r : AcceptReply} (h : Answering pl e w)
    (hl : ledger pl v.log = ledger pl w.log)
    (hrefused : a.acceptConnection = false ∨ ¬ ntSuccess r.status = true)
    (hrequest : a.connectionRequest = e.message)
    (hshows : Shows e (ledger pl w.log).message (v.state.effect pl (.alpcAcceptConnectPort a) r)) :
    Orderly pl ((system pl A).next v (.alpcAcceptConnectPort a) r) where
  contexts := by
    have hsame : ((ledger pl v.log).add pl ⟨.alpcAcceptConnectPort a, r⟩).contexts =
        (ledger pl w.log).contexts := by
      rcases hrefused with ha | hs
      · simp [Ledger.add, ha, hl, Ledger.contexts, Ledger.reject_accepted]
      · simp only [Ledger.add, hs, hl, Bool.false_eq_true, if_false]
        split <;> rfl
    exact hsame ▸ h.contexts
  presented a' r' rest he := by
    cases he
    rw [hl, hrequest]
    exact hshows.presented h.length

theorem Answering.accepts {a : AcceptConnectPort} {r : AcceptReply} (h : Answering pl e w)
    (hl : ledger pl v.log = ledger pl w.log) (ha : a.acceptConnection = true)
    (hs : ntSuccess r.status = true) (hcontext : a.portContext = some ⟨q, 0⟩)
    (hrequest : a.connectionRequest = e.message)
    (hg : Gains w.state (v.state.effect pl (.alpcAcceptConnectPort a) r) q x cid) :
    Orderly pl ((system pl A).next v (.alpcAcceptConnectPort a) r) where
  contexts := by
    simp only [next_log, ledger, Ledger.add, ha, if_true, hs, Ledger.accept_contexts, hl, hcontext]
    exact List.nodup_cons.mpr ⟨h.fresh q hg.newBlock, h.contexts⟩
  presented a' r' rest he := by
    cases he
    rw [hl, hrequest]
    exact (h.shows_.gains hg).presented h.length

end Channel

/-- A request that has been received by a worker in order. -/
theorem InOrder.answering {w v : World} {ctx : PVoid} (h : InOrder pl e w)
    (hr : Received pl e msg ctx w v) (hc : kindOf pl msg = lpcConnectionRequest) :
    Channel.Answering pl e v := by
  have hv := (h.requested hr hc).1
  have hmessage : (ledger pl v.log).message = msg := by rw [hr.ledger]; rfl
  exact ⟨hv.serving, hmessage.symm ▸ hr.shows_, hmessage.symm ▸ hr.length, hv.contexts,
    fun _ hq => hv.new_context hq⟩

end AlpcResearch
