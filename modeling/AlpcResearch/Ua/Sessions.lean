import AlpcResearch.Sessions.Disconnects
import AlpcResearch.Ua.Handlers

/-!
# The sessions of a server

The worker's loop against any kernel that finds allocated attributes and
names known connections in its disconnect messages. As long as no connection
is named twice the process agrees with the ledger at every head and nothing
goes wrong; as soon as one is, the worker has used a context it had freed.
-/

namespace AlpcResearch

open Resource Program Process

variable {pl : Platform} {A : Assumption} {w₀ w v : World}

namespace Ua

variable {server : ServerObject}

structure AtHead (pl : Platform) (server : ServerObject) (w₀ w : World) : Prop
    extends InOrder pl (endpoint pl server) w where
  framed : Framed w₀.state w.state (ledger pl w.log).sessions
  faults : w.state.faults = w₀.state.faults

def HandlesKept (w₀ w : World) : Prop :=
  ∀ h k, w₀.state.handles.get? h = some k → w.state.handles.get? h = some k

/-- The state after a message, given what its handler returned. Only a handle
that is open and yet cannot be closed makes a handler fail. -/
structure AfterMessage (pl : Platform) (A : Assumption) (server : ServerObject) (w₀ : World)
    (status : NtStatus) (w : World) : Prop where
  head : ntSuccess status = true → AtHead pl server w₀ w
  faults : w.state.faults = w₀.state.faults
  handles : HandlesKept w₀ w
  failed : ntSuccess status = false → ∃ u x, (system pl A).legal u (.close (some x)) status ∧
    u.state.handles.get? x = some .communicationPort

theorem AtHead.handle_ne (h : AtHead pl server w₀ w) (hs : s ∈ (ledger pl w.log).sessions)
    (hr : w₀.state.handles.get? r = some k) : s.handle ≠ some r := by
  intro he
  obtain ⟨q, x, hat, -⟩ := h.consistent.entries.entry s hs
  cases he.symm.trans hat.handle
  cases hr.symm.trans (h.framed.fresh s hs q r hat).2

theorem AtHead.handles (h : AtHead pl server w₀ w) : HandlesKept w₀ w := fun r _ hr =>
  (h.framed.others r fun _ hs => h.handle_ne hs hr).trans hr

theorem AfterMessage.ok (h : AtHead pl server w₀ w) :
    AfterMessage pl A server w₀ statusSuccess w :=
  ⟨fun _ => h, h.faults, h.handles, fun h => nomatch h⟩

variable {msg : List UInt8} {ctx : PVoid} {s : Session}

theorem AtHead.still (h : AtHead pl server w₀ w) (hq : Quiet pl w v) : AtHead pl server w₀ v where
  toInOrder := h.toInOrder.still hq
  framed := hq.2 ▸ h.framed.keeps hq.1
  faults := hq.1.faults.trans h.faults

theorem AtHead.quiet (h : AtHead pl server w₀ w) (hr : Received pl (endpoint pl server) msg ctx w v)
    (hk : ¬ isDisconnect (kindOf pl msg) = true) (hc : kindOf pl msg ≠ lpcConnectionRequest)
    (hq : Quiet pl v u) : AtHead pl server w₀ u where
  toInOrder := h.toInOrder.quiet hr hk hc hq
  framed := by
    rw [hq.2, hr.ledger, Ledger.sessions_other hk]
    exact h.framed.keeps (hr.keeps.trans hq.1)
  faults := (hr.keeps.trans hq.1).faults.trans h.faults

theorem AtHead.request (h : AtHead pl server w₀ w)
    (hr : Received pl (endpoint pl server) msg ctx w v)
    (hc : kindOf pl msg = lpcConnectionRequest) (ha : Answered pl v u) :
    AtHead pl server w₀ u := by
  have hv := (h.toInOrder.requested hr hc).1
  have hframed : Framed w₀.state v.state (ledger pl v.log).sessions := by
    rw [hr.ledger, Ledger.sessions_other (not_disconnect_of_request hc)]
    exact h.framed.keeps hr.keeps
  rcases ha with ⟨q, x, hg, hl⟩ | ⟨hkeeps, hl⟩
  · have hnew : some ⟨q, 0⟩ ∉ (ledger pl v.log).disconnected := fun hmem =>
      hv.new_context hg.newBlock (hv.disconnected _ hmem)
    constructor
    case toInOrder => exact h.toInOrder.accepted hr hc hg hl
    case framed =>
      rw [hl, Ledger.sessions_accept hnew]
      exact hframed.gains hv.entries hg
    case faults => exact (hg.faults.trans hr.keeps.faults).trans h.faults
  · constructor
    case toInOrder => exact h.toInOrder.rejected hr hc (hv.keeps hkeeps) hl
    case framed => exact hl ▸ hframed.keeps hkeeps
    case faults => exact (hkeeps.faults.trans hr.keeps.faults).trans h.faults

theorem AtHead.disconnect (h : AtHead pl server w₀ w)
    (hr : Received pl (endpoint pl server) msg ctx w v)
    (hk : isDisconnect (kindOf pl msg) = true) (hs : s ∈ (ledger pl w.log).sessions)
    (hctx : s.context = ctx) (hat : s.At q x)
    (ht : TornDown pl A q x v status u) : AfterMessage pl A server w₀ status u := by
  obtain ⟨hloss, hl, u', hlegal, hlive⟩ := id ht
  have hfaults := (hloss.faults.trans hr.keeps.faults).trans h.faults
  refine ⟨fun hsuccess => ?_, hfaults, fun r k hr' => ?_, fun _ => ⟨u', x, hlegal, hlive⟩⟩
  · have hloss := ht.loses hsuccess
    constructor
    case toInOrder => exact h.toInOrder.disconnected hr hk hs hctx hat hloss hl
    case framed =>
      have hentries := (h.consistent.keeps hr.keeps).entries
      rw [hl, hr.ledger, Ledger.sessions_disconnect hk, ← hctx]
      exact (h.framed.keeps hr.keeps).loses hentries hs hat hloss
    case faults => exact hfaults
  · have hne : some r ≠ closeHandle status (some x) := by
      unfold closeHandle
      split
      · exact fun he => h.handle_ne hs hr' (hat.handle.trans he.symm)
      · exact Option.some_ne_none r
    rw [hloss.handles, if_neg hne, hr.keeps.handles]
    exact h.handles r k hr'

def FaultFree (pl : Platform) (w₀ v : World) : Prop :=
  NamedOnce pl v → v.state.faults = w₀.state.faults

theorem quiet_safe (h : AtHead pl server w₀ w) (hn : NamedOnce pl w)
    (hr : Received pl (endpoint pl server) msg ctx w v) (hk : ¬ isDisconnect (kindOf pl msg) = true)
    (hc : kindOf pl msg ≠ lpcConnectionRequest) {p : Proc NtStatus}
    (hp : p.safe (system pl A) (fun u => u.state.faults = v.state.faults)
      (fun status u => status = statusSuccess ∧ Quiet pl v u) v) :
    p.safe (system pl A) (FaultFree pl w₀) (fun status u =>
      UntilNamedTwice pl w₀ (AfterMessage pl A server w₀ status) u) v := by
  refine safe_imp hp (fun u hu _ => hu.trans (hr.keeps.faults.trans h.faults)) ?_
  rintro status u - ⟨rfl, hq⟩
  refine .once ?_ (.ok (h.quiet hr hk hc hq))
  simpa only [NamedOnce, hq.2, hr.ledger, Ledger.receive_other hk] using hn

theorem uaDispatch_disconnect (hA : ∀ w o r, A w o r → sessionKernel pl anyDisconnect w o r)
    (h : AtHead pl server w₀ w) (hn : NamedOnce pl w) (hr : Received pl (endpoint pl server) msg ctx w v)
    (hk : isDisconnect (kindOf pl msg) = true) (hctx : ctx ∈ (ledger pl w.log).contexts) :
    (uaAlpcDisconnect server).safe (system pl A) (FaultFree pl w₀)
      (fun status u => UntilNamedTwice pl w₀ (AfterMessage pl A server w₀ status) u) v := by
  obtain ⟨s, hs, rfl⟩ := List.mem_map.mp hctx
  obtain ⟨q, x, hat, -⟩ := h.consistent.known s hs
  have hdisconnected : (ledger pl v.log).disconnected =
      s.context :: (ledger pl w.log).disconnected := by
    rw [hr.ledger, Ledger.receive_disconnect hk]
  have hcarries : Carries (endpoint pl server) (some ⟨q, 0⟩) v.state := hat.context ▸ hr.carries
  by_cases hd : s.context ∈ (ledger pl w.log).disconnected
  · -- the second message for this connection: its context is gone
    have hgone : v.state.heap.get? q = none :=
      get?_keeps_none hr.keeps (h.consistent.gone s hs hd q hat.context)
    have htwice : ∀ u : World, ledger pl u.log = ledger pl v.log → ¬ NamedOnce pl u := by
      intro u hu hn'
      rw [NamedOnce, hu, hdisconnected] at hn'
      exact (List.nodup_cons.mp hn').1 hd
    rw [uaAlpcDisconnect_eq]
    refine messageContext_safe hA (h.consistent.serving.keeps hr.keeps) hcarries
      (fun u _ hl hn' => absurd hn' (htwice u hl)) fun u hu hl => ?_
    exact closeContext_faulty (hu ▸ hgone) (htwice u hl) (by rw [hu, hr.keeps.faults.trans h.faults])
      (fun _ hn' h => absurd h hn') fun _ _ hn' hf => ⟨fun h => absurd h hn', fun _ => hf⟩
  · have hopen := Ledger.mem_sessions.mpr ⟨hs, hd⟩
    obtain ⟨hq, hx⟩ := (h.consistent.keeps hr.keeps).entries.at hopen hat
    rw [hat.handle] at hq
    refine safe_imp (uaAlpcDisconnect_safe hA (h.consistent.serving.keeps hr.keeps) hcarries hq hx)
      (fun u hu _ => hu.trans (hr.keeps.faults.trans h.faults)) ?_
    intro status u _ ht
    refine .once ?_ (h.disconnect hr hk hopen rfl hat ht)
    rw [NamedOnce, ht.2.1, hdisconnected]
    exact List.nodup_cons.mpr ⟨hd, hn⟩

theorem uaDispatch_request (h : AtHead pl server w₀ w) (hn : NamedOnce pl w)
    (hr : Received pl (endpoint pl server) msg ctx w v) (hc : kindOf pl msg = lpcConnectionRequest) :
    (uaAlpcConnect pl server).safe (system pl A) (FaultFree pl w₀)
      (fun status u => UntilNamedTwice pl w₀ (AfterMessage pl A server w₀ status) u) v := by
  have hmessage : (ledger pl v.log).message = msg := by rw [hr.ledger]; rfl
  have hconnect := uaAlpcConnect_safe (A := A) (h.consistent.serving.keeps hr.keeps) (hmessage.symm ▸ hr.shows_)
    (hmessage.symm ▸ hr.length)
  refine safe_imp hconnect (fun u hu _ => hu.trans (hr.keeps.faults.trans h.faults)) ?_
  rintro status u - ⟨rfl, ha⟩
  refine .once ?_ (.ok (h.request hr hc ha))
  have hv : NamedOnce pl v := by
    simpa only [NamedOnce, hr.ledger, Ledger.receive_other (not_disconnect_of_request hc)] using hn
  rcases ha with ⟨q, x, -, hl⟩ | ⟨-, hl⟩
  · rw [NamedOnce, hl]
    exact hv
  · rw [NamedOnce, hl]
    exact hv

theorem uaDispatch_safe (hA : ∀ w o r, A w o r → sessionKernel pl anyDisconnect w o r)
    (h : AtHead pl server w₀ w) (hn : NamedOnce pl w) (hr : Received pl (endpoint pl server) msg ctx w v)
    (hknown : isDisconnect (kindOf pl msg) = true → ctx ∈ (ledger pl w.log).contexts) :
    (uaDispatch pl server (kindOf pl msg)).safe (system pl A) (FaultFree pl w₀)
      (fun status u => UntilNamedTwice pl w₀ (AfterMessage pl A server w₀ status) u) v := by
  have hserving := h.consistent.serving.keeps hr.keeps
  refine safe_dispatch (fun he => ?_) (fun he => ?_) (fun hk => ?_) (fun he => ?_)
    fun _ _ hk he => ?_
  · exact quiet_safe h hn hr (by rw [he]; decide) (by rw [he]; decide) (uaAlpcRequest_safe hserving)
  · exact quiet_safe h hn hr (by rw [he]; decide) (by rw [he]; decide)
      (uaAlpcDatagram_safe hA hserving)
  · exact uaDispatch_disconnect hA h hn hr hk (hknown hk)
  · exact uaDispatch_request h hn hr he
  · exact quiet_safe h hn hr hk he ⟨rfl, rfl, .refl v⟩

-- ---------------------------------------------------------------------------
-- A round of the worker
-- ---------------------------------------------------------------------------

/-- The last thing that happened is that the worker's receive failed. -/
def ReceiveFailed (pl : Platform) (server : ServerObject) (w : World) : Prop :=
  ∃ r rest, w.log = ⟨.alpcSendWaitReceivePort (uaReceive pl server), r⟩ :: rest ∧
    ntSuccess r.status = false

structure LeftBy (pl : Platform) (A : Assumption) (server : ServerObject) (w₀ w : World) :
    Prop where
  faults : w.state.faults = w₀.state.faults
  handles : HandlesKept w₀ w
  cause : ReceiveFailed pl server w ∧ AtHead pl server w₀ w ∨
    ∃ u x status, (system pl A).legal u (.close (some x)) status ∧
      u.state.handles.get? x = some .communicationPort ∧ ntSuccess status = false

theorem leaveUnless_safe (hI : FaultFree pl w₀ u)
    (h : UntilNamedTwice pl w₀ (AfterMessage pl A server w₀ status) u) :
    (if !ntSuccess status then pure (.leave statusSuccess) else pure .again :
      Proc (Control NtStatus)).safe (system pl A) (FaultFree pl w₀)
      (After (UntilNamedTwice pl w₀ (AtHead pl server w₀)) fun _ u =>
        UntilNamedTwice pl w₀ (LeftBy pl A server w₀) u) u := by
  by_cases hs : ntSuccess status = true
  · simp only [hs, Bool.not_true, Bool.false_eq_true, if_false]
    exact ⟨hI, fun hn => (h.1 hn).head hs, h.2⟩
  · simp only [hs, Bool.not_false, if_true]
    refine ⟨hI, fun hn => ?_, h.2⟩
    obtain ⟨v, x, hlegal, hlive⟩ := (h.1 hn).failed (by simpa using hs)
    exact ⟨(h.1 hn).faults, (h.1 hn).handles, .inr ⟨v, x, status, hlegal, hlive, by simpa using hs⟩⟩

theorem uaServerWorker_safe (hA : ∀ w o r, A w o r → sessionKernel pl anyDisconnect w o r)
    (h : UntilNamedTwice pl w₀ (AtHead pl server w₀) w) :
    (uaServerWorker pl server).safe (system pl A) (FaultFree pl w₀)
      (After (UntilNamedTwice pl w₀ (AtHead pl server w₀)) fun _ u =>
        UntilNamedTwice pl w₀ (LeftBy pl A server w₀) u) w := by
  by_cases hn : NamedOnce pl w
  swap
  · refine faulty_safe hn (h.2 hn) (fun _ hn' h => absurd h hn') fun c u hn' hf => ?_
    cases c with
    | again | leave => exact ⟨fun h => absurd h hn', fun _ => hf⟩
  have hJ := h.1 hn
  have hserving := hJ.consistent.serving
  refine ⟨fun _ => hJ.faults, fun r hr => ?_⟩
  refine safe_ifFailed (fun hs => ?_) fun hs => ?_
  · have hrec := received (A := A) hserving hr.1 hs
    have hfaults := hrec.keeps.faults.trans hJ.faults
    refine safe_bind ⟨fun _ => hfaults, fun bs hbs => ?_⟩
    have hkind := hrec.kind hbs.1
    have e₁ := effect_load pl (hserving.keeps hrec.keeps) (type_inside pl server) bs
    have hrec := hrec.of_state (A := A) (o := .load server.portMessage _ _) e₁ fun _ => rfl
    change Prog.safe _ _ (uaDispatch pl server (lobyte (UInt16.ofNat (leNat bs)))) _ _
    rw [hkind]
    refine safe_imp (uaDispatch_safe hA hJ hn hrec fun hk => ?_) (fun _ hu => hu) ?_
    · have hreceive : Ledger.isReceive (uaReceive pl server) = true := Endpoint.receives hserving
      exact (hA _ _ _ hr.2 (by simp [hs, hk, hreceive])).1
    · intro status u hu hpost
      exact leaveUnless_safe hu hpost
  · have hq : Quiet pl w ((system pl A).next w (.alpcSendWaitReceivePort (uaReceive pl server)) r) :=
      receive_failed hserving hr.1 hs
    have hn' : NamedOnce pl ((system pl A).next w _ r) := (namedOnce_congr hq.2).mpr hn
    have hhead := hJ.still hq
    refine ⟨fun _ => hhead.faults, .once hn' ?_⟩
    exact {
      faults := hhead.faults
      handles := hhead.handles
      cause := .inl ⟨⟨r, w.log, rfl, by simpa using hs⟩, hhead⟩ }

end Ua

end AlpcResearch
