import AlpcResearch.Channel.Contexts
import AlpcResearch.Channel.Exchange
import AlpcResearch.Channel.Workers
import AlpcResearch.Ua.Framing

/-!
# The worker and its clients

`UaServerWorker` among clients that connect to its port, send to it and close
their handles, each running what it likes. The kernel of the network keeps the
promise under which the session ledger holds, so the ledger holds here, and is
what the clients take it to be.
-/

namespace AlpcResearch

open Resource Program Process
open Rpc (Party)
open Channel hiding Opens

namespace Ua

variable {pl : Platform} {server : ServerObject} {A : Assumption} {P₀ : Process}
variable {w₀ w v : World} {msg : List UInt8} {ctx : PVoid}

theorem uaReject_orderly (h : Answering pl (endpoint pl server) w) (hq : Quiet pl w v)
    (hv : Orderly pl v) (hs : Shows (endpoint pl server) (ledger pl w.log).message v.state) :
    (do let _ ← alpcAcceptConnectPort (uaReject server); return statusSuccess).safe
      (system pl A) (Orderly pl) (fun _ _ => True) v := by
  refine ⟨hv, fun r hr => ⟨h.refuses hq.2 (.inl rfl) rfl ?_, trivial⟩⟩
  rw [uaReject_quiet (hq.serving h.serving) hr.1]
  exact hs

theorem uaAlpcConnect_orderly (h : Answering pl (endpoint pl server) w) (hw : Orderly pl w) :
    (uaAlpcConnect pl server).safe (system pl A) (Orderly pl) (fun _ _ => True) w := by
  refine orderly_call (by rintro _ ⟨⟩) hw fun r _ o₁ => ?_
  have q₁ : Quiet pl w ((system pl A).next w (.onConnect server.onConnect server.portMessage) r) :=
    (Quiet.refl w).same rfl fun _ => rfl
  change Prog.safe _ _ (if r.accept = true then _ else _) _ _
  split
  · unfold uaAllocateZeroHeap
    rw [allocateZeroHeap_bind]
    refine orderly_call (by rintro _ ⟨⟩) o₁ fun ra hra o₂ => ?_
    cases hp : ra.pointer with
    | none =>
      have e₂ : w.state.effect pl (.allocate .crt .portContext) ra = w.state :=
        effect_eq_self (by simp [heapAfter, hp]) rfl rfl
      simp only [ne_eq, not_true_eq_false, if_false]
      exact uaReject_orderly h (q₁.same e₂ fun _ => rfl) o₂
        (h.shows_.same (congrArg Process.heap e₂))
    | some p =>
      simp only [ne_eq, reduceCtorEq, not_false_eq_true, if_true]
      obtain ⟨q, c, rfl, p₁⟩ : ∃ q c, p = ⟨q, 0⟩ ∧ Pending w.state _ q c :=
        pending_allocate hra.1 hp
      refine orderly_call (by rintro _ ⟨⟩) o₂ fun _ _ o₃ => ?_
      have p₂ := Pending.zero pl p₁
      refine orderly_call (by rintro _ ⟨⟩) o₃ fun bs _ o₄ => ?_
      have p₃ := p₂.of_eq (effect_load pl (h.serving.pending p₂) (clientId_fits pl server) bs)
      refine orderly_call (by rintro _ ⟨⟩) o₄ fun _ _ o₅ => ?_
      have p₄ := Pending.setClientId pl p₃ (ClientId.ofBytes pl bs)
      refine ⟨o₅, fun rc hrc => ?_⟩
      refine safe_ifFailed (fun hs => ?_) fun hs => ?_
      · obtain ⟨x, hx, hg⟩ := Pending.accept p₄ h.serving rfl rfl rfl hrc.1 hs
        exact ⟨h.accepts rfl rfl hs rfl rfl hg, trivial⟩
      · have e₅ := Pending.accept_failed p₄ h.serving rfl rfl rfl hrc.1 hs
        have p₅ := p₄.of_eq e₅
        have s₅ := h.shows_.pending p₅
        refine ⟨h.refuses rfl (.inr hs) rfl s₅, fun rj hrj => ?_⟩
        have p₆ := p₅.of_eq (uaReject_quiet (h.serving.pending p₅) hrj.1)
        refine orderly_of_uses ⟨by rintro _ ⟨⟩, fun _ => trivial⟩
          (h.refuses ?_ (.inl rfl) rfl (h.shows_.pending p₆))
        simp [ledger, Ledger.add, hs]
  · exact uaReject_orderly h q₁ o₁ h.shows_

theorem uaDispatch_orderly (h : AtHead pl server w₀ w) (hv : Orderly pl v)
    (hr : Received pl (endpoint pl server) msg ctx w v) :
    (uaDispatch pl server (kindOf pl msg)).safe (system pl A) (Orderly pl) (fun _ _ => True) v := by
  refine safe_dispatch (fun _ => ?_) (fun _ => ?_) (fun _ => ?_) (fun hc => ?_) fun _ _ _ _ => ?_
  · exact orderly_of_uses ⟨by rintro _ ⟨⟩, fun _ => ⟨by rintro _ ⟨⟩, fun _ => trivial⟩⟩ hv
  · refine orderly_of_uses ⟨by rintro _ ⟨⟩, fun r => ?_⟩ hv
    change Prog.Uses _ (if r = none then _ else _)
    split
    · trivial
    · refine ⟨by rintro _ ⟨⟩, fun _ => ⟨by rintro _ ⟨⟩, fun bs => ?_⟩⟩
      change Prog.Uses _ (if UInt16.ofNat (leNat bs) &&& lpcContinuationRequired ≠ 0 then _ else _)
      split
      · exact ⟨by rintro _ ⟨⟩, fun _ => trivial⟩
      · trivial
  · refine orderly_of_uses ⟨by rintro _ ⟨⟩, fun r => ?_⟩ hv
    change Prog.Uses _ (if r = none then _ else _)
    split
    · trivial
    · exact ⟨by rintro _ ⟨⟩, fun _ => ⟨by rintro _ ⟨⟩, fun _ => ⟨by rintro _ ⟨⟩, fun _ =>
        ⟨by rintro _ ⟨⟩, fun _ => trivial⟩⟩⟩⟩
  · exact uaAlpcConnect_orderly (h.toInOrder.answering hr hc) hv
  · exact ⟨hv, trivial⟩

theorem uaServerWorker_orderly (h : AtHead pl server w₀ w) (hw : Orderly pl w) :
    (uaServerWorker pl server).safe (system pl A) (Orderly pl) (fun _ v => Orderly pl v) w := by
  have hserving := h.consistent.serving
  refine safe_imp (Q := fun _ _ => True) ?_ (fun _ hv => hv) fun _ _ hv _ => hv
  refine orderly_call (by rintro _ ⟨⟩) hw fun r hr o₁ => ?_
  refine safe_ifFailed (fun hs => ?_) fun _ => ⟨o₁, trivial⟩
  have hrec := received (A := A) hserving hr.1 hs
  refine safe_bind (orderly_call (by rintro _ ⟨⟩) o₁ fun bs hbs o₂ => ?_)
  have hkind := hrec.kind hbs.1
  have e₁ := effect_load pl (hserving.keeps hrec.keeps) (type_inside pl server) bs
  have hrec := hrec.of_state (A := A) (o := .load server.portMessage _ _) e₁ fun _ => rfl
  change Prog.safe _ _ (uaDispatch pl server (lobyte (UInt16.ofNat (leNat bs)))) _ _
  rw [hkind]
  refine safe_imp (uaDispatch_orderly h o₂ hrec) (fun _ hv => hv) fun status v hv _ => ?_
  by_cases hs' : ntSuccess status = true
  · simp only [hs', Bool.not_true, Bool.false_eq_true, if_false]
    exact ⟨hv, trivial⟩
  · simp only [hs', Bool.not_false, if_true]
    exact ⟨hv, trivial⟩

structure Attending (pl : Platform) (server : ServerObject) (P₀ : Process) (w : World) : Prop
    extends AtHead pl server ⟨P₀, []⟩ w where
  orderly : Orderly pl w
  namedOnce : NamedOnce pl w

/-- The loop is left when a receive has failed, and never else. -/
theorem LeftBy.receive (hA : ∀ w o r, A w o r → exactClose w o r) (h : LeftBy pl A server w₀ w) :
    ReceiveFailed pl server w ∧ AtHead pl server w₀ w := by
  rcases h.cause with hreceive | ⟨u, x, status, hlegal, hlive, hfail⟩
  · exact hreceive
  · have hclose : ntSuccess status = true := (hA _ _ _ hlegal.2).mpr (by simp [hlive])
    cases hfail.symm.trans hclose

theorem uaServerWorker_attends (h : Serving (endpoint pl server) P₀) :
    Attends pl (uaServerWorker pl server) P₀ (Attending pl server P₀)
      (fun _ u => ReceiveFailed pl server u ∧ AtHead pl server ⟨P₀, []⟩ u) where
  start := by
    refine ⟨⟨⟨.start h, by simp [ledger, Ledger.empty]⟩, .start P₀, rfl⟩, .start P₀, ?_⟩
    simp [NamedOnce, ledger, Ledger.empty, Ledger.disconnected]
  round := by
    intro v hv
    have hsafe := uaServerWorker_safe (A := peers pl)
      (fun _ _ _ h => once_any h.1) (UntilNamedTwice.once hv.namedOnce hv.toAtHead)
    have hnamed : (uaServerWorker pl server).safe (system pl (peers pl))
        (NamedOnce pl) (fun _ => NamedOnce pl) v :=
      safe_of_step (namedOnce_step fun _ _ _ h => h.1) (fun _ h => h) (fun _ _ h => h) hv.namedOnce
    have horderly := uaServerWorker_orderly (A := peers pl) hv.toAtHead
      hv.orderly
    refine safe_imp (safe_both hsafe (safe_both hnamed horderly)) ?_ ?_
    · rintro u ⟨hf, hn, ho⟩
      exact ⟨ho, hf hn⟩
    · rintro (_ | status) u _ ⟨hafter, hn, ho⟩
      · exact ⟨hafter.1 hn, ho, hn⟩
      · exact (hafter.1 hn).receive fun _ _ _ h => h.2

-- ---------------------------------------------------------------------------
-- All interleavings
-- ---------------------------------------------------------------------------

variable {ι κ : Type} [DecidableEq ι] {site : Site ι} {program : κ → Proc NtStatus}
variable {P Q : NetPool ι κ}

/-- Whatever its clients run, and however that is interleaved with the rounds
of the worker, both ends agree on every connection; between two rounds the
server's contexts are those of the connections; and only a receive that fails
ends the loop. -/
theorem connections_mirrored (hs : Serving (endpoint pl server) P₀)
    (hworker : site.worker = uaServerWorker pl server) (h₀ : Channel.Opens P₀ Q)
    (h : (channel pl site program).Reaches anyStep Q P) :
    Agreed pl site P₀ P.world ∧ ∀ task ended, P.threads .server = (task, .ret ended) →
      Mirrors site P₀ P.world.state ∧
        ∀ status, ended = .leave status → ReceiveFailed pl server (view .server P.world) := by
  have hattends := hworker ▸ uaServerWorker_attends hs
  obtain ⟨hagreed, hended⟩ := hattends.reaches h₀ h
  refine ⟨hagreed, fun task ended ht => ?_⟩
  have hidle := accepting_idle (h₀.idle h ht)
  have hended := hended task ended ht
  cases ended with
  | again => exact ⟨hagreed.mirrors hidle hended.sessionLedger, nofun⟩
  | leave status =>
    obtain ⟨hfailed, hhead⟩ := hended
    exact ⟨hagreed.mirrors hidle hhead.sessionLedger, fun _ _ => hfailed⟩

/-- Both are waiting when the worker gets to them; the first leaves before the
second has been accepted. -/
theorem connections_mirrored_two : ∃ P : NetPool Bool Bool,
    Agreed .x64 (portOfTwo (uaServerWorker .x64 receiver)) (receiverProcess .x64) P.world ∧
      Mirrors (portOfTwo (uaServerWorker .x64 receiver)) (receiverProcess .x64) P.world.state ∧
      P.world.state.connections.map (fun c => (c.client, c.closed)) =
        [(true, false), (false, true)] := by
  let site := portOfTwo (uaServerWorker .x64 receiver)
  let turns : List (Turn (Party Bool) (Channel.Task Bool)) :=
    List.flatten [
      Turn.calling (.client false) (.run true) 11, Turn.calling (.client true) (.run false) 11,
      Turn.calling .server .serve 16, Turn.acting (.client false) 5,
      Turn.calling .server .serve 16, Turn.acting (.client true) 3,
      Turn.calling .server .serve 14]
  have hrun : ((channel .x64 site (visit .x64)).play (exchange Bool .x64 site [false, true]) turns
      (beforeTwo (receiverProcess .x64))).any (fun P => (P.returned .server).map Prod.snd = some .again &&
        P.world.state.connections.map (fun c => (c.client, c.closed)) =
          [(true, false), (false, true)]) := by
    decide +kernel
  obtain ⟨P, hP, hstate⟩ := (Option.any_eq_true _ _).mp hrun
  obtain ⟨hreturned, hconnections⟩ := Bool.and_eq_true .. ▸ hstate
  obtain ⟨task, ht⟩ := threads_of_returned (of_decide_eq_true hreturned)
  obtain ⟨hagreed, hmirrors⟩ := connections_mirrored (receiver_serving .x64) rfl
    (beforeTwo_opens _) (play_reaches exchange_sound hP)
  exact ⟨P, hagreed, (hmirrors task _ ht).1, of_decide_eq_true hconnections⟩

end Ua

end AlpcResearch
