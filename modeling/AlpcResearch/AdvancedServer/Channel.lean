import AlpcResearch.AdvancedServer.Sessions
import AlpcResearch.Server.Channel

/-!
# The older library and its clients

Its `SrvServerWorker` among clients that do what they like. The contexts are
those of the connections whatever happens; that the loop goes on depends on
every reply and every reject having succeeded.
-/

namespace AlpcResearch.AdvancedServer

open Resource Program Process
open Rpc (Party)
open Channel hiding Opens

variable {pl : Platform} {A : Assumption} {server : ServerObject} {P₀ : Process}
variable {w₀ w v : World} {msg : List UInt8} {ctx : PVoid}

theorem unanswering_of_harmless (o : Op) (h : Harmless o) : Unanswering o := by
  rintro a rfl
  exact h

theorem srvReject_orderly (h : Answering pl (endpoint server) w) (hstate : v.state = w.state)
    (hl : ledger pl v.log = ledger pl w.log) (hv : Orderly pl v) :
    (alpcAcceptConnectPort (srvReject server)).safe (system pl A) (Orderly pl) (fun _ _ => True)
      v := by
  refine ⟨hv, fun r hr => ⟨h.refuses hl (.inl rfl) rfl ?_, trivial⟩⟩
  rw [srvReject_same (hstate ▸ h.serving) hr.1, hstate]
  exact h.shows_

theorem srvAlpcConnect_orderly (h : Answering pl (endpoint server) w) (hw : Orderly pl w) :
    (srvAlpcConnect pl server).safe (system pl A) (Orderly pl) (fun _ _ => True) w := by
  refine orderly_call (by rintro _ ⟨⟩) hw fun bs _ o₁ => ?_
  refine orderly_call (by rintro _ ⟨⟩) o₁ fun answer _ o₂ => ?_
  let w₂ := (system pl A).next ((system pl A).next w (.load server.portMessage _ _) bs)
    (.onConnectBuffer server.onConnect (messageBody pl server.portMessage)
      (UInt16.ofNat (leNat bs)).toInt16) answer
  have e₂ : w₂.state = w.state := effect_load pl h.serving (dataLength_inside server) bs
  change Prog.safe _ _ (if answer.accept = true then _ else _) _ w₂
  split
  swap
  · exact srvReject_orderly h e₂ rfl o₂
  refine orderly_call (by rintro _ ⟨⟩) o₂ fun ra hra o₃ => ?_
  change Prog.safe _ _ (if ra.pointer ≠ none then _ else _) _ _
  cases hp : ra.pointer with
  | none =>
    have e₃ : w₂.state.effect pl (.allocate .processHeap .portContext) ra = w₂.state :=
      effect_eq_self (by simp [heapAfter, hp]) rfl rfl
    simp only [ne_eq, not_true_eq_false, if_false]
    exact srvReject_orderly h (e₃.trans e₂) rfl o₃
  | some p =>
    simp only [ne_eq, reduceCtorEq, not_false_eq_true, if_true]
    obtain ⟨q, c, rfl, p₃⟩ : ∃ q c, p = ⟨q, 0⟩ ∧ Pending w₂.state
        ((system pl A).next w₂ (.allocate .processHeap .portContext) ra).state q c :=
      pending_allocate hra.1 hp
    rw [e₂] at p₃
    refine orderly_call (by rintro _ ⟨⟩) o₃ fun bs _ o₄ => ?_
    have p₄ := p₃.of_eq (effect_load pl (h.serving.pending p₃) (clientId_inside pl server) bs)
    refine orderly_call (by rintro _ ⟨⟩) o₄ fun _ _ o₅ => ?_
    have p₅ := Pending.setClientId pl p₄ (ClientId.ofBytes pl bs)
    refine ⟨o₅, fun rc hrc => ?_⟩
    refine safe_ifFailed (fun hs => ?_) fun hs => ?_
    · obtain ⟨x, hx, hg⟩ := Pending.accept p₅ h.serving rfl rfl rfl hrc.1 hs
      exact ⟨h.accepts rfl rfl hs rfl rfl hg, trivial⟩
    · have p₆ := p₅.of_eq (Pending.accept_failed p₅ h.serving rfl rfl rfl hrc.1 hs)
      refine ⟨h.refuses rfl (.inr hs) rfl (h.shows_.pending p₆), fun rj hrj => ?_⟩
      have p₇ := p₆.of_eq (srvReject_same (h.serving.pending p₆) hrj.1)
      refine orderly_of_uses ⟨by rintro _ ⟨⟩, fun _ => trivial⟩
        (h.refuses ?_ (.inl rfl) rfl (h.shows_.pending p₇))
      simp [w₂, ledger, Ledger.add, hs]

theorem srvDispatch_orderly (h : Between pl (endpoint server) w₀ w) (hv : Orderly pl v)
    (hr : Received pl (endpoint server) msg ctx w v) :
    (srvDispatch pl server (kindOf pl msg)).safe (system pl A) (Orderly pl) (fun _ _ => True) v := by
  refine safe_dispatch (fun _ => ?_) (fun _ => ?_) (fun _ => ?_) (fun hc => ?_) fun _ _ _ _ => ?_
  · exact orderly_of_uses ⟨by rintro _ ⟨⟩, fun _ => trivial⟩ hv
  · exact orderly_of_uses (srvAlpcDatagram_uses.mono unanswering_of_harmless) hv
  · exact orderly_of_uses (srvAlpcDisconnect_uses.mono unanswering_of_harmless) hv
  · exact srvAlpcConnect_orderly (h.toInOrder.answering hr hc) hv
  · exact ⟨hv, trivial⟩

theorem srvServerWorker_orderly (h : Between pl (endpoint server) w₀ w) (hw : Orderly pl w) :
    (srvServerWorker pl server).safe (system pl A) (Orderly pl) (fun _ v => Orderly pl v) w := by
  have hserving := h.consistent.serving
  refine safe_imp (Q := fun _ _ => True) ?_ (fun _ hv => hv) fun _ _ hv _ => hv
  refine orderly_call (by rintro _ ⟨⟩) hw fun r hr o₁ => ?_
  refine safe_ifFailed (fun hs => ?_) fun _ => ⟨o₁, trivial⟩
  have hrec := received (A := A) hserving hr.1 hs
  refine safe_bind (orderly_call (by rintro _ ⟨⟩) o₁ fun bs hbs o₂ => ?_)
  have hkind := hrec.kind hbs.1
  have e₁ := effect_load pl (hserving.keeps hrec.keeps) (type_inside server) bs
  have hrec := hrec.of_state (A := A) (o := .load server.portMessage _ _) e₁ fun _ => rfl
  change Prog.safe _ _ (srvDispatch pl server (lobyte (UInt16.ofNat (leNat bs)))) _ _
  rw [hkind]
  refine safe_imp (srvDispatch_orderly h o₂ hrec) (fun _ hv => hv) fun status v hv _ => ?_
  by_cases hs' : ntSuccess status = true
  · simp only [hs', Bool.not_true, Bool.false_eq_true, if_false]
    exact ⟨hv, trivial⟩
  · simp only [hs', Bool.not_false, if_true]
    exact ⟨hv, trivial⟩

-- ---------------------------------------------------------------------------
-- Rounds
-- ---------------------------------------------------------------------------

structure Attending (pl : Platform) (server : ServerObject) (P₀ : Process) (w : World) : Prop
    extends InService pl server ⟨P₀, []⟩ w where
  orderly : Orderly pl w

theorem srvServerWorker_attends (h : Serving (endpoint server) P₀) :
    Attends pl (srvServerWorker pl server) P₀ (Attending pl server P₀)
      (LeftBy pl server ⟨P₀, []⟩) where
  start := ⟨⟨.start h rfl, .refl _⟩, .start P₀⟩
  round := by
    intro v hv
    have hsettles := srvServerWorker_settles (A := peers pl) (fun _ _ _ => Server.peers_kernel)
      hv.toInService
    have horderly := srvServerWorker_orderly (A := peers pl) hv.toBetween hv.orderly
    refine safe_imp (safe_both hsettles horderly) ?_ ?_
    · rintro u ⟨hf, ho⟩
      exact ⟨ho, hf⟩
    · rintro (_ | status) u - ⟨hafter, ho⟩
      · exact ⟨hafter, ho⟩
      · exact hafter

-- ---------------------------------------------------------------------------
-- All interleavings
-- ---------------------------------------------------------------------------

variable {ι κ : Type} [DecidableEq ι] {site : Site ι} {program : κ → Proc NtStatus}
variable {P Q : NetPool ι κ}

theorem log_granted (h : Adds Granted ⟨P₀, []⟩ w ↔ p) : (∀ e ∈ w.log, Granted e) ↔ p := by
  have hnew : newEvents ⟨P₀, []⟩ w = w.log := newEvents_eq (List.append_nil _).symm
  have hsuffix : (⟨P₀, []⟩ : World).log <:+ w.log := List.nil_suffix
  rw [← h, ← newEvents_granted hsuffix, hnew]

/-- Whatever its clients run, and however that is interleaved with the rounds
of the worker, both ends agree on every connection, and the contexts are those
of the connections between two rounds and after the last one. As long as the
loop runs nobody has been refused, and it ends with a receive that failed
exactly if nobody has been. -/
theorem older_connections_mirrored (hs : Serving (endpoint server) P₀)
    (hworker : site.worker = srvServerWorker pl server) (h₀ : Channel.Opens P₀ Q)
    (h : (channel pl site program).Reaches anyStep Q P) :
    Agreed pl site P₀ P.world ∧ ∀ task ended, P.threads .server = (task, .ret ended) →
      Mirrors site P₀ P.world.state ∧
        (ended = .again → ∀ e ∈ (view .server P.world).log, Granted e) ∧
        ∀ status, ended = .leave status →
          (ReceiveFailed server status (view .server P.world) ↔
            ∀ e ∈ (view .server P.world).log, Granted e) := by
  have hattends := hworker ▸ srvServerWorker_attends hs
  obtain ⟨hagreed, hended⟩ := hattends.reaches h₀ h
  refine ⟨hagreed, fun task ended ht => ?_⟩
  have hidle := accepting_idle (h₀.idle h ht)
  have hended := hended task ended ht
  cases ended with
  | again =>
    have hv : Attending pl server P₀ (view .server P.world) := hended
    refine ⟨hagreed.mirrors hidle (.of_framed hv.toInOrder hv.framed), fun _ => ?_, by rintro _ ⟨⟩⟩
    exact (log_granted Iff.rfl).mpr hv.granted
  | leave status =>
    have hv : LeftBy pl server ⟨P₀, []⟩ status (view .server P.world) := hended
    refine ⟨hagreed.mirrors hidle (.of_framed hv.toInOrder hv.framed), by rintro ⟨⟩, ?_⟩
    rintro _ ⟨⟩
    exact hv.cause.trans (log_granted Iff.rfl).symm

def visit (pl : Platform) (leaves : Bool) : Proc NtStatus := do
  let client ← srvConnectServer pl "port" none 0
  match client with
  | none => return statusUnsuccessful
  | some client =>
    if leaves then
      srvDisconnectServer client
      return statusSuccess
    else
      return statusSuccess

theorem receiver_serving : Serving (endpoint Ua.receiver) (Ua.receiverProcess .x86) :=
  Ua.receiver_serving .x86

/-- Both are waiting when the worker gets to them; the first leaves before the
second has been accepted. -/
theorem older_connections_mirrored_two : ∃ P : NetPool Bool Bool,
    Agreed .x86 (portOfTwo (srvServerWorker .x86 Ua.receiver)) (Ua.receiverProcess .x86) P.world ∧
      Mirrors (portOfTwo (srvServerWorker .x86 Ua.receiver)) (Ua.receiverProcess .x86)
        P.world.state ∧
      (∀ e ∈ (view .server P.world).log, Granted e) ∧
      P.world.state.connections.map (fun c => (c.client, c.closed)) =
        [(true, false), (false, true)] := by
  let site := portOfTwo (srvServerWorker .x86 Ua.receiver)
  let turns : List (Turn (Party Bool) (Channel.Task Bool)) :=
    List.flatten [
      Turn.calling (.client false) (.run true) 11, Turn.calling (.client true) (.run false) 11,
      Turn.calling .server .serve 16, Turn.acting (.client false) 7,
      Turn.calling .server .serve 16, Turn.acting (.client true) 1,
      Turn.calling .server .serve 14]
  have hrun : ((channel .x86 site (AdvancedServer.visit .x86)).play
      (exchange Bool .x86 site [false, true]) turns
      (beforeTwo (Ua.receiverProcess .x86))).any (fun P =>
        (P.returned .server).map Prod.snd = some .again &&
        P.world.state.connections.map (fun c => (c.client, c.closed)) =
          [(true, false), (false, true)]) := by
    decide +kernel
  obtain ⟨P, hP, hstate⟩ := (Option.any_eq_true _ _).mp hrun
  obtain ⟨hreturned, hconnections⟩ := Bool.and_eq_true .. ▸ hstate
  obtain ⟨task, ht⟩ := threads_of_returned (of_decide_eq_true hreturned)
  obtain ⟨hagreed, hended⟩ := older_connections_mirrored receiver_serving
    (rfl : site.worker = _) (beforeTwo_opens _) (play_reaches exchange_sound hP)
  obtain ⟨hmirrors, hgranted, -⟩ := hended task _ ht
  exact ⟨P, hagreed, hmirrors, hgranted rfl, of_decide_eq_true hconnections⟩

end AlpcResearch.AdvancedServer
