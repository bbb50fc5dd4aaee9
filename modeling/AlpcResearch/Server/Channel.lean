import AlpcResearch.Channel.Contexts
import AlpcResearch.Channel.Exchange
import AlpcResearch.Channel.Workers
import AlpcResearch.Server.Sessions
import AlpcResearch.Ua.Framing

/-!
# The built server and its clients

`SrvServerWorker` among clients that do what they like. Both ends agree on
every connection here too; that the contexts are those of the connections
depends on nobody having been turned down, and that the loop goes on, on every
call made for a client having succeeded.
-/

namespace AlpcResearch.Server

open Resource Program Process
open Rpc (Party)
open Channel hiding Opens
open Ua (liveContexts)

variable {pl : Platform} {A : Assumption} {maxLength : Nat} {worker : Worker}
variable {P₀ : Process} {w₀ w v : World} {msg : List UInt8} {ctx : PVoid}

theorem unanswering_of_harmless (o : Op) (h : Harmless o) : Unanswering o := by
  rintro a rfl
  exact h

theorem onAlpcConnection_orderly (hmax : pl.sizeofPortMessage + 8 ≤ maxLength)
    (h : Answering pl (endpoint maxLength worker) w) (hw : Orderly pl w) :
    (onAlpcConnection pl maxLength worker.connectionPortHandle worker.portMessage).safe
      (system pl A) (Orderly pl) (fun _ _ => True) w := by
  refine orderly_call (by rintro _ ⟨⟩) hw fun ra hra o₁ => ?_
  change Prog.safe _ _ (if ra.pointer = none then _ else _) _ _
  cases hp : ra.pointer with
  | none => exact ⟨o₁, trivial⟩
  | some p =>
    simp only [reduceCtorEq, if_false]
    obtain ⟨q, c, rfl, p₁⟩ : ∃ q c, p = ⟨q, 0⟩ ∧ Pending w.state _ q c := pending_allocate hra.1 hp
    refine orderly_call (by rintro _ ⟨⟩) o₁ fun bs _ o₂ => ?_
    have hfits : PortMessage.offClientId + sizeofClientId pl ≤
        (endpoint maxLength worker).capacity :=
      clientId_in_header.trans ((Nat.le_add_right _ _).trans hmax)
    have p₂ := p₁.of_eq (effect_load pl (h.serving.pending p₁) hfits bs)
    refine orderly_call (by rintro _ ⟨⟩) o₂ fun _ _ o₃ => ?_
    have p₃ := Pending.setClientId pl p₂ (ClientId.ofBytes pl bs)
    refine ⟨o₃, fun rc hrc => ?_⟩
    refine safe_ifFailed (fun hs => ?_) fun hs => ?_
    · obtain ⟨x, hx, hg⟩ := Pending.accept p₃ h.serving rfl rfl rfl hrc.1 hs
      exact ⟨h.accepts rfl rfl hs rfl rfl hg, trivial⟩
    · have p₄ := p₃.of_eq (Pending.accept_failed p₃ h.serving rfl rfl rfl hrc.1 hs)
      refine ⟨h.refuses rfl (.inr hs) rfl (h.shows_.pending p₄), fun rj hrj => ?_⟩
      have p₅ := p₄.of_eq (effect_reject (h.serving.pending p₄) rfl rfl
        (fun _ he => by cases he; exact structFault_live p₄.block) hrj.1)
      refine ⟨h.refuses ?_ (.inl rfl) rfl (h.shows_.pending p₅), trivial⟩
      simp [ledger, Ledger.add, hs, acceptWith]

theorem srvDispatch_orderly (hmax : pl.sizeofPortMessage + 8 ≤ maxLength)
    (h : InOrder pl (endpoint maxLength worker) w)
    (hr : Received pl (endpoint maxLength worker) msg ctx w v) (hv : Orderly pl v) :
    (srvDispatch pl maxLength worker found (kindOf pl msg)).safe (system pl A) (Orderly pl)
      (fun _ _ => True) v := by
  refine safe_dispatch (fun _ => ?_) (fun _ => ?_) (fun _ => ?_) (fun hc => ?_) fun _ _ _ _ => ?_
  · refine orderly_of_uses (uses_bind ((reportCounter_harmless _).mono unanswering_of_harmless)
      fun _ => ⟨by rintro _ ⟨⟩, fun _ => trivial⟩) hv
  · exact orderly_of_uses (datagramCase_harmless.mono unanswering_of_harmless) hv
  · exact orderly_of_uses (onAlpcDisconnection_harmless.mono unanswering_of_harmless) hv
  · exact onAlpcConnection_orderly hmax (h.answering hr hc) hv
  · exact ⟨hv, trivial⟩

theorem srvServerWorker_orderly (hmax : pl.sizeofPortMessage + 8 ≤ maxLength)
    (h : AtReceive pl maxLength worker w₀ w) (hw : Orderly pl w) :
    (srvServerWorker pl maxLength worker).safe (system pl A) (Orderly pl)
      (fun _ v => Orderly pl v) w := by
  have hserving := h.consistent.serving
  refine safe_imp (Q := fun _ _ => True) ?_ (fun _ hv => hv) fun _ _ hv _ => hv
  refine orderly_call (by rintro _ ⟨⟩) hw fun r hr o₁ => ?_
  refine safe_ifFailed (fun hs => ?_) fun _ => ⟨o₁, trivial⟩
  have hrec := received (A := A) hserving hr.1 hs
  refine safe_bind (orderly_call (by rintro _ ⟨⟩) o₁ fun found hfind o₂ => ?_)
  have hrec₂ := hrec.of_state (A := A) (effect_getMessageAttribute pl alpcMessageContextAttribute
    (hserving.keeps hrec.keeps) found) fun _ => rfl
  refine orderly_call (by rintro _ ⟨⟩) o₂ fun bs hbs o₃ => ?_
  have hkind := hrec₂.kind hbs.1
  have hrec₃ := hrec₂.of_state (A := A)
    (effect_load pl (hserving.keeps hrec₂.keeps) (type_inside hmax worker) bs) fun _ => rfl
  change Prog.safe _ _ (srvDispatch pl maxLength worker found
    (lobyte (UInt16.ofNat (leNat bs)))) _ _
  rw [hkind]
  refine safe_imp (srvDispatch_orderly hmax h.toInOrder hrec₃ o₃) (fun _ hv => hv) fun status v hv _ => ?_
  by_cases hs' : ntSuccess status = true
  · simp only [hs', Bool.not_true, Bool.false_eq_true, if_false]
    exact ⟨hv, trivial⟩
  · simp only [hs', Bool.not_false, if_true]
    exact ⟨hv, trivial⟩

-- ---------------------------------------------------------------------------
-- Rounds
-- ---------------------------------------------------------------------------

theorem AtReceive.start (h : Serving (endpoint maxLength worker) P₀) :
    AtReceive pl maxLength worker ⟨P₀, []⟩ ⟨P₀, []⟩ := by
  refine ⟨⟨.start h, by simp [ledger, Ledger.empty]⟩, rfl, Nat.le_refl _, fun _ => .start _,
    fun hno => ?_⟩
  exact absurd (by simp [AllAccepted, ledger, Ledger.empty]) hno

structure Attending (pl : Platform) (maxLength : Nat) (worker : Worker) (P₀ : Process)
    (w : World) : Prop extends AtReceive pl maxLength worker ⟨P₀, []⟩ w where
  granted : Adds Granted ⟨P₀, []⟩ w
  orderly : Orderly pl w

theorem Attending.atHead (h : Attending pl maxLength worker P₀ w) :
    AtHead pl maxLength worker ⟨P₀, []⟩ w :=
  ⟨h.toInOrder, h.faults, h.granted⟩

theorem peers_kernel {o : Op} {r : Ret o} (h : peers pl w o r) : kernel pl w o r := by
  refine ⟨h.1, ?_⟩
  cases o with
  | close x => exact h.2.mpr
  | _ => trivial

theorem srvServerWorker_attends (hmax : pl.sizeofPortMessage + 8 ≤ maxLength)
    (h : Serving (endpoint maxLength worker) P₀) :
    Attends pl (srvServerWorker pl maxLength worker) P₀ (Attending pl maxLength worker P₀)
      (fun _ => LeftBy pl maxLength worker ⟨P₀, []⟩) where
  start := ⟨.start h, .refl _, .start P₀⟩
  round := by
    intro v hv
    have hreturns := srvServerWorker_returns (A := peers pl) hmax (fun _ _ _ h => h.1) hv.toAtReceive
    have hstops := safe_assuming peers_kernel (srvServerWorker_safe hmax hv.atHead)
    have horderly := srvServerWorker_orderly (A := peers pl) hmax hv.toAtReceive hv.orderly
    refine safe_imp (safe_both hreturns (safe_both hstops horderly)) ?_ ?_
    · rintro u ⟨hf, -, ho⟩
      exact ⟨ho, hf⟩
    · rintro (_ | status) u - ⟨hreceive, hafter, ho⟩
      · exact ⟨hreceive, hafter.granted, ho⟩
      · exact hafter

-- ---------------------------------------------------------------------------
-- All interleavings
-- ---------------------------------------------------------------------------

variable {ι κ : Type} [DecidableEq ι] {site : Site ι} {program : κ → Proc NtStatus}
variable {P Q : NetPool ι κ} {n : NetWorld ι}

theorem Leaked.not_mirrors {q : Ref} (h : Agreed pl site P₀ n) (hidle : n.state.accepting = [])
    (hq : Leaked P₀ (n.state.process .server) (ledger pl (view .server n).log).accepted q) :
    ¬ Mirrors site P₀ n.state := by
  intro hm
  have hmem : some ⟨q, 0⟩ ∈ liveContexts (n.state.process .server) \ liveContexts P₀ := by
    refine ⟨⟨q, rfl, hq.layout⟩, ?_⟩
    rintro ⟨q', he, hq'⟩
    cases he
    cases hq.fresh.symm.trans hq'
  obtain ⟨c, ⟨hc, hopen⟩, he⟩ := hm.contexts.surjOn hmem
  obtain ⟨s, hs, hcontext, -⟩ := h.session hidle hc hopen
  exact hq.foreign s (Ledger.mem_sessions.mp hs).1 (hcontext.trans he)

/-- Whatever its clients run, and however that is interleaved with the rounds
of the worker, both ends agree on every connection. At a receive no call made
for a client has failed, and the contexts are those of the connections exactly
if nobody has been turned down; the loop ends with a receive that failed
exactly if no such call has failed. -/
theorem server_connections_mirrored (hmax : pl.sizeofPortMessage + 8 ≤ maxLength)
    (hs : Serving (endpoint maxLength worker) P₀)
    (hworker : site.worker = srvServerWorker pl maxLength worker) (h₀ : Channel.Opens P₀ Q)
    (h : (channel pl site program).Reaches anyStep Q P) :
    Agreed pl site P₀ P.world ∧
      (∀ task, P.threads .server = (task, .ret .again) →
        (∀ e ∈ (view .server P.world).log, Granted e) ∧
          (Mirrors site P₀ P.world.state ↔ AllAccepted pl (view .server P.world))) ∧
      ∀ task status, P.threads .server = (task, .ret (.leave status)) →
        (ReceiveFailed maxLength worker (view .server P.world) ↔
          ∀ e ∈ (view .server P.world).log, Granted e) := by
  have hattends := hworker ▸ srvServerWorker_attends hmax hs
  obtain ⟨hagreed, hended⟩ := hattends.reaches h₀ h
  refine ⟨hagreed, fun task ht => ?_, fun task status ht => ?_⟩
  · have hidle := accepting_idle (h₀.idle h ht)
    have hv : Attending pl maxLength worker P₀ _ := hended task _ ht
    obtain ⟨new, hlog, hgranted⟩ := hv.granted
    have hlog : (view .server P.world).log = new := hlog.trans (List.append_nil _)
    refine ⟨hlog ▸ hgranted, fun hm => ?_, fun hall => ?_⟩
    · by_contra hno
      obtain ⟨q, hq⟩ := hv.holdings.leaked hno
      exact hq.not_mirrors hagreed hidle hm
    · exact hagreed.mirrors hidle (.of_framed hv.toInOrder (hv.holdings.framed hall))
  · have hnew : newEvents ⟨P₀, []⟩ (view .server P.world) = (view .server P.world).log :=
      newEvents_eq (List.append_nil _).symm
    have hleft : LeftBy pl maxLength worker ⟨P₀, []⟩ _ := hended task _ ht
    rcases hleft with ⟨hreceive, hhead⟩ | hrefused
    · obtain ⟨new, hlog, hgranted⟩ := hhead.granted
      have hlog : (view .server P.world).log = new := hlog.trans (List.append_nil _)
      exact ⟨fun _ => hlog ▸ hgranted, fun _ => hreceive⟩
    · exact ⟨fun h => absurd h hrefused.not_receive, fun h => absurd (hnew ▸ h) hrefused.not_granted⟩

def receiver : Worker where
  connectionPortHandle := Ua.receiver.connectionPortHandle
  messageAttributes := Ua.receiver.messageAttributes
  portMessage := Ua.receiver.portMessage

theorem receiver_serving : Serving (endpoint 0xFFFF receiver) (Ua.receiverProcess .x64) :=
  Ua.receiver_serving .x64

/-- Both are waiting when the worker gets to them; the first leaves before the
second has been accepted. -/
theorem server_connections_mirrored_two : ∃ P : NetPool Bool Bool,
    Agreed .x64 (portOfTwo (srvServerWorker .x64 0xFFFF receiver)) (Ua.receiverProcess .x64)
        P.world ∧
      (∃ task, P.threads .server = (task, .ret .again)) ∧
      (Mirrors (portOfTwo (srvServerWorker .x64 0xFFFF receiver)) (Ua.receiverProcess .x64)
          P.world.state ↔ AllAccepted .x64 (view .server P.world)) ∧
      P.world.state.connections.map (fun c => (c.client, c.closed)) =
        [(true, false), (false, true)] := by
  let site := portOfTwo (srvServerWorker .x64 0xFFFF receiver)
  let turns : List (Turn (Party Bool) (Channel.Task Bool)) :=
    List.flatten [
      Turn.calling (.client false) (.run true) 11, Turn.calling (.client true) (.run false) 11,
      Turn.calling .server .serve 14, Turn.acting (.client false) 5,
      Turn.calling .server .serve 14, Turn.acting (.client true) 3,
      Turn.calling .server .serve 16]
  have hrun : ((channel .x64 site (visit .x64)).play (exchange Bool .x64 site [false, true]) turns
      (beforeTwo (Ua.receiverProcess .x64))).any (fun P =>
        (P.returned .server).map Prod.snd = some .again &&
        P.world.state.connections.map (fun c => (c.client, c.closed)) =
          [(true, false), (false, true)]) := by
    decide +kernel
  obtain ⟨P, hP, hstate⟩ := (Option.any_eq_true _ _).mp hrun
  obtain ⟨hreturned, hconnections⟩ := Bool.and_eq_true .. ▸ hstate
  obtain ⟨task, ht⟩ := threads_of_returned (of_decide_eq_true hreturned)
  have hmirrored := server_connections_mirrored (by decide)
    receiver_serving (rfl : site.worker = _) (beforeTwo_opens _) (play_reaches exchange_sound hP)
  exact ⟨P, hmirrored.1, ⟨task, ht⟩, (hmirrored.2.1 task ht).2, of_decide_eq_true hconnections⟩

end AlpcResearch.Server
