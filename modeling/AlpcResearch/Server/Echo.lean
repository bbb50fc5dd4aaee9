import AlpcResearch.Channel.Replies
import AlpcResearch.Server.Channel

/-!
# Requests come back

`OnAlpcRequest` sends the message it was given, so every synchronous request to
the built server brings back the very message the client sent, however many
clients share the worker's buffer. Between two rounds each request has been
sent back once, in the order of the requests.
-/

namespace AlpcResearch.Server

open Resource Program Process
open Rpc (Party arrivalOf)
open Channel hiding Opens

variable {pl : Platform} {A : Assumption} {maxLength : Nat} {worker : Worker}
variable {P₀ : Process} {w₀ w v u : World} {msg : List UInt8} {ctx : PVoid}

def replyTo (pl : Platform) (msg : List UInt8) : List (List UInt8) :=
  if kindOf pl msg = lpcRequest then [msg] else []

theorem mute_of_harmless (o : Op) (h : Harmless o) : Mute o := by
  rintro a rfl
  exact h

theorem mute_of_answersConnect (o : Op) (h : AnswersConnect o) : Mute o := by
  rintro a rfl
  exact h

structure InBuffer (pl : Platform) (maxLength : Nat) (worker : Worker) (msg : List UInt8)
    (w u : World) : Prop where
  exchanged : Exchanged pl [msg] [] w u
  last : (ledger pl u.log).message = msg
  shows_ : Shows (endpoint maxLength worker) msg u.state

theorem InBuffer.read {o : Op} (h : InBuffer pl maxLength worker msg w u) (ho : Reads o)
    (r : Ret o) : InBuffer pl maxLength worker msg w ((system pl A).next u o r) := by
  have hmute : Mute o := mute_of_harmless o (harmless_of_reads o ho)
  cases o with
  | load | printf | alpcCancelMessage =>
    exact ⟨h.exchanged.mute hmute r, h.last, h.shows_.same rfl⟩
  | _ => exact ho.elim

theorem onAlpcRequest_echoes (h : InBuffer pl maxLength worker msg w v)
    (hkind : kindOf pl msg = lpcRequest) (hsized : Sized pl msg) :
    (onAlpcRequest pl worker.connectionPortHandle worker.portMessage).safe (system pl A)
      (fun u => Echoes pl u.log) (fun _ => Exchanged pl [msg] [msg] w) v := by
  have hreport : (reportCounter pl worker.portMessage "Request Receive Counter %lld.\n").safe
      (system pl A) (fun u => Echoes pl u.log)
      (fun _ => InBuffer pl maxLength worker msg w) v :=
    safe_of_uses (reportCounter_uses _) (fun _ _ r ho _ hu => hu.read ho r)
      (fun _ hu => hu.exchanged.echoes) (fun _ _ hu => hu) h
  refine safe_bind (safe_mono hreport fun _ u hu => ⟨hu.exchanged.echoes, fun r hr => ?_⟩)
  have hreply := hu.exchanged.reply (A := A) (e := endpoint maxLength worker) rfl rfl hu.last
    hkind hsized hu.shows_ hr.1
  exact ⟨hreply.echoes, hreply⟩

theorem srvDispatch_echoes (h : InBuffer pl maxLength worker msg w v)
    (hsized : SizedRequest pl msg) :
    (srvDispatch pl maxLength worker found (kindOf pl msg)).safe (system pl A)
      (fun u => Echoes pl u.log) (fun _ => Exchanged pl [msg] (replyTo pl msg) w) v := by
  have hnone (hk : kindOf pl msg ≠ lpcRequest) : replyTo pl msg = [] := if_neg hk
  refine safe_dispatch (fun hk => ?_) (fun hk => ?_) (fun hk => ?_) (fun hk => ?_) fun hk _ _ _ => ?_
  · rw [replyTo, if_pos hk]
    exact onAlpcRequest_echoes h hk (hsized hk)
  · rw [hnone (hk ▸ by decide)]
    exact h.exchanged.run (datagramCase_harmless.mono mute_of_harmless)
  · rw [hnone (ne_of_disconnect hk).1]
    exact h.exchanged.run (onAlpcDisconnection_harmless.mono mute_of_harmless)
  · rw [hnone (hk ▸ by decide)]
    exact h.exchanged.run (onAlpcConnection_uses.mono mute_of_answersConnect)
  · rw [hnone hk]
    exact ⟨h.exchanged.echoes, h.exchanged⟩

theorem srvServerWorker_echoes
    (hA : ∀ w o r, A w o r → receives (SizedRequest pl) w o r)
    (h : AtReceive pl maxLength worker w₀ w) (he : Echoes pl w.log) :
    (srvServerWorker pl maxLength worker).safe (system pl A) (fun u => Echoes pl u.log)
      (After (fun u => ∃ msg, Exchanged pl [msg] (replyTo pl msg) w u) fun _ _ => True) w := by
  have hserving := h.consistent.serving
  refine ⟨he, fun r hr => ?_⟩
  have hnone : (srvReceive maxLength worker).sendMessage = none := rfl
  have hechoes : Echoes pl (⟨.alpcSendWaitReceivePort (srvReceive maxLength worker), r⟩ :: w.log) :=
    he.cons fun a r' ha hsend => by
      cases ha
      exact absurd hnone hsend
  refine safe_ifFailed (fun hs => ?_) fun _ => ⟨hechoes, trivial⟩
  have hreceive : Ledger.isReceive (srvReceive maxLength worker) = true := Endpoint.receives hserving
  have hrec := received (A := A) hserving hr.1 hs
  have harrival : arrivalOf ⟨.alpcSendWaitReceivePort (srvReceive maxLength worker), r⟩ =
      some r.written := by
    simp [arrivalOf, hreceive, hs]
  have hreply : replyOf ⟨.alpcSendWaitReceivePort (srvReceive maxLength worker), r⟩ = none := by
    rw [replyOf, if_pos hnone]
  have hbuffer : InBuffer pl maxLength worker r.written w ((system pl A).next w
      (.alpcSendWaitReceivePort (srvReceive maxLength worker)) r) := {
    exchanged := ⟨hechoes, (Picks.refl w).pick harrival, (Picks.refl w).skip hreply⟩
    last := congrArg Ledger.message hrec.ledger
    shows_ := hrec.shows_ }
  have hmute : Mute (.alpcGetMessageAttribute worker.messageAttributes
    alpcMessageContextAttribute) := by rintro _ ⟨⟩
  refine safe_bind ⟨hechoes, fun found hfind => ?_⟩
  have hbuffer₁ : InBuffer pl maxLength worker r.written w ((system pl A).next _
      (.alpcGetMessageAttribute worker.messageAttributes alpcMessageContextAttribute) found) :=
    ⟨hbuffer.exchanged.mute hmute found, hbuffer.last, hbuffer.shows_.same rfl⟩
  refine ⟨hbuffer₁.exchanged.echoes, fun bs hbs => ?_⟩
  have hbuffer₂ := hbuffer₁.read (A := A)
    (o := .load worker.portMessage PortMessage.offType 2) trivial bs
  have hkind : lobyte (UInt16.ofNat (leNat bs)) = kindOf pl r.written :=
    (hbuffer₁.shows_).kind hrec.length hbs.1
  change Prog.safe _ _ (srvDispatch pl maxLength worker found
    (lobyte (UInt16.ofNat (leNat bs)))) _ _
  rw [hkind]
  have hsized : SizedRequest pl r.written := hA _ _ _ hr.2 hreceive hs
  refine safe_imp (srvDispatch_echoes hbuffer₂ hsized) (fun _ hu => hu) fun status u hu hafter => ?_
  by_cases hs' : ntSuccess status = true
  · simp only [hs', Bool.not_true, Bool.false_eq_true, if_false]
    exact ⟨hu, r.written, hafter⟩
  · simp only [hs', Bool.not_false, if_true]
    exact ⟨hu, trivial⟩

-- ---------------------------------------------------------------------------
-- All interleavings
-- ---------------------------------------------------------------------------

/-- Every request received so far has been sent back, in that order. -/
def AllReplied (pl : Platform) (log : List Ev) : Prop :=
  log.filterMap replyOf = (log.filterMap arrivalOf).filter fun msg => kindOf pl msg = lpcRequest

theorem AllReplied.exchanged (h : AllReplied pl w.log)
    (hx : Exchanged pl [msg] (replyTo pl msg) w u) : AllReplied pl u.log := by
  obtain ⟨new, hlog, harrivals⟩ := hx.arrivals
  have hreplies : new.filterMap replyOf = replyTo pl msg := by
    have hnew := hx.replies.eq
    rwa [newEvents_eq hlog] at hnew
  rw [AllReplied, hlog, List.filterMap_append, List.filterMap_append, hreplies, harrivals,
    List.filter_append, h]
  congr 1
  by_cases hk : kindOf pl msg = lpcRequest <;> simp [replyTo, hk]

structure Replying (pl : Platform) (maxLength : Nat) (worker : Worker) (P₀ : Process)
    (w : World) : Prop extends AtReceive pl maxLength worker ⟨P₀, []⟩ w where
  orderly : Orderly pl w
  echoes : Echoes pl w.log
  replied : AllReplied pl w.log

theorem srvServerWorker_replies (hmax : pl.sizeofPortMessage + 8 ≤ maxLength)
    (hw : Replying pl maxLength worker P₀ w) :
    (srvServerWorker pl maxLength worker).safe
      (system pl ((peers pl).and (receives (SizedRequest pl))))
      (fun u => Orderly pl u ∧ u.state.faults = P₀.faults ∧ Echoes pl u.log)
      (After (Replying pl maxLength worker P₀) fun _ _ => True) w := by
  let A := (peers pl).and (receives (SizedRequest pl))
  have hreturns := srvServerWorker_returns (A := A) hmax (fun _ _ _ h => h.1.1) hw.toAtReceive
  have horderly := srvServerWorker_orderly (A := A) hmax hw.toAtReceive hw.orderly
  have hechoes := srvServerWorker_echoes (A := A) (fun _ _ _ h => h.2) hw.toAtReceive hw.echoes
  refine safe_imp (safe_both hreturns (safe_both horderly hechoes)) ?_ ?_
  · rintro u ⟨hf, ho, he⟩
    exact ⟨ho, hf, he⟩
  · rintro (_ | status) u ⟨-, -, he⟩ ⟨hreceive, ho, hafter⟩
    · obtain ⟨msg, hexchanged⟩ := hafter
      exact ⟨hreceive, ho, he, hw.replied.exchanged hexchanged⟩
    · trivial

theorem Replying.start (h : Serving (endpoint maxLength worker) P₀) :
    Replying pl maxLength worker P₀ ⟨P₀, []⟩ where
  toAtReceive := .start h
  orderly := .start P₀
  echoes := by simp [Echoes]
  replied := by simp [AllReplied]

variable {ι κ : Type} [DecidableEq ι] {site : Site ι} {program : κ → Proc NtStatus}
variable {P Q : NetPool ι κ}

/-- Whatever the clients run, and however that is interleaved: a synchronous
request that succeeds brings its own message back, the server sends nothing
but the request it received last, and at a receive it has sent back each
request, once and in their order. -/
theorem requests_echoed (hmax : pl.sizeofPortMessage + 8 ≤ maxLength)
    (hs : Serving (endpoint maxLength worker) P₀)
    (hworker : site.worker = srvServerWorker pl maxLength worker) (h₀ : Channel.Opens P₀ Q)
    (h : (channel pl site program).Reaches anyStep Q P) :
    (∀ i, ∀ e ∈ (view (.client i) P.world).log, Echoed pl e) ∧
      Echoes pl (view .server P.world).log ∧
      ∀ task, P.threads .server = (task, .ret .again) →
        AllReplied pl (view .server P.world).log := by
  have hplayed : (echoing pl P₀ (Replying pl maxLength worker P₀)).Played pl site program :=
    echoing_played fun v hv => hworker ▸ srvServerWorker_replies hmax hv
  have hholds := hplayed.reaches h₀ h₀.echo (.start hs) (fun _ => trivial) h
  refine ⟨hholds.shared.echoed, hholds.server.2, fun task ht => ?_⟩
  have hended : Replying pl maxLength worker P₀ _ := hholds.ended task _ ht
  exact hended.replied

/-- A client that connects and sends a request, and leaves again if it is told
to. -/
def ask (pl : Platform) (leaves : Bool) : Proc NtStatus := do
  let (status, handle) ← Ua.uaConnectServer pl "port" none 0
  if !ntSuccess status then
    return status
  else
    let status ← Ua.uaSendSynchronousRequest pl handle none 0
    if leaves then
      Ua.uaDisconnectServer handle
      return status
    else
      return status

/-- Both requests are waiting when the worker gets to them. -/
theorem requests_echoed_two : ∃ P : NetPool Bool Bool,
    (∀ i, ∀ e ∈ (view (.client i) P.world).log, Echoed .x64 e) ∧
      AllReplied .x64 (view .server P.world).log ∧
      (∃ task, P.threads .server = (task, .ret .again)) ∧
      ∀ i, (P.returned (.client i)).map Prod.snd = some (.leave statusSuccess) := by
  let site := portOfTwo (srvServerWorker .x64 0xFFFF receiver)
  let turns : List (Turn (Party Bool) (Channel.Task Bool)) :=
    List.flatten [
      Turn.calling (.client false) (.run true) 11, Turn.calling (.client true) (.run false) 11,
      Turn.calling .server .serve 14, Turn.acting (.client false) 14,
      Turn.calling .server .serve 14, Turn.acting (.client true) 14,
      Turn.calling .server .serve 14, Turn.calling .server .serve 14,
      Turn.acting (.client true) 5, Turn.acting (.client false) 7]
  have hrun : ((channel .x64 site (ask .x64)).play (exchange Bool .x64 site [false, true]) turns
      (beforeTwo (Ua.receiverProcess .x64))).any (fun P =>
        (P.returned .server).map Prod.snd = some .again &&
        decide (∀ i, (P.returned (.client i)).map Prod.snd = some (.leave statusSuccess))) := by
    decide +kernel
  obtain ⟨P, hP, hstate⟩ := (Option.any_eq_true _ _).mp hrun
  obtain ⟨hreturned, hleft⟩ := Bool.and_eq_true .. ▸ hstate
  obtain ⟨task, ht⟩ := threads_of_returned (of_decide_eq_true hreturned)
  have hechoed := requests_echoed (by decide) receiver_serving (rfl : site.worker = _)
    (beforeTwo_opens _) (play_reaches exchange_sound hP)
  exact ⟨P, hechoed.1, hechoed.2.2 task ht, ⟨task, ht⟩, of_decide_eq_true hleft⟩

end AlpcResearch.Server
