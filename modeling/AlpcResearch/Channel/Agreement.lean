import AlpcResearch.Channel.Connections
import AlpcResearch.Sessions.Invariant

/-!
# Both ends of a connection

What the server's ledger, the clients' connects and the kernel say of the
connections is the same at all times (`Common`): the server has accepted the
connections there are, but for the one it is about to hear of, and each client
has got their handles, but for the one its connect will return. A message that
arrives belongs to a session the server has open. It takes a worker that shows
the kernel the request it has received and gives it a new context
(`Orderly`).
-/

namespace AlpcResearch.Channel

open Resource Program Process
open Rpc (Party Posted isSync kindSent)

structure Orderly (pl : Platform) (u : World) : Prop where
  contexts : (ledger pl u.log).contexts.Nodup
  /-- The message in the buffer it accepts from is the last it received. -/
  presented : ∀ a r rest, u.log = ⟨.alpcAcceptConnectPort a, r⟩ :: rest →
    presentedId pl u.state a.connectionRequest =
      some (headerOf pl (ledger pl rest).message).messageId

/-- The handles a client's connects have returned, the latest first. -/
def established (log : List Ev) : List Handle :=
  log.filterMap fun
    | ⟨.alpcConnectPort _, r⟩ => if ntSuccess r.status then some r.handle else none
    | _ => none

/-- A message that is no connection request came over a connection of which the
server has a session. -/
def Carried (pl : Platform) (L : Ledger) : Ev → Prop
  | ⟨.alpcSendWaitReceivePort a, r⟩ => Ledger.isReceive a = true → ntSuccess r.status = true →
    kindOf pl r.written ≠ lpcConnectionRequest →
    r.portContext ∈ L.sessions.map Session.context
  | _ => True

variable {ι : Type} [DecidableEq ι]

namespace Net

/-- The connection the server has accepted, while it does not know yet. -/
def accepting (N : Net ι) : List (PVoid × ι) :=
  match N.inCall .server with
  | some (.alpcAcceptConnectPort a, .answered i) =>
    if a.acceptConnection then [(a.portContext, i)] else []
  | _ => []

def accounts (N : Net ι) (site : Site ι) : List (PVoid × ClientId) :=
  N.connections.map fun c => (c.context, site.clientId c.client)

def handlesOf (N : Net ι) (i : ι) : List (Option Handle) :=
  (N.connections.filter fun c => c.client = i).map Connection.handle

def Connects (N : Net ι) (i : ι) : Prop :=
  ∃ a t, N.inCall (.client i) = some (.alpcConnectPort a, t)

/-- The client knows of its connections, but for one while it connects. -/
def Joined (N : Net ι) (i : ι) (log : List Ev) : Prop :=
  N.handlesOf i = (established log).map some ∨
    N.Connects i ∧ N.connecting i = none ∧ N.handlesOf i = none :: (established log).map some

end Net

/-- What holds besides what each party keeps to itself. -/
structure Common (pl : Platform) (site : Site ι) (w : NetWorld ι) : Prop where
  sound : w.state.Sound pl site
  agreed : w.state.accounts site = w.state.accepting.map (fun x => (x.1, site.clientId x.2)) ++
      (ledger pl (view .server w).log).accepted.map fun s => (s.context, s.clientId)
  disconnected : (ledger pl (view .server w).log).disconnected =
    ((w.state.received.map Prod.fst).filter Packet.isNotice).map Packet.context
  message : (ledger pl (view .server w).log).message = (w.state.received.map Prod.snd).headD []
  answering : ∀ a i, w.state.inCall .server = some (.alpcAcceptConnectPort a, .answered i) →
    (headerOf pl (ledger pl (view .server w).log).message).clientId = site.clientId i
  joined : ∀ i, w.state.Joined i (view (.client i) w).log
  connects : ∀ i id, w.state.connecting i = some id → w.state.Connects i
  carried : ∀ e earlier, e :: earlier <:+ (view .server w).log → Carried pl (ledger pl earlier) e

variable {pl : Platform} {site : Site ι} {w : NetWorld ι}

-- ---------------------------------------------------------------------------
-- What each party sees
-- ---------------------------------------------------------------------------

theorem post_process (N : Net ι) (pl : Platform) (p : Party ι) (o : Op) (t : Ticket ι) :
    (N.post pl p o t).process = N.process := by
  cases p with
  | server => cases o <;> cases t <;> rfl
  | client i =>
    cases o with
    | alpcSendWaitReceivePort a =>
      cases t with
      | posted m => simp only [Net.post, Net.send]; split <;> rfl
      | nothing | answered => rfl
    | close h =>
      cases t with
      | posted m => simp only [Net.post, Net.close]; split <;> rfl
      | nothing | answered => rfl
    | _ => cases t <;> rfl

theorem view_issue (p q : Party ι) (w : NetWorld ι) (o : Op) (t : Ticket ι) :
    view q ((network pl site).next w (p, .issue o) t) = view q w :=
  congrArg (fun f => (⟨f q, eventsOf q w.log⟩ : World)) (post_process w.state pl p o t)

theorem view_await (p : Party ι) (w : NetWorld ι) (o : Op) (r : Ret o) (A : Assumption) :
    view p ((network pl site).next w (p, .await o) r) = (system pl A).next (view p w) o r := by
  have hlog : eventsOf p (⟨(p, .await o), r⟩ :: w.log) = ⟨o, r⟩ :: eventsOf p w.log := by
    simp [eventsOf]
  have hprocess : (w.state.effectPhase pl p (.await o) r).process p =
      (w.state.process p).effect pl o r := by
    simp [Net.effectPhase]
  exact congrArg₂ (fun P log => (⟨P, log⟩ : World)) hprocess hlog

theorem view_other {p q : Party ι} (h : q ≠ p) (w : NetWorld ι) (o : Op) (r : Ret o) :
    view q ((network pl site).next w (p, .await o) r) = view q w := by
  have hlog : eventsOf q (⟨(p, .await o), r⟩ :: w.log) = eventsOf q w.log := by
    simp [eventsOf, h.symm]
  have hprocess : (w.state.effectPhase pl p (.await o) r).process q = w.state.process q := by
    simp [Net.effectPhase, h]
  exact congrArg₂ (fun P log => (⟨P, log⟩ : World)) hprocess hlog

-- ---------------------------------------------------------------------------
-- Changes that leave both ends agreed
-- ---------------------------------------------------------------------------

omit [DecidableEq ι] in
theorem Net.accounts_mapped {N : Net ι} {f : Connection ι → Connection ι}
    (hcontext : ∀ d, (f d).context = d.context) (hclient : ∀ d, (f d).client = d.client) :
    (N.mapped f).accounts site = N.accounts site := by
  simp only [accounts, mapped, List.map_map]
  exact List.map_congr_left fun d _ => by simp [hcontext, hclient]

theorem Net.handlesOf_mapped {N : Net ι} {f : Connection ι → Connection ι} (i : ι)
    (hclient : ∀ d, (f d).client = d.client) :
    (N.mapped f).handlesOf i =
      (N.connections.filter fun c => c.client = i).map fun c => (f c).handle := by
  simp only [handlesOf, mapped, List.filter_map, List.map_map]
  congr 1
  exact List.filter_congr fun d _ => by simp [hclient]

/-- Before its next call a client knows of all its connections. -/
theorem Common.joined_idle {i : ι} (h : Common pl site w)
    (hidle : ¬ w.state.Connects i) :
    w.state.handlesOf i = (established (view (.client i) w).log).map some :=
  (h.joined i).resolve_right fun hn => hidle hn.1

theorem Common.connecting_idle {i : ι} (h : Common pl site w) (hidle : ¬ w.state.Connects i) :
    w.state.connecting i = none := by
  by_contra hne
  obtain ⟨id, hid⟩ := Option.ne_none_iff_exists'.mp hne
  exact hidle (h.connects i id hid)

omit [DecidableEq ι] in
theorem not_connects {i : ι} {N : Net ι} (h : N.inCall (.client i) = none) : ¬ N.Connects i := by
  rintro ⟨a, t, he⟩
  exact absurd (h.symm.trans he) (Option.some_ne_none _).symm

theorem issue_inCall (p : Party ι) (w : NetWorld ι) (o : Op) (t : Ticket ι) :
    ((network pl site).next w (p, .issue o) t).state.inCall =
      Function.update w.state.inCall p (some (o, t)) := rfl

/-- A client's call is issued, and leaves the connections there are as they
were, as far as the server and the clients know them. -/
theorem Common.issued {i : ι} {o : Op} {t : Ticket ι} (h : Common pl site w)
    (hidle : w.state.inCall (.client i) = none)
    (hsound : (w.state.post pl (.client i) o t).Sound pl site)
    (hreceived : (w.state.post pl (.client i) o t).received = w.state.received)
    (haccounts : (w.state.post pl (.client i) o t).accounts site = w.state.accounts site)
    (hhandles : ∀ j, (w.state.post pl (.client i) o t).handlesOf j = w.state.handlesOf j)
    (hother : ∀ j, j ≠ i → (w.state.post pl (.client i) o t).connecting j = w.state.connecting j)
    (hself : ∀ id, (w.state.post pl (.client i) o t).connecting i = some id →
      ∃ a, o = .alpcConnectPort a) :
    Common pl site ((network pl site).next w (.client i, .issue o) t) := by
  have hcall : ((network pl site).next w (.client i, .issue o) t).state.inCall = _ :=
    issue_inCall (.client i) w o t
  have hclient : ∀ j, j ≠ i → ((network pl site).next w (.client i, .issue o) t).state.inCall
      (.client j) = w.state.inCall (.client j) := by
    intro j hj
    rw [hcall, Function.update_of_ne (by simpa using hj)]
  have hserver : ((network pl site).next w (.client i, .issue o) t).state.inCall .server =
      w.state.inCall .server := by
    rw [hcall, Function.update_of_ne (by simp)]
  have hview : ∀ p, view p ((network pl site).next w (.client i, .issue o) t) = view p w :=
    fun p => view_issue (.client i) p w o t
  constructor
  case sound => exact hsound.congr rfl rfl rfl rfl
  case agreed =>
    rw [hview]
    simp only [Net.accepting, hserver]
    exact haccounts.trans h.agreed
  case disconnected =>
    rw [hview]
    exact h.disconnected.trans (by rw [← hreceived]; rfl)
  case message =>
    rw [hview]
    exact h.message.trans (by rw [← hreceived]; rfl)
  case answering =>
    rw [hview, hserver]
    exact h.answering
  case joined =>
    intro j
    rw [hview]
    by_cases hj : j = i
    · subst hj
      exact .inl ((hhandles j).trans (h.joined_idle (not_connects hidle)))
    · rcases h.joined j with hall | ⟨⟨a, t', hconnects⟩, hnone, hlast⟩
      · exact .inl ((hhandles j).trans hall)
      · exact .inr ⟨⟨a, t', (hclient j hj).trans hconnects⟩, (hother j hj).trans hnone,
          (hhandles j).trans hlast⟩
  case connects =>
    intro j id hid
    by_cases hj : j = i
    · subst hj
      obtain ⟨a, rfl⟩ := hself id hid
      exact ⟨a, t, by rw [hcall, Function.update_self]⟩
    · obtain ⟨a, t', hconnects⟩ := h.connects j id ((hother j hj).symm.trans hid)
      exact ⟨a, t', (hclient j hj).trans hconnects⟩
  case carried =>
    rw [hview]
    exact h.carried

theorem close_mapped {N : Net ι} {i : ι} {x : Handle} {c : Connection ι} {m : Posted}
    (hport : N.portOf i x = some c) : N.close i x m =
      (N.enqueue ⟨i, lpcPortClosed, m.messageId, m.taken, c.context⟩).mapped fun d =>
        if d.context = c.context then { d with closed := true } else d := by
  simp only [Net.close, hport]
  rfl

theorem common_issue_client {i : ι} {o : Op} {t : Ticket ι} (h : Common pl site w)
    (hl : (network pl site).legal w (.client i, .issue o) t) :
    Common pl site ((network pl site).next w (.client i, .issue o) t) := by
  obtain ⟨hidle, hl⟩ := hl
  have hnone := h.connecting_idle (not_connects hidle)
  have hself : ∀ {N : Net ι} {o : Op} (id : Nat), N.connecting i = w.state.connecting i →
      N.connecting i = some id → ∃ a, o = .alpcConnectPort a := by
    intro N o id hN hid
    exact absurd ((hnone.symm.trans hN.symm).trans hid) (Option.some_ne_none _).symm
  cases t with
  | nothing =>
    have hpost : w.state.post pl (.client i) o .nothing = w.state := by cases o <;> rfl
    exact h.issued hidle (by rw [hpost]; exact h.sound) (by rw [hpost]) (by rw [hpost]) (fun j => by rw [hpost])
      (fun j _ => by rw [hpost]) fun id => hself id (by rw [hpost])
  | answered j => cases o <;> exact hl.elim
  | posted m =>
    cases o with
    | alpcConnectPort a =>
      exact h.issued hidle (h.sound.request hl.2.2.1) rfl rfl (fun _ => rfl)
        (fun j hj => Function.update_of_ne hj ..) fun _ _ => ⟨a, rfl⟩
    | alpcSendWaitReceivePort a =>
      obtain ⟨c, hport⟩ := Option.ne_none_iff_exists'.mp hl.2.2.2.1
      have hpost : w.state.post pl (.client i) (.alpcSendWaitReceivePort a) (.posted m) =
          w.state.enqueue ⟨i, kindSent a, m.messageId, m.taken, c.context⟩ := by
        simp only [Net.post, Net.send, hport, Net.enqueue]
      refine h.issued hidle (h.sound.send hl.2.2.1) ?_ ?_ (fun _ => ?_) (fun _ _ => ?_)
        fun id => hself id ?_
      all_goals rw [hpost]; rfl
    | close x =>
      obtain ⟨c, hport⟩ := Option.ne_none_iff_exists'.mp hl.2
      have hpost : w.state.post pl (.client i) (.close x) (.posted m) = _ := close_mapped hport
      have hclient : ∀ d : Connection ι,
          (if d.context = c.context then { d with closed := true } else d).client = d.client :=
        fun d => by split <;> rfl
      refine h.issued hidle (h.sound.close hl.1) (by rw [hpost]; rfl) ?_ (fun j => ?_)
        (fun _ _ => by rw [hpost]; rfl) fun id => hself id (by rw [hpost]; rfl)
      · rw [hpost, Net.accounts_mapped (fun d => by split <;> rfl) hclient]
        rfl
      · rw [hpost, Net.handlesOf_mapped j hclient]
        refine List.map_congr_left fun d _ => ?_
        split <;> rfl
    | _ => exact hl.elim

-- ---------------------------------------------------------------------------
-- The server's calls
-- ---------------------------------------------------------------------------

omit [DecidableEq ι] in
theorem accepting_idle {N : Net ι} (h : N.inCall .server = none) : N.accepting = [] := by
  simp only [Net.accepting, h]

theorem Common.contexts (h : Common pl site w) (hidle : w.state.accepting = []) :
    w.state.connections.map Connection.context = (ledger pl (view .server w).log).contexts := by
  have hfst := congrArg (List.map Prod.fst) h.agreed
  simpa [Net.accounts, hidle, Ledger.contexts, Function.comp_def] using hfst

/-- Whatever the kernel does with the call, no connection is touched. -/
theorem Common.issued_server {o : Op} {t : Ticket ι} (h : Common pl site w)
    (hidle : w.state.inCall .server = none) (ht : ∀ i, t ≠ .answered i)
    (hpost : ∃ mail, w.state.post pl .server o t = { w.state with mail }) :
    Common pl site ((network pl site).next w (.server, .issue o) t) := by
  obtain ⟨mail, hpost⟩ := hpost
  have hstate : ((network pl site).next w (.server, .issue o) t).state = { w.state with
      mail, inCall := Function.update w.state.inCall .server (some (o, t)) } := by
    simp only [next_state, network, Net.effectPhase, hpost]
  have hview : ∀ p, view p ((network pl site).next w (.server, .issue o) t) = view p w :=
    fun p => view_issue .server p w o t
  have hclient : ∀ i, ((network pl site).next w (.server, .issue o) t).state.inCall (.client i) =
      w.state.inCall (.client i) := by
    intro i
    rw [issue_inCall, Function.update_of_ne (by simp)]
  constructor
  case sound => exact hstate ▸ h.sound.congr rfl rfl rfl rfl
  case agreed =>
    have hnone : ((network pl site).next w (.server, .issue o) t).state.accepting = [] := by
      simp only [Net.accepting, issue_inCall, Function.update_self]
      split
      · rename_i he
        cases he
        exact absurd rfl (ht _)
      · rfl
    rw [hview, hnone, ← accepting_idle hidle, hstate]
    exact h.agreed
  case disconnected =>
    rw [hview, hstate]
    exact h.disconnected
  case message =>
    rw [hview, hstate]
    exact h.message
  case answering =>
    intro a i hcall
    rw [issue_inCall, Function.update_self] at hcall
    cases hcall
    exact absurd rfl (ht i)
  case joined =>
    intro i
    rw [hview]
    rcases h.joined i with hall | ⟨⟨a, t', hconnects⟩, hlast⟩
    · exact .inl (by rw [hstate]; exact hall)
    · exact .inr ⟨⟨a, t', (hclient i).trans hconnects⟩, by rw [hstate]; exact hlast⟩
  case connects =>
    intro i id hid
    rw [hstate] at hid
    obtain ⟨a, t', hconnects⟩ := h.connects i id hid
    exact ⟨a, t', (hclient i).trans hconnects⟩
  case carried =>
    rw [hview]
    exact h.carried

def refused : AcceptReply := ⟨statusUnsuccessful, none⟩

theorem refused_legal {P : Process} {a : AcceptConnectPort} :
    P.Legal pl (.alpcAcceptConnectPort a) refused := by
  simp [Legal, refused, Process.Opens]

theorem presentedId_congr {P P' : Process} {p : PVoid} (h : P'.heap = P.heap) :
    presentedId pl P' p = presentedId pl P p := by
  simp only [presentedId, Process.at?, h]

/-- What the server shows the kernel, before it accepts or rejects. -/
theorem Orderly.shows {u : World} {a : AcceptConnectPort}
    (h : Orderly pl ((system pl anyKernel).next u (.alpcAcceptConnectPort a) refused)) :
    presentedId pl u.state a.connectionRequest =
      some (headerOf pl (ledger pl u.log).message).messageId := by
  have hheap : (u.state.effect pl (.alpcAcceptConnectPort a) refused).heap = u.state.heap := by
    simp only [effect, heapAfter, refused]
    split
    · simp
    · rfl
  exact (presentedId_congr hheap).symm.trans (h.presented a refused u.log rfl)

/-- What it accepts with is new. -/
theorem Orderly.fresh {u : World} {a : AcceptConnectPort} (ha : a.acceptConnection = true)
    (h : ∀ r, u.state.Legal pl (.alpcAcceptConnectPort a) r →
      Orderly pl ((system pl anyKernel).next u (.alpcAcceptConnectPort a) r)) :
    a.portContext ∉ (ledger pl u.log).contexts := by
  obtain ⟨x, hx⟩ := u.state.handles.exists_fresh
  have hlegal : u.state.Legal pl (.alpcAcceptConnectPort a) ⟨statusSuccess, some x⟩ := by
    simp [Legal, ha, Process.Opens, hx]
  have hnodup := (h _ hlegal).contexts
  rw [next_log, ledger, Ledger.add, if_pos ha, if_pos ntSuccess_success, Ledger.accept_contexts]
    at hnodup
  exact (List.nodup_cons.mp hnodup).1

/-- The client whose request the server has shown. -/
theorem Common.answers {i : ι} {id : Nat} (h : Common pl site w)
    (hconnecting : w.state.connecting i = some id)
    (hshown : (headerOf pl (ledger pl (view .server w).log).message).messageId = id)
    (hreceived : ∃ x ∈ w.state.received, x.1.messageId = id) :
    (headerOf pl (ledger pl (view .server w).log).message).clientId = site.clientId i := by
  obtain ⟨m, hm, rfl, hid⟩ := h.sound.connecting i id hconnecting
  cases hall : w.state.received with
  | nil => simp [hall] at hreceived
  | cons x rest =>
    have hmessage : (ledger pl (view .server w).log).message = x.2 := by
      rw [h.message, hall]
      rfl
    have harrived : x.1.ArrivesAs pl site x.2 := h.sound.arrived x.1 x.2 (by simp [hall])
    have hx : x.1 ∈ w.state.packets := by simp [Net.packets, hall]
    have hsame : x.1 = m := by
      refine h.sound.eq_of_messageId hx hm ?_
      rw [← harrived.messageId, ← hmessage, hshown, hid]
    rw [hmessage, harrived.clientId, hsame]

/-- The connection request of client `i` is answered. -/
theorem Common.issued_answer {i : ι} {a : AcceptConnectPort} {id : Nat} (h : Common pl site w)
    (hidle : w.state.inCall .server = none) (hconnecting : w.state.connecting i = some id)
    (hclientId : (headerOf pl (ledger pl (view .server w).log).message).clientId = site.clientId i)
    (hnew : a.acceptConnection = true →
      a.portContext ∉ (ledger pl (view .server w).log).contexts) :
    Common pl site ((network pl site).next w (.server, .issue (.alpcAcceptConnectPort a))
      (.answered i)) := by
  let w' := (network pl site).next w (.server, .issue (.alpcAcceptConnectPort a)) (.answered i)
  have hview : ∀ p, view p w' = view p w := fun p => view_issue .server p w _ _
  have hclient : ∀ j, w'.state.inCall (.client j) = w.state.inCall (.client j) := by
    intro j
    rw [issue_inCall, Function.update_of_ne (by simp)]
  have hnone : w.state.accepting = [] := accepting_idle hidle
  have hother : ∀ j, j ≠ i → w'.state.connecting j = w.state.connecting j := fun j hj =>
    Function.update_of_ne hj ..
  have hself : w'.state.connecting i = none := Function.update_self ..
  have hjoined : w.state.handlesOf i = (established (view (.client i) w).log).map some := by
    refine (h.joined i).resolve_right fun hn => ?_
    exact absurd (hn.2.1.symm.trans hconnecting) (Option.some_ne_none _).symm
  constructor
  case sound =>
    refine (h.sound.answer fun ha => ?_).congr rfl rfl rfl rfl
    rw [h.contexts hnone]
    exact hnew ha
  case agreed =>
    rw [hview]
    have hagreed := h.agreed
    rw [hnone] at hagreed
    by_cases ha : a.acceptConnection = true
    · simpa [w', network, Net.effectPhase, Net.post, Net.answer, Net.accounts, Net.accepting, ha]
        using hagreed
    · simpa [w', network, Net.effectPhase, Net.post, Net.answer, Net.accounts, Net.accepting, ha]
        using hagreed
  case disconnected =>
    rw [hview]
    exact h.disconnected
  case message =>
    rw [hview]
    exact h.message
  case answering =>
    intro a' j hcall
    rw [issue_inCall, Function.update_self] at hcall
    cases hcall
    rw [hview]
    exact hclientId
  case joined =>
    intro j
    rw [hview]
    by_cases hj : j = i
    · subst hj
      by_cases ha : a.acceptConnection = true
      · obtain ⟨b, t, hconnects⟩ := h.connects j id hconnecting
        refine .inr ⟨⟨b, t, (hclient j).trans hconnects⟩, hself, ?_⟩
        rw [← hjoined]
        simp [network, Net.effectPhase, Net.post, Net.answer, Net.handlesOf, ha]
      · refine .inl (hjoined ▸ ?_)
        simp [network, Net.effectPhase, Net.post, Net.answer, Net.handlesOf, ha]
    · have hhandles : w'.state.handlesOf j = w.state.handlesOf j := by
        by_cases ha : a.acceptConnection = true
        · simp [w', network, Net.effectPhase, Net.post, Net.answer, Net.handlesOf, ha, Ne.symm hj]
        · simp [w', network, Net.effectPhase, Net.post, Net.answer, Net.handlesOf, ha]
      rcases h.joined j with hall | ⟨⟨b, t, hconnects⟩, hnone, hlast⟩
      · exact .inl (hhandles.trans hall)
      · exact .inr ⟨⟨b, t, (hclient j).trans hconnects⟩, (hother j hj).trans hnone,
          hhandles.trans hlast⟩
  case connects =>
    intro j id' hid
    by_cases hj : j = i
    · subst hj
      exact absurd (hself.symm.trans hid) (Option.some_ne_none _).symm
    · obtain ⟨b, t, hconnects⟩ := h.connects j id' ((hother j hj).symm.trans hid)
      exact ⟨b, t, (hclient j).trans hconnects⟩
  case carried =>
    rw [hview]
    exact h.carried

theorem common_issue_server {o : Op} {t : Ticket ι} (h : Common pl site w)
    (hfits : ∀ a, o = .alpcAcceptConnectPort a → ∀ r,
      (w.state.process .server).Legal pl (.alpcAcceptConnectPort a) r → Orderly pl
        ((system pl anyKernel).next (view .server w) (.alpcAcceptConnectPort a) r))
    (hl : (network pl site).legal w (.server, .issue o) t) :
    Common pl site ((network pl site).next w (.server, .issue o) t) := by
  obtain ⟨hidle, hl⟩ := hl
  cases t with
  | nothing => exact h.issued_server hidle (by simp) ⟨w.state.mail, by cases o <;> rfl⟩
  | posted m =>
    refine h.issued_server hidle (by simp) ?_
    cases o with
    | alpcSendWaitReceivePort a => exact ⟨_, rfl⟩
    | _ => exact ⟨w.state.mail, rfl⟩
  | answered i =>
    cases o with
    | alpcAcceptConnectPort a =>
      obtain ⟨id, hconnecting, hshown, hreceived⟩ := hl
      have hfits := hfits a rfl
      have hmessage := (Orderly.shows (hfits refused refused_legal)).symm.trans hshown
      refine h.issued_answer hidle hconnecting ?_ fun ha => Orderly.fresh ha hfits
      exact h.answers hconnecting (Option.some.inj hmessage) hreceived
    | _ => exact hl.elim

end AlpcResearch.Channel
