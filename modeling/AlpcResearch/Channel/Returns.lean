import AlpcResearch.Channel.Agreement

/-!
# What calls return to both ends

Both ends stay agreed when a call returns: a connect with the handle of the
connection, a receive with the oldest message, which belongs to a session the
server has open, and an accept with the answer to the request it was for.
-/

namespace AlpcResearch.Channel

open Resource Program Process
open Rpc (Party Posted isSync kindSent)

variable {ι : Type} [DecidableEq ι]
variable {pl : Platform} {site : Site ι} {w : NetWorld ι}

-- ---------------------------------------------------------------------------
-- A client's calls
-- ---------------------------------------------------------------------------

theorem await_inCall (p : Party ι) (w : NetWorld ι) (o : Op) (r : Ret o) :
    ((network pl site).next w (p, .await o) r).state.inCall =
      Function.update w.state.inCall p none := rfl

theorem established_other {o : Op} (ho : ∀ a, o ≠ .alpcConnectPort a) (r : Ret o) (log : List Ev) :
    established (⟨o, r⟩ :: log) = established log := by
  cases o with
  | alpcConnectPort a => exact absurd rfl (ho a)
  | _ => rfl

theorem established_connect (a : ConnectPort) (r : ConnectReply) (log : List Ev) :
    established (⟨.alpcConnectPort a, r⟩ :: log) =
      if ntSuccess r.status then r.handle :: established log else established log := by
  simp only [established, List.filterMap_cons]
  split <;> simp_all

/-- What a client's call returns with, if it is no connect. -/
theorem Common.returned {i : ι} {o : Op} {r : Ret o} {t : Ticket ι} (h : Common pl site w)
    (hcall : w.state.inCall (.client i) = some (o, t)) (ho : ∀ a, o ≠ .alpcConnectPort a) :
    Common pl site ((network pl site).next w (.client i, .await o) r) := by
  let w' := (network pl site).next w (.client i, .await o) r
  have hidle : ¬ w.state.Connects i := by
    rintro ⟨a, t', hconnects⟩
    cases hcall.symm.trans hconnects
    exact ho a rfl
  have hfinish : ∃ mail, w.state.finish (.client i) o r = { w.state with mail } := by
    cases o with
    | alpcConnectPort a => exact absurd rfl (ho a)
    | alpcSendWaitReceivePort a => exact ⟨_, rfl⟩
    | _ => exact ⟨w.state.mail, rfl⟩
  obtain ⟨mail, hfinish⟩ := hfinish
  have hstate : w'.state = { w.state with
      mail
      process := Function.update w.state.process (.client i)
        ((w.state.process (.client i)).effect pl o r)
      inCall := Function.update w.state.inCall (.client i) none } := by
    simp only [w', next_state, network, Net.effectPhase, hfinish]
  have hview : view .server w' = view .server w := view_other (by simp) w o r
  have hlog : ∀ j, established (view (.client j) w').log =
      established (view (.client j) w).log := by
    intro j
    by_cases hj : j = i
    · subst hj
      rw [view_await (.client j) w o r anyKernel, next_log, established_other ho]
    · rw [view_other (by simpa using hj)]
  have hclient : ∀ j, j ≠ i → w'.state.inCall (.client j) = w.state.inCall (.client j) := by
    intro j hj
    rw [await_inCall, Function.update_of_ne (by simpa using hj)]
  constructor
  case sound => exact hstate ▸ h.sound.congr rfl rfl rfl rfl
  case agreed =>
    rw [hview, Net.accepting, await_inCall, Function.update_of_ne (by simp)]
    change w'.state.accounts site = _
    rw [hstate]
    exact h.agreed
  case disconnected =>
    rw [hview]
    change _ = ((w'.state.received.map Prod.fst).filter _).map _
    rw [hstate]
    exact h.disconnected
  case message =>
    rw [hview]
    change _ = (w'.state.received.map Prod.snd).headD []
    rw [hstate]
    exact h.message
  case answering =>
    intro a j
    rw [hview, await_inCall, Function.update_of_ne (by simp)]
    exact h.answering a j
  case joined =>
    intro j
    rw [Net.Joined, hlog]
    change w'.state.handlesOf j = _ ∨ _ ∧ w'.state.connecting j = none ∧ w'.state.handlesOf j = _
    by_cases hj : j = i
    · subst hj
      rw [hstate]
      exact .inl (h.joined_idle hidle)
    · rcases h.joined j with hall | ⟨⟨a, t', hconnects⟩, hlast⟩
      · exact .inl (by rw [hstate]; exact hall)
      · exact .inr ⟨⟨a, t', (hclient j hj).trans hconnects⟩, by rw [hstate]; exact hlast⟩
  case connects =>
    intro j id
    change w'.state.connecting j = some id → _
    rw [hstate]
    intro hid
    by_cases hj : j = i
    · subst hj
      exact absurd (h.connects j id hid) hidle
    · obtain ⟨a, t', hconnects⟩ := h.connects j id hid
      exact ⟨a, t', (hclient j hj).trans hconnects⟩
  case carried =>
    rw [hview]
    exact h.carried

/-- A connect returns the handle of the connection the server has accepted, or
there is none. -/
theorem Common.connected {i : ι} {a : ConnectPort} {r : ConnectReply} {t : Ticket ι}
    (h : Common pl site w) (hcall : w.state.inCall (.client i) = some (.alpcConnectPort a, t))
    (hr : ntSuccess r.status = true ↔ ∃ c ∈ w.state.connections, c.client = i ∧ c.handle = none) :
    Common pl site ((network pl site).next w (.client i, .await (.alpcConnectPort a)) r) := by
  let w' := (network pl site).next w (.client i, .await (.alpcConnectPort a)) r
  let f : Connection ι → Connection ι := fun c =>
    if c.client = i ∧ c.handle = none then { c with handle := some r.handle } else c
  have hf : ∀ d, (f d).context = d.context ∧ (f d).client = d.client := fun d => by
    simp only [f]
    split <;> exact ⟨rfl, rfl⟩
  have hconnections : w'.state.connections =
      if ntSuccess r.status then w.state.connections.map f else w.state.connections := rfl
  have hview : view .server w' = view .server w := view_other (by simp) w (.alpcConnectPort a) r
  have hclient : ∀ j, j ≠ i → w'.state.inCall (.client j) = w.state.inCall (.client j) := by
    intro j hj
    rw [await_inCall, Function.update_of_ne (by simpa using hj)]
  have hother : ∀ j, j ≠ i → w'.state.connecting j = w.state.connecting j := fun j hj =>
    Function.update_of_ne hj ..
  have hmem : none ∈ w.state.handlesOf i ↔ ntSuccess r.status = true := by
    simp [hr, Net.handlesOf, and_assoc]
  constructor
  case sound => exact (h.sound.connect (i := i) (r := r)).congr rfl rfl rfl rfl
  case agreed =>
    rw [hview, Net.accepting, await_inCall, Function.update_of_ne (by simp)]
    refine Eq.trans ?_ h.agreed
    rw [Net.accounts, hconnections]
    split
    · exact Net.accounts_mapped (N := w.state) (fun d => (hf d).1) fun d => (hf d).2
    · rfl
  case disconnected =>
    rw [hview]
    exact h.disconnected
  case message =>
    rw [hview]
    exact h.message
  case answering =>
    intro b j
    rw [hview, await_inCall, Function.update_of_ne (by simp)]
    exact h.answering b j
  case joined =>
    intro j
    by_cases hj : j = i
    · subst hj
      refine .inl ?_
      rw [view_await (.client j) w (.alpcConnectPort a) r anyKernel, next_log, established_connect]
      by_cases hs : ntSuccess r.status = true
      · rw [if_pos hs, List.map_cons]
        have hlast := ((h.joined j).resolve_left fun hall => by
          rw [hall] at hmem
          exact absurd (hmem.mpr hs) (by simp)).2.2
        have hhandles : w'.state.handlesOf j =
            (w.state.handlesOf j).map fun x => if x = none then some r.handle else x := by
          rw [Net.handlesOf, hconnections, if_pos hs]
          refine (Net.handlesOf_mapped (N := w.state) j fun d => (hf d).2).trans ?_
          rw [Net.handlesOf, List.map_map]
          refine List.map_congr_left fun d hd => ?_
          have hclient : d.client = j := of_decide_eq_true (List.mem_filter.mp hd).2
          by_cases hnone : d.handle = none
          · simp [f, hclient, hnone]
          · simp [f, hnone]
        rw [hhandles, hlast]
        simp
      · rw [if_neg hs]
        have hall := (h.joined j).resolve_right fun hn => by
          rw [hn.2.2] at hmem
          exact hs (hmem.mp (by simp))
        rw [← hall, Net.handlesOf, hconnections, if_neg hs, Net.handlesOf]
    · have hlog : (view (.client j) w').log = (view (.client j) w).log :=
        congrArg _ (view_other (by simpa using hj) w (.alpcConnectPort a) r)
      have hhandles : w'.state.handlesOf j = w.state.handlesOf j := by
        rw [Net.handlesOf, hconnections]
        split
        · refine (Net.handlesOf_mapped (N := w.state) j fun d => (hf d).2).trans ?_
          refine List.map_congr_left fun d hd => ?_
          have hclient : d.client = j := of_decide_eq_true (List.mem_filter.mp hd).2
          simp [f, hclient, hj]
        · rfl
      rw [Net.Joined, hlog]
      rcases h.joined j with hall | ⟨⟨b, t', hconnects⟩, hnone, hlast⟩
      · exact .inl (hhandles.trans hall)
      · exact .inr ⟨⟨b, t', (hclient j hj).trans hconnects⟩, (hother j hj).trans hnone,
          hhandles.trans hlast⟩
  case connects =>
    intro j id hid
    by_cases hj : j = i
    · subst hj
      exact absurd ((Function.update_self ..).symm.trans hid) (Option.some_ne_none _).symm
    · obtain ⟨b, t', hconnects⟩ := h.connects j id ((hother j hj).symm.trans hid)
      exact ⟨b, t', (hclient j hj).trans hconnects⟩
  case carried =>
    rw [hview]
    exact h.carried

-- ---------------------------------------------------------------------------
-- The server's calls
-- ---------------------------------------------------------------------------

omit [DecidableEq ι] in
theorem Common.accepting_other {o : Op} {t : Ticket ι}
    (hcall : w.state.inCall .server = some (o, t))
    (ho : ∀ a i, o = .alpcAcceptConnectPort a → t = .answered i → a.acceptConnection = false) :
    w.state.accepting = [] := by
  simp only [Net.accepting, hcall]
  split
  · rename_i a i he
    cases he
    simp [ho a i rfl rfl]
  · rfl

/-- A call of the server returns, with what that makes of its ledger. -/
theorem Common.served {o : Op} {r : Ret o} {L : Ledger} (h : Common pl site w)
    (hL : (ledger pl (view .server w).log).add pl ⟨o, r⟩ = L)
    (hsound : (w.state.finish .server o r).Sound pl site)
    (hconnections : (w.state.finish .server o r).connections = w.state.connections)
    (hconnecting : (w.state.finish .server o r).connecting = w.state.connecting)
    (hagreed : w.state.accounts site = L.accepted.map fun s => (s.context, s.clientId))
    (hdisconnected : L.disconnected = (((w.state.finish .server o r).received.map Prod.fst).filter
      Packet.isNotice).map Packet.context)
    (hmessage : L.message = ((w.state.finish .server o r).received.map Prod.snd).headD [])
    (hcarried : Carried pl (ledger pl (view .server w).log) ⟨o, r⟩) :
    Common pl site ((network pl site).next w (.server, .await o) r) := by
  let w' := (network pl site).next w (.server, .await o) r
  have hlog : (view .server w').log = ⟨o, r⟩ :: (view .server w).log :=
    congrArg _ (view_await .server w o r anyKernel)
  have hledger : ledger pl (view .server w').log = L := by
    rw [hlog]
    exact hL
  have hview : ∀ i, view (.client i) w' = view (.client i) w := fun i => view_other (by simp) w o r
  have hclient : ∀ i, w'.state.inCall (.client i) = w.state.inCall (.client i) := by
    intro i
    rw [await_inCall, Function.update_of_ne (by simp)]
  have hhandles : ∀ i, w'.state.handlesOf i = w.state.handlesOf i := by
    intro i
    rw [Net.handlesOf, Net.handlesOf, ← hconnections]
    rfl
  constructor
  case sound => exact hsound.congr rfl rfl rfl rfl
  case agreed =>
    rw [hledger, Net.accepting, await_inCall, Function.update_self]
    refine Eq.trans ?_ hagreed
    rw [Net.accounts, Net.accounts, ← hconnections]
    rfl
  case disconnected =>
    rw [hledger]
    exact hdisconnected
  case message =>
    rw [hledger]
    exact hmessage
  case answering =>
    intro a i hcall
    rw [await_inCall, Function.update_self] at hcall
    cases hcall
  case joined =>
    intro i
    rw [hview]
    rcases h.joined i with hall | ⟨⟨a, t, hconnects⟩, hnone, hlast⟩
    · exact .inl ((hhandles i).trans hall)
    · exact .inr ⟨⟨a, t, (hclient i).trans hconnects⟩, (congrFun hconnecting i).trans hnone,
        (hhandles i).trans hlast⟩
  case connects =>
    intro i id hid
    obtain ⟨a, t, hconnects⟩ := h.connects i id ((congrFun hconnecting i).symm.trans hid)
    exact ⟨a, t, (hclient i).trans hconnects⟩
  case carried =>
    intro e earlier hsuffix
    rw [hlog] at hsuffix
    rcases List.suffix_cons_iff.mp hsuffix with he | hsuffix
    · cases he
      exact hcarried
    · exact h.carried e earlier hsuffix

omit [DecidableEq ι] in
theorem Packet.isNotice_iff {m : Packet ι} (hkind : m.kind = lpcRequest ∨ m.kind = lpcDatagram ∨
    m.kind = lpcConnectionRequest ∨ m.kind = lpcPortClosed) :
    isDisconnect m.kind = m.isNotice := by
  rcases hkind with hkind | hkind | hkind | hkind
  all_goals
    simp only [Packet.isNotice, hkind]
    decide

theorem Common.received {a : SendWaitReceive} {r : Reply} {t : Ticket ι} {m : Packet ι}
    {rest : List (Packet ι)} (h : Common pl site w)
    (hcall : w.state.inCall .server = some (.alpcSendWaitReceivePort a, t))
    (ha : Ledger.isReceive a = true) (hs : ntSuccess r.status = true)
    (hqueue : w.state.queue = m :: rest) (hm : m.ArrivesAs pl site r.written)
    (hcontext : r.portContext = m.context) :
    Common pl site ((network pl site).next w (.server, .await (.alpcSendWaitReceivePort a)) r) := by
  have hfinish : w.state.finish .server (.alpcSendWaitReceivePort a) r =
      w.state.deliver r.written := by
    simp [Net.finish, ha, hs]
  have hdeliver : w.state.deliver r.written =
      { w.state with queue := rest, received := (m, r.written) :: w.state.received } := by
    simp only [Net.deliver, hqueue]
  have hnone : w.state.accepting = [] := Common.accepting_other hcall (by rintro _ _ ⟨⟩)
  have hmem : m ∈ w.state.packets := by simp [Net.packets, hqueue]
  have hkind := Packet.isNotice_iff (h.sound.kinds m hmem)
  have hL : (ledger pl (view .server w).log).add pl ⟨.alpcSendWaitReceivePort a, r⟩ =
      (ledger pl (view .server w).log).receive pl r.written r.portContext := by
    simp [Ledger.add, ha, hs]
  refine h.served hL ?_ (by rw [hfinish, hdeliver]) (by rw [hfinish, hdeliver]) ?_ ?_ ?_ ?_
  · rw [hfinish]
    exact h.sound.deliver hqueue hm
  · have hagreed := h.agreed
    rw [hnone] at hagreed
    exact hagreed
  · rw [hfinish, hdeliver, List.map_cons]
    by_cases hnotice : m.isNotice = true
    · rw [List.filter_cons_of_pos hnotice, List.map_cons, ← h.disconnected, ← hcontext]
      exact Ledger.receive_disconnect (by rw [hm.kind, hkind, hnotice])
    · rw [List.filter_cons_of_neg hnotice, ← h.disconnected]
      exact Ledger.receive_other (by rw [hm.kind, hkind]; exact hnotice)
  · rw [hfinish, hdeliver]
    rfl
  · intro _ _ hother
    have hover : m.isOver = true := by
      have hne : m.kind ≠ lpcConnectionRequest := hm.kind ▸ hother
      simp [Packet.isOver, Packet.isRequest, hne]
    obtain ⟨c, hc, hctx, -⟩ := h.sound.carried m hmem hover
    have hknown : m.context ∈ (ledger pl (view .server w).log).contexts := by
      rw [← h.contexts hnone, ← hctx]
      exact List.mem_map_of_mem hc
    have hopen : m.context ∉ (ledger pl (view .server w).log).disconnected := by
      rw [h.disconnected]
      intro hmem'
      obtain ⟨q, hq, hsame⟩ := List.mem_map.mp hmem'
      obtain ⟨hq, hqn⟩ := List.mem_filter.mp hq
      have hlast := h.sound.last
      rw [Net.packets, hqueue] at hlast
      exact (List.pairwise_append.mp hlast).2.2 q (List.mem_reverse.mpr hq) m List.mem_cons_self
        hqn hover hsame.symm
    obtain ⟨s, hs', hsame⟩ := List.mem_map.mp hknown
    refine List.mem_map.mpr ⟨s, Ledger.mem_sessions.mpr ⟨hs', ?_⟩, ?_⟩
    · rw [hsame]
      exact hopen
    · rw [hsame, hcontext]

theorem common_await_server {o : Op} {r : Ret o} (h : Common pl site w)
    (hl : (network pl site).legal w (.server, .await o) r) :
    Common pl site ((network pl site).next w (.server, .await o) r) := by
  obtain ⟨-, t, hcall, hbrings⟩ := hl
  have hagreed := h.agreed
  cases o with
  | alpcSendWaitReceivePort a =>
    by_cases hr : Ledger.isReceive a = true ∧ ntSuccess r.status = true
    · obtain ⟨m, rest, hqueue, hm, hcontext⟩ := hbrings hr.1 hr.2
      exact h.received hcall hr.1 hr.2 hqueue hm hcontext
    · have hfalse : ¬ (Ledger.isReceive a && ntSuccess r.status) = true := by simpa using hr
      have hL : (ledger pl (view .server w).log).add pl ⟨.alpcSendWaitReceivePort a, r⟩ =
          ledger pl (view .server w).log := if_neg hfalse
      have hfinish : w.state.finish .server (.alpcSendWaitReceivePort a) r = w.state :=
        if_neg hfalse
      rw [Common.accepting_other hcall (by rintro _ _ ⟨⟩)] at hagreed
      exact h.served hL (by rw [hfinish]; exact h.sound) (by rw [hfinish]) (by rw [hfinish]) hagreed
        (by rw [hfinish]; exact h.disconnected) (by rw [hfinish]; exact h.message)
        fun ha hs => absurd ⟨ha, hs⟩ hr
  | alpcAcceptConnectPort a =>
    by_cases ha : a.acceptConnection = true
    · by_cases hs : ntSuccess r.status = true
      · obtain ⟨i, rfl⟩ := (hbrings ha).mp hs
        have hL : (ledger pl (view .server w).log).add pl ⟨.alpcAcceptConnectPort a, r⟩ =
            (ledger pl (view .server w).log).accept pl a.portContext r.handle := by
          simp [Ledger.add, ha, hs]
        refine h.served hL h.sound rfl rfl ?_ h.disconnected h.message trivial
        rw [hagreed, Net.accepting, hcall]
        simp only [ha, if_true, List.map_cons, List.map_nil, List.singleton_append]
        rw [Ledger.accept_accepted, List.map_cons, h.answering a i hcall]
      · have hL : (ledger pl (view .server w).log).add pl ⟨.alpcAcceptConnectPort a, r⟩ =
            ledger pl (view .server w).log := by
          simp [Ledger.add, ha, hs]
        have hnone : w.state.accepting = [] := by
          refine Common.accepting_other hcall fun a' i he ht => ?_
          exact absurd ((hbrings ha).mpr ⟨i, ht⟩) hs
        rw [hnone] at hagreed
        exact h.served hL h.sound rfl rfl hagreed h.disconnected h.message trivial
    · have hL : (ledger pl (view .server w).log).add pl ⟨.alpcAcceptConnectPort a, r⟩ =
          (ledger pl (view .server w).log).reject := by
        simp [Ledger.add, ha]
      have hnone : w.state.accepting = [] := by
        refine Common.accepting_other hcall fun a' i he ht => ?_
        cases he
        simpa using ha
      rw [hnone] at hagreed
      exact h.served hL h.sound rfl rfl hagreed h.disconnected h.message trivial
  | _ =>
    rw [Common.accepting_other hcall (by rintro _ _ ⟨⟩)] at hagreed
    exact h.served (Ledger.add_other _ r (by rintro _ ⟨⟩) (by rintro _ ⟨⟩)) h.sound rfl rfl hagreed
      h.disconnected h.message trivial

theorem common_await_client {i : ι} {o : Op} {r : Ret o} (h : Common pl site w)
    (hl : (network pl site).legal w (.client i, .await o) r) :
    Common pl site ((network pl site).next w (.client i, .await o) r) := by
  obtain ⟨-, t, hcall, hbrings⟩ := hl
  cases o with
  | alpcConnectPort a => exact h.connected hcall hbrings
  | _ => exact h.returned hcall (by rintro _ ⟨⟩)

end AlpcResearch.Channel
