import AlpcResearch.Channel.Returns

/-!
# All parties together

The network names each connection in at most one disconnect message
(`Common.alone`), so a worker that is right alone under such a kernel is right
in the network, in every interleaving of its rounds with what its clients run.
`Roles.reaches` is that rule, with room for what a particular worker and
particular clients add; `Attends.reaches` is the case of clients that run
anything at all.
-/

namespace AlpcResearch.Channel

open Resource Program Process
open Rpc (Party)

abbrev peers (pl : Platform) : Assumption := (sessionKernel pl oncePerConnection).and exactClose

def receives (good : List UInt8 → Prop) : Assumption
  | _, .alpcSendWaitReceivePort a, r =>
    Ledger.isReceive a = true → ntSuccess r.status = true → good r.written
  | _, _, _ => True

/-- What is shown besides `Common`: of the network; of the server alone, at
all times, between its rounds and when its loop is left, if the messages are
as `message` says; and of each client alone, at all times and between its
programs. -/
structure Roles (ι : Type) where
  shared : NetWorld ι → Prop
  message : List UInt8 → Prop
  server : World → Prop
  between : World → Prop
  left : NtStatus → World → Prop
  client : World → Prop
  idle : World → Prop

variable {ι κ : Type} [DecidableEq ι] {program : κ → Proc NtStatus}
variable {pl : Platform} {site : Site ι} {w : NetWorld ι} {P₀ : Process} {R : Roles ι}

def Roles.parties (R : Roles ι) (pl : Platform) (site : Site ι) (program : κ → Proc NtStatus) :
    Parties (Party ι) (Task κ) Op Ret (Ticket ι) (Net ι) Process (Control NtStatus) where
  component := channel pl site program
  view := view
  alone
    | .server => system pl ((peers pl).and (receives R.message))
    | .client _ => system pl anyKernel
  code _ task := task.code site program
  inv
    | .server => fun u => Orderly pl u ∧ R.server u
    | .client _ => R.client
  owes
    | .server => fun _ => After R.between R.left
    | .client _ => fun _ _ => R.idle
  common w := Common pl site w ∧ R.shared w

structure Roles.Played (R : Roles ι) (pl : Platform) (site : Site ι)
    (program : κ → Proc NtStatus) : Prop where
  round : ∀ v, R.between v → site.worker.safe (system pl ((peers pl).and (receives R.message)))
    (fun u => Orderly pl u ∧ R.server u) (After R.between R.left) v
  run : ∀ c v, R.idle v →
    (program c).safe (system pl anyKernel) R.client (fun _ => R.idle) v
  idle : ∀ v, R.idle v → R.client v
  arrives : ∀ w, Common pl site w → R.shared w → ∀ m rest, w.state.queue = m :: rest →
    ∀ written, m.ArrivesAs pl site written → R.message written
  issue : ∀ w p o t, (R.parties pl site program).Holds w →
    (R.parties pl site program).Fits p (view p w) o →
    (network pl site).legal w (p, .issue o) t →
    R.shared ((network pl site).next w (p, .issue o) t)
  await : ∀ w p o r, (R.parties pl site program).Holds w →
    (network pl site).legal w (p, .await o) r →
    R.shared ((network pl site).next w (p, .await o) r)

/-- The network names each connection in at most one disconnect message. -/
theorem Common.alone {o : Op} {r : Ret o} (h : Common pl site w)
    (hl : (network pl site).legal w (.server, .await o) r) :
    (system pl (peers pl)).legal (view .server w) o r := by
  have hnext := common_await_server h hl
  obtain ⟨hprocess, t, -, hbrings⟩ := hl
  refine ⟨hprocess, ?_⟩
  cases o with
  | alpcSendWaitReceivePort a =>
    refine ⟨fun hdisconnect => ?_, trivial⟩
    simp only [Bool.and_eq_true] at hdisconnect
    obtain ⟨⟨hreceive, hs⟩, hk⟩ := hdisconnect
    have hcarried := hnext.carried ⟨.alpcSendWaitReceivePort a, r⟩ (view .server w).log (by
      rw [view_await .server w _ r anyKernel]
      exact List.suffix_refl _)
    exact Ledger.named_open (hcarried hreceive hs (ne_of_disconnect hk).2.2)
  | alpcGetMessageAttribute buffer flag => exact ⟨hbrings, trivial⟩
  | close x => exact ⟨trivial, hbrings⟩
  | _ => exact ⟨trivial, trivial⟩

theorem Roles.Played.alone {o : Op} {r : Ret o} (hR : R.Played pl site program)
    (h : Common pl site w) (hn : R.shared w)
    (hl : (network pl site).legal w (.server, .await o) r) :
    (system pl ((peers pl).and (receives R.message))).legal (view .server w) o r := by
  obtain ⟨hprocess, hpeers⟩ := h.alone hl
  refine ⟨hprocess, hpeers, ?_⟩
  cases o with
  | alpcSendWaitReceivePort a =>
    obtain ⟨-, t, -, hbrings⟩ := hl
    intro hreceive hs
    obtain ⟨m, rest, hqueue, harrives, -⟩ := hbrings hreceive hs
    exact hR.arrives w h hn m rest hqueue _ harrives
  | _ => trivial

theorem Roles.Played.lawful (hR : R.Played pl site program) :
    (R.parties pl site program).Lawful where
  code _ _ := rfl
  issue_view := view_issue _ _ _ _ _
  issue_common := by
    rintro p w o t hw hfits hl
    refine ⟨?_, hR.issue w p o t hw hfits hl⟩
    cases p with
    | server =>
      refine common_issue_server hw.common.1 (fun a ha r hr => ?_) hl
      subst ha
      exact (hfits r ⟨hr, ⟨trivial, trivial⟩, trivial⟩).1
    | client i => exact common_issue_client hw.common.1 hl
  await_view := by
    intro i w o r
    cases i <;> exact view_await _ w o r _
  await_other h := view_other h _ _ _
  await_alone := by
    rintro (_ | i) w o r hw hl
    · exact hR.alone hw.1 hw.2 hl
    · exact ⟨hl.1, trivial⟩
  await_common := by
    rintro p w o r hw hl
    refine ⟨?_, hR.await w p o r hw hl⟩
    cases p with
    | server => exact common_await_server hw.common.1 hl
    | client i => exact common_await_client hw.common.1 hl
  start_common := by
    rintro (_ | i) c a c' w w' hw hstart
    · obtain ⟨-, -, rfl⟩ := hstart
      exact hw.common
    · obtain ⟨_, rfl⟩ := hstart
      exact hw.common
  start_other := by
    rintro (_ | i) j c a c' w w' hj hstart
    · obtain ⟨-, -, rfl⟩ := hstart
      rfl
    · obtain ⟨_, rfl⟩ := hstart
      rfl
  start_code := by
    rintro (_ | i) c a c' w w' hw howes hstart
    · obtain ⟨rfl, rfl, rfl⟩ := hstart
      exact hR.round _ howes
    · obtain ⟨⟨c', rfl⟩, rfl⟩ := hstart
      refine safe_bind (safe_imp (hR.run c' _ howes) (fun _ h => h) fun _ v hv hidle => ?_)
      exact ⟨hv, hidle⟩

-- ---------------------------------------------------------------------------
-- All interleavings
-- ---------------------------------------------------------------------------

variable {P Q : NetPool ι κ}

theorem Opens.common (h : Opens P₀ Q) : Common pl site Q.world := by
  have hlog : ∀ p, (view p Q.world).log = [] := fun p => by simp [view, h.history, eventsOf]
  have hpackets : Q.world.state.packets = [] := by simp [Net.packets, h.received, h.queue]
  constructor
  case sound =>
    constructor
    · simp [h.received]
    · simp [hpackets]
    · simp [hpackets]
    · simp [h.connecting]
    · simp [h.connections]
    · simp [hpackets]
    · simp [hpackets]
    · simp [h.connections]
  case agreed =>
    simp [Net.accounts, h.connections, Net.accepting, h.inCall, hlog, ledger, Ledger.empty]
  case disconnected => simp [hlog, ledger, Ledger.empty, Ledger.disconnected, h.received]
  case message => simp [hlog, ledger, Ledger.empty, h.received]
  case answering => simp [h.inCall]
  case joined => exact fun i => .inl (by simp [Net.handlesOf, h.connections, hlog, established])
  case connects => simp [h.connecting]
  case carried => simp [hlog]

theorem Opens.view_server (h : Opens P₀ Q) : view .server Q.world = ⟨P₀, []⟩ := by
  simp [view, h.process, h.history, eventsOf]

theorem Opens.kept (hR : R.Played pl site program) (h : Opens P₀ Q) (hn : R.shared Q.world)
    (hserver : R.between ⟨P₀, []⟩) (hidle : ∀ i, R.idle (view (.client i) Q.world)) :
    (R.parties pl site program).contract.Kept (channel pl site program) Q := by
  have hstart : R.between (view .server Q.world) := h.view_server ▸ hserver
  refine Parties.kept_idle ⟨⟨h.common, hn⟩, ?_⟩ ?_
  · rintro (_ | i)
    · exact safe_here (hR.round _ hstart)
    · exact hR.idle _ (hidle i)
  · rintro (_ | i)
    · obtain ⟨task, ht⟩ := h.worker
      exact ⟨task, .again, ht, hstart⟩
    · obtain ⟨task, ended, ht⟩ := h.clients i
      exact ⟨task, ended, ht, hidle i⟩

structure Roles.Holds (R : Roles ι) (pl : Platform) (site : Site ι) (P : NetPool ι κ) : Prop where
  common : Common pl site P.world
  shared : R.shared P.world
  server : R.server (view .server P.world)
  client : ∀ i, R.client (view (.client i) P.world)
  ended : ∀ task ended, P.threads .server = (task, .ret ended) →
    After R.between R.left ended (view .server P.world)

/-- The rule: what is right alone is right in every interleaving. -/
theorem Roles.Played.reaches (hR : R.Played pl site program) (h₀ : Opens P₀ Q)
    (hn : R.shared Q.world) (hserver : R.between ⟨P₀, []⟩)
    (hidle : ∀ i, R.idle (view (.client i) Q.world))
    (h : (channel pl site program).Reaches anyStep Q P) : R.Holds pl site P := by
  have hkept := hR.lawful.reaches (h₀.kept hR hn hserver hidle) h
  have hinv : Orderly pl (view .server P.world) ∧ _ := hkept.inv.inv .server
  exact ⟨hkept.inv.common.1, hkept.inv.common.2, hinv.2, fun i => hkept.inv.inv (.client i),
    fun task ended ht => hkept.owes hR.lawful.valid ht⟩

/-- A party is in the call it awaits the answer to, and in no other. -/
inductive InStep (call : Option (Op × Ticket ι)) :
    Prog (Phase Op) (Phase.Ret Ret (Ticket ι)) (Control NtStatus) → Prop
  | idle {p : Proc (Control NtStatus)} : call = none → InStep call (p.phased (Ticket ι))
  | awaiting {k : Ret o → Proc (Control NtStatus)} {t : Ticket ι} : call = some (o, t) →
    InStep call (.call (.await o) fun r => (k r).phased (Ticket ι))

omit [DecidableEq ι] in
theorem InStep.returned {call : Option (Op × Ticket ι)} {ended : Control NtStatus}
    (h : InStep call (.ret ended)) : call = none := by
  generalize hcode : Prog.ret ended = code at h
  cases h with
  | idle hnone => exact hnone
  | awaiting => cases hcode

theorem inStep_step {P' : NetPool ι κ}
    (h : ∀ p, InStep (P.world.state.inCall p) (P.threads p).2)
    (hs : (channel pl site program).Step anyStep P P') (p : Party ι) :
    InStep (P'.world.state.inCall p) (P'.threads p).2 := by
  cases hs with
  | @start c ended c' w' _ q ht hstart =>
    have hstate : w' = P.world := by
      cases q with
      | server => exact hstart.2.2
      | client i => exact hstart.2
    subst hstate
    by_cases hp : p = q
    · subst hp
      have hp := h p
      rw [ht] at hp
      simp only [Function.update_self]
      exact .idle hp.returned
    · simpa only [Function.update_of_ne hp] using h p
  | @act c _ q o k r ht hl =>
    by_cases hp : p = q
    · subst hp
      have hq := h p
      rw [ht] at hq
      simp only [Function.update_self]
      generalize hcode : Prog.call o k = code at hq
      cases hq with
      | @idle body hnone =>
        cases body with
        | ret a => cases hcode
        | call o' k' =>
          cases hcode
          exact .awaiting (t := r) (Function.update_self ..)
      | awaiting hcall =>
        cases hcode
        exact .idle (Function.update_self ..)
    · have hother : ((channel pl site program).system.next P.world (q, o) r).state.inCall p =
          P.world.state.inCall p := by
        cases o <;> simp [channel, network, Net.effectPhase, hp]
      rw [hother]
      simpa only [Function.update_of_ne hp] using h p

/-- Between two of its rounds the worker is in no call. -/
theorem Opens.idle {task : Task κ} {ended : Control NtStatus} (h₀ : Opens P₀ Q)
    (h : (channel pl site program).Reaches anyStep Q P) (ht : P.threads p = (task, .ret ended)) :
    P.world.state.inCall p = none := by
  have hstart : ∀ p, InStep (Q.world.state.inCall p) (Q.threads p).2 := by
    rintro (_ | i)
    · obtain ⟨task, hworker⟩ := h₀.worker
      exact hworker ▸ .idle (p := .ret .again) (h₀.inCall _)
    · obtain ⟨task, ended, hclient⟩ := h₀.clients i
      exact hclient ▸ .idle (p := .ret ended) (h₀.inCall _)
  have hall := h.keeps (I := fun P => ∀ p, InStep (P.world.state.inCall p) (P.threads p).2) hstart
    fun P P' => inStep_step
  have hp := hall p
  rw [ht] at hp
  exact hp.returned

/-- The server has not received the notice of the connection's end. -/
def Net.Unended (N : Net ι) (c : Connection ι) : Prop :=
  c.closed = false ∨ ∃ m ∈ N.queue, m.isNotice = true ∧ m.context = c.context

/-- Both ends of every connection agree. -/
structure Agreed (pl : Platform) (site : Site ι) (P₀ : Process) (w : NetWorld ι) : Prop where
  /-- The server has not touched a block or a handle that was not its own. -/
  faults : (w.state.process .server).faults = P₀.faults
  /-- Each connection has one entry in the server's ledger, with its client and
  its context; the server has yet to hear of at most one. -/
  accepted : w.state.accounts site = w.state.accepting.map (fun x => (x.1, site.clientId x.2)) ++
    (ledger pl (view .server w).log).accepted.map fun s => (s.context, s.clientId)
  distinct : (w.state.connections.map Connection.context).Nodup
  /-- A client has the handle of each of its connections, but for one while it
  connects. -/
  joined : ∀ i, w.state.Joined i (view (.client i) w).log
  sessions : ∀ c ∈ w.state.connections,
    c.context ∈ (ledger pl (view .server w).log).sessions.map Session.context ↔
      c.context ∉ w.state.accepting.map Prod.fst ∧ w.state.Unended c
  /-- A message of a connection found its session open. -/
  carried : ∀ e earlier, e :: earlier <:+ (view .server w).log → Carried pl (ledger pl earlier) e
  once : (ledger pl (view .server w).log).disconnected.Nodup

theorem Common.notice_iff {c : Connection ι} (h : Common pl site w)
    (hc : c ∈ w.state.connections) :
    c.context ∉ (ledger pl (view .server w).log).disconnected ↔ w.state.Unended c := by
  rw [h.disconnected]
  have hlast := List.pairwise_append.mp h.sound.last
  have hclosed := h.sound.notices c hc
  constructor
  · intro hnone
    by_cases hopen : c.closed = true
    · obtain ⟨m, hm, hnotice, hctx⟩ := hclosed.mp hopen
      rcases List.mem_append.mp hm with hm | hm
      · refine absurd (List.mem_map.mpr ⟨m, List.mem_filter.mpr ⟨?_, hnotice⟩, hctx⟩) hnone
        exact List.mem_reverse.mp hm
      · exact .inr ⟨m, hm, hnotice, hctx⟩
    · exact .inl (by simpa using hopen)
  · intro hopen hmem
    obtain ⟨q, hq, hctx⟩ := List.mem_map.mp hmem
    obtain ⟨hq, hnotice⟩ := List.mem_filter.mp hq
    have hq := List.mem_reverse.mpr hq
    rcases hopen with hopen | ⟨m, hm, hmn, hmc⟩
    · have htrue := hclosed.mpr ⟨q, List.mem_append_left _ hq, hnotice, hctx⟩
      exact absurd (hopen.symm.trans htrue) Bool.false_ne_true
    · exact hlast.2.2 q hq m hm hnotice (Packet.isNotice.isOver hmn) (hmc.trans hctx.symm)

theorem Common.accepted_contexts (h : Common pl site w) :
    w.state.connections.map Connection.context =
      w.state.accepting.map Prod.fst ++ (ledger pl (view .server w).log).contexts := by
  have hfst := congrArg (List.map Prod.fst) h.agreed
  simpa [Net.accounts, Ledger.contexts, Function.comp_def] using hfst

theorem Common.session_iff {c : Connection ι} (h : Common pl site w)
    (hc : c ∈ w.state.connections) :
    c.context ∈ (ledger pl (view .server w).log).sessions.map Session.context ↔
      c.context ∉ w.state.accepting.map Prod.fst ∧ w.state.Unended c := by
  rw [← h.notice_iff hc]
  have hcontexts := h.accepted_contexts
  have hmem : c.context ∈ w.state.connections.map Connection.context := List.mem_map_of_mem hc
  have hnodup := h.sound.contexts
  rw [hcontexts] at hmem hnodup
  have hdisjoint := List.disjoint_of_nodup_append hnodup
  constructor
  · intro hsession
    obtain ⟨s, hs, hctx⟩ := List.mem_map.mp hsession
    obtain ⟨haccepted, hopen⟩ := Ledger.mem_sessions.mp hs
    have hknown : c.context ∈ (ledger pl (view .server w).log).contexts :=
      hctx ▸ List.mem_map_of_mem haccepted
    exact ⟨fun hpending => hdisjoint hpending hknown, hctx ▸ hopen⟩
  · rintro ⟨hpending, hopen⟩
    obtain ⟨s, hs, hctx⟩ := List.mem_map.mp ((List.mem_append.mp hmem).resolve_left hpending)
    exact List.mem_map.mpr ⟨s, Ledger.mem_sessions.mpr ⟨hs, hctx ▸ hopen⟩, hctx⟩

theorem Common.once (h : Common pl site w) :
    (ledger pl (view .server w).log).disconnected.Nodup := by
  rw [h.disconnected, List.nodup_iff_pairwise_ne, List.pairwise_map, List.pairwise_filter]
  have hlast := (List.pairwise_append.mp h.sound.last).1
  refine (List.pairwise_reverse.mp hlast).imp fun hne hm hq => ?_
  exact hne hq (Packet.isNotice.isOver hm)

-- ---------------------------------------------------------------------------
-- Clients that run anything
-- ---------------------------------------------------------------------------

variable {J : World → Prop} {E : NtStatus → World → Prop}

/-- A worker started in `P₀` is right alone; `J` holds between two rounds, and
`E` when the loop is left. -/
structure Attends (pl : Platform) (worker : Proc (Control NtStatus)) (P₀ : Process)
    (J : World → Prop) (E : NtStatus → World → Prop) : Prop where
  start : J ⟨P₀, []⟩
  round : ∀ v, J v → worker.safe (system pl (peers pl))
    (fun u => Orderly pl u ∧ u.state.faults = P₀.faults) (After J E) v

def attendance (P₀ : Process) (J : World → Prop) (E : NtStatus → World → Prop) : Roles ι where
  shared _ := True
  message _ := True
  server u := u.state.faults = P₀.faults
  between := J
  left := E
  client _ := True
  idle _ := True

theorem attendance_played (hJ : Attends pl site.worker P₀ J E) :
    (attendance P₀ J E).Played pl site program where
  round v hv := safe_assuming And.left (hJ.round v hv)
  run _ _ _ := safe_of_step (K := fun _ => True) (fun _ _ _ _ h => h) (fun _ h => h)
    (fun _ _ h => h) trivial
  idle _ h := h
  arrives _ _ _ _ _ _ _ _ := trivial
  issue _ _ _ _ _ _ _ := trivial
  await _ _ _ _ _ _ := trivial

theorem Roles.Holds.agreed (h : R.Holds pl site P)
    (hfaults : ∀ u, R.server u → u.state.faults = P₀.faults) : Agreed pl site P₀ P.world :=
  ⟨hfaults _ h.server, h.common.agreed, h.common.sound.contexts, h.common.joined,
    fun _ hc => h.common.session_iff hc, h.common.carried, h.common.once⟩

/-- A worker that is right alone agrees with all its clients. -/
theorem Attends.reaches (hJ : Attends pl site.worker P₀ J E) (h₀ : Opens P₀ Q)
    (h : (channel pl site program).Reaches anyStep Q P) :
    Agreed pl site P₀ P.world ∧ ∀ task ended, P.threads .server = (task, .ret ended) →
      After J E ended (view .server P.world) := by
  have hholds := (attendance_played hJ).reaches h₀ trivial hJ.start (fun _ => trivial) h
  exact ⟨hholds.agreed fun _ hu => hu, hholds.ended⟩

end AlpcResearch.Channel
