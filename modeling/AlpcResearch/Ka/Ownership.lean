import AlpcResearch.Ka
import AlpcResearch.Process.Inventory
import AlpcResearch.Process.Script
import AlpcResearch.Ua.Creation

/-!
# Who owns what in `ka.c`

After any sequence of calls of the API, mixed with failures at any step, the
pool blocks and the handles beyond those there were at the start are those of
the servers and clients returned and not disconnected since, each once
(`ownership_ledger`). What the worker of a server allocates is not part of this.
-/

namespace AlpcResearch.Ka

open Resource Program Process

def serverBlocks (server : ServerObject) : List Ref :=
  refsOf server.block ++ refsOf server.messageAttributes ++ refsOf server.portMessage

def serverHandles (server : ServerObject) : List Ref :=
  server.connectionPortHandle.toList ++ server.serverThreadHandle.toList

def clientBlocks (client : KaClientObject) : List Ref := refsOf client.block

def clientHandles (client : KaClientObject) : List Ref := client.communicationPortHandle.toList

/-- The servers and clients returned and not disconnected since. -/
structure Objects where
  servers : List ServerObject
  clients : List KaClientObject

namespace Objects

def none : Objects := ⟨[], []⟩

def blocks (O : Objects) : List Ref :=
  O.servers.flatMap serverBlocks ++ O.clients.flatMap clientBlocks

def handles (O : Objects) : List Ref :=
  O.servers.flatMap serverHandles ++ O.clients.flatMap clientHandles

end Objects

/-- One call of the API that has returned. Its data buffer is any, its length
one that does not wrap. -/
inductive Call (pl : Platform) (A : Assumption) : Objects → World → Objects → World → Prop
  | createServer {r : Option ServerObject} :
      Ends (system pl A) (kaCreateServer pl portName f g k) w r w' →
      Call pl A O w { O with servers := r.toList ++ O.servers } w'
  | connectServer {n : UInt16} {r : Option KaClientObject} :
      pl.sizeofPortMessage + n.toNat < 2 ^ 16 →
      Ends (system pl A) (kaConnectServer pl portName data n) w r w' →
      Call pl A O w { O with clients := r.toList ++ O.clients } w'
  | sendSynchronousRequest {n : UInt16} : pl.sizeofPortMessage + n.toNat < 2 ^ 16 →
      Ends (system pl A) (kaSendSynchronousRequest pl client data n) w result w' →
      Call pl A O w O w'
  | sendDatagram {n : UInt16} : pl.sizeofPortMessage + n.toNat < 2 ^ 16 →
      Ends (system pl A) (kaSendDatagram pl client data n) w result w' → Call pl A O w O w'
  | disconnectServer : client ∈ O.clients →
      Ends (system pl A) (kaDisconnectServer client) w () w' →
      Call pl A O w { O with clients := O.clients.erase client } w'

inductive Calls (pl : Platform) (A : Assumption) (w₀ : World) : Objects → World → Prop
  | none : Calls pl A w₀ .none w₀
  | call : Calls pl A w₀ O w → Call pl A O w O' w' → Calls pl A w₀ O' w'

variable {pl : Platform} {A : Assumption} {w₀ w w' v : World} {O O' : Objects}
variable {server : ServerObject} {client : KaClientObject} {bs hs hs' : List Ref}

-- ---------------------------------------------------------------------------
-- Creating a server
-- ---------------------------------------------------------------------------

def ServerFilled (server : ServerObject) : Prop :=
  ∃ block attributes message port thread, Ua.Owns server block attributes message port thread

/-- The end of a creation: nothing gained, or a server with all it needs. -/
def CreatesServer (w : World) (r : Option ServerObject) (v : World) : Prop :=
  Holding w v (r.toList.flatMap serverBlocks) (r.toList.flatMap serverHandles) ∧
    ∀ server, r = some server → ServerFilled server

theorem kaCleanup_holding (hA : ∀ w o r, A w o r → closesOpen w o r)
    (hattributes : AtStart server.messageAttributes) (hmessage : AtStart server.portMessage)
    (hblock : server.block = some ⟨b, 0⟩)
    (h : Holding w v (refsOf server.messageAttributes ++ (refsOf server.portMessage ++ [b]))
      (server.connectionPortHandle.toList ++ [])) :
    (kaCleanup server).safe (system pl A) (fun _ => True) (CreatesServer w) v := by
  refine safe_bind (safe_mono (closeUnlessNull_holding hA h) fun _ u hu => ?_)
  refine safe_bind (safe_mono (freeUnlessNull_holding hattributes hu) fun _ u hu => ?_)
  refine safe_bind (safe_mono (freeUnlessNull_holding hmessage hu) fun _ u hu => ?_)
  rw [hblock]
  exact ⟨trivial, fun _ _ => ⟨trivial, hu.free, by simp⟩⟩

theorem atStart_none : AtStart none := by simp [AtStart]

theorem atStart_some : AtStart (some ⟨q, 0⟩) := by simp [AtStart]

theorem kaCreateServer_holding (hA : ∀ w o r, A w o r → closesOpen w o r) :
    (kaCreateServer pl portName f g k).safe (system pl A) (fun _ => True) (CreatesServer w) w := by
  unfold kaCreateServer kaAllocateZeroHeap
  refine allocateZeroHeap_holding (.refl w) (fun v hv => ⟨trivial, hv, by simp⟩) fun b v₁ h₁ => ?_
  simp only [reduceCtorEq, if_false]
  refine ⟨trivial, fun size _ => ?_⟩
  have h₂ : Holding w ((system pl A).next v₁ (.alpcGetHeaderSize _) size) [b] [] := h₁.plain trivial
  refine allocateZeroHeap_holding h₂ (fun v hv => ?_) fun a v₃ h₃ => ?_
  · exact kaCleanup_holding hA atStart_none atStart_none rfl hv
  simp only [reduceCtorEq, if_false]
  refine ⟨trivial, fun status _ => ?_⟩
  have h₄ : Holding w ((system pl A).next v₃ (.alpcInitializeMessageAttribute _ _ _) status)
      [a, b] [] := h₃.plain trivial
  simp only [Prog.ret_bind]
  by_cases hs : ntSuccess status = true
  swap
  · simp only [hs, Bool.not_false, if_true]
    exact kaCleanup_holding hA atStart_some atStart_none rfl h₄
  simp only [hs, Bool.not_true, Bool.false_eq_true, if_false]
  refine allocateZeroHeap_holding h₄ (fun v hv => ?_) fun m v₅ h₅ => ?_
  · exact kaCleanup_holding hA atStart_some atStart_none rfl hv
  simp only [reduceCtorEq, if_false]
  have h₅ : Holding w v₅ (a :: m :: [b]) [] := h₅.perm (.swap _ _ _) (.refl _)
  refine createPort_holding h₅ (fun status v hs h₆ => ?_) fun status p v₆ hs h₆ => ?_
  · simp only [Prog.ret_bind, hs, Bool.not_false, if_true]
    exact kaCleanup_holding hA atStart_some atStart_some rfl h₆
  simp only [Prog.ret_bind, hs, Bool.not_true, Bool.false_eq_true, if_false]
  refine createSystemThread_holding h₆ (fun status v hs h₇ => ?_) fun status t v₇ hs h₇ => ?_
  · simp only [Prog.ret_bind, hs, Bool.not_false, if_true]
    exact kaCleanup_holding hA atStart_some atStart_some rfl h₇
  simp only [Prog.ret_bind, hs, Bool.not_true, Bool.false_eq_true, if_false]
  refine ⟨trivial, h₇.perm ?_ (.swap _ _ _), ?_⟩
  · exact (List.perm_append_comm : ([a, m] ++ [b]).Perm ([b] ++ [a, m]))
  · rintro _ ⟨⟩
    exact ⟨b, a, m, p, t, rfl, rfl, rfl, rfl, rfl⟩

/-- The handle of the thread stays. -/
theorem kaTerminateServer_holding (hA : ∀ w o r, A w o r → closesOpen w o r)
    (hs : ServerFilled server)
    (h : Holding w₀ w (serverBlocks server ++ bs) (serverHandles server ++ hs')) :
    (kaTerminateServer server).safe (system pl A) (fun _ => True)
      (fun _ v => Holding w₀ v bs (server.serverThreadHandle.toList ++ hs')) w := by
  obtain ⟨b, a, m, p, t, ho⟩ := hs
  unfold kaTerminateServer kaFreeHeap
  simp only [serverBlocks, serverHandles, ho.block, ho.attributes, ho.message, ho.port, ho.thread] at h ⊢
  have h : Holding w₀ w (m :: a :: b :: bs) (p :: t :: hs') :=
    h.perm (List.Perm.append_right bs (List.reverse_perm [m, a, b])) (.refl _)
  refine ⟨trivial, fun r hr => ⟨trivial, fun waited _ => ?_⟩⟩
  have hclosed : Holding w₀ ((system pl A).next w (.close (some p)) r) (m :: a :: b :: bs) (t :: hs') :=
    h.close hA hr
  have hwaited : Holding w₀ ((system pl A).next ((system pl A).next w (.close (some p)) r)
      (.waitForSingleObject (some t)) waited) (m :: a :: b :: bs) (t :: hs') := hclosed.plain trivial
  exact ⟨trivial, fun _ _ => ⟨trivial, fun _ _ => ⟨trivial, fun _ _ =>
    ⟨trivial, hwaited.free.free.free⟩⟩⟩⟩

-- ---------------------------------------------------------------------------
-- The client's calls
-- ---------------------------------------------------------------------------

def ClientFilled (client : KaClientObject) : Prop :=
  ∃ block port, client.block = some ⟨block, 0⟩ ∧ client.communicationPortHandle = some port

def ConnectsServer (w : World) (r : Option KaClientObject) (v : World) : Prop :=
  Holding w v (r.toList.flatMap clientBlocks) (r.toList.flatMap clientHandles) ∧
    ∀ client, r = some client → ClientFilled client

theorem kaConnectCleanup_holding (hblock : client.block = some ⟨b, 0⟩) (h : Holding w v [b] []) :
    (kaConnectCleanup client).safe (system pl A) (fun _ => True) (ConnectsServer w) v := by
  unfold kaConnectCleanup
  rw [hblock]
  exact ⟨trivial, fun _ _ => ⟨trivial, h.free, by simp⟩⟩

theorem kaConnectServer_holding :
    (kaConnectServer pl portName data n).safe (system pl A) (fun _ => True) (ConnectsServer w)
      w := by
  unfold kaConnectServer kaAllocateZeroHeap
  refine allocateZeroHeap_holding (.refl w) (fun v hv => ⟨trivial, hv, by simp⟩) fun b v₁ h₁ => ?_
  simp only [reduceCtorEq, if_false]
  refine safe_bind (withPortMessage_holding h₁ (fun status v hv => ?_) fun q v hv => ?_)
  · exact kaConnectCleanup_holding rfl hv
  refine connectPort_holding hv (fun r v hs hrefused => ⟨trivial, ?_⟩)
    fun r x v hs hx hopened => ⟨trivial, ?_⟩
  · simp only [hs, Bool.not_false, if_true]
    exact kaConnectCleanup_holding rfl hrefused.free
  · simp only [hs, Bool.not_true, Bool.false_eq_true, if_false]
    refine ⟨trivial, ?_, ?_⟩
    · simpa [clientBlocks, clientHandles, refsOf, hx] using hopened.free
    · rintro _ ⟨⟩
      exact ⟨b, x, rfl, hx⟩

theorem kaSendSynchronousRequest_holding (h : Holding w₀ w bs hs) :
    (kaSendSynchronousRequest pl client data n).safe (system pl A) (fun _ => True)
      (fun _ v => Holding w₀ v bs hs) w := by
  refine withPortMessage_holding h (fun _ _ hv => hv) fun q v hv => ?_
  refine ⟨trivial, fun r _ => ⟨trivial, fun _ _ => ⟨trivial, .free ?_⟩⟩⟩
  exact .plain (.plain hv trivial) trivial

theorem kaSendDatagram_holding (h : Holding w₀ w bs hs) :
    (kaSendDatagram pl client data n).safe (system pl A) (fun _ => True)
      (fun _ v => Holding w₀ v bs hs) w := by
  refine withPortMessage_holding h (fun _ _ hv => hv) fun q v hv => ?_
  exact ⟨trivial, fun r _ => ⟨trivial, .free (.plain hv trivial)⟩⟩

theorem kaDisconnectServer_holding (hA : ∀ w o r, A w o r → closesOpen w o r)
    (hc : ClientFilled client)
    (h : Holding w₀ w (clientBlocks client ++ bs) (clientHandles client ++ hs)) :
    (kaDisconnectServer client).safe (system pl A) (fun _ => True)
      (fun _ v => Holding w₀ v bs hs) w := by
  obtain ⟨b, x, hb, hx⟩ := hc
  unfold kaDisconnectServer kaFreeHeap
  rw [hb, hx]
  simp only [clientBlocks, clientHandles, hb, hx] at h
  refine ⟨trivial, fun r hr => ⟨trivial, fun _ _ => ⟨trivial, ?_⟩⟩⟩
  exact (Holding.close hA h hr).free

-- ---------------------------------------------------------------------------
-- Any sequence of calls
-- ---------------------------------------------------------------------------

/-- Since `w₀` the process has gained what the objects hold, each of which has
all it needs. -/
structure Accounted (w₀ : World) (O : Objects) (w : World) : Prop where
  holding : Holding w₀ w O.blocks O.handles
  servers : ∀ server ∈ O.servers, ServerFilled server
  clients : ∀ client ∈ O.clients, ClientFilled client

theorem Accounted.call (hA : ∀ w o r, A w o r → closesOpen w o r) (h : Accounted w₀ O w)
    (hc : Call pl A O w O' w') : Accounted w₀ O' w' := by
  cases hc with
  | @createServer _ _ _ _ _ _ _ r hrun =>
    obtain ⟨hnew, hfilled⟩ := safe_ends (kaCreateServer_holding hA) hrun
    refine ⟨(h.holding.trans hnew).perm ?_ ?_, fun s hs => ?_, h.clients⟩
    · simp [Objects.blocks]
    · simp [Objects.handles]
    · rcases List.mem_append.mp hs with hs | hs
      · exact hfilled s (by simpa using hs)
      · exact h.servers s hs
  | @connectServer _ _ _ _ _ n r _ hrun =>
    obtain ⟨hnew, hfilled⟩ := safe_ends kaConnectServer_holding hrun
    refine ⟨(h.holding.trans hnew).perm ?_ ?_, h.servers, fun s hs => ?_⟩
    · simpa [Objects.blocks] using List.perm_append_comm_assoc _ _ _
    · simpa [Objects.handles] using List.perm_append_comm_assoc _ _ _
    · rcases List.mem_append.mp hs with hs | hs
      · exact hfilled s (by simpa using hs)
      · exact h.clients s hs
  | sendSynchronousRequest _ hrun =>
    exact { h with holding := safe_ends (kaSendSynchronousRequest_holding h.holding) hrun }
  | sendDatagram _ hrun =>
    exact { h with holding := safe_ends (kaSendDatagram_holding h.holding) hrun }
  | @disconnectServer client _ _ _ hmem hrun =>
    have hclients := List.perm_cons_erase hmem
    let rest : Objects := { O with clients := O.clients.erase client }
    have hholding : Holding w₀ w (clientBlocks client ++ rest.blocks)
        (clientHandles client ++ rest.handles) :=
      h.holding.perm
        (((hclients.flatMap_right clientBlocks).append_left _).trans
          (List.perm_append_comm_assoc _ _ _))
        (((hclients.flatMap_right clientHandles).append_left _).trans
          (List.perm_append_comm_assoc _ _ _))
    refine ⟨safe_ends (kaDisconnectServer_holding hA (h.clients _ hmem) hholding) hrun, h.servers,
      fun s hs => h.clients s (List.mem_of_mem_erase hs)⟩

theorem Calls.accounted (hA : ∀ w o r, A w o r → closesOpen w o r) (h : Calls pl A w₀ O w) :
    Accounted w₀ O w := by
  induction h with
  | none => exact ⟨.refl w₀, by simp [Objects.none], by simp [Objects.none]⟩
  | call _ hc ih => exact ih.call hA hc

/-- What is there beyond the start is what the objects hold, each block and
handle once, and nothing has been freed or closed that was not there. A call
that leaves the objects as they were, as every call that fails does, leaves the
pool and the handles as they were. -/
theorem ownership_ledger (h : Calls pl exactClose w₀ O w) :
    Accounted w₀ O w ∧ ∀ w', Call pl exactClose O w O w' →
      w'.state.heap.live = w.state.heap.live ∧ w'.state.handles.live = w.state.handles.live := by
  have hw := h.accounted fun _ _ _ => closesOpen_of_exactClose
  refine ⟨hw, fun w' hc => ?_⟩
  have hw' := hw.call (fun _ _ _ => closesOpen_of_exactClose) hc
  exact ⟨hw.holding.blocks.live_eq hw'.holding.blocks,
    hw.holding.handles.live_eq hw'.holding.handles⟩

/-- `KaTerminateServer` gives back what its server holds, after any calls, but
for the handle of the worker's thread. -/
theorem server_terminated (h : Calls pl exactClose w₀ O w) (hserver : server ∈ O.servers)
    (hend : Ends (system pl exactClose) (kaTerminateServer server) w () w') :
    let rest : Objects := { O with servers := O.servers.erase server }
    Holding w₀ w' rest.blocks (server.serverThreadHandle.toList ++ rest.handles) := by
  intro rest
  have hclose : ∀ w o r, exactClose w o r → closesOpen w o r := fun _ _ _ => closesOpen_of_exactClose
  have hw := h.accounted hclose
  have hservers := List.perm_cons_erase hserver
  have hholding : Holding w₀ w (serverBlocks server ++ rest.blocks)
      (serverHandles server ++ rest.handles) :=
    hw.holding.perm
      (((hservers.flatMap_right serverBlocks).append_right _).trans (.of_eq (List.append_assoc ..)))
      (((hservers.flatMap_right serverHandles).append_right _).trans (.of_eq (List.append_assoc ..)))
  exact safe_ends (kaTerminateServer_holding hclose (hw.servers server hserver) hholding) hend

/-- A server is created in an empty pool, then a client connects. -/
def serverAndClient : Option (Option ServerObject × World × Option KaClientObject × World) :=
  let S := system .x64 exactClose
  let E := Environment.calm.oracle .x64 exactClose
  ((kaCreateServer .x64 "port" 1 2 3).replay S E ⟨Process.empty, []⟩).bind fun (server, w) =>
    ((kaConnectServer .x64 "port" none 0).replay S E w).map fun (client, v) =>
      (server, w, client, v)

theorem serverAndClient_calls (h : serverAndClient = some (r, w, c, v)) :
    Calls .x64 exactClose ⟨Process.empty, []⟩ ⟨r.toList, c.toList⟩ v := by
  unfold serverAndClient at h
  obtain ⟨⟨server, w⟩, hserver, h⟩ := Option.bind_eq_some_iff.mp h
  obtain ⟨⟨client, v⟩, hclient, h⟩ := Option.map_eq_some_iff.mp h
  cases h
  have hS : (Environment.calm.oracle .x64 exactClose).Sound (system .x64 exactClose) :=
    Environment.oracle_sound exactClose
  have hcreate := Call.createServer (O := .none) (replay_ends hS hserver)
  have hconnect := Call.connectServer (n := 0) (by decide) (replay_ends hS hclient)
    (O := ⟨r.toList ++ [], []⟩)
  simpa using (Calls.none.call hcreate).call hconnect

theorem ownership_ledger_two : ∃ O v, O.servers.length = 1 ∧ O.clients.length = 1 ∧
    Accounted ⟨Process.empty, []⟩ O v ∧ ∀ w', Call .x64 exactClose O v O w' →
      w'.state.heap.live = v.state.heap.live ∧ w'.state.handles.live = v.state.handles.live := by
  have hrun : serverAndClient.any (fun x => x.1.isSome && x.2.2.1.isSome) = true := by
    decide +kernel
  obtain ⟨⟨r, w, c, v⟩, h, hsome⟩ := (Option.any_eq_true _ _).mp hrun
  simp only [Bool.and_eq_true] at hsome
  obtain ⟨server, rfl⟩ := Option.isSome_iff_exists.mp hsome.1
  obtain ⟨client, rfl⟩ := Option.isSome_iff_exists.mp hsome.2
  exact ⟨_, v, rfl, rfl, ownership_ledger (serverAndClient_calls h)⟩

end AlpcResearch.Ka
