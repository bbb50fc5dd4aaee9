import AlpcResearch.AdvancedServer.Visits
import AlpcResearch.Process.Inventory

/-!
# What a visit leaves behind

Nothing. Whichever of its calls fail, a client of the older library returns the
block, the buffer and the port it has gained, each once.
-/

namespace AlpcResearch.AdvancedServer

open Resource Program Process

inductive Visits (pl : Platform) (A : Assumption) (w₀ : World) : World → Prop
  | none : Visits pl A w₀ w₀
  | visit {visit : Visit} : Visits pl A w₀ w →
    Ends (system pl A) (visit.run pl) w status w' → Visits pl A w₀ w'

variable {pl : Platform} {A : Assumption} {client : ClientObject} {w₀ w w' v : World}
variable {bs hs : List Ref} {b m x : Ref} {dataBuffer : PVoid} {n : Int16}

theorem srvInitializePortMessage_uses (portMessage : PVoid) :
    (srvInitializePortMessage pl portMessage dataBuffer n).Uses Plain := by
  unfold srvInitializePortMessage initializePortMessage
  split
  · trivial
  refine uses_bind ?_ fun _ => trivial
  refine ⟨trivial, fun _ => ⟨trivial, fun _ => ⟨trivial, fun _ => ?_⟩⟩⟩
  simp only [Prog.ret_bind]
  split
  · exact ⟨trivial, fun _ => trivial⟩
  · trivial

theorem srvSendDatagram_uses : (srvSendDatagram pl client dataBuffer n).Uses Plain := by
  refine uses_bind (srvInitializePortMessage_uses _) fun result => ?_
  split
  · trivial
  · exact ⟨trivial, fun _ => trivial⟩

theorem srvSendAll_uses (datagrams : List Payload) :
    (srvSendAll pl client datagrams).Uses Plain := by
  induction datagrams with
  | nil => trivial
  | cons p rest ih => exact uses_bind srvSendDatagram_uses fun _ => ih

structure ClientOwns (client : ClientObject) (b m x : Ref) : Prop where
  block : client.block = some ⟨b, 0⟩
  message : client.portMessage = some ⟨m, 0⟩
  port : client.communicationPortHandle = some x

/-- The end of a connect: nothing gained, or a client with all it needs. -/
def Connects (w : World) (r : Option ClientObject) (v : World) : Prop :=
  (r = none ∧ Holding w v [] []) ∨
    ∃ client b m x, r = some client ∧ ClientOwns client b m x ∧ Holding w v [m, b] [x]

theorem srvConnectCleanup_holding (hblock : client.block = some ⟨b, 0⟩)
    (hmessage : AtStart client.portMessage)
    (h : Holding w v (refsOf client.portMessage ++ [b]) []) :
    (srvConnectCleanup client).safe (system pl A) (fun _ => True) (Connects w) v := by
  refine safe_bind (safe_mono (freeUnlessNull_holding hmessage h) fun _ u hu => ?_)
  rw [hblock]
  exact ⟨trivial, fun _ _ => ⟨trivial, .inl ⟨rfl, hu.free⟩⟩⟩

theorem srvConnectServer_holding (portName : String) :
    (srvConnectServer pl portName dataBuffer n).safe (system pl A) (fun _ => True) (Connects w)
      w := by
  unfold srvConnectServer
  refine allocate_holding (.refl w) (fun v hv => ⟨trivial, .inl ⟨rfl, hv⟩⟩) fun b v₁ h₁ => ?_
  simp only [reduceCtorEq, if_false]
  refine allocate_holding h₁ (fun v hv => ?_) fun m v₂ h₂ => ?_
  · exact srvConnectCleanup_holding rfl (by simp [AtStart]) hv
  simp only [reduceCtorEq, if_false]
  refine safe_bind (safe_mono (h₂.of_uses (srvInitializePortMessage_uses _)) fun result v hv => ?_)
  split
  · exact srvConnectCleanup_holding rfl (by simp [AtStart]) hv
  refine connectPort_holding hv (fun r v hs hrefused => ?_) fun r x v hs hx hopened => ?_
  · simp only [Prog.ret_bind, hs, Bool.not_false, if_true]
    exact srvConnectCleanup_holding rfl (by simp [AtStart]) hrefused
  · simp only [Prog.ret_bind, hs, Bool.not_true, Bool.false_eq_true, if_false]
    exact ⟨trivial, .inr ⟨_, b, m, x, rfl, ⟨rfl, rfl, hx⟩, hopened⟩⟩

theorem srvDisconnectServer_holding (hA : ∀ w o r, A w o r → closesOpen w o r)
    (hc : ClientOwns client b m x) (h : Holding w₀ w (m :: b :: bs) (x :: hs)) :
    (srvDisconnectServer client).safe (system pl A) (fun _ => True)
      (fun _ v => Holding w₀ v bs hs) w := by
  unfold srvDisconnectServer
  rw [hc.port, hc.message, hc.block]
  refine ⟨trivial, fun r hr => ⟨trivial, fun _ _ => ⟨trivial, fun _ _ => ⟨trivial, ?_⟩⟩⟩⟩
  exact (h.close hA hr).free.free

theorem Visit.run_holding (hA : ∀ w o r, A w o r → closesOpen w o r) (visit : Visit) :
    (visit.run pl).safe (system pl A) (fun _ => True) (fun _ v => Holding w v [] []) w := by
  refine safe_bind (safe_mono (srvConnectServer_holding _) fun r u hu => ?_)
  rcases hu with ⟨rfl, hu⟩ | ⟨client, b, m, x, rfl, hc, hu⟩
  · exact ⟨trivial, hu⟩
  refine safe_bind (safe_mono (hu.of_uses (srvSendAll_uses _)) fun _ v hv => ?_)
  refine safe_bind (safe_mono (srvDisconnectServer_holding hA hc hv) fun _ v hv => ?_)
  exact ⟨trivial, hv⟩

/-- After any number of visits the process has the blocks and the handles it
had; no block was freed that was not there, and every close succeeded. -/
theorem visits_balanced (hA : ∀ w o r, A w o r → closesOpen w o r) (h : Visits pl A w₀ w) :
    w.state.heap.live = w₀.state.heap.live ∧ w.state.handles.live = w₀.state.handles.live ∧
      Holding w₀ w [] [] := by
  have hholding : Holding w₀ w [] [] := by
    induction h with
    | none => exact .refl w₀
    | visit _ hrun ih => exact ih.trans (safe_ends (Visit.run_holding hA _) hrun)
  exact ⟨hholding.blocks.live_eq_iff.mpr rfl, hholding.handles.live_eq_iff.mpr rfl, hholding⟩

def twoDatagrams : Visit where
  portName := "port"
  connection := ⟨none, 0, []⟩
  datagrams := [⟨none, 2, [0, 0]⟩, ⟨none, 1, [0]⟩]

def visitTwice (E E' : Environment) : Option (World × World) :=
  let S := system .x64 closesOpen
  ((twoDatagrams.run .x64).replay S (E.oracle .x64 closesOpen) ⟨.empty, []⟩).bind fun r =>
    ((twoDatagrams.run .x64).replay S (E'.oracle .x64 closesOpen) r.2).map fun r' => (r.2, r'.2)

theorem visitTwice_visits (h : visitTwice E E' = some (w, w')) :
    Visits .x64 closesOpen ⟨.empty, []⟩ w ∧ Visits .x64 closesOpen ⟨.empty, []⟩ w' := by
  obtain ⟨⟨s, v⟩, hfirst, h⟩ := Option.bind_eq_some_iff.mp h
  obtain ⟨⟨s', v'⟩, hsecond, he⟩ := Option.map_eq_some_iff.mp h
  cases he
  have hw : Visits .x64 closesOpen ⟨.empty, []⟩ v :=
    .visit .none (replay_ends (Environment.oracle_sound closesOpen) hfirst)
  exact ⟨hw, hw.visit (replay_ends (Environment.oracle_sound closesOpen) hsecond)⟩

/-- A connection message and two datagrams; the second time the connection is
refused. -/
theorem visits_balanced_two : ∃ w w' : World,
    (messages w.log).length = 3 ∧ (messages w'.log).length = 4 ∧
      w.state.heap.live = Process.empty.heap.live ∧ w'.state.heap.live = w.state.heap.live ∧
      w'.state.handles.live = w.state.handles.live := by
  have hrun : (visitTwice .calm (.failing .calm .connectPort)).any (fun r =>
      (messages r.1.log).length = 3 && (messages r.2.log).length = 4) := by decide +kernel
  obtain ⟨⟨w, w'⟩, h, hlog⟩ := (Option.any_eq_true _ _).mp hrun
  simp only [Bool.and_eq_true, decide_eq_true_eq] at hlog
  obtain ⟨hw, hw'⟩ := visitTwice_visits h
  obtain ⟨hblocks, hhandles, -⟩ := visits_balanced (fun _ _ _ h => h) hw
  obtain ⟨hblocks', hhandles', -⟩ := visits_balanced (fun _ _ _ h => h) hw'
  exact ⟨w, w', hlog.1, hlog.2, hblocks, hblocks'.trans hblocks.symm,
    hhandles'.trans hhandles.symm⟩

end AlpcResearch.AdvancedServer
