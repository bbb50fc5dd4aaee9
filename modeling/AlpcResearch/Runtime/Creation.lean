import AlpcResearch.Process.Gained
import AlpcResearch.Runtime
import AlpcResearch.Server.Service
import AlpcResearch.Ua.Creation

/-!
# Creating and terminating a server

A successful `SrvCreateServer` hands out an object whose buffers and port are
there, none of its fields `NULL`, and the worker can receive at once.
`SrvTerminateServer` gives back what the creation gained, less the handle of
the worker's thread.
-/

namespace AlpcResearch

open Resource Program Process
open Server (ends_allocate)

def endpointOf (maxLength : Nat) (server : ServerObject) : Endpoint where
  port := server.connectionPortHandle
  message := server.portMessage
  attributes := server.messageAttributes
  capacity := maxLength

structure CreatedOn (pl : Platform) (maxLength : Nat) (server : ServerObject) (w w₀ : World) :
    Prop where
  acquired : ∃ block attributes message port thread,
    Ua.Owns server block attributes message port thread ∧
      Gained w.state w₀.state [message, attributes, block] [thread, port]
  serving : Serving (endpointOf maxLength server) w₀.state
  faults : w₀.state.faults = w.state.faults
  ledger : ledger pl w₀.log = ledger pl w.log

variable {pl : Platform} {A : Assumption} {maxLength : Nat} {attributes : PortAttributes}
variable {w w₀ w' : World} {server : ServerObject} {r : Option ServerObject}

theorem ends_createCleanup (h : Ends (system pl A) (createCleanup server) w r w') : r = none := by
  refine ends_bind_returns (P := (· = none)) (fun _ w r w' h => ?_) h
  refine ends_bind_returns (P := (· = none)) (fun _ w r w' h => ?_) h
  refine ends_bind_returns (P := (· = none)) (fun _ w r w' h => ?_) h
  refine ends_bind_returns (P := (· = none)) (fun _ w r w' h => ?_) h
  exact (ends_ret.mp h).1

theorem createServer_created
    (h : Ends (system pl A) (createServer layout maxLength attributes portName f g k) w (some server)
      w₀) :
    CreatedOn pl maxLength server w w₀ := by
  unfold createServer rtAllocateZeroHeap rtCreateThread issue at h
  obtain ⟨v, h⟩ | ⟨b, w₁, h, n₁, l₁⟩ := ends_allocate h
  · simp [ends_ret] at h
  simp only [reduceCtorEq, if_false] at h
  obtain ⟨size, -, h⟩ := ends_op_bind.mp h
  obtain ⟨v, h⟩ | ⟨a, w₂, h, n₂, l₂⟩ := ends_allocate h
  · simp only [if_true] at h
    cases ends_createCleanup h
  simp only [reduceCtorEq, if_false] at h
  obtain ⟨status, -, h⟩ := ends_op_bind.mp h
  by_cases hs : ntSuccess status = true
  swap
  · simp only [hs, Bool.not_false, if_true] at h
    cases ends_createCleanup h
  simp only [hs, Bool.not_true, Bool.false_eq_true, if_false] at h
  let mask := alpcMessageViewAttribute ||| alpcMessageContextAttribute
  have n₂' := n₂.modify pl (f := .setAllocatedAttributes mask)
    (o := .alpcInitializeMessageAttribute mask (some ⟨a, 0⟩) size) (r := status)
    (effect_heap (by simp only [heapAfter, hs]; rfl) rfl (structFault_live n₂.block))
  obtain ⟨v, h⟩ | ⟨m, w₃, h, n₃, l₃⟩ := ends_allocate h
  · simp only [if_true] at h
    cases ends_createCleanup h
  simp only [reduceCtorEq, if_false] at h
  obtain ⟨⟨status', port⟩, hport, h⟩ := ends_op_bind.mp h
  by_cases hs' : ntSuccess status' = true
  swap
  · simp only [hs', Bool.not_false, if_true] at h
    cases ends_createCleanup h
  simp only [hs', Bool.not_true, Bool.false_eq_true, if_false] at h
  obtain ⟨⟨status'', thread⟩, hthread, h⟩ := ends_op_bind.mp h
  by_cases hs'' : ntSuccess status'' = true
  swap
  · simp only [hs'', Bool.not_false, if_true] at h
    cases ends_createCleanup h
  · simp only [hs'', Bool.not_true, Bool.false_eq_true, if_false] at h
    obtain ⟨he, hw⟩ := ends_ret.mp h
    cases he
    obtain ⟨p, rfl, hp⟩ : ∃ p, port = some p ∧ w₃.state.handles.Fresh p :=
      opens_some hport.1 hs'
    obtain ⟨t, rfl, ht⟩ : ∃ t, thread = some t ∧
        (w₃.state.handles.acquire p.name .connectionPort).Fresh t := opens_some hthread.1 hs''
    have hacquired : ((w₃.state.handles.acquire p.name .connectionPort).acquire t.name
        .thread).get? p = some .connectionPort :=
      Table.get?_acquire_of_some ht (Table.get?_acquire_self hp)
    subst hw
    have g₃ : Gained w.state w₃.state [m, a, b] [] :=
      (n₁.gained.trans n₂'.gained).trans n₃.gained
    have g₄ : Gained w.state (w₃.state.effect pl (.alpcCreatePort portName attributes)
        (status', some p)) [m, a, b] [p] := g₃.opens rfl hp rfl rfl
    exact {
      acquired := ⟨b, a, m, p, t, ⟨rfl, rfl, rfl, rfl, rfl⟩, g₄.opens rfl ht rfl rfl⟩
      serving := {
        message := ⟨m, fun _ => 0, rfl, n₃.block⟩
        attributes := ⟨a, size, ⟨mask, none⟩, rfl, n₃.other n₂'.block, by decide⟩
        port := ⟨p, rfl, hacquired⟩ }
      faults := n₃.faults.trans (n₂'.faults.trans n₁.faults)
      ledger := l₃.trans (l₂.trans l₁) }

theorem terminateServer_gained {P₀ : Process} (hA : ∀ w o r, A w o r → closesOpen w o r)
    (ho : Ua.Owns server b a m p t) (h : Gained P₀ w.state (m :: a :: b :: bs) (p :: t :: hs)) :
    (terminateServer server).safe (system pl A) (fun v => v.state.faults = P₀.faults)
      (fun _ v => Gained P₀ v.state bs (t :: hs)) w := by
  unfold terminateServer rtFreeHeap
  rw [ho.port, ho.thread, ho.message, ho.attributes, ho.block]
  exact tearDown_gained hA h

end AlpcResearch
