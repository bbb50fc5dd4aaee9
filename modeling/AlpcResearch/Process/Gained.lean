import AlpcResearch.Process.Inventory
import AlpcResearch.Sessions.Tables

/-!
# Gaining without a fault

`Gained P₀ P bs hs` says that the process has gone from `P₀` to `P` without a
fault and has gained exactly the blocks `bs` and the handles `hs`. Stretches of
a run compose (`Gained.trans`), a release takes from the lists what it
releases, and a worker gains what its sessions name (`Gained.of_framed`).
-/

namespace AlpcResearch.Process

open Resource Program

variable {pl : Platform} {A : Assumption} {w : World} {P₀ P P' : Process}
variable {bs hs bs' hs' : List Ref} {b a m p t q x : Ref}
variable {sessions : List Session} {o : Op} {r : Ret o}

structure Gained (P₀ P : Process) (bs hs : List Ref) : Prop where
  blocks : P₀.heap.Grown P.heap bs
  handles : P₀.handles.Grown P.handles hs
  faults : P.faults = P₀.faults

namespace Gained

theorem refl (P : Process) : Gained P P [] [] where
  blocks := .refl _
  handles := .refl _
  faults := rfl

theorem perm (h : Gained P₀ P bs hs) (hb : bs.Perm bs') (hh : hs.Perm hs') :
    Gained P₀ P bs' hs' where
  blocks := h.blocks.perm hb
  handles := h.handles.perm hh
  faults := h.faults

theorem trans (h : Gained P₀ P bs hs) (h' : Gained P P' bs' hs') :
    Gained P₀ P' (bs' ++ bs) (hs' ++ hs) where
  blocks := h.blocks.trans h'.blocks
  handles := h.handles.trans h'.handles
  faults := h'.faults.trans h.faults

theorem of_eq (h : Gained P₀ P bs hs) (he : P' = P) : Gained P₀ P' bs hs := he ▸ h

theorem free (h : Gained P₀ P (q :: bs) hs) :
    Gained P₀ (P.effect pl (.free api (some ⟨q, 0⟩)) ()) bs hs where
  blocks := h.blocks.release
  handles := h.handles
  faults := by
    obtain ⟨obj, hobj⟩ := h.blocks.get? List.mem_cons_self
    have hfault : P.faultsOf pl (.free api (some ⟨q, 0⟩)) () = [] :=
      free_fault (p := ⟨q, 0⟩) (layoutOf_get? hobj) rfl
    rw [faults_effect, hfault]
    exact h.faults

theorem opens (h : Gained P₀ P bs hs) (ho : opened o r = some (x, k))
    (hx : P.handles.Fresh x) (hheap : P.heapAfter o r = P.heap) (hfault : P.faultsOf pl o r = []) :
    Gained P₀ (P.effect pl o r) bs (x :: hs) where
  blocks := h.blocks.congr (congrArg _ hheap)
  handles := by
    have hhandles : P.handlesAfter o r = P.handles.acquire x.name k := by
      simp only [handlesAfter, ho]
    change P₀.handles.Grown (P.handlesAfter o r) _
    rw [hhandles]
    exact h.handles.acquire hx k
  faults := by
    rw [faults_effect, hfault]
    exact h.faults

theorem close (h : Gained P₀ P bs (x :: hs)) (hstatus : ntSuccess status = true) :
    Gained P₀ (P.effect pl (.close (some x)) status) bs hs where
  blocks := h.blocks
  handles := by
    have hhandles : P.handlesAfter (.close (some x)) status = P.handles.release x.name := by
      simp only [handlesAfter, opened, closed, hstatus, if_true]
    change P₀.handles.Grown (P.handlesAfter (.close (some x)) status) _
    rw [hhandles]
    exact h.handles.release
  faults := by
    obtain ⟨k, hk⟩ := h.handles.get? List.mem_cons_self
    have hfault : P.faultsOf pl (.close (some x)) status = [] := handleFault_live hk
    rw [faults_effect, hfault]
    exact h.faults

end Gained

theorem Gained.keeps (h : Gained P₀ P bs hs) (k : Keeps P P') : Gained P₀ P' bs hs where
  blocks := h.blocks.congr (Set.ext fun q => by rw [mem_live_heap, mem_live_heap, k.layouts])
  handles := h.handles.congr (Set.ext fun y => by rw [mem_live_handles, mem_live_handles, k.handles])
  faults := k.faults.trans h.faults

/-- A connection that is torn down takes its block and its handle with it. -/
theorem Gained.loses (h : Gained P₀ P (q :: bs) (x :: hs)) (l : Loses P P' q (some x)) :
    Gained P₀ P' bs hs where
  blocks := h.blocks.remove (Set.ext fun r => by
    rw [Set.mem_sdiff, Set.mem_singleton_iff, Table.mem_live, Table.mem_live, l.heap]
    by_cases hr : r = q <;> simp [hr])
  handles := h.handles.remove (Set.ext fun r => by
    rw [Set.mem_sdiff, Set.mem_singleton_iff, Table.mem_live, Table.mem_live, l.handles]
    by_cases hr : r = x <;> simp [hr])
  faults := l.faults.trans h.faults

theorem Gains.gained (g : Gains P P' q x cid) : Gained P P' [q] [x] where
  blocks := {
    live r := by
      rw [Table.mem_live, Table.mem_live, g.heap, List.mem_singleton]
      by_cases hr : r = q <;> simp [hr]
    fresh r hr := by
      obtain rfl := List.mem_singleton.mp hr
      rw [Table.mem_live, g.block_free]
      rintro ⟨_, ⟨⟩⟩
    nodup := List.nodup_singleton q }
  handles := {
    live r := by
      rw [Table.mem_live, Table.mem_live, g.handles, List.mem_singleton]
      by_cases hr : r = x <;> simp [hr]
    fresh r hr := by
      obtain rfl := List.mem_singleton.mp hr
      rw [Table.mem_live, g.newHandle]
      rintro ⟨_, ⟨⟩⟩
    nodup := List.nodup_singleton x }
  faults := g.faults

theorem NewBlock.gained (n : NewBlock P P' q obj) : Gained P P' [q] [] where
  blocks := {
    live r := by
      rw [Table.mem_live, Table.mem_live, n.heap, List.mem_singleton]
      by_cases hr : r = q <;> simp [hr]
    fresh r hr := by
      obtain rfl := List.mem_singleton.mp hr
      rw [Table.mem_live, n.free]
      rintro ⟨_, ⟨⟩⟩
    nodup := List.nodup_singleton q }
  handles := (Table.Grown.refl _).congr (Set.ext fun r => by
    rw [Table.mem_live, Table.mem_live, n.handles])
  faults := n.faults

-- ---------------------------------------------------------------------------
-- Tearing a server down
-- ---------------------------------------------------------------------------

/-- The port is closed, the worker waited for, and the blocks are freed. -/
def tearDown (api : HeapApi) (port thread : Handle) (message attributes block : PVoid) :
    Proc Unit := do
  let _ ← ntClose port
  let _ ← ntWaitForSingleObject thread
  free api message
  free api attributes
  free api block

/-- The handle of the thread stays. -/
theorem tearDown_gained (hA : ∀ w o r, A w o r → closesOpen w o r)
    (h : Gained P₀ w.state (m :: a :: b :: bs) (p :: t :: hs)) :
    (tearDown api (some p) (some t) (some ⟨m, 0⟩) (some ⟨a, 0⟩) (some ⟨b, 0⟩)).safe (system pl A)
      (fun v => v.state.faults = P₀.faults) (fun _ v => Gained P₀ v.state bs (t :: hs)) w := by
  refine ⟨h.faults, fun status hr => ?_⟩
  obtain ⟨k, hk⟩ := h.handles.get? List.mem_cons_self
  have g₁ : Gained P₀ (w.state.effect pl (.close (some p)) status) (m :: a :: b :: bs) (t :: hs) :=
    h.close (hA _ _ _ hr.2 (by simp [hk]))
  refine ⟨g₁.faults, fun waited _ => ?_⟩
  obtain ⟨k', hk'⟩ := g₁.handles.get? List.mem_cons_self
  have g₂ : Gained P₀ ((w.state.effect pl (.close (some p)) status).effect pl
      (.waitForSingleObject (some t)) waited) (m :: a :: b :: bs) (t :: hs) :=
    g₁.of_eq (effect_eq_self rfl rfl (handleFault_live hk'))
  exact ⟨g₂.faults, fun _ _ => ⟨g₂.free.faults, fun _ _ => ⟨g₂.free.free.faults, fun _ _ =>
    ⟨g₂.free.free.free.faults, g₂.free.free.free⟩⟩⟩⟩

-- ---------------------------------------------------------------------------
-- What the sessions name
-- ---------------------------------------------------------------------------

def sessionBlocks (sessions : List Session) : List Ref :=
  sessions.flatMap fun s => refsOf s.context

def sessionPorts (sessions : List Session) : List Ref :=
  sessions.flatMap fun s => s.handle.toList

theorem mem_sessionBlocks (h : Entries P sessions) :
    q ∈ sessionBlocks sessions ↔ ∃ s ∈ sessions, s.context = some ⟨q, 0⟩ := by
  rw [sessionBlocks, List.mem_flatMap]
  refine exists_congr fun s => and_congr_right fun hs => ?_
  obtain ⟨b, x, hat, -⟩ := h.entry s hs
  simp [refsOf, hat.context, eq_comm]

theorem sessionBlocks_eq_nil (h : Entries P sessions) :
    sessionBlocks sessions = [] ↔ sessions = [] := by
  rw [sessionBlocks, List.flatMap_eq_nil_iff]
  refine ⟨fun hall => List.eq_nil_iff_forall_not_mem.mpr fun s hs => ?_, fun he s hs => ?_⟩
  · obtain ⟨b, x, hat, -⟩ := h.entry s hs
    simpa [refsOf, hat.context] using hall s hs
  · simp [he] at hs

theorem mem_sessionPorts : x ∈ sessionPorts sessions ↔ ∃ s ∈ sessions, s.handle = some x := by
  simp [sessionPorts, List.mem_flatMap]

/-- A session, and the others. -/
theorem sessions_perm {s : Session} (h : (sessions.map Session.context).Nodup) (hs : s ∈ sessions) :
    sessions.Perm (s :: sessions.filter fun s' => s'.context ≠ s.context) := by
  have hothers : sessions.erase s = sessions.filter fun s' => s'.context ≠ s.context := by
    rw [(List.Nodup.of_map _ h).erase_eq_filter]
    refine List.filter_congr fun s' hs' => ?_
    have hinj : s'.context = s.context → s' = s := List.inj_on_of_nodup_map h hs' hs
    by_cases he : s' = s
    · simp [he]
    · have hne : s'.context ≠ s.context := fun hc => he (hinj hc)
      rw [bne_iff_ne.mpr he, decide_eq_true hne]
  exact hothers ▸ List.perm_cons_erase hs

theorem nodup_sessionBlocks (h : Entries P sessions) : (sessionBlocks sessions).Nodup := by
  refine List.nodup_flatMap.mpr ⟨fun s hs => ?_, ?_⟩
  · obtain ⟨b, x, hat, -⟩ := h.entry s hs
    simp [refsOf, hat.context]
  · have hne := List.pairwise_map.mp h.contexts
    refine hne.imp_of_mem fun {s s'} hs hs' hcontext => ?_
    obtain ⟨b, x, hat, -⟩ := h.entry s hs
    obtain ⟨b', x', hat', -⟩ := h.entry s' hs'
    rw [hat.context, hat'.context] at hcontext
    simpa [Function.onFun, refsOf, hat.context, hat'.context, eq_comm] using hcontext

theorem nodup_sessionPorts (h : Entries P sessions) : (sessionPorts sessions).Nodup := by
  refine List.nodup_flatMap.mpr ⟨fun s _ => ?_, ?_⟩
  · cases s.handle <;> simp
  · have hne := List.pairwise_map.mp h.handles
    refine hne.imp_of_mem fun {s s'} hs hs' hhandle => ?_
    obtain ⟨b, x, hat, -⟩ := h.entry s hs
    obtain ⟨b', x', hat', -⟩ := h.entry s' hs'
    rw [hat.handle, hat'.handle] at hhandle
    simpa [Function.onFun, hat.handle, hat'.handle, eq_comm] using hhandle

/-- A worker that has what its sessions name, and nothing else that is new. -/
theorem Gained.of_framed (h : Entries P sessions) (hframed : Framed P₀ P sessions)
    (hf : P.faults = P₀.faults) :
    Gained P₀ P (sessionBlocks sessions) (sessionPorts sessions) where
  blocks := {
    live q := by
      rw [mem_live_heap, mem_live_heap, mem_sessionBlocks h]
      by_cases hq : ∃ s ∈ sessions, s.context = some ⟨q, 0⟩
      · obtain ⟨s, hs, he⟩ := hq
        obtain ⟨b, x, hat, hb, -⟩ := h.entry s hs
        cases he.symm.trans hat.context
        exact ⟨fun _ => .inr ⟨s, hs, he⟩, fun _ => by simp [layoutOf_get? hb]⟩
      · have hold := hframed.layouts q fun s hs he => hq ⟨s, hs, he⟩
        simp [hq, hold]
    fresh q hq := by
      obtain ⟨s, hs, he⟩ := (mem_sessionBlocks h).mp hq
      obtain ⟨b, x, hat, -⟩ := h.entry s hs
      cases he.symm.trans hat.context
      simp [mem_live_heap, (hframed.fresh s hs q x hat).1]
    nodup := nodup_sessionBlocks h }
  handles := {
    live x := by
      rw [mem_live_handles, mem_live_handles, mem_sessionPorts]
      by_cases hx : ∃ s ∈ sessions, s.handle = some x
      · obtain ⟨s, hs, he⟩ := hx
        obtain ⟨b, x', hat, -, hopen⟩ := h.entry s hs
        cases he.symm.trans hat.handle
        exact ⟨fun _ => .inr ⟨s, hs, he⟩, fun _ => by simp [hopen]⟩
      · have hold := hframed.others x fun s hs he => hx ⟨s, hs, he⟩
        simp [hx, hold]
    fresh x hx := by
      obtain ⟨s, hs, he⟩ := mem_sessionPorts.mp hx
      obtain ⟨b, x', hat, -⟩ := h.entry s hs
      cases he.symm.trans hat.handle
      simp [mem_live_handles, (hframed.fresh s hs b x hat).2]
    nodup := nodup_sessionPorts h }
  faults := hf

end AlpcResearch.Process
