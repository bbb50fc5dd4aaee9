import AlpcResearch.Process.Senders
import AlpcResearch.Resource.Inventory
import AlpcResearch.Sessions.Ledger

/-!
# What a program holds

`Holding w₀ w bs hs` says that since `w₀` the process has gained exactly the
blocks `bs` and the handles `hs`, and that whatever was freed or closed in the
meantime was there to be freed or closed. Each operation that acquires or
releases adds to these lists or takes from them; a sender returns with the
lists it found (`withPortMessage_holding`).
-/

namespace AlpcResearch

open Resource Program Process

variable {pl : Platform} {A : Assumption} {P P' P₀ : Process} {w₀ w v u : World}
variable {bs hs bs' hs' : List Ref} {q x : Ref}

namespace Process

theorem mem_live_heap : q ∈ P.heap.live ↔ P.layoutOf q ≠ none := by
  rw [Table.mem_live, ne_eq, layoutOf_none, ← ne_eq, Option.ne_none_iff_exists']

theorem mem_live_handles : x ∈ P.handles.live ↔ P.handles.get? x ≠ none := by
  rw [Table.mem_live, Option.ne_none_iff_exists']

theorem live_heap_effect (pl : Platform) {o : Op} {r : Ret o} (ho : ¬ ChangesBlocks o) :
    (P.effect pl o r).heap.live = P.heap.live := by
  ext q
  rw [mem_live_heap, mem_live_heap, layoutOf_effect ho]

theorem invalidFree_free {o : Op} {r : Ret o} (h : .invalidFree p ∈ P.faultsOf pl o r) :
    ∃ api v, o = .free api v := by
  have noAccess : ∀ {v n}, .invalidFree p ∉ P.accessFault pl v n := by
    intro v n hf; obtain ⟨_, _, ⟨he, _⟩ | ⟨he, _⟩⟩ := mem_accessFault hf <;> cases he
  have noStruct : ∀ {v}, .invalidFree p ∉ P.structFault v := by
    intro v hf; obtain ⟨_, _, he, _⟩ := mem_structFault hf; cases he
  have noHandle : ∀ {v}, .invalidFree p ∉ P.handleFault v := by
    intro v hf; obtain ⟨_, _, he, _⟩ := mem_handleFault hf; cases he
  have noKernel : ∀ {v n}, .invalidFree p ∉ P.kernelWriteFault pl v n := by
    intro v n hf; obtain ⟨_, _, ⟨he, _⟩ | ⟨he, _⟩⟩ := mem_kernelWriteFault hf <;> cases he
  cases o with
  | free api v => exact ⟨api, v, rfl⟩
  | alpcAcceptConnectPort a =>
    simp only [faultsOf, List.mem_append, noHandle, false_or] at h
    split at h
    · exact absurd h noStruct
    · simp at h
  | _ => simp [faultsOf, noAccess, noStruct, noHandle, noKernel] at h

theorem free_fault {p : Ptr} (h : P.layoutOf p.block = some l) (h0 : p.offset = 0) :
    P.faultsOf pl (.free api (some p)) () = [] := by
  simp [faultsOf, h, h0]

end Process

-- ---------------------------------------------------------------------------
-- Holding blocks and handles
-- ---------------------------------------------------------------------------

theorem closesOpen_of_exactClose {o : Op} {r : Ret o} (h : exactClose w o r) :
    closesOpen w o r := by
  cases o with
  | close x => exact h.mpr
  | _ => trivial

def Closes : Ev → Prop
  | ⟨.close _, status⟩ => ntSuccess status = true
  | _ => True

structure Holding (w₀ w : World) (bs hs : List Ref) : Prop where
  blocks : w₀.state.heap.Grown w.state.heap bs
  handles : w₀.state.handles.Grown w.state.handles hs
  frees : ∃ fs, w.state.faults = fs ++ w₀.state.faults ∧ ∀ p, .invalidFree p ∉ fs
  closes : Adds Closes w₀ w

def Plain : Op → Prop
  | .allocate .. | .free .. | .close _ | .alpcCreatePort .. | .alpcConnectPort _
  | .alpcAcceptConnectPort _ | .createThread _ | .psCreateSystemThread .. | .ntCreateThreadEx _ =>
    False
  | _ => True

namespace Holding

theorem refl (w : World) : Holding w w [] [] where
  blocks := .refl _
  handles := .refl _
  frees := ⟨[], rfl, by simp⟩
  closes := .refl w

theorem perm (h : Holding w₀ w bs hs) (hb : bs.Perm bs') (hh : hs.Perm hs') :
    Holding w₀ w bs' hs' where
  blocks := h.blocks.perm hb
  handles := h.handles.perm hh
  frees := h.frees
  closes := h.closes

theorem trans (h : Holding w₀ w bs hs) (h' : Holding w v bs' hs') :
    Holding w₀ v (bs' ++ bs) (hs' ++ hs) where
  blocks := h.blocks.trans h'.blocks
  handles := h.handles.trans h'.handles
  frees := by
    obtain ⟨fs, hfs, hfree⟩ := h.frees
    obtain ⟨fs', hfs', hfree'⟩ := h'.frees
    refine ⟨fs' ++ fs, by simp [hfs', hfs], fun p hp => ?_⟩
    exact (List.mem_append.mp hp).elim (hfree' p) (hfree p)
  closes := h.closes.trans h'.closes

theorem step {o : Op} {r : Ret o} (h : Holding w₀ w bs hs) (hf : ∀ api v, o ≠ .free api v)
    (hb : w₀.state.heap.Grown (w.state.heapAfter o r) bs')
    (hh : w₀.state.handles.Grown (w.state.handlesAfter o r) hs') (hc : Closes ⟨o, r⟩) :
    Holding w₀ ((system pl A).next w o r) bs' hs' where
  blocks := hb
  handles := hh
  frees := by
    obtain ⟨fs, hfs, hfree⟩ := h.frees
    refine ⟨w.state.faultsOf pl o r ++ fs, ?_, fun p hp => ?_⟩
    · simp [system, faults_effect, hfs]
    rcases List.mem_append.mp hp with hp | hp
    · obtain ⟨api, v, ho⟩ := invalidFree_free hp
      exact hf api v ho
    · exact hfree p hp
  closes := h.closes.next hc

theorem plain {o : Op} {r : Ret o} (h : Holding w₀ w bs hs) (ho : Plain o) :
    Holding w₀ ((system pl A).next w o r) bs hs := by
  have hblocks : ¬ ChangesBlocks o := by
    intro hc
    cases o with
    | allocate | free => exact ho
    | _ => exact hc
  have hlive : (w.state.heapAfter o r).live = w.state.heap.live :=
    live_heap_effect pl hblocks
  have hhandles : w.state.handlesAfter o r = w.state.handles := by
    cases o with
    | close | alpcCreatePort | alpcConnectPort | alpcAcceptConnectPort | createThread
    | psCreateSystemThread | ntCreateThreadEx => exact ho.elim
    | _ => rfl
  refine h.step ?_ (h.blocks.congr hlive) (hhandles ▸ h.handles) ?_
  · rintro api v rfl
    exact ho
  · cases o with
    | close => exact ho.elim
    | _ => trivial

theorem of_uses {p : Proc α} (hp : p.Uses Plain) (h : Holding w₀ w bs hs) :
    p.safe (system pl A) (fun _ => True) (fun _ v => Holding w₀ v bs hs) w :=
  safe_of_uses hp (fun _ _ _ ho _ hv => hv.plain ho) (fun _ _ => trivial) (fun _ _ hv => hv) h

theorem allocate_failed {r : Allocation} (h : Holding w₀ w bs hs) (hp : r.pointer = none) :
    Holding w₀ ((system pl A).next w (.allocate api l) r) bs hs :=
  h.step (by simp) (by simpa [heapAfter, hp] using h.blocks) h.handles trivial

theorem allocate {r : Allocation} (h : Holding w₀ w bs hs)
    (hr : w.state.Legal pl (.allocate api l) r) (hp : r.pointer = some p) :
    Holding w₀ ((system pl A).next w (.allocate api l) r) (p.block :: bs) hs := by
  refine h.step (by simp) ?_ h.handles trivial
  simpa [heapAfter, hp] using h.blocks.acquire (hr.2.2.2 p hp).2 r.residue

theorem free (h : Holding w₀ w (q :: bs) hs) :
    Holding w₀ ((system pl A).next w (.free api (some ⟨q, 0⟩)) ()) bs hs where
  blocks := h.blocks.release
  handles := h.handles
  frees := by
    obtain ⟨fs, hfs, hfree⟩ := h.frees
    obtain ⟨obj, hobj⟩ := h.blocks.get? List.mem_cons_self
    have hfault : w.state.faultsOf pl (.free api (some ⟨q, 0⟩)) () = [] :=
      free_fault (p := ⟨q, 0⟩) (layoutOf_get? hobj) rfl
    refine ⟨fs, ?_, hfree⟩
    simp [system, faults_effect, hfault, hfs]
  closes := h.closes.next trivial

theorem opens {o : Op} {r : Ret o} (h : Holding w₀ w bs hs) (ho : opened o r = some (x, k))
    (hblocks : ¬ ChangesBlocks o) (hx : w.state.handles.Fresh x) :
    Holding w₀ ((system pl A).next w o r) bs (x :: hs) := by
  have hhandles : w.state.handlesAfter o r = w.state.handles.acquire x.name k := by
    simp only [handlesAfter, ho]
  refine h.step ?_ (h.blocks.congr (live_heap_effect pl hblocks))
    (hhandles ▸ h.handles.acquire hx k) ?_
  · rintro api v rfl
    exact hblocks trivial
  · cases o with
    | close => cases ho
    | _ => trivial

theorem not_opens {o : Op} {r : Ret o} (h : Holding w₀ w bs hs) (ho : opened o r = none)
    (hblocks : ¬ ChangesBlocks o) (hclose : ∀ x, o ≠ .close x) :
    Holding w₀ ((system pl A).next w o r) bs hs := by
  have hclosed : closed o r = none := by
    cases o with
    | close x => exact absurd rfl (hclose x)
    | _ => rfl
  have hhandles : w.state.handlesAfter o r = w.state.handles := by
    simp only [handlesAfter, ho, hclosed]
  refine h.step ?_ (h.blocks.congr (live_heap_effect pl hblocks)) (hhandles ▸ h.handles) ?_
  · rintro api v rfl
    exact hblocks trivial
  · cases o with
    | close x => exact absurd rfl (hclose x)
    | _ => trivial

theorem close (hA : ∀ w o r, A w o r → closesOpen w o r) (h : Holding w₀ w bs (x :: hs))
    (hr : (system pl A).legal w (.close (some x)) r) :
    Holding w₀ ((system pl A).next w (.close (some x)) r) bs hs := by
  obtain ⟨k, hk⟩ := h.handles.get? List.mem_cons_self
  have hsuccess : ntSuccess r = true := hA _ _ _ hr.2 (by simp [hk])
  have hhandles : w.state.handlesAfter (.close (some x)) r = w.state.handles.release x.name := by
    simp only [handlesAfter, opened, closed, hsuccess, if_true]
  exact h.step (by simp) h.blocks (hhandles ▸ h.handles.release) hsuccess

end Holding

-- ---------------------------------------------------------------------------
-- Programs
-- ---------------------------------------------------------------------------

/-- The block a pointer to the start of one points to. -/
def refsOf (p : PVoid) : List Ref := p.toList.map Ptr.block

/-- The start of a block, or `NULL`. -/
def AtStart (p : PVoid) : Prop := ∀ q, p = some q → q.offset = 0

theorem freeUnlessNull_holding (h0 : AtStart p) (h : Holding w₀ w (refsOf p ++ bs) hs) :
    (unlessNull p (free api p)).safe (system pl A) (fun _ => True)
      (fun _ v => Holding w₀ v bs hs) w := by
  cases p with
  | none => exact ⟨trivial, h⟩
  | some p =>
    obtain ⟨q, off⟩ := p
    obtain rfl : off = 0 := h0 _ rfl
    exact ⟨trivial, fun _ _ => ⟨trivial, h.free⟩⟩

theorem closeUnlessNull_holding (hA : ∀ w o r, A w o r → closesOpen w o r) {port : Handle}
    (h : Holding w₀ w bs (port.toList ++ hs)) :
    (unlessNull port (do let _ ← ntClose port)).safe (system pl A) (fun _ => True)
      (fun _ v => Holding w₀ v bs hs) w := by
  cases port with
  | none => exact ⟨trivial, h⟩
  | some x => exact ⟨trivial, fun r hr => ⟨trivial, h.close hA hr⟩⟩

theorem allocateZeroHeap_holding {f : PVoid → Proc α} {Q : α → World → Prop}
    (h : Holding w₀ w bs hs)
    (hnull : ∀ v, Holding w₀ v bs hs → (f none).safe (system pl A) (fun _ => True) Q v)
    (hblock : ∀ q v, Holding w₀ v (q :: bs) hs →
      (f (some ⟨q, 0⟩)).safe (system pl A) (fun _ => True) Q v) :
    (allocateZeroHeap api pl l >>= f).safe (system pl A) (fun _ => True) Q w := by
  rw [allocateZeroHeap_bind]
  refine ⟨trivial, fun r hr => ?_⟩
  cases hp : r.pointer with
  | none =>
    simp only [hp]
    exact hnull _ (h.allocate_failed hp)
  | some p =>
    obtain ⟨q, off⟩ := p
    obtain rfl : off = 0 := (hr.1.2.2.2 _ hp).1
    simp only [hp]
    exact ⟨trivial, fun _ _ => hblock q _ ((h.allocate hr.1 hp).plain trivial)⟩

theorem allocate_holding {f : PVoid → Proc α} {Q : α → World → Prop}
    (h : Holding w₀ w bs hs)
    (hnull : ∀ v, Holding w₀ v bs hs → (f none).safe (system pl A) (fun _ => True) Q v)
    (hblock : ∀ q v, Holding w₀ v (q :: bs) hs →
      (f (some ⟨q, 0⟩)).safe (system pl A) (fun _ => True) Q v) :
    (allocate api l >>= f).safe (system pl A) (fun _ => True) Q w := by
  refine ⟨trivial, fun r hr => ?_⟩
  change (f r.pointer).safe _ _ _ _
  cases hp : r.pointer with
  | none => exact hnull _ (h.allocate_failed hp)
  | some p =>
    obtain ⟨q, off⟩ := p
    obtain rfl : off = 0 := (hr.1.2.2.2 _ hp).1
    exact hblock q _ (h.allocate hr.1 hp)

theorem createPort_holding {k : NtStatus × Handle → Proc α} {Q : α → World → Prop}
    (h : Holding w₀ w bs hs)
    (hfail : ∀ status v, ¬ ntSuccess status = true → Holding w₀ v bs hs →
      (k (status, none)).safe (system pl A) (fun _ => True) Q v)
    (hopen : ∀ status x v, ntSuccess status = true → Holding w₀ v bs (x :: hs) →
      (k (status, some x)).safe (system pl A) (fun _ => True) Q v) :
    (Prog.call (.alpcCreatePort name attributes) k).safe (system pl A) (fun _ => True) Q w := by
  refine ⟨trivial, ?_⟩
  rintro ⟨status, port⟩ hr
  by_cases hs : ntSuccess status = true
  · obtain ⟨x, rfl, hx⟩ : ∃ x, port = some x ∧ w.state.handles.Fresh x := opens_some hr.1 hs
    exact hopen status x _ hs (h.opens rfl id hx)
  · obtain rfl : port = none := opens_none hr.1 hs
    exact hfail status _ hs (h.not_opens rfl id fun _ he => by cases he)

theorem connectPort_holding {k : ConnectReply → Proc α} {Q : α → World → Prop}
    (h : Holding w₀ w bs hs)
    (hfail : ∀ r v, ¬ ntSuccess r.status = true → Holding w₀ v bs hs →
      (k r).safe (system pl A) (fun _ => True) Q v)
    (hopen : ∀ r x v, ntSuccess r.status = true → r.handle = some x → Holding w₀ v bs (x :: hs) →
      (k r).safe (system pl A) (fun _ => True) Q v) :
    (Prog.call (.alpcConnectPort a) k).safe (system pl A) (fun _ => True) Q w := by
  refine ⟨trivial, fun r hr => ?_⟩
  by_cases hs : ntSuccess r.status = true
  · obtain ⟨x, hx, hfresh⟩ : ∃ x, r.handle = some x ∧ w.state.handles.Fresh x :=
      opens_some hr.1.1 hs
    exact hopen r x _ hs hx (h.opens (by simp only [opened, hx]; rfl) id hfresh)
  · have hnone : r.handle = none := opens_none hr.1.1 hs
    exact hfail r _ hs (h.not_opens (by simp only [opened, hnone]; rfl) id fun _ he => by cases he)

theorem createSystemThread_holding {k : NtStatus × Handle → Proc α} {Q : α → World → Prop}
    (h : Holding w₀ w bs hs)
    (hfail : ∀ status v, ¬ ntSuccess status = true → Holding w₀ v bs hs →
      (k (status, none)).safe (system pl A) (fun _ => True) Q v)
    (hopen : ∀ status x v, ntSuccess status = true → Holding w₀ v bs (x :: hs) →
      (k (status, some x)).safe (system pl A) (fun _ => True) Q v) :
    (Prog.call (.psCreateSystemThread name argument) k).safe (system pl A) (fun _ => True) Q w := by
  refine ⟨trivial, ?_⟩
  rintro ⟨status, thread⟩ hr
  by_cases hs : ntSuccess status = true
  · obtain ⟨x, rfl, hx⟩ : ∃ x, thread = some x ∧ w.state.handles.Fresh x := opens_some hr.1 hs
    exact hopen status x _ hs (h.opens rfl id hx)
  · obtain rfl : thread = none := opens_none hr.1 hs
    exact hfail status _ hs (h.not_opens rfl id fun _ he => by cases he)

theorem withPortMessage_holding {fail : NtStatus → α} {send : PVoid → Proc α}
    {Q : α → World → Prop} (h : Holding w₀ w bs hs)
    (hfail : ∀ status v, Holding w₀ v bs hs → Q (fail status) v)
    (hsend : ∀ q v, Holding w₀ v (q :: bs) hs →
      (send (some ⟨q, 0⟩)).safe (system pl A) (fun _ => True)
        (fun a u => Q a ((system pl A).next u (.free api (some ⟨q, 0⟩)) ())) v) :
    (withPortMessage api pl data n fail send).safe (system pl A) (fun _ => True) Q w := by
  rw [withPortMessage_eq]
  split
  · exact ⟨trivial, hfail _ _ h⟩
  refine ⟨trivial, fun r hr => ?_⟩
  cases hp : r.pointer with
  | none =>
    simp only [hp]
    exact ⟨trivial, hfail _ _ (h.allocate_failed hp)⟩
  | some p =>
    obtain ⟨q, off⟩ := p
    obtain rfl : off = 0 := (hr.1.2.2.2 _ hp).1
    have h₁ := h.allocate (A := A) hr.1 hp
    simp only [hp]
    refine safe_bind ⟨trivial, fun _ _ => ⟨trivial, fun _ _ => ⟨trivial, fun _ _ => ⟨trivial,
      fun _ _ => ?_⟩⟩⟩⟩
    refine safe_mono (hsend q _ ?_) fun a u hu => ⟨trivial, fun _ _ => ⟨trivial, hu⟩⟩
    exact .plain (.plain (.plain (.plain h₁ trivial) trivial) trivial) trivial

end AlpcResearch
