import AlpcResearch.Process.Laws
import AlpcResearch.Program.Threads

/-!
# Threads of one process

Operations with their two ends: issuing one changes nothing, its response is
legal and has its effect when it comes. A heap block is `Obtained` in a
history from the allocation on, whoever goes on, and its size is what the
process knows of it while it is there (`Accounted`).
-/

namespace AlpcResearch

open Resource Program Process

variable {ι : Type} {pl : Platform} {T : Type}

namespace Process

def LegalPhase (pl : Platform) (P : Process) : (o : Phase Op) → Phase.Ret Ret T o → Prop
  | .issue _, _ => True
  | .await o, r => P.Legal pl o r

def effectPhase (pl : Platform) (P : Process) : (o : Phase Op) → Phase.Ret Ret T o → Process
  | .issue _, _ => P
  | .await o, r => P.effect pl o r

end Process

abbrev Crowd (ι : Type) := Shared ι (Phase Op) (Phase.Ret Ret Unit) Process

abbrev CrowdEvent (ι : Type) := Event (ι × Phase Op) fun o => Phase.Ret Ret Unit o.2

/-- Threads of one process under a kernel of which nothing is assumed. -/
def crowd (ι : Type) (pl : Platform) :
    System (ι × Phase Op) (fun o => Phase.Ret Ret Unit o.2) Process where
  legal w o r := w.state.LegalPhase pl o.2 r
  effect P o r := P.effectPhase pl o.2 r

def opOf : Phase Op → Op
  | .issue o => o
  | .await o => o

theorem uses_phased {p : Proc α} {good : Op → Prop} (h : p.Uses good) :
    (p.phased Unit).Uses fun o => good (opOf o) := by
  induction p with
  | ret a => trivial
  | call o k ih => exact ⟨h.1, fun _ => ⟨h.1, fun r => ih r (h.2 r)⟩⟩

/-- What has come back so far, from whichever thread. -/
def responses (log : List (CrowdEvent ι)) : List Ev :=
  log.filterMap fun
    | ⟨(_, .await o), r⟩ => some ⟨o, r⟩
    | ⟨(_, .issue _), _⟩ => none

-- ---------------------------------------------------------------------------
-- Allocations in a history
-- ---------------------------------------------------------------------------

def Obtained (log : List (CrowdEvent ι)) (q : Ref) (l : Layout) : Prop :=
  ∃ (i : ι) (api : HeapApi) (r : Allocation),
    ⟨(i, .await (.allocate api l)), r⟩ ∈ log ∧ r.pointer = some ⟨q, 0⟩

theorem Obtained.mono {log log' : List (CrowdEvent ι)} (h : Obtained log q l)
    (hlog : log <:+ log') : Obtained log' q l := by
  obtain ⟨i, api, r, hmem, hr⟩ := h
  exact ⟨i, api, r, hlog.mem hmem, hr⟩

/-- What the process says of a block agrees with its allocation. -/
def Accounted (w : Crowd ι) : Prop :=
  ∀ q l, Obtained w.log q l →
    q.serial < w.state.heap.next ∧ ∀ l', w.state.layoutOf q = some l' → l' = l

theorem obtained_cons {log : List (CrowdEvent ι)} {e : CrowdEvent ι}
    (h : Obtained (e :: log) q l) : Obtained log q l ∨
      ∃ (i : ι) (api : HeapApi) (r : Allocation),
        e = ⟨(i, .await (.allocate api l)), r⟩ ∧ r.pointer = some ⟨q, 0⟩ := by
  obtain ⟨i, api, r, hmem, hr⟩ := h
  rcases List.mem_cons.mp hmem with he | hmem
  · exact .inr ⟨i, api, r, he.symm, hr⟩
  · exact .inl ⟨i, api, r, hmem, hr⟩

namespace Process

variable {P : Process} {q : Ref} {l : Layout}

theorem next_effect (pl : Platform) (o : Op) (r : Ret o) :
    P.heap.next ≤ (P.effect pl o r).heap.next := by
  have hmodify : ∀ (P : Process) (p : PVoid) f, (P.modify p f).next = P.heap.next := by
    intro P p f
    cases p <;> rfl
  cases o with
  | allocate api layout =>
    simp only [effect, heapAfter]
    split <;> simp
  | free api p =>
    cases p <;> exact Nat.le_refl _
  | rtlZeroMemory | rtlCopyMemory | store | setClientId | alpcConnectPort | onRequest =>
    simp only [effect, heapAfter, hmodify]
    exact Nat.le_refl _
  | alpcInitializeMessageAttribute =>
    simp only [effect, heapAfter]
    split <;> simp [hmodify]
  | alpcSendWaitReceivePort a =>
    simp only [effect, heapAfter]
    split <;> simp [hmodify]
  | alpcAcceptConnectPort a =>
    simp only [effect, heapAfter]
    split
    · split <;> simp [hmodify]
    · exact Nat.le_refl _
  | _ => exact Nat.le_refl _

/-- A block that was there before an operation is what it was after it, if it
is still there. -/
theorem layoutOf_old {o : Op} {r : Ret o} (hr : P.Legal pl o r) (hq : q.serial < P.heap.next)
    (h : (P.effect pl o r).layoutOf q = some l) : P.layoutOf q = some l := by
  by_cases ho : ChangesBlocks o
  swap
  · exact (layoutOf_effect ho).symm.trans h
  cases o with
  | allocate api layout =>
    cases hp : r.pointer with
    | none =>
      simp only [effect, heapAfter, layoutOf, hp] at h
      exact h
    | some p =>
      have hne : q ≠ p.block := by
        rintro rfl
        exact Nat.lt_irrefl _ ((hr.2.2.2 p hp).2.2 ▸ hq)
      rwa [layoutOf_allocate hr hp, if_neg hne] at h
  | free api p =>
    cases p with
    | none => exact h
    | some p =>
      obtain ⟨obj, hobj, rfl⟩ := layoutOf_some.mp h
      refine layoutOf_some.mpr ⟨obj, ?_, rfl⟩
      simp only [effect, heapAfter, Table.get?_eq_some, Table.release] at hobj
      split at hobj
      · cases hobj
      · exact Table.get?_eq_some.mpr hobj
  | _ => exact ho.elim

end Process

theorem Accounted.act {w : Crowd ι} {o : ι × Phase Op} {r : Phase.Ret Ret Unit o.2}
    (h : Accounted w) (hr : (crowd ι pl).legal w o r) : Accounted ((crowd ι pl).next w o r) := by
  obtain ⟨i, o⟩ := o
  intro q l hq
  cases o with
  | issue o =>
    rcases obtained_cons hq with hq | ⟨_, _, _, he, _⟩
    · exact h q l hq
    · cases he
  | await o =>
    rcases obtained_cons hq with hq | ⟨_, _, _, he, hp⟩
    · obtain ⟨hlt, hlay⟩ := h q l hq
      exact ⟨Nat.lt_of_lt_of_le hlt (Process.next_effect pl o r), fun l' hl' =>
        hlay l' (Process.layoutOf_old hr hlt hl')⟩
    · cases he
      obtain ⟨q', hq', hnew⟩ := Process.newBlock_allocate hr hp
      cases hq'
      refine ⟨hnew.next, fun l' hl' => ?_⟩
      have hlayout : (w.state.effect pl _ _).layoutOf q = some l :=
        (Process.layoutOf_allocate hr hp).trans (if_pos rfl)
      exact Option.some.inj (hl'.symm.trans hlayout)

end AlpcResearch
