import AlpcResearch.Process.Laws
import AlpcResearch.Process.Script
import AlpcResearch.Program.Lockstep

/-!
# Telling the two ports apart

What an onlooker sees of a server: its allocations and releases, its calls to
the kernel and its callbacks with the message they are given, up to what is
allowed to differ between `ua.c` and `ka.c` (the allocator, the port flags, the
way the thread is created). Two worlds are `Alike` when a script cannot tell
them apart; an operation and its twin keep worlds alike (`Twin.next`), and so
does an allocation, which is where the heaps differ for a moment.
-/

namespace AlpcResearch.Ka

open Resource Program Process

-- ---------------------------------------------------------------------------
-- What is seen
-- ---------------------------------------------------------------------------

structure Action where
  op : Op
  /-- What lies in the buffer a callback is given. -/
  message : Option Object

def unflagged (a : PortAttributes) : PortAttributes := { a with flags := 0 }

/-- What is seen of an operation, under its name in `ua.c`. Memory accesses
and the helpers of `ntdll` are not seen, nor is the start context of a
thread. -/
def observed : Op → Option Op
  | .allocate _ layout => some (.allocate .crt layout)
  | .free _ p => some (.free .crt p)
  | .alpcCreatePort portName a => some (.alpcCreatePort portName (unflagged a))
  | .alpcConnectPort a =>
    some (.alpcConnectPort { a with portAttributes := unflagged a.portAttributes })
  | .alpcSendWaitReceivePort a => some (.alpcSendWaitReceivePort a)
  | .alpcCancelMessage h p => some (.alpcCancelMessage h p)
  | .alpcAcceptConnectPort a =>
    some (.alpcAcceptConnectPort { a with portAttributes := unflagged a.portAttributes })
  | .close h => some (.close h)
  | .waitForSingleObject h => some (.waitForSingleObject h)
  | .createThread _ => some (.createThread none)
  | .psCreateSystemThread .. | .ntCreateThreadEx _ => some (.createThread none)
  | .onRequest f p => some (.onRequest f p)
  | .onDatagram f p => some (.onDatagram f p)
  | .onConnect f p => some (.onConnect f p)
  | _ => none

/-- What a callback can read. -/
def messageGiven (P : Process) : Op → Option Object
  | .onRequest _ p => P.at? p
  | .onDatagram _ p => P.at? p
  | .onConnect _ p => P.at? p
  | _ => none

def onlooker : View Op Ret Process Action := fun w o =>
  (observed o).map fun op => ⟨op, messageGiven w.state o⟩

-- ---------------------------------------------------------------------------
-- Threads
-- ---------------------------------------------------------------------------

def startContext : Ev → Option (Option ServerObject)
  | ⟨.createThread argument, r⟩ => if ntSuccess r.1 then some argument else none
  | ⟨.psCreateSystemThread _ argument, r⟩ => if ntSuccess r.1 then some argument else none
  | ⟨.ntCreateThreadEx (.server server), r⟩ => if ntSuccess r.1 then some (some server) else none
  | _ => none

def startedOn (log : List Ev) : Option (Option ServerObject) := log.findSome? startContext

-- ---------------------------------------------------------------------------
-- Worlds that are alike
-- ---------------------------------------------------------------------------

/-- Histories after which a script goes on in the same way. -/
structure SameHistory (log log' : List Ev) : Prop where
  counts : ∀ k, (log'.countP fun e => kindOfOp e.op = k) = log.countP fun e => kindOfOp e.op = k
  seen : Script.seen log' = Script.seen log
  contexts : Script.contexts log' = Script.contexts log
  started : (startedOn log').isSome = (startedOn log).isSome

/-- The processes are the same, and so is what the script has come to. -/
structure Alike (w w' : World) : Prop extends SameHistory w.log w'.log where
  state : w'.state = w.state

variable {pl : Platform} {s : Script} {w w' : World} {log log' : List Ev}

theorem SameHistory.refl (log : List Ev) : SameHistory log log := ⟨fun _ => rfl, rfl, rfl, rfl⟩

theorem Alike.refl (w : World) : Alike w w := ⟨.refl _, rfl⟩

theorem SameHistory.next_outcome (h : SameHistory log log') {o o' : Op}
    (hk : kindOfOp o' = kindOfOp o) : s.next log' o' = s.next log o := by
  simp only [Script.next, hk, h.counts]

theorem SameHistory.contextOf (h : SameHistory log log') (out : Outcome) :
    Script.contextOf out log' = Script.contextOf out log := by
  simp only [Script.contextOf, h.contexts]

theorem seen_cons (e : Ev) (log : List Ev) :
    Script.seen (e :: log) = Script.seen [e] ++ Script.seen log :=
  List.filterMap_append (l := [e])

theorem contexts_cons (e : Ev) (log : List Ev) :
    Script.contexts (e :: log) = Script.contexts log ++ Script.contexts [e] := by
  simp only [Script.contexts, List.reverse_cons, List.reverse_nil, List.nil_append,
    List.filterMap_append]

structure SameEvent (e e' : Ev) : Prop where
  kind : kindOfOp e'.op = kindOfOp e.op
  seen : Script.seen [e'] = Script.seen [e]
  contexts : Script.contexts [e'] = Script.contexts [e]
  started : (startContext e').isSome = (startContext e).isSome

theorem SameEvent.refl (e : Ev) : SameEvent e e := ⟨rfl, rfl, rfl, rfl⟩

theorem SameHistory.cons {e e' : Ev} (h : SameHistory log log') (he : SameEvent e e') :
    SameHistory (e :: log) (e' :: log') where
  counts k := by simp only [List.countP_cons, h.counts, he.kind]
  seen := by rw [seen_cons, seen_cons e, he.seen, h.seen]
  contexts := by rw [contexts_cons, contexts_cons e, he.contexts, h.contexts]
  started := by
    have hs := he.started
    simp only [startedOn, List.findSome?_cons]
    cases hc : startContext e <;> cases hc' : startContext e' <;> simp [hc, hc'] at hs ⊢
    exact h.started

theorem Alike.next {r : Ret o} {r' : Ret o'} (hw : Alike w w')
    (he : SameEvent ⟨o, r⟩ ⟨o', r'⟩)
    (hstate : w'.state.effect pl o' r' = w.state.effect pl o r) :
    Alike ((system pl s.follows).next w o r) ((system pl s.follows).next w' o' r') :=
  ⟨hw.toSameHistory.cons he, hstate⟩

/-- An operation of `ua.c` and what stands in its place in `ka.c`, with the
response of the one as a response of the other. -/
inductive Twin : (o o' : Op) → (Ret o → Ret o') → Prop
  | same (o : Op) : Twin o o id
  | free {p : PVoid} : Twin (.free .crt p) (.free .pool p) id
  | createPort {portName : String} {a a' : PortAttributes} (h : unflagged a' = unflagged a) :
      Twin (.alpcCreatePort portName a) (.alpcCreatePort portName a') id
  | accept {a : AcceptConnectPort} {b : PortAttributes}
      (h : unflagged b = unflagged a.portAttributes) :
      Twin (.alpcAcceptConnectPort a) (.alpcAcceptConnectPort { a with portAttributes := b }) id

variable {o o' : Op} {f : Ret o → Ret o'}

theorem Twin.surjective (h : Twin o o' f) : f.Surjective := by
  cases h <;> exact Function.surjective_id

theorem Twin.view (h : Twin o o' f) (hw : Alike w w') : onlooker w o = onlooker w' o' := by
  cases h with
  | same => simp only [onlooker, hw.state]
  | free => rfl
  | createPort h => simp only [onlooker, observed, messageGiven, h]
  | accept h => simp only [onlooker, observed, messageGiven, h]

theorem Alike.follows (hw : Alike w w') (o : Op) (r : Ret o) :
    s.follows w' o r ↔ s.follows w o r := by
  have hnext : s.next w'.log o = s.next w.log o := hw.toSameHistory.next_outcome rfl
  cases o <;> simp only [Script.follows, hnext, hw.toSameHistory.contextOf, hw.seen]

theorem Twin.legal (h : Twin o o' f) (hw : Alike w w') (r : Ret o) :
    (system pl s.follows).legal w o r ↔ (system pl s.follows).legal w' o' (f r) := by
  have hs := hw.state
  cases h with
  | same =>
    refine and_congr (by rw [hs]; rfl) (hw.follows o r).symm
  | free => exact Iff.rfl
  | createPort h => exact and_congr (by rw [hs]; rfl) (hw.follows (.alpcCreatePort _ _) r).symm
  | accept h =>
    rename_i a b
    exact and_congr (by rw [hs]; rfl) (hw.follows (.alpcAcceptConnectPort a) r).symm

theorem Twin.next (h : Twin o o' f) (hw : Alike w w') (r : Ret o) :
    Alike ((system pl s.follows).next w o r) ((system pl s.follows).next w' o' (f r)) := by
  have hs := hw.state
  cases h with
  | same => exact hw.next (.refl _) (by rw [hs]; rfl)
  | @free p =>
    refine hw.next ⟨rfl, rfl, rfl, rfl⟩ ?_
    rw [hs]
    cases p <;> rfl
  | createPort h => exact hw.next ⟨rfl, rfl, rfl, rfl⟩ (by rw [hs]; rfl)
  | accept h => exact hw.next ⟨rfl, rfl, rfl, rfl⟩ (by rw [hs]; rfl)

-- ---------------------------------------------------------------------------
-- In lockstep
-- ---------------------------------------------------------------------------

abbrev InStep (pl : Platform) (s : Script) (Q : α → World → β → World → Prop)
    (p : Proc α) (p' : Proc β) (w w' : World) : Prop :=
  Lockstep (system pl s.follows) (system pl s.follows) onlooker Q p p' w w'

/-- Both end with the same result, in worlds that are alike. -/
def Together (a : α) (v : World) (a' : α) (v' : World) : Prop := a' = a ∧ Alike v v'

variable {Q : α → World → β → World → Prop}

theorem inStep_call (ht : Twin o o' f) (hw : Alike w w') {k : Ret o → Proc α}
    {k' : Ret o' → Proc β}
    (hk : ∀ r v v', Alike v v' → InStep pl s Q (k r) (k' (f r)) v v') :
    InStep pl s Q (.call o k) (.call o' k') w w' :=
  lockstep_call (ht.view hw) f ht.surjective (ht.legal hw) fun r _ => hk r _ _ (ht.next hw r)

-- ---------------------------------------------------------------------------
-- Allocations
-- ---------------------------------------------------------------------------

/-- What the two allocators did, from where it can no longer be told apart. -/
theorem inStep_allocated (hw : Alike w w') {r r' : Allocation}
    (hr : w.state.Legal pl (.allocate .crt layout) r)
    (hr' : w'.state.Legal pl (.allocate .pool layout) r') (hp : r'.pointer = r.pointer) :
    InStep pl s Together
      (match r.pointer with
        | none => .ret none
        | some p => .call (.rtlZeroMemory (some p) (layout.size pl)) fun _ => .ret (some p))
      (match r'.pointer with
        | none => .ret none
        | some p => .call (.rtlZeroMemory (some p) (layout.size pl)) fun _ => .ret (some p))
      ((system pl s.follows).next w (.allocate .crt layout) r)
      ((system pl s.follows).next w' (.allocate .pool layout) r') := by
  rw [hp]
  have hs := hw.state
  cases h : r.pointer with
  | none =>
    refine ⟨rfl, hw.next ⟨rfl, rfl, rfl, rfl⟩ ?_⟩
    simp only [effect, heapAfter, hp, h, hs]
    rfl
  | some p =>
    refine lockstep_call rfl id Function.surjective_id (fun _ => Iff.rfl) fun _ _ => ⟨rfl, ?_⟩
    have hevents : SameEvent ⟨.allocate .crt layout, r⟩ ⟨.allocate .pool layout, r'⟩ :=
      ⟨rfl, rfl, rfl, rfl⟩
    have hhistory := hw.toSameHistory.cons hevents
    refine ⟨hhistory.cons ⟨rfl, rfl, rfl, rfl⟩, ?_⟩
    refine (effect_allocate_zero hr' (hp.trans h)).trans ?_
    rw [hs]
    exact (effect_allocate_zero hr h).symm

/-- `UaAllocateZeroHeap` and `KaAllocateZeroHeap`. What `malloc` leaves in the
block is gone when they return. -/
theorem inStep_allocateZeroHeap (hw : Alike w w') (layout : Layout) :
    InStep pl s Together (allocateZeroHeap .crt pl layout) (allocateZeroHeap .pool pl layout)
      w w' := by
  have hs := hw.state
  have hnext : s.next w'.log (.allocate .pool layout) = s.next w.log (.allocate .crt layout) :=
    hw.toSameHistory.next_outcome rfl
  rw [← bind_ret (allocateZeroHeap .crt pl layout), allocateZeroHeap_bind,
    ← bind_ret (allocateZeroHeap .pool pl layout), allocateZeroHeap_bind]
  refine ⟨rfl, fun r hr => ?_, fun r hr => ?_⟩
  · -- the kernel's pool gives the same block, zeroed
    let r' : Allocation := ⟨r.pointer, .zeroed layout⟩
    have hr' : w'.state.Legal pl (.allocate .pool layout) r' := by
      refine ⟨by cases layout <;> rfl, by cases layout <;> simp [r', Object.Bounded, Object.zeroed],
        fun _ => rfl, ?_⟩
      rw [hs]
      exact hr.1.2.2.2
    refine ⟨r', ⟨hr', ?_⟩, inStep_allocated hw hr.1 hr' rfl⟩
    have hfollows := hr.2
    simp only [Script.follows, hnext] at hfollows ⊢
    exact hfollows
  · have hr' : w.state.Legal pl (.allocate .crt layout) r := by
      refine ⟨hr.1.1, hr.1.2.1, fun hne => absurd rfl hne, ?_⟩
      rw [← hs]
      exact hr.1.2.2.2
    refine ⟨r, ⟨hr', ?_⟩, inStep_allocated hw hr' hr.1 rfl⟩
    have hfollows := hr.2
    simp only [Script.follows, hnext] at hfollows ⊢
    exact hfollows

end AlpcResearch.Ka
