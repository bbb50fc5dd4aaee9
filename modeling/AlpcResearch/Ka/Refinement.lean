import AlpcResearch.Ka.Copies
import AlpcResearch.Ua.Creation

/-!
# The kernel port against the user one

A service is the creation of a server, then the worker on the start context of
the thread that was created. Up to that thread the two ports are in step, and
so would their workers be on one server object (`workers_perform`); but where
creation succeeds the kernel's worker is started on `NULL` and never receives
anything. So the kernel port refines the user one under exactly those scripts
under which creation fails.
-/

namespace AlpcResearch.Ka

open Resource Program Process Ua

-- ---------------------------------------------------------------------------
-- Services
-- ---------------------------------------------------------------------------

/-- The server's side of one of the two files. -/
structure ServerSide where
  create : String → Procedure → Procedure → Procedure → Proc (Option ServerObject)
  worker : ServerObject → Proc (Control NtStatus)

def userMode (pl : Platform) : ServerSide := ⟨uaCreateServer pl, uaServerWorker pl⟩

def kernelMode (pl : Platform) : ServerSide := ⟨kaCreateServer pl, kaServerWorker pl⟩

def offConnectionPortHandle : Platform → Nat
  | .x86 => 72
  | .x64 => 128

/-- At most `n` rounds of the worker. It begins by reading
`ConnectionPortHandle` through its start context. -/
def ServerSide.thread (c : ServerSide) (pl : Platform) (n : Nat) :
    Option ServerObject → Proc (Option NtStatus)
  | some server => (c.worker server).loop n
  | none => .call (.load none (offConnectionPortHandle pl) pl.pointerSize) fun _ => .ret none

/-- A creation, then the thread it started, if it did. -/
def ServerSide.serve (c : ServerSide) (pl : Platform) (n : Nat)
    (creation : Proc (Option ServerObject)) : Proc (Option NtStatus) := do
  let reported ← creation.logged []
  match startedOn reported.2 with
  | some context => c.thread pl n context
  | none => return none

/-- `k` does what `u` does: the same can be seen of it, its creation succeeds
or fails as `u`'s does, and its worker runs on the server that is returned. -/
structure Refines (pl : Platform) (A : Assumption) (k u : ServerSide) (portName : String)
    (onRequest onDatagram onConnect : Procedure) (w : World) : Prop where
  actions : ∀ t,
    (∃ n, Performs (system pl A) onlooker
      (k.serve pl n (k.create portName onRequest onDatagram onConnect)) w t) ↔
    ∃ n, Performs (system pl A) onlooker
      (u.serve pl n (u.create portName onRequest onDatagram onConnect)) w t
  created :
    (∃ server v, Ends (system pl A) (k.create portName onRequest onDatagram onConnect) w
      (some server) v) ↔
    ∃ server v, Ends (system pl A) (u.create portName onRequest onDatagram onConnect) w
      (some server) v
  failed :
    (∃ v, Ends (system pl A) (k.create portName onRequest onDatagram onConnect) w none v) ↔
    ∃ v, Ends (system pl A) (u.create portName onRequest onDatagram onConnect) w none v
  runsOnServer : ∀ server v,
    Ends (system pl A) (k.create portName onRequest onDatagram onConnect) w (some server) v →
    ∃ context, startedOn v.log = some (some context) ∧ context.block = server.block

/-- Every step of a creation succeeds. -/
structure Creates (s : Script) : Prop where
  serverObject : ntSuccess (s.outcome .allocate 0).status = true
  attributes : ntSuccess (s.outcome .allocate 1).status = true
  initialized : ntSuccess (s.outcome .initializeMessageAttribute 0).status = true
  message : ntSuccess (s.outcome .allocate 2).status = true
  port : ntSuccess (s.outcome .createPort 0).status = true
  thread : ntSuccess (s.outcome .createThread 0).status = true

variable {pl : Platform} {s : Script} {w w' v : World} {server : ServerObject}

-- ---------------------------------------------------------------------------
-- The workers
-- ---------------------------------------------------------------------------

/-- On one server object the two workers do the same. -/
theorem workers_perform (hw : Alike w w') (n : Nat) (t : List Action) :
    Performs (system pl s.follows) onlooker ((kaServerWorker pl (inKernel server)).loop n) w' t ↔
      Performs (system pl s.follows) onlooker ((uaServerWorker pl server).loop n) w t :=
  (lockstep_loop (fun _ _ => kaServerWorker_inStep) hw).performs.symm

-- ---------------------------------------------------------------------------
-- The thread that is started
-- ---------------------------------------------------------------------------

def StartsNothing (o : Op) : Prop := kindOfOp o ≠ .createThread

theorem startContext_nothing {e : Ev} (h : StartsNothing e.op) : startContext e = none := by
  obtain ⟨o, r⟩ := e
  cases o with
  | createThread | psCreateSystemThread | ntCreateThreadEx => exact absurd rfl h
  | _ => rfl

theorem startedOn_ends {p : Proc α} {S : System Op Ret Process} (hp : p.Uses StartsNothing)
    (h : Ends S p w a v) : startedOn v.log = startedOn w.log := by
  obtain ⟨new, hlog, hnew⟩ := h.log_grows hp
  have hnone : new.findSome? startContext = none :=
    List.findSome?_eq_none_iff.mpr fun e he => startContext_nothing (hnew e he)
  simp only [startedOn, hlog, List.findSome?_append, hnone, Option.none_or]

theorem uaCleanup_outcome {A : Assumption} (h : Ends (system pl A) (uaCleanup server) w r v) :
    r = none ∧ startedOn v.log = startedOn w.log := by
  have hfree : ∀ p, (uaFreeHeap p).Uses StartsNothing := fun p => ⟨nofun, fun _ => trivial⟩
  have hclose : (ntClose server.connectionPortHandle >>= fun _ => pure ()).Uses StartsNothing :=
    ⟨nofun, fun _ => trivial⟩
  refine ⟨ends_uaCleanup h, startedOn_ends ?_ h⟩
  exact uses_bind (uses_unlessNull hclose) fun _ =>
    uses_bind (uses_unlessNull (hfree _)) fun _ =>
    uses_bind (uses_unlessNull (hfree _)) fun _ => uses_bind (hfree _) fun _ => trivial

theorem ends_allocateZeroHeap_cases {A : Assumption} {f : PVoid → Proc α}
    (h : Ends (system pl A) (allocateZeroHeap api pl layout >>= f) w a v) :
    ∃ r, (system pl A).legal w (.allocate api layout) r ∧
      (r.pointer = none ∧
          Ends (system pl A) (f none) ((system pl A).next w (.allocate api layout) r) a v ∨
        ∃ p, r.pointer = some p ∧ Ends (system pl A) (f (some p))
          ((system pl A).next ((system pl A).next w (.allocate api layout) r)
            (.rtlZeroMemory (some p) (layout.size pl)) ()) a v) := by
  rw [allocateZeroHeap_bind] at h
  obtain ⟨r, hr, h⟩ := ends_call.mp h
  refine ⟨r, hr, ?_⟩
  cases hp : r.pointer with
  | none =>
    simp only [hp] at h
    exact .inl ⟨rfl, h⟩
  | some p =>
    simp only [hp] at h
    obtain ⟨_, _, h⟩ := ends_call.mp h
    exact .inr ⟨p, rfl, h⟩

/-- What a creation returns, and the thread it has started. -/
def CreationOutcome (s : Script) (r : Option ServerObject) (v : World) : Prop :=
  (r.isSome = true ↔ Creates s) ∧
    startedOn v.log = r.map fun server => some { server with serverThreadHandle := none }

theorem outcome_failed {A : Assumption} (hno : ¬ Creates s)
    (h : Ends (system pl A) (uaCleanup server) w r v) (hw : startedOn w.log = none) :
    CreationOutcome s r v := by
  obtain ⟨rfl, hv⟩ := uaCleanup_outcome h
  exact ⟨⟨nofun, fun c => absurd c hno⟩, hv.trans hw⟩

/-- Whether `UaCreateServer` succeeds is up to the script; its worker runs on
the object it returns. -/
theorem uaCreateServer_outcome (hlog : w.log = [])
    (h : Ends (system pl s.follows) (uaCreateServer pl portName f g k) w r v) : CreationOutcome s r v := by
  obtain ⟨P, log⟩ := w
  cases hlog
  unfold uaCreateServer uaAllocateZeroHeap at h
  obtain ⟨r₁, hr₁, ⟨hp₁, h⟩ | ⟨p₁, hp₁, h⟩⟩ := ends_allocateZeroHeap_cases h
  · have h₁ : r₁.pointer.isSome = ntSuccess (s.outcome .allocate 0).status := hr₁.2
    simp only [if_true] at h
    obtain ⟨rfl, rfl⟩ := ends_ret.mp h
    exact ⟨⟨nofun, fun c => by simp [hp₁, c.serverObject] at h₁⟩, rfl⟩
  have h₁ : r₁.pointer.isSome = ntSuccess (s.outcome .allocate 0).status := hr₁.2
  simp only [reduceCtorEq, if_false] at h
  obtain ⟨size, -, h⟩ := ends_op_bind.mp h
  obtain ⟨r₂, hr₂, ⟨hp₂, h⟩ | ⟨p₂, hp₂, h⟩⟩ := ends_allocateZeroHeap_cases h
  · have h₂ : r₂.pointer.isSome = ntSuccess (s.outcome .allocate 1).status := hr₂.2
    simp only [if_true] at h
    exact outcome_failed (fun c => by simp [hp₂, c.attributes] at h₂) h rfl
  have h₂ : r₂.pointer.isSome = ntSuccess (s.outcome .allocate 1).status := hr₂.2
  simp only [reduceCtorEq, if_false] at h
  obtain ⟨status, hstatus, h⟩ := ends_op_bind.mp h
  have h₃ : status = (s.outcome .initializeMessageAttribute 0).status := hstatus.2
  by_cases hs : ntSuccess status = true
  swap
  · simp only [hs, Bool.not_false, if_true] at h
    exact outcome_failed (fun c => hs (h₃ ▸ c.initialized)) h rfl
  simp only [hs, Bool.not_true, Bool.false_eq_true, if_false] at h
  obtain ⟨r₄, hr₄, ⟨hp₄, h⟩ | ⟨p₄, hp₄, h⟩⟩ := ends_allocateZeroHeap_cases h
  · have h₄ : r₄.pointer.isSome = ntSuccess (s.outcome .allocate 2).status := hr₄.2
    simp only [if_true] at h
    exact outcome_failed (fun c => by simp [hp₄, c.message] at h₄) h rfl
  have h₄ : r₄.pointer.isSome = ntSuccess (s.outcome .allocate 2).status := hr₄.2
  simp only [reduceCtorEq, if_false] at h
  obtain ⟨⟨status', port⟩, hport, h⟩ := ends_op_bind.mp h
  have h₅ : status' = (s.outcome .createPort 0).status := hport.2
  by_cases hs' : ntSuccess status' = true
  swap
  · simp only [hs', Bool.not_false, if_true] at h
    exact outcome_failed (fun c => hs' (h₅ ▸ c.port)) h rfl
  simp only [hs', Bool.not_true, Bool.false_eq_true, if_false] at h
  obtain ⟨⟨status'', thread⟩, hthread, h⟩ := ends_op_bind.mp h
  have hstatus'' : status'' = (s.outcome .createThread 0).status := hthread.2
  have h₆ : thread.isSome = ntSuccess (s.outcome .createThread 0).status :=
    hstatus'' ▸ (opens_isSome hthread.1).symm
  cases thread with
  | none =>
    simp only [if_true] at h
    have hfailed : ntSuccess status'' = false := opens_isSome hthread.1
    refine outcome_failed (fun c => by simp [c.thread] at h₆) h ?_
    simp only [startedOn, next_log, List.findSome?_cons, startContext, hfailed,
      Bool.false_eq_true, if_false]
    rfl
  | some t =>
    simp only [reduceCtorEq, if_false] at h
    obtain ⟨rfl, rfl⟩ := ends_ret.mp h
    have hstarted : ntSuccess status'' = true := opens_isSome hthread.1
    refine ⟨⟨fun _ => ?_, fun _ => rfl⟩, ?_⟩
    swap
    · simp only [startedOn, next_log, List.findSome?_cons, startContext, hstarted, if_true]
      rfl
    exact ⟨by simpa [hp₁] using h₁.symm, by simpa [hp₂] using h₂.symm, h₃ ▸ hs,
      by simpa [hp₄] using h₄.symm, h₅ ▸ hs', by simpa using h₆.symm⟩

-- ---------------------------------------------------------------------------
-- The calls of a creation
-- ---------------------------------------------------------------------------

def Creating (starts : Op → Prop) : Op → Prop
  | .allocate .. | .rtlZeroMemory (some _) _ | .free .. | .alpcGetHeaderSize _
  | .alpcInitializeMessageAttribute .. | .alpcCreatePort .. | .close _ => True
  | .createThread context => starts (.createThread context)
  | .psCreateSystemThread portName context => starts (.psCreateSystemThread portName context)
  | _ => False

variable {starts : Op → Prop}

theorem uses_allocateZeroHeap {f : PVoid → Proc α} (hf : ∀ p, (f p).Uses (Creating starts)) :
    (allocateZeroHeap api pl layout >>= f).Uses (Creating starts) := by
  rw [allocateZeroHeap_bind]
  refine uses_call.mpr ⟨trivial, fun r => ?_⟩
  cases r.pointer with
  | none => exact hf none
  | some p => exact uses_call.mpr ⟨trivial, fun _ => hf (some p)⟩

theorem uses_free {api : HeapApi} {p : PVoid} : (free api p).Uses (Creating starts) :=
  uses_call.mpr ⟨trivial, fun _ => trivial⟩

theorem uses_close {h : Handle} :
    (ntClose h >>= fun _ => pure ()).Uses (Creating starts) :=
  uses_call.mpr ⟨trivial, fun _ => trivial⟩

theorem uaCleanup_uses : (uaCleanup server).Uses (Creating starts) :=
  uses_bind (uses_unlessNull uses_close) fun _ => uses_bind (uses_unlessNull uses_free) fun _ =>
    uses_bind (uses_unlessNull uses_free) fun _ => uses_bind uses_free fun _ => trivial

theorem kaCleanup_uses : (kaCleanup server).Uses (Creating starts) :=
  uses_bind (uses_unlessNull uses_close) fun _ => uses_bind (uses_unlessNull uses_free) fun _ =>
    uses_bind (uses_unlessNull uses_free) fun _ => uses_bind uses_free fun _ => trivial

theorem uaCreateServer_uses (starts : Op → Prop) (hs : ∀ context, starts (.createThread context)) :
    (uaCreateServer pl portName f g k).Uses (Creating starts) := by
  refine uses_allocateZeroHeap fun block => ?_
  split
  · trivial
  refine uses_call.mpr ⟨trivial, fun size => uses_allocateZeroHeap fun attributes => ?_⟩
  split
  · exact uaCleanup_uses
  refine uses_call.mpr ⟨trivial, fun status => ?_⟩
  simp only [Prog.ret_bind]
  split
  · exact uaCleanup_uses
  refine uses_allocateZeroHeap fun message => ?_
  split
  · exact uaCleanup_uses
  refine uses_call.mpr ⟨trivial, fun created => ?_⟩
  simp only [Prog.ret_bind]
  split
  · exact uaCleanup_uses
  refine uses_call.mpr ⟨hs _, fun thread => ?_⟩
  simp only [Prog.ret_bind]
  split
  · exact uaCleanup_uses
  · trivial

theorem kaCreateServer_uses (starts : Op → Prop)
    (hs : starts (.psCreateSystemThread portName none)) :
    (kaCreateServer pl portName f g k).Uses (Creating starts) := by
  refine uses_allocateZeroHeap fun block => ?_
  split
  · trivial
  refine uses_call.mpr ⟨trivial, fun size => uses_allocateZeroHeap fun attributes => ?_⟩
  split
  · exact kaCleanup_uses
  refine uses_call.mpr ⟨trivial, fun status => ?_⟩
  simp only [Prog.ret_bind]
  split
  · exact kaCleanup_uses
  refine uses_allocateZeroHeap fun message => ?_
  split
  · exact kaCleanup_uses
  refine uses_call.mpr ⟨trivial, fun created => ?_⟩
  simp only [Prog.ret_bind]
  split
  · exact kaCleanup_uses
  refine uses_call.mpr ⟨hs, fun thread => ?_⟩
  simp only [Prog.ret_bind]
  split
  · exact kaCleanup_uses
  · trivial

/-- Whatever a script says about such an operation can happen. -/
theorem exists_response (w : World) {o : Op} (ho : Creating starts o) :
    ∃ r, (system pl s.follows).legal w o r := by
  obtain ⟨block, hblock⟩ := w.state.heap.exists_fresh
  obtain ⟨handle, hhandle⟩ := w.state.handles.exists_fresh
  let out := s.next w.log o
  have hopens : w.state.Opens out.status (if ntSuccess out.status then some handle else none) := by
    unfold Opens
    split
    · exact ⟨handle, rfl, hhandle⟩
    · rfl
  cases o with
  | allocate api layout =>
    refine ⟨⟨if ntSuccess out.status then some ⟨block, 0⟩ else none, .zeroed layout⟩, ?_, ?_⟩
    · refine ⟨by cases layout <;> rfl, by cases layout <;> simp [Object.Bounded, Object.zeroed],
        fun _ => rfl, ?_⟩
      intro p hp
      split at hp
      · cases hp
        exact ⟨rfl, hblock⟩
      · cases hp
    · show Option.isSome _ = ntSuccess out.status
      cases ntSuccess out.status <;> rfl
  | rtlZeroMemory p length =>
    cases p with
    | none => exact ho.elim
    | some p => exact ⟨(), .inr (Option.some_ne_none p), trivial⟩
  | free api p => exact ⟨(), trivial, trivial⟩
  | alpcGetHeaderSize mask => exact ⟨_, trivial, rfl⟩
  | alpcInitializeMessageAttribute mask buffer size => exact ⟨_, trivial, rfl⟩
  | alpcCreatePort portName attributes => exact ⟨(_, _), hopens, rfl⟩
  | close h => exact ⟨_, trivial, rfl⟩
  | createThread | psCreateSystemThread => exact ⟨(_, _), hopens, rfl⟩
  | _ => exact ho.elim

-- ---------------------------------------------------------------------------
-- What tells the services apart
-- ---------------------------------------------------------------------------

theorem kaCreateServer_startsOnNull {A : Assumption} (hlog : w.log = [])
    (h : Ends (system pl A) (kaCreateServer pl portName f g k) w r v)
    (hc : startedOn v.log = some context) : context = none := by
  obtain ⟨new, hnew, hgood⟩ := h.log_grows
    (kaCreateServer_uses (· = .psCreateSystemThread portName none) rfl)
  rw [hlog, List.append_nil] at hnew
  rw [hnew] at hc
  obtain ⟨⟨o, r⟩, he, hcontext⟩ := List.exists_of_findSome?_eq_some hc
  have ho := hgood _ he
  cases o with
  | createThread | ntCreateThreadEx => cases ho
  | psCreateSystemThread =>
    cases ho
    simp only [startContext] at hcontext
    split at hcontext <;> cases hcontext
    rfl
  | _ => cases hcontext

theorem kernelMode_receives_nothing (hlog : w.log = [])
    (h : Performs (system pl s.follows) onlooker
      ((kernelMode pl).serve pl n ((kernelMode pl).create portName f g k)) w t) :
    ∀ a ∈ t, ∀ m, a.op ≠ .alpcSendWaitReceivePort m := by
  let good : Op → Prop := fun o => ∀ m, o ≠ .alpcSendWaitReceivePort m
  have hcreate : (kaCreateServer pl portName f g k).Within (system pl s.follows) good w := by
    refine ((kaCreateServer_uses (fun _ => True) trivial).mono ?_).within
    rintro o ho m rfl
    exact ho.elim
  have hserve : ((kernelMode pl).serve pl n ((kernelMode pl).create portName f g k)).Within
      (system pl s.follows) good w := by
    refine within_bind (within_logged hcreate) fun ⟨r, history⟩ v hv => ?_
    rw [← hlog] at hv
    obtain ⟨hends, rfl⟩ := ends_logged.mp hv
    cases hcontext : startedOn v.log with
    | none => trivial
    | some context =>
      rw [kaCreateServer_startsOnNull hlog hends hcontext]
      exact ⟨nofun, fun _ _ => trivial⟩
  intro a ha m he
  obtain ⟨v, o, ho, hseen⟩ := h.seen hserve a ha
  obtain ⟨op, hop, rfl⟩ := Option.map_eq_some_iff.mp hseen
  cases he
  cases o with
  | alpcSendWaitReceivePort m' => exact ho m' rfl
  | _ => cases hop

theorem userMode_receives (hlog : w.log = []) (hc : Creates s) :
    ∃ t m, Performs (system pl s.follows) onlooker
        ((userMode pl).serve pl 1 ((userMode pl).create portName f g k)) w t ∧
      ⟨.alpcSendWaitReceivePort m, none⟩ ∈ t := by
  have hanswered : (uaCreateServer pl portName f g k).Uses
      fun o => ∀ w, ∃ r, (system pl s.follows).legal w o r :=
    (uaCreateServer_uses (fun _ => True) fun _ => trivial).mono
      fun _ ho w => exists_response w ho
  obtain ⟨r, v, hends⟩ := hanswered.exists_ends w
  obtain ⟨hsome, hstarted⟩ := uaCreateServer_outcome hlog hends
  obtain ⟨server, rfl⟩ := Option.isSome_iff_exists.mp (hsome.mpr hc)
  have hlogged : Ends (system pl s.follows) ((uaCreateServer pl portName f g k).logged []) w
      (some server, v.log) v := by
    rw [← hlog]
    exact ends_logged.mpr ⟨hends, rfl⟩
  let worker := { server with serverThreadHandle := none }
  have hreceive : Performs (system pl s.follows) onlooker
      (match startedOn v.log with
        | some context => (userMode pl).thread pl 1 context
        | none => return none) v
      [⟨.alpcSendWaitReceivePort (uaReceive pl worker), none⟩] := by
    rw [hstarted]
    exact .issue
  obtain ⟨t, ht⟩ := hlogged.performs (f := fun (r : Option ServerObject × List Ev) =>
    match startedOn r.2 with
      | some context => (userMode pl).thread pl 1 context
      | none => return none) hreceive
  exact ⟨_, _, ht, List.mem_append_right _ (List.mem_singleton_self _)⟩

-- ---------------------------------------------------------------------------
-- When the kernel port refines the user one
-- ---------------------------------------------------------------------------

theorem userMode_startsNothing (hlog : w.log = []) (hc : ¬ Creates s)
    (h : Ends (system pl s.follows) (uaCreateServer pl portName f g k) w r v) :
    r = none ∧ startedOn v.log = none := by
  obtain ⟨hsome, hstarted⟩ := uaCreateServer_outcome hlog h
  have hr : r = none := Option.not_isSome_iff_eq_none.mp fun hr => hc (hsome.mp hr)
  exact ⟨hr, by rw [hstarted, hr]; rfl⟩

theorem serve_inStep (hlog : w.log = []) (hc : ¬ Creates s) (n : Nat) :
    InStep pl s (fun _ _ _ _ => True)
      ((userMode pl).serve pl n ((userMode pl).create portName f g k))
      ((kernelMode pl).serve pl n ((kernelMode pl).create portName f g k)) w w := by
  have hcreate : InStep pl s Matching (uaCreateServer pl portName f g k)
      (kaCreateServer pl portName f g k) w w := kaCreateServer_inStep (.refl w) portName f g k
  have hlogged := hcreate.with_ends.logged
  rw [hlog] at hlogged
  refine hlogged.bind ?_
  rintro ⟨r, history⟩ v ⟨r', history'⟩ v' ⟨⟨⟨rfl, hv⟩, hends, hends'⟩, rfl, rfl⟩
  have hnone := (userMode_startsNothing hlog hc hends).2
  have hnone' : startedOn v'.log = none := by
    have hsome := hv.started
    rw [hnone] at hsome
    exact Option.not_isSome_iff_eq_none.mp (by simp [hsome])
  simp only [hnone, hnone']
  trivial

/-- The kernel port refines the user one exactly where neither gets to serve. -/
theorem kernel_refines_iff (P : Process) :
    Refines pl s.follows (kernelMode pl) (userMode pl) portName f g k ⟨P, []⟩ ↔
      ¬ Creates s := by
  have hlog : (⟨P, []⟩ : World).log = [] := rfl
  generalize (⟨P, []⟩ : World) = w at hlog ⊢
  have hstep : InStep pl s Matching (uaCreateServer pl portName f g k)
      (kaCreateServer pl portName f g k) w w := kaCreateServer_inStep (.refl w) portName f g k
  constructor
  · intro h hc
    obtain ⟨t, m, ht, hm⟩ := userMode_receives hlog hc
    obtain ⟨n, hn⟩ := (h.actions t).mpr ⟨1, ht⟩
    exact kernelMode_receives_nothing hlog hn _ hm m rfl
  · intro hc
    have huser : ∀ {r v}, Ends (system pl s.follows) (uaCreateServer pl portName f g k) w r v →
        r = none := fun h => (userMode_startsNothing hlog hc h).1
    refine ⟨fun t => ?_, ⟨?_, ?_⟩, ⟨?_, ?_⟩, ?_⟩
    · exact exists_congr fun n => (serve_inStep hlog hc n).performs.symm
    · rintro ⟨server, v, h⟩
      obtain ⟨r, v', h', hr, -⟩ := hstep.symm.ends h
      rw [huser h'] at hr
      cases hr
    · rintro ⟨server, v, h⟩
      cases huser h
    · rintro ⟨v, h⟩
      obtain ⟨r, v', h', -, -⟩ := hstep.symm.ends h
      rw [huser h'] at h'
      exact ⟨v', h'⟩
    · rintro ⟨v, h⟩
      obtain ⟨r, v', h', hr, -⟩ := hstep.ends h
      cases hr
      exact ⟨v', h'⟩
    · intro server v h
      obtain ⟨r, v', h', hr, -⟩ := hstep.symm.ends h
      rw [huser h'] at hr
      cases hr

/-- Nothing fails, and the worker of `KaCreateServer` receives nothing. -/
theorem kernel_serves_nobody :
    ¬ Refines .x64 Environment.calm.follows (kernelMode .x64) (userMode .x64) "port" 1 2 3
      ⟨.empty, []⟩ := by
  intro h
  obtain ⟨t, m, ht, hm⟩ := userMode_receives (s := Environment.calm.toScript)
    (w := ⟨.empty, []⟩) rfl ⟨rfl, rfl, rfl, rfl, rfl, rfl⟩
  obtain ⟨n, hn⟩ := (h.actions t).mpr ⟨1, ht⟩
  exact kernelMode_receives_nothing rfl hn _ hm m rfl

end AlpcResearch.Ka
