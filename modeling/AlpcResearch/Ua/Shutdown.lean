import AlpcResearch.Ua.Capacity
import AlpcResearch.Ua.Service

/-!
# Shutting a server down

`UaTerminateServer` closes the connection port handle and only then waits for
the worker. It runs next to the worker and to other threads of the process,
which may get the closed handle value for a handle of their own. A close that
finds the worker blocked in its receive, or gone, ends all use of the handle
(`shutdown_discipline`); one that finds it in a callback does not.
-/

namespace AlpcResearch.Ua

open Resource Program Process

variable {pl : Platform} {server : ServerObject}

-- ---------------------------------------------------------------------------
-- The component
-- ---------------------------------------------------------------------------

inductive Party
  | worker
  | terminator
  | other (n : Nat)
  deriving DecidableEq

/-- A round of the worker, the termination, or anything else. -/
inductive Errand
  | serve
  | terminate
  | run (p : Proc (Control NtStatus))

def Errand.code (pl : Platform) (server : ServerObject) : Errand → Proc (Control NtStatus)
  | .serve => uaServerWorker pl server
  | .terminate => do
    uaTerminateServer server
    return .leave statusSuccess
  | .run p => p

/-- The worker goes from round to round until it leaves its loop,
`UaTerminateServer` is called once, the others do as they like. -/
def mayStart : Party → Control NtStatus → Errand → Bool
  | .worker, .again, .serve => true
  | .terminator, .again, .terminate => true
  | .other _, _, _ => true
  | _, _, _ => false

def closedIn : CrowdEvent Party → Option Handle
  | ⟨(_, .await (.close h)), status⟩ => if ntSuccess status then some h else none
  | _ => none

def ClosedMeanwhile (log : List (CrowdEvent Party)) (i : Party) (h : Handle) : Prop :=
  ∃ e ∈ log.takeWhile (fun e => e.op.1 ≠ i), closedIn e = some h

/-- A receive in progress fails when its port is closed. -/
def closingWakes (w : Crowd Party) :
    (o : Party × Phase Op) → Phase.Ret Ret Unit o.2 → Prop
  | (i, .await (.alpcSendWaitReceivePort a)), r =>
    a.bufferLength.isSome → ClosedMeanwhile w.log i a.portHandle → ntSuccess r.status = false
  | _, _ => True

abbrev Workplace := Pool Party Errand (Phase Op) (Phase.Ret Ret Unit) Process (Control NtStatus)

def workplace (pl : Platform) (server : ServerObject) :
    Component Party Errand (Phase Op) (Phase.Ret Ret Unit) Process (Control NtStatus) where
  system := (crowd Party pl).under closingWakes
  code _ e := (e.code pl server).phased Unit
  starts w i last e w' := w' = w ∧ mayStart i last.2 e = true

/-- The worker is about to begin a round and `UaTerminateServer` has not been
called; the other threads are anywhere. -/
structure AtWork (P : Workplace) : Prop where
  history : P.world.log = []
  worker : (P.threads .worker).2 = .ret .again
  terminator : (P.threads .terminator).2 = .ret .again

-- ---------------------------------------------------------------------------
-- The discipline
-- ---------------------------------------------------------------------------

def handleOf : Op → Option Handle
  | .alpcSendWaitReceivePort a => some a.portHandle
  | .alpcCancelMessage h _ => some h
  | .alpcAcceptConnectPort a => some a.connectionPortHandle
  | .close h => some h
  | .waitForSingleObject h => some h
  | _ => none

def Terminated (server : ServerObject) (log : List (CrowdEvent Party)) : Prop :=
  ∃ e ∈ log, e.op.1 = .terminator ∧ closedIn e = some server.connectionPortHandle

def failedReceive : CrowdEvent Party → Bool
  | ⟨(_, .await (.alpcSendWaitReceivePort a)), r⟩ => a.bufferLength.isSome && !ntSuccess r.status
  | _ => false

/-- Once `UaTerminateServer` has closed `ConnectionPortHandle`, the worker
issues no call on it, and one in progress is a receive that fails. -/
def HandleDiscipline (server : ServerObject) (log : List (CrowdEvent Party)) : Prop :=
  ∀ recent past, log = recent ++ past → Terminated server past →
    ∀ e ∈ recent, e.op.1 = .worker → handleOf (opOf e.op.2) = some server.connectionPortHandle →
      failedReceive e = true

/-- The worker is blocked in its receive, or has left its loop. -/
def receptive (pl : Platform) (server : ServerObject) :
    Prog (Phase Op) (Phase.Ret Ret Unit) (Control NtStatus) → Bool
  | .call (.await (.alpcSendWaitReceivePort a)) _ => a = uaReceive pl server
  | .ret (.leave _) => true
  | _ => false

def closesInTime (pl : Platform) (server : ServerObject) (P : Workplace) (i : Party) :
    (o : Phase Op) → Phase.Ret Ret Unit o → Prop
  | .await (.close h), status => i = .terminator → h = server.connectionPortHandle →
    ntSuccess status = true → receptive pl server (P.threads .worker).2 = true
  | _, _ => True

-- ---------------------------------------------------------------------------
-- The worker's code
-- ---------------------------------------------------------------------------

def LeavesOnFailure (pl : Platform) (server : ServerObject) : (o : Phase Op) →
    (Phase.Ret Ret Unit o → Prog (Phase Op) (Phase.Ret Ret Unit) (Control NtStatus)) → Prop
  | .await (.alpcSendWaitReceivePort a), k =>
    a = uaReceive pl server → ∀ r, ntSuccess r.status = false → k r = .ret (.leave statusSuccess)
  | _, _ => True

theorem leavesOnFailure_plain {o : Phase Op} (ho : Plain (opOf o))
    (k : Phase.Ret Ret Unit o → Prog (Phase Op) (Phase.Ret Ret Unit) (Control NtStatus)) :
    LeavesOnFailure pl server o k := by
  cases o with
  | issue o => trivial
  | await o =>
    cases o with
    | alpcSendWaitReceivePort a =>
      rintro rfl
      exact Bool.noConfusion ho.waits
    | _ => trivial

theorem uaServerWorker_along :
    ((uaServerWorker pl server).phased Unit).Along (LeavesOnFailure pl server) := by
  refine ⟨trivial, fun _ => ⟨fun _ r hr => ?_, fun r => ?_⟩⟩
  · simp [hr]
  simp only [Prog.ret_bind]
  split
  · trivial
  rw [phased_bind]
  refine along_bind (uses_phased uaProcessMessage_plain)
    (fun o k ho => leavesOnFailure_plain ho k) fun status => ?_
  split
  · trivial
  · trivial

-- ---------------------------------------------------------------------------
-- What every step keeps
-- ---------------------------------------------------------------------------

def Retired (pl : Platform) (server : ServerObject) (P : Workplace) : Prop :=
  receptive pl server (P.threads .worker).2 = true ∧
    ((∃ c, (P.threads .worker).2 = .ret c) ∨
      ClosedMeanwhile P.world.log .worker server.connectionPortHandle)

structure ShutdownInv (pl : Platform) (server : ServerObject) (P : Workplace) : Prop where
  code : (P.threads .worker).2.Along (LeavesOnFailure pl server)
  discipline : HandleDiscipline server P.world.log
  retired : Terminated server P.world.log → Retired pl server P

variable {log : List (CrowdEvent Party)} {e : CrowdEvent Party}

theorem HandleDiscipline.cons (h : HandleDiscipline server log)
    (he : Terminated server log → e.op.1 = .worker →
      handleOf (opOf e.op.2) = some server.connectionPortHandle → failedReceive e = true) :
    HandleDiscipline server (e :: log) := by
  intro recent past hlog hclosed f hf hworker hhandle
  cases recent with
  | nil => cases hf
  | cons g recent =>
    obtain ⟨rfl, rfl⟩ := List.cons_eq_cons.mp hlog
    rcases List.mem_cons.mp hf with rfl | hf
    · obtain ⟨c, hc, hcloses⟩ := hclosed
      exact he ⟨c, List.mem_append_right _ hc, hcloses⟩ hworker hhandle
    · exact h recent past rfl hclosed f hf hworker hhandle

theorem terminated_cons (h : Terminated server (e :: log)) :
    e.op.1 = .terminator ∧ closedIn e = some server.connectionPortHandle ∨
      Terminated server log := by
  obtain ⟨c, hc, hcloses⟩ := h
  rcases List.mem_cons.mp hc with rfl | hc
  · exact .inl hcloses
  · exact .inr ⟨c, hc, hcloses⟩

theorem closedMeanwhile_cons (hi : e.op.1 ≠ i) :
    ClosedMeanwhile (e :: log) i h ↔ closedIn e = some h ∨ ClosedMeanwhile log i h := by
  simp [ClosedMeanwhile, hi]

theorem ShutdownInv.act_other {P P' : Workplace} (h : ShutdownInv pl server P)
    (hworker : P'.threads .worker = P.threads .worker) (hlog : P'.world.log = e :: P.world.log)
    (hi : e.op.1 ≠ .worker)
    (hok : e.op.1 = .terminator → closedIn e = some server.connectionPortHandle →
      receptive pl server (P.threads .worker).2 = true) : ShutdownInv pl server P' where
  code := hworker ▸ h.code
  discipline := by
    rw [hlog]
    exact h.discipline.cons fun _ he => absurd he hi
  retired hclosed := by
    rw [Retired, hworker, hlog]
    rcases terminated_cons (hlog ▸ hclosed) with ⟨ht, hc⟩ | hclosed
    · exact ⟨hok ht hc, .inr ((closedMeanwhile_cons hi).mpr (.inl hc))⟩
    · obtain ⟨hreceptive, hc⟩ := h.retired hclosed
      exact ⟨hreceptive, hc.imp_right fun hc => (closedMeanwhile_cons hi).mpr (.inr hc)⟩

theorem ShutdownInv.act_worker {P P' : Workplace} {o : Phase Op} {r : Phase.Ret Ret Unit o}
    {k : Phase.Ret Ret Unit o → Prog (Phase Op) (Phase.Ret Ret Unit) (Control NtStatus)}
    (h : ShutdownInv pl server P) (hp : (P.threads .worker).2 = .call o k)
    (hp' : (P'.threads .worker).2 = k r) (hlog : P'.world.log = ⟨(.worker, o), r⟩ :: P.world.log)
    (hr : closingWakes P.world (.worker, o) r) : ShutdownInv pl server P' := by
  have hcode := h.code
  rw [hp] at hcode
  by_cases hclosed : Terminated server P.world.log
  · obtain ⟨hreceptive, hc⟩ := h.retired hclosed
    rw [hp] at hreceptive hc
    -- only the receive that was in progress is left
    cases o with
    | issue o => cases hreceptive
    | await o =>
      cases o with
      | alpcSendWaitReceivePort a =>
        cases of_decide_eq_true hreceptive
        obtain ⟨c, hret⟩ | hc := hc
        · cases hret
        have hfail : ntSuccess r.status = false := hr rfl hc
        have hleft : k r = .ret (.leave statusSuccess) := hcode.1 rfl r hfail
        rw [hleft] at hp'
        refine ⟨by rw [hp']; trivial, ?_, fun _ => ?_⟩
        · rw [hlog]
          exact h.discipline.cons fun _ _ _ => by simp [failedReceive, uaReceive, hfail]
        · rw [Retired, hp']
          exact ⟨rfl, .inl ⟨_, rfl⟩⟩
      | _ => cases hreceptive
  · have hopen : ¬ Terminated server P'.world.log := by
      rw [hlog]
      intro hclosed'
      rcases terminated_cons hclosed' with ⟨ht, -⟩ | hclosed'
      · cases ht
      · exact hclosed hclosed'
    refine ⟨hp' ▸ hcode.2 r, ?_, fun hclosed' => absurd hclosed' hopen⟩
    rw [hlog]
    exact h.discipline.cons fun hclosed' => absurd hclosed' hclosed

theorem ShutdownInv.start {P : Workplace} {i : Party} {errand : Errand}
    (h : ShutdownInv pl server P) (ht : P.threads i = (last, .ret c))
    (he : mayStart i c errand = true) :
    ShutdownInv pl server
      ⟨P.world, Function.update P.threads i (errand, (errand.code pl server).phased Unit)⟩ := by
  by_cases hi : i = .worker
  · subst hi
    cases c with
    | leave s => cases he
    | again =>
      cases errand with
      | serve =>
        refine ⟨?_, h.discipline, fun hclosed => ?_⟩
        · simp only [Function.update_self]
          exact uaServerWorker_along
        · -- a worker that goes on has not met the close
          have hreceptive := (h.retired hclosed).1
          rw [ht] at hreceptive
          cases hreceptive
      | terminate | run => cases he
  · have hworker : Function.update P.threads i (errand, (errand.code pl server).phased Unit)
        .worker = P.threads .worker := Function.update_of_ne (Ne.symm hi) _ _
    refine ⟨?_, h.discipline, fun hclosed => ?_⟩
    · simp only [hworker]
      exact h.code
    · simp only [Retired, hworker]
      exact h.retired hclosed

variable {P₀ P P' : Workplace}

theorem ShutdownInv.step (h : ShutdownInv pl server P)
    (hs : (workplace pl server).Step (closesInTime pl server) P P') : ShutdownInv pl server P' := by
  cases hs with
  | start i ht hstart =>
    obtain ⟨rfl, he⟩ := hstart
    exact h.start ht he
  | @act c _ i o k r ht hl hok =>
    by_cases hi : i = .worker
    · subst hi
      exact h.act_worker (by rw [ht]) (by simp only [Function.update_self]) rfl hl.2
    · refine h.act_other (e := ⟨(i, o), r⟩) (Function.update_of_ne (Ne.symm hi) _ _) rfl hi
        fun hterm hc => ?_
      cases o with
      | issue o => cases hc
      | await o =>
        cases o with
        | close handle =>
          simp only [closedIn, Option.ite_none_right_eq_some, Option.some.injEq] at hc
          exact hok hterm hc.2 hc.1
        | _ => cases hc

/-- Whatever the interleaving, if every close finds the worker receptive, the
worker does not use the handle afterwards. -/
theorem shutdown_discipline (h₀ : AtWork P₀)
    (h : (workplace pl server).Reaches (closesInTime pl server) P₀ P) :
    HandleDiscipline server P.world.log := by
  have hstart : ShutdownInv pl server P₀ := by
    refine ⟨by rw [h₀.worker]; trivial, ?_, ?_⟩
    · intro recent past hlog ⟨c, hc, _⟩
      rw [h₀.history] at hlog
      obtain ⟨-, rfl⟩ := List.append_eq_nil_iff.mp hlog.symm
      cases hc
    · rintro ⟨c, hc, -⟩
      rw [h₀.history] at hc
      cases hc
  exact (h.keeps hstart fun _ _ hP hs => hP.step hs).discipline

-- ---------------------------------------------------------------------------
-- Runs
-- ---------------------------------------------------------------------------

instance (log : List (CrowdEvent Party)) (i : Party) (h : Handle) :
    Decidable (ClosedMeanwhile log i h) := inferInstanceAs (Decidable (∃ e ∈ _, _))

instance (server : ServerObject) (log : List (CrowdEvent Party)) :
    Decidable (Terminated server log) := inferInstanceAs (Decidable (∃ e ∈ _, _))

def wakes (w : Crowd Party) (i : Party) : (o : Op) → Ret o → Bool
  | .alpcSendWaitReceivePort a, r =>
    !decide (ClosedMeanwhile w.log i a.portHandle) || !ntSuccess r.status
  | _, _ => true

/-- Threads under the environment `E`; the programs of the others are their
own. `inTime` lets `UaTerminateServer` go on only when the worker is
receptive. -/
def foreman (E : Environment) (pl : Platform) (server : ServerObject) (inTime : Bool) :
    Director Party Errand (Phase Op) (Phase.Ret Ret Unit) Process (Control NtStatus) where
  begins w i last e := if mayStart i last.2 e then some w else none
  answer P i o := match o with
    | .issue _ => some ()
    | .await o =>
      let w : World := ⟨P.world.state, responses P.world.log⟩
      if E.canAnswer pl w o && wakes P.world i o (E.answer w o) &&
          (!inTime || i ≠ .terminator || receptive pl server (P.threads .worker).2) then
        some (E.answer w o)
      else none

theorem foreman_sound {E : Environment} {inTime : Bool} :
    (foreman E pl server inTime).Sound (workplace pl server) fun P i o r =>
      inTime = true → closesInTime pl server P i o r where
  begins := by
    intro w i last e w' h
    simp only [foreman, Option.ite_none_right_eq_some, Option.some.injEq] at h
    exact ⟨h.2.symm, h.1⟩
  answer := by
    intro P i o r h
    cases o with
    | issue o => exact ⟨⟨trivial, trivial⟩, fun _ => trivial⟩
    | await o =>
      simp only [foreman, Option.ite_none_right_eq_some, Option.some.injEq,
        Bool.and_eq_true] at h
      obtain ⟨⟨⟨hcan, hwakes⟩, htime⟩, rfl⟩ := h
      refine ⟨⟨Environment.answer_legal hcan, ?_⟩, fun hin => ?_⟩
      · cases o with
        | alpcSendWaitReceivePort a =>
          intro _ hclosed
          simpa [wakes, hclosed] using hwakes
        | _ => trivial
      · cases o with
        | close h =>
          intro hi _ _
          simpa [hin, hi] using htime
        | _ => trivial

/-- A server that `UaCreateServer` made in an empty process; the messages are
received in turn, and then a receive fails. -/
def shutDown (messages : List Outcome) (inTime : Bool) (turns : List (Turn Party Errand)) :
    Option (ServerObject × Workplace × Workplace) :=
  match serve anyKernel messages 0 with
  | some (server, w₀, _) =>
    let P₀ : Workplace := ⟨⟨w₀.state, []⟩, fun _ => (.serve, .ret .again)⟩
    ((workplace .x64 server).play (foreman (.visitedBy messages) .x64 server inTime) turns P₀).map
      fun P => (server, P₀, P)
  | none => none

theorem shutDown_reaches (h : shutDown messages inTime turns = some (server, P₀, P)) :
    AtWork P₀ ∧ (workplace .x64 server).Reaches (fun P i o r =>
      inTime = true → closesInTime .x64 server P i o r) P₀ P := by
  unfold shutDown at h
  split at h
  · obtain ⟨P', hP', he⟩ := Option.map_eq_some_iff.mp h
    cases he
    exact ⟨⟨rfl, rfl, rfl⟩, play_reaches foreman_sound hP'⟩
  · cases h

/-- The worker waits, the handle is closed, the receive fails. -/
theorem shutdown_discipline_waiting : ∃ server P₀ P,
    AtWork P₀ ∧ (workplace .x64 server).Reaches (closesInTime .x64 server) P₀ P ∧
      Terminated server P.world.log ∧ (∃ e ∈ P.world.log, failedReceive e = true) ∧
      HandleDiscipline server P.world.log := by
  have hrun : (shutDown [] true [.start .worker .serve, .act .worker,
      .start .terminator .terminate, .act .terminator, .act .terminator, .act .worker]).any
        (fun r => Terminated r.1 r.2.2.world.log && r.2.2.world.log.any failedReceive) := by
    decide +kernel
  obtain ⟨⟨server, P₀, P⟩, h, hlog⟩ := (Option.any_eq_true _ _).mp hrun
  simp only [Bool.and_eq_true, decide_eq_true_eq, List.any_eq_true] at hlog
  obtain ⟨h₀, hreach⟩ := shutDown_reaches h
  have hreach := hreach.imp fun _ _ _ _ hok => hok rfl
  exact ⟨server, P₀, P, h₀, hreach, hlog.1, hlog.2, shutdown_discipline h₀ hreach⟩

def denotedNow (P : Process) (h : Handle) : Option KernelObject :=
  h.bind fun r => (P.handles.slots r.name).map (·.2)

/-- The worker is in `OnRequest` when its handle is closed; another thread
connects to some port and gets the handle value; the worker replies on it. -/
theorem shutdown_replies_elsewhere : ∃ server P₀ P,
    AtWork P₀ ∧ (workplace .x64 server).Reaches anyStep P₀ P ∧
      ¬ HandleDiscipline server P.world.log ∧
      denotedNow P.world.state server.connectionPortHandle = some .communicationPort := by
  let connect : Proc (Control NtStatus) := do
    let _ ← uaConnectServer .x64 "another" none 0
    return .again
  let turns : List (Turn Party Errand) :=
    List.flatten [
      Turn.calling .worker .serve 5, Turn.calling .terminator .terminate 2,
      Turn.calling (.other 0) (.run connect) 12, Turn.acting .worker 2]
  -- the reply is the newest event, and the close came before the 14 newest
  have hrun : (shutDown [messageOf lpcRequest none] false turns).any (fun r =>
      Terminated r.1 (r.2.2.world.log.drop 14) &&
        (r.2.2.world.log.take 14).any (fun e => e.op.1 = .worker &&
          handleOf (opOf e.op.2) = some r.1.connectionPortHandle && !failedReceive e) &&
        denotedNow r.2.2.world.state r.1.connectionPortHandle = some .communicationPort) := by
    decide +kernel
  obtain ⟨⟨server, P₀, P⟩, h, hbad⟩ := (Option.any_eq_true _ _).mp hrun
  simp only [Bool.and_eq_true, decide_eq_true_eq, List.any_eq_true] at hbad
  obtain ⟨⟨hclosed, e, he, ⟨hworker, hhandle⟩, hfail⟩, hdenotes⟩ := hbad
  obtain ⟨h₀, hreach⟩ := shutDown_reaches h
  refine ⟨server, P₀, P, h₀, hreach.imp fun _ _ _ _ _ => trivial, fun law => ?_, hdenotes⟩
  have hreceive := law _ _ (List.take_append_drop 14 _).symm hclosed e he hworker hhandle
  simp [hreceive] at hfail

end AlpcResearch.Ua
