import AlpcResearch.Advanced
import AlpcResearch.Ka.Alike
import AlpcResearch.Program.Stutter

/-!
# One library read as another

`renamed` turns a history of `ua.c`, or of the client's side of `ka.c`, into
the one `AdvancedLocalProcedureCall.c` leaves behind in its place: other
functions allocate, free and create threads, new blocks are not zeroed by hand,
and the port flags are not set. A kernel assumed by the latter is `reading` assumed by the
former. Under the two, code that differs by the renaming stays `Behind` the
code it became, whatever is assumed.
-/

namespace AlpcResearch.Advanced

open Resource Program Process
open Ka (onlooker observed unflagged)

-- ---------------------------------------------------------------------------
-- Renaming histories
-- ---------------------------------------------------------------------------

def renameEvent : Ev → Option Ev
  | ⟨.allocate _ layout, r⟩ => some ⟨.allocate .processHeap layout, ⟨r.pointer, .zeroed layout⟩⟩
  | ⟨.free _ p, _⟩ => some ⟨.free .processHeap p, ()⟩
  | ⟨.rtlZeroMemory .., _⟩ => none
  | ⟨.alpcConnectPort a, r⟩ =>
    some ⟨.alpcConnectPort { a with portAttributes := unflagged a.portAttributes }, r⟩
  | ⟨.createThread (some server), r⟩ => some ⟨.ntCreateThreadEx (.server server), r⟩
  | e => some e

def renamed (w : World) : World := ⟨w.state, w.log.filterMap renameEvent⟩

@[simp] theorem renamed_state (w : World) : (renamed w).state = w.state := rfl

/-- What is assumed of the kernel, before the renaming. -/
def reading (A : Assumption) : Assumption := fun w o r =>
  ∀ e, renameEvent ⟨o, r⟩ = some e → A (renamed w) e.op e.response

/-- Operations the renaming leaves as they are. -/
def Shared : Op → Prop
  | .allocate .. | .free .. | .rtlZeroMemory .. | .alpcConnectPort _ | .createThread _ => False
  | _ => True

theorem renameEvent_shared {o : Op} (ho : Shared o) (r : Ret o) :
    renameEvent ⟨o, r⟩ = some ⟨o, r⟩ := by
  cases o with
  | allocate | free | rtlZeroMemory | alpcConnectPort | createThread => exact ho.elim
  | _ => rfl

variable {pl : Platform} {A : Assumption} {w : World}

theorem reading_of_some {o : Op} {r : Ret o} {e : Ev} (he : renameEvent ⟨o, r⟩ = some e) :
    reading A w o r ↔ A (renamed w) e.op e.response := by
  refine ⟨fun h => h e he, fun h e' he' => ?_⟩
  cases he.symm.trans he'
  exact h

theorem of_reading {o : Op} {r : Ret o} (h : reading A w o r) (ho : Shared o) :
    A (renamed w) o r :=
  (reading_of_some (renameEvent_shared ho r)).mp h

/-- An operation with a renamed one that has the same effect. -/
theorem renamed_next {o o' : Op} {r : Ret o} {r' : Ret o'}
    (he : renameEvent ⟨o, r⟩ = some ⟨o', r'⟩)
    (hstate : w.state.effect pl o' r' = w.state.effect pl o r) :
    renamed ((system pl (reading A)).next w o r) = (system pl A).next (renamed w) o' r' := by
  have hlog : ((⟨o, r⟩ : Ev) :: w.log).filterMap renameEvent =
      ⟨o', r'⟩ :: w.log.filterMap renameEvent := List.filterMap_cons_some he
  show World.mk _ _ = World.mk _ _
  exact congrArg₂ World.mk hstate.symm hlog

-- ---------------------------------------------------------------------------
-- Behind
-- ---------------------------------------------------------------------------

/-- Code of `ua.c` or `ka.c` and the code it became. -/
abbrev Behind (pl : Platform) (A : Assumption) (R : α → β → Prop) (p : Proc α) (p' : Proc β)
    (w : World) : Prop :=
  Stutters (system pl (reading A)) (system pl A) onlooker (fun v v' => v' = renamed v) R p p' w
    (renamed w)

variable {R : α → β → Prop}

theorem behind_ret {a : α} {b : β} (h : R a b) : Behind pl A R (.ret a) (.ret b) w :=
  stutters_ret rfl h

theorem Behind.bind {T : γ → δ → Prop} {p : Proc α} {p' : Proc β} {f : α → Proc γ}
    {f' : β → Proc δ} (h : Behind pl A R p p' w)
    (hf : ∀ a b v, R a b → Behind pl A T (f a) (f' b) v) :
    Behind pl A T (p >>= f) (p' >>= f') w :=
  Stutters.bind h fun a b v _ hR hv => hv ▸ hf a b v hR

theorem behind_call {o o' : Op} {k : Ret o → Proc α} {k' : Ret o' → Proc β}
    (hV : onlooker w o = onlooker (renamed w) o') (f : Ret o → Ret o') (hf : f.Surjective)
    (he : ∀ r, renameEvent ⟨o, r⟩ = some ⟨o', f r⟩)
    (hlegal : ∀ r, w.state.Legal pl o r ↔ w.state.Legal pl o' (f r))
    (hstate : ∀ r, w.state.effect pl o' (f r) = w.state.effect pl o r)
    (hk : ∀ r v, w.state.Legal pl o r → Behind pl A R (k r) (k' (f r)) v) :
    Behind pl A R (.call o k) (.call o' k') w := by
  have hA : ∀ r, (system pl (reading A)).legal w o r ↔ (system pl A).legal (renamed w) o' (f r) :=
    fun r => and_congr (hlegal r) (reading_of_some (he r))
  refine stutters_call rfl hV (fun r hr => ⟨f r, (hA r).mp hr, ?_⟩) fun r' hr' => ?_
  · exact renamed_next (he r) (hstate r) ▸ hk r _ hr.1
  · obtain ⟨r, rfl⟩ := hf r'
    have hr := (hA r).mpr hr'
    exact ⟨r, hr, renamed_next (he r) (hstate r) ▸ hk r _ hr.1⟩

theorem behind_shared {o : Op} {k : Ret o → Proc α} {k' : Ret o → Proc β} (ho : Shared o)
    (hk : ∀ r v, Behind pl A R (k r) (k' r) v) : Behind pl A R (.call o k) (.call o k') w :=
  behind_call rfl id Function.surjective_id (renameEvent_shared ho) (fun _ => Iff.rfl)
    (fun _ => rfl) fun r v _ => hk r v

theorem behind_free {api : HeapApi} {p : PVoid} {k : Unit → Proc α} {k' : Unit → Proc β}
    (hk : ∀ v, Behind pl A R (k ()) (k' ()) v) :
    Behind pl A R (.call (.free api p) k) (.call (.free .processHeap p) k') w := by
  refine behind_call rfl id Function.surjective_id (fun _ => rfl) (fun _ => Iff.rfl) (fun _ => ?_)
    fun _ v _ => hk v
  cases p with
  | none | some => rfl

theorem behind_connect {a : ConnectPort} {k k' : ConnectReply → Proc α}
    {R : α → α → Prop} (hk : ∀ r v, Behind pl A R (k r) (k' r) v) :
    Behind pl A R (.call (.alpcConnectPort a) k)
      (.call (.alpcConnectPort { a with portAttributes := unflagged a.portAttributes }) k') w :=
  behind_call rfl id Function.surjective_id (fun _ => rfl) (fun _ => Iff.rfl) (fun _ => rfl)
    fun r v _ => hk r v

/-- There is a handle where the status is one of success. -/
theorem behind_createThread {server : ServerObject} {k k' : NtStatus × Handle → Proc α}
    {R : α → α → Prop}
    (hk : ∀ r v, ntSuccess r.1 = r.2.isSome → Behind pl A R (k r) (k' r) v) :
    Behind pl A R (.call (.createThread (some server)) k)
      (.call (.ntCreateThreadEx (.server server)) k') w :=
  behind_call rfl id Function.surjective_id (fun _ => rfl) (fun _ => Iff.rfl) (fun _ => rfl)
    fun r v hr => hk r v (opens_isSome hr)

theorem allocateZeroHeap_elim (f : PVoid → Proc α) :
    (allocateZeroHeap api pl layout >>= f) =
      .call (.allocate api layout) fun r => r.pointer.elim (f none) fun p =>
        .call (.rtlZeroMemory (some p) (layout.size pl)) fun _ => f (some p) := by
  rw [allocateZeroHeap_bind]
  refine congrArg _ (funext fun r => ?_)
  cases r.pointer <;> rfl

/-- Wherever the block comes from, it is zeroed when the allocator returns it. -/
theorem behind_allocate {api : HeapApi} {layout : Layout} {f : PVoid → Proc α}
    {f' : PVoid → Proc β} (hf : ∀ p v, Behind pl A R (f p) (f' p) v) :
    Behind pl A R (allocateZeroHeap api pl layout >>= f) (rtAllocateZeroHeap layout >>= f') w := by
  have hbehind : ∀ r r' : Allocation, r'.pointer = r.pointer → r'.residue = .zeroed layout →
      w.state.Legal pl (.allocate api layout) r →
      Stutters (system pl (reading A)) (system pl A) onlooker (fun v v' => v' = renamed v) R
        (r.pointer.elim (f none) fun p =>
          .call (.rtlZeroMemory (some p) (layout.size pl)) fun _ => f (some p))
        (f' r'.pointer) ((system pl (reading A)).next w (.allocate api layout) r)
        ((system pl A).next (renamed w) (.allocate .processHeap layout) r') := by
    intro r r' hp hresidue hr
    obtain ⟨pointer, _⟩ := r'
    obtain rfl : pointer = r.pointer := hp
    subst hresidue
    have he : renameEvent ⟨.allocate api layout, r⟩ =
      some ⟨.allocate .processHeap layout, ⟨r.pointer, .zeroed layout⟩⟩ := rfl
    cases hp : r.pointer with
    | none =>
      have hstate : w.state.effect pl (.allocate .processHeap layout) ⟨none, .zeroed layout⟩ =
          w.state.effect pl (.allocate api layout) r := by
        simp only [effect, heapAfter, hp]
        rfl
      rw [hp] at he
      exact renamed_next he hstate ▸ hf none _
    | some p =>
      refine stutters_silent rfl ⟨(), .inr (Option.some_ne_none p), by rintro _ ⟨⟩⟩ fun _ _ => ?_
      have hstate : w.state.effect pl (.allocate .processHeap layout) ⟨some p, .zeroed layout⟩ =
          (w.state.effect pl (.allocate api layout) r).effect pl
            (.rtlZeroMemory (some p) (layout.size pl)) () := by
        rw [effect_allocate_zero hr hp]
        exact effect_heap (by simp only [heapAfter]) rfl rfl
      have hnext : renamed ((system pl (reading A)).next
          ((system pl (reading A)).next w (.allocate api layout) r)
            (.rtlZeroMemory (some p) (layout.size pl)) ()) =
          (system pl A).next (renamed w) (.allocate .processHeap layout) ⟨some p, .zeroed layout⟩ := by
        rw [hp] at he
        have hlog : (⟨.rtlZeroMemory (some p) (layout.size pl), ()⟩ ::
            (⟨.allocate api layout, r⟩ : Ev) :: w.log).filterMap renameEvent = _ :=
          (List.filterMap_cons_none rfl).trans (List.filterMap_cons_some he)
        exact congrArg₂ World.mk hstate.symm hlog
      exact hnext ▸ hf (some p) _
  rw [allocateZeroHeap_elim]
  refine stutters_call rfl rfl (fun r hr => ?_) fun r' hr' => ?_
  · have hr' : w.state.Legal pl (.allocate .processHeap layout) ⟨r.pointer, .zeroed layout⟩ :=
      ⟨by cases layout <;> rfl, by cases layout <;> simp [Object.Bounded, Object.zeroed],
        fun _ => rfl, hr.1.2.2.2⟩
    exact ⟨_, ⟨hr', hr.2 _ rfl⟩, hbehind r _ rfl rfl hr.1⟩
  · obtain ⟨pointer, residue⟩ := r'
    have hzeroed : residue = .zeroed layout := hr'.1.2.2.1 (by decide)
    have hr : w.state.Legal pl (.allocate api layout) ⟨pointer, residue⟩ :=
      ⟨hr'.1.1, hr'.1.2.1, fun _ => hzeroed, hr'.1.2.2.2⟩
    refine ⟨⟨pointer, residue⟩, ⟨hr, ?_⟩, hbehind _ _ rfl hzeroed hr⟩
    rintro e ⟨⟩
    exact hzeroed ▸ hr'.2

-- ---------------------------------------------------------------------------
-- What survives the renaming
-- ---------------------------------------------------------------------------

/-- What can be read off renamed events can be read off a renamed history. -/
theorem filterMap_renamed {F : Ev → Option β} (hF : ∀ e, (renameEvent e).bind F = F e)
    (log : List Ev) : (log.filterMap renameEvent).filterMap F = log.filterMap F := by
  rw [List.filterMap_filterMap]
  exact congrArg (log.filterMap ·) (funext hF)

theorem startedOn_renamed (w : World) : Ka.startedOn (renamed w).log = Ka.startedOn w.log := by
  have hF : ∀ e, (renameEvent e).bind Ka.startContext = Ka.startContext e := by
    rintro ⟨o, r⟩
    cases o with
    | createThread argument => cases argument <;> rfl
    | _ => rfl
  simp only [Ka.startedOn, ← List.head?_filterMap, renamed, filterMap_renamed hF]

theorem seen_renamed (log : List Ev) : Script.seen (log.filterMap renameEvent) = Script.seen log := by
  refine filterMap_renamed ?_ log
  rintro ⟨o, r⟩
  cases o with
  | createThread argument => cases argument <;> rfl
  | _ => rfl

theorem contexts_renamed (log : List Ev) :
    Script.contexts (log.filterMap renameEvent) = Script.contexts log := by
  unfold Script.contexts
  rw [← List.filterMap_reverse]
  refine filterMap_renamed ?_ log.reverse
  rintro ⟨o, r⟩
  cases o with
  | createThread argument => cases argument <;> rfl
  | _ => rfl

/-- No call that a script counts is lost or renamed to another kind. -/
theorem counts_renamed (hk : k ≠ .other) (log : List Ev) :
    ((log.filterMap renameEvent).countP fun e => kindOfOp e.op = k) =
      log.countP fun e => kindOfOp e.op = k := by
  let counted : Ev → Option Unit := fun e => if kindOfOp e.op = k then some () else none
  have hF : ∀ e, (renameEvent e).bind counted = counted e := by
    rintro ⟨o, r⟩
    cases o with
    | rtlZeroMemory p length => exact (if_neg hk.symm).symm
    | createThread argument => cases argument <;> rfl
    | _ => rfl
  have hcount : ∀ l : List Ev, (l.countP fun e => kindOfOp e.op = k) =
      (l.filterMap counted).length := by
    intro l
    rw [List.length_filterMap_eq_countP]
    refine List.countP_congr fun e _ => ?_
    by_cases he : kindOfOp e.op = k <;> simp [counted, he]
  rw [hcount, hcount, filterMap_renamed hF]

theorem follows_renamed (s : Script) (o : Op) (r : Ret o) :
    s.follows (renamed w) o r ↔ s.follows w o r := by
  have hcontext : ∀ out, Script.contextOf out (renamed w).log = Script.contextOf out w.log := by
    intro out
    simp only [Script.contextOf, renamed, contexts_renamed]
  have hseen : Script.seen (renamed w).log = Script.seen w.log := seen_renamed w.log
  by_cases hk : kindOfOp o = .other
  · -- what is not counted does not depend on the count
    cases o with
    | onRequest | onConnect | onConnectBuffer => simp only [Script.follows, hseen]
    | alpcSendWaitReceivePort a =>
      simp only [kindOfOp] at hk
      split at hk <;> cases hk
    | _ => first | exact Iff.rfl | cases hk
  · have hnext : s.next (renamed w).log o = s.next w.log o := by
      simp only [Script.next, renamed, counts_renamed hk]
    cases o <;> simp only [Script.follows, hnext, hcontext, hseen]

/-- A script does not tell the two libraries apart. -/
theorem reading_follows (s : Script) : reading s.follows = s.follows := by
  funext w o r
  refine propext ?_
  have hcounts : ∀ o', kindOfOp o' = kindOfOp o → kindOfOp o ≠ .other →
      s.next (renamed w).log o' = s.next w.log o := fun o' he hk => by
    simp only [Script.next, he, renamed, counts_renamed hk]
  cases o with
  | rtlZeroMemory p length => exact ⟨fun _ => trivial, fun _ e he => by cases he⟩
  | free api p => exact ⟨fun _ => trivial, fun _ e he => by cases he; trivial⟩
  | allocate api layout =>
    refine (reading_of_some rfl).trans ?_
    simp only [Script.follows, hcounts (.allocate .processHeap layout) rfl (by rintro ⟨⟩)]
  | alpcConnectPort a =>
    let unset := { a with portAttributes := unflagged a.portAttributes }
    refine (reading_of_some (e := ⟨.alpcConnectPort unset, r⟩) rfl).trans ?_
    simp only [Script.follows, hcounts (.alpcConnectPort unset) rfl (by rintro ⟨⟩)]
  | createThread argument =>
    cases argument with
    | none =>
      refine (reading_of_some (e := ⟨.createThread none, r⟩) rfl).trans ?_
      exact follows_renamed s _ r
    | some server =>
      refine (reading_of_some (e := ⟨.ntCreateThreadEx (.server server), r⟩) rfl).trans ?_
      simp only [Script.follows, hcounts (.ntCreateThreadEx (.server server)) rfl (by rintro ⟨⟩)]
  | _ => exact (reading_of_some (renameEvent_shared (by trivial) r)).trans (follows_renamed s _ r)

end AlpcResearch.Advanced
