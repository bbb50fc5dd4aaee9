import AlpcResearch.Channel.Delivery
import AlpcResearch.Program.Records

/-!
# What a client has run

A client that keeps a record knows which of its programs have returned, and
with what status. What one program adds to what the others before it have done,
a client's programs do one after the other in every interleaving
(`Roles.Played.runs`). So of programs that each hand over a script, what a
client has handed over is made up of the scripts of those it has run
(`Handed`).
-/

namespace AlpcResearch.Channel

open Resource Program Process
open Rpc (Party)

abbrev RecordedPool (ι κ : Type) :=
  Pool (Party ι) (Recorded (Task κ) (Control NtStatus)) (Phase Op) (Phase.Ret Ret (Ticket ι))
    (Net ι) (Control NtStatus)

def Task.finished {κ : Type} : Task κ × Control NtStatus → Option (κ × NtStatus)
  | (.run c, .leave status) => some (c, status)
  | _ => none

def finished {κ : Type} (record : List (Task κ × Control NtStatus)) : List (κ × NtStatus) :=
  record.filterMap Task.finished

structure OpensRecording {ι κ : Type} (P₀ : Process) (Q : RecordedPool ι κ) : Prop
    extends Opens P₀ Q.bare where
  fresh : ∀ i, ∃ ended, Q.threads (.client i) = ((.serve, []), .ret ended)

-- ---------------------------------------------------------------------------
-- What the programs come to
-- ---------------------------------------------------------------------------

variable {ι κ : Type} [DecidableEq ι] {program : κ → Proc NtStatus}
variable {pl : Platform} {site : Site ι} {P₀ : Process} {R : Roles ι}

/-- What holds of a client in a program, and between two, after those it has
finished. -/
structure Progress (κ : Type) where
  during : List (κ × NtStatus) → κ → World → Prop
  between : List (κ × NtStatus) → World → Prop

namespace Progress

variable (C : Progress κ)

def inCall : Party ι → Recorded (Task κ) (Control NtStatus) → World → Prop
  | .client _, (.run c, record), v => C.during (finished record) c v
  | _, _, _ => True

def atEnd : Party ι → Recorded (Task κ) (Control NtStatus) → Control NtStatus → World → Prop
  | .client _, c, ended, v => C.between (finished (c.returned ended)) v
  | .server, _, _, _ => True

/-- Each program goes on from where the one before it has ended. -/
def Follows (pl : Platform) (program : κ → Proc NtStatus) : Prop :=
  ∀ done c v, C.between done v → (program c).safe (system pl anyKernel) (C.during done c)
    (fun status => C.between ((c, status) :: done)) v

structure Reached (P : RecordedPool ι κ) : Prop where
  during : ∀ i c record p, P.threads (.client i) = ((.run c, record), p) →
    C.during (finished record) c (view (.client i) P.world)
  between : ∀ i task record ended, P.threads (.client i) = ((task, record), .ret ended) →
    C.between (finished ((task, ended) :: record)) (view (.client i) P.world)

end Progress

variable {C : Progress κ} {P Q : RecordedPool ι κ}

theorem Roles.Played.runs (hR : R.Played pl site program) (h₀ : OpensRecording P₀ Q)
    (hn : R.shared Q.world) (hserver : R.between ⟨P₀, []⟩)
    (hidle : ∀ i, R.idle (view (.client i) Q.world)) (hC : C.Follows pl program)
    (hstart : ∀ i, C.between [] (view (.client i) Q.world))
    (h : (channel pl site program).recording.Reaches anyStep Q P) : C.Reached P := by
  have htrue : ∀ {S : System Op Ret Process} {p : Proc (Control NtStatus)} {v : World},
      p.safe S (fun _ => True) (fun _ _ => True) v :=
    safe_of_step (K := fun _ => True) (fun _ _ _ _ h => h) (fun _ h => h) (fun _ _ h => h) trivial
  have hremains : ∀ p, (R.parties pl site program).InCall C.inCall C.atEnd P p := by
    refine hR.lawful.remains (h₀.toOpens.kept hR hn hserver hidle) ?_ ?_ h
    · rintro (_ | i)
      · obtain ⟨task, ht⟩ := h₀.worker
        have hworker : (Q.threads .server).2 = .ret .again := congrArg Prod.snd ht
        rw [Parties.InCall, hworker]
        exact .between (p := .ret .again) htrue
      · obtain ⟨ended, ht⟩ := h₀.fresh i
        rw [Parties.InCall, ht]
        exact .between (p := .ret ended) ⟨trivial, hstart i⟩
    · rintro (_ | i) c ended c' w w' - hw hstarts
      · exact htrue
      · obtain ⟨⟨x, rfl⟩, rfl⟩ := hstarts
        exact safe_bind (safe_imp (hC _ x _ hw) (fun _ hv => hv) fun _ _ hv hu => ⟨hv, hu⟩)
  refine ⟨fun i c record p ht => ?_, fun i task record ended ht => ?_⟩
  · have hi := hremains (.client i)
    rw [Parties.InCall, ht] at hi
    exact hi.here
  · have hi := hremains (.client i)
    rw [Parties.InCall, ht] at hi
    exact hi.returned

-- ---------------------------------------------------------------------------
-- Programs with a script
-- ---------------------------------------------------------------------------

variable {scripts : κ → List Parcel} {K : World → Prop} {v : World}

/-- What a program hands over until it returns: its script, or nothing if it
fails. -/
def handedOver (scripts : κ → List Parcel) (c : κ) (status : NtStatus) : List Parcel :=
  if ntSuccess status then scripts c else []

def handedBy (scripts : κ → List Parcel) (done : List (κ × NtStatus)) : List Parcel :=
  done.reverse.flatMap fun x => handedOver scripts x.1 x.2

omit [DecidableEq ι] in
theorem handedBy_cons (c : κ) (status : NtStatus) (done : List (κ × NtStatus)) :
    handedBy scripts ((c, status) :: done) = handedBy scripts done ++ handedOver scripts c status := by
  simp [handedBy]

/-- Each program hands over its script from the beginning; `K` holds between
two of them. -/
def HandsOver (pl : Platform) (scripts : κ → List Parcel) (K : World → Prop)
    (program : κ → Proc NtStatus) : Prop :=
  ∀ c v, K v → (program c).safe (system pl anyKernel)
    (fun u => ∃ n, offers u.log = offers v.log ++ (scripts c).take n)
    (fun status u => K u ∧ offers u.log = offers v.log ++ handedOver scripts c status) v

structure Idle (scripts : κ → List Parcel) (K : World → Prop) (v : World) : Prop where
  ready : K v
  offers : OfScripts scripts (offers v.log)

theorem HandsOver.keeps (h : HandsOver pl scripts K program) (c : κ) (hv : Idle scripts K v) :
    (program c).safe (system pl anyKernel) (fun u => OfScripts scripts (offers u.log))
      (fun _ => Idle scripts K) v := by
  refine safe_imp (h c v hv.ready) ?_ fun status u hu hends => ⟨hends.1, ?_⟩
  · rintro u ⟨n, hu⟩
    exact hu ▸ hv.offers.run c n
  · obtain ⟨n, hu⟩ := hu
    exact hu ▸ hv.offers.run c n

def handing (scripts : κ → List Parcel) (K : World → Prop) : Progress κ where
  during done c v := ∃ n, offers v.log = handedBy scripts done ++ (scripts c).take n
  between done v := K v ∧ offers v.log = handedBy scripts done

theorem HandsOver.follows (h : HandsOver pl scripts K program) :
    (handing scripts K).Follows pl program := by
  rintro done c v ⟨hv, hoffers⟩
  have hrun := h c v hv
  rw [hoffers] at hrun
  exact safe_mono hrun fun status u hu => ⟨hu.1, hu.2.trans (handedBy_cons c status done).symm⟩

structure Handed (scripts : κ → List Parcel) (P : RecordedPool ι κ) : Prop where
  /-- Between two programs a client has handed over the scripts of those that
  have not failed, in the order it ran them, -/
  between : ∀ i task record ended, P.threads (.client i) = ((task, record), .ret ended) →
    offers (view (.client i) P.world).log =
      handedBy scripts (finished ((task, ended) :: record))
  /-- and in a program the beginning of its script besides. -/
  during : ∀ i c record p, P.threads (.client i) = ((.run c, record), p) →
    ∃ n, offers (view (.client i) P.world).log =
      handedBy scripts (finished record) ++ (scripts c).take n

theorem Progress.Reached.handed (h : (handing scripts K).Reached P) : Handed scripts P where
  between i task record ended ht := (h.between i task record ended ht).2
  during := h.during

theorem OpensRecording.offers (h : OpensRecording P₀ Q) (i : ι) :
    offers (view (.client i) Q.world).log = [] := by
  have hhistory : Q.world.log = [] := h.history
  simp [view, hhistory, eventsOf, Channel.offers]

end AlpcResearch.Channel
