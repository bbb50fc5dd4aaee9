import AlpcResearch.Program.Parties
import AlpcResearch.Program.Schedules

/-!
# The calls a thread has made

In `Component.recording` each thread keeps a record of its calls and what they
returned; it does nothing else with it (`recording_reaches`). So what a party
does alone in a call can be tied to the calls it has made before
(`Parties.Lawful.remains`).
-/

namespace Program

variable {ι κ Op : Type} {Ret : Op → Type} {T σ τ α : Type}

-- ---------------------------------------------------------------------------
-- Recording
-- ---------------------------------------------------------------------------

/-- A call, after the calls before it and their results, the latest first. -/
abbrev Recorded (κ α : Type) := κ × List (κ × α)

def Recorded.returned (c : Recorded κ α) (a : α) : List (κ × α) := (c.1, a) :: c.2

def Component.recording (M : Component ι κ Op Ret σ α) :
    Component ι (Recorded κ α) Op Ret σ α where
  system := M.system
  code i c := M.code i c.1
  starts w i last c w' :=
    M.starts w i (last.1.1, last.2) c.1 w' ∧ c.2 = last.1.returned last.2

def Pool.bare (P : Pool ι (Recorded κ α) Op Ret σ α) : Pool ι κ Op Ret σ α where
  world := P.world
  threads i := ((P.threads i).1.1, (P.threads i).2)

variable {M : Component ι κ Op Ret σ α} {P P' Q : Pool ι (Recorded κ α) Op Ret σ α}

theorem bare_threads (h : P.threads i = (c, p)) : P.bare.threads i = (c.1, p) := by
  simp only [Pool.bare, h]

theorem bare_returned (P : Pool ι (Recorded κ α) Op Ret σ α) (i : ι) :
    (P.bare.returned i).map Prod.snd = (P.returned i).map Prod.snd := by
  obtain ⟨c, p, hp⟩ : ∃ c p, P.threads i = (c, p) := ⟨_, _, rfl⟩
  cases p <;> simp [Pool.returned, Pool.bare, hp]

section Recording

variable [DecidableEq ι]

theorem bare_update (w : Shared ι Op Ret σ) (i : ι) (c : Recorded κ α) (p : Prog Op Ret α) :
    (⟨w, Function.update P.threads i (c, p)⟩ : Pool ι (Recorded κ α) Op Ret σ α).bare =
      ⟨w, Function.update P.bare.threads i (c.1, p)⟩ := by
  refine congrArg (Pool.mk w) (funext fun j => ?_)
  by_cases hj : j = i
  · subst hj
    simp
  · simp [Pool.bare, Function.update_of_ne hj]

theorem recording_step (h : M.recording.Step anyStep P P') : M.Step anyStep P.bare P'.bare := by
  cases h with
  | start i ht hstart =>
    rw [bare_update]
    exact .start i (bare_threads ht) hstart.1
  | act i ht hl =>
    rw [bare_update]
    exact .act i (bare_threads ht) hl trivial

theorem recording_reaches (h : M.recording.Reaches anyStep Q P) :
    M.Reaches anyStep Q.bare P.bare := by
  induction h with
  | refl => exact .refl
  | tail _ hs ih => exact .tail ih (recording_step hs)

/-- Every run has its records. -/
theorem exists_recorded {P : Pool ι κ Op Ret σ α} (h : M.Reaches anyStep Q.bare P) :
    ∃ P', M.recording.Reaches anyStep Q P' ∧ P'.bare = P := by
  induction h with
  | refl => exact ⟨Q, .refl, rfl⟩
  | tail _ hs ih =>
    obtain ⟨P', hreach, rfl⟩ := ih
    cases hs with
    | @start c a c' w' _ i ht hstart =>
      obtain ⟨⟨d, record⟩, p, hthread⟩ : ∃ d p, P'.threads i = (d, p) := ⟨_, _, rfl⟩
      obtain ⟨rfl, rfl⟩ := Prod.mk.inj ((bare_threads hthread).symm.trans ht)
      have hstart : M.recording.starts P'.world i ((d, record), a) (c', (d, a) :: record) w' :=
        ⟨hstart, rfl⟩
      exact ⟨_, .tail hreach (.start i hthread hstart),
        bare_update ..⟩
    | @act c _ i o k r ht hl =>
      obtain ⟨⟨d, record⟩, p, hthread⟩ : ∃ d p, P'.threads i = (d, p) := ⟨_, _, rfl⟩
      obtain ⟨rfl, rfl⟩ := Prod.mk.inj ((bare_threads hthread).symm.trans ht)
      exact ⟨_, .tail hreach (.act i hthread hl trivial), bare_update ..⟩

end Recording

-- ---------------------------------------------------------------------------
-- A party in its call
-- ---------------------------------------------------------------------------

namespace Parties

variable {N : Parties ι κ Op Ret T σ τ α} {w w' : Shared ι (Phase Op) (Phase.Ret Ret T) σ}

/-- A party alone keeps `J` in what is left of its call, and ends it in `Q`. -/
inductive Remains (N : Parties ι κ Op Ret T σ τ α) (i : ι) (J : World Op Ret τ → Prop)
    (Q : α → World Op Ret τ → Prop) (u : World Op Ret τ) :
    Prog (Phase Op) (Phase.Ret Ret T) α → Prop
  | between {p : Prog Op Ret α} : p.safe (N.alone i) J Q u → N.Remains i J Q u (p.phased T)
  | within {o : Op} {k : Ret o → Prog Op Ret α} : J u →
      (∀ r, (N.alone i).legal u o r → (k r).safe (N.alone i) J Q ((N.alone i).next u o r)) →
      N.Remains i J Q u (.call (.await o) fun r => (k r).phased T)

variable {i : ι} {J : World Op Ret τ → Prop} {O : α → World Op Ret τ → Prop} {u : World Op Ret τ}
variable {p : Prog (Phase Op) (Phase.Ret Ret T) α}

theorem Remains.here (h : N.Remains i J O u p) : J u := by
  cases h with
  | between h => exact safe_here h
  | within h _ => exact h

theorem Remains.returned {a : α} (h : N.Remains i J O u (.ret a)) : O a u := by
  generalize hp : Prog.ret a = p at h
  cases h with
  | @between q h =>
    cases q with
    | ret b =>
      cases hp
      exact h.2
    | call => cases hp
  | within => cases hp

/-- What a party does next. -/
theorem Remains.act (hN : N.Lawful) {o : Phase Op} {k : Phase.Ret Ret T o → Prog _ _ α}
    {r : Phase.Ret Ret T o} (h : N.Remains i J O (N.view i w) (.call o k)) (hw : N.common w)
    (hr : N.component.system.legal w (i, o) r) :
    N.Remains i J O (N.view i (N.component.system.next w (i, o) r)) (k r) := by
  generalize hp : Prog.call o k = p at h
  cases h with
  | @between q h =>
    cases q with
    | ret => cases hp
    | call o' k' =>
      cases hp
      rw [hN.issue_view]
      exact .within h.1 h.2
  | within _ hk =>
    cases hp
    rw [hN.await_view]
    exact .between (hk r (hN.await_alone hw hr))

variable {J : ι → Recorded κ α → World Op Ret τ → Prop}
variable {O : ι → Recorded κ α → α → World Op Ret τ → Prop}

/-- The party is in its call, after the calls in its record. -/
def InCall (N : Parties ι κ Op Ret T σ τ α) (J : ι → Recorded κ α → World Op Ret τ → Prop)
    (O : ι → Recorded κ α → α → World Op Ret τ → Prop)
    (P : Pool ι (Recorded κ α) (Phase Op) (Phase.Ret Ret T) σ α) (i : ι) : Prop :=
  N.Remains i (J i (P.threads i).1) (O i (P.threads i).1) (N.view i P.world) (P.threads i).2

variable {P Q : Pool ι (Recorded κ α) (Phase Op) (Phase.Ret Ret T) σ α}
variable [DecidableEq ι]

theorem inCall_step {P' : Pool ι (Recorded κ α) (Phase Op) (Phase.Ret Ret T) σ α} (hN : N.Lawful)
    (hw : N.Holds P.world)
    (start : ∀ i (c : Recorded κ α) a c' w w', N.Holds w → O i c a (N.view i w) →
      N.component.starts w i (c.1, a) c' w' →
      (N.code i c').safe (N.alone i) (J i (c', c.returned a)) (O i (c', c.returned a))
        (N.view i w'))
    (h : ∀ i, N.InCall J O P i) (hs : N.component.recording.Step anyStep P P') (j : ι) :
    N.InCall J O P' j := by
  cases hs with
  | @start c a c' w' _ i ht hstart =>
    obtain ⟨hstart, hrecord⟩ := hstart
    by_cases hj : j = i
    · subst hj
      have hj := h j
      simp only [InCall, ht] at hj
      have hsafe := start j c a c'.1 P.world w' hw hj.returned hstart
      simp only [InCall, Function.update_self]
      rw [← hrecord] at hsafe
      show N.Remains j _ _ _ (N.component.code j c'.1)
      rw [hN.code]
      exact .between hsafe
    · simp only [InCall, Function.update_of_ne hj, hN.start_other hj hstart]
      exact h j
  | @act c _ i o k r ht hl =>
    by_cases hj : j = i
    · subst hj
      have hj := h j
      simp only [InCall, ht] at hj
      simp only [InCall, Function.update_self]
      exact hj.act hN hw.common hl
    · have hview : N.view j (N.component.system.next P.world (i, o) r) = N.view j P.world := by
        cases o with
        | issue o => exact hN.issue_view
        | await o => exact hN.await_other hj
      have hj' := h j
      simp only [InCall, Function.update_of_ne hj] at hj' ⊢
      exact hview.symm ▸ hj'

/-- The rule: what a party keeps to in a call, if it did in the calls before,
it keeps to in every interleaving. -/
theorem Lawful.remains (hN : N.Lawful) (h₀ : N.contract.Kept N.component Q.bare)
    (idle : ∀ i, N.InCall J O Q i)
    (start : ∀ i (c : Recorded κ α) a c' w w', N.Holds w → O i c a (N.view i w) →
      N.component.starts w i (c.1, a) c' w' →
      (N.code i c').safe (N.alone i) (J i (c', c.returned a)) (O i (c', c.returned a))
        (N.view i w'))
    (h : N.component.recording.Reaches anyStep Q P) (i : ι) : N.InCall J O P i := by
  induction h generalizing i with
  | refl => exact idle i
  | tail hreach hs ih =>
    exact inCall_step hN (hN.reaches h₀ (recording_reaches hreach)).inv start ih hs i

end Parties

end Program
