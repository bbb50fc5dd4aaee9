import AlpcResearch.Program.Threads

/-!
# Parties that share no memory

Threads of a component that each have a state of their own, and only the rest
of the world in common, through which they exchange messages, say. What one
party does can then be proved as if it were alone: `Parties` says how a party
sees the world and what it is to the party, and `Parties.Lawful.reaches` puts
such proofs together. What holds of the rest of the world may rest on them: a
party issues an operation only if its own invariant survives every answer
(`Parties.Fits`).
-/

namespace Program

variable {ι κ Op : Type} {Ret : Op → Type} {T σ τ α β : Type}

structure Parties (ι κ Op : Type) (Ret : Op → Type) (T σ τ α : Type) where
  component : Component ι κ (Phase Op) (Phase.Ret Ret T) σ α
  /-- What a party sees of the world: its own state and its own history. -/
  view : ι → Shared ι (Phase Op) (Phase.Ret Ret T) σ → World Op Ret τ
  /-- What the others and the rest of the world are to it. -/
  alone : ι → System Op Ret τ
  code : ι → κ → Prog Op Ret α
  /-- Holds of its own world at all times. -/
  inv : ι → World Op Ret τ → Prop
  owes : ι → κ → α → World Op Ret τ → Prop
  /-- Holds of the rest of the world at all times. -/
  common : Shared ι (Phase Op) (Phase.Ret Ret T) σ → Prop

namespace Parties

variable {N : Parties ι κ Op Ret T σ τ α} {w w' : Shared ι (Phase Op) (Phase.Ret Ret T) σ}

structure Holds (N : Parties ι κ Op Ret T σ τ α) (w : Shared ι (Phase Op) (Phase.Ret Ret T) σ) :
    Prop where
  common : N.common w
  inv : ∀ i, N.inv i (N.view i w)

/-- Whatever comes back, the operation keeps the party's invariant. -/
def Fits (N : Parties ι κ Op Ret T σ τ α) (i : ι) (u : World Op Ret τ) (o : Op) : Prop :=
  ∀ r, (N.alone i).legal u o r → N.inv i ((N.alone i).next u o r)

/-- The side conditions of the rule. Nobody sees an operation being issued; its
answer is seen by the party that issued it, as one it could have got alone; a
call starts with code that is right for the party alone. -/
structure Lawful (N : Parties ι κ Op Ret T σ τ α) : Prop where
  code : ∀ i c, N.component.code i c = (N.code i c).phased T
  issue_view : ∀ {i j w o t}, N.view j (N.component.system.next w (i, .issue o) t) = N.view j w
  issue_common : ∀ {i w o t}, N.Holds w → N.Fits i (N.view i w) o →
    N.component.system.legal w (i, .issue o) t →
    N.common (N.component.system.next w (i, .issue o) t)
  await_view : ∀ {i w o r},
    N.view i (N.component.system.next w (i, .await o) r) = (N.alone i).next (N.view i w) o r
  await_other : ∀ {i j w o r}, j ≠ i →
    N.view j (N.component.system.next w (i, .await o) r) = N.view j w
  await_alone : ∀ {i w o r}, N.common w → N.component.system.legal w (i, .await o) r →
    (N.alone i).legal (N.view i w) o r
  await_common : ∀ {i w o r}, N.Holds w → N.component.system.legal w (i, .await o) r →
    N.common (N.component.system.next w (i, .await o) r)
  start_common : ∀ {i c a c' w w'}, N.Holds w → N.component.starts w i (c, a) c' w' → N.common w'
  start_other : ∀ {i j c a c' w w'}, j ≠ i → N.component.starts w i (c, a) c' w' →
    N.view j w' = N.view j w
  start_code : ∀ {i c a c' w w'}, N.Holds w → N.owes i c a (N.view i w) →
    N.component.starts w i (c, a) c' w' →
    (N.code i c').safe (N.alone i) (N.inv i) (N.owes i c') (N.view i w')

def contract (N : Parties ι κ Op Ret T σ τ α) :
    Contract ι κ (Phase Op) (Phase.Ret Ret T) σ α where
  inv := N.Holds
  rely i w v := N.view i v = N.view i w
  may i w
    | .issue o => N.Fits i (N.view i w) o
    | .await o => N.Fits i (N.view i w) o
  given _ _ _ _ _ := True
  owes i c a w := N.owes i c a (N.view i w)

/-- What is right for a party alone is right for it among the others. -/
theorem Lawful.amid {p : Prog Op Ret β} {Q : β → World Op Ret τ → Prop} (hN : N.Lawful)
    (h : p.safe (N.alone i) (N.inv i) Q (N.view i w)) :
    (p.phased T).amid N.component N.contract i c (fun b v => Q b (N.view i v)) w := by
  induction p generalizing w with
  | ret b =>
    intro v _ hv
    have hview : N.view i v = N.view i w := hv
    exact hview ▸ h.2
  | call o k ih =>
    obtain ⟨-, hk⟩ := h
    intro v _ hv
    have hview : N.view i v = N.view i w := hv
    have hfits : N.Fits i (N.view i w) o := fun r hr => safe_here (hk r hr)
    have hissue : N.Fits i (N.view i v) o := hview ▸ hfits
    refine ⟨hissue, fun t _ _ _ v' hv' hrely => ?_⟩
    have hsame : N.view i v' = N.view i w :=
      (show N.view i v' = _ from hrely).trans (hN.issue_view.trans hview)
    have hawait : N.Fits i (N.view i v') o := hsame ▸ hfits
    refine ⟨hawait, fun r hr _ _ => ih r ?_⟩
    rw [hN.await_view, hsame]
    exact hk r (hsame ▸ hN.await_alone hv'.common hr)

theorem Lawful.valid (hN : N.Lawful) : N.contract.Valid N.component where
  refl _ _ := rfl
  trans h h' := Eq.trans h' h
  act_inv := by
    intro i c w o r hw hmay hr _
    cases o with
    | issue o =>
      refine ⟨hN.issue_common hw hmay hr, fun j => ?_⟩
      rw [hN.issue_view]
      exact hw.inv j
    | await o =>
      refine ⟨hN.await_common hw hr, fun j => ?_⟩
      by_cases hj : j = i
      · subst hj
        rw [hN.await_view]
        exact hmay r (hN.await_alone hw.common hr)
      · rw [hN.await_other hj]
        exact hw.inv j
  act_rely := by
    intro i j c w o r hij _ _ _ _
    cases o with
    | issue o => exact hN.issue_view
    | await o => exact hN.await_other hij
  start_inv := by
    intro i c a c' w w' hw howes hstart
    refine ⟨hN.start_common hw hstart, fun j => ?_⟩
    by_cases hj : j = i
    · subst hj
      exact safe_here (hN.start_code hw howes hstart)
    · rw [hN.start_other hj hstart]
      exact hw.inv j
  start_rely hij _ _ hstart := hN.start_other hij hstart
  start_code := by
    intro i c a c' w w' hw howes hstart
    rw [hN.code]
    exact hN.amid (hN.start_code hw howes hstart)

variable {P P₀ : Pool ι κ (Phase Op) (Phase.Ret Ret T) σ α}
variable {ok : Pool ι κ (Phase Op) (Phase.Ret Ret T) σ α → ι →
  (o : Phase Op) → Phase.Ret Ret T o → Prop}

theorem kept_idle (hw : N.Holds P.world)
    (h : ∀ i, ∃ c a, P.threads i = (c, .ret a) ∧ N.owes i c a (N.view i P.world)) :
    N.contract.Kept N.component P where
  inv := hw
  thread i := by
    obtain ⟨c, a, ht, howes⟩ := h i
    rw [ht]
    intro v _ hv
    have hview : N.view i v = N.view i P.world := hv
    show N.owes i c a (N.view i v)
    exact hview ▸ howes

/-- The rule. -/
theorem Lawful.reaches [DecidableEq ι] (hN : N.Lawful) (h₀ : N.contract.Kept N.component P₀)
    (h : N.component.Reaches ok P₀ P) : N.contract.Kept N.component P :=
  hN.valid.reaches (fun _ _ _ _ _ => trivial) h₀ h

end Parties

end Program
