import Mathlib.Logic.Function.Basic
import Mathlib.Logic.Relation
import AlpcResearch.Program.Runs

/-!
# Threads

Several threads over one shared state. A thread executes one call after
another; what it may call next, and what it finds then, is up to the
`Component`. `Prog.phased` splits an operation into its two ends, so that
other threads can act while one is blocked in it.

Properties of all interleavings come from a `Contract`: what holds of the
shared world at all times, what a thread may rely on while others act, and
what it may issue. `Prog.amid` is the weakest precondition of one thread in the
midst of such others, and `Contract.Valid.reaches` is the rule that puts the
threads together.
-/

namespace Program

-- ---------------------------------------------------------------------------
-- The two ends of an operation
-- ---------------------------------------------------------------------------

inductive Phase (Op : Type) where
  | issue (o : Op)
  | await (o : Op)

/-- Issuing an operation yields a ticket, awaiting it the response. -/
@[reducible] def Phase.Ret {Op : Type} (Ret : Op → Type) (T : Type) : Phase Op → Type
  | .issue _ => T
  | .await o => Ret o

section Phased

variable {Op : Type} {Ret : Op → Type}

def Prog.phased (T : Type) : Prog Op Ret α → Prog (Phase Op) (Phase.Ret Ret T) α
  | .ret a => .ret a
  | .call o k => .call (.issue o) fun _ => .call (.await o) fun r => (k r).phased T

@[simp] theorem phased_ret {T : Type} (a : α) :
    (Prog.ret a : Prog Op Ret α).phased T = .ret a := rfl

theorem phased_bind {T : Type} (p : Prog Op Ret α) (f : α → Prog Op Ret β) :
    (p >>= f).phased T = (p.phased T >>= fun a => (f a).phased T) := by
  induction p with
  | ret a => rfl
  | call o k ih => simp only [call_bind, Prog.phased, ih]

end Phased

-- ---------------------------------------------------------------------------
-- Components
-- ---------------------------------------------------------------------------

variable {ι κ Op : Type} {Ret : Op → Type} {σ α : Type}

/-- The shared world: every event says whose it is. -/
abbrev Shared (ι Op : Type) (Ret : Op → Type) (σ : Type) :=
  World (ι × Op) (fun o => Ret o.2) σ

structure Component (ι κ Op : Type) (Ret : Op → Type) (σ α : Type) where
  system : System (ι × Op) (fun o => Ret o.2) σ
  code : ι → κ → Prog Op Ret α
  /-- The calls a thread may make after its last one, and the world it finds
  then. -/
  starts : Shared ι Op Ret σ → ι → κ × α → κ → Shared ι Op Ret σ → Prop

structure Pool (ι κ Op : Type) (Ret : Op → Type) (σ α : Type) where
  world : Shared ι Op Ret σ
  threads : ι → κ × Prog Op Ret α

variable {M : Component ι κ Op Ret σ α}

section Reaches

variable [DecidableEq ι]

/-- Some thread makes its next call, or goes one operation further; `ok` may
rule out some of the latter. -/
inductive Component.Step (M : Component ι κ Op Ret σ α)
    (ok : Pool ι κ Op Ret σ α → ι → (o : Op) → Ret o → Prop) :
    Pool ι κ Op Ret σ α → Pool ι κ Op Ret σ α → Prop
  | start {P : Pool ι κ Op Ret σ α} (i : ι) :
      P.threads i = (c, .ret a) → M.starts P.world i (c, a) c' w' →
      M.Step ok P ⟨w', Function.update P.threads i (c', M.code i c')⟩
  | act {P : Pool ι κ Op Ret σ α} (i : ι) {o : Op} {k : Ret o → Prog Op Ret α} {r : Ret o} :
      P.threads i = (c, .call o k) → M.system.legal P.world (i, o) r → ok P i o r →
      M.Step ok P ⟨M.system.next P.world (i, o) r, Function.update P.threads i (c, k r)⟩

def Component.Reaches (M : Component ι κ Op Ret σ α)
    (ok : Pool ι κ Op Ret σ α → ι → (o : Op) → Ret o → Prop)
    (P₀ P : Pool ι κ Op Ret σ α) : Prop :=
  Relation.ReflTransGen (M.Step ok) P₀ P

theorem Component.Reaches.keeps {ok : Pool ι κ Op Ret σ α → ι → (o : Op) → Ret o → Prop}
    {P₀ P : Pool ι κ Op Ret σ α} {I : Pool ι κ Op Ret σ α → Prop} (h : M.Reaches ok P₀ P)
    (h₀ : I P₀) (step : ∀ P P', I P → M.Step ok P P' → I P') : I P := by
  induction h with
  | refl => exact h₀
  | tail _ hs ih => exact step _ _ ih hs

theorem Component.Reaches.imp {ok ok' : Pool ι κ Op Ret σ α → ι → (o : Op) → Ret o → Prop}
    {P₀ P : Pool ι κ Op Ret σ α} (h : M.Reaches ok P₀ P)
    (himp : ∀ P i o r, ok P i o r → ok' P i o r) : M.Reaches ok' P₀ P := by
  induction h with
  | refl => exact .refl
  | tail _ hs ih =>
    cases hs with
    | start i ht hstart => exact .tail ih (.start i ht hstart)
    | act i ht hl hok => exact .tail ih (.act i ht hl (himp _ _ _ _ hok))

end Reaches

def anyStep : Pool ι κ Op Ret σ α → ι → (o : Op) → Ret o → Prop := fun _ _ _ _ => True

-- ---------------------------------------------------------------------------
-- One thread among others
-- ---------------------------------------------------------------------------

structure Contract (ι κ Op : Type) (Ret : Op → Type) (σ α : Type) where
  /-- Holds of the shared world between any two steps. -/
  inv : Shared ι Op Ret σ → Prop
  /-- What the others may do to the world while a thread does nothing. -/
  rely : ι → Shared ι Op Ret σ → Shared ι Op Ret σ → Prop
  /-- What a thread may issue. -/
  may : ι → Shared ι Op Ret σ → Op → Prop
  /-- What is given of the response, in a call. -/
  given : ι → κ → Shared ι Op Ret σ → (o : Op) → Ret o → Prop
  /-- What a thread owes at the end of a call. -/
  owes : ι → κ → α → Shared ι Op Ret σ → Prop

/-- From `w` on, whatever the others do, thread `i` in call `c` keeps to the
contract. -/
def Prog.amid (M : Component ι κ Op Ret σ α) (K : Contract ι κ Op Ret σ α) (i : ι) (c : κ) :
    Prog Op Ret β → (β → Shared ι Op Ret σ → Prop) → Shared ι Op Ret σ → Prop
  | .ret a, Q, w => ∀ v, K.inv v → K.rely i w v → Q a v
  | .call o k, Q, w => ∀ v, K.inv v → K.rely i w v → K.may i v o ∧
    ∀ r, M.system.legal v (i, o) r → K.given i c v o r → K.inv (M.system.next v (i, o) r) →
      (k r).amid M K i c Q (M.system.next v (i, o) r)

/-- The side conditions of the rule: the relies are preorders, a step within
the contract keeps the invariant and is what the others rely on, and so is the
start of a call, whose code is right. -/
structure Contract.Valid (K : Contract ι κ Op Ret σ α) (M : Component ι κ Op Ret σ α) : Prop where
  refl : ∀ i w, K.rely i w w
  trans : ∀ {i w w' w''}, K.rely i w w' → K.rely i w' w'' → K.rely i w w''
  act_inv : ∀ {i c w o r}, K.inv w → K.may i w o → M.system.legal w (i, o) r →
    K.given i c w o r → K.inv (M.system.next w (i, o) r)
  act_rely : ∀ {i j c w o r}, i ≠ j → K.inv w → K.may j w o → M.system.legal w (j, o) r →
    K.given j c w o r → K.rely i w (M.system.next w (j, o) r)
  start_inv : ∀ {i c a c' w w'}, K.inv w → K.owes i c a w → M.starts w i (c, a) c' w' → K.inv w'
  start_rely : ∀ {i j c a c' w w'}, i ≠ j → K.inv w → K.owes j c a w →
    M.starts w j (c, a) c' w' → K.rely i w w'
  start_code : ∀ {i c a c' w w'}, K.inv w → K.owes i c a w → M.starts w i (c, a) c' w' →
    (M.code i c').amid M K i c' (K.owes i c') w'

section Amid

variable {K : Contract ι κ Op Ret σ α} {i : ι} {c : κ} {w w' : Shared ι Op Ret σ}

theorem amid_rely {p : Prog Op Ret β} {Q : β → Shared ι Op Ret σ → Prop} (hK : K.Valid M)
    (h : p.amid M K i c Q w) (hr : K.rely i w w') : p.amid M K i c Q w' := by
  cases p with
  | ret a => exact fun v hv hr' => h v hv (hK.trans hr hr')
  | call o k => exact fun v hv hr' => h v hv (hK.trans hr hr')

theorem amid_bind {p : Prog Op Ret β} {f : β → Prog Op Ret γ}
    {Q : γ → Shared ι Op Ret σ → Prop} (refl : ∀ i w, K.rely i w w)
    (h : p.amid M K i c (fun b v => (f b).amid M K i c Q v) w) : (p >>= f).amid M K i c Q w := by
  induction p generalizing w with
  | ret b =>
    have hf : ∀ v, K.inv v → K.rely i w v → (f b).amid M K i c Q v := h
    show (f b).amid M K i c Q w
    cases hp : f b with
    | ret a => exact fun v hv hr => (hp ▸ hf v hv hr) v hv (refl i v)
    | call o k => exact fun v hv hr => (hp ▸ hf v hv hr) v hv (refl i v)
  | call o k ih =>
    intro v hv hr
    obtain ⟨hmay, hk⟩ := h v hv hr
    exact ⟨hmay, fun r hl hg hi => ih r (hk r hl hg hi)⟩

theorem amid_imp {p : Prog Op Ret β} {Q Q' : β → Shared ι Op Ret σ → Prop}
    (h : p.amid M K i c Q w) (hQ : ∀ b v, K.inv v → Q b v → Q' b v) : p.amid M K i c Q' w := by
  induction p generalizing w with
  | ret b => exact fun v hv hr => hQ b v hv (h v hv hr)
  | call o k ih =>
    intro v hv hr
    obtain ⟨hmay, hk⟩ := h v hv hr
    exact ⟨hmay, fun r hl hg hi => ih r (hk r hl hg hi)⟩

/-- Operations a thread may always issue, whatever comes back. -/
theorem amid_of_uses {p : Prog Op Ret β} {good : Op → Prop} {I : Shared ι Op Ret σ → Prop}
    {Q : β → Shared ι Op Ret σ → Prop} (hp : p.Uses good)
    (hmay : ∀ v o, I v → good o → K.may i v o)
    (hkeep : ∀ v o r, I v → good o → M.system.legal v (i, o) r → I (M.system.next v (i, o) r))
    (hrely : ∀ v v', I v → K.rely i v v' → I v') (hQ : ∀ b v, I v → Q b v) (hw : I w) :
    p.amid M K i c Q w := by
  induction p generalizing w with
  | ret b => exact fun v _ hr => hQ b v (hrely w v hw hr)
  | call o k ih =>
    intro v _ hr
    have hv := hrely w v hw hr
    exact ⟨hmay v o hv hp.1, fun r hl _ _ => ih r (hp.2 r) (hkeep v o r hv hp.1 hl)⟩

end Amid

-- ---------------------------------------------------------------------------
-- All threads together
-- ---------------------------------------------------------------------------

structure Contract.Kept (K : Contract ι κ Op Ret σ α) (M : Component ι κ Op Ret σ α)
    (P : Pool ι κ Op Ret σ α) : Prop where
  inv : K.inv P.world
  thread : ∀ i, (P.threads i).2.amid M K i (P.threads i).1 (K.owes i (P.threads i).1) P.world

variable {K : Contract ι κ Op Ret σ α} {P P' P₀ : Pool ι κ Op Ret σ α}
variable {ok : Pool ι κ Op Ret σ α → ι → (o : Op) → Ret o → Prop}

theorem Contract.Kept.owes (h : K.Kept M P) (hK : K.Valid M) (ht : P.threads i = (c, .ret a)) :
    K.owes i c a P.world := by
  have hi := h.thread i
  rw [ht] at hi
  exact hi P.world h.inv (hK.refl i _)

theorem Contract.Kept.may {o : Op} {k : Ret o → Prog Op Ret α} (h : K.Kept M P) (hK : K.Valid M)
    (ht : P.threads i = (c, .call o k)) : K.may i P.world o := by
  have hi := h.thread i
  rw [ht] at hi
  exact (hi P.world h.inv (hK.refl i _)).1

variable [DecidableEq ι]

theorem Contract.Kept.step (h : K.Kept M P) (hK : K.Valid M)
    (hok : ∀ i o r, ok P i o r → K.given i (P.threads i).1 P.world o r) (hs : M.Step ok P P') :
    K.Kept M P' := by
  cases hs with
  | @start c a c' w' _ i ht hstart =>
    have howes := h.owes hK ht
    refine ⟨hK.start_inv h.inv howes hstart, fun j => ?_⟩
    by_cases hj : j = i
    · subst hj
      simp only [Function.update_self]
      exact hK.start_code h.inv howes hstart
    · simp only [Function.update_of_ne hj]
      exact amid_rely hK (h.thread j) (hK.start_rely hj h.inv howes hstart)
  | @act c _ i o k r ht hl hr =>
    have hi := h.thread i
    have hgiven := hok i o r hr
    rw [ht] at hi hgiven
    obtain ⟨hmay, hk⟩ := hi P.world h.inv (hK.refl i _)
    have hinv := hK.act_inv h.inv hmay hl hgiven
    refine ⟨hinv, fun j => ?_⟩
    by_cases hj : j = i
    · subst hj
      simp only [Function.update_self]
      exact hk r hl hgiven hinv
    · simp only [Function.update_of_ne hj]
      exact amid_rely hK (h.thread j) (hK.act_rely hj h.inv hmay hl hgiven)

/-- The rule: threads that keep to the contract one by one keep to it in every
interleaving. -/
theorem Contract.Valid.reaches (hK : K.Valid M)
    (hok : ∀ P i o r, ok P i o r → K.given i (P.threads i).1 P.world o r) (h₀ : K.Kept M P₀)
    (h : M.Reaches ok P₀ P) : K.Kept M P :=
  h.keeps h₀ fun P _ hP hs => hP.step hK (hok P) hs

end Program
