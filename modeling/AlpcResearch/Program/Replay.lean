import AlpcResearch.Program.Runs

/-!
# Replaying a run

An `Oracle` answers every operation, and says where it can answer at all. A
program run against it has one run, which `Prog.replay` computes; wherever
the answers are legal that run is a run of the system (`replay_ends`), and so
are the rounds of a loop (`rounds_head`).
-/

namespace Program

variable {Op : Type} {Ret : Op → Type} {σ : Type}

structure Oracle (Op : Type) (Ret : Op → Type) (σ : Type) where
  answer : World Op Ret σ → (o : Op) → Ret o
  answers : World Op Ret σ → Op → Bool

def Oracle.Sound (O : Oracle Op Ret σ) (S : System Op Ret σ) : Prop :=
  ∀ w o, O.answers w o = true → S.legal w o (O.answer w o)

variable {S : System Op Ret σ} {O : Oracle Op Ret σ}

/-- The run against `O`, or `none` where `O` does not answer. -/
def Prog.replay (S : System Op Ret σ) (O : Oracle Op Ret σ) :
    Prog Op Ret α → World Op Ret σ → Option (α × World Op Ret σ)
  | .ret a, w => some (a, w)
  | .call o k, w =>
    if O.answers w o then (k (O.answer w o)).replay S O (S.next w o (O.answer w o)) else none

theorem replay_ends {p : Prog Op Ret α} (hO : O.Sound S)
    (h : p.replay S O w = some (a, w')) : Ends S p w a w' := by
  induction p generalizing w with
  | ret b =>
    cases h
    exact .ret
  | call o k ih =>
    simp only [Prog.replay] at h
    split at h
    · rename_i hans
      exact .call (hO w o hans) (ih _ h)
    · cases h

/-- `n` rounds of a loop against `O`, all of which go on. -/
def rounds (S : System Op Ret σ) (O : Oracle Op Ret σ) (body : Prog Op Ret (Control β)) :
    Nat → World Op Ret σ → Option (World Op Ret σ)
  | 0, w => some w
  | n + 1, w => match rounds S O body n w with
    | some v => match body.replay S O v with
      | some (.again, v') => some v'
      | _ => none
    | none => none

theorem rounds_head {body : Prog Op Ret (Control β)} (hO : O.Sound S)
    (h : rounds S O body n w = some w') : Head S body w w' := by
  induction n generalizing w' with
  | zero =>
    cases h
    exact .start
  | succ n ih =>
    simp only [rounds] at h
    split at h
    · rename_i v hv
      split at h
      · rename_i v' hv'
        cases h
        exact .again (ih hv) (replay_ends hO hv')
      · cases h
    · cases h

end Program
