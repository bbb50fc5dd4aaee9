import Mathlib.Logic.Basic

/-!
# Programs over operations

A program returns, or issues one operation and continues with the response.
Its control flow is ordinary Lean; everything it cannot decide by itself
(memory, the kernel, callbacks) is an operation, whose meaning a `System`
gives later. One text of a program therefore serves every reading of it:
run alone, run among other threads, or compared with another program.
-/

namespace Program

variable {Op : Type} {Ret : Op → Type}

inductive Prog (Op : Type) (Ret : Op → Type) (α : Type) where
  | ret : α → Prog Op Ret α
  | call : (o : Op) → (Ret o → Prog Op Ret α) → Prog Op Ret α

def Prog.bind : Prog Op Ret α → (α → Prog Op Ret β) → Prog Op Ret β
  | .ret a, f => f a
  | .call o k, f => .call o fun r => (k r).bind f

instance : Monad (Prog Op Ret) where
  pure := .ret
  bind := .bind

def Prog.op (o : Op) : Prog Op Ret (Ret o) := .call o .ret

@[simp] theorem pure_eq (a : α) : (pure a : Prog Op Ret α) = .ret a := rfl

@[simp] theorem ret_bind (a : α) (f : α → Prog Op Ret β) : (Prog.ret a >>= f) = f a := rfl

/-- The same where `>>=` has been unfolded. -/
@[simp] theorem Prog.ret_bind (a : α) (f : α → Prog Op Ret β) : (Prog.ret a).bind f = f a := rfl

@[simp] theorem call_bind (o : Op) (k : Ret o → Prog Op Ret α) (f : α → Prog Op Ret β) :
    (Prog.call o k >>= f) = .call o fun r => k r >>= f := rfl

@[simp] theorem op_bind (o : Op) (f : Ret o → Prog Op Ret β) :
    (Prog.op o >>= f) = .call o f := rfl

theorem bind_ret (p : Prog Op Ret α) : (p >>= Prog.ret) = p := by
  induction p with
  | ret a => rfl
  | call o k ih => simp only [call_bind, ih]

theorem bind_assoc (p : Prog Op Ret α) (f : α → Prog Op Ret β) (g : β → Prog Op Ret γ) :
    (p >>= f >>= g) = (p >>= fun a => f a >>= g) := by
  induction p with
  | ret a => rfl
  | call o k ih => simp only [call_bind, ih]

instance : LawfulMonad (Prog Op Ret) :=
  LawfulMonad.mk' _ bind_ret (fun _ _ => rfl) bind_assoc

-- ---------------------------------------------------------------------------
-- Operations a program can issue
-- ---------------------------------------------------------------------------

/-- Every operation on every branch satisfies `good`. -/
def Prog.Uses (good : Op → Prop) : Prog Op Ret α → Prop
  | .ret _ => True
  | .call o k => good o ∧ ∀ r, (k r).Uses good

@[simp] theorem uses_ret {good : Op → Prop} (a : α) :
    (Prog.ret a : Prog Op Ret α).Uses good := trivial

@[simp] theorem uses_call {good : Op → Prop} {o : Op} {k : Ret o → Prog Op Ret α} :
    (Prog.call o k).Uses good ↔ good o ∧ ∀ r, (k r).Uses good := Iff.rfl

theorem Prog.Uses.mono {good good' : Op → Prop} {p : Prog Op Ret α} (h : p.Uses good)
    (himp : ∀ o, good o → good' o) : p.Uses good' := by
  induction p with
  | ret a => trivial
  | call o k ih => exact ⟨himp o h.1, fun r => ih r (h.2 r)⟩

/-- Every call on every branch, together with what is left after it, satisfies
`good`. -/
def Prog.Along (good : (o : Op) → (Ret o → Prog Op Ret α) → Prop) : Prog Op Ret α → Prop
  | .ret _ => True
  | .call o k => good o k ∧ ∀ r, (k r).Along good

theorem uses_bind {good : Op → Prop} {p : Prog Op Ret α} {f : α → Prog Op Ret β}
    (hp : p.Uses good) (hf : ∀ a, (f a).Uses good) : (p >>= f).Uses good := by
  induction p with
  | ret a => exact hf a
  | call o k ih => exact ⟨hp.1, fun r => ih r (hp.2 r)⟩

theorem along_bind {good : (o : Op) → (Ret o → Prog Op Ret β) → Prop} {fits : Op → Prop}
    {p : Prog Op Ret α} {f : α → Prog Op Ret β} (hp : p.Uses fits)
    (hgood : ∀ o k, fits o → good o k) (hf : ∀ a, (f a).Along good) : (p >>= f).Along good := by
  induction p with
  | ret a => exact hf a
  | call o k ih => exact ⟨hgood o _ hp.1, fun r => ih r (hp.2 r)⟩

-- ---------------------------------------------------------------------------
-- Loops
-- ---------------------------------------------------------------------------

/-- How one round of a `while (TRUE)` body ends: the next round, or a
`break` out of the loop with a value. -/
inductive Control (β : Type) where
  | again
  | leave (b : β)
  deriving DecidableEq, Repr

end Program
