import AlpcResearch.Program.Threads

/-!
# Playing a schedule

A `Director` answers every operation of every thread and fixes what a call
finds when it starts. Under a schedule, which says whose turn it is, it plays
one run of a component; where its answers are legal that run is one of the
component's (`play_reaches`).
-/

namespace Program

variable {ι κ Op : Type} {Ret : Op → Type} {σ α : Type}

structure Director (ι κ Op : Type) (Ret : Op → Type) (σ α : Type) where
  begins : Shared ι Op Ret σ → ι → κ × α → κ → Option (Shared ι Op Ret σ)
  answer : Pool ι κ Op Ret σ α → ι → (o : Op) → Option (Ret o)

/-- A thread makes its next call, or goes one operation further. -/
inductive Turn (ι κ : Type) where
  | start (i : ι) (c : κ)
  | act (i : ι)

/-- Thread `i` goes `n` operations further. -/
def Turn.acting (i : ι) (n : Nat) : List (Turn ι κ) := List.replicate n (.act i)

def Turn.calling (i : ι) (c : κ) (n : Nat) : List (Turn ι κ) := .start i c :: Turn.acting i n

structure Director.Sound (D : Director ι κ Op Ret σ α) (M : Component ι κ Op Ret σ α)
    (ok : Pool ι κ Op Ret σ α → ι → (o : Op) → Ret o → Prop) : Prop where
  begins : ∀ {w i last c w'}, D.begins w i last c = some w' → M.starts w i last c w'
  answer : ∀ {P i o r}, D.answer P i o = some r → M.system.legal P.world (i, o) r ∧ ok P i o r

variable [DecidableEq ι] {M : Component ι κ Op Ret σ α} {D : Director ι κ Op Ret σ α}

/-- One turn, or `none` where the thread cannot take it. -/
def Component.turn (M : Component ι κ Op Ret σ α) (D : Director ι κ Op Ret σ α)
    (P : Pool ι κ Op Ret σ α) : Turn ι κ → Option (Pool ι κ Op Ret σ α)
  | .start i c => match P.threads i with
    | (last, .ret a) => (D.begins P.world i (last, a) c).map fun w =>
      ⟨w, Function.update P.threads i (c, M.code i c)⟩
    | (_, .call _ _) => none
  | .act i => match P.threads i with
    | (_, .ret _) => none
    | (c, .call o k) => (D.answer P i o).map fun r =>
      ⟨M.system.next P.world (i, o) r, Function.update P.threads i (c, k r)⟩

def Component.play (M : Component ι κ Op Ret σ α) (D : Director ι κ Op Ret σ α) :
    List (Turn ι κ) → Pool ι κ Op Ret σ α → Option (Pool ι κ Op Ret σ α)
  | [], P => some P
  | t :: turns, P => match M.turn D P t with
    | some P' => M.play D turns P'
    | none => none

/-- The last call of a thread that is in none, and its result. -/
def Pool.returned (P : Pool ι κ Op Ret σ α) (i : ι) : Option (κ × α) :=
  match P.threads i with
  | (c, .ret a) => some (c, a)
  | (_, .call _ _) => none

variable {ok : Pool ι κ Op Ret σ α → ι → (o : Op) → Ret o → Prop} {P P' : Pool ι κ Op Ret σ α}

omit [DecidableEq ι] in
theorem threads_of_returned (h : (P.returned i).map Prod.snd = some a) :
    ∃ c, P.threads i = (c, .ret a) := by
  simp only [Pool.returned] at h
  split at h
  · rename_i c a' ht
    cases h
    exact ⟨c, ht⟩
  · cases h

theorem turn_step (hD : D.Sound M ok) (h : M.turn D P t = some P') : M.Step ok P P' := by
  cases t with
  | start i c =>
    simp only [Component.turn] at h
    split at h
    · rename_i ht
      obtain ⟨w, hw, rfl⟩ := Option.map_eq_some_iff.mp h
      exact .start i ht (hD.begins hw)
    · cases h
  | act i =>
    simp only [Component.turn] at h
    split at h
    · cases h
    · rename_i ht
      obtain ⟨r, hr, rfl⟩ := Option.map_eq_some_iff.mp h
      obtain ⟨hl, hok⟩ := hD.answer hr
      exact .act i ht hl hok

theorem play_reaches (hD : D.Sound M ok) (h : M.play D turns P = some P') :
    M.Reaches ok P P' := by
  induction turns generalizing P with
  | nil =>
    cases h
    exact .refl
  | cons t turns ih =>
    simp only [Component.play] at h
    split at h
    · rename_i Q ht
      exact .head (turn_step hD ht) (ih h)
    · cases h

end Program
