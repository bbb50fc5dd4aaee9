import AlpcResearch.Program.Basic

/-!
# Running a program alone

A `System` says which responses an operation may have, given the state and
everything that happened before, and what the state becomes. A run threads a
`World`, which is the state with that history, newest event first. The weakest
precondition `Prog.safe` speaks about all runs at once, finished or not;
`safe_iff` says so. A loop is run round by round, and `Head.induct` is its
invariant rule.
-/

namespace Program

variable {Op : Type} {Ret : Op → Type} {σ : Type}

/-- One operation with the response it got. -/
structure Event (Op : Type) (Ret : Op → Type) where
  op : Op
  response : Ret op

structure World (Op : Type) (Ret : Op → Type) (σ : Type) where
  state : σ
  log : List (Event Op Ret)

structure System (Op : Type) (Ret : Op → Type) (σ : Type) where
  /-- The responses an operation may have here. -/
  legal : World Op Ret σ → (o : Op) → Ret o → Prop
  /-- What the operation leaves behind. -/
  effect : σ → (o : Op) → Ret o → σ

def System.next (S : System Op Ret σ) (w : World Op Ret σ) (o : Op) (r : Ret o) :
    World Op Ret σ :=
  { state := S.effect w.state o r, log := ⟨o, r⟩ :: w.log }

def System.under (S : System Op Ret σ) (A : World Op Ret σ → (o : Op) → Ret o → Prop) :
    System Op Ret σ :=
  { S with legal := fun w o r => S.legal w o r ∧ A w o r }

variable {S : System Op Ret σ}

@[simp] theorem next_state (w : World Op Ret σ) (o : Op) (r : Ret o) :
    (S.next w o r).state = S.effect w.state o r := rfl

@[simp] theorem next_log (w : World Op Ret σ) (o : Op) (r : Ret o) :
    (S.next w o r).log = ⟨o, r⟩ :: w.log := rfl

-- ---------------------------------------------------------------------------
-- Finished runs
-- ---------------------------------------------------------------------------

inductive Ends (S : System Op Ret σ) :
    Prog Op Ret α → World Op Ret σ → α → World Op Ret σ → Prop
  | ret : Ends S (.ret a) w a w
  | call {o : Op} {k : Ret o → Prog Op Ret α} {r : Ret o} :
      S.legal w o r → Ends S (k r) (S.next w o r) a w' → Ends S (.call o k) w a w'

theorem ends_ret {w w' : World Op Ret σ} {a b : α} :
    Ends S (.ret a) w b w' ↔ b = a ∧ w' = w := by
  constructor
  · rintro ⟨⟩; exact ⟨rfl, rfl⟩
  · rintro ⟨rfl, rfl⟩; exact .ret

theorem ends_call {w w' : World Op Ret σ} {o : Op} {k : Ret o → Prog Op Ret α} :
    Ends S (.call o k) w a w' ↔ ∃ r, S.legal w o r ∧ Ends S (k r) (S.next w o r) a w' := by
  constructor
  · rintro ⟨⟩; exact ⟨_, by assumption, by assumption⟩
  · rintro ⟨r, h, t⟩; exact .call h t

theorem ends_bind {w w' : World Op Ret σ} {p : Prog Op Ret α} {f : α → Prog Op Ret β} :
    Ends S (p >>= f) w b w' ↔ ∃ a v, Ends S p w a v ∧ Ends S (f a) v b w' := by
  induction p generalizing w with
  | ret a =>
    constructor
    · intro h; exact ⟨a, w, .ret, h⟩
    · rintro ⟨a', v, h, t⟩
      obtain ⟨rfl, rfl⟩ := ends_ret.mp h
      exact t
  | call o k ih =>
    simp only [call_bind, ends_call, ih]
    constructor
    · rintro ⟨r, hr, a, v, h, t⟩; exact ⟨a, v, ⟨r, hr, h⟩, t⟩
    · rintro ⟨a, v, ⟨r, hr, h⟩, t⟩; exact ⟨r, hr, a, v, h, t⟩

/-- A finished run only adds to the history, and only operations the program
can issue. -/
theorem Ends.log_grows {p : Prog Op Ret α} {good : Op → Prop} (h : Ends S p w a w')
    (hp : p.Uses good) : ∃ new, w'.log = new ++ w.log ∧ ∀ e ∈ new, good e.op := by
  induction h with
  | ret => exact ⟨[], rfl, by simp⟩
  | @call w a w' o k r _ _ ih =>
    obtain ⟨new, hlog, hnew⟩ := ih (hp.2 r)
    refine ⟨new ++ [⟨o, r⟩], by simp [hlog], ?_⟩
    intro e he
    rcases List.mem_append.mp he with he | he
    · exact hnew e he
    · rw [List.mem_singleton.mp he]
      exact hp.1

theorem Ends.log_suffix {p : Prog Op Ret α} (h : Ends S p w a w') : w.log <:+ w'.log := by
  induction h with
  | ret => exact List.suffix_refl _
  | call _ _ ih => exact (List.suffix_cons _ _).trans ih

theorem Ends.keeps {p : Prog Op Ret α} {good : Op → Prop} {I : World Op Ret σ → Prop}
    (h : Ends S p w a w') (hp : p.Uses good)
    (step : ∀ w o r, good o → S.legal w o r → I w → I (S.next w o r)) (hw : I w) : I w' := by
  induction h with
  | ret => exact hw
  | call hr _ ih => exact ih (hp.2 _) (step _ _ _ hp.1 hr hw)

theorem ends_op_bind {w w' : World Op Ret σ} {o : Op} {f : Ret o → Prog Op Ret α} :
    Ends S (Prog.call o .ret >>= f) w a w' ↔
      ∃ r, S.legal w o r ∧ Ends S (f r) (S.next w o r) a w' := ends_call

theorem ends_bind_returns {p : Prog Op Ret α} {f : α → Prog Op Ret β} {P : β → Prop}
    (hf : ∀ a w b w', Ends S (f a) w b w' → P b) (h : Ends S (p >>= f) w b w') : P b := by
  obtain ⟨a, v, -, h⟩ := ends_bind.mp h
  exact hf a v b w' h

-- ---------------------------------------------------------------------------
-- Unfinished runs
-- ---------------------------------------------------------------------------

/-- `w'` is the start, the end, or one of the worlds between two operations of
a run that may never finish. -/
inductive During (S : System Op Ret σ) :
    Prog Op Ret α → World Op Ret σ → World Op Ret σ → Prop
  | here {p : Prog Op Ret α} : During S p w w
  | call {o : Op} {k : Ret o → Prog Op Ret α} {r : Ret o} :
      S.legal w o r → During S (k r) (S.next w o r) w' → During S (.call o k) w w'

theorem Ends.during {p : Prog Op Ret α} (h : Ends S p w a w') : During S p w w' := by
  induction h with
  | ret => exact .here
  | call hr _ ih => exact .call hr ih

/-- Every run from `w` keeps `I` all the way, and ends in `Q` if it ends. -/
def Prog.safe (S : System Op Ret σ) (I : World Op Ret σ → Prop) :
    Prog Op Ret α → (α → World Op Ret σ → Prop) → World Op Ret σ → Prop
  | .ret a, Q, w => I w ∧ Q a w
  | .call o k, Q, w => I w ∧ ∀ r, S.legal w o r → (k r).safe S I Q (S.next w o r)

section Safe

variable {I : World Op Ret σ → Prop} {Q Q' : α → World Op Ret σ → Prop} {w : World Op Ret σ}

@[simp] theorem safe_ret (a : α) :
    (Prog.ret a : Prog Op Ret α).safe S I Q w ↔ I w ∧ Q a w := Iff.rfl

@[simp] theorem safe_call {o : Op} {k : Ret o → Prog Op Ret α} :
    (Prog.call o k).safe S I Q w ↔
      I w ∧ ∀ r, S.legal w o r → (k r).safe S I Q (S.next w o r) := Iff.rfl

theorem safe_here {p : Prog Op Ret α} (h : p.safe S I Q w) : I w := by
  cases p with
  | ret | call => exact h.1

theorem safe_iff {p : Prog Op Ret α} :
    p.safe S I Q w ↔ (∀ w', During S p w w' → I w') ∧ ∀ a w', Ends S p w a w' → Q a w' := by
  constructor
  · intro h
    refine ⟨fun w' d => ?_, fun a w' e => ?_⟩
    · induction d with
      | here => exact safe_here h
      | call hr _ ih => exact ih (h.2 _ hr)
    · induction e with
      | ret => exact h.2
      | call hr _ ih => exact ih (h.2 _ hr)
  · rintro ⟨hd, he⟩
    induction p generalizing w with
    | ret a => exact ⟨hd w .here, he a w .ret⟩
    | call o k ih =>
      exact ⟨hd w .here, fun r hr => ih r (fun w' d => hd w' (.call hr d))
        fun a w' e => he a w' (.call hr e)⟩

theorem safe_during {p : Prog Op Ret α} (h : p.safe S I Q w) (d : During S p w w') : I w' :=
  (safe_iff.mp h).1 w' d

theorem safe_ends {p : Prog Op Ret α} (h : p.safe S I Q w) (e : Ends S p w a w') : Q a w' :=
  (safe_iff.mp h).2 a w' e

theorem safe_bind {p : Prog Op Ret β} {f : β → Prog Op Ret α}
    (h : p.safe S I (fun b v => (f b).safe S I Q v) w) : (p >>= f).safe S I Q w := by
  induction p generalizing w with
  | ret b => exact h.2
  | call o k ih => exact ⟨h.1, fun r hr => ih r (h.2 r hr)⟩

/-- What every operation keeps, every program keeps. -/
theorem safe_of_step {p : Prog Op Ret α} {K : World Op Ret σ → Prop}
    (step : ∀ v o r, S.legal v o r → K v → K (S.next v o r)) (hI : ∀ v, K v → I v)
    (hQ : ∀ a v, K v → Q a v) (h : K w) : p.safe S I Q w := by
  induction p generalizing w with
  | ret a => exact ⟨hI w h, hQ a w h⟩
  | call o k ih => exact ⟨hI w h, fun r hr => ih r (step w o r hr h)⟩

theorem safe_of_uses {p : Prog Op Ret α} {good : Op → Prop} {K : World Op Ret σ → Prop}
    (hp : p.Uses good) (step : ∀ v o r, good o → S.legal v o r → K v → K (S.next v o r))
    (hI : ∀ v, K v → I v) (hQ : ∀ a v, K v → Q a v) (h : K w) : p.safe S I Q w := by
  induction p generalizing w with
  | ret a => exact ⟨hI w h, hQ a w h⟩
  | call o k ih => exact ⟨hI w h, fun r hr => ih r (hp.2 r) (step w o r hp.1 hr h)⟩

theorem safe_imp {J : World Op Ret σ → Prop} {p : Prog Op Ret α} (h : p.safe S I Q w)
    (hI : ∀ v, I v → J v) (hQ : ∀ a v, I v → Q a v → Q' a v) : p.safe S J Q' w := by
  induction p generalizing w with
  | ret a => exact ⟨hI w h.1, hQ a w h.1 h.2⟩
  | call o k ih => exact ⟨hI w h.1, fun r hr => ih r (h.2 r hr)⟩

theorem safe_mono {p : Prog Op Ret α} (h : p.safe S I Q w) (himp : ∀ a w', Q a w' → Q' a w') :
    p.safe S I Q' w :=
  safe_iff.mpr ⟨fun _ d => safe_during h d, fun a w' e => himp a w' (safe_ends h e)⟩

/-- What is known of finished runs anyway. -/
theorem safe_and {p : Prog Op Ret α} (h : p.safe S I Q w)
    (h' : ∀ a w', Ends S p w a w' → Q' a w') : p.safe S I (fun a w' => Q a w' ∧ Q' a w') w :=
  safe_iff.mpr ⟨fun _ d => safe_during h d, fun a w' e => ⟨safe_ends h e, h' a w' e⟩⟩

/-- Two invariants at once. -/
theorem safe_both {J : World Op Ret σ → Prop} {p : Prog Op Ret α} (h : p.safe S I Q w)
    (h' : p.safe S J Q' w) :
    p.safe S (fun v => I v ∧ J v) (fun a v => Q a v ∧ Q' a v) w := by
  induction p generalizing w with
  | ret a => exact ⟨⟨h.1, h'.1⟩, h.2, h'.2⟩
  | call o k ih => exact ⟨⟨h.1, h'.1⟩, fun r hr => ih r (h.2 r hr) (h'.2 r hr)⟩

end Safe

-- ---------------------------------------------------------------------------
-- Loops
-- ---------------------------------------------------------------------------

/-- The worlds in which a loop started in `w₀` is about to begin a round. -/
inductive Head (S : System Op Ret σ) (body : Prog Op Ret (Control β)) (w₀ : World Op Ret σ) :
    World Op Ret σ → Prop
  | start : Head S body w₀ w₀
  | again : Head S body w₀ w → Ends S body w .again w' → Head S body w₀ w'

def Passes (S : System Op Ret σ) (body : Prog Op Ret (Control β)) (w₀ w : World Op Ret σ) : Prop :=
  ∃ v, Head S body w₀ v ∧ During S body v w

def Left (S : System Op Ret σ) (body : Prog Op Ret (Control β)) (w₀ : World Op Ret σ) (b : β)
    (w' : World Op Ret σ) : Prop :=
  ∃ w, Head S body w₀ w ∧ Ends S body w (.leave b) w'

/-- What a round owes: `J` to the next round, `Q` to the code after the loop. -/
def After (J : World Op Ret σ → Prop) (Q : β → World Op Ret σ → Prop) :
    Control β → World Op Ret σ → Prop
  | .again, w => J w
  | .leave b, w => Q b w

section Loop

variable {body : Prog Op Ret (Control β)} {I J : World Op Ret σ → Prop}
variable {Q : β → World Op Ret σ → Prop} {w₀ w : World Op Ret σ}

/-- The invariant rule: what holds at the start and is kept by a round that
goes on holds at every head. -/
theorem Head.induct (h : Head S body w₀ w) (start : J w₀)
    (round : ∀ v, J v → body.safe S I (After J Q) v) : J w := by
  induction h with
  | start => exact start
  | again _ t ih => exact safe_ends (round _ ih) t

theorem Passes.induct (h : Passes S body w₀ w) (start : J w₀)
    (round : ∀ v, J v → body.safe S I (After J Q) v) : I w := by
  obtain ⟨v, hv, d⟩ := h
  exact safe_during (round v (hv.induct start round)) d

theorem round_of_step {K : World Op Ret σ → Prop}
    (step : ∀ v o r, S.legal v o r → K v → K (S.next v o r)) (h : K w) :
    body.safe S K (After K fun _ => K) w :=
  safe_of_step step (fun _ h => h) (fun c _ h => match c with | .again | .leave _ => h) h

theorem Left.induct (h : Left S body w₀ b w) (start : J w₀)
    (round : ∀ v, J v → body.safe S I (After J Q) v) : Q b w := by
  obtain ⟨v, hv, t⟩ := h
  have hround := round v (hv.induct start round)
  exact (safe_iff.mp hround).2 _ w t

end Loop

end Program
