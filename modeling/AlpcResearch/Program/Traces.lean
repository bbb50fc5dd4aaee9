import AlpcResearch.Program.Runs

/-!
# What an onlooker sees

A `View` says what is seen of an operation at the moment it is issued, if
anything is. `Performs` collects the traces of a program: what was seen of it
up to some point of a run, which may be an operation that never returns.
-/

namespace Program

variable {Op : Type} {Ret : Op → Type} {σ Act : Type}

abbrev View (Op : Type) (Ret : Op → Type) (σ Act : Type) := World Op Ret σ → Op → Option Act

variable {S : System Op Ret σ} {V : View Op Ret σ Act}

inductive Performs (S : System Op Ret σ) (V : View Op Ret σ Act) :
    Prog Op Ret α → World Op Ret σ → List Act → Prop
  | here {p : Prog Op Ret α} : Performs S V p w []
  | issue {o : Op} {k : Ret o → Prog Op Ret α} : Performs S V (.call o k) w (V w o).toList
  | call {o : Op} {k : Ret o → Prog Op Ret α} {r : Ret o} :
      S.legal w o r → Performs S V (k r) (S.next w o r) t →
      Performs S V (.call o k) w ((V w o).toList ++ t)

theorem Ends.performs {p : Prog Op Ret α} {f : α → Prog Op Ret β} (h : Ends S p w a v)
    (ht : Performs S V (f a) v t) : ∃ s, Performs S V (p >>= f) w (s ++ t) := by
  induction h with
  | ret => exact ⟨[], ht⟩
  | @call w _ _ o k r hr _ ih =>
    obtain ⟨s, hs⟩ := ih ht
    exact ⟨(V w o).toList ++ s, by simpa using Performs.call hr hs⟩

-- ---------------------------------------------------------------------------
-- The operations a run comes to
-- ---------------------------------------------------------------------------

/-- Every operation that a run from `w` comes to issue satisfies `good`. -/
def Prog.Within (S : System Op Ret σ) (good : Op → Prop) :
    Prog Op Ret α → World Op Ret σ → Prop
  | .ret _, _ => True
  | .call o k, w => good o ∧ ∀ r, S.legal w o r → (k r).Within S good (S.next w o r)

variable {good : Op → Prop} {w : World Op Ret σ}

theorem Prog.Uses.within {p : Prog Op Ret α} (h : p.Uses good) : p.Within S good w := by
  induction p generalizing w with
  | ret a => trivial
  | call o k ih => exact ⟨h.1, fun r _ => ih r (h.2 r)⟩

theorem within_bind {p : Prog Op Ret α} {f : α → Prog Op Ret β} (hp : p.Within S good w)
    (hf : ∀ a v, Ends S p w a v → (f a).Within S good v) : (p >>= f).Within S good w := by
  induction p generalizing w with
  | ret a => exact hf a w .ret
  | call o k ih =>
    exact ⟨hp.1, fun r hr => ih r (hp.2 r hr) fun a v h => hf a v (.call hr h)⟩

theorem Performs.seen {p : Prog Op Ret α} (h : Performs S V p w t) (hp : p.Within S good w) :
    ∀ a ∈ t, ∃ v o, good o ∧ V v o = some a := by
  induction h with
  | here => simp
  | @issue w o k =>
    intro a ha
    exact ⟨w, o, hp.1, by simpa using ha⟩
  | @call w t o k r hr _ ih =>
    intro a ha
    rcases List.mem_append.mp ha with ha | ha
    · exact ⟨w, o, hp.1, by simpa using ha⟩
    · exact ih (hp.2 r hr) a ha

-- ---------------------------------------------------------------------------
-- Programs that are never stuck
-- ---------------------------------------------------------------------------

def Prog.Progresses (S : System Op Ret σ) : Prog Op Ret α → World Op Ret σ → Prop
  | .ret _, _ => True
  | .call o k, w =>
    (∃ r, S.legal w o r) ∧ ∀ r, S.legal w o r → (k r).Progresses S (S.next w o r)

theorem progresses_bind {p : Prog Op Ret α} {f : α → Prog Op Ret β} (hp : p.Progresses S w)
    (hf : ∀ a v, Ends S p w a v → (f a).Progresses S v) : (p >>= f).Progresses S w := by
  induction p generalizing w with
  | ret a => exact hf a w .ret
  | call o k ih =>
    exact ⟨hp.1, fun r hr => ih r (hp.2 r hr) fun a v h => hf a v (.call hr h)⟩

theorem Prog.Progresses.exists_ends {p : Prog Op Ret α} (h : p.Progresses S w) :
    ∃ a v, Ends S p w a v := by
  induction p generalizing w with
  | ret a => exact ⟨a, w, .ret⟩
  | call o k ih =>
    obtain ⟨r, hr⟩ := h.1
    obtain ⟨a, v, hv⟩ := ih r (h.2 r hr)
    exact ⟨a, v, .call hr hv⟩

theorem Prog.Uses.progresses {p : Prog Op Ret α} (h : p.Uses fun o => ∀ w, ∃ r, S.legal w o r) :
    p.Progresses S w := by
  induction p generalizing w with
  | ret a => trivial
  | call o k ih => exact ⟨h.1 w, fun r _ => ih r (h.2 r)⟩

theorem Prog.Uses.exists_ends {p : Prog Op Ret α}
    (h : p.Uses fun o => ∀ w, ∃ r, S.legal w o r) (w : World Op Ret σ) :
    ∃ a v, Ends S p w a v :=
  h.progresses.exists_ends

-- ---------------------------------------------------------------------------
-- Programs that report and repeat
-- ---------------------------------------------------------------------------

/-- The program, which also returns what it did, the latest first. -/
def Prog.logged : Prog Op Ret α → List (Event Op Ret) → Prog Op Ret (α × List (Event Op Ret))
  | .ret a, done => .ret (a, done)
  | .call o k, done => .call o fun r => (k r).logged (⟨o, r⟩ :: done)

/-- Told the history so far, it returns the history at its end. -/
theorem ends_logged {p : Prog Op Ret α} {w v : World Op Ret σ} :
    Ends S (p.logged w.log) w (a, events) v ↔ Ends S p w a v ∧ events = v.log := by
  induction p generalizing w with
  | ret b =>
    simp only [Prog.logged, ends_ret, Prod.mk.injEq]
    constructor
    · rintro ⟨⟨rfl, rfl⟩, rfl⟩
      exact ⟨⟨rfl, rfl⟩, rfl⟩
    · rintro ⟨⟨rfl, rfl⟩, rfl⟩
      exact ⟨⟨rfl, rfl⟩, rfl⟩
  | call o k ih =>
    have hrest := fun r => ih r (w := S.next w o r)
    simp only [next_log] at hrest
    simp only [Prog.logged, ends_call, hrest]
    constructor
    · rintro ⟨r, hr, h, he⟩
      exact ⟨⟨r, hr, h⟩, he⟩
    · rintro ⟨⟨r, hr, h⟩, he⟩
      exact ⟨r, hr, h, he⟩

theorem within_logged {p : Prog Op Ret α} {done : List (Event Op Ret)} (h : p.Within S good w) :
    (p.logged done).Within S good w := by
  induction p generalizing w done with
  | ret a => trivial
  | call o k ih => exact ⟨h.1, fun r hr => ih r (h.2 r hr)⟩

/-- At most `n` rounds of a loop; `none` while it has not been left. -/
def Prog.loop (body : Prog Op Ret (Control β)) : Nat → Prog Op Ret (Option β)
  | 0 => .ret none
  | n + 1 => body >>= fun
    | .again => body.loop n
    | .leave b => .ret (some b)

theorem uses_loop {body : Prog Op Ret (Control β)} (h : body.Uses good) :
    (body.loop n).Uses good := by
  induction n with
  | zero => trivial
  | succ n ih =>
    refine uses_bind h fun c => ?_
    cases c with
    | again => exact ih
    | leave b => trivial

theorem loop_safe {body : Prog Op Ret (Control β)} {I : World Op Ret σ → Prop}
    {J : Nat → World Op Ret σ → Prop} {Q : β → World Op Ret σ → Prop}
    (round : ∀ k v, J k v → body.safe S I (After (J (k + 1)) Q) v) (h : J k w) :
    (body.loop n).safe S I
      (fun left u => match left with | some b => Q b u | none => J (k + n) u) w := by
  induction n generalizing k w with
  | zero => exact ⟨safe_here (round k w h), h⟩
  | succ n ih =>
    refine safe_bind (safe_imp (round k w h) (fun _ hu => hu) fun c u hI hu => ?_)
    cases c with
    | again =>
      rw [← Nat.succ_add_eq_add_succ]
      exact ih hu
    | leave b => exact ⟨hI, hu⟩

end Program
