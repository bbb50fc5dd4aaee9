import AlpcResearch.Program.Traces

/-!
# Two programs in lockstep

`Lockstep` relates a program to another that issues an operation whenever the
first one does, which looks the same, and for every response either of them
may get has one for the other after which they are in lockstep again. Such
programs have the same traces (`Lockstep.performs`) and their finished runs
come in pairs (`Lockstep.ends`).
-/

namespace Program

variable {Op : Type} {Ret : Op → Type} {σ Act : Type}

/-- Here the systems and the view are fixed; `Q` relates how the two end. -/
def Lockstep (S S' : System Op Ret σ) (V : View Op Ret σ Act)
    (Q : α → World Op Ret σ → β → World Op Ret σ → Prop) :
    Prog Op Ret α → Prog Op Ret β → World Op Ret σ → World Op Ret σ → Prop
  | .ret a, .ret b, w, w' => Q a w b w'
  | .call o k, .call o' k', w, w' => V w o = V w' o' ∧
    (∀ r, S.legal w o r → ∃ r', S'.legal w' o' r' ∧
      Lockstep S S' V Q (k r) (k' r') (S.next w o r) (S'.next w' o' r')) ∧
    ∀ r', S'.legal w' o' r' → ∃ r, S.legal w o r ∧
      Lockstep S S' V Q (k r) (k' r') (S.next w o r) (S'.next w' o' r')
  | .ret _, .call _ _, _, _ => False
  | .call _ _, .ret _, _, _ => False

variable {S S' : System Op Ret σ} {V : View Op Ret σ Act} {w w' : World Op Ret σ}
variable {Q : α → World Op Ret σ → β → World Op Ret σ → Prop}
variable {p : Prog Op Ret α} {p' : Prog Op Ret β}

theorem Lockstep.symm (h : Lockstep S S' V Q p p' w w') :
    Lockstep S' S V (fun b v' a v => Q a v b v') p' p w' w := by
  induction p generalizing p' w w' with
  | ret a =>
    cases p' with
    | ret b => exact h
    | call o' k' => exact h.elim
  | call o k ih =>
    cases p' with
    | ret b => exact h.elim
    | call o' k' =>
      obtain ⟨hV, hl, hr⟩ := h
      refine ⟨hV.symm, fun r' hr' => ?_, fun r hr₁ => ?_⟩
      · obtain ⟨r, hr₁, h⟩ := hr r' hr'
        exact ⟨r, hr₁, ih r h⟩
      · obtain ⟨r', hr', h⟩ := hl r hr₁
        exact ⟨r', hr', ih r h⟩

theorem Lockstep.bind {R : γ → World Op Ret σ → δ → World Op Ret σ → Prop}
    {f : α → Prog Op Ret γ} {f' : β → Prog Op Ret δ} (h : Lockstep S S' V Q p p' w w')
    (hf : ∀ a v b v', Q a v b v' → Lockstep S S' V R (f a) (f' b) v v') :
    Lockstep S S' V R (p >>= f) (p' >>= f') w w' := by
  induction p generalizing p' w w' with
  | ret a =>
    cases p' with
    | ret b => exact hf a w b w' h
    | call o' k' => exact h.elim
  | call o k ih =>
    cases p' with
    | ret b => exact h.elim
    | call o' k' =>
      obtain ⟨hV, hl, hr⟩ := h
      refine ⟨hV, fun r hr₁ => ?_, fun r' hr' => ?_⟩
      · obtain ⟨r', hr', h⟩ := hl r hr₁
        exact ⟨r', hr', ih r h⟩
      · obtain ⟨r, hr₁, h⟩ := hr r' hr'
        exact ⟨r, hr₁, ih r h⟩

theorem Lockstep.imp {R : α → World Op Ret σ → β → World Op Ret σ → Prop}
    (h : Lockstep S S' V Q p p' w w') (hQ : ∀ a v b v', Q a v b v' → R a v b v') :
    Lockstep S S' V R p p' w w' := by
  have hb : Lockstep S S' V R (p >>= Prog.ret) (p' >>= Prog.ret) w w' := h.bind hQ
  rwa [bind_ret, bind_ret] at hb

theorem lockstep_call {o o' : Op} {k : Ret o → Prog Op Ret α} {k' : Ret o' → Prog Op Ret β}
    (hV : V w o = V w' o') (f : Ret o → Ret o') (hf : f.Surjective)
    (hlegal : ∀ r, S.legal w o r ↔ S'.legal w' o' (f r))
    (hk : ∀ r, S.legal w o r →
      Lockstep S S' V Q (k r) (k' (f r)) (S.next w o r) (S'.next w' o' (f r))) :
    Lockstep S S' V Q (.call o k) (.call o' k') w w' := by
  refine ⟨hV, fun r hr => ⟨f r, (hlegal r).mp hr, hk r hr⟩, fun r' hr' => ?_⟩
  obtain ⟨r, rfl⟩ := hf r'
  have hr := (hlegal r).mpr hr'
  exact ⟨r, hr, hk r hr⟩

-- ---------------------------------------------------------------------------
-- What lockstep gives
-- ---------------------------------------------------------------------------

theorem Lockstep.ends (h : Lockstep S S' V Q p p' w w') (he : Ends S p w a v) :
    ∃ b v', Ends S' p' w' b v' ∧ Q a v b v' := by
  induction he generalizing p' w' with
  | ret =>
    cases p' with
    | ret b => exact ⟨b, w', .ret, h⟩
    | call o' k' => exact h.elim
  | call hr _ ih =>
    cases p' with
    | ret b => exact h.elim
    | call o' k' =>
      obtain ⟨r', hr', h⟩ := h.2.1 _ hr
      obtain ⟨b, v', he, hq⟩ := ih h
      exact ⟨b, v', .call hr' he, hq⟩

theorem Lockstep.with_ends (h : Lockstep S S' V Q p p' w w') :
    Lockstep S S' V (fun a v b v' => Q a v b v' ∧ Ends S p w a v ∧ Ends S' p' w' b v')
      p p' w w' := by
  induction p generalizing p' w w' with
  | ret a =>
    cases p' with
    | ret b => exact ⟨h, .ret, .ret⟩
    | call o' k' => exact h.elim
  | call o k ih =>
    cases p' with
    | ret b => exact h.elim
    | call o' k' =>
      refine ⟨h.1, fun r hr => ?_, fun r' hr' => ?_⟩
      · obtain ⟨r', hr', hl⟩ := h.2.1 r hr
        refine ⟨r', hr', (ih r hl).imp ?_⟩
        rintro a v b v' ⟨hq, he, he'⟩
        exact ⟨hq, .call hr he, .call hr' he'⟩
      · obtain ⟨r, hr, hl⟩ := h.2.2 r' hr'
        refine ⟨r, hr, (ih r hl).imp ?_⟩
        rintro a v b v' ⟨hq, he, he'⟩
        exact ⟨hq, .call hr he, .call hr' he'⟩

theorem Lockstep.performs_left (h : Lockstep S S' V Q p p' w w') (ht : Performs S V p w t) :
    Performs S' V p' w' t := by
  induction ht generalizing p' w' with
  | here => exact .here
  | issue =>
    cases p' with
    | ret b => exact h.elim
    | call o' k' => exact h.1 ▸ .issue
  | call hr _ ih =>
    cases p' with
    | ret b => exact h.elim
    | call o' k' =>
      obtain ⟨r', hr', h'⟩ := h.2.1 _ hr
      exact h.1 ▸ .call hr' (ih h')

theorem Lockstep.performs (h : Lockstep S S' V Q p p' w w') :
    Performs S V p w t ↔ Performs S' V p' w' t :=
  ⟨h.performs_left, h.symm.performs_left⟩

-- ---------------------------------------------------------------------------
-- Reports and loops
-- ---------------------------------------------------------------------------

theorem Lockstep.logged (h : Lockstep S S' V Q p p' w w') :
    Lockstep S S' V (fun a v b v' => Q a.1 v b.1 v' ∧ a.2 = v.log ∧ b.2 = v'.log)
      (p.logged w.log) (p'.logged w'.log) w w' := by
  induction p generalizing p' w w' with
  | ret a =>
    cases p' with
    | ret b => exact ⟨h, rfl, rfl⟩
    | call o' k' => exact h.elim
  | call o k ih =>
    cases p' with
    | ret b => exact h.elim
    | call o' k' =>
      refine ⟨h.1, fun r hr => ?_, fun r' hr' => ?_⟩
      · obtain ⟨r', hr', hl⟩ := h.2.1 r hr
        exact ⟨r', hr', ih r hl⟩
      · obtain ⟨r, hr, hl⟩ := h.2.2 r' hr'
        exact ⟨r, hr, ih r hl⟩

theorem lockstep_loop {J : World Op Ret σ → World Op Ret σ → Prop}
    {body : Prog Op Ret (Control β)} {body' : Prog Op Ret (Control β)}
    (round : ∀ v v', J v v' →
      Lockstep S S' V (fun c u c' u' => c = c' ∧ J u u') body body' v v') (h : J w w') :
    Lockstep S S' V (fun b v b' v' => b = b' ∧ J v v') (body.loop n) (body'.loop n) w w' := by
  induction n generalizing w w' with
  | zero => exact ⟨rfl, h⟩
  | succ n ih =>
    refine (round w w' h).bind ?_
    rintro c u _ u' ⟨rfl, hu⟩
    cases c with
    | again => exact ih hu
    | leave b => exact ⟨rfl, hu⟩

end Program
