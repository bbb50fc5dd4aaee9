import AlpcResearch.Program.Traces

/-!
# A program behind another

`Stutters` relates a program to another that issues the same operations but
for some of its own, of which nothing is seen. It is `Lockstep` with silent
steps on the left. `J` relates the two worlds whenever the program on the
right is about to issue an operation or has ended. Such programs have the
same traces (`Stutters.performs`), and every run of the one on the right is a
run of the one on the left (`Stutters.ends`, `Stutters.during`), round by
round for loops.
-/

namespace Program

variable {Op : Type} {Ret : Op → Type} {σ Act : Type}

/-- Here the systems, the view and `J` are fixed; `R` relates the results. -/
def Stutters (S S' : System Op Ret σ) (V : View Op Ret σ Act)
    (J : World Op Ret σ → World Op Ret σ → Prop) (R : α → β → Prop) :
    Prog Op Ret α → Prog Op Ret β → World Op Ret σ → World Op Ret σ → Prop
  | .ret a, p', w, w' => J w w' ∧ ∃ b, p' = .ret b ∧ R a b
  | .call o k, p', w, w' =>
    (V w o = none ∧ (∃ r, S.legal w o r) ∧
      ∀ r, S.legal w o r → Stutters S S' V J R (k r) p' (S.next w o r) w') ∨
    ∃ (o' : Op) (k' : Ret o' → Prog Op Ret β), p' = .call o' k' ∧ J w w' ∧ V w o = V w' o' ∧
      (∀ r, S.legal w o r → ∃ r', S'.legal w' o' r' ∧
        Stutters S S' V J R (k r) (k' r') (S.next w o r) (S'.next w' o' r')) ∧
      ∀ r', S'.legal w' o' r' → ∃ r, S.legal w o r ∧
        Stutters S S' V J R (k r) (k' r') (S.next w o r) (S'.next w' o' r')

variable {S S' : System Op Ret σ} {V : View Op Ret σ Act} {w w' : World Op Ret σ}
variable {J : World Op Ret σ → World Op Ret σ → Prop} {R : α → β → Prop}
variable {p : Prog Op Ret α} {p' : Prog Op Ret β}

theorem stutters_ret {a : α} {b : β} (h : J w w') (hR : R a b) :
    Stutters S S' V J R (.ret a) (.ret b) w w' :=
  ⟨h, b, rfl, hR⟩

/-- A step of the program on the left alone. -/
theorem stutters_silent {o : Op} {k : Ret o → Prog Op Ret α} (hV : V w o = none)
    (hr : ∃ r, S.legal w o r)
    (hk : ∀ r, S.legal w o r → Stutters S S' V J R (k r) p' (S.next w o r) w') :
    Stutters S S' V J R (.call o k) p' w w' :=
  .inl ⟨hV, hr, hk⟩

theorem stutters_call {o o' : Op} {k : Ret o → Prog Op Ret α} {k' : Ret o' → Prog Op Ret β}
    (h : J w w') (hV : V w o = V w' o')
    (hleft : ∀ r, S.legal w o r → ∃ r', S'.legal w' o' r' ∧
      Stutters S S' V J R (k r) (k' r') (S.next w o r) (S'.next w' o' r'))
    (hright : ∀ r', S'.legal w' o' r' → ∃ r, S.legal w o r ∧
      Stutters S S' V J R (k r) (k' r') (S.next w o r) (S'.next w' o' r')) :
    Stutters S S' V J R (.call o k) (.call o' k') w w' :=
  .inr ⟨o', k', rfl, h, hV, hleft, hright⟩

theorem Stutters.bind {T : γ → δ → Prop} {f : α → Prog Op Ret γ} {f' : β → Prog Op Ret δ}
    (h : Stutters S S' V J R p p' w w')
    (hf : ∀ a b v v', R a b → J v v' → Stutters S S' V J T (f a) (f' b) v v') :
    Stutters S S' V J T (p >>= f) (p' >>= f') w w' := by
  induction p generalizing p' w w' with
  | ret a =>
    obtain ⟨hJ, b, rfl, hR⟩ := h
    exact hf a b w w' hR hJ
  | call o k ih =>
    rcases h with ⟨hV, hr, hk⟩ | ⟨o', k', rfl, hJ, hV, hleft, hright⟩
    · exact stutters_silent hV hr fun r hr => ih r (hk r hr)
    · refine stutters_call hJ hV (fun r hr => ?_) fun r' hr' => ?_
      · obtain ⟨r', hr', h⟩ := hleft r hr
        exact ⟨r', hr', ih r h⟩
      · obtain ⟨r, hr, h⟩ := hright r' hr'
        exact ⟨r, hr, ih r h⟩

-- ---------------------------------------------------------------------------
-- Runs
-- ---------------------------------------------------------------------------

theorem Stutters.ends (h : Stutters S S' V J R p p' w w') (he : Ends S' p' w' b v') :
    ∃ a v, Ends S p w a v ∧ J v v' ∧ R a b := by
  induction p generalizing p' w w' with
  | ret a =>
    obtain ⟨hJ, b', rfl, hR⟩ := h
    obtain ⟨rfl, rfl⟩ := ends_ret.mp he
    exact ⟨a, w, .ret, hJ, hR⟩
  | call o k ih =>
    rcases h with ⟨-, ⟨r, hr⟩, hk⟩ | ⟨o', k', rfl, -, -, -, hright⟩
    · obtain ⟨a, v, hends, hv⟩ := ih r (hk r hr) he
      exact ⟨a, v, .call hr hends, hv⟩
    · obtain ⟨r', hr', he⟩ := ends_call.mp he
      obtain ⟨r, hr, h⟩ := hright r' hr'
      obtain ⟨a, v, hends, hv⟩ := ih r h he
      exact ⟨a, v, .call hr hends, hv⟩

theorem Stutters.ends_right (h : Stutters S S' V J R p p' w w') (he : Ends S p w a v) :
    ∃ b v', Ends S' p' w' b v' ∧ J v v' ∧ R a b := by
  induction he generalizing p' w' with
  | ret =>
    obtain ⟨hJ, b, rfl, hR⟩ := h
    exact ⟨b, w', .ret, hJ, hR⟩
  | call hr _ ih =>
    rcases h with ⟨-, -, hk⟩ | ⟨o', k', rfl, -, -, hleft, -⟩
    · exact ih (hk _ hr)
    · obtain ⟨r', hr', h⟩ := hleft _ hr
      obtain ⟨b, v', hends, hv⟩ := ih h
      exact ⟨b, v', .call hr' hends, hv⟩

theorem Stutters.during (h : Stutters S S' V J R p p' w w') (hd : During S' p' w' v') :
    ∃ v, During S p w v ∧ J v v' := by
  induction p generalizing p' w w' with
  | ret a =>
    obtain ⟨hJ, b, rfl, -⟩ := h
    cases hd
    exact ⟨w, .here, hJ⟩
  | call o k ih =>
    rcases h with ⟨-, ⟨r, hr⟩, hk⟩ | ⟨o', k', rfl, hJ, -, -, hright⟩
    · obtain ⟨v, hd, hJ⟩ := ih r (hk r hr) hd
      exact ⟨v, .call hr hd, hJ⟩
    · cases hd with
      | here => exact ⟨w, .here, hJ⟩
      | call hr' hd =>
        obtain ⟨r, hr, h⟩ := hright _ hr'
        obtain ⟨v, hd, hJ⟩ := ih r h hd
        exact ⟨v, .call hr hd, hJ⟩

-- ---------------------------------------------------------------------------
-- Traces
-- ---------------------------------------------------------------------------

theorem Stutters.performs_right (h : Stutters S S' V J R p p' w w') (ht : Performs S V p w t) :
    Performs S' V p' w' t := by
  induction ht generalizing p' w' with
  | here => exact .here
  | issue =>
    rcases h with ⟨hV, -⟩ | ⟨o', k', rfl, -, hV, -⟩
    · rw [hV]
      exact .here
    · exact hV ▸ .issue
  | call hr _ ih =>
    rcases h with ⟨hV, -, hk⟩ | ⟨o', k', rfl, -, hV, hleft, -⟩
    · rw [hV]
      exact ih (hk _ hr)
    · obtain ⟨r', hr', h⟩ := hleft _ hr
      exact hV ▸ .call hr' (ih h)

theorem Stutters.performs_left (h : Stutters S S' V J R p p' w w') (ht : Performs S' V p' w' t) :
    Performs S V p w t := by
  induction p generalizing p' w w' t with
  | ret a =>
    obtain ⟨-, b, rfl, -⟩ := h
    cases ht
    exact .here
  | call o k ih =>
    rcases h with ⟨hV, ⟨r, hr⟩, hk⟩ | ⟨o', k', rfl, -, hV, -, hright⟩
    · have hcall : Performs S V (.call o k) w ((V w o).toList ++ t) :=
        .call hr (ih r (hk r hr) ht)
      rwa [hV] at hcall
    · cases ht with
      | here => exact .here
      | issue => exact hV ▸ .issue
      | call hr' ht =>
        obtain ⟨r, hr, h⟩ := hright _ hr'
        exact hV ▸ .call hr (ih r h ht)

theorem Stutters.performs (h : Stutters S S' V J R p p' w w') :
    Performs S V p w t ↔ Performs S' V p' w' t :=
  ⟨h.performs_right, h.performs_left⟩

-- ---------------------------------------------------------------------------
-- Reports and loops
-- ---------------------------------------------------------------------------

theorem Stutters.logged {K : List (Event Op Ret) → List (Event Op Ret) → Prop}
    (hK : ∀ v v', J v v' → K v.log v'.log) (h : Stutters S S' V J R p p' w w') :
    Stutters S S' V J (fun a b => R a.1 b.1 ∧ K a.2 b.2) (p.logged w.log) (p'.logged w'.log)
      w w' := by
  induction p generalizing p' w w' with
  | ret a =>
    obtain ⟨hJ, b, rfl, hR⟩ := h
    exact stutters_ret hJ ⟨hR, hK w w' hJ⟩
  | call o k ih =>
    rcases h with ⟨hV, hr, hk⟩ | ⟨o', k', rfl, hJ, hV, hleft, hright⟩
    · exact stutters_silent hV hr fun r hr => ih r (hk r hr)
    · refine stutters_call hJ hV (fun r hr => ?_) fun r' hr' => ?_
      · obtain ⟨r', hr', h⟩ := hleft r hr
        exact ⟨r', hr', ih r h⟩
      · obtain ⟨r, hr, h⟩ := hright r' hr'
        exact ⟨r, hr, ih r h⟩

/-- Both rounds go on, or both leave with related results. -/
def Tied (R : β → γ → Prop) : Control β → Control γ → Prop
  | .again, .again => True
  | .leave b, .leave c => R b c
  | _, _ => False

section Loop

variable {T : β → γ → Prop} {body : Prog Op Ret (Control β)} {body' : Prog Op Ret (Control γ)}
variable {w₀ w₀' : World Op Ret σ}

theorem stutters_loop
    (round : ∀ v v', J v v' → Stutters S S' V J (Tied T) body body' v v') (h : J w w') :
    Stutters S S' V J (Option.Rel T) (body.loop n) (body'.loop n) w w' := by
  induction n generalizing w w' with
  | zero => exact stutters_ret h .none
  | succ n ih =>
    refine (round w w' h).bind fun c c' v v' hc hv => ?_
    cases c with
    | again =>
      cases c' with
      | again => exact ih hv
      | leave b' => exact hc.elim
    | leave b =>
      cases c' with
      | again => exact hc.elim
      | leave b' => exact stutters_ret hv (.some hc)

theorem Head.behind (round : ∀ v v', J v v' → Stutters S S' V J (Tied T) body body' v v')
    (h₀ : J w₀ w₀') (h : Head S' body' w₀' w') : ∃ w, Head S body w₀ w ∧ J w w' := by
  induction h with
  | start => exact ⟨w₀, .start, h₀⟩
  | again _ hround ih =>
    obtain ⟨v, hv, hJ⟩ := ih
    obtain ⟨c, u, hends, hu, hc⟩ := (round v _ hJ).ends hround
    cases c with
    | again => exact ⟨u, .again hv hends, hu⟩
    | leave b => exact hc.elim

theorem Passes.behind (round : ∀ v v', J v v' → Stutters S S' V J (Tied T) body body' v v')
    (h₀ : J w₀ w₀') (h : Passes S' body' w₀' w') : ∃ w, Passes S body w₀ w ∧ J w w' := by
  obtain ⟨v', hhead, hd⟩ := h
  obtain ⟨v, hv, hJ⟩ := hhead.behind round h₀
  obtain ⟨w, hw, hJ⟩ := (round v v' hJ).during hd
  exact ⟨w, ⟨v, hv, hw⟩, hJ⟩

theorem Left.behind (round : ∀ v v', J v v' → Stutters S S' V J (Tied T) body body' v v')
    (h₀ : J w₀ w₀') (h : Left S' body' w₀' c w') :
    ∃ b w, Left S body w₀ b w ∧ J w w' ∧ T b c := by
  obtain ⟨v', hhead, hends⟩ := h
  obtain ⟨v, hv, hJ⟩ := hhead.behind round h₀
  obtain ⟨d, w, hends, hJ, hd⟩ := (round v v' hJ).ends hends
  cases d with
  | again => exact hd.elim
  | leave b => exact ⟨b, w, ⟨v, hv, hends⟩, hJ, hd⟩

end Loop

end Program
