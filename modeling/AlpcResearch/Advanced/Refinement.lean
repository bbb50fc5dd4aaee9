import AlpcResearch.Advanced.Copies
import AlpcResearch.Ka.Refinement

/-!
# The library against the user-mode port

Unlike the kernel port, `AdvancedLocalProcedureCall.c` starts the worker on
the server it returns. Its service refines the one of `ua.c` under every
script.
-/

namespace AlpcResearch.Advanced

open Resource Program Process Ua Ka

def advanced (pl : Platform) : ServerSide := ⟨srvCreateServer pl, srvServerWorker pl⟩

variable {pl : Platform} {A : Assumption} {w w' v : World} {server : ServerObject}

theorem srvServerWorker_round : ∀ v v', v' = renamed v →
    Stutters (system pl (reading A)) (system pl A) onlooker (fun v v' => v' = renamed v)
      (Tied fun _ _ => True) (uaServerWorker pl server) (srvServerWorker pl server) v v' := by
  rintro v _ rfl
  exact srvServerWorker_behind

theorem thread_behind (n : Nat) (context : Option ServerObject) :
    Behind pl A (Option.Rel fun _ _ => True) ((userMode pl).thread pl n context)
      ((advanced pl).thread pl n context) w := by
  cases context with
  | none => exact behind_shared trivial fun _ _ => behind_ret .none
  | some server => exact stutters_loop srvServerWorker_round rfl

variable (pl A) in
theorem serve_behind (n : Nat) (portName : String) (f g k : Procedure) (P : Process) :
    Behind pl A (Option.Rel fun _ _ => True)
      ((userMode pl).serve pl n ((userMode pl).create portName f g k))
      ((advanced pl).serve pl n ((advanced pl).create portName f g k)) ⟨P, []⟩ := by
  have hcreate : Behind pl A Eq (uaCreateServer pl portName f g k)
      (srvCreateServer pl portName f g k) ⟨P, []⟩ := srvCreateServer_behind portName f g k
  have hlogged := hcreate.logged (K := fun l l' => startedOn l' = startedOn l) <| by
    rintro v _ rfl
    exact startedOn_renamed v
  refine Behind.bind hlogged ?_
  rintro ⟨r, log⟩ ⟨r', log'⟩ v ⟨-, hstarted : startedOn log' = startedOn log⟩
  simp only [hstarted]
  cases startedOn log with
  | none => exact behind_ret .none
  | some context => exact thread_behind n context

theorem srvCreateServer_ends (h : Ends (system pl A) (srvCreateServer pl portName f g k) (renamed w) r v) :
    ∃ u, Ends (system pl (reading A)) (uaCreateServer pl portName f g k) w r u ∧ v = renamed u := by
  obtain ⟨r', u, hu, hv, rfl⟩ := (srvCreateServer_behind portName f g k).ends h
  exact ⟨u, hu, hv⟩

variable (pl A w portName f g k) in
theorem exists_created_iff (r : Option ServerObject) :
    (∃ v, Ends (system pl A) (srvCreateServer pl portName f g k) (renamed w) r v) ↔
      ∃ v, Ends (system pl (reading A)) (uaCreateServer pl portName f g k) w r v := by
  constructor
  · rintro ⟨v, h⟩
    obtain ⟨u, hu, -⟩ := srvCreateServer_ends h
    exact ⟨u, hu⟩
  · rintro ⟨v, h⟩
    obtain ⟨r', v', h', -, rfl⟩ := (srvCreateServer_behind portName f g k).ends_right h
    exact ⟨v', h'⟩

/-- Whatever the environment does, the library serves as `ua.c` does. -/
theorem advanced_refines (s : Script) (portName : String) (f g k : Procedure) (P : Process) :
    Refines pl s.follows (advanced pl) (userMode pl) portName f g k ⟨P, []⟩ where
  actions t := by
    refine exists_congr fun n => ?_
    have h := (serve_behind pl s.follows n portName f g k P).performs (t := t)
    rw [reading_follows] at h
    exact h.symm
  created := by
    have h := fun server => exists_created_iff pl s.follows ⟨P, []⟩ portName f g k (some server)
    rw [reading_follows] at h
    exact exists_congr h
  failed := by
    have h := exists_created_iff pl s.follows ⟨P, []⟩ portName f g k none
    rwa [reading_follows] at h
  runsOnServer server v h := by
    obtain ⟨u, hu, rfl⟩ := srvCreateServer_ends (w := ⟨P, []⟩) h
    rw [reading_follows] at hu
    have hstarted : startedOn u.log = some (some { server with serverThreadHandle := none }) :=
      (uaCreateServer_outcome rfl hu).2
    exact ⟨_, (startedOn_renamed u).trans hstarted, rfl⟩

end AlpcResearch.Advanced
