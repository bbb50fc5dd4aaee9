import AlpcResearch.Sessions.Invariant

/-!
# Disconnect messages

Each disconnect message names a connection. `NamedOnce` says of a history that
none has been named twice, which a kernel that sends one message for each
connection ensures (`namedOnce_step`). A second message for a connection meets
a context that is gone (`closeContext_faulty`).
-/

namespace AlpcResearch

open Resource Program Process

def NamedOnce (pl : Platform) (w : World) : Prop := (ledger pl w.log).disconnected.Nodup

/-- Since `w₀` the program has used a block it had freed. -/
def Faulty (w₀ w : World) : Prop :=
  ∃ fs p, w.state.faults = fs ++ w₀.state.faults ∧ .useAfterFree p ∈ fs

variable {pl : Platform} {A : Assumption} {w₀ w v : World}

theorem Ledger.add_disconnected (pl : Platform) (L : Ledger) (e : Ev) :
    ∃ new, (L.add pl e).disconnected = new ++ L.disconnected := by
  obtain ⟨o, r⟩ := e
  cases o with
  | alpcSendWaitReceivePort a =>
    simp only [Ledger.add]
    split
    · by_cases hk : isDisconnect (kindOf pl r.written) = true
      · exact ⟨[r.portContext], Ledger.receive_disconnect hk⟩
      · exact ⟨[], Ledger.receive_other hk⟩
    · exact ⟨[], rfl⟩
  | alpcAcceptConnectPort a =>
    simp only [Ledger.add]
    split
    · split <;> exact ⟨[], rfl⟩
    · exact ⟨[], rfl⟩
  | _ => exact ⟨[], rfl⟩

theorem namedOnce_of_next {o : Op} {r : Ret o} (h : NamedOnce pl ((system pl A).next v o r)) :
    NamedOnce pl v := by
  obtain ⟨new, hnew⟩ := (ledger pl v.log).add_disconnected pl ⟨o, r⟩
  have h : ((ledger pl v.log).add pl ⟨o, r⟩).disconnected.Nodup := h
  rw [hnew] at h
  exact h.of_append_right

theorem Faulty.next {o : Op} {r : Ret o} (h : Faulty w₀ v) :
    Faulty w₀ ((system pl A).next v o r) := by
  obtain ⟨fs, p, hfs, hp⟩ := h
  refine ⟨v.state.faultsOf pl o r ++ fs, p, ?_, List.mem_append_right _ hp⟩
  simp [system, faults_effect, hfs]

/-- `J` as long as no connection has been named twice, a fault from then on. -/
def UntilNamedTwice (pl : Platform) (w₀ : World) (J : World → Prop) (w : World) : Prop :=
  (NamedOnce pl w → J w) ∧ (¬ NamedOnce pl w → Faulty w₀ w)

theorem UntilNamedTwice.once {J : World → Prop} (hn : NamedOnce pl w) (h : J w) :
    UntilNamedTwice pl w₀ J w :=
  ⟨fun _ => h, fun hn' => absurd hn hn'⟩

theorem faulty_safe {p : Proc α} {I : World → Prop} {Q : α → World → Prop}
    (hn : ¬ NamedOnce pl w) (hf : Faulty w₀ w)
    (hI : ∀ v, ¬ NamedOnce pl v → I v)
    (hQ : ∀ a v, ¬ NamedOnce pl v → Faulty w₀ v → Q a v) : p.safe (system pl A) I Q w :=
  safe_of_step (K := fun v => ¬ NamedOnce pl v ∧ Faulty w₀ v)
    (fun _ _ _ _ h => ⟨fun hn' => h.1 (namedOnce_of_next hn'), h.2.next⟩)
    (fun v h => hI v h.1) (fun a v h => hQ a v h.1 h.2) ⟨hn, hf⟩

theorem namedOnce_congr (h : ledger pl v.log = ledger pl w.log) :
    NamedOnce pl v ↔ NamedOnce pl w := by
  simp [NamedOnce, h]

/-- Tearing down a connection whose context is gone uses that context. -/
theorem closeContext_faulty {I : World → Prop} {Q : NtStatus → World → Prop}
    (hq : v.state.heap.get? q = none) (hn : ¬ NamedOnce pl v)
    (hf : v.state.faults = w₀.state.faults) (hI : ∀ v, ¬ NamedOnce pl v → I v)
    (hQ : ∀ a v, ¬ NamedOnce pl v → Faulty w₀ v → Q a v) :
    (closeContext api (some ⟨q, 0⟩)).safe (system pl A) I Q v := by
  refine ⟨hI v hn, fun y _ => ?_⟩
  have hfaulty : Faulty w₀
      ((system pl A).next v (.getCommunicationPortHandle (some ⟨q, 0⟩)) y) := by
    refine ⟨[.useAfterFree ⟨q, 0⟩], ⟨q, 0⟩, ?_, List.mem_singleton_self _⟩
    simp [system, faults_effect, faultsOf, structFault, layoutOf_none.mpr hq, hf]
  exact faulty_safe (fun hn' => hn (namedOnce_of_next hn')) hfaulty hI hQ

-- ---------------------------------------------------------------------------
-- What the kernel promises
-- ---------------------------------------------------------------------------

theorem once_any {w : World} {o : Op} {r : Ret o} {may : Ledger → UInt8 → PVoid → Bool}
    (h : sessionKernel pl may w o r) : sessionKernel pl anyDisconnect w o r := by
  cases o with
  | alpcSendWaitReceivePort a => exact fun hc => ⟨(h hc).1, rfl⟩
  | alpcGetMessageAttribute => exact h
  | _ => trivial

/-- One disconnect message for each connection at most. -/
theorem namedOnce_step (hA : ∀ w o r, A w o r → sessionKernel pl oncePerConnection w o r) (v : World)
    (o : Op) (r : Ret o) (hr : (system pl A).legal v o r) (h : NamedOnce pl v) :
    NamedOnce pl ((system pl A).next v o r) := by
  have hassume := hA v o r hr.2
  cases o with
  | alpcSendWaitReceivePort a =>
    simp only [NamedOnce, next_log, ledger, Ledger.add]
    split
    · rename_i hreceive
      by_cases hk : isDisconnect (kindOf pl r.written) = true
      · rw [Ledger.receive_disconnect hk]
        have hnew := (hassume (by simpa [hk] using hreceive)).2
        exact List.nodup_cons.mpr ⟨by simpa [oncePerConnection] using hnew, h⟩
      · rw [Ledger.receive_other hk]
        exact h
    · exact h
  | alpcAcceptConnectPort a =>
    simp only [NamedOnce, next_log, ledger, Ledger.add]
    split
    · split <;> exact h
    · exact h
  | _ => exact h

end AlpcResearch
