import AlpcResearch.AdvancedServer.Datagrams
import AlpcResearch.Program.Traces
import AlpcResearch.Ua

/-!
# The connection message, old and new

`SrvConnectServer` builds its connection message in a buffer of the maximum
size, with zeros for the body when it is given no data; `UaConnectServer` builds
its own in a block of just the right size and copies the data whatever it is
given. They hand over the same message, and `UaConnectServer` comes to its end,
exactly if there is data to copy or none is asked for.
-/

namespace AlpcResearch.AdvancedServer

open Resource Program Process Ua

def allocates : Assumption
  | _, .allocate .., r => r.pointer ≠ none
  | _, _, _ => True

/-- The caller passes `NULL`, or a pointer to `n` bytes. -/
def Passes (P : Process) (data : PVoid) (n : Nat) : Option (List UInt8) → Prop
  | none => data = none
  | some bs => data ≠ none ∧ P.Holds data bs ∧ bs.length = n

def connectionBody (n : Nat) (arg : Option (List UInt8)) : List UInt8 :=
  arg.getD (List.replicate n 0)

/-- The new function, called in `w`, and the old one, called in `w'`, both come
to their end and hand over the same message, with the header and the body it
should have. -/
structure ConnectsAlike (pl : Platform) (name : String) (n : Nat) (arg : Option (List UInt8))
    (w : World) (data : PVoid) (w' : World) (data' : PVoid) : Prop where
  completes : (uaConnectServer pl name data (.ofNat n)).Progresses (system pl allocates) w
  completes' : (srvConnectServer pl name data' (.ofNat n)).Progresses (system pl allocates) w'
  alike : ∀ r v r' v',
    Ends (system pl allocates) (uaConnectServer pl name data (.ofNat n)) w r v →
    Ends (system pl allocates) (srvConnectServer pl name data' (.ofNat n)) w' r' v' →
    messages (newEvents w v) = messages (newEvents w' v') ∧
      messages (newEvents w v) = [frame pl (connectionBody n arg)]

variable {pl : Platform} {A : Assumption} {w v u : World} {P : Process} {n : Nat} {data : PVoid}
variable {bs : List UInt8} {arg : Option (List UInt8)}

theorem length_connectionBody (h : Passes P data n arg) : (connectionBody n arg).length = n := by
  cases arg with
  | none => simp [connectionBody]
  | some bs => exact h.2.2

theorem Passes.holds (h : Passes P data n arg) (hc : arg ≠ none ∨ n = 0) :
    P.Holds data (connectionBody n arg) := by
  cases arg with
  | none =>
    have hn : n = 0 := hc.resolve_left fun h => h rfl
    exact .inl (by simp [connectionBody, hn])
  | some bs => exact h.2.1

-- ---------------------------------------------------------------------------
-- What is handed over
-- ---------------------------------------------------------------------------

theorem uaConnectServer_hands {m : UInt16} (hshort : pl.sizeofPortMessage + m.toNat ≤ 32767)
    (hd : w.state.Holds data bs) (hn : bs.length = m.toNat)
    (h : Ends (system pl allocates) (uaConnectServer pl name data m) w r v) :
    messages (newEvents w v) = [frame pl bs] := by
  have hfit : pl.sizeofPortMessage + m.toNat < 2 ^ 16 := by omega
  have hmax : 32767 ≤ pl.alpcMaxAllowedMessageLength := by cases pl <;> decide
  rcases ends_withPortMessage.mp h with ⟨hlt, -⟩ | ⟨-, a, ha, h⟩
  · rw [totalLengthOf_fits hfit] at hlt
    omega
  rcases h with ⟨hp, -⟩ | ⟨p, u, hp, hrun, -, rfl⟩
  · exact absurd hp ha.2
  obtain ⟨q, rfl, hq⟩ := newBlock_allocate ha.1 hp
  obtain ⟨c, hc⟩ := layout_buffer ha.1.1
  rw [hc] at hq
  have hstart : Adds Silent w ((system pl allocates).next w (.allocate .crt _) a) :=
    (Adds.refl w).next rfl
  have hhands : Picks handed [frame pl bs] w u := by
    refine safe_ends (I := fun _ => True) (Q := fun _ => Picks handed [frame pl bs] w) ?_ hrun
    refine useBlock_safe hfit hd hn hq hstart (fun _ _ => trivial) fun u hu => ?_
    refine ⟨trivial, fun reply hreply => ⟨trivial, ?_⟩⟩
    have htaken := hu.takes (by omega) hreply.1.2.1
    exact (Picks.of_adds hu.silent).pick (congrArg some htaken)
  exact Picks.eq (hhands.skip rfl)

theorem srvConnectCleanup_silent {client : ClientObject} :
    (srvConnectCleanup client).Uses fun o => ∀ r, Silent ⟨o, r⟩ := by
  refine uses_bind ?_ fun _ => ⟨fun _ => rfl, fun _ => trivial⟩
  unfold unlessNull
  split
  · exact ⟨fun _ => rfl, fun _ => trivial⟩
  · trivial

theorem srvConnectServer_hands {m : Int16} (hm : 0 ≤ m.toInt)
    (hshort : pl.sizeofPortMessage + bs.length ≤ 32767) (hlen : bs.length = m.toInt.toNat)
    (hd : if data = none then bs = List.replicate m.toInt.toNat 0 else w.state.Holds data bs)
    (h : Ends (system pl allocates) (srvConnectServer pl name data m) w r v) :
    messages (newEvents w v) = [frame pl bs] := by
  have hfit : pl.sizeofPortMessage + bs.length ≤ alpcMaxAllowedMessageLength := by
    simp only [alpcMaxAllowedMessageLength]
    omega
  refine (safe_ends (I := fun _ => True) (Q := fun _ => Picks handed [frame pl bs] w) ?_ h).eq
  refine ⟨trivial, fun a₁ ha₁ => ?_⟩
  obtain ⟨p₁, hp₁⟩ := Option.ne_none_iff_exists'.mp ha₁.2
  obtain ⟨q₁, rfl, hq₁⟩ := newBlock_allocate ha₁.1 hp₁
  change Prog.safe _ _ (if a₁.pointer = none then _ else _) _ _
  rw [if_neg ha₁.2]
  refine ⟨trivial, fun a₂ ha₂ => ?_⟩
  obtain ⟨p₂, hp₂⟩ := Option.ne_none_iff_exists'.mp ha₂.2
  obtain ⟨q, rfl, hq⟩ := newBlock_allocate ha₂.1 hp₂
  obtain ⟨c, hc⟩ := layout_buffer ha₂.1.1
  rw [hc] at hq
  change Prog.safe _ _ (if a₂.pointer = none then _ else _) _ _
  rw [if_neg ha₂.2, hp₂, srvInitializePortMessage_eq, bind_assoc]
  let w₂ := (system pl allocates).next ((system pl allocates).next w
    (.allocate .processHeap .clientObject) a₁)
    (.allocate .processHeap (.buffer alpcMaxAllowedMessageLength)) a₂
  have hstart₁ : Adds Silent w ((system pl allocates).next w
      (.allocate .processHeap .clientObject) a₁) := (Adds.refl w).next rfl
  have hstart : Adds Silent w w₂ := hstart₁.next rfl
  have hsupplies : Supplies w₂.state q data m bs := by
    refine hq.supplies ⟨hlen, ?_⟩
    split
    · rename_i hnull
      rwa [if_pos hnull] at hd
    · rename_i hnull
      rw [if_neg hnull] at hd
      exact hq₁.holds hd
  refine safe_bind (safe_mono (initializePortMessage_safe hq.block hfit hm (by omega) hsupplies
    fun _ _ => trivial) fun _ u hu => ?_)
  refine ⟨trivial, fun reply hreply => ?_⟩
  have htaken := takes_framed (by omega) hu.1.block hreply.1.2.1
  have hsent : Picks handed [frame pl bs] w ((system pl allocates).next u (.alpcConnectPort _) reply) :=
    (Picks.of_adds (hstart.trans hu.2)).pick (congrArg some htaken)
  change Prog.safe _ _ (if (!ntSuccess reply.status) = true then _ else _) _ _
  split
  · exact hsent.run srvConnectCleanup_silent
  · exact ⟨trivial, hsent⟩

-- ---------------------------------------------------------------------------
-- Coming to the end
-- ---------------------------------------------------------------------------

theorem allocate_answered : ∃ r, (system pl allocates).legal w (.allocate api layout) r := by
  obtain ⟨q, hq⟩ := w.state.heap.exists_fresh
  refine ⟨⟨some ⟨q, 0⟩, .zeroed layout⟩, ⟨?_, ?_, fun _ => rfl, ?_⟩, Option.some_ne_none _⟩
  · cases layout <;> rfl
  · cases layout with
    | buffer => exact fun _ _ => rfl
    | attributes | portContext | serverObject | olderServerObject | clientObject | kaClientObject => trivial
  · intro p hp
    cases hp
    exact ⟨rfl, hq⟩

theorem connect_answered : ∃ r, (system pl allocates).legal w (.alpcConnectPort a) r :=
  ⟨⟨statusUnsuccessful, none, 0, Environment.takenFrom w.state a.connectionMessage, []⟩,
    ⟨rfl, Environment.takes_takenFrom, Nat.zero_le _⟩, trivial⟩

theorem uaConnectServer_progresses {m : UInt16} (hc : m.toNat = 0 ∨ data ≠ none) :
    (uaConnectServer pl name data m).Progresses (system pl allocates) w := by
  unfold uaConnectServer
  rw [withPortMessage_eq]
  split
  · trivial
  refine ⟨allocate_answered, fun r hr => ?_⟩
  cases hp : r.pointer with
  | none => exact absurd hp hr.2
  | some p =>
    simp only [hp]
    have hp' : some p ≠ none := Option.some_ne_none p
    refine progresses_bind ?_ fun a v _ => ⟨⟨(), trivial, trivial⟩, fun _ _ => trivial⟩
    refine ⟨⟨(), .inr hp', trivial⟩, fun _ _ => ⟨⟨(), hp', trivial⟩, fun _ _ => ⟨⟨(), hp', trivial⟩,
      fun _ _ => ⟨⟨(), ?_, trivial⟩, fun _ _ => ⟨connect_answered, fun _ _ => trivial⟩⟩⟩⟩⟩
    exact hc.imp_right fun hd => ⟨Option.some_ne_none _, hd⟩

/-- With no data to copy the copy cannot be made. -/
theorem uaConnectServer_stuck {m : UInt16} (hshort : pl.sizeofPortMessage + m.toNat ≤ 32767)
    (hm : m.toNat ≠ 0) :
    ¬ (uaConnectServer pl name none m).Progresses (system pl allocates) w := by
  intro h
  have hmax : 32767 ≤ pl.alpcMaxAllowedMessageLength := by cases pl <;> decide
  have hfit : ¬ pl.alpcMaxAllowedMessageLength < (totalLengthOf pl m).toNat := by
    rw [totalLengthOf_fits (by omega)]
    omega
  unfold uaConnectServer at h
  rw [withPortMessage_eq, if_neg hfit] at h
  obtain ⟨⟨r, hr⟩, h⟩ := h
  obtain ⟨p, hp⟩ := Option.ne_none_iff_exists'.mp hr.2
  have h := h r hr
  simp only [hp] at h
  have hp' : some p ≠ none := Option.some_ne_none p
  have h := h.2 () ⟨.inr hp', trivial⟩
  have h := h.2 () ⟨hp', trivial⟩
  have h := h.2 () ⟨hp', trivial⟩
  obtain ⟨_, hlegal, -⟩ := h.1
  rcases hlegal with hzero | ⟨-, hnull⟩
  · exact hm hzero
  · exact hnull rfl

theorem initializePortMessage_progresses {m : Int16} {p : Ptr} :
    (initializePortMessage pl (some p) data m).Progresses (system pl allocates) w := by
  have hp : some p ≠ none := Option.some_ne_none p
  rw [initializePortMessage_eq]
  refine ⟨⟨(), .inr hp, trivial⟩, fun _ _ => ⟨⟨(), hp, trivial⟩, fun _ _ => ⟨⟨(), hp, trivial⟩,
    fun _ _ => ?_⟩⟩⟩
  split
  · rename_i hd
    exact ⟨⟨(), .inr ⟨Option.some_ne_none _, hd⟩, trivial⟩, fun _ _ => trivial⟩
  · trivial

theorem srvConnectCleanup_progresses {client : ClientObject} :
    (srvConnectCleanup client).Progresses (system pl allocates) w := by
  refine progresses_bind ?_ fun _ v _ => ⟨⟨(), trivial, trivial⟩, fun _ _ => trivial⟩
  unfold unlessNull
  split
  · exact ⟨⟨(), trivial, trivial⟩, fun _ _ => trivial⟩
  · trivial

theorem srvConnectServer_progresses {m : Int16} :
    (srvConnectServer pl name data m).Progresses (system pl allocates) w := by
  refine ⟨allocate_answered, fun r hr => ?_⟩
  change Prog.Progresses _ (if r.pointer = none then _ else _) _
  rw [if_neg hr.2]
  refine ⟨allocate_answered, fun r hr => ?_⟩
  obtain ⟨p, hp⟩ := Option.ne_none_iff_exists'.mp hr.2
  change Prog.Progresses _ (if r.pointer = none then _ else _) _
  rw [if_neg hr.2, hp, srvInitializePortMessage_eq, bind_assoc]
  refine progresses_bind initializePortMessage_progresses fun _ v _ => ?_
  refine ⟨connect_answered, fun reply _ => ?_⟩
  change Prog.Progresses _ (if (!ntSuccess reply.status) = true then _ else _) _
  split
  · exact srvConnectCleanup_progresses
  · trivial

-- ---------------------------------------------------------------------------
-- The comparison
-- ---------------------------------------------------------------------------

/-- For all data, all lengths and all prior contents of both heaps. -/
theorem connects_alike_iff {w' : World} {data' : PVoid} (hshort : pl.sizeofPortMessage + n ≤ 32767)
    (hd : Passes w.state data n arg) (hd' : Passes w'.state data' n arg) :
    ConnectsAlike pl name n arg w data w' data' ↔ arg ≠ none ∨ n = 0 := by
  have hm : (UInt16.ofNat n).toNat = n := UInt16.toNat_ofNat_of_lt' (by simp only [UInt16.size]; omega)
  have hm' : (Int16.ofNat n).toInt = n := Int16.toInt_ofNat_of_lt (by omega)
  have hlen := length_connectionBody hd
  constructor
  · intro h
    by_contra hc
    obtain ⟨hnone, hn⟩ := not_or.mp hc
    obtain rfl : arg = none := not_not.mp hnone
    obtain rfl : data = none := hd
    exact uaConnectServer_stuck (by rw [hm]; exact hshort) (by rw [hm]; exact hn) h.completes
  · intro hc
    refine ⟨uaConnectServer_progresses ?_, srvConnectServer_progresses, fun r v r' v' h h' => ?_⟩
    · rw [hm]
      cases arg with
      | none => exact .inl (hc.resolve_left fun h => h rfl)
      | some bs => exact .inr hd.1
    · have hnew := uaConnectServer_hands (by rw [hm]; exact hshort) (hd.holds hc) (by rw [hm, hlen]) h
      have hold : messages (newEvents w' v') = [frame pl (connectionBody n arg)] := by
        refine srvConnectServer_hands (by omega) (by omega) (by rw [hm', hlen]; rfl) ?_ h'
        split
        · rename_i hnull
          cases arg with
          | none => simp [connectionBody, hm']
          | some bs => exact absurd hnull hd'.1
        · exact hd'.holds hc
      exact ⟨hnew.trans hold.symm, hnew⟩

theorem clientWith_passes : Passes clientWith.state (some ⟨⟨1, 1⟩, 0⟩) 1 (some [7]) :=
  ⟨Option.some_ne_none _, .inr ⟨_, 1, fun _ => 7, rfl, rfl, by decide, rfl⟩, rfl⟩

/-- One byte of data. -/
theorem connects_alike_iff_byte : ConnectsAlike .x64 "port" 1 (some [7]) clientWith
    (some ⟨⟨1, 1⟩, 0⟩) clientWith (some ⟨⟨1, 1⟩, 0⟩) :=
  (connects_alike_iff (by decide) clientWith_passes clientWith_passes).mpr
    (.inl (Option.some_ne_none _))

/-- No data, and a length of one byte: `SrvConnectServer` sends a zero,
`UaConnectServer` reads through `NULL`. -/
theorem connects_alike_null :
    ¬ ConnectsAlike .x64 "port" 1 none clientWith none clientWith none ∧
    Passes clientWith.state none 1 none :=
  ⟨fun h => uaConnectServer_stuck (by decide) (by decide) h.completes, rfl⟩

end AlpcResearch.AdvancedServer
