import AlpcResearch.Channel.Sessions
import AlpcResearch.Rpc.Parties

/-!
# What is sent and what comes

Whatever a client runs, the port has taken from it what it has sent, less what
was refused, in the order sent; and the server receives the messages the port
has taken, each of them once (`Conveys`). Of clients that keep to a script the
port has taken messages of that script.
-/

namespace AlpcResearch.Channel

open Resource Program Process
open Rpc (Party isSync kindSent arrivalOf refusal refusal_legal)

/-- A message under way: the type the server gets it under, and its bytes. -/
abbrev Parcel := UInt8 × List UInt8

/-- What a client has handed over to be sent. -/
def offerOf : Ev → Option Parcel
  | ⟨.alpcSendWaitReceivePort a, r⟩ =>
    if a.sendMessage = none then none else some (kindSent a, r.taken)
  | _ => none

def acceptedOf : Ev → Option Parcel
  | ⟨.alpcSendWaitReceivePort a, r⟩ =>
    if a.sendMessage ≠ none ∧ ntSuccess r.status = true then some (kindSent a, r.taken) else none
  | _ => none

def offers (log : List Ev) : List Parcel := (log.filterMap offerOf).reverse

def acceptances (log : List Ev) : List Parcel := (log.filterMap acceptedOf).reverse

def Packet.parcel {ι : Type} (m : Packet ι) : Parcel := (m.kind, m.bytes)

/-- Neither a connection request nor the notice of an end. -/
def Packet.isSent {ι : Type} (m : Packet ι) : Bool :=
  m.kind = lpcRequest || m.kind = lpcDatagram

def OfScripts {κ : Type} (scripts : κ → List Parcel) (parcels : List Parcel) : Prop :=
  ∀ p ∈ parcels, ∃ c, p ∈ scripts c

namespace OfScripts

variable {κ : Type} {scripts : κ → List Parcel} {parcels : List Parcel}

theorem nil : OfScripts scripts [] := nofun

theorem run (h : OfScripts scripts parcels) (c : κ) (n : Nat) :
    OfScripts scripts (parcels ++ (scripts c).take n) := by
  intro p hp
  rcases List.mem_append.mp hp with hp | hp
  · exact h p hp
  · exact ⟨c, List.mem_of_mem_take hp⟩

end OfScripts

variable {ι : Type} [DecidableEq ι] {pl : Platform} {site : Site ι} {w : NetWorld ι}

/-- What a call has given to the port that has not returned. -/
def pendingOf : Option (Op × Ticket ι) → List Parcel
  | some (.alpcSendWaitReceivePort a, .posted m) =>
    if a.sendMessage = none then [] else [(kindSent a, m.taken)]
  | _ => []

namespace Net

def sent (N : Net ι) (i : ι) : List Parcel :=
  (N.packets.filter fun m => m.sender = i && m.isSent).map Packet.parcel

def pending (N : Net ι) (i : ι) : List Parcel := pendingOf (N.inCall (.client i))

end Net

/-- `script` says which messages a client may have handed over. -/
structure Conveys (script : List Parcel → Prop) (w : NetWorld ι) : Prop where
  arrivals : (view .server w).log.filterMap arrivalOf = w.state.received.map Prod.snd
  offered : ∀ i, (w.state.sent i).Sublist (offers (view (.client i) w).log ++ w.state.pending i)
  accepted : ∀ i,
    (acceptances (view (.client i) w).log ++ w.state.pending i).Sublist (w.state.sent i)
  scripted : ∀ i, ∃ parcels, (w.state.sent i).Sublist parcels ∧ script parcels

variable {script : List Parcel → Prop}

-- ---------------------------------------------------------------------------
-- Histories
-- ---------------------------------------------------------------------------

theorem offers_cons (e : Ev) (log : List Ev) :
    offers (e :: log) = offers log ++ (offerOf e).toList := by
  simp only [offers, List.filterMap_cons]
  cases offerOf e <;> simp

theorem offers_of_adds {u v : World} (h : Adds (fun e => offerOf e = none) u v) :
    offers v.log = offers u.log := by
  obtain ⟨new, hlog, hnew⟩ := h
  simp [offers, hlog, List.filterMap_eq_nil_iff.mpr hnew]

theorem acceptances_cons (e : Ev) (log : List Ev) :
    acceptances (e :: log) = acceptances log ++ (acceptedOf e).toList := by
  simp only [acceptances, List.filterMap_cons]
  cases acceptedOf e <;> simp

omit [DecidableEq ι] in
theorem pendingOf_mute {o : Op} (ho : ∀ a, o ≠ .alpcSendWaitReceivePort a) (t : Ticket ι) :
    pendingOf (some (o, t)) = [] := by
  cases o with
  | alpcSendWaitReceivePort a => exact absurd rfl (ho a)
  | _ => rfl

theorem acceptedOf_mute {o : Op} (ho : ∀ a, o ≠ .alpcSendWaitReceivePort a) (r : Ret o) :
    acceptedOf ⟨o, r⟩ = none := by
  cases o with
  | alpcSendWaitReceivePort a => exact absurd rfl (ho a)
  | _ => rfl

/-- What the port has taken is what the call returns as taken; it succeeds only
if the port has. -/
theorem pendingOf_brings {i : ι} {a : SendWaitReceive} {r : Reply} {t : Ticket ι} {N : Net ι}
    (h : N.Brings pl site t (.client i) (.alpcSendWaitReceivePort a) r) :
    (pendingOf (some (.alpcSendWaitReceivePort a, t))).Sublist
        (offerOf ⟨.alpcSendWaitReceivePort a, r⟩).toList ∧
      (acceptedOf ⟨.alpcSendWaitReceivePort a, r⟩).toList.Sublist
        (pendingOf (some (.alpcSendWaitReceivePort a, t))) := by
  obtain ⟨htaken, hposted⟩ := h
  cases t with
  | posted m =>
    simp only [pendingOf, offerOf, acceptedOf, htaken m rfl]
    by_cases hm : a.sendMessage = none
    · simp [hm]
    · by_cases hs : ntSuccess r.status = true <;> simp [hm, hs]
  | nothing | answered =>
    have hs : ¬ ntSuccess r.status = true := fun hs => by
      obtain ⟨⟨m, hm⟩, -⟩ := hposted hs
      cases hm
    simp [pendingOf, acceptedOf, hs]

-- ---------------------------------------------------------------------------
-- Calls are issued
-- ---------------------------------------------------------------------------

theorem Net.sent_congr {N N' : Net ι} (h : N'.packets = N.packets) (i : ι) :
    N'.sent i = N.sent i := by rw [sent, h, sent]

theorem Net.sent_enqueue (N : Net ι) (m : Packet ι) (i : ι) :
    (N.enqueue m).sent i = N.sent i ++ if m.sender = i ∧ m.isSent = true then [m.parcel] else [] := by
  rw [sent, packets_enqueue, List.filter_append, List.map_append, ← sent]
  congr 1
  by_cases hi : m.sender = i <;> by_cases hm : m.isSent = true <;> simp [hi, hm]

/-- A client's call gives the port the message it sends, if anything. -/
theorem Net.sent_post {i : ι} {o : Op} {t : Ticket ι} {N : Net ι}
    (h : N.Accepts pl site (.client i) o t) (j : ι) :
    (N.post pl (.client i) o t).sent j =
      N.sent j ++ if i = j then pendingOf (some (o, t)) else [] := by
  have hmute : ∀ m : Packet ι, m.isSent = false → (N.enqueue m).sent j = N.sent j ++ [] := by
    intro m hm
    simp [sent_enqueue, hm]
  cases t with
  | nothing =>
    have hpending : pendingOf (some (o, (.nothing : Ticket ι))) = [] := by cases o <;> rfl
    have hpost : N.post pl (.client i) o .nothing = N := by cases o <;> rfl
    simp [hpost, hpending]
  | answered k => cases o <;> exact h.elim
  | posted m =>
    cases o with
    | alpcConnectPort a =>
      rw [pendingOf_mute (by simp), ite_self]
      exact hmute ⟨i, lpcConnectionRequest, m.messageId, m.taken, none⟩ rfl
    | alpcSendWaitReceivePort a =>
      obtain ⟨hne, -, -, hport, -⟩ := h
      obtain ⟨c, hport⟩ := Option.ne_none_iff_exists'.mp hport
      have hpost : N.post pl (.client i) (.alpcSendWaitReceivePort a) (.posted m) =
          N.enqueue ⟨i, kindSent a, m.messageId, m.taken, c.context⟩ := by
        simp only [Net.post, Net.send, hport, Net.enqueue]
      have hkind : Packet.isSent (ι := ι) ⟨i, kindSent a, m.messageId, m.taken, c.context⟩ = true := by
        rcases kindSent_cases a with hk | hk <;> simp [Packet.isSent, hk]
      simp [hpost, sent_enqueue, hkind, Packet.parcel, pendingOf, hne]
    | close x =>
      obtain ⟨c, hport⟩ := Option.ne_none_iff_exists'.mp h.2
      have hpost : N.post pl (.client i) (.close x) (.posted m) = _ := close_mapped hport
      rw [pendingOf_mute (by simp), ite_self, hpost]
      exact hmute ⟨i, lpcPortClosed, m.messageId, m.taken, c.context⟩ rfl
    | _ => exact h.elim

theorem conveys_issue_client {i : ι} {o : Op} {t : Ticket ι} (h : Conveys script w)
    (hfits : ∀ a taken, o = .alpcSendWaitReceivePort a →
      (w.state.process (.client i)).Takes a.sendMessage taken →
        script (offers (⟨.alpcSendWaitReceivePort a, refusal taken⟩ :: (view (.client i) w).log)))
    (hl : (network pl site).legal w (.client i, .issue o) t) :
    Conveys script ((network pl site).next w (.client i, .issue o) t) := by
  obtain ⟨hidle, hl⟩ := hl
  let w' := (network pl site).next w (.client i, .issue o) t
  have hsent : ∀ j, w'.state.sent j =
      w.state.sent j ++ if i = j then pendingOf (some (o, t)) else [] := Net.sent_post hl
  have hnone : w.state.pending i = [] := by rw [Net.pending, hidle]; rfl
  have hself : w'.state.pending i = pendingOf (some (o, t)) := by
    rw [Net.pending, issue_inCall, Function.update_self]
  have hother : ∀ j, j ≠ i → w'.state.pending j = w.state.pending j := fun j hj => by
    rw [Net.pending, issue_inCall, Function.update_of_ne (by simpa using hj), ← Net.pending]
  constructor
  case arrivals =>
    rw [view_issue]
    have hreceived : w'.state.received = w.state.received := by
      cases o with
      | alpcSendWaitReceivePort a =>
        cases t with
        | posted m => simp only [w', next_state, network, Net.effectPhase, Net.post, Net.send]; split <;> rfl
        | nothing | answered => rfl
      | close x =>
        cases t with
        | posted m => simp only [w', next_state, network, Net.effectPhase, Net.post, Net.close]; split <;> rfl
        | nothing | answered => rfl
      | _ => cases t <;> rfl
    exact hreceived ▸ h.arrivals
  case offered =>
    intro j
    rw [view_issue, hsent]
    by_cases hj : j = i
    · subst hj
      have hbefore := h.offered j
      rw [hnone, List.append_nil] at hbefore
      rw [if_pos rfl, hself]
      exact hbefore.append_right _
    · rw [if_neg (Ne.symm hj), List.append_nil, hother j hj]
      exact h.offered j
  case accepted =>
    intro j
    rw [view_issue, hsent]
    by_cases hj : j = i
    · subst hj
      have hbefore := h.accepted j
      rw [hnone, List.append_nil] at hbefore
      rw [if_pos rfl, hself]
      exact hbefore.append_right _
    · rw [if_neg (Ne.symm hj), List.append_nil, hother j hj]
      exact h.accepted j
  case scripted =>
    intro j
    rw [hsent]
    by_cases hj : i = j ∧ pendingOf (some (o, t)) ≠ []
    · obtain ⟨rfl, hpending⟩ := hj
      -- what is given to the port now has been found to keep to the script
      obtain ⟨a, m, rfl, rfl⟩ : ∃ a m, o = .alpcSendWaitReceivePort a ∧ t = .posted m := by
        unfold pendingOf at hpending
        split at hpending
        · rename_i a m he
          cases he
          exact ⟨a, m, rfl, rfl⟩
        · exact absurd rfl hpending
      obtain ⟨hne, htakes, -⟩ := hl
      refine ⟨_, ?_, hfits a m.taken rfl htakes⟩
      have hbefore := h.offered i
      rw [hnone, List.append_nil] at hbefore
      rw [if_pos rfl, offers_cons]
      simp only [pendingOf, offerOf, hne, if_false, refusal, Option.toList_some]
      exact hbefore.append_right _
    · obtain ⟨parcels, hsub, hscript⟩ := h.scripted j
      refine ⟨parcels, ?_, hscript⟩
      have hnothing : (if i = j then pendingOf (some (o, t)) else []) = [] := by
        split
        · rename_i he
          exact Classical.byContradiction fun hne => hj ⟨he, hne⟩
        · rfl
      rwa [hnothing, List.append_nil]

/-- What the server does leaves what the clients have sent alone. -/
theorem conveys_issue_server {o : Op} {t : Ticket ι} (h : Conveys script w)
    (hl : (network pl site).legal w (.server, .issue o) t) :
    Conveys script ((network pl site).next w (.server, .issue o) t) := by
  let w' := (network pl site).next w (.server, .issue o) t
  have hpost : w'.state.packets = w.state.packets ∧ w'.state.received = w.state.received := by
    obtain ⟨-, hl⟩ := hl
    cases o with
    | alpcSendWaitReceivePort a => cases t <;> exact ⟨rfl, rfl⟩
    | alpcAcceptConnectPort a => cases t <;> exact ⟨rfl, rfl⟩
    | _ => exact ⟨rfl, rfl⟩
  have hsent : ∀ j, w'.state.sent j = w.state.sent j := Net.sent_congr hpost.1
  have hpending : ∀ j, w'.state.pending j = w.state.pending j := fun j => by
    rw [Net.pending, issue_inCall, Function.update_of_ne (by simp), ← Net.pending]
  refine ⟨?_, fun j => ?_, fun j => ?_, fun j => ?_⟩
  · rw [view_issue, hpost.2]
    exact h.arrivals
  · rw [view_issue, hsent, hpending]
    exact h.offered j
  · rw [view_issue, hsent, hpending]
    exact h.accepted j
  · rw [hsent]
    exact h.scripted j

-- ---------------------------------------------------------------------------
-- Calls return
-- ---------------------------------------------------------------------------

theorem conveys_await_client {i : ι} {o : Op} {r : Ret o} (h : Conveys script w)
    (hl : (network pl site).legal w (.client i, .await o) r) :
    Conveys script ((network pl site).next w (.client i, .await o) r) := by
  obtain ⟨-, t, hcall, hbrings⟩ := hl
  let w' := (network pl site).next w (.client i, .await o) r
  have hpackets : w'.state.packets = w.state.packets ∧
      w'.state.received = w.state.received := by cases o <;> exact ⟨rfl, rfl⟩
  have hsent : ∀ j, w'.state.sent j = w.state.sent j := Net.sent_congr hpackets.1
  have hself : w'.state.pending i = [] := by
    rw [Net.pending, await_inCall, Function.update_self]
    rfl
  have hother : ∀ j, j ≠ i → w'.state.pending j = w.state.pending j := fun j hj => by
    rw [Net.pending, await_inCall, Function.update_of_ne (by simpa using hj), ← Net.pending]
  have hview : (view (.client i) w').log = ⟨o, r⟩ :: (view (.client i) w).log := by
    rw [view_await (.client i) w o r anyKernel, next_log]
  have hbetween : (pendingOf (some (o, t))).Sublist (offerOf ⟨o, r⟩).toList ∧
      (acceptedOf ⟨o, r⟩).toList.Sublist (pendingOf (some (o, t))) := by
    by_cases ho : ∃ a, o = .alpcSendWaitReceivePort a
    · obtain ⟨a, rfl⟩ := ho
      exact pendingOf_brings hbrings
    · have ho : ∀ a, o ≠ .alpcSendWaitReceivePort a := fun a he => ho ⟨a, he⟩
      rw [pendingOf_mute ho, acceptedOf_mute ho]
      exact ⟨List.nil_sublist _, .refl _⟩
  have hpending : w.state.pending i = pendingOf (some (o, t)) := by rw [Net.pending, hcall]
  refine ⟨?_, fun j => ?_, fun j => ?_, fun j => ?_⟩
  · rw [view_other (by simp), hpackets.2]
    exact h.arrivals
  · rw [hsent]
    by_cases hj : j = i
    · subst hj
      rw [hview, hself, List.append_nil, offers_cons]
      exact (h.offered j).trans (hpending ▸ hbetween.1.append_left _)
    · rw [view_other (by simpa using hj), hother j hj]
      exact h.offered j
  · rw [hsent]
    by_cases hj : j = i
    · subst hj
      rw [hview, hself, List.append_nil, acceptances_cons]
      exact .trans (hpending ▸ hbetween.2.append_left _) (h.accepted j)
    · rw [view_other (by simpa using hj), hother j hj]
      exact h.accepted j
  · rw [hsent]
    exact h.scripted j

theorem conveys_await_server {o : Op} {r : Ret o} (h : Conveys script w)
    (hl : (network pl site).legal w (.server, .await o) r) :
    Conveys script ((network pl site).next w (.server, .await o) r) := by
  obtain ⟨-, t, -, hbrings⟩ := hl
  let w' := (network pl site).next w (.server, .await o) r
  have hview : (view .server w').log = ⟨o, r⟩ :: (view .server w).log := by
    rw [view_await .server w o r anyKernel, next_log]
  have hfinish : w'.state.packets = w.state.packets ∧
      w'.state.received.map Prod.snd =
        (arrivalOf ⟨o, r⟩).toList ++ w.state.received.map Prod.snd := by
    cases o with
    | alpcSendWaitReceivePort a =>
      by_cases hr : (Ledger.isReceive a && ntSuccess r.status) = true
      · obtain ⟨hreceive, hs⟩ := Bool.and_eq_true_iff.mp hr
        obtain ⟨m, rest, hqueue, -⟩ := hbrings hreceive hs
        have hstate : w'.state.packets = (w.state.deliver r.written).packets ∧
            w'.state.received = (w.state.deliver r.written).received := by
          simp only [w', next_state, network, Net.effectPhase, Net.finish, if_pos hr]
          exact ⟨rfl, trivial⟩
        refine ⟨hstate.1.trans (Net.packets_deliver ..), ?_⟩
        simp [hstate.2, Net.deliver, hqueue, arrivalOf, hr]
      · have hstate : w'.state.packets = w.state.packets ∧
            w'.state.received = w.state.received := by
          simp only [w', next_state, network, Net.effectPhase, Net.finish, if_neg hr]
          exact ⟨rfl, trivial⟩
        refine ⟨hstate.1, ?_⟩
        simp [hstate.2, arrivalOf, hr]
    | _ => exact ⟨rfl, rfl⟩
  have hsent : ∀ j, w'.state.sent j = w.state.sent j := Net.sent_congr hfinish.1
  have hpending : ∀ j, w'.state.pending j = w.state.pending j := fun j => by
    rw [Net.pending, await_inCall, Function.update_of_ne (by simp), ← Net.pending]
  refine ⟨?_, fun j => ?_, fun j => ?_, fun j => ?_⟩
  · rw [hview, hfinish.2, ← h.arrivals, List.filterMap_cons]
    cases arrivalOf ⟨o, r⟩ <;> rfl
  · rw [view_other (by simp), hsent, hpending]
    exact h.offered j
  · rw [view_other (by simp), hsent, hpending]
    exact h.accepted j
  · rw [hsent]
    exact h.scripted j

structure Scripted (R : Roles ι) (script : List Parcel → Prop) : Prop where
  shared : R.shared = Conveys script
  client : ∀ u, R.client u → script (offers u.log)

namespace Scripted

variable {κ : Type} {R : Roles ι} {program : κ → Proc NtStatus}

theorem issue (h : Scripted R script) (w : NetWorld ι) (p : Party ι) (o : Op) (t : Ticket ι)
    (hw : (R.parties pl site program).Holds w)
    (hfits : (R.parties pl site program).Fits p (view p w) o)
    (hl : (network pl site).legal w (p, .issue o) t) :
    R.shared ((network pl site).next w (p, .issue o) t) := by
  have hshared := hw.common.2
  rw [h.shared] at hshared ⊢
  cases p with
  | server => exact conveys_issue_server hshared hl
  | client i =>
    refine conveys_issue_client hshared (fun a taken ho htakes => ?_) hl
    subst ho
    exact h.client _ (hfits (refusal taken) ⟨refusal_legal htakes, trivial⟩)

theorem await (h : Scripted R script) (w : NetWorld ι) (p : Party ι) (o : Op) (r : Ret o)
    (hw : (R.parties pl site program).Holds w)
    (hl : (network pl site).legal w (p, .await o) r) :
    R.shared ((network pl site).next w (p, .await o) r) := by
  have hshared := hw.common.2
  rw [h.shared] at hshared ⊢
  cases p with
  | server => exact conveys_await_server hshared hl
  | client i => exact conveys_await_client hshared hl

end Scripted

-- ---------------------------------------------------------------------------
-- What is received
-- ---------------------------------------------------------------------------

/-- A message in the queue is one the script has. -/
theorem Conveys.mem_script {m : Packet ι} (h : Conveys script w) (hm : m ∈ w.state.packets)
    (hsent : m.isSent = true) : ∃ parcels, script parcels ∧ m.parcel ∈ parcels := by
  obtain ⟨parcels, hsub, hscript⟩ := h.scripted m.sender
  refine ⟨parcels, hscript, hsub.subset (List.mem_map_of_mem ?_)⟩
  exact List.mem_filter.mpr ⟨hm, by simp [hsent]⟩

variable {κ : Type} {P₀ : Process} {Q : NetPool ι κ}

theorem Opens.conveys (h : Opens P₀ Q) (hscript : script []) : Conveys script Q.world := by
  have hlog : ∀ p, (view p Q.world).log = [] := fun p => by simp [view, h.history, eventsOf]
  have hsent : ∀ i, Q.world.state.sent i = [] := by
    simp [Net.sent, Net.packets, h.received, h.queue]
  have hpending : ∀ i, Q.world.state.pending i = [] := by simp [Net.pending, h.inCall, pendingOf]
  refine ⟨?_, fun i => ?_, fun i => ?_, fun i => ⟨[], ?_, hscript⟩⟩
  · simp [hlog, h.received]
  · simp [hsent]
  · simp [hlog, hsent, hpending, acceptances]
  · simp [hsent]

end AlpcResearch.Channel
