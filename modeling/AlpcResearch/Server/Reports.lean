import AlpcResearch.Channel.Sessions
import AlpcResearch.Server.Residue
import AlpcResearch.Server.Sessions

/-!
# What the server prints

As long as every request and every datagram brings its eight bytes, a round
prints the line due for its message and nothing else; so between two rounds the
lines printed are those due for what was received, in its order.
-/

namespace AlpcResearch.Server

open Resource Program Process
open Rpc (arrivalOf)
open Channel (receives)

variable {pl : Platform} {A : Assumption} {maxLength : Nat} {worker : Worker}
variable {w₀ w v : World} {msg : List UInt8}

def IsSent (pl : Platform) (msg : List UInt8) : Prop :=
  kindOf pl msg = lpcRequest ∨ kindOf pl msg = lpcDatagram

instance (pl : Platform) (msg : List UInt8) : Decidable (IsSent pl msg) :=
  inferInstanceAs (Decidable (_ ∨ _))

/-- The lines due for a message, at most one. -/
def due (pl : Platform) (msg : List UInt8) : List (String × Int) :=
  if IsSent pl msg then reportOf (kindOf pl msg) ((bodyOf pl msg).take 8) else []

/-- A message that is counted brings a counter. -/
def BringsCounter (pl : Platform) (msg : List UInt8) : Prop :=
  IsSent pl msg → pl.sizeofPortMessage + 8 ≤ msg.length

/-- The lines due for what was received, and no others. -/
def AllReported (pl : Platform) (log : List Ev) : Prop :=
  log.filterMap printed = (log.filterMap arrivalOf).flatMap (due pl)

structure ReportedOf (pl : Platform) (msg : List UInt8) (w v : World) : Prop where
  arrivals : Picks arrivalOf [msg] w v
  lines : Picks printed (due pl msg) w v

theorem AllReported.next (h : AllReported pl w.log) (hv : ReportedOf pl msg w v) :
    AllReported pl v.log := by
  obtain ⟨new, hlog, harrivals⟩ := hv.arrivals
  have hlines : new.filterMap printed = due pl msg := by
    have hnew := hv.lines.eq
    rwa [newEvents_eq hlog] at hnew
  rw [AllReported, hlog, List.filterMap_append, List.filterMap_append, hlines, harrivals,
    List.flatMap_append, h, List.flatMap_singleton]

-- ---------------------------------------------------------------------------
-- A round
-- ---------------------------------------------------------------------------

theorem behind_shows (h : Shows (endpoint maxLength worker) msg P)
    (hlen : pl.sizeofPortMessage + 8 ≤ msg.length) :
    Behind pl (endpoint maxLength worker) ((bodyOf pl msg).take 8) P := by
  obtain ⟨q, data, hm, hq, hdata⟩ := h
  exact ⟨q, data, hm, hq, hdata _ _ hlen⟩

def Deaf (o : Op) : Prop := ∀ r, arrivalOf ⟨o, r⟩ = none

def Dumb (o : Op) : Prop := Deaf o ∧ ∀ r, printed ⟨o, r⟩ = none

theorem deaf_of_harmless (o : Op) (h : Harmless o) : Deaf o := by
  intro r
  cases o with
  | alpcSendWaitReceivePort => exact h.elim
  | _ => rfl

theorem dumb_of_tearsDown (o : Op) (h : TearsDown o) : Dumb o := by
  cases o with
  | alpcSendWaitReceivePort | printf => exact h.elim
  | _ => exact ⟨fun _ => rfl, fun _ => rfl⟩

theorem dumb_of_answersConnect (o : Op) (h : AnswersConnect o) : Dumb o := by
  cases o with
  | alpcSendWaitReceivePort | printf => exact h.elim
  | _ => exact ⟨fun _ => rfl, fun _ => rfl⟩

theorem onAlpcDisconnection_dumb : (onAlpcDisconnection attributes).Uses Dumb :=
  onAlpcDisconnection_uses.mono dumb_of_tearsDown

theorem onAlpcConnection_dumb :
    (onAlpcConnection pl maxLength connectionPortHandle portMessage).Uses Dumb :=
  onAlpcConnection_uses.mono dumb_of_answersConnect

theorem srvProcessMessage_lines (hm : Shows (endpoint maxLength worker) msg v.state)
    (hlen : pl.sizeofPortMessage ≤ msg.length) (hcounter : BringsCounter pl msg) :
    (srvProcessMessage pl maxLength worker).safe (system pl A) (fun _ => True)
      (fun _ => Picks printed (due pl msg) v) v := by
  by_cases hk : IsSent pl msg
  · rw [due, if_pos hk]
    exact srvProcessMessage_prints hk hm hlen (behind_shows hm (hcounter hk))
  rw [due, if_neg hk]
  obtain ⟨hrequest, hdatagram⟩ := not_or.mp hk
  have h₀ : Picks printed [] v v := .refl v
  refine ⟨trivial, fun found hfound => ⟨trivial, fun type htype => ?_⟩⟩
  have h₁ := h₀.skip (S := system pl A) (r := found) rfl
    (o := .alpcGetMessageAttribute worker.messageAttributes alpcMessageContextAttribute)
  have h₂ := h₁.skip (S := system pl A) (o := .load worker.portMessage _ _) (r := type) rfl
  have hkind : lobyte (UInt16.ofNat (leNat type)) = kindOf pl msg :=
    (hm.same rfl).kind hlen htype.1
  change Prog.safe _ _ (srvDispatch pl maxLength worker found (lobyte _)) _ _
  rw [hkind]
  refine safe_dispatch (fun hr => absurd hr hrequest) (fun hd => absurd hd hdatagram) (fun _ => ?_)
    (fun _ => ?_) fun _ _ _ _ => ⟨trivial, h₂⟩
  · exact h₂.run (onAlpcDisconnection_dumb.mono fun _ h => h.2)
  · exact h₂.run (onAlpcConnection_dumb.mono fun _ h => h.2)

theorem srvProcessMessage_deaf : (srvProcessMessage pl maxLength worker).Uses Deaf := by
  refine ⟨fun _ => rfl, fun found => ⟨fun _ => rfl, fun type => ?_⟩⟩
  change Prog.Uses _ (srvDispatch pl maxLength worker found (lobyte (UInt16.ofNat (leNat type))))
  unfold srvDispatch
  split
  · refine uses_bind ((reportCounter_harmless _).mono deaf_of_harmless) fun _ => ⟨fun r => ?_, fun _ => trivial⟩
    simp [arrivalOf, Ledger.isReceive]
  split
  · exact datagramCase_harmless.mono deaf_of_harmless
  split
  · exact onAlpcDisconnection_dumb.mono fun _ h => h.1
  split
  · exact onAlpcDisconnection_dumb.mono fun _ h => h.1
  split
  · exact onAlpcConnection_dumb.mono fun _ h => h.1
  · trivial

theorem srvServerWorker_reports (hA : ∀ w o r, A w o r → receives (BringsCounter pl) w o r)
    (h : AtReceive pl maxLength worker w₀ w) :
    (srvServerWorker pl maxLength worker).safe (system pl A) (fun _ => True)
      (After (fun v => ∃ msg, ReportedOf pl msg w v) fun _ _ => True) w := by
  have hserving := h.consistent.serving
  refine ⟨trivial, fun r hr => ?_⟩
  refine safe_ifFailed (fun hs => ?_) fun _ => ⟨trivial, trivial⟩
  have hreceive : Ledger.isReceive (srvReceive maxLength worker) = true := Endpoint.receives hserving
  have hrec := received (A := A) hserving hr.1 hs
  have hcounter : BringsCounter pl r.written := hA _ _ _ hr.2 hreceive hs
  let v := (system pl A).next w (.alpcSendWaitReceivePort (srvReceive maxLength worker)) r
  have harrival : Picks arrivalOf [r.written] w v :=
    (Picks.refl w).pick (by simp [arrivalOf, hreceive, hs])
  have hline : Picks printed [] w v := (Picks.refl w).skip rfl
  have hround := safe_both (harrival.run (S := system pl A) srvProcessMessage_deaf)
    (srvProcessMessage_lines (A := A) (v := v) hrec.shows_ hrec.length hcounter)
  refine safe_bind (safe_imp hround (fun _ _ => trivial) fun status u _ hround => ?_)
  obtain ⟨harrivals, hlines⟩ := hround
  split
  · exact ⟨trivial, trivial⟩
  · exact ⟨trivial, r.written, harrivals, by simpa using hline.trans hlines⟩

end AlpcResearch.Server
