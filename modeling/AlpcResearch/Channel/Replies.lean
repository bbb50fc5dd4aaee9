import AlpcResearch.Channel.Sessions
import AlpcResearch.Rpc.Parties
import AlpcResearch.Sessions.Placement

/-!
# A server that sends requests back

A server that sends nothing but the request it has received last (`Echoes`)
returns every request to the client that sent it: the message it sends is
routed by the `MessageId` in its header, which only that request has had. So
every synchronous request that succeeds brings the caller's own message back
(`Echo`).
-/

namespace AlpcResearch.Channel

open Resource Program Process
open Rpc (Party Posted isSync kindSent arrivalOf refusal refusal_legal refusal_status)

def replyOf : Ev → Option (List UInt8)
  | ⟨.alpcSendWaitReceivePort a, r⟩ => if a.sendMessage = none then none else some r.taken
  | _ => none

/-- What the server sends is the request it received last. -/
def Echoes (pl : Platform) (log : List Ev) : Prop :=
  ∀ a r rest, ⟨.alpcSendWaitReceivePort a, r⟩ :: rest <:+ log → a.sendMessage ≠ none →
    kindOf pl (ledger pl rest).message = lpcRequest ∧ r.taken = (ledger pl rest).message

/-- A request that returned with success has its own message for a reply. -/
def Echoed (pl : Platform) : Ev → Prop
  | ⟨.alpcSendWaitReceivePort a, r⟩ => isSync a = true → ntSuccess r.status = true →
    Delivers pl r.taken r.written
  | _ => True

def SizedRequest (pl : Platform) (msg : List UInt8) : Prop :=
  kindOf pl msg = lpcRequest → Sized pl msg

variable {ι : Type} [DecidableEq ι] {pl : Platform} {site : Site ι} {w : NetWorld ι}

structure Echo (pl : Platform) (w : NetWorld ι) : Prop where
  sized : ∀ m ∈ w.state.packets, m.kind = lpcRequest → Sized pl m.bytes
  posted : ∀ i a m, w.state.inCall (.client i) = some (.alpcSendWaitReceivePort a, .posted m) →
    ∃ q ∈ w.state.packets, q.messageId = m.messageId ∧ q.bytes = m.taken
  mail : ∀ i reply, w.state.mail i = some reply → ∃ a m,
    w.state.inCall (.client i) = some (.alpcSendWaitReceivePort a, .posted m) ∧
      Delivers pl m.taken reply
  echoed : ∀ i, ∀ e ∈ (view (.client i) w).log, Echoed pl e

-- ---------------------------------------------------------------------------
-- Messages
-- ---------------------------------------------------------------------------

theorem kindOf_nil : kindOf pl [] ≠ lpcRequest := by cases pl <;> decide

theorem Sized.delivers {msg written : List UInt8} (h : Sized pl msg)
    (hd : Delivers pl msg written) : Sized pl written := by
  have htotal : (headerOf pl written).totalLength = (headerOf pl msg).totalLength := by
    have hfour : ∀ bs : List UInt8, (bs.drop 2).take 2 = (bs.take 4).drop 2 := fun bs => by
      rw [List.drop_take]
    simp only [headerOf, PortMessage.offTotalLength, hfour, hd.lengths]
  exact ⟨hd.length.symm ▸ h.1, (htotal.trans h.2).trans hd.length.symm⟩

/-- A packet that the server gets as a request was one. -/
theorem Echo.arrives {m : Packet ι} {written : List UInt8} (h : Echo pl w)
    (hm : m ∈ w.state.packets) (ha : m.ArrivesAs pl site written) : SizedRequest pl written :=
  fun hkind => (h.sized m hm (ha.kind.symm.trans hkind)).delivers ha.delivers

-- ---------------------------------------------------------------------------
-- Calls are issued
-- ---------------------------------------------------------------------------

theorem Echo.mail_idle {i : ι} (h : Echo pl w) (hidle : w.state.inCall (.client i) = none) :
    w.state.mail i = none := by
  by_contra hne
  obtain ⟨reply, hreply⟩ := Option.ne_none_iff_exists'.mp hne
  obtain ⟨a, m, hcall, -⟩ := h.mail i reply hreply
  cases hidle.symm.trans hcall

theorem Echo.issued {i : ι} {o : Op} {t : Ticket ι} (h : Echo pl w)
    (hidle : w.state.inCall (.client i) = none)
    (hpackets : ∃ new, (w.state.post pl (.client i) o t).packets = w.state.packets ++ new ∧
      (∀ q ∈ new, q.kind = lpcRequest → Sized pl q.bytes) ∧
      ∀ a m, o = .alpcSendWaitReceivePort a → t = .posted m →
        ∃ q ∈ new, q.messageId = m.messageId ∧ q.bytes = m.taken)
    (hmail : (w.state.post pl (.client i) o t).mail = w.state.mail) :
    Echo pl ((network pl site).next w (.client i, .issue o) t) := by
  obtain ⟨new, hnew, hsized, hposted⟩ := hpackets
  have hclient : ∀ j, j ≠ i → ((network pl site).next w (.client i, .issue o) t).state.inCall
      (.client j) = w.state.inCall (.client j) := by
    intro j hj
    rw [issue_inCall, Function.update_of_ne (by simpa using hj)]
  have hmem : ∀ q, q ∈ ((network pl site).next w (.client i, .issue o) t).state.packets ↔
      q ∈ w.state.packets ∨ q ∈ new := fun q => by
    rw [← List.mem_append, ← hnew]
    rfl
  constructor
  case sized =>
    intro m hm hkind
    exact ((hmem m).mp hm).elim (fun hm => h.sized m hm hkind) fun hm => hsized m hm hkind
  case posted =>
    intro j a m hcall
    by_cases hj : j = i
    · subst hj
      rw [issue_inCall, Function.update_self] at hcall
      cases hcall
      obtain ⟨q, hq, hid⟩ := hposted a m rfl rfl
      exact ⟨q, (hmem q).mpr (.inr hq), hid⟩
    · obtain ⟨q, hq, hid⟩ := h.posted j a m ((hclient j hj).symm.trans hcall)
      exact ⟨q, (hmem q).mpr (.inl hq), hid⟩
  case mail =>
    intro j reply hreply
    have hbefore : w.state.mail j = some reply := (congrFun hmail j).symm.trans hreply
    have hj : j ≠ i := by
      rintro rfl
      cases (h.mail_idle hidle).symm.trans hbefore
    obtain ⟨a, m, hcall, hd⟩ := h.mail j reply hbefore
    exact ⟨a, m, (hclient j hj).trans hcall, hd⟩
  case echoed =>
    intro j
    rw [view_issue]
    exact h.echoed j

theorem echo_issue_client {i : ι} {o : Op} {t : Ticket ι} (h : Echo pl w)
    (hl : (network pl site).legal w (.client i, .issue o) t) :
    Echo pl ((network pl site).next w (.client i, .issue o) t) := by
  obtain ⟨hidle, hl⟩ := hl
  cases t with
  | nothing =>
    have hpost : w.state.post pl (.client i) o .nothing = w.state := by cases o <;> rfl
    exact h.issued hidle ⟨[], by rw [hpost, List.append_nil], by simp, by rintro _ _ _ ⟨⟩⟩ (by rw [hpost])
  | answered j => cases o <;> exact hl.elim
  | posted m =>
    cases o with
    | alpcConnectPort a =>
      refine h.issued hidle ⟨_, Net.packets_enqueue w.state _, ?_, by rintro _ _ ⟨⟩⟩ rfl
      intro q hq hkind
      rw [List.mem_singleton.mp hq] at hkind
      exact absurd (show lpcConnectionRequest = lpcRequest from hkind) (by decide)
    | alpcSendWaitReceivePort a =>
      obtain ⟨-, -, -, hport, hsized⟩ := hl
      obtain ⟨c, hport⟩ := Option.ne_none_iff_exists'.mp hport
      have hpost : w.state.post pl (.client i) (.alpcSendWaitReceivePort a) (.posted m) =
          w.state.enqueue ⟨i, kindSent a, m.messageId, m.taken, c.context⟩ := by
        simp only [Net.post, Net.send, hport, Net.enqueue]
      refine h.issued hidle ⟨_, hpost ▸ Net.packets_enqueue w.state _, ?_, ?_⟩ (by rw [hpost]; rfl)
      · intro q hq _
        rw [List.mem_singleton.mp hq]
        exact hsized
      · rintro a' m' ho ht
        cases ho
        cases ht
        exact ⟨_, List.mem_singleton_self _, rfl, rfl⟩
    | close x =>
      obtain ⟨c, hport⟩ := Option.ne_none_iff_exists'.mp hl.2
      have hpost : w.state.post pl (.client i) (.close x) (.posted m) = _ := close_mapped hport
      refine h.issued hidle ⟨[⟨i, lpcPortClosed, m.messageId, m.taken, c.context⟩], ?_, ?_,
        by rintro _ _ ⟨⟩⟩ (by rw [hpost]; rfl)
      · rw [hpost]
        exact Net.packets_enqueue w.state _
      · intro q hq hkind
        rw [List.mem_singleton.mp hq] at hkind
        exact absurd (show lpcPortClosed = lpcRequest from hkind) (by decide)
    | _ => exact hl.elim

/-- What the server does leaves the packets and the clients' calls alone, but
for the mail. -/
theorem Echo.issued_server {o : Op} {t : Ticket ι} (h : Echo pl w)
    (hpackets : (w.state.post pl .server o t).packets = w.state.packets)
    (hmail : ∀ i reply, (w.state.post pl .server o t).mail i = some reply →
      w.state.mail i = some reply ∨ ∃ a m,
        w.state.inCall (.client i) = some (.alpcSendWaitReceivePort a, .posted m) ∧
          Delivers pl m.taken reply) :
    Echo pl ((network pl site).next w (.server, .issue o) t) := by
  have hclient : ∀ j, ((network pl site).next w (.server, .issue o) t).state.inCall
      (.client j) = w.state.inCall (.client j) := by
    intro j
    rw [issue_inCall, Function.update_of_ne (by simp)]
  have hpackets : ((network pl site).next w (.server, .issue o) t).state.packets =
      w.state.packets := hpackets
  refine ⟨hpackets ▸ h.sized, fun j a m hcall => ?_, fun j reply hreply => ?_, fun j => ?_⟩
  · exact hpackets ▸ h.posted j a m ((hclient j).symm.trans hcall)
  · rw [hclient]
    exact (hmail j reply hreply).elim (h.mail j reply) id
  · rw [view_issue]
    exact h.echoed j

/-- The message that is routed is a request as it was received; the client that
waits for its `MessageId` is the one that sent it. -/
theorem Echo.route {taken : List UInt8} (h : Echo pl w) (hw : Common pl site w)
    (hkind : kindOf pl (ledger pl (view .server w).log).message = lpcRequest)
    (htaken : taken = (ledger pl (view .server w).log).message) (i : ι) (reply : List UInt8)
    (hreply : (w.state.route pl taken).mail i = some reply) :
    w.state.mail i = some reply ∨ ∃ a m,
      w.state.inCall (.client i) = some (.alpcSendWaitReceivePort a, .posted m) ∧
        Delivers pl m.taken reply := by
  simp only [Net.route] at hreply
  split at hreply
  · rename_i hwaits
    cases hreply
    right
    obtain ⟨⟨q, msg⟩, rest, hreceived⟩ : ∃ x rest, w.state.received = x :: rest := by
      refine List.exists_cons_of_ne_nil fun hnone => ?_
      rw [hw.message, hnone] at hkind
      exact absurd hkind kindOf_nil
    have hmsg : taken = msg := htaken.trans (by rw [hw.message, hreceived]; rfl)
    have harrives : q.ArrivesAs pl site msg := hw.sound.arrived q msg (by simp [hreceived])
    have hq : q ∈ w.state.packets := by simp [Net.packets, hreceived]
    simp only [Net.waitsFor] at hwaits
    split at hwaits
    · rename_i a m hcall
      simp only [Bool.and_eq_true, beq_iff_eq] at hwaits
      obtain ⟨q', hq', hid, hbytes⟩ := h.posted i a m hcall
      have hsame : q' = q := by
        refine hw.sound.eq_of_messageId hq' hq ?_
        rw [hid, hwaits.2, hmsg, harrives.messageId]
      exact ⟨a, m, hcall, hbytes ▸ hsame ▸ hmsg ▸ harrives.delivers⟩
    · cases hwaits
  · exact .inl hreply

theorem echo_issue_server {o : Op} {t : Ticket ι} (h : Echo pl w) (hw : Common pl site w)
    (hfits : ∀ a, o = .alpcSendWaitReceivePort a → ∀ taken,
      (w.state.process .server).Takes a.sendMessage taken →
        Echoes pl (⟨.alpcSendWaitReceivePort a, refusal taken⟩ :: (view .server w).log))
    (hl : (network pl site).legal w (.server, .issue o) t) :
    Echo pl ((network pl site).next w (.server, .issue o) t) := by
  obtain ⟨-, hl⟩ := hl
  cases t with
  | nothing =>
    have hpost : w.state.post pl .server o .nothing = w.state := by cases o <;> rfl
    exact h.issued_server (by rw [hpost]) fun i reply hreply => .inl (hpost ▸ hreply)
  | posted m =>
    cases o with
    | alpcSendWaitReceivePort a =>
      have hechoes := hfits a rfl m.taken hl.2
      obtain ⟨hkind, htaken⟩ := hechoes a _ _ (List.suffix_refl _) hl.1
      exact h.issued_server rfl fun i reply => h.route hw hkind htaken i reply
    | _ => exact h.issued_server rfl fun i reply hreply => .inl hreply
  | answered i =>
    cases o with
    | alpcAcceptConnectPort a => exact h.issued_server rfl fun i reply hreply => .inl hreply
    | _ => exact hl.elim

-- ---------------------------------------------------------------------------
-- Calls return
-- ---------------------------------------------------------------------------

theorem echo_await_server {o : Op} {r : Ret o} (h : Echo pl w)
    (hl : (network pl site).legal w (.server, .await o) r) :
    Echo pl ((network pl site).next w (.server, .await o) r) := by
  obtain ⟨-, t, -, hbrings⟩ := hl
  have hclient : ∀ j, ((network pl site).next w (.server, .await o) r).state.inCall
      (.client j) = w.state.inCall (.client j) := by
    intro j
    rw [await_inCall, Function.update_of_ne (by simp)]
  have hfinish : (w.state.finish .server o r).packets = w.state.packets ∧
      (w.state.finish .server o r).mail = w.state.mail := by
    cases o with
    | alpcSendWaitReceivePort a =>
      simp only [Net.finish]
      split
      · rename_i hr
        obtain ⟨hreceive, hs⟩ := Bool.and_eq_true_iff.mp hr
        obtain ⟨m, rest, hqueue, -⟩ := hbrings hreceive hs
        exact ⟨Net.packets_deliver .., by simp only [Net.deliver, hqueue]⟩
      · exact ⟨rfl, rfl⟩
    | _ => exact ⟨rfl, rfl⟩
  have hpackets : ((network pl site).next w (.server, .await o) r).state.packets =
      w.state.packets := hfinish.1
  have hmail : ((network pl site).next w (.server, .await o) r).state.mail =
      w.state.mail := hfinish.2
  refine ⟨hpackets ▸ h.sized, fun j a m hcall => ?_, fun j reply hreply => ?_, fun j => ?_⟩
  · exact hpackets ▸ h.posted j a m ((hclient j).symm.trans hcall)
  · rw [hclient]
    exact h.mail j reply (hmail ▸ hreply)
  · rw [view_other (by simp)]
    exact h.echoed j

theorem echo_await_client {i : ι} {o : Op} {r : Ret o} (h : Echo pl w)
    (hl : (network pl site).legal w (.client i, .await o) r) :
    Echo pl ((network pl site).next w (.client i, .await o) r) := by
  obtain ⟨-, t, hcall, hbrings⟩ := hl
  have hclient : ∀ j, j ≠ i → ((network pl site).next w (.client i, .await o) r).state.inCall
      (.client j) = w.state.inCall (.client j) := by
    intro j hj
    rw [await_inCall, Function.update_of_ne (by simpa using hj)]
  have hself : ((network pl site).next w (.client i, .await o) r).state.inCall (.client i) =
      none := by rw [await_inCall, Function.update_self]
  have hpackets : ((network pl site).next w (.client i, .await o) r).state.packets =
      w.state.packets := by cases o <;> rfl
  have hmail : ∀ j, j ≠ i → ((network pl site).next w (.client i, .await o) r).state.mail j =
      w.state.mail j := by
    intro j hj
    cases o with
    | alpcSendWaitReceivePort a => exact Function.update_of_ne hj ..
    | _ => rfl
  have hnone : ((network pl site).next w (.client i, .await o) r).state.mail i = none := by
    have hother (ho : ∀ a, o ≠ .alpcSendWaitReceivePort a) : w.state.mail i = none := by
      by_contra hne
      obtain ⟨reply, hreply⟩ := Option.ne_none_iff_exists'.mp hne
      obtain ⟨a, m, hcall', -⟩ := h.mail i reply hreply
      cases hcall.symm.trans hcall'
      exact ho a rfl
    cases o with
    | alpcSendWaitReceivePort a => exact Function.update_self ..
    | _ => exact hother (by rintro _ ⟨⟩)
  refine ⟨hpackets ▸ h.sized, fun j a m hj => ?_, fun j reply hreply => ?_, fun j e he => ?_⟩
  · by_cases hji : j = i
    · subst hji
      cases hself.symm.trans hj
    · exact hpackets ▸ h.posted j a m ((hclient j hji).symm.trans hj)
  · by_cases hji : j = i
    · subst hji
      cases hnone.symm.trans hreply
    · rw [hclient j hji]
      exact h.mail j reply ((hmail j hji).symm.trans hreply)
  · by_cases hji : j = i
    · subst hji
      rw [view_await (.client j) w o r anyKernel, next_log] at he
      rcases List.mem_cons.mp he with rfl | he
      · cases o with
        | alpcSendWaitReceivePort a =>
          intro hsync hs
          obtain ⟨⟨m, rfl⟩, hreply⟩ := hbrings.2 hs
          obtain ⟨reply, hmail, hdelivers⟩ := hreply hsync
          obtain ⟨a', m', hcall', htaken⟩ := h.mail j reply hmail
          cases hcall.symm.trans hcall'
          exact hbrings.1 m rfl ▸ htaken.trans hdelivers
        | _ => trivial
      · exact h.echoed j e he
    · rw [view_other (by simpa using hji)] at he
      exact h.echoed j e he

-- ---------------------------------------------------------------------------
-- The server alone
-- ---------------------------------------------------------------------------

/-- Neither a message sent nor one received. -/
def Mute (o : Op) : Prop := ∀ a, o ≠ .alpcSendWaitReceivePort a

theorem Echoes.cons {log : List Ev} {e : Ev} (h : Echoes pl log)
    (hnew : ∀ a r, e = ⟨.alpcSendWaitReceivePort a, r⟩ → a.sendMessage ≠ none →
      kindOf pl (ledger pl log).message = lpcRequest ∧ r.taken = (ledger pl log).message) :
    Echoes pl (e :: log) := by
  intro a r rest hsuffix hsend
  rcases List.suffix_cons_iff.mp hsuffix with he | hsuffix
  · cases he
    exact hnew a r rfl hsend
  · exact h a r rest hsuffix hsend

theorem Echoes.mute {log : List Ev} {o : Op} (h : Echoes pl log) (ho : Mute o) (r : Ret o) :
    Echoes pl (⟨o, r⟩ :: log) :=
  h.cons fun a r' he _ => by
    cases he
    exact absurd rfl (ho a)

theorem replyOf_mute {o : Op} (ho : Mute o) (r : Ret o) : replyOf ⟨o, r⟩ = none := by
  cases o with
  | alpcSendWaitReceivePort a => exact absurd rfl (ho a)
  | _ => rfl

theorem arrivalOf_mute {o : Op} (ho : Mute o) (r : Ret o) : arrivalOf ⟨o, r⟩ = none := by
  cases o with
  | alpcSendWaitReceivePort a => exact absurd rfl (ho a)
  | _ => rfl

/-- Between `w` and `u` the server has received the messages of the first list
and sent those of the second, the latest first. -/
structure Exchanged (pl : Platform) (arrivals replies : List (List UInt8)) (w u : World) :
    Prop where
  echoes : Echoes pl u.log
  arrivals : Picks arrivalOf arrivals w u
  replies : Picks replyOf replies w u

variable {v u : World} {A : Assumption} {arrivals replies : List (List UInt8)}

theorem Exchanged.mute {o : Op} (h : Exchanged pl arrivals replies v u) (ho : Mute o) (r : Ret o) :
    Exchanged pl arrivals replies v ((system pl A).next u o r) :=
  ⟨h.echoes.mute ho r, h.arrivals.skip (arrivalOf_mute ho r), h.replies.skip (replyOf_mute ho r)⟩

theorem Exchanged.run {p : Proc α} (hp : p.Uses Mute) (h : Exchanged pl arrivals replies v u) :
    p.safe (system pl A) (fun u => Echoes pl u.log)
      (fun _ => Exchanged pl arrivals replies v) u :=
  safe_of_uses hp (fun _ _ r ho _ hu => hu.mute ho r) (fun _ hu => hu.echoes) (fun _ _ hu => hu) h

/-- The request has been sent back. -/
theorem Exchanged.reply {a : SendWaitReceive} {r : Reply} {msg : List UInt8} {e : Endpoint}
    (h : Exchanged pl arrivals replies v u) (hreceive : a.receiveMessage = none)
    (hsend : a.sendMessage = e.message) (hlast : (ledger pl u.log).message = msg)
    (hkind : kindOf pl msg = lpcRequest) (hsized : Sized pl msg) (hshows : Shows e msg u.state)
    (hlegal : u.state.Legal pl (.alpcSendWaitReceivePort a) r) :
    Exchanged pl arrivals (msg :: replies) v
      ((system pl A).next u (.alpcSendWaitReceivePort a) r) := by
  obtain ⟨q, data, hm, hq, hdata⟩ := hshows
  have hne : a.sendMessage ≠ none := by simp [hsend, hm]
  have htaken : r.taken = msg := by
    have hlength : leNat (data.slice (0 + PortMessage.offTotalLength) 2) = msg.length := by
      rw [Nat.zero_add, hdata _ _ (totalLength_in_header.trans hsized.1)]
      exact hsized.2
    have htakes : u.state.Takes (some ⟨q, 0⟩) r.taken := (hsend.trans hm) ▸ hlegal.1
    have htaken := htakes.2 ⟨q, 0⟩ _ data rfl (at?_live hq)
    rw [hlength, hdata 0 _ (by omega), List.drop_zero, List.take_length] at htaken
    exact htaken
  refine ⟨h.echoes.cons fun a' r' he _ => ?_, h.arrivals.skip ?_, h.replies.pick ?_⟩
  · cases he
    exact ⟨hlast.symm ▸ hkind, htaken.trans hlast.symm⟩
  · simp [arrivalOf, Ledger.isReceive, hreceive]
  · simp [replyOf, hne, htaken]

-- ---------------------------------------------------------------------------
-- All interleavings
-- ---------------------------------------------------------------------------

variable {κ : Type} {program : κ → Proc NtStatus} {P₀ : Process} {J : World → Prop}

/-- A server that echoes, and clients that run anything. -/
def echoing (pl : Platform) (P₀ : Process) (J : World → Prop) : Roles ι where
  shared := Echo pl
  message := SizedRequest pl
  server u := u.state.faults = P₀.faults ∧ Echoes pl u.log
  between := J
  left _ _ := True
  client _ := True
  idle _ := True

theorem echoing_played (hround : ∀ v, J v →
    site.worker.safe (system pl ((peers pl).and (receives (SizedRequest pl))))
      (fun u => Orderly pl u ∧ u.state.faults = P₀.faults ∧ Echoes pl u.log)
      (After J fun _ _ => True) v) :
    (echoing pl P₀ J).Played pl site program where
  round := hround
  run _ _ _ := safe_of_step (K := fun _ => True) (fun _ _ _ _ h => h) (fun _ h => h)
    (fun _ _ h => h) trivial
  idle _ h := h
  arrives w _ he m rest hqueue written ha := by
    have hm : m ∈ w.state.packets := by simp [Net.packets, hqueue]
    exact Echo.arrives he hm ha
  issue := by
    rintro w (_ | i) o t hw hfits hl
    · refine echo_issue_server hw.common.2 hw.common.1 (fun a ha taken htakes => ?_) hl
      subst ha
      refine (hfits (refusal taken) ⟨refusal_legal htakes, ⟨?_, trivial⟩, ?_⟩).2.2
      · intro h
        simp [refusal_status taken] at h
      · exact fun _ hs => absurd hs (refusal_status taken)
    · exact echo_issue_client hw.common.2 hl
  await := by
    rintro w (_ | i) o r hw hl
    · exact echo_await_server hw.common.2 hl
    · exact echo_await_client hw.common.2 hl

variable {Q : NetPool ι κ}

theorem Opens.echo (h : Opens P₀ Q) : Echo pl Q.world where
  sized := by simp [Net.packets, h.received, h.queue]
  posted := by simp [h.inCall]
  mail := by simp [h.mail]
  echoed := by simp [view, h.history, eventsOf]

end AlpcResearch.Channel
