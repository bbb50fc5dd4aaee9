import AlpcResearch.Advanced.Copies

/-!
# Programs that use a client library

An `Application` connects, sends requests and datagrams, disconnects and works
on its own memory, and decides by what the calls return what it does next. It
names its clients by the order in which it has connected them. Linked with the
client's side of `AdvancedLocalProcedureCall.c` in place of that of `ka.c` it
does the same, whatever it is and whatever the environment does.
-/

namespace AlpcResearch.Advanced

open Resource Program Process Ka

/-- The four functions of a client, which is a `γ`. -/
structure ClientLibrary (γ : Type) where
  connectServer : String → PVoid → UInt16 → Proc (Option γ)
  sendSynchronousRequest : γ → PVoid → UInt16 → Proc Bool
  sendDatagram : γ → PVoid → UInt16 → Proc Bool
  disconnectServer : γ → Proc Unit

def kernelLibrary (pl : Platform) : ClientLibrary KaClientObject :=
  ⟨kaConnectServer pl, kaSendSynchronousRequest pl, kaSendDatagram pl, kaDisconnectServer⟩

def advancedLibrary (pl : Platform) : ClientLibrary ClientObject :=
  ⟨srvConnectServer pl, srvSendSynchronousRequest pl, srvSendDatagram pl, srvDisconnectServer⟩

inductive Application (β : Type) where
  | done (b : β)
  /-- Anything but the calls of the libraries. -/
  | own (o : Op) (ho : Shared o) (next : Ret o → Application β)
  | connectServer (portName : String) (data : PVoid) (length : UInt16)
      (next : Bool → Application β)
  | sendSynchronousRequest (client : Nat) (data : PVoid) (length : UInt16)
      (next : Bool → Application β)
  | sendDatagram (client : Nat) (data : PVoid) (length : UInt16) (next : Bool → Application β)
  | disconnectServer (client : Nat) (next : Application β)

/-- The application over a library. `clients` are those it has, the first
first; a client it does not have is not called on. -/
def Application.link (lib : ClientLibrary γ) : Application β → List γ → Proc β
  | .done b, _ => .ret b
  | .own o _ next, clients => .call o fun r => (next r).link lib clients
  | .connectServer portName data length next, clients => do
    let client ← lib.connectServer portName data length
    (next client.isSome).link lib (clients ++ client.toList)
  | .sendSynchronousRequest i data length next, clients =>
    match clients[i]? with
    | some client => do
      let sent ← lib.sendSynchronousRequest client data length
      (next sent).link lib clients
    | none => (next false).link lib clients
  | .sendDatagram i data length next, clients =>
    match clients[i]? with
    | some client => do
      let sent ← lib.sendDatagram client data length
      (next sent).link lib clients
    | none => (next false).link lib clients
  | .disconnectServer i next, clients =>
    match clients[i]? with
    | some client => do
      lib.disconnectServer client
      next.link lib clients
    | none => next.link lib clients

variable {pl : Platform} {A : Assumption} {w : World}

theorem Application.behind (app : Application β) (clients : List KaClientObject) :
    Behind pl A Eq (app.link (kernelLibrary pl) clients)
      (app.link (advancedLibrary pl) (clients.map ported)) w := by
  induction app generalizing w clients with
  | done b => exact behind_ret rfl
  | own o ho next ih => exact behind_shared ho fun r v => ih r clients
  | connectServer portName data length next ih =>
    refine (srvConnectServer_behind portName data length).bind ?_
    rintro client _ v rfl
    have hclients : clients.map ported ++ (client.map ported).toList =
        (clients ++ client.toList).map ported := by
      cases client <;> simp
    rw [hclients, Option.isSome_map]
    exact ih _ _
  | sendSynchronousRequest i data length next ih =>
    simp only [link, List.getElem?_map]
    cases clients[i]? with
    | none => exact ih _ _
    | some client =>
      refine (srvSendSynchronousRequest_behind client data length).bind ?_
      rintro sent _ v rfl
      exact ih _ _
  | sendDatagram i data length next ih =>
    simp only [link, List.getElem?_map]
    cases clients[i]? with
    | none => exact ih _ _
    | some client =>
      refine (srvSendDatagram_behind client data length).bind ?_
      rintro sent _ v rfl
      exact ih _ _
  | disconnectServer i next ih =>
    simp only [link, List.getElem?_map]
    cases clients[i]? with
    | none => exact ih _
    | some client => exact (srvDisconnectServer_behind client).bind fun _ _ _ _ => ih _

end AlpcResearch.Advanced
