import QuicTracker.Impl.Agents.Handshake

/-!
This module contains the loop of `agents/tls_agent.go`. An input is a packet, or data that a crypto stream
submits to the channel of the agent. A panic is `none`.
-/

namespace QuicTracker

namespace TLSAgent

/-- The lists `tlsStatus` and `resumptionTickets` hold what was submitted. -/
structure State (τ : Type) where
  conn : Client τ
  encryptionLevelsAvailable : DirectionalEncryptionLevel → Bool
  cryptoChans : PNSpace → List (List UInt8)
  resumptionTicketSent : Bool
  disableFrameSending : Bool
  tlsStatus : List TLSStatus
  resumptionTickets : List (List UInt8)

inductive Input where
  | packet (p : Packet)
  | crypto (space : PNSpace) (data : List UInt8)
  deriving DecidableEq, Repr

def encryptionLevels : List DirectionalEncryptionLevel :=
  [⟨.handshake, false⟩, ⟨.handshake, true⟩, ⟨.oneRTT, false⟩, ⟨.oneRTT, true⟩]

variable {τ : Type} (lib : Libraries τ)

def start (conn : Client τ) (disableFrameSending : Bool) : State τ where
  conn := conn
  encryptionLevelsAvailable := fun _ => false
  cryptoChans := fun _ => []
  resumptionTicketSent := false
  disableFrameSending := disableFrameSending
  tlsStatus := []
  resumptionTickets := []

def submitStatus (s : State τ) (status : TLSStatus) : State τ :=
  { s with tlsStatus := s.tlsStatus ++ [status] }

def reportError (s : State τ) (p : FramePacket) (err : Option String) : State τ :=
  if err.isSome then submitStatus s ⟨false, .frames p, err⟩ else s

/-- The keys of the handshake are installed when the TLS library has the secrets. -/
def installHandshake (s : State τ) : State τ :=
  let tls := s.conn.tls
  let state := (s.conn.cryptoStates .handshake).getD {}
  let readSecret := lib.handshakeReadSecret tls
  let state :=
    if state.headerRead.isNone ∧ readSecret.length > 0 then
      state.initRead lib.toPigotls tls readSecret
    else
      state
  let writeSecret := lib.handshakeWriteSecret tls
  let state :=
    if state.headerWrite.isNone ∧ writeSecret.length > 0 then
      state.initWrite lib.toPigotls tls writeSecret
    else
      state
  { s with conn := { s.conn with
      cryptoStates := Function.update s.conn.cryptoStates .handshake (some state) } }

def queueMessage (c : Client τ) (m : Pigotls.Message) : Option (Client τ) := do
  let (frame, stream) ← newCryptoFrame (c.cryptoStreams.get m.epoch.pnSpace) m.data
  return (c.withCryptoStream m.epoch.pnSpace stream).submitFrame (.crypto frame) m.epoch.encryptionLevel

def queueOutput (s : State τ) (output : List Pigotls.Message) : Option (State τ) :=
  if s.disableFrameSending then
    some s
  else do
    let conn ← output.foldlM queueMessage s.conn
    return { s with conn := conn }

def complete (s : State τ) (p : FramePacket) (notCompleted : Bool) : State τ :=
  if ¬ notCompleted ∧ (s.conn.cryptoStates .oneRTT).isNone then
    let tls := s.conn.tls
    let state := newProtectedCryptoState lib.toPigotls tls (lib.protectedReadSecret tls)
      (lib.protectedWriteSecret tls)
    let (err, handler) := s.conn.tlsTPHandler.receiveExtensionData lib.unmarshal
      (lib.receivedQUICTransportParameters tls)
    let conn := { s.conn with
      cryptoStates := Function.update s.conn.cryptoStates .oneRTT (some state)
      exporterSecret := lib.exporterSecret tls
      tlsTPHandler := handler }
    submitStatus { s with conn := conn } ⟨true, .frames p, err⟩
  else
    s

def installed (conn : Connection) (e : DirectionalEncryptionLevel) : Bool :=
  match conn.cryptoStates e.encryptionLevel with
  | none => false
  | some state => (e.read ∧ state.headerRead.isSome) ∨ (¬ e.read ∧ state.headerWrite.isSome)

/-- One level of the loop over the encryption levels, on the map of the agent and on what it has submitted. -/
def announceLevel (conn : Connection) (e : DirectionalEncryptionLevel)
    (available : DirectionalEncryptionLevel → Bool) (submitted : List DirectionalEncryptionLevel) :
    (DirectionalEncryptionLevel → Bool) × List DirectionalEncryptionLevel :=
  if ¬ available e ∧ installed conn e then
    (Function.update available e true, submitted ++ [e])
  else
    (available, submitted)

def announce (s : State τ) (e : DirectionalEncryptionLevel) : State τ :=
  let (available, submitted) := announceLevel s.conn.toConnection e s.encryptionLevelsAvailable
    s.conn.encryptionLevelsAvailable
  { s with
    encryptionLevelsAvailable := available
    conn := { s.conn with encryptionLevelsAvailable := submitted } }

/-- Nothing sets `resumptionTicketSent`. -/
def submitTicket (s : State τ) : State τ :=
  let ticket := lib.resumptionTicket s.conn.tls
  if ¬ s.resumptionTicketSent ∧ ticket.length > 0 then
    { s with resumptionTickets := s.resumptionTickets ++ [ticket] }
  else
    s

def handleData (s : State τ) (p : FramePacket) (handshakeData : List UInt8) : Option (State τ) := do
  let (response, tls) := lib.handleMessage handshakeData p.pnSpace.epoch s.conn.tls
  let s := { s with conn := { s.conn with tls := tls } }
  let s := reportError s p response.error
  let s := installHandshake lib s
  let s ← queueOutput s response.output
  let s := complete lib s p response.notCompleted
  let s := encryptionLevels.foldl announce s
  return submitTicket lib s

def handlePacket (s : State τ) (p : FramePacket) : Option (State τ) :=
  let handshakeData := (s.cryptoChans p.pnSpace).flatten
  let s := { s with cryptoChans := Function.update s.cryptoChans p.pnSpace [] }
  if handshakeData.length > 0 then
    handleData lib s p handshakeData
  else
    some s

def step (s : State τ) (input : Input) : Option (State τ) :=
  match input with
  | .packet (.frames p) => handlePacket lib s p
  | .packet _ => some s
  | .crypto space data =>
    some { s with cryptoChans := Function.update s.cryptoChans space (s.cryptoChans space ++ [data]) }

end TLSAgent

end QuicTracker
