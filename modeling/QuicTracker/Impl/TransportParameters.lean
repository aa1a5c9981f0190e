import QuicTracker.Impl.Common

/-!
This module contains the transport parameters of `transport_parameters.go`. The encoding of the TLS
extension is done by another library, it is an argument here. The map for the JSON output is left out.
-/

namespace QuicTracker

namespace TransportParametersType

def originalConnectionId : Nat := 0x0000
def idleTimeout : Nat := 0x0001
def statelessResetToken : Nat := 0x0002
def maxPacketSize : Nat := 0x0003
def initialMaxData : Nat := 0x0004
def initialMaxStreamDataBidiLocal : Nat := 0x0005
def initialMaxStreamDataBidiRemote : Nat := 0x0006
def initialMaxStreamDataUni : Nat := 0x0007
def initialMaxStreamsBidi : Nat := 0x0008
def initialMaxStreamsUni : Nat := 0x0009
def ackDelayExponent : Nat := 0x000a
def maxAckDelay : Nat := 0x000b
def disableMigration : Nat := 0x000c
def preferredAddress : Nat := 0x000d

end TransportParametersType

structure TransportParameter where
  parameterType : Nat
  value : List UInt8
  deriving DecidableEq, Repr

abbrev TransportParameterList := List TransportParameter

structure QuicTransportParameters where
  originalConnectionId : ConnectionID := []
  idleTimeout : Nat := 0
  statelessResetToken : List UInt8 := []
  maxPacketSize : Nat := 0
  maxData : Nat := 0
  maxStreamDataBidiLocal : Nat := 0
  maxStreamDataBidiRemote : Nat := 0
  maxStreamDataUni : Nat := 0
  maxBidiStreams : Nat := 0
  maxUniStreams : Nat := 0
  ackDelayExponent : Nat := 0
  maxAckDelay : Nat := 0
  disableMigration : Bool := false
  preferredAddress : List UInt8 := []
  additionalParameters : TransportParameterList := []
  deriving DecidableEq, Repr

structure ClientHelloTransportParameters where
  initialVersion : Nat
  parameters : TransportParameterList
  deriving DecidableEq, Repr

structure EncryptedExtensionsTransportParameters where
  negotiatedVersion : Nat := 0
  supportedVersions : List Nat := []
  parameters : TransportParameterList := []
  deriving DecidableEq, Repr

structure TLSTransportParameterHandler where
  negotiatedVersion : Nat
  initialVersion : Nat
  quicTransportParameters : QuicTransportParameters
  encryptedExtensionsTransportParameters : Option EncryptedExtensionsTransportParameters := none
  receivedParameters : Option QuicTransportParameters := none
  deriving DecidableEq, Repr

def newTLSTransportParameterHandler (negotiatedVersion initialVersion : Nat) :
    TLSTransportParameterHandler where
  negotiatedVersion := negotiatedVersion
  initialVersion := initialVersion
  quicTransportParameters := {
    maxStreamDataBidiLocal := 16 * 1024
    maxData := 32 * 1024
    maxBidiStreams := 1
    maxUniStreams := 1
    idleTimeout := 10 }

namespace TLSTransportParameterHandler

open TransportParametersType

def addParameter (parametersType value : Nat) : Option TransportParameter := do
  let bytes ← encodeVarInt value
  return ⟨parametersType, bytes⟩

def extensionParameters (h : TLSTransportParameterHandler) : Option TransportParameterList := do
  let p := h.quicTransportParameters
  let maxStreamDataBidiLocal ← addParameter initialMaxStreamDataBidiLocal p.maxStreamDataBidiLocal
  let maxData ← addParameter initialMaxData p.maxData
  let maxBidiStreams ← addParameter initialMaxStreamsBidi p.maxBidiStreams
  let maxUniStreams ← addParameter initialMaxStreamsUni p.maxUniStreams
  let idleTimeout ← addParameter idleTimeout p.idleTimeout
  return [maxStreamDataBidiLocal, maxData, maxBidiStreams, maxUniStreams, idleTimeout] ++
    p.additionalParameters

/-- An error of `Marshal` is the inner `none`. -/
def getExtensionData (marshal : ClientHelloTransportParameters → Option (List UInt8))
    (h : TLSTransportParameterHandler) : Option (Option (List UInt8)) := do
  let parameters ← h.extensionParameters
  return marshal ⟨h.initialVersion, parameters⟩

/-- A value that is read as an integer. The field is set to 0 when that fails. -/
def receiveVarInt (set : Nat → QuicTransportParameters) (value : List UInt8) :
    QuicTransportParameters × Bool :=
  match (readVarIntValue value).1 with
  | some i => (set i, true)
  | none => (set 0, false)

def receiveParameter (r : QuicTransportParameters) (p : TransportParameter) :
    QuicTransportParameters × Bool :=
  if p.parameterType = originalConnectionId then
    ({ r with originalConnectionId := p.value }, true)
  else if p.parameterType = idleTimeout then
    receiveVarInt (fun i => { r with idleTimeout := i }) p.value
  else if p.parameterType = statelessResetToken then
    ({ r with statelessResetToken := p.value }, true)
  else if p.parameterType = maxPacketSize then
    receiveVarInt (fun i => { r with maxPacketSize := i }) p.value
  else if p.parameterType = initialMaxData then
    receiveVarInt (fun i => { r with maxData := i }) p.value
  else if p.parameterType = initialMaxStreamDataBidiLocal then
    receiveVarInt (fun i => { r with maxStreamDataBidiLocal := i }) p.value
  else if p.parameterType = initialMaxStreamDataBidiRemote then
    receiveVarInt (fun i => { r with maxStreamDataBidiRemote := i }) p.value
  else if p.parameterType = initialMaxStreamDataUni then
    receiveVarInt (fun i => { r with maxStreamDataUni := i }) p.value
  else if p.parameterType = initialMaxStreamsBidi then
    receiveVarInt (fun i => { r with maxBidiStreams := i }) p.value
  else if p.parameterType = initialMaxStreamsUni then
    receiveVarInt (fun i => { r with maxUniStreams := i }) p.value
  else if p.parameterType = ackDelayExponent then
    receiveVarInt (fun i => { r with ackDelayExponent := i }) p.value
  else if p.parameterType = maxAckDelay then
    receiveVarInt (fun i => { r with maxAckDelay := i }) p.value
  else if p.parameterType = disableMigration then
    ({ r with disableMigration := true }, true)
  else if p.parameterType = preferredAddress then
    ({ r with preferredAddress := p.value }, true)
  else
    ({ r with additionalParameters := r.additionalParameters ++ [p] }, true)

/-- The loop over the parameters stops at the first integer that cannot be read. -/
def receiveParameters (r : QuicTransportParameters) (parameters : TransportParameterList) :
    Option QuicTransportParameters :=
  match parameters with
  | [] => some r
  | p :: parameters =>
    match receiveParameter r p with
    | (r, true) => receiveParameters r parameters
    | (_, false) => none

/--
The structure that `unmarshal` is given is filled, and an error is returned. The text of the error is that
of the library, or of a reader that is at its end.
-/
def receiveExtensionData
    (unmarshal : List UInt8 → EncryptedExtensionsTransportParameters →
      Option String × EncryptedExtensionsTransportParameters)
    (h : TLSTransportParameterHandler) (data : List UInt8) :
    Option String × TLSTransportParameterHandler :=
  let extensions := h.encryptedExtensionsTransportParameters.getD {}
  let (err, extensions) := unmarshal data extensions
  let h := { h with encryptedExtensionsTransportParameters := some extensions }
  match err with
  | some err => (some err, h)
  | none =>
    match receiveParameters {} extensions.parameters with
    | none => (some "EOF", h)
    | some r => (none, { h with receivedParameters := some r })

end TLSTransportParameterHandler

end QuicTracker
