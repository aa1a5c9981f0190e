import QuicTracker.Impl.Scenarii.Paths
import QuicTracker.Lemmas.Client
import QuicTracker.Lemmas.Scenarii.Scenario

/-!
This module contains the verdicts of `ack_ecn` and of `connection_migration`. The first one does not depend on the
order in which the marks and the acknowledgements arrive.
-/

namespace QuicTracker

namespace AckECN

variable {τ : Type}

def marks (input : Input) : Bool :=
  match input with
  | .ecnStatus status => status ≠ .nonECT
  | _ => false

def acknowledges (input : Input) : Bool :=
  match input with
  | .incoming (.frames p) => p.contains FrameType.ackECN
  | _ => false

def code (marked acknowledged : Bool) : Nat :=
  match marked, acknowledged with
  | false, false => nonECN
  | true, false => noACKECNReceived
  | false, true => nonECNButACKECN
  | true, true => 0

theorem note_errorCode (alone other : Nat) (trace : Trace)
    : (note alone other trace).errorCode
        = if trace.errorCode = nonECN then alone else if trace.errorCode = other then 0 else trace.errorCode := by
  unfold note
  split
  . rfl
  . split <;> rfl

theorem step_code {trace : Trace} {marked acknowledged : Bool} (h : trace.errorCode = code marked acknowledged)
    (input : Input)
    : (step trace input).errorCode = code (marked || marks input) (acknowledged || acknowledges input) := by
  rcases input with p | status
  . rcases p with p | p | p
    . simpa [step, marks, acknowledges] using h
    . simpa [step, marks, acknowledges] using h
    . unfold step marks acknowledges
      dsimp only
      rw [Bool.or_false]
      cases p.contains FrameType.ackECN with
      | false => simpa using h
      | true =>
        rw [if_pos rfl, Bool.or_true, noteACKECN, note_errorCode, h]
        cases marked <;> cases acknowledged <;> rfl
  . have hmark : (noteMark trace).errorCode = code true acknowledged := by
      rw [noteMark, note_errorCode, h]
      cases marked <;> cases acknowledged <;> rfl
    cases status with
    | nonECT => simpa [step, marks, acknowledges] using h
    | ect1 => simpa [step, marks, acknowledges] using hmark
    | ect0 => simpa [step, marks, acknowledges] using hmark
    | ce => simpa [step, marks, acknowledges] using hmark

theorem foldl_code {trace : Trace} {marked acknowledged : Bool} (h : trace.errorCode = code marked acknowledged)
    (inputs : List Input)
    : (inputs.foldl step trace).errorCode
        = code (marked || inputs.any marks) (acknowledged || inputs.any acknowledges) := by
  induction inputs generalizing trace marked acknowledged with
  | nil => simpa using h
  | cons input inputs ih =>
    rw [List.foldl_cons, List.any_cons, List.any_cons]
    rw [← Bool.or_assoc, ← Bool.or_assoc]
    exact ih (step_code h input)

theorem order_does_not_matter {conn conn' : Client τ} {trace trace' : Trace} {status : HandshakeStatus}
    {preferredUrl : List UInt8} {inputs : List Input} (hstatus : status.completed = true)
    (hrun : run conn trace (some status) none preferredUrl inputs = some (conn', trace'))
    : trace'.errorCode = code (inputs.any marks) (inputs.any acknowledges) := by
  unfold run at hrun
  rw [completeHandshake_completed trace _ hstatus, Option.bind_eq_bind, Option.bind_some] at hrun
  rcases Option.bind_eq_some_iff.mp hrun with ⟨_, _, h⟩
  injection h with h
  injection h with _ h
  have hcode : (inputs.foldl step { trace with errorCode := nonECN }).errorCode
      = code (false || inputs.any marks) (false || inputs.any acknowledges) := by
    apply foldl_code
    rfl
  rw [← h]
  simpa using hcode

def samplePacket : Packet :=
  .frames ⟨.short ⟨false, [], ⟨0, 1⟩, 0⟩, .appData, .oneRTT, [.ackECN ⟨⟨0, 0, 0, [⟨0, 0⟩]⟩, 1, 0, 0⟩]⟩

/-- The acknowledgement arrives before the first mark. -/
theorem order_does_not_matter_late
    : ∃ conn' trace', run sampleClient {} (some ⟨true, none, none⟩) none []
          [.incoming samplePacket, .ecnStatus .nonECT, .ecnStatus .ce] = some (conn', trace') ∧
        trace'.errorCode = 0 := by
  have hsome : (run sampleClient {} (some ⟨true, none, none⟩) none []
      [.incoming samplePacket, .ecnStatus .nonECT, .ecnStatus .ce]).isSome := by
    decide +kernel
  rcases Option.isSome_iff_exists.mp hsome with ⟨⟨conn', trace'⟩, hrun⟩
  refine ⟨conn', trace', hrun, ?_⟩
  rw [order_does_not_matter rfl hrun]
  decide

end AckECN

namespace ConnectionMigration

variable {τ : Type}

def validates (p : Packet) : Bool :=
  match p with
  | .frames p => p.contains FrameType.pathChallenge
  | _ => false

def code (received validated : Bool) : Nat :=
  match received, validated with
  | _, true => 0
  | true, false => hostDidNotValidateNewPath
  | false, false => hostDidNotMigrate

theorem step_code {trace : Trace} {received validated : Bool} (h : trace.errorCode = code received validated)
    (p : Packet)
    : (step trace p).errorCode = code true (validated || validates p) := by
  -- What the step does for any packet.
  have hreceived : (if trace.errorCode = hostDidNotMigrate then
      { trace with errorCode := hostDidNotValidateNewPath } else trace).errorCode = code true validated := by
    rw [h]
    cases received <;> cases validated <;> first | rfl | exact h
  rcases p with p | p | p
  . simpa [step, validates] using hreceived
  . simpa [step, validates] using hreceived
  . unfold step
    dsimp only
    cases hp : p.contains FrameType.pathChallenge with
    | true => simp [validates, hp, code]
    | false => simpa [validates, hp] using hreceived

theorem foldl_code {trace : Trace} {received validated : Bool} (h : trace.errorCode = code received validated)
    (packets : List Packet)
    : (packets.foldl step trace).errorCode
        = code (received || !packets.isEmpty) (validated || packets.any validates) := by
  induction packets generalizing trace received validated with
  | nil => simpa using h
  | cons p packets ih =>
    rw [List.foldl_cons, List.any_cons]
    rw [← Bool.or_assoc]
    have hrest := ih (step_code h p)
    simpa using hrest

/-- Any packet from the peer counts as a migration, also one that was sent to the old path. -/
theorem any_packet_migrates {conn conn' : Client τ} {trace trace' : Trace} {status : HandshakeStatus}
    {preferredUrl : List UInt8} {packets : List Packet} (hstatus : status.completed = true)
    (hrun : run conn trace (some status) true preferredUrl packets = some (conn', trace'))
    : trace'.errorCode = code (!packets.isEmpty) (packets.any validates) := by
  unfold run at hrun
  rw [completeHandshake_completed trace _ hstatus, Option.bind_eq_bind, Option.bind_some] at hrun
  rcases Option.bind_eq_some_iff.mp hrun with ⟨_, _, h⟩
  injection h with h
  injection h with _ h
  have hcode : (packets.foldl step { trace with errorCode := hostDidNotMigrate }).errorCode
      = code (false || !packets.isEmpty) (false || packets.any validates) := by
    apply foldl_code
    rfl
  rw [← h]
  simpa using hcode

def samplePacket : Packet := .frames ⟨.short ⟨false, [], ⟨0, 1⟩, 0⟩, .appData, .oneRTT, [.ping]⟩

/-- The packet has no PATH_CHALLENGE frame, and nothing tells on which path it was sent. -/
theorem any_packet_migrates_ping
    : ∃ conn' trace', run sampleClient {} (some ⟨true, none, none⟩) true [] [samplePacket]
          = some (conn', trace') ∧
        trace'.errorCode = hostDidNotValidateNewPath := by
  have hsome : (run sampleClient {} (some ⟨true, none, none⟩) true [] [samplePacket]).isSome := by
    decide +kernel
  rcases Option.isSome_iff_exists.mp hsome with ⟨⟨conn', trace'⟩, hrun⟩
  refine ⟨conn', trace', hrun, ?_⟩
  rw [any_packet_migrates rfl hrun]
  decide

end ConnectionMigration

end QuicTracker
