import ThreeMove.Fault.Reason

/-!
# Faults of each layer

Each layer has its own kinds of fault, and a fault of a lower layer is kept inside the one
that reports it.  A compiled protocol reports cheating, a broken channel and malformed
messages as such, whichever of its parts met them.
-/

namespace ThreeMove

/-- Numbers that make no group, or bytes and numbers that name no element. -/
inductive GroupFault where
  | unsuitable (reason : Reason)
  | noElement (reason : Reason)
deriving DecidableEq, Repr

/-- A group and a soundness parameter that do not go together. -/
inductive ParameterFault where
  | unsuitable (reason : Reason)
deriving DecidableEq, Repr

/-- The other end is gone, or this end is closed. -/
inductive ChannelFault where
  | disconnected
deriving DecidableEq, Repr

/-- Bytes that are no message, or a message that has no bytes. -/
inductive MessageFault where
  | malformed (reason : Reason)
deriving DecidableEq, Repr

/-- What can go wrong with the moves of a three-move protocol. -/
inductive SigmaFault where
  | unsuitable (reason : Reason)
  /-- A step that the party cannot take now. -/
  | outOfOrder (reason : Reason)
  /-- The other party cannot have followed the protocol. -/
  | cheating (reason : Reason)
  /-- An input or a message of another shape than the composition. -/
  | misshapen (reason : Reason)
  | message (source : MessageFault)
  | channel (source : ChannelFault)
deriving DecidableEq, Repr

/-- What can go wrong with commitments and their openings. -/
inductive CommitmentFault where
  | unsuitable (reason : Reason)
  | cheating (reason : Reason)
  | message (source : MessageFault)
  | channel (source : ChannelFault)
deriving DecidableEq, Repr

/-- What can go wrong in a protocol with a committed challenge. -/
inductive ProofFault where
  | cheating (reason : Reason)
  | sigma (source : SigmaFault)
  | commitment (source : CommitmentFault)
  | message (source : MessageFault)
  | channel (source : ChannelFault)
deriving DecidableEq, Repr

namespace ProofFault

/-- Cheating and the faults of messages and channels lose the layer that met them. -/
def ofSigma : SigmaFault → ProofFault
  | .cheating reason => .cheating reason
  | .message source => .message source
  | .channel source => .channel source
  | .unsuitable reason => .sigma (.unsuitable reason)
  | .outOfOrder reason => .sigma (.outOfOrder reason)
  | .misshapen reason => .sigma (.misshapen reason)

def ofCommitment : CommitmentFault → ProofFault
  | .cheating reason => .cheating reason
  | .message source => .message source
  | .channel source => .channel source
  | .unsuitable reason => .commitment (.unsuitable reason)

end ProofFault

def GroupFault.text : GroupFault → String
  | unsuitable reason => "An invalid parameter was provided: " ++ reason.text
  | noElement reason => "An invalid group element was provided: " ++ reason.text

def ParameterFault.text : ParameterFault → String
  | unsuitable reason => "An invalid parameter was provided: " ++ reason.text

def ChannelFault.text : ChannelFault → String
  | disconnected => "The channel is disconnected"

def MessageFault.text : MessageFault → String
  | malformed reason => "Invalid message encoding: " ++ reason.text

def SigmaFault.text : SigmaFault → String
  | unsuitable reason => "An invalid parameter was provided: " ++ reason.text
  | outOfOrder reason => "Protocol step called out of order: " ++ reason.text
  | cheating reason => "Cheat attempt detected: " ++ reason.text
  | misshapen reason => "Invalid input: " ++ reason.text
  | message source => "Sigma message error: " ++ source.text
  | channel source => "Sigma channel error: " ++ source.text

def CommitmentFault.text : CommitmentFault → String
  | unsuitable reason => "An invalid parameter was provided: " ++ reason.text
  | cheating reason => "Cheat attempt detected: " ++ reason.text
  | message source => "Commitment message error: " ++ source.text
  | channel source => "Commitment channel error: " ++ source.text

def ProofFault.text : ProofFault → String
  | cheating reason => "Cheat attempt detected: " ++ reason.text
  | sigma source => "Sigma protocol error: " ++ source.text
  | commitment source => "Commitment error: " ++ source.text
  | message source => "Message error: " ++ source.text
  | channel source => "Channel error: " ++ source.text

end ThreeMove
