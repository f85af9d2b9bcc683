/-!
# Reasons for failures

Every refusal of the library names one of these reasons.  Their wording is kept in one
place, apart from the decisions that lead to them.
-/

namespace ThreeMove

inductive Reason where
  -- groups and parameters
  | orderTooSmall
  | modulusNotTwiceOrder
  | generatorOutOfRange
  | notQuadraticResidue
  | elementWrongSize
  | notCanonicalPoint
  | groupInvalid
  | soundnessTooLarge
  -- written messages
  | integerTooWide
  | trailingBytes
  | integerNegative
  | messageTruncated
  | challengeNegative
  | commitValueNegative
  | commitmentWrongSize
  | randomnessTooWide
  | decommitmentTruncated
  | committedValueNegative
  | recordWrongSize
  | identifierMissing
  -- commitments
  | hardnessUndeclared
  | elementInvalid
  | commitValueOutOfRange
  | nothingCommitted
  | nothingReceived
  | openedValueOutOfRange
  | openingMismatch
  | identifierMismatch
  | commitmentNotRecorded
  -- compositions
  | noComponents
  | soundnessMismatch
  | componentCountMismatch
  | compositeMessageExpected
  | compositeProverInputExpected
  | compositeCommonInputExpected
  | logarithmProverInputExpected
  | logarithmCommonInputExpected
  | elementAndIntegerExpected
  | challengeOutOfRange
  | verifiedWithoutChallenge
  -- order of steps
  | secondBeforeFirst
  | firstWhileAwaiting
  | challengeChanged
  | receivedBeforeSampling
  | sentBeforeReceiving
  | sentBeforeSampling
  | verifiedBeforeSending
  | commitmentDuringRun
  | firstBeforeCommitment
  | openedBeforeFirst
  | secondBeforeOpening
  /-- A reason given by a caller in its own words. -/
  | stated (text : String)
deriving DecidableEq, Repr

def Reason.text : Reason → String
  | orderTooSmall => "`q <= 1`"
  | modulusNotTwiceOrder => "`p != 2q + 1`"
  | generatorOutOfRange => "`g` is not in `(1, p)`"
  | notQuadraticResidue => "value is not a quadratic residue modulo `p`"
  | elementWrongSize => "encoded element has the wrong size"
  | notCanonicalPoint => "encoding is not a canonical Ristretto point"
  | groupInvalid => "group parameters are invalid"
  | soundnessTooLarge => "soundness parameter does not satisfy `2^t < q`"
  | integerTooWide => "integer does not fit its declared width"
  | trailingBytes => "trailing bytes after message"
  | integerNegative => "integer is negative"
  | messageTruncated => "message is truncated"
  | challengeNegative => "challenge is negative"
  | commitValueNegative => "commit value is negative"
  | commitmentWrongSize => "commitment message has the wrong size"
  | randomnessTooWide => "randomness does not fit its declared width"
  | decommitmentTruncated => "decommitment message is truncated"
  | committedValueNegative => "committed value is negative"
  | recordWrongSize => "commit phase output has the wrong size"
  | identifierMissing => "message is missing its identifier"
  | hardnessUndeclared => "group does not declare discrete logarithm hardness"
  | elementInvalid => "received an invalid group element"
  | commitValueOutOfRange => "commit value is not in `[0, q)`"
  | nothingCommitted => "no commitment was made under this identifier"
  | nothingReceived => "no commitment was received under this identifier"
  | openedValueOutOfRange => "committed value is not in `[0, q)`"
  | openingMismatch => "decommitment does not open the commitment"
  | identifierMismatch => "decommitment has the wrong identifier"
  | commitmentNotRecorded => "commitment was not recorded"
  | noComponents => "composition has no components"
  | soundnessMismatch => "components use different soundness parameters"
  | componentCountMismatch => "number of components does not match the composition"
  | compositeMessageExpected => "expected a composite message"
  | compositeProverInputExpected => "expected composite prover input"
  | compositeCommonInputExpected => "expected composite common input"
  | logarithmProverInputExpected => "expected discrete logarithm prover input"
  | logarithmCommonInputExpected => "expected discrete logarithm common input"
  | elementAndIntegerExpected => "expected a group element and an integer"
  | challengeOutOfRange => "challenge is not in `[0, 2^t)`"
  | verifiedWithoutChallenge => "verification requested before a challenge was set"
  | secondBeforeFirst => "second message requested before first message"
  | firstWhileAwaiting => "first message requested while awaiting the challenge"
  | challengeChanged => "challenge changed during a run"
  | receivedBeforeSampling => "first message received before a fresh challenge was sampled"
  | sentBeforeReceiving => "challenge sent before the first message was received"
  | sentBeforeSampling => "challenge sent before one was sampled"
  | verifiedBeforeSending => "verification requested before the challenge was sent"
  | commitmentDuringRun => "commitment received during a run"
  | firstBeforeCommitment => "first message requested before the challenge commitment"
  | openedBeforeFirst => "decommitment received before the first message was sent"
  | secondBeforeOpening => "second message requested before the challenge was decommitted"
  | stated text => text

end ThreeMove
