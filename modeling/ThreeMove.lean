import ThreeMove.Random.SplitMix
import ThreeMove.Serial
import ThreeMove.Serial.Json
import ThreeMove.Channel.Meeting
import ThreeMove.Channel.Pipe
import ThreeMove.Group.SafePrime
import ThreeMove.Group.Ristretto
import ThreeMove.Simulator
import ThreeMove.Interactive.Prover
import ThreeMove.Interactive.Verifier
import ThreeMove.KnowledgeProof.Prover
import ThreeMove.KnowledgeProof.Verifier
import ThreeMove.Text
import ThreeMove.Proofs.Group.Lawful
import ThreeMove.Proofs.Group.PowMod
import ThreeMove.Proofs.Group.Primality
import ThreeMove.Proofs.Challenge
import ThreeMove.Proofs.Composition.Begun
import ThreeMove.Proofs.Composition.Completeness
import ThreeMove.Proofs.HonestSession
import ThreeMove.Proofs.Interactive.HonestRun
import ThreeMove.Proofs.KnowledgeProof.Acceptance
import ThreeMove.Proofs.KnowledgeProof.HonestRun
import ThreeMove.Proofs.KnowledgeProof.Safety
import ThreeMove.Proofs.SessionRefinement
import ThreeMove.Proofs.Composition.Simulation
import ThreeMove.Proofs.Talk.Channel
import ThreeMove.Proofs.Decides
import ThreeMove.Proofs.Misbehaviour
import ThreeMove.Proofs.Interactive.Discipline
import ThreeMove.Proofs.Interactive.FreshAnswers
import ThreeMove.Proofs.Pedersen.Codec
import ThreeMove.Proofs.Pedersen.Hiding
import ThreeMove.Proofs.Pedersen.StoreRefinement
import ThreeMove.Proofs.Message.Grammar
import ThreeMove.Proofs.Forgetting
import ThreeMove.Proofs.Remnants
import ThreeMove.Proofs.Tampering
import ThreeMove.Proofs.Channel.Delivery
import ThreeMove.Proofs.Composition.Built
import ThreeMove.Proofs.Composition.Reached
import ThreeMove.Proofs.Composition.Acceptance
import ThreeMove.Proofs.Composition.Requests
import ThreeMove.Proofs.Composition.Renewal
import ThreeMove.Proofs.Pedersen.Consumption
import ThreeMove.Proofs.Composition.Answers
import ThreeMove.Proofs.Composition.Conjunction
import ThreeMove.Proofs.Group.Validity
import ThreeMove.Proofs.Interactive.Attempts
import ThreeMove.Proofs.Group.DrawnBases
import ThreeMove.Proofs.Group.Encoding
import ThreeMove.Proofs.Group.IntegerPowers
import ThreeMove.Proofs.Shortest
import ThreeMove.Proofs.Parameters
import ThreeMove.Proofs.Pedersen.LostCommits
import ThreeMove.Proofs.KnowledgeProof.Ordering
import ThreeMove.Proofs.Composition.Plan
import ThreeMove.Proofs.Group.SignPowers
import ThreeMove.Proofs.Group.AcceptedComposites
