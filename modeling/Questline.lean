import Questline.Main
import Questline.Tutorial.Export
import Questline.Proofs.Concern
import Questline.Proofs.Stopping
import Questline.Proofs.Finality
import Questline.Proofs.Waiting
import Questline.Proofs.Shape
import Questline.Proofs.Keeping
import Questline.Proofs.Resting
import Questline.Proofs.Refinement
import Questline.Proofs.Completion
import Questline.Proofs.Loading
import Questline.Proofs.Errands
import Questline.Proofs.Agreement
import Questline.Proofs.Isolation
import Questline.Proofs.Accounts
import Questline.Proofs.Searching
import Questline.Proofs.Reach
import Questline.Proofs.Exits
import Questline.Proofs.Prediction
import Questline.Proofs.Handover
import Questline.Proofs.Sitting
import Questline.Proofs.Recovery
import Questline.Proofs.Transfers
import Questline.Proofs.Persistence
import Questline.Proofs.Durability
import Questline.Proofs.Chains
import Questline.Proofs.Omissions
import Questline.Proofs.Refusals
import Questline.Proofs.Games
import Questline.Proofs.Boundary
import Questline.Proofs.Acceptance
import Questline.Proofs.Dispatch
import Questline.Proofs.Filling
import Questline.Proofs.Comparison
import Questline.Proofs.Visits
import Questline.Proofs.Conditions
import Questline.Proofs.Asides
import Questline.Proofs.Layout
import Questline.Proofs.Reports
import Questline.Proofs.Bounded
import Questline.Proofs.Timekeeping
import Questline.Proofs.Spellings
import Questline.Proofs.Guarantees
import Questline.Proofs.Retouching
import Questline.Proofs.Lessons
import Questline.Proofs.Recital
import Questline.Proofs.Titles
import Questline.Proofs.Inventory
import Questline.Proofs.Choosing
import Questline.Proofs.Addresses
import Questline.Proofs.Settings
