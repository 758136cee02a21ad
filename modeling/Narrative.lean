import Narrative.Variable.Named
import Narrative.Session.Edit
import Narrative.Session.Action
import Narrative.Assets.Load
import Narrative.Settings
import Narrative.Service.Exchange
import Narrative.Proofs.Service.Live
import Narrative.Proofs.Service.Slots
import Narrative.Proofs.Service.Messages
import Narrative.Proofs.Service.Bounded
import Narrative.Proofs.Service.Undefined
import Narrative.Proofs.Service.Transfer
import Narrative.Proofs.Service.Choices
import Narrative.Proofs.Service.Restart
import Narrative.Proofs.Service.Places
import Narrative.Proofs.Session.Imports
import Narrative.Proofs.Service.Interleaving
import Narrative.Proofs.Service.Isolation
import Narrative.Proofs.Service.Forgetting
import Narrative.Proofs.Service.Distinct
import Narrative.Proofs.Storage.Reread
import Narrative.Proofs.Service.Followers
import Narrative.Proofs.Service.Addressed
import Narrative.Proofs.Service.Founding
import Narrative.Proofs.Playback.Effects
import Narrative.Proofs.Session.Taking
import Narrative.Proofs.Story.Frames
import Narrative.Proofs.Service.Persisted
import Narrative.Proofs.Service.Faults
import Narrative.Proofs.Service.Redefined
import Narrative.Proofs.Session.Loading
import Narrative.Proofs.Service.SlotLists
import Narrative.Proofs.Session.BlankImports
import Narrative.Proofs.Service.Creations
import Narrative.Proofs.Service.Updates
import Narrative.Proofs.Service.StartFirst
import Narrative.Proofs.Service.Sharing
import Narrative.Proofs.Service.Catalog
