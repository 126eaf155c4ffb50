import CredentialGate.Main
import CredentialGate.Proofs.Audit.Log
import CredentialGate.Proofs.CommandLine.LocalReview
import CredentialGate.Proofs.CommandLine.Logout
import CredentialGate.Proofs.Config.Settings
import CredentialGate.Proofs.Http.Directory
import CredentialGate.Proofs.Identity.Local
import CredentialGate.Proofs.Review.Acceptance
import CredentialGate.Proofs.Review.Confidentiality
import CredentialGate.Proofs.Review.Interleaving
import CredentialGate.Proofs.Review.Listed
import CredentialGate.Proofs.Session.Aftermath
import CredentialGate.Proofs.Session.Erasure
import CredentialGate.Proofs.Session.Publication
import CredentialGate.Proofs.Session.WireLogin
import CredentialGate.Proofs.Session.Loading
import CredentialGate.Proofs.Session.Storage
import CredentialGate.Proofs.Session.Mirror
import CredentialGate.Proofs.CommandLine.LogoutReport
import CredentialGate.Proofs.CommandLine.IssuedTokens
import CredentialGate.Proofs.Http.UserAddress
import CredentialGate.Proofs.Session.SlotFrame
import CredentialGate.Proofs.Session.Unissued
import CredentialGate.Proofs.CommandLine.Layers
import CredentialGate.Proofs.Store.Grants
