import ModelScopes.Script.Report
import ModelScopes.Proofs.Storage.Directory
import ModelScopes.Proofs.Scope.Lifecycle
import ModelScopes.Proofs.Extension.Session
import ModelScopes.Proofs.Callers.Agreement
import ModelScopes.Proofs.Callers.Alone
import ModelScopes.Proofs.Callers.Sweeping
import ModelScopes.Proofs.Callers.Progress
import ModelScopes.Proofs.Codec.Laws
import ModelScopes.Proofs.Spec.Production
import ModelScopes.Proofs.Codec.RoundTrip
import ModelScopes.Proofs.Spec.Recorded
import ModelScopes.Proofs.Extension.Building
import ModelScopes.Proofs.Extension.Noted
import ModelScopes.Proofs.Extension.SpecScopes
import ModelScopes.Proofs.Extension.Stocked
import ModelScopes.Proofs.Extension.Reception
import ModelScopes.Proofs.Siblings.Producers
import ModelScopes.Proofs.Model.Keys
import ModelScopes.Proofs.Events.Story
import ModelScopes.Proofs.Events.Account
import ModelScopes.Proofs.Json.Spelling
import ModelScopes.Proofs.Codec.Layouts
import ModelScopes.Proofs.Codec.AnyLayout
import ModelScopes.Proofs.Toml.Documents
import ModelScopes.Proofs.Toml.Written
import ModelScopes.Proofs.Model.Caching
import ModelScopes.Proofs.Spec.Content
import ModelScopes.Proofs.Extension.Nested
import ModelScopes.Proofs.Extension.Ready
import ModelScopes.Proofs.Spec.Imports
import ModelScopes.Proofs.Model.Editing
import ModelScopes.Proofs.Extension.Failing
import ModelScopes.Proofs.Codec.EitherForm
import ModelScopes.Proofs.ClassName
import ModelScopes.Proofs.Callers.Retrying
import ModelScopes.Proofs.Codec.RepeatedKeys
