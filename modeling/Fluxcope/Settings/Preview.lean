import Fluxcope.Settings.MutationSpec
import Fluxcope.Settings.TransactionInvariants
/-!
# Previews of mapping mutations

A preview takes a snapshot under the admission check of a transaction and does the
work of the transaction on it, up to the compiled policy; then it explains URLs by
that policy.
-/

namespace Fluxcope.Settings

open Fluxcope.Library Fluxcope.Mapping

/-! ## The preview -/

structure MappingMutationPreview (env : Environment) where
  affected : MappingObjectRef
  effect : MutationEffect
  validation : MappingValidationResult
  explanations : List (MappingExplanation env)

structure MappingPreviewReply (env : Environment) where
  revision : Nat
  configMode : ConfigMode
  persistence : PersistenceMode
  preview : MappingMutationPreview env

def maxPreviewUrls : Nat := 16

def maxPreviewUrlBytes : Nat := 64 * 1024

def validatePreviewUrls (urls : List Text) : Except SettingsError Unit :=
  if urls.length > maxPreviewUrls then
    .error
      { code := .invalidArgument
        message := "too many mapping preview URLs"
        retryable := false
        details := .maximum maxPreviewUrls }
  else
    match urls.zipIdx.find? fun (url, _) => url = [] || url.utf8Len > maxPreviewUrlBytes with
    | some (_, index) =>
      .error
        { code := .invalidArgument
          message := "mapping preview URL length is out of range"
          retryable := false
          details := .urlLength index 1 maxPreviewUrlBytes }
    | none => .ok ()

section Preview

variable (env : Environment) {globs : Globset} (reader : UriReader env)

/-- The worker of a preview. -/
def previewCandidate (globs : Globset) (settings : AppSettings) (mutation : MappingMutation)
    (urls : List Text) : Except SettingsError (MappingMutationPreview env) :=
  match applyMappingMutationOwned env settings mutation with
  | .error error => .error error.toSettingsError
  | .ok (candidate, change) =>
    match compileCandidate env globs candidate with
    | .error error => .error error
    | .ok policy =>
      let validation := validateMappingCandidate env candidate.proxy
      .ok
        { affected := change.affected
          effect := change.effect
          validation
          explanations := urls.map fun url =>
            explainCompiledMapping reader candidate.proxy url validation policy.mapping }

def previewMappingMutation (runtime : AppRuntime globs) (mutation : MappingMutation)
    (expectedRevision : Nat) (urls : List Text) :
    AppRuntime globs × Except SettingsError (MappingPreviewReply env) :=
  match validatePreviewUrls urls with
  | .error error => (runtime, .error error)
  | .ok () =>
    match runtime.executeControl (.previewMappingSnapshot expectedRevision) with
    | (runtime, .ok (.mappingSettings snapshot)) =>
      (runtime,
        (previewCandidate env reader globs snapshot.settings mutation urls).map fun preview =>
          { revision := snapshot.revision
            configMode := snapshot.configMode
            persistence := snapshot.persistence
            preview })
    | (runtime, .ok _) =>
      (runtime, .error
        (.internal "runtime returned an unexpected mapping preview snapshot"))
    | (runtime, .error error) => (runtime, .error error)

end Preview

/-! ## The commit it predicts -/

section Commit

variable (env : Environment) {globs : Globset}

/-- The next step of the transaction in hand, when nothing goes wrong outside. -/
def SettingsSystem.proceed (s : SettingsSystem globs) : SettingsSystem globs :=
  match s.phase with
  | .idle => s
  | .beginning work => s.beginTransaction work
  | .admitted work begun => s.prepareTransaction env work begun
  | .prepared work begun candidate => s.persistTransaction work begun candidate
  | .finalizing work begun commit => s.finalizeTransaction work begun commit
  | .aborting work begun error => s.abortTransaction work begun error

/-- `mutate_mapping` with the service free and a file that can be written. -/
def mutateMapping (runtime : AppRuntime globs) (mutation : MappingMutation)
    (expectedRevision : Nat) : SettingsSystem globs :=
  (SettingsSystem.proceed env)^[4]
    { runtime, phase := .beginning (.mutateMapping mutation expectedRevision) }

end Commit

end Fluxcope.Settings
