/-
# Settings

Where the policy is, and how the lookaside store is reached.  A setting is given by name,
or in the environment under its name with a fixed beginning, in any case; a setting that
is given by name hides the environment.
-/
import ImageTrust.Datum.Check
import ImageTrust.Fault.Basic
import ImageTrust.Lookaside

namespace ImageTrust

/-- The settings. -/
structure Settings where
  policyPath : Text
  lookasideUrl : Option Text
  timeout : Binary64
  maxAttempts : Int
  retryBaseDelay : Binary64
  retryMaxDelay : Binary64
deriving DecidableEq

namespace Settings

/-- What every variable's name begins with. -/
def variableStart : Text := "image_policy_"

/-- The path of the policy, unless another one is given. -/
def standardPolicyPath : Text := "/etc/containers/policy.json"

/-- The names of the settings. -/
def names : List Text :=
  ["policy_path", "lookaside_url", "lookaside_timeout_seconds", "lookaside_max_attempts",
   "lookaside_retry_base_delay_seconds", "lookaside_retry_max_delay_seconds"]

/-- The value of a setting's variable. Of several spellings the last one counts. -/
def inEnvironment? (environment : List (Text × Text)) (name : Text) : Option Text :=
  (environment.reverse.find? fun v => v.1.lowered = variableStart ++ name).map Prod.snd

/-- What is given for the settings, with names and variables together. -/
def given (environment : List (Text × Text)) (named : List (Text × Datum)) : List (Datum × Datum) :=
  names.filterMap fun name =>
    match named.lookup name with
    | some d => some (.text name, d)
    | none => (inEnvironment? environment name).map fun t => (.text name, .text t)

/-- Every name that is none of a setting is a problem. -/
def checkNames (named : List (Text × Datum)) : Checked Unit :=
  (Checked.all ((named.filter fun n => !names.contains n.1).map fun n =>
    Checked.within (.name n.1) (.fail .extraForbidden : Checked Unit))).map fun _ => ()

/-- The settings of an environment and of values given by name. -/
def check (environment : List (Text × Text)) (named : List (Text × Datum)) : Checked Settings := do
  let entries := given environment named
  let member {α : Type} (name : Text) (value : α) (check : Datum → Checked α) : Checked α :=
    Datum.checkDefaulted name name value check entries
  let ((policyPath, lookasideUrl, timeout, maxAttempts, retryBaseDelay, retryMaxDelay), ()) ←
    Checked.both
      (Checked.both (member "policy_path" standardPolicyPath Datum.checkText)
        (Checked.both (member "lookaside_url" none (Datum.checkOptional Datum.checkText))
          (Checked.both (member "lookaside_timeout_seconds" (Binary64.ofInt 10) Datum.checkFloat)
            (Checked.both (member "lookaside_max_attempts" 3 Datum.checkInteger)
              (Checked.both
                (member "lookaside_retry_base_delay_seconds" (Binary64.ofDecimal false 5 (-1))
                  Datum.checkFloat)
                (member "lookaside_retry_max_delay_seconds" (Binary64.ofInt 8) Datum.checkFloat))))))
      (checkNames named)
  return { policyPath, lookasideUrl, timeout, maxAttempts, retryBaseDelay, retryMaxDelay }

/-- The backoff that the settings ask for. -/
def backoff (s : Settings) : Backoff :=
  ⟨.whole s.maxAttempts, .binary s.retryBaseDelay, .binary s.retryMaxDelay⟩

/-- The store that the settings ask for, over these means to reach it. An address has to be
set. -/
def store {σ : Type} (s : Settings) (get : Text → Act σ Response) (sleep : Number → Act σ Unit)
    (reach : Nat) : Except Fault (Lookaside σ) :=
  match s.lookasideUrl with
  | none | some [] => .error .noStore
  | some url =>
    .ok { baseUrl := Lookaside.trimmedUrl url, get, sleep, backoff := s.backoff,
          maxSignatures := Lookaside.standardMaxSignatures, reach }

end Settings

end ImageTrust
