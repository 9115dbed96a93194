/-
# Verdicts and decisions

A requirement's verdict on one signature has three outcomes: the author is accepted for
these claims, the signature is rejected for a reason, or the requirement has no opinion.
Whether an image may run has two: it may, or it may not for a reason.
-/
import ImageTrust.Fault.Basic

namespace ImageTrust

/-- A verdict on one signature. -/
inductive Verdict where
  | accepted (s : Signature)
  | rejected (why : Fault)
  | unknown
  /-- An outcome that has another name and says nothing. -/
  | unnamed (acceptance : Text)
deriving DecidableEq

/-- Whether an image may run. -/
inductive Decision where
  | allow
  | deny (why : Fault)
deriving DecidableEq

/-- The word for nothing among other values. -/
def describedNothing : Text := "None"

namespace Verdict

/-- The name of the outcome. -/
def acceptance : Verdict → Text
  | .accepted _ => "accepted"
  | .rejected _ => "rejected"
  | .unknown => "unknown"
  | .unnamed t => t

/-- The claims, of an acceptance. -/
def signature? : Verdict → Option Signature
  | .accepted s => some s
  | _ => none

/-- The reason, of a rejection. -/
def error? : Verdict → Option Fault
  | .rejected f => some f
  | _ => none

/-- The verdict of these parts: claims come with an acceptance and with nothing else, a
reason with a rejection and with nothing else. -/
def ofParts (acceptance : Text) (signature : Option Signature) (error : Option Fault) :
    Except Fault Verdict :=
  let clash (part : Text) (shown : Option Text) : Except Fault Verdict :=
    .error (.inconsistent (Text.sentence
      [acceptance, " verdict with ", part, "=", shown.getD describedNothing]))
  let badSignature := clash "signature" (signature.map Signature.shown)
  let badError := clash "error" (error.map Fault.described)
  if acceptance = "accepted" then
    match signature, error with
    | none, _ => badSignature
    | some _, some _ => badError
    | some s, none => .ok (.accepted s)
  else
    match signature with
    | some _ => badSignature
    | none =>
      if acceptance = "rejected" then
        match error with
        | none => badError
        | some f => .ok (.rejected f)
      else
        match error with
        | some _ => badError
        | none => .ok (if acceptance = "unknown" then .unknown else .unnamed acceptance)

end Verdict

namespace Decision

/-- Whether the image may run. -/
def allowed : Decision → Bool
  | .allow => true
  | .deny _ => false

/-- The reason of a denial. -/
def error? : Decision → Option Fault
  | .allow => none
  | .deny f => some f

/-- The decision of these parts: a reason comes with a denial and with nothing else. -/
def ofParts (allowed : Bool) (error : Option Fault) : Except Fault Decision :=
  match allowed, error with
  | true, none => .ok .allow
  | false, some f => .ok (.deny f)
  | _, _ =>
    let flag : Text := if allowed then "True" else "False"
    .error (.inconsistent (Text.sentence
      ["RunDecision(allowed=", flag, ") with error=",
        (error.map Fault.described).getD describedNothing]))

/-- A denial as a fault. -/
def enforce : Decision → Except Fault Unit
  | .allow => .ok ()
  | .deny f => .error f

end Decision

end ImageTrust
