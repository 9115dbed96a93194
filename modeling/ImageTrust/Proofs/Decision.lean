/-
# Decisions without a host

What the two operations of a context come to.  A decision runs between a check-out and a
check-in: from a ready context it is its body, run on a host where the context is in use,
and the check-in (`checkedOut_of_ready`); from any other context it is a fault and nothing
else (`checkedOut_of_not_ready`).

The bodies are loops in two directions, over signatures and then requirements and over
requirements and then signatures.  Each is given here as a function of the facts about the
image, and the actions come to its values.
-/
import ImageTrust.Proofs.Judgement

namespace ImageTrust

variable {σ α : Type}

namespace Context

/-! ## Checking out and in -/

theorem changeStage_apply (c : Context σ) (expected new : Stage) (h : Host σ) :
    c.changeStage expected new h =
      if h.stages c.number = expected then (.ok (), h.moved c.number new)
      else (.error (.contextState expected.name (h.stages c.number).name new.name), h) := by
  have hstage : c.stage h = (.ok (h.stages c.number), h) := rfl
  unfold changeStage
  rw [Act.bind_ok hstage]
  split <;> rfl

theorem checkedOut_of_not_ready (c : Context σ) (body : Act σ α) {h : Host σ}
    (hstage : h.stages c.number ≠ .ready) :
    c.checkedOut body h =
      (.error (.contextState Stage.ready.name (h.stages c.number).name Stage.inUse.name), h) := by
  unfold checkedOut
  exact Act.bind_error (by rw [changeStage_apply, if_neg hstage]) _

theorem destroy_of_not_ready (c : Context σ) {h : Host σ} (hstage : h.stages c.number ≠ .ready) :
    c.destroy h =
      (.error (.contextState Stage.ready.name (h.stages c.number).name Stage.destroyed.name), h) :=
  Act.bind_error (by rw [changeStage_apply, if_neg hstage]) _

theorem checkedOut_of_ready (c : Context σ) (body : Act σ α) {h : Host σ}
    (hstage : h.stages c.number = .ready) :
    c.checkedOut body h = match body (h.moved c.number .inUse) with
      | (result, h') =>
        if h'.stages c.number = .inUse then (result, h'.moved c.number .ready)
        else
          (.error (.contextState Stage.inUse.name (h'.stages c.number).name Stage.ready.name),
            h') := by
  have hout : c.changeStage .ready .inUse h = (.ok (), h.moved c.number .inUse) := by
    rw [changeStage_apply, if_pos hstage]
  unfold checkedOut
  rw [Act.bind_ok hout, Act.bind_ok (Act.outcome_apply _ _), Act.bind_apply, changeStage_apply]
  by_cases hin : (body (h.moved c.number .inUse)).2.stages c.number = .inUse
  · simp only [if_pos hin, Act.ofExcept_apply]
  · simp only [if_neg hin]

/-- The context is in use on the whole ground. -/
def InUseOn (c : Context σ) (g : Ground σ) : Prop := ∀ h, g.holds h → h.stages c.number = .inUse

theorem checkedOut_answers (c : Context σ) {g : Ground σ} (hg : c.InUseOn g) {body : Act σ α}
    {r : Except Fault α} (hbody : g.Answers body r) {h : Host σ}
    (hstage : h.stages c.number = .ready) (hh : g.holds (h.moved c.number .inUse)) :
    (c.checkedOut body h).1 = r := by
  obtain ⟨hres, hkept⟩ := hbody _ hh
  rw [checkedOut_of_ready c body hstage]
  simp only [if_pos (hg _ hkept), hres]

/-! ## Signatures with an accepted author -/

/-- The claims of a signature that some requirement accepts and none rejects: those of the
first that accepts. `found` is what was accepted so far. -/
def accepted (facts : Facts) (raw : Bytes) (found : Option Signature) :
    List Requirement → Option Signature
  | [] => found
  | r :: rest =>
    match r.verdict facts raw with
    | .rejected _ => none
    | .accepted s => accepted facts raw (some (found.getD s)) rest
    | _ => accepted facts raw found rest

variable {c : Context σ} {g : Ground σ} {image : Image σ} {facts : Facts} {v : Nat}

theorem answers_acceptedClaims (hi : image.Shows g facts)
    (hv : c.environment.verifier = Verifier.ed25519 facts.room v) (raw : Bytes)
    (rs : List Requirement) (found : Option Signature) :
    g.Answers (c.acceptedClaims image raw found rs) (.ok (accepted facts raw found rs)) := by
  induction rs generalizing found with
  | nil => exact .pure _
  | cons r rest ih =>
      refine (r.answers_judge raw hi hv).bind ?_
      unfold accepted
      cases r.verdict facts raw with
      | accepted s => exact ih _
      | rejected f => exact .bind (.log _ _ _) (.pure _)
      | unknown => exact ih _
      | unnamed t => exact ih _

theorem answers_acceptedAmong (hi : image.Shows g facts)
    (hv : c.environment.verifier = Verifier.ed25519 facts.room v) (rs : List Requirement)
    (raws : List Bytes) :
    g.Answers (c.acceptedAmong image rs raws) (.ok (raws.filterMap (accepted facts · none rs))) := by
  induction raws with
  | nil => exact .pure _
  | cons raw raws ih =>
      refine (answers_acceptedClaims hi hv raw rs none).bind ?_
      rw [List.filterMap_cons]
      cases accepted facts raw none rs with
      | none => exact ih
      | some s => exact ih.bind (.pure _)

/-- What is left of a decision on signatures once the requirements and the signatures are
known. -/
def acceptedOf (c : Context σ) (image : Image σ) (rs : List Requirement) (raws : List Bytes) :
    Act σ (List Signature) :=
  if rs = [] then pure []
  else do
    let accepted ← c.acceptedAmong image rs raws
    Act.log .debug .context
      [image.reference.shown, ": ", Text.decimal accepted.length, " of ", Text.decimal raws.length,
        " signatures have an accepted author"]
    return accepted

theorem acceptedSignatures_eq (c : Context σ) (image : Image σ) :
    c.acceptedSignatures image =
      (c.requirementsOf image.reference >>= fun rs =>
        image.readSignatures >>= fun raws => c.acceptedOf image rs raws) := rfl

theorem answers_acceptedOf (hi : image.Shows g facts)
    (hv : c.environment.verifier = Verifier.ed25519 facts.room v) (rs : List Requirement)
    (raws : List Bytes) :
    g.Answers (c.acceptedOf image rs raws) (.ok (raws.filterMap (accepted facts · none rs))) := by
  unfold acceptedOf
  cases rs with
  | nil =>
      have hnone : raws.filterMap (accepted facts · none []) = [] :=
        List.filterMap_eq_nil_iff.mpr fun _ _ => rfl
      rw [if_pos rfl, hnone]
      exact .pure _
  | cons r rest =>
      rw [if_neg (List.cons_ne_nil r rest)]
      exact (answers_acceptedAmong hi hv (r :: rest) raws).bind (.bind (.log _ _ _) (.pure _))

theorem answers_acceptedSignatures (hi : image.Shows g facts)
    (hv : c.environment.verifier = Verifier.ed25519 facts.room v) {rs : List Requirement}
    (hrs : g.Answers (c.requirementsOf image.reference) (.ok rs))
    {raws : Except Fault (List Bytes)} (hraws : g.Answers image.readSignatures raws) :
    g.Answers (c.acceptedSignatures image)
      (raws.map fun raws => raws.filterMap (accepted facts · none rs)) := by
  rw [acceptedSignatures_eq]
  refine hrs.bind ?_
  cases raws with
  | error f => exact hraws.bind_error
  | ok raws => exact hraws.bind (answers_acceptedOf hi hv rs raws)

/-! ## Permission to run -/

/-- The first denial among requirements, or none. -/
def denied (facts : Facts) (check : MatchRule → Decision) (raws : Except Fault (List Bytes)) :
    List Requirement → Decision
  | [] => .allow
  | r :: rest =>
    match r.decision facts check raws with
    | .allow => denied facts check raws rest
    | .deny f => .deny f

/-- The decision of these requirements; there has to be one. -/
def permission (facts : Facts) (check : MatchRule → Decision) (raws : Except Fault (List Bytes))
    (rs : List Requirement) : Decision :=
  if rs = [] then .deny .noRequirements else denied facts check raws rs

section Running

variable {check : MatchRule → Decision} {raws : Except Fault (List Bytes)}

theorem denied_eq_allow_iff {rs : List Requirement} :
    denied facts check raws rs = .allow ↔ ∀ r ∈ rs, r.decision facts check raws = .allow := by
  induction rs with
  | nil => simp [denied]
  | cons r rest ih =>
      unfold denied
      cases hr : r.decision facts check raws with
      | allow => simp [hr, ih]
      | deny f => simp [hr]

theorem permission_eq_allow_iff {rs : List Requirement} :
    permission facts check raws rs = .allow ↔
      rs ≠ [] ∧ ∀ r ∈ rs, r.decision facts check raws = .allow := by
  unfold permission
  by_cases hrs : rs = []
  · simp [hrs]
  · simp [hrs, denied_eq_allow_iff]

theorem answers_firstDenial (hi : image.Shows g facts)
    (hv : c.environment.verifier = Verifier.ed25519 facts.room v)
    (hraws : g.Answers image.readSignatures raws) (rs : List Requirement)
    (hcheck : ∀ identity, .signedBaseLayer identity ∈ rs →
      g.Answers (Requirement.runBaseLayer identity image c.environment) (.ok (check identity))) :
    g.Answers (c.firstDenial image rs) (.ok (denied facts check raws rs)) := by
  induction rs with
  | nil => exact .pure _
  | cons r rest ih =>
      have hrest := ih fun identity hmem => hcheck identity (List.mem_cons_of_mem _ hmem)
      refine (r.answers_run hi hv hraws fun identity hr => hcheck identity (by simp [hr])).bind ?_
      unfold denied
      cases r.decision facts check raws with
      | allow => exact hrest
      | deny f => exact .pure _

theorem answers_runningDecision (hi : image.Shows g facts)
    (hv : c.environment.verifier = Verifier.ed25519 facts.room v) {rs : List Requirement}
    (hrs : g.Answers (c.requirementsOf image.reference) (.ok rs))
    (hraws : g.Answers image.readSignatures raws)
    (hcheck : ∀ identity, .signedBaseLayer identity ∈ rs →
      g.Answers (Requirement.runBaseLayer identity image c.environment) (.ok (check identity))) :
    g.Answers (c.runningDecision image) (.ok (permission facts check raws rs)) := by
  refine hrs.bind ?_
  unfold permission
  by_cases hnil : rs = []
  · simp only [if_pos hnil]
    exact .pure _
  · simp only [if_neg hnil]
    exact answers_firstDenial hi hv hraws rs hcheck

end Running

end Context

/-! ## Answers -/

/-- The record with which a decision to run ends. -/
def Image.report (image : Image σ) : Decision → Entry
  | .allow =>
    ⟨.debug, .context, Text.sentence ["Running image ", image.reference.shown, " allowed"]⟩
  | .deny f =>
    ⟨.info, .context,
      Text.sentence ["Running image ", image.reference.shown, " denied: ", f.message]⟩

namespace Context

section Answers

variable {c : Context σ} {image : Image σ} {h h' : Host σ} {d : Decision} {f : Fault}

/-- A decision that comes to a result is the answer, and is reported. -/
theorem isRunningAllowed_reports (hd : c.checkedOut (c.runningDecision image) h = (.ok d, h')) :
    c.isRunningAllowed image h =
      (.ok d, { h' with journal := h'.journal ++ [image.report d] }) := by
  unfold isRunningAllowed
  rw [Act.outcome_bind_apply, hd]
  cases d <;> rfl

/-- A fault of the policy's own kind is a denial. -/
theorem isRunningAllowed_denies
    (hf : c.checkedOut (c.runningDecision image) h = (.error f, h')) (hkind : f.isA .imagePolicy) :
    c.isRunningAllowed image h =
      (.ok (.deny f), { h' with journal := h'.journal ++ [image.report (.deny f)] }) := by
  unfold isRunningAllowed
  rw [Act.outcome_bind_apply, hf]
  simp only [if_pos hkind]
  rfl

/-- Any other fault is passed on, and nothing is reported. -/
theorem isRunningAllowed_raises
    (hf : c.checkedOut (c.runningDecision image) h = (.error f, h'))
    (hkind : ¬ f.isA .imagePolicy) : c.isRunningAllowed image h = (.error f, h') := by
  unfold isRunningAllowed
  rw [Act.outcome_bind_apply, hf]
  simp only [if_neg hkind]
  rfl

theorem isRunningAllowed_of_ok (c : Context σ) (image : Image σ)
    (hd : (c.checkedOut (c.runningDecision image) h).1 = .ok d) :
    (c.isRunningAllowed image h).1 = .ok d := by
  rw [isRunningAllowed_reports (Prod.ext hd rfl)]

end Answers

end Context

end ImageTrust
