/-
# Short circuits — how far a decision to run goes

A decision to run takes the governing requirements one after the other and ends with the first
that denies, or at the end of the list.  Every requirement begins on the host that the one
before has left, so what the decision comes to is said along these hosts:

    c.Walks image h rs asked d h'    from the list `rs` just `asked` are evaluated, the decision
                                     is `d`, and they lead from the host `h` to `h'`

There is such a walk as soon as no check of base layers fails with a fault that is not of the
policy's own kind.  All there is to say of the decision follows from the walk: the outcome, the
questions (`Requirement.Asked`, in the order of the requirements), and that without a demand for
signatures no file is looked at (`Act.BlindTo`).
-/
import ImageTrust.Proofs.Demand
import ImageTrust.Proofs.Profile

namespace ImageTrust

variable {σ α β : Type}

/-! ## Requirements, one after the other -/

namespace Context

/-- Of a list of requirements these are evaluated, up to the first that denies, with this
decision. -/
inductive Walks (c : Context σ) (image : Image σ) :
    Host σ → List Requirement → List Requirement → Decision → Host σ → Prop
  | done {h : Host σ} : Walks c image h [] [] .allow h
  | denied {h h' : Host σ} {r : Requirement} {rest : List Requirement} {f : Fault}
      (run : r.run image c.environment h = (.ok (.deny f), h')) :
      Walks c image h (r :: rest) [r] (.deny f) h'
  | allowed {h h₁ h' : Host σ} {r : Requirement} {rest asked : List Requirement} {d : Decision}
      (run : r.run image c.environment h = (.ok .allow, h₁))
      (more : Walks c image h₁ rest asked d h') :
      Walks c image h (r :: rest) (r :: asked) d h'

variable {c : Context σ} {image : Image σ} {h h₁ h' : Host σ} {rs asked : List Requirement}
  {d : Decision} {f : Fault}

theorem firstDenial_of_walks (hw : c.Walks image h rs asked d h') :
    c.firstDenial image rs h = (.ok d, h') := by
  induction hw with
  | done => rfl
  | denied hrun => exact Act.bind_ok hrun _
  | allowed hrun _ ih =>
      rw [firstDenial, Act.bind_ok hrun]
      exact ih

/-- Only a check of base layers can keep a list from being walked to its end. -/
theorem exists_walks (hhook : ∀ check, c.environment.baseLayerCheck = some check →
      ∀ rule, (check rule image).FailsOnly fun f => f.isA .imagePolicy)
    (rs : List Requirement) (h : Host σ) : ∃ asked d h', c.Walks image h rs asked d h' := by
  induction rs generalizing h with
  | nil => exact ⟨[], .allow, h, .done⟩
  | cons r rest ih =>
      rcases hrun : r.run image c.environment h with ⟨e | _ | f, h₁⟩
      · obtain ⟨rule, check, rfl, hcheck, hraised, hno⟩ :=
          Requirement.run_eq_error_iff.mp (congrArg Prod.fst hrun)
        exact absurd (hhook check hcheck rule h e hraised) hno
      · obtain ⟨asked, d, h', hw⟩ := ih h₁
        exact ⟨r :: asked, d, h', .allowed hrun hw⟩
      · exact ⟨[r], .deny f, h₁, .denied hrun⟩

theorem Walks.asked_of_allow (hw : c.Walks image h rs asked .allow h') : asked = rs := by
  generalize hd : Decision.allow = d at hw
  induction hw with
  | done => rfl
  | denied hrun => cases hd
  | allowed hrun _ ih => rw [ih hd]

theorem Walks.append {before : List Requirement} (hb : c.Walks image h before before .allow h₁)
    (hw : c.Walks image h₁ rs asked d h') :
    c.Walks image h (before ++ rs) (before ++ asked) d h' := by
  induction before generalizing h with
  | nil =>
      cases hb
      exact hw
  | cons r before ih =>
      cases hb with
      | allowed hrun hmore => exact .allowed hrun (ih hmore)

/-- A walk ends in a denial where all before allow, and the requirement there denies. -/
theorem walks_deny_iff :
    c.Walks image h rs asked (.deny f) h' ↔
      ∃ before r after h₁, rs = before ++ r :: after ∧ asked = before ++ [r] ∧
        c.Walks image h before before .allow h₁ ∧
        r.run image c.environment h₁ = (.ok (.deny f), h') := by
  constructor
  · intro hw
    generalize hd : Decision.deny f = d at hw
    induction hw with
    | done => cases hd
    | denied hrun =>
        cases hd
        exact ⟨[], _, _, _, rfl, rfl, .done, hrun⟩
    | allowed hrun _ ih =>
        obtain ⟨before, r, after, h₁, rfl, rfl, hbefore, hdenies⟩ := ih hd
        exact ⟨_ :: before, r, after, h₁, rfl, rfl, .allowed hrun hbefore, hdenies⟩
  · rintro ⟨before, r, after, h₁, rfl, rfl, hbefore, hdenies⟩
    exact hbefore.append (.denied hdenies)

section Answering

variable {g : Ground σ} {decision : Requirement → Decision}

/-- On a ground where every requirement has a settled decision, a walk goes by these. -/
theorem Walks.decision_eq (hw : c.Walks image h rs asked d h')
    (hanswers : ∀ r ∈ rs, g.Answers (r.run image c.environment) (.ok (decision r)))
    (hh : g.holds h) :
    (d = .allow ↔ ∀ r ∈ rs, decision r = .allow) ∧
      ∀ before r after f, rs = before ++ r :: after → (∀ q ∈ before, decision q = .allow) →
        decision r = .deny f → asked = before ++ [r] ∧ d = .deny f := by
  induction hw with
  | done =>
      refine ⟨⟨fun _ r hr => absurd hr List.not_mem_nil, fun _ => rfl⟩, ?_⟩
      intro before r after f hsplit
      exact absurd hsplit.symm (List.append_ne_nil_of_right_ne_nil _ (List.cons_ne_nil _ _))
  | @denied h h' r rest f hrun =>
      obtain ⟨hfirst, -⟩ := hanswers r List.mem_cons_self h hh
      rw [hrun] at hfirst
      have hdenies : decision r = .deny f := (Except.ok.inj hfirst).symm
      refine ⟨⟨fun hallow => ?_, fun hall => ?_⟩, ?_⟩
      · cases hallow
      · rw [hall r List.mem_cons_self] at hdenies
        cases hdenies
      · intro before q after e hsplit hbefore hq
        cases before with
        | nil =>
            cases hsplit
            rw [hdenies] at hq
            exact ⟨rfl, hq⟩
        | cons first before =>
            cases hsplit
            rw [hbefore r List.mem_cons_self] at hdenies
            cases hdenies
  | @allowed h h₁ h' r rest asked d hrun _ ih =>
      obtain ⟨hfirst, hh₁⟩ := hanswers r List.mem_cons_self h hh
      rw [hrun] at hfirst hh₁
      have hallows : decision r = .allow := (Except.ok.inj hfirst).symm
      obtain ⟨hall, hsplits⟩ := ih (fun q hq => hanswers q (List.mem_cons_of_mem _ hq)) hh₁
      refine ⟨?_, ?_⟩
      · rw [hall, List.forall_mem_cons]
        exact ⟨fun hrest => ⟨hallows, hrest⟩, fun hboth => hboth.2⟩
      · intro before q after e hsplit hbefore hq
        cases before with
        | nil =>
            cases hsplit
            rw [hallows] at hq
            cases hq
        | cons first before =>
            cases hsplit
            have hlater : ∀ p ∈ before, decision p = .allow :=
              fun p hp => hbefore p (List.mem_cons_of_mem _ hp)
            obtain ⟨rfl, rfl⟩ := hsplits before q after e rfl hlater hq
            exact ⟨rfl, rfl⟩

end Answering

end Context

/-! ## What a walk asks -/

/-- The rule that the check of base layers was asked about. -/
def Question.layer? : Question → Option MatchRule
  | .baseLayer rule => some rule
  | _ => none

namespace Requirement

/-- The rule for the base layer, if the requirement is about that. -/
def layer? : Requirement → Option MatchRule
  | .signedBaseLayer rule => some rule
  | _ => none

/-- What evaluating a requirement asks: a demand for signatures asks the image for them and
then judges them, a requirement for a base layer asks the check if there is one, and the others
ask nothing. -/
inductive Asked (env : Environment σ) : Requirement → List Question → Prop
  | reject : Asked env .reject []
  | insecureAcceptAnything : Asked env .insecureAcceptAnything []
  | signedBy {s : SignedBy} {judged : List Bytes} {qss : List (List Question)}
      (each : List.Forall₂ Judged judged qss) :
      Asked env (.signedBy s) (.signatures :: qss.flatten)
  | signedBaseLayer {rule : MatchRule} :
      Asked env (.signedBaseLayer rule)
        (if env.baseLayerCheck.isSome then [.baseLayer rule] else [])

variable {env : Environment σ} {image : Image σ} {r : Requirement} {qs : List Question}

theorem asks_run (r : Requirement) (image : Image σ) (env : Environment σ) (h : Host σ) :
    ∃ qs, r.Asked env qs ∧
      (r.run image env).Asks (r.run image.noting (env.noting image)) h qs := by
  cases r with
  | reject => exact ⟨[], .reject, .pure _ _⟩
  | insecureAcceptAnything => exact ⟨[], .insecureAcceptAnything, .pure _ _⟩
  | signedBy s =>
      obtain ⟨judged, qss, heach, hasks⟩ := s.asks_run image env h
      exact ⟨_, .signedBy heach, hasks⟩
  | signedBaseLayer rule =>
      refine ⟨_, .signedBaseLayer, ?_⟩
      show (runBaseLayer rule image env).Asks
        (runBaseLayer rule image.noting (env.noting image)) h _
      unfold runBaseLayer Environment.noting
      cases env.baseLayerCheck with
      | none => exact .pure _ _
      | some check =>
          have hasked : (check rule image).Asks ((check rule image).noting [.baseLayer rule]) h
              [.baseLayer rule] := .noted _ _ _
          refine hasked.outcome.bind_silent fun r h' => ?_
          cases r with
          | ok d => exact .pure _ _
          | error f => exact .ite (.pure _ _) (.fail _ _)

/-- Judging signatures asks neither for the signatures nor about a base layer. -/
theorem mem_flatten_of_judged {judged : List Bytes} {qss : List (List Question)}
    (heach : List.Forall₂ Judged judged qss) :
    ∀ q ∈ qss.flatten, q ≠ .signatures ∧ q.layer? = none := by
  induction heach with
  | nil => exact fun q hq => absurd hq List.not_mem_nil
  | @cons raw qs _ qss hj _ ih =>
      intro q hq
      rw [List.flatten_cons, List.mem_append] at hq
      rcases hq with hq | hq
      · cases hj with
        | unread => cases hq
        | unverified material =>
            rw [List.mem_singleton.mp hq]
            exact ⟨nofun, rfl⟩
        | verified material =>
            rcases List.mem_cons.mp hq with rfl | hq
            · exact ⟨nofun, rfl⟩
            · rw [List.mem_singleton.mp hq]
              exact ⟨nofun, rfl⟩
      · exact ih q hq

theorem Asked.count_signatures (ha : r.Asked env qs) :
    qs.count .signatures = if r.isSignedBy then 1 else 0 := by
  cases ha with
  | reject => rfl
  | insecureAcceptAnything => rfl
  | signedBy heach =>
      have hnone : Question.signatures ∉ List.flatten _ :=
        fun hmem => (mem_flatten_of_judged heach _ hmem).1 rfl
      rw [List.count_cons_self, List.count_eq_zero_of_not_mem hnone]
      rfl
  | signedBaseLayer => split <;> rfl

theorem Asked.filterMap_layer? (ha : r.Asked env qs) :
    qs.filterMap Question.layer? =
      if env.baseLayerCheck.isSome then r.layer?.toList else [] := by
  cases ha with
  | reject => exact (ite_self _).symm
  | insecureAcceptAnything => exact (ite_self _).symm
  | signedBy heach =>
      have hnone : (List.flatten _).filterMap Question.layer? = [] :=
        List.filterMap_eq_nil_iff.mpr fun q hq => (mem_flatten_of_judged heach q hq).2
      rw [List.filterMap_cons_none rfl, hnone]
      exact (ite_self _).symm
  | signedBaseLayer => split <;> rfl

section Lists

variable {rs : List Requirement} {qss : List (List Question)}

theorem count_signatures_flatten (ha : List.Forall₂ (Asked env) rs qss) :
    qss.flatten.count .signatures = rs.countP isSignedBy := by
  induction ha with
  | nil => rfl
  | cons hr _ ih =>
      rw [List.flatten_cons, List.count_append, List.countP_cons, hr.count_signatures, ih,
        Nat.add_comm]

theorem filterMap_layer?_flatten (ha : List.Forall₂ (Asked env) rs qss) :
    qss.flatten.filterMap Question.layer? =
      if env.baseLayerCheck.isSome then rs.filterMap layer? else [] := by
  induction ha with
  | nil => exact (ite_self _).symm
  | @cons r qs rs qss hr _ ih =>
      rw [List.flatten_cons, List.filterMap_append, hr.filterMap_layer?, ih]
      split
      · rw [List.filterMap_cons]
        cases r.layer? <;> rfl
      · rfl

/-- Without demands for signatures there are no questions but about base layers. -/
theorem eq_baseLayer_of_mem_flatten (ha : List.Forall₂ (Asked env) rs qss)
    (hno : ∀ s, .signedBy s ∉ rs) : ∀ q ∈ qss.flatten, ∃ rule, q = .baseLayer rule := by
  induction ha with
  | nil => exact fun q hq => absurd hq List.not_mem_nil
  | cons hr _ ih =>
      intro q hq
      rw [List.flatten_cons, List.mem_append] at hq
      rcases hq with hq | hq
      · cases hr with
        | reject => cases hq
        | insecureAcceptAnything => cases hq
        | signedBy => exact absurd List.mem_cons_self (hno _)
        | signedBaseLayer =>
            split at hq
            · exact ⟨_, List.mem_singleton.mp hq⟩
            · cases hq
      · exact ih (fun s hs => hno s (List.mem_cons_of_mem _ hs)) q hq

end Lists

end Requirement

namespace Context

/-- The context, its collaborators for this image writing down what they are asked. -/
def noting (c : Context σ) (image : Image σ) : Context (σ × List Question) where
  number := c.number
  policy := c.policy
  environment := c.environment.noting image

variable {c : Context σ} {image : Image σ} {h h₁ h' : Host σ} {rs asked : List Requirement}
  {d : Decision} {f : Fault} {qs : List Question}

theorem Walks.asks (hw : c.Walks image h rs asked d h') :
    ∃ qss, List.Forall₂ (Requirement.Asked c.environment) asked qss ∧
      (c.firstDenial image rs).Asks ((c.noting image).firstDenial image.noting rs) h
        qss.flatten := by
  induction hw with
  | done => exact ⟨[], .nil, .pure _ _⟩
  | @denied h h' r rest f hrun =>
      obtain ⟨qs, hr, hasks⟩ := r.asks_run image c.environment h
      refine ⟨[qs], .cons hr .nil, ?_⟩
      rw [List.flatten_cons]
      exact hasks.bind_ok hrun (.pure _ _)
  | @allowed h h₁ h' r rest asked d hrun _ ih =>
      obtain ⟨qs, hr, hasks⟩ := r.asks_run image c.environment h
      obtain ⟨qss, hrest, hmore⟩ := ih
      refine ⟨qs :: qss, .cons hr hrest, ?_⟩
      rw [List.flatten_cons]
      exact hasks.bind_ok hrun hmore

theorem asks_changeStage (c : Context σ) (image : Image σ) (expected new : Stage) (h : Host σ) :
    (c.changeStage expected new).Asks ((c.noting image).changeStage expected new) h [] := by
  refine .silent fun asked => ?_
  rw [changeStage_apply, changeStage_apply]
  by_cases hstage : h.stages c.number = expected
  · rw [if_pos hstage]
    exact if_pos hstage
  · rw [if_neg hstage]
    exact if_neg hstage

theorem asks_resolve (p : Policy) (identity : Text) (namespaces : List Text) (h : Host σ) :
    (p.resolve identity namespaces : Act σ Policy.Section).Asks (p.resolve identity namespaces)
      h [] := by
  unfold Policy.resolve
  refine .ite (.fail _ _) ?_
  cases p.sectionFor identity namespaces with
  | default => exact (Act.Asks.log _ _ _ _).bind_silent fun _ => .pure _
  | specific scope =>
      exact .ite ((Act.Asks.log _ _ _ _).bind_silent fun _ => .pure _)
        ((Act.Asks.log _ _ _ _).bind_silent fun _ => .pure _)

theorem asks_requirementsOf (c : Context σ) (image : Image σ) (h : Host σ) :
    (c.requirementsOf image.reference).Asks
      ((c.noting image).requirementsOf image.noting.reference) h [] := by
  have hidentity : image.reference.identity.Asks image.noting.reference.identity h [] :=
    .noted _ _ _
  have hnamespaces : ∀ h, image.reference.namespaces.Asks image.noting.reference.namespaces h [] :=
    fun h => .noted _ _ _
  refine Act.Asks.bind_silent (hidentity.outcome.bind_silent fun r h => ?_) fun _ => .pure _
  cases r with
  | error f => exact .ite (.fail _ _) (.fail _ _)
  | ok identity =>
      exact .ite (.fail _ _) ((hnamespaces h).bind_silent fun namespaces => asks_resolve _ _ _)

/-- A decision on these requirements asks what they ask. -/
theorem asks_runningDecision (hrs : c.requirementsOf image.reference h = (.ok rs, h₁))
    (hasks : (c.firstDenial image rs).Asks ((c.noting image).firstDenial image.noting rs) h₁ qs)
    (hne : rs ≠ []) :
    (c.runningDecision image).Asks ((c.noting image).runningDecision image.noting) h qs := by
  refine (c.asks_requirementsOf image h).bind_ok hrs ?_
  rw [if_neg hne, if_neg hne]
  exact hasks

theorem asks_isRunningAllowed (hready : h.stages c.number = .ready)
    (hbody : (c.runningDecision image).Asks ((c.noting image).runningDecision image.noting)
      (h.moved c.number .inUse) qs) :
    (c.isRunningAllowed image).Asks ((c.noting image).isRunningAllowed image.noting) h qs := by
  have hout : c.changeStage .ready .inUse h = (.ok (), h.moved c.number .inUse) := by
    rw [changeStage_apply, if_pos hready]
  have hchecked : (c.checkedOut (c.runningDecision image)).Asks
      ((c.noting image).checkedOut ((c.noting image).runningDecision image.noting)) h qs := by
    refine (c.asks_changeStage image _ _ h).bind_ok hout ?_
    refine hbody.outcome.bind_silent fun r h' => ?_
    exact (c.asks_changeStage image _ _ h').bind_silent fun _ => .ofExcept _
  refine hchecked.outcome.bind_silent fun r h' => ?_
  rcases r with f | _ | f
  · exact .ite ((Act.Asks.log _ _ _ _).bind_silent fun _ => .pure _) (.fail _ _)
  · exact (Act.Asks.log _ _ _ _).bind_silent fun _ => .pure _
  · exact (Act.Asks.log _ _ _ _).bind_silent fun _ => .pure _

end Context

/-! ## What a walk does not look at -/

/-- The action does the same on two hosts of which the disks are related in this way, and leaves
them so. -/
def Act.BlindTo (R : Disk → Disk → Prop) (x : Act σ α) : Prop :=
  ∀ h disk, R h.disk disk → ∃ disk', R (x h).2.disk disk' ∧
    x { h with disk := disk } = ((x h).1, { (x h).2 with disk := disk' })

namespace Act.BlindTo

variable {R : Disk → Disk → Prop}

theorem pure (a : α) : (pure a : Act σ α).BlindTo R := fun _ disk hR => ⟨disk, hR, rfl⟩

/-- What is done with an outcome only, and not with the files, is done alike. -/
theorem outcome_bind {x : Act σ α} {k : Except Fault α → Act σ β} (hx : x.BlindTo R)
    (hk : ∀ r, (k r).BlindTo R) : (Act.outcome x >>= k).BlindTo R := by
  intro h disk hR
  obtain ⟨disk₁, hR₁, hsame⟩ := hx h disk hR
  obtain ⟨disk', hR', hrest⟩ := hk (x h).1 (x h).2 disk₁ hR₁
  refine ⟨disk', hR', ?_⟩
  rw [Act.outcome_bind_apply, hsame]
  exact hrest

end Act.BlindTo

/-- The check of base layers is blind to these differences of disks. -/
def Environment.BlindTo (R : Disk → Disk → Prop) (env : Environment σ) (image : Image σ) : Prop :=
  ∀ check, env.baseLayerCheck = some check → ∀ rule, (check rule image).BlindTo R

section Blind

variable {R : Disk → Disk → Prop} {env : Environment σ} {image : Image σ} {c : Context σ}

theorem Requirement.blindTo_run {r : Requirement} (hno : ∀ s, r ≠ .signedBy s)
    (henv : env.BlindTo R image) : (r.run image env).BlindTo R := by
  cases r with
  | reject => exact .pure _
  | insecureAcceptAnything => exact .pure _
  | signedBy s => exact absurd rfl (hno s)
  | signedBaseLayer rule =>
      show (runBaseLayer rule image env).BlindTo R
      unfold runBaseLayer
      cases hcheck : env.baseLayerCheck with
      | none => exact .pure _
      | some check =>
          refine (henv check hcheck rule).outcome_bind fun r => ?_
          cases r with
          | ok d => exact .pure _
          | error f =>
              intro h disk hR
              dsimp only
              by_cases hf : f.isA .imagePolicy
              · rw [if_pos hf]
                exact Act.BlindTo.pure _ h disk hR
              · rw [if_neg hf]
                exact ⟨disk, hR, rfl⟩

/-- Where no demand for signatures is evaluated, a walk is the same over other files. -/
theorem Context.Walks.of_blindTo {h h' : Host σ} {rs asked : List Requirement} {d : Decision}
    (hw : c.Walks image h rs asked d h') (hno : ∀ s, .signedBy s ∉ asked)
    (henv : c.environment.BlindTo R image) {disk : Disk} (hR : R h.disk disk) :
    ∃ disk', R h'.disk disk' ∧
      c.Walks image { h with disk := disk } rs asked d { h' with disk := disk' } := by
  induction hw generalizing disk with
  | done => exact ⟨disk, hR, .done⟩
  | @denied h h' r rest f hrun =>
      have hr : ∀ s, r ≠ .signedBy s := fun s hs => hno s (hs ▸ List.mem_cons_self)
      obtain ⟨disk', hR', hsame⟩ := Requirement.blindTo_run hr henv h disk hR
      rw [hrun] at hR' hsame
      exact ⟨disk', hR', .denied hsame⟩
  | @allowed h h₁ h' r rest asked d hrun _ ih =>
      have hr : ∀ s, r ≠ .signedBy s := fun s hs => hno s (hs ▸ List.mem_cons_self)
      obtain ⟨disk₁, hR₁, hsame⟩ := Requirement.blindTo_run hr henv h disk hR
      rw [hrun] at hR₁ hsame
      obtain ⟨disk', hR', hmore⟩ := ih (fun s hs => hno s (List.mem_cons_of_mem _ hs)) hR₁
      exact ⟨disk', hR', .allowed hsame hmore⟩

end Blind

/-! ## The decision -/

namespace Context

/-- The image has an identity for the policy, and these requirements govern it. -/
inductive Governed (c : Context σ) (image : Image σ) : List Requirement → Prop
  | intro {identity : Text} {namespaces : List Text}
      (known : image.reference.identity = pure identity) (ne_nil : identity ≠ [])
      (around : image.reference.namespaces = pure namespaces) :
      Governed c image (c.policy.governing identity namespaces)

/-- The collaborators leave the context in use, and a check of base layers fails with faults of
the policy's own kind only. -/
structure Undisturbed (c : Context σ) (image : Image σ) : Prop where
  image_keeps : image.In (.keeping (.inUse c.number))
  environment_keeps : c.environment.In (.keeping (.inUse c.number)) image
  check_fails : ∀ check, c.environment.baseLayerCheck = some check →
    ∀ rule, (check rule image).FailsOnly fun f => f.isA .imagePolicy

/-- The host on which the first requirement is evaluated. -/
def begun (c : Context σ) (image : Image σ) (h : Host σ) : Host σ :=
  (c.requirementsOf image.reference (h.moved c.number .inUse)).2

/-- The host after the decision, if the last requirement has left this one. -/
def ended (c : Context σ) (image : Image σ) (d : Decision) (h : Host σ) : Host σ :=
  { h.moved c.number .ready with journal := h.journal ++ [image.report d] }

/-- What is asked when a context decides whether an image may run. -/
def questions (c : Context σ) (image : Image σ) (h : Host σ) : List Question :=
  Act.questions ((c.noting image).isRunningAllowed image.noting) h

/-- From this host the decision on the image is `d`, and just these requirements are evaluated
for it.  The check of base layers is asked once for each of them that is about that, in their
order, and the image for its signatures once for each that demands any.  If none does, no one is
asked about signatures or the manifest, and other files would change nothing. -/
structure Evaluates (c : Context σ) (image : Image σ) (h : Host σ) (rs : List Requirement)
    (d : Decision) (h' : Host σ) : Prop where
  result : c.isRunningAllowed image h = (.ok d, c.ended image d h')
  noted : ((c.noting image).isRunningAllowed image.noting (h.noting [])).1 = .ok d
  asked : ∃ qss, List.Forall₂ (Requirement.Asked c.environment) rs qss ∧
    c.questions image h = qss.flatten
  layers : (c.questions image h).filterMap Question.layer? =
    if c.environment.baseLayerCheck.isSome then rs.filterMap Requirement.layer? else []
  fetches : (c.questions image h).count .signatures = rs.countP Requirement.isSignedBy
  unsigned : (∀ s, .signedBy s ∉ rs) → ∀ q ∈ c.questions image h, ∃ rule, q = .baseLayer rule
  unread : (∀ s, .signedBy s ∉ rs) → ∀ R, c.environment.BlindTo R image → ∀ disk, R h.disk disk →
    ∃ disk', c.isRunningAllowed image { h with disk := disk } =
      (.ok d, { c.ended image d h' with disk := disk' })

variable {c : Context σ} {image : Image σ} {h h₁ h' : Host σ} {rs asked : List Requirement}
  {d : Decision} {f : Fault}

/-- Finding the governing requirements only reports, and always the same. -/
theorem Governed.requirementsOf (hg : c.Governed image rs) :
    ∃ report : List Entry, ∀ h, c.requirementsOf image.reference h =
      (.ok rs, { h with journal := h.journal ++ report }) := by
  obtain @⟨identity, namespaces, hknown, hne, haround⟩ := hg
  obtain ⟨report, hresolve⟩ := c.policy.resolve_reports (σ := σ) hne namespaces
  refine ⟨report, fun h => ?_⟩
  have hsection : c.sectionOf image.reference h = (.ok (c.policy.sectionFor identity namespaces),
      { h with journal := h.journal ++ report }) := by
    rw [← hresolve h]
    unfold sectionOf
    rw [hknown, haround, Act.outcome_bind_apply]
    simp only [Act.pure_apply, Act.pure_bind, if_neg hne]
  rw [Context.requirementsOf, Act.bind_ok hsection]
  rfl

theorem Governed.begun_apply (hg : c.Governed image rs) (h : Host σ) :
    c.requirementsOf image.reference (h.moved c.number .inUse) = (.ok rs, c.begun image h) := by
  obtain ⟨report, hall⟩ := hg.requirementsOf
  rw [begun, hall]

theorem isRunningAllowed_of_runningDecision (hu : c.Undisturbed image)
    (hready : h.stages c.number = .ready)
    (hbody : c.runningDecision image (h.moved c.number .inUse) = (.ok d, h')) :
    c.isRunningAllowed image h = (.ok d, c.ended image d h') := by
  have hkeeps : (Ground.inUse c.number).Keeps (c.runningDecision image) :=
    Manner.of_runningDecision hu.image_keeps hu.environment_keeps
  have hchecked := checkedOut_of_keeps hkeeps hready
  rw [hbody] at hchecked
  exact isRunningAllowed_reports hchecked

/-- The decision is that of the walk. -/
theorem isRunningAllowed_of_walks (hg : c.Governed image rs) (hu : c.Undisturbed image)
    (hready : h.stages c.number = .ready) (hne : rs ≠ [])
    (hw : c.Walks image (c.begun image h) rs asked d h') :
    c.isRunningAllowed image h = (.ok d, c.ended image d h') := by
  refine isRunningAllowed_of_runningDecision hu hready ?_
  unfold runningDecision
  rw [Act.bind_ok (hg.begun_apply h), if_neg hne]
  exact firstDenial_of_walks hw

theorem isRunningAllowed_of_nil (hg : c.Governed image []) (hu : c.Undisturbed image)
    (hready : h.stages c.number = .ready) :
    c.isRunningAllowed image h =
      (.ok (.deny .noRequirements), c.ended image (.deny .noRequirements) (c.begun image h)) := by
  refine isRunningAllowed_of_runningDecision hu hready ?_
  unfold runningDecision
  rw [Act.bind_ok (hg.begun_apply h)]
  rfl

/-- What is asked follows from what each requirement asks. -/
theorem evaluates_of_asks {qss : List (List Question)}
    (hresult : c.isRunningAllowed image h = (.ok d, c.ended image d h'))
    (heach : List.Forall₂ (Requirement.Asked c.environment) asked qss)
    (hasks : (c.isRunningAllowed image).Asks ((c.noting image).isRunningAllowed image.noting) h
      qss.flatten)
    (hunread : (∀ s, .signedBy s ∉ asked) → ∀ R, c.environment.BlindTo R image →
      ∀ disk, R h.disk disk → ∃ disk', c.isRunningAllowed image { h with disk := disk } =
        (.ok d, { c.ended image d h' with disk := disk' })) :
    c.Evaluates image h asked d h' := by
  have hquestions : c.questions image h = qss.flatten := hasks.questions_eq.1
  refine ⟨hresult, ?_, ⟨qss, heach, hquestions⟩, ?_, ?_, ?_, hunread⟩
  · rw [hasks.questions_eq.2, hresult]
  · rw [hquestions]
    exact Requirement.filterMap_layer?_flatten heach
  · rw [hquestions]
    exact Requirement.count_signatures_flatten heach
  · intro hno
    rw [hquestions]
    exact Requirement.eq_baseLayer_of_mem_flatten heach hno

theorem evaluates_of_walks (hg : c.Governed image rs) (hu : c.Undisturbed image)
    (hready : h.stages c.number = .ready) (hne : rs ≠ [])
    (hw : c.Walks image (c.begun image h) rs asked d h') : c.Evaluates image h asked d h' := by
  obtain ⟨report, hall⟩ := hg.requirementsOf
  obtain ⟨qss, heach, hasks⟩ := hw.asks
  refine evaluates_of_asks (isRunningAllowed_of_walks hg hu hready hne hw) heach
    (asks_isRunningAllowed hready (asks_runningDecision (hg.begun_apply h) hasks hne)) ?_
  intro hno R henv disk hR
  have hbegun : ∀ disk, c.begun image { h with disk := disk } =
      { c.begun image h with disk := disk } := by
    intro disk
    rw [begun, begun, hall, hall]
    rfl
  have hdisk : (c.begun image h).disk = h.disk := by
    rw [begun, hall]
    rfl
  obtain ⟨disk', -, hw'⟩ := hw.of_blindTo hno henv (hdisk ▸ hR : R (c.begun image h).disk disk)
  rw [← hbegun] at hw'
  exact ⟨disk', isRunningAllowed_of_walks (h := { h with disk := disk }) hg hu hready hne hw'⟩

theorem evaluates_of_nil (hg : c.Governed image []) (hu : c.Undisturbed image)
    (hready : h.stages c.number = .ready) :
    c.Evaluates image h [] (.deny .noRequirements) (c.begun image h) := by
  obtain ⟨report, hall⟩ := hg.requirementsOf
  have hbody : (c.runningDecision image).Asks ((c.noting image).runningDecision image.noting)
      (h.moved c.number .inUse) [] :=
    (c.asks_requirementsOf image _).bind_ok (hg.begun_apply h) (.pure _ _)
  refine evaluates_of_asks (isRunningAllowed_of_nil hg hu hready) .nil
    (asks_isRunningAllowed hready hbody) ?_
  intro _ R _ disk _
  refine ⟨disk, ?_⟩
  rw [isRunningAllowed_of_nil (h := { h with disk := disk }) hg hu hready, begun, begun, hall, hall]
  rfl

/-- An image may run if and only if there are requirements and a walk through all of them. -/
theorem isRunningAllowed_allow_iff (hg : c.Governed image rs) (hu : c.Undisturbed image)
    (hready : h.stages c.number = .ready) :
    (c.isRunningAllowed image h).1 = .ok .allow ↔
      rs ≠ [] ∧ ∃ h', c.Walks image (c.begun image h) rs rs .allow h' := by
  constructor
  · intro hallow
    have hne : rs ≠ [] := by
      -- Without requirements there is a walk to the end too, but it does not decide.
      rintro rfl
      rw [isRunningAllowed_of_nil hg hu hready] at hallow
      cases hallow
    obtain ⟨asked, d, h', hw⟩ := exists_walks hu.check_fails rs (c.begun image h)
    rw [isRunningAllowed_of_walks hg hu hready hne hw] at hallow
    cases hallow
    have hall := hw.asked_of_allow
    subst hall
    exact ⟨hne, h', hw⟩
  · rintro ⟨hne, h', hw⟩
    rw [isRunningAllowed_of_walks hg hu hready hne hw]

/-- A fault of the policy's own kind that the check of base layers raises is the denial. -/
theorem run_of_raised {check : MatchRule → Image σ → Act σ Decision} {rule : MatchRule}
    (hcheck : c.environment.baseLayerCheck = some check)
    (hraised : check rule image h₁ = (.error f, h')) (hf : f.isA .imagePolicy) :
    (Requirement.signedBaseLayer rule).run image c.environment h₁ = (.ok (.deny f), h') := by
  show Requirement.runBaseLayer rule image c.environment h₁ = _
  unfold Requirement.runBaseLayer
  rw [hcheck]
  dsimp only
  rw [Act.outcome_bind_apply, hraised]
  dsimp only
  rw [if_pos hf]
  rfl

section Answering

variable {g : Ground σ} {decision : Requirement → Decision}

/-- Where every requirement has a settled decision, they all have to allow. -/
theorem isRunningAllowed_allow_iff_decision (hg : c.Governed image rs) (hu : c.Undisturbed image)
    (hready : h.stages c.number = .ready) (hh : g.holds (c.begun image h))
    (hanswers : ∀ r ∈ rs, g.Answers (r.run image c.environment) (.ok (decision r))) :
    (c.isRunningAllowed image h).1 = .ok .allow ↔ rs ≠ [] ∧ ∀ r ∈ rs, decision r = .allow := by
  rw [isRunningAllowed_allow_iff hg hu hready]
  refine and_congr_right fun _ => ?_
  constructor
  · rintro ⟨h', hw⟩
    exact (hw.decision_eq hanswers hh).1.mp rfl
  · intro hallows
    obtain ⟨asked, d, h', hw⟩ := exists_walks hu.check_fails rs (c.begun image h)
    have hd := (hw.decision_eq hanswers hh).1.mpr hallows
    subst hd
    have hall := hw.asked_of_allow
    subst hall
    exact ⟨h', hw⟩

/-- The first of them that denies is the last to be evaluated. -/
theorem evaluates_of_decision (hg : c.Governed image rs) (hu : c.Undisturbed image)
    (hready : h.stages c.number = .ready) (hh : g.holds (c.begun image h))
    (hanswers : ∀ r ∈ rs, g.Answers (r.run image c.environment) (.ok (decision r)))
    {before after : List Requirement} {r : Requirement} (hsplit : rs = before ++ r :: after)
    (hbefore : ∀ q ∈ before, decision q = .allow) (hdenies : decision r = .deny f) :
    ∃ h', c.Evaluates image h (before ++ [r]) (.deny f) h' := by
  have hne : rs ≠ [] := by
    rw [hsplit]
    exact List.append_ne_nil_of_right_ne_nil _ (List.cons_ne_nil _ _)
  obtain ⟨asked, d, h', hw⟩ := exists_walks hu.check_fails rs (c.begun image h)
  obtain ⟨rfl, rfl⟩ := (hw.decision_eq hanswers hh).2 before r after f hsplit hbefore hdenies
  exact ⟨h', evaluates_of_walks hg hu hready hne hw⟩

end Answering

/-- Whether an image may run is decided by the governing requirements up to the first that
denies, and none behind that is evaluated.  The image may run if there are requirements and all
of them allow it; without any it may not; and otherwise the denial is that of the first
requirement that denies, unchanged, be it a fault that the check of base layers raised.  Where
every requirement has a settled decision this is the conjunction of these. -/
theorem isRunningAllowed_exact (hg : c.Governed image rs) (hu : c.Undisturbed image)
    (hready : h.stages c.number = .ready) :
    ((c.isRunningAllowed image h).1 = .ok .allow ↔
        rs ≠ [] ∧ ∃ h', c.Walks image (c.begun image h) rs rs .allow h') ∧
      (rs = [] → c.Evaluates image h [] (.deny .noRequirements) (c.begun image h) ∧
        Fault.noRequirements.kind = .policyRequirement) ∧
      (rs ≠ [] → ∃ asked d h', c.Walks image (c.begun image h) rs asked d h') ∧
      (∀ asked d h', rs ≠ [] → c.Walks image (c.begun image h) rs asked d h' →
        c.Evaluates image h asked d h') ∧
      (∀ asked f h', c.Walks image (c.begun image h) rs asked (.deny f) h' ↔
        ∃ before r after h₁, rs = before ++ r :: after ∧ asked = before ++ [r] ∧
          c.Walks image (c.begun image h) before before .allow h₁ ∧
          r.run image c.environment h₁ = (.ok (.deny f), h')) ∧
      (∀ check rule h₁ f h₂, c.environment.baseLayerCheck = some check →
        check rule image h₁ = (.error f, h₂) →
        (Requirement.signedBaseLayer rule).run image c.environment h₁ = (.ok (.deny f), h₂)) ∧
      ∀ (g : Ground σ) (decision : Requirement → Decision), g.holds (c.begun image h) →
        (∀ r ∈ rs, g.Answers (r.run image c.environment) (.ok (decision r))) →
        ((c.isRunningAllowed image h).1 = .ok .allow ↔ rs ≠ [] ∧ ∀ r ∈ rs, decision r = .allow) ∧
          ∀ before r after f, rs = before ++ r :: after → (∀ q ∈ before, decision q = .allow) →
            decision r = .deny f → ∃ h', c.Evaluates image h (before ++ [r]) (.deny f) h' := by
  refine ⟨isRunningAllowed_allow_iff hg hu hready, ?_,
    fun _ => exists_walks hu.check_fails rs (c.begun image h),
    fun asked d h' hne hw => evaluates_of_walks hg hu hready hne hw, fun _ _ _ => walks_deny_iff,
    fun check rule h₁ f h₂ hcheck hraised => ?_, fun g decision hh hanswers => ⟨?_, ?_⟩⟩
  · rintro rfl
    exact ⟨evaluates_of_nil hg hu hready, rfl⟩
  · have hf : f.isA .imagePolicy :=
      hu.check_fails check hcheck rule h₁ f (congrArg Prod.fst hraised)
    exact run_of_raised hcheck hraised hf
  · exact isRunningAllowed_allow_iff_decision hg hu hready hh hanswers
  · intro before r after f hsplit hbefore hdenies
    exact evaluates_of_decision hg hu hready hh hanswers hsplit hbefore hdenies

end Context

namespace Specimen

def objection : Fault := .given .imagePolicy "unknown base layer"

/-- A context whose check of base layers objects to every image. -/
def objecting : Context Unit :=
  ⟨0, ⟨[.insecureAcceptAnything, .signedBaseLayer .exact, .signedBy demand], []⟩,
    ⟨Verifier.ed25519 .standard 0, some fun _ _ => Act.fail objection⟩⟩

theorem objecting_undisturbed : objecting.Undisturbed image where
  image_keeps := (Image.Addressed.directory (Path.ofText ".") address).within
  environment_keeps := by
    refine ⟨fun raw material => (Verifier.answers_verify _ _ 0 raw material).keeps, ?_⟩
    intro check hbrought rule
    cases hbrought
    exact .fail _
  check_fails := by
    intro check hbrought rule
    cases hbrought
    exact .fail rfl

end Specimen

open Specimen in
/-- The objection is the denial, on this disk and on an empty one, and the demand for signatures
behind it is not evaluated. -/
theorem isRunningAllowed_exact_objecting :
    objecting.Governed image [.insecureAcceptAnything, .signedBaseLayer .exact, .signedBy demand] ∧
      objecting.Undisturbed image ∧ host.stages objecting.number = .ready ∧
      (objecting.isRunningAllowed image host).1 = .ok (.deny objection) ∧
      objecting.questions image host = [.baseLayer .exact] ∧
      (objecting.isRunningAllowed image { host with disk := Disk.empty }).1 =
        .ok (.deny objection) := by
  have hname : objecting.Governed image
      (objecting.policy.governing "a.b/c:1" ["a.b/c", "a.b"]) := .intro rfl (by decide) rfl
  have hg : objecting.Governed image
      [.insecureAcceptAnything, .signedBaseLayer .exact, .signedBy demand] := hname
  obtain ⟨-, -, -, hevaluates, hdenials, hraised, -⟩ :=
    Context.isRunningAllowed_exact (h := host) hg objecting_undisturbed rfl
  have hw := (hdenials _ _ _).mpr ⟨[.insecureAcceptAnything], _, [.signedBy demand], _, rfl, rfl,
    .allowed rfl .done, hraised _ .exact _ objection _ rfl rfl⟩
  have he := hevaluates _ _ _ (List.cons_ne_nil _ _) hw
  have hno : ∀ s, Requirement.signedBy s ∉
      [Requirement.insecureAcceptAnything, Requirement.signedBaseLayer .exact] := by
    simp
  have hblind : objecting.environment.BlindTo (fun _ _ => True) image := by
    intro check hbrought rule h disk _
    cases hbrought
    exact ⟨disk, trivial, rfl⟩
  obtain ⟨disk', hsame⟩ := he.unread hno _ hblind Disk.empty trivial
  refine ⟨hg, objecting_undisturbed, rfl, ?_, rfl, ?_⟩
  · rw [he.result]
  · rw [hsame]

end ImageTrust
