/-
# Demands — what a demand for signatures decides

A demand judges the stored signatures of an image one after the other until one is accepted.
Each judgement may change the host, and what comes of it is up to the verifier and the image,
of which nothing is assumed.  So what a demand decides is said along the hosts that the
judgements lead through:

    s.Refuses image env h raws fs h'     all are refused, for these reasons
    s.Accepts image env h raws judged h' the last one judged is the first to be accepted

One of the two comes about, and not both (`refuses_or_accepts`, `refusals_of_refuses`,
`refusals_of_accepts`).  There is no third verdict, so the reason that is kept for one never
occurs.
-/
import Mathlib.Data.List.Forall2
import ImageTrust.Proofs.Containment
import ImageTrust.Proofs.Questions

namespace ImageTrust

variable {σ : Type}

namespace SignedBy

variable {s : SignedBy} {image : Image σ} {env : Environment σ} {h h₁ h' : Host σ}
  {raw : Bytes} {raws judged : List Bytes} {f : Fault} {fs : List Fault}

/-! ## Verdicts -/

/-- Of no rejection it is said that it lacks a reason. -/
theorem Rejection.message_ne (hf : Rejection f) : f.message ≠ Fault.noneAccepted.message := by
  have hN : Fault.noneAccepted.message.head? = some (CodePoint.ofChar 'N') := rfl
  have hfirst : f.message.head? = some (CodePoint.ofChar 'S') ∨
      f.message.head? = some (CodePoint.ofChar 'C') := by
    cases hf with
    | unverified cause => exact .inl rfl
    | noManifestDigest shown cause => exact .inr rfl
    | otherDigest digest => exact .inl rfl
    | otherIdentity reference => exact .inl rfl
  intro hsame
  rw [hsame, hN] at hfirst
  exact absurd hfirst (by decide)

/-- A signature is accepted or refused, and there is nothing else. -/
theorem judge_cases (s : SignedBy) (image : Image σ) (raw : Bytes) (env : Environment σ)
    (h : Host σ) :
    (∃ signature h', s.judge image raw env h = (.ok (.accepted signature), h')) ∨
      ∃ f h', Rejection f ∧ s.judge image raw env h = (.ok (.rejected f), h') := by
  unfold judge
  rw [Act.outcome_bind_apply]
  cases hverified : (s.verified image raw env h).1 with
  | ok signature => exact .inl ⟨signature, _, rfl⟩
  | error f =>
      have hf : Rejection f := s.failsOnly_verified image raw env h f hverified
      have hkind : f.isA .policyRequirement := Fault.isA_of_kind hf.kind_eq rfl
      dsimp only
      rw [if_pos hkind]
      exact .inr ⟨f, _, hf, rfl⟩

/-- What a verifier fails with, or the keys, is the cause of the rejection. -/
theorem judge_of_unverified
    (hfails : (do env.verifier.verify raw (← s.keyMaterial) : Act σ Signature) h = (.error f, h₁)) :
    (s.judge image raw env h).1 = .ok (.rejected (.unverified f)) := by
  have hverified : s.verified image raw env h = (.error (.unverified f), h₁) := by
    unfold verified
    rw [Act.outcome_bind_apply, hfails]
    rfl
  unfold judge
  rw [Act.outcome_bind_apply, hverified]
  rfl

/-! ## One signature after the other -/

/-- All of these signatures are refused, for these reasons, from one host to another. -/
inductive Refuses (s : SignedBy) (image : Image σ) (env : Environment σ) :
    Host σ → List Bytes → List Fault → Host σ → Prop
  | nil {h : Host σ} : Refuses s image env h [] [] h
  | cons {h h₁ h' : Host σ} {raw : Bytes} {raws : List Bytes} {f : Fault} {fs : List Fault}
      (rejection : Rejection f) (refused : s.judge image raw env h = (.ok (.rejected f), h₁))
      (more : Refuses s image env h₁ raws fs h') :
      Refuses s image env h (raw :: raws) (f :: fs) h'

/-- Of these signatures some are judged: all but the last of them are refused, and the last is
accepted. -/
inductive Accepts (s : SignedBy) (image : Image σ) (env : Environment σ) :
    Host σ → List Bytes → List Bytes → Host σ → Prop
  | intro {h h₁ h' : Host σ} {before after : List Bytes} {raw : Bytes} {fs : List Fault}
      {signature : Signature} (refused : s.Refuses image env h before fs h₁)
      (accepted : s.judge image raw env h₁ = (.ok (.accepted signature), h')) :
      Accepts s image env h (before ++ raw :: after) (before ++ [raw]) h'

theorem Refuses.length_eq (hr : s.Refuses image env h raws fs h') : fs.length = raws.length := by
  induction hr with
  | nil => rfl
  | cons _ _ _ ih => rw [List.length_cons, List.length_cons, ih]

theorem Refuses.rejection (hr : s.Refuses image env h raws fs h') : ∀ f ∈ fs, Rejection f := by
  induction hr with
  | nil =>
      intro f hf
      cases hf
  | cons hrejection _ _ ih =>
      intro f hf
      rcases List.mem_cons.mp hf with rfl | hf
      · exact hrejection
      · exact ih f hf

theorem Accepts.cons (hrejection : Rejection f)
    (hrefused : s.judge image raw env h = (.ok (.rejected f), h₁))
    (ha : s.Accepts image env h₁ raws judged h') :
    s.Accepts image env h (raw :: raws) (raw :: judged) h' := by
  obtain ⟨hbefore, haccepted⟩ := ha
  exact .intro (.cons hrejection hrefused hbefore) haccepted

theorem refuses_or_accepts (s : SignedBy) (image : Image σ) (env : Environment σ)
    (raws : List Bytes) (h : Host σ) :
    (∃ fs h', s.Refuses image env h raws fs h') ∨
      ∃ judged h', s.Accepts image env h raws judged h' := by
  induction raws generalizing h with
  | nil => exact .inl ⟨[], h, .nil⟩
  | cons raw raws ih =>
      rcases s.judge_cases image raw env h with ⟨signature, h₁, haccepted⟩ |
        ⟨f, h₁, hrejection, hrefused⟩
      · have ha : s.Accepts image env h ([] ++ raw :: raws) ([] ++ [raw]) h₁ :=
          .intro .nil haccepted
        exact .inr ⟨[raw], h₁, ha⟩
      · rcases ih h₁ with ⟨fs, h', hr⟩ | ⟨judged, h', ha⟩
        · exact .inl ⟨f :: fs, h', .cons hrejection hrefused hr⟩
        · exact .inr ⟨raw :: judged, h', ha.cons hrejection hrefused⟩

/-- Signatures that are refused put their reasons before those of the rest. -/
theorem refusals_append {before : List Bytes} (hr : s.Refuses image env h before fs h₁)
    (rest : List Bytes) :
    s.refusals image env (before ++ rest) h =
      ((s.refusals image env rest h₁).1.map (Option.map (fs ++ ·)),
        (s.refusals image env rest h₁).2) := by
  induction hr with
  | @nil h =>
      rw [List.nil_append]
      rcases s.refusals image env rest h with ⟨_ | _ | reasons, h'⟩ <;> rfl
  | @cons h h₁ h' raw before f fs _ hrefused _ ih =>
      rw [List.cons_append, refusals, Act.bind_ok hrefused]
      dsimp only [refusal?]
      rw [Act.bind_apply, ih]
      rcases s.refusals image env rest h' with ⟨_ | _ | reasons, h''⟩ <;> rfl

theorem refusals_of_refuses (hr : s.Refuses image env h raws fs h') :
    s.refusals image env raws h = (.ok (some fs), h') := by
  have happend := refusals_append hr []
  rw [List.append_nil] at happend
  rw [happend]
  show (Except.ok (some (fs ++ [])), h') = _
  rw [List.append_nil]

theorem refusals_of_accepts (ha : s.Accepts image env h raws judged h') :
    s.refusals image env raws h = (.ok none, h') := by
  obtain ⟨hbefore, haccepted⟩ := ha
  rw [refusals_append hbefore, refusals, Act.bind_ok haccepted]
  rfl

/-! ## What is asked meanwhile -/

/-- Signatures that are refused ask before the rest do. -/
theorem Refuses.asks_append {before rest : List Bytes} {qss : List (List Question)}
    (hr : s.Refuses image env h before fs h₁) (heach : List.Forall₂ Judged judged qss)
    (hrest : (s.refusals image env rest).Asks (s.refusals image.noting (env.noting image) rest) h₁
      qss.flatten) :
    ∃ qss, List.Forall₂ Judged (before ++ judged) qss ∧
      (s.refusals image env (before ++ rest)).Asks
        (s.refusals image.noting (env.noting image) (before ++ rest)) h qss.flatten := by
  induction hr with
  | nil => exact ⟨qss, heach, hrest⟩
  | @cons h h₁ _ raw raws f fs _ hrefused _ ih =>
      obtain ⟨qs, hjudged, hasks⟩ := s.asks_judge image raw env h
      obtain ⟨more, hall, hmore⟩ := ih hrest
      refine ⟨qs :: more, .cons hjudged hall, ?_⟩
      rw [List.flatten_cons]
      refine hasks.bind_ok hrefused ?_
      exact hmore.bind_silent fun _ => .pure _

theorem Refuses.asks (hr : s.Refuses image env h raws fs h') :
    ∃ qss, List.Forall₂ Judged raws qss ∧
      (s.refusals image env raws).Asks (s.refusals image.noting (env.noting image) raws) h
        qss.flatten := by
  have hend : (s.refusals image env []).Asks (s.refusals image.noting (env.noting image) []) h'
      (List.flatten []) := .pure _ _
  have hall := hr.asks_append .nil hend
  rwa [List.append_nil] at hall

theorem Accepts.asks (ha : s.Accepts image env h raws judged h') :
    ∃ qss, List.Forall₂ Judged judged qss ∧
      (s.refusals image env raws).Asks (s.refusals image.noting (env.noting image) raws) h
        qss.flatten := by
  cases ha with
  | @intro h₁ _ before after raw fs signature hbefore haccepted =>
      obtain ⟨qs, hjudged, hasks⟩ := s.asks_judge image raw env h₁
      refine hbefore.asks_append (.cons hjudged .nil) ?_
      rw [List.flatten_cons]
      exact hasks.bind_ok haccepted (.pure _ _)

/-! ## Verdicts that stay the same -/

section Answering

variable {g : Ground σ} {verdict : Bytes → Verdict}

/-- On a ground where every verdict is settled, the reasons are those of the verdicts. -/
theorem Refuses.verdicts (hr : s.Refuses image env h raws fs h')
    (hanswers : ∀ raw ∈ raws, g.Answers (s.judge image raw env) (.ok (verdict raw)))
    (hh : g.holds h) : raws.map verdict = fs.map .rejected ∧ g.holds h' := by
  induction hr with
  | nil => exact ⟨rfl, hh⟩
  | @cons h h₁ _ raw raws f fs _ hrefused _ ih =>
      obtain ⟨hverdict, hh₁⟩ := hanswers raw (List.mem_cons_self ..) h hh
      rw [hrefused] at hverdict hh₁
      obtain ⟨hrest, hh'⟩ := ih (fun raw hraw => hanswers raw (List.mem_cons_of_mem _ hraw)) hh₁
      refine ⟨?_, hh'⟩
      rw [List.map_cons, List.map_cons, hrest, ← Except.ok.inj hverdict]

theorem Accepts.accepted_among (ha : s.Accepts image env h raws judged h')
    (hanswers : ∀ raw ∈ raws, g.Answers (s.judge image raw env) (.ok (verdict raw)))
    (hh : g.holds h) : ∃ raw ∈ raws, ∃ signature, verdict raw = .accepted signature := by
  cases ha with
  | @intro h₁ _ before after raw fs signature hbefore haccepted =>
      have hraw : raw ∈ before ++ raw :: after := by
        rw [List.mem_append]
        exact .inr (List.mem_cons_self ..)
      have hlead : ∀ other ∈ before, g.Answers (s.judge image other env) (.ok (verdict other)) :=
        fun other hother => hanswers other (List.mem_append.mpr (.inl hother))
      obtain ⟨hverdict, -⟩ := hanswers raw hraw h₁ (hbefore.verdicts hlead hh).2
      rw [haccepted] at hverdict
      exact ⟨raw, hraw, signature, (Except.ok.inj hverdict).symm⟩

theorem accepts_iff_verdict
    (hanswers : ∀ raw ∈ raws, g.Answers (s.judge image raw env) (.ok (verdict raw)))
    (hh : g.holds h) :
    (∃ judged h', s.Accepts image env h raws judged h') ↔
      ∃ raw ∈ raws, ∃ signature, verdict raw = .accepted signature := by
  constructor
  · rintro ⟨judged, h', ha⟩
    exact ha.accepted_among hanswers hh
  · rintro ⟨raw, hraw, signature, haccepted⟩
    rcases s.refuses_or_accepts image env raws h with ⟨fs, h', hr⟩ | ha
    · have hrejected : verdict raw ∈ fs.map .rejected :=
        (hr.verdicts hanswers hh).1 ▸ List.mem_map_of_mem hraw
      obtain ⟨f, -, hf⟩ := List.mem_map.mp hrejected
      rw [haccepted] at hf
      cases hf
    · exact ha

end Answering

/-! ## The decision -/

/-- The denial for these reasons: the only one, or all of them in their order, each in its own
words. -/
structure DeniedFor (d : Fault) (fs : List Fault) : Prop where
  kind_eq : d.kind = .policyRequirement
  single : ∀ f, fs = [f] → d = f
  several : 2 ≤ fs.length → d.message = Text.sentence
    ["None of the signatures were accepted, reasons: ", Text.joined "; " (fs.map Fault.message)]
  reasoned : ∀ f ∈ d :: fs, f.kind = .policyRequirement ∧ f.message ≠ Fault.noneAccepted.message

theorem deniedFor_denial (hfs : ∀ f ∈ fs, Rejection f) : DeniedFor (denial fs) fs := by
  have hreasons : ∀ f ∈ fs, f.kind = .policyRequirement ∧
      f.message ≠ Fault.noneAccepted.message := by
    intro f hf
    exact ⟨(hfs f hf).kind_eq, (hfs f hf).message_ne⟩
  have hall : ∀ texts, (Fault.allRejected texts).message ≠ Fault.noneAccepted.message := by
    intro texts hsame
    have hsecond : (Fault.allRejected texts).message[2]? = Fault.noneAccepted.message[2]? := by
      rw [hsame]
    exact absurd (Option.some.inj hsecond) (by decide)
  match fs with
  | [] =>
      refine ⟨rfl, fun f hf => ?_, fun hlength => ?_, fun f hf => ?_⟩
      · cases hf
      · cases hlength
      · rcases List.mem_cons.mp hf with rfl | hf
        · exact ⟨rfl, hall []⟩
        · exact hreasons f hf
  | [reason] =>
      refine ⟨(hreasons reason (List.mem_cons_self ..)).1, fun f hf => ?_, fun hlength => ?_,
        fun f hf => ?_⟩
      · cases hf
        rfl
      · exact absurd hlength (Nat.not_succ_le_self 1)
      · rcases List.mem_cons.mp hf with rfl | hf
        · exact hreasons _ (List.mem_cons_self ..)
        · exact hreasons f hf
  | first :: second :: rest =>
      refine ⟨rfl, fun f hf => ?_, fun _ => rfl, fun f hf => ?_⟩
      · cases hf
      · rcases List.mem_cons.mp hf with rfl | hf
        · exact ⟨rfl, hall _⟩
        · exact hreasons f hf

theorem Accepts.ne_nil (ha : s.Accepts image env h raws judged h') : raws ≠ [] := by
  obtain ⟨-, -⟩ := ha
  exact List.append_ne_nil_of_right_ne_nil _ (List.cons_ne_nil _ _)

/-- What is asked when a demand decides. -/
def questions (s : SignedBy) (image : Image σ) (env : Environment σ) (h : Host σ) :
    List Question :=
  Act.questions (s.run image.noting (env.noting image)) h

section Running

variable {e : Fault}

/-- Signatures that cannot be read are a failure to fetch them, that of the image or one that
answers it. -/
theorem readSignatures_of_error (hsignatures : image.signatures h = (.error e, h₁)) :
    ∃ f h', image.readSignatures h = (.error f, h') ∧ f.isA .signatureFetch ∧
      (f = e ∨ f = .fetchFailed image.reference.shown e) := by
  unfold Image.readSignatures
  rw [Act.outcome_bind_apply, hsignatures]
  by_cases he : e.isA .signatureFetch
  · dsimp only
    rw [if_pos he]
    exact ⟨e, h₁, rfl, he, .inl rfl⟩
  · dsimp only
    rw [if_neg he]
    exact ⟨_, _, rfl, rfl, .inr rfl⟩

theorem readSignatures_of_ok (hsignatures : image.signatures h = (.ok raws, h₁)) :
    image.readSignatures h = (.ok raws, h₁) := by
  unfold Image.readSignatures
  rw [Act.outcome_bind_apply, hsignatures]
  rfl

theorem run_of_unread (hread : image.readSignatures h = (.error f, h₁))
    (hf : f.isA .signatureFetch) : s.run image env h = (.ok (.deny f), h₁) := by
  unfold run
  rw [Act.outcome_bind_apply, hread]
  dsimp only
  rw [if_pos hf]
  rfl

theorem run_of_unsigned (hread : image.readSignatures h = (.ok [], h₁)) :
    s.run image env h = (.ok (.deny .unsigned), h₁) := by
  unfold run
  rw [Act.outcome_bind_apply, hread]
  rfl

theorem run_of_refuses (hread : image.readSignatures h = (.ok raws, h₁)) (hne : raws ≠ [])
    (hr : s.Refuses image env h₁ raws fs h') :
    s.run image env h = (.ok (.deny (denial fs)), h') := by
  obtain ⟨raw, rest, rfl⟩ := List.exists_cons_of_ne_nil hne
  unfold run
  rw [Act.outcome_bind_apply, hread]
  exact Act.bind_ok (refusals_of_refuses hr) _

theorem run_of_accepts (hread : image.readSignatures h = (.ok raws, h₁))
    (ha : s.Accepts image env h₁ raws judged h') : s.run image env h = (.ok .allow, h') := by
  obtain ⟨raw, rest, rfl⟩ := List.exists_cons_of_ne_nil ha.ne_nil
  unfold run
  rw [Act.outcome_bind_apply, hread]
  exact Act.bind_ok (refusals_of_accepts ha) _

/-- The image is asked for its signatures once, and then what judging them asks. -/
theorem asks_run_of_refusals {qs : List Question}
    (hread : image.readSignatures h = (.ok raws, h₁))
    (hasks : (s.refusals image env raws).Asks
      (s.refusals image.noting (env.noting image) raws) h₁ qs) (hne : raws ≠ []) :
    (s.run image env).Asks (s.run image.noting (env.noting image)) h (.signatures :: qs) := by
  obtain ⟨raw, rest, rfl⟩ := List.exists_cons_of_ne_nil hne
  unfold run
  show Act.Asks _ _ h ([.signatures] ++ qs)
  refine (image.asks_readSignatures h).outcome_bind ?_
  rw [hread]
  refine hasks.bind_silent fun reasons h => ?_
  cases reasons with
  | none => exact .pure _ _
  | some fs => exact .pure _ _

theorem asks_run (s : SignedBy) (image : Image σ) (env : Environment σ) (h : Host σ) :
    ∃ judged qss, List.Forall₂ Judged judged qss ∧
      (s.run image env).Asks (s.run image.noting (env.noting image)) h
        (.signatures :: qss.flatten) := by
  have hsignatures := image.asks_readSignatures h
  rcases hread : image.readSignatures h with ⟨f | raws, h₁⟩
  · refine ⟨[], [], .nil, ?_⟩
    unfold run
    refine hsignatures.outcome_silent ?_
    rw [hread]
    exact .ite (.pure _ _) (.fail _ _)
  · by_cases hne : raws = []
    · subst hne
      refine ⟨[], [], .nil, ?_⟩
      unfold run
      refine hsignatures.outcome_silent ?_
      rw [hread]
      exact .pure _ _
    · rcases s.refuses_or_accepts image env raws h₁ with ⟨fs, h', hr⟩ | ⟨judged, h', ha⟩
      · obtain ⟨qss, hjudged, hasks⟩ := hr.asks
        exact ⟨raws, qss, hjudged, asks_run_of_refusals hread hasks hne⟩
      · obtain ⟨qss, hjudged, hasks⟩ := ha.asks
        exact ⟨judged, qss, hjudged, asks_run_of_refusals hread hasks hne⟩

/-- An image may run if and only if one of its signatures is accepted. -/
theorem run_allow_iff (hread : image.readSignatures h = (.ok raws, h₁)) :
    (s.run image env h).1 = .ok .allow ↔ ∃ judged h', s.Accepts image env h₁ raws judged h' := by
  constructor
  · intro hallow
    rcases s.refuses_or_accepts image env raws h₁ with ⟨fs, h', hr⟩ | ha
    · by_cases hne : raws = []
      · subst hne
        rw [run_of_unsigned hread] at hallow
        cases hallow
      · rw [run_of_refuses hread hne hr] at hallow
        cases hallow
    · exact ha
  · rintro ⟨judged, h', ha⟩
    rw [run_of_accepts hread ha]

theorem questions_of_accepts (hread : image.readSignatures h = (.ok raws, h₁))
    (ha : s.Accepts image env h₁ raws judged h') :
    ∃ qss, List.Forall₂ Judged judged qss ∧
      s.questions image env h = .signatures :: qss.flatten := by
  obtain ⟨qss, hjudged, hasks⟩ := ha.asks
  exact ⟨qss, hjudged, (asks_run_of_refusals hread hasks ha.ne_nil).questions_eq.1⟩

theorem questions_of_refuses (hread : image.readSignatures h = (.ok raws, h₁)) (hne : raws ≠ [])
    (hr : s.Refuses image env h₁ raws fs h') :
    ∃ qss, List.Forall₂ Judged raws qss ∧
      s.questions image env h = .signatures :: qss.flatten := by
  obtain ⟨qss, hjudged, hasks⟩ := hr.asks
  exact ⟨qss, hjudged, (asks_run_of_refusals hread hasks hne).questions_eq.1⟩

end Running

/-- What a demand decides, whatever the image and the verifier do.  A verdict is an acceptance
or a rejection for a reason of the requirement, and a failure of the verifier is the cause of
one.  Signatures that cannot be read, or that there are none, are a denial.  Otherwise the image
may run if and only if a signature is accepted, and those behind the first such are not
verified; if all are rejected the denial is for the reasons against each. -/
theorem run_exact (s : SignedBy) (image : Image σ) (env : Environment σ) (h : Host σ) :
    (∀ raw h₁, (∃ signature, (s.judge image raw env h₁).1 = .ok (.accepted signature)) ∨
      ∃ f, (s.judge image raw env h₁).1 = .ok (.rejected f) ∧ f.kind = .policyRequirement ∧
        f.message ≠ Fault.noneAccepted.message) ∧
      (∀ raw h₁ h₂ e,
        (do env.verifier.verify raw (← s.keyMaterial) : Act σ Signature) h₁ = (.error e, h₂) →
        ∃ f, (s.judge image raw env h₁).1 = .ok (.rejected f) ∧ f.cause? = some e) ∧
      (s.run image.noting (env.noting image) (h.noting [])).1 = (s.run image env h).1 ∧
      (∀ e h₁, image.signatures h = (.error e, h₁) → ∃ f, f.isA .signatureFetch ∧
        (f = e ∨ f.cause? = some e) ∧ (s.run image env h).1 = .ok (.deny f)) ∧
      (∀ h₁, image.signatures h = (.ok [], h₁) →
        (s.run image env h).1 = .ok (.deny .unsigned)) ∧
      ∀ raws h₁, image.signatures h = (.ok raws, h₁) →
        ((s.run image env h).1 = .ok .allow ↔ ∃ judged h', s.Accepts image env h₁ raws judged h') ∧
        (∀ judged h', s.Accepts image env h₁ raws judged h' →
          s.run image env h = (.ok .allow, h') ∧ ∃ qss, List.Forall₂ Judged judged qss ∧
            s.questions image env h = .signatures :: qss.flatten) ∧
        (raws ≠ [] → (s.run image env h).1 ≠ .ok .allow → ∃ fs h' d,
          s.Refuses image env h₁ raws fs h' ∧ fs.length = raws.length ∧
          s.run image env h = (.ok (.deny d), h') ∧ DeniedFor d fs ∧
          ∃ qss, List.Forall₂ Judged raws qss ∧
            s.questions image env h = .signatures :: qss.flatten) ∧
        ∀ (g : Ground σ) (verdict : Bytes → Verdict), g.holds h₁ →
          (∀ raw ∈ raws, g.Answers (s.judge image raw env) (.ok (verdict raw))) →
          ((s.run image env h).1 = .ok .allow ↔
            ∃ raw ∈ raws, ∃ signature, verdict raw = .accepted signature) ∧
          ∀ fs h', s.Refuses image env h₁ raws fs h' → raws.map verdict = fs.map .rejected := by
  refine ⟨fun raw h₁ => ?_, fun raw h₁ h₂ e hfails => ?_, ?_, fun e h₁ hsignatures => ?_,
    fun h₁ hsignatures => ?_, fun raws h₁ hsignatures => ?_⟩
  · rcases s.judge_cases image raw env h₁ with ⟨signature, h', haccepted⟩ |
      ⟨f, h', hrejection, hrejected⟩
    · exact .inl ⟨signature, congrArg Prod.fst haccepted⟩
    · exact .inr ⟨f, congrArg Prod.fst hrejected, hrejection.kind_eq, hrejection.message_ne⟩
  · exact ⟨.unverified e, judge_of_unverified hfails, rfl⟩
  · obtain ⟨judged, qss, -, hasks⟩ := s.asks_run image env h
    exact hasks.questions_eq.2
  · obtain ⟨f, h', hread, hfetch, hsource⟩ := readSignatures_of_error hsignatures
    refine ⟨f, hfetch, hsource.imp_right ?_, congrArg Prod.fst (run_of_unread hread hfetch)⟩
    rintro rfl
    rfl
  · exact congrArg Prod.fst (run_of_unsigned (readSignatures_of_ok hsignatures))
  · have hread := readSignatures_of_ok hsignatures
    refine ⟨run_allow_iff hread,
      fun judged h' ha => ⟨run_of_accepts hread ha, questions_of_accepts hread ha⟩,
      fun hne hdenied => ?_,
      fun g verdict hh hanswers => ⟨?_, fun fs h' hr => (hr.verdicts hanswers hh).1⟩⟩
    · rcases s.refuses_or_accepts image env raws h₁ with ⟨fs, h', hr⟩ | ha
      · exact ⟨fs, h', denial fs, hr, hr.length_eq, run_of_refuses hread hne hr,
          deniedFor_denial hr.rejection, questions_of_refuses hread hne hr⟩
      · exact absurd ((run_allow_iff hread).mpr ha) hdenied
    · rw [run_allow_iff hread]
      exact accepts_iff_verdict hanswers hh

end SignedBy

namespace Specimen

/-- A verifier that breaks on one signature, takes another, and knows any other as one of
another image. -/
def picky : Environment Unit where
  verifier :=
    { verify := fun raw _ =>
        if raw = [0] then Act.fail (.given .runtime "broken")
        else pure ⟨if raw = [1] then "sha256:0" else "sha256:1", "a.b/c:1"⟩
      close := pure () }
  baseLayerCheck := none

def curt : SignedBy := ⟨.ed25519, .data "k", .exact⟩

def carrying (raws : List Bytes) : Image Unit :=
  ⟨address.toImageReference, pure "sha256:0", pure raws⟩

end Specimen

open Specimen in
/-- Of three signatures the second is accepted and the third is not looked at; without the
second, both others are reasons of the denial. -/
theorem SignedBy.run_exact_picky :
    curt.Accepts (carrying [[0], [1], [2]]) picky host [[0], [1], [2]] [[0], [1]]
        (curt.run (carrying [[0], [1], [2]]) picky host).2 ∧
      (curt.run (carrying [[0], [1], [2]]) picky host).1 = .ok .allow ∧
      curt.questions (carrying [[0], [1], [2]]) picky host =
        [.signatures, .verify [0] [0x6B], .verify [1] [0x6B], .manifestDigest] ∧
      ∃ d fs, (curt.run (carrying [[0], [2]]) picky host).1 = .ok (.deny d) ∧
        DeniedFor d fs ∧ fs.length = 2 ∧
        d.message = Text.sentence ["None of the signatures were accepted, reasons: ",
          "Signature verification failed: broken; Signature for digest sha256:1 does not match"] := by
  have hrejected : curt.judge (carrying [[0], [1], [2]]) [0] picky host =
      (.ok (.rejected (.unverified (.given .runtime "broken"))),
        (curt.judge (carrying [[0], [1], [2]]) [0] picky host).2) := rfl
  have haccepts : curt.Accepts (carrying [[0], [1], [2]]) picky host
      ([[0]] ++ [1] :: [[2]]) ([[0]] ++ [[1]])
        (curt.run (carrying [[0], [1], [2]]) picky host).2 :=
    .intro (.cons (.unverified _) hrejected .nil) rfl
  obtain ⟨-, -, -, -, -, hthree⟩ := curt.run_exact (carrying [[0], [1], [2]]) picky host
  obtain ⟨hallowed, -⟩ := hthree _ _ rfl
  obtain ⟨-, -, -, -, -, htwo⟩ := curt.run_exact (carrying [[0], [2]]) picky host
  obtain ⟨-, -, hdenied, -⟩ := htwo _ _ rfl
  have hresult : (curt.run (carrying [[0], [2]]) picky host).1 = .ok (.deny (.allRejected
      [(Fault.unverified (.given .runtime "broken")).message,
        (Fault.otherDigest "sha256:1").message])) := rfl
  have hnot : (curt.run (carrying [[0], [2]]) picky host).1 ≠ .ok .allow := by
    rw [hresult]
    exact nofun
  obtain ⟨fs, h', d, -, hlength, hrun, hfor, -⟩ := hdenied (List.cons_ne_nil _ _) hnot
  refine ⟨haccepts, hallowed.mpr ⟨_, _, haccepts⟩, rfl, d, fs, congrArg Prod.fst hrun, hfor,
    hlength, ?_⟩
  rw [hrun] at hresult
  cases hresult
  rfl

end ImageTrust
