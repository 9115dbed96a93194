/-
# Requests — a listing against any server

What comes of the requests that a listing makes can be written down beforehand, as a script: an
endless row of outcomes, each of them a response of the server or a loss on the way to it.  The
number of requests made so far says which outcome is next, and nothing else of the host matters.

Two loops read the script, the one that lists and inside of it the one that tries again.  What the
inner one makes of it is settled by the first response, or by the last attempt
(`Script.Settles`); with that, one number of the listing is one equation
(`Lookaside.signaturesFrom_succ`).  Every script either answers with signatures up to the word that
there are no more, or it breaks off (`Script.lists_or_breaks`), and in both cases the listing comes
to just that (`Lookaside.signatures_complete`).
-/
import ImageTrust.Proofs.Retry

namespace ImageTrust

variable {σ : Type}

/-- The response brings a signature. -/
def Response.Succeeds (response : Response) : Prop := 200 ≤ response.status ∧ response.status < 300

instance (response : Response) : Decidable response.Succeeds :=
  inferInstanceAs (Decidable (200 ≤ response.status ∧ response.status < 300))

/-- What comes of the requests, one after the other and without an end: a response, or a loss on
the way to the server. -/
structure Script where
  outcome : Nat → Except Fault Response
  transport : ∀ {k : Nat} {f : Fault}, outcome k = .error f → f.isA .transport = true

namespace Script

variable {s : Script} {attempts most losses k k' i : Nat} {response last : Response} {f : Fault}
  {found responses : List Response} {numbers : List Nat}

/-! ## One request, made again -/

/-- From outcome `k` on there are this many losses. -/
def Loses (s : Script) (k losses : Nat) : Prop := ∀ i < losses, ∃ f, s.outcome (k + i) = .error f

theorem Loses.zero (s : Script) (k : Nat) : s.Loses k 0 := fun i hi => absurd hi (Nat.not_lt_zero i)

theorem loses_succ_iff :
    s.Loses k (losses + 1) ↔ (∃ f, s.outcome k = .error f) ∧ s.Loses (k + 1) losses := by
  constructor
  · refine fun hl => ⟨hl 0 (Nat.succ_pos losses), fun i hi => ?_⟩
    rw [Nat.add_right_comm]
    exact hl (i + 1) (Nat.succ_lt_succ hi)
  · rintro ⟨hf, hl⟩ i hi
    cases i with
    | zero => exact hf
    | succ i =>
        have hlost := hl i (Nat.lt_of_succ_lt_succ hi)
        rw [Nat.add_right_comm] at hlost
        exact hlost

/-- A request that is made from outcome `k` on is settled after this many losses: by a response, or
because no attempt is left. -/
structure Settles (s : Script) (attempts k losses : Nat) : Prop where
  lost : s.Loses k losses
  few : losses < attempts
  last : losses + 1 = attempts ∨ ∃ response, s.outcome (k + losses) = .ok response

theorem settles_of_answered (hanswer : s.outcome k = .ok response) :
    s.Settles (attempts + 1) k losses ↔ losses = 0 := by
  constructor
  · intro hs
    cases losses with
    | zero => rfl
    | succ losses =>
        obtain ⟨f, hf⟩ := (loses_succ_iff.mp hs.lost).1
        rw [hanswer] at hf
        cases hf
  · rintro rfl
    exact ⟨.zero s k, Nat.succ_pos attempts, .inr ⟨response, hanswer⟩⟩

theorem settles_of_lost (hf : s.outcome k = .error f) :
    s.Settles (attempts + 2) k losses ↔
      ∃ more, losses = more + 1 ∧ s.Settles (attempts + 1) (k + 1) more := by
  constructor
  · intro hs
    cases losses with
    | zero =>
        rcases hs.last with hlast | ⟨response, hanswer⟩
        · omega
        · rw [Nat.add_zero, hf] at hanswer
          cases hanswer
    | succ more =>
        refine ⟨more, rfl, (loses_succ_iff.mp hs.lost).2, Nat.lt_of_succ_lt_succ hs.few, ?_⟩
        rw [Nat.add_right_comm]
        exact hs.last.imp_left Nat.succ.inj
  · rintro ⟨more, rfl, hs⟩
    refine ⟨loses_succ_iff.mpr ⟨⟨f, hf⟩, hs.lost⟩, Nat.succ_lt_succ hs.few, ?_⟩
    have hlast := hs.last
    rw [Nat.add_right_comm] at hlast
    exact hlast.imp_left (congrArg Nat.succ)

theorem exists_settles (s : Script) (k : Nat) (hone : 1 ≤ attempts) :
    ∃ losses, s.Settles attempts k losses := by
  obtain ⟨more, rfl⟩ := Nat.exists_eq_add_one.mpr hone
  induction more generalizing k with
  | zero => exact ⟨0, .zero s k, Nat.one_pos, .inl rfl⟩
  | succ more ih =>
      cases hk : s.outcome k with
      | ok response => exact ⟨0, (settles_of_answered hk).mpr rfl⟩
      | error f =>
          obtain ⟨losses, hs⟩ := ih (k + 1) (Nat.le_add_left 1 more)
          exact ⟨losses + 1, (settles_of_lost hk).mpr ⟨losses, rfl, hs⟩⟩

/-! ## The numbers that are asked for -/

/-- From outcome `k` on these numbers are asked for in order, beginning with `i`: a number again
right after a loss, and the next one after a response. -/
inductive InOrder (s : Script) : Nat → Nat → List Nat → Prop
  | done {k i : Nat} : InOrder s k i []
  | again {k i : Nat} {f : Fault} {numbers : List Nat} (lost : s.outcome k = .error f)
      (rest : InOrder s (k + 1) i numbers) : InOrder s k i (i :: numbers)
  | next {k i : Nat} {response : Response} {numbers : List Nat}
      (answered : s.outcome k = .ok response) (rest : InOrder s (k + 1) (i + 1) numbers) :
      InOrder s k i (i :: numbers)

theorem InOrder.one (s : Script) (k i : Nat) : s.InOrder k i [i] := by
  cases hk : s.outcome k with
  | ok response => exact .next hk .done
  | error f => exact .again hk .done

theorem InOrder.after_losses (hl : s.Loses k losses) (rest : s.InOrder (k + losses) i numbers) :
    s.InOrder k i (List.replicate losses i ++ numbers) := by
  induction losses generalizing k with
  | zero => exact rest
  | succ losses ih =>
      obtain ⟨⟨f, hf⟩, hmore⟩ := loses_succ_iff.mp hl
      rw [← Nat.add_assoc, ← Nat.add_right_comm] at rest
      exact .again hf (ih hmore rest)

/-! ## The end of a listing -/

/-- Losses that are made up for left out, the script answers from outcome `k` on with these
responses, and then outcome `k'` is next. -/
inductive Answers (s : Script) (attempts : Nat) : Nat → List Response → Nat → Prop
  | nil {k : Nat} : Answers s attempts k [] k
  | cons {k losses k' : Nat} {response : Response} {responses : List Response}
      (lost : s.Loses k losses) (few : losses < attempts)
      (answered : s.outcome (k + losses) = .ok response)
      (rest : Answers s attempts (k + losses + 1) responses k') :
      Answers s attempts k (response :: responses) k'

/-- The script answers with signatures, as many as there may be at most, and then that there is no
further one; these are the signatures. -/
def Lists (s : Script) (attempts most k : Nat) (raws : List Bytes) : Prop :=
  ∃ found last k', s.Answers attempts k (found ++ [last]) k' ∧ (∀ r ∈ found, r.Succeeds) ∧
    found.length ≤ most ∧ last.status = 404 ∧ raws = found.map Response.body

/-- After signatures, as many as there may be at most, the script answers with another status, it
loses all attempts, or it answers with one signature more. -/
inductive Breaks (s : Script) (attempts most : Nat) (address : Nat → Text) (surplus : Fault)
    (k : Nat) : Fault → Prop
  | refused {found : List Response} {last : Response} {k' : Nat}
      (answers : s.Answers attempts k (found ++ [last]) k') (good : ∀ r ∈ found, r.Succeeds)
      (room : found.length ≤ most) (other : last.status ≠ 404) (bad : ¬ last.Succeeds) :
      Breaks s attempts most address surplus k (.badStatus (address found.length) last.status)
  | lost {found : List Response} {k' : Nat} {f : Fault} (answers : s.Answers attempts k found k')
      (good : ∀ r ∈ found, r.Succeeds) (room : found.length ≤ most) {losses : Nat}
      (lost : s.Loses k' losses) (all : losses + 1 = attempts)
      (last : s.outcome (k' + losses) = .error f) :
      Breaks s attempts most address surplus k (.unreachable (address found.length) f)
  | surplus {found : List Response} {k' : Nat} (answers : s.Answers attempts k found k')
      (good : ∀ r ∈ found, r.Succeeds) (excess : found.length = most + 1) :
      Breaks s attempts most address surplus k surplus

theorem Breaks.kind_eq {address : Nat → Text} {surplus : Fault}
    (hb : s.Breaks attempts most address surplus k f) (hkind : surplus.kind = .signatureFetch) :
    f.kind = .signatureFetch := by
  cases hb with
  | refused => rfl
  | lost => rfl
  | surplus => exact hkind

theorem Answers.snoc (ha : s.Answers attempts k found k') (hs : s.Settles attempts k' losses)
    (hanswer : s.outcome (k' + losses) = .ok response) :
    s.Answers attempts k (found ++ [response]) (k' + losses + 1) := by
  induction ha with
  | nil => exact .cons hs.lost hs.few hanswer .nil
  | cons lost few answered rest ih => exact .cons lost few answered (ih hs hanswer)

theorem answers_snoc_iff :
    s.Answers attempts k (found ++ [last]) k' ↔ ∃ k₁ losses, s.Answers attempts k found k₁ ∧
      s.Settles attempts k₁ losses ∧ s.outcome (k₁ + losses) = .ok last ∧ k' = k₁ + losses + 1 := by
  constructor
  · intro ha
    induction found generalizing k with
    | nil =>
        cases ha with
        | @cons _ losses _ _ _ lost few answered rest =>
            cases rest
            exact ⟨k, losses, .nil, ⟨lost, few, .inr ⟨last, answered⟩⟩, answered, rfl⟩
    | cons response found ih =>
        cases ha with
        | cons lost few answered rest =>
            obtain ⟨k₁, more, hfound, hlast⟩ := ih rest
            exact ⟨k₁, more, .cons lost few answered hfound, hlast⟩
  · rintro ⟨k₁, losses, ha, hs, hanswer, rfl⟩
    exact ha.snoc hs hanswer

/-- Behind signatures, as many as there may be at most, a listing ends, or there is another one. -/
theorem ends_or_answers (hone : 1 ≤ attempts) (address : Nat → Text) (surplus : Fault)
    (ha : s.Answers attempts k found k') (good : ∀ r ∈ found, r.Succeeds)
    (room : found.length ≤ most) :
    (∃ raws, s.Lists attempts most k raws) ∨ (∃ f, s.Breaks attempts most address surplus k f) ∨
      ∃ response k'', s.Answers attempts k (found ++ [response]) k'' ∧ response.Succeeds := by
  obtain ⟨losses, hs⟩ := s.exists_settles k' hone
  cases houtcome : s.outcome (k' + losses) with
  | error f =>
      have hall : losses + 1 = attempts := by
        refine hs.last.resolve_right ?_
        rintro ⟨response, hanswer⟩
        rw [houtcome] at hanswer
        cases hanswer
      exact .inr (.inl ⟨_, .lost ha good room hs.lost hall houtcome⟩)
  | ok response =>
      have hmore := ha.snoc hs houtcome
      by_cases hmissing : response.status = 404
      · exact .inl ⟨_, found, response, _, hmore, good, room, hmissing, rfl⟩
      · by_cases hgood : response.Succeeds
        · exact .inr (.inr ⟨response, _, hmore, hgood⟩)
        · exact .inr (.inl ⟨_, .refused hmore good room hmissing hgood⟩)

/-- Whatever the script answers with, a listing ends. -/
theorem lists_or_breaks (s : Script) (hone : 1 ≤ attempts) (most : Nat) (address : Nat → Text)
    (surplus : Fault) (k : Nat) :
    (∃ raws, s.Lists attempts most k raws) ∨ ∃ f, s.Breaks attempts most address surplus k f := by
  -- The induction is on how many signatures are missing to one more than there may be.
  have hbehind : ∀ missing found k', s.Answers attempts k found k' →
      (∀ r ∈ found, r.Succeeds) → found.length + missing = most + 1 →
      (∃ raws, s.Lists attempts most k raws) ∨
        ∃ f, s.Breaks attempts most address surplus k f := by
    intro missing
    induction missing with
    | zero => exact fun found k' ha good hlength => .inr ⟨_, .surplus ha good hlength⟩
    | succ missing ih =>
        intro found k' ha good hlength
        have hroom : found.length ≤ most := by omega
        rcases ends_or_answers hone address surplus ha good hroom with
          hlists | hbreaks | ⟨response, k'', hmore, hgood⟩
        · exact .inl hlists
        · exact .inr hbreaks
        · refine ih (found ++ [response]) k'' hmore (fun r hr => ?_) ?_
          · rcases List.mem_append.mp hr with hr | hr
            · exact good r hr
            · exact List.mem_singleton.mp hr ▸ hgood
          · rw [List.length_append, List.length_singleton]
            omega
  exact hbehind (most + 1) [] k .nil (fun r hr => absurd hr List.not_mem_nil) (Nat.zero_add _)

end Script

/-! ## Playing a script -/

namespace Lookaside

/-- The store makes up to this many attempts at each request and lists up to this many signatures,
and the script is played against it: the number of the requests before says what comes of a request,
and what was asked for is kept. The delays of the store's backoff come to their end. -/
structure Plays (store : Lookaside σ) (s : Script) (asked : σ → List Text) (attempts most : Nat) :
    Prop where
  attempts_eq : store.backoff.attempts = .whole attempts
  attempts_pos : 1 ≤ attempts
  attempts_le : attempts ≤ 1024
  most_eq : store.maxSignatures = Int.ofNat most
  get_outcome : ∀ url h, (store.get url h).1 = s.outcome (asked h.beyond).length
  get_asked : ∀ url h, asked (store.get url h).2.beyond = asked h.beyond ++ [url]
  sleep_outcome : ∀ failures d, store.backoff.delay failures = .ok d → ∀ h,
    (store.sleep d h).1 = .ok ()
  sleep_asked : ∀ d h, asked (store.sleep d h).2.beyond = asked h.beyond

variable {store : Lookaside σ} {s : Script} {asked : σ → List Text} {h : Host σ} {url : Text}
  {response : Response} {attempts most losses k : Nat}

theorem Plays.get_apply (hp : store.Plays s asked attempts most) (url : Text) (h : Host σ) :
    ∃ h', store.get url h = (s.outcome (asked h.beyond).length, h') ∧
      asked h'.beyond = asked h.beyond ++ [url] :=
  ⟨(store.get url h).2, Prod.ext (hp.get_outcome url h) rfl, hp.get_asked url h⟩

theorem Plays.sleep_apply (hp : store.Plays s asked attempts most) {failures : Nat} {d : Number}
    (hd : store.backoff.delay failures = .ok d) (h : Host σ) :
    ∃ h', store.sleep d h = (.ok (), h') ∧ asked h'.beyond = asked h.beyond :=
  ⟨(store.sleep d h).2, Prod.ext (hp.sleep_outcome failures d hd h) rfl, hp.sleep_asked d h⟩

/-- Trying again comes to the outcome that settles the request. -/
theorem Plays.attempt_of_settles (hp : store.Plays s asked attempts most) (passes : FaultKind → Bool)
    (hpasses : ∀ f : Fault, f.isA .transport = true → passes f.kind = true) (total : Nat)
    {number more : Nat} (hmost : number + more ≤ 1025)
    (hs : s.Settles (more + 1) (asked h.beyond).length losses) :
    ∃ h', store.backoff.attempt total store.sleep passes (store.get url) number more h =
        (s.outcome ((asked h.beyond).length + losses), h') ∧
      asked h'.beyond = asked h.beyond ++ List.replicate (losses + 1) url := by
  induction losses generalizing number more h with
  | zero =>
      obtain ⟨h₁, hget, hasked⟩ := hp.get_apply url h
      rw [Nat.add_zero]
      cases houtcome : s.outcome (asked h.beyond).length with
      | ok response =>
          rw [houtcome] at hget
          exact ⟨h₁, Backoff.attempt_answered hget, hasked⟩
      | error f =>
          rw [houtcome] at hget
          cases more with
          | zero =>
              obtain ⟨j, hlast⟩ := Backoff.attempt_last hget (hpasses f (s.transport houtcome))
              exact ⟨_, hlast, hasked⟩
          | succ more =>
              obtain ⟨rest, hrest, -⟩ := (Script.settles_of_lost houtcome).mp hs
              cases hrest
  | succ losses ih =>
      obtain ⟨h₁, hget, hasked⟩ := hp.get_apply url h
      obtain ⟨f, houtcome⟩ := (Script.loses_succ_iff.mp hs.lost).1
      cases more with
      | zero => exact absurd hs.few (by omega)
      | succ more =>
          obtain ⟨rest, hrest, hsettles⟩ := (Script.settles_of_lost houtcome).mp hs
          obtain rfl := Nat.succ.inj hrest
          have hnumber : number ≤ 1024 := by omega
          rw [houtcome] at hget
          obtain ⟨d, j, hd, hstep⟩ :=
            Backoff.attempt_again hget (hpasses f (s.transport houtcome)) hnumber
          obtain ⟨h₂, hsleep, hslept⟩ := hp.sleep_apply hd { h₁ with journal := j }
          have hasked₂ : asked h₂.beyond = asked h.beyond ++ [url] := hslept.trans hasked
          have hlength : (asked h₂.beyond).length = (asked h.beyond).length + 1 := by
            rw [hasked₂, List.length_append, List.length_singleton]
          rw [← hlength] at hsettles
          have hmost' : number + 1 + more ≤ 1025 := by omega
          obtain ⟨h', hmore, hasked'⟩ := ih hmost' hsettles
          refine ⟨h', ?_, ?_⟩
          · rw [hstep, Act.bind_ok hsleep, hmore, hlength, Nat.add_right_comm, Nat.add_assoc]
          · rw [hasked', hasked₂, List.append_assoc]
            rfl

/-! ## One number of the listing -/

/-- What the outcome of a request says of the signature under its address. -/
def reading (url : Text) : Except Fault Response → Except Fault (Option Bytes)
  | .ok response =>
    if response.status = 404 then .ok none
    else if response.Succeeds then .ok (some response.body)
    else .error (.badStatus url response.status)
  | .error f => .error (.unreachable url f)

theorem reading_of_missing (hmissing : response.status = 404) :
    reading url (.ok response) = .ok none := if_pos hmissing

theorem reading_of_succeeds (hgood : response.Succeeds) :
    reading url (.ok response) = .ok (some response.body) := by
  have hfound : response.status ≠ 404 := fun hmissing => by
    have hbelow := hgood.2
    omega
  rw [reading, if_neg hfound, if_pos hgood]

theorem reading_of_refused (hfound : response.status ≠ 404) (hbad : ¬ response.Succeeds) :
    reading url (.ok response) = .error (.badStatus url response.status) := by
  rw [reading, if_neg hfound, if_neg hbad]

/-- Only a response brings a signature. -/
theorem eq_ok_of_reading {outcome : Except Fault Response} {raw : Bytes}
    (hread : reading url outcome = .ok (some raw)) : ∃ response, outcome = .ok response := by
  cases outcome with
  | ok response => exact ⟨response, rfl⟩
  | error f => cases hread

theorem Plays.fetch_of_settles (hp : store.Plays s asked attempts most) (url : Text)
    (hs : s.Settles attempts (asked h.beyond).length losses) :
    ∃ h', store.fetch url h = (reading url (s.outcome ((asked h.beyond).length + losses)), h') ∧
      asked h'.beyond = asked h.beyond ++ List.replicate (losses + 1) url := by
  obtain ⟨more, rfl⟩ := Nat.exists_eq_add_one.mpr hp.attempts_pos
  have hnumber : 1 + more ≤ 1025 := by
    have hle := hp.attempts_le
    omega
  obtain ⟨h₁, hattempt, hasked⟩ :=
    hp.attempt_of_settles (fun k => k.isA .transport) (fun f hf => hf) (more + 1) hnumber hs
  have hrun : store.backoff.run store.sleep (fun k => k.isA .transport) (store.get url) h =
      (s.outcome ((asked h.beyond).length + losses), h₁) := by
    unfold Backoff.run
    rw [hp.attempts_eq, Backoff.count_whole (Nat.le_add_left 1 more),
      Act.bind_ok (Act.ofExcept_apply _ _)]
    exact hattempt
  unfold Lookaside.fetch
  rw [Act.outcome_bind_apply, hrun]
  cases houtcome : s.outcome ((asked h.beyond).length + losses) with
  | error f =>
      dsimp only
      rw [if_pos (s.transport houtcome)]
      exact ⟨_, rfl, hasked⟩
  | ok response =>
      by_cases hmissing : response.status = 404
      · rw [reading_of_missing hmissing]
        dsimp only
        rw [if_pos hmissing]
        exact ⟨_, rfl, hasked⟩
      · by_cases hgood : 200 ≤ response.status ∧ response.status < 300
        · rw [reading_of_succeeds hgood]
          dsimp only
          rw [if_neg hmissing, if_pos hgood]
          exact ⟨_, rfl, hasked⟩
        · rw [reading_of_refused hmissing hgood]
          dsimp only
          rw [if_neg hmissing, if_neg hgood]
          exact ⟨_, rfl, hasked⟩

section Listing

variable {r : Reference} {digest : Text} {parts : Text × Text} {found : List Response}
  {raws : List Bytes} {f : Fault} {i k' fuel : Nat}

/-- The address of a signature, counted from zero, when the digest has these parts. -/
def addressOf (baseUrl : Text) (r : Reference) (parts : Text × Text) (i : Nat) : Text :=
  Text.sentence
    [baseUrl, "/", r.path, "@", parts.1, "=", parts.2, "/signature-", Text.integer (i + 1)]

theorem signatureUrl_of_parts (hparts : digestParts digest = .ok parts) (baseUrl : Text)
    (r : Reference) (i : Nat) :
    signatureUrl baseUrl r digest i = .ok (addressOf baseUrl r parts i) := by
  unfold signatureUrl
  rw [hparts]
  rfl

/-- The listing is stopped by more signatures than are allowed. -/
def surplus (store : Lookaside σ) (r : Reference) (digest : Text) : Fault :=
  .tooManySignatures store.maxSignatures (manifestName r digest)

/-- One number of the listing: what is fetched ends it, or is listed before what follows. -/
theorem signaturesFrom_succ (hparts : digestParts digest = .ok parts) (i fuel : Nat) (h : Host σ) :
    store.signaturesFrom r digest i (fuel + 1) h =
      match store.fetch (addressOf store.baseUrl r parts i) h with
      | (.error f, h') => (.error f, h')
      | (.ok none, h') => (.ok [], h')
      | (.ok (some raw), h') =>
        if Int.ofNat i = store.maxSignatures then (.error (store.surplus r digest), h')
        else
          ((store.signaturesFrom r digest (i + 1) fuel h').1.map (raw :: ·),
            (store.signaturesFrom r digest (i + 1) fuel h').2) := by
  rw [signaturesFrom, signatureUrl_of_parts hparts, Act.bind_ok (Act.ofExcept_apply _ _)]
  cases hfetch : store.fetch (addressOf store.baseUrl r parts i) h with
  | mk result h' =>
      cases result with
      | error f => exact Act.bind_error hfetch _
      | ok found =>
          rw [Act.bind_ok hfetch]
          cases found with
          | none => rfl
          | some raw =>
              dsimp only
              by_cases hcap : Int.ofNat i = store.maxSignatures
              · rw [if_pos hcap, if_pos hcap]
                rfl
              · rw [if_neg hcap, if_neg hcap, Act.bind_apply]
                cases store.signaturesFrom r digest (i + 1) fuel h' with
                | mk more h'' => cases more <;> rfl

/-! ## The whole listing -/

/-- What is asked for: the numbers in order, and in all no more requests than every number with all
its attempts would take. -/
theorem Plays.asked_signaturesFrom (hp : store.Plays s asked attempts most)
    (hparts : digestParts digest = .ok parts) (i fuel : Nat) (h : Host σ) :
    ∃ numbers : List Nat, asked (store.signaturesFrom r digest i fuel h).2.beyond =
        asked h.beyond ++ numbers.map (addressOf store.baseUrl r parts) ∧
      s.InOrder (asked h.beyond).length i numbers ∧ numbers.length ≤ fuel * attempts := by
  induction fuel generalizing i h with
  | zero => exact ⟨[], (List.append_nil _).symm, .done, Nat.zero_le _⟩
  | succ fuel ih =>
      obtain ⟨losses, hs⟩ := s.exists_settles (asked h.beyond).length hp.attempts_pos
      obtain ⟨h', hfetch, hasked⟩ :=
        hp.fetch_of_settles (addressOf store.baseUrl r parts i) hs
      have hnumbers : asked h'.beyond = asked h.beyond ++
          (List.replicate (losses + 1) i).map (addressOf store.baseUrl r parts) := by
        rw [hasked, List.map_replicate]
      have hfew : losses + 1 ≤ attempts := hs.few
      -- Where the listing ends with this number, nothing else is asked for.
      have hlast : ∃ numbers : List Nat,
          asked h'.beyond = asked h.beyond ++ numbers.map (addressOf store.baseUrl r parts) ∧
          s.InOrder (asked h.beyond).length i numbers ∧ numbers.length ≤ (fuel + 1) * attempts := by
        refine ⟨_, hnumbers, ?_, ?_⟩
        · rw [List.replicate_succ']
          exact .after_losses hs.lost (.one s _ i)
        · rw [List.length_replicate, Nat.succ_mul]
          omega
      rw [signaturesFrom_succ hparts, hfetch]
      cases hread : reading (addressOf store.baseUrl r parts i)
          (s.outcome ((asked h.beyond).length + losses)) with
      | error f => exact hlast
      | ok found =>
          cases found with
          | none => exact hlast
          | some raw =>
              dsimp only
              by_cases hcap : Int.ofNat i = store.maxSignatures
              · rw [if_pos hcap]
                exact hlast
              · rw [if_neg hcap]
                obtain ⟨response, hanswer⟩ := eq_ok_of_reading hread
                obtain ⟨numbers, hmore, horder, hlength⟩ := ih (i + 1) h'
                have hposition : (asked h'.beyond).length = (asked h.beyond).length + losses + 1 := by
                  rw [hasked, List.length_append, List.length_replicate, Nat.add_assoc]
                rw [hposition] at horder
                refine ⟨List.replicate (losses + 1) i ++ numbers, ?_, ?_, ?_⟩
                · rw [hmore, hnumbers, List.map_append, List.append_assoc]
                · rw [List.replicate_succ', List.append_assoc]
                  exact .after_losses hs.lost (.next hanswer horder)
                · rw [List.length_append, List.length_replicate, Nat.succ_mul]
                  omega

/-- Signatures that the script answers with are listed before whatever follows them. -/
theorem Plays.signaturesFrom_of_answers (hp : store.Plays s asked attempts most)
    (hparts : digestParts digest = .ok parts)
    (ha : s.Answers attempts k found k') (hk : (asked h.beyond).length = k)
    (good : ∀ r ∈ found, r.Succeeds) (room : i + found.length ≤ most) (fuel : Nat) :
    ∃ h', (asked h'.beyond).length = k' ∧
      (store.signaturesFrom r digest i (fuel + found.length) h).1 =
        (store.signaturesFrom r digest (i + found.length) fuel h').1.map
          (found.map Response.body ++ ·) := by
  induction ha generalizing i h with
  | nil =>
      refine ⟨h, hk, ?_⟩
      cases (store.signaturesFrom r digest i fuel h).1 <;> rfl
  | @cons k losses k' response found lost few answered rest ih =>
      subst hk
      obtain ⟨h₁, hfetch, hasked⟩ := hp.fetch_of_settles (addressOf store.baseUrl r parts i)
        ⟨lost, few, .inr ⟨response, answered⟩⟩
      have hposition : (asked h₁.beyond).length = (asked h.beyond).length + losses + 1 := by
        rw [hasked, List.length_append, List.length_replicate, Nat.add_assoc]
      rw [List.length_cons] at room ⊢
      have hbelow : Int.ofNat i ≠ store.maxSignatures := by
        rw [hp.most_eq]
        exact fun hsame => absurd (Int.ofNat.inj hsame) (by omega)
      have hroom : i + 1 + found.length ≤ most := by omega
      obtain ⟨h', hk', hrest⟩ := ih hposition (fun r hr => good r (List.mem_cons_of_mem _ hr)) hroom
      refine ⟨h', hk', ?_⟩
      rw [← Nat.add_assoc, signaturesFrom_succ hparts, hfetch, answered,
        reading_of_succeeds (good response List.mem_cons_self)]
      dsimp only
      rw [if_neg hbelow, hrest, Nat.add_right_comm, Nat.add_assoc]
      cases (store.signaturesFrom r digest (i + (found.length + 1)) fuel h').1 <;> rfl

/-- Behind the signatures found so far, the outcome that settles the next request decides. -/
theorem Plays.signaturesFrom_settled (hp : store.Plays s asked attempts most)
    (hparts : digestParts digest = .ok parts)
    (ha : s.Answers attempts (asked h.beyond).length found k') (good : ∀ r ∈ found, r.Succeeds)
    (room : found.length ≤ most) (hs : s.Settles attempts k' losses) :
    ∃ h₁ h₂, (store.signaturesFrom r digest 0 (most + 1) h).1 =
        (store.signaturesFrom r digest found.length (most - found.length + 1) h₁).1.map
          (found.map Response.body ++ ·) ∧
      store.fetch (addressOf store.baseUrl r parts found.length) h₁ =
        (reading (addressOf store.baseUrl r parts found.length) (s.outcome (k' + losses)), h₂) := by
  have hroom : 0 + found.length ≤ most := by omega
  have hfuel : most - found.length + 1 + found.length = most + 1 := by omega
  obtain ⟨h₁, rfl, hfound⟩ := hp.signaturesFrom_of_answers (r := r) hparts ha rfl
    good hroom (most - found.length + 1)
  obtain ⟨h₂, hfetch, -⟩ :=
    hp.fetch_of_settles (addressOf store.baseUrl r parts found.length) hs
  rw [hfuel, Nat.zero_add] at hfound
  exact ⟨h₁, h₂, hfound, hfetch⟩

theorem Plays.signaturesFrom_of_lists (hp : store.Plays s asked attempts most)
    (hparts : digestParts digest = .ok parts)
    (hl : s.Lists attempts most (asked h.beyond).length raws) :
    (store.signaturesFrom r digest 0 (most + 1) h).1 = .ok raws := by
  obtain ⟨found, last, k', ha, good, room, hmissing, rfl⟩ := hl
  obtain ⟨k₁, losses, hfound, hs, hanswer, -⟩ := Script.answers_snoc_iff.mp ha
  obtain ⟨h₁, h₂, hresult, hfetch⟩ :=
    hp.signaturesFrom_settled (r := r) hparts hfound good room hs
  rw [hanswer, reading_of_missing hmissing] at hfetch
  rw [hresult, signaturesFrom_succ hparts, hfetch]
  exact congrArg Except.ok (List.append_nil _)

theorem Plays.signaturesFrom_of_breaks (hp : store.Plays s asked attempts most)
    (hparts : digestParts digest = .ok parts)
    (hb : s.Breaks attempts most (addressOf store.baseUrl r parts) (store.surplus r digest)
      (asked h.beyond).length f) :
    (store.signaturesFrom r digest 0 (most + 1) h).1 = .error f := by
  cases hb with
  | refused ha good room found bad =>
      obtain ⟨k₁, losses, hfound, hs, hanswer, -⟩ := Script.answers_snoc_iff.mp ha
      obtain ⟨h₁, h₂, hresult, hfetch⟩ :=
        hp.signaturesFrom_settled (r := r) hparts hfound good room hs
      rw [hanswer, reading_of_refused found bad] at hfetch
      rw [hresult, signaturesFrom_succ hparts, hfetch]
      rfl
  | @lost found k₁ f ha good room losses lost all last =>
      have hs : s.Settles attempts k₁ losses := ⟨lost, by omega, .inl all⟩
      obtain ⟨h₁, h₂, hresult, hfetch⟩ :=
        hp.signaturesFrom_settled (r := r) hparts ha good room hs
      rw [last] at hfetch
      rw [hresult, signaturesFrom_succ hparts, hfetch]
      rfl
  | @surplus found k₁ ha good excess =>
      -- The last of these signatures is fetched where no further one is allowed.
      rcases List.eq_nil_or_concat found with rfl | ⟨before, last, rfl⟩
      · cases excess
      · rw [List.concat_eq_append] at ha good excess
        rw [List.length_append, List.length_singleton] at excess
        have hall : before.length = most := Nat.succ.inj excess
        obtain ⟨k₂, losses, hfound, hs, hanswer, -⟩ := Script.answers_snoc_iff.mp ha
        have hgood : ∀ r ∈ before, r.Succeeds := fun r hr => good r (List.mem_append_left _ hr)
        obtain ⟨h₁, h₂, hresult, hfetch⟩ :=
          hp.signaturesFrom_settled (r := r) hparts hfound hgood (Nat.le_of_eq hall) hs
        rw [hanswer, reading_of_succeeds (good last (List.mem_append_right _ List.mem_cons_self))]
          at hfetch
        rw [hresult, signaturesFrom_succ hparts, hfetch]
        dsimp only
        rw [if_pos (hp.most_eq.symm ▸ congrArg Int.ofNat hall)]
        rfl

/-- The listing ends by itself: steps behind the last number that is allowed are not made. -/
theorem signaturesFrom_more_fuel (hcap : store.maxSignatures = Int.ofNat most)
    (hparts : digestParts digest = .ok parts) {missing : Nat} (hall : i + missing = most)
    (extra : Nat) :
    store.signaturesFrom r digest i (missing + extra + 1) =
      store.signaturesFrom r digest i (missing + 1) := by
  induction missing generalizing i with
  | zero =>
      funext h
      rw [signaturesFrom_succ hparts, signaturesFrom_succ hparts]
      have hlast : Int.ofNat i = store.maxSignatures := by rw [hcap, ← hall, Nat.add_zero]
      simp only [if_pos hlast]
  | succ missing ih =>
      funext h
      have hrest : i + 1 + missing = most := by omega
      rw [Nat.add_right_comm missing, signaturesFrom_succ hparts, signaturesFrom_succ hparts,
        ih hrest]

theorem signatures_apply (hcap : store.maxSignatures = Int.ofNat most) (r : Reference)
    (digest : Text) (h : Host σ) :
    (store.signatures r digest h).1 = (store.signaturesFrom r digest 0 (most + 1) h).1 ∧
      (store.signatures r digest h).2.beyond =
        (store.signaturesFrom r digest 0 (most + 1) h).2.beyond := by
  have hbounded : ¬ store.maxSignatures < 0 := by
    rw [hcap]
    exact Int.not_lt.mpr (Int.natCast_nonneg most)
  have hfuel : (if store.maxSignatures < 0 then store.reach else store.maxSignatures.toNat + 1) =
      most + 1 := by
    rw [if_neg hbounded, hcap]
    rfl
  unfold signatures
  rw [hfuel, Act.bind_apply]
  cases store.signaturesFrom r digest 0 (most + 1) h with
  | mk result h' => cases result <;> exact ⟨rfl, rfl⟩

/-- A listing against a script. The numbers are asked for in order, each again only right after a
loss, and there is a limit to all the requests. The listing comes to a list just when the script
answers with these signatures and then that there is no further one, at the limit too; and to a fault
just when the script breaks off, with the fault that says how. More steps than up to the limit make
no difference: the listing ends by itself. -/
theorem signatures_complete (hp : store.Plays s asked attempts most)
    (hparts : digestParts digest = .ok parts) (h : Host σ) :
    (∃ numbers : List Nat, asked (store.signatures r digest h).2.beyond =
          asked h.beyond ++ numbers.map (addressOf store.baseUrl r parts) ∧
        s.InOrder (asked h.beyond).length 0 numbers ∧ numbers.length ≤ (most + 1) * attempts) ∧
      (∀ raws, (store.signatures r digest h).1 = .ok raws ↔
        s.Lists attempts most (asked h.beyond).length raws) ∧
      (∀ f, (store.signatures r digest h).1 = .error f ↔
        s.Breaks attempts most (addressOf store.baseUrl r parts) (store.surplus r digest)
          (asked h.beyond).length f) ∧
      (∀ f, (store.signatures r digest h).1 = .error f → f.kind = .signatureFetch) ∧
      ∀ fuel, most + 1 ≤ fuel →
        store.signaturesFrom r digest 0 fuel = store.signaturesFrom r digest 0 (most + 1) := by
  obtain ⟨hresult, hbeyond⟩ := signatures_apply hp.most_eq r digest h
  -- One of the two holds of the script, and what it says the listing comes to.
  have hends := s.lists_or_breaks hp.attempts_pos most (addressOf store.baseUrl r parts)
    (store.surplus r digest) (asked h.beyond).length
  have hlists : ∀ raws, (store.signatures r digest h).1 = .ok raws ↔
      s.Lists attempts most (asked h.beyond).length raws := by
    intro raws
    rw [hresult]
    refine ⟨fun hok => ?_, hp.signaturesFrom_of_lists hparts⟩
    rcases hends with ⟨raws', hl⟩ | ⟨f, hb⟩
    · rw [hp.signaturesFrom_of_lists hparts hl] at hok
      exact Except.ok.inj hok ▸ hl
    · rw [hp.signaturesFrom_of_breaks hparts hb] at hok
      cases hok
  have hbreaks : ∀ f, (store.signatures r digest h).1 = .error f ↔
      s.Breaks attempts most (addressOf store.baseUrl r parts) (store.surplus r digest)
        (asked h.beyond).length f := by
    intro f
    rw [hresult]
    refine ⟨fun herror => ?_, hp.signaturesFrom_of_breaks hparts⟩
    rcases hends with ⟨raws, hl⟩ | ⟨f', hb⟩
    · rw [hp.signaturesFrom_of_lists hparts hl] at herror
      cases herror
    · rw [hp.signaturesFrom_of_breaks hparts hb] at herror
      exact Except.error.inj herror ▸ hb
  refine ⟨?_, hlists, hbreaks, fun f herror => ((hbreaks f).mp herror).kind_eq rfl, ?_⟩
  · rw [hbeyond]
    exact hp.asked_signaturesFrom hparts 0 (most + 1) h
  · intro fuel hfuel
    obtain ⟨extra, rfl⟩ := Nat.exists_eq_add_of_le hfuel
    rw [Nat.add_right_comm]
    exact signaturesFrom_more_fuel hp.most_eq hparts (Nat.zero_add most) extra

end Listing

/-- The store that plays a script and does nothing else; it keeps what it was asked for. -/
def ofScript (s : Script) (baseUrl : Text) (attempts most : Nat) : Lookaside (List Text) where
  baseUrl := baseUrl
  get url h := (s.outcome h.beyond.length, { h with beyond := h.beyond ++ [url] })
  sleep _ := pure ()
  backoff := { Backoff.standard with attempts := .whole attempts }
  maxSignatures := Int.ofNat most
  reach := 0

theorem ofScript_plays (s : Script) (baseUrl : Text) (most : Nat) (hpos : 1 ≤ attempts)
    (hle : attempts ≤ 1024) : (ofScript s baseUrl attempts most).Plays s id attempts most where
  attempts_eq := rfl
  attempts_pos := hpos
  attempts_le := hle
  most_eq := rfl
  get_outcome _ _ := rfl
  get_asked _ _ := rfl
  sleep_outcome _ _ _ _ := rfl
  sleep_asked _ _ := rfl

/-- Two signatures, with a loss before the first of them and before the word that there is no
third. -/
def twoSigned : Script where
  outcome
    | 0 | 3 => .error (.given .connectError "refused")
    | 1 => .ok ⟨200, [1]⟩
    | 2 => .ok ⟨206, [2]⟩
    | _ => .ok ⟨404, []⟩
  transport := by
    rintro (_ | _ | _ | _ | k) f hf
    · cases hf
      rfl
    · cases hf
    · cases hf
    · cases hf
      rfl
    · cases hf

/-- With a second attempt the two signatures are listed, as many as are allowed; where one is
allowed there is one too many, and without a second attempt the first loss ends the listing. -/
theorem signatures_complete_two :
    ∃ (r : Reference) (digest : Text) (h : Host (List Text)),
      ((ofScript twoSigned "https://s.b" 2 2).signatures r digest h).1 = .ok [[1], [2]] ∧
      ((ofScript twoSigned "https://s.b" 2 1).signatures r digest h).1 =
        .error (.tooManySignatures 1 (manifestName r digest)) ∧
      ((ofScript twoSigned "https://s.b" 1 2).signatures r digest h).1 =
        .error (.unreachable "https://s.b/c@sha256=00/signature-1"
          (.given .connectError "refused")) := by
  have hloss : twoSigned.Loses 0 1 := Script.loses_succ_iff.mpr ⟨⟨_, rfl⟩, .zero _ _⟩
  have hloss' : twoSigned.Loses 3 1 := Script.loses_succ_iff.mpr ⟨⟨_, rfl⟩, .zero _ _⟩
  have htwo : twoSigned.Answers 2 0 [⟨200, [1]⟩, ⟨206, [2]⟩] 3 :=
    .cons hloss (by decide) rfl (.cons (.zero _ _) (by decide) rfl .nil)
  have hthree : twoSigned.Answers 2 0 ([⟨200, [1]⟩, ⟨206, [2]⟩] ++ [⟨404, []⟩]) 5 :=
    .cons hloss (by decide) rfl
      (.cons (.zero _ _) (by decide) rfl (.cons hloss' (by decide) rfl .nil))
  have hgood : ∀ response ∈ [(⟨200, [1]⟩ : Response), ⟨206, [2]⟩], response.Succeeds := by decide
  have hparts : digestParts "sha256:00" = .ok ("sha256", "00") := rfl
  let h : Host (List Text) := Host.fresh Disk.empty []
  refine ⟨⟨"a.b", "c", none, none⟩, "sha256:00", h, ?_, ?_, ?_⟩
  · exact ((signatures_complete (ofScript_plays _ _ 2 (by decide) (by decide)) hparts h).2.1 _).mpr
      ⟨_, _, _, hthree, hgood, by decide, rfl, rfl⟩
  · exact ((signatures_complete (ofScript_plays _ _ 1 (by decide) (by decide)) hparts h).2.2.1 _).mpr
      (.surplus htwo hgood rfl)
  · exact ((signatures_complete (ofScript_plays _ _ 2 (by decide) (by decide)) hparts h).2.2.1 _).mpr
      (.lost .nil (fun response hr => absurd hr List.not_mem_nil) (by decide) (.zero _ _) rfl rfl)

end Lookaside

end ImageTrust
